import NachosVm.Kernel.Lock
import NachosVm.Utility.List

/-! `Semaphore` and `Lock` (`kernel/synch.cc`) with their `wait_queue` as the code keeps it: a
`ListThread`, the linked `List<Thread *>` of `utility/list.h`, which they change only by
`Append` and `Remove`. A running thread is a `Thread *`, never `NULL`. Every state the code
reaches stands for a state that the models of `Kernel.Semaphore` and `Kernel.Lock` reach,
the one whose queue is the items of the list, so that their invariants hold of the code. -/
namespace NachosVm

open LinkedList

/-! ### The semaphore -/

/-- A semaphore as the code keeps it: the fields of `SemState`, with the `wait_queue` a linked
list over its heap of cells. -/
structure SemImpl where
  count : Int
  wait_queue : LinkedList Nat
  readyList : List Nat
  phase : Nat → Phase
  exited : Bool
  completedV : Nat
  decrementsP : Nat

def semImpl (initialCount : Nat) (cells : Nat → ListElement Nat) (free : Nat) : SemImpl :=
  ⟨toInt32 initialCount, LinkedList.empty cells free, [], fun _ => .idle, false, 0, 0⟩

namespace SemImpl

def pSection (s : SemImpl) (t : Nat) : Except Stop SemImpl :=
  if s.count = 0 then do
    let q ← s.wait_queue.append t
    return { s with wait_queue := q, phase := Function.update s.phase t .asleep }
  else
    .ok { s with
      count := wrapInt32 (s.count - 1)
      phase := Function.update s.phase t .exiting
      decrementsP := s.decrementsP + 1 }

def semWake (s : SemImpl) : Except Stop SemImpl := do
  let (thread, q) ← s.wait_queue.remove
  if thread ≠ 0 then
    return { s with
      wait_queue := q
      readyList := s.readyList ++ [thread]
      phase := Function.update s.phase thread .ready }
  else return { s with wait_queue := q }

def vSection (s : SemImpl) (t : Nat) : Except Stop SemImpl := do
  let s ← s.semWake
  return { s with
    count := wrapInt32 (s.count + 1)
    phase := Function.update s.phase t .exiting
    completedV := s.completedV + 1 }

/-- `Semaphore::~Semaphore`: when the list is not empty, take its first thread off and append
it again, to print its name; then `ASSERT(wait_queue->IsEmpty())`. -/
def destroy (s : SemImpl) : Except Stop Unit := do
  let q ← if !s.wait_queue.isEmpty then do
      let (t, q) ← s.wait_queue.remove
      q.append t
    else pure s.wait_queue
  if q.isEmpty then pure () else throw (.assertFailed "wait_queue->IsEmpty()")

def toState (s : SemImpl) (q : List Nat) : SemState :=
  ⟨s.count, q, s.readyList, s.phase, s.exited, s.completedV, s.decrementsP⟩

/-- `s` stands for the model's state `a`: its list is well formed, its items are `a`'s queue,
with no `NULL` thread, and the other fields agree. -/
def Refines (s : SemImpl) (a : SemState) : Prop :=
  ∃ as, s.wait_queue.Holds as ∧ a = s.toState (s.wait_queue.items as) ∧ 0 ∉ a.wait_queue

end SemImpl

inductive SemImplStep : SemImpl → SemImpl → Prop where
  | callP {s s' : SemImpl} {t : Nat} : s.exited = false → t ≠ 0 → s.phase t = .idle →
      s.pSection t = .ok s' → SemImplStep s s'
  | retest {s s' : SemImpl} {t : Nat} : s.exited = false → t ≠ 0 → s.phase t = .ready →
      { s with readyList := s.readyList.erase t }.pSection t = .ok s' → SemImplStep s s'
  | callV {s s' : SemImpl} {t : Nat} : s.exited = false → s.phase t = .idle →
      s.vSection t = .ok s' → SemImplStep s s'
  | exit {s : SemImpl} {t : Nat} : s.exited = false → s.phase t = .exiting →
      SemImplStep s { s with exited := true }

inductive SemImplReachable (initialCount : Nat) : SemImpl → Prop where
  | init (cells : Nat → ListElement Nat) (free : Nat) :
      SemImplReachable initialCount (semImpl initialCount cells free)
  | step {s s' : SemImpl} : SemImplReachable initialCount s → SemImplStep s s' →
      SemImplReachable initialCount s'

namespace SemImpl

section
variable {s s' : SemImpl} {as : List Nat}

theorem pSection_refines {t : Nat} (h : s.wait_queue.Holds as) (ht : t ≠ 0)
    (hz : 0 ∉ s.wait_queue.items as) (hp : s.pSection t = .ok s') :
    s'.Refines (NachosVm.pSection (s.toState (s.wait_queue.items as)) t) := by
  unfold pSection at hp
  by_cases hc : s.count = 0
  · obtain ⟨q, as', ha, h', he⟩ := h.append_items t
    simp only [if_pos hc, ha, bind, Except.bind, pure, Except.pure, Except.ok.injEq] at hp
    subst hp
    refine ⟨as', h', ?_, ?_⟩
    · simp [NachosVm.pSection, toState, hc, he]
    · simpa [NachosVm.pSection, toState, hc] using ⟨hz, ht.symm⟩
  · simp only [if_neg hc, Except.ok.injEq] at hp
    subst hp
    exact ⟨as, h, by simp [NachosVm.pSection, toState, hc],
      by simpa [NachosVm.pSection, toState, hc]⟩

theorem semWake_refines (h : s.wait_queue.Holds as) (hz : 0 ∉ s.wait_queue.items as)
    (hw : s.semWake = .ok s') :
    s'.Refines (NachosVm.semWake (s.toState (s.wait_queue.items as))) := by
  obtain ⟨q, as', hr, h', he⟩ := h.remove_items
  unfold semWake at hw
  simp only [hr, bind, Except.bind, pure, Except.pure] at hw
  cases hi : s.wait_queue.items as with
  | nil =>
    simp only [hi, List.headD_nil, ne_eq, not_true_eq_false, if_false, Except.ok.injEq] at hw
    subst hw
    exact ⟨as', h', by simp [NachosVm.semWake, toState, he, hi],
      by simp [NachosVm.semWake, toState, hi]⟩
  | cons x rest =>
    have hx : x ≠ 0 := fun e => hz (e ▸ hi ▸ List.mem_cons_self x rest)
    simp only [hi, List.headD_cons, ne_eq, hx, not_false_eq_true, if_true, Except.ok.injEq] at hw
    subst hw
    refine ⟨as', h', by simp [NachosVm.semWake, toState, he, hi], ?_⟩
    simpa [NachosVm.semWake, hi] using fun hr' => hz (hi ▸ List.mem_cons_of_mem x hr')

theorem vSection_refines {t : Nat} (h : s.wait_queue.Holds as) (hz : 0 ∉ s.wait_queue.items as)
    (hv : s.vSection t = .ok s') :
    s'.Refines (NachosVm.vSection (s.toState (s.wait_queue.items as)) t) := by
  unfold vSection at hv
  cases hw : s.semWake with
  | error e => simp [hw, bind, Except.bind] at hv
  | ok s₁ =>
    simp only [hw, bind, Except.bind, pure, Except.pure, Except.ok.injEq] at hv
    subst hv
    obtain ⟨as₁, h₁, he, hz₁⟩ := semWake_refines h hz hw
    exact ⟨as₁, h₁, by rw [NachosVm.vSection, he]; rfl,
      by simpa [NachosVm.vSection, he] using hz₁⟩

end

end SemImpl

theorem semImplStep_refines {s s' : SemImpl} {a : SemState} (h : s.Refines a)
    (hs : SemImplStep s s') : ∃ a', SemStep a a' ∧ s'.Refines a' := by
  obtain ⟨as, hq, rfl, hz⟩ := h
  cases hs with
  | callP he ht hp hsec => exact ⟨_, .callP he hp, SemImpl.pSection_refines hq ht hz hsec⟩
  | @retest _ t he ht hp hsec =>
    exact ⟨_, .retest he hp,
      SemImpl.pSection_refines (s := { s with readyList := s.readyList.erase t }) hq ht hz hsec⟩
  | callV he hp hsec => exact ⟨_, .callV he hp, SemImpl.vSection_refines hq hz hsec⟩
  | exit he hp => exact ⟨_, .exit he hp, as, hq, rfl, hz⟩

theorem semImpl_refines_of_reachable {n : Nat} {s : SemImpl} (h : SemImplReachable n s) :
    ∃ a, SemReachable n a ∧ s.Refines a := by
  induction h with
  | init cells free => exact ⟨_, .init, [], holds_empty cells free, rfl, List.not_mem_nil 0⟩
  | step _ hs ih =>
    obtain ⟨a, ha, hr⟩ := ih
    obtain ⟨a', hs', hr'⟩ := semImplStep_refines hr hs
    exact ⟨a', .step ha hs', hr'⟩

theorem semaphore_impl_counts {n : Nat} {s : SemImpl} (h : SemImplReachable n s) :
    ∃ as, s.wait_queue.Holds as ∧ SemReachable n (s.toState (s.wait_queue.items as)) ∧
      (s.wait_queue.items as).Nodup ∧ 0 ∉ s.wait_queue.items as ∧
      (∀ t, t ∈ s.wait_queue.items as ↔ s.phase t = .asleep) ∧
      (n + s.completedV ≤ INT_MAX → s.count = n + s.completedV - s.decrementsP ∧ 0 ≤ s.count ∧
        (s.wait_queue.items as ≠ [] → s.count ≤ s.readyList.length)) := by
  obtain ⟨a, ha, as, hq, rfl, hz⟩ := semImpl_refines_of_reachable h
  obtain ⟨hshape, hcount⟩ := semInv_of_reachable ha
  exact ⟨as, hq, ha, hshape.queue_nodup, hz, hshape.mem_queue, fun hfit =>
    ⟨(hcount hfit).count_eq, (hcount hfit).count_nonneg, (hcount hfit).no_lost_wakeup⟩⟩

def blankCells : Nat → ListElement Nat := fun _ => ⟨none, 0, 0⟩

def semAsleep : SemImpl :=
  { semImpl 0 blankCells 0 with
    wait_queue := ⟨some 0, some 0, Function.update blankCells 0 ⟨none, 0, 1⟩, 1⟩
    phase := Function.update (fun _ => .idle) 1 .asleep }

def semWoken : SemImpl :=
  { semAsleep with
    count := 1
    wait_queue := ⟨none, none, Function.update blankCells 0 ⟨none, 0, 1⟩, 1⟩
    readyList := [1]
    phase := Function.update (Function.update semAsleep.phase 1 .ready) 2 .exiting
    completedV := 1 }

theorem semaphore_impl_counts_wakeup :
    SemImplReachable 0 semWoken ∧
      ∃ as, semWoken.wait_queue.Holds as ∧
        SemReachable 0 (semWoken.toState (semWoken.wait_queue.items as)) ∧
        (semWoken.wait_queue.items as).Nodup ∧ 0 ∉ semWoken.wait_queue.items as ∧
        (∀ t, t ∈ semWoken.wait_queue.items as ↔ semWoken.phase t = .asleep) ∧
        ((0 : Nat) + semWoken.completedV ≤ INT_MAX →
          semWoken.count = (0 : Nat) + semWoken.completedV - semWoken.decrementsP ∧
          0 ≤ semWoken.count ∧
          (semWoken.wait_queue.items as ≠ [] → semWoken.count ≤ semWoken.readyList.length)) :=
  have hr : SemImplReachable 0 semWoken :=
    .step (.step (.init blankCells 0) (.callP (t := 1) rfl (by decide) rfl rfl))
      (.callV (t := 2) rfl rfl rfl)
  ⟨hr, semaphore_impl_counts hr⟩

/-! ### The lock -/

/-- A lock as the code keeps it: the fields of `LockState`, with the `wait_queue` a linked
list over its heap of cells. -/
structure LockImpl where
  is_free : Bool
  owner : Option Nat
  wait_queue : LinkedList Nat
  readyList : List Nat
  phase : Nat → Phase
  exited : Bool

def lockImpl (cells : Nat → ListElement Nat) (free : Nat) : LockImpl :=
  ⟨true, none, LinkedList.empty cells free, [], fun _ => .idle, false⟩

namespace LockImpl

def acquireSection (l : LockImpl) (t : Nat) : Except Stop LockImpl :=
  if !l.is_free then do
    let q ← l.wait_queue.append t
    return { l with wait_queue := q, phase := Function.update l.phase t .asleep }
  else
    .ok { l with is_free := false, owner := some t, phase := Function.update l.phase t .exiting }

def isHeldByCurrentThread (l : LockImpl) (t : Nat) : Bool := l.owner = some t

def releaseSection (l : LockImpl) (t : Nat) : Except Stop LockImpl :=
  if !l.isHeldByCurrentThread t then .error (.assertFailed "isHeldByCurrentThread()")
  else if !l.wait_queue.isEmpty then do
    let (thread, q) ← l.wait_queue.remove
    return { l with
      wait_queue := q
      readyList := l.readyList ++ [thread]
      phase := Function.update (Function.update l.phase thread .ready) t .exiting }
  else
    .ok { l with is_free := true, owner := none, phase := Function.update l.phase t .exiting }

def destroy (l : LockImpl) : Except Stop Unit :=
  if l.wait_queue.isEmpty then .ok () else .error (.assertFailed "wait_queue->IsEmpty()")

def toState (l : LockImpl) (q : List Nat) : LockState :=
  ⟨l.is_free, l.owner, q, l.readyList, l.phase, l.exited⟩

def Refines (l : LockImpl) (a : LockState) : Prop :=
  ∃ as, l.wait_queue.Holds as ∧ a = l.toState (l.wait_queue.items as)

end LockImpl

inductive LockImplStep : LockImpl → LockImpl → Prop where
  | callAcquire {l l' : LockImpl} {t : Nat} : l.exited = false → l.phase t = .idle →
      l.acquireSection t = .ok l' → LockImplStep l l'
  | retest {l l' : LockImpl} {t : Nat} : l.exited = false → l.phase t = .ready →
      { l with readyList := l.readyList.erase t }.acquireSection t = .ok l' → LockImplStep l l'
  | callRelease {l l' : LockImpl} {t : Nat} : l.exited = false → l.phase t = .holding →
      l.releaseSection t = .ok l' → LockImplStep l l'
  | exit {l : LockImpl} {t : Nat} : l.exited = false → l.phase t = .exiting →
      LockImplStep l { l with exited := true }

inductive LockImplReachable : LockImpl → Prop where
  | init (cells : Nat → ListElement Nat) (free : Nat) : LockImplReachable (lockImpl cells free)
  | step {l l' : LockImpl} : LockImplReachable l → LockImplStep l l' → LockImplReachable l'

namespace LockImpl

section
variable {l l' : LockImpl} {as : List Nat} {t : Nat}

theorem acquireSection_refines (h : l.wait_queue.Holds as) (hp : l.acquireSection t = .ok l') :
    l'.Refines (NachosVm.acquireSection (l.toState (l.wait_queue.items as)) t) := by
  unfold acquireSection at hp
  cases hf : l.is_free
  · obtain ⟨q, as', ha, h', he⟩ := h.append_items t
    simp only [hf, Bool.not_false, if_true, ha, bind, Except.bind, pure, Except.pure,
      Except.ok.injEq] at hp
    subst hp
    exact ⟨as', h', by simp [NachosVm.acquireSection, toState, hf, he]⟩
  · simp only [hf, Bool.not_true, Bool.false_eq_true, if_false, Except.ok.injEq] at hp
    subst hp
    exact ⟨as, h, by simp [NachosVm.acquireSection, toState, hf]⟩

theorem releaseSection_refines (h : l.wait_queue.Holds as) (hr : l.releaseSection t = .ok l') :
    ∃ a', NachosVm.releaseSection (l.toState (l.wait_queue.items as)) t = .ok a' ∧
      l'.Refines a' := by
  unfold releaseSection at hr
  by_cases hh : l.isHeldByCurrentThread t = true
  · have hown : l.owner = some t := by simpa [isHeldByCurrentThread] using hh
    obtain ⟨q, as', hrm, h', he⟩ := h.remove_items
    rw [h.isEmpty_eq] at hr
    cases hi : l.wait_queue.items as with
    | nil =>
      simp only [hh, hi, Bool.not_true, Bool.false_eq_true, if_false, List.isEmpty_nil,
        Except.ok.injEq] at hr
      subst hr
      refine ⟨_, ?_, as, h, rfl⟩
      simp [NachosVm.releaseSection, NachosVm.isHeldByCurrentThread, toState, hi, hown]
    | cons x rest =>
      simp only [hh, hi, Bool.not_true, Bool.false_eq_true, if_false, List.isEmpty_cons,
        Bool.not_false, if_true, hrm, List.headD_cons, bind, Except.bind, pure, Except.pure,
        Except.ok.injEq] at hr
      subst hr
      refine ⟨_, ?_, as', h', rfl⟩
      simp [NachosVm.releaseSection, NachosVm.isHeldByCurrentThread, toState, hi, hown, he]
  · simp [hh] at hr

end

end LockImpl

theorem lockImplStep_refines {l l' : LockImpl} {a : LockState} (h : l.Refines a)
    (hs : LockImplStep l l') : ∃ a', LockStep a a' ∧ l'.Refines a' := by
  obtain ⟨as, hq, rfl⟩ := h
  cases hs with
  | callAcquire he hp hsec =>
    exact ⟨_, .callAcquire he hp, LockImpl.acquireSection_refines hq hsec⟩
  | @retest _ t he hp hsec =>
    exact ⟨_, .retest he hp,
      LockImpl.acquireSection_refines (l := { l with readyList := l.readyList.erase t }) hq hsec⟩
  | callRelease he hp hsec =>
    obtain ⟨a', hr, hr'⟩ := LockImpl.releaseSection_refines hq hsec
    exact ⟨a', .callRelease he hp hr, hr'⟩
  | exit he hp => exact ⟨_, .exit he hp, as, hq, rfl⟩

theorem lockImpl_refines_of_reachable {l : LockImpl} (h : LockImplReachable l) :
    ∃ a, LockReachable a ∧ l.Refines a := by
  induction h with
  | init cells free => exact ⟨_, .init, [], holds_empty cells free, rfl⟩
  | step _ hs ih =>
    obtain ⟨a, ha, hr⟩ := ih
    obtain ⟨a', hs', hr'⟩ := lockImplStep_refines hr hs
    exact ⟨a', .step ha hs', hr'⟩

theorem lock_impl_refines {l : LockImpl} (h : LockImplReachable l) :
    ∃ as, l.wait_queue.Holds as ∧ LockReachable (l.toState (l.wait_queue.items as)) ∧
      (∀ t, l.phase t ≠ .holding) ∧
      (l.is_free = false → ∃ t, l.owner = some t ∧ l.phase t = .exiting) ∧
      (l.is_free = true → l.owner = none) := by
  obtain ⟨a, ha, as, hq, rfl⟩ := lockImpl_refines_of_reachable h
  have hinv := lockInv_of_reachable ha
  exact ⟨as, hq, ha, hinv.not_holding, hinv.owner_exiting, hinv.free_owner⟩

def lockSlept : LockImpl :=
  { lockImpl blankCells 0 with
    is_free := false
    owner := some 1
    wait_queue := ⟨some 0, some 0, Function.update blankCells 0 ⟨none, 0, 2⟩, 1⟩
    phase := Function.update (Function.update (fun _ => .idle) 1 .exiting) 2 .asleep }

theorem lock_impl_refines_sleep :
    LockImplReachable lockSlept ∧
      ∃ as, lockSlept.wait_queue.Holds as ∧
        LockReachable (lockSlept.toState (lockSlept.wait_queue.items as)) ∧
        (∀ t, lockSlept.phase t ≠ .holding) ∧
        (lockSlept.is_free = false → ∃ t, lockSlept.owner = some t ∧ lockSlept.phase t = .exiting) ∧
        (lockSlept.is_free = true → lockSlept.owner = none) :=
  have hr : LockImplReachable lockSlept :=
    .step (.step (.init blankCells 0) (.callAcquire (t := 1) rfl rfl rfl))
      (.callAcquire (t := 2) rfl rfl rfl)
  ⟨hr, lock_impl_refines hr⟩

/-! ### Destruction -/

theorem SemImpl.destroy_eq {s : SemImpl} {as : List Nat} (h : s.wait_queue.Holds as) :
    s.destroy = if s.wait_queue.items as = [] then .ok ()
      else .error (.assertFailed "wait_queue->IsEmpty()") := by
  unfold destroy
  cases hi : s.wait_queue.items as with
  | nil => simp [h.isEmpty_eq, hi, bind, Except.bind, pure, Except.pure]
  | cons x rest =>
    obtain ⟨q, as', hr, h', -⟩ := h.remove_items
    obtain ⟨q', as'', ha, h'', he⟩ := h'.append_items x
    rw [hi] at hr
    simp [h.isEmpty_eq, hi, hr, ha, h''.isEmpty_eq, he, bind, Except.bind, throw, throwThe,
      MonadExceptOf.throw]

/-- Deleting a semaphore or a lock, in any state of any run, passes the destructor's
`ASSERT(wait_queue->IsEmpty())` exactly when no thread sleeps on it, and otherwise stops at
that `ASSERT`. `~Semaphore` first takes the first sleeper off the list and appends it again,
to print its name, which leaves it there. -/
theorem destroy_needs_no_sleeper :
    (∀ {n : Nat} {s : SemImpl}, SemImplReachable n s →
      (s.destroy = .ok () ∧ ∀ t, s.phase t ≠ .asleep) ∨
      (s.destroy = .error (.assertFailed "wait_queue->IsEmpty()") ∧ ∃ t, s.phase t = .asleep)) ∧
    (∀ {l : LockImpl}, LockImplReachable l →
      (l.destroy = .ok () ∧ ∀ t, l.phase t ≠ .asleep) ∨
      (l.destroy = .error (.assertFailed "wait_queue->IsEmpty()") ∧ ∃ t, l.phase t = .asleep)) := by
  refine ⟨@fun n s h => ?_, @fun l h => ?_⟩
  · obtain ⟨a, ha, as, hq, rfl, -⟩ := semImpl_refines_of_reachable h
    have hm := (semInv_of_reachable ha).1.mem_queue
    rw [SemImpl.destroy_eq hq]
    cases hi : s.wait_queue.items as with
    | nil => exact .inl ⟨rfl, fun t ht => by simpa [SemImpl.toState, hi] using (hm t).2 ht⟩
    | cons x rest => exact .inr ⟨rfl, x, by simpa [SemImpl.toState, hi] using (hm x).1⟩
  · obtain ⟨a, ha, as, hq, rfl⟩ := lockImpl_refines_of_reachable h
    have hm := (lockShape_of_reachable ha).mem_queue
    unfold LockImpl.destroy
    rw [hq.isEmpty_eq]
    cases hi : l.wait_queue.items as with
    | nil => exact .inl ⟨rfl, fun t ht => by simpa [LockImpl.toState, hi] using (hm t).2 ht⟩
    | cons x rest => exact .inr ⟨rfl, x, by simpa [LockImpl.toState, hi] using (hm x).1⟩

theorem destroy_needs_no_sleeper_asleep :
    SemImplReachable 0 semAsleep ∧ LockImplReachable lockSlept ∧
      semAsleep.destroy = .error (.assertFailed "wait_queue->IsEmpty()") ∧
      lockSlept.destroy = .error (.assertFailed "wait_queue->IsEmpty()") := by
  have hs : SemImplReachable 0 semAsleep :=
    .step (.init blankCells 0) (.callP (t := 1) rfl (by decide) rfl rfl)
  have hl : LockImplReachable lockSlept :=
    .step (.step (.init blankCells 0) (.callAcquire (t := 1) rfl rfl rfl))
      (.callAcquire (t := 2) rfl rfl rfl)
  refine ⟨hs, hl, ?_, ?_⟩
  · rcases destroy_needs_no_sleeper.1 hs with ⟨-, h⟩ | ⟨h, -⟩
    · exact absurd rfl (h 1)
    · exact h
  · rcases destroy_needs_no_sleeper.2 hl with ⟨-, h⟩ | ⟨h, -⟩
    · exact absurd rfl (h 2)
    · exact h

end NachosVm
