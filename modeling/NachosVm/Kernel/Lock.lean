import NachosVm.Kernel.Semaphore

/-! `Lock::Acquire` and `Lock::Release` (`kernel/synch.cc`, `Release` as built with
`ETUDIANTS_TP`) on the uniprocessor, with any number of threads, in the setting of the
semaphore's model: one step per interrupts-off part, a woken thread re-testing the loop of
`Acquire`, and each call ending with the `exit(ERROR)` of its stub. A thread calls `Release`
only while it holds the lock. -/
namespace NachosVm

structure LockState where
  is_free : Bool
  owner : Option Nat
  wait_queue : List Nat
  readyList : List Nat
  phase : Nat → Phase
  exited : Bool

def lock : LockState := ⟨true, none, [], [], fun _ => .idle, false⟩

def acquireSection (l : LockState) (t : Nat) : LockState :=
  if !l.is_free then
    { l with wait_queue := l.wait_queue ++ [t], phase := Function.update l.phase t .asleep }
  else
    { l with
      is_free := false
      owner := some t
      phase := Function.update l.phase t .exiting }

/-- `Lock::isHeldByCurrentThread`, with `t` the current thread. -/
def isHeldByCurrentThread (l : LockState) (t : Nat) : Bool := l.owner = some t

def releaseSection (l : LockState) (t : Nat) : Except Stop LockState :=
  if !isHeldByCurrentThread l t then .error (.assertFailed "isHeldByCurrentThread()")
  else
    match l.wait_queue with
    | u :: rest =>
      .ok { l with
        wait_queue := rest
        readyList := l.readyList ++ [u]
        phase := Function.update (Function.update l.phase u .ready) t .exiting }
    | [] =>
      .ok { l with
        is_free := true
        owner := none
        phase := Function.update l.phase t .exiting }

/-- The steps of the threads: a call of `Acquire` by an idle thread, the re-test of a thread
made ready, a call of `Release` by the thread holding the lock, and an `exit(ERROR)`. -/
inductive LockStep : LockState → LockState → Prop where
  | callAcquire {l : LockState} {t : Nat} : l.exited = false → l.phase t = .idle →
      LockStep l (acquireSection l t)
  | retest {l : LockState} {t : Nat} : l.exited = false → l.phase t = .ready →
      LockStep l (acquireSection { l with readyList := l.readyList.erase t } t)
  | callRelease {l l' : LockState} {t : Nat} : l.exited = false → l.phase t = .holding →
      releaseSection l t = .ok l' → LockStep l l'
  | exit {l : LockState} {t : Nat} : l.exited = false → l.phase t = .exiting →
      LockStep l { l with exited := true }

inductive LockReachable : LockState → Prop where
  | init : LockReachable lock
  | step {l l' : LockState} : LockReachable l → LockStep l l' → LockReachable l'

/-- No thread ever returns from `Acquire`: a busy lock is owned by a thread at the
`exit(ERROR)` after its `Acquire`, and a free one by nobody. -/
structure LockInv (l : LockState) : Prop where
  not_holding : ∀ t, l.phase t ≠ .holding
  owner_exiting : l.is_free = false → ∃ t, l.owner = some t ∧ l.phase t = .exiting
  free_owner : l.is_free = true → l.owner = none

@[simp] theorem acquireSection_busy {l : LockState} {t : Nat} (h : l.is_free = false) :
    acquireSection l t =
      { l with wait_queue := l.wait_queue ++ [t], phase := Function.update l.phase t .asleep } := by
  simp [acquireSection, h]

@[simp] theorem acquireSection_free {l : LockState} {t : Nat} (h : l.is_free = true) :
    acquireSection l t =
      { l with is_free := false, owner := some t, phase := Function.update l.phase t .exiting } := by
  simp [acquireSection, h]

theorem lockInv_init : LockInv lock :=
  ⟨fun _ h => (nomatch h), fun h => (nomatch h), fun _ => rfl⟩

theorem LockInv.acquireSection {l : LockState} {t : Nat} {r : List Nat} (h : LockInv l)
    (ht : l.phase t ≠ .exiting) : LockInv (acquireSection { l with readyList := r } t) := by
  have keep : ∀ p, p ≠ .holding → ∀ v, Function.update l.phase t p v ≠ .holding :=
    fun p hp v => by
      by_cases e : v = t
      · subst e; simpa using hp
      · simpa [e] using h.not_holding v
  cases hf : l.is_free
  · obtain ⟨u, hu, hpu⟩ := h.owner_exiting hf
    have hut : u ≠ t := fun e => ht (e ▸ hpu)
    rw [acquireSection_busy rfl]
    exact ⟨keep _ (by decide), fun _ => ⟨u, hu, by simp [hut, hpu]⟩, fun h' => (nomatch h')⟩
  · rw [acquireSection_free rfl]
    exact ⟨keep _ (by decide), fun _ => ⟨t, rfl, by simp⟩, nofun⟩

theorem lockInv_step {l l' : LockState} (h : LockInv l) (hs : LockStep l l') : LockInv l' := by
  cases hs with
  | callAcquire _ ht => exact h.acquireSection (r := l.readyList) (by simp [ht])
  | retest _ ht => exact h.acquireSection (by simp [ht])
  | callRelease _ ht _ => exact absurd ht (h.not_holding _)
  | exit _ _ => exact ⟨h.not_holding, h.owner_exiting, h.free_owner⟩

theorem lockInv_of_reachable {l : LockState} (h : LockReachable l) : LockInv l := by
  induction h with
  | init => exact lockInv_init
  | step _ hs ih => exact lockInv_step ih hs

structure LockShape (l : LockState) : Prop where
  queue_nodup : l.wait_queue.Nodup
  mem_queue : ∀ t, t ∈ l.wait_queue ↔ l.phase t = .asleep

theorem lockShape_init : LockShape lock :=
  ⟨List.nodup_nil, fun _ => iff_of_false (List.not_mem_nil _) nofun⟩

theorem LockShape.acquireSection {l : LockState} {t : Nat} {r : List Nat} (h : LockShape l)
    (ht : l.phase t ≠ .asleep) : LockShape (acquireSection { l with readyList := r } t) := by
  have htq : t ∉ l.wait_queue := fun hm => ht ((h.mem_queue t).1 hm)
  have other : ∀ p v, v ≠ t → (v ∈ l.wait_queue ↔ Function.update l.phase t p v = .asleep) :=
    fun p v e => by rw [Function.update_noteq e]; exact h.mem_queue v
  cases hf : l.is_free
  · rw [acquireSection_busy rfl]
    refine ⟨List.nodup_append.2 ⟨h.queue_nodup, List.nodup_singleton t,
      List.disjoint_singleton.2 htq⟩, fun v => ?_⟩
    by_cases e : v = t
    · subst e; simp
    · simpa [e] using other .asleep v e
  · rw [acquireSection_free rfl]
    refine ⟨h.queue_nodup, fun v => ?_⟩
    by_cases e : v = t
    · subst e; simp [htq]
    · exact other .exiting v e

theorem lockShape_step {l l' : LockState} (hi : LockInv l) (h : LockShape l)
    (hs : LockStep l l') : LockShape l' := by
  cases hs with
  | callAcquire _ ht => exact h.acquireSection (r := l.readyList) (by simp [ht])
  | retest _ ht => exact h.acquireSection (by simp [ht])
  | callRelease _ ht _ => exact absurd ht (hi.not_holding _)
  | exit _ _ => exact ⟨h.queue_nodup, h.mem_queue⟩

theorem lockShape_of_reachable {l : LockState} (h : LockReachable l) : LockShape l := by
  induction h with
  | init => exact lockShape_init
  | step hr hs ih => exact lockShape_step (lockInv_of_reachable hr) ih hs

theorem releaseSection_waiter {l l' : LockState} {t u : Nat} {rest : List Nat}
    (hq : l.wait_queue = u :: rest) (hr : releaseSection l t = .ok l') :
    l'.is_free = l.is_free ∧ l'.owner = some t ∧ l'.phase t = .exiting ∧
      l'.readyList = l.readyList ++ [u] := by
  unfold releaseSection at hr
  split_ifs at hr with hheld
  simp only [isHeldByCurrentThread, Bool.not_eq_true', decide_eq_false_iff_not,
    not_not] at hheld
  rw [hq] at hr
  cases hr
  exact ⟨rfl, hheld, by simp, rfl⟩

/-- The hand-off `Release` makes when it finds a waiter: the lock stays busy and owned by the
releaser, which is at its `exit(ERROR)`, and the waiter it made ready re-tests `is_free`, finds
the lock busy, and goes back to sleep. -/
theorem releaseSection_waiter_sleeps {l l' : LockState} {t u : Nat} {rest : List Nat}
    (hbusy : l.is_free = false) (hq : l.wait_queue = u :: rest)
    (hr : releaseSection l t = .ok l') :
    l'.is_free = false ∧ l'.owner = some t ∧ l'.phase t = .exiting ∧
      (acquireSection { l' with readyList := l'.readyList.erase u } u).phase u = .asleep := by
  obtain ⟨hfree, howner, hphase, -⟩ := releaseSection_waiter hq hr
  refine ⟨hfree.trans hbusy, howner, hphase, ?_⟩
  simp [NachosVm.acquireSection, hfree, hbusy]

/-- The lock as the code builds it: no thread is ever between returning from `Acquire` and
calling `Release`, since each `Acquire` ends in `exit(ERROR)`, yet one `Acquire` on a fresh
lock makes it busy, owned by that thread. -/
theorem lock_owner_never_holds :
    (∀ l, LockReachable l → (∀ t, l.phase t ≠ .holding) ∧
      (l.is_free = false → ∃ t, l.owner = some t ∧ l.phase t = .exiting)) ∧
    (LockReachable (acquireSection lock 0) ∧ (acquireSection lock 0).is_free = false ∧
      isHeldByCurrentThread (acquireSection lock 0) 0 = true) :=
  ⟨fun _ hl => ⟨(lockInv_of_reachable hl).not_holding, (lockInv_of_reachable hl).owner_exiting⟩,
    ⟨.step .init (.callAcquire rfl rfl), rfl, rfl⟩⟩

/-! ### The order of the sleepers -/

def acquireEvents (l : LockState) (t : Nat) : List QueueEvent :=
  if !l.is_free then [.sleep t] else []

inductive LockStepL : LockState → List QueueEvent → LockState → Prop where
  | callAcquire {l : LockState} {t : Nat} : l.exited = false → l.phase t = .idle →
      LockStepL l (acquireEvents l t) (acquireSection l t)
  | retest {l : LockState} {t : Nat} : l.exited = false → l.phase t = .ready →
      LockStepL l (acquireEvents l t) (acquireSection { l with readyList := l.readyList.erase t } t)
  | callRelease {l l' : LockState} {t : Nat} : l.exited = false → l.phase t = .holding →
      releaseSection l t = .ok l' → LockStepL l (removeEvents l.wait_queue) l'
  | exit {l : LockState} {t : Nat} : l.exited = false → l.phase t = .exiting →
      LockStepL l [] { l with exited := true }

theorem lockStepL_iff {l l' : LockState} : LockStep l l' ↔ ∃ e, LockStepL l e l' := by
  constructor
  · rintro (⟨h, ht⟩ | ⟨h, ht⟩ | ⟨h, ht, hr⟩ | ⟨h, ht⟩)
    exacts [⟨_, .callAcquire h ht⟩, ⟨_, .retest h ht⟩, ⟨_, .callRelease h ht hr⟩, ⟨_, .exit h ht⟩]
  · rintro ⟨_, ⟨h, ht⟩ | ⟨h, ht⟩ | ⟨h, ht, hr⟩ | ⟨h, ht⟩⟩
    exacts [.callAcquire h ht, .retest h ht, .callRelease h ht hr, .exit h ht]

theorem lockSteps_labelled {l l' : LockState} (h : Relation.ReflTransGen LockStep l l') :
    ∃ es, LabelledRun LockStepL l es l' := by
  induction h with
  | refl => exact ⟨[], .refl⟩
  | tail _ hs ih =>
    obtain ⟨es, hr⟩ := ih
    obtain ⟨e, hs⟩ := lockStepL_iff.1 hs
    exact ⟨_, hr.tail hs⟩

theorem acquireSection_queue (l : LockState) (t : Nat) :
    woken (acquireEvents l t) ++ (acquireSection l t).wait_queue =
      l.wait_queue ++ slept (acquireEvents l t) := by
  unfold acquireSection acquireEvents
  split_ifs <;> simp [woken, slept]

theorem releaseSection_queue {l l' : LockState} {t : Nat} (h : releaseSection l t = .ok l') :
    woken (removeEvents l.wait_queue) ++ l'.wait_queue =
      l.wait_queue ++ slept (removeEvents l.wait_queue) := by
  unfold releaseSection at h
  split_ifs at h
  rw [slept_removeEvents, List.append_nil]
  split at h <;> cases h <;> simp_all [removeEvents, woken]

theorem lockStepL_queue {l l' : LockState} {e : List QueueEvent} (h : LockStepL l e l') :
    woken e ++ l'.wait_queue = l.wait_queue ++ slept e := by
  cases h with
  | callAcquire => exact acquireSection_queue l _
  | @retest t _ _ => exact acquireSection_queue { l with readyList := l.readyList.erase t } t
  | callRelease _ _ hr => exact releaseSection_queue hr
  | exit => simp [woken, slept]

/-- First come, first woken: every run of a semaphore or of a lock is a labelled run, and over
any labelled run, from any state and in any interleaving of the threads, the threads woken are,
in order, those of the first `wait_queue` and then those that fell asleep during the run, and
the last queue is the rest. -/
theorem sleepers_woken_in_order :
    (∀ {s s' : SemState}, Relation.ReflTransGen SemStep s s' →
      ∃ es, LabelledRun SemStepL s es s') ∧
    (∀ {s s' : SemState} {es : List QueueEvent}, LabelledRun SemStepL s es s' →
      woken es ++ s'.wait_queue = s.wait_queue ++ slept es) ∧
    (∀ {l l' : LockState}, Relation.ReflTransGen LockStep l l' →
      ∃ es, LabelledRun LockStepL l es l') ∧
    (∀ {l l' : LockState} {es : List QueueEvent}, LabelledRun LockStepL l es l' →
      woken es ++ l'.wait_queue = l.wait_queue ++ slept es) :=
  ⟨semSteps_labelled, LabelledRun.queue SemState.wait_queue semStepL_queue,
    lockSteps_labelled, LabelledRun.queue LockState.wait_queue lockStepL_queue⟩

theorem sleepers_woken_in_order_two :
    let s₃ := vSection (pSection (pSection (semaphore 0) 0) 1) 2
    let l₃ := acquireSection (acquireSection (acquireSection lock 0) 1) 2
    let es := [QueueEvent.sleep 0, .sleep 1, .wake 0]
    LabelledRun SemStepL (semaphore 0) es s₃ ∧ woken es ++ s₃.wait_queue = [] ++ slept es ∧
      LabelledRun LockStepL lock [.sleep 1, .sleep 2] l₃ ∧
      woken [.sleep 1, .sleep 2] ++ l₃.wait_queue = [] ++ slept [.sleep 1, .sleep 2] := by
  intro s₃ l₃ es
  have hs : LabelledRun SemStepL (semaphore 0) es s₃ :=
    ((LabelledRun.refl.tail (SemStepL.callP (s := semaphore 0) (t := 0) rfl rfl)).tail
      (SemStepL.callP (t := 1) rfl rfl)).tail (SemStepL.callV (t := 2) rfl rfl)
  have hl : LabelledRun LockStepL lock ([] ++ [.sleep 1] ++ [.sleep 2]) l₃ :=
    ((LabelledRun.refl.tail (LockStepL.callAcquire (l := lock) (t := 0) rfl rfl)).tail
      (LockStepL.callAcquire (t := 1) rfl rfl)).tail (LockStepL.callAcquire (t := 2) rfl rfl)
  exact ⟨hs, sleepers_woken_in_order.2.1 hs, hl, sleepers_woken_in_order.2.2.2 hl⟩

end NachosVm
