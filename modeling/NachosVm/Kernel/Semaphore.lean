import Mathlib.Data.List.Nodup
import Mathlib.Logic.Relation
import NachosVm.Machine.Config

/-! `Semaphore::P` and `Semaphore::V` (`kernel/synch.cc`) on the uniprocessor, with any number
of threads. The part of a call between disabling and restoring interrupts is one step; a
thread asleep in `P` resumes, once `V` has made it ready, at the re-test of its loop, still in
that part. Each method ends, after restoring interrupts, with the `exit(ERROR)` of the stub it
was written into: other threads may run first, and it ends the program. -/
namespace NachosVm

/-- Where a thread is with respect to one semaphore or lock. -/
inductive Phase where
  | idle
  | asleep
  /-- Made ready by `V` or `Release`; it re-tests the loop's condition when it runs. -/
  | ready
  | holding
  /-- Past the interrupts-off part of a call, at the `exit(ERROR)` that ends it. -/
  | exiting
  deriving DecidableEq, Repr

/-- One semaphore, the threads using it, and whether the program has exited. `readyList` holds
the threads `V` made ready that have not run since. `completedV` and `decrementsP` count the
`V` calls past their increment and the decrements made by `P`. -/
structure SemState where
  count : Int
  wait_queue : List Nat
  readyList : List Nat
  phase : Nat → Phase
  exited : Bool
  completedV : Nat
  decrementsP : Nat

/-- `Semaphore::Semaphore(debugName, initialCount)`: the `int count` is set from a
`uint32_t`. -/
def semaphore (initialCount : Nat) : SemState :=
  ⟨toInt32 initialCount, [], [], fun _ => .idle, false, 0, 0⟩

def pSection (s : SemState) (t : Nat) : SemState :=
  if s.count = 0 then
    { s with wait_queue := s.wait_queue ++ [t], phase := Function.update s.phase t .asleep }
  else
    { s with
      count := wrapInt32 (s.count - 1)
      phase := Function.update s.phase t .exiting
      decrementsP := s.decrementsP + 1 }

def semWake (s : SemState) : SemState :=
  match s.wait_queue with
  | [] => s
  | u :: rest =>
    { s with
      wait_queue := rest
      readyList := s.readyList ++ [u]
      phase := Function.update s.phase u .ready }

def vSection (s : SemState) (t : Nat) : SemState :=
  { semWake s with
    count := wrapInt32 ((semWake s).count + 1)
    phase := Function.update (semWake s).phase t .exiting
    completedV := (semWake s).completedV + 1 }

/-- The steps of the threads: a call of `P` or of `V` by an idle thread, the re-test of a
thread made ready, and the `exit(ERROR)` of a thread past its call's interrupts-off part. -/
inductive SemStep : SemState → SemState → Prop where
  | callP {s : SemState} {t : Nat} : s.exited = false → s.phase t = .idle →
      SemStep s (pSection s t)
  | retest {s : SemState} {t : Nat} : s.exited = false → s.phase t = .ready →
      SemStep s (pSection { s with readyList := s.readyList.erase t } t)
  | callV {s : SemState} {t : Nat} : s.exited = false → s.phase t = .idle →
      SemStep s (vSection s t)
  | exit {s : SemState} {t : Nat} : s.exited = false → s.phase t = .exiting →
      SemStep s { s with exited := true }

inductive SemReachable (initialCount : Nat) : SemState → Prop where
  | init : SemReachable initialCount (semaphore initialCount)
  | step {s s' : SemState} : SemReachable initialCount s → SemStep s s' →
      SemReachable initialCount s'

structure SemShape (s : SemState) : Prop where
  queue_nodup : s.wait_queue.Nodup
  mem_queue : ∀ t, t ∈ s.wait_queue ↔ s.phase t = .asleep
  ready_nodup : s.readyList.Nodup
  mem_ready : ∀ t, t ∈ s.readyList ↔ s.phase t = .ready

structure SemCount (initialCount : Nat) (s : SemState) : Prop where
  count_eq : s.count = initialCount + s.completedV - s.decrementsP
  count_nonneg : 0 ≤ s.count
  no_lost_wakeup : s.wait_queue ≠ [] → s.count ≤ s.readyList.length

/-- What holds with no bound on the `V`s: the tally `initialCount + completedV - decrementsP`
never goes below 0, the `int` count is the tally wrapped to 32 bits, and while the tally is
below `2 ^ 32` no wake-up is lost. -/
structure SemTally (initialCount : Nat) (s : SemState) : Prop where
  tally_nonneg : 0 ≤ (initialCount : Int) + s.completedV - s.decrementsP
  count_wrap : s.count = wrapInt32 (initialCount + s.completedV - s.decrementsP)
  no_lost_wakeup : (initialCount : Int) + s.completedV - s.decrementsP < 2 ^ 32 →
    s.wait_queue ≠ [] → (initialCount : Int) + s.completedV - s.decrementsP ≤ s.readyList.length

/-! ### The shape of the queues -/

structure SemShapeBut (s : SemState) (t : Nat) : Prop where
  queue_nodup : s.wait_queue.Nodup
  ready_nodup : s.readyList.Nodup
  not_queue : t ∉ s.wait_queue
  not_ready : t ∉ s.readyList
  mem_queue : ∀ u, u ≠ t → (u ∈ s.wait_queue ↔ s.phase u = .asleep)
  mem_ready : ∀ u, u ≠ t → (u ∈ s.readyList ↔ s.phase u = .ready)

theorem semShape_init (n : Nat) : SemShape (semaphore n) :=
  ⟨List.nodup_nil, fun _ => by simp [semaphore], List.nodup_nil, fun _ => by simp [semaphore]⟩

theorem SemShape.but {s : SemState} {t : Nat} (h : SemShape s) (hq : s.phase t ≠ .asleep)
    (hr : s.phase t ≠ .ready) : SemShapeBut s t :=
  ⟨h.queue_nodup, h.ready_nodup, fun hm => hq ((h.mem_queue t).1 hm),
    fun hm => hr ((h.mem_ready t).1 hm), fun u _ => h.mem_queue u, fun u _ => h.mem_ready u⟩

theorem SemShape.retest {s : SemState} {t : Nat} (h : SemShape s) (ht : s.phase t = .ready) :
    SemShapeBut { s with readyList := s.readyList.erase t } t := by
  refine ⟨h.queue_nodup, h.ready_nodup.erase t, fun hm => ?_, h.ready_nodup.not_mem_erase,
    fun u _ => h.mem_queue u, fun u hu => ?_⟩
  · rw [(h.mem_queue t).1 hm] at ht; cases ht
  · simp only [List.mem_erase_of_ne hu, h.mem_ready]

theorem SemShapeBut.setPhase {s : SemState} {t : Nat} {p : Phase} (h : SemShapeBut s t)
    (hq : p ≠ .asleep) (hr : p ≠ .ready) :
    SemShape { s with phase := Function.update s.phase t p } := by
  refine ⟨h.queue_nodup, fun u => ?_, h.ready_nodup, fun u => ?_⟩
  all_goals by_cases hu : u = t
  · subst hu; simp [h.not_queue, hq]
  · simp [hu, h.mem_queue u hu]
  · subst hu; simp [h.not_ready, hr]
  · simp [hu, h.mem_ready u hu]

theorem SemShapeBut.pSection {s : SemState} {t : Nat} (h : SemShapeBut s t) :
    SemShape (pSection s t) := by
  unfold NachosVm.pSection
  split_ifs
  · refine ⟨h.queue_nodup.append (List.nodup_singleton t) (by simpa using h.not_queue),
      fun u => ?_, h.ready_nodup, fun u => ?_⟩
    all_goals by_cases hu : u = t
    · subst hu; simp
    · simp [hu, h.mem_queue u hu]
    · subst hu; simp [h.not_ready]
    · simp [hu, h.mem_ready u hu]
  · have h' := h.setPhase (p := .exiting) (by decide) (by decide)
    exact ⟨h'.queue_nodup, h'.mem_queue, h'.ready_nodup, h'.mem_ready⟩

theorem SemShape.semWake {s : SemState} {t : Nat} (h : SemShape s) (ht : s.phase t = .idle) :
    SemShapeBut (semWake s) t := by
  have hnq : t ∉ s.wait_queue := fun hm => by rw [(h.mem_queue t).1 hm] at ht; cases ht
  have hnr : t ∉ s.readyList := fun hm => by rw [(h.mem_ready t).1 hm] at ht; cases ht
  unfold NachosVm.semWake
  split
  · exact h.but (by simp [ht]) (by simp [ht])
  · rename_i u rest hqs
    have hasleep : s.phase u = .asleep := (h.mem_queue u).1 (by simp [hqs])
    have hu : u ∉ s.readyList := fun hm => by rw [(h.mem_ready u).1 hm] at hasleep; cases hasleep
    have htu : t ≠ u := fun e => by rw [e, hasleep] at ht; cases ht
    have hnd : (u :: rest).Nodup := hqs ▸ h.queue_nodup
    refine ⟨(List.nodup_cons.1 hnd).2, h.ready_nodup.append (List.nodup_singleton u)
      (by simpa using hu), fun hm => hnq (by simp [hqs, hm]), by simp [hnr, htu],
      fun v _ => ?_, fun v _ => ?_⟩
    all_goals by_cases hvu : v = u
    · subst hvu; simp [(List.nodup_cons.1 hnd).1]
    · simp [hvu, ← h.mem_queue, hqs]
    · subst hvu; simp
    · simp [hvu, h.mem_ready]

theorem SemShape.vSection {s : SemState} {t : Nat} (h : SemShape s) (ht : s.phase t = .idle) :
    SemShape (vSection s t) :=
  have h' := (h.semWake ht).setPhase (p := .exiting) (by decide) (by decide)
  ⟨h'.queue_nodup, h'.mem_queue, h'.ready_nodup, h'.mem_ready⟩

theorem semShape_step {s s' : SemState} (h : SemShape s) (hs : SemStep s s') : SemShape s' := by
  cases hs with
  | callP _ ht => exact (h.but (by simp [ht]) (by simp [ht])).pSection
  | retest _ ht => exact (h.retest ht).pSection
  | callV _ ht => exact h.vSection ht
  | exit _ _ => exact ⟨h.queue_nodup, h.mem_queue, h.ready_nodup, h.mem_ready⟩

/-! ### The count -/

@[simp] theorem semWake_count (s : SemState) : (semWake s).count = s.count := by
  unfold semWake; split <;> rfl

@[simp] theorem semWake_completedV (s : SemState) : (semWake s).completedV = s.completedV := by
  unfold semWake; split <;> rfl

@[simp] theorem semWake_decrementsP (s : SemState) :
    (semWake s).decrementsP = s.decrementsP := by
  unfold semWake; split <;> rfl

theorem semWake_queue {s : SemState} (h : (semWake s).wait_queue ≠ []) :
    s.wait_queue ≠ [] ∧ (semWake s).readyList.length = s.readyList.length + 1 := by
  unfold semWake at *
  split at * <;> simp_all

theorem semTally_pSection {n : Nat} {s : SemState} {t : Nat}
    (hnn : 0 ≤ (n : Int) + s.completedV - s.decrementsP)
    (hw : s.count = wrapInt32 (n + s.completedV - s.decrementsP))
    (hlen : (n : Int) + s.completedV - s.decrementsP < 2 ^ 32 → s.wait_queue ≠ [] →
      (n : Int) + s.completedV - s.decrementsP ≤ s.readyList.length + 1) :
    SemTally n (pSection s t) := by
  unfold NachosVm.pSection
  split_ifs with h0
  · have hz := wrapInt32_eq_zero_iff.1 (hw ▸ h0)
    exact ⟨hnn, hw, fun hlt _ => by dsimp only at hlt ⊢; omega⟩
  · have hz : ((n : Int) + s.completedV - s.decrementsP) % 2 ^ 32 ≠ 0 := fun h =>
      h0 (hw.trans (wrapInt32_eq_zero_iff.2 h))
    refine ⟨by push_cast; omega, ?_, fun hlt hq => ?_⟩
    · dsimp only
      rw [hw, sub_eq_add_neg, wrapInt32_wrap_add]
      exact congrArg wrapInt32 (by push_cast; omega)
    · have := hlen (by push_cast at hlt; omega) hq
      push_cast at hlt ⊢
      omega

theorem SemTally.vSection {n : Nat} {s : SemState} {t : Nat} (h : SemTally n s) :
    SemTally n (vSection s t) := by
  have hnn := h.tally_nonneg
  simp only [SemTally, NachosVm.vSection, semWake_count, semWake_completedV, semWake_decrementsP]
  refine ⟨by push_cast; omega, ?_, fun hlt hq => ?_⟩
  · rw [h.count_wrap, wrapInt32_wrap_add]
    exact congrArg wrapInt32 (by push_cast; omega)
  · dsimp only at hlt hq ⊢
    obtain ⟨hq', hlen⟩ := semWake_queue hq
    rw [hlen]
    push_cast at hlt ⊢
    have := h.no_lost_wakeup (by omega) hq'
    omega

theorem semTally_of_reachable {n : Nat} {s : SemState} (h : SemReachable n s) :
    SemShape s ∧ SemTally n s := by
  induction h with
  | init =>
    refine ⟨semShape_init n, by simp only [semaphore]; omega,
      (wrapInt32_natCast n).symm.trans (congrArg wrapInt32 (by simp only [semaphore]; omega)),
      fun _ hq => absurd rfl hq⟩
  | @step s s' _ hs ih =>
    obtain ⟨hshape, h⟩ := ih
    refine ⟨semShape_step hshape hs, ?_⟩
    cases hs with
    | callP _ _ =>
      exact semTally_pSection h.tally_nonneg h.count_wrap
        (fun hlt hq => by have := h.no_lost_wakeup hlt hq; omega)
    | @retest t _ ht =>
      have hmem := (hshape.mem_ready t).2 ht
      have hpos := List.length_pos_of_mem hmem
      refine semTally_pSection h.tally_nonneg h.count_wrap (fun hlt hq => ?_)
      have := h.no_lost_wakeup hlt hq
      simp only [List.length_erase_of_mem hmem]
      omega
    | callV _ _ => exact h.vSection
    | exit _ _ => exact ⟨h.tally_nonneg, h.count_wrap, h.no_lost_wakeup⟩

theorem SemTally.semCount {n : Nat} {s : SemState} (h : SemTally n s)
    (hfit : (n : Int) + s.completedV - s.decrementsP ≤ INT_MAX) : SemCount n s := by
  have hnn := h.tally_nonneg
  have hc : s.count = n + s.completedV - s.decrementsP :=
    h.count_wrap.trans (wrapInt32_of_range (by omega) hfit)
  refine ⟨hc, hc ▸ hnn, fun hq => hc ▸ h.no_lost_wakeup (by unfold INT_MAX at hfit; omega) hq⟩

theorem semInv_of_reachable {n : Nat} {s : SemState} (h : SemReachable n s) :
    SemShape s ∧ (n + s.completedV ≤ INT_MAX → SemCount n s) := by
  obtain ⟨hshape, h⟩ := semTally_of_reachable h
  exact ⟨hshape, fun hfit => h.semCount (by omega)⟩

inductive QueueEvent where
  | sleep (t : Nat)
  | wake (u : Nat)
  deriving DecidableEq, Repr

def woken : List QueueEvent → List Nat
  | [] => []
  | .wake u :: es => u :: woken es
  | .sleep _ :: es => woken es

def slept : List QueueEvent → List Nat
  | [] => []
  | .sleep t :: es => t :: slept es
  | .wake _ :: es => slept es

@[simp] theorem woken_append (es es' : List QueueEvent) :
    woken (es ++ es') = woken es ++ woken es' := by
  induction es with
  | nil => rfl
  | cons e es ih => cases e <;> simp [woken, ih]

@[simp] theorem slept_append (es es' : List QueueEvent) :
    slept (es ++ es') = slept es ++ slept es' := by
  induction es with
  | nil => rfl
  | cons e es ih => cases e <;> simp [slept, ih]

def removeEvents : List Nat → List QueueEvent
  | [] => []
  | u :: _ => [.wake u]

theorem slept_removeEvents (q : List Nat) : slept (removeEvents q) = [] := by
  cases q <;> rfl

inductive LabelledRun {σ : Type} (r : σ → List QueueEvent → σ → Prop) :
    σ → List QueueEvent → σ → Prop where
  | refl {s : σ} : LabelledRun r s [] s
  | tail {s s' s'' : σ} {es e : List QueueEvent} : LabelledRun r s es s' → r s' e s'' →
      LabelledRun r s (es ++ e) s''

theorem LabelledRun.queue {σ : Type} {r : σ → List QueueEvent → σ → Prop} (q : σ → List Nat)
    (hstep : ∀ {s e s'}, r s e s' → woken e ++ q s' = q s ++ slept e) {s s' : σ}
    {es : List QueueEvent} (h : LabelledRun r s es s') : woken es ++ q s' = q s ++ slept es := by
  induction h with
  | refl => simp [woken, slept]
  | tail _ hs ih =>
    rw [woken_append, slept_append, List.append_assoc, hstep hs, ← List.append_assoc, ih,
      List.append_assoc]

def pEvents (s : SemState) (t : Nat) : List QueueEvent :=
  if s.count = 0 then [.sleep t] else []

inductive SemStepL : SemState → List QueueEvent → SemState → Prop where
  | callP {s : SemState} {t : Nat} : s.exited = false → s.phase t = .idle →
      SemStepL s (pEvents s t) (pSection s t)
  | retest {s : SemState} {t : Nat} : s.exited = false → s.phase t = .ready →
      SemStepL s (pEvents s t) (pSection { s with readyList := s.readyList.erase t } t)
  | callV {s : SemState} {t : Nat} : s.exited = false → s.phase t = .idle →
      SemStepL s (removeEvents s.wait_queue) (vSection s t)
  | exit {s : SemState} {t : Nat} : s.exited = false → s.phase t = .exiting →
      SemStepL s [] { s with exited := true }

theorem semStepL_iff {s s' : SemState} : SemStep s s' ↔ ∃ e, SemStepL s e s' := by
  constructor
  · rintro (⟨h, ht⟩ | ⟨h, ht⟩ | ⟨h, ht⟩ | ⟨h, ht⟩)
    exacts [⟨_, .callP h ht⟩, ⟨_, .retest h ht⟩, ⟨_, .callV h ht⟩, ⟨_, .exit h ht⟩]
  · rintro ⟨_, ⟨h, ht⟩ | ⟨h, ht⟩ | ⟨h, ht⟩ | ⟨h, ht⟩⟩
    exacts [.callP h ht, .retest h ht, .callV h ht, .exit h ht]

theorem semSteps_labelled {s s' : SemState} (h : Relation.ReflTransGen SemStep s s') :
    ∃ es, LabelledRun SemStepL s es s' := by
  induction h with
  | refl => exact ⟨[], .refl⟩
  | tail _ hs ih =>
    obtain ⟨es, hr⟩ := ih
    obtain ⟨e, hs⟩ := semStepL_iff.1 hs
    exact ⟨_, hr.tail hs⟩

theorem pSection_queue (s : SemState) (t : Nat) :
    woken (pEvents s t) ++ (pSection s t).wait_queue = s.wait_queue ++ slept (pEvents s t) := by
  unfold pSection pEvents
  split_ifs <;> simp [woken, slept]

theorem vSection_queue (s : SemState) (t : Nat) :
    woken (removeEvents s.wait_queue) ++ (vSection s t).wait_queue =
      s.wait_queue ++ slept (removeEvents s.wait_queue) := by
  unfold vSection semWake removeEvents
  split <;> simp_all [woken, slept]

theorem semStepL_queue {s s' : SemState} {e : List QueueEvent} (h : SemStepL s e s') :
    woken e ++ s'.wait_queue = s.wait_queue ++ slept e := by
  cases h with
  | callP => exact pSection_queue s _
  | @retest t _ _ => exact pSection_queue { s with readyList := s.readyList.erase t } t
  | callV => exact vSection_queue s _
  | exit => simp [woken, slept]

end NachosVm
