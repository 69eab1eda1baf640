import NachosVm.Vm.PhysMem
import Mathlib.Data.List.Nodup

/-! The free list of `PhysicalMemManager` over every sequence of its calls. From the
constructor on, in every run whose `ASSERT`s hold, `free_page_list` lists each free frame
exactly once and nothing else; so `FindFreePage` never meets a frame that is not free, and a
frame it hands out comes back only through `FreePhysicalPage`. -/
namespace NachosVm

variable {cfg : Config}

inductive PhysMemCall where
  | findFreePage
  | freePhysicalPage (p : Nat)
  | setTPREntry (p virtualpage : Nat) (owner : Option Nat) (locked : Bool)
  | unlockPage (p : Nat)
  deriving DecidableEq, Repr

namespace PhysMemCall

variable (cfg) in
def run : PhysMemCall → Kernel → Except Stop Kernel
  | .findFreePage, k => (NachosVm.findFreePage k).map Prod.snd
  | .freePhysicalPage p, k => NachosVm.freePhysicalPage k p
  | .setTPREntry p v o l, k => .ok (NachosVm.setTPREntry k p v o l)
  | .unlockPage p, k => NachosVm.unlockPage cfg k p

variable (cfg) in
/-- The frame argument, where there is one, is a frame of the machine. -/
def InRange : PhysMemCall → Prop
  | .findFreePage => True
  | .freePhysicalPage p | .setTPREntry p .. | .unlockPage p => p < cfg.NumPhysPages

end PhysMemCall

variable (cfg) in
inductive PhysMemReachable : Kernel → Prop where
  | init (k₀ : Kernel) : PhysMemReachable (physicalMemManager cfg k₀)
  | call {k k' : Kernel} (c : PhysMemCall) : PhysMemReachable k → c.InRange cfg →
      c.run cfg k = .ok k' → PhysMemReachable k'

variable (cfg) in
/-- `free_page_list` holds exactly the free frames of the machine, each once. -/
structure FreeListExact (k : Kernel) : Prop where
  nodup : k.free_page_list.Nodup
  mem_iff : ∀ i, i ∈ k.free_page_list ↔ i < cfg.NumPhysPages ∧ (k.tpr i).free

theorem freeListExact_init (k₀ : Kernel) : FreeListExact cfg (physicalMemManager cfg k₀) :=
  ⟨List.nodup_range _, fun i => by simp [physicalMemManager, List.mem_range]⟩

theorem freeListExact_findFreePage {k k' : Kernel} {p : Nat} (h : FreeListExact cfg k)
    (hf : findFreePage k = .ok (p, k')) : FreeListExact cfg k' := by
  rcases findFreePage_cases hf with ⟨-, -, rfl⟩ | ⟨rest, hl, -, rfl⟩
  · exact h
  · have hn := h.nodup
    rw [hl, List.nodup_cons] at hn
    refine ⟨hn.2, fun i => ?_⟩
    by_cases hi : i = p
    · subst hi; simp [hn.1]
    · simpa [Function.update_noteq hi, hl, hi] using h.mem_iff i

theorem freeListExact_freePhysicalPage {k k' : Kernel} {p : Nat} (h : FreeListExact cfg k)
    (hp : p < cfg.NumPhysPages) (hf : freePhysicalPage k p = .ok k') :
    FreeListExact cfg k' := by
  obtain ⟨hfree, owner, -, rfl⟩ := freePhysicalPage_cases hf
  have hnot : p ∉ k.free_page_list := fun hm => by simp [(h.mem_iff p).1 hm] at hfree
  have key : ∀ k₂ : Kernel, k₂.tpr = Function.update k.tpr p
      { k.tpr p with free := true, locked := false } → k₂.free_page_list = k.free_page_list →
      FreeListExact cfg { k₂ with free_page_list := p :: k₂.free_page_list } := by
    intro k₂ ht hl
    refine ⟨by simpa [hl] using List.nodup_cons.2 ⟨hnot, h.nodup⟩, fun i => ?_⟩
    by_cases hi : i = p
    · subst hi; simp [ht, hp]
    · simpa [ht, hl, Function.update_noteq hi, hi] using h.mem_iff i
  dsimp only
  split <;> exact key _ rfl rfl

theorem freeListExact_call {k k' : Kernel} {c : PhysMemCall} (h : FreeListExact cfg k)
    (hc : c.InRange cfg) (hr : c.run cfg k = .ok k') : FreeListExact cfg k' := by
  cases c with
  | findFreePage =>
    simp only [PhysMemCall.run] at hr
    cases hf : findFreePage k with
    | error e => simp [hf, Except.map] at hr
    | ok r =>
      simp only [hf, Except.map, Except.ok.injEq] at hr
      subst hr
      exact freeListExact_findFreePage h hf
  | freePhysicalPage p => exact freeListExact_freePhysicalPage h hc hr
  | setTPREntry p v o l =>
    cases hr
    refine ⟨h.nodup, fun i => ?_⟩
    by_cases hi : i = p
    · subst hi; simpa [setTPREntry] using h.mem_iff i
    · simpa [setTPREntry, Function.update_noteq hi] using h.mem_iff i
  | unlockPage p =>
    obtain ⟨-, -, -, rfl⟩ := unlockPage_cases cfg hr
    refine ⟨h.nodup, fun i => ?_⟩
    by_cases hi : i = p
    · subst hi; simpa using h.mem_iff i
    · simpa [Function.update_noteq hi] using h.mem_iff i

theorem freeListExact_of_reachable {k : Kernel} (h : PhysMemReachable cfg k) :
    FreeListExact cfg k := by
  induction h with
  | init k₀ => exact freeListExact_init k₀
  | call c _ hc hr ih => exact freeListExact_call ih hc hr

theorem findFreePage_of_exact {k : Kernel} (h : FreeListExact cfg k) :
    ∃ p k', findFreePage k = .ok (p, k') ∧
      (p = toUInt64 INVALID_PAGE ↔ ∀ i < cfg.NumPhysPages, (k.tpr i).free = false) ∧
      (p ≠ toUInt64 INVALID_PAGE →
        p < cfg.NumPhysPages ∧ (k.tpr p).free ∧ (k'.tpr p).free = false) := by
  cases hl : k.free_page_list with
  | nil =>
    refine ⟨_, _, findFreePage_nil hl, iff_of_true rfl fun i hi => ?_, fun h => absurd rfl h⟩
    have := (h.mem_iff i).not.1 (by simp [hl])
    simpa [hi] using this
  | cons p rest =>
    have hp := (h.mem_iff p).1 (by simp [hl])
    refine ⟨p, _, findFreePage_cons hl hp.2, ?_, fun _ => ⟨hp.1, hp.2, by simp⟩⟩
    exact iff_of_false (Nat.ne_of_lt (lt_invalid_page hp.1)) fun hall => by
      simp [hall p hp.1] at hp

theorem taken_of_call {k k' : Kernel} {c : PhysMemCall} {p : Nat}
    (hp : (k.tpr p).free = false) (hc : c ≠ .freePhysicalPage p) (hr : c.run cfg k = .ok k') :
    (k'.tpr p).free = false := by
  cases c with
  | findFreePage =>
    simp only [PhysMemCall.run] at hr
    cases hf : findFreePage k with
    | error e => simp [hf, Except.map] at hr
    | ok r =>
      obtain ⟨q, k₁⟩ := r
      simp only [hf, Except.map, Except.ok.injEq] at hr
      subst hr
      rcases findFreePage_cases hf with ⟨-, -, rfl⟩ | ⟨rest, -, hq, rfl⟩
      · exact hp
      · have hi : p ≠ q := fun e => by simp [e, hq] at hp
        simp [Function.update_noteq hi, hp]
  | freePhysicalPage q =>
    have hq : p ≠ q := fun e => hc (e ▸ rfl)
    obtain ⟨-, owner, -, rfl⟩ := freePhysicalPage_cases hr
    dsimp only
    split <;> simp [Function.update_noteq hq, hp]
  | setTPREntry q v o l =>
    cases hr
    by_cases hi : p = q
    · subst hi; simp [setTPREntry, hp]
    · simp [setTPREntry, Function.update_noteq hi, hp]
  | unlockPage q =>
    obtain ⟨-, -, -, rfl⟩ := unlockPage_cases cfg hr
    by_cases hi : p = q
    · subst hi; simp [hp]
    · simp [Function.update_noteq hi, hp]

def runCalls (cfg : Config) : List PhysMemCall → Kernel → Except Stop Kernel
  | [], k => .ok k
  | c :: cs, k => (c.run cfg k).bind (runCalls cfg cs)

theorem taken_of_runCalls {cs : List PhysMemCall} {k k' : Kernel} {p : Nat}
    (hp : (k.tpr p).free = false) (hc : ∀ c ∈ cs, c ≠ .freePhysicalPage p)
    (hr : runCalls cfg cs k = .ok k') : (k'.tpr p).free = false := by
  induction cs generalizing k with
  | nil => cases hr; exact hp
  | cons c cs ih =>
    obtain ⟨k₁, h₁, hr⟩ := bind_eq_ok hr
    exact ih (taken_of_call hp (hc c (by simp)) h₁) (fun c' hc' => hc c' (by simp [hc'])) hr

theorem findFreePage_free {k k' : Kernel} {p : Nat} (h : findFreePage k = .ok (p, k')) :
    p = toUInt64 INVALID_PAGE ∨ (k.tpr p).free := by
  rcases findFreePage_cases h with ⟨-, rfl, -⟩ | ⟨-, -, hf, -⟩
  · exact .inl rfl
  · exact .inr hf

variable (cfg) in
/-- The free-list guarantees of the manager: the list holds each free frame exactly once,
`FindFreePage` answers `INVALID_PAGE` exactly when no frame is free and otherwise hands out a
free frame it marks taken, and a frame handed out is not handed out again before it is
released. -/
structure FreeListSound (k : Kernel) : Prop where
  count_eq : ∀ i, k.free_page_list.count i =
    if i < cfg.NumPhysPages ∧ (k.tpr i).free then 1 else 0
  find : ∃ p k', findFreePage k = .ok (p, k') ∧
    (p = toUInt64 INVALID_PAGE ↔ ∀ i < cfg.NumPhysPages, (k.tpr i).free = false) ∧
    (p ≠ toUInt64 INVALID_PAGE →
      p < cfg.NumPhysPages ∧ (k.tpr p).free ∧ (k'.tpr p).free = false)
  no_reuse : ∀ p k₁ cs k₂ q k₃, findFreePage k = .ok (p, k₁) → p ≠ toUInt64 INVALID_PAGE →
    (∀ c ∈ cs, c ≠ .freePhysicalPage p) → runCalls cfg cs k₁ = .ok k₂ →
    findFreePage k₂ = .ok (q, k₃) → q ≠ p

theorem free_page_list_exact {k : Kernel} (h : PhysMemReachable cfg k) :
    FreeListSound cfg k := by
  have hx := freeListExact_of_reachable h
  refine ⟨fun i => ?_, findFreePage_of_exact hx, ?_⟩
  · rw [List.count_eq_of_nodup hx.nodup]
    exact if_congr (hx.mem_iff i) rfl rfl
  · intro p k₁ cs k₂ q k₃ h₁ hp hcs h₂ h₃ hq
    subst hq
    rcases findFreePage_cases h₁ with ⟨-, h', -⟩ | ⟨rest, -, -, rfl⟩
    · exact hp h'
    · have h₀ : (({ (k.incrMemoryAccess.setTpr q { k.tpr q with free := false }) with
          free_page_list := rest } : Kernel).tpr q).free = false := by simp
      rcases findFreePage_free h₃ with e | e
      · exact hp e
      · simp [taken_of_runCalls h₀ hcs h₂] at e

theorem free_page_list_exact_boot :
    PhysMemReachable toyConfig (physicalMemManager toyConfig Kernel.boot) ∧
      FreeListSound toyConfig (physicalMemManager toyConfig Kernel.boot) :=
  ⟨.init _, free_page_list_exact (.init _)⟩

/-! ### A frame released between `FindFreePage` and `SetTPREntry` -/

/-- `FindFreePage` marks a frame taken but leaves its `owner` as it was: on a fresh manager it
is NULL, and releasing the frame before `SetTPREntry` follows it. -/
theorem freePhysicalPage_fresh_frame (k₀ : Kernel) (hN : 0 < cfg.NumPhysPages) :
    ∃ k₁, findFreePage (physicalMemManager cfg k₀) = .ok (0, k₁) ∧ PhysMemReachable cfg k₁ ∧
      (k₁.tpr 0).free = false ∧
      freePhysicalPage k₁ 0 = .error (.nullDeref "tpr[num_page].owner") := by
  obtain ⟨n, hn⟩ : ∃ n, cfg.NumPhysPages = n + 1 := ⟨_, (Nat.succ_pred_eq_of_pos hN).symm⟩
  have hl : (physicalMemManager cfg k₀).free_page_list = 0 :: (List.range n).map Nat.succ := by
    simp [physicalMemManager, hn, List.range_succ_eq_map]
  have hr := findFreePage_cons hl (by simp [physicalMemManager])
  refine ⟨_, hr, .call .findFreePage (.init k₀) trivial (by rw [PhysMemCall.run, hr]; rfl),
    by simp, ?_⟩
  simp [freePhysicalPage, physicalMemManager]

theorem freePhysicalPage_fresh_frame_toy :
    0 < toyConfig.NumPhysPages ∧ ∃ k₁, findFreePage (physicalMemManager toyConfig Kernel.boot) =
      .ok (0, k₁) ∧ PhysMemReachable toyConfig k₁ ∧ (k₁.tpr 0).free = false ∧
      freePhysicalPage k₁ 0 = .error (.nullDeref "tpr[num_page].owner") :=
  ⟨by decide, freePhysicalPage_fresh_frame Kernel.boot (by decide)⟩

end NachosVm
