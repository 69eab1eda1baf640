import NachosVm.Vm.SwapManager

/-! Runs of the swap manager on behalf of virtual pages. Each page passes `INVALID_SECTOR` to
`PutPageSwap` until it holds a sector, then the sector it holds; it reads back and releases
only that sector. The pages' holdings and the content of their latest swap-out are ghost
state; between calls, main memory may change in any way. -/
namespace NachosVm

variable (cfg : Config) (sc : SwapConfig)

/-- What the pages of a run know: the sector each holds, and the page it last swapped out. -/
structure SwapGhost where
  holder : Nat → Option Nat
  saved : Nat → Nat → UInt8

def SwapGhost.init : SwapGhost := ⟨fun _ => none, fun _ _ => 0⟩

def SwapGhost.put (g : SwapGhost) (x r : Nat) (bytes : Nat → UInt8) : SwapGhost :=
  ⟨Function.update g.holder x (some r), Function.update g.saved x bytes⟩

/-- One call of a run, on behalf of page `x`, or a change of main memory in between. -/
inductive SwapStep : Kernel × SwapGhost → Kernel × SwapGhost → Prop where
  | putFresh {k k' : Kernel} {g : SwapGhost} {x pp r : Nat} : g.holder x = none →
      putPageSwap cfg sc k (toUInt32 INVALID_SECTOR) pp = (r, k') →
      SwapStep (k, g) (k', if r = toUInt64 INVALID_SECTOR then g
        else g.put x r (frameBytes cfg k pp))
  | putHeld {k k' : Kernel} {g : SwapGhost} {x pp s r : Nat} : g.holder x = some s →
      putPageSwap cfg sc k s pp = (r, k') → SwapStep (k, g) (k', g.put x s (frameBytes cfg k pp))
  | get {k : Kernel} {g : SwapGhost} {x pp s : Nat} : g.holder x = some s →
      SwapStep (k, g) (getPageSwap cfg k s pp, g)
  | release {k : Kernel} {g : SwapGhost} {x s : Nat} : g.holder x = some s →
      SwapStep (k, g) (releasePageSwap k s, { g with holder := Function.update g.holder x none })
  | memory {k : Kernel} {g : SwapGhost} (M : Nat → UInt8) :
      SwapStep (k, g) ({ k with mainMemory := M }, g)

inductive SwapReachable : Kernel × SwapGhost → Prop where
  | init (k₀ : Kernel) : SwapReachable (swapManager k₀, SwapGhost.init)
  | step {s s' : Kernel × SwapGhost} : SwapReachable s → SwapStep cfg sc s s' → SwapReachable s'

structure SwapInv (k : Kernel) (g : SwapGhost) : Prop where
  lt : ∀ x s, g.holder x = some s → s < sc.NUM_SECTORS
  marked : ∀ x s, g.holder x = some s → k.page_flags s
  inj : ∀ x y s, g.holder x = some s → g.holder y = some s → x = y
  content : ∀ x s, g.holder x = some s → k.swap_disk s = g.saved x

section
variable {cfg sc}

theorem swapInv_init (k₀ : Kernel) : SwapInv sc (swapManager k₀) SwapGhost.init := by
  have none_held : ∀ x s, SwapGhost.init.holder x ≠ some s := fun _ _ h => by cases h
  exact ⟨fun x s hx => absurd hx (none_held x s), fun x s hx => absurd hx (none_held x s),
    fun x _ s hx _ => absurd hx (none_held x s), fun x s hx => absurd hx (none_held x s)⟩

theorem SwapInv.put {k : Kernel} {g : SwapGhost} {x r pp : Nat} {flags : Nat → Bool}
    (h : SwapInv sc k g) (hr : r < sc.NUM_SECTORS) (hflag : flags r)
    (hflags : ∀ y s, g.holder y = some s → flags s)
    (hfree : ∀ y, g.holder y = some r → y = x) :
    SwapInv sc (writeSector cfg { k with page_flags := flags } r pp)
      (g.put x r (frameBytes cfg k pp)) := by
  refine ⟨fun y s hy => ?_, fun y s hy => ?_, fun y z s hy hz => ?_, fun y s hy => ?_⟩
  all_goals simp only [SwapGhost.put, Function.update_apply] at hy
  · split_ifs at hy
    · cases hy; exact hr
    · exact h.lt y s hy
  · split_ifs at hy
    · cases hy; exact hflag
    · exact hflags y s hy
  · simp only [SwapGhost.put, Function.update_apply] at hz
    by_cases hyx : y = x <;> by_cases hzx : z = x
    · exact hyx.trans hzx.symm
    · rw [if_pos hyx] at hy; rw [if_neg hzx] at hz; cases hy; exact hyx.trans (hfree z hz).symm
    · rw [if_neg hyx] at hy; rw [if_pos hzx] at hz; cases hz; exact (hfree y hy).trans hzx.symm
    · rw [if_neg hyx] at hy; rw [if_neg hzx] at hz; exact h.inj y z s hy hz
  · simp only [writeSector, SwapGhost.put, Function.update_apply]
    split_ifs at hy with hyx
    · cases hy; simp [hyx]; rfl
    · have hs : s ≠ r := fun e => hyx (hfree y (e ▸ hy))
      simp [hs, hyx, h.content y s hy]

theorem swapInv_step {k k' : Kernel} {g g' : SwapGhost} (h : SwapInv sc k g)
    (hs : SwapStep cfg sc (k, g) (k', g')) : SwapInv sc k' g' := by
  cases hs with
  | putFresh hx hput =>
    rcases putPageSwap_invalid_cases cfg sc k _ with ⟨-, h'⟩ | ⟨r, hr, hfree, -, h'⟩
    · rw [h'] at hput
      obtain ⟨rfl, rfl⟩ := Prod.mk.inj hput
      simpa using h
    · rw [h'] at hput
      obtain ⟨rfl, rfl⟩ := Prod.mk.inj hput
      rw [if_neg (Nat.ne_of_lt (lt_invalid_sector sc hr))]
      refine h.put hr (by simp) (fun y s hy => ?_) (fun y hy => absurd (h.marked y _ hy) (by simp [hfree]))
      simp only [Function.update_apply]
      split_ifs
      · rfl
      · exact h.marked y s hy
  | @putHeld _ _ _ x pp s r hx hput =>
    have hs : s ≠ toUInt32 INVALID_SECTOR := Nat.ne_of_lt (by
      have := h.lt _ _ hx; have := sc.numSectors_lt
      rw [INVALID_SECTOR, toUInt32_minus_one]; omega)
    simp only [putPageSwap, hs, ne_eq, not_false_eq_true, if_true, Prod.mk.injEq] at hput
    obtain ⟨-, rfl⟩ := hput
    exact h.put (h.lt _ _ hx) (h.marked _ _ hx) h.marked (fun y hy => h.inj y _ _ hy hx)
  | get hx => exact ⟨h.lt, h.marked, h.inj, h.content⟩
  | @release _ _ x s₀ hx =>
    refine ⟨fun y s hy => ?_, fun y s hy => ?_, fun y z s hy hz => ?_, fun y s hy => ?_⟩
    all_goals simp only [Function.update_apply] at hy
    all_goals split_ifs at hy with hyx
    · exact h.lt y s hy
    · have hne : s ≠ s₀ := fun e => hyx (h.inj y _ _ (e ▸ hy) hx)
      simp [releasePageSwap, Function.update_apply, hne, h.marked y s hy]
    · simp only [Function.update_apply] at hz
      split_ifs at hz
      exact h.inj y z s hy hz
    · exact h.content y s hy
  | memory M => exact ⟨h.lt, h.marked, h.inj, h.content⟩

theorem swapInv_of_reachable {st : Kernel × SwapGhost} (h : SwapReachable cfg sc st) :
    SwapInv sc st.1 st.2 := by
  induction h with
  | init k₀ => exact swapInv_init k₀
  | step _ hs ih => exact swapInv_step ih hs

end

/-- What every point of a run guarantees: the pages hold distinct sectors of the area, and a
page reading its sector back into a frame gets the page it last swapped out. -/
structure SwapSound (k : Kernel) (g : SwapGhost) : Prop where
  distinct : ∀ x y s s', g.holder x = some s → g.holder y = some s' → x ≠ y → s ≠ s'
  lt : ∀ x s, g.holder x = some s → s < sc.NUM_SECTORS
  round_trip : ∀ x s pp, g.holder x = some s → ∀ i < cfg.PageSize,
    (getPageSwap cfg k s pp).mainMemory (pp * cfg.PageSize + i) = g.saved x i

theorem swap_round_trip {k : Kernel} {g : SwapGhost} (h : SwapReachable cfg sc (k, g)) :
    SwapSound cfg sc k g := by
  have hi := swapInv_of_reachable h
  refine ⟨fun x y s s' hx hy hxy hss => hxy (hi.inj x y s hx (hss ▸ hy)), hi.lt,
    fun x s pp hx i hi' => ?_⟩
  simp only [getPageSwap, Nat.le_add_right, Nat.add_lt_add_iff_left, hi', and_self, if_true,
    Nat.add_sub_cancel_left]
  exact congrFun (hi.content x s hx) i

def toySwap : SwapConfig := ⟨4, by decide⟩

theorem swap_round_trip_put_get :
    let k₁ : Kernel := { swapManager Kernel.boot with mainMemory := fun j => UInt8.ofNat j }
    let g := SwapGhost.init.put 0 0 (frameBytes toyConfig k₁ 0)
    let k₂ := (putPageSwap toyConfig toySwap k₁ (toUInt32 INVALID_SECTOR) 0).2
    let k₃ := getPageSwap toyConfig { k₂ with mainMemory := fun _ => 0 } 0 1
    SwapReachable toyConfig toySwap (k₃, g) ∧ g.holder 0 = some 0 ∧
      SwapSound toyConfig toySwap k₃ g ∧ k₃.mainMemory (1 * toyConfig.PageSize + 2) = g.saved 0 2 := by
  intro k₁ g k₂ k₃
  have hr : SwapReachable toyConfig toySwap (k₃, g) :=
    .step (.step (.step (.step (.init Kernel.boot) (.memory fun j => UInt8.ofNat j))
      (@SwapStep.putFresh toyConfig toySwap _ _ _ 0 0 _ rfl rfl)) (.memory fun _ => 0))
      (@SwapStep.get toyConfig toySwap _ _ 0 1 _ rfl)
  exact ⟨hr, rfl, swap_round_trip toyConfig toySwap hr, rfl⟩

end NachosVm
