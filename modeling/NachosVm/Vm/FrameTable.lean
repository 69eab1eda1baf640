import NachosVm.Vm.FreeList
import NachosVm.Vm.PageFault

/-! Consistency of the frame table with the translation tables over every run of page-fault
services, translations and frees, from a fresh manager and address spaces with no valid
entry. Each taken frame is named by exactly the valid entry it back-references, so no two
pages share a frame and no valid entry names a free frame. -/
namespace NachosVm

variable {cfg : Config}

def Kernel.frameOf (k : Kernel) (A v : Nat) : Option Int :=
  match k.addrspaces A with
  | some t => if (t.pageTable v).valid then some (t.pageTable v).physicalPage else none
  | none => none

theorem frameOf_eq_some {k : Kernel} {A v : Nat} {q : Int} :
    k.frameOf A v = some q ↔ ∃ t, k.addrspaces A = some t ∧ (t.pageTable v).valid ∧
      (t.pageTable v).physicalPage = q := by
  unfold Kernel.frameOf
  split <;> simp_all

theorem frameOf_of_invalid {k : Kernel} {A v : Nat} {t : TranslationTable}
    (ht : k.addrspaces A = some t) (hv : (t.pageTable v).valid = false) : k.frameOf A v = none := by
  simp [Kernel.frameOf, ht, hv]

theorem frameOf_setTable_of_same {k : Kernel} {A : Nat} {t t' : TranslationTable}
    (ht : k.addrspaces A = some t)
    (hs : ∀ v, (t'.pageTable v).valid = (t.pageTable v).valid ∧
      (t'.pageTable v).physicalPage = (t.pageTable v).physicalPage) :
    (k.setTable A t').frameOf = k.frameOf := by
  funext B v
  by_cases hB : B = A
  · subst hB; simp [Kernel.frameOf, ht, (hs v).1, (hs v).2]
  · simp [Kernel.frameOf, Function.update_noteq hB]

theorem setUM_same (t : TranslationTable) (vpn : Nat) (w : Bool) (v : Nat) :
    ((setUM t vpn w).pageTable v).valid = (t.pageTable v).valid ∧
      ((setUM t vpn w).pageTable v).physicalPage = (t.pageTable v).physicalPage := by
  rw [setUM_pageTable]; split <;> simp_all

variable (cfg) in
/-- The frame table and the translation tables agree. -/
structure FrameInv (k : Kernel) : Prop where
  freeList : FreeListExact cfg k
  unlocked : ∀ p, (k.tpr p).locked = false
  taken_lt : ∀ p, (k.tpr p).free = false → p < cfg.NumPhysPages
  backref : ∀ p, (k.tpr p).free = false →
    ∃ A, (k.tpr p).owner = some A ∧ k.frameOf A (k.tpr p).virtualPage = some p
  valid_frame : ∀ A v q, k.frameOf A v = some q →
    ∃ p : Nat, q = p ∧ (k.tpr p).free = false ∧ (k.tpr p).owner = some A ∧
      (k.tpr p).virtualPage = v

theorem FrameInv.of_same {k k' : Kernel} (h : FrameInv cfg k) (ht : k'.tpr = k.tpr)
    (hl : k'.free_page_list = k.free_page_list) (hf : k'.frameOf = k.frameOf) :
    FrameInv cfg k' where
  freeList := ⟨hl ▸ h.freeList.nodup, fun i => by rw [hl, ht]; exact h.freeList.mem_iff i⟩
  unlocked := ht ▸ h.unlocked
  taken_lt := ht ▸ h.taken_lt
  backref := by rw [ht, hf]; exact h.backref
  valid_frame := by rw [ht, hf]; exact h.valid_frame

theorem frameInv_init (k₀ : Kernel)
    (h₀ : ∀ A t v, k₀.addrspaces A = some t → (t.pageTable v).valid = false) :
    FrameInv cfg (physicalMemManager cfg k₀) where
  freeList := freeListExact_init k₀
  unlocked := by simp [physicalMemManager]
  taken_lt := by simp [physicalMemManager]
  backref := by simp [physicalMemManager]
  valid_frame := by
    intro A v q hq
    obtain ⟨t, ht, hv, -⟩ := frameOf_eq_some.1 hq
    simp [h₀ A t v ht] at hv

theorem FreeListExact.take {k k' : Kernel} {p : Nat} {rest : List Nat}
    (h : FreeListExact cfg k) (hl : k.free_page_list = p :: rest)
    (hl' : k'.free_page_list = rest) (hp : (k'.tpr p).free = false)
    (ho : ∀ i, i ≠ p → (k'.tpr i).free = (k.tpr i).free) : FreeListExact cfg k' := by
  have hn := h.nodup
  rw [hl, List.nodup_cons] at hn
  refine ⟨hl' ▸ hn.2, fun i => ?_⟩
  by_cases hi : i = p
  · subst hi; simp [hl', hn.1, hp]
  · simpa [hl', ho i hi, hl, hi] using h.mem_iff i

theorem FreeListExact.give {k k' : Kernel} {p : Nat} (h : FreeListExact cfg k)
    (hN : p < cfg.NumPhysPages) (hp : (k.tpr p).free = false)
    (hl' : k'.free_page_list = p :: k.free_page_list) (hp' : (k'.tpr p).free)
    (ho : ∀ i, i ≠ p → (k'.tpr i).free = (k.tpr i).free) : FreeListExact cfg k' := by
  have hnot : p ∉ k.free_page_list := fun hm => by simp [(h.mem_iff p).1 hm] at hp
  refine ⟨hl' ▸ List.nodup_cons.2 ⟨hnot, h.nodup⟩, fun i => ?_⟩
  by_cases hi : i = p
  · subst hi; simp [hl', hN, hp']
  · simpa [hl', ho i hi, hi] using h.mem_iff i

theorem frameOf_install {k k' : Kernel} {A v p : Nat} {t : TranslationTable}
    (ht : k.addrspaces A = some t)
    (h' : k'.addrspaces = Function.update k.addrspaces A
      (some ((t.setPhysicalPage v p).setBitValid v))) (B w : Nat) :
    k'.frameOf B w = if B = A ∧ w = v then some (p : Int) else k.frameOf B w := by
  by_cases hB : B = A
  · subst hB
    by_cases hw : w = v
    · subst hw; simp [Kernel.frameOf, h', setPhysicalPage_setBitValid_pageTable]
    · simp [Kernel.frameOf, h', ht, setPhysicalPage_setBitValid_pageTable, hw]
  · simp [Kernel.frameOf, h', hB, Function.update_noteq hB]

theorem frameInv_pageFault {k k' : Kernel} {t : TranslationTable} {v : Nat}
    {e : ExceptionType} (h : FrameInv cfg k) (ht : k.addrspaces k.current = some t)
    (hv : (t.pageTable v).valid = false) (hpf : pageFault cfg k v = .ok (e, k')) :
    FrameInv cfg k' := by
  obtain ⟨p, rest, t₀, hl, hfree, hN, ht₀, -, hl', -, htpr, hsp, -⟩ := pageFault_cases cfg hpf
  obtain rfl : t₀ = t := Option.some.inj (ht₀.symm.trans ht)
  have hfo := frameOf_install ht hsp
  have hinv : k.frameOf k.current v = none := frameOf_of_invalid ht hv
  have hother : ∀ i, i ≠ p → k'.tpr i = k.tpr i := fun i hi => by
    rw [htpr, Function.update_noteq hi]
  have hp' : k'.tpr p = ⟨false, false, v, some k.current⟩ := by rw [htpr, Function.update_same]
  refine ⟨h.freeList.take hl hl' (by simp [hp']) fun i hi => by rw [hother i hi], fun i => ?_,
    fun i hi => ?_, fun i hi => ?_, fun B w r hr => ?_⟩
  · by_cases hi : i = p
    · subst hi; simp [hp']
    · rw [hother i hi]; exact h.unlocked i
  · by_cases hi' : i = p
    · subst hi'; exact hN
    · rw [hother i hi'] at hi; exact h.taken_lt i hi
  · by_cases hi' : i = p
    · subst hi'; exact ⟨k.current, by simp [hp'], by simp [hp', hfo]⟩
    · rw [hother i hi'] at hi ⊢
      obtain ⟨B, hB, hfr⟩ := h.backref i hi
      refine ⟨B, hB, ?_⟩
      rw [hfo]
      split
      · rename_i hc; obtain ⟨rfl, hw⟩ := hc; rw [hw, hinv] at hfr; cases hfr
      · exact hfr
  · rw [hfo] at hr
    split at hr
    · rename_i hc; obtain ⟨rfl, rfl⟩ := hc; cases hr; exact ⟨p, rfl, by simp [hp']⟩
    · obtain ⟨p₀, rfl, hf₀, ho₀, hv₀⟩ := h.valid_frame B w r hr
      have hne : p₀ ≠ p := fun e => by simp [e, hfree] at hf₀
      exact ⟨p₀, rfl, by rw [hother p₀ hne]; exact ⟨hf₀, ho₀, hv₀⟩⟩

theorem frameOf_clear {k k' : Kernel} {A v : Nat} {t : TranslationTable}
    (ht : k.addrspaces A = some t)
    (h' : k'.addrspaces = Function.update k.addrspaces A (some (t.clearBitValid v)))
    (B w : Nat) : k'.frameOf B w = if B = A ∧ w = v then none else k.frameOf B w := by
  by_cases hB : B = A
  · subst hB
    by_cases hw : w = v
    · subst hw; simp [Kernel.frameOf, h', TranslationTable.clearBitValid]
    · simp [Kernel.frameOf, h', ht, TranslationTable.clearBitValid, hw]
  · simp [Kernel.frameOf, h', hB, Function.update_noteq hB]

theorem frameInv_freePhysicalPage {k k' : Kernel} {p : Nat} (h : FrameInv cfg k)
    (hf : (k.tpr p).free = false) (hr : freePhysicalPage k p = .ok k') : FrameInv cfg k' := by
  obtain ⟨A, hA, hfr⟩ := h.backref p hf
  obtain ⟨t, ht, -, -⟩ := frameOf_eq_some.1 hfr
  rw [freePhysicalPage_of_table hf hA ht, Except.ok.injEq] at hr
  have hsp : k'.addrspaces = Function.update k.addrspaces A
      (some (t.clearBitValid (k.tpr p).virtualPage)) := by rw [← hr]; rfl
  have hl' : k'.free_page_list = p :: k.free_page_list := by rw [← hr]
  have hother : ∀ i, i ≠ p → k'.tpr i = k.tpr i := fun i hi => by
    rw [← hr]; simp [Function.update_noteq hi]
  have hp' : k'.tpr p = { k.tpr p with free := true, locked := false } := by rw [← hr]; simp
  have hfo := frameOf_clear ht hsp
  refine ⟨h.freeList.give (h.taken_lt p hf) hf hl' (by simp [hp']) fun i hi => by
      rw [hother i hi], fun i => ?_, fun i hi => ?_, fun i hi => ?_, fun B w r hr => ?_⟩
  · by_cases hi : i = p
    · subst hi; simp [hp']
    · rw [hother i hi]; exact h.unlocked i
  · by_cases hi' : i = p
    · subst hi'; simp [hp'] at hi
    · rw [hother i hi'] at hi; exact h.taken_lt i hi
  · by_cases hi' : i = p
    · subst hi'; simp [hp'] at hi
    · rw [hother i hi'] at hi ⊢
      obtain ⟨B, hB, hfr'⟩ := h.backref i hi
      refine ⟨B, hB, ?_⟩
      rw [hfo]
      split
      · rename_i hc; obtain ⟨rfl, hw⟩ := hc
        rw [hw, hfr] at hfr'
        have := Option.some.inj hfr'
        omega
      · exact hfr'
  · rw [hfo] at hr
    split at hr
    · cases hr
    · rename_i hc
      obtain ⟨p₀, rfl, hf₀, ho₀, hv₀⟩ := h.valid_frame B w r hr
      have hne : p₀ ≠ p := by
        rintro rfl
        exact hc ⟨Option.some.inj (ho₀.symm.trans hA), hv₀.symm⟩
      exact ⟨p₀, rfl, by rw [hother p₀ hne]; exact ⟨hf₀, ho₀, hv₀⟩⟩

/-- The residency step keeps the invariant: a service it runs on another page than the one it
tests leaves that page invalid, and the translation stops. -/
theorem frameInv_makeResident {k k₁ : Kernel} {a vpn : Nat} (h : FrameInv cfg k)
    (hm : makeResident cfg (pageFault cfg) k k.current a vpn = .ok k₁) : FrameInv cfg k₁ := by
  obtain ⟨t, ht, ⟨-, rfl⟩ | ⟨hv, hr, t', ht', hv'⟩⟩ := makeResident_cases hm
  · exact h
  · rw [raiseException_pageFault] at hr
    have h₀ : FrameInv cfg k.incrPageFault := h.of_same rfl rfl rfl
    cases hv₀ : (t.pageTable (toUInt64 (toInt32 a) / cfg.PageSize)).valid
    · exact frameInv_pageFault h₀ ht hv₀ hr
    · exfalso
      obtain ⟨p, -, t₀, -, -, -, ht₀, -, -, -, -, hsp, -⟩ := pageFault_cases cfg hr
      obtain rfl : t₀ = t := Option.some.inj (ht₀.symm.trans ht)
      have hne : vpn ≠ toUInt64 (toInt32 a) / cfg.PageSize := fun e => by
        rw [e] at hv; simp [hv] at hv₀
      have h₁ : k₁.addrspaces k.current = some ((t₀.setPhysicalPage
          (toUInt64 (toInt32 a) / cfg.PageSize) p).setBitValid
          (toUInt64 (toInt32 a) / cfg.PageSize)) := by
        rw [hsp]; exact Function.update_same _ _ _
      rw [h₁, Option.some.injEq] at ht'
      subst ht'
      rw [setPhysicalPage_setBitValid_pageTable, if_neg hne, hv] at hv'
      cases hv'

theorem frameInv_translate {k k' : Kernel} {a s : Nat} {w : Bool} {e : ExceptionType}
    {pa : Option Nat} (h : FrameInv cfg k)
    (hr : translate cfg (pageFault cfg) k a s w = .ok (e, pa, k')) : FrameInv cfg k' := by
  cases ht : k.addrspaces k.current with
  | none => simp [translate, withTable, ht] at hr
  | some t =>
    cases hc : translateCheck cfg t a s w with
    | some e' => rw [translate_of_check ht hc] at hr; cases hr; exact h
    | none =>
      cases hm : makeResident cfg (pageFault cfg) k k.current a (a / cfg.PageSize) with
      | error x => simp [translate, withTable, ht, hc, hm] at hr
      | ok k₁ =>
        rw [translate_of_pass ht hc hm] at hr
        have h₁ : FrameInv cfg k₁ := frameInv_makeResident h hm
        obtain ⟨t₁, ht₁, ⟨-, -, -, rfl⟩ | ⟨p, -, -, -, -, rfl⟩⟩ := translateFrame_cases hr
        · exact h₁
        · exact h₁.of_same rfl rfl (frameOf_setTable_of_same ht₁ (setUM_same t₁ _ w))

variable (cfg) in
/-- The steps of a run: a context switch, a page-fault service on a mapped, non-resident page
of the current address space, a translation by the MMU, and the release of a taken, unlocked
frame. -/
inductive VmStep : Kernel → Kernel → Prop where
  | switch (k : Kernel) (A : Nat) : VmStep k { k with current := A }
  | serve {k k' : Kernel} {t : TranslationTable} {v : Nat} {e : ExceptionType} :
      k.addrspaces k.current = some t →
      ((t.pageTable v).readAllowed ∨ (t.pageTable v).writeAllowed) →
      (t.pageTable v).valid = false → pageFault cfg k v = .ok (e, k') → VmStep k k'
  | access {k k' : Kernel} {a s : Nat} {w : Bool} {e : ExceptionType} {pa : Option Nat} :
      translate cfg (pageFault cfg) k a s w = .ok (e, pa, k') → VmStep k k'
  | release {k k' : Kernel} {p : Nat} : (k.tpr p).free = false → (k.tpr p).locked = false →
      freePhysicalPage k p = .ok k' → VmStep k k'

variable (cfg) in
/-- The states reachable from a fresh manager and address spaces with no valid entry. -/
inductive VmReachable : Kernel → Prop where
  | init (k₀ : Kernel) : (∀ A t v, k₀.addrspaces A = some t → (t.pageTable v).valid = false) →
      VmReachable (physicalMemManager cfg k₀)
  | step {k k' : Kernel} : VmReachable k → VmStep cfg k k' → VmReachable k'

theorem frameInv_step {k k' : Kernel} (h : FrameInv cfg k) (hs : VmStep cfg k k') :
    FrameInv cfg k' := by
  cases hs with
  | switch => exact h.of_same rfl rfl rfl
  | serve ht _ hv hpf => exact frameInv_pageFault h ht hv hpf
  | access hr => exact frameInv_translate h hr
  | release hf _ hr => exact frameInv_freePhysicalPage h hf hr

theorem frameInv_of_reachable {k : Kernel} (h : VmReachable cfg k) : FrameInv cfg k := by
  induction h with
  | init k₀ h₀ => exact frameInv_init k₀ h₀
  | step _ hs ih => exact frameInv_step ih hs

theorem pageFault_succeeds {k : Kernel} {t : TranslationTable} (h : FrameInv cfg k)
    (ht : k.addrspaces k.current = some t) (hfree : ∃ i < cfg.NumPhysPages, (k.tpr i).free)
    (v : Nat) : ∃ k', pageFault cfg k v = .ok (.NO_EXCEPTION, k') := by
  obtain ⟨i, hi, hfi⟩ := hfree
  cases hl : k.free_page_list with
  | nil => exact absurd ((h.freeList.mem_iff i).2 ⟨hi, hfi⟩) (by simp [hl])
  | cons p rest =>
    have hp := (h.freeList.mem_iff p).1 (by simp [hl])
    obtain ⟨k', hk', -⟩ := pageFault_of_head cfg v ht hl hp.2 hp.1
    exact ⟨k', hk'⟩

variable (cfg) in
/-- The frame-table guarantees of a run: every taken, unlocked frame is named by the valid
entry it back-references; every valid entry names a taken frame of the machine that
back-references it, so no two valid entries share a frame; the service and the release of a
taken frame never fail an `ASSERT`. -/
structure FrameTableConsistent (k : Kernel) : Prop where
  backref : ∀ p, (k.tpr p).free = false → (k.tpr p).locked = false →
    ∃ A t, (k.tpr p).owner = some A ∧ k.addrspaces A = some t ∧
      (t.pageTable (k.tpr p).virtualPage).valid ∧
      (t.pageTable (k.tpr p).virtualPage).physicalPage = p
  valid_frame : ∀ A t v, k.addrspaces A = some t → (t.pageTable v).valid →
    ∃ p : Nat, (t.pageTable v).physicalPage = p ∧ p < cfg.NumPhysPages ∧
      (k.tpr p).free = false ∧ (k.tpr p).owner = some A ∧ (k.tpr p).virtualPage = v
  disjoint : ∀ A B t t' v w, k.addrspaces A = some t → k.addrspaces B = some t' →
    (t.pageTable v).valid → (t'.pageTable w).valid →
    (t.pageTable v).physicalPage = (t'.pageTable w).physicalPage → A = B ∧ v = w
  service_ok : ∀ t v, k.addrspaces k.current = some t →
    (∃ i < cfg.NumPhysPages, (k.tpr i).free) → ∃ k', pageFault cfg k v = .ok (.NO_EXCEPTION, k')
  release_ok : ∀ p, (k.tpr p).free = false → ∃ k', freePhysicalPage k p = .ok k'

theorem FrameInv.valid_frame' {k : Kernel} (h : FrameInv cfg k) {A v : Nat}
    {t : TranslationTable} (ht : k.addrspaces A = some t) (hv : (t.pageTable v).valid) :
    ∃ p : Nat, (t.pageTable v).physicalPage = p ∧ p < cfg.NumPhysPages ∧
      (k.tpr p).free = false ∧ (k.tpr p).owner = some A ∧ (k.tpr p).virtualPage = v := by
  obtain ⟨p, hp, hf, ho, hvp⟩ := h.valid_frame A v _ (frameOf_eq_some.2 ⟨t, ht, hv, rfl⟩)
  exact ⟨p, hp, h.taken_lt p hf, hf, ho, hvp⟩

theorem FrameInv.disjoint {k : Kernel} (h : FrameInv cfg k) {A B v w : Nat}
    {t t' : TranslationTable} (ht : k.addrspaces A = some t) (ht' : k.addrspaces B = some t')
    (hv : (t.pageTable v).valid) (hw : (t'.pageTable w).valid)
    (hpp : (t.pageTable v).physicalPage = (t'.pageTable w).physicalPage) : A = B ∧ v = w := by
  obtain ⟨p, hp, -, -, hoA, hvA⟩ := h.valid_frame' ht hv
  obtain ⟨q, hq, -, -, hoB, hvB⟩ := h.valid_frame' ht' hw
  obtain rfl : p = q := by omega
  exact ⟨Option.some.inj (hoA.symm.trans hoB), hvA.symm.trans hvB⟩

theorem frame_table_consistent {k : Kernel} (h : VmReachable cfg k) :
    FrameTableConsistent cfg k := by
  have hi := frameInv_of_reachable h
  refine ⟨fun p hf _ => ?_, fun A t v ht hv => hi.valid_frame' ht hv, ?_,
    fun t v ht hfree => pageFault_succeeds hi ht hfree v, fun p hf => ?_⟩
  · obtain ⟨A, hA, hfr⟩ := hi.backref p hf
    obtain ⟨t, ht, hv, hp⟩ := frameOf_eq_some.1 hfr
    exact ⟨A, t, hA, ht, hv, hp⟩
  · exact fun A B t t' v w ht ht' hv hw hpp => hi.disjoint ht ht' hv hw hpp
  · obtain ⟨A, hA, hfr⟩ := hi.backref p hf
    obtain ⟨t, ht, -, -⟩ := frameOf_eq_some.1 hfr
    exact ⟨_, freePhysicalPage_of_table hf hA ht⟩

theorem onePageKernel_reachable : VmReachable toyConfig onePageKernel :=
  .init _ fun A t v h => by
    by_cases hA : A = 0
    · subst hA; cases h; rfl
    · simp [Kernel.boot, hA] at h

theorem frame_table_consistent_served :
    ∃ k, VmStep toyConfig onePageKernel k ∧ VmReachable toyConfig k ∧ k.frameOf 0 0 = some 0 ∧
      FrameTableConsistent toyConfig k := by
  obtain ⟨k, hpf, ht⟩ := pageFault_of_head toyConfig (k := onePageKernel) 0 rfl rfl rfl (by decide)
  have hs : VmStep toyConfig onePageKernel k := .serve rfl (.inl rfl) rfl hpf
  have hr : VmReachable toyConfig k := .step onePageKernel_reachable hs
  exact ⟨k, hs, hr, frameOf_eq_some.2 ⟨_, ht, rfl, rfl⟩, frame_table_consistent hr⟩

end NachosVm
