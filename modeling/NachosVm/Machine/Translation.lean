import Mathlib.Data.Nat.Defs
import NachosVm.Vm.PageFault

/-! The contract of `MMU::Translate`: its checks in the spec's order, a failed check that
touches nothing, and what a translation that passes them returns and leaves, for any service
that returns with the page loaded. Then the page the page-fault path asks the service for. -/
namespace NachosVm

variable (cfg : Config)

/-- The checks of `Translate` as the spec words them, in its order: alignment, range and
mapping, then write permission. -/
def specCheck (t : TranslationTable) (a s : Nat) (w : Bool) : Option ExceptionType :=
  if (s = 4 ∧ a % 4 ≠ 0) ∨ (s = 2 ∧ a % 2 = 1) then some .BUSERROR_EXCEPTION
  else if a / cfg.PageSize ≥ t.maxNumPages ∨
      ¬ ((t.pageTable (a / cfg.PageSize)).readAllowed ∨
        (t.pageTable (a / cfg.PageSize)).writeAllowed) then some .ADDRESSERROR_EXCEPTION
  else if w ∧ ¬ (t.pageTable (a / cfg.PageSize)).writeAllowed then some .READONLY_EXCEPTION
  else none

theorem translateCheck_eq_specCheck (t : TranslationTable) (a s : Nat) (w : Bool) :
    translateCheck cfg t a s w = specCheck cfg t a s w := by
  have h₂ : a % 2 ≠ 0 ↔ a % 2 = 1 := by omega
  -- the code tests capacity and permissions in two branches where the spec has one disjunction
  simp only [translateCheck, specCheck, and_three, and_one, h₂, ite_or,
    TranslationTable.getMaxNumPages, TranslationTable.getBitReadAllowed,
    TranslationTable.getBitWriteAllowed, Bool.and_eq_true, Bool.not_eq_true', not_or,
    Bool.not_eq_true]

theorem translateCheck_congr {t t' : TranslationTable} {a s : Nat} {w : Bool}
    (hm : t'.maxNumPages = t.maxNumPages)
    (hr : (t'.pageTable (a / cfg.PageSize)).readAllowed = (t.pageTable (a / cfg.PageSize)).readAllowed)
    (hw : (t'.pageTable (a / cfg.PageSize)).writeAllowed =
      (t.pageTable (a / cfg.PageSize)).writeAllowed) :
    translateCheck cfg t' a s w = translateCheck cfg t a s w := by
  simp only [translateCheck, TranslationTable.getMaxNumPages, TranslationTable.getBitReadAllowed,
    TranslationTable.getBitWriteAllowed, hm, hr, hw]

def MapsTo (t : TranslationTable) (vpn p : Nat) : Prop :=
  (t.pageTable vpn).valid ∧ (t.pageTable vpn).physicalPage = p ∧ p < cfg.NumPhysPages

def SameRights (t t₁ : TranslationTable) (vpn : Nat) : Prop :=
  t₁.maxNumPages = t.maxNumPages ∧
    (t₁.pageTable vpn).readAllowed = (t.pageTable vpn).readAllowed ∧
    (t₁.pageTable vpn).writeAllowed = (t.pageTable vpn).writeAllowed

/-- The page-fault path raised for address `a` returns with entry `vpn` of the table of the
faulting address space loaded on a frame of the machine. -/
def ServiceLoads (pf : PageFaultService) (k : Kernel) (a vpn : Nat) : Prop :=
  ∃ k₁ t₁ p, raiseException cfg pf k.incrPageFault .PAGEFAULT_EXCEPTION a = .ok k₁ ∧
    k₁.addrspaces k.current = some t₁ ∧ MapsTo cfg t₁ vpn p

theorem SameRights.trans {t t₁ t₂ : TranslationTable} {vpn : Nat} (h₁ : SameRights t t₁ vpn)
    (h₂ : SameRights t₁ t₂ vpn) : SameRights t t₂ vpn :=
  ⟨h₂.1.trans h₁.1, h₂.2.1.trans h₁.2.1, h₂.2.2.trans h₁.2.2⟩

theorem sameRights_setUM (t : TranslationTable) (vpn : Nat) (w : Bool) :
    SameRights t (setUM t vpn w) vpn := by
  simp [SameRights, setUM_pageTable]

theorem mapsTo_setUM {t : TranslationTable} {vpn p : Nat} (w : Bool) (h : MapsTo cfg t vpn p) :
    MapsTo cfg (setUM t vpn w) vpn p := by
  simpa [MapsTo, setUM_pageTable] using h

section
variable {cfg}
variable {pf : PageFaultService} {k : Kernel} {t : TranslationTable} {a s : Nat} {w : Bool}

theorem makeResident_loads (ht : k.addrspaces k.current = some t)
    (htab : ∀ v, (t.pageTable v).valid → ∃ p : Nat, (t.pageTable v).physicalPage = p ∧
      p < cfg.NumPhysPages)
    (hpf : (t.pageTable (a / cfg.PageSize)).valid = false →
      ServiceLoads cfg pf k a (a / cfg.PageSize)) :
    ∃ k₁ t₁ p, makeResident cfg pf k k.current a (a / cfg.PageSize) = .ok k₁ ∧
      k₁.addrspaces k.current = some t₁ ∧ MapsTo cfg t₁ (a / cfg.PageSize) p ∧
      ((t.pageTable (a / cfg.PageSize)).valid → k₁ = k ∧ t₁ = t) := by
  cases hv : (t.pageTable (a / cfg.PageSize)).valid
  · obtain ⟨k₁, t₁, p, hr, ht₁, hmap⟩ := hpf hv
    exact ⟨k₁, t₁, p, makeResident_fault ht hv hr ht₁ hmap.1, ht₁, hmap, nofun⟩
  · obtain ⟨p, hp, hN⟩ := htab _ hv
    exact ⟨k, t, p, makeResident_valid ht hv, ht, ⟨hv, hp, hN⟩, fun _ => ⟨rfl, rfl⟩⟩

theorem translate_of_resident {k₁ : Kernel} {t₁ : TranslationTable} {p : Nat}
    (ht : k.addrspaces k.current = some t) (hc : translateCheck cfg t a s w = none)
    (hm : makeResident cfg pf k k.current a (a / cfg.PageSize) = .ok k₁)
    (ht₁ : k₁.addrspaces k.current = some t₁) (hmap : MapsTo cfg t₁ (a / cfg.PageSize) p) :
    translate cfg pf k a s w = .ok (.NO_EXCEPTION, some (p * cfg.PageSize + a % cfg.PageSize),
      (k₁.setTable k.current (setUM t₁ (a / cfg.PageSize) w)).incrMemoryAccess) := by
  rw [translate_of_pass ht hc hm, translateFrame_ok ht₁ hmap.2.1 hmap.2.2,
    Nat.mod_eq_of_lt (frame_addr_lt hmap.2.2 (Nat.mod_lt _ cfg.pageSize_pos))]

theorem translate_again {k₁ : Kernel} {t₁ : TranslationTable} {p : Nat}
    (hcur : k₁.current = k.current) (hc : translateCheck cfg t₁ a s w = none)
    (hmap : MapsTo cfg t₁ (a / cfg.PageSize) p) :
    translate cfg pf ((k₁.setTable k.current (setUM t₁ (a / cfg.PageSize) w)).incrMemoryAccess)
      a s w = .ok (.NO_EXCEPTION, some (p * cfg.PageSize + a % cfg.PageSize),
        (((k₁.setTable k.current (setUM t₁ (a / cfg.PageSize) w)).incrMemoryAccess).setTable
          k.current (setUM (setUM t₁ (a / cfg.PageSize) w) (a / cfg.PageSize) w)).incrMemoryAccess) := by
  have ht' : ((k₁.setTable k.current (setUM t₁ (a / cfg.PageSize) w)).incrMemoryAccess).addrspaces
      ((k₁.setTable k.current (setUM t₁ (a / cfg.PageSize) w)).incrMemoryAccess).current =
      some (setUM t₁ (a / cfg.PageSize) w) := by simp [hcur]
  have hmap' := mapsTo_setUM cfg w hmap
  have hc' : translateCheck cfg (setUM t₁ (a / cfg.PageSize) w) a s w = none := by
    obtain ⟨hm, hr, hw⟩ := sameRights_setUM t₁ (a / cfg.PageSize) w
    rw [translateCheck_congr cfg hm hr hw, hc]
  have hcur' : ((k₁.setTable k.current (setUM t₁ (a / cfg.PageSize) w)).incrMemoryAccess).current =
      k.current := by simp [hcur]
  rw [translate_of_resident ht' hc' (makeResident_valid ht' hmap'.1) ht' hmap', hcur']

end

/-- What `Translate` does from a kernel whose current table is `t`. A failed check returns
its exception and leaves the kernel as it was: no entry, no frame and no count changes, and
no service runs. A translation that passes the checks, given a table whose valid entries name
frames of the machine and a service that loads the page, returns the frame's byte at the page
offset; the entry gets U, and M when writing, and no other entry changes. The same
translation repeated returns the same address, when the process is still the current one and
the page's rights are still those checked (always, unless a service ran). -/
structure TranslateContract (pf : PageFaultService) (k : Kernel) (t : TranslationTable)
    (a s : Nat) (w : Bool) : Prop where
  check_eq : translateCheck cfg t a s w = specCheck cfg t a s w
  failed : ∀ e, specCheck cfg t a s w = some e → translate cfg pf k a s w = .ok (e, none, k)
  passed : specCheck cfg t a s w = none →
    (∀ v, (t.pageTable v).valid → ∃ p : Nat, (t.pageTable v).physicalPage = p ∧
      p < cfg.NumPhysPages) →
    ((t.pageTable (a / cfg.PageSize)).valid = false →
      ServiceLoads cfg pf k a (a / cfg.PageSize)) →
    ∃ k₁ t₁ t' p, makeResident cfg pf k k.current a (a / cfg.PageSize) = .ok k₁ ∧
      k₁.addrspaces k.current = some t₁ ∧ MapsTo cfg t₁ (a / cfg.PageSize) p ∧
      translate cfg pf k a s w = .ok (.NO_EXCEPTION, some (p * cfg.PageSize + a % cfg.PageSize),
        (k₁.setTable k.current t').incrMemoryAccess) ∧
      t'.maxNumPages = t₁.maxNumPages ∧
      t'.pageTable (a / cfg.PageSize) = { t₁.pageTable (a / cfg.PageSize) with
        U := true, M := (t₁.pageTable (a / cfg.PageSize)).M || w } ∧
      (∀ v ≠ a / cfg.PageSize, t'.pageTable v = t₁.pageTable v) ∧
      ((t.pageTable (a / cfg.PageSize)).valid ∨
        k₁.current = k.current ∧ SameRights t t₁ (a / cfg.PageSize) →
      ∃ k₂, translate cfg pf (k₁.setTable k.current t').incrMemoryAccess a s w =
        .ok (.NO_EXCEPTION, some (p * cfg.PageSize + a % cfg.PageSize), k₂))

theorem translate_contract (pf : PageFaultService) {k : Kernel} {t : TranslationTable}
    (ht : k.addrspaces k.current = some t) (a s : Nat) (w : Bool) :
    TranslateContract cfg pf k t a s w := by
  refine ⟨translateCheck_eq_specCheck cfg t a s w, fun e he => ?_, fun hc htab hpf => ?_⟩
  · exact translate_of_check ht ((translateCheck_eq_specCheck cfg t a s w).trans he)
  · rw [← translateCheck_eq_specCheck] at hc
    obtain ⟨k₁, t₁, p, hm, ht₁, hmap, hres⟩ := makeResident_loads ht htab hpf
    refine ⟨k₁, t₁, setUM t₁ (a / cfg.PageSize) w, p, hm, ht₁, hmap,
      translate_of_resident ht hc hm ht₁ hmap, setUM_maxNumPages _ _ _,
      by simp [setUM_pageTable], fun v hv => by simp [setUM_pageTable, hv], fun hsame => ?_⟩
    -- the repeated translation starts from the entry as the first one left it
    obtain ⟨hcur, hm₁, hr₁, hw₁⟩ :
        k₁.current = k.current ∧ SameRights t t₁ (a / cfg.PageSize) := by
      rcases hsame with hv | h
      · obtain ⟨rfl, rfl⟩ := hres hv; exact ⟨rfl, rfl, rfl, rfl⟩
      · exact h
    exact ⟨_, translate_again hcur (by rw [translateCheck_congr cfg hm₁ hr₁ hw₁, hc]) hmap⟩

theorem translate_contract_onePage :
    onePageKernel.addrspaces onePageKernel.current = some onePageTable ∧
      specCheck toyConfig onePageTable 1 2 true = some .BUSERROR_EXCEPTION ∧
      TranslateContract toyConfig (pageFault toyConfig) onePageKernel onePageTable 1 2 true ∧
      specCheck toyConfig onePageTable 2 2 true = none ∧
      ServiceLoads toyConfig (pageFault toyConfig) onePageKernel 2 (2 / toyConfig.PageSize) ∧
      TranslateContract toyConfig (pageFault toyConfig) onePageKernel onePageTable 2 2 true := by
  obtain ⟨k₁, hpf, ht⟩ := pageFault_of_head toyConfig (k := onePageKernel.incrPageFault) 0 rfl rfl
    rfl (by decide)
  have hpage : toUInt64 (toInt32 2) / toyConfig.PageSize = 0 := by decide
  refine ⟨rfl, by decide, translate_contract toyConfig (pageFault toyConfig) rfl 1 2 true, by decide,
    ⟨k₁, _, 0, raiseException_pageFault.2 (hpage ▸ hpf), ht, rfl, rfl, by decide⟩,
    translate_contract toyConfig (pageFault toyConfig) rfl 2 2 true⟩

/-! ### The page the service is asked for -/

section
variable {cfg}

theorem toUInt64_toInt32_of_ge {a : Nat} (h₁ : 2 ^ 31 ≤ a) (h₂ : a < 2 ^ 32) :
    toUInt64 (toInt32 a) = a + (2 ^ 64 - 2 ^ 32) := by
  rw [toInt32_of_ge h₁ h₂, toUInt64]
  omega

/-- `ExceptionHandler` recomputes the page from its `int vaddr`: it is the page `Translate`
tests exactly below `2 ^ 31`. -/
theorem faultPage_eq_iff {a : Nat} (hN : 0 < cfg.NumPhysPages) (ha : a < 2 ^ 32) :
    toUInt64 (toInt32 a) / cfg.PageSize = a / cfg.PageSize ↔ a < 2 ^ 31 := by
  refine ⟨fun h => Nat.lt_of_not_le fun hge => ?_, fun hlt => ?_⟩
  · have hPS : cfg.PageSize ≤ 2 ^ 32 :=
      Nat.le_trans (Nat.le_mul_of_pos_left _ hN) cfg.memory_fits
    have hlt : a / cfg.PageSize < toUInt64 (toInt32 a) / cfg.PageSize :=
      calc a / cfg.PageSize < (a + cfg.PageSize) / cfg.PageSize := by
            rw [Nat.add_div_right _ cfg.pageSize_pos]; omega
        _ ≤ toUInt64 (toInt32 a) / cfg.PageSize := by
            rw [toUInt64_toInt32_of_ge hge ha]; exact Nat.div_le_div_right (by omega)
    omega
  · rw [toInt32_of_lt hlt, toUInt64_natCast (by omega)]

end

/-- From `2 ^ 31` on, the page-fault path asks the service for another page than the one
`Translate` tests. A service that maps the page it is asked for leaves the tested one
invalid, and `Translate` exits. -/
theorem translate_upper_half_exits {k : Kernel} {t : TranslationTable} {a s : Nat} {w : Bool}
    {p : Nat} {rest : List Nat} (ht : k.addrspaces k.current = some t) (ha : 2 ^ 31 ≤ a)
    (ha' : a < 2 ^ 32) (hc : translateCheck cfg t a s w = none)
    (hv : (t.pageTable (a / cfg.PageSize)).valid = false) (hl : k.free_page_list = p :: rest)
    (hp : (k.tpr p).free) (hN : p < cfg.NumPhysPages) :
    toUInt64 (toInt32 a) / cfg.PageSize ≠ a / cfg.PageSize ∧
      translate cfg (pageFault cfg) k a s w =
        .error (.exitError "Error: page fault failed (bit valid should be set to 1)\n") := by
  have hne : toUInt64 (toInt32 a) / cfg.PageSize ≠ a / cfg.PageSize :=
    fun h => absurd ((faultPage_eq_iff (by omega) ha').1 h) (by omega)
  refine ⟨hne, ?_⟩
  obtain ⟨k', hpf, ht'⟩ := pageFault_of_head cfg (k := k.incrPageFault)
    (toUInt64 (toInt32 a) / cfg.PageSize) (by simpa using ht) hl hp hN
  have hr := raiseException_pageFault.2 hpf
  simp only [Kernel.incrPageFault_current] at ht'
  have hm : makeResident cfg (pageFault cfg) k k.current a (a / cfg.PageSize) =
      .error (.exitError "Error: page fault failed (bit valid should be set to 1)\n") := by
    simp [makeResident, ht, hv, hr, ht', setPhysicalPage_setBitValid_pageTable, Ne.symm hne]
  simp [translate, ht, hc, hm]

def upperHalfTable : TranslationTable := ⟨2 ^ 30, fun _ => ⟨0, false, true, true, false, false⟩⟩

theorem translate_upper_half_exits_toy :
    let k := (physicalMemManager toyConfig Kernel.boot).setTable 0 upperHalfTable
    k.addrspaces k.current = some upperHalfTable ∧ 2 ^ 31 ≤ 2 ^ 31 ∧ 2 ^ 31 < 2 ^ 32 ∧
      translateCheck toyConfig upperHalfTable (2 ^ 31) 1 false = none ∧
      (upperHalfTable.pageTable (2 ^ 31 / toyConfig.PageSize)).valid = false ∧
      k.free_page_list = 0 :: [1, 2, 3] ∧ (k.tpr 0).free ∧ 0 < toyConfig.NumPhysPages ∧
      toUInt64 (toInt32 (2 ^ 31)) / toyConfig.PageSize ≠ 2 ^ 31 / toyConfig.PageSize ∧
      translate toyConfig (pageFault toyConfig) k (2 ^ 31) 1 false =
        .error (.exitError "Error: page fault failed (bit valid should be set to 1)\n") :=
  have h := translate_upper_half_exits toyConfig (k := (physicalMemManager toyConfig
    Kernel.boot).setTable 0 upperHalfTable) (s := 1) (w := false) rfl (by decide) (by decide)
    (by decide) rfl rfl rfl (by decide)
  ⟨rfl, by decide, by decide, by decide, rfl, rfl, rfl, by decide, h⟩

end NachosVm
