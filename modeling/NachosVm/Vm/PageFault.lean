import NachosVm.Vm.PhysMem
import NachosVm.Machine.Mmu

/-! The page-fault service that the MMU invokes on a miss. Its source is not in the
repository; the definition follows the contract of the spec and of `PhysicalMemManager`. -/
namespace NachosVm

variable (cfg : Config)

def mapPage (k : Kernel) (A : Nat) (t : TranslationTable) (v p : Nat) : Except Stop Kernel :=
  unlockPage cfg ((setTPREntry k p v (some A) true).setTable A
    ((t.setPhysicalPage v p).setBitValid v)) p

/-- Modelled from the spec: `PageFaultManager::PageFault` (`vm/pagefaultmanager.cc`) is not
under src/. Asked for page `virtualPage` of the current address space, it takes a frame from
`FindFreePage`, or from `EvictPage` when none is free, records the mapping locked with
`SetTPREntry`, points the entry at the frame, marks it valid and unlocks the frame. Loading
the page's content is left out. -/
def pageFault (k : Kernel) (virtualPage : Nat) : Except Stop (ExceptionType × Kernel) :=
  withTable k k.current fun t =>
  match findFreePage k with
  | .error s => .error s
  | .ok (p, k₁) =>
    match (if p = toUInt64 INVALID_PAGE then evictPage k₁ else .ok (p, k₁)) with
    | .error s => .error s
    | .ok (p, k₂) =>
      match mapPage cfg k₂ k.current t virtualPage p with
      | .error s => .error s
      | .ok k₃ => .ok (.NO_EXCEPTION, k₃)

theorem mapPage_ok {k : Kernel} {A v p : Nat} (t : TranslationTable)
    (hN : p < cfg.NumPhysPages) (hf : (k.tpr p).free = false) :
    mapPage cfg k A t v p = .ok (((k.setTpr p ⟨false, false, v, some A⟩).setTable A
      ((t.setPhysicalPage v p).setBitValid v))) := by
  rw [mapPage, unlockPage_ok cfg hN (by simp [setTPREntry]) (by simp [setTPREntry, hf])]
  congr 1
  simp only [setTPREntry, Kernel.setTpr, Kernel.setTable, Kernel.mk.injEq, and_true]
  funext i
  by_cases hi : i = p
  · subst hi; simp [hf]
  · simp [Function.update_noteq hi]

theorem pageFault_of_head {k : Kernel} {t : TranslationTable} {p : Nat} {rest : List Nat}
    (v : Nat) (ht : k.addrspaces k.current = some t) (hl : k.free_page_list = p :: rest)
    (hp : (k.tpr p).free) (hN : p < cfg.NumPhysPages) :
    ∃ k', pageFault cfg k v = .ok (.NO_EXCEPTION, k') ∧
      k'.addrspaces k.current = some ((t.setPhysicalPage v p).setBitValid v) := by
  simp only [pageFault, withTable_some ht, findFreePage_cons hl hp,
    Nat.ne_of_lt (lt_invalid_page hN), ite_false]
  rw [mapPage_ok cfg t hN (by simp)]
  exact ⟨_, rfl, by simp⟩

theorem setPhysicalPage_setBitValid_pageTable (t : TranslationTable) (v p w : Nat) :
    ((t.setPhysicalPage v p).setBitValid v).pageTable w =
      if w = v then { t.pageTable v with physicalPage := p, valid := true } else t.pageTable w := by
  by_cases hw : w = v
  · subst hw; simp [TranslationTable.setPhysicalPage, TranslationTable.setBitValid]
  · simp [TranslationTable.setPhysicalPage, TranslationTable.setBitValid, hw]

theorem pageFault_cases {k k' : Kernel} {v : Nat} {e : ExceptionType}
    (h : pageFault cfg k v = .ok (e, k')) :
    ∃ p rest t, k.free_page_list = p :: rest ∧ (k.tpr p).free ∧ p < cfg.NumPhysPages ∧
      k.addrspaces k.current = some t ∧ e = .NO_EXCEPTION ∧
      k'.free_page_list = rest ∧ k'.current = k.current ∧
      k'.tpr = Function.update k.tpr p ⟨false, false, v, some k.current⟩ ∧
      k'.addrspaces = Function.update k.addrspaces k.current
        (some ((t.setPhysicalPage v p).setBitValid v)) ∧ k'.mainMemory = k.mainMemory := by
  cases ht : k.addrspaces k.current with
  | none => simp [pageFault, withTable, ht] at h
  | some t =>
    simp only [pageFault, withTable_some ht] at h
    split at h
    · cases h
    · rename_i p k₁ hf
      rcases findFreePage_cases hf with ⟨-, rfl, -⟩ | ⟨rest, hl, hfree, rfl⟩
      · simp [evictPage] at h
      · have hp : p ≠ toUInt64 INVALID_PAGE := by
          intro hp
          simp [hp, evictPage] at h
        simp only [hp, ite_false] at h
        split at h
        · cases h
        · rename_i k₃ hm
          cases h
          obtain ⟨hN, -, -, rfl⟩ := unlockPage_cases cfg hm
          refine ⟨p, rest, t, hl, hfree, hN, rfl, rfl, rfl, rfl, ?_, rfl, rfl⟩
          funext i
          by_cases hi : i = p
          · subst hi; simp [setTPREntry]
          · simp [setTPREntry, Function.update_noteq hi]

def onePageTable : TranslationTable := ⟨1, fun _ => ⟨0, false, true, true, false, false⟩⟩

/-- A fresh manager of four frames of four bytes, with one address space, of `onePageTable`,
running. -/
def onePageKernel : Kernel := physicalMemManager toyConfig (Kernel.boot.setTable 0 onePageTable)

end NachosVm
