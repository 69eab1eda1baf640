import NachosVm.Machine.TranslationTable

/-! The kernel context the virtual-memory core mutates. The process-wide singletons of the
source (`g_physical_mem_manager`, `g_swap_manager`, `g_machine->mainMemory`) are fields of
one record, and an address space is named by an identifier: the frame table's `owner`
back-reference is such an identifier, `none` standing for NULL. -/
namespace NachosVm

/-- `struct tpr_c`: the physical page table entry of one frame. -/
structure TprEntry where
  free : Bool
  locked : Bool
  virtualPage : Nat
  owner : Option Nat
  deriving DecidableEq, Repr

structure ProcessStat where
  numMemoryAccess : Nat
  numPageFaults : Nat
  deriving DecidableEq, Repr

/-- `tpr` and `free_page_list` are `PhysicalMemManager`'s, `page_flags` and `swap_disk`
(the contents of the swap disk, by sector) are `SwapManager`'s. `addrspaces A` is the
`translationTable` of address space `A`, `none` when NULL. `current` is the process of
`g_current_thread`: the MMU translates with its table and the statistics it updates are its. -/
structure Kernel where
  tpr : Nat → TprEntry
  free_page_list : List Nat
  page_flags : Nat → Bool
  swap_disk : Nat → Nat → UInt8
  addrspaces : Nat → Option TranslationTable
  current : Nat
  stat : Nat → ProcessStat
  mainMemory : Nat → UInt8

namespace Kernel

/-- A machine before boot: zeroed memory and swap disk, no address space, no counts. -/
def boot : Kernel where
  tpr _ := ⟨true, false, 0, none⟩
  free_page_list := []
  page_flags _ := false
  swap_disk _ _ := 0
  addrspaces _ := none
  current := 0
  stat _ := ⟨0, 0⟩
  mainMemory _ := 0

@[simps] def setTpr (k : Kernel) (p : Nat) (e : TprEntry) : Kernel :=
  { k with tpr := Function.update k.tpr p e }

@[simps] def setTable (k : Kernel) (A : Nat) (t : TranslationTable) : Kernel :=
  { k with addrspaces := Function.update k.addrspaces A (some t) }

def bumpMemoryAccess (k : Kernel) : ProcessStat :=
  { k.stat k.current with numMemoryAccess := (k.stat k.current).numMemoryAccess + 1 }

@[simps] def incrMemoryAccess (k : Kernel) : Kernel :=
  { k with stat := Function.update k.stat k.current k.bumpMemoryAccess }

def bumpPageFault (k : Kernel) : ProcessStat :=
  { k.stat k.current with numPageFaults := (k.stat k.current).numPageFaults + 1 }

@[simps] def incrPageFault (k : Kernel) : Kernel :=
  { k with stat := Function.update k.stat k.current k.bumpPageFault }

end Kernel

end NachosVm
