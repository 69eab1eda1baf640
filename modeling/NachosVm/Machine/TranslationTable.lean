import NachosVm.Machine.Config

/-! The linear translation table of one address space: one entry per virtual page,
indexed by the virtual page number, with the accessors the MMU and the memory managers use.
The entry array is a total function; `maxNumPages` bounds the pages the MMU accepts. -/
namespace NachosVm

/-- One entry of the translation table. `physicalPage` is an `int`, as the MMU's bounds test
`getPhysicalPage(vpn) < 0` reads it. -/
structure PageTableEntry where
  physicalPage : Int
  valid : Bool
  readAllowed : Bool
  writeAllowed : Bool
  U : Bool
  M : Bool
  deriving DecidableEq, Repr

structure TranslationTable where
  maxNumPages : Nat
  pageTable : Nat → PageTableEntry

namespace TranslationTable

@[simp] def getMaxNumPages (t : TranslationTable) : Nat := t.maxNumPages
@[simp] def getBitValid (t : TranslationTable) (vpn : Nat) : Bool := (t.pageTable vpn).valid
@[simp] def getBitReadAllowed (t : TranslationTable) (vpn : Nat) : Bool :=
  (t.pageTable vpn).readAllowed
@[simp] def getBitWriteAllowed (t : TranslationTable) (vpn : Nat) : Bool :=
  (t.pageTable vpn).writeAllowed
@[simp] def getPhysicalPage (t : TranslationTable) (vpn : Nat) : Int :=
  (t.pageTable vpn).physicalPage
@[simp] def getBitU (t : TranslationTable) (vpn : Nat) : Bool := (t.pageTable vpn).U
@[simp] def getBitM (t : TranslationTable) (vpn : Nat) : Bool := (t.pageTable vpn).M

def modify (t : TranslationTable) (vpn : Nat) (f : PageTableEntry → PageTableEntry) :
    TranslationTable :=
  { t with pageTable := Function.update t.pageTable vpn (f (t.pageTable vpn)) }

def setBitU (t : TranslationTable) (vpn : Nat) : TranslationTable :=
  t.modify vpn fun e => { e with U := true }

def setBitM (t : TranslationTable) (vpn : Nat) : TranslationTable :=
  t.modify vpn fun e => { e with M := true }

def setBitValid (t : TranslationTable) (vpn : Nat) : TranslationTable :=
  t.modify vpn fun e => { e with valid := true }

def clearBitValid (t : TranslationTable) (vpn : Nat) : TranslationTable :=
  t.modify vpn fun e => { e with valid := false }

def setPhysicalPage (t : TranslationTable) (vpn : Nat) (pp : Int) : TranslationTable :=
  t.modify vpn fun e => { e with physicalPage := pp }

@[simp] theorem maxNumPages_modify (t : TranslationTable) (vpn f) :
    (t.modify vpn f).maxNumPages = t.maxNumPages := rfl

@[simp] theorem pageTable_modify_self (t : TranslationTable) (vpn f) :
    (t.modify vpn f).pageTable vpn = f (t.pageTable vpn) := by
  simp [modify]

@[simp] theorem pageTable_modify_of_ne (t : TranslationTable) {vpn w} (f)
    (h : w ≠ vpn) : (t.modify vpn f).pageTable w = t.pageTable w := by
  simp [modify, h]

theorem pageTable_modify (t : TranslationTable) (vpn f w) :
    (t.modify vpn f).pageTable w = if w = vpn then f (t.pageTable vpn) else t.pageTable w := by
  by_cases h : w = vpn
  · subst h; simp
  · simp [h]

end TranslationTable

/-- A page the MMU accepts and finds in memory: in range, mapped and valid. Its bytes are
the virtual bytes of the address space. -/
def Resident (t : TranslationTable) (vpn : Nat) : Prop :=
  vpn < t.maxNumPages ∧ ((t.pageTable vpn).readAllowed ∨ (t.pageTable vpn).writeAllowed) ∧
    (t.pageTable vpn).valid

instance (t : TranslationTable) (vpn : Nat) : Decidable (Resident t vpn) :=
  inferInstanceAs (Decidable (_ ∧ _ ∧ _))

end NachosVm
