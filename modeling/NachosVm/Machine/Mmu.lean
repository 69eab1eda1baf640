import NachosVm.Kernel.State
import NachosVm.Machine.MainMemory

/-! `MMU::Translate`, `MMU::ReadMem` and `MMU::WriteMem` (`machine/mmu.cc`) with the part of
`ExceptionHandler` they reach through `RaiseException`. The MMU translates with the table of
the current address space. The page-fault service is a parameter: its body is not under src/. -/
namespace NachosVm

variable (cfg : Config)

abbrev PageFaultService := Kernel → Nat → Except Stop (ExceptionType × Kernel)

/-- The cases of `ExceptionHandler(ExceptionType exceptiontype, int vaddr)` the MMU raises.
The page-fault case computes `vaddr / g_cfg->PageSize`, which converts the `int` to the
unsigned type of `PageSize`. -/
def exceptionHandler (pageFault : PageFaultService) (k : Kernel) :
    ExceptionType → Int → Except Stop Kernel
  | .NO_EXCEPTION, _ =>
    .error (.halt "Nachos internal error, a NoException exception is raised ...\n")
  | .PAGEFAULT_EXCEPTION, vaddr =>
    match pageFault k (toUInt64 vaddr / cfg.PageSize) with
    | .error s => .error s
    | .ok (e, k') =>
      if e ≠ .NO_EXCEPTION then .error (.halt "\t*** Page fault handling failed, ... exiting\n")
      else .ok k'
  | .READONLY_EXCEPTION, _ =>
    .error (.halt "\t*** Write to virtual address 0x%x on read-only page ***\n")
  | .BUSERROR_EXCEPTION, _ =>
    .error (.halt "\t*** Bus error on access to virtual address 0x%x ***\n")
  | .ADDRESSERROR_EXCEPTION, _ =>
    .error (.halt "\t*** Access to invalid or unmapped virtual address 0x%x ***\n")

/-- `g_machine->RaiseException(which, badVAddr)`: the handler receives the address as its
`int vaddr`. -/
def raiseException (pageFault : PageFaultService) (k : Kernel) (which : ExceptionType)
    (badVAddr : Nat) : Except Stop Kernel :=
  exceptionHandler cfg pageFault k which (toInt32 badVAddr)

def withTable {α : Type} (k : Kernel) (A : Nat) (f : TranslationTable → Except Stop α) :
    Except Stop α :=
  match k.addrspaces A with
  | none => .error (.nullDeref "translationTable")
  | some t => f t

def translateCheck (t : TranslationTable) (virtAddr size : Nat) (writing : Bool) :
    Option ExceptionType :=
  let vpn := virtAddr / cfg.PageSize
  if (size = 4 ∧ virtAddr &&& 0x3 ≠ 0) ∨ (size = 2 ∧ virtAddr &&& 0x1 ≠ 0) then
    some .BUSERROR_EXCEPTION
  else if vpn ≥ t.getMaxNumPages then some .ADDRESSERROR_EXCEPTION
  else if !t.getBitReadAllowed vpn && !t.getBitWriteAllowed vpn then
    some .ADDRESSERROR_EXCEPTION
  else if writing && !t.getBitWriteAllowed vpn then some .READONLY_EXCEPTION
  else none

/-- The residency step of `MMU::Translate` on page `vpn` of address space `A`: on an invalid
entry, count the fault, raise `PAGEFAULT_EXCEPTION`, and exit if the entry is still invalid. -/
def makeResident (pageFault : PageFaultService) (k : Kernel) (A virtAddr vpn : Nat) :
    Except Stop Kernel :=
  withTable k A fun t =>
  if t.getBitValid vpn then .ok k else
  match raiseException cfg pageFault k.incrPageFault .PAGEFAULT_EXCEPTION virtAddr with
  | .error s => .error s
  | .ok k' =>
    withTable k' A fun t' =>
    if t'.getBitValid vpn then .ok k'
    else .error (.exitError "Error: page fault failed (bit valid should be set to 1)\n")

def setUM (t : TranslationTable) (vpn : Nat) (writing : Bool) : TranslationTable :=
  (if writing then t.setBitM vpn else t).setBitU vpn

def translateFrame (k : Kernel) (A vpn offset : Nat) (writing : Bool) :
    Except Stop (ExceptionType × Option Nat × Kernel) :=
  withTable k A fun t =>
  let pp := t.getPhysicalPage vpn
  if pp < 0 ∨ pp ≥ toInt32 cfg.NumPhysPages then .ok (.BUSERROR_EXCEPTION, none, k)
  else
    .ok (.NO_EXCEPTION, some ((pp.toNat * cfg.PageSize + offset) % 2 ^ 32),
      (k.setTable A (setUM t vpn writing)).incrMemoryAccess)

/-- `MMU::Translate(virtAddr, &physAddr, size, writing)`: the exception returned, the
physical address stored (on `NO_EXCEPTION` only), and the kernel left. `virtAddr` is a
`uint32_t`. -/
def translate (pageFault : PageFaultService) (k : Kernel) (virtAddr size : Nat)
    (writing : Bool) : Except Stop (ExceptionType × Option Nat × Kernel) :=
  withTable k k.current fun t =>
  match translateCheck cfg t virtAddr size writing with
  | some e => .ok (e, none, k)
  | none =>
    match makeResident cfg pageFault k k.current virtAddr (virtAddr / cfg.PageSize) with
    | .error s => .error s
    | .ok k' => translateFrame cfg k' k.current (virtAddr / cfg.PageSize)
        (virtAddr % cfg.PageSize) writing

/-- `MMU::ReadMem(virtAddr, size, &value)`: the `bool` returned, the value stored in
`*value`, and the kernel left. `virtAddr` is a `uint64_t`; `Translate` takes its low 32 bits.
A failed translation is raised, which halts the machine before `return false`. -/
def readMem (pageFault : PageFaultService) (k : Kernel) (virtAddr size : Nat) :
    Except Stop (Bool × Option Nat × Kernel) := do
  let k := k.incrMemoryAccess
  let (exc, physAddr, k) ← translate cfg pageFault k (virtAddr % 2 ^ 32) size false
  let (_, physAddrEnd, k) ← translate cfg pageFault k (virtAddr % 2 ^ 32) size false
  if exc = .NO_EXCEPTION ∧ physAddr ≠ physAddrEnd then
    throw (.assertFailed "physAddr == physAddrEnd")
  if exc ≠ .NO_EXCEPTION then
    let k ← raiseException cfg pageFault k exc virtAddr
    return (false, none, k)
  if size = 1 ∨ size = 2 ∨ size = 4 ∨ size = 8 then
    return (true, some (decode cfg.host_endianess (readBytes k.mainMemory (physAddr.getD 0) size)),
      k)
  else throw (.assertFailed "false")

/-- `MMU::WriteMem(addr, size, value)`: the `bool` returned and the kernel left. The stored
bytes are those of `value` truncated to `size` bytes, in host order. -/
def writeMem (pageFault : PageFaultService) (k : Kernel) (addr size value : Nat) :
    Except Stop (Bool × Kernel) := do
  let k := k.incrMemoryAccess
  let (exc, physicalAddress, k) ← translate cfg pageFault k (addr % 2 ^ 32) size true
  let (_, physAddrEnd, k) ← translate cfg pageFault k (addr % 2 ^ 32) size true
  if exc = .NO_EXCEPTION ∧ physicalAddress ≠ physAddrEnd then
    throw (.assertFailed "physicalAddress == physAddrEnd")
  if exc ≠ .NO_EXCEPTION then
    let k ← raiseException cfg pageFault k exc addr
    return (false, k)
  if size = 1 ∨ size = 2 ∨ size = 4 ∨ size = 8 then
    let bytes := encode cfg.host_endianess size value
    return (true, { k with mainMemory := writeBytes k.mainMemory (physicalAddress.getD 0) bytes })
  else throw (.assertFailed "false")

/-! ### One lemma per step of the translation -/

section
variable {cfg}
variable {pf : PageFaultService} {k k' : Kernel} {t t' : TranslationTable} {A vpn : Nat}

theorem and_three (x : Nat) : x &&& 0x3 = x % 4 := by
  simpa using Nat.and_pow_two_sub_one_eq_mod x 2

theorem and_one (x : Nat) : x &&& 0x1 = x % 2 := by
  simp

@[simp] theorem withTable_some {α : Type} (h : k.addrspaces A = some t)
    (f : TranslationTable → Except Stop α) : withTable k A f = f t := by
  simp [withTable, h]

theorem setUM_pageTable (t : TranslationTable) (vpn v : Nat) (w : Bool) :
    (setUM t vpn w).pageTable v = if v = vpn then
      { t.pageTable vpn with U := true, M := (t.pageTable vpn).M || w } else t.pageTable v := by
  by_cases hv : v = vpn
  · subst hv; cases w <;> simp [setUM, TranslationTable.setBitU, TranslationTable.setBitM]
  · cases w <;> simp [setUM, TranslationTable.setBitU, TranslationTable.setBitM, hv]

@[simp] theorem setUM_maxNumPages (t : TranslationTable) (vpn : Nat) (w : Bool) :
    (setUM t vpn w).maxNumPages = t.maxNumPages := by
  cases w <;> rfl

theorem toInt32_numPhysPages : toInt32 cfg.NumPhysPages = cfg.NumPhysPages :=
  toInt32_of_lt cfg.numPhysPages_lt

theorem frame_addr_lt {p off : Nat} (hp : p < cfg.NumPhysPages) (ho : off < cfg.PageSize) :
    p * cfg.PageSize + off < 2 ^ 32 :=
  calc p * cfg.PageSize + off < (p + 1) * cfg.PageSize := by rw [Nat.succ_mul]; omega
    _ ≤ cfg.NumPhysPages * cfg.PageSize := Nat.mul_le_mul_right _ hp
    _ ≤ 2 ^ 32 := cfg.memory_fits

theorem raiseException_pageFault :
    raiseException cfg pf k .PAGEFAULT_EXCEPTION a = .ok k' ↔
      pf k (toUInt64 (toInt32 a) / cfg.PageSize) = .ok (.NO_EXCEPTION, k') := by
  simp only [raiseException, exceptionHandler]
  split
  · simp_all
  · rename_i e k₁ h
    rw [h]
    by_cases he : e = .NO_EXCEPTION
    · subst he; simp
    · simp [he]

theorem translate_of_check (ht : k.addrspaces k.current = some t) {a s : Nat} {w : Bool}
    {e : ExceptionType} (hc : translateCheck cfg t a s w = some e) :
    translate cfg pf k a s w = .ok (e, none, k) := by
  simp [translate, ht, hc]

theorem translate_of_pass (ht : k.addrspaces k.current = some t) {a s : Nat} {w : Bool}
    (hc : translateCheck cfg t a s w = none) (hm : makeResident cfg pf k k.current a
      (a / cfg.PageSize) = .ok k') :
    translate cfg pf k a s w =
      translateFrame cfg k' k.current (a / cfg.PageSize) (a % cfg.PageSize) w := by
  simp [translate, ht, hc, hm]

theorem makeResident_valid (ht : k.addrspaces A = some t) {a : Nat}
    (hv : (t.pageTable vpn).valid) : makeResident cfg pf k A a vpn = .ok k := by
  simp [makeResident, ht, hv]

theorem makeResident_fault (ht : k.addrspaces A = some t) {a : Nat}
    (hv : (t.pageTable vpn).valid = false)
    (hr : raiseException cfg pf k.incrPageFault .PAGEFAULT_EXCEPTION a = .ok k')
    (ht' : k'.addrspaces A = some t') (hv' : (t'.pageTable vpn).valid) :
    makeResident cfg pf k A a vpn = .ok k' := by
  simp [makeResident, ht, hv, hr, ht', hv']

theorem makeResident_cases {a : Nat} (h : makeResident cfg pf k A a vpn = .ok k') :
    ∃ t, k.addrspaces A = some t ∧
      ((t.pageTable vpn).valid ∧ k' = k ∨ (t.pageTable vpn).valid = false ∧
        raiseException cfg pf k.incrPageFault .PAGEFAULT_EXCEPTION a = .ok k' ∧
        ∃ t', k'.addrspaces A = some t' ∧ (t'.pageTable vpn).valid) := by
  cases ht : k.addrspaces A with
  | none => simp [makeResident, withTable, ht] at h
  | some t =>
    refine ⟨t, rfl, ?_⟩
    cases hv : (t.pageTable vpn).valid
    · cases hr : raiseException cfg pf k.incrPageFault .PAGEFAULT_EXCEPTION a with
      | error s => simp [makeResident, withTable, ht, hv, hr] at h
      | ok k₁ =>
        cases ht₁ : k₁.addrspaces A with
        | none => simp [makeResident, withTable, ht, hv, hr, ht₁] at h
        | some t₁ =>
          cases hv₁ : (t₁.pageTable vpn).valid <;>
            simp [makeResident, withTable, ht, hv, hr, ht₁, hv₁] at h
          subst h; exact .inr ⟨rfl, rfl, t₁, ht₁, hv₁⟩
    · simp [makeResident, withTable, ht, hv] at h
      exact .inl ⟨rfl, h.symm⟩

theorem translateFrame_ok (ht : k.addrspaces A = some t) {p off : Nat} {w : Bool}
    (hp : (t.pageTable vpn).physicalPage = p) (hN : p < cfg.NumPhysPages) :
    translateFrame cfg k A vpn off w = .ok (.NO_EXCEPTION,
      some ((p * cfg.PageSize + off) % 2 ^ 32), (k.setTable A (setUM t vpn w)).incrMemoryAccess) := by
  have : ¬ ((p : Int) < 0 ∨ (p : Int) ≥ toInt32 cfg.NumPhysPages) := by
    rw [toInt32_numPhysPages]; omega
  simp [translateFrame, ht, hp, this]

theorem translateFrame_cases {off : Nat} {w : Bool} {e : ExceptionType} {pa : Option Nat}
    (h : translateFrame cfg k A vpn off w = .ok (e, pa, k')) :
    ∃ t, k.addrspaces A = some t ∧
      (((t.pageTable vpn).physicalPage < 0 ∨ (t.pageTable vpn).physicalPage ≥ cfg.NumPhysPages) ∧
        e = .BUSERROR_EXCEPTION ∧ pa = none ∧ k' = k ∨
      ∃ p : Nat, (t.pageTable vpn).physicalPage = p ∧ p < cfg.NumPhysPages ∧
        e = .NO_EXCEPTION ∧ pa = some ((p * cfg.PageSize + off) % 2 ^ 32) ∧
        k' = (k.setTable A (setUM t vpn w)).incrMemoryAccess) := by
  cases ht : k.addrspaces A with
  | none => simp [translateFrame, withTable, ht] at h
  | some t =>
    refine ⟨t, rfl, ?_⟩
    by_cases hb : (t.pageTable vpn).physicalPage < 0 ∨
        (t.pageTable vpn).physicalPage ≥ cfg.NumPhysPages
    · have hb' := hb
      rw [← toInt32_numPhysPages] at hb'
      simp only [translateFrame, withTable, ht, TranslationTable.getPhysicalPage, hb', ite_true,
        Except.ok.injEq, Prod.mk.injEq] at h
      exact .inl ⟨hb, h.1.symm, h.2.1.symm, h.2.2.symm⟩
    · have hb' := hb
      rw [← toInt32_numPhysPages] at hb'
      simp only [translateFrame, withTable, ht, TranslationTable.getPhysicalPage, hb', ite_false,
        Except.ok.injEq, Prod.mk.injEq] at h
      refine .inr ⟨(t.pageTable vpn).physicalPage.toNat, by omega, by omega, h.1.symm, ?_, h.2.2.symm⟩
      rw [← h.2.1]

end

end NachosVm
