import NachosVm.Vm.FrameTable
import NachosVm.Machine.Translation

/-! `ReadMem` and `WriteMem` against the spec's virtual memory: the byte a virtual address
denotes in an address space, which of them an access reads, and which it changes. An access
reads or writes `size` bytes from the physical address of its first byte, so it stays inside
the virtual bytes it names only when it stays inside one page. -/
namespace NachosVm

variable (cfg : Config)

/-- The physical address of virtual byte `b` of address space `A`: offset `b mod PageSize` in
the frame of page `b / PageSize`, when that page is within the table, mapped and valid. -/
def physAddrOf (k : Kernel) (A b : Nat) : Option Nat :=
  match k.addrspaces A with
  | none => none
  | some t =>
    if b / cfg.PageSize < t.maxNumPages ∧ ((t.pageTable (b / cfg.PageSize)).readAllowed ∨
        (t.pageTable (b / cfg.PageSize)).writeAllowed) ∧ (t.pageTable (b / cfg.PageSize)).valid then
      some ((t.pageTable (b / cfg.PageSize)).physicalPage.toNat * cfg.PageSize + b % cfg.PageSize)
    else none

def virtualByte (k : Kernel) (A b : Nat) : Option UInt8 :=
  (physAddrOf cfg k A b).map k.mainMemory

structure FramesDistinct (k : Kernel) : Prop where
  frame_lt : ∀ A t v, k.addrspaces A = some t → (t.pageTable v).valid →
    ∃ p : Nat, (t.pageTable v).physicalPage = p ∧ p < cfg.NumPhysPages
  frame_inj : ∀ A B t t' v w, k.addrspaces A = some t → k.addrspaces B = some t' →
    (t.pageTable v).valid → (t'.pageTable w).valid →
    (t.pageTable v).physicalPage = (t'.pageTable w).physicalPage → A = B ∧ v = w

/-- An access of `s` bytes at `a` raises no page fault: the MMU's checks fail, or the page is
resident. -/
def NoFault (k : Kernel) (a s : Nat) (w : Bool) : Prop :=
  ∀ t, k.addrspaces k.current = some t → translateCheck cfg t (a % 2 ^ 32) s w = none →
    (t.pageTable (a % 2 ^ 32 / cfg.PageSize)).valid

/-! ### What one access computes -/

section
variable {cfg} {pf : PageFaultService} {k k' : Kernel} {a s : Nat}

theorem translateCheck_ne {t : TranslationTable} {w : Bool} {e : ExceptionType}
    (h : translateCheck cfg t a s w = some e) :
    e ≠ .NO_EXCEPTION ∧ e ≠ .PAGEFAULT_EXCEPTION := by
  simp only [translateCheck] at h
  split_ifs at h <;> cases h <;> decide

theorem translate_ne_pageFault {w : Bool} {e : ExceptionType} {pa : Option Nat}
    (h : translate cfg pf k a s w = .ok (e, pa, k')) : e ≠ .PAGEFAULT_EXCEPTION := by
  cases ht : k.addrspaces k.current with
  | none => simp [translate, withTable, ht] at h
  | some t =>
    cases hc : translateCheck cfg t a s w with
    | some e' => rw [translate_of_check ht hc] at h; cases h; exact (translateCheck_ne hc).2
    | none =>
      cases hm : makeResident cfg pf k k.current a (a / cfg.PageSize) with
      | error x => simp [translate, withTable, ht, hc, hm] at h
      | ok k₁ =>
        rw [translate_of_pass ht hc hm] at h
        obtain ⟨-, -, ⟨-, rfl, -⟩ | ⟨-, -, -, rfl, -⟩⟩ := translateFrame_cases h <;> decide

theorem raiseException_halts {e : ExceptionType} (a : Nat) (h₁ : e ≠ .NO_EXCEPTION)
    (h₂ : e ≠ .PAGEFAULT_EXCEPTION) : ∃ msg, raiseException cfg pf k e a = .error (.halt msg) := by
  cases e <;> simp_all [raiseException, exceptionHandler]

/-- A `ReadMem` that returns has translated twice to one address without failure, and reads
from it: it never returns `false`. -/
theorem readMem_ok {b : Bool} {r : Option Nat} (h : readMem cfg pf k a s = .ok (b, r, k')) :
    ∃ pa k₁ e₂, translate cfg pf k.incrMemoryAccess (a % 2 ^ 32) s false =
        .ok (.NO_EXCEPTION, pa, k₁) ∧
      translate cfg pf k₁ (a % 2 ^ 32) s false = .ok (e₂, pa, k') ∧ b = true ∧
      r = some (decode cfg.host_endianess (readBytes k'.mainMemory (pa.getD 0) s)) := by
  obtain ⟨⟨e₁, pa₁, k₁⟩, h₁, h⟩ := bind_eq_ok h
  obtain ⟨⟨e₂, pa₂, k₂⟩, h₂, h⟩ := bind_eq_ok h
  by_cases he : e₁ = .NO_EXCEPTION
  · subst he
    simp only [bind, Except.bind, pure, Except.pure, throw, throwThe, MonadExceptOf.throw,
      true_and, ne_eq, not_true_eq_false, if_false] at h
    split_ifs at h with hpa
    cases h; subst hpa; exact ⟨pa₁, k₁, e₂, h₁, h₂, rfl, rfl⟩
  · obtain ⟨msg, hm⟩ : ∃ msg, raiseException cfg pf k₂ e₁ a = .error (.halt msg) :=
      raiseException_halts a he (translate_ne_pageFault h₁)
    simp only [bind, Except.bind, pure, Except.pure, he, hm, false_and, if_false, ne_eq,
      not_false_eq_true, if_true] at h
    cases h

theorem writeMem_ok {v : Nat} {b : Bool} (h : writeMem cfg pf k a s v = .ok (b, k')) :
    ∃ pa k₁ e₂ k₂, translate cfg pf k.incrMemoryAccess (a % 2 ^ 32) s true =
        .ok (.NO_EXCEPTION, pa, k₁) ∧
      translate cfg pf k₁ (a % 2 ^ 32) s true = .ok (e₂, pa, k₂) ∧ b = true ∧
      k' = { k₂ with
        mainMemory := writeBytes k₂.mainMemory (pa.getD 0) (encode cfg.host_endianess s v) } := by
  obtain ⟨⟨e₁, pa₁, k₁⟩, h₁, h⟩ := bind_eq_ok h
  obtain ⟨⟨e₂, pa₂, k₂⟩, h₂, h⟩ := bind_eq_ok h
  by_cases he : e₁ = .NO_EXCEPTION
  · subst he
    simp only [bind, Except.bind, pure, Except.pure, throw, throwThe, MonadExceptOf.throw,
      true_and, ne_eq, not_true_eq_false, if_false] at h
    split_ifs at h with hpa
    cases h; subst hpa; exact ⟨pa₁, k₁, e₂, k₂, h₁, h₂, rfl, rfl⟩
  · obtain ⟨msg, hm⟩ : ∃ msg, raiseException cfg pf k₂ e₁ a = .error (.halt msg) :=
      raiseException_halts a he (translate_ne_pageFault h₁)
    simp only [bind, Except.bind, pure, Except.pure, he, hm, false_and, if_false, ne_eq,
      not_false_eq_true, if_true] at h
    cases h

theorem translateCheck_none {t : TranslationTable} {w : Bool}
    (h : translateCheck cfg t a s w = none) :
    a / cfg.PageSize < t.maxNumPages ∧ ((t.pageTable (a / cfg.PageSize)).readAllowed ∨
      (t.pageTable (a / cfg.PageSize)).writeAllowed) ∧
      (w → (t.pageTable (a / cfg.PageSize)).writeAllowed) := by
  rw [translateCheck_eq_specCheck] at h
  simp only [specCheck] at h
  split_ifs at h with h₁ h₂ h₃
  refine ⟨by omega, ?_, by simpa using h₃⟩
  cases hr : (t.pageTable (a / cfg.PageSize)).readAllowed <;> simp_all

theorem translate_no_fault {t : TranslationTable} {w : Bool} {pa : Option Nat}
    (ht : k.addrspaces k.current = some t)
    (hN : ∀ v, (t.pageTable v).valid → ∃ p : Nat, (t.pageTable v).physicalPage = p ∧
      p < cfg.NumPhysPages)
    (hnf : translateCheck cfg t a s w = none → (t.pageTable (a / cfg.PageSize)).valid)
    (h : translate cfg pf k a s w = .ok (.NO_EXCEPTION, pa, k')) :
    translateCheck cfg t a s w = none ∧ ∃ p, MapsTo cfg t (a / cfg.PageSize) p := by
  cases hc : translateCheck cfg t a s w with
  | some e =>
    rw [translate_of_check ht hc] at h
    cases h
    exact absurd rfl (translateCheck_ne hc).1
  | none =>
    obtain ⟨p, hp, hpN⟩ := hN _ (hnf hc)
    exact ⟨rfl, p, hnf hc, hp, hpN⟩

theorem readMem_of_translate {pa : Nat} {k₁ k₂ : Kernel} {e₂ : ExceptionType}
    (h₁ : translate cfg pf k.incrMemoryAccess (a % 2 ^ 32) s false =
      .ok (.NO_EXCEPTION, some pa, k₁))
    (h₂ : translate cfg pf k₁ (a % 2 ^ 32) s false = .ok (e₂, some pa, k₂))
    (hs : s = 1 ∨ s = 2 ∨ s = 4 ∨ s = 8) :
    readMem cfg pf k a s =
      .ok (true, some (decode cfg.host_endianess (readBytes k₂.mainMemory pa s)), k₂) := by
  simp only [readMem, h₁, h₂, bind, Except.bind, pure, Except.pure, ne_eq, not_true_eq_false,
    and_false, if_false, hs, if_true]
  rfl

theorem writeMem_of_translate {v pa : Nat} {k₁ k₂ : Kernel} {e₂ : ExceptionType}
    (h₁ : translate cfg pf k.incrMemoryAccess (a % 2 ^ 32) s true =
      .ok (.NO_EXCEPTION, some pa, k₁))
    (h₂ : translate cfg pf k₁ (a % 2 ^ 32) s true = .ok (e₂, some pa, k₂))
    (hs : s = 1 ∨ s = 2 ∨ s = 4 ∨ s = 8) :
    writeMem cfg pf k a s v = .ok (true, { k₂ with
      mainMemory := writeBytes k₂.mainMemory pa (encode cfg.host_endianess s v) }) := by
  simp only [writeMem, h₁, h₂, bind, Except.bind, pure, Except.pure, ne_eq, not_true_eq_false,
    and_false, if_false, hs, if_true]
  rfl

end

/-! ### Virtual bytes across a translation -/

section
variable {cfg}

theorem physAddrOf_setUM {k : Kernel} {A vpn : Nat} {t : TranslationTable} (w : Bool)
    (ht : k.addrspaces A = some t) : physAddrOf cfg (k.setTable A (setUM t vpn w)) = physAddrOf cfg k := by
  funext B b
  by_cases hB : B = A
  · subst hB
    by_cases hv : b / cfg.PageSize = vpn
    · simp [physAddrOf, ht, setUM_pageTable, hv]
    · simp [physAddrOf, ht, setUM_pageTable, hv]
  · simp [physAddrOf, hB]

variable (cfg) in
theorem translate_twice (pf : PageFaultService) {k : Kernel} {t : TranslationTable} {a s p : Nat}
    {w : Bool}
    (ht : k.addrspaces k.current = some t) (hc : translateCheck cfg t a s w = none)
    (hmap : MapsTo cfg t (a / cfg.PageSize) p) :
    ∃ k₁ k₂, translate cfg pf k a s w =
        .ok (.NO_EXCEPTION, some (p * cfg.PageSize + a % cfg.PageSize), k₁) ∧
      translate cfg pf k₁ a s w =
        .ok (.NO_EXCEPTION, some (p * cfg.PageSize + a % cfg.PageSize), k₂) ∧
      physAddrOf cfg k₂ = physAddrOf cfg k ∧ k₂.mainMemory = k.mainMemory := by
  refine ⟨_, _, translate_of_resident ht hc (makeResident_valid ht hmap.1) ht hmap,
    translate_again rfl hc hmap, ?_, rfl⟩
  calc physAddrOf cfg _
      = physAddrOf cfg (k.setTable k.current (setUM t (a / cfg.PageSize) w)).incrMemoryAccess :=
        physAddrOf_setUM w (by simp)
    _ = physAddrOf cfg k := physAddrOf_setUM w ht

@[simp] theorem physAddrOf_mainMemory (k : Kernel) (M : Nat → UInt8) :
    physAddrOf cfg { k with mainMemory := M } = physAddrOf cfg k := rfl

theorem physAddrOf_of_mapped {k : Kernel} {A b p : Nat} {t : TranslationTable}
    (ht : k.addrspaces A = some t) (hmax : b / cfg.PageSize < t.maxNumPages)
    (hrw : (t.pageTable (b / cfg.PageSize)).readAllowed ∨ (t.pageTable (b / cfg.PageSize)).writeAllowed)
    (hmap : MapsTo cfg t (b / cfg.PageSize) p) :
    physAddrOf cfg k A b = some (p * cfg.PageSize + b % cfg.PageSize) := by
  simp [physAddrOf, ht, hmax, hrw, hmap.1, hmap.2.1]

theorem physAddrOf_eq_some {k : Kernel} {A b q : Nat} (h : physAddrOf cfg k A b = some q) :
    ∃ t, k.addrspaces A = some t ∧ (t.pageTable (b / cfg.PageSize)).valid ∧
      q = (t.pageTable (b / cfg.PageSize)).physicalPage.toNat * cfg.PageSize + b % cfg.PageSize := by
  cases ht : k.addrspaces A with
  | none => simp [physAddrOf, ht] at h
  | some t =>
    simp only [physAddrOf, ht] at h
    split_ifs at h with hc
    cases h
    exact ⟨t, rfl, hc.2.2, rfl⟩

theorem frame_offset_inj {p q r o PS : Nat} (hr : r < PS) (ho : o < PS)
    (h : p * PS + r = q * PS + o) : p = q ∧ r = o := by
  have hPS : 0 < PS := by omega
  have hd : ∀ x y, y < PS → (x * PS + y) / PS = x := fun x y hy => by
    rw [Nat.mul_comm, Nat.mul_add_div hPS, Nat.div_eq_of_lt hy, Nat.add_zero]
  have hm : ∀ x y, y < PS → (x * PS + y) % PS = y := fun x y hy => by
    rw [Nat.mul_comm, Nat.mul_add_mod, Nat.mod_eq_of_lt hy]
  exact ⟨by rw [← hd p r hr, h, hd q o ho], by rw [← hm p r hr, h, hm q o ho]⟩

theorem page_add {a s i : Nat} (hpage : a % cfg.PageSize + s ≤ cfg.PageSize) (hi : i < s) :
    (a + i) / cfg.PageSize = a / cfg.PageSize ∧ (a + i) % cfg.PageSize = a % cfg.PageSize + i := by
  have := Nat.div_add_mod a cfg.PageSize
  have := Nat.div_add_mod (a + i) cfg.PageSize
  exact frame_offset_inj (Nat.mod_lt _ cfg.pageSize_pos) (by omega)
    (by rw [Nat.mul_comm, Nat.mul_comm (a / cfg.PageSize)]; omega)

theorem physAddrOf_add {k : Kernel} {A a s i p : Nat} {t : TranslationTable}
    (ht : k.addrspaces A = some t) (hmax : a / cfg.PageSize < t.maxNumPages)
    (hrw : (t.pageTable (a / cfg.PageSize)).readAllowed ∨ (t.pageTable (a / cfg.PageSize)).writeAllowed)
    (hmap : MapsTo cfg t (a / cfg.PageSize) p) (hpage : a % cfg.PageSize + s ≤ cfg.PageSize)
    (hi : i < s) :
    physAddrOf cfg k A (a + i) = some (p * cfg.PageSize + a % cfg.PageSize + i) := by
  have hsame := page_add hpage hi
  rw [← hsame.1] at hmax hrw hmap
  rw [physAddrOf_of_mapped ht hmax hrw hmap, hsame.2, Nat.add_assoc]

theorem physAddrOf_outside {k : Kernel} {A a s b p q : Nat} {t : TranslationTable}
    (hd : FramesDistinct cfg k) (ht : k.addrspaces k.current = some t)
    (hmap : MapsTo cfg t (a / cfg.PageSize) p) (hpage : a % cfg.PageSize + s ≤ cfg.PageSize)
    (hq : physAddrOf cfg k A b = some q) (hout : ¬ (A = k.current ∧ a ≤ b ∧ b < a + s)) :
    ¬ (p * cfg.PageSize + a % cfg.PageSize ≤ q ∧ q < p * cfg.PageSize + a % cfg.PageSize + s) := by
  rintro ⟨hlo, hhi⟩
  obtain ⟨t', ht', hv', rfl⟩ := physAddrOf_eq_some hq
  obtain ⟨p', hp', -⟩ := hd.frame_lt _ _ _ ht' hv'
  rw [hp', Int.toNat_ofNat] at hlo hhi
  -- the byte is in the written frame, at a written offset
  obtain ⟨rfl, hoff⟩ := frame_offset_inj (p := p') (r := b % cfg.PageSize) (q := p)
    (o := a % cfg.PageSize +
    (p' * cfg.PageSize + b % cfg.PageSize - (p * cfg.PageSize + a % cfg.PageSize)))
    (Nat.mod_lt _ cfg.pageSize_pos) (by omega) (by omega)
  obtain ⟨rfl, hpage'⟩ := hd.frame_inj _ _ _ _ _ _ ht' ht hv' hmap.1 (hp'.trans hmap.2.1.symm)
  have := Nat.div_add_mod a cfg.PageSize
  have := Nat.div_add_mod b cfg.PageSize
  rw [hpage'] at this
  exact hout ⟨rfl, by omega, by omega⟩

theorem access_resident {pf : PageFaultService} {k k₁ k₂ : Kernel} {a s : Nat} {w : Bool}
    {e₂ : ExceptionType} {pa : Option Nat} (hd : FramesDistinct cfg k) (hnf : NoFault cfg k a s w)
    (ha : a < 2 ^ 32)
    (h₁ : translate cfg pf k.incrMemoryAccess (a % 2 ^ 32) s w = .ok (.NO_EXCEPTION, pa, k₁))
    (h₂ : translate cfg pf k₁ (a % 2 ^ 32) s w = .ok (e₂, pa, k₂)) :
    ∃ t p, k.addrspaces k.current = some t ∧ translateCheck cfg t a s w = none ∧
      MapsTo cfg t (a / cfg.PageSize) p ∧ pa = some (p * cfg.PageSize + a % cfg.PageSize) ∧
      physAddrOf cfg k₂ = physAddrOf cfg k ∧ k₂.mainMemory = k.mainMemory := by
  have ha' : a % 2 ^ 32 = a := Nat.mod_eq_of_lt ha
  rw [ha'] at h₁ h₂
  cases ht : k.addrspaces k.current with
  | none => simp [translate, withTable, ht] at h₁
  | some t =>
    have hnf' := hnf t ht
    rw [ha'] at hnf'
    obtain ⟨hc, p, hmap⟩ := translate_no_fault (k := k.incrMemoryAccess) ht
      (fun v hv => hd.frame_lt _ _ v ht hv) hnf' h₁
    obtain ⟨k₁', k₂', e₁, e₂', hpm, hmem⟩ := translate_twice cfg pf
      (k := k.incrMemoryAccess) ht hc hmap
    rw [e₁] at h₁
    cases h₁
    rw [e₂'] at h₂
    cases h₂
    exact ⟨t, p, rfl, hc, hmap, rfl, hpm, hmem⟩

end

/-- The spec's law of `ReadMem` and `WriteMem` for an access of `s` bytes at `a` by the
current address space, of the value `v` for a write, that raises no page fault. A read that
returns `true` returns the virtual bytes `a .. a + s - 1`, which are all mapped, and changes
no byte; a write that returns `true` is on a writable page, sets these bytes to those of `v`
and no other virtual byte of any address space; a call that returns `false` changes no byte
of main memory. -/
structure MemAccessLaw (pf : PageFaultService) (k : Kernel) (a s v : Nat) : Prop where
  read_true : NoFault cfg k a s false → ∀ r k', readMem cfg pf k a s = .ok (true, r, k') →
    (∃ bs, (List.range s).map (fun i => virtualByte cfg k k.current (a + i)) = bs.map some ∧
      r = some (decode cfg.host_endianess bs)) ∧ virtualByte cfg k' = virtualByte cfg k ∧
    k'.mainMemory = k.mainMemory
  read_false : ∀ r k', readMem cfg pf k a s = .ok (false, r, k') → k'.mainMemory = k.mainMemory
  write_true : NoFault cfg k a s true → ∀ k', writeMem cfg pf k a s v = .ok (true, k') →
    (∀ i < s, ∃ t, k.addrspaces k.current = some t ∧
      (t.pageTable ((a + i) / cfg.PageSize)).writeAllowed) ∧
    (List.range s).map (fun i => virtualByte cfg k' k.current (a + i)) =
      (encode cfg.host_endianess s v).map some ∧
    ∀ A b, ¬ (A = k.current ∧ a ≤ b ∧ b < a + s) → virtualByte cfg k' A b = virtualByte cfg k A b
  write_false : ∀ k', writeMem cfg pf k a s v = .ok (false, k') → k'.mainMemory = k.mainMemory

variable {cfg} in
theorem memAccessLaw_of_distinct (pf : PageFaultService) {k : Kernel}
    (hd : FramesDistinct cfg k) {a s v : Nat} (ha : a < 2 ^ 32)
    (hpage : a % cfg.PageSize + s ≤ cfg.PageSize) : MemAccessLaw cfg pf k a s v := by
  refine ⟨fun hnf r k' h => ?_, fun r k' h => ?_, fun hnf k' h => ?_, fun k' h => ?_⟩
  · obtain ⟨pa, k₁, e₂, h₁, h₂, -, rfl⟩ := readMem_ok h
    obtain ⟨t, p, ht, hc, hmap, rfl, hpm, hmem⟩ := access_resident hd hnf ha h₁ h₂
    obtain ⟨hmax, hrw, -⟩ := translateCheck_none hc
    refine ⟨⟨readBytes k.mainMemory (p * cfg.PageSize + a % cfg.PageSize) s, ?_,
      by rw [hmem]; rfl⟩, ?_, hmem⟩
    · simp only [readBytes, List.map_map]
      refine List.map_congr_left fun i hi => ?_
      simp [virtualByte, physAddrOf_add ht hmax hrw hmap hpage (List.mem_range.1 hi)]
    · funext A b
      rw [virtualByte, virtualByte, hpm, hmem]
  · obtain ⟨-, -, -, -, -, hb, -⟩ := readMem_ok h
    cases hb
  · obtain ⟨pa, k₁, e₂, k₂, h₁, h₂, -, rfl⟩ := writeMem_ok h
    obtain ⟨t, p, ht, hc, hmap, rfl, hpm, hmem⟩ := access_resident hd hnf ha h₁ h₂
    obtain ⟨hmax, hrw, hw⟩ := translateCheck_none hc
    refine ⟨fun i hi => ⟨t, ht, by rw [(page_add hpage hi).1]; exact hw rfl⟩, ?_,
      fun A b hout => ?_⟩
    · -- the bytes written are the virtual bytes `a .. a + s - 1`
      refine List.ext_getElem (by simp) fun i h₁ _ => ?_
      have hi : i < s := by simpa using h₁
      simp only [List.getElem_map, List.getElem_range, virtualByte, physAddrOf_mainMemory, hpm,
        physAddrOf_add ht hmax hrw hmap hpage hi, Option.map_some', Option.getD_some, hmem]
      rw [writeBytes_of_lt _ _ _ (by simpa using hi)]
    · -- any other virtual byte lies outside them
      rw [virtualByte, virtualByte, physAddrOf_mainMemory, hpm]
      cases hq : physAddrOf cfg k A b with
      | none => rfl
      | some q =>
        simp only [Option.map_some', Option.getD_some, hmem]
        rw [writeBytes_of_not_mem _ _ _
          (by rw [encode_length]; exact physAddrOf_outside hd ht hmap hpage hq hout)]
  · obtain ⟨-, -, -, -, -, -, hb, -⟩ := writeMem_ok h
    cases hb

section
variable {cfg}

end

def onePage (p : Nat) : TranslationTable :=
  ⟨1, fun v => if v = 0 then ⟨p, true, true, true, false, false⟩
    else ⟨0, false, false, false, false, false⟩⟩

/-- Two address spaces of one page each, on frames 0 and 1 of the machine of four-byte pages;
the first one runs. -/
def twoSpaces : Kernel :=
  ((physicalMemManager toyConfig Kernel.boot).setTable 0 (onePage 0)).setTable 1 (onePage 1)

theorem twoSpaces_addrspaces {A : Nat} {t : TranslationTable}
    (h : twoSpaces.addrspaces A = some t) : A ≤ 1 ∧ t = onePage A := by
  by_cases h₁ : A = 1
  · subst h₁; exact ⟨le_rfl, (Option.some.inj h).symm⟩
  by_cases h₀ : A = 0
  · subst h₀; exact ⟨Nat.zero_le _, (Option.some.inj h).symm⟩
  · simp [twoSpaces, h₀, h₁, physicalMemManager, Kernel.boot] at h

theorem onePage_valid {p v : Nat} (h : ((onePage p).pageTable v).valid) :
    v = 0 ∧ ((onePage p).pageTable v).physicalPage = p := by
  by_cases hv : v = 0
  · subst hv; exact ⟨rfl, rfl⟩
  · simp [onePage, hv] at h

theorem framesDistinct_twoSpaces : FramesDistinct toyConfig twoSpaces := by
  refine ⟨fun A t v hA hv => ?_, fun A B t t' v w hA hB hv hw hp => ?_⟩
  · obtain ⟨hA1, rfl⟩ := twoSpaces_addrspaces hA
    exact ⟨A, (onePage_valid hv).2, by simp only [toyConfig]; omega⟩
  · obtain ⟨-, rfl⟩ := twoSpaces_addrspaces hA
    obtain ⟨-, rfl⟩ := twoSpaces_addrspaces hB
    obtain ⟨rfl, hpv⟩ := onePage_valid hv
    obtain ⟨rfl, hpw⟩ := onePage_valid hw
    exact ⟨by rw [hpv, hpw] at hp; exact_mod_cast hp, rfl⟩

theorem noFault_twoSpaces {a s : Nat} {w : Bool} (ha : a % 2 ^ 32 / toyConfig.PageSize = 0) :
    NoFault toyConfig twoSpaces a s w := fun t ht _ => by
  obtain rfl : onePage 0 = t := Option.some.inj ht
  rw [ha]
  rfl

theorem mem_access_law_fails :
    ¬ MemAccessLaw toyConfig (pageFault toyConfig) twoSpaces 0 8 (2 ^ 64 - 1) := by
  intro h
  obtain ⟨k₁, k₂, h₁, h₂, hpm, hmem⟩ := translate_twice toyConfig
    (pageFault toyConfig) (k := twoSpaces.incrMemoryAccess) (a := 0) (s := 8) (w := true)
    (t := onePage 0) (p := 0)
    rfl (by decide) ⟨rfl, rfl, by decide⟩
  have hout := (h.write_true (noFault_twoSpaces rfl) _ (writeMem_of_translate (a := 0)
    (v := 2 ^ 64 - 1) h₁ h₂ (by decide))).2.2 1 0 (by decide)
  rw [virtualByte, physAddrOf_mainMemory, hpm, hmem] at hout
  -- byte 0 of the second space was 0 and is now the fifth byte of the value
  have hchanged : (physAddrOf toyConfig twoSpaces 1 0).map (writeBytes twoSpaces.mainMemory 0
      (encode toyConfig.host_endianess 8 (2 ^ 64 - 1))) ≠ virtualByte toyConfig twoSpaces 1 0 := by
    decide
  exact hchanged hout

theorem mem_access_law_fails_high :
    ¬ MemAccessLaw toyConfig (pageFault toyConfig) twoSpaces (2 ^ 32 + 1) 1 0 := by
  intro h
  obtain ⟨k₁, k₂, h₁, h₂, -, -⟩ := translate_twice toyConfig
    (pageFault toyConfig) (k := twoSpaces.incrMemoryAccess) (a := (2 ^ 32 + 1) % 2 ^ 32) (s := 1)
    (w := false) (t := onePage 0) (p := 0) rfl (by decide) ⟨by decide, by decide, by decide⟩
  obtain ⟨⟨bs, hbs, -⟩, -⟩ := h.read_true (noFault_twoSpaces rfl) _ _
    (readMem_of_translate h₁ h₂ (by decide))
  have hnone : virtualByte toyConfig twoSpaces twoSpaces.current (2 ^ 32 + 1 + 0) = none := by
    decide
  cases bs with
  | nil => cases hbs
  | cons b bs =>
    rw [show List.range 1 = [0] from rfl, List.map_cons, List.map_nil, hnone] at hbs
    cases hbs

/-- `ReadMem` and `WriteMem` move `size` bytes from the physical address of the first one,
found from the low 32 bits of the address. Inside one page below `2 ^ 32` that is the spec's
law; an eight-byte write from the start of a four-byte page overwrites the next frame, and a
one-byte read at `2 ^ 32 + 1` reads byte 1. -/
theorem mem_access_crosses_page :
    (∀ (cfg : Config) (pf : PageFaultService) (k : Kernel) (a s v : Nat), FramesDistinct cfg k →
      a < 2 ^ 32 → a % cfg.PageSize + s ≤ cfg.PageSize → MemAccessLaw cfg pf k a s v) ∧
    FramesDistinct toyConfig twoSpaces ∧
    ¬ MemAccessLaw toyConfig (pageFault toyConfig) twoSpaces 0 8 (2 ^ 64 - 1) ∧
    ¬ MemAccessLaw toyConfig (pageFault toyConfig) twoSpaces (2 ^ 32 + 1) 1 0 :=
  ⟨fun _ pf _ _ _ _ hd ha hpage => memAccessLaw_of_distinct pf hd ha hpage,
    framesDistinct_twoSpaces, mem_access_law_fails, mem_access_law_fails_high⟩

end NachosVm
