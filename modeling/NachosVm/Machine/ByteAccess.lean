import Mathlib.Data.List.GetD
import NachosVm.Machine.VirtualMemory

/-! One-byte `ReadMem` and `WriteMem` on resident pages of the current address space: the
accesses the kernel makes, byte after byte, when it copies strings to and from user memory.
Such an access changes the tables only in their U/M bits, so the mapping, the frame
invariant and every byte it does not write survive it. -/
namespace NachosVm

/-- What the translation reads of a table, the U/M bits aside: the capacity, and for each
entry the frame, the valid bit and the rights. -/
def TranslationTable.mapping (t : TranslationTable) : Nat × (Nat → Int × Bool × Bool × Bool) :=
  (t.maxNumPages, fun v => ((t.pageTable v).physicalPage, (t.pageTable v).valid,
    (t.pageTable v).readAllowed, (t.pageTable v).writeAllowed))

@[simp] theorem mapping_setUM (t : TranslationTable) (vpn : Nat) (w : Bool) :
    (setUM t vpn w).mapping = t.mapping := by
  simp only [TranslationTable.mapping, setUM_maxNumPages, Prod.mk.injEq, true_and]
  funext v
  by_cases hv : v = vpn <;> simp [setUM_pageTable, hv]

theorem mapping_eq {t t' : TranslationTable} (h : t'.mapping = t.mapping) (v : Nat) :
    t'.maxNumPages = t.maxNumPages ∧
      (t'.pageTable v).physicalPage = (t.pageTable v).physicalPage ∧
      (t'.pageTable v).valid = (t.pageTable v).valid ∧
      (t'.pageTable v).readAllowed = (t.pageTable v).readAllowed ∧
      (t'.pageTable v).writeAllowed = (t.pageTable v).writeAllowed := by
  simp only [TranslationTable.mapping, Prod.mk.injEq] at h
  have hv := congrFun h.2 v
  simp only [Prod.mk.injEq] at hv
  exact ⟨h.1, hv⟩

/-- `k'` has the current process and the address spaces of `k`, up to U/M bits. -/
structure SameTables (k k' : Kernel) : Prop where
  current : k'.current = k.current
  tables : ∀ A, (k'.addrspaces A).map TranslationTable.mapping =
    (k.addrspaces A).map TranslationTable.mapping

theorem SameTables.refl (k : Kernel) : SameTables k k := ⟨rfl, fun _ => rfl⟩

theorem SameTables.trans {k k' k'' : Kernel} (h : SameTables k k') (h' : SameTables k' k'') :
    SameTables k k'' :=
  ⟨h'.current.trans h.current, fun A => (h'.tables A).trans (h.tables A)⟩

theorem SameTables.table {k k' : Kernel} (h : SameTables k k') {A : Nat} {t' : TranslationTable}
    (ht' : k'.addrspaces A = some t') : ∃ t, k.addrspaces A = some t ∧ t'.mapping = t.mapping := by
  have hA := h.tables A
  rw [ht'] at hA
  cases ht : k.addrspaces A with
  | none => rw [ht] at hA; cases hA
  | some t => rw [ht] at hA; exact ⟨t, rfl, Option.some.inj hA⟩

theorem SameTables.table' {k k' : Kernel} (h : SameTables k k') {A : Nat} {t : TranslationTable}
    (ht : k.addrspaces A = some t) : ∃ t', k'.addrspaces A = some t' ∧ t'.mapping = t.mapping := by
  have hA := h.tables A
  rw [ht] at hA
  cases ht' : k'.addrspaces A with
  | none => rw [ht'] at hA; cases hA
  | some t' => rw [ht'] at hA; exact ⟨t', rfl, Option.some.inj hA⟩

theorem sameTables_incrMemoryAccess (k : Kernel) : SameTables k k.incrMemoryAccess :=
  ⟨rfl, fun _ => rfl⟩

theorem sameTables_setUM {k : Kernel} {A vpn : Nat} {t : TranslationTable} (w : Bool)
    (ht : k.addrspaces A = some t) : SameTables k (k.setTable A (setUM t vpn w)).incrMemoryAccess :=
  ⟨rfl, fun B => by by_cases hB : B = A <;> simp [Function.update_apply, hB, ht]⟩

section
variable {cfg : Config}

theorem SameTables.physAddrOf {k k' : Kernel} (h : SameTables k k') :
    physAddrOf cfg k' = physAddrOf cfg k := by
  funext A b
  cases ht' : k'.addrspaces A with
  | none =>
    cases ht : k.addrspaces A with
    | none => simp [NachosVm.physAddrOf, ht, ht']
    | some t => obtain ⟨t', h', -⟩ := h.table' ht; rw [ht'] at h'; cases h'
  | some t' =>
    obtain ⟨t, ht, hm⟩ := h.table ht'
    obtain ⟨hmax, hp, hv, hr, hw⟩ := mapping_eq hm (b / cfg.PageSize)
    simp only [NachosVm.physAddrOf, ht, ht', hmax, hp, hv, hr, hw]

theorem FramesDistinct.of_sameTables {k k' : Kernel} (hd : FramesDistinct cfg k)
    (h : SameTables k k') : FramesDistinct cfg k' := by
  refine ⟨fun A t' v ht' hv => ?_, fun A B t₁ t₂ v w h₁ h₂ hv hw hpp => ?_⟩
  · obtain ⟨t, ht, hm⟩ := h.table ht'
    obtain ⟨-, hp, hvv, -, -⟩ := mapping_eq hm v
    rw [hp]
    exact hd.frame_lt A t v ht (hvv ▸ hv)
  · obtain ⟨t₁', ht₁, hm₁⟩ := h.table h₁
    obtain ⟨t₂', ht₂, hm₂⟩ := h.table h₂
    obtain ⟨-, hp₁, hv₁, -, -⟩ := mapping_eq hm₁ v
    obtain ⟨-, hp₂, hv₂, -, -⟩ := mapping_eq hm₂ w
    exact hd.frame_inj A B _ _ v w ht₁ ht₂ (hv₁ ▸ hv) (hv₂ ▸ hw) (by rw [← hp₁, ← hp₂, hpp])

/-- Byte `b` of the current address space is on a page within its table, writable and
resident. -/
def Writable (cfg : Config) (k : Kernel) (b : Nat) : Prop :=
  ∃ t, k.addrspaces k.current = some t ∧ b / cfg.PageSize < t.maxNumPages ∧
    (t.pageTable (b / cfg.PageSize)).writeAllowed ∧ (t.pageTable (b / cfg.PageSize)).valid

theorem Writable.of_sameTables {k k' : Kernel} {b : Nat} (hw : Writable cfg k b)
    (h : SameTables k k') : Writable cfg k' b := by
  obtain ⟨t, ht, hmax, hwa, hv⟩ := hw
  obtain ⟨t', ht', hm⟩ := h.table' ht
  obtain ⟨hmax', -, hv', -, hw'⟩ := mapping_eq hm (b / cfg.PageSize)
  exact ⟨t', h.current ▸ ht', hmax' ▸ hmax, hw' ▸ hwa, hv' ▸ hv⟩

theorem physAddrOf_some {k : Kernel} {A b q : Nat} (h : physAddrOf cfg k A b = some q) :
    ∃ t, k.addrspaces A = some t ∧ b / cfg.PageSize < t.maxNumPages ∧
      ((t.pageTable (b / cfg.PageSize)).readAllowed ∨
        (t.pageTable (b / cfg.PageSize)).writeAllowed) ∧ (t.pageTable (b / cfg.PageSize)).valid ∧
      q = (t.pageTable (b / cfg.PageSize)).physicalPage.toNat * cfg.PageSize + b % cfg.PageSize := by
  cases ht : k.addrspaces A with
  | none => simp [NachosVm.physAddrOf, ht] at h
  | some t =>
    simp only [NachosVm.physAddrOf, ht] at h
    split_ifs at h with hc
    cases h
    exact ⟨t, rfl, hc.1, hc.2.1, hc.2.2, rfl⟩

theorem translateCheck_one {t : TranslationTable} {a : Nat} {w : Bool}
    (hmax : a / cfg.PageSize < t.maxNumPages)
    (hrw : (t.pageTable (a / cfg.PageSize)).readAllowed ∨
      (t.pageTable (a / cfg.PageSize)).writeAllowed)
    (hw : w → (t.pageTable (a / cfg.PageSize)).writeAllowed) :
    translateCheck cfg t a 1 w = none := by
  cases w <;> rcases hrw with h | h <;> simp_all [translateCheck]

theorem decode_readBytes_one (o : Endianess) (m : Nat → UInt8) (a : Nat) :
    decode o (readBytes m a 1) = (m a).toNat := by
  cases o <;> simp [decode, readBytes, List.range_succ]

theorem encode_one (o : Endianess) (x : Nat) : encode o 1 x = [UInt8.ofNat x] := by
  cases o <;> simp [encode, List.range_succ]

theorem translate_resident (pf : PageFaultService) {k : Kernel} (hd : FramesDistinct cfg k)
    {t : TranslationTable} {a s : Nat} {w : Bool} (ht : k.addrspaces k.current = some t)
    (hc : translateCheck cfg t a s w = none) (hv : (t.pageTable (a / cfg.PageSize)).valid) :
    ∃ p k₁ k₂, translate cfg pf k a s w =
        .ok (.NO_EXCEPTION, some (p * cfg.PageSize + a % cfg.PageSize), k₁) ∧
      translate cfg pf k₁ a s w =
        .ok (.NO_EXCEPTION, some (p * cfg.PageSize + a % cfg.PageSize), k₂) ∧
      (t.pageTable (a / cfg.PageSize)).physicalPage = p ∧ SameTables k k₂ ∧
      k₂.mainMemory = k.mainMemory := by
  obtain ⟨p, hp, hpN⟩ := hd.frame_lt _ _ _ ht hv
  have hmap : MapsTo cfg t (a / cfg.PageSize) p := ⟨hv, hp, hpN⟩
  refine ⟨p, _, _, translate_of_resident ht hc (makeResident_valid ht hv) ht hmap,
    translate_again rfl hc hmap, hp, (sameTables_setUM w ht).trans (sameTables_setUM w ?_), rfl⟩
  simp

theorem readMem_byte (pf : PageFaultService) {k : Kernel} (hd : FramesDistinct cfg k) {b : Nat}
    {v : UInt8} (hv : virtualByte cfg k k.current (b % 2 ^ 32) = some v) :
    ∃ k', readMem cfg pf k b 1 = .ok (true, some v.toNat, k') ∧ SameTables k k' ∧
      k'.mainMemory = k.mainMemory := by
  obtain ⟨q, hq, rfl⟩ := Option.map_eq_some'.1 hv
  obtain ⟨t, ht, hmax, hrw, hval, rfl⟩ := physAddrOf_some hq
  obtain ⟨p, k₁, k₂, h₁, h₂, hp, hsame, hmem⟩ :=
    translate_resident pf (hd.of_sameTables (sameTables_incrMemoryAccess k)) (w := false) ht
      (translateCheck_one hmax hrw nofun) hval
  refine ⟨k₂, ?_, (sameTables_incrMemoryAccess k).trans hsame, hmem⟩
  rw [readMem_of_translate h₁ h₂ (.inl rfl), decode_readBytes_one, hmem, hp, Int.toNat_natCast]
  rfl

/-- `k'` is `k` with the bytes `bs` stored from virtual address `addr` of the current
address space: the tables are kept, up to U/M bits, and no other virtual byte of any address
space changes. -/
structure VirtStores (cfg : Config) (k k' : Kernel) (addr : Nat) (bs : List UInt8) : Prop where
  tables : SameTables k k'
  bytes : ∀ A c, virtualByte cfg k' A c =
    if A = k.current ∧ addr ≤ c ∧ c < addr + bs.length then some (bs.getD (c - addr) 0)
    else virtualByte cfg k A c

theorem virtualByte_of_sameTables {k k' : Kernel} (h : SameTables k k')
    (hm : k'.mainMemory = k.mainMemory) : virtualByte cfg k' = virtualByte cfg k := by
  funext A c
  simp only [virtualByte, h.physAddrOf, hm]

theorem VirtStores.nil {k k' : Kernel} (h : SameTables k k') (hm : k'.mainMemory = k.mainMemory)
    (addr : Nat) : VirtStores cfg k k' addr [] :=
  ⟨h, fun A c => by
    rw [virtualByte_of_sameTables h hm, if_neg fun h' => by simp only [List.length_nil] at h'; omega]⟩

theorem VirtStores.append {k k₁ k₂ : Kernel} {addr : Nat} {bs cs : List UInt8}
    (h₁ : VirtStores cfg k k₁ addr bs) (h₂ : VirtStores cfg k₁ k₂ (addr + bs.length) cs) :
    VirtStores cfg k k₂ addr (bs ++ cs) := by
  refine ⟨h₁.tables.trans h₂.tables, fun A c => ?_⟩
  rw [h₂.bytes, h₁.bytes, h₁.tables.current, List.length_append]
  split_ifs <;> first
    | rfl
    | (exfalso; omega)
    | rw [List.getD_append _ _ _ _ (by omega)]
    | rw [List.getD_append_right _ _ _ _ (by omega), Nat.sub_sub]

theorem translateCheck_aligned {t : TranslationTable} {a s : Nat} {w : Bool}
    (hal : (s = 4 → a % 4 = 0) ∧ (s = 2 → a % 2 = 0))
    (hmax : a / cfg.PageSize < t.maxNumPages)
    (hrw : (t.pageTable (a / cfg.PageSize)).readAllowed ∨
      (t.pageTable (a / cfg.PageSize)).writeAllowed)
    (hw : w → (t.pageTable (a / cfg.PageSize)).writeAllowed) :
    translateCheck cfg t a s w = none := by
  have h₃ : a &&& 3 = a % 4 := Nat.and_pow_two_sub_one_eq_mod a 2
  have h₁ : a &&& 1 = a % 2 := Nat.and_pow_two_sub_one_eq_mod a 1
  have hb : ¬((s = 4 ∧ a &&& 0x3 ≠ 0) ∨ (s = 2 ∧ a &&& 0x1 ≠ 0)) := by
    rw [h₃, h₁]
    rintro (⟨rfl, h⟩ | ⟨rfl, h⟩)
    exacts [h (hal.1 rfl), h (hal.2 rfl)]
  have hone := translateCheck_one (w := w) hmax hrw hw
  unfold translateCheck at hone ⊢
  rw [if_neg hb]
  rwa [if_neg (by simp)] at hone

theorem writeMem_word (pf : PageFaultService) {k : Kernel} (hd : FramesDistinct cfg k) {a s : Nat}
    (hs : s = 1 ∨ s = 2 ∨ s = 4 ∨ s = 8) (ha : a < 2 ^ 32)
    (hpage : a % cfg.PageSize + s ≤ cfg.PageSize)
    (hal : (s = 4 → a % 4 = 0) ∧ (s = 2 → a % 2 = 0)) (hw : Writable cfg k a) (x : Nat) :
    ∃ k', writeMem cfg pf k a s x = .ok (true, k') ∧
      VirtStores cfg k k' a (encode cfg.host_endianess s x) := by
  obtain ⟨t, ht, hmax, hwa, hval⟩ := hw
  have ha' : a % 2 ^ 32 = a := Nat.mod_eq_of_lt ha
  obtain ⟨p, k₁, k₂, h₁, h₂, -, hsame, -⟩ :=
    translate_resident pf (hd.of_sameTables (sameTables_incrMemoryAccess k)) (a := a) (s := s) ht
      (translateCheck_aligned hal hmax (.inr hwa) fun _ => hwa) hval
  rw [← ha'] at h₁ h₂
  have hwm := writeMem_of_translate (v := x) h₁ h₂ hs
  refine ⟨_, hwm, (sameTables_incrMemoryAccess k).trans (hsame.trans ⟨rfl, fun _ => rfl⟩),
    fun A c => ?_⟩
  have hnf : NoFault cfg k a s true := fun t' ht' _ => by
    rw [ht] at ht'
    cases ht'
    rwa [ha']
  obtain ⟨-, hset, hout⟩ := (memAccessLaw_of_distinct pf hd (v := x) ha hpage).write_true hnf _ hwm
  rw [encode_length]
  by_cases hA : A = k.current ∧ a ≤ c ∧ c < a + s
  · obtain ⟨rfl, h₁, h₂⟩ := hA
    rw [if_pos ⟨rfl, h₁, h₂⟩]
    have hi := congrArg (·[c - a]?) hset
    simp only [List.getElem?_map, List.getElem?_range (show c - a < s by omega),
      Option.map_some', Nat.add_sub_cancel' h₁] at hi
    rw [List.getD_eq_getElem?_getD]
    cases he : (encode cfg.host_endianess s x)[c - a]? with
    | none => simp [he] at hi
    | some b => simpa [he] using hi
  · rw [hout A c hA, if_neg hA]

theorem writeMem_misaligned (pf : PageFaultService) {k : Kernel} {t : TranslationTable}
    (ht : k.addrspaces k.current = some t) {a : Nat} (hal : a % 4 ≠ 0) (x : Nat) :
    writeMem cfg pf k a 4 x =
      .error (.halt "\t*** Bus error on access to virtual address 0x%x ***\n") := by
  have hc : translateCheck cfg t (a % 2 ^ 32) 4 true = some .BUSERROR_EXCEPTION := by
    have h₃ : a % 2 ^ 32 &&& 3 = a % 4 :=
      (Nat.and_pow_two_sub_one_eq_mod _ 2).trans (Nat.mod_mod_of_dvd a (by decide))
    simp only [translateCheck, h₃]
    rw [if_pos (.inl ⟨trivial, hal⟩)]
  have htr : translate cfg pf k.incrMemoryAccess (a % 2 ^ 32) 4 true =
      .ok (.BUSERROR_EXCEPTION, none, k.incrMemoryAccess) := by
    simp only [translate, withTable, Kernel.incrMemoryAccess_addrspaces,
      Kernel.incrMemoryAccess_current, ht, hc]
  simp only [writeMem, htr, bind, Except.bind]
  rfl

theorem readMem_word (pf : PageFaultService) {k : Kernel} (hd : FramesDistinct cfg k) {a s : Nat}
    (hs : s = 1 ∨ s = 2 ∨ s = 4 ∨ s = 8) (ha : a < 2 ^ 32)
    (hpage : a % cfg.PageSize + s ≤ cfg.PageSize)
    (hal : (s = 4 → a % 4 = 0) ∧ (s = 2 → a % 2 = 0)) {t : TranslationTable}
    (ht : k.addrspaces k.current = some t) (hmax : a / cfg.PageSize < t.maxNumPages)
    (hrw : (t.pageTable (a / cfg.PageSize)).readAllowed ∨
      (t.pageTable (a / cfg.PageSize)).writeAllowed)
    (hval : (t.pageTable (a / cfg.PageSize)).valid) :
    ∃ bs k', (List.range s).map (fun i => virtualByte cfg k k.current (a + i)) = bs.map some ∧
      readMem cfg pf k a s = .ok (true, some (decode cfg.host_endianess bs), k') := by
  have ha' : a % 2 ^ 32 = a := Nat.mod_eq_of_lt ha
  obtain ⟨p, k₁, k₂, h₁, h₂, -⟩ :=
    translate_resident pf (hd.of_sameTables (sameTables_incrMemoryAccess k)) (a := a) (s := s) ht
      (translateCheck_aligned (w := false) hal hmax hrw nofun) hval
  rw [← ha'] at h₁ h₂
  have hrm := readMem_of_translate h₁ h₂ hs
  have hnf : NoFault cfg k a s false := fun t' ht' _ => by
    rw [ht] at ht'
    cases ht'
    rwa [ha']
  obtain ⟨⟨bs, hbs, hr⟩, -⟩ := (memAccessLaw_of_distinct pf hd (v := 0) ha hpage).read_true hnf _ _ hrm
  exact ⟨bs, k₂, hbs, hr ▸ hrm⟩

theorem VirtStores.reads {k k' : Kernel} {addr : Nat} {bs : List UInt8}
    (h : VirtStores cfg k k' addr bs) :
    (List.range bs.length).map (fun i => virtualByte cfg k' k'.current (addr + i)) = bs.map some := by
  refine List.ext_getElem (by simp) fun i h₁ _ => ?_
  rw [List.length_map, List.length_range] at h₁
  simp only [List.getElem_map, List.getElem_range, h.bytes, h.tables.current]
  rw [if_pos ⟨trivial, Nat.le_add_right _ _, Nat.add_lt_add_left h₁ _⟩, Nat.add_sub_cancel_left,
    List.getD_eq_getElem _ _ h₁]

theorem write_read_round_trip (pf : PageFaultService) {k : Kernel} (hd : FramesDistinct cfg k)
    {a s : Nat} (hs : s = 1 ∨ s = 2 ∨ s = 4 ∨ s = 8) (ha : a < 2 ^ 32)
    (hpage : a % cfg.PageSize + s ≤ cfg.PageSize)
    (hal : (s = 4 → a % 4 = 0) ∧ (s = 2 → a % 2 = 0)) (hw : Writable cfg k a) (v : Nat) :
    ∃ k' k'', writeMem cfg pf k a s v = .ok (true, k') ∧
      readMem cfg pf k' a s = .ok (true, some (v % 2 ^ (8 * s)), k'') := by
  obtain ⟨k', hwm, hv⟩ := writeMem_word pf hd hs ha hpage hal hw v
  obtain ⟨t, ht, hmax, hwa, hval⟩ := hw.of_sameTables hv.tables
  obtain ⟨bs, k'', hbs, hrm⟩ :=
    readMem_word pf (hd.of_sameTables hv.tables) hs ha hpage hal ht hmax (.inr hwa) hval
  -- the bytes the read meets are those the write stored
  have hread := hv.reads
  rw [encode_length] at hread
  have hbytes : bs = encode cfg.host_endianess s v :=
    List.map_injective_iff.2 (Option.some_injective _) (hbs.symm.trans hread)
  exact ⟨k', k'', hwm, by rw [hrm, hbytes, decode_encode]⟩

theorem write_read_round_trip_toy :
    FramesDistinct toyConfig twoSpaces ∧ Writable toyConfig twoSpaces 0 ∧
      ∃ k' k'', writeMem toyConfig (pageFault toyConfig) twoSpaces 0 4 0x01020304 = .ok (true, k') ∧
        readMem toyConfig (pageFault toyConfig) k' 0 4 = .ok (true, some 0x01020304, k'') :=
  have hw : Writable toyConfig twoSpaces 0 := ⟨onePage 0, rfl, by decide, rfl, rfl⟩
  ⟨framesDistinct_twoSpaces, hw, write_read_round_trip (pageFault toyConfig)
    framesDistinct_twoSpaces (.inr (.inr (.inl rfl))) (by decide) (by decide) ⟨fun _ => rfl, nofun⟩
    hw 0x01020304⟩

theorem writeMem_byte (pf : PageFaultService) {k : Kernel} (hd : FramesDistinct cfg k) {b : Nat}
    (hb : b < 2 ^ 32) (hw : Writable cfg k b) (x : Nat) :
    ∃ k', writeMem cfg pf k b 1 x = .ok (true, k') ∧ VirtStores cfg k k' b [UInt8.ofNat x] := by
  simpa only [encode_one] using writeMem_word pf hd (.inl rfl) hb
    (Nat.mod_lt b cfg.pageSize_pos) ⟨nofun, nofun⟩ hw x

/-- The NUL-terminated string `s` is at virtual address `addr` of the current address space:
its bytes, none of them `'\0'`, then a `'\0'`, at the 32-bit addresses `Translate` reads. -/
structure StringAt (cfg : Config) (k : Kernel) (addr : Nat) (s : List UInt8) : Prop where
  ne_zero : ∀ b ∈ s, b ≠ 0
  bytes : ∀ j ≤ s.length, virtualByte cfg k k.current ((addr + j) % 2 ^ 32) = (s ++ [0])[j]?

theorem StringAt.head_nil {k : Kernel} {addr : Nat} (h : StringAt cfg k addr []) :
    virtualByte cfg k k.current (addr % 2 ^ 32) = some 0 :=
  h.bytes 0 le_rfl

theorem StringAt.head_cons {k : Kernel} {addr : Nat} {b : UInt8} {s : List UInt8}
    (h : StringAt cfg k addr (b :: s)) :
    virtualByte cfg k k.current (addr % 2 ^ 32) = some b ∧ b ≠ 0 :=
  ⟨by simpa using h.bytes 0 (Nat.zero_le _), h.ne_zero b (List.mem_cons_self b s)⟩

theorem StringAt.tail {k : Kernel} {addr : Nat} {b : UInt8} {s : List UInt8}
    (h : StringAt cfg k addr (b :: s)) : StringAt cfg k (addr + 1) s :=
  ⟨fun c hc => h.ne_zero c (List.mem_cons_of_mem b hc), fun j hj => by
    simpa [Nat.add_assoc, Nat.add_comm 1 j] using h.bytes (j + 1) (by simp; omega)⟩

theorem StringAt.congr {k : Kernel} {addr addr' : Nat} {s : List UInt8}
    (h : StringAt cfg k addr s) (ha : addr' % 2 ^ 32 = addr % 2 ^ 32) : StringAt cfg k addr' s :=
  ⟨h.ne_zero, fun j hj => by rw [← h.bytes j hj]; congr 1; omega⟩

theorem StringAt.mod64 {k : Kernel} {addr : Nat} {s : List UInt8} (h : StringAt cfg k addr s) :
    StringAt cfg k (addr % 2 ^ 64) s :=
  h.congr (Nat.mod_mod_of_dvd addr (Nat.pow_dvd_pow 2 (by decide)))

theorem StringAt.of_reads {k k' : Kernel} {addr : Nat} {s : List UInt8} (h : StringAt cfg k addr s)
    (ht : SameTables k k') (hm : k'.mainMemory = k.mainMemory) : StringAt cfg k' addr s :=
  ⟨h.ne_zero, fun j hj => by rw [virtualByte_of_sameTables ht hm, ht.current]; exact h.bytes j hj⟩

end

end NachosVm
