import NachosVm.Kernel.Exception

/-! The `SC_READ`, `SC_WRITE` and `SC_SYS_TIME` cases of the system-call handler
(`exception.cc`). `SC_READ` and `SC_WRITE` run a copy loop between user memory and the kernel
array `char buffer[size]`, through one-byte `ReadMem` and `WriteMem`, and take the buffer from
or give it to a file or the console. Unlike the loops of the serial-line cases, both loops are
bounded by the count they copy, so they run no fuel: `SC_WRITE` reads exactly `size` bytes,
and `SC_READ` stores exactly the `numread` bytes it was given, with no terminator after them.
`SC_SYS_TIME` stores the time as two 4-byte words, which `Translate` wants 4-aligned. -/
namespace NachosVm

def toInt64 (x : Nat) : Int :=
  if x % 2 ^ 64 < 2 ^ 63 then (x % 2 ^ 64 : Nat) else (x % 2 ^ 64 : Nat) - 2 ^ 64

def CONSOLE_INPUT : Int := 0
def CONSOLE_OUTPUT : Nat := 1

/-- Modelled from the use the handler makes of it: `filesys/openfile.h` is not under src/. An
open file is its `Read(buffer, size)`, which fills the buffer and gives the number of bytes
read, and its `Write(buffer, size)`, which gives the number of bytes written. -/
structure OpenFile where
  read : (Int → UInt8) → Int → (Int → UInt8) × Int
  write : (Int → UInt8) → Int → Int

/-- `g_object_addrs->SearchObject(fid)` followed by the test `file->type == FILE_TYPE`: the open
file of id `fid`, or `none`. The object table is not under src/. -/
abbrev FileTable := Int → Option OpenFile

/-- Modelled from the use the handler makes of it: `drivers/drvConsole.h` is not under src/.
`GetString(buffer, size)` fills the buffer from the console. -/
structure ConsoleDriver where
  getString : (Int → UInt8) → Int → (Int → UInt8)

inductive FileCallError where
  | NO_ERROR
  | INVALID_FILE_ID (msg : Int)
  deriving DecidableEq, Repr

section
variable (cfg : Config) (pf : PageFaultService)

def writeCopyLoop : Nat → Kernel → Nat → (Int → UInt8) → Nat → Int →
    Except Stop (Kernel × (Int → UInt8))
  | 0, k, _, buffer, _, _ => .ok (k, buffer)
  | n + 1, k, addr, buffer, c, i => do
    let (_, r, k) ← readMem cfg pf k addr 1
    let c := r.getD c
    writeCopyLoop n k ((addr + 1) % 2 ^ 64) (Function.update buffer i (UInt8.ofNat c)) c (i + 1)

def writeOut (files : FileTable) (f : Nat) (buffer : Int → UInt8) (size : Int) :
    Int × FileCallError :=
  if f > CONSOLE_OUTPUT then
    match files (toInt64 f) with
    | some file => (file.write buffer size, .NO_ERROR)
    | none => (ERROR, .INVALID_FILE_ID (toInt64 f))
  else if f = CONSOLE_OUTPUT then (size, .NO_ERROR)
  else (ERROR, .INVALID_FILE_ID (toInt64 f))

/-- The `SC_WRITE` case, from `PARAM_1 = addr`, `PARAM_2 = size`, `PARAM_3 = f`, the
uninitialised `buffer[size]` and `c`: the kernel, the buffer handed on, the value written to
`REG_RET_SYSCALL` and the error recorded. The `int size` is the low 32 bits of the register,
and `for (int i = 0; i < size; i++)` runs `max size 0` rounds. -/
def scWrite (files : FileTable) (k : Kernel) (addr size f : Nat) (buffer : Int → UInt8)
    (c : Nat) : Except Stop (Kernel × (Int → UInt8) × Int × FileCallError) := do
  let size := toInt32 size
  let (k, buffer) ← writeCopyLoop cfg pf size.toNat k addr buffer c 0
  let (numwrite, err) := writeOut files f buffer size
  return (k, buffer, numwrite, err)

def readIn (files : FileTable) (console : ConsoleDriver) (f : Int) (buffer : Int → UInt8)
    (size : Int) : (Int → UInt8) × Int × FileCallError :=
  if f ≠ CONSOLE_INPUT then
    match files f with
    | some file => ((file.read buffer size).1, (file.read buffer size).2, .NO_ERROR)
    | none => (buffer, ERROR, .INVALID_FILE_ID f)
  else (console.getString buffer size, size, .NO_ERROR)

def readCopyLoop : Nat → Kernel → Nat → (Int → UInt8) → Int → Except Stop Kernel
  | 0, k, _, _, _ => .ok k
  | n + 1, k, addr, buffer, i => do
    let (_, k) ← writeMem cfg pf k addr 1 (buffer i).toNat
    readCopyLoop n k ((addr + 1) % 2 ^ 64) buffer (i + 1)

/-- The `SC_READ` case, from `PARAM_1 = addr`, `PARAM_2 = size`, `PARAM_3 = f` and the
uninitialised `buffer[size]`: the kernel, the value written to `REG_RET_SYSCALL` and the error
recorded. `for (int i = 0; i < numread; i++)` runs `max numread 0` rounds. -/
def scRead (files : FileTable) (console : ConsoleDriver) (k : Kernel) (addr size f : Nat)
    (buffer : Int → UInt8) : Except Stop (Kernel × Int × FileCallError) := do
  let (buffer, numread, err) := readIn files console (toInt64 f) buffer (toInt32 size)
  let k ← readCopyLoop cfg pf numread.toNat k addr buffer 0
  return (k, numread, err)

/-- The `SC_SYS_TIME` case, from `PARAM_1 = addr` and the values `sec` and `nano` of
`cycle_to_sec` and `cycle_to_nano` for the tick count (`utility/stats.h` is not under src/):
each is cast to `uint32_t` and stored by a 4-byte `WriteMem`, the seconds at `addr` and the
nanoseconds at `addr + 4`. The kernel and the error recorded. -/
def scSysTime (k : Kernel) (addr sec nano : Nat) : Except Stop (Kernel × SyscallError) := do
  let seconds := sec % 2 ^ 32
  let nanos := nano % 2 ^ 32
  let (_, k) ← writeMem cfg pf k addr 4 seconds
  let (_, k) ← writeMem cfg pf k ((addr + 4) % 2 ^ 64) 4 nanos
  return (k, .NO_ERROR)

end

/-! ### The copy loops -/

section
variable {cfg : Config} {pf : PageFaultService}

def BytesAt (cfg : Config) (k : Kernel) (addr : Nat) (bs : List UInt8) : Prop :=
  ∀ j < bs.length, virtualByte cfg k k.current ((addr + j) % 2 ^ 32) = bs[j]?

theorem BytesAt.head {k : Kernel} {addr : Nat} {b : UInt8} {bs : List UInt8}
    (h : BytesAt cfg k addr (b :: bs)) : virtualByte cfg k k.current (addr % 2 ^ 32) = some b := by
  simpa using h 0 (Nat.succ_pos _)

theorem BytesAt.tail {k k' : Kernel} {addr : Nat} {b : UInt8} {bs : List UInt8}
    (h : BytesAt cfg k addr (b :: bs)) (ht : SameTables k k') (hm : k'.mainMemory = k.mainMemory) :
    BytesAt cfg k' ((addr + 1) % 2 ^ 64) bs := fun j hj => by
  rw [virtualByte_of_sameTables ht hm, ht.current]
  have hmod : ((addr + 1) % 2 ^ 64 + j) % 2 ^ 32 = (addr + (j + 1)) % 2 ^ 32 := by
    rw [Nat.add_mod, Nat.mod_mod_of_dvd _ (Nat.pow_dvd_pow 2 (by decide)), ← Nat.add_mod,
      Nat.add_assoc, Nat.add_comm 1 j]
  rw [hmod, h (j + 1) (Nat.succ_lt_succ hj), List.getElem?_cons_succ]

theorem writeCopyLoop_reads :
    ∀ {bs : List UInt8} {k : Kernel} {addr : Nat} (buffer : Int → UInt8) (c : Nat) (i : Int),
      FramesDistinct cfg k → BytesAt cfg k addr bs →
      ∃ k', writeCopyLoop cfg pf bs.length k addr buffer c i = .ok (k', storeBlock buffer i bs) ∧
        SameTables k k' ∧ k'.mainMemory = k.mainMemory
  | [], k, _, buffer, _, _, _, _ => ⟨k, by rw [storeBlock_nil]; rfl, SameTables.refl k, rfl⟩
  | b :: bs, k, addr, buffer, c, i, hd, hb => by
    obtain ⟨k₁, hr, ht, hm⟩ := readMem_byte pf hd hb.head
    obtain ⟨k', hl, ht', hm'⟩ := writeCopyLoop_reads (Function.update buffer i b) b.toNat (i + 1)
      (hd.of_sameTables ht) (hb.tail ht hm)
    refine ⟨k', ?_, ht.trans ht', hm'.trans hm⟩
    rw [List.length_cons, writeCopyLoop, hr]
    simp only [bind, Except.bind, Option.getD_some, ofNat_toNat_byte]
    rw [hl, storeBlock_cons]

theorem readCopyLoop_stores (buffer : Int → UInt8) :
    ∀ (n : Nat) {k : Kernel} {addr : Nat} (i : Int), FramesDistinct cfg k → addr + n ≤ 2 ^ 32 →
      (∀ j < n, Writable cfg k (addr + j)) →
      ∃ k', readCopyLoop cfg pf n k addr buffer i = .ok k' ∧
        VirtStores cfg k k' addr ((List.range n).map fun j : Nat => buffer (i + j))
  | 0, k, addr, _, _, _, _ => ⟨k, rfl, VirtStores.nil (SameTables.refl k) rfl addr⟩
  | n + 1, k, addr, i, hd, ha, hw => by
    obtain ⟨k₁, hw₁, hv₁⟩ := writeMem_byte pf hd (b := addr) (by omega) (hw 0 (Nat.succ_pos n))
      (buffer i).toNat
    obtain ⟨k', hl, hv'⟩ := @readCopyLoop_stores buffer n _ (addr + 1) (i + 1)
      (hd.of_sameTables hv₁.tables) (by omega)
      (fun j hj => by simpa [Nat.add_assoc, Nat.add_comm 1 j] using
        (hw (j + 1) (by omega)).of_sameTables hv₁.tables)
    refine ⟨k', ?_, ?_⟩
    · rw [readCopyLoop, hw₁]
      simp only [bind, Except.bind]
      rw [Nat.mod_eq_of_lt (by omega), hl]
    · have hbs : [UInt8.ofNat (buffer i).toNat] ++
          (List.range n).map (fun j : Nat => buffer (i + 1 + j)) =
          (List.range (n + 1)).map fun j : Nat => buffer (i + j) := by
        rw [List.range_succ_eq_map, List.map_cons, List.map_map, List.singleton_append,
          ofNat_toNat_byte]
        congr 1
        · exact congrArg buffer (Int.add_zero i).symm
        · exact List.map_congr_left fun j _ =>
            congrArg buffer ((Int.add_right_comm i 1 j).trans (Int.add_assoc i j 1))
      exact hbs ▸ hv₁.append hv'

/-! ### The two cases -/

theorem scWrite_reads (pf : PageFaultService) (files : FileTable) {k : Kernel}
    (hd : FramesDistinct cfg k) {addr : Nat} {bs : List UInt8} (hb : BytesAt cfg k addr bs)
    (hlen : bs.length < 2 ^ 31) (f : Nat)
    (buffer : Int → UInt8) (c : Nat) :
    ∃ k', scWrite cfg pf files k addr bs.length f buffer c =
        .ok (k', storeBlock buffer 0 bs, writeOut files f (storeBlock buffer 0 bs) bs.length) ∧
      SameTables k k' ∧ k'.mainMemory = k.mainMemory := by
  obtain ⟨k', hl, ht, hm⟩ := @writeCopyLoop_reads cfg pf _ _ _ buffer c 0 hd hb
  refine ⟨k', ?_, ht, hm⟩
  simp only [scWrite, toInt32_of_lt hlen, Int.toNat_natCast, hl]
  rfl

theorem scRead_stores (pf : PageFaultService) (files : FileTable) (console : ConsoleDriver)
    {k : Kernel} (hd : FramesDistinct cfg k) {addr size f : Nat} {buffer buffer' : Int → UInt8}
    {numread : Int} {err : FileCallError}
    (hr : readIn files console (toInt64 f) buffer (toInt32 size) = (buffer', numread, err))
    (ha : addr + numread.toNat ≤ 2 ^ 32) (hw : ∀ j < numread.toNat, Writable cfg k (addr + j)) :
    ∃ k', scRead cfg pf files console k addr size f buffer = .ok (k', numread, err) ∧
      VirtStores cfg k k' addr ((List.range numread.toNat).map fun j : Nat => buffer' j) := by
  obtain ⟨k', hl, hv⟩ := @readCopyLoop_stores cfg pf buffer' numread.toNat _ _ 0 hd ha hw
  refine ⟨k', ?_, by simpa only [Int.zero_add] using hv⟩
  simp only [scRead, hr, hl]
  rfl

theorem read_write_copy_exact (pf : PageFaultService) (files : FileTable)
    (console : ConsoleDriver) {k : Kernel} (hd : FramesDistinct cfg k) :
    (∀ (addr f c : Nat) (bs : List UInt8) (buffer : Int → UInt8), BytesAt cfg k addr bs →
      bs.length < 2 ^ 31 →
      ∃ k', scWrite cfg pf files k addr bs.length f buffer c =
          .ok (k', storeBlock buffer 0 bs, writeOut files f (storeBlock buffer 0 bs) bs.length) ∧
        SameTables k k' ∧ k'.mainMemory = k.mainMemory) ∧
    (∀ (addr size f : Nat) (buffer buffer' : Int → UInt8) (numread : Int) (err : FileCallError),
      readIn files console (toInt64 f) buffer (toInt32 size) = (buffer', numread, err) →
      addr + numread.toNat ≤ 2 ^ 32 → (∀ j < numread.toNat, Writable cfg k (addr + j)) →
      ∃ k', scRead cfg pf files console k addr size f buffer = .ok (k', numread, err) ∧
        VirtStores cfg k k' addr ((List.range numread.toNat).map fun j : Nat => buffer' j)) :=
  ⟨fun _ f c _ buffer hb hlen => scWrite_reads pf files hd hb hlen f buffer c,
    fun _ _ _ _ _ _ _ hr ha hw => scRead_stores pf files console hd hr ha hw⟩

theorem scSysTime_stores (pf : PageFaultService) {k : Kernel} (hd : FramesDistinct cfg k)
    {addr : Nat} (hal : addr % 4 = 0) (ha : addr + 8 ≤ 2 ^ 32)
    (hp₁ : addr % cfg.PageSize + 4 ≤ cfg.PageSize)
    (hp₂ : (addr + 4) % cfg.PageSize + 4 ≤ cfg.PageSize) (hw₁ : Writable cfg k addr)
    (hw₂ : Writable cfg k (addr + 4)) (sec nano : Nat) :
    ∃ k', scSysTime cfg pf k addr sec nano = .ok (k', .NO_ERROR) ∧
      VirtStores cfg k k' addr (encode cfg.host_endianess 4 (sec % 2 ^ 32) ++
        encode cfg.host_endianess 4 (nano % 2 ^ 32)) := by
  obtain ⟨k₁, h₁, hv₁⟩ := writeMem_word pf hd (s := 4) (by decide) (by omega) hp₁
    ⟨fun _ => hal, nofun⟩ hw₁ (sec % 2 ^ 32)
  obtain ⟨k₂, h₂, hv₂⟩ := writeMem_word pf (hd.of_sameTables hv₁.tables) (s := 4) (by decide)
    (by omega) hp₂ ⟨fun _ => (Nat.add_mod_right addr 4).trans hal, nofun⟩
    (hw₂.of_sameTables hv₁.tables) (nano % 2 ^ 32)
  refine ⟨k₂, ?_, hv₁.append (by rwa [encode_length])⟩
  have h4 : (addr + 4) % 2 ^ 64 = addr + 4 := Nat.mod_eq_of_lt (by omega)
  simp only [scSysTime, h₁, h4, h₂, bind, Except.bind]
  rfl

theorem scSysTime_misaligned (pf : PageFaultService) {k : Kernel} {t : TranslationTable}
    (ht : k.addrspaces k.current = some t) {addr : Nat} (hal : addr % 4 ≠ 0) (sec nano : Nat) :
    scSysTime cfg pf k addr sec nano =
      .error (.halt "\t*** Bus error on access to virtual address 0x%x ***\n") := by
  simp only [scSysTime, writeMem_misaligned pf ht hal, bind, Except.bind]

theorem sys_time_stores (pf : PageFaultService) {k : Kernel} (hd : FramesDistinct cfg k)
    (sec nano : Nat) :
    (∀ addr : Nat, addr % 4 = 0 → addr + 8 ≤ 2 ^ 32 → addr % cfg.PageSize + 4 ≤ cfg.PageSize →
      (addr + 4) % cfg.PageSize + 4 ≤ cfg.PageSize → Writable cfg k addr →
      Writable cfg k (addr + 4) →
      ∃ k', scSysTime cfg pf k addr sec nano = .ok (k', .NO_ERROR) ∧
        VirtStores cfg k k' addr (encode cfg.host_endianess 4 (sec % 2 ^ 32) ++
          encode cfg.host_endianess 4 (nano % 2 ^ 32))) ∧
    (∀ addr : Nat, k.addrspaces k.current ≠ none → addr % 4 ≠ 0 →
      scSysTime cfg pf k addr sec nano =
        .error (.halt "\t*** Bus error on access to virtual address 0x%x ***\n")) :=
  ⟨fun _ hal ha hp₁ hp₂ hw₁ hw₂ => scSysTime_stores pf hd hal ha hp₁ hp₂ hw₁ hw₂ sec nano,
    fun _ ht hal => by
      obtain ⟨t, ht⟩ := Option.ne_none_iff_exists'.1 ht
      exact scSysTime_misaligned pf ht hal sec nano⟩

end

def xConsole : ConsoleDriver := ⟨fun _ _ => fun _ => 120⟩

theorem bytesAt_abSpaces : BytesAt toyConfig abSpaces 0 [65, 66] := by
  unfold BytesAt
  decide

theorem read_write_copy_exact_ab :
    FramesDistinct toyConfig abSpaces ∧
      (∃ k', scWrite toyConfig (pageFault toyConfig) (fun _ => none) abSpaces 0 2 1
          (fun _ => 0) 0 = .ok (k', storeBlock (fun _ => 0) 0 [65, 66], 2, .NO_ERROR) ∧
        SameTables abSpaces k' ∧ k'.mainMemory = abSpaces.mainMemory) ∧
      ∃ k', scRead toyConfig (pageFault toyConfig) (fun _ => none) xConsole abSpaces 0 2 0
          (fun _ => 0) = .ok (k', 2, .NO_ERROR) ∧
        VirtStores toyConfig abSpaces k' 0 [120, 120] :=
  ⟨framesDistinct_abSpaces,
    (read_write_copy_exact (pageFault toyConfig) (fun _ => none) xConsole
      framesDistinct_abSpaces).1 0 1 0 [65, 66] (fun _ => 0) bytesAt_abSpaces (by decide),
    (read_write_copy_exact (pageFault toyConfig) (fun _ => none) xConsole
      framesDistinct_abSpaces).2 0 2 0 (fun _ => 0) _ 2 .NO_ERROR rfl (by decide)
      (fun _ hj => writable_abSpaces (by omega))⟩

theorem sys_time_stores_ab :
    FramesDistinct toyConfig abSpaces ∧
      scSysTime toyConfig (pageFault toyConfig) abSpaces 1 7 9 =
        .error (.halt "\t*** Bus error on access to virtual address 0x%x ***\n") :=
  ⟨framesDistinct_abSpaces,
    (sys_time_stores (pageFault toyConfig) framesDistinct_abSpaces 7 9).2 1 nofun (by decide)⟩

end NachosVm
