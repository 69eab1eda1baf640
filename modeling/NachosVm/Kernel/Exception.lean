import NachosVm.Machine.ByteAccess

/-! The string copies of the system-call handler (`exception.cc`): `GetLengthParam` and
`GetStringParam`, which read a user string through `ReadMem`, and the copy loops of the
`SC_TTY_SEND` and `SC_TTY_RECEIVE` cases. A kernel buffer is a C array indexed by `int`: a
function `Int → UInt8`, with no bound, so that a store past its end is a store like any
other. A loop that the source does not bound runs on fuel, and `none` is a loop still
running. -/
namespace NachosVm

def storeBlock (buf : Int → UInt8) (i : Int) (bs : List UInt8) : Int → UInt8 :=
  fun j => if i ≤ j ∧ j < i + bs.length then bs.getD (j - i).toNat 0 else buf j

@[simp] theorem storeBlock_nil (buf : Int → UInt8) (i : Int) : storeBlock buf i [] = buf := by
  funext j
  simp only [storeBlock, List.length_nil, Nat.cast_zero, Int.add_zero]
  rw [if_neg (by omega)]

theorem storeBlock_cons (buf : Int → UInt8) (i : Int) (b : UInt8) (bs : List UInt8) :
    storeBlock (Function.update buf i b) (i + 1) bs = storeBlock buf i (b :: bs) := by
  funext j
  simp only [storeBlock, Function.update_apply, List.length_cons, Nat.cast_succ]
  by_cases hj : j = i
  · subst hj
    rw [if_neg (by omega), if_pos rfl, if_pos (by omega), Int.sub_self]
    rfl
  · by_cases hr : i + 1 ≤ j ∧ j < i + 1 + bs.length
    · have hn : (j - i).toNat = (j - (i + 1)).toNat + 1 := by omega
      rw [if_pos hr, if_pos (by omega), hn, List.getD_cons_succ]
    · rw [if_neg hr, if_neg hj, if_neg (by omega)]

theorem ofNat_toNat_byte (b : UInt8) : UInt8.ofNat b.toNat = b :=
  UInt8.toNat.inj (UInt8.toNat_ofNat_of_lt b.toNat_lt_size)

theorem toNat_byte_ne_zero {b : UInt8} (h : b ≠ 0) : b.toNat ≠ 0 := fun h' =>
  h (UInt8.toNat.inj (h'.trans UInt8.toNat_zero.symm))

theorem update_storeBlock_end (buf : Int → UInt8) (i : Int) (bs : List UInt8) (v : UInt8) :
    Function.update (storeBlock buf i bs) (i + bs.length) v = storeBlock buf i (bs ++ [v]) := by
  funext j
  simp only [storeBlock, Function.update_apply, List.length_append, List.length_singleton,
    Nat.cast_add, Nat.cast_one]
  by_cases hj : j = i + bs.length
  · rw [if_pos hj, if_pos (by omega), show (j - i).toNat = bs.length by omega,
      List.getD_append_right _ _ _ _ le_rfl, Nat.sub_self]
    rfl
  · rw [if_neg hj]
    by_cases hr : i ≤ j ∧ j < i + bs.length
    · rw [if_pos hr, if_pos (by omega), List.getD_append _ _ _ _ (by omega)]
    · rw [if_neg hr, if_neg (by omega)]

theorem toUInt64_toInt32_mod (a : Nat) : toUInt64 (toInt32 a) % 2 ^ 32 = a % 2 ^ 32 := by
  simp only [toUInt64, toInt32]
  split <;> omega

theorem toUInt64_wrapInt32_succ (x : Int) :
    toUInt64 (wrapInt32 (x + 1)) % 2 ^ 32 = (toUInt64 x + 1) % 2 ^ 32 := by
  rw [wrapInt32, toUInt64_toInt32_mod]
  simp only [toUInt32, toUInt64]
  omega

/-- Modelled from the use the handler makes of it: `drivers/drvACIA.h` is not under src/.
`TtySend(buff)` gives the number of bytes sent; `TtyReceive(buff, length)` fills the buffer
and gives the number of bytes received. -/
structure AciaDriver where
  ttySend : (Int → UInt8) → Int
  ttyReceive : (Int → UInt8) → Int → (Int → UInt8) × Int

/-- Modelled from the names the handler uses: `kernel/msgerror.h` is not under src/. The
error these cases record with `g_syscall_error->SetMsg`. -/
inductive SyscallError where
  | NO_ERROR
  | NO_ACIA
  deriving DecidableEq, Repr

section
variable (cfg : Config) (pf : PageFaultService)

/-- The loop of `GetLengthParam`: while the last byte read, `c`, is not `'\0'`, read the byte
at `addr++` and count it. The `int addr` wraps as C stores it back; `i` counts the bytes
read and is read as an `int` at the end. -/
def getLengthLoop : Nat → Kernel → Int → Nat → Nat → Except Stop (Option (Nat × Kernel))
  | 0, _, _, _, _ => .ok none
  | fuel + 1, k, addr, i, c =>
    if c ≠ 0 then do
      let (_, r, k) ← readMem cfg pf k (toUInt64 addr) 1
      getLengthLoop fuel k (wrapInt32 (addr + 1)) (i + 1) (r.getD c)
    else .ok (some (i, k))

def getLengthParam (fuel : Nat) (k : Kernel) (addr : Int) :
    Except Stop (Option (Int × Kernel)) := do
  match ← getLengthLoop cfg pf fuel k addr 0 1 with
  | none => return none
  | some (i, k) => return some (toInt32 (i + 1), k)

/-- The loop of `GetStringParam` at index `i` with `n = maxlen - i` rounds left: while the
last byte read, `c`, is not `'\0'` and `i < maxlen`, read the byte at `addr++` into
`dest[i++]`. The bound keeps the `int i` below `maxlen`, so it never wraps. -/
def getStringLoop : Nat → Kernel → Nat → (Int → UInt8) → Int → Nat →
    Except Stop (Kernel × (Int → UInt8))
  | 0, k, _, dest, _, _ => .ok (k, dest)
  | n + 1, k, addr, dest, i, c =>
    if c ≠ 0 then do
      let (_, r, k) ← readMem cfg pf k addr 1
      let c := r.getD c
      getStringLoop n k ((addr + 1) % 2 ^ 64) (Function.update dest i (UInt8.ofNat c)) (i + 1) c
    else .ok (k, dest)

def getStringParam (k : Kernel) (addr : Nat) (dest : Int → UInt8) (maxlen : Int) :
    Except Stop (Kernel × (Int → UInt8)) := do
  let (k, dest) ← getStringLoop cfg pf maxlen.toNat k addr dest 0 1
  return (k, Function.update dest (maxlen - 1) 0)

/-- A string argument as the handler reads it (`SC_EXEC`, `SC_PERROR`, `SC_SEM_CREATE`, ...):
`size = GetLengthParam(addr)`, then `GetStringParam(addr, ch, size)` into the array `ch[size]`.
The register `addr` goes to `GetLengthParam` as an `int`. -/
def readStringArg (fuel : Nat) (k : Kernel) (addr : Nat) (ch : Int → UInt8) :
    Except Stop (Option (Int × Kernel × (Int → UInt8))) := do
  match ← getLengthParam cfg pf fuel k (toInt32 addr) with
  | none => return none
  | some (size, k) =>
    let (k, ch) ← getStringParam cfg pf k addr ch size
    return some (size, k, ch)

/-- The copy loop of `SC_TTY_SEND`, `for (int i = 0;; i++)`: read the byte at `addr + i` into
`buff[i]`, and stop after a `'\0'`. The `int i` is the count `n` read as an `int`. -/
def ttySendLoop : Nat → Kernel → Nat → (Int → UInt8) → Nat → Nat →
    Except Stop (Option (Kernel × (Int → UInt8)))
  | 0, _, _, _, _, _ => .ok none
  | fuel + 1, k, addr, buff, c, n => do
    let (_, r, k) ← readMem cfg pf k ((addr + toUInt64 (toInt32 n)) % 2 ^ 64) 1
    let c := r.getD c
    let buff := Function.update buff (toInt32 n) (UInt8.ofNat c)
    if buff (toInt32 n) = 0 then return some (k, buff)
    else ttySendLoop fuel k addr buff c (n + 1)

def scTtySend (fuel : Nat) (acia : Option AciaDriver) (k : Kernel) (addr : Nat)
    (buff : Int → UInt8) (c : Nat) :
    Except Stop (Option (Kernel × (Int → UInt8) × Int × SyscallError)) :=
  match acia with
  | none => .ok (some (k, buff, ERROR, .NO_ACIA))
  | some d => do
    match ← ttySendLoop cfg pf fuel k addr buff c 0 with
    | none => return none
    | some (k, buff) => return some (k, buff, d.ttySend buff, .NO_ERROR)

/-- The copy loop of `SC_TTY_RECEIVE`, `while (i <= length)`: write `buff[i]` at `addr++`.
`WriteMem` of one byte stores the low byte of the `char`'s value, the byte itself. -/
def ttyReceiveLoop : Nat → Kernel → Nat → (Int → UInt8) → Int → Int →
    Except Stop (Option (Kernel × Nat))
  | 0, _, _, _, _, _ => .ok none
  | fuel + 1, k, addr, buff, length, i =>
    if i ≤ length then do
      let (_, k) ← writeMem cfg pf k addr 1 (buff i).toNat
      ttyReceiveLoop fuel k ((addr + 1) % 2 ^ 64) buff length (wrapInt32 (i + 1))
    else .ok (some (k, addr))

/-- The `SC_TTY_RECEIVE` case, from `PARAM_1 = addr`, `PARAM_2 = length` and the
uninitialised `buff[length + 1]`: the driver fills the buffer, the loop copies it to `addr`,
then one more `'\0'` is written. The kernel, the value written to `REG_RET_SYSCALL` and the
error recorded. -/
def scTtyReceive (fuel : Nat) (acia : Option AciaDriver) (k : Kernel) (addr length : Nat)
    (buff : Int → UInt8) : Except Stop (Option (Kernel × Int × SyscallError)) :=
  match acia with
  | none => .ok (some (k, ERROR, .NO_ACIA))
  | some d => do
    let length := toInt32 length
    let received := d.ttyReceive buff length
    match ← ttyReceiveLoop cfg pf fuel k addr received.1 length 0 with
    | none => return none
    | some (k, addr) => do
      let (_, k) ← writeMem cfg pf k addr 1 0
      return some (k, received.2, .NO_ERROR)

end

/-! ### Reading a user string -/

section
variable {cfg : Config} {pf : PageFaultService}

theorem getLengthLoop_read {fuel : Nat} {k k₁ : Kernel} {addr : Int} {i c v : Nat} (hc : c ≠ 0)
    (hr : readMem cfg pf k (toUInt64 addr) 1 = .ok (true, some v, k₁)) :
    getLengthLoop cfg pf (fuel + 1) k addr i c =
      getLengthLoop cfg pf fuel k₁ (wrapInt32 (addr + 1)) (i + 1) v := by
  rw [getLengthLoop, if_pos hc, hr]
  rfl

theorem getLengthLoop_string (pf : PageFaultService) {s : List UInt8} :
    ∀ (fuel : Nat) {k : Kernel} {addr : Int} {i c : Nat}, FramesDistinct cfg k →
      StringAt cfg k (toUInt64 addr) s → c ≠ 0 → s.length + 2 ≤ fuel →
      ∃ k', getLengthLoop cfg pf fuel k addr i c = .ok (some (i + (s.length + 1), k')) ∧
        SameTables k k' ∧ k'.mainMemory = k.mainMemory := by
  induction s with
  | nil =>
    intro fuel k addr i c hd hs hc hf
    obtain ⟨f, rfl⟩ : ∃ f, fuel = f + 2 := ⟨fuel - 2, by simp only [List.length_cons, List.length_nil] at hf; omega⟩
    obtain ⟨k₁, hr, ht, hm⟩ := readMem_byte pf hd hs.head_nil
    exact ⟨k₁, by rw [getLengthLoop_read hc hr]; rfl, ht, hm⟩
  | cons b s ih =>
    intro fuel k addr i c hd hs hc hf
    obtain ⟨f, rfl⟩ : ∃ f, fuel = f + 1 := ⟨fuel - 1, by omega⟩
    obtain ⟨hb, hb0⟩ := hs.head_cons
    obtain ⟨k₁, hr, ht, hm⟩ := readMem_byte pf hd hb
    have hs₁ : StringAt cfg k₁ (toUInt64 (wrapInt32 (addr + 1))) s :=
      (hs.tail.of_reads ht hm).congr (toUInt64_wrapInt32_succ addr)
    obtain ⟨k', hl, ht', hm'⟩ := ih f (i := i + 1) (hd.of_sameTables ht) hs₁
      (toNat_byte_ne_zero hb0) (by simp only [List.length_cons, List.length_nil] at hf; omega)
    refine ⟨k', ?_, ht.trans ht', hm'.trans hm⟩
    rw [getLengthLoop_read hc hr, hl, List.length_cons, Nat.add_assoc i 1, Nat.add_comm 1]

theorem getLengthParam_string (pf : PageFaultService) {k : Kernel} (hd : FramesDistinct cfg k) {addr : Int}
    {s : List UInt8} (hs : StringAt cfg k (toUInt64 addr) s) {fuel : Nat}
    (hf : s.length + 2 ≤ fuel) :
    ∃ k', getLengthParam cfg pf fuel k addr = .ok (some (toInt32 (s.length + 2), k')) ∧
      SameTables k k' ∧ k'.mainMemory = k.mainMemory := by
  obtain ⟨k', hl, ht, hm⟩ := getLengthLoop_string pf _ (i := 0) hd hs Nat.one_ne_zero hf
  refine ⟨k', ?_, ht, hm⟩
  rw [getLengthParam, hl, Nat.zero_add]
  rfl

theorem getStringLoop_zero_char (n : Nat) (k : Kernel) (addr : Nat) (dest : Int → UInt8)
    (i : Int) : getStringLoop cfg pf n k addr dest i 0 = .ok (k, dest) := by
  cases n <;> rfl

theorem getStringLoop_read {n : Nat} {k k₁ : Kernel} {addr c v : Nat} {dest : Int → UInt8}
    {i : Int} (hc : c ≠ 0) (hr : readMem cfg pf k addr 1 = .ok (true, some v, k₁)) :
    getStringLoop cfg pf (n + 1) k addr dest i c = getStringLoop cfg pf n k₁ ((addr + 1) % 2 ^ 64)
      (Function.update dest i (UInt8.ofNat v)) (i + 1) v := by
  rw [getStringLoop, if_pos hc, hr]
  rfl

theorem getStringLoop_string (pf : PageFaultService) :
    ∀ {n : Nat} {s : List UInt8} {k : Kernel} {addr : Nat} (dest : Int → UInt8) {i : Int} {c : Nat},
      FramesDistinct cfg k → StringAt cfg k addr s → c ≠ 0 →
      ∃ k', getStringLoop cfg pf n k addr dest i c =
          .ok (k', storeBlock dest i ((s ++ [0]).take n)) ∧
        SameTables k k' ∧ k'.mainMemory = k.mainMemory
  | 0, _, k, _, _, _, _, _, _, _ => ⟨k, by simp [getStringLoop], SameTables.refl k, rfl⟩
  | n + 1, [], k, _, dest, i, _, hd, hs, hc => by
    obtain ⟨k₁, hr, ht, hm⟩ := readMem_byte pf hd hs.head_nil
    refine ⟨k₁, ?_, ht, hm⟩
    rw [getStringLoop_read hc hr, UInt8.toNat_zero, getStringLoop_zero_char]
    simp [← storeBlock_cons]
  | n + 1, b :: s, k, addr, dest, i, _, hd, hs, hc => by
    obtain ⟨hb, hb0⟩ := hs.head_cons
    obtain ⟨k₁, hr, ht, hm⟩ := readMem_byte pf hd hb
    have hs₁ : StringAt cfg k₁ ((addr + 1) % 2 ^ 64) s :=
      (hs.tail.of_reads ht hm).mod64
    obtain ⟨k', hl, ht', hm'⟩ := getStringLoop_string pf (n := n)
      (Function.update dest i (UInt8.ofNat b.toNat)) (i := i + 1)
      (hd.of_sameTables ht) hs₁ (toNat_byte_ne_zero hb0)
    refine ⟨k', ?_, ht.trans ht', hm'.trans hm⟩
    rw [getStringLoop_read hc hr, hl, ofNat_toNat_byte, storeBlock_cons]
    rfl

theorem getStringParam_string (pf : PageFaultService) {k : Kernel} (hd : FramesDistinct cfg k) {addr : Nat}
    {s : List UInt8} (hs : StringAt cfg k addr s) (dest : Int → UInt8) (maxlen : Int) :
    ∃ k', getStringParam cfg pf k addr dest maxlen = .ok (k', Function.update
        (storeBlock dest 0 ((s ++ [0]).take maxlen.toNat)) (maxlen - 1) 0) ∧
      SameTables k k' ∧ k'.mainMemory = k.mainMemory := by
  obtain ⟨k', hl, ht, hm⟩ := getStringLoop_string pf (n := maxlen.toNat) dest (i := 0) hd hs
    Nat.one_ne_zero
  exact ⟨k', by rw [getStringParam, hl]; rfl, ht, hm⟩

theorem getStringParam_dest {s : List UInt8} {dest : Int → UInt8} {maxlen : Int}
    (hn : 1 ≤ maxlen) :
    let dest' := Function.update (storeBlock dest 0 ((s ++ [0]).take maxlen.toNat)) (maxlen - 1) 0
    (∀ j : Int, (j < 0 ∨ maxlen ≤ j) → dest' j = dest j) ∧
      (∀ j < min s.length (maxlen.toNat - 1), dest' j = s.getD j 0) ∧
      dest' ((min s.length (maxlen.toNat - 1) : Nat) : Int) = 0 := by
  obtain ⟨n, rfl⟩ : ∃ n : Nat, maxlen = n := ⟨maxlen.toNat, by omega⟩
  simp only [Int.toNat_natCast]
  have hlen : ((s ++ [0]).take n).length = min n (s.length + 1) := by
    rw [List.length_take, List.length_append, List.length_singleton]
  refine ⟨fun j hj => ?_, fun j hj => ?_, ?_⟩
  · rw [Function.update_noteq (by omega), storeBlock, if_neg (by omega)]
  · rw [Function.update_noteq (by omega), storeBlock, if_pos (by omega), Int.sub_zero,
      Int.toNat_natCast, List.getD_eq_getElem?_getD, List.getElem?_take_of_lt (by omega),
      List.getElem?_append_left (by omega), ← List.getD_eq_getElem?_getD]
  · by_cases hm : s.length < n - 1
    · rw [min_eq_left hm.le, Function.update_noteq (by omega), storeBlock, if_pos (by omega),
        Int.sub_zero, Int.toNat_natCast, List.getD_eq_getElem?_getD,
        List.getElem?_take_of_lt (by omega), List.getElem?_append_right le_rfl, Nat.sub_self]
      rfl
    · rw [min_eq_right (by omega), show ((n - 1 : Nat) : Int) = n - 1 by omega,
        Function.update_same]

/-! ### The serial-line cases -/

theorem ttySendLoop_read {fuel : Nat} {k k₁ : Kernel} {addr : Nat} {buff : Int → UInt8}
    {c n v : Nat} (hn : n < 2 ^ 31)
    (hr : readMem cfg pf k ((addr + n) % 2 ^ 64) 1 = .ok (true, some v, k₁)) :
    ttySendLoop cfg pf (fuel + 1) k addr buff c n =
      if UInt8.ofNat v = 0 then .ok (some (k₁, Function.update buff n (UInt8.ofNat v)))
      else ttySendLoop cfg pf fuel k₁ addr (Function.update buff n (UInt8.ofNat v)) v (n + 1) := by
  rw [ttySendLoop, toInt32_of_lt hn, toUInt64_natCast (by omega), hr]
  simp only [bind, Except.bind, Function.update_same, Option.getD_some]
  rfl

theorem ttySendLoop_string (pf : PageFaultService) (addr : Nat) :
    ∀ {s : List UInt8} (fuel : Nat) {k : Kernel} (buff : Int → UInt8) {c n : Nat},
      FramesDistinct cfg k → StringAt cfg k (addr + n) s → n + s.length < 2 ^ 31 →
      s.length + 1 ≤ fuel →
      ∃ k', ttySendLoop cfg pf fuel k addr buff c n = .ok (some (k', storeBlock buff n (s ++ [0]))) ∧
        SameTables k k' ∧ k'.mainMemory = k.mainMemory := by
  intro s fuel k buff c n hd hs hn hf
  obtain ⟨f, rfl⟩ : ∃ f, fuel = f + 1 := ⟨fuel - 1, by omega⟩
  have hn' : n < 2 ^ 31 := by omega
  cases s with
  | nil =>
    obtain ⟨k₁, hr, ht, hm⟩ := readMem_byte pf hd hs.mod64.head_nil
    refine ⟨k₁, ?_, ht, hm⟩
    rw [ttySendLoop_read hn' hr, ofNat_toNat_byte, if_pos rfl, List.nil_append, ← storeBlock_cons,
      storeBlock_nil]
  | cons b s =>
    obtain ⟨hb, hb0⟩ := hs.mod64.head_cons
    obtain ⟨k₁, hr, ht, hm⟩ := readMem_byte pf hd hb
    obtain ⟨k', hl, ht', hm'⟩ := ttySendLoop_string pf addr f (Function.update buff n b)
      (c := b.toNat) (n := n + 1) (hd.of_sameTables ht)
      (by simpa [Nat.add_assoc] using hs.tail.of_reads ht hm) (by simp at hn; omega)
      (by simp only [List.length_cons, List.length_nil] at hf; omega)
    refine ⟨k', ?_, ht.trans ht', hm'.trans hm⟩
    rw [ttySendLoop_read hn' hr, ofNat_toNat_byte, if_neg hb0, hl, Int.natCast_add,
      Int.natCast_one, storeBlock_cons]
    rfl

theorem scTtySend_string (pf : PageFaultService) (d : AciaDriver) {k : Kernel} (hd : FramesDistinct cfg k) {addr : Nat}
    {s : List UInt8} (hs : StringAt cfg k addr s) (hlen : s.length < 2 ^ 31) (buff : Int → UInt8)
    (c : Nat) {fuel : Nat} (hf : s.length + 1 ≤ fuel) :
    ∃ k', scTtySend cfg pf fuel (some d) k addr buff c = .ok (some
      (k', storeBlock buff 0 (s ++ [0]), d.ttySend (storeBlock buff 0 (s ++ [0])), .NO_ERROR)) := by
  obtain ⟨k', hl, -⟩ := ttySendLoop_string pf addr _ buff (c := c) (n := 0) hd hs
    (by omega) hf
  exact ⟨k', by rw [scTtySend, hl]; rfl⟩

theorem ttyReceiveLoop_write {fuel : Nat} {k k₁ : Kernel} {addr : Nat} {buff : Int → UInt8}
    {length i : Int} (hi : i ≤ length) (b : Bool)
    (hw : writeMem cfg pf k addr 1 (buff i).toNat = .ok (b, k₁)) :
    ttyReceiveLoop cfg pf (fuel + 1) k addr buff length i =
      ttyReceiveLoop cfg pf fuel k₁ ((addr + 1) % 2 ^ 64) buff length (wrapInt32 (i + 1)) := by
  rw [ttyReceiveLoop, if_pos hi, hw]
  rfl

theorem ttyReceiveLoop_stores (pf : PageFaultService) (buff : Int → UInt8) (length : Int)
    (hlen : length < INT_MAX) :
    ∀ {m : Nat} (fuel : Nat) {k : Kernel} (addr : Nat) {i : Int}, FramesDistinct cfg k → 0 ≤ i →
      i + m = length + 1 → addr + m < 2 ^ 32 → (∀ j < m, Writable cfg k (addr + j)) → m < fuel →
      ∃ k', ttyReceiveLoop cfg pf fuel k addr buff length i = .ok (some (k', addr + m)) ∧
        VirtStores cfg k k' addr ((List.range m).map fun j : Nat => buff (i + j)) := by
  intro m
  induction m with
  | zero =>
    intro fuel k addr i _ _ hm _ _ hf
    obtain ⟨f, rfl⟩ : ∃ f, fuel = f + 1 := ⟨fuel - 1, by omega⟩
    exact ⟨k, by rw [ttyReceiveLoop, if_neg (by omega)]; rfl,
      VirtStores.nil (SameTables.refl k) rfl addr⟩
  | succ m ih =>
    intro fuel k addr i hd hi hm ha hw hf
    obtain ⟨f, rfl⟩ : ∃ f, fuel = f + 1 := ⟨fuel - 1, by omega⟩
    obtain ⟨k₁, hw₁, hv₁⟩ := writeMem_byte pf hd (b := addr) (by omega) (hw 0 (by omega))
      (buff i).toNat
    obtain ⟨k', hl, hv'⟩ := ih f (addr + 1) (i := i + 1)
      (hd.of_sameTables hv₁.tables) (by omega) (by omega) (by omega)
      (fun j hj => by simpa [Nat.add_assoc, Nat.add_comm 1 j] using
        (hw (j + 1) (by omega)).of_sameTables hv₁.tables) (by omega)
    refine ⟨k', ?_, ?_⟩
    · rw [ttyReceiveLoop_write (by omega) true hw₁, wrapInt32_of_range (by omega) (by omega),
        Nat.mod_eq_of_lt (by omega), hl, Nat.add_assoc, Nat.add_comm 1]
    · have hbs : [UInt8.ofNat (buff i).toNat] ++ (List.range m).map (fun j : Nat => buff (i + 1 + j))
          = (List.range (m + 1)).map fun j : Nat => buff (i + j) := by
        rw [List.range_succ_eq_map, List.map_cons, List.map_map, List.singleton_append,
          ofNat_toNat_byte]
        congr 1
        · simp
        · congr 1
          funext j
          simp only [Function.comp_apply, Nat.cast_succ]
          congr 1
          omega
      exact hbs ▸ hv₁.append hv'

theorem scTtyReceive_stores (pf : PageFaultService) (d : AciaDriver) {k : Kernel} (hd : FramesDistinct cfg k)
    {addr length : Nat} (buff : Int → UInt8) (hlen : length < 2 ^ 31 - 1)
    (ha : addr + length + 1 < 2 ^ 32) (hw : ∀ j ≤ length + 1, Writable cfg k (addr + j))
    {fuel : Nat} (hf : length + 2 ≤ fuel) :
    ∃ k', scTtyReceive cfg pf fuel (some d) k addr length buff =
        .ok (some (k', (d.ttyReceive buff length).2, .NO_ERROR)) ∧
      VirtStores cfg k k' addr
        ((List.range (length + 1)).map (fun j : Nat => (d.ttyReceive buff length).1 j) ++ [0]) := by
  have hl32 : toInt32 length = length := toInt32_of_lt (by omega)
  obtain ⟨k₁, hl, hv₁⟩ := ttyReceiveLoop_stores pf (d.ttyReceive buff length).1 length
    (by simp only [INT_MAX]; omega) (m := length + 1) fuel addr (i := 0) hd le_rfl
    (by simp) (by omega) (fun j hj => hw j (by omega)) (by omega)
  obtain ⟨k₂, hw₂, hv₂⟩ := writeMem_byte pf (hd.of_sameTables hv₁.tables) (b := addr + (length + 1))
    (by omega) ((hw (length + 1) le_rfl).of_sameTables hv₁.tables) 0
  refine ⟨k₂, ?_, ?_⟩
  · rw [scTtyReceive, hl32]
    simp only [bind, Except.bind, hl, hw₂]
    rfl
  · simpa using hv₁.append (by simpa using hv₂)

theorem tty_cases_copy_extent (pf : PageFaultService) (d : AciaDriver) {k : Kernel}
    (hd : FramesDistinct cfg k) :
    (∀ (addr c fuel : Nat) (s : List UInt8) (buff : Int → UInt8), StringAt cfg k addr s →
      s.length < 2 ^ 31 → s.length + 1 ≤ fuel →
      ∃ k', scTtySend cfg pf fuel (some d) k addr buff c = .ok (some (k',
        storeBlock buff 0 (s ++ [0]), d.ttySend (storeBlock buff 0 (s ++ [0])), .NO_ERROR))) ∧
    (∀ (addr length fuel : Nat) (buff : Int → UInt8), length < 2 ^ 31 - 1 →
      addr + length + 1 < 2 ^ 32 → (∀ j ≤ length + 1, Writable cfg k (addr + j)) →
      length + 2 ≤ fuel →
      ∃ k', scTtyReceive cfg pf fuel (some d) k addr length buff =
          .ok (some (k', (d.ttyReceive buff length).2, .NO_ERROR)) ∧
        VirtStores cfg k k' addr
          ((List.range (length + 1)).map (fun j : Nat => (d.ttyReceive buff length).1 j) ++ [0])) :=
  ⟨fun _ c _ _ buff hs hlen hf => scTtySend_string pf d hd hs hlen buff c hf,
    fun _ _ _ buff hlen ha hw hf => scTtyReceive_stores pf d hd buff hlen ha hw hf⟩

theorem string_params_result (pf : PageFaultService) {k : Kernel} (hd : FramesDistinct cfg k)
    {s : List UInt8} :
    (∀ (addr : Int) (fuel : Nat), StringAt cfg k (toUInt64 addr) s → s.length + 2 ≤ fuel →
      ∃ k', getLengthParam cfg pf fuel k addr = .ok (some (toInt32 (s.length + 2), k'))) ∧
    (∀ (addr : Nat) (dest : Int → UInt8) (maxlen : Int), StringAt cfg k addr s → 1 ≤ maxlen →
      ∃ k' dest', getStringParam cfg pf k addr dest maxlen = .ok (k', dest') ∧
        (∀ j : Int, (j < 0 ∨ maxlen ≤ j) → dest' j = dest j) ∧
        (∀ j < min s.length (maxlen.toNat - 1), dest' j = s.getD j 0) ∧
        dest' ((min s.length (maxlen.toNat - 1) : Nat) : Int) = 0) := by
  refine ⟨fun addr fuel hs hf => ?_, fun addr dest maxlen hs hn => ?_⟩
  · obtain ⟨k', hl, -⟩ := getLengthParam_string pf hd hs hf
    exact ⟨k', hl⟩
  · obtain ⟨k', hl, -⟩ := getStringParam_string pf hd hs dest maxlen
    exact ⟨k', _, hl, getStringParam_dest hn⟩

end

/-! ### A string in the first address space -/

def abSpaces : Kernel :=
  { twoSpaces with mainMemory := fun j => if j = 0 then 65 else if j = 1 then 66 else 0 }

theorem framesDistinct_abSpaces : FramesDistinct toyConfig abSpaces :=
  framesDistinct_twoSpaces.of_sameTables ⟨rfl, fun _ => rfl⟩

theorem stringAt_abSpaces : StringAt toyConfig abSpaces 0 [65, 66] := ⟨by decide, by decide⟩

theorem writable_abSpaces {j : Nat} (hj : j < 4) : Writable toyConfig abSpaces j := by
  have h : j / toyConfig.PageSize = 0 := Nat.div_eq_of_lt hj
  exact ⟨onePage 0, rfl, by rw [h]; decide, by rw [h]; rfl, by rw [h]; rfl⟩

def xDriver : AciaDriver := ⟨fun _ => 0, fun _ length => (fun _ => 120, length)⟩

theorem tty_cases_copy_extent_ab :
    FramesDistinct toyConfig abSpaces ∧
      (∃ k', scTtySend toyConfig (pageFault toyConfig) 3 (some xDriver) abSpaces 0 (fun _ => 1) 0 =
        .ok (some (k', storeBlock (fun _ => 1) 0 [65, 66, 0], 0, .NO_ERROR))) ∧
      ∃ k', scTtyReceive toyConfig (pageFault toyConfig) 3 (some xDriver) abSpaces 0 1
          (fun _ => 0) = .ok (some (k', 1, .NO_ERROR)) ∧
        VirtStores toyConfig abSpaces k' 0 [120, 120, 0] :=
  ⟨framesDistinct_abSpaces,
    (tty_cases_copy_extent (pageFault toyConfig) xDriver framesDistinct_abSpaces).1 0 0 3
      [65, 66] (fun _ => 1) stringAt_abSpaces (by decide) (by decide),
    (tty_cases_copy_extent (pageFault toyConfig) xDriver framesDistinct_abSpaces).2 0 1 3
      (fun _ => 0) (by decide) (by decide) (fun _ hj => writable_abSpaces (by omega)) le_rfl⟩

theorem string_params_result_ab :
    FramesDistinct toyConfig abSpaces ∧ StringAt toyConfig abSpaces 0 [65, 66] ∧
      ∃ k', getLengthParam toyConfig (pageFault toyConfig) 4 abSpaces 0 = .ok (some (4, k')) :=
  ⟨framesDistinct_abSpaces, stringAt_abSpaces,
    (string_params_result (pageFault toyConfig) framesDistinct_abSpaces).1 0 4
      stringAt_abSpaces le_rfl⟩

/-! ### The string arguments of the system calls -/

section
variable {cfg : Config}

theorem string_arg_read_whole (pf : PageFaultService) {k : Kernel} (hd : FramesDistinct cfg k)
    {addr : Nat} {s : List UInt8} (hs : StringAt cfg k addr s) (hlen : s.length + 2 < 2 ^ 31)
    (ch : Int → UInt8) {fuel : Nat} (hf : s.length + 2 ≤ fuel) :
    ∃ k', readStringArg cfg pf fuel k addr ch =
        .ok (some (s.length + 2, k', storeBlock ch 0 (s ++ [0, 0]))) ∧
      SameTables k k' ∧ k'.mainMemory = k.mainMemory := by
  obtain ⟨k₁, hl, ht₁, hm₁⟩ :=
    getLengthParam_string pf hd (hs.congr (toUInt64_toInt32_mod addr)) hf
  obtain ⟨k₂, hg, ht₂, hm₂⟩ := getStringParam_string pf (hd.of_sameTables ht₁)
    (hs.of_reads ht₁ hm₁) ch (toInt32 (s.length + 2))
  rw [toInt32_of_lt hlen] at hl hg
  -- the copy stops at the `'\0'`, one short of `size`, and `ch[size - 1] = '\0'` comes after it
  have hb : (s ++ [0]).take ((s.length + 2 : Nat) : Int).toNat = s ++ [0] :=
    List.take_of_length_le (by rw [Int.toNat_natCast]; simp)
  have he : ((s.length + 2 : Nat) : Int) - 1 = 0 + ((s ++ [0]).length : Nat) := by simp; omega
  refine ⟨k₂, ?_, ht₁.trans ht₂, hm₂.trans hm₁⟩
  rw [readStringArg, hl]
  simp only [bind, Except.bind, pure, Except.pure, hg, hb, he, update_storeBlock_end,
    List.append_assoc, List.singleton_append]
  rfl

end

theorem string_arg_read_whole_ab :
    FramesDistinct toyConfig abSpaces ∧ StringAt toyConfig abSpaces 0 [65, 66] ∧
      ∃ k', readStringArg toyConfig (pageFault toyConfig) 4 abSpaces 0 (fun _ => 1) =
        .ok (some (4, k', storeBlock (fun _ => 1) 0 [65, 66, 0, 0])) ∧
        SameTables abSpaces k' ∧ k'.mainMemory = abSpaces.mainMemory :=
  ⟨framesDistinct_abSpaces, stringAt_abSpaces,
    string_arg_read_whole (pageFault toyConfig) framesDistinct_abSpaces stringAt_abSpaces
      (by decide) _ le_rfl⟩

end NachosVm
