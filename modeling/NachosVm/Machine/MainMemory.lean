import NachosVm.Machine.Config

/-! The machine's main memory as bytes, and the host-order reads and writes of 1, 2, 4 and
8 bytes that `ReadMem` and `WriteMem` perform through `uintN_t` pointers. -/
namespace NachosVm

def readBytes (m : Nat → UInt8) (addr n : Nat) : List UInt8 :=
  (List.range n).map fun i => m (addr + i)

def writeBytes (m : Nat → UInt8) (addr : Nat) (bs : List UInt8) : Nat → UInt8 :=
  fun j => if addr ≤ j ∧ j < addr + bs.length then bs.getD (j - addr) 0 else m j

/-- The unsigned value of the bytes `bs` read in byte order `o`. -/
def decode : Endianess → List UInt8 → Nat
  | .IS_LITTLE_ENDIAN, bs => bs.foldr (fun b acc => b.toNat + 256 * acc) 0
  | .IS_BIG_ENDIAN, bs => bs.foldl (fun acc b => 256 * acc + b.toNat) 0

/-- The `size` bytes of `value mod 2 ^ (8 * size)` in byte order `o`: what a store through a
`uintN_t` pointer of that size writes. -/
def encode (o : Endianess) (size value : Nat) : List UInt8 :=
  let le := (List.range size).map fun i => UInt8.ofNat (value / 256 ^ i)
  match o with
  | .IS_LITTLE_ENDIAN => le
  | .IS_BIG_ENDIAN => le.reverse

@[simp] theorem readBytes_length (m : Nat → UInt8) (addr n : Nat) :
    (readBytes m addr n).length = n := by simp [readBytes]

@[simp] theorem encode_length (o : Endianess) (size value : Nat) :
    (encode o size value).length = size := by
  cases o <;> simp [encode]

theorem getElem_readBytes (m : Nat → UInt8) (addr n i : Nat) (h : i < (readBytes m addr n).length) :
    (readBytes m addr n)[i] = m (addr + i) := by
  simp [readBytes]

theorem writeBytes_of_lt (m : Nat → UInt8) (addr : Nat) (bs : List UInt8) {i : Nat}
    (h : i < bs.length) : writeBytes m addr bs (addr + i) = bs[i] := by
  simp [writeBytes, h, Nat.add_sub_cancel_left]

theorem writeBytes_of_not_mem (m : Nat → UInt8) (addr : Nat) (bs : List UInt8) {j : Nat}
    (h : ¬ (addr ≤ j ∧ j < addr + bs.length)) : writeBytes m addr bs j = m j := by
  simp [writeBytes, h]

theorem decode_le_bytes : ∀ (size value : Nat),
    ((List.range size).map fun i => UInt8.ofNat (value / 256 ^ i)).foldr
      (fun b acc => b.toNat + 256 * acc) 0 = value % 256 ^ size
  | 0, value => (Nat.mod_one value).symm
  | size + 1, value => by
    have hdiv : ∀ i, value / 256 ^ (i + 1) = value / 256 / 256 ^ i := fun i => by
      rw [Nat.div_div_eq_div_mul, Nat.pow_succ']
    simp only [List.range_succ_eq_map, List.map_cons, List.map_map, Function.comp_def, hdiv,
      List.foldr_cons, Nat.pow_zero, Nat.div_one, decode_le_bytes size (value / 256)]
    rw [Nat.pow_succ', Nat.mod_mul]
    rfl

theorem decode_encode (o : Endianess) (size value : Nat) :
    decode o (encode o size value) = value % 2 ^ (8 * size) := by
  rw [Nat.pow_mul, ← decode_le_bytes size value]
  cases o with
  | IS_LITTLE_ENDIAN => rfl
  | IS_BIG_ENDIAN =>
    simp only [decode, encode, List.foldl_reverse]
    congr
    funext b acc
    exact Nat.add_comm _ _

end NachosVm
