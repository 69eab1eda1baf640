import Mathlib.Algebra.Group.Int
import Mathlib.Algebra.Group.Nat.Basic
import Mathlib.Logic.Function.Basic
import Mathlib.Tactic.Common

/-! Machine configuration, C integer conversions and the kernel's stop conditions.
Machine words are naturals; every conversion the C code performs is an explicit function.
A run that reaches an `ASSERT` failure, `exit`, `Halt` or a NULL dereference ends in `Stop`. -/
namespace NachosVm

/-- `host_endianess`: the byte order of the host, which `*(uint32_t *) p` reads in. -/
inductive Endianess where
  | IS_BIG_ENDIAN
  | IS_LITTLE_ENDIAN
  deriving DecidableEq, Repr

/-- The machine parameters the core reads: `g_cfg`'s page size and frame count, and the host
byte order. `utility/config.h`, which declares them, is not under src/: `PageSize` is taken as
a `uint64_t`, so `vaddr / g_cfg->PageSize` on an `int vaddr` divides `(uint64_t) vaddr`.
Physical addresses are `uint32_t`, so the main memory of `NumPhysPages` pages lies below
`2 ^ 32`, and the MMU compares frame numbers with `(int) NumPhysPages`. A page holds at least
two bytes, so the `int vpn` of a 32-bit address never overflows. -/
structure Config where
  PageSize : Nat
  NumPhysPages : Nat
  host_endianess : Endianess
  one_lt_pageSize : 1 < PageSize
  memory_fits : NumPhysPages * PageSize ≤ 2 ^ 32
  numPhysPages_lt : NumPhysPages < 2 ^ 31

/-- The spec's scenario machine: four frames of four bytes, on a little-endian host. -/
def toyConfig : Config := ⟨4, 4, .IS_LITTLE_ENDIAN, by decide, by decide, by decide⟩

theorem Config.pageSize_pos (cfg : Config) : 0 < cfg.PageSize :=
  Nat.lt_trans Nat.zero_lt_one cfg.one_lt_pageSize

/-- The value of a C `int` holding the low 32 bits of `x`. -/
def toInt32 (x : Nat) : Int :=
  if x % 2 ^ 32 < 2 ^ 31 then (x % 2 ^ 32 : Nat) else (x % 2 ^ 32 : Nat) - 2 ^ 32

def toUInt64 (x : Int) : Nat := (x % 2 ^ 64).toNat

def toUInt32 (x : Int) : Nat := (x % 2 ^ 32).toNat

theorem toInt32_of_lt {x : Nat} (h : x < 2 ^ 31) : toInt32 x = x := by
  rw [toInt32, Nat.mod_eq_of_lt (by omega : x < 2 ^ 32), if_pos h]

theorem toInt32_of_ge {x : Nat} (h₁ : 2 ^ 31 ≤ x) (h₂ : x < 2 ^ 32) :
    toInt32 x = (x : Int) - 2 ^ 32 := by
  rw [toInt32, Nat.mod_eq_of_lt h₂, if_neg (Nat.not_lt.mpr h₁)]

theorem toUInt64_natCast {x : Nat} (h : x < 2 ^ 64) : toUInt64 x = x := by
  simp only [toUInt64]
  omega

def wrapInt32 (x : Int) : Int := toInt32 (toUInt32 x)

def INT_MAX : Int := 2 ^ 31 - 1

theorem wrapInt32_of_range {x : Int} (h₁ : -2 ^ 31 ≤ x) (h₂ : x ≤ INT_MAX) : wrapInt32 x = x := by
  simp only [wrapInt32, toInt32, toUInt32, INT_MAX] at *
  split <;> omega

theorem wrapInt32_emod (x : Int) : wrapInt32 x % 2 ^ 32 = x % 2 ^ 32 := by
  simp only [wrapInt32, toInt32, toUInt32]; split <;> omega

theorem wrapInt32_congr {x y : Int} (h : x % 2 ^ 32 = y % 2 ^ 32) : wrapInt32 x = wrapInt32 y := by
  unfold wrapInt32 toUInt32; rw [h]

theorem wrapInt32_wrap_add (x c : Int) : wrapInt32 (wrapInt32 x + c) = wrapInt32 (x + c) :=
  wrapInt32_congr (by rw [Int.add_emod, wrapInt32_emod, ← Int.add_emod])

theorem wrapInt32_eq_zero_iff {x : Int} : wrapInt32 x = 0 ↔ x % 2 ^ 32 = 0 := by
  simp only [wrapInt32, toInt32, toUInt32]; split <;> omega

theorem wrapInt32_natCast (n : Nat) : wrapInt32 n = toInt32 n := by
  simp only [wrapInt32, toInt32, toUInt32]; split <;> split <;> omega

/-- Modelled from the spec: `kernel/msgerror.h` is not under src/. The user library
documents an error result as a negative number; the kernel's `ERROR` is `-1`. -/
def ERROR : Int := -1

/-- Modelled from the spec: the header defining `INVALID_SECTOR` is not under src/;
`swapManager.h` documents the "no sector" argument of `PutPageSwap` as `-1`. -/
def INVALID_SECTOR : Int := -1

/-- Modelled from the spec: the header defining `INVALID_PAGE` is not under src/; the spec's
`findFreeFrame() → frameIndex | None` asks for a value that is no frame index, taken as the
`-1` of the swap manager's sentinel. -/
def INVALID_PAGE : Int := -1

theorem toUInt64_minus_one : toUInt64 (-1) = 2 ^ 64 - 1 := by decide

theorem toUInt32_minus_one : toUInt32 (-1) = 2 ^ 32 - 1 := by decide

inductive ExceptionType where
  | NO_EXCEPTION
  | PAGEFAULT_EXCEPTION
  | READONLY_EXCEPTION
  | BUSERROR_EXCEPTION
  | ADDRESSERROR_EXCEPTION
  deriving DecidableEq, Repr

/-- How a kernel path stops instead of returning, with the text the source gives. -/
inductive Stop where
  | assertFailed (cond : String)
  | exitError (msg : String)
  | halt (msg : String)
  | nullDeref (ptr : String)
  deriving DecidableEq, Repr

theorem bind_eq_ok {ε α β : Type} {x : Except ε α} {f : α → Except ε β} {b : β}
    (h : x >>= f = .ok b) : ∃ a, x = .ok a ∧ f a = .ok b := by
  cases x with
  | error e => cases h
  | ok a => exact ⟨a, rfl, h⟩

theorem map_eq_ok {ε α β : Type} {x : Except ε α} {f : α → β} {b : β}
    (h : x.map f = .ok b) : ∃ a, x = .ok a ∧ f a = b := by
  cases x with
  | error e => cases h
  | ok a => exact ⟨a, rfl, Except.ok.inj h⟩

end NachosVm
