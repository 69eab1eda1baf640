import NachosVm.Kernel.State

/-! `SwapManager` (`vm/swapManager.cc`): the allocation bitmap `page_flags` of the swap area
and the copies of a page between a frame and a sector. The disk driver is not under src/; its
transfers are synchronous and move one page, so each is one step on `swap_disk`. -/
namespace NachosVm

/-- The swap area: `NUM_SECTORS` sectors, which `GetFreeSwapSector` scans with an `int`. -/
structure SwapConfig where
  NUM_SECTORS : Nat
  numSectors_lt : NUM_SECTORS < 2 ^ 31

variable (cfg : Config) (sc : SwapConfig)

def swapManager (k : Kernel) : Kernel := { k with page_flags := fun _ => false }

def getFreeSwapSectorFrom (k : Kernel) (i : Nat) : Nat → Nat × Kernel
  | 0 => (toUInt64 ERROR, k)
  | n + 1 =>
    if !k.page_flags i then (i, { k with page_flags := Function.update k.page_flags i true })
    else getFreeSwapSectorFrom k (i + 1) n

def getFreeSwapSector (k : Kernel) : Nat × Kernel := getFreeSwapSectorFrom k 0 sc.NUM_SECTORS

def frameBytes (k : Kernel) (pp : Nat) : Nat → UInt8 := fun i => k.mainMemory (pp * cfg.PageSize + i)

/-- `swap_disk->WriteSector(disk_addr, &mainMemory[pp * PageSize])`. -/
def writeSector (k : Kernel) (disk_addr pp : Nat) : Kernel :=
  { k with swap_disk := Function.update k.swap_disk disk_addr (frameBytes cfg k pp) }

def releasePageSwap (k : Kernel) (disk_addr : Nat) : Kernel :=
  { k with page_flags := Function.update k.page_flags disk_addr false }

def getPageSwap (k : Kernel) (disk_addr pp : Nat) : Kernel :=
  { k with mainMemory := fun j =>
      if pp * cfg.PageSize ≤ j ∧ j < pp * cfg.PageSize + cfg.PageSize then
        k.swap_disk disk_addr (j - pp * cfg.PageSize)
      else k.mainMemory j }

/-- `SwapManager::PutPageSwap`: write frame `pp` to sector `disk_addr`, or to a fresh sector
when given `INVALID_SECTOR`; the sector used, or `INVALID_SECTOR` when the area is full. -/
def putPageSwap (k : Kernel) (disk_addr pp : Nat) : Nat × Kernel :=
  if disk_addr ≠ toUInt32 INVALID_SECTOR then (disk_addr, writeSector cfg k disk_addr pp)
  else
    let (newsect, k₁) := getFreeSwapSector sc k
    if newsect = toUInt64 INVALID_SECTOR then (toUInt64 INVALID_SECTOR, k₁)
    else (newsect, writeSector cfg k₁ newsect pp)

/-- `k'` is `k` with the page of frame `pp` copied to sector `r`: the sector holds the frame's
`PageSize` bytes, and no other sector and no byte of main memory changed. -/
structure SectorHolds (k k' : Kernel) (r pp : Nat) : Prop where
  sector : ∀ i < cfg.PageSize, k'.swap_disk r i = k.mainMemory (pp * cfg.PageSize + i)
  other : ∀ j, j ≠ r → k'.swap_disk j = k.swap_disk j
  memory : k'.mainMemory = k.mainMemory

theorem writeSector_holds (k : Kernel) (r pp : Nat) :
    SectorHolds cfg k (writeSector cfg k r pp) r pp ∧
      (writeSector cfg k r pp).page_flags = k.page_flags :=
  ⟨⟨fun i _ => by simp [writeSector, frameBytes],
    fun j hj => by simp [writeSector, Function.update_noteq hj], rfl⟩, rfl⟩

/-! ### The scan -/

theorem getFreeSwapSectorFrom_cases (k : Kernel) (i n : Nat) :
    ((∀ m, i ≤ m → m < i + n → k.page_flags m) ∧
      getFreeSwapSectorFrom k i n = (toUInt64 ERROR, k)) ∨
    ∃ r, i ≤ r ∧ r < i + n ∧ k.page_flags r = false ∧
      (∀ m, i ≤ m → m < r → k.page_flags m) ∧
      getFreeSwapSectorFrom k i n =
        (r, { k with page_flags := Function.update k.page_flags r true }) := by
  induction n generalizing i with
  | zero => exact .inl ⟨fun m h₁ h₂ => by omega, rfl⟩
  | succ n ih =>
    cases hi : k.page_flags i
    · exact .inr ⟨i, Nat.le_refl i, by omega, hi, fun m h₁ h₂ => by omega,
        by simp [getFreeSwapSectorFrom, hi]⟩
    · have hstep : getFreeSwapSectorFrom k i (n + 1) = getFreeSwapSectorFrom k (i + 1) n := by
        simp [getFreeSwapSectorFrom, hi]
      rw [hstep]
      rcases ih (i + 1) with ⟨hall, h⟩ | ⟨r, h₁, h₂, hr, hbelow, h⟩
      · refine .inl ⟨fun m h₁ h₂ => ?_, h⟩
        rcases Nat.eq_or_lt_of_le h₁ with rfl | h₁
        · exact hi
        · exact hall m h₁ (by omega)
      · refine .inr ⟨r, by omega, by omega, hr, fun m hm₁ hm₂ => ?_, h⟩
        rcases Nat.eq_or_lt_of_le hm₁ with rfl | hm₁
        · exact hi
        · exact hbelow m hm₁ hm₂

theorem toUInt64_error : toUInt64 ERROR = toUInt64 INVALID_SECTOR := rfl

theorem lt_invalid_sector {r : Nat} (h : r < sc.NUM_SECTORS) : r < toUInt64 INVALID_SECTOR := by
  have := sc.numSectors_lt
  rw [INVALID_SECTOR, toUInt64_minus_one]
  omega

theorem putPageSwap_invalid_cases (k : Kernel) (pp : Nat) :
    ((∀ i < sc.NUM_SECTORS, k.page_flags i) ∧
      putPageSwap cfg sc k (toUInt32 INVALID_SECTOR) pp = (toUInt64 INVALID_SECTOR, k)) ∨
    ∃ r < sc.NUM_SECTORS, k.page_flags r = false ∧ (∀ j < r, k.page_flags j) ∧
      putPageSwap cfg sc k (toUInt32 INVALID_SECTOR) pp =
        (r, writeSector cfg { k with page_flags := Function.update k.page_flags r true } r pp) := by
  rcases getFreeSwapSectorFrom_cases k 0 sc.NUM_SECTORS with ⟨hall, h⟩ | ⟨r, -, hr, hfree, hbelow, h⟩
  · refine .inl ⟨fun i hi => hall i (Nat.zero_le _) (by omega), ?_⟩
    simp [putPageSwap, getFreeSwapSector, h, toUInt64_error]
  · refine .inr ⟨r, by omega, hfree, fun j hj => hbelow j (Nat.zero_le _) hj, ?_⟩
    have hne : r ≠ toUInt64 INVALID_SECTOR := Nat.ne_of_lt (lt_invalid_sector sc (by omega))
    simp [putPageSwap, getFreeSwapSector, h, hne]

theorem swap_bitmap_first_fit (k : Kernel) (pp s : Nat) :
    ((∃ i < sc.NUM_SECTORS, k.page_flags i = false) →
      ∃ r < sc.NUM_SECTORS, k.page_flags r = false ∧ (∀ j < r, k.page_flags j) ∧
        (putPageSwap cfg sc k (toUInt32 INVALID_SECTOR) pp).1 = r ∧
        (putPageSwap cfg sc k (toUInt32 INVALID_SECTOR) pp).2.page_flags =
          Function.update k.page_flags r true ∧
        SectorHolds cfg k (putPageSwap cfg sc k (toUInt32 INVALID_SECTOR) pp).2 r pp) ∧
    ((∀ i < sc.NUM_SECTORS, k.page_flags i) →
      putPageSwap cfg sc k (toUInt32 INVALID_SECTOR) pp = (toUInt64 INVALID_SECTOR, k)) ∧
    toUInt64 ERROR = toUInt64 INVALID_SECTOR ∧
    (s ≠ toUInt32 INVALID_SECTOR → (putPageSwap cfg sc k s pp).1 = s ∧
      (putPageSwap cfg sc k s pp).2.page_flags = k.page_flags ∧
      SectorHolds cfg k (putPageSwap cfg sc k s pp).2 s pp) ∧
    (∀ j, (releasePageSwap k s).page_flags j = if j = s then false else k.page_flags j) := by
  refine ⟨fun ⟨i, hi, hfree⟩ => ?_, fun hall => ?_, toUInt64_error, fun hs => ?_, fun j => ?_⟩
  · rcases putPageSwap_invalid_cases cfg sc k pp with ⟨hall, -⟩ | ⟨r, hr, hfree, hbelow, h⟩
    · simp [hall i hi] at hfree
    · obtain ⟨⟨hsec, hother, hmem⟩, hflags⟩ := writeSector_holds cfg
        { k with page_flags := Function.update k.page_flags r true } r pp
      rw [h]
      exact ⟨r, hr, hfree, hbelow, rfl, hflags, hsec, hother, hmem⟩
  · rcases putPageSwap_invalid_cases cfg sc k pp with ⟨-, h⟩ | ⟨r, hr, hfree, -, -⟩
    · exact h
    · simp [hall r hr] at hfree
  · simp only [putPageSwap, hs, ne_eq, not_false_eq_true, if_true]
    exact ⟨trivial, (writeSector_holds cfg k s pp).2, (writeSector_holds cfg k s pp).1⟩
  · by_cases hj : j = s <;> simp [releasePageSwap, Function.update_apply, hj]

end NachosVm
