import NachosVm.Kernel.State

/-! `PhysicalMemManager` (`vm/physMem.cc`): the frame table `tpr`, the free list, and the
operations on them. Each operation returns the kernel it leaves, or the `Stop` its
`ASSERT`, its NULL dereference or its `exit` ends in. `EvictPage` is the stub of the source. -/
namespace NachosVm

variable (cfg : Config)

/-- `PhysicalMemManager::PhysicalMemManager`: every frame free, unlocked and without owner,
appended to `free_page_list` in increasing order. `virtualPage` is left as it was
(uninitialised in the source). -/
def physicalMemManager (k : Kernel) : Kernel :=
  { k with
    tpr := fun i => { k.tpr i with free := true, locked := false, owner := none }
    free_page_list := List.range cfg.NumPhysPages }

def findFreePage (k : Kernel) : Except Stop (Nat × Kernel) :=
  match k.free_page_list with
  | [] => .ok (toUInt64 INVALID_PAGE, k)
  | page :: rest =>
    if (k.tpr page).free then
      .ok (page, { (k.incrMemoryAccess.setTpr page { k.tpr page with free := false }) with
        free_page_list := rest })
    else .error (.assertFailed "tpr[page].free")

/-- `PhysicalMemManager::FreePhysicalPage`: mark the frame free and unlocked, clear the valid
bit of the back-referenced page when its owner still has a table, and prepend the frame to
the free list. The owner pointer is followed unchecked. -/
def freePhysicalPage (k : Kernel) (num_page : Nat) : Except Stop Kernel :=
  let e := k.tpr num_page
  if e.free then .error (.assertFailed "!tpr[num_page].free") else
  match e.owner with
  | none => .error (.nullDeref "tpr[num_page].owner")
  | some owner =>
    let k₁ := k.setTpr num_page { e with free := true, locked := false }
    let k₂ := match k₁.addrspaces owner with
      | none => k₁
      | some t => k₁.setTable owner (t.clearBitValid e.virtualPage)
    .ok { k₂ with free_page_list := num_page :: k₂.free_page_list }

def unlockPage (k : Kernel) (num_page : Nat) : Except Stop Kernel :=
  if ¬ num_page < cfg.NumPhysPages then .error (.assertFailed "num_page < g_cfg->NumPhysPages")
  else if (k.tpr num_page).locked = false then .error (.assertFailed "tpr[num_page].locked == true")
  else if (k.tpr num_page).free then .error (.assertFailed "tpr[num_page].free == false")
  else .ok (k.setTpr num_page { k.tpr num_page with locked := false })

def setTPREntry (k : Kernel) (pp virtualpage : Nat) (owner : Option Nat) (locked : Bool) :
    Kernel :=
  k.setTpr pp { k.tpr pp with virtualPage := virtualpage, owner := owner, locked := locked }

/-- `PhysicalMemManager::EvictPage`: the clock algorithm is not implemented; the stub exits. -/
def evictPage (_k : Kernel) : Except Stop (Nat × Kernel) :=
  .error (.exitError "**** Warning: page replacement algorithm is not implemented yet\n")

/-! ### One lemma per operation -/

variable {cfg} in
theorem lt_invalid_page {p : Nat} (hp : p < cfg.NumPhysPages) : p < toUInt64 INVALID_PAGE := by
  have := Nat.le_mul_of_pos_right cfg.NumPhysPages cfg.pageSize_pos
  have := cfg.memory_fits
  rw [INVALID_PAGE, toUInt64_minus_one]
  omega

theorem findFreePage_nil {k : Kernel} (h : k.free_page_list = []) :
    findFreePage k = .ok (toUInt64 INVALID_PAGE, k) := by
  simp [findFreePage, h]

theorem findFreePage_cons {k : Kernel} {page rest} (h : k.free_page_list = page :: rest)
    (hf : (k.tpr page).free) :
    findFreePage k = .ok (page, { (k.incrMemoryAccess.setTpr page
      { k.tpr page with free := false }) with free_page_list := rest }) := by
  simp [findFreePage, h, hf]

theorem findFreePage_cases {k k' : Kernel} {p : Nat} (h : findFreePage k = .ok (p, k')) :
    (k.free_page_list = [] ∧ p = toUInt64 INVALID_PAGE ∧ k' = k) ∨
    ∃ rest, k.free_page_list = p :: rest ∧ (k.tpr p).free ∧
      k' = { (k.incrMemoryAccess.setTpr p { k.tpr p with free := false }) with
        free_page_list := rest } := by
  unfold findFreePage at h
  split at h
  · cases h; exact .inl ⟨‹_›, rfl, rfl⟩
  · split at h
    · cases h; exact .inr ⟨_, ‹_›, ‹_›, rfl⟩
    · cases h

theorem freePhysicalPage_ok {k : Kernel} {num_page owner : Nat}
    (hf : (k.tpr num_page).free = false) (ho : (k.tpr num_page).owner = some owner) :
    freePhysicalPage k num_page = .ok (
      let k₁ := k.setTpr num_page { k.tpr num_page with free := true, locked := false }
      let k₂ := match k₁.addrspaces owner with
        | none => k₁
        | some t => k₁.setTable owner (t.clearBitValid (k.tpr num_page).virtualPage)
      { k₂ with free_page_list := num_page :: k₂.free_page_list }) := by
  simp [freePhysicalPage, hf, ho]

theorem freePhysicalPage_of_table {k : Kernel} {num_page owner : Nat} {t : TranslationTable}
    (hf : (k.tpr num_page).free = false) (ho : (k.tpr num_page).owner = some owner)
    (ht : k.addrspaces owner = some t) :
    freePhysicalPage k num_page = .ok { ((k.setTpr num_page
      { k.tpr num_page with free := true, locked := false }).setTable owner
      (t.clearBitValid (k.tpr num_page).virtualPage)) with
        free_page_list := num_page :: k.free_page_list } := by
  rw [freePhysicalPage_ok hf ho]
  simp [ht]

theorem freePhysicalPage_cases {k k' : Kernel} {num_page : Nat}
    (h : freePhysicalPage k num_page = .ok k') :
    (k.tpr num_page).free = false ∧ ∃ owner, (k.tpr num_page).owner = some owner ∧
      k' = (let k₁ := k.setTpr num_page { k.tpr num_page with free := true, locked := false }
        let k₂ := match k₁.addrspaces owner with
          | none => k₁
          | some t => k₁.setTable owner (t.clearBitValid (k.tpr num_page).virtualPage)
        { k₂ with free_page_list := num_page :: k₂.free_page_list }) := by
  cases hf : (k.tpr num_page).free
  · cases ho : (k.tpr num_page).owner with
    | none => simp [freePhysicalPage, hf, ho] at h
    | some owner => rw [freePhysicalPage_ok hf ho] at h; exact ⟨rfl, owner, rfl, (Except.ok.inj h).symm⟩
  · simp [freePhysicalPage, hf] at h

theorem unlockPage_cases {k k' : Kernel} {num_page : Nat}
    (h : unlockPage cfg k num_page = .ok k') :
    num_page < cfg.NumPhysPages ∧ (k.tpr num_page).locked ∧ (k.tpr num_page).free = false ∧
      k' = k.setTpr num_page { k.tpr num_page with locked := false } := by
  by_cases hn : num_page < cfg.NumPhysPages
  · cases hl : (k.tpr num_page).locked <;> cases hf : (k.tpr num_page).free <;>
      simp [unlockPage, hn, hl, hf] at h
    subst h; exact ⟨hn, rfl, rfl, by simp [hf]⟩
  · simp [unlockPage, hn] at h

theorem unlockPage_ok {k : Kernel} {num_page : Nat} (hn : num_page < cfg.NumPhysPages)
    (hl : (k.tpr num_page).locked) (hf : (k.tpr num_page).free = false) :
    unlockPage cfg k num_page = .ok (k.setTpr num_page { k.tpr num_page with locked := false }) := by
  simp [unlockPage, hn, hl, hf]

end NachosVm
