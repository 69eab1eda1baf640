import NachosVm.Vm.FreeList
import NachosVm.Utility.List

/-! `PhysicalMemManager` (`vm/physMem.cc`) with `free_page_list` as the code keeps it: a
`ListInt`, the linked `List<uint64_t>` of `utility/list.h`. The constructor fills it by
`Append`, `FindFreePage` takes from it by `IsEmpty` and `Remove`, and `FreePhysicalPage` gives
back to it by `Prepend`. The plain list of `Vm.PhysMem` is what the linked list holds: each
call of the code returns what the model's call returns, stop for stop. The linked list's
items, front to back, are the model's `free_page_list`, so `FreeListExact` holds of the code. -/
namespace NachosVm

open LinkedList

/-- The manager as the code keeps it. `free_page_list` is the linked list over its heap of
elements. The frame table and the rest of the kernel are `kernel`, whose own `free_page_list`
field the operations below neither read nor write. -/
structure PhysMemImpl where
  kernel : Kernel
  free_page_list : LinkedList Nat

namespace PhysMemImpl

variable (cfg : Config)

/-- `PhysicalMemManager::PhysicalMemManager`, with `free_page_list` an empty list over the
cells from `free` on: for each frame `i` in increasing order, mark it free, unlocked and
without owner, and `Append` it. -/
def physicalMemManager (cells : Nat → ListElement Nat) (free : Nat) (k : Kernel) :
    Except Stop PhysMemImpl := do
  let l ← (List.range cfg.NumPhysPages).foldlM (fun l i => l.append i) (empty cells free)
  return ⟨{ k with tpr := fun i => { k.tpr i with free := true, locked := false, owner := none } },
    l⟩

def findFreePage (s : PhysMemImpl) : Except Stop (Nat × PhysMemImpl) :=
  if s.free_page_list.isEmpty then .ok (toUInt64 INVALID_PAGE, s) else do
  let k := s.kernel.incrMemoryAccess
  let (page, l) ← s.free_page_list.remove
  if (k.tpr page).free then .ok (page, ⟨k.setTpr page { k.tpr page with free := false }, l⟩)
  else .error (.assertFailed "tpr[page].free")

def freePhysicalPage (s : PhysMemImpl) (num_page : Nat) : Except Stop PhysMemImpl :=
  let e := s.kernel.tpr num_page
  if e.free then .error (.assertFailed "!tpr[num_page].free") else
  match e.owner with
  | none => .error (.nullDeref "tpr[num_page].owner")
  | some owner =>
    let k₁ := s.kernel.setTpr num_page { e with free := true, locked := false }
    let k₂ := match k₁.addrspaces owner with
      | none => k₁
      | some t => k₁.setTable owner (t.clearBitValid e.virtualPage)
    .ok ⟨k₂, s.free_page_list.prepend num_page⟩

def unlockPage (s : PhysMemImpl) (num_page : Nat) : Except Stop PhysMemImpl :=
  (NachosVm.unlockPage cfg s.kernel num_page).map fun k => { s with kernel := k }

def setTPREntry (s : PhysMemImpl) (pp virtualpage : Nat) (owner : Option Nat) (locked : Bool) :
    PhysMemImpl :=
  { s with kernel := NachosVm.setTPREntry s.kernel pp virtualpage owner locked }

/-- The loop of `PhysicalMemManager::~PhysicalMemManager`, on fuel:
`while (!free_page_list.IsEmpty()) free_page_list.Remove();`. `none` is a loop still running. -/
def drainFreeList : Nat → LinkedList Nat → Except Stop (Option (LinkedList Nat))
  | 0, _ => .ok none
  | fuel + 1, l =>
    if !l.isEmpty then do
      let (_, l) ← l.remove
      drainFreeList fuel l
    else .ok (some l)

/-- The model's kernel for `s`, when its list holds the elements `as`. -/
@[simps] def toKernel (s : PhysMemImpl) (as : List Nat) : Kernel :=
  { s.kernel with free_page_list := s.free_page_list.items as }

def runCall : PhysMemCall → PhysMemImpl → Except Stop PhysMemImpl
  | .findFreePage, s => s.findFreePage.map Prod.snd
  | .freePhysicalPage p, s => s.freePhysicalPage p
  | .setTPREntry p v o l, s => .ok (s.setTPREntry p v o l)
  | .unlockPage p, s => s.unlockPage cfg p

def runCalls : List PhysMemCall → PhysMemImpl → Except Stop PhysMemImpl
  | [], s => .ok s
  | c :: cs, s => (runCall cfg c s).bind (runCalls cs)

/-! ### Each call does what the model's does -/

section
variable {cfg} {s : PhysMemImpl} {as : List Nat}

theorem holds_appendFrames : ∀ (is : List Nat) {l : LinkedList Nat} {as : List Nat},
    l.Holds as → ∃ l' as', is.foldlM (fun l i => l.append i) l = .ok l' ∧ l'.Holds as' ∧
      l'.items as' = l.items as ++ is
  | [], l, as, h => ⟨l, as, rfl, h, (List.append_nil _).symm⟩
  | i :: is, _, _, h => by
    obtain ⟨l₁, as₁, ha, h₁⟩ := h.append_items i
    obtain ⟨l', as', hr, h', he⟩ := holds_appendFrames is h₁.1
    refine ⟨l', as', by simpa only [List.foldlM_cons, ha] using hr, h', ?_⟩
    rw [he, h₁.2, List.append_assoc, List.singleton_append]

theorem drainFreeList_empties : ∀ {as : List Nat} {l : LinkedList Nat} {fuel : Nat},
    l.Holds as → as.length < fuel → ∃ l', drainFreeList fuel l = .ok (some l') ∧ l'.Holds []
  | _, _, 0, _, hf => absurd hf (Nat.not_lt_zero _)
  | [], l, fuel + 1, h, _ => ⟨l, by simp [drainFreeList, isEmpty, h.first_eq_none], h⟩
  | a :: rest, l, fuel + 1, h, hf => by
    obtain ⟨l₁, hr, h₁, -⟩ := remove_of_cons h
    obtain ⟨l', hl, h'⟩ := @drainFreeList_empties rest l₁ fuel h₁
      (by simp only [List.length_cons] at hf; omega)
    refine ⟨l', ?_, h'⟩
    have he : l.isEmpty = false := by simp [isEmpty, h.first_eq]
    simp only [drainFreeList, he, Bool.not_false, if_true, hr, bind, Except.bind, hl]

theorem physicalMemManager_refines (cells : Nat → ListElement Nat) (free : Nat) (k : Kernel) :
    ∃ s as, physicalMemManager cfg cells free k = .ok s ∧ s.free_page_list.Holds as ∧
      s.toKernel as = NachosVm.physicalMemManager cfg k := by
  obtain ⟨l, as, hl, h, he⟩ := holds_appendFrames (List.range cfg.NumPhysPages)
    (holds_empty cells free)
  refine ⟨_, as, by simp only [physicalMemManager, hl]; rfl, h, ?_⟩
  simp only [toKernel, he]
  rfl

theorem findFreePage_refines (h : s.free_page_list.Holds as) :
    ∃ as', s.findFreePage.map (fun r => (r.1, r.2.toKernel as')) =
        NachosVm.findFreePage (s.toKernel as) ∧
      ∀ p s', s.findFreePage = .ok (p, s') → s'.free_page_list.Holds as' := by
  cases as with
  | nil =>
    have he : s.free_page_list.isEmpty := by rw [h.isEmpty_eq]; rfl
    refine ⟨[], ?_, fun p s' hs => ?_⟩
    · simp only [findFreePage, he, if_true, Except.map]
      exact (findFreePage_nil rfl).symm
    · simp only [findFreePage, he, if_true, Except.ok.injEq, Prod.mk.injEq] at hs
      exact hs.2 ▸ h
  | cons a rest =>
    obtain ⟨l', hr, h', hc, -⟩ := remove_of_cons h
    have he : s.free_page_list.isEmpty = false := by simp [isEmpty, h.first_eq]
    have hl : (s.toKernel (a :: rest)).free_page_list =
        (s.free_page_list.cells a).item :: l'.items rest := by
      simp only [toKernel, items, entries, hc, List.map_cons, List.map_map]
    refine ⟨rest, ?_, fun p s' hs => ?_⟩
    · by_cases hf : (s.kernel.tpr (s.free_page_list.cells a).item).free
      · rw [findFreePage_cons hl hf]
        simp only [findFreePage, he, hr, hf, Kernel.incrMemoryAccess_tpr, bind, Except.bind,
          if_true, Except.map, Bool.false_eq_true, if_false]
        rfl
      · simp only [findFreePage, NachosVm.findFreePage, he, hr, hl, hf, bind, Except.bind,
          Kernel.incrMemoryAccess_tpr, toKernel_tpr, Except.map, Bool.false_eq_true, if_false]
    · simp only [findFreePage, he, hr, bind, Except.bind, Bool.false_eq_true, if_false] at hs
      split at hs
      · cases hs; exact h'
      · cases hs

theorem freePhysicalPage_refines (h : s.free_page_list.Holds as) (num_page : Nat) :
    (s.freePhysicalPage num_page).map (·.toKernel (s.free_page_list.free :: as)) =
        NachosVm.freePhysicalPage (s.toKernel as) num_page ∧
      ∀ s', s.freePhysicalPage num_page = .ok s' →
        s'.free_page_list.Holds (s.free_page_list.free :: as) := by
  obtain ⟨hp, he⟩ := h.prepend num_page
  have hi : (s.free_page_list.prepend num_page).items (s.free_page_list.free :: as) =
      num_page :: s.free_page_list.items as := by
    simp only [items, he, List.map_cons]
  constructor
  · cases hf : (s.kernel.tpr num_page).free
    · cases ho : (s.kernel.tpr num_page).owner with
      | none => simp [freePhysicalPage, NachosVm.freePhysicalPage, hf, ho, Except.map]
      | some owner =>
        simp only [freePhysicalPage, NachosVm.freePhysicalPage, toKernel_tpr, hf, ho,
          Bool.false_eq_true, if_false, Except.map]
        cases ht : s.kernel.addrspaces owner <;>
          simp only [ht, Kernel.setTpr_addrspaces, toKernel_addrspaces] <;>
          rw [toKernel, hi] <;> rfl
    · simp [freePhysicalPage, NachosVm.freePhysicalPage, hf, Except.map]
  · intro s' hs
    dsimp only [freePhysicalPage] at hs
    split at hs
    · cases hs
    · split at hs
      · cases hs
      · cases hs; exact hp

theorem unlockPage_refines (as : List Nat) (num_page : Nat) :
    (s.unlockPage cfg num_page).map (·.toKernel as) =
      NachosVm.unlockPage cfg (s.toKernel as) num_page := by
  simp only [unlockPage, NachosVm.unlockPage, toKernel, apply_ite (Except.map _)]
  rfl

theorem runCall_refines (h : s.free_page_list.Holds as) (c : PhysMemCall) :
    ∃ as', (runCall cfg c s).map (·.toKernel as') = c.run cfg (s.toKernel as) ∧
      ∀ s', runCall cfg c s = .ok s' → s'.free_page_list.Holds as' := by
  cases c with
  | findFreePage =>
    obtain ⟨as', he, hh⟩ := findFreePage_refines h
    refine ⟨as', ?_, fun s' hs => ?_⟩
    · rw [runCall, PhysMemCall.run, ← he]
      cases s.findFreePage <;> rfl
    · obtain ⟨⟨p, s₁⟩, hf, hs⟩ := map_eq_ok hs
      exact hs ▸ hh p s₁ hf
  | freePhysicalPage p => exact ⟨_, freePhysicalPage_refines h p⟩
  | setTPREntry p v o l => exact ⟨as, rfl, fun s' hs => by cases hs; exact h⟩
  | unlockPage p =>
    refine ⟨as, unlockPage_refines as p, fun s' hs => ?_⟩
    obtain ⟨k, -, rfl⟩ := map_eq_ok hs
    exact h

theorem runCalls_refines : ∀ (cs : List PhysMemCall) {s : PhysMemImpl} {as : List Nat},
    s.free_page_list.Holds as → ∃ as', (runCalls cfg cs s).map (·.toKernel as') =
      NachosVm.runCalls cfg cs (s.toKernel as) ∧
      ∀ s', runCalls cfg cs s = .ok s' → s'.free_page_list.Holds as'
  | [], _, as, h => ⟨as, rfl, fun s' hs => by cases hs; exact h⟩
  | c :: cs, s, as, h => by
    obtain ⟨as₁, he, hh⟩ := runCall_refines h c
    cases hr : runCall cfg c s with
    | error e =>
      refine ⟨as, ?_, fun s' hs => by simp [runCalls, hr, Except.bind] at hs⟩
      rw [hr] at he
      simp only [runCalls, NachosVm.runCalls, hr, ← he]
      rfl
    | ok s₁ =>
      obtain ⟨as', he', hh'⟩ := runCalls_refines cs (hh s₁ hr)
      rw [hr] at he
      refine ⟨as', ?_, fun s' hs => hh' s' (by simpa [runCalls, hr, Except.bind] using hs)⟩
      simp only [runCalls, NachosVm.runCalls, hr, ← he]
      exact he'

end

end PhysMemImpl

theorem PhysMemReachable.runCalls {cfg : Config} {k k' : Kernel} {cs : List PhysMemCall}
    (h : PhysMemReachable cfg k) (hcs : ∀ c ∈ cs, c.InRange cfg)
    (hr : runCalls cfg cs k = .ok k') : PhysMemReachable cfg k' := by
  induction cs generalizing k with
  | nil => cases hr; exact h
  | cons c cs ih =>
    obtain ⟨k₁, h₁, hr⟩ := bind_eq_ok hr
    exact ih (.call c h (hcs c (List.mem_cons_self c cs)) h₁)
      (fun c' hc' => hcs c' (List.mem_cons_of_mem c hc')) hr

theorem free_page_list_refines {cfg : Config} (cells : Nat → ListElement Nat) (free : Nat)
    (k₀ : Kernel) (cs : List PhysMemCall) :
    ∃ as, ((PhysMemImpl.physicalMemManager cfg cells free k₀).bind
        (PhysMemImpl.runCalls cfg cs)).map (·.toKernel as) =
        runCalls cfg cs (physicalMemManager cfg k₀) ∧
      ∀ s, (PhysMemImpl.physicalMemManager cfg cells free k₀).bind
          (PhysMemImpl.runCalls cfg cs) = .ok s →
        s.free_page_list.Holds as ∧
        (∃ as', s.findFreePage.map (fun r => (r.1, r.2.toKernel as')) =
          findFreePage (s.toKernel as)) ∧
        ((∀ c ∈ cs, c.InRange cfg) → (s.free_page_list.items as).Nodup ∧
          ∀ i, i ∈ s.free_page_list.items as ↔ i < cfg.NumPhysPages ∧ (s.kernel.tpr i).free) := by
  obtain ⟨s₀, as₀, hc, h₀, hk⟩ := @PhysMemImpl.physicalMemManager_refines cfg cells free k₀
  obtain ⟨as, he, hh⟩ := PhysMemImpl.runCalls_refines cs h₀
  rw [hc]
  refine ⟨as, by rw [← hk]; exact he, fun s hs => ⟨hh s hs, ?_, fun hcs => ?_⟩⟩
  · obtain ⟨as', hf, -⟩ := PhysMemImpl.findFreePage_refines (hh s hs)
    exact ⟨as', hf⟩
  · have hr : PhysMemReachable cfg (s.toKernel as) :=
      (PhysMemReachable.init k₀).runCalls hcs (by rw [← hk, ← he]; exact congrArg _ hs)
    have hx := freeListExact_of_reachable hr
    exact ⟨hx.nodup, hx.mem_iff⟩

def toyCalls : List PhysMemCall :=
  [.findFreePage, .setTPREntry 0 0 (some 0) false, .findFreePage, .freePhysicalPage 0]

theorem free_page_list_refines_toy :
    (∀ c ∈ toyCalls, c.InRange toyConfig) ∧
    ∃ as, ((PhysMemImpl.physicalMemManager toyConfig (fun _ => ⟨none, 0, 0⟩) 0 Kernel.boot).bind
        (PhysMemImpl.runCalls toyConfig toyCalls)).map (·.toKernel as) =
        runCalls toyConfig toyCalls (physicalMemManager toyConfig Kernel.boot) ∧
      ∀ s, (PhysMemImpl.physicalMemManager toyConfig (fun _ => ⟨none, 0, 0⟩) 0 Kernel.boot).bind
          (PhysMemImpl.runCalls toyConfig toyCalls) = .ok s →
        s.free_page_list.Holds as ∧
        (∃ as', s.findFreePage.map (fun r => (r.1, r.2.toKernel as')) =
          findFreePage (s.toKernel as)) ∧
        (s.free_page_list.items as).Nodup ∧
        ∀ i, i ∈ s.free_page_list.items as ↔
          i < toyConfig.NumPhysPages ∧ (s.kernel.tpr i).free := by
  have hin : ∀ c ∈ toyCalls, c.InRange toyConfig := by
    simp [toyCalls, PhysMemCall.InRange, toyConfig]
  obtain ⟨as, he, hs⟩ := free_page_list_refines (fun _ => ⟨none, 0, 0⟩) 0 Kernel.boot toyCalls
  exact ⟨hin, as, he, fun s h => ⟨(hs s h).1, (hs s h).2.1, (hs s h).2.2 hin⟩⟩

end NachosVm
