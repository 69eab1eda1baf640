import NachosVm.Utility.List

/-! `SortedInsert` and `SortedRemove` of `utility/list.h` over whole runs: with these two calls
only, `List<T>` is a priority queue of `(item, key)` entries, where insertion is
`List.orderedInsert` by strict key order, so that entries of equal key leave in the order they
came in. -/

namespace NachosVm

inductive SortedCall (T : Type) where
  | sortedInsert (item : Nat) (sortKey : T)
  | sortedRemove
  deriving DecidableEq, Repr

def SortedCall.inserted {T : Type} : List (SortedCall T) → List (Nat × T)
  | [] => []
  | .sortedInsert item k :: cs => (item, k) :: inserted cs
  | .sortedRemove :: cs => inserted cs

def removedEntry {T : Type} (r : Nat × Option T) : Option (Nat × T) :=
  r.2.map fun k => (r.1, k)

section
variable {T : Type} [LinearOrder T]

/-- `SortedInsert(item, k)` on the queue: `(item, k)` goes in before the first entry whose key is
above `k`. -/
def keyInsert (xs : List (Nat × T)) (item : Nat) (k : T) : List (Nat × T) :=
  xs.orderedInsert (fun x y => x.2 < y.2) (item, k)

def sortedQueueRun : List (SortedCall T) → List (Nat × T) → List (Nat × T) × List (Nat × Option T)
  | [], xs => (xs, [])
  | .sortedInsert item k :: cs, xs => sortedQueueRun cs (keyInsert xs item k)
  | .sortedRemove :: cs, [] => let r := sortedQueueRun cs []; (r.1, (0, none) :: r.2)
  | .sortedRemove :: cs, x :: xs => let r := sortedQueueRun cs xs; (r.1, (x.1, some x.2) :: r.2)

theorem keyInsert_split {pre post : List (Nat × T)} (item : Nat) {k : T}
    (hpre : ∀ x ∈ pre, ¬ k < x.2) (hpost : ∀ x ∈ post.head?, k < x.2) :
    keyInsert (pre ++ post) item k = pre ++ (item, k) :: post := by
  induction pre with
  | nil =>
    cases post with
    | nil => rfl
    | cons y post => exact List.orderedInsert_of_le _ _ (hpost y rfl)
  | cons x pre ih =>
    have hx := hpre x (List.mem_cons_self x pre)
    simp only [keyInsert] at ih ⊢
    rw [List.cons_append, List.cons_append, List.orderedInsert, if_neg hx,
      ih fun y hy => hpre y (List.mem_cons_of_mem x hy)]

theorem keyInsert_sorted {xs : List (Nat × T)} (hs : xs.Sorted fun x y => x.2 ≤ y.2) (item : Nat)
    (k : T) : (keyInsert xs item k).Sorted fun x y => x.2 ≤ y.2 := by
  induction xs with
  | nil => exact List.sorted_singleton _
  | cons x xs ih =>
    obtain ⟨hx, hs⟩ := List.sorted_cons.1 hs
    by_cases hk : k < x.2
    · rw [keyInsert, List.orderedInsert_of_le _ xs (a := (item, k)) (b := x) hk]
      exact List.sorted_cons.2 ⟨List.forall_mem_cons.2 ⟨hk.le, fun y hy => hk.le.trans (hx y hy)⟩,
        List.sorted_cons.2 ⟨hx, hs⟩⟩
    · simp only [keyInsert, List.orderedInsert, if_neg hk] at ih ⊢
      refine List.sorted_cons.2 ⟨fun y hy => ?_, ih hs⟩
      rcases (List.mem_orderedInsert _).1 hy with rfl | hy
      exacts [not_lt.1 hk, hx y hy]

theorem sortedQueueRun_sorted : ∀ (cs : List (SortedCall T)) {xs : List (Nat × T)},
    (xs.Sorted fun x y => x.2 ≤ y.2) → (sortedQueueRun cs xs).1.Sorted fun x y => x.2 ≤ y.2
  | [], _, hs => hs
  | .sortedInsert item k :: cs, _, hs => sortedQueueRun_sorted cs (keyInsert_sorted hs item k)
  | .sortedRemove :: cs, [], hs => sortedQueueRun_sorted cs hs
  | .sortedRemove :: cs, _ :: _, hs => sortedQueueRun_sorted cs hs.of_cons

theorem sortedQueueRun_perm : ∀ (cs : List (SortedCall T)) (xs : List (Nat × T)),
    ((sortedQueueRun cs xs).2.filterMap removedEntry ++ (sortedQueueRun cs xs).1).Perm
      (xs ++ SortedCall.inserted cs)
  | [], xs => by rw [SortedCall.inserted, List.append_nil]; exact List.Perm.refl xs
  | .sortedInsert item k :: cs, xs => by
    refine (sortedQueueRun_perm cs (keyInsert xs item k)).trans ?_
    rw [SortedCall.inserted, ← List.singleton_append, ← List.append_assoc]
    exact ((List.perm_orderedInsert _ _ _).trans (List.perm_append_singleton _ _).symm).append_right _
  | .sortedRemove :: cs, [] => sortedQueueRun_perm cs []
  | .sortedRemove :: cs, x :: xs => (sortedQueueRun_perm cs xs).cons x

end

namespace LinkedList

section
variable {T : Type} [LinearOrder T]

/-- The calls `cs` on the linked list, each `SortedInsert` with `fuel` rounds of its walk: the
list left and what each `SortedRemove` returned; `none` once a walk has run out. -/
def runSorted (fuel : Nat) : List (SortedCall T) → LinkedList T →
    Except Stop (Option (LinkedList T × List (Nat × Option T)))
  | [], l => .ok (some (l, []))
  | .sortedInsert item k :: cs, l => do
    match ← l.sortedInsert fuel item k with
    | some l => runSorted fuel cs l
    | none => return none
  | .sortedRemove :: cs, l => do
    let (thing, key, l) ← l.sortedRemove
    return (← runSorted fuel cs l).map fun r => (r.1, (thing, key) :: r.2)

theorem Holds.keyInsert {l : LinkedList T} {as : List Nat} (h : l.Holds as) (item : Nat) (k : T)
    {fuel : Nat} (hf : as.length ≤ fuel) :
    ∃ l' as', l.sortedInsert fuel item k = .ok (some l') ∧ l'.Holds as' ∧
      entries l'.cells as' = NachosVm.keyInsert (entries l.cells as) item k := by
  obtain ⟨l', pre, post, hl, rfl, hpre, hpost, h', hent⟩ := h.sortedInsert item k hf
  refine ⟨l', _, hl, h', ?_⟩
  rw [hent, entries_append, keyInsert_split]
  · intro x hx
    obtain ⟨a, ha, rfl⟩ := List.mem_map.1 hx
    exact hpre a ha
  · intro x hx
    rw [entries, List.head?_map] at hx
    obtain ⟨b, hb, rfl⟩ := Option.mem_map.1 hx
    exact hpost b hb

theorem runSorted_refines {fuel : Nat} : ∀ (cs : List (SortedCall T)) {l : LinkedList T}
    {as : List Nat}, l.Holds as → as.length + cs.length ≤ fuel →
    ∃ l' as', runSorted fuel cs l = .ok (some (l', (sortedQueueRun cs (entries l.cells as)).2)) ∧
      l'.Holds as' ∧ entries l'.cells as' = (sortedQueueRun cs (entries l.cells as)).1
  | [], l, as, h, _ => ⟨l, as, rfl, h, rfl⟩
  | .sortedInsert item k :: cs, _, as, h, hf => by
    rw [List.length_cons] at hf
    obtain ⟨l₁, as₁, hi, h₁, he⟩ := h.keyInsert item k (show as.length ≤ fuel by omega)
    have hlen : as₁.length = as.length + 1 := by
      simpa [entries, NachosVm.keyInsert, List.orderedInsert_length] using congrArg List.length he
    obtain ⟨l', as', hr, h', hq⟩ := runSorted_refines cs h₁ (show as₁.length + cs.length ≤ fuel by omega)
    rw [he] at hr hq
    exact ⟨l', as', by simpa only [runSorted, hi, bind, Except.bind] using hr, h', hq⟩
  | .sortedRemove :: cs, _, [], h, hf => by
    rw [List.length_cons] at hf
    obtain ⟨l', as', hr, h', hq⟩ := runSorted_refines cs h (show [].length + cs.length ≤ fuel by omega)
    exact ⟨l', as', by simp only [runSorted, sortedRemove_of_nil h, hr, bind, Except.bind]; rfl,
      h', hq⟩
  | .sortedRemove :: cs, _, a :: rest, h, hf => by
    rw [List.length_cons, List.length_cons] at hf
    obtain ⟨l₁, hrm, h₁, hc, -⟩ := sortedRemove_of_cons h
    obtain ⟨l', as', hr, h', hq⟩ := runSorted_refines cs h₁ (show rest.length + cs.length ≤ fuel by omega)
    rw [hc] at hr hq
    exact ⟨l', as', by simp only [runSorted, hrm, hr, bind, Except.bind]; rfl, h', hq⟩

theorem sorted_queue_run (cs : List (SortedCall T)) {l : LinkedList T} {as : List Nat}
    (h : l.Holds as) {fuel : Nat} (hf : as.length + cs.length ≤ fuel) :
    ∃ l' as', runSorted fuel cs l = .ok (some (l', (sortedQueueRun cs (entries l.cells as)).2)) ∧
      l'.Holds as' ∧ entries l'.cells as' = (sortedQueueRun cs (entries l.cells as)).1 ∧
      ((sortedQueueRun cs (entries l.cells as)).2.filterMap removedEntry ++
        entries l'.cells as').Perm (entries l.cells as ++ SortedCall.inserted cs) ∧
      ((entries l.cells as).Sorted (fun x y => x.2 ≤ y.2) →
        (entries l'.cells as').Sorted (fun x y => x.2 ≤ y.2) ∧
        ∀ x ∈ (entries l'.cells as').head?, ∃ l'', l'.sortedRemove = .ok (x.1, some x.2, l'') ∧
          ∀ y ∈ entries l'.cells as', x.2 ≤ y.2) := by
  obtain ⟨l', as', hr, h', hq⟩ := runSorted_refines cs h hf
  refine ⟨l', as', hr, h', hq, hq ▸ sortedQueueRun_perm cs _, fun hs => ?_⟩
  have hs' : (entries l'.cells as').Sorted fun x y => x.2 ≤ y.2 := hq ▸ sortedQueueRun_sorted cs hs
  refine ⟨hs', fun x hx => ?_⟩
  obtain ⟨l'', hrm, -, -, hle⟩ := h'.sortedRemove_least hs' hx
  exact ⟨l'', hrm, hle⟩

end

theorem sorted_queue_run_three :
    threeItems.Holds [0, 1, 2] ∧ [0, 1, 2].length + 4 ≤ 7 ∧
      ∃ l' as', threeItems.runSorted 7
          [.sortedInsert 7 1, .sortedRemove, .sortedInsert 8 0, .sortedRemove] =
          .ok (some (l', [(1, some 0), (8, some 0)])) ∧
        l'.Holds as' ∧ entries l'.cells as' = [(2, 1), (7, 1), (3, 2)] ∧
        ∃ l'', l'.sortedRemove = .ok (2, some 1, l'') := by
  obtain ⟨l', as', hr, h', hq, -, hs⟩ := sorted_queue_run
    [.sortedInsert 7 1, .sortedRemove, .sortedInsert 8 0, .sortedRemove] holds_threeItems
    (show [0, 1, 2].length + 4 ≤ 7 by decide)
  have hq' : entries l'.cells as' = [(2, 1), (7, 1), (3, 2)] := hq.trans (by decide)
  obtain ⟨-, hrm⟩ := hs (by decide)
  obtain ⟨l'', hrm, -⟩ := hrm (2, 1) (by rw [hq']; rfl)
  exact ⟨holds_threeItems, by decide, l', as', hr.trans rfl, h', hq', l'', hrm⟩

end LinkedList

end NachosVm
