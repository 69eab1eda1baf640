import Mathlib.Algebra.Order.Ring.Nat
import Mathlib.Data.List.Sort
import NachosVm.Machine.Config

/-! The singly linked `List<T>` of `utility/list.h`. List elements live in a heap of cells
addressed by naturals; a pointer is an `Option Nat`, `none` being `NULL`. Items are
`void *`: naturals, with `NULL = 0`. `new` is a bump allocator: it returns a cell that no
live element uses, which is all the list code relies on, since a cell `delete` frees is no
longer reachable. The list a heap holds is read through `Path`, the cells met by following
`next` pointers. -/
namespace NachosVm

structure ListElement (T : Type) where
  next : Option Nat
  key : T
  item : Nat

/-- `List<T>` with the heap of its elements: `first`, `last`, the cells and the next free
cell. Named so as not to hide Lean's `List`. -/
structure LinkedList (T : Type) where
  first : Option Nat
  last : Option Nat
  cells : Nat → ListElement T
  free : Nat

section
variable {T : Type}

def Path (c : Nat → ListElement T) : Option Nat → List Nat → Option Nat → Prop
  | p, [], q => p = q
  | p, a :: as, q => p = some a ∧ Path c (c a).next as q

def entries (c : Nat → ListElement T) (as : List Nat) : List (Nat × T) :=
  as.map fun a => ((c a).item, (c a).key)

def LinkedList.items (l : LinkedList T) (as : List Nat) : List Nat :=
  (entries l.cells as).map Prod.fst

/-- `l` holds the elements `as`, in order: `first` starts the path through them to `NULL`,
`last` names the final one, and every one of them has been allocated. -/
structure LinkedList.Holds (l : LinkedList T) (as : List Nat) : Prop where
  path : Path l.cells l.first as none
  last : l.last = as.getLast?
  lt_free : ∀ a ∈ as, a < l.free

namespace LinkedList

def empty (cells : Nat → ListElement T) (free : Nat) : LinkedList T := ⟨none, none, cells, free⟩

@[simps] def newElement (l : LinkedList T) (item : Nat) (sortKey : T) : Nat × LinkedList T :=
  (l.free, { l with
    cells := Function.update l.cells l.free ⟨none, sortKey, item⟩
    free := l.free + 1 })

@[simps] def setNext (l : LinkedList T) (p : Nat) (n : Option Nat) : LinkedList T :=
  { l with cells := Function.update l.cells p { l.cells p with next := n } }

def isEmpty (l : LinkedList T) : Bool := l.first.isNone

def prepend [Zero T] (l : LinkedList T) (item : Nat) : LinkedList T :=
  let (element, l) := l.newElement item 0
  if l.isEmpty then { l with first := some element, last := some element }
  else { l.setNext element l.first with first := some element }

def append [Zero T] (l : LinkedList T) (item : Nat) : Except Stop (LinkedList T) :=
  let (element, l) := l.newElement item 0
  if l.isEmpty then .ok { l with first := some element, last := some element }
  else
    match l.last with
    | some p => .ok { l.setNext p (some element) with last := some element }
    | none => .error (.nullDeref "last")

/-- `SortedRemove(keyPtr)`: the item removed (`NULL` on an empty list), the key stored in
`*keyPtr` (`none` when it is left alone) and the list left. -/
def sortedRemove (l : LinkedList T) : Except Stop (Nat × Option T × LinkedList T) :=
  match l.first with
  | none => .ok (0, none, l)
  | some element =>
    if l.first = (l.cells element).next then .error (.assertFailed "first != first->next")
    else
      let thing := (l.cells element).item
      let l' := if l.first = l.last then { l with first := none, last := none }
        else { l with first := (l.cells element).next }
      .ok (thing, some (l.cells element).key, l')

def remove (l : LinkedList T) : Except Stop (Nat × LinkedList T) := do
  let (thing, _, l) ← l.sortedRemove
  return (thing, l)

def removeItem [Zero T] (item : Nat) : Nat → LinkedList T → Except Stop (Option (LinkedList T))
  | 0, _ => .ok none
  | fuel + 1, l => do
    let (temp, l) ← l.remove
    if temp ≠ item then removeItem item fuel (← l.append temp)
    else return some l

/-- The loop of `Search(item)` from `element`: move on while `element != last` and
`element->item != item`, dereferencing `next` as it stands. -/
def searchLoop (item : Nat) : Nat → LinkedList T → Nat → Except Stop (Option Bool)
  | 0, _, _ => .ok none
  | fuel + 1, l, element =>
    if some element ≠ l.last ∧ (l.cells element).item ≠ item then
      match (l.cells element).next with
      | some n => searchLoop item fuel l n
      | none => .error (.nullDeref "element")
    else .ok (some (decide ((l.cells element).item = item)))

def search (fuel : Nat) (l : LinkedList T) (item : Nat) : Except Stop (Option Bool) :=
  match l.first with
  | none => .ok (some false)
  | some element => searchLoop item fuel l element

section
variable [LinearOrder T]

/-- The walk of `SortedInsert` from `ptr`, for the new element `element` of key `sortKey`: link
it in before the first `ptr->next` whose key exceeds `sortKey`, or after `last` when the walk
reaches the end of the list. -/
def sortedInsertLoop (sortKey : T) (element : Nat) :
    Nat → LinkedList T → Nat → Except Stop (Option (LinkedList T))
  | 0, _, _ => .ok none
  | fuel + 1, l, ptr =>
    match (l.cells ptr).next with
    | some q =>
      if sortKey < (l.cells q).key then
        .ok (some ((l.setNext element (some q)).setNext ptr (some element)))
      else sortedInsertLoop sortKey element fuel l q
    | none =>
      match l.last with
      | some p => .ok (some { l.setNext p (some element) with last := some element })
      | none => .error (.nullDeref "last")

def sortedInsert (fuel : Nat) (l : LinkedList T) (item : Nat) (sortKey : T) :
    Except Stop (Option (LinkedList T)) :=
  let (element, l) := l.newElement item sortKey
  match l.first with
  | none => .ok (some { l with first := some element, last := some element })
  | some f =>
    if sortKey < (l.cells f).key then
      .ok (some { l.setNext element (some f) with first := some element })
    else sortedInsertLoop sortKey element fuel l f

end

end LinkedList

end

/-! ### Paths through the heap -/

section
variable {T : Type} {c : Nat → ListElement T}

@[simp] theorem path_nil {p q : Option Nat} : Path c p [] q ↔ p = q := Iff.rfl

@[simp] theorem path_cons {p q : Option Nat} {a : Nat} {as : List Nat} :
    Path c p (a :: as) q ↔ p = some a ∧ Path c (c a).next as q := Iff.rfl

theorem path_append {as bs : List Nat} :
    ∀ {p r : Option Nat}, Path c p (as ++ bs) r ↔ ∃ q, Path c p as q ∧ Path c q bs r := by
  induction as with
  | nil => simp
  | cons a as ih =>
    intro p r
    simp only [List.cons_append, path_cons, ih, and_assoc, exists_and_left]

theorem path_update {a : Nat} {v : ListElement T} :
    ∀ {as : List Nat} {p q : Option Nat}, a ∉ as →
      (Path (Function.update c a v) p as q ↔ Path c p as q)
  | [], _, _, _ => Iff.rfl
  | b :: as, _, _, h => by
    have hb : b ≠ a := fun e => h (e ▸ List.mem_cons_self b as)
    simp only [path_cons, Function.update_noteq hb,
      path_update (fun h' => h (List.mem_cons_of_mem b h'))]

theorem path_unique : ∀ {as bs : List Nat} {p : Option Nat},
    Path c p as none → Path c p bs none → as = bs
  | [], [], _, _, _ => rfl
  | [], b :: _, _, h, h' => (Option.some_ne_none b (h'.1.symm.trans h)).elim
  | a :: _, [], _, h, h' => (Option.some_ne_none a (h.1.symm.trans h')).elim
  | a :: _, b :: _, _, h, h' => by
    obtain rfl : a = b := Option.some.inj (h.1.symm.trans h'.1)
    rw [path_unique h.2 h'.2]

theorem path_nodup : ∀ {as : List Nat} {p : Option Nat}, Path c p as none → as.Nodup
  | [], _, _ => List.nodup_nil
  | a :: as, _, h => by
    refine List.nodup_cons.2 ⟨fun ha => ?_, path_nodup h.2⟩
    obtain ⟨s, t, rfl⟩ := List.append_of_mem ha
    obtain ⟨q, -, hq⟩ := path_append.1 h.2
    have hlen := congrArg List.length (path_unique h.2 (path_cons.1 hq).2)
    simp only [List.length_append, List.length_cons] at hlen
    omega

@[simp] theorem entries_nil : entries c [] = [] := rfl

@[simp] theorem entries_cons {a : Nat} {as : List Nat} :
    entries c (a :: as) = ((c a).item, (c a).key) :: entries c as := rfl

@[simp] theorem entries_append {as bs : List Nat} :
    entries c (as ++ bs) = entries c as ++ entries c bs := List.map_append _ _ _

theorem path_head : ∀ {as : List Nat} {p : Option Nat}, Path c p as none → p = as.head?
  | [], _, h => h
  | _ :: _, _, h => h.1

theorem entries_congr {c' : Nat → ListElement T} {as : List Nat}
    (h : ∀ a ∈ as, (c' a).item = (c a).item ∧ (c' a).key = (c a).key) :
    entries c' as = entries c as :=
  List.map_congr_left fun a ha => by rw [(h a ha).1, (h a ha).2]

end

/-! ### The list a heap holds -/

namespace LinkedList

section
variable {T : Type} {l : LinkedList T} {as : List Nat}

theorem Holds.nodup (h : l.Holds as) : as.Nodup := path_nodup h.path

theorem holds_empty (cells : Nat → ListElement T) (free : Nat) : (empty cells free).Holds [] :=
  ⟨rfl, rfl, nofun⟩

theorem Holds.first_eq_none (h : l.Holds []) : l.first = none := h.path

@[simp] theorem setNext_item (p : Nat) (n : Option Nat) (a : Nat) :
    ((l.setNext p n).cells a).item = (l.cells a).item := by
  by_cases ha : a = p <;> simp [Function.update_apply, ha]

@[simp] theorem setNext_key (p : Nat) (n : Option Nat) (a : Nat) :
    ((l.setNext p n).cells a).key = (l.cells a).key := by
  by_cases ha : a = p <;> simp [Function.update_apply, ha]

theorem Holds.free_not_mem (h : l.Holds as) : l.free ∉ as := fun hm =>
  Nat.lt_irrefl _ (h.lt_free _ hm)

theorem Holds.lt_free_of_subset (h : l.Holds as) {e : Nat} (hf : e < l.free) {bs : List Nat}
    (hbs : bs ⊆ e :: as) : ∀ a ∈ bs, a < l.free := fun a ha =>
  (List.mem_cons.1 (hbs ha)).elim (fun he => he ▸ hf) (h.lt_free a)

theorem Holds.newElement (h : l.Holds as) (item : Nat) (sortKey : T) :
    (l.newElement item sortKey).2.Holds as :=
  ⟨(path_update h.free_not_mem).2 h.path, h.last, fun a ha => Nat.lt_succ_of_lt (h.lt_free a ha)⟩

theorem holds_newElement_single (item : Nat) (sortKey : T) :
    ({ (l.newElement item sortKey).2 with first := some l.free, last := some l.free } :
      LinkedList T).Holds [l.free] :=
  ⟨⟨rfl, by simp⟩, rfl, fun a ha => by rw [List.mem_singleton.1 ha]; exact Nat.lt_succ_self _⟩

theorem entries_newElement {bs : List Nat} (hbs : ∀ a ∈ bs, a < l.free) (item : Nat)
    (sortKey : T) : entries (l.newElement item sortKey).2.cells bs = entries l.cells bs := by
  refine entries_congr fun a ha => ?_
  simp [Function.update_noteq (Nat.ne_of_lt (hbs a ha))]

theorem entries_newElement_insert {pre post : List Nat} (hpre : ∀ a ∈ pre, a < l.free)
    (hpost : ∀ a ∈ post, a < l.free) (item : Nat) (sortKey : T) :
    entries (l.newElement item sortKey).2.cells (pre ++ l.free :: post) =
      entries l.cells pre ++ (item, sortKey) :: entries l.cells post := by
  rw [entries_append, entries_cons, entries_newElement hpre, entries_newElement hpost]
  simp

@[simp] theorem entries_setNext (p : Nat) (n : Option Nat) (bs : List Nat) :
    entries (l.setNext p n).cells bs = entries l.cells bs :=
  entries_congr fun a _ => ⟨setNext_item p n a, setNext_key p n a⟩

theorem Holds.first_eq (h : l.Holds as) : l.first = as.head? := path_head h.path

theorem Holds.next_eq {pre rest : List Nat} {ptr : Nat} (h : l.Holds (pre ++ ptr :: rest)) :
    (l.cells ptr).next = rest.head? := by
  obtain ⟨q, -, rfl, hq⟩ := path_append.1 h.path
  exact path_head hq

theorem Holds.linkFront (h : l.Holds as) (hne : as ≠ []) {e : Nat} (he : e ∉ as)
    (hf : e < l.free) : ({ l.setNext e l.first with first := some e } : LinkedList T).Holds (e :: as) := by
  refine ⟨⟨rfl, ?_⟩, ?_, ?_⟩
  · simpa [Function.update_same] using (path_update he).2 h.path
  · obtain ⟨b, bs, rfl⟩ := List.exists_cons_of_ne_nil hne
    simpa using h.last
  · exact h.lt_free_of_subset hf (List.Subset.refl _)

theorem Holds.linkBack (h : l.Holds as) {p : Nat} (hp : l.last = some p) {e : Nat}
    (he : e ∉ as) (hf : e < l.free) (hnext : (l.cells e).next = none) :
    ({ l.setNext p (some e) with last := some e } : LinkedList T).Holds (as ++ [e]) := by
  obtain ⟨as₀, rfl⟩ := List.getLast?_eq_some_iff.1 (h.last ▸ hp)
  have hp₀ : p ∉ as₀ := fun hm => (List.nodup_append.1 h.nodup).2.2 hm (List.mem_singleton_self p)
  have hep : e ≠ p := by
    rintro rfl
    exact he (List.mem_append_right _ (List.mem_singleton_self _))
  obtain ⟨q, hq₀, rfl, hq⟩ := path_append.1 h.path
  refine ⟨path_append.2 ⟨some e, path_append.2 ⟨some p, (path_update hp₀).2 hq₀, ?_⟩, ?_⟩,
    by simp, ?_⟩
  · simp
  · simp [Function.update_noteq hep, hnext]
  · exact h.lt_free_of_subset hf (List.perm_append_singleton e _).subset

theorem Holds.linkAfter {pre post : List Nat} {ptr q : Nat}
    (h : l.Holds (pre ++ ptr :: q :: post)) {e : Nat} (he : e ∉ pre ++ ptr :: q :: post)
    (hf : e < l.free) :
    ((l.setNext e (some q)).setNext ptr (some e)).Holds (pre ++ ptr :: e :: q :: post) := by
  have hnd := List.nodup_middle.1 h.nodup
  have hptr : ptr ∉ pre ++ q :: post := (List.nodup_cons.1 hnd).1
  have hpq : ptr ∉ pre ∧ ptr ≠ q ∧ ptr ∉ post := by simpa using hptr
  have heq : e ∉ pre ∧ e ≠ ptr ∧ e ≠ q ∧ e ∉ post := by simpa using he
  obtain ⟨r, hr, rfl, hptr_next, hq_post⟩ := path_append.1 h.path
  refine ⟨path_append.2 ⟨some ptr, ?_, ?_⟩, ?_, ?_⟩
  · exact (path_update hpq.1).2 ((path_update heq.1).2 hr)
  · simp only [path_cons, setNext_cells, Function.update_same, Function.update_noteq heq.2.1,
      Function.update_noteq (Ne.symm hpq.2.1), Function.update_noteq (Ne.symm heq.2.2.1),
      true_and]
    exact (path_update hpq.2.2).2 ((path_update heq.2.2.2).2 hq_post)
  · simpa using h.last
  · have hp : List.Perm (pre ++ ptr :: e :: q :: post) (e :: (pre ++ ptr :: q :: post)) := by
      simpa using @List.perm_middle _ e (pre ++ [ptr]) (q :: post)
    exact h.lt_free_of_subset hf hp.subset

/-! ### The operations on a list held in the heap -/

theorem sortedRemove_of_nil (h : l.Holds []) : l.sortedRemove = .ok (0, none, l) := by
  rw [sortedRemove, h.first_eq_none]

theorem sortedRemove_of_cons {a : Nat} (h : l.Holds (a :: as)) :
    ∃ l', l.sortedRemove = .ok ((l.cells a).item, some (l.cells a).key, l') ∧ l'.Holds as ∧
      l'.cells = l.cells ∧ l'.free = l.free := by
  obtain ⟨hfirst, hpath⟩ := h.path
  have ha : a ∉ as := (List.nodup_cons.1 h.nodup).1
  have hnext : l.first ≠ (l.cells a).next := by
    rw [hfirst]
    cases as with
    | nil => exact fun h' => Option.some_ne_none a (h'.trans hpath)
    | cons b bs => exact fun h' => ha (List.mem_cons.2 (.inl (Option.some.inj (h'.trans hpath.1))))
  have hlt : ∀ b ∈ as, b < l.free := fun b hb => h.lt_free b (List.mem_cons_of_mem a hb)
  cases as with
  | nil =>
    refine ⟨{ l with first := none, last := none }, ?_, ⟨rfl, rfl, nofun⟩, rfl, rfl⟩
    simp [sortedRemove, hfirst, h.last, path_nil.1 hpath]
  | cons b bs =>
    have hlast : l.first ≠ l.last := by
      rw [hfirst, h.last, List.getLast?_cons_cons]
      intro h'
      exact ha (List.mem_of_getLast?_eq_some h'.symm)
    refine ⟨{ l with first := (l.cells a).next }, ?_, ⟨hpath, by simpa using h.last, hlt⟩, rfl, rfl⟩
    rw [sortedRemove]
    simp only [hfirst, if_neg (hfirst ▸ hnext), if_neg (hfirst ▸ hlast)]

theorem remove_of_nil (h : l.Holds []) : l.remove = .ok (0, l) := by
  rw [remove, sortedRemove_of_nil h]
  rfl

theorem remove_of_cons {a : Nat} (h : l.Holds (a :: as)) :
    ∃ l', l.remove = .ok ((l.cells a).item, l') ∧ l'.Holds as ∧ l'.cells = l.cells ∧
      l'.free = l.free := by
  obtain ⟨l', hr, h'⟩ := sortedRemove_of_cons h
  exact ⟨l', by rw [remove, hr]; rfl, h'⟩

theorem Holds.append [Zero T] (h : l.Holds as) (item : Nat) :
    ∃ l', l.append item = .ok l' ∧ l'.Holds (as ++ [l.free]) ∧
      entries l'.cells (as ++ [l.free]) = entries l.cells as ++ [(item, 0)] ∧
      l'.free = l.free + 1 := by
  have h₁ := h.newElement item 0
  have hfree : l.free ∉ as := h.free_not_mem
  have hent : entries (l.newElement item 0).2.cells as = entries l.cells as :=
    entries_newElement h.lt_free item 0
  by_cases hne : as = []
  · subst hne
    refine ⟨{ (l.newElement item 0).2 with first := some l.free, last := some l.free }, ?_,
      holds_newElement_single item 0, by simp, rfl⟩
    simp [LinkedList.append, isEmpty, h.first_eq_none]
  · obtain ⟨p, hp⟩ : ∃ p, l.last = some p := Option.ne_none_iff_exists'.1
      (by rw [h.last, Ne, List.getLast?_eq_none_iff]; exact hne)
    have hpf : l.free ≠ p := fun e => hfree (e ▸ List.mem_of_getLast?_eq_some (h.last ▸ hp))
    have hfirst : l.first ≠ none := by rw [h.first_eq]; simpa using hne
    refine ⟨{ (l.newElement item 0).2.setNext p (some l.free) with last := some l.free }, ?_,
      h₁.linkBack hp hfree (Nat.lt_succ_self _) (by simp),
      by simp [hent, Function.update_noteq hpf], rfl⟩
    simp [LinkedList.append, isEmpty, Option.isNone_iff_eq_none.not.2 hfirst, hp]

theorem Holds.prepend [Zero T] (h : l.Holds as) (item : Nat) :
    (l.prepend item).Holds (l.free :: as) ∧
      entries (l.prepend item).cells (l.free :: as) = (item, 0) :: entries l.cells as := by
  have hfree : l.free ∉ as := h.free_not_mem
  have hent : entries (l.newElement item 0).2.cells as = entries l.cells as :=
    entries_newElement h.lt_free item 0
  by_cases hne : as = []
  · subst hne
    simp only [LinkedList.prepend, isEmpty, newElement_snd_first, h.first_eq_none,
      Option.isNone_none, if_true]
    exact ⟨holds_newElement_single item 0, by simp⟩
  · have hfirst : l.first ≠ none := by rw [h.first_eq]; simpa using hne
    simp only [LinkedList.prepend, isEmpty, newElement_snd_first,
      Option.isNone_iff_eq_none.not.2 hfirst, if_false, Bool.false_eq_true]
    exact ⟨(h.newElement item 0).linkFront hne hfree (Nat.lt_succ_self _), by simp [hent]⟩

/-! ### `RemoveItem` -/

theorem removeItem_rotate [Zero T] {x temp fuel : Nat} {l₁ l₂ : LinkedList T}
    (hr : l.remove = .ok (temp, l₁)) (hne : temp ≠ x) (ha : l₁.append temp = .ok l₂) :
    l.removeItem x (fuel + 1) = l₂.removeItem x fuel := by
  rw [removeItem, hr]
  simp only [bind, Except.bind, if_pos hne, ha]

theorem removeItem_hit [Zero T] {x fuel : Nat} {l₁ : LinkedList T}
    (hr : l.remove = .ok (x, l₁)) : l.removeItem x (fuel + 1) = .ok (some l₁) := by
  rw [removeItem, hr]
  simp only [bind, Except.bind, ne_eq, not_true_eq_false, if_false]
  rfl

theorem removeItem_found [Zero T] {x : Nat} {kx : T} :
    ∀ (pre : List (Nat × T)) {l : LinkedList T} {as : List Nat} (post : List (Nat × T))
      (fuel : Nat), l.Holds as → entries l.cells as = pre ++ (x, kx) :: post →
      x ∉ pre.map Prod.fst → pre.length < fuel →
      ∃ l' as', l.removeItem x fuel = .ok (some l') ∧ l'.Holds as' ∧
        entries l'.cells as' = post ++ pre.map fun y => (y.1, 0) := by
  intro pre
  induction pre with
  | nil =>
    intro l as post fuel h hxs _ hf
    obtain ⟨f, rfl⟩ : ∃ f, fuel = f + 1 := ⟨fuel - 1, by simp only [List.length_cons, List.length_nil] at hf; omega⟩
    obtain _ | ⟨a, as⟩ := as
    · simp at hxs
    simp only [entries_cons, List.nil_append, List.cons.injEq, Prod.mk.injEq] at hxs
    obtain ⟨l₁, hr, h₁, hc, -⟩ := remove_of_cons h
    refine ⟨l₁, as, ?_, h₁, by simp [hc, hxs.2]⟩
    rw [hxs.1.1] at hr
    exact removeItem_hit hr
  | cons y pre ih =>
    intro l as post fuel h hxs hx hf
    obtain ⟨f, rfl⟩ : ∃ f, fuel = f + 1 := ⟨fuel - 1, by simp only [List.length_cons, List.length_nil] at hf; omega⟩
    obtain _ | ⟨a, as⟩ := as
    · simp at hxs
    simp only [entries_cons, List.cons_append, List.cons.injEq] at hxs
    simp only [List.map_cons, List.mem_cons, not_or] at hx
    obtain ⟨l₁, hr, h₁, hc, -⟩ := remove_of_cons h
    obtain ⟨l₂, ha, h₂, he₂, -⟩ := h₁.append (l.cells a).item
    have hy : (l.cells a).item ≠ x := fun e => hx.1 (by rw [← e, ← hxs.1])
    obtain ⟨l', as', hl, h', he'⟩ := ih (post ++ [(y.1, 0)]) f h₂
      (by rw [he₂, hc, hxs.2, ← hxs.1]; simp) hx.2 (by simp only [List.length_cons, List.length_nil] at hf; omega)
    exact ⟨l', as', by rw [removeItem_rotate hr hy ha, hl], h', by simp [he']⟩

theorem removeItem_absent [Zero T] {x : Nat} :
    ∀ (fuel : Nat) {l : LinkedList T} {as : List Nat}, l.Holds as →
      x ∉ (entries l.cells as).map Prod.fst → (as ≠ [] ∨ x ≠ 0) →
      l.removeItem x fuel = .ok none := by
  intro fuel
  induction fuel with
  | zero => intros; rfl
  | succ f ih =>
    intro l as h hx hne
    obtain _ | ⟨a, as⟩ := as
    · have hx0 : (0 : Nat) ≠ x := fun e => hne.resolve_left (fun h' => h' rfl) e.symm
      obtain ⟨l₂, ha, h₂, he₂, -⟩ := h.append 0
      rw [removeItem_rotate (remove_of_nil h) hx0 ha]
      exact ih h₂ (by rw [he₂]; simpa using hx0.symm) (.inl (by simp))
    · simp only [entries_cons, List.map_cons, List.mem_cons, not_or] at hx
      obtain ⟨l₁, hr, h₁, hc, -⟩ := remove_of_cons h
      obtain ⟨l₂, ha, h₂, he₂, -⟩ := h₁.append (l.cells a).item
      rw [removeItem_rotate hr (Ne.symm hx.1) ha]
      refine ih h₂ ?_ (.inl (by simp))
      rw [he₂, hc]
      simp only [List.map_append, List.map_cons, List.map_nil, List.mem_append,
        List.mem_singleton, not_or]
      exact ⟨hx.2, hx.1⟩

theorem removeItem_empty_null [Zero T] (h : l.Holds []) (fuel : Nat) :
    l.removeItem 0 (fuel + 1) = .ok (some l) :=
  removeItem_hit (remove_of_nil h)

/-! ### `Search` -/

theorem searchLoop_holds (item : Nat) : ∀ (rest pre : List Nat) (ptr fuel : Nat),
    l.Holds (pre ++ ptr :: rest) → rest.length < fuel →
    searchLoop item fuel l ptr = .ok (some (decide (item ∈ l.items (ptr :: rest))))
  | [], pre, ptr, fuel, h, hf => by
    obtain ⟨f, rfl⟩ : ∃ f, fuel = f + 1 := ⟨fuel - 1, by simp only [List.length_nil] at hf; omega⟩
    have hp : l.last = some ptr := by rw [h.last]; simp
    rw [searchLoop, if_neg (fun h' => h'.1 hp.symm)]
    simp [items, entries, eq_comm]
  | q :: rest, pre, ptr, fuel, h, hf => by
    obtain ⟨f, rfl⟩ : ∃ f, fuel = f + 1 :=
      ⟨fuel - 1, by simp only [List.length_cons] at hf; omega⟩
    have hp : some ptr ≠ l.last := fun e => by
      have hq : ptr ∈ q :: rest := List.mem_of_getLast?_eq_some (by simpa [h.last] using e.symm)
      exact (List.nodup_cons.1 (List.nodup_middle.1 h.nodup)).1 (List.mem_append_right _ hq)
    have hn : (l.cells ptr).next = some q := by simpa using h.next_eq
    by_cases hi : (l.cells ptr).item = item
    · rw [searchLoop, if_neg (fun h' => h'.2 hi)]
      simp [items, entries, hi]
    · rw [searchLoop, if_pos ⟨hp, hi⟩, hn]
      dsimp only
      rw [searchLoop_holds item rest (pre ++ [ptr]) q f (by simpa using h)
        (by simp only [List.length_cons] at hf; omega)]
      simp [items, entries, hi, Ne.symm hi]

theorem Holds.search (h : l.Holds as) (item : Nat) {fuel : Nat} (hf : as.length ≤ fuel) :
    l.search fuel item = .ok (some (decide (item ∈ l.items as))) := by
  obtain _ | ⟨a, rest⟩ := as
  · simp [LinkedList.search, h.first_eq_none, items]
  · rw [LinkedList.search, show l.first = some a by simpa using h.first_eq]
    exact searchLoop_holds item rest [] a fuel h (by simp only [List.length_cons] at hf; omega)

/-! ### `SortedInsert` -/

section
variable [LinearOrder T] {k : T} {e ptr q fuel : Nat}

theorem sortedInsertLoop_before (hn : (l.cells ptr).next = some q) (hk : k < (l.cells q).key) :
    sortedInsertLoop k e (fuel + 1) l ptr =
      .ok (some ((l.setNext e (some q)).setNext ptr (some e))) := by
  rw [sortedInsertLoop, hn]
  simp only [if_pos hk]

theorem sortedInsertLoop_past (hn : (l.cells ptr).next = some q) (hk : ¬ k < (l.cells q).key) :
    sortedInsertLoop k e (fuel + 1) l ptr = sortedInsertLoop k e fuel l q := by
  rw [sortedInsertLoop, hn]
  simp only [if_neg hk]

theorem sortedInsertLoop_end {p : Nat} (hn : (l.cells ptr).next = none) (hp : l.last = some p) :
    sortedInsertLoop k e (fuel + 1) l ptr =
      .ok (some { l.setNext p (some e) with last := some e }) := by
  rw [sortedInsertLoop, hn, hp]

theorem sortedInsertLoop_links (hnext : (l.cells e).next = none) (hf : e < l.free) :
    ∀ (rest pre : List Nat) (ptr fuel : Nat), l.Holds (pre ++ ptr :: rest) →
      e ∉ pre ++ ptr :: rest → rest.length < fuel →
      ∃ l' post₁ post₂, sortedInsertLoop k e fuel l ptr = .ok (some l') ∧
        rest = post₁ ++ post₂ ∧ (∀ a ∈ post₁, ¬ k < (l.cells a).key) ∧
        (∀ b ∈ post₂.head?, k < (l.cells b).key) ∧
        l'.Holds (pre ++ ptr :: post₁ ++ e :: post₂) ∧
        ∀ bs, entries l'.cells bs = entries l.cells bs
  | [], pre, ptr, fuel, h, he, hfuel => by
    obtain ⟨f, rfl⟩ : ∃ f, fuel = f + 1 := ⟨fuel - 1, by simp only [List.length_cons, List.length_nil] at hfuel; omega⟩
    have hp : l.last = some ptr := by rw [h.last]; simp
    exact ⟨_, [], [], sortedInsertLoop_end (by simpa using h.next_eq) hp, rfl, nofun, nofun,
      by simpa using h.linkBack hp he hf hnext, fun bs => by simp⟩
  | q :: rest, pre, ptr, fuel, h, he, hfuel => by
    obtain ⟨f, rfl⟩ : ∃ f, fuel = f + 1 := ⟨fuel - 1, by simp only [List.length_cons, List.length_nil] at hfuel; omega⟩
    have hn : (l.cells ptr).next = some q := by simpa using h.next_eq
    by_cases hk : k < (l.cells q).key
    · exact ⟨_, [], q :: rest, sortedInsertLoop_before hn hk, rfl, nofun, by simpa using hk,
        by simpa using h.linkAfter he hf, fun bs => by simp⟩
    · obtain ⟨l', post₁, post₂, hl, rfl, h₁, h₂, h', hent⟩ :=
        sortedInsertLoop_links hnext hf rest (pre ++ [ptr]) q f (by simpa using h)
          (by simpa using he) (by simp only [List.length_cons, List.length_nil] at hfuel; omega)
      refine ⟨l', q :: post₁, post₂, by rw [sortedInsertLoop_past hn hk, hl], rfl, ?_, h₂,
        by simpa using h', hent⟩
      intro a ha
      rcases List.mem_cons.1 ha with rfl | ha
      exacts [hk, h₁ a ha]

theorem Holds.sortedInsert (h : l.Holds as) (item : Nat) (k : T) {fuel : Nat}
    (hf : as.length ≤ fuel) :
    ∃ l' pre post, l.sortedInsert fuel item k = .ok (some l') ∧ as = pre ++ post ∧
      (∀ a ∈ pre, ¬ k < (l.cells a).key) ∧ (∀ b ∈ post.head?, k < (l.cells b).key) ∧
      l'.Holds (pre ++ l.free :: post) ∧
      entries l'.cells (pre ++ l.free :: post) =
        entries l.cells pre ++ (item, k) :: entries l.cells post := by
  have h₁ := h.newElement item k
  have hfree : l.free ∉ as := h.free_not_mem
  have hkey : ∀ a ∈ as, ((l.newElement item k).2.cells a).key = (l.cells a).key := fun a ha => by
    simp [Function.update_noteq (Nat.ne_of_lt (h.lt_free a ha))]
  obtain _ | ⟨a, rest⟩ := as
  · refine ⟨{ (l.newElement item k).2 with first := some l.free, last := some l.free }, [], [],
      ?_, rfl, nofun, nofun, holds_newElement_single item k, by simp⟩
    simp [LinkedList.sortedInsert, h.first_eq_none]
  have hfirst : l.first = some a := by simpa using h.first_eq
  have hrest : ∀ b ∈ rest, b < l.free := fun b hb => h.lt_free b (List.mem_cons_of_mem a hb)
  have hane : a ≠ l.free := Nat.ne_of_lt (h.lt_free a (List.mem_cons_self a rest))
  by_cases hk : k < (l.cells a).key
  · refine ⟨{ (l.newElement item k).2.setNext l.free (some a) with first := some l.free }, [],
      a :: rest, ?_, rfl, nofun, by simpa using hk, ?_, ?_⟩
    · simp [LinkedList.sortedInsert, hfirst, Function.update_noteq hane, hk]
    · simpa [hfirst] using h₁.linkFront (List.cons_ne_nil a rest) hfree (Nat.lt_succ_self _)
    · exact (entries_setNext l.free (some a) _).trans
        (entries_newElement_insert (List.forall_mem_nil _) h.lt_free item k)
  · obtain ⟨l', post₁, post₂, hl, rfl, hpass, hnext, h', hent'⟩ :=
      sortedInsertLoop_links (k := k) (l := (l.newElement item k).2) (e := l.free) (by simp)
        (Nat.lt_succ_self _) rest [] a fuel (by simpa using h₁)
        (by simpa using hfree) (by simp only [List.length_cons, List.length_nil] at hf; omega)
    have hlt : ∀ b ∈ post₁ ++ post₂, b < l.free := hrest
    refine ⟨l', a :: post₁, post₂, ?_, rfl, ?_, ?_, by simpa using h', ?_⟩
    · rw [← hl]
      simp [LinkedList.sortedInsert, hfirst, Function.update_noteq hane, hk]
    · intro b hb
      rcases List.mem_cons.1 hb with rfl | hb
      · exact hk
      · rw [← hkey b (List.mem_cons_of_mem a (List.mem_append_left _ hb))]
        exact hpass b hb
    · intro b hb
      rw [← hkey b (List.mem_cons_of_mem a (List.mem_append_right _ (List.mem_of_mem_head? hb)))]
      exact hnext b hb
    · rw [hent']
      exact entries_newElement_insert (by simpa using ⟨h.lt_free a (by simp), fun b hb =>
        hlt b (List.mem_append_left _ hb)⟩) (fun b hb => hlt b (List.mem_append_right _ hb)) item k

theorem sorted_insert_between {pre post : List (Nat × T)} (item : Nat)
    (hs : (pre ++ post).Sorted fun x y => x.2 ≤ y.2) (hle : ∀ x ∈ pre, x.2 ≤ k)
    (hlt : ∀ x ∈ post, k < x.2) : (pre ++ (item, k) :: post).Sorted fun x y => x.2 ≤ y.2 := by
  obtain ⟨hs₁, hs₂, hs₁₂⟩ := List.pairwise_append.1 hs
  refine List.pairwise_append.2 ⟨hs₁, List.sorted_cons.2 ⟨fun b hb => (hlt b hb).le, hs₂⟩, ?_⟩
  intro a ha b hb
  rcases List.mem_cons.1 hb with rfl | hb
  exacts [hle a ha, hs₁₂ a ha b hb]

theorem Holds.sortedRemove_least {x : Nat × T} (h : l.Holds as)
    (hs : (entries l.cells as).Sorted fun x y => x.2 ≤ y.2)
    (hx : (entries l.cells as).head? = some x) :
    ∃ l', l.sortedRemove = .ok (x.1, some x.2, l') ∧ l'.Holds as.tail ∧
      entries l'.cells as.tail = (entries l.cells as).tail ∧
      ∀ y ∈ entries l.cells as, x.2 ≤ y.2 := by
  obtain _ | ⟨a, rest⟩ := as
  · cases hx
  obtain ⟨l', hr, h', hc, -⟩ := sortedRemove_of_cons h
  rw [entries_cons, List.head?_cons, Option.some_inj] at hx
  subst hx
  rw [entries_cons] at hs ⊢
  refine ⟨l', hr, h', by rw [hc]; rfl, List.forall_mem_cons.2 ⟨le_rfl, ?_⟩⟩
  exact (List.sorted_cons.1 hs).1

end

end

end LinkedList

/-! ### The laws of `RemoveItem` and `SortedInsert` -/

namespace LinkedList

section
variable {T : Type}

theorem removeItem_rotates [Zero T] (l : LinkedList T) (as : List Nat) (h : l.Holds as)
    (x : Nat) :
    (∀ (pre post : List (Nat × T)) (kx : T) (fuel : Nat),
      entries l.cells as = pre ++ (x, kx) :: post → x ∉ pre.map Prod.fst → pre.length < fuel →
      ∃ l' as', l.removeItem x fuel = .ok (some l') ∧ l'.Holds as' ∧
        entries l'.cells as' = post ++ pre.map fun y => (y.1, 0)) ∧
    (x ∉ (entries l.cells as).map Prod.fst → (as ≠ [] ∨ x ≠ 0) →
      ∀ fuel, l.removeItem x fuel = .ok none) ∧
    (as = [] → x = 0 → ∀ fuel, l.removeItem x (fuel + 1) = .ok (some l)) :=
  ⟨fun pre post _ fuel hxs hx hf => removeItem_found pre post fuel h hxs hx hf,
    fun hx hne fuel => removeItem_absent fuel h hx hne,
    fun has hx fuel => by subst has hx; exact removeItem_empty_null h fuel⟩

section
variable [LinearOrder T]

def insertedHead (xs : List (Nat × T)) (item : Nat) (k : T) : Nat × T :=
  match xs with
  | x :: _ => if k < x.2 then (item, k) else x
  | [] => (item, k)

theorem head?_insert_eq_insertedHead {pre post : List (Nat × T)} (item : Nat) {k : T}
    (hle : ∀ x ∈ pre, x.2 ≤ k) (hlt : ∀ x ∈ post, k < x.2) :
    (pre ++ (item, k) :: post).head? = some (insertedHead (pre ++ post) item k) := by
  cases pre with
  | cons x pre => simp [insertedHead, not_lt.2 (hle x (List.mem_cons_self x pre))]
  | nil =>
    cases post with
    | nil => rfl
    | cons y post => simp [insertedHead, hlt y (List.mem_cons_self y post)]

/-- What `SortedInsert(item, k)` does to a list whose keys do not decrease, with the
`SortedRemove` that follows. `l` held `as` and `l'` holds `as'`: the old elements and the
new one, each once; the entries are the old ones with `(item, k)` put in after every entry
whose key is at most `k`, so that the keys still do not decrease and equal keys stay in the
order they came in; and `SortedRemove` then returns the entry of least key, the new one only
if every old key is above `k`. -/
structure SortedInsertLaw (l : LinkedList T) (as : List Nat) (item : Nat) (k : T)
    (l' : LinkedList T) (as' : List Nat) : Prop where
  holds : l'.Holds as'
  perm : as'.Perm (l.free :: as)
  after_le : ∃ pre post, entries l.cells as = pre ++ post ∧
    entries l'.cells as' = pre ++ (item, k) :: post ∧ (∀ x ∈ pre, x.2 ≤ k) ∧ ∀ x ∈ post, k < x.2
  sorted : (entries l'.cells as').Sorted fun x y => x.2 ≤ y.2
  remove_least : ∃ l'', l'.sortedRemove = .ok ((insertedHead (entries l.cells as) item k).1,
      some (insertedHead (entries l.cells as) item k).2, l'') ∧ l''.Holds as'.tail ∧
    entries l''.cells as'.tail = (entries l'.cells as').tail ∧
    ∀ x ∈ entries l'.cells as', (insertedHead (entries l.cells as) item k).2 ≤ x.2

theorem sortedInsert_law (l : LinkedList T) (as : List Nat) (h : l.Holds as)
    (hs : (entries l.cells as).Sorted fun x y => x.2 ≤ y.2) (item : Nat) (k : T) (fuel : Nat)
    (hf : as.length ≤ fuel) :
    ∃ l' as', l.sortedInsert fuel item k = .ok (some l') ∧ SortedInsertLaw l as item k l' as' := by
  obtain ⟨l', pre, post, hl, rfl, hpre, hpost, h', hent⟩ := h.sortedInsert item k hf
  rw [entries_append] at hs
  have hle : ∀ x ∈ entries l.cells pre, x.2 ≤ k := by
    simp only [entries, List.mem_map]
    rintro _ ⟨a, ha, rfl⟩
    exact not_lt.1 (hpre a ha)
  -- the walk stopped at the first key above `k`; the keys after it are larger still
  have hlt : ∀ x ∈ entries l.cells post, k < x.2 := by
    obtain _ | ⟨b, post⟩ := post
    · nofun
    have hs₂ := (List.pairwise_append.1 hs).2.1
    rw [entries_cons] at hs₂ ⊢
    exact List.forall_mem_cons.2 ⟨hpost b rfl,
      fun x hx => (hpost b rfl).trans_le ((List.sorted_cons.1 hs₂).1 x hx)⟩
  have hsorted := sorted_insert_between item hs hle hlt
  rw [← hent] at hsorted
  refine ⟨l', _, hl, h', List.perm_middle, ⟨_, _, entries_append, hent, hle, hlt⟩, hsorted, ?_⟩
  rw [entries_append]
  exact h'.sortedRemove_least hsorted (by rw [hent]; exact head?_insert_eq_insertedHead item hle hlt)

end

/-! ### A list of three elements -/

def threeItems : LinkedList Nat :=
  ⟨some 0, some 2, fun a => ⟨if a < 2 then some (a + 1) else none, a, a + 1⟩, 3⟩

theorem holds_threeItems : threeItems.Holds [0, 1, 2] :=
  ⟨⟨rfl, rfl, rfl, rfl⟩, rfl, by decide⟩

theorem removeItem_rotates_three :
    threeItems.Holds [0, 1, 2] ∧
      (∃ l' as', threeItems.removeItem 2 2 = .ok (some l') ∧ l'.Holds as' ∧
        entries l'.cells as' = [(3, 2), (1, 0)]) ∧
      ∀ fuel, threeItems.removeItem 4 fuel = .ok none :=
  ⟨holds_threeItems,
    (removeItem_rotates threeItems [0, 1, 2] holds_threeItems 2).1 [(1, 0)] [(3, 2)] 1 2 rfl
      (by simp) (by simp),
    (removeItem_rotates threeItems [0, 1, 2] holds_threeItems 4).2.1
      (by simp [entries, threeItems]) (.inl (List.cons_ne_nil 0 [1, 2]))⟩

theorem sortedInsert_law_three :
    threeItems.Holds [0, 1, 2] ∧ (entries threeItems.cells [0, 1, 2]).Sorted (fun x y => x.2 ≤ y.2) ∧
      ∃ l' as', threeItems.sortedInsert 3 7 1 = .ok (some l') ∧
        SortedInsertLaw threeItems [0, 1, 2] 7 1 l' as' :=
  ⟨holds_threeItems, by decide,
    sortedInsert_law threeItems [0, 1, 2] holds_threeItems (by decide) 7 1 3 le_rfl⟩

end

end LinkedList

/-! ### The `wait_queue` of the synchronisation objects

`Semaphore`, `Lock` and `Condition` keep their sleeping threads on a `ListThread`, with
`Append` and `Remove` only. The models of `Kernel.Semaphore` and `Kernel.Lock` keep it as a
list of threads, appended at the back and taken from the front. Any run of the two calls on the
linked list does what that queue does. -/

inductive QueueCall where
  | append (item : Nat)
  | remove
  deriving DecidableEq, Repr

def QueueCall.appended : List QueueCall → List Nat
  | [] => []
  | .append t :: cs => t :: appended cs
  | .remove :: cs => appended cs

/-- The queue of the synchronisation models under the calls `cs`: the queue left, and the items
`Remove` gave, `NULL` on an empty queue. -/
def fifoRun : List QueueCall → List Nat → List Nat × List Nat
  | [], q => (q, [])
  | .append t :: cs, q => fifoRun cs (q ++ [t])
  | .remove :: cs, q => let r := fifoRun cs q.tail; (r.1, q.headD 0 :: r.2)

theorem fifoRun_conserves : ∀ (cs : List QueueCall) (q : List Nat),
    (∀ t ∈ q ++ QueueCall.appended cs, t ≠ 0) →
    (fifoRun cs q).2.filter (· ≠ 0) ++ (fifoRun cs q).1 = q ++ QueueCall.appended cs
  | [], q, _ => (List.append_nil q).symm
  | .append t :: cs, q, hz => by
    have h := fifoRun_conserves cs (q ++ [t]) (by rwa [List.append_assoc, List.singleton_append])
    rwa [List.append_assoc, List.singleton_append] at h
  | .remove :: cs, [], hz => fifoRun_conserves cs [] hz
  | .remove :: cs, x :: q, hz => by
    have hx : x ≠ 0 := hz x (List.mem_cons_self x _)
    show (x :: (fifoRun cs q).2).filter (· ≠ 0) ++ (fifoRun cs q).1 =
      x :: (q ++ QueueCall.appended cs)
    rw [List.filter_cons_of_pos (by simpa using hx), List.cons_append,
      fifoRun_conserves cs q fun t ht => hz t (List.mem_cons_of_mem x ht)]

namespace LinkedList

section
variable {T : Type}

theorem Holds.append_items [Zero T] {l : LinkedList T} {as : List Nat} (h : l.Holds as) (t : Nat) :
    ∃ l' as', l.append t = .ok l' ∧ l'.Holds as' ∧ l'.items as' = l.items as ++ [t] := by
  obtain ⟨l', ha, h', he, -⟩ := h.append t
  exact ⟨l', _, ha, h', by simp only [items, he, List.map_append]; rfl⟩

theorem Holds.remove_items {l : LinkedList T} {as : List Nat} (h : l.Holds as) :
    ∃ l' as', l.remove = .ok ((l.items as).headD 0, l') ∧ l'.Holds as' ∧
      l'.items as' = (l.items as).tail := by
  obtain _ | ⟨a, rest⟩ := as
  · exact ⟨l, [], remove_of_nil h, h, rfl⟩
  · obtain ⟨l', hr, h', hc, -⟩ := remove_of_cons h
    exact ⟨l', rest, hr, h', by simp only [items, hc]; rfl⟩

theorem Holds.isEmpty_eq {l : LinkedList T} {as : List Nat} (h : l.Holds as) :
    l.isEmpty = (l.items as).isEmpty := by
  cases as <;> simp [isEmpty, items, h.first_eq]

def runQueue [Zero T] : List QueueCall → LinkedList T → Except Stop (LinkedList T × List Nat)
  | [], l => .ok (l, [])
  | .append t :: cs, l => do runQueue cs (← l.append t)
  | .remove :: cs, l => do
    let (t, l) ← l.remove
    let (l, out) ← runQueue cs l
    return (l, t :: out)

theorem runQueue_refines [Zero T] : ∀ (cs : List QueueCall) {l : LinkedList T} {as : List Nat},
    l.Holds as → ∃ l' as', runQueue cs l = .ok (l', (fifoRun cs (l.items as)).2) ∧
      l'.Holds as' ∧ l'.items as' = (fifoRun cs (l.items as)).1
  | [], l, as, h => ⟨l, as, rfl, h, rfl⟩
  | .append t :: cs, _, _, h => by
    obtain ⟨l₁, as₁, ha, h₁, he⟩ := h.append_items t
    obtain ⟨l', as', hr, h', hq⟩ := runQueue_refines cs h₁
    rw [he] at hr hq
    exact ⟨l', as', by simpa only [runQueue, ha, bind, Except.bind] using hr, h', hq⟩
  | .remove :: cs, _, _, h => by
    obtain ⟨l₁, as₁, hrm, h₁, he⟩ := h.remove_items
    obtain ⟨l', as', hr, h', hq⟩ := runQueue_refines cs h₁
    rw [he] at hr hq
    exact ⟨l', as', by simp only [runQueue, hrm, bind, Except.bind, hr]; rfl, h', hq⟩

theorem wait_queue_fifo [Zero T] (cs : List QueueCall) {l : LinkedList T} {as : List Nat} (h : l.Holds as) :
    ∃ l' as', runQueue cs l = .ok (l', (fifoRun cs (l.items as)).2) ∧ l'.Holds as' ∧
      l'.items as' = (fifoRun cs (l.items as)).1 ∧
      ((∀ t ∈ l.items as ++ QueueCall.appended cs, t ≠ 0) →
        (fifoRun cs (l.items as)).2.filter (· ≠ 0) ++ l'.items as' =
          l.items as ++ QueueCall.appended cs) := by
  obtain ⟨l', as', hr, h', hq⟩ := runQueue_refines cs h
  exact ⟨l', as', hr, h', hq, fun hz => hq ▸ fifoRun_conserves cs _ hz⟩

end

theorem wait_queue_fifo_two :
    ∃ l' as', runQueue [.append 5, .append 6, .remove, .remove, .remove]
        (empty (fun _ => (⟨none, 0, 0⟩ : ListElement Nat)) 0) = .ok (l', [5, 6, 0]) ∧
      l'.Holds as' ∧ l'.items as' = [] ∧ [5, 6, 0].filter (· ≠ 0) ++ l'.items as' = [5, 6] := by
  obtain ⟨l', as', hr, h', hi, hc⟩ := wait_queue_fifo [.append 5, .append 6, .remove, .remove, .remove]
    (holds_empty (fun _ => (⟨none, 0, 0⟩ : ListElement Nat)) 0)
  exact ⟨l', as', hr, h', hi, hc (by decide)⟩

/-! ### Lookup after insertion -/

section
variable {T : Type}

theorem items_length (l : LinkedList T) (as : List Nat) : (l.items as).length = as.length := by
  simp [items, entries]

theorem search_finds_inserted [Zero T] {l : LinkedList T} {as : List Nat} (h : l.Holds as)
    (item : Nat) {fuel : Nat} (hf : as.length < fuel) :
    l.search fuel item = .ok (some (decide (item ∈ l.items as))) ∧
      (∃ l', l.append item = .ok l' ∧ l'.search fuel item = .ok (some true)) ∧
      (l.prepend item).search fuel item = .ok (some true) := by
  refine ⟨h.search item hf.le, ?_, ?_⟩
  · obtain ⟨l', as', ha, h', he⟩ := h.append_items item
    have hlen : as'.length ≤ fuel := by
      have := congrArg List.length he
      simp only [items_length, List.length_append, List.length_singleton] at this
      omega
    exact ⟨l', ha, by rw [h'.search item hlen, he]; simp⟩
  · obtain ⟨hp, he⟩ := h.prepend item
    rw [hp.search item (by simp only [List.length_cons]; omega)]
    simp [items, he]

end

theorem search_finds_inserted_three :
    threeItems.Holds [0, 1, 2] ∧ [0, 1, 2].length < 4 ∧
      threeItems.search 4 7 = .ok (some (decide (7 ∈ threeItems.items [0, 1, 2]))) ∧
      (∃ l', threeItems.append 7 = .ok l' ∧ l'.search 4 7 = .ok (some true)) ∧
      (threeItems.prepend 7).search 4 7 = .ok (some true) :=
  ⟨holds_threeItems, by decide, search_finds_inserted holds_threeItems 7 (by decide)⟩

end LinkedList

end NachosVm
