import Mathlib.Data.List.Nodup
import Mathlib.Data.Finset.Card
import ProjectOwl.Lib.Pool

/-! # Linked lists in memory

Cells in a heap, each with a value and the link to the next cell.  `Segment`
says which cells lie between two links, `Owns` that a list has all its cells to
itself and the heap holds no others.  Walks over such a list never read a cell
that is not allocated, and each way of relinking it is one lemma here. -/

set_option autoImplicit false

abbrev Link := Option Nat

abbrev Heap (α : Type*) := Pool (α × Link)

namespace Chain

section Segments
variable {α : Type*}

def Segment (heap : Heap α) : Link → Link → List (Nat × α) → Prop
  | link, stop, [] => link = stop
  | link, stop, (a, v) :: rest =>
      link = some a ∧ ∃ next, heap.get? a = some (v, next) ∧ Segment heap next stop rest

def addresses (cells : List (Nat × α)) : List Nat := cells.map Prod.fst

@[simp] theorem addresses_nil : addresses ([] : List (Nat × α)) = [] := rfl

@[simp] theorem addresses_cons (cell : Nat × α) (rest : List (Nat × α)) :
    addresses (cell :: rest) = cell.1 :: addresses rest := rfl

@[simp] theorem addresses_append (front back : List (Nat × α)) :
    addresses (front ++ back) = addresses front ++ addresses back :=
  List.map_append ..

@[simp] theorem addresses_length (cells : List (Nat × α)) :
    (addresses cells).length = cells.length :=
  List.length_map _

/-- A list that owns the heap: no cell is shared and none is lost. -/
structure Owns (heap : Heap α) (head : Link) (cells : List (Nat × α)) : Prop where
  linked : Segment heap head none cells
  apart : (addresses cells).Nodup
  whole : heap.used = (addresses cells).toFinset

variable {heap : Heap α} {head link stop : Link} {cells front back : List (Nat × α)}

theorem segment_append :
    Segment heap link stop (front ++ back) ↔
      ∃ middle, Segment heap link middle front ∧ Segment heap middle stop back := by
  induction front generalizing link with
  | nil => simp [Segment]
  | cons cell rest ih =>
      obtain ⟨a, v⟩ := cell
      simp only [List.cons_append, Segment, ih]
      constructor
      · rintro ⟨here, next, read, middle, left, right⟩
        exact ⟨middle, ⟨here, next, read, left⟩, right⟩
      · rintro ⟨middle, ⟨here, next, read, left⟩, right⟩
        exact ⟨here, next, read, middle, left, right⟩

/-- A segment depends on its own cells only. -/
theorem Segment.frame {heap' : Heap α} (segment : Segment heap link stop cells)
    (same : ∀ a ∈ addresses cells, heap'.get? a = heap.get? a) :
    Segment heap' link stop cells := by
  induction cells generalizing link with
  | nil => exact segment
  | cons cell rest ih =>
      obtain ⟨a, v⟩ := cell
      obtain ⟨here, next, read, remaining⟩ := segment
      refine ⟨here, next, ?_, ih remaining ?_⟩
      · rw [same a (by simp), read]
      · intro b member
        exact same b (by simp [member])

theorem Segment.link_eq_none (segment : Segment heap link none cells) :
    link = none ↔ cells = [] := by
  cases cells with
  | nil => exact ⟨fun _ => rfl, fun _ => segment⟩
  | cons cell rest =>
      obtain ⟨here, -⟩ := segment
      simp [here]

theorem owns_empty (heap : Heap α) (none_used : heap.used = ∅) : Owns heap none [] where
  linked := rfl
  apart := List.nodup_nil
  whole := by simp [none_used]

theorem Owns.card (owns : Owns heap head cells) : heap.used.card = cells.length := by
  rw [owns.whole, List.toFinset_card_of_nodup owns.apart, addresses_length]

theorem Owns.mem_used (owns : Owns heap head cells) (a : Nat) :
    a ∈ heap.used ↔ a ∈ addresses cells := by
  rw [owns.whole, List.mem_toFinset]

theorem Owns.nil_of_head (owns : Owns heap none cells) : cells = [] :=
  owns.linked.link_eq_none.mp rfl

end Segments

/-! ## Walks -/

section Walks
variable {α : Type*}

/-- The first cell from `link` on whose value passes the test; `none` when the
walk reads memory that is not allocated or does not end. -/
def find (heap : Heap α) (test : α → Bool) : Nat → Link → Option Link
  | _, none => some none
  | 0, some _ => none
  | fuel + 1, some a =>
      match heap.get? a with
      | none => none
      | some (v, next) => if test v then some (some a) else find heap test fuel next

/-- The cell whose link is null. -/
def last (heap : Heap α) : Nat → Nat → Option Nat
  | 0, _ => none
  | fuel + 1, a =>
      match heap.get? a with
      | none => none
      | some (_, none) => some a
      | some (_, some next) => last heap fuel next

variable {heap : Heap α} {head link : Link} {cells : List (Nat × α)}

theorem find_segment (test : α → Bool) (segment : Segment heap link none cells) {fuel : Nat}
    (enough : cells.length ≤ fuel) :
    find heap test fuel link = some ((cells.find? fun cell => test cell.2).map Prod.fst) := by
  induction cells generalizing link fuel with
  | nil =>
      have null : link = none := segment
      subst null
      cases fuel <;> rfl
  | cons cell rest ih =>
      obtain ⟨a, v⟩ := cell
      obtain ⟨rfl, next, read, remaining⟩ := segment
      cases fuel with
      | zero => simp at enough
      | succ fuel =>
          simp only [find, read]
          by_cases passes : test v = true
          · simp [passes]
          · rw [if_neg passes, ih remaining (by simpa using enough)]
            simp [passes]

theorem Owns.find (owns : Owns heap head cells) (test : α → Bool) :
    find heap test heap.used.card head =
      some ((cells.find? fun cell => test cell.2).map Prod.fst) :=
  find_segment test owns.linked owns.card.symm.le

theorem last_segment {a : Nat} {front : List (Nat × α)} {v : α}
    (segment : Segment heap link none (front ++ [(a, v)])) {fuel start : Nat}
    (enough : front.length < fuel) (starts : link = some start) :
    last heap fuel start = some a := by
  induction front generalizing link fuel start with
  | nil =>
      obtain ⟨here, next, read, ending⟩ := segment
      have same : a = start := Option.some.inj (here.symm.trans starts)
      subst same
      have null : next = none := ending
      subst null
      cases fuel with
      | zero => simp at enough
      | succ fuel => simp [last, read]
  | cons cell rest ih =>
      obtain ⟨b, w⟩ := cell
      obtain ⟨here, next, read, remaining⟩ := segment
      have same : b = start := Option.some.inj (here.symm.trans starts)
      subst same
      cases fuel with
      | zero => simp at enough
      | succ fuel =>
          cases next with
          | none =>
              have empty := remaining.link_eq_none.mp rfl
              simp at empty
          | some next =>
              simp only [last, read]
              exact ih remaining (by simpa using enough) rfl

end Walks

/-! ## Relinking -/

section Relink
variable {α : Type*} {heap : Heap α} {head next : Link} {cells front back : List (Nat × α)}
  {a b : Nat} {u v : α}

/-- The list around one of its cells. -/
theorem Owns.split (owns : Owns heap head (front ++ (a, v) :: back)) :
    ∃ next, heap.get? a = some (v, next) ∧ Segment heap head (some a) front ∧
      Segment heap next none back := by
  obtain ⟨middle, before, rfl, next, read, after⟩ := segment_append.mp owns.linked
  exact ⟨next, read, before, after⟩

theorem Owns.notMem (owns : Owns heap head (front ++ (a, v) :: back)) :
    a ∉ addresses front ∧ a ∉ addresses back := by
  have apart := owns.apart
  rw [addresses_append, addresses_cons, List.nodup_middle, List.nodup_cons, List.mem_append,
    not_or] at apart
  exact apart.1

/-- Assigning to the value of a cell. -/
theorem Owns.set (owns : Owns heap head (front ++ (a, v) :: back))
    (read : heap.get? a = some (v, next)) (w : α) :
    Owns (heap.set a (w, next)) head (front ++ (a, w) :: back) := by
  obtain ⟨next', read', before, after⟩ := owns.split
  obtain rfl : next' = next := by
    rw [read] at read'
    simpa using read'.symm
  obtain ⟨notFront, notBack⟩ := owns.notMem
  have kept : ∀ c, c ≠ a → (heap.set a (w, next')).get? c = heap.get? c :=
    fun c different => Pool.get?_set_other heap _ different
  refine ⟨segment_append.mpr ⟨some a, ?_, rfl, next', ?_, ?_⟩, ?_, ?_⟩
  · exact before.frame fun c member => kept c fun same => notFront (same ▸ member)
  · exact Pool.get?_set_self (Pool.mem_of_get? read) _
  · exact after.frame fun c member => kept c fun same => notBack (same ▸ member)
  · simpa using owns.apart
  · simpa using owns.whole

/-- A new first cell. -/
theorem Owns.push (owns : Owns heap head cells) (fresh : a ∉ heap.used) (v : α) :
    Owns (heap.add a (v, head)) (some a) ((a, v) :: cells) := by
  have absent : a ∉ addresses cells := fun member => fresh ((owns.mem_used a).mpr member)
  refine ⟨⟨rfl, head, Pool.get?_add_self .., ?_⟩, ?_, ?_⟩
  · exact owns.linked.frame fun c member =>
      Pool.get?_add_other heap _ fun same => absent (same ▸ member)
  · rw [addresses_cons, List.nodup_cons]
    exact ⟨absent, owns.apart⟩
  · rw [Pool.add_used, owns.whole, addresses_cons, List.toFinset_cons]

/-- A new last cell, linked from the one that was last. -/
theorem Owns.append (owns : Owns heap head (front ++ [(b, u)])) (fresh : a ∉ heap.used) (v : α) :
    Owns ((heap.add a (v, none)).set b (u, some a)) head (front ++ [(b, u)] ++ [(a, v)]) := by
  obtain ⟨next, read, before, ending⟩ := owns.split
  have absent : a ∉ addresses (front ++ [(b, u)]) :=
    fun member => fresh ((owns.mem_used a).mpr member)
  have differ : a ≠ b := fun same => absent (by simp [same])
  have notFront : a ∉ addresses front := fun member => absent (by simp [member])
  have inUse : b ∈ (heap.add a (v, none)).used := by
    rw [Pool.add_used]
    exact Finset.mem_insert_of_mem (Pool.mem_of_get? read)
  have lastRead : ((heap.add a (v, none)).set b (u, some a)).get? a = some (v, none) := by
    rw [Pool.get?_set_other _ _ differ, Pool.get?_add_self]
  rw [List.append_assoc]
  refine ⟨segment_append.mpr ⟨some b, ?_, rfl, some a, Pool.get?_set_self inUse _, rfl, none,
    lastRead, rfl⟩, ?_, ?_⟩
  · refine before.frame fun c member => ?_
    have notLast : c ≠ b := fun same => owns.notMem.1 (same ▸ member)
    have notNew : c ≠ a := fun same => notFront (same ▸ member)
    rw [Pool.get?_set_other _ _ notLast, Pool.get?_add_other _ _ notNew]
  · have apart := List.nodup_cons.mpr ⟨absent, owns.apart⟩
    rw [← List.append_assoc, addresses_append]
    exact List.nodup_append_comm.mp apart
  · rw [Pool.set_used, Pool.add_used, owns.whole]
    ext c
    simp only [Finset.mem_insert, List.mem_toFinset, addresses_append, addresses_cons,
      addresses_nil, List.mem_append, List.mem_cons, List.not_mem_nil, or_false]
    tauto

/-- Unlinking and freeing the first cell. -/
theorem Owns.dropHead (owns : Owns heap head ((a, v) :: back))
    (read : heap.get? a = some (v, next)) : Owns (heap.drop a) next back := by
  have first : Owns heap head ([] ++ (a, v) :: back) := owns
  obtain ⟨next', read', -, after⟩ := first.split
  obtain rfl : next' = next := by
    rw [read] at read'
    simpa using read'.symm
  have absent : a ∉ addresses back := first.notMem.2
  refine ⟨?_, (List.nodup_cons.mp owns.apart).2, ?_⟩
  · exact after.frame fun c member =>
      Pool.get?_drop_other heap fun same => absent (same ▸ member)
  · rw [Pool.drop_used, owns.whole, addresses_cons, List.toFinset_cons,
      Finset.erase_insert (by simpa using absent)]

/-- The cells behind one that is unlinked and freed. -/
theorem Owns.rest_of_dropNext (owns : Owns heap head (front ++ (b, u) :: (a, v) :: back))
    (read : heap.get? a = some (v, next)) :
    Segment ((heap.set b (u, next)).drop a) next none back := by
  have split : front ++ (b, u) :: (a, v) :: back = (front ++ [(b, u)]) ++ (a, v) :: back := by simp
  have prevNotBack : b ∉ addresses back := fun member => owns.notMem.2 (by simp [member])
  rw [split] at owns
  obtain ⟨next', read', -, after⟩ := owns.split
  obtain rfl : next' = next := by
    rw [read] at read'
    simpa using read'.symm
  have notBack : a ∉ addresses back := owns.notMem.2
  refine after.frame fun c member => ?_
  have notGone : c ≠ a := fun same => notBack (same ▸ member)
  have notPrev : c ≠ b := fun same => prevNotBack (same ▸ member)
  rw [Pool.get?_drop_other _ notGone, Pool.get?_set_other _ _ notPrev]

/-- Unlinking a cell from the one before it, and freeing it. -/
theorem Owns.dropNext (owns : Owns heap head (front ++ (b, u) :: (a, v) :: back))
    (read : heap.get? a = some (v, next)) :
    Owns ((heap.set b (u, next)).drop a) head (front ++ (b, u) :: back) := by
  have rest := owns.rest_of_dropNext read
  obtain ⟨link, readPrev, before, -⟩ := owns.split
  have apart := owns.apart
  have split : front ++ (b, u) :: (a, v) :: back = (front ++ [(b, u)]) ++ (a, v) :: back := by simp
  have prevNotFront : b ∉ addresses front := owns.notMem.1
  have whole := owns.whole
  rw [split] at owns
  obtain ⟨notFront, notBack⟩ := owns.notMem
  rw [addresses_append, List.mem_append, not_or] at notFront
  have differ : b ≠ a := fun same => notFront.2 (by simp [same])
  refine ⟨segment_append.mpr ⟨some b, ?_, rfl, next, ?_, rest⟩, ?_, ?_⟩
  · refine before.frame fun c member => ?_
    have notGone : c ≠ a := fun same => notFront.1 (same ▸ member)
    have notPrev : c ≠ b := fun same => prevNotFront (same ▸ member)
    rw [Pool.get?_drop_other _ notGone, Pool.get?_set_other _ _ notPrev]
  · rw [Pool.get?_drop_other _ differ, Pool.get?_set_self (Pool.mem_of_get? readPrev)]
  · refine apart.sublist ?_
    exact (List.Sublist.refl _).append (List.Sublist.cons_cons _ (List.sublist_cons_self ..)) |>.map _
  · rw [Pool.drop_used, Pool.set_used, whole]
    ext c
    simp only [Finset.mem_erase, List.mem_toFinset, addresses_append, addresses_cons,
      List.mem_append, List.mem_cons]
    constructor
    · tauto
    · intro member
      refine ⟨?_, by tauto⟩
      rintro rfl
      rcases member with inFront | same | inBack
      · exact notFront.1 inFront
      · exact differ same.symm
      · exact notBack inBack

end Relink

end Chain
