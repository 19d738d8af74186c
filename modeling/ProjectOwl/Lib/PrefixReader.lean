import Mathlib.Data.List.Infix
import Mathlib.Data.List.TakeWhile
import Mathlib.Tactic.Common

/-! # Readers of a stream

A reader takes one record off the front of a stream, or refuses it.  A format
is `Legible` when every record of it is read back whatever comes after it;
`records_flatMap` reads a whole stream of such records, and what is left at its
end is what the reader refuses. -/

set_option autoImplicit false

universe u v

namespace PrefixReader

section Pieces
variable {β : Type v}

/-- The rest of a stream that begins with `expected`. -/
def literal [DecidableEq β] (expected stream : List β) : Option (List β) :=
  if expected <+: stream then some (stream.drop expected.length) else none

/-- The next `n` items. -/
def block (n : Nat) (stream : List β) : Option (List β × List β) :=
  if n ≤ stream.length then some (stream.take n, stream.drop n) else none

@[simp] theorem literal_append [DecidableEq β] (expected rest : List β) :
    literal expected (expected ++ rest) = some rest := by
  rw [literal, if_pos (List.prefix_append expected rest), List.drop_left]

theorem literal_short [DecidableEq β] {expected stream : List β}
    (short : stream.length < expected.length) : literal expected stream = none := by
  apply if_neg
  intro front
  have := front.length_le
  omega

@[simp] theorem block_append (items rest : List β) :
    block items.length (items ++ rest) = some (items, rest) := by
  rw [block, if_pos (by simp), List.take_left, List.drop_left]

theorem block_short {n : Nat} {stream : List β} (short : stream.length < n) :
    block n stream = none :=
  if_neg (by omega)

/-- The longest front of items with a property ends where an item lacks it. -/
theorem takeWhile_stops {p : β → Bool} {front : List β} (all : ∀ item ∈ front, p item) {stop : β}
    (lacks : p stop = false) (rest : List β) :
    (front ++ stop :: rest).takeWhile p = front ∧
      (front ++ stop :: rest).dropWhile p = stop :: rest := by
  constructor
  · rw [List.takeWhile_append_of_pos all, List.takeWhile_cons, lacks]
    simp
  · rw [List.dropWhile_append_of_pos all, List.dropWhile_cons, lacks]
    simp

end Pieces

section Records
variable {α : Type u} {β : Type v} (read : List β → Option (α × List β)) (encode : α → List β)

def readUpTo : Nat → List β → List α
  | 0, _ => []
  | n + 1, stream =>
      match read stream with
      | none => []
      | some (record, rest) => record :: readUpTo n rest

/-- The records a reader takes off a stream. -/
def records (stream : List β) : List α := readUpTo read stream.length stream

structure Legible (record : α) : Prop where
  nonempty : encode record ≠ []
  reads : ∀ rest, read (encode record ++ rest) = some (record, rest)

variable {read encode}

theorem readUpTo_flatMap {list : List α} (legible : ∀ record ∈ list, Legible read encode record)
    {rest : List β} (refused : read rest = none) {n : Nat} (enough : list.length ≤ n) :
    readUpTo read n (list.flatMap encode ++ rest) = list := by
  induction list generalizing n with
  | nil =>
      cases n with
      | zero => rfl
      | succ n => simp [readUpTo, refused]
  | cons record list ih =>
      obtain ⟨left, rfl⟩ : ∃ left, n = left + 1 := ⟨n - 1, by simp at enough; omega⟩
      have first := (legible record (by simp)).reads (list.flatMap encode ++ rest)
      have later := ih (fun other member => legible other (by simp [member]))
        (Nat.le_of_succ_le_succ enough)
      rw [List.flatMap_cons, List.append_assoc, readUpTo, first]
      simp only [later]

theorem length_le_flatMap {list : List α} (legible : ∀ record ∈ list, Legible read encode record) :
    list.length ≤ (list.flatMap encode).length := by
  induction list with
  | nil => simp
  | cons record list ih =>
      have here := List.length_pos_iff.mpr (legible record (by simp)).nonempty
      have there := ih fun other member => legible other (by simp [member])
      simp only [List.flatMap_cons, List.length_append, List.length_cons]
      omega

/-- A stream of legible records is read back up to where the reader refuses it. -/
theorem records_flatMap {list : List α} (legible : ∀ record ∈ list, Legible read encode record)
    {rest : List β} (refused : read rest = none) :
    records read (list.flatMap encode ++ rest) = list := by
  apply readUpTo_flatMap legible refused
  have := length_le_flatMap legible
  rw [List.length_append]
  omega

end Records

end PrefixReader
