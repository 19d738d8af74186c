import Mathlib.Algebra.Order.Group.Nat
import Mathlib.Tactic.Common

/-! # Pieces of a stream and where they start

`located size offset pieces` pairs each piece with the offset at which it
starts when the pieces follow one another from `offset` on. -/

set_option autoImplicit false

namespace StreamOffsets

section Located
variable {β : Type*} (size : β → Nat)

def located : Nat → List β → List (Nat × β)
  | _, [] => []
  | offset, piece :: rest => (offset, piece) :: located (offset + size piece) rest

def total : List β → Nat
  | [] => 0
  | piece :: rest => size piece + total rest

@[simp] theorem total_nil : total size [] = 0 := rfl

@[simp] theorem total_cons (piece : β) (rest : List β) :
    total size (piece :: rest) = size piece + total size rest := rfl

theorem located_append (offset : Nat) (front back : List β) :
    located size offset (front ++ back) =
      located size offset front ++ located size (offset + total size front) back := by
  induction front generalizing offset with
  | nil => rfl
  | cons piece front ih =>
      simp only [List.cons_append, located, total_cons]
      rw [ih, Nat.add_assoc]

theorem mem_located_add (shift offset : Nat) (pieces : List β) (p : Nat × β) :
    p ∈ located size (shift + offset) pieces ↔
      ∃ q ∈ located size offset pieces, p = (shift + q.1, q.2) := by
  induction pieces generalizing offset with
  | nil => simp [located]
  | cons piece rest ih =>
      simp only [located, List.mem_cons, Nat.add_assoc, ih, exists_eq_or_imp]

theorem le_of_mem_located (offset : Nat) (pieces : List β) :
    ∀ p ∈ located size offset pieces, offset ≤ p.1 := by
  intro p member
  obtain ⟨q, _, rfl⟩ := (mem_located_add size offset 0 pieces p).mp member
  exact Nat.le_add_right ..

theorem mem_of_mem_located (offset : Nat) (pieces : List β) :
    ∀ p ∈ located size offset pieces, p.2 ∈ pieces := by
  induction pieces generalizing offset with
  | nil => simp [located]
  | cons piece rest ih =>
      intro p member
      rcases List.mem_cons.mp member with rfl | later
      · exact List.mem_cons_self ..
      · exact List.mem_cons_of_mem _ (ih _ p later)

theorem exists_located_of_mem (offset : Nat) (pieces : List β) :
    ∀ piece ∈ pieces, ∃ start, (start, piece) ∈ located size offset pieces := by
  induction pieces generalizing offset with
  | nil => simp
  | cons first rest ih =>
      intro piece member
      rcases List.mem_cons.mp member with rfl | later
      · exact ⟨offset, List.mem_cons_self ..⟩
      · obtain ⟨start, located⟩ := ih (offset + size first) piece later
        exact ⟨start, List.mem_cons_of_mem _ located⟩

end Located

section Cut
variable {α β : Type*} (content : β → List α)

/-- A cut falls inside `pending`, or at its end, or after it. -/
theorem append_cut {front left pending tail : List α} (stream : front ++ left = pending ++ tail) :
    (∃ more, pending = front ++ more ∧ left = more ++ tail) ∨
      ∃ more, more ≠ [] ∧ front = pending ++ more ∧ more ++ left = tail := by
  rcases List.append_eq_append_iff.mp stream with ⟨more, inside, after⟩ | ⟨more, past, after⟩
  · exact Or.inl ⟨more, inside, after⟩
  · by_cases empty : more = []
    · rw [empty, List.append_nil] at past
      rw [empty, List.nil_append] at after
      exact Or.inl ⟨[], by rw [past, List.append_nil], after.symm⟩
    · exact Or.inr ⟨more, empty, past, after.symm⟩

theorem suffix_tail_append (front more : List α) (nonempty : front ≠ []) :
    more <:+ (front ++ more).tail := by
  rw [List.tail_append_of_ne_nil nonempty]
  exact List.suffix_append ..

/-- Taking `front` off a stream that continues with `pending` and then with
`pieces`: the pieces that start inside `front` are gone, and what is left goes on
with a proper rest of the last of them. -/
theorem cut_stream (front left pending : List α) (pieces : List β) (nonempty : front ≠ [])
    (stream : front ++ left = pending ++ pieces.flatMap content) :
    ∃ gone later rest, pieces = gone ++ later ∧ left = rest ++ later.flatMap content ∧
      (rest <:+ pending.tail ∨ ∃ piece ∈ pieces, rest <:+ (content piece).tail) ∧
      pending.length + total (fun piece => (content piece).length) gone =
        front.length + rest.length ∧
      ∀ p ∈ located (fun piece => (content piece).length) pending.length gone,
        p.1 < front.length := by
  induction pieces generalizing front pending with
  | nil =>
      rw [List.flatMap_nil, List.append_nil] at stream
      have length := congrArg List.length stream
      rw [List.length_append] at length
      refine ⟨[], [], left, rfl, by simp, Or.inl ?_, by simpa using length.symm, by simp [located]⟩
      rw [← stream]
      exact suffix_tail_append front left nonempty
  | cons piece pieces ih =>
      rcases append_cut stream with ⟨more, inside, after⟩ | ⟨more, some, past, after⟩
      · refine ⟨[], piece :: pieces, more, rfl, after, Or.inl ?_, ?_, by simp [located]⟩
        · rw [inside]
          exact suffix_tail_append front more nonempty
        · rw [inside, total_nil, List.length_append]
          omega
      · obtain ⟨gone, later, rest, pieceSplit, leftSplit, suffix, length, early⟩ :=
          ih more (content piece) some after
        have longer : front.length = pending.length + more.length := by
          rw [past, List.length_append]
        refine ⟨piece :: gone, later, rest, by rw [pieceSplit, List.cons_append], leftSplit,
          Or.inr ?_, ?_, ?_⟩
        · rcases suffix with here | ⟨other, member, there⟩
          · exact ⟨piece, List.mem_cons_self .., here⟩
          · exact ⟨other, List.mem_cons_of_mem _ member, there⟩
        · rw [total_cons]
          omega
        · intro p member
          rcases List.mem_cons.mp member with rfl | member
          · have positive := List.length_pos_iff.mpr some
            dsimp only
            omega
          · obtain ⟨q, located, rfl⟩ := (mem_located_add _ _ _ _ _).mp member
            have := early q located
            dsimp only
            omega

end Cut

end StreamOffsets
