import Mathlib.Data.List.Count
import Mathlib.Data.List.Induction
import Mathlib.Data.List.Infix
import Mathlib.Tactic.Common

/-! # Records over a first-in first-out stream

One end puts whole records on a stream, the other end takes up to `size` items
at a time.  `run_invariant` says what is left on the stream and what was taken
after any interleaving in which the i-th take follows the i-th put and every
record has at least `size` items; `run_taken` is its last part. -/

set_option autoImplicit false

namespace RecordStream

inductive Call where
  | put
  | get
  deriving DecidableEq, Repr

/-- The i-th take follows the i-th put. -/
def Ordered (calls : List Call) : Prop :=
  ∀ front ∈ calls.inits, front.count .get ≤ front.count .put

instance (calls : List Call) : Decidable (Ordered calls) :=
  inferInstanceAs (Decidable (∀ front ∈ calls.inits, _))

section Stream
variable {α : Type*}

structure Link (α : Type*) where
  unsent : List (List α)
  pending : List α
  taken : List (List α)
  deriving DecidableEq

def start (records : List (List α)) : Link α := ⟨records, [], []⟩

def step (size : Nat) (link : Link α) : Call → Link α
  | .put =>
      match link.unsent with
      | [] => link
      | record :: rest => { link with unsent := rest, pending := link.pending ++ record }
  | .get =>
      { link with
        pending := link.pending.drop size
        taken := link.taken ++ [link.pending.take size] }

def run (size : Nat) (records : List (List α)) (calls : List Call) : Link α :=
  calls.foldl (step size) (start records)

/-- The i-th block of `size` items of the whole stream. -/
def piece (size : Nat) (stream : List α) (i : Nat) : List α := (stream.drop (size * i)).take size

theorem run_concat (size : Nat) (records : List (List α)) (calls : List Call) (call : Call) :
    run size records (calls ++ [call]) = step size (run size records calls) call := by
  simp [run]

theorem Ordered.front {calls : List Call} {call : Call} (ordered : Ordered (calls ++ [call])) :
    Ordered calls := by
  intro front before
  apply ordered front
  rw [List.mem_inits] at before ⊢
  exact before.trans (List.prefix_append ..)

/-- What the two ends have done after `puts` puts and `gets` takes. -/
structure Progress (size width : Nat) (records : List (List α)) (puts gets : Nat)
    (link : Link α) : Prop where
  unsent : link.unsent = records.drop puts
  stream : link.pending ++ link.unsent.flatten = records.flatten.drop (size * gets)
  length : link.pending.length + size * gets = width * puts
  taken : link.taken = (List.range gets).map (piece size records.flatten)

theorem start_progress (size width : Nat) (records : List (List α)) :
    Progress size width records 0 0 (start records) where
  unsent := rfl
  stream := by simp [start]
  length := by simp [start]
  taken := rfl

theorem put_progress {size width puts gets : Nat} {records : List (List α)} {link : Link α}
    (uniform : ∀ record ∈ records, record.length = width) (bound : puts < records.length)
    (progress : Progress size width records puts gets link) :
    Progress size width records (puts + 1) gets (step size link .put) := by
  obtain ⟨unsent, stream, length, taken⟩ := progress
  have next : link.unsent = records[puts] :: records.drop (puts + 1) := by
    rw [unsent, List.drop_eq_getElem_cons bound]
  have recordLength := uniform records[puts] (List.getElem_mem bound)
  rw [next] at stream
  simp only [step, next]
  refine ⟨rfl, ?_, ?_, taken⟩
  · rw [← stream, List.flatten_cons, List.append_assoc]
  · simp only [List.length_append, recordLength]
    rw [Nat.mul_succ]
    omega

theorem get_progress {size width puts gets : Nat} {records : List (List α)} {link : Link α}
    (narrow : size ≤ width) (available : gets < puts)
    (progress : Progress size width records puts gets link) :
    Progress size width records puts (gets + 1) (step size link .get) := by
  obtain ⟨unsent, stream, length, taken⟩ := progress
  have enough : size ≤ link.pending.length := by
    have sent : width * (gets + 1) ≤ width * puts := Nat.mul_le_mul_left width available
    have used : size * gets ≤ width * gets := Nat.mul_le_mul_right gets narrow
    rw [Nat.mul_succ] at sent
    omega
  have block : link.pending.take size = piece size records.flatten gets := by
    rw [piece, ← stream, List.take_append_of_le_length enough]
  refine ⟨unsent, ?_, ?_, ?_⟩
  · simp only [step]
    rw [← List.drop_append_of_le_length enough, stream, List.drop_drop, Nat.mul_succ]
  · simp only [step, List.length_drop, Nat.mul_succ]
    omega
  · simp only [step, taken, block, List.range_succ, List.map_append, List.map_singleton]

theorem run_invariant {size width : Nat} {records : List (List α)}
    (uniform : ∀ record ∈ records, record.length = width) (narrow : size ≤ width)
    (calls : List Call) (ordered : Ordered calls)
    (bound : calls.count .put ≤ records.length) :
    Progress size width records (calls.count .put) (calls.count .get)
      (run size records calls) := by
  induction calls using List.reverseRecOn with
  | nil => exact start_progress size width records
  | append_singleton calls call ih =>
      have whole := ordered (calls ++ [call]) ((List.mem_inits _ _).mpr (List.prefix_refl _))
      rw [run_concat]
      simp only [List.count_append] at bound whole ⊢
      cases call with
      | put =>
          simp only [List.count_singleton_self] at bound
          have before := ih ordered.front (by omega)
          simpa using put_progress uniform (by omega) before
      | get =>
          have before := ih ordered.front (by omega)
          have available : calls.count .get < calls.count .put := by
            simpa [Nat.add_one_le_iff] using whole
          simpa using get_progress narrow available before

theorem run_taken {size width : Nat} {records : List (List α)}
    (uniform : ∀ record ∈ records, record.length = width) (narrow : size ≤ width)
    (calls : List Call) (ordered : Ordered calls)
    (bound : calls.count .put ≤ records.length) :
    (run size records calls).taken =
      (List.range (calls.count .get)).map (piece size records.flatten) :=
  (run_invariant uniform narrow calls ordered bound).taken

end Stream

end RecordStream
