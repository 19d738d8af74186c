import Mathlib.Data.List.Infix
import Mathlib.Tactic.Common

/-! # Runs of a deterministic machine

A machine is a step function on states, driven by a list of calls.  `Each` says
that every call of a run is made in a state that allows it, `Along` that an
invariant holds in every state the run visits and a contract holds of every
call.  `along_iff_each` settles such a run by its calls alone: the calls that
are good keep the invariant, and the first one that is not breaks the property. -/

set_option autoImplicit false

namespace Machine

section Runs
variable {σ ω : Type*} (step : σ → ω → σ)

def run (s : σ) (calls : List ω) : σ := calls.foldl step s

def Each (allowed : σ → ω → Prop) : σ → List ω → Prop
  | _, [] => True
  | s, call :: rest => allowed s call ∧ Each allowed (step s call) rest

def Along (inv : σ → Prop) (contract : σ → ω → Prop) : σ → List ω → Prop
  | s, [] => inv s
  | s, call :: rest => inv s ∧ contract s call ∧ Along inv contract (step s call) rest

instance decidableEach (allowed : σ → ω → Prop) [∀ s call, Decidable (allowed s call)] :
    ∀ s calls, Decidable (Each step allowed s calls)
  | _, [] => .isTrue trivial
  | s, call :: rest =>
      have := decidableEach allowed (step s call) rest
      inferInstanceAs (Decidable (allowed s call ∧ Each step allowed (step s call) rest))

theorem each_of_forall {allowed : σ → ω → Prop} (always : ∀ s call, allowed s call) (s : σ)
    (calls : List ω) : Each step allowed s calls := by
  induction calls generalizing s with
  | nil => exact trivial
  | cons call rest ih => exact ⟨always s call, ih (step s call)⟩

theorem each_iff_forall (allowed : ω → Prop) (s : σ) (calls : List ω) :
    Each step (fun _ call => allowed call) s calls ↔ ∀ call ∈ calls, allowed call := by
  induction calls generalizing s with
  | nil => simp [Each]
  | cons call rest ih => rw [Each, ih, List.forall_mem_cons]

variable {step} {inv : σ → Prop} {contract : σ → ω → Prop}

theorem Along.head {s : σ} {calls : List ω} (along : Along step inv contract s calls) : inv s := by
  cases calls with
  | nil => exact along
  | cons call rest => exact along.1

/-- A run property is one of the states it visits and of the calls it makes. -/
theorem along_iff_visited (s : σ) (calls : List ω) :
    Along step inv contract s calls ↔
      (∀ before, before <+: calls → inv (run step s before)) ∧
      (∀ before call, before ++ [call] <+: calls → contract (run step s before) call) := by
  induction calls generalizing s with
  | nil =>
      constructor
      · intro holds
        refine ⟨?_, ?_⟩
        · intro before front
          rw [List.prefix_nil.mp front]
          exact holds
        · intro before call front
          exact absurd (List.prefix_nil.mp front) (by simp)
      · intro visited
        exact visited.1 [] (List.nil_prefix)
  | cons call rest ih =>
      rw [Along, ih]
      constructor
      · rintro ⟨here, kept, states, calls⟩
        refine ⟨?_, ?_⟩
        · intro before front
          rcases List.prefix_cons_iff.mp front with rfl | ⟨tail, rfl, inner⟩
          · exact here
          · exact states tail inner
        · intro before next front
          rcases List.prefix_cons_iff.mp front with nil | ⟨tail, eq, inner⟩
          · exact absurd nil (by simp)
          · cases before with
            | nil =>
                obtain ⟨rfl, rfl⟩ := List.cons.inj eq
                exact kept
            | cons first before =>
                obtain ⟨rfl, rfl⟩ := List.cons.inj eq
                exact calls before next inner
      · rintro ⟨states, calls⟩
        refine ⟨states [] List.nil_prefix, ?_, ?_, ?_⟩
        · exact calls [] call (by simp)
        · intro before front
          exact states (call :: before) ((List.prefix_cons_inj call).mpr front)
        · intro before next front
          exact calls (call :: before) next ((List.prefix_cons_inj call).mpr front)

/-- A run keeps `inv` and `contract` exactly when all its calls are good: `strong`
is the invariant the good calls keep, and a call that is not good, made where
`strong` holds, breaks what is asked of the run. -/
theorem along_iff_each (strong : σ → Prop) (legal good : σ → ω → Prop)
    (implies : ∀ s, strong s → inv s)
    (keeps : ∀ s call, strong s → legal s call → good s call →
      strong (step s call) ∧ contract s call)
    (breaks : ∀ s call, strong s → legal s call → ¬good s call →
      contract s call → ¬inv (step s call))
    {s : σ} (holds : strong s) (calls : List ω) (allowed : Each step legal s calls) :
    Along step inv contract s calls ↔ Each step good s calls := by
  induction calls generalizing s with
  | nil => exact ⟨fun _ => trivial, fun _ => implies s holds⟩
  | cons call rest ih =>
      obtain ⟨legalCall, legalRest⟩ := allowed
      by_cases goodCall : good s call
      · obtain ⟨next, kept⟩ := keeps s call holds legalCall goodCall
        rw [Along, Each, ih next legalRest]
        exact ⟨fun along => ⟨goodCall, along.2.2⟩, fun each => ⟨implies s holds, kept, each.2⟩⟩
      · constructor
        · rintro ⟨-, kept, along⟩
          exact absurd along.head (breaks s call holds legalCall goodCall kept)
        · intro each
          exact absurd each.1 goodCall

end Runs

end Machine
