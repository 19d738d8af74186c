import Mathlib.Logic.Relation
import Mathlib.Tactic.Common

/-! # Programs that read scripts

A `Proc` computes on a state that holds what is still to be read and what has
been done so far; it gives no value when it has not returned by the time the
script ends, and then still gives the state it stopped in.  A loop runs its body from head to
head on some fuel.  `Reached` relates the heads of one run, and
`returned_iff_reached` settles a loop that returned: a property of the result
holds exactly when no head of the run is of the bad kind. -/

set_option autoImplicit false

universe u

abbrev Proc (σ α : Type u) : Type u := OptionT (StateM σ) α

namespace Proc

section Runs
variable {σ α β : Type u}

def exec (p : Proc σ α) (s : σ) : Option α × σ := (OptionT.run p).run s

/-- The script has ended. -/
def stop : Proc σ α := failure

@[simp] theorem exec_pure (a : α) (s : σ) : exec (pure a) s = (some a, s) := rfl

theorem exec_pure_eq_some {a b : α} {s t : σ} :
    exec (pure a) s = (some b, t) ↔ a = b ∧ s = t := by
  simp only [exec_pure, Prod.mk.injEq, Option.some.injEq]

@[simp] theorem exec_stop (s : σ) : exec (stop : Proc σ α) s = (none, s) := rfl

theorem exec_bind (p : Proc σ α) (f : α → Proc σ β) (s : σ) :
    exec (p >>= f) s =
      match exec p s with
      | (some a, s) => exec (f a) s
      | (none, s) => (none, s) := by
  unfold exec
  rw [OptionT.run_bind, Option.elimM, StateT.run_bind]
  change (match (OptionT.run p).run s with | (o, t) => _) = _
  rcases (OptionT.run p).run s with ⟨_ | a, t⟩
  · rfl
  · rfl

theorem exec_bind_some {p : Proc σ α} {f : α → Proc σ β} {s t : σ} {a : α}
    (ran : exec p s = (some a, t)) : exec (p >>= f) s = exec (f a) t := by
  rw [exec_bind, ran]

/-- A program that returned was made of two that returned. -/
theorem exec_bind_eq_some {p : Proc σ α} {f : α → Proc σ β} {s t : σ} {b : β} :
    exec (p >>= f) s = (some b, t) ↔
      ∃ a mid, exec p s = (some a, mid) ∧ exec (f a) mid = (some b, t) := by
  rw [exec_bind]
  rcases h : exec p s with ⟨_ | a, mid⟩
  · simp
  · simp

/-- What follows a program that cannot return is never run. -/
theorem exec_bind_endless [IsEmpty α] (p : Proc σ α) (f : α → Proc σ β) (s : σ) :
    exec (p >>= f) s = (none, (exec p s).2) := by
  rw [exec_bind]
  rcases exec p s with ⟨_ | never, t⟩
  · rfl
  · exact isEmptyElim never

/-- A step on the state that may need the script: `none` when it has ended. -/
def step (f : σ → Option (α × σ)) : Proc σ α := fun s =>
  match f s with
  | some (a, t) => (some a, t)
  | none => (none, s)

def modify (f : σ → σ) : Proc σ PUnit := fun s => (some ⟨⟩, f s)

@[simp] theorem exec_modify (f : σ → σ) (s : σ) : exec (modify f) s = (some ⟨⟩, f s) := rfl

theorem exec_modify_eq_some {f : σ → σ} {s t : σ} {done : PUnit} :
    exec (modify f) s = (some done, t) ↔ f s = t := by
  simp only [exec_modify, Prod.mk.injEq, true_and]

theorem exec_step_eq_some {f : σ → Option (α × σ)} {s t : σ} {a : α} :
    exec (step f) s = (some a, t) ↔ f s = some (a, t) := by
  simp only [exec, step, OptionT.run, StateT.run]
  cases f s with
  | none => simp
  | some pair => simp [Prod.ext_iff]

end Runs

section Loops
variable {σ α β : Type u}

/-- `while (1)`: the body gives the locals of the next head or, at a `break`,
the result. -/
def loop (body : β → Proc σ (β ⊕ α)) : Nat → β → Proc σ α
  | 0, _ => stop
  | fuel + 1, b => do
      match ← body b with
      | .inl next => loop body fuel next
      | .inr a => pure a

/-- The second head is one the loop gets to from the first. -/
def Reached (body : β → Proc σ (β ⊕ α)) : β × σ → β × σ → Prop :=
  Relation.ReflTransGen fun head next => exec (body head.1) head.2 = (some (.inl next.1), next.2)

/-- The heads of a run, counted from its first one. -/
inductive ReachedIn (body : β → Proc σ (β ⊕ α)) (start : β × σ) : Nat → β × σ → Prop
  | first : ReachedIn body start 0 start
  | next {rounds : Nat} {head after : β × σ} (before : ReachedIn body start rounds head)
      (goes : exec (body head.1) head.2 = (some (.inl after.1), after.2)) :
      ReachedIn body start (rounds + 1) after

variable {body : β → Proc σ (β ⊕ α)}

theorem loop_next {b next : β} {s t : σ} (goes : exec (body b) s = (some (.inl next), t))
    (fuel : Nat) : exec (loop body (fuel + 1) b) s = exec (loop body fuel next) t := by
  rw [loop, exec_bind_some goes]

/-- A loop that returned left the body at a head it reached. -/
theorem loop_left {fuel : Nat} {b : β} {s t : σ} {a : α}
    (returned : exec (loop body fuel b) s = (some a, t)) :
    ∃ last : β × σ, Reached body (b, s) last ∧ exec (body last.1) last.2 = (some (.inr a), t) := by
  induction fuel generalizing b s with
  | zero => simp [loop] at returned
  | succ fuel ih =>
      obtain ⟨outcome, mid, ran, rest⟩ := exec_bind_eq_some.mp returned
      cases outcome with
      | inl next =>
          obtain ⟨last, reached, leaves⟩ := ih rest
          exact ⟨last, Relation.ReflTransGen.head ran reached, leaves⟩
      | inr result =>
          obtain ⟨rfl, rfl⟩ := exec_pure_eq_some.mp rest
          exact ⟨(b, s), Relation.ReflTransGen.refl, ran⟩

/-- From every head it reached, a loop that returned gives the same result. -/
theorem loop_from_head {fuel : Nat} {b : β} {s t : σ} {a : α}
    (returned : exec (loop body fuel b) s = (some a, t)) {head : β × σ}
    (reached : Reached body (b, s) head) :
    ∃ left, exec (loop body left head.1) head.2 = (some a, t) := by
  induction reached with
  | refl => exact ⟨fuel, returned⟩
  | tail _ goes ih =>
      obtain ⟨left, before⟩ := ih
      cases left with
      | zero => simp [loop] at before
      | succ left => exact ⟨left, by rw [← loop_next goes left, before]⟩

/-- A head at which the body leaves is the last one of a loop that returned. -/
theorem loop_last {fuel : Nat} {b : β} {s t : σ} {a : α}
    (returned : exec (loop body fuel b) s = (some a, t)) {head : β × σ}
    (reached : Reached body (b, s) head)
    (stays : ∀ next u, exec (body head.1) head.2 ≠ (some (.inl next), u)) :
    exec (body head.1) head.2 = (some (.inr a), t) := by
  obtain ⟨left, rest⟩ := loop_from_head returned reached
  cases left with
  | zero => simp [loop] at rest
  | succ left =>
      obtain ⟨outcome, mid, ran, rest⟩ := exec_bind_eq_some.mp rest
      cases outcome with
      | inl next => exact absurd ran (stays next mid)
      | inr result =>
          obtain ⟨rfl, rfl⟩ := exec_pure_eq_some.mp rest
          exact ran

/-- A loop that leaves at once has one head. -/
theorem Reached.eq_of_left {b : β} {s t : σ} {a : α} (leaves : exec (body b) s = (some (.inr a), t))
    {head : β × σ} (reached : Reached body (b, s) head) : head = (b, s) := by
  rcases Relation.ReflTransGen.cases_head reached with same | ⟨next, goes, -⟩
  · exact same.symm
  · rw [leaves] at goes
    simp at goes

/-- The invariant of all heads of a run that never goes on from a bad one. -/
theorem Reached.keeps {inv bad : β → σ → Prop} {start head : β × σ}
    (reached : Reached body start head) (holds : inv start.1 start.2)
    (preserves : ∀ b s next t, inv b s → ¬bad b s →
      exec (body b) s = (some (.inl next), t) → inv next t)
    (stays : ∀ b s next t, inv b s → bad b s → exec (body b) s ≠ (some (.inl next), t)) :
    inv head.1 head.2 := by
  induction reached with
  | refl => exact holds
  | @tail mid next before goes ih =>
      by_cases isBad : bad mid.1 mid.2
      · exact absurd goes (stays _ _ _ _ ih isBad)
      · exact preserves _ _ _ _ ih isBad goes

/-- What a returned loop gave meets `post` exactly when the run reached no bad
head: heads that are not bad keep `inv` and leave with `post`, and a bad head
never goes round again and leaves without it. -/
theorem returned_iff_reached (inv bad : β → σ → Prop) (post : α → σ → Prop)
    (preserves : ∀ b s next t, inv b s → ¬bad b s →
      exec (body b) s = (some (.inl next), t) → inv next t)
    (establishes : ∀ b s a t, inv b s → ¬bad b s →
      exec (body b) s = (some (.inr a), t) → post a t)
    (stays : ∀ b s next t, inv b s → bad b s → exec (body b) s ≠ (some (.inl next), t))
    (spoils : ∀ b s a t, inv b s → bad b s →
      exec (body b) s = (some (.inr a), t) → ¬post a t)
    {fuel : Nat} {b : β} {s t : σ} {a : α} (holds : inv b s)
    (returned : exec (loop body fuel b) s = (some a, t)) :
    post a t ↔ ∀ head, Reached body (b, s) head → ¬bad head.1 head.2 := by
  constructor
  · intro met head reached isBad
    have atHead := reached.keeps holds preserves stays
    have leaves := loop_last returned reached fun next u => stays _ _ _ _ atHead isBad
    exact spoils _ _ _ _ atHead isBad leaves met
  · intro good
    obtain ⟨last, reached, leaves⟩ := loop_left returned
    have atLast := reached.keeps holds preserves stays
    exact establishes _ _ _ _ atLast (good last reached) leaves

end Loops

end Proc
