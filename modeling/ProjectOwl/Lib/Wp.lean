import ProjectOwl.Lib.Proc

/-! # Programs that are cut short

`Wp` is the condition on the state under which a program returns in `post` or,
when its script has ended, stops in `halt`.  A property that must hold at all
times of a run is asked for in both.  `always_iff_reached` settles it for a loop:
it holds of every run, however long, exactly when the loop reaches no head of
the bad kind. -/

set_option autoImplicit false

universe u

namespace Proc

section Wp
variable {σ α β : Type u} {s : σ} {halt : σ → Prop}

def Wp (p : Proc σ α) (post : α → σ → Prop) (halt : σ → Prop) (s : σ) : Prop :=
  match exec p s with
  | (some a, t) => post a t
  | (none, t) => halt t

@[simp] theorem wp_pure {post : α → σ → Prop} (a : α) :
    Wp (pure a) post halt s ↔ post a s := Iff.rfl

@[simp] theorem wp_modify {post : PUnit → σ → Prop} (f : σ → σ) :
    Wp (modify f) post halt s ↔ post ⟨⟩ (f s) := Iff.rfl

theorem wp_bind {p : Proc σ α} {f : α → Proc σ β} {post : β → σ → Prop} :
    Wp (p >>= f) post halt s ↔ Wp p (fun a t => Wp (f a) post halt t) halt s := by
  unfold Wp
  rw [exec_bind]
  rcases exec p s with ⟨_ | a, t⟩
  · rfl
  · rfl

theorem wp_map {p : Proc σ α} {f : α → β} {post : β → σ → Prop} :
    Wp (f <$> p) post halt s ↔ Wp p (fun a => post (f a)) halt s := by
  rw [map_eq_pure_bind, wp_bind]
  rfl

theorem wp_step {f : σ → Option (α × σ)} {post : α → σ → Prop} :
    Wp (step f) post halt s ↔
      (f s = none → halt s) ∧ ∀ a t, f s = some (a, t) → post a t := by
  simp only [Wp, exec, step, OptionT.run, StateT.run]
  cases f s with
  | none => simp
  | some pair =>
      obtain ⟨a, t⟩ := pair
      simp

theorem wp_and {p : Proc σ α} {post post' : α → σ → Prop} {halt' : σ → Prop}
    (first : Wp p post halt s) (second : Wp p post' halt' s) :
    Wp p (fun a t => post a t ∧ post' a t) (fun t => halt t ∧ halt' t) s := by
  revert first second
  unfold Wp
  rcases exec p s with ⟨_ | a, t⟩
  · exact And.intro
  · exact And.intro

theorem wp_mono {p : Proc σ α} {post post' : α → σ → Prop} {halt' : σ → Prop}
    (holds : Wp p post halt s) (returns : ∀ a t, post a t → post' a t)
    (stops : ∀ t, halt t → halt' t) : Wp p post' halt' s := by
  revert holds
  unfold Wp
  rcases exec p s with ⟨_ | a, t⟩
  · exact stops t
  · exact returns a t

/-- What holds of the state whatever the outcome. -/
theorem wp_final {p : Proc σ α} {always : σ → Prop} :
    Wp p (fun _ => always) always s ↔ always (exec p s).2 := by
  unfold Wp
  rcases exec p s with ⟨_ | a, t⟩
  · rfl
  · rfl

theorem wp_exec {p : Proc σ α} {post : α → σ → Prop} {t : σ} {a : α}
    (ran : exec p s = (some a, t)) : Wp p post halt s ↔ post a t := by
  rw [Wp, ran]

theorem wp_of_exec {p : Proc σ α} {post : α → σ → Prop} {t : σ} {a : α}
    (holds : Wp p post halt s) (ran : exec p s = (some a, t)) : post a t :=
  (wp_exec ran).mp holds

end Wp

section Loops
variable {σ α β : Type u} {body : β → Proc σ (β ⊕ α)} {b : β} {s : σ} {halt : σ → Prop}

theorem wp_loop_from (inv : β → σ → Prop) {post : α → σ → Prop} {start : β × σ}
    (round : ∀ b s, Reached body start (b, s) → inv b s →
      Wp (body b) (fun outcome t => outcome.elim (inv · t) (post · t)) halt s)
    (cut : ∀ b s, inv b s → halt s) (fuel : Nat) (reached : Reached body start (b, s))
    (holds : inv b s) : Wp (loop body fuel b) post halt s := by
  induction fuel generalizing b s with
  | zero => exact cut b s holds
  | succ fuel ih =>
      have once := round b s reached holds
      rw [loop, wp_bind]
      unfold Wp at once ⊢
      rcases ran : exec (body b) s with ⟨_ | outcome, t⟩
      · rw [ran] at once
        exact once
      · rw [ran] at once
        cases outcome with
        | inl next => exact ih (reached.tail ran) once
        | inr a => exact once

/-- The rule of a loop, with an invariant that is asked of the heads it reaches. -/
theorem wp_loop (inv : β → σ → Prop) {post : α → σ → Prop}
    (round : ∀ head t, Reached body (b, s) (head, t) → inv head t →
      Wp (body head) (fun outcome t => outcome.elim (inv · t) (post · t)) halt t)
    (cut : ∀ head t, inv head t → halt t) (holds : inv b s) (fuel : Nat) :
    Wp (loop body fuel b) post halt s :=
  wp_loop_from inv round cut fuel Relation.ReflTransGen.refl holds

theorem exec_loop_one : (exec (loop body 1 b) s).2 = (exec (body b) s).2 := by
  rw [loop, exec_bind]
  rcases exec (body b) s with ⟨_ | outcome, t⟩
  · rfl
  · cases outcome with
    | inl next => rfl
    | inr a => rfl

/-- With enough fuel a loop gets to each of its heads. -/
theorem exec_loop_reached {head : β × σ} (reached : Reached body (b, s) head) :
    ∃ rounds, ∀ fuel, exec (loop body (rounds + fuel) b) s =
      exec (loop body fuel head.1) head.2 := by
  induction reached with
  | refl => exact ⟨0, fun fuel => by rw [Nat.zero_add]⟩
  | tail _ goes ih =>
      obtain ⟨rounds, before⟩ := ih
      refine ⟨rounds + 1, fun fuel => ?_⟩
      rw [Nat.add_assoc, Nat.add_comm 1 fuel, before, loop_next goes]

/-- A run keeps `always` at all times and `atHead` at its heads exactly when it
reaches no bad head: the other heads keep the invariant that gives both, and an
iteration from a bad head breaks one of the two. -/
theorem always_iff_reached (inv bad : β → σ → Prop) (always : σ → Prop) (atHead : β → σ → Prop)
    (implies : ∀ b s, inv b s → always s ∧ atHead b s)
    (keeps : ∀ b s, inv b s → ¬bad b s →
      Wp (body b) (fun outcome t => outcome.elim (inv · t) (fun _ => always t)) always s)
    (breaks : ∀ b s, inv b s → bad b s →
      Wp (body b) (fun outcome t =>
        outcome.elim (fun next => always t → ¬atHead next t) (fun _ => ¬always t))
        (fun t => ¬always t) s)
    (holds : inv b s) :
    ((∀ fuel, always (exec (loop body fuel b) s).2) ∧
        ∀ head, Reached body (b, s) head → atHead head.1 head.2) ↔
      ∀ head, Reached body (b, s) head → ¬bad head.1 head.2 := by
  have next : ∀ b s next t, inv b s → ¬bad b s →
      exec (body b) s = (some (.inl next), t) → inv next t := by
    intro b s next t atHead good goes
    have after := wp_of_exec (keeps b s atHead good) goes
    exact after
  constructor
  · rintro ⟨kept, heads⟩
    have good : ∀ head, Reached body (b, s) head → inv head.1 head.2 → ¬bad head.1 head.2 := by
      intro head reached held isBad
      have broken := breaks _ _ held isBad
      obtain ⟨rounds, arrives⟩ := exec_loop_reached reached
      have once := kept (rounds + 1)
      rw [arrives, exec_loop_one] at once
      unfold Wp at broken
      rcases ran : exec (body head.1) head.2 with ⟨_ | outcome, t⟩
      · rw [ran] at broken once
        exact broken once
      · rw [ran] at broken once
        cases outcome with
        | inl after => exact broken once (heads (after, t) (reached.tail ran))
        | inr a => exact broken once
    have invariant : ∀ head, Reached body (b, s) head → inv head.1 head.2 := by
      intro head reached
      induction reached with
      | refl => exact holds
      | tail before goes ih => exact next _ _ _ _ ih (good _ before ih) goes
    exact fun head reached => good head reached (invariant head reached)
  · intro good
    constructor
    · intro fuel
      refine wp_final.mp (wp_loop inv ?_ (fun b s held => (implies b s held).1) holds fuel)
      intro head t reached held
      exact keeps head t held (good _ reached)
    · intro head reached
      refine (implies _ _ ?_).2
      induction reached with
      | refl => exact holds
      | tail before goes ih => exact next _ _ _ _ ih (good _ before) goes

end Loops

end Proc
