import Mathlib.Data.List.DropRight
import Mathlib.Data.List.TakeWhile
import Mathlib.Tactic.Common

/-! # Maximal runs of a list

`runs p xs` lists, in order, the maximal blocks of consecutive elements of `xs`
that satisfy `p`.  Two equations determine it: an element outside `p` cuts the
list (`runs_append_cons`), and a nonempty block inside `p` is its own only run
(`runs_of_all`).  `runs_append_cut` says what happens to the runs when a list
is cut at an arbitrary place, possibly inside a run. -/

set_option autoImplicit false

namespace MaximalRuns

section Runs
variable {α : Type*} (p : α → Bool)

def runs (xs : List α) : List (List α) :=
  (xs.splitOnP fun x => !p x).filter fun r => !r.isEmpty

/-- The runs that end before the list does: a last run touching the end of the
list is left out. -/
def closedRuns (xs : List α) : List (List α) :=
  if xs.rtakeWhile p = [] then runs p xs else (runs p xs).dropLast

@[simp] theorem runs_nil : runs p [] = [] := by
  simp [runs]

theorem runs_append_cons (xs ys : List α) (c : α) (outside : p c = false) :
    runs p (xs ++ c :: ys) = runs p xs ++ runs p ys := by
  unfold runs
  rw [List.splitOnP_append_cons xs ys (by simp [outside]), List.filter_append]

theorem runs_cons_outside (ys : List α) (c : α) (outside : p c = false) :
    runs p (c :: ys) = runs p ys := by
  simpa using runs_append_cons p [] ys c outside

theorem runs_of_all (xs : List α) (nonempty : xs ≠ []) (inside : ∀ x ∈ xs, p x = true) :
    runs p xs = [xs] := by
  have single : xs.splitOnP (fun x => !p x) = [xs] := by
    apply List.splitOnP_eq_singleton
    intro x member
    simp [inside x member]
  simp [runs, single, nonempty]

/-- Lists are built from blocks inside `p` and elements that cut them. -/
theorem cutInduction {motive : List α → Prop}
    (block : ∀ t, (∀ x ∈ t, p x = true) → motive t)
    (cut : ∀ t c ys, (∀ x ∈ t, p x = true) → p c = false → motive ys → motive (t ++ c :: ys))
    (xs : List α) : motive xs := by
  induction hn : xs.length using Nat.strong_induction_on generalizing xs with
  | _ n ih =>
      have inside : ∀ x ∈ xs.takeWhile p, p x = true := fun x => List.mem_takeWhile_imp
      cases rest : xs.dropWhile p with
      | nil =>
          have whole : xs.takeWhile p = xs := by
            simpa [rest] using List.takeWhile_append_dropWhile (p := p) (l := xs)
          rw [← whole]
          exact block _ inside
      | cons c ys =>
          have whole : xs.takeWhile p ++ c :: ys = xs := by
            rw [← rest, List.takeWhile_append_dropWhile]
          have outside : p c = false := by
            have := List.head_dropWhile_not p (l := xs) (by simp [rest])
            simpa [rest] using this
          rw [← whole] at hn ⊢
          simp only [List.length_append, List.length_cons] at hn
          exact cut _ c ys inside outside (ih ys.length (by omega) ys rfl)

theorem mem_runs (xs : List α) : ∀ r ∈ runs p xs, r ≠ [] ∧ ∀ x ∈ r, p x = true := by
  have blocks : ∀ t : List α, (∀ x ∈ t, p x = true) →
      ∀ r ∈ runs p t, r ≠ [] ∧ ∀ x ∈ r, p x = true := by
    intro t inside r member
    by_cases empty : t = []
    · simp [empty] at member
    · rw [runs_of_all p t empty inside, List.mem_singleton] at member
      exact member ▸ ⟨empty, inside⟩
  induction xs using cutInduction p with
  | block t inside => exact blocks t inside
  | cut t c ys inside outside ih =>
      intro r member
      rw [runs_append_cons p t ys c outside, List.mem_append] at member
      rcases member with member | member
      · exact blocks t inside r member
      · exact ih r member

/-- The runs keep every element inside `p`, in order, and nothing else. -/
theorem runs_flatten (xs : List α) : (runs p xs).flatten = xs.filter p := by
  have blocks : ∀ t : List α, (∀ x ∈ t, p x = true) → (runs p t).flatten = t := by
    intro t inside
    by_cases empty : t = []
    · simp [empty]
    · simp [runs_of_all p t empty inside]
  induction xs using cutInduction p with
  | block t inside => rw [blocks t inside, List.filter_eq_self.mpr inside]
  | cut t c ys inside outside ih =>
      rw [runs_append_cons p t ys c outside, List.flatten_append, blocks t inside, ih]
      simp [outside, List.filter_eq_self.mpr inside]

theorem runs_eq_nil (xs : List α) (outside : ∀ x ∈ xs, p x = false) : runs p xs = [] := by
  induction xs with
  | nil => exact runs_nil p
  | cons x xs ih =>
      rw [runs_cons_outside p xs x (outside x (List.mem_cons_self ..))]
      exact ih fun y member => outside y (List.mem_cons_of_mem _ member)

theorem runs_eq_nil_iff (xs : List α) : runs p xs = [] ↔ ∀ x ∈ xs, p x = false := by
  constructor
  · intro empty x member
    have none : xs.filter p = [] := by rw [← runs_flatten, empty, List.flatten_nil]
    simpa using List.filter_eq_nil_iff.mp none x member
  · exact runs_eq_nil p xs

/-! ## Cutting a list -/

theorem runs_append_of_right (xs ys : List α) (boundary : ys.takeWhile p = []) :
    runs p (xs ++ ys) = runs p xs ++ runs p ys := by
  cases ys with
  | nil => simp
  | cons c ys =>
      have outside : p c = false := by
        by_contra inside
        simp [List.takeWhile_cons, inside] at boundary
      rw [runs_append_cons p xs ys c outside, runs_cons_outside p ys c outside]

theorem runs_append_of_left (xs ys : List α) (boundary : xs.rtakeWhile p = []) :
    runs p (xs ++ ys) = runs p xs ++ runs p ys := by
  rcases List.eq_nil_or_concat xs with empty | ⟨front, c, split⟩
  · simp [empty]
  · rw [List.concat_eq_append] at split
    subst split
    have outside : p c = false := by
      by_contra inside
      simp [inside] at boundary
    rw [List.append_assoc, List.singleton_append, runs_append_cons p front ys c outside,
      runs_append_cons p front [] c outside]
    simp

theorem rtakeWhile_rdropWhile (xs : List α) : (xs.rdropWhile p).rtakeWhile p = [] := by
  rw [List.rtakeWhile_eq_nil_iff]
  exact List.rdropWhile_last_not p xs

theorem takeWhile_dropWhile (ys : List α) : (ys.dropWhile p).takeWhile p = [] := by
  rw [List.takeWhile_eq_nil_iff]
  intro bound
  have := List.head_dropWhile_not p (List.ne_nil_of_length_pos bound)
  simpa [List.head_eq_getElem] using this

theorem runs_split_right (xs : List α) :
    runs p xs = runs p (xs.rdropWhile p) ++ runs p (xs.rtakeWhile p) := by
  conv_lhs => rw [← List.rdropWhile_append_rtakeWhile (p := p) (l := xs)]
  exact runs_append_of_left p _ _ (rtakeWhile_rdropWhile p xs)

theorem runs_split_left (ys : List α) :
    runs p ys = runs p (ys.takeWhile p) ++ runs p (ys.dropWhile p) := by
  conv_lhs => rw [← List.takeWhile_append_dropWhile (p := p) (l := ys)]
  exact runs_append_of_right p _ _ (takeWhile_dropWhile p ys)

/-- A cut joins the last block before it with the first block after it and
leaves every other run alone. -/
theorem runs_append_cut (xs ys : List α) :
    runs p (xs ++ ys) = runs p (xs.rdropWhile p) ++
      (runs p (xs.rtakeWhile p ++ ys.takeWhile p) ++ runs p (ys.dropWhile p)) := by
  have whole : xs ++ ys = xs.rdropWhile p ++
      ((xs.rtakeWhile p ++ ys.takeWhile p) ++ ys.dropWhile p) := by
    rw [List.append_assoc, List.takeWhile_append_dropWhile, ← List.append_assoc,
      List.rdropWhile_append_rtakeWhile]
  rw [whole, runs_append_of_left p _ _ (rtakeWhile_rdropWhile p xs),
    runs_append_of_right p _ _ (takeWhile_dropWhile p ys)]

/-- A cut inside a run: the run is `half` before the cut and longer in the whole
list. -/
theorem runs_cut_inside (xs ys : List α) (half : xs.rtakeWhile p ≠ []) :
    runs p xs = runs p (xs.rdropWhile p) ++ [xs.rtakeWhile p] ∧
    runs p (xs ++ ys) = runs p (xs.rdropWhile p) ++
      (xs.rtakeWhile p ++ ys.takeWhile p) :: runs p (ys.dropWhile p) ∧
    (runs p (xs.rdropWhile p) ≠ [] ↔ 2 ≤ (runs p xs).length) := by
  have inside : ∀ x ∈ xs.rtakeWhile p, p x = true := fun x => List.mem_rtakeWhile_imp
  have joined : ∀ x ∈ xs.rtakeWhile p ++ ys.takeWhile p, p x = true := by
    intro x member
    rcases List.mem_append.mp member with left | right
    · exact inside x left
    · exact List.mem_takeWhile_imp right
  have before : runs p xs = runs p (xs.rdropWhile p) ++ [xs.rtakeWhile p] := by
    rw [runs_split_right p xs, runs_of_all p _ half inside]
  refine ⟨before, ?_, ?_⟩
  · rw [runs_append_cut p xs ys, runs_of_all p _ (by simp [half]) joined, List.singleton_append]
  · rw [before, List.length_append, List.length_singleton, ← List.length_pos_iff]
    omega

theorem runs_outside_append (xs ys : List α) (outside : ∀ x ∈ xs, p x = false) :
    runs p (xs ++ ys) = runs p ys := by
  induction xs with
  | nil => rfl
  | cons x xs ih =>
      rw [List.cons_append, runs_cons_outside p _ x (outside x (List.mem_cons_self ..))]
      exact ih fun y member => outside y (List.mem_cons_of_mem _ member)

theorem closedRuns_eq (xs : List α) : closedRuns p xs = runs p (xs.rdropWhile p) := by
  unfold closedRuns
  split
  · rename_i boundary
    rw [runs_split_right p xs, boundary, runs_nil, List.append_nil]
  · rename_i pending
    rw [runs_split_right p xs, runs_of_all p (xs.rtakeWhile p) pending
      fun x => List.mem_rtakeWhile_imp, List.dropLast_concat]

theorem rdropWhile_append_cons (xs ys : List α) (c : α) (outside : p c = false) :
    (xs ++ c :: ys).rdropWhile p = xs ++ c :: ys.rdropWhile p := by
  induction ys using List.reverseRecOn with
  | nil =>
      rw [List.rdropWhile_concat_neg p xs c (by simp [outside])]
      rfl
  | append_singleton ys d ih =>
      rw [← List.cons_append, ← List.append_assoc]
      by_cases inside : p d = true
      · rw [List.rdropWhile_concat_pos p _ d inside, List.rdropWhile_concat_pos p _ d inside, ih]
      · rw [List.rdropWhile_concat_neg p _ d inside, List.rdropWhile_concat_neg p _ d inside]
        simp

theorem closedRuns_append_cons (xs ys : List α) (c : α) (outside : p c = false) :
    closedRuns p (xs ++ c :: ys) = runs p xs ++ closedRuns p ys := by
  rw [closedRuns_eq, closedRuns_eq, rdropWhile_append_cons p xs ys c outside,
    runs_append_cons p xs _ c outside]

end Runs

end MaximalRuns
