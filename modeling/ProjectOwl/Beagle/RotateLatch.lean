import ProjectOwl.Beagle.Rotate
import ProjectOwl.Lib.Remainder

/-! # Readings that wrap

`rotate` drops a sample that is half a turn or more from the last position it
took.  While the shaft stays within reach of the first turn, what is dropped are
exactly the readings that have wrapped. -/

set_option autoImplicit false

namespace ProjectOwl.Beagle

open Proc Remainder

/-- The sample at the displacement `d` in the requested direction. -/
def reading (reverse : Bool) (d : ℚ) : ℚ := if reverse then wrap (-d) 360 else wrap d 360

/-- The displacement within the first turn. -/
def clamped (d : ℚ) : ℚ := max 0 (min d 360)

/-- The reading is taken as the next position. -/
def Accepted (reverse : Bool) (position sample : ℚ) : Prop :=
  |mirror reverse sample - position| < 180

/-- What the last position says about the displacement: inside the turn it is the
displacement, outside it the shaft was less than `delta` from the end it left by. -/
structure Tracks (delta position d : ℚ) : Prop where
  inside : 0 < d → d < 360 → position = d
  below : d ≤ 0 → 0 ≤ position ∧ position < delta
  above : 360 ≤ d → 360 - delta < position ∧ position ≤ 360

section Step
variable {reverse : Bool} {a delta position d d' : ℚ}

theorem Tracks.near_clamped (tracks : Tracks delta position d) (positive : 0 < delta)
    (small : delta ≤ 180) : 0 ≤ position ∧ position ≤ 360 ∧ |position - clamped d| < delta := by
  unfold clamped
  rcases le_or_gt d 0 with low | started
  · obtain ⟨nonneg, near⟩ := tracks.below low
    rw [max_eq_left (min_le_of_left_le low), sub_zero, abs_of_nonneg nonneg]
    exact ⟨nonneg, by linarith, near⟩
  · rcases le_or_gt 360 d with high | within
    · obtain ⟨near, capped⟩ := tracks.above high
      rw [min_eq_right high, max_eq_right (by norm_num), abs_lt]
      exact ⟨by linarith, capped, by linarith, by linarith⟩
    · rw [min_eq_left within.le, max_eq_right started.le, tracks.inside started within, sub_self,
        abs_zero]
      exact ⟨started.le, within.le, positive⟩

theorem wrap_turns (k : ℤ) (low : 0 ≤ d - k * 360) (high : d - k * 360 < 360) :
    wrap d 360 = d - k * 360 :=
  wrap_eq (by norm_num) low high

theorem mirror_inside (reverse : Bool) (low : 0 < d) (high : d < 360) :
    mirror reverse (reading reverse d) = d := by
  cases reverse with
  | false =>
      have read := wrap_turns (d := d) 0 (by push_cast; linarith) (by push_cast; linarith)
      simpa [mirror, reading] using read
  | true =>
      have read := wrap_turns (d := -d) (-1) (by push_cast; linarith) (by push_cast; linarith)
      simp only [mirror, reading, if_true, read]
      push_cast
      ring

/-- Before the start a reading is a turn ahead, but for a forward one at the start. -/
theorem mirror_below (reverse : Bool) (low : -360 < d) (high : d ≤ 0) :
    mirror reverse (reading reverse d) = d + 360 ∨
      mirror reverse (reading reverse d) = d ∧ d = 0 := by
  cases reverse with
  | false =>
      rcases lt_or_eq_of_le high with before | rfl
      · left
        have read := wrap_turns (d := d) (-1) (by push_cast; linarith) (by push_cast; linarith)
        simp only [mirror, reading, Bool.false_eq_true, if_false, read]
        push_cast
        ring
      · right
        have read := wrap_turns (d := 0) 0 (by norm_num) (by norm_num)
        simpa [mirror, reading] using read
  | true =>
      left
      have read := wrap_turns (d := -d) 0 (by push_cast; linarith) (by push_cast; linarith)
      simp only [mirror, reading, if_true, read]
      push_cast
      ring

/-- Past the end a reading is a turn behind, but for a mirrored one at the end. -/
theorem mirror_above (reverse : Bool) (low : 360 ≤ d) (high : d < 720) :
    mirror reverse (reading reverse d) = d - 360 ∨
      mirror reverse (reading reverse d) = d ∧ d = 360 := by
  cases reverse with
  | false =>
      left
      have read := wrap_turns (d := d) 1 (by push_cast; linarith) (by push_cast; linarith)
      simp only [mirror, reading, Bool.false_eq_true, if_false, read]
      push_cast
      ring
  | true =>
      rcases lt_or_eq_of_le low with past | rfl
      · left
        have read := wrap_turns (d := -d) (-2) (by push_cast; linarith) (by push_cast; linarith)
        simp only [mirror, reading, if_true, read]
        push_cast
        ring
      · right
        have read := wrap_turns (d := -360) (-1) (by norm_num) (by norm_num)
        simp only [mirror, reading, if_true, read]
        norm_num

theorem latch_of_accepted {sample : ℚ} (accepted : Accepted reverse position sample) :
    latch reverse position sample = mirror reverse sample := if_pos accepted

theorem latch_of_rejected {sample : ℚ} (rejected : ¬Accepted reverse position sample) :
    latch reverse position sample = position := if_neg rejected

theorem tracks_self (positive : 0 < delta) (low : 0 ≤ d) (high : d ≤ 360) : Tracks delta d d where
  inside _ _ := rfl
  below before := ⟨low, by linarith⟩
  above past := ⟨by linarith, high⟩

/-- The reading at `d` is accepted exactly when it is the displacement, and the
position kept tracks `d`. -/
structure Latched (reverse : Bool) (delta position d : ℚ) : Prop where
  accepted : Accepted reverse position (reading reverse d) ↔
    mirror reverse (reading reverse d) = d
  tracks : Tracks delta (latch reverse position (reading reverse d)) d

theorem latched_of_read (positive : 0 < delta) (low : 0 ≤ d) (high : d ≤ 360)
    (read : mirror reverse (reading reverse d) = d) (near : |d - position| < 180) :
    Latched reverse delta position d := by
  have accepted : Accepted reverse position (reading reverse d) := by
    rw [Accepted, read]
    exact near
  constructor
  · exact iff_of_true accepted read
  · rw [latch_of_accepted accepted, read]
    exact tracks_self positive low high

theorem latched_of_wrapped (tracks : Tracks delta position d)
    (wrapped : mirror reverse (reading reverse d) ≠ d)
    (far : 180 ≤ |mirror reverse (reading reverse d) - position|) :
    Latched reverse delta position d := by
  have rejected : ¬Accepted reverse position (reading reverse d) := not_lt.mpr far
  constructor
  · exact iff_of_false rejected wrapped
  · rw [latch_of_rejected rejected]
    exact tracks

theorem Tracks.step_below (tracks : Tracks delta position d) (positive : 0 < delta)
    (fits : a + delta ≤ 180) (moved : |d' - d| < delta) (nonneg : 0 ≤ a) (low : -a ≤ d')
    (before : d' ≤ 0) : Latched reverse delta position d' := by
  obtain ⟨back, forth⟩ := abs_lt.mp moved
  -- The last position is within `delta` of the start.
  have near : 0 ≤ position ∧ position < delta := by
    rcases le_or_gt d 0 with also | was
    · exact tracks.below also
    · rw [tracks.inside was (by linarith)]
      exact ⟨was.le, by linarith⟩
  rcases mirror_below reverse (by linarith) before with wrapped | ⟨exact', rfl⟩
  · apply latched_of_wrapped
    · exact ⟨fun inside => by linarith, fun _ => near, fun past => by linarith⟩
    · rw [wrapped]
      linarith
    · rw [wrapped, abs_of_nonneg (by linarith)]
      linarith
  · apply latched_of_read positive le_rfl (by norm_num) exact'
    rw [abs_lt]
    exact ⟨by linarith, by linarith⟩

theorem Tracks.step_above (tracks : Tracks delta position d) (positive : 0 < delta)
    (fits : a + delta ≤ 180) (moved : |d' - d| < delta) (nonneg : 0 ≤ a) (high : d' ≤ 360 + a)
    (past : 360 ≤ d') : Latched reverse delta position d' := by
  obtain ⟨back, forth⟩ := abs_lt.mp moved
  -- The last position is within `delta` of the end.
  have near : 360 - delta < position ∧ position ≤ 360 := by
    rcases le_or_gt 360 d with also | was
    · exact tracks.above also
    · rw [tracks.inside (by linarith) was]
      exact ⟨by linarith, was.le⟩
  rcases mirror_above reverse past (by linarith) with wrapped | ⟨exact', rfl⟩
  · apply latched_of_wrapped
    · exact ⟨fun _ inside => by linarith, fun before => by linarith, fun _ => near⟩
    · rw [wrapped]
      linarith
    · rw [wrapped, abs_of_nonpos (by linarith)]
      linarith
  · apply latched_of_read positive (by norm_num) le_rfl exact'
    rw [abs_lt]
    exact ⟨by linarith, by linarith⟩

theorem Tracks.step_inside (tracks : Tracks delta position d) (positive : 0 < delta)
    (fits : a + delta ≤ 180) (moved : |d' - d| < delta) (nonneg : 0 ≤ a) (started : 0 < d')
    (within : d' < 360) : Latched reverse delta position d' := by
  obtain ⟨back, forth⟩ := abs_lt.mp moved
  apply latched_of_read positive started.le within.le (mirror_inside reverse started within)
  rw [abs_lt]
  rcases le_or_gt d 0 with was | was
  · obtain ⟨nonneg, small⟩ := tracks.below was
    exact ⟨by linarith, by linarith⟩
  · rcases le_or_gt 360 d with far | inside
    · obtain ⟨large, capped⟩ := tracks.above far
      exact ⟨by linarith, by linarith⟩
    · rw [tracks.inside was inside]
      exact ⟨by linarith, by linarith⟩

theorem Tracks.step (tracks : Tracks delta position d) (nonneg : 0 ≤ a) (positive : 0 < delta)
    (fits : a + delta ≤ 180) (moved : |d' - d| < delta) (low : -a ≤ d') (high : d' ≤ 360 + a) :
    Latched reverse delta position d' := by
  rcases le_or_gt d' 0 with before | started
  · exact tracks.step_below positive fits moved nonneg low before
  · rcases le_or_gt 360 d' with past | within
    · exact tracks.step_above positive fits moved nonneg high past
    · exact tracks.step_inside positive fits moved nonneg started within

end Step

/-! ## The runs of the loop -/

section Runs
variable {reverse : Bool} {value : ℚ} {l : RotateLocals} {s t : World}

theorem rotateControl_position {next : RotateLocals}
    (ran : exec (rotateControl l) s = (some (.inl next), t)) : next.position = l.position := by
  obtain ⟨ramp, mid, ranControl, ranPure⟩ := exec_bind_eq_some.mp ran
  simp only [exec_pure, Prod.mk.injEq, Option.some.injEq, Sum.inl.injEq] at ranPure
  rw [← ranPure.1]

/-- The position at the next head is what the sample of this one left. -/
theorem rotateBody_position {next : RotateLocals}
    (ran : exec (rotateBody reverse value l) s = (some (.inl next), t)) :
    ∃ p rest, s.positions = p :: rest ∧ next.position = latch reverse l.position p := by
  obtain ⟨p, first, ranSample, ranTest⟩ := exec_bind_eq_some.mp ran
  obtain ⟨rest, positions, rfl⟩ := servoPosition_some ranSample
  refine ⟨p, rest, positions, ?_⟩
  dsimp only at ranTest
  by_cases near : |rotateErr reverse value (latch reverse l.position p)| ≤ 4
  · rw [if_pos near] at ranTest
    obtain ⟨startTime, mid, ranWait, ranRest⟩ := exec_bind_eq_some.mp ranTest
    obtain ⟨arrived, after, ranArrived, ranExit⟩ := exec_bind_eq_some.mp ranRest
    cases arrived with
    | true => simp at ranExit
    | false =>
        rw [if_neg Bool.false_ne_true] at ranExit
        exact rotateControl_position ranExit
  · rw [if_neg near] at ranTest
    exact rotateControl_position ranTest

/-- A displacement for each sample of a run: it starts at zero, moves by less than
`delta` a sample and stays within `a` of the first turn, and the samples read it. -/
structure Moves (reverse : Bool) (a delta : ℚ) (d : ℕ → ℚ)
    (heads : ℕ → RotateLocals × World → Prop) : Prop where
  start : d 0 = 0
  slow : ∀ k, |d (k + 1) - d k| < delta
  low : ∀ k, -a ≤ d k
  high : ∀ k, d k ≤ 360 + a
  read : ∀ k head p rest, heads k head → head.2.positions = p :: rest → p = reading reverse (d k)

variable {a delta : ℚ} {d : ℕ → ℚ} {startTime : Int} {entry : World}

/-- Before each sample the position tracks a displacement less than `delta` away. -/
theorem head_tracks (nonneg : 0 ≤ a) (positive : 0 < delta) (fits : a + delta ≤ 180)
    (moves : Moves reverse a delta d
      (ReachedIn (rotateBody reverse value) (.start startTime, entry)))
    {k : ℕ} {head : RotateLocals × World}
    (reached : ReachedIn (rotateBody reverse value) (.start startTime, entry) k head) :
    ∃ before, Tracks delta head.1.position before ∧ |d k - before| < delta := by
  induction reached with
  | first =>
      refine ⟨0, tracks_self positive le_rfl (show (0 : ℚ) ≤ 360 by norm_num), ?_⟩
      rw [moves.start, sub_zero, abs_zero]
      exact positive
  | @next rounds mid after reachedMid goes ih =>
      obtain ⟨before, tracks, moved⟩ := ih
      obtain ⟨p, rest, positions, latched⟩ := rotateBody_position goes
      obtain rfl := moves.read rounds mid p rest reachedMid positions
      refine ⟨d rounds, ?_, moves.slow rounds⟩
      rw [latched]
      exact (tracks.step nonneg positive fits moved (moves.low rounds) (moves.high rounds)).tracks

/-- After each sample the position, which is the one at the next head, is the displacement,
within `delta` once clamped to the first turn, and the sample was taken exactly when it
had not wrapped. -/
theorem rotate_tracks_displacement (reverse : Bool) (value a delta : ℚ) (d : ℕ → ℚ)
    (startTime : Int) (entry : World) (nonneg : 0 ≤ a) (positive : 0 < delta)
    (fits : a + delta ≤ 180)
    (moves : Moves reverse a delta d
      (ReachedIn (rotateBody reverse value) (.start startTime, entry)))
    (k : ℕ) (head : RotateLocals × World)
    (reached : ReachedIn (rotateBody reverse value) (.start startTime, entry) k head)
    (p : ℚ) (rest : List ℚ) (positions : head.2.positions = p :: rest) :
    let position := latch reverse head.1.position p
    (0 ≤ position ∧ position ≤ 360 ∧ |position - clamped (d k)| < delta) ∧
      (Accepted reverse head.1.position p ↔ mirror reverse p = d k) ∧
      (0 < d k → d k < 360 → Accepted reverse head.1.position p ∧ position = d k) ∧
      ∀ next t, exec (rotateBody reverse value head.1) head.2 = (some (.inl next), t) →
        next.position = position := by
  intro position
  obtain ⟨before, tracks, moved⟩ := head_tracks nonneg positive fits moves reached
  obtain rfl := moves.read k head p rest reached positions
  obtain ⟨accepted, after⟩ :=
    tracks.step nonneg positive fits moved (moves.low k) (moves.high k)
  refine ⟨after.near_clamped positive (by linarith), accepted, ?_, ?_⟩
  · intro started within
    exact ⟨accepted.mpr (mirror_inside reverse started within), after.inside started within⟩
  · intro next t goes
    obtain ⟨q, rest', sampled, latched⟩ := rotateBody_position goes
    have same : q = reading reverse (d k) := (List.cons.inj (sampled.symm.trans positions)).1
    exact latched.trans (congrArg (latch reverse head.1.position) same)

end Runs

/-- A rotation in reverse whose start reads as 360. -/
def seamStart : RotateLocals × World := (.start 0, ⟨[1], [], [0, 355], []⟩)

/-- Its second head; the script of the clock ends there. -/
def seamNext : RotateLocals × World :=
  (⟨⟨90, 0, 0, 0⟩, 0⟩, ⟨[], [], [355], [.position .rotationServo 0, .clock 1]⟩)

theorem seam_heads {k : ℕ} {head : RotateLocals × World}
    (reached : ReachedIn (rotateBody true 90) seamStart k head) :
    k = 0 ∧ head = seamStart ∨ k = 1 ∧ head = seamNext := by
  induction reached with
  | first => exact Or.inl ⟨rfl, rfl⟩
  | @next rounds mid after before goes ih =>
      rcases ih with ⟨rfl, rfl⟩ | ⟨rfl, rfl⟩
      · have once : exec (rotateBody true 90 seamStart.1) seamStart.2 =
            (some (.inl seamNext.1), seamNext.2) := by decide +kernel
        rw [once, Prod.mk.injEq, Option.some.injEq, Sum.inl.injEq] at goes
        exact Or.inr ⟨rfl, (Prod.ext goes.1 goes.2).symm⟩
      · have ends : (exec (rotateBody true 90 seamNext.1) seamNext.2).1 = none := by
          decide +kernel
        rw [goes] at ends
        simp at ends

/-- The start is rejected as it reads 360, the five degrees after it are taken. -/
theorem rotate_tracks_displacement_seam :
    ¬Accepted true seamStart.1.position 0 ∧
      seamNext.1.position = latch true seamStart.1.position 0 ∧
      latch true seamNext.1.position 355 = 5 := by
  have moves : Moves true 0 10 (fun k => if k = 0 then 0 else 5)
      (ReachedIn (rotateBody true 90) seamStart) := by
    refine ⟨rfl, ?_, ?_, ?_, ?_⟩
    · intro k
      cases k with
      | zero => norm_num
      | succ k => norm_num
    · intro k
      split
      · norm_num
      · norm_num
    · intro k
      split
      · norm_num
      · norm_num
    · intro k head p rest reached positions
      rcases seam_heads reached with ⟨rfl, rfl⟩ | ⟨rfl, rfl⟩
      · obtain rfl : (0 : ℚ) = p := (List.cons.inj positions).1
        decide +kernel
      · obtain rfl : (355 : ℚ) = p := (List.cons.inj positions).1
        decide +kernel
  have once : exec (rotateBody true 90 seamStart.1) seamStart.2 =
      (some (.inl seamNext.1), seamNext.2) := by decide +kernel
  have tracked := rotate_tracks_displacement true 90 0 10 _ 0 _ le_rfl (by norm_num)
    (by norm_num) moves
  have first := tracked 0 seamStart .first 0 [355] rfl
  have second := tracked 1 seamNext (.next .first once) 355 [] rfl
  refine ⟨?_, first.2.2.2 seamNext.1 seamNext.2 once, ?_⟩
  · rw [first.2.1]
    decide +kernel
  · exact (second.2.2.1 (by norm_num) (by norm_num)).2

end ProjectOwl.Beagle
