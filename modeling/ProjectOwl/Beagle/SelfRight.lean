import ProjectOwl.Beagle.World

/-! # Righting the payload

`self_right` of `beagle/owl.c`.  Its loop is left after a pause, on a test that
takes the second reading's `x` but the angle of the reading before the pause. -/

set_option autoImplicit false

namespace ProjectOwl.Beagle

open Proc

structure RightLocals where
  error : Dbl
  prevError : Dbl
  output : Dbl
  integral : Dbl
  derivative : Dbl
  reading : Reading
  startTime : Int

section SelfRight
variable (libm : Libm)

/-- `atan2(y, -z) * 180/PI`. -/
def Reading.err (r : Reading) : Dbl := libm.atan2 r.y (-r.z) * 180 / PI

/-- Lying along the axis, so that no angle is defined. -/
def Reading.Axial (r : Reading) : Prop := (0.92 : Dbl) < r.x.fabs

/-- The angle is small enough. -/
def Small (error : Dbl) : Prop := error.fabs < (0.1 : Dbl)

instance (r : Reading) : Decidable r.Axial := inferInstanceAs (Decidable (_ < _))

instance (error : Dbl) : Decidable (Small error) := inferInstanceAs (Decidable (_ < _))

/-- The controller's part of an iteration. -/
def selfRightDrive (l : RightLocals) : Proc World (RightLocals ⊕ PUnit) := do
  let integral := l.integral + l.error
  let derivative := l.error - l.prevError
  let output := 3 * l.error + 0.0001 * integral + 0 * derivative
  servoSetSpeed .rotationServo output
  pure (.inl { l with integral, derivative, output, prevError := l.error })

def selfRightBody (l : RightLocals) : Proc World (RightLocals ⊕ PUnit) := do
  let reading ← bno055ReadAccelNorm libm
  let error := reading.err libm
  if reading.Axial ∨ Small error then do
    let startTime ← stopAndWait .rotationServo CLOCKS_PER_SEC
    let reading ← bno055ReadAccelNorm libm
    if reading.Axial ∨ Small error then pure (.inr ⟨⟩)
    else selfRightDrive { l with reading, error, startTime }
  else selfRightDrive { l with reading, error }

def RightLocals.start (startTime : Int) : RightLocals :=
  ⟨0, 0, 0, 0, 0, ⟨0, 0, 0⟩, startTime⟩

def selfRight (fuel : Nat) : Proc World PUnit := do
  let startTime ← clock
  loop (selfRightBody libm) fuel (.start startTime)
  servoSetSpeed .rotationServo 0

/-- Upright as the exit test means it. -/
def Reading.Upright (r : Reading) : Prop := r.Axial ∨ Small (r.err libm)

instance (r : Reading) : Decidable (r.Upright libm) := inferInstanceAs (Decidable (_ ∨ _))

/-- The next reading has a small angle, and the one after it is not upright. -/
def MovesInPause (w : World) : Prop :=
  ∃ raw raw' rest, w.accels = raw :: raw' :: rest ∧
    Small ((raw.normalised libm).err libm) ∧ ¬(raw'.normalised libm).Upright libm

/-- The reading the loop is left on is upright. -/
def LeftUpright (trace : List MotionEvent) : Prop :=
  ∃ r, lastReading trace = some r ∧ r.Upright libm

/-- `self_right` ends with an upright reading and a stopped servo. -/
def EndsUpright (trace : List MotionEvent) : Prop :=
  (∃ r, lastReading trace = some r ∧ r.Upright libm) ∧ lastSpeed .rotationServo trace = some 0

/-- A head of the loop in a call made in the world `s`. -/
def SelfRightHead (s : World) (head : RightLocals × World) : Prop :=
  ∃ startTime entry, exec clock s = (some startTime, entry) ∧
    Reached (selfRightBody libm) (.start startTime, entry) head

variable {libm} {l : RightLocals} {s t : World} {outcome : RightLocals ⊕ PUnit}

theorem selfRightDrive_goes (ran : exec (selfRightDrive l) s = (some outcome, t)) :
    ∃ next, outcome = .inl next := by
  obtain ⟨done, mid, -, ran⟩ := exec_bind_eq_some.mp ran
  simp only [exec_pure_eq_some] at ran
  exact ⟨_, ran.1.symm⟩

/-- An iteration whose first reading is not upright goes round again; another one
takes a second reading and decides on it and on the first one's angle. -/
theorem selfRightBody_some (ran : exec (selfRightBody libm l) s = (some outcome, t)) :
    ∃ raw rest, s.accels = raw :: rest ∧
      let r := raw.normalised libm
      (¬r.Upright libm ∧ ∃ next, outcome = .inl next) ∨
      (r.Upright libm ∧ ∃ raw' rest', rest = raw' :: rest' ∧
        let r' := raw'.normalised libm
        ((r'.Axial ∨ Small (r.err libm)) ∧ outcome = .inr ⟨⟩ ∧ lastReading t.trace = some r') ∨
        (¬(r'.Axial ∨ Small (r.err libm)) ∧ ∃ next, outcome = .inl next)) := by
  obtain ⟨reading, first, ranRead, ranTest⟩ := exec_bind_eq_some.mp ran
  obtain ⟨raw, rest, accels, rfl, rfl⟩ := bno055ReadAccelNorm_some ranRead
  refine ⟨raw, rest, accels, ?_⟩
  dsimp only at ranTest
  by_cases upright : (raw.normalised libm).Axial ∨ Small ((raw.normalised libm).err libm)
  · right
    refine ⟨upright, ?_⟩
    rw [if_pos upright] at ranTest
    obtain ⟨startTime, second, ranWait, ranRest⟩ := exec_bind_eq_some.mp ranTest
    obtain ⟨reading', third, ranRead', ranExit⟩ := exec_bind_eq_some.mp ranRest
    obtain ⟨passed, left, -, rfl⟩ := stopAndWait_some ranWait
    obtain ⟨raw', rest', accels', rfl, rfl⟩ := bno055ReadAccelNorm_some ranRead'
    refine ⟨raw', rest', accels', ?_⟩
    by_cases leaves : (raw'.normalised libm).Axial ∨ Small ((raw.normalised libm).err libm)
    · left
      rw [if_pos leaves, exec_pure_eq_some] at ranExit
      obtain ⟨rfl, rfl⟩ := ranExit
      exact ⟨leaves, rfl, lastOf_concat rfl⟩
    · right
      rw [if_neg leaves] at ranExit
      exact ⟨leaves, selfRightDrive_goes ranExit⟩
  · left
    rw [if_neg upright] at ranTest
    exact ⟨upright, selfRightDrive_goes ranTest⟩

/-- An iteration that leaves the loop leaves it upright unless the payload moved. -/
theorem selfRightBody_steady {done : PUnit} (steady : ¬MovesInPause libm s)
    (ran : exec (selfRightBody libm l) s = (some (.inr done), t)) :
    LeftUpright libm t.trace := by
  obtain ⟨raw, rest, accels, ⟨-, next, goes⟩ | ⟨-, raw', rest', rfl, taken⟩⟩ :=
    selfRightBody_some ran
  · simp at goes
  · rcases taken with ⟨tested, -, last⟩ | ⟨-, next, goes⟩
    · refine ⟨_, last, ?_⟩
      rcases tested with axial | small
      · exact Or.inl axial
      · by_contra tilted
        exact steady ⟨raw, raw', rest', accels, small, tilted⟩
    · simp at goes

/-- An iteration in whose pause the payload moves leaves the loop on the old angle. -/
theorem selfRightBody_moves (moves : MovesInPause libm s)
    (ran : exec (selfRightBody libm l) s = (some outcome, t)) :
    outcome = .inr ⟨⟩ ∧ ¬LeftUpright libm t.trace := by
  obtain ⟨raw, raw', rest, accels, small, tilted⟩ := moves
  obtain ⟨first, more, found, ⟨notUpright, -⟩ | ⟨-, second, rest', rfl, taken⟩⟩ :=
    selfRightBody_some ran
  · obtain ⟨rfl, -⟩ := List.cons.inj (accels.symm.trans found)
    exact absurd (Or.inr small) notUpright
  · have same := accels.symm.trans found
    simp only [List.cons.injEq] at same
    obtain ⟨rfl, rfl, rfl⟩ := same
    rcases taken with ⟨-, leaves, last⟩ | ⟨tested, -⟩
    · refine ⟨leaves, ?_⟩
      rintro ⟨r, found, upright⟩
      obtain rfl := Option.some.inj (found.symm.trans last)
      exact tilted upright
    · exact absurd (Or.inr small) tested

theorem selfRightLoop_upright_iff {fuel : Nat} {done : PUnit}
    (returned : exec (loop (selfRightBody libm) fuel l) s = (some done, t)) :
    LeftUpright libm t.trace ↔
      ∀ head, Reached (selfRightBody libm) (l, s) head → ¬MovesInPause libm head.2 := by
  refine returned_iff_reached (fun _ _ => True) (fun _ w => MovesInPause libm w)
    (fun _ w => LeftUpright libm w.trace) (fun _ _ _ _ _ _ _ => trivial) ?_ ?_ ?_ trivial returned
  · intro l s done t _ steady leaves
    exact selfRightBody_steady steady leaves
  · intro l s next t _ moves goes
    exact absurd (selfRightBody_moves moves goes).1 (by simp)
  · intro l s done t _ moves leaves
    exact (selfRightBody_moves moves leaves).2

/-- A call that returned ended upright exactly when it reached no head at which the
payload, small angle first, moves out of the upright position during the pause. -/
theorem self_right_upright_iff (libm : Libm) (fuel : Nat) (s t : World) (done : PUnit)
    (returned : exec (selfRight libm fuel) s = (some done, t)) :
    EndsUpright libm t.trace ↔
      ∀ head, SelfRightHead libm s head → ¬MovesInPause libm head.2 := by
  obtain ⟨startTime, entry, ranClock, ranRest⟩ := exec_bind_eq_some.mp returned
  obtain ⟨left, last, ranLoop, ranStop⟩ := exec_bind_eq_some.mp ranRest
  simp only [exec_servoSetSpeed, Prod.mk.injEq, true_and] at ranStop
  subst ranStop
  have heads : (∀ head, SelfRightHead libm s head → ¬MovesInPause libm head.2) ↔
      ∀ head, Reached (selfRightBody libm) (.start startTime, entry) head →
        ¬MovesInPause libm head.2 := by
    constructor
    · intro steady head reached
      exact steady head ⟨startTime, entry, ranClock, reached⟩
    · rintro steady head ⟨startTime', entry', ranClock', reached⟩
      rw [ranClock, Prod.mk.injEq, Option.some.injEq] at ranClock'
      obtain ⟨rfl, rfl⟩ := ranClock'
      exact steady head reached
  rw [heads, ← selfRightLoop_upright_iff ranLoop, LeftUpright, EndsUpright,
    lastReading_set, lastSpeed_set]
  exact and_iff_left rfl

end SelfRight

/-- The library functions at the readings of the two runs below: the root of
10000, and the angles of the points (1, 0) and (0, 1). -/
def levelLibm : Libm where
  root q := if q = 10000 then 100 else 0
  atan2 y x := if y = 0 ∧ 0 < x then 0 else PI / 2

/-- A level payload, and the reading after the pause. -/
def levelStart (afterPause : RawAccel) : World :=
  ⟨[0, 1, 1000001], [⟨0, 0, -100⟩, afterPause], [], []⟩

/-- The payload is level before and after the pause. -/
theorem self_right_upright_iff_level :
    EndsUpright levelLibm (exec (selfRight levelLibm 1) (levelStart ⟨0, 0, -100⟩)).2.trace ∧
      ∀ head, SelfRightHead levelLibm (levelStart ⟨0, 0, -100⟩) head →
        ¬MovesInPause levelLibm head.2 := by
  have returned : (exec (selfRight levelLibm 1) (levelStart ⟨0, 0, -100⟩)).1 = some ⟨⟩ := by
    decide +kernel
  have upright :
      EndsUpright levelLibm (exec (selfRight levelLibm 1) (levelStart ⟨0, 0, -100⟩)).2.trace :=
    ⟨⟨⟨0, 0, -1⟩, by decide +kernel, by decide +kernel⟩, by decide +kernel⟩
  refine ⟨upright, ?_⟩
  exact (self_right_upright_iff levelLibm 1 _ _ ⟨⟩ (Prod.ext returned rfl)).mp upright

/-- The payload is level before the pause and lies on its side after it. -/
theorem self_right_returns_tilted :
    let run := exec (selfRight levelLibm 1) (levelStart ⟨0, 100, 0⟩)
    run.1 = some ⟨⟩ ∧ lastReading run.2.trace = some ⟨0, 1, 0⟩ ∧
      ¬EndsUpright levelLibm run.2.trace := by
  have last : lastReading (exec (selfRight levelLibm 1) (levelStart ⟨0, 100, 0⟩)).2.trace =
      some ⟨0, 1, 0⟩ := by decide +kernel
  refine ⟨by decide +kernel, last, ?_⟩
  rintro ⟨⟨r, found, upright⟩, -⟩
  obtain rfl := Option.some.inj (last.symm.trans found)
  exact absurd upright (by decide +kernel)

end ProjectOwl.Beagle
