import ProjectOwl.Beagle.Ramp
import ProjectOwl.Beagle.SelfRight

/-! # Rotating the payload

`rotate` of `beagle/owl.c`.  A rotation in reverse mirrors the samples it steers
by; the second arm of its exit test, which is meant for the other direction,
takes a raw one. -/

set_option autoImplicit false

namespace ProjectOwl.Beagle

open Proc

structure RotateLocals where
  ramp : Ramp
  position : ℚ
  deriving DecidableEq, Repr

def mirror (reverse : Bool) (sample : ℚ) : ℚ := if reverse then 360 - sample else sample

/-- The last position is kept when the sample seems to have wrapped. -/
def latch (reverse : Bool) (position sample : ℚ) : ℚ :=
  let positionTemp := mirror reverse sample
  if |positionTemp - position| < 180 then positionTemp else position

def rotateErr (reverse : Bool) (value position : ℚ) : ℚ :=
  let error := position - value
  if reverse then error * -1 else error

/-- `reverse && fabs((360 - servo_position(..)) - value) < 4` -/
def mirroredArm (reverse : Bool) (value : ℚ) : Proc World Bool :=
  if reverse then do
    let sample ← servoPosition .rotationServo
    pure (decide (|(360 - sample) - value| < 4))
  else pure false

/-- `fabs(servo_position(..) - value) < 4` -/
def rawArm (value : ℚ) : Proc World Bool := do
  let sample ← servoPosition .rotationServo
  pure (decide (|sample - value| < 4))

/-- The exit test: the second arm is tried in both directions. -/
def rotateArrived (reverse : Bool) (value : ℚ) : Proc World Bool := do
  let accepted ← mirroredArm reverse value
  if accepted then pure true else rawArm value

def rotateControl (l : RotateLocals) : Proc World (RotateLocals ⊕ PUnit) := do
  let ramp ← control .rotationServo 4 l.ramp
  pure (.inl { l with ramp })

def rotateBody (reverse : Bool) (value : ℚ) (l : RotateLocals) :
    Proc World (RotateLocals ⊕ PUnit) := do
  let sample ← servoPosition .rotationServo
  let position := latch reverse l.position sample
  let error := rotateErr reverse value position
  let l := { l with position, ramp := { l.ramp with error } }
  if |error| ≤ 4 then do
    let startTime ← stopAndWait .rotationServo (CLOCKS_PER_SEC / 10)
    let arrived ← rotateArrived reverse value
    if arrived then pure (.inr ⟨⟩)
    else rotateControl { l with ramp := { l.ramp with startTime } }
  else rotateControl l

def RotateLocals.start (startTime : Int) : RotateLocals := ⟨.start startTime, 0⟩

/-- The requested angle on the scale of the samples. -/
def rotateTarget (value : ℚ) : ℚ := |value| / 0.316

def rotate (libm : Libm) (fuel : Nat) (value : ℚ) : Proc World PUnit := do
  selfRight libm fuel
  servoZero .rotationServo
  let reverse := decide (value < 0)
  let startTime ← clock
  loop (rotateBody reverse (rotateTarget value)) fuel (.start startTime)

section Rotate
variable {reverse : Bool} {value : ℚ} {l : RotateLocals} {s t : World}
  {outcome : RotateLocals ⊕ PUnit}

theorem rawArm_some {arrived : Bool} (ran : exec (rawArm value) s = (some arrived, t)) :
    ∃ p rest, s.positions = p :: rest ∧ arrived = decide (|p - value| < 4) ∧
      t = { s with positions := rest, trace := s.trace ++ [.position .rotationServo p] } := by
  obtain ⟨p, first, ranSample, ranPure⟩ := exec_bind_eq_some.mp ran
  obtain ⟨rest, positions, rfl⟩ := servoPosition_some ranSample
  obtain ⟨rfl, rfl⟩ := exec_pure_eq_some.mp ranPure
  exact ⟨p, rest, positions, rfl, rfl⟩

theorem mirroredArm_some {accepted : Bool}
    (ran : exec (mirroredArm true value) s = (some accepted, t)) :
    ∃ p rest, s.positions = p :: rest ∧ accepted = decide (|(360 - p) - value| < 4) ∧
      t = { s with positions := rest, trace := s.trace ++ [.position .rotationServo p] } := by
  rw [mirroredArm, if_pos rfl] at ran
  obtain ⟨p, first, ranSample, ranPure⟩ := exec_bind_eq_some.mp ran
  obtain ⟨rest, positions, rfl⟩ := servoPosition_some ranSample
  obtain ⟨rfl, rfl⟩ := exec_pure_eq_some.mp ranPure
  exact ⟨p, rest, positions, rfl, rfl⟩

theorem rotateArrived_forward {arrived : Bool}
    (ran : exec (rotateArrived false value) s = (some arrived, t)) :
    ∃ p rest, s.positions = p :: rest ∧ arrived = decide (|p - value| < 4) ∧
      t.trace = s.trace ++ [.position .rotationServo p] := by
  obtain ⟨accepted, first, ranArm, ranRaw⟩ := exec_bind_eq_some.mp ran
  rw [mirroredArm, if_neg Bool.false_ne_true, exec_pure_eq_some] at ranArm
  obtain ⟨rfl, rfl⟩ := ranArm
  rw [if_neg Bool.false_ne_true] at ranRaw
  obtain ⟨p, rest, positions, tested, rfl⟩ := rawArm_some ranRaw
  exact ⟨p, rest, positions, tested, rfl⟩

theorem rotateArrived_reverse {arrived : Bool}
    (ran : exec (rotateArrived true value) s = (some arrived, t)) :
    ∃ p rest, s.positions = p :: rest ∧
      ((|(360 - p) - value| < 4 ∧ arrived = true ∧
        t.trace = s.trace ++ [.position .rotationServo p]) ∨
      (¬|(360 - p) - value| < 4 ∧ ∃ q rest', rest = q :: rest' ∧
        arrived = decide (|q - value| < 4) ∧
        t.trace = s.trace ++ [.position .rotationServo p] ++ [.position .rotationServo q])) := by
  obtain ⟨accepted, first, ranArm, ranRaw⟩ := exec_bind_eq_some.mp ran
  obtain ⟨p, rest, positions, rfl, rfl⟩ := mirroredArm_some ranArm
  refine ⟨p, rest, positions, ?_⟩
  by_cases near : |(360 - p) - value| < 4
  · left
    rw [if_pos (decide_eq_true near), exec_pure_eq_some] at ranRaw
    obtain ⟨rfl, rfl⟩ := ranRaw
    exact ⟨near, rfl, rfl⟩
  · right
    rw [if_neg (by simpa using near)] at ranRaw
    obtain ⟨q, rest', positions', tested, rfl⟩ := rawArm_some ranRaw
    exact ⟨near, q, rest', positions', tested, rfl⟩

theorem rotateControl_goes (ran : exec (rotateControl l) s = (some outcome, t)) :
    ∃ next, outcome = .inl next := by
  obtain ⟨ramp, mid, -, ranPure⟩ := exec_bind_eq_some.mp ran
  simp only [exec_pure_eq_some] at ranPure
  exact ⟨_, ranPure.1.symm⟩

/-- An iteration near the target stops, waits and leaves on the exit test; another
one goes round again. -/
theorem rotateBody_some (ran : exec (rotateBody reverse value l) s = (some outcome, t)) :
    ∃ p rest, s.positions = p :: rest ∧
      ((¬|rotateErr reverse value (latch reverse l.position p)| ≤ 4 ∧
        ∃ next, outcome = .inl next) ∨
      (|rotateErr reverse value (latch reverse l.position p)| ≤ 4 ∧
        ∃ mid after arrived, mid.positions = rest ∧
          lastSpeed .rotationServo mid.trace = some 0 ∧
          exec (rotateArrived reverse value) mid = (some arrived, after) ∧
          ((arrived = true ∧ outcome = .inr ⟨⟩ ∧ t = after) ∨
            (arrived = false ∧ ∃ next, outcome = .inl next)))) := by
  obtain ⟨p, first, ranSample, ranTest⟩ := exec_bind_eq_some.mp ran
  obtain ⟨rest, positions, rfl⟩ := servoPosition_some ranSample
  refine ⟨p, rest, positions, ?_⟩
  dsimp only at ranTest
  by_cases near : |rotateErr reverse value (latch reverse l.position p)| ≤ 4
  · right
    rw [if_pos near] at ranTest
    obtain ⟨startTime, mid, ranWait, ranRest⟩ := exec_bind_eq_some.mp ranTest
    obtain ⟨arrived, after, ranArrived, ranExit⟩ := exec_bind_eq_some.mp ranRest
    obtain ⟨passed, left, -, rfl⟩ := stopAndWait_some ranWait
    refine ⟨near, _, after, arrived, rfl, ?_, ranArrived, ?_⟩
    · rw [lastSpeed_clocks]
      exact lastSpeed_set ..
    · cases arrived with
      | true =>
          rw [if_pos rfl, exec_pure_eq_some] at ranExit
          exact Or.inl ⟨rfl, ranExit.1.symm, ranExit.2.symm⟩
      | false =>
          rw [if_neg Bool.false_ne_true] at ranExit
          exact Or.inr ⟨rfl, rotateControl_goes ranExit⟩
  · left
    rw [if_neg near] at ranTest
    exact ⟨near, rotateControl_goes ranTest⟩

/-- The last sample is near the target, mirrored in reverse, and the servo stopped. -/
def EndsNear (reverse : Bool) (value : ℚ) (trace : List MotionEvent) : Prop :=
  (∃ p, lastAngle .rotationServo trace = some p ∧ |mirror reverse p - value| < 4) ∧
    lastSpeed .rotationServo trace = some 0

/-- In reverse, the position is near the target, the mirrored sample after the
pause is not, and the next sample is near it only as it was read. -/
def AcceptsRaw (reverse : Bool) (value : ℚ) (l : RotateLocals) (w : World) : Prop :=
  reverse = true ∧ ∃ p q r rest, w.positions = p :: q :: r :: rest ∧
    |rotateErr reverse value (latch reverse l.position p)| ≤ 4 ∧
    ¬|(360 - q) - value| < 4 ∧ |r - value| < 4 ∧ ¬|(360 - r) - value| < 4

/-- An iteration that accepts a raw sample in reverse leaves the loop off target. -/
theorem rotateBody_acceptsRaw (accepts : AcceptsRaw reverse value l s)
    (ran : exec (rotateBody reverse value l) s = (some outcome, t)) :
    outcome = .inr ⟨⟩ ∧ ¬EndsNear reverse value t.trace := by
  obtain ⟨rfl, p, q, r, rest, positions, near, refused, raw, far⟩ := accepts
  obtain ⟨p', rest', positions', ⟨notNear, -⟩ | ⟨-, mid, after, arrived, left, -, ranTest,
    exits⟩⟩ := rotateBody_some ran
  · obtain ⟨rfl, -⟩ := List.cons.inj (positions.symm.trans positions')
    exact absurd near notNear
  · obtain ⟨rfl, rfl⟩ := List.cons.inj (positions.symm.trans positions')
    obtain ⟨q', more, samples, ⟨accepted, -⟩ | ⟨-, r', more', rfl, rfl, trace⟩⟩ :=
      rotateArrived_reverse ranTest
    · obtain ⟨rfl, -⟩ := List.cons.inj (left.symm.trans samples)
      exact absurd accepted refused
    · have same := left.symm.trans samples
      simp only [List.cons.injEq] at same
      obtain ⟨rfl, rfl, rfl⟩ := same
      rcases exits with ⟨-, leaves, rfl⟩ | ⟨rejected, -⟩
      · refine ⟨leaves, ?_⟩
        rintro ⟨⟨found, last, close⟩, -⟩
        rw [trace, lastAngle_sample, Option.some.injEq] at last
        subst last
        exact far (by simpa [mirror] using close)
      · exact absurd raw (of_decide_eq_false rejected)

theorem rotateLoop_near_iff {fuel : Nat} {done : PUnit}
    (returned : exec (loop (rotateBody reverse value) fuel l) s = (some done, t)) :
    EndsNear reverse value t.trace ↔
      ∀ head, Reached (rotateBody reverse value) (l, s) head →
        ¬AcceptsRaw reverse value head.1 head.2 := by
  refine returned_iff_reached (fun _ _ => True) (AcceptsRaw reverse value)
    (fun _ w => EndsNear reverse value w.trace)
    (fun _ _ _ _ _ _ _ => trivial) ?_ ?_ ?_ trivial returned
  · intro l s done t _ steady leaves
    obtain ⟨p, rest, positions, ⟨-, next, goes⟩ | ⟨near, mid, after, arrived, left, speed, ranTest,
      exits⟩⟩ := rotateBody_some leaves
    · simp at goes
    · rcases exits with ⟨rfl, -, rfl⟩ | ⟨-, next, goes⟩
      · cases reverse with
        | false =>
            obtain ⟨q, rest', -, tested, trace⟩ := rotateArrived_forward ranTest
            refine ⟨⟨q, ?_, ?_⟩, ?_⟩
            · rw [trace, lastAngle_sample]
            · simpa [mirror] using tested
            · rw [trace, lastSpeed_sample, speed]
        | true =>
            obtain ⟨q, rest', samples, ⟨accepted, -, trace⟩ | ⟨refused, r, rest'', more, tested,
              trace⟩⟩ := rotateArrived_reverse ranTest
            · refine ⟨⟨q, ?_, ?_⟩, ?_⟩
              · rw [trace, lastAngle_sample]
              · simpa [mirror] using accepted
              · rw [trace, lastSpeed_sample, speed]
            · have raw : |r - value| < 4 := by simpa using tested
              refine ⟨⟨r, ?_, ?_⟩, ?_⟩
              · rw [trace, lastAngle_sample]
              · by_contra far
                refine steady ⟨rfl, p, q, r, rest'', ?_, near, refused, raw, ?_⟩
                · rw [positions, ← left, samples, more]
                · simpa [mirror] using far
              · rw [trace, lastSpeed_sample, lastSpeed_sample, speed]
      · simp at goes
  · intro l s next t _ accepts goes
    exact absurd (rotateBody_acceptsRaw accepts goes).1 (by simp)
  · intro l s done t _ accepts leaves
    exact (rotateBody_acceptsRaw accepts leaves).2

/-- `rotate` ends near the target in the requested direction, with the servo stopped. -/
def EndsAtTarget (value : ℚ) (trace : List MotionEvent) : Prop :=
  (∃ p, lastAngle .rotationServo trace = some p ∧
    (0 ≤ value → |p - |value| / 0.316| < 4) ∧
    (value < 0 → |(360 - p) - |value| / 0.316| < 4)) ∧
  lastSpeed .rotationServo trace = some 0

theorem endsAtTarget_iff (value : ℚ) (trace : List MotionEvent) :
    EndsAtTarget value trace ↔ EndsNear (decide (value < 0)) (rotateTarget value) trace := by
  refine and_congr_left fun _ => exists_congr fun p => and_congr_right fun _ => ?_
  by_cases reverse : value < 0
  · simp [reverse, mirror, rotateTarget, not_le.mpr reverse]
  · simp [reverse, mirror, rotateTarget, not_lt.mp reverse]

/-- A head of the loop of `rotate`, in a call made in the world `s`. -/
def RotateHead (libm : Libm) (fuel : Nat) (value : ℚ) (s : World) (head : RotateLocals × World) :
    Prop :=
  ∃ righted zeroed startTime entry,
    exec (selfRight libm fuel) s = (some ⟨⟩, righted) ∧
    exec (servoZero .rotationServo) righted = (some ⟨⟩, zeroed) ∧
    exec clock zeroed = (some startTime, entry) ∧
    Reached (rotateBody (decide (value < 0)) (rotateTarget value)) (.start startTime, entry) head

/-- A call that returned ended at the target exactly when it reached no head at
which a rotation in reverse accepts a raw sample. -/
theorem rotate_at_target_iff (libm : Libm) (fuel : Nat) (value : ℚ) (s t : World) (done : PUnit)
    (returned : exec (rotate libm fuel value) s = (some done, t)) :
    EndsAtTarget value t.trace ↔
      ∀ head, RotateHead libm fuel value s head →
        ¬AcceptsRaw (decide (value < 0)) (rotateTarget value) head.1 head.2 := by
  obtain ⟨_, righted, ranRight, ranRest⟩ := exec_bind_eq_some.mp returned
  obtain ⟨_, zeroed, ranZero, ranRest⟩ := exec_bind_eq_some.mp ranRest
  obtain ⟨startTime, entry, ranClock, ranLoop⟩ := exec_bind_eq_some.mp ranRest
  rw [endsAtTarget_iff, rotateLoop_near_iff ranLoop]
  constructor
  · rintro steady head ⟨righted', zeroed', startTime', entry', right', zero', clock', reached⟩
    obtain rfl := (Prod.mk.inj (ranRight.symm.trans right')).2
    obtain rfl := (Prod.mk.inj (ranZero.symm.trans zero')).2
    obtain ⟨same, rfl⟩ := Prod.mk.inj (ranClock.symm.trans clock')
    obtain rfl := Option.some.inj same
    exact steady head reached
  · intro steady head reached
    exact steady head ⟨righted, zeroed, startTime, entry, ranRight, ranZero, ranClock, reached⟩

end Rotate

/-- A payload that is level throughout, and samples of which the first one is
taken by `servo_zero`. -/
def turnStart (samples : List ℚ) : World :=
  ⟨[0, 1, 1000001, 1000002, 1000003, 1100003], [⟨0, 0, -100⟩, ⟨0, 0, -100⟩], samples, []⟩

/-- The shaft stays at 181 degrees, the mirrored target. -/
theorem rotate_at_target_iff_reverse :
    EndsAtTarget (-56.564)
        (exec (rotate levelLibm 1 (-56.564)) (turnStart [0, 181, 181])).2.trace ∧
      ∀ head, RotateHead levelLibm 1 (-56.564) (turnStart [0, 181, 181]) head →
        ¬AcceptsRaw (decide ((-56.564 : ℚ) < 0)) (rotateTarget (-56.564)) head.1 head.2 := by
  have returned :
      (exec (rotate levelLibm 1 (-56.564)) (turnStart [0, 181, 181])).1 = some ⟨⟩ := by
    decide +kernel
  have atTarget : EndsAtTarget (-56.564)
      (exec (rotate levelLibm 1 (-56.564)) (turnStart [0, 181, 181])).2.trace :=
    ⟨⟨181, by decide +kernel, by decide +kernel⟩, by decide +kernel⟩
  refine ⟨atTarget, ?_⟩
  exact (rotate_at_target_iff levelLibm 1 (-56.564) _ _ ⟨⟩ (Prod.ext returned rfl)).mp atTarget

/-- A rotation by 179 units in reverse: the shaft slips to 176 degrees during the
pause, which is 184 mirrored, and the second arm takes it as it is. -/
theorem rotate_reverse_accepts_raw :
    let run := exec (rotate levelLibm 1 (-56.564)) (turnStart [0, 181, 176, 176])
    run.1 = some ⟨⟩ ∧ lastAngle .rotationServo run.2.trace = some 176 ∧
      ¬EndsAtTarget (-56.564) run.2.trace := by
  have last : lastAngle .rotationServo
      (exec (rotate levelLibm 1 (-56.564)) (turnStart [0, 181, 176, 176])).2.trace = some 176 := by
    decide +kernel
  refine ⟨by decide +kernel, last, ?_⟩
  rintro ⟨⟨p, found, -, near⟩, -⟩
  obtain rfl := Option.some.inj (last.symm.trans found)
  exact absurd (near (by decide +kernel)) (by decide +kernel)

/-! ## What an iteration asks for -/

section Rules
variable {reverse : Bool} {value : ℚ} {l : RotateLocals} {s : World} {halt : World → Prop}

/-- The samples after the pause that the exit test turns down. -/
def Refuses (reverse : Bool) (value : ℚ) (samples : List ℚ) : Prop :=
  if reverse then
    ∃ q r rest, samples = q :: r :: rest ∧ ¬|(360 - q) - value| < 4 ∧ ¬|r - value| < 4
  else ∃ q rest, samples = q :: rest ∧ ¬|q - value| < 4

/-- The world after the samples `taken`, with those in `left` still to come. -/
def World.sampled (s : World) (taken left : List ℚ) : World :=
  { s with positions := left, trace := s.trace ++ taken.map (.position .rotationServo) }

theorem wp_rawArm {post : Bool → World → Prop} (cut : s.positions = [] → halt s)
    (reads : ∀ q rest, s.positions = q :: rest →
      post (decide (|q - value| < 4)) (s.sampled [q] rest)) :
    Wp (rawArm value) post halt s := by
  rw [rawArm, wp_bind]
  refine wp_servoPosition cut ?_
  intro q rest positions
  exact reads q rest positions

theorem wp_rotateArrived {post : Bool → World → Prop}
    (cut : ¬Refuses reverse value s.positions → ∀ taken left, halt (s.sampled taken left))
    (arrives : ¬Refuses reverse value s.positions → ∀ taken left,
      post true (s.sampled taken left))
    (refuses : Refuses reverse value s.positions → ∀ taken left,
      post false (s.sampled taken left)) :
    Wp (rotateArrived reverse value) post halt s := by
  have unread : s.sampled [] s.positions = s := by simp [World.sampled]
  rw [rotateArrived, wp_bind]
  cases reverse with
  | false =>
      rw [mirroredArm, if_neg Bool.false_ne_true, wp_pure, if_neg Bool.false_ne_true]
      refine wp_rawArm ?_ ?_
      · intro none
        have stops := cut (by simp [Refuses, none]) [] s.positions
        rwa [unread] at stops
      · intro q rest positions
        by_cases near : |q - value| < 4
        · rw [decide_eq_true near]
          exact arrives (by simpa [Refuses, positions] using near) [q] rest
        · rw [decide_eq_false near]
          exact refuses (by simpa [Refuses, positions] using near) [q] rest
  | true =>
      rw [mirroredArm, if_pos rfl, wp_bind]
      refine wp_servoPosition ?_ ?_
      · intro none
        have stops := cut (by simp [Refuses, none]) [] s.positions
        rwa [unread] at stops
      · intro q rest positions
        rw [wp_pure]
        by_cases near : |(360 - q) - value| < 4
        · rw [decide_eq_true near, if_pos rfl, wp_pure]
          exact arrives (by simp [Refuses, positions, near]) [q] rest
        · rw [decide_eq_false near, if_neg Bool.false_ne_true]
          refine wp_rawArm ?_ ?_
          · intro none
            change rest = [] at none
            exact cut (by simp [Refuses, positions, none]) [q] rest
          · intro r rest' positions'
            obtain rfl : rest = r :: rest' := positions'
            have both : (s.sampled [q] (r :: rest')).sampled [r] rest' =
                s.sampled [q, r] rest' := by simp [World.sampled]
            change post _ ((s.sampled [q] (r :: rest')).sampled [r] rest')
            rw [both]
            by_cases raw : |r - value| < 4
            · rw [decide_eq_true raw]
              refine arrives ?_ [q, r] rest'
              simp [Refuses, positions, raw]
            · rw [decide_eq_false raw]
              refine refuses ?_ [q, r] rest'
              simpa [Refuses, positions] using ⟨not_lt.mp near, not_lt.mp raw⟩

/-- The world after the sample of an iteration, the stop, the wait and what the
exit test took. -/
def World.paused (s : World) (p : ℚ) (readings clocks : List Int) (taken left : List ℚ) : World :=
  { s with
    clocks := clocks
    positions := left
    trace := s.trace ++ [.position .rotationServo p] ++ stopEvents .rotationServo readings ++
      taken.map (.position .rotationServo) }

/-- The locals after the sample of an iteration. -/
def RotateLocals.steered (reverse : Bool) (value p : ℚ) (l : RotateLocals) : RotateLocals :=
  let position := latch reverse l.position p
  { l with position, ramp := { l.ramp with error := rotateErr reverse value position } }

/-- The iteration goes near the target. -/
def Nears (reverse : Bool) (value p : ℚ) (l : RotateLocals) : Prop :=
  |rotateErr reverse value (latch reverse l.position p)| ≤ 4

theorem wp_rotateBody {post : RotateLocals ⊕ PUnit → World → Prop}
    (cut : s.positions = [] → halt s)
    (stopped : ∀ p rest, s.positions = p :: rest → Nears reverse value p l →
      EndsEarly (CLOCKS_PER_SEC / 10) s.clocks ∨ ¬Refuses reverse value rest →
      ∀ readings clocks taken left, halt (s.paused p readings clocks taken left))
    (far : ∀ p rest, s.positions = p :: rest → ¬Nears reverse value p l →
      Wp (rotateControl (l.steered reverse value p)) post halt (s.sampled [p] rest))
    (arrived : ∀ p rest, s.positions = p :: rest → Nears reverse value p l →
      ¬Refuses reverse value rest → ∀ readings clocks taken left,
        post (.inr ⟨⟩) (s.paused p readings clocks taken left))
    (refused : ∀ p rest startTime readings passed left, s.positions = p :: rest →
      Nears reverse value p l → s.clocks = startTime :: readings →
      spin startTime (CLOCKS_PER_SEC / 10) readings = some (passed, left) →
      Refuses reverse value rest → ∀ taken rest',
        Wp (rotateControl { l.steered reverse value p with
            ramp := { (l.steered reverse value p).ramp with startTime } }) post halt
          (s.paused p (startTime :: passed) left taken rest')) :
    Wp (rotateBody reverse value l) post halt s := by
  rw [rotateBody, wp_bind]
  refine wp_servoPosition cut ?_
  intro p rest positions
  dsimp only
  by_cases near : |rotateErr reverse value (latch reverse l.position p)| ≤ 4
  · rw [if_pos near, wp_bind]
    refine wp_stopAndWait ?_ ?_
    · intro early readings clocks
      have stops := stopped p rest positions near (Or.inl early) readings clocks [] rest
      simpa [World.paused] using stops
    · intro startTime readings passed left clocks spun
      rw [wp_bind]
      refine wp_rotateArrived ?_ ?_ ?_
      · intro accepted taken rest'
        exact stopped p rest positions near (Or.inr accepted) (startTime :: passed) left taken
          rest'
      · intro accepted taken rest'
        rw [if_pos rfl, wp_pure]
        exact arrived p rest positions near accepted (startTime :: passed) left taken rest'
      · intro refusal taken rest'
        rw [if_neg Bool.false_ne_true]
        exact refused p rest startTime readings passed left positions near clocks spun refusal
          taken rest'
  · rw [if_neg near]
    exact far p rest positions near

/-- An iteration whose pause is not accepted hands on to the controller. -/
theorem wp_rotateBody_refused {post : RotateLocals ⊕ PUnit → World → Prop} {p : ℚ} {rest : List ℚ}
    {startTime : Int} {readings passed left : List Int} (positions : s.positions = p :: rest)
    (clocks : s.clocks = startTime :: readings)
    (spun : spin startTime (CLOCKS_PER_SEC / 10) readings = some (passed, left))
    (near : Nears reverse value p l) (refusal : Refuses reverse value rest)
    (goesOn : ∀ taken rest', Wp (rotateControl { l.steered reverse value p with
        ramp := { (l.steered reverse value p).ramp with startTime } }) post halt
      (s.paused p (startTime :: passed) left taken rest')) :
    Wp (rotateBody reverse value l) post halt s := by
  refine wp_rotateBody ?_ ?_ ?_ ?_ ?_
  · intro none
    simp [none] at positions
  · rintro p' rest' positions' _ (early | accepted)
    · simp [early startTime readings clocks] at spun
    · obtain ⟨rfl, rfl⟩ := List.cons.inj (positions'.symm.trans positions)
      exact absurd refusal accepted
  · intro p' rest' positions' far
    obtain ⟨rfl, -⟩ := List.cons.inj (positions'.symm.trans positions)
    exact absurd near far
  · intro p' rest' positions' _ accepted
    obtain ⟨rfl, rfl⟩ := List.cons.inj (positions'.symm.trans positions)
    exact absurd refusal accepted
  · intro p' rest' startTime' readings' passed' left' positions' _ clocks' spun' _
    obtain ⟨rfl, rfl⟩ := List.cons.inj (positions'.symm.trans positions)
    obtain ⟨rfl, rfl⟩ := List.cons.inj (clocks'.symm.trans clocks)
    obtain ⟨rfl, rfl⟩ := Prod.mk.inj (Option.some.inj (spun'.symm.trans spun))
    exact goesOn

end Rules

end ProjectOwl.Beagle
