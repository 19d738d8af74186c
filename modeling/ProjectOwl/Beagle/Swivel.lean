import ProjectOwl.Beagle.Ramp
import ProjectOwl.Lib.Remainder

/-! # Swivelling the payload

`swivel_err` and `swivel` of `beagle/owl.c`.  The error of a sample is taken the
short way round, and the loop is left on a sample taken after a pause.  Angles and
errors are exact: that `swivel_err` returns its result as a `float` is left out. -/

set_option autoImplicit false

namespace ProjectOwl.Beagle

open Proc Remainder

/-- The error of a sample. -/
def swivelErrAt (value position : ℚ) : ℚ :=
  let error := position - value
  let error := fmod (error + 360) 360
  if 180 < error then error - 360 else error

def swivelErr (value : ℚ) : Proc World ℚ := do
  let position ← servoPosition .swivelServo
  pure (swivelErrAt value position)

def swivelControl (l : Ramp) : Proc World (Ramp ⊕ PUnit) := do
  let l ← control .swivelServo 1 l
  pure (.inl l)

def swivelBody (value : ℚ) (l : Ramp) : Proc World (Ramp ⊕ PUnit) := do
  let error ← swivelErr value
  if |error| ≤ 1 then do
    let startTime ← stopAndWait .swivelServo (CLOCKS_PER_SEC / 10)
    let settled ← swivelErr value
    if |settled| ≤ 1 then pure (.inr ⟨⟩)
    else swivelControl { l with error, startTime }
  else swivelControl { l with error }

def swivel (fuel : Nat) (value : ℚ) : Proc World PUnit := do
  let startTime ← clock
  loop (swivelBody value) fuel (.start startTime)

/-! ## The error of a sample -/

section Error
variable {value position error : ℚ} {w t : World}

theorem swivelErrAt_modEq (value position : ℚ) :
    swivelErrAt value position ≡ position - value [PMOD 360] := by
  have turned : fmod (position - value + 360) 360 ≡ position - value [PMOD 360] := by
    refine fmod_modEq.trans ?_
    simp
  unfold swivelErrAt
  dsimp only
  split
  · refine AddCommGroup.ModEq.trans ?_ turned
    simpa using sub_mul_modEq (K := ℚ) (x := fmod (position - value + 360) 360) (y := 360) 1
  · exact turned

/-- A target up to a turn above the sample: the remainder is not negative. -/
theorem swivelErrAt_of_le (low : value ≤ position + 360) :
    -180 ≤ swivelErrAt value position ∧ swivelErrAt value position ≤ 180 := by
  have remainder : fmod (position - value + 360) 360 = wrap (position - value + 360) 360 :=
    fmod_of_nonneg (by norm_num) (by linarith)
  have nonneg := wrap_nonneg (x := position - value + 360) (y := 360) (by norm_num)
  have small := wrap_lt (x := position - value + 360) (y := 360) (by norm_num)
  unfold swivelErrAt
  dsimp only
  rw [remainder]
  split
  · constructor
    · linarith
    · linarith
  · constructor
    · linarith
    · linarith

/-- A target further up: the remainder has the sign of the dividend. -/
theorem swivelErrAt_of_lt (high : position + 360 < value) :
    swivelErrAt value position = -wrap (value - position) 360 := by
  have remainder : fmod (position - value + 360) 360 = -wrap (value - position) 360 := by
    rw [fmod_of_nonpos (by norm_num) (by linarith)]
    congr 1
    have turned := wrap_sub_mul (x := value - position) (y := 360) (by norm_num) 1
    rw [← turned]
    congr 1
    push_cast
    ring
  have nonneg := wrap_nonneg (x := value - position) (y := 360) (by norm_num)
  unfold swivelErrAt
  dsimp only
  rw [remainder, if_neg (by linarith)]

theorem swivelErr_some (ran : exec (swivelErr value) w = (some error, t)) :
    ∃ p rest, w.positions = p :: rest ∧ error = swivelErrAt value p ∧
      t = { w with positions := rest, trace := w.trace ++ [.position .swivelServo p] } := by
  obtain ⟨p, mid, ranSample, ranPure⟩ := exec_bind_eq_some.mp ran
  obtain ⟨rest, positions, rfl⟩ := servoPosition_some ranSample
  obtain ⟨rfl, rfl⟩ := exec_pure_eq_some.mp ranPure
  exact ⟨p, rest, positions, rfl, rfl⟩

/-- The signed error of a sample, taken the short way round. -/
def ShortestWay (value position error : ℚ) : Prop :=
  error ≡ position - value [PMOD 360] ∧ -180 ≤ error ∧ error ≤ 180

/-- The error is the shortest one exactly when the target is at most a turn above
the sample, or at most half a turn ahead of it on the circle. -/
theorem swivelErr_shortest_iff (rest : List ℚ) (sampled : w.positions = position :: rest)
    (returned : exec (swivelErr value) w = (some error, t)) :
    ShortestWay value position error ↔
      value ≤ position + 360 ∨ wrap (value - position) 360 ≤ 180 := by
  obtain ⟨p, rest', positions, rfl, -⟩ := swivelErr_some returned
  obtain ⟨rfl, rfl⟩ := List.cons.inj (sampled.symm.trans positions)
  constructor
  · rintro ⟨-, low, -⟩
    rcases le_or_gt value (position + 360) with within | beyond
    · exact Or.inl within
    · right
      rw [swivelErrAt_of_lt beyond] at low
      linarith
  · intro condition
    refine ⟨swivelErrAt_modEq value position, ?_⟩
    rcases le_or_gt value (position + 360) with within | beyond
    · exact swivelErrAt_of_le within
    · have ahead := condition.resolve_left (not_le.mpr beyond)
      have nonneg := wrap_nonneg (x := value - position) (y := 360) (by norm_num)
      rw [swivelErrAt_of_lt beyond]
      constructor
      · linarith
      · linarith

end Error

/-- A head whose next samples are these. -/
def shaftAt (samples : List ℚ) : World := ⟨[], [], samples, []⟩

theorem swivelErr_shortest_iff_quarter :
    (exec (swivelErr 90) (shaftAt [0])).1 = some (-90) ∧ ShortestWay 90 0 (-90) := by
  have returned : (exec (swivelErr 90) (shaftAt [0])).1 = some (-90) := by decide +kernel
  refine ⟨returned, ?_⟩
  exact (swivelErr_shortest_iff [] rfl (Prod.ext returned rfl)).mpr (Or.inl (by norm_num))

/-- The remainder of a dividend below zero is not turned back. -/
theorem swivelErr_below_half_turn :
    (exec (swivelErr 700) (shaftAt [0])).1 = some (-340) ∧ ¬ShortestWay 700 0 (-340) := by
  refine ⟨by decide +kernel, ?_⟩
  rintro ⟨-, low, -⟩
  norm_num at low

/-! ## The heads of a call -/

section Heads
variable {value : ℚ} {s : World}

/-- A head of the loop of `swivel`, in a call made in the world `s`. -/
def SwivelHead (value : ℚ) (s : World) (head : Ramp × World) : Prop :=
  ∃ startTime entry, exec clock s = (some startTime, entry) ∧
    Reached (swivelBody value) (.start startTime, entry) head

/-- The world in which the loop is entered. -/
def World.clocked (s : World) (startTime : Int) (rest : List Int) : World :=
  { s with clocks := rest, trace := s.trace ++ [.clock startTime] }

/-- What is to hold of a call is what is to hold of its loop. -/
theorem swivel_always_iff (always : World → Prop) (atHead bad : Ramp → World → Prop)
    (here : always s)
    (loops : ∀ startTime rest, s.clocks = startTime :: rest →
      let entry := (Ramp.start startTime, s.clocked startTime rest)
      (((∀ fuel, always (exec (loop (swivelBody value) fuel entry.1) entry.2).2) ∧
          ∀ head, Reached (swivelBody value) entry head → atHead head.1 head.2) ↔
        ∀ head, Reached (swivelBody value) entry head → ¬bad head.1 head.2)) :
    ((∀ fuel, always (exec (swivel fuel value) s).2) ∧
        ∀ head, SwivelHead value s head → atHead head.1 head.2) ↔
      ∀ head, SwivelHead value s head → ¬bad head.1 head.2 := by
  cases clocks : s.clocks with
  | nil =>
      have stops : exec clock s = (none, s) := by
        simp [clock, exec, step, OptionT.run, StateT.run, clocks]
      have noHead : ∀ head, ¬SwivelHead value s head := by
        rintro head ⟨startTime, entry, ranClock, -⟩
        rw [stops] at ranClock
        simp at ranClock
      constructor
      · intro _ head isHead
        exact absurd isHead (noHead head)
      · intro _
        refine ⟨?_, fun head isHead => absurd isHead (noHead head)⟩
        intro fuel
        rw [swivel, exec_bind, stops]
        exact here
  | cons startTime rest =>
      have reads : exec clock s = (some startTime, s.clocked startTime rest) := by
        rw [clock, exec_step_eq_some, clocks]
        rfl
      have heads : ∀ head, SwivelHead value s head ↔
          Reached (swivelBody value) (.start startTime, s.clocked startTime rest) head := by
        intro head
        constructor
        · rintro ⟨now, entry, ranClock, reached⟩
          rw [reads, Prod.mk.injEq, Option.some.injEq] at ranClock
          obtain ⟨rfl, rfl⟩ := ranClock
          exact reached
        · intro reached
          exact ⟨startTime, _, reads, reached⟩
      have enters : ∀ fuel, exec (swivel fuel value) s =
          exec (loop (swivelBody value) fuel (.start startTime)) (s.clocked startTime rest) := by
        intro fuel
        rw [swivel, exec_bind_some reads]
      simp only [heads, enters]
      exact loops startTime rest clocks

end Heads

/-! ## How the loop is left -/

section Swivel
variable {value : ℚ} {l : Ramp} {s : World} {halt : World → Prop}

theorem wp_swivelErr {post : ℚ → World → Prop} (cut : s.positions = [] → halt s)
    (reads : ∀ p rest, s.positions = p :: rest → post (swivelErrAt value p)
      { s with positions := rest, trace := s.trace ++ [.position .swivelServo p] }) :
    Wp (swivelErr value) post halt s := by
  rw [swivelErr, wp_bind]
  refine wp_servoPosition cut ?_
  intro p rest positions
  rw [wp_pure]
  exact reads p rest positions

/-- The world after the stop, the wait and the sample that follows it. -/
def World.settled (s : World) (p q : ℚ) (readings left : List Int) (rest : List ℚ) : World :=
  { s with
    clocks := left
    positions := rest
    trace := s.trace ++ [.position .swivelServo p] ++ stopEvents .swivelServo readings ++
      [.position .swivelServo q] }

/-- An iteration steers by the sample it takes; near the target it stops, waits and
takes another, which it leaves on or drops. -/
theorem wp_swivelBody {post : Ramp ⊕ PUnit → World → Prop} (cut : s.positions = [] → halt s)
    (stopped : ∀ p rest readings clocks, s.positions = p :: rest →
      rest = [] ∨ EndsEarly (CLOCKS_PER_SEC / 10) s.clocks →
      halt { s with
        clocks := clocks
        positions := rest
        trace := s.trace ++ [.position .swivelServo p] ++ stopEvents .swivelServo readings })
    (far : ∀ p rest, s.positions = p :: rest → ¬|swivelErrAt value p| ≤ 1 →
      Wp (swivelControl { l with error := swivelErrAt value p }) post halt
        { s with positions := rest, trace := s.trace ++ [.position .swivelServo p] })
    (settled : ∀ p q rest startTime readings passed left, s.positions = p :: q :: rest →
      |swivelErrAt value p| ≤ 1 → s.clocks = startTime :: readings →
      spin startTime (CLOCKS_PER_SEC / 10) readings = some (passed, left) →
      |swivelErrAt value q| ≤ 1 →
      post (.inr ⟨⟩) (s.settled p q (startTime :: passed) left rest))
    (rejected : ∀ p q rest startTime readings passed left, s.positions = p :: q :: rest →
      |swivelErrAt value p| ≤ 1 → s.clocks = startTime :: readings →
      spin startTime (CLOCKS_PER_SEC / 10) readings = some (passed, left) →
      ¬|swivelErrAt value q| ≤ 1 →
      Wp (swivelControl { l with error := swivelErrAt value p, startTime }) post halt
        (s.settled p q (startTime :: passed) left rest)) :
    Wp (swivelBody value l) post halt s := by
  rw [swivelBody, wp_bind]
  refine wp_swivelErr cut ?_
  intro p rest positions
  by_cases near : |swivelErrAt value p| ≤ 1
  · rw [if_pos near, wp_bind]
    refine wp_stopAndWait ?_ ?_
    · intro early readings clocks
      exact stopped p rest readings clocks positions (Or.inr early)
    · intro startTime readings passed left clocks spun
      rw [wp_bind]
      refine wp_swivelErr ?_ ?_
      · intro none
        exact stopped p rest (startTime :: passed) left positions (Or.inl none)
      intro q rest' positions'
      obtain rfl : rest = q :: rest' := positions'
      by_cases there : |swivelErrAt value q| ≤ 1
      · rw [if_pos there, wp_pure]
        exact settled p q rest' startTime readings passed left positions near clocks spun there
      · rw [if_neg there]
        exact rejected p q rest' startTime readings passed left positions near clocks spun there
  · rw [if_neg near]
    exact far p rest positions near

/-- An iteration whose pause is not accepted hands on to the controller. -/
theorem wp_swivelBody_rejected {post : Ramp ⊕ PUnit → World → Prop} {p q : ℚ} {rest : List ℚ}
    {startTime : Int} {readings passed left : List Int} (positions : s.positions = p :: q :: rest)
    (clocks : s.clocks = startTime :: readings)
    (spun : spin startTime (CLOCKS_PER_SEC / 10) readings = some (passed, left))
    (near : |swivelErrAt value p| ≤ 1) (rejected : ¬|swivelErrAt value q| ≤ 1)
    (goesOn : Wp (swivelControl { l with error := swivelErrAt value p, startTime }) post halt
      (s.settled p q (startTime :: passed) left rest)) :
    Wp (swivelBody value l) post halt s := by
  refine wp_swivelBody ?_ ?_ ?_ ?_ ?_
  · intro none
    simp [none] at positions
  · rintro p' rest' _ _ positions' (rfl | early)
    · simp [positions'] at positions
    · simp [early startTime readings clocks] at spun
  · intro p' rest' positions' far
    obtain ⟨rfl, -⟩ := List.cons.inj (positions'.symm.trans positions)
    exact absurd near far
  · intro p' q' rest' _ _ _ _ positions' _ _ _ there
    have same := positions'.symm.trans positions
    simp only [List.cons.injEq] at same
    obtain ⟨rfl, rfl, -⟩ := same
    exact absurd there rejected
  · intro p' q' rest' startTime' readings' passed' left' positions' _ clocks' spun' _
    have same := positions'.symm.trans positions
    simp only [List.cons.injEq] at same
    obtain ⟨rfl, rfl, rfl⟩ := same
    obtain ⟨rfl, rfl⟩ := List.cons.inj (clocks'.symm.trans clocks)
    obtain ⟨rfl, rfl⟩ := Prod.mk.inj (Option.some.inj (spun'.symm.trans spun))
    exact goesOn

/-- The controller goes round again, and what has been called stays called. -/
theorem wp_swivelControl_extends {before : List MotionEvent} (held : before <+: s.trace)
    (l : Ramp) {done : PUnit → World → Prop} :
    Wp (swivelControl l) (fun outcome t => outcome.elim (fun _ => before <+: t.trace) (done · t))
      (fun t => before <+: t.trace) s := by
  rw [swivelControl, wp_bind]
  refine wp_control (fun _ => held) ?_ ?_
  · intro now rest _ _
    exact held.trans (List.prefix_append ..)
  · intro now rest _ _
    refine ⟨fun _ => held.trans (List.prefix_append ..), ?_⟩
    intro after left _
    rw [wp_pure]
    exact held.trans ((List.prefix_append ..).trans (List.prefix_append ..))

/-- The angle is within a degree of the target on the circle. -/
def OnTarget (value angle : ℚ) : Prop := ∃ turns : ℤ, |angle - value - turns * 360| ≤ 1

theorem onTarget_of_err {angle : ℚ} (small : |swivelErrAt value angle| ≤ 1) :
    OnTarget value angle := by
  obtain ⟨turns, eq⟩ := AddCommGroup.modEq_iff_zsmul.mp (swivelErrAt_modEq value angle)
  rw [zsmul_eq_mul] at eq
  exact ⟨turns, by rw [eq, sub_sub_cancel]; exact small⟩

/-- The calls of a run, after those in `before`, end with a sample on target, the
stop, a wait of a tenth of a second, and another sample on target. -/
def EndsSettled (value : ℚ) (before trace : List MotionEvent) : Prop :=
  ∃ earlier p startTime waiting finish q,
    trace = before ++ earlier ++ [.position .swivelServo p] ++
      stopEvents .swivelServo (startTime :: (waiting ++ [finish])) ++
      [.position .swivelServo q] ∧
    CLOCKS_PER_SEC / 10 ≤ finish - startTime ∧ OnTarget value p ∧ OnTarget value q

theorem lastSpeed_stopEvents (trace : List MotionEvent) (servo : ServoName) (readings : List Int) :
    lastSpeed servo (trace ++ stopEvents servo readings) = some 0 := by
  rw [stopEvents, ← List.append_assoc, lastSpeed_clocks, lastSpeed_set]

theorem EndsSettled.lastSpeed {before trace : List MotionEvent}
    (ends : EndsSettled value before trace) : lastSpeed .swivelServo trace = some 0 := by
  obtain ⟨earlier, p, startTime, waiting, finish, q, rfl, -⟩ := ends
  rw [lastSpeed_sample, lastSpeed_stopEvents]

/-- One iteration: what has been called stays called, and it is left settled. -/
theorem wp_swivelBody_settled {before : List MotionEvent} (held : before <+: s.trace) :
    Wp (swivelBody value l) (fun outcome t =>
      outcome.elim (fun _ => before <+: t.trace) (fun _ => EndsSettled value before t.trace))
      (fun t => before <+: t.trace) s := by
  refine wp_swivelBody (fun _ => held) ?_ ?_ ?_ ?_
  · intro p rest readings clocks _ _
    exact held.trans ((List.prefix_append ..).trans (List.prefix_append ..))
  · intro p rest _ _
    exact wp_swivelControl_extends (held.trans (List.prefix_append ..)) _
  · intro p q rest startTime readings passed left _ near _ spun there
    obtain ⟨earlier, eq⟩ := held
    obtain ⟨-, waiting, finish, rfl, late⟩ := spin_some spun
    refine ⟨earlier, p, startTime, waiting, finish, q, ?_, late, onTarget_of_err near,
      onTarget_of_err there⟩
    rw [eq]
    rfl
  · intro p q rest startTime readings passed left _ _ _ _ _
    refine wp_swivelControl_extends (held.trans ?_) _
    exact (List.prefix_append ..).trans ((List.prefix_append ..).trans (List.prefix_append ..))

/-- A call that returned ended settled, its last speed the stop before the wait. -/
theorem swivel_returns_settled (value : ℚ) (fuel : Nat) (s t : World) (done : PUnit)
    (returned : exec (swivel fuel value) s = (some done, t)) :
    EndsSettled value s.trace t.trace ∧ lastSpeed .swivelServo t.trace = some 0 := by
  have settles : Wp (swivel fuel value) (fun _ t => EndsSettled value s.trace t.trace)
      (fun t => s.trace <+: t.trace) s := by
    rw [swivel, wp_bind]
    refine wp_clock (fun _ => List.prefix_rfl) ?_
    intro startTime rest _
    refine wp_loop (fun _ t => s.trace <+: t.trace) ?_ (fun _ _ held => held)
      (List.prefix_append ..) fuel
    intro l mid _ held
    exact wp_swivelBody_settled held
  have ends := wp_of_exec settles returned
  exact ⟨ends, ends.lastSpeed⟩

end Swivel

/-- A target given as two turns and an eighth. -/
theorem swivel_returns_settled_far :
    EndsSettled 765 [] (exec (swivel 1 765) ⟨[0, 1, 100001], [], [45, 44.5], []⟩).2.trace ∧
      lastSpeed .swivelServo
        (exec (swivel 1 765) ⟨[0, 1, 100001], [], [45, 44.5], []⟩).2.trace = some 0 := by
  have returned : (exec (swivel 1 765) ⟨[0, 1, 100001], [], [45, 44.5], []⟩).1 = some ⟨⟩ := by
    decide +kernel
  exact swivel_returns_settled 765 1 _ _ ⟨⟩ (Prod.ext returned rfl)

/-- The shaft stands at the target, and moves by half a degree during the pause. -/
def steadyShaft : World := ⟨[0, 1, 100001], [], [45, 44.5], []⟩

theorem steadyShaft_settles {head : Ramp × World} (isHead : SwivelHead 45 steadyShaft head)
    {p q : ℚ} {rest : List ℚ} (positions : head.2.positions = p :: q :: rest) :
    |swivelErrAt 45 q| ≤ 1 := by
  obtain ⟨startTime, entry, ranClock, reached⟩ := isHead
  obtain ⟨later, clocks, rfl⟩ := clock_some ranClock
  obtain ⟨rfl, rfl⟩ := List.cons.inj clocks
  have leaves : (exec (swivelBody 45 (.start 0))
      { steadyShaft with clocks := [1, 100001], trace := [.clock 0] }).1 = some (.inr ⟨⟩) := by
    decide +kernel
  obtain rfl := reached.eq_of_left (Prod.ext leaves rfl)
  obtain rfl : (44.5 : ℚ) = q := (List.cons.inj (List.cons.inj positions).2).1
  decide +kernel

end ProjectOwl.Beagle
