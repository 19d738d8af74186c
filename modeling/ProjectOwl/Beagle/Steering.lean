import Mathlib.Data.List.Induction
import ProjectOwl.Beagle.Swivel

/-! # Which way the drive pushes

Every speed `swivel` commands is held against the error of the sample taken last.
The controller steers by the sample before the pause, so that it pushes away from
the target when the shaft crosses it during a pause that is not accepted. -/

set_option autoImplicit false

namespace ProjectOwl.Beagle

open Proc

/-- A speed that drives towards the target, as sampled last. -/
def Toward (value : ℚ) (events : List MotionEvent) (u : Dbl) : Prop :=
  ∃ p q, lastAngle .swivelServo events = some p ∧ u = .fin q ∧ 0 ≤ q * swivelErrAt value p

/-- Every speed of these calls drives towards the target. -/
def Steered (value : ℚ) (events : List MotionEvent) : Prop :=
  ∀ before u, before ++ [.speed .swivelServo u] <+: events → Toward value before u

/-- So does every speed of the calls that come after those in `before`. -/
def SteeredSince (value : ℚ) (before trace : List MotionEvent) : Prop :=
  ∃ events, trace = before ++ events ∧ Steered value events

section Traces
variable {value p : ℚ} {events more : List MotionEvent}

theorem steered_nil : Steered value [] := by
  intro before u front
  have nothing := List.prefix_nil.mp front
  simp at nothing

theorem steered_concat {event : MotionEvent} :
    Steered value (events ++ [event]) ↔
      Steered value events ∧ ∀ u, event = .speed .swivelServo u → Toward value events u := by
  constructor
  · intro steered
    refine ⟨?_, ?_⟩
    · intro before u front
      exact steered before u (front.trans (List.prefix_append ..))
    · rintro u rfl
      exact steered events u List.prefix_rfl
  · rintro ⟨steered, last⟩ before u front
    rcases List.prefix_concat_iff.mp front with same | inner
    · obtain ⟨rfl, speed⟩ := List.append_inj' same rfl
      exact last u (List.singleton_inj.mp speed).symm
    · exact steered before u inner

/-- Only speeds matter. -/
theorem steered_append_other
    (other : ∀ event ∈ more, MotionEvent.speedOf .swivelServo event = none) :
    Steered value (events ++ more) ↔ Steered value events := by
  induction more using List.reverseRecOn with
  | nil => rw [List.append_nil]
  | append_singleton more event ih =>
      have inner := ih fun e member => other e (List.mem_append_left _ member)
      rw [← List.append_assoc, steered_concat, inner]
      refine and_iff_left ?_
      rintro u rfl
      have none := other (.speed .swivelServo u) (by simp)
      simp [MotionEvent.speedOf] at none

theorem steered_clock {now : Int} :
    Steered value (events ++ [.clock now]) ↔ Steered value events :=
  steered_append_other (by simp [MotionEvent.speedOf])

theorem steered_sample :
    Steered value (events ++ [.position .swivelServo p]) ↔ Steered value events :=
  steered_append_other (by simp [MotionEvent.speedOf])

theorem steered_speed (last : lastAngle .swivelServo events = some p) (u : ℚ) :
    Steered value (events ++ speedEvents .swivelServo u) ↔
      Steered value events ∧ 0 ≤ u * swivelErrAt value p := by
  have split : events ++ speedEvents .swivelServo u =
      events ++ [.speed .swivelServo (.fin u)] ++
        [.duty ServoName.swivelServo.ctrlPin (dutyCycle (.fin u))] := by
    simp [speedEvents]
  rw [split, steered_append_other (by simp [MotionEvent.speedOf]), steered_concat]
  refine and_congr_right fun _ => ?_
  constructor
  · intro toward
    obtain ⟨p', q, last', eq, sign⟩ := toward (.fin u) rfl
    obtain rfl := Option.some.inj (last.symm.trans last')
    obtain rfl := Dbl.fin.inj eq
    exact sign
  · rintro sign u' eq
    obtain rfl : Dbl.fin u = u' := by simpa using eq
    exact ⟨p, u, last, rfl, sign⟩

theorem lastAngle_speedEvents {servo other : ServoName} (u : ℚ) :
    lastAngle servo (events ++ speedEvents other u) = lastAngle servo events :=
  lastOf_append_other (by simp [speedEvents, MotionEvent.angleOf])

theorem steered_speeds (last : lastAngle .swivelServo events = some p) (us : List ℚ) :
    Steered value (events ++ us.flatMap (speedEvents .swivelServo)) ↔
      Steered value events ∧ ∀ u ∈ us, 0 ≤ u * swivelErrAt value p := by
  induction us generalizing events with
  | nil => simp
  | cons u us ih =>
      have last' : lastAngle .swivelServo (events ++ speedEvents .swivelServo u) = some p := by
        rw [lastAngle_speedEvents, last]
      rw [List.flatMap_cons, ← List.append_assoc, ih last', steered_speed last,
        List.forall_mem_cons, and_assoc]

theorem steered_stopEvents (last : lastAngle .swivelServo events = some p) (readings : List Int) :
    Steered value (events ++ stopEvents .swivelServo readings) ↔ Steered value events := by
  have split : events ++ stopEvents .swivelServo readings =
      events ++ speedEvents .swivelServo 0 ++ readings.map .clock := by
    simp [stopEvents, speedEvents, Dbl.zero_eq]
  rw [split, steered_append_other (by simp [MotionEvent.speedOf]), steered_speed last]
  simp

end Traces

/-! ## The speeds of a tick -/

section Commands
variable {slow : ℚ} (l : Ramp)

theorem turned_mul_error_nonneg : 0 ≤ l.turned * l.error := by
  unfold Ramp.turned
  split
  · simp
  · linarith

/-- The ramp drives away from an error of the other sign, and at no error, where
it repeats the output, from the side the output drives away from. -/
def PushesFrom (e : ℚ) : Prop :=
  0 < l.error ∧ e < 0 ∨ l.error < 0 ∧ 0 < e ∨ l.error = 0 ∧ l.output * e < 0

theorem nudge_mul_neg_iff (e : ℚ) : nudge l.error l.turned * e < 0 ↔ PushesFrom l e := by
  have turned := turned_mul_error_nonneg l
  unfold PushesFrom nudge
  dsimp only
  rcases lt_trichotomy l.error 0 with negative | zero | positive
  · have nonpos : l.turned ≤ 0 := by nlinarith
    rw [if_pos negative, if_neg (by linarith), mul_neg_iff]
    constructor
    · rintro (⟨drives, -⟩ | ⟨-, above⟩)
      · linarith
      · exact Or.inr (Or.inl ⟨negative, above⟩)
    · rintro (⟨positive, -⟩ | ⟨-, above⟩ | ⟨zero, -⟩)
      · linarith
      · exact Or.inr ⟨by linarith, above⟩
      · linarith
  · simp [zero, Ramp.turned]
  · have nonneg : 0 ≤ l.turned := by nlinarith
    rw [if_neg (by linarith), if_pos positive, mul_neg_iff]
    constructor
    · rintro (⟨-, below⟩ | ⟨drives, -⟩)
      · exact Or.inl ⟨positive, below⟩
      · linarith
    · rintro (⟨-, below⟩ | ⟨negative, -⟩ | ⟨zero, -⟩)
      · exact Or.inl ⟨by linarith, below⟩
      · linarith
      · linarith

/-- A tick never drives away from the error it steers by. -/
theorem not_pushesFrom_error : ¬PushesFrom l l.error := by
  rintro (⟨positive, negative⟩ | ⟨negative, positive⟩ | ⟨zero, drives⟩)
  · exact lt_asymm positive negative
  · exact lt_asymm positive negative
  · simp [zero] at drives

theorem mem_commands {u : ℚ} (member : u ∈ l.commands slow) :
    u = 0 ∨ (|l.error - l.prevError| < slow ∧ u = nudge l.error l.turned) := by
  rcases List.mem_append.mp member with stop | ramp
  · left
    by_contra other
    split at stop
    · exact other (List.mem_singleton.mp stop)
    · simp at stop
  · right
    by_cases small : |l.error - l.prevError| < slow
    · rw [if_pos small] at ramp
      exact ⟨small, List.mem_singleton.mp ramp⟩
    · rw [if_neg small] at ramp
      simp at ramp

theorem commands_nonneg_iff (e : ℚ) :
    (∀ u ∈ l.commands slow, 0 ≤ u * e) ↔
      ¬(|l.error - l.prevError| < slow ∧ PushesFrom l e) := by
  rw [← nudge_mul_neg_iff, not_and, not_lt]
  constructor
  · intro all small
    exact all _ (by simp [Ramp.commands, small])
  · intro last u member
    rcases mem_commands l member with rfl | ⟨small, rfl⟩
    · simp
    · exact last small

end Commands

/-! ## The runs of `swivel` -/

section Runs
variable {value : ℚ} {before events : List MotionEvent} {l : Ramp} {s : World}

theorem steeredSince_append :
    SteeredSince value before (before ++ events) ↔ Steered value events := by
  constructor
  · rintro ⟨events', eq, steered⟩
    rw [List.append_cancel_left eq]
    exact steered
  · intro steered
    exact ⟨events, rfl, steered⟩

/-- A tick of the controller, right after a sample. -/
theorem steeredSince_tick {p : ℚ} {trace : List MotionEvent} (slow : ℚ) (now : Int)
    (last : lastAngle .swivelServo events = some p) (held : trace = before ++ events) :
    SteeredSince value before
        (trace ++ .clock now :: (l.commands slow).flatMap (speedEvents .swivelServo)) ↔
      Steered value events ∧ ∀ u ∈ l.commands slow, 0 ≤ u * swivelErrAt value p := by
  have clocked : lastAngle .swivelServo (events ++ [.clock now]) = some p := by
    rw [← last]
    exact lastOf_append_other (by simp [MotionEvent.angleOf])
  rw [held, List.append_cons, List.append_assoc, List.append_assoc, steeredSince_append,
    ← List.append_assoc, steered_speeds clocked, steered_clock]

/-- What holds at the heads of a call made after `before`. -/
def SteersAt (value : ℚ) (before : List MotionEvent) (_ : Ramp) (w : World) : Prop :=
  w.clocks.Pairwise (· ≤ ·) ∧ SteeredSince value before w.trace

theorem wp_swivelControl_steered {p : ℚ} (held : s.trace = before ++ events)
    (sorted : s.clocks.Pairwise (· ≤ ·)) (last : lastAngle .swivelServo events = some p)
    (steered : Steered value events)
    (toward : s.clocks ≠ [] → ∀ u ∈ l.commands 1, 0 ≤ u * swivelErrAt value p) :
    Wp (swivelControl l) (fun outcome t => outcome.elim (SteersAt value before · t)
      (fun _ => SteeredSince value before t.trace)) (fun t => SteeredSince value before t.trace)
      s := by
  have here : SteeredSince value before s.trace := ⟨events, held, steered⟩
  rw [swivelControl, wp_bind]
  refine wp_control (fun _ => here) ?_ ?_
  · intro now rest clocks _
    rw [clocks] at sorted
    refine ⟨sorted.of_cons, events ++ [.clock now], ?_, steered_clock.mpr steered⟩
    rw [held, List.append_assoc]
  · intro now rest clocks _ drives
    have after := (steeredSince_tick (l := l) 1 now last held).mpr
      ⟨steered, toward (by simp [clocks])⟩
    refine ⟨fun _ => after, ?_⟩
    intro again left clocks'
    obtain ⟨events', eq, steered'⟩ := after
    rw [clocks, clocks'] at sorted
    refine ⟨sorted.of_cons.of_cons, events' ++ [.clock again], ?_, steered_clock.mpr steered'⟩
    rw [eq, List.append_assoc]

/-- Near the target the shaft moves on during the pause, and the controller, which
goes on with the error from before it, drives away from where it is now. -/
def CrossesInPause (value : ℚ) (l : Ramp) (w : World) : Prop :=
  ∃ p q rest startTime readings passed now left,
    w.positions = p :: q :: rest ∧ w.clocks = startTime :: readings ∧
    spin startTime (CLOCKS_PER_SEC / 10) readings = some (passed, now :: left) ∧
    |swivelErrAt value p| ≤ 1 ∧ ¬|swivelErrAt value q| ≤ 1 ∧
    |swivelErrAt value p - l.prevError| < 1 ∧
    PushesFrom { l with error := swivelErrAt value p } (swivelErrAt value q)

theorem steered_settled (steered : Steered value events) (p q : ℚ) (readings : List Int) :
    Steered value (events ++ [.position .swivelServo p] ++ stopEvents .swivelServo readings ++
      [.position .swivelServo q]) := by
  rw [steered_sample, steered_stopEvents (lastAngle_sample ..), steered_sample]
  exact steered

/-- An iteration that does not cross in the pause keeps to the target. -/
theorem wp_swivelBody_steered (steers : SteersAt value before l s)
    (good : ¬CrossesInPause value l s) :
    Wp (swivelBody value l) (fun outcome t => outcome.elim (SteersAt value before · t)
      (fun _ => SteeredSince value before t.trace)) (fun t => SteeredSince value before t.trace)
      s := by
  obtain ⟨sorted, events, held, steered⟩ := steers
  refine wp_swivelBody ?_ ?_ ?_ ?_ ?_
  · intro _
    exact ⟨events, held, steered⟩
  · intro p rest readings clocks _ _
    refine ⟨events ++ [.position .swivelServo p] ++ stopEvents .swivelServo readings, ?_, ?_⟩
    · simp [held]
    · rw [steered_stopEvents (lastAngle_sample ..), steered_sample]
      exact steered
  · intro p rest _ _
    have sampled : s.trace ++ [.position .swivelServo p] =
        before ++ (events ++ [.position .swivelServo p]) := by
      rw [held, List.append_assoc]
    refine wp_swivelControl_steered sampled sorted (lastAngle_sample ..)
      (steered_sample.mpr steered) ?_
    intro _
    rw [commands_nonneg_iff]
    rintro ⟨-, pushes⟩
    exact not_pushesFrom_error _ pushes
  · intro p q rest startTime readings passed left _ _ _ _ _
    refine ⟨_, ?_, steered_settled steered p q (startTime :: passed)⟩
    simp [held, World.settled]
  · intro p q rest startTime readings passed left positions near clocks spun rejected
    obtain ⟨rfl, -⟩ := spin_some spun
    rw [clocks] at sorted
    refine wp_swivelControl_steered ?_ (List.pairwise_append.mp sorted.of_cons).2.1
      (lastAngle_sample ..) (steered_settled steered p q (startTime :: passed)) ?_
    · simp [held, World.settled]
    · intro goesOn
      rw [commands_nonneg_iff]
      rintro ⟨small, pushes⟩
      obtain ⟨now, left, rfl⟩ := List.exists_cons_of_ne_nil goesOn
      exact good ⟨p, q, rest, startTime, _, passed, now, left, positions, clocks, spun, near,
        rejected, small, pushes⟩

theorem SteeredSince.of_append {trace more : List MotionEvent} (held : trace = before ++ events)
    (steered : SteeredSince value before (trace ++ more)) : SteeredSince value before trace := by
  obtain ⟨events', eq, steered⟩ := steered
  rw [held, List.append_assoc, List.append_right_inj] at eq
  refine ⟨events, held, ?_⟩
  intro front u found
  rw [← eq] at steered
  exact steered front u (found.trans (List.prefix_append ..))

/-- A controller that pushes from the last sample spoils the run. -/
theorem wp_swivelControl_pushes {q : ℚ} {now : Int} {left : List Int}
    (held : s.trace = before ++ events) (last : lastAngle .swivelServo events = some q)
    (clocks : s.clocks = now :: left) (tick : CLOCKS_PER_SEC / 100 ≤ now - l.startTime)
    (small : |l.error - l.prevError| < 1) (pushes : PushesFrom l (swivelErrAt value q)) :
    Wp (swivelControl l) (fun _ t => ¬SteeredSince value before t.trace)
      (fun t => ¬SteeredSince value before t.trace) s := by
  have spoilt : ¬SteeredSince value before
      (s.trace ++ .clock now :: (l.commands 1).flatMap (speedEvents .swivelServo)) := by
    rw [steeredSince_tick 1 now last held, commands_nonneg_iff]
    rintro ⟨-, keeps⟩
    exact keeps ⟨small, pushes⟩
  rw [swivelControl, wp_bind]
  refine wp_control ?_ ?_ ?_
  · intro none
    simp [none] at clocks
  · intro now' rest clocks' early
    obtain ⟨rfl, -⟩ := List.cons.inj (clocks'.symm.trans clocks)
    exact absurd tick (not_le.mpr early)
  · intro now' rest clocks' _
    obtain ⟨rfl, -⟩ := List.cons.inj (clocks'.symm.trans clocks)
    refine ⟨fun _ => spoilt, ?_⟩
    intro after left' _ steered
    have driven : s.trace ++ .clock now' :: (l.commands 1).flatMap (speedEvents .swivelServo) =
        before ++ (events ++ .clock now' :: (l.commands 1).flatMap (speedEvents .swivelServo)) := by
      rw [held, List.append_assoc]
    exact spoilt (SteeredSince.of_append driven steered)

/-- One that does drives away from it. -/
theorem wp_swivelBody_crosses (steers : SteersAt value before l s)
    (crosses : CrossesInPause value l s) :
    Wp (swivelBody value l) (fun _ t => ¬SteeredSince value before t.trace)
      (fun t => ¬SteeredSince value before t.trace) s := by
  obtain ⟨sorted, events, held, -⟩ := steers
  obtain ⟨p, q, rest, startTime, readings, passed, now, left, positions, clocks, spun, near,
    rejected, small, pushes⟩ := crosses
  refine wp_swivelBody_rejected positions clocks spun near rejected ?_
  have sampled : (s.settled p q (startTime :: passed) (now :: left) rest).trace =
      before ++ (events ++ [.position .swivelServo p] ++
        stopEvents .swivelServo (startTime :: passed) ++ [.position .swivelServo q]) := by
    simp [held, World.settled]
  rw [clocks] at sorted
  exact wp_swivelControl_pushes sampled (lastAngle_sample ..) rfl
    (tick_after_wait sorted.of_cons spun) small pushes

/-- The drive of a call never pushes away from the target exactly when the shaft
never crosses it in a pause that is not accepted. -/
theorem swivel_steers_iff (value : ℚ) (s : World) (sorted : s.clocks.Pairwise (· ≤ ·)) :
    (∀ fuel, SteeredSince value s.trace (exec (swivel fuel value) s).2.trace) ↔
      ∀ head, SwivelHead value s head → ¬CrossesInPause value head.1 head.2 := by
  have noCalls : SteeredSince value s.trace s.trace := ⟨[], by simp, steered_nil⟩
  rw [← swivel_always_iff (fun t => SteeredSince value s.trace t.trace) (fun _ _ => True)
    (CrossesInPause value) noCalls]
  · simp
  · intro startTime rest clocks
    rw [clocks] at sorted
    refine always_iff_reached (SteersAt value s.trace) (CrossesInPause value)
      (fun t => SteeredSince value s.trace t.trace) (fun _ _ => True) ?_ ?_ ?_ ?_
    · intro l t steers
      exact ⟨steers.2, trivial⟩
    · intro l t steers good
      exact wp_swivelBody_steered steers good
    · intro l t steers crosses
      refine wp_mono (wp_swivelBody_crosses steers crosses) ?_ fun _ spoilt => spoilt
      rintro (next | done) t spoilt
      · exact fun held => absurd held spoilt
      · exact spoilt
    · have entered : Steered value ([] ++ [.clock startTime]) := steered_clock.mpr steered_nil
      exact ⟨sorted.of_cons, [.clock startTime], rfl, entered⟩

end Runs

theorem swivel_steers_iff_steady :
    (∀ fuel, SteeredSince 45 [] (exec (swivel fuel 45) steadyShaft).2.trace) ∧
      ∀ head, SwivelHead 45 steadyShaft head → ¬CrossesInPause 45 head.1 head.2 := by
  have good : ∀ head, SwivelHead 45 steadyShaft head → ¬CrossesInPause 45 head.1 head.2 := by
    rintro head isHead ⟨p, q, rest, -, -, -, -, -, positions, -, -, -, far, -⟩
    exact far (steadyShaft_settles isHead positions)
  exact ⟨(swivel_steers_iff 45 steadyShaft (by decide)).mpr good, good⟩

/-- The shaft stands half a degree past the target and slips to two degrees before
it during the pause; the tick after it drives on in the old direction. -/
theorem swivel_pushes_away :
    let run := exec (swivel 1 90) ⟨[0, 1, 100001, 100002], [], [90.5, 88], []⟩
    lastAngle .swivelServo run.2.trace = some 88 ∧ swivelErrAt 90 88 = -2 ∧
      lastSpeed .swivelServo run.2.trace = some 0.1 ∧ ¬SteeredSince 90 [] run.2.trace := by
  refine ⟨by decide +kernel, by decide +kernel, by decide +kernel, ?_⟩
  rintro ⟨events, eq, steered⟩
  have drives : events.take 8 ++ [.speed .swivelServo (.fin 0.1)] <+: events := by
    rw [← List.nil_append events, ← eq]
    decide +kernel
  obtain ⟨p, u, last, speed, toward⟩ := steered _ _ drives
  rw [← List.nil_append events, ← eq] at last
  have sampled : p = 88 := Option.some.inj (last.symm.trans (by decide +kernel))
  obtain rfl := Dbl.fin.inj speed
  rw [sampled] at toward
  exact absurd toward (by decide +kernel)

end ProjectOwl.Beagle
