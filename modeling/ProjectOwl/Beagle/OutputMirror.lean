import Mathlib.Data.List.Chain
import ProjectOwl.Beagle.Rotate
import ProjectOwl.Beagle.Swivel

/-! # The output and the speed of the servo

The controller of `swivel` and `rotate` takes its output for the speed the servo
runs at.  The stop before the pause sets the speed and leaves the output, so that
the two part when the pause is not accepted. -/

set_option autoImplicit false

namespace ProjectOwl.Beagle

open Proc

/-- A stop, or a tenth at most from the speed before. -/
def Ramps : Dbl → Dbl → Prop
  | .fin u, .fin v => v = 0 ∨ |v - u| ≤ 0.1
  | _, _ => False

def speeds (servo : ServoName) (events : List MotionEvent) : List Dbl :=
  events.filterMap (MotionEvent.speedOf servo)

/-- The speeds of the calls after those in `before` only stop the servo or ramp. -/
def RampedSince (servo : ServoName) (before trace : List MotionEvent) : Prop :=
  ∃ events, trace = before ++ events ∧ (0 :: speeds servo events).IsChain Ramps

/-- The output is the last speed of these calls. -/
def MirroredSince (servo : ServoName) (before : List MotionEvent) (l : Ramp)
    (trace : List MotionEvent) : Prop :=
  ∃ events, trace = before ++ events ∧ (speeds servo events).getLastD 0 = .fin l.output

/-- The calls ramp, and the last speed is `u`. -/
def DrivenAt (servo : ServoName) (before trace : List MotionEvent) (u : ℚ) : Prop :=
  ∃ events, trace = before ++ events ∧ (0 :: speeds servo events).IsChain Ramps ∧
    (speeds servo events).getLastD 0 = .fin u

/-- From speed to speed as `Ramps` asks. -/
def Chained : ℚ → List ℚ → Prop := fun u us => ((u :: us).map Dbl.fin).IsChain Ramps

section Traces
variable {servo : ServoName} {before trace more : List MotionEvent} {u : ℚ}

theorem DrivenAt.ramped (driven : DrivenAt servo before trace u) :
    RampedSince servo before trace := by
  obtain ⟨events, eq, chain, -⟩ := driven
  exact ⟨events, eq, chain⟩

theorem DrivenAt.mirrored {l : Ramp} (driven : DrivenAt servo before trace l.output) :
    MirroredSince servo before l trace := by
  obtain ⟨events, eq, -, last⟩ := driven
  exact ⟨events, eq, last⟩

/-- A chain goes on from its last element. -/
theorem isChain_append_iff {first : Dbl} {us vs : List Dbl}
    (chain : (first :: us).IsChain Ramps) :
    (first :: (us ++ vs)).IsChain Ramps ↔ (us.getLastD first :: vs).IsChain Ramps := by
  induction us generalizing first with
  | nil => rfl
  | cons next us ih =>
      rw [List.isChain_cons_cons] at chain
      rw [List.cons_append, List.isChain_cons_cons, ih chain.2, List.getLastD_cons]
      exact and_iff_right chain.1

theorem speeds_append (events : List MotionEvent) :
    speeds servo (events ++ more) = speeds servo events ++ speeds servo more :=
  List.filterMap_append ..

theorem speeds_speedEvents (us : List ℚ) :
    speeds servo (us.flatMap (speedEvents servo)) = us.map .fin := by
  induction us with
  | nil => rfl
  | cons u us ih =>
      have first : speeds servo (speedEvents servo u) = [.fin u] := by
        simp [speeds, speedEvents, MotionEvent.speedOf]
      rw [List.flatMap_cons, speeds_append, first, ih]
      rfl

/-- Calls that command no speed. -/
def Quiet (servo : ServoName) (events : List MotionEvent) : Prop := speeds servo events = []

theorem DrivenAt.quiet (driven : DrivenAt servo before trace u) (quiet : Quiet servo more) :
    DrivenAt servo before (trace ++ more) u := by
  obtain ⟨events, eq, chain, last⟩ := driven
  have same : speeds servo (events ++ more) = speeds servo events := by
    rw [speeds_append, quiet, List.append_nil]
  refine ⟨events ++ more, by rw [eq, List.append_assoc], ?_, ?_⟩
  · rw [same]
    exact chain
  · rw [same]
    exact last

/-- The speeds of a trace that goes on. -/
theorem rampedSince_append_iff (driven : DrivenAt servo before trace u) (us : List ℚ)
    (found : speeds servo more = us.map .fin) :
    RampedSince servo before (trace ++ more) ↔ Chained u us := by
  obtain ⟨events, rfl, chain, last⟩ := driven
  have all : speeds servo (events ++ more) = speeds servo events ++ us.map .fin := by
    rw [speeds_append, found]
  rw [Chained, List.map_cons, ← last, ← isChain_append_iff chain, ← all]
  constructor
  · rintro ⟨events', eq, ramps⟩
    rw [List.append_assoc, List.append_right_inj] at eq
    rw [eq]
    exact ramps
  · intro ramps
    exact ⟨events ++ more, by rw [List.append_assoc], ramps⟩

theorem mirroredSince_append_iff {l : Ramp} (driven : DrivenAt servo before trace u) (us : List ℚ)
    (found : speeds servo more = us.map .fin) :
    MirroredSince servo before l (trace ++ more) ↔ us.getLastD u = l.output := by
  obtain ⟨events, rfl, -, last⟩ := driven
  have all : (speeds servo (events ++ more)).getLastD 0 = .fin (us.getLastD u) := by
    have split : speeds servo (events ++ more) = speeds servo events ++ us.map .fin := by
      rw [speeds_append, found]
    rw [split]
    cases us using List.reverseRecOn with
    | nil => simpa using last
    | append_singleton us v => simp
  constructor
  · rintro ⟨events', eq, mirrored⟩
    rw [List.append_assoc, List.append_right_inj] at eq
    rw [← eq, all] at mirrored
    exact Dbl.fin.inj mirrored
  · intro same
    exact ⟨events ++ more, by rw [List.append_assoc], by rw [all, same]⟩

theorem DrivenAt.append (driven : DrivenAt servo before trace u) (us : List ℚ)
    (found : speeds servo more = us.map .fin) (chained : Chained u us) {v : ℚ}
    (ends : us.getLastD u = v) : DrivenAt servo before (trace ++ more) v := by
  obtain ⟨events, eq, chain⟩ := (rampedSince_append_iff driven us found).mpr chained
  obtain ⟨events', eq', last⟩ :=
    (mirroredSince_append_iff (l := ⟨0, 0, v, 0⟩) driven us found).mpr ends
  obtain rfl := List.append_cancel_left (eq.symm.trans eq')
  exact ⟨events, eq, chain, last⟩

end Traces

/-! ## The speeds of a tick -/

section Tick
variable {slow : ℚ} (l : Ramp)

theorem chained_cons {u v : ℚ} {us : List ℚ} :
    Chained u (v :: us) ↔ (v = 0 ∨ |v - u| ≤ 0.1) ∧ Chained v us := by
  unfold Chained
  rw [List.map_cons, List.map_cons, List.isChain_cons_cons]
  rfl

theorem chained_nil (u : ℚ) : Chained u [] := by simp [Chained]

theorem abs_nudge_sub (error output : ℚ) : |nudge error output - output| ≤ 0.1 := by
  unfold nudge
  dsimp only
  rcases lt_trichotomy error 0 with negative | rfl | positive
  · rw [if_pos negative, if_neg (by linarith), abs_le]
    constructor
    · linarith
    · linarith
  · rw [if_neg (lt_irrefl 0), if_neg (lt_irrefl 0), sub_self, abs_zero]
    norm_num
  · rw [if_neg (by linarith), if_pos positive, abs_le]
    constructor
    · linarith
    · linarith

/-- A tick goes on from the output and ends at the new one. -/
theorem commands_from_output (slow : ℚ) :
    Chained l.output (l.commands slow) ∧
      (l.commands slow).getLastD l.output = l.driven slow := by
  have near := abs_nudge_sub l.error l.turned
  unfold Ramp.commands Ramp.driven Ramp.turned at *
  by_cases wrong : l.output * l.error < 0
  · by_cases small : |l.error - l.prevError| < slow
    · simp only [wrong, small, if_true] at near ⊢
      exact ⟨chained_cons.mpr ⟨Or.inl rfl, chained_cons.mpr ⟨Or.inr near, chained_nil _⟩⟩, rfl⟩
    · simp only [wrong, small, if_true, if_false]
      exact ⟨chained_cons.mpr ⟨Or.inl rfl, chained_nil _⟩, rfl⟩
  · by_cases small : |l.error - l.prevError| < slow
    · simp only [wrong, small, if_true, if_false] at near ⊢
      exact ⟨chained_cons.mpr ⟨Or.inr near, chained_nil _⟩, rfl⟩
    · simp only [wrong, small, if_false]
      exact ⟨chained_nil _, rfl⟩

/-- The output that the stop left is driven on: it is neither set to zero nor, at
no error, repeated while it is within a step of the stop. -/
def Ramp.Winds (slow : ℚ) (l : Ramp) : Prop :=
  l.output ≠ 0 ∧ 0 ≤ l.output * l.error ∧
    ¬(l.error = 0 ∧ |l.output| ≤ 0.1 ∧ |l.error - l.prevError| < slow)

/-- The first speed of the ramp after a stop. -/
theorem nudge_after_stop_iff (right : 0 ≤ l.output * l.error) :
    nudge l.error l.output = 0 ∨ |nudge l.error l.output - 0| ≤ 0.1 ↔
      l.output = 0 ∨ (l.error = 0 ∧ |l.output| ≤ 0.1) := by
  have step := abs_nudge_sub l.error l.output
  by_cases still : l.output = 0
  · rw [still] at step
    rw [still]
    exact iff_of_true (Or.inr step) (Or.inl rfl)
  · rw [or_iff_right still, sub_zero]
    unfold nudge
    dsimp only
    rcases lt_trichotomy l.error 0 with negative | zero | positive
    · have drives : l.output < 0 := lt_of_le_of_ne (by nlinarith) still
      rw [if_pos negative, if_neg (by linarith), abs_of_neg (by linarith)]
      refine iff_of_false ?_ ?_
      · rintro (stop | close)
        · linarith
        · linarith
      · rintro ⟨zero, -⟩
        linarith
    · rw [zero, if_neg (lt_irrefl 0), if_neg (lt_irrefl 0), or_iff_right still]
      exact (and_iff_right rfl).symm
    · have drives : 0 < l.output := lt_of_le_of_ne (by nlinarith) (Ne.symm still)
      rw [if_neg (by linarith), if_pos positive, abs_of_pos (by linarith)]
      refine iff_of_false ?_ ?_
      · rintro (stop | close)
        · linarith
        · linarith
      · rintro ⟨zero, -⟩
        linarith

/-- After a stop the speeds of a tick go on from it unless the old output is driven on. -/
theorem chained_after_stop_iff :
    Chained 0 (l.commands slow) ↔ ¬(|l.error - l.prevError| < slow ∧ l.Winds slow) := by
  have step := abs_nudge_sub l.error 0
  rw [sub_zero] at step
  unfold Ramp.commands Ramp.turned Ramp.Winds
  by_cases wrong : l.output * l.error < 0
  · have never : ¬0 ≤ l.output * l.error := not_le.mpr wrong
    by_cases small : |l.error - l.prevError| < slow
    · simp [wrong, small, never, chained_cons, chained_nil, step]
    · simp [wrong, small, never, chained_cons, chained_nil]
  · have right : 0 ≤ l.output * l.error := not_lt.mp wrong
    by_cases small : |l.error - l.prevError| < slow
    · have first := nudge_after_stop_iff l right
      simp only [wrong, small, right, if_true, if_false, List.nil_append, chained_cons, first]
      simp only [chained_nil, and_true, true_and, ne_eq, not_and]
      tauto
    · simp [wrong, small, chained_nil]

/-- Nor is the output the speed after it. -/
theorem driven_after_stop_iff (chained : Chained 0 (l.commands slow)) :
    (l.commands slow).getLastD 0 = l.driven slow ↔ ¬l.Winds slow := by
  by_cases small : |l.error - l.prevError| < slow
  · have still : ¬l.Winds slow := fun winds => (chained_after_stop_iff l).mp chained ⟨small, winds⟩
    refine iff_of_true ?_ still
    simp [Ramp.commands, Ramp.driven, small]
  · unfold Ramp.commands Ramp.driven Ramp.turned Ramp.Winds
    by_cases wrong : l.output * l.error < 0
    · simp [wrong, small, not_le.mpr wrong]
    · simp [wrong, small, not_lt.mp wrong, eq_comm]

end Tick

/-! ## The controller -/

/-- What holds at the heads of a call made after `before`. -/
def MirrorsAt (servo : ServoName) (before : List MotionEvent) (l : Ramp) (w : World) : Prop :=
  w.clocks.Pairwise (· ≤ ·) ∧ DrivenAt servo before w.trace l.output

section Control
variable {servo : ServoName} {slow u : ℚ} {before : List MotionEvent} {l : Ramp} {s : World}

theorem speeds_tick (now : Int) (us : List ℚ) :
    speeds servo (.clock now :: us.flatMap (speedEvents servo)) = us.map .fin :=
  speeds_speedEvents us

theorem quiet_clock (now : Int) : Quiet servo [.clock now] := rfl

/-- The controller goes on from the speed `u`. -/
theorem wp_control_mirrors (sorted : s.clocks.Pairwise (· ≤ ·))
    (driven : DrivenAt servo before s.trace u)
    (idle : ∀ now rest, s.clocks = now :: rest → now - l.startTime < CLOCKS_PER_SEC / 100 →
      u = l.output)
    (ticks : ∀ now rest, s.clocks = now :: rest → Chained u (l.commands slow) ∧
      (rest ≠ [] → (l.commands slow).getLastD u = l.driven slow)) :
    Wp (control servo slow l) (MirrorsAt servo before) (fun t => RampedSince servo before t.trace)
      s := by
  refine wp_control (fun _ => driven.ramped) ?_ ?_
  · intro now rest clocks early
    obtain rfl := idle now rest clocks early
    rw [clocks] at sorted
    exact ⟨sorted.of_cons, driven.quiet (quiet_clock now)⟩
  · intro now rest clocks _ drives
    obtain ⟨chained, last⟩ := ticks now rest clocks
    have found : speeds servo drives = (l.commands slow).map .fin := speeds_tick now _
    refine ⟨fun _ => (driven.append _ found chained rfl).ramped, ?_⟩
    intro after left clocks'
    rw [clocks, clocks'] at sorted
    have moved := driven.append _ found chained (last (by simp [clocks']))
    exact ⟨sorted.of_cons.of_cons, moved.quiet (quiet_clock after)⟩

/-- From a stop it does, unless it drives the old output on. -/
theorem wp_control_stopped (sorted : s.clocks.Pairwise (· ≤ ·))
    (driven : DrivenAt servo before s.trace 0)
    (late : ∀ now rest, s.clocks = now :: rest → CLOCKS_PER_SEC / 100 ≤ now - l.startTime)
    (good : ∀ now rest, s.clocks = now :: rest →
      ¬(l.Winds slow ∧ (|l.error - l.prevError| < slow ∨ rest ≠ []))) :
    Wp (control servo slow l) (MirrorsAt servo before) (fun t => RampedSince servo before t.trace)
      s := by
  refine wp_control_mirrors sorted driven ?_ ?_
  · intro now rest clocks early
    exact absurd (late now rest clocks) (not_le.mpr early)
  · intro now rest clocks
    have chained : Chained 0 (l.commands slow) := by
      rw [chained_after_stop_iff]
      rintro ⟨small, winds⟩
      exact good now rest clocks ⟨winds, Or.inl small⟩
    refine ⟨chained, ?_⟩
    intro goesOn
    rw [driven_after_stop_iff l chained]
    intro winds
    exact good now rest clocks ⟨winds, Or.inr goesOn⟩

/-- One that drives it on spoils the run. -/
theorem wp_control_winds {now : Int} {left : List Int} (driven : DrivenAt servo before s.trace 0)
    (clocks : s.clocks = now :: left) (tick : CLOCKS_PER_SEC / 100 ≤ now - l.startTime)
    (winds : l.Winds slow) (goesOn : |l.error - l.prevError| < slow ∨ left ≠ []) :
    Wp (control servo slow l) (fun l' t => RampedSince servo before t.trace →
        ¬MirroredSince servo before l' t.trace)
      (fun t => ¬RampedSince servo before t.trace) s := by
  refine wp_control ?_ ?_ ?_
  · intro none
    simp [none] at clocks
  · intro now' rest clocks' early
    obtain ⟨rfl, -⟩ := List.cons.inj (clocks'.symm.trans clocks)
    exact absurd tick (not_le.mpr early)
  · intro now' rest clocks' _ drives
    obtain ⟨rfl, rfl⟩ := List.cons.inj (clocks'.symm.trans clocks)
    have found : speeds servo drives = (l.commands slow).map .fin := speeds_tick now' _
    constructor
    · intro none
      rw [rampedSince_append_iff driven _ found, chained_after_stop_iff, not_not]
      exact ⟨goesOn.resolve_right (not_not.mpr none), winds⟩
    · intro after left _ ramped mirrored
      have all : speeds servo (drives ++ [.clock after]) = (l.commands slow).map .fin := by
        rw [speeds_append, found]
        exact List.append_nil _
      rw [List.append_assoc] at ramped mirrored
      have chained := (rampedSince_append_iff driven _ all).mp ramped
      have last := (mirroredSince_append_iff driven _ all).mp mirrored
      exact (driven_after_stop_iff l chained).mp last winds

end Control

/-! ## The two loops -/

section Stops
variable {servo : ServoName} {before trace : List MotionEvent} {u : ℚ}

theorem DrivenAt.sampled (driven : DrivenAt servo before trace u) (other : ServoName)
    (samples : List ℚ) :
    DrivenAt servo before (trace ++ samples.map (.position other)) u := by
  refine driven.quiet (List.filterMap_eq_nil_iff.mpr ?_)
  intro event member
  obtain ⟨p, -, rfl⟩ := List.mem_map.mp member
  rfl

theorem DrivenAt.stopped (driven : DrivenAt servo before trace u) (readings : List Int) :
    DrivenAt servo before (trace ++ stopEvents servo readings) 0 := by
  have found : speeds servo (stopEvents servo readings) = [(0 : ℚ)].map .fin := by
    have waits : speeds servo (readings.map .clock) = [] := by
      refine List.filterMap_eq_nil_iff.mpr ?_
      intro event member
      obtain ⟨now, -, rfl⟩ := List.mem_map.mp member
      rfl
    rw [stopEvents, speeds_append, waits, List.append_nil]
    simp [speeds, MotionEvent.speedOf, Dbl.zero_eq]
  exact driven.append [0] found (chained_cons.mpr ⟨Or.inl rfl, chained_nil 0⟩) rfl

end Stops

section Swivel
variable {value : ℚ} {before : List MotionEvent} {l : Ramp} {s : World}

/-- A pause of `swivel` is not accepted, and the controller drives the old output on. -/
def SwivelWinds (value : ℚ) (l : Ramp) (w : World) : Prop :=
  ∃ p q rest startTime readings passed now left,
    w.positions = p :: q :: rest ∧ w.clocks = startTime :: readings ∧
    spin startTime (CLOCKS_PER_SEC / 10) readings = some (passed, now :: left) ∧
    |swivelErrAt value p| ≤ 1 ∧ ¬|swivelErrAt value q| ≤ 1 ∧
    ({ l with error := swivelErrAt value p } : Ramp).Winds 1 ∧
    (|swivelErrAt value p - l.prevError| < 1 ∨ left ≠ [])

theorem wp_swivelControl {post : Ramp → World → Prop} {done : PUnit → World → Prop}
    {halt : World → Prop} (holds : Wp (control .swivelServo 1 l) post halt s) :
    Wp (swivelControl l) (fun outcome t => outcome.elim (post · t) (done · t)) halt s := by
  rw [swivelControl, wp_bind]
  exact wp_mono holds (fun _ _ returns => returns) fun _ stops => stops

theorem DrivenAt.settled {u : ℚ} (driven : DrivenAt .swivelServo before s.trace u) (p q : ℚ)
    (readings left : List Int) (rest : List ℚ) :
    DrivenAt .swivelServo before (s.settled p q readings left rest).trace 0 :=
  ((driven.sampled .swivelServo [p]).stopped readings).sampled .swivelServo [q]

theorem wp_swivelBody_mirrors (mirrors : MirrorsAt .swivelServo before l s)
    (good : ¬SwivelWinds value l s) :
    Wp (swivelBody value l) (fun outcome t =>
      outcome.elim (fun next => MirrorsAt .swivelServo before next t)
        (fun _ => RampedSince .swivelServo before t.trace))
      (fun t => RampedSince .swivelServo before t.trace) s := by
  obtain ⟨sorted, driven⟩ := mirrors
  refine wp_swivelBody ?_ ?_ ?_ ?_ ?_
  · intro _
    exact driven.ramped
  · intro p rest readings clocks _ _
    exact ((driven.sampled .swivelServo [p]).stopped readings).ramped
  · intro p rest _ _
    have follows := commands_from_output { l with error := swivelErrAt value p } 1
    refine wp_swivelControl (wp_control_mirrors sorted (driven.sampled .swivelServo [p]) ?_ ?_)
    · intro now rest _ _
      rfl
    · intro now rest _
      exact ⟨follows.1, fun _ => follows.2⟩
  · intro p q rest startTime readings passed left _ _ _ _ _
    exact (driven.settled p q (startTime :: passed) left rest).ramped
  · intro p q rest startTime readings passed left positions near clocks spun rejected
    rw [clocks] at sorted
    have after := (spin_some spun).1
    refine wp_swivelControl (wp_control_stopped ?_
      (driven.settled p q (startTime :: passed) left rest) ?_ ?_)
    · rw [after] at sorted
      exact (List.pairwise_append.mp sorted.of_cons).2.1
    · intro now later eq
      change left = now :: later at eq
      rw [eq] at spun
      exact tick_after_wait sorted.of_cons spun
    · rintro now later eq ⟨winds, goesOn⟩
      change left = now :: later at eq
      rw [eq] at spun
      exact good ⟨p, q, rest, startTime, readings, passed, now, later, positions, clocks, spun,
        near, rejected, winds, goesOn⟩

theorem wp_swivelBody_winds (mirrors : MirrorsAt .swivelServo before l s)
    (winding : SwivelWinds value l s) :
    Wp (swivelBody value l) (fun outcome t =>
      outcome.elim (fun next => RampedSince .swivelServo before t.trace →
          ¬MirroredSince .swivelServo before next t.trace)
        (fun _ => ¬RampedSince .swivelServo before t.trace))
      (fun t => ¬RampedSince .swivelServo before t.trace) s := by
  obtain ⟨sorted, driven⟩ := mirrors
  obtain ⟨p, q, rest, startTime, readings, passed, now, left, positions, clocks, spun, near,
    rejected, winds, goesOn⟩ := winding
  refine wp_swivelBody_rejected positions clocks spun near rejected ?_
  rw [clocks] at sorted
  exact wp_swivelControl (wp_control_winds (driven.settled ..) rfl
    (tick_after_wait sorted.of_cons spun) winds goesOn)

theorem swivel_mirrors_iff (value : ℚ) (s : World) (sorted : s.clocks.Pairwise (· ≤ ·)) :
    ((∀ fuel, RampedSince .swivelServo s.trace (exec (swivel fuel value) s).2.trace) ∧
        ∀ head, SwivelHead value s head →
          MirroredSince .swivelServo s.trace head.1 head.2.trace) ↔
      ∀ head, SwivelHead value s head → ¬SwivelWinds value head.1 head.2 := by
  have entered : DrivenAt .swivelServo s.trace s.trace 0 :=
    ⟨[], by simp, by simp [speeds], by simp [speeds, Dbl.zero_eq]⟩
  refine swivel_always_iff (fun t => RampedSince .swivelServo s.trace t.trace)
    (fun l t => MirroredSince .swivelServo s.trace l t.trace) (SwivelWinds value)
    entered.ramped ?_
  intro startTime rest clocks
  rw [clocks] at sorted
  refine always_iff_reached (MirrorsAt .swivelServo s.trace) (SwivelWinds value)
    (fun t => RampedSince .swivelServo s.trace t.trace)
    (fun l t => MirroredSince .swivelServo s.trace l t.trace) ?_ ?_ ?_ ?_
  · rintro l t ⟨-, driven⟩
    exact ⟨driven.ramped, driven.mirrored⟩
  · intro l t mirrors good
    exact wp_swivelBody_mirrors mirrors good
  · intro l t mirrors winds
    exact wp_swivelBody_winds mirrors winds
  · exact ⟨sorted.of_cons, entered.quiet (quiet_clock startTime)⟩

end Swivel

section Rotate
variable {reverse : Bool} {value : ℚ} {before : List MotionEvent} {l : RotateLocals} {s : World}

/-- A pause of `rotate` is not accepted, and the controller drives the old output on. -/
def RotateWinds (reverse : Bool) (value : ℚ) (l : RotateLocals) (w : World) : Prop :=
  ∃ p rest startTime readings passed now left,
    w.positions = p :: rest ∧ w.clocks = startTime :: readings ∧
    spin startTime (CLOCKS_PER_SEC / 10) readings = some (passed, now :: left) ∧
    Nears reverse value p l ∧ Refuses reverse value rest ∧
    (l.steered reverse value p).ramp.Winds 4 ∧
    (|(l.steered reverse value p).ramp.error - l.ramp.prevError| < 4 ∨ left ≠ [])

theorem wp_rotateControl (post : Ramp → World → Prop) {done : PUnit → World → Prop}
    {halt : World → Prop} (holds : Wp (control .rotationServo 4 l.ramp) post halt s) :
    Wp (rotateControl l) (fun outcome t => outcome.elim (fun next => post next.ramp t) (done · t))
      halt s := by
  rw [rotateControl, wp_bind]
  exact wp_mono holds (fun _ _ returns => returns) fun _ stops => stops

theorem DrivenAt.paused {u : ℚ} (driven : DrivenAt .rotationServo before s.trace u) (p : ℚ)
    (readings clocks : List Int) (taken left : List ℚ) :
    DrivenAt .rotationServo before (s.paused p readings clocks taken left).trace 0 :=
  ((driven.sampled .rotationServo [p]).stopped readings).sampled .rotationServo taken

theorem wp_rotateBody_mirrors (mirrors : MirrorsAt .rotationServo before l.ramp s)
    (good : ¬RotateWinds reverse value l s) :
    Wp (rotateBody reverse value l) (fun outcome t =>
      outcome.elim (fun next => MirrorsAt .rotationServo before next.ramp t)
        (fun _ => RampedSince .rotationServo before t.trace))
      (fun t => RampedSince .rotationServo before t.trace) s := by
  obtain ⟨sorted, driven⟩ := mirrors
  refine wp_rotateBody ?_ ?_ ?_ ?_ ?_
  · intro _
    exact driven.ramped
  · intro p rest _ _ _ readings clocks taken left
    exact (driven.paused p readings clocks taken left).ramped
  · intro p rest _ _
    have follows := commands_from_output (l.steered reverse value p).ramp 4
    refine wp_rotateControl (MirrorsAt .rotationServo before)
      (wp_control_mirrors sorted (driven.sampled .rotationServo [p]) ?_ ?_)
    · intro now later _ _
      rfl
    · intro now later _
      exact ⟨follows.1, fun _ => follows.2⟩
  · intro p rest _ _ _ readings clocks taken left
    exact (driven.paused p readings clocks taken left).ramped
  · intro p rest startTime readings passed left positions near clocks spun refusal taken rest'
    rw [clocks] at sorted
    have after := (spin_some spun).1
    refine wp_rotateControl (MirrorsAt .rotationServo before) (wp_control_stopped ?_
      (driven.paused p (startTime :: passed) left taken rest') ?_ ?_)
    · rw [after] at sorted
      exact (List.pairwise_append.mp sorted.of_cons).2.1
    · intro now later eq
      change left = now :: later at eq
      rw [eq] at spun
      exact tick_after_wait sorted.of_cons spun
    · rintro now later eq ⟨winds, goesOn⟩
      change left = now :: later at eq
      rw [eq] at spun
      exact good ⟨p, rest, startTime, readings, passed, now, later, positions, clocks, spun, near,
        refusal, winds, goesOn⟩

theorem wp_rotateBody_winds (mirrors : MirrorsAt .rotationServo before l.ramp s)
    (winding : RotateWinds reverse value l s) :
    Wp (rotateBody reverse value l) (fun outcome t =>
      outcome.elim (fun next => RampedSince .rotationServo before t.trace →
          ¬MirroredSince .rotationServo before next.ramp t.trace)
        (fun _ => ¬RampedSince .rotationServo before t.trace))
      (fun t => ¬RampedSince .rotationServo before t.trace) s := by
  obtain ⟨sorted, driven⟩ := mirrors
  obtain ⟨p, rest, startTime, readings, passed, now, left, positions, clocks, spun, near,
    refusal, winds, goesOn⟩ := winding
  refine wp_rotateBody_refused positions clocks spun near refusal ?_
  intro taken rest'
  rw [clocks] at sorted
  refine wp_rotateControl (fun ramp t => RampedSince .rotationServo before t.trace →
    ¬MirroredSince .rotationServo before ramp t.trace) ?_
  exact wp_control_winds (driven.paused ..) rfl (tick_after_wait sorted.of_cons spun) winds goesOn

theorem rotateLoop_mirrors_iff (reverse : Bool) (value : ℚ) (startTime : Int) (s : World)
    (sorted : s.clocks.Pairwise (· ≤ ·)) :
    ((∀ fuel, RampedSince .rotationServo s.trace
          (exec (loop (rotateBody reverse value) fuel (.start startTime)) s).2.trace) ∧
        ∀ head, Reached (rotateBody reverse value) (.start startTime, s) head →
          MirroredSince .rotationServo s.trace head.1.ramp head.2.trace) ↔
      ∀ head, Reached (rotateBody reverse value) (.start startTime, s) head →
        ¬RotateWinds reverse value head.1 head.2 := by
  have entered : DrivenAt .rotationServo s.trace s.trace 0 :=
    ⟨[], by simp, by simp [speeds], by simp [speeds, Dbl.zero_eq]⟩
  refine always_iff_reached (fun l t => MirrorsAt .rotationServo s.trace l.ramp t)
    (RotateWinds reverse value) (fun t => RampedSince .rotationServo s.trace t.trace)
    (fun l t => MirroredSince .rotationServo s.trace l.ramp t.trace) ?_ ?_ ?_ ⟨sorted, entered⟩
  · rintro l t ⟨-, driven⟩
    exact ⟨driven.ramped, driven.mirrored⟩
  · intro l t mirrors good
    exact wp_rotateBody_mirrors mirrors good
  · intro l t mirrors winds
    exact wp_rotateBody_winds mirrors winds

end Rotate

/-- The speeds of `swivel`, and those of `rotate` from its loop on, only stop the
servo or ramp, and the output is the last of them at every head, exactly when no
pause that is not accepted ends with the old output driven on. -/
theorem output_mirrors_iff (value : ℚ) (reverse : Bool) (startTime : Int) (s : World)
    (sorted : s.clocks.Pairwise (· ≤ ·)) :
    (((∀ fuel, RampedSince .swivelServo s.trace (exec (swivel fuel value) s).2.trace) ∧
        ∀ head, SwivelHead value s head →
          MirroredSince .swivelServo s.trace head.1 head.2.trace) ↔
      ∀ head, SwivelHead value s head → ¬SwivelWinds value head.1 head.2) ∧
    (((∀ fuel, RampedSince .rotationServo s.trace
          (exec (loop (rotateBody reverse value) fuel (.start startTime)) s).2.trace) ∧
        ∀ head, Reached (rotateBody reverse value) (.start startTime, s) head →
          MirroredSince .rotationServo s.trace head.1.ramp head.2.trace) ↔
      ∀ head, Reached (rotateBody reverse value) (.start startTime, s) head →
        ¬RotateWinds reverse value head.1 head.2) :=
  ⟨swivel_mirrors_iff value s sorted, rotateLoop_mirrors_iff reverse value startTime s sorted⟩

theorem output_mirrors_iff_steady :
    (∀ fuel, RampedSince .swivelServo [] (exec (swivel fuel 45) steadyShaft).2.trace) ∧
      ∀ head, SwivelHead 45 steadyShaft head →
        MirroredSince .swivelServo [] head.1 head.2.trace := by
  refine (output_mirrors_iff 45 false 0 steadyShaft (by decide)).1.mpr ?_
  rintro head isHead ⟨p, q, rest, -, -, -, -, -, positions, -, -, -, far, -⟩
  exact far (steadyShaft_settles isHead positions)

/-- The output is at a tenth when the servo stops half a degree past the target; a
degree is added during the pause, and the tick after it commands two tenths. -/
theorem swivel_winds_up :
    let run := exec (swivel 3 90) ⟨[0, 10000, 10001, 20001, 20002, 20003, 120003, 120004], [],
      [91.5, 91.2, 90.5, 91.5], []⟩
    speeds .swivelServo run.2.trace = [.fin 0.1, 0, .fin 0.2] ∧
      ¬RampedSince .swivelServo [] run.2.trace := by
  have commanded : speeds .swivelServo (exec (swivel 3 90) ⟨[0, 10000, 10001, 20001, 20002, 20003,
      120003, 120004], [], [91.5, 91.2, 90.5, 91.5], []⟩).2.trace = [.fin 0.1, 0, .fin 0.2] := by
    decide +kernel
  refine ⟨commanded, ?_⟩
  rintro ⟨events, eq, ramps⟩
  rw [← List.nil_append events, ← eq, commanded] at ramps
  have last : (0.2 : ℚ) = 0 ∨ |(0.2 : ℚ) - 0| ≤ 0.1 := by
    simp only [List.isChain_cons_cons] at ramps
    exact ramps.2.2.1
  exact absurd last (by decide +kernel)

end ProjectOwl.Beagle
