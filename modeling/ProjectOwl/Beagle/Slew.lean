import ProjectOwl.Beagle.OutputMirror

/-! # How fast the speeds grow

Each command of `swivel` and of the loop of `rotate` stops the servo or is within
what a tenth in every hundredth of a second comes to since the start of the call, by
the clock reading made before it.  It holds of every run, also where the output is
driven on after a stop. -/

set_option autoImplicit false

namespace ProjectOwl.Beagle

open Proc

def MotionEvent.ticksOf : MotionEvent → Option Int
  | clock ticks => some ticks
  | _ => none

def lastClock : List MotionEvent → Option Int := lastOf MotionEvent.ticksOf

/-- A tenth for every hundredth of a second from `start` to `now`. -/
def Within (start now : Int) (u : ℚ) : Prop :=
  |u| * (CLOCKS_PER_SEC / 100 : Int) ≤ 0.1 * (now - start : Int)

/-- The speed may be commanded after the events. -/
def MayCommand (start : Int) (events : List MotionEvent) (u : Dbl) : Prop :=
  u = 0 ∨ ∃ q now, u = .fin q ∧ lastClock events = some now ∧ Within start now q

def Slews (servo : ServoName) (start : Int) (events : List MotionEvent) : Prop :=
  ∀ before u after, events = before ++ .speed servo u :: after → MayCommand start before u

/-- The calls of a run after those in `before`. -/
def SlewsSince (servo : ServoName) (start : Int) (before trace : List MotionEvent) : Prop :=
  ∃ events, trace = before ++ events ∧ Slews servo start events

/-! ## Traces -/

section Traces
variable {servo : ServoName} {start : Int} {events more : List MotionEvent}

theorem slews_nil : Slews servo start [] := by
  intro before u after eq
  simp at eq

theorem slews_concat {event : MotionEvent} (slews : Slews servo start events)
    (may : ∀ u, event = .speed servo u → MayCommand start events u) :
    Slews servo start (events ++ [event]) := by
  intro before u after eq
  rcases List.eq_nil_or_concat after with rfl | ⟨front, last, rfl⟩
  · have split : events ++ [event] = before ++ [.speed servo u] := eq
    obtain ⟨rfl, same⟩ := List.append_inj' split rfl
    exact may u (List.cons.inj same).1
  · have split : events ++ [event] = (before ++ .speed servo u :: front) ++ [last] := by
      rw [eq, List.concat_eq_append, List.append_assoc]
      rfl
    obtain ⟨rfl, -⟩ := List.append_inj' split rfl
    exact slews before u front rfl

/-- Events that command nothing. -/
theorem slews_append_quiet (slews : Slews servo start events)
    (quiet : ∀ event ∈ more, ∀ u, event ≠ .speed servo u) : Slews servo start (events ++ more) := by
  induction more generalizing events with
  | nil => rwa [List.append_nil]
  | cons event rest ih =>
      obtain ⟨first, others⟩ := List.forall_mem_cons.mp quiet
      rw [List.append_cons]
      exact ih (slews_concat slews fun u same => absurd same (first u)) others

theorem lastClock_speedEvents (u : ℚ) :
    lastClock (events ++ speedEvents servo u) = lastClock events := by
  apply lastOf_append_other
  intro event member
  simp only [speedEvents, List.mem_cons, List.not_mem_nil, or_false] at member
  rcases member with rfl | rfl
  · rfl
  · rfl

theorem slews_speedEvents (slews : Slews servo start events) {u : ℚ}
    (may : MayCommand start events (.fin u)) :
    Slews servo start (events ++ speedEvents servo u) := by
  have commanded : Slews servo start (events ++ [.speed servo (.fin u)]) := by
    apply slews_concat slews
    intro v same
    injection same with _ eq
    rwa [← eq]
  have split : events ++ speedEvents servo u =
      events ++ [.speed servo (.fin u)] ++ [.duty servo.ctrlPin (dutyCycle (.fin u))] := by
    simp [speedEvents]
  rw [split]
  apply slews_append_quiet commanded
  simp

/-- Several commands after one reading of the clock. -/
theorem slews_commands (slews : Slews servo start events) (us : List ℚ)
    (may : ∀ u ∈ us, MayCommand start events (.fin u)) :
    Slews servo start (events ++ us.flatMap (speedEvents servo)) := by
  induction us generalizing events with
  | nil => simpa using slews
  | cons u us ih =>
      obtain ⟨first, others⟩ := List.forall_mem_cons.mp may
      rw [List.flatMap_cons, ← List.append_assoc]
      apply ih (slews_speedEvents slews first)
      intro v member
      have before := others v member
      unfold MayCommand at before ⊢
      rwa [lastClock_speedEvents]

theorem slews_stopEvents (slews : Slews servo start events) (readings : List Int) :
    Slews servo start (events ++ stopEvents servo readings) := by
  have stop : stopEvents servo readings = speedEvents servo 0 ++ readings.map .clock := rfl
  rw [stop, ← List.append_assoc]
  apply slews_append_quiet (slews_speedEvents slews (Or.inl rfl))
  intro event member u
  obtain ⟨now, -, rfl⟩ := List.mem_map.mp member
  exact MotionEvent.noConfusion

end Traces

/-! ## The controller -/

section Within
variable {start now after : Int} {u v : ℚ}

theorem Within.mono (within : Within start now u) (order : now ≤ after) : Within start after u := by
  unfold Within at within ⊢
  have moved : (now - start : Int) ≤ (after - start : Int) := by omega
  have cast : ((now - start : Int) : ℚ) ≤ ((after - start : Int) : ℚ) := by exact_mod_cast moved
  linarith

/-- A tenth more after another hundredth of a second. -/
theorem Within.step (within : Within start now u) (tick : CLOCKS_PER_SEC / 100 ≤ after - now)
    (near : |v| ≤ |u| + 0.1) : Within start after v := by
  unfold Within CLOCKS_PER_SEC at *
  have cast : (10000 : ℚ) ≤ ((after - now : Int) : ℚ) := by exact_mod_cast tick
  push_cast at within cast ⊢
  norm_num at within cast near ⊢
  linarith

end Within

/-- What holds at the heads of a loop entered at `start`. -/
structure SlewsAt (servo : ServoName) (start : Int) (before : List MotionEvent) (l : Ramp)
    (w : World) : Prop where
  sorted : w.clocks.Pairwise (· ≤ ·)
  later : ∀ now ∈ w.clocks, l.startTime ≤ now
  within : Within start l.startTime l.output
  slews : SlewsSince servo start before w.trace

section Control
variable {servo : ServoName} {start : Int} {slow : ℚ} {before : List MotionEvent} {l : Ramp}
  {s : World}

theorem abs_turned (l : Ramp) : |l.turned| ≤ |l.output| := by
  unfold Ramp.turned
  split
  · simp
  · exact le_rfl

theorem abs_nudge (e output : ℚ) : |nudge e output| ≤ |output| + 0.1 := by
  have moved := abs_nudge_sub e output
  have triangle := abs_sub_abs_le_abs_sub (nudge e output) output
  linarith

theorem abs_driven (slow : ℚ) (l : Ramp) : |l.driven slow| ≤ |l.output| + 0.1 := by
  have turned := abs_turned l
  unfold Ramp.driven
  split
  · have nudged := abs_nudge l.error l.turned
    linarith
  · linarith

/-- The speeds of a tick, by the reading it began with. -/
theorem mayCommand_tick (within : Within start l.startTime l.output) {now : Int}
    (tick : CLOCKS_PER_SEC / 100 ≤ now - l.startTime) {events : List MotionEvent}
    (last : lastClock events = some now) :
    ∀ u ∈ l.commands slow, MayCommand start events (.fin u) := by
  intro u member
  unfold Ramp.commands at member
  rcases List.mem_append.mp member with stop | drive
  · split at stop
    · obtain rfl := List.mem_singleton.mp stop
      exact Or.inl rfl
    · cases stop
  · split at drive
    · obtain rfl := List.mem_singleton.mp drive
      have nudged := abs_nudge l.error l.turned
      have turned := abs_turned l
      exact Or.inr ⟨_, now, rfl, last, within.step tick (by linarith)⟩
    · cases drive

theorem wp_control_slews (inv : SlewsAt servo start before l s) :
    Wp (control servo slow l) (fun l t => SlewsAt servo start before l t)
      (fun t => SlewsSince servo start before t.trace) s := by
  obtain ⟨events, trace, slews⟩ := inv.slews
  have clocked : ∀ now, Slews servo start (events ++ [.clock now]) := by
    intro now
    apply slews_append_quiet slews
    simp
  refine wp_control (fun _ => inv.slews) ?_ ?_
  · intro now rest clocks early
    have sorted := inv.sorted
    have later := inv.later
    rw [clocks] at sorted later
    refine ⟨sorted.of_cons, (List.forall_mem_cons.mp later).2, inv.within, ?_⟩
    exact ⟨events ++ [.clock now], by rw [trace, List.append_assoc], clocked now⟩
  · intro now rest clocks tick drives
    have last : lastClock (events ++ [.clock now]) = some now := lastOf_concat rfl
    have commanded := slews_commands (clocked now) (l.commands slow)
      (mayCommand_tick inv.within tick last)
    have split : s.trace ++ drives =
        before ++ (events ++ [.clock now] ++ (l.commands slow).flatMap (speedEvents servo)) := by
      simp [drives, trace]
    refine ⟨fun _ => ⟨_, split, commanded⟩, ?_⟩
    intro after left rest'
    have sorted := inv.sorted
    rw [clocks, rest'] at sorted
    obtain ⟨order, afterwards⟩ := List.pairwise_cons.mp sorted
    have notBefore : now ≤ after := order after List.mem_cons_self
    have within : Within start after (l.driven slow) :=
      inv.within.step (by omega) (abs_driven slow l)
    refine ⟨afterwards.of_cons, (List.pairwise_cons.mp afterwards).1, within, ?_⟩
    · refine ⟨_, by rw [split, List.append_assoc], slews_append_quiet commanded ?_⟩
      simp

end Control

/-! ## The two loops -/

section Loops
variable {servo : ServoName} {start : Int} {before : List MotionEvent} {l : Ramp} {s : World}

theorem SlewsSince.append {trace more : List MotionEvent}
    (since : SlewsSince servo start before trace)
    (goesOn : ∀ events, Slews servo start events → Slews servo start (events ++ more)) :
    SlewsSince servo start before (trace ++ more) := by
  obtain ⟨events, rfl, slews⟩ := since
  exact ⟨events ++ more, by rw [List.append_assoc], goesOn events slews⟩

theorem SlewsSince.samples {trace : List MotionEvent} (since : SlewsSince servo start before trace)
    (samples : List ℚ) : SlewsSince servo start before (trace ++ samples.map (.position servo)) := by
  apply since.append
  intro events slews
  apply slews_append_quiet slews
  intro event member u
  obtain ⟨p, -, rfl⟩ := List.mem_map.mp member
  exact MotionEvent.noConfusion

theorem SlewsSince.stop {trace : List MotionEvent} (since : SlewsSince servo start before trace)
    (readings : List Int) : SlewsSince servo start before (trace ++ stopEvents servo readings) :=
  since.append fun _ slews => slews_stopEvents slews readings

/-- The clock after a pause, whose first reading is the new start of the ramp. -/
theorem SlewsAt.pause (inv : SlewsAt servo start before l s) {startTime : Int}
    {readings passed left : List Int} (clocks : s.clocks = startTime :: readings)
    (split : readings = passed ++ left) (e : ℚ) {t : World} (now : t.clocks = left)
    (slews : SlewsSince servo start before t.trace) :
    SlewsAt servo start before { l with error := e, startTime } t := by
  have sorted := inv.sorted
  have later := inv.later startTime (clocks ▸ List.mem_cons_self)
  rw [clocks, split] at sorted
  obtain ⟨order, rest⟩ := List.pairwise_cons.mp sorted
  refine ⟨?_, ?_, inv.within.mono later, slews⟩
  · rw [now]
    exact (List.pairwise_append.mp rest).2.1
  · rw [now]
    exact fun reading member => order reading (List.mem_append_right _ member)

theorem wp_swivelBody_slews {value : ℚ} (inv : SlewsAt .swivelServo start before l s) :
    Wp (swivelBody value l) (fun outcome t =>
      outcome.elim (fun next => SlewsAt .swivelServo start before next t)
        (fun _ => t.clocks.Pairwise (· ≤ ·) ∧ SlewsSince .swivelServo start before t.trace))
      (fun t => SlewsSince .swivelServo start before t.trace) s := by
  have since := inv.slews
  refine wp_swivelBody ?_ ?_ ?_ ?_ ?_
  · intro _
    exact since
  · intro p rest readings clocks _ _
    exact (since.samples [p]).stop readings
  · intro p rest _ _
    apply wp_swivelControl
    exact wp_control_slews ⟨inv.sorted, inv.later, inv.within, since.samples [p]⟩
  · intro p q rest startTime readings passed left _ _ clocks spun _
    have sorted := inv.sorted
    rw [clocks, (spin_some spun).1] at sorted
    exact ⟨(List.pairwise_append.mp sorted.of_cons).2.1, ((since.samples [p]).stop _).samples [q]⟩
  · intro p q rest startTime readings passed left _ _ clocks spun _
    have again : SlewsSince .swivelServo start before
        (s.settled p q (startTime :: passed) left rest).trace :=
      ((since.samples [p]).stop _).samples [q]
    apply wp_swivelControl
    exact wp_control_slews (inv.pause clocks (spin_some spun).1 _ rfl again)

theorem wp_rotateBody_slews {reverse : Bool} {value : ℚ} {l : RotateLocals}
    (inv : SlewsAt .rotationServo start before l.ramp s) :
    Wp (rotateBody reverse value l) (fun outcome t =>
      outcome.elim (fun next => SlewsAt .rotationServo start before next.ramp t)
        (fun _ => SlewsSince .rotationServo start before t.trace))
      (fun t => SlewsSince .rotationServo start before t.trace) s := by
  have since := inv.slews
  have paused : ∀ p readings clocks taken left,
      SlewsSince .rotationServo start before (s.paused p readings clocks taken left).trace :=
    fun p readings _ taken _ => ((since.samples [p]).stop readings).samples taken
  refine wp_rotateBody ?_ ?_ ?_ ?_ ?_
  · intro _
    exact since
  · intro p rest _ _ _ readings clocks taken left
    exact paused p readings clocks taken left
  · intro p rest _ _
    apply wp_rotateControl (SlewsAt .rotationServo start before)
    exact wp_control_slews ⟨inv.sorted, inv.later, inv.within, since.samples [p]⟩
  · intro p rest _ _ _ readings clocks taken left
    exact paused p readings clocks taken left
  · intro p rest startTime readings passed left _ _ clocks spun _ taken rest'
    apply wp_rotateControl (SlewsAt .rotationServo start before)
    exact wp_control_slews (inv.pause clocks (spin_some spun).1 _ rfl
      (paused p (startTime :: passed) left taken rest'))

theorem slewsAt_start (sorted : s.clocks.Pairwise (· ≤ ·))
    (later : ∀ now ∈ s.clocks, start ≤ now) (since : SlewsSince servo start before s.trace) :
    SlewsAt servo start before (.start start) s :=
  ⟨sorted, later, by simp [Within, Ramp.start], since⟩

theorem slews_clocked {rest : List Int} :
    SlewsSince servo start s.trace (s.clocked start rest).trace := by
  refine ⟨[.clock start], rfl, ?_⟩
  apply slews_append_quiet slews_nil
  simp

theorem wp_swivel_slews {rest : List Int} (clocks : s.clocks = start :: rest)
    (sorted : s.clocks.Pairwise (· ≤ ·)) (value : ℚ) (fuel : Nat) :
    Wp (swivel fuel value)
      (fun _ t => t.clocks.Pairwise (· ≤ ·) ∧ SlewsSince .swivelServo start s.trace t.trace)
      (fun t => SlewsSince .swivelServo start s.trace t.trace) s := by
  rw [clocks] at sorted
  obtain ⟨later, others⟩ := List.pairwise_cons.mp sorted
  rw [swivel, wp_bind]
  refine wp_clock (fun none => by simp [none] at clocks) ?_
  intro now rest' clocks'
  obtain ⟨rfl, rfl⟩ := List.cons.inj (clocks'.symm.trans clocks)
  refine wp_loop (SlewsAt .swivelServo now s.trace) ?_ (fun _ _ inv => inv.slews) ?_ fuel
  · exact fun l t _ inv => wp_swivelBody_slews inv
  · exact slewsAt_start others later slews_clocked

theorem wp_rotateLoop_slews {rest : List Int} (reverse : Bool) (value : ℚ) (fuel : Nat)
    (sorted : (start :: rest).Pairwise (· ≤ ·)) :
    Wp (loop (rotateBody reverse value) fuel (.start start))
      (fun _ t => SlewsSince .rotationServo start s.trace t.trace)
      (fun t => SlewsSince .rotationServo start s.trace t.trace) (s.clocked start rest) := by
  obtain ⟨later, others⟩ := List.pairwise_cons.mp sorted
  refine wp_loop (fun l t => SlewsAt .rotationServo start s.trace l.ramp t) ?_
    (fun _ _ inv => inv.slews) ?_ fuel
  · exact fun l t _ inv => wp_rotateBody_slews inv
  · exact slewsAt_start others later slews_clocked

end Loops

/-- The speeds of `swivel`, and those of `rotate` from its loop on, in every run: each
stops the servo or has been ramped to since the call began. -/
theorem speeds_slew (libm : Libm) (fuel : Nat) (value : ℚ) {w : World} {start : Int}
    {rest : List Int} (clocks : w.clocks = start :: rest) (sorted : w.clocks.Pairwise (· ≤ ·)) :
    SlewsSince .swivelServo start w.trace (exec (swivel fuel value) w).2.trace ∧
      ∀ s, exec (do selfRight libm fuel; servoZero .rotationServo) s = (some ⟨⟩, w) →
        SlewsSince .rotationServo start w.trace (exec (rotate libm fuel value) s).2.trace := by
  constructor
  · have slews := wp_swivel_slews clocks sorted value fuel
    exact wp_final.mp (wp_mono slews (fun _ _ returns => returns.2) fun _ halts => halts)
  · intro s rights
    have reads : exec clock w = (some start, w.clocked start rest) := by
      rw [clock, exec_step_eq_some, clocks]
      rfl
    obtain ⟨done, mid, first, second⟩ := exec_bind_eq_some.mp rights
    rw [rotate, exec_bind_some first, exec_bind_some second, exec_bind_some reads]
    rw [clocks] at sorted
    exact wp_final.mp (wp_rotateLoop_slews _ _ fuel sorted)

/-- The payload after it was righted and its angle zeroed. -/
def rightedStart : World :=
  (exec (do selfRight levelLibm 1; servoZero .rotationServo) (turnStart [0, 181, 181])).2

theorem speeds_slew_example :
    SlewsSince .swivelServo 1000002 rightedStart.trace
        (exec (swivel 1 (-56.564)) rightedStart).2.trace ∧
      SlewsSince .rotationServo 1000002 rightedStart.trace
        (exec (rotate levelLibm 1 (-56.564)) (turnStart [0, 181, 181])).2.trace := by
  have returned : (exec (do selfRight levelLibm 1; servoZero .rotationServo)
      (turnStart [0, 181, 181])).1 = some ⟨⟩ := by decide +kernel
  have clocks : rightedStart.clocks = [1000002, 1000003, 1100003] := by decide +kernel
  have sorted : rightedStart.clocks.Pairwise (· ≤ ·) := by
    rw [clocks]
    decide
  have slews := speeds_slew levelLibm 1 (-56.564) clocks sorted
  exact ⟨slews.1, slews.2 (turnStart [0, 181, 181]) (Prod.ext returned rfl)⟩

end ProjectOwl.Beagle
