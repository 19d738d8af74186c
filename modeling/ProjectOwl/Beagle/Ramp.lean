import Mathlib.Data.Rat.Cast.Defs
import ProjectOwl.Beagle.World

/-! # The speed ramp

`swivel` and `rotate` of `beagle/owl.c` carry the same controller: every
hundredth of a second it stops a servo that drives the wrong way, and moves the
speed by a tenth towards the target while the error changes slowly. -/

set_option autoImplicit false

namespace ProjectOwl.Beagle

open Proc

/-- The variables the controller reads and sets. -/
structure Ramp where
  error : ℚ
  prevError : ℚ
  output : ℚ
  startTime : Int
  deriving DecidableEq, Repr

/-- No speed yet. -/
def Ramp.start (startTime : Int) : Ramp := ⟨0, 0, 0, startTime⟩

/-- Stops a servo that drives away from the target. -/
def reverseSpeed (servo : ServoName) (l : Ramp) : Proc World Ramp :=
  if l.output * l.error < 0 then do
    servoSetSpeed servo 0
    pure { l with output := 0 }
  else pure l

/-- The next speed while the error has changed by less than `slow`. -/
def rampSpeed (servo : ServoName) (slow : ℚ) (l : Ramp) : Proc World Ramp :=
  if |l.error - l.prevError| < slow then do
    let output := if 0 < l.error then l.output + 0.1 else l.output
    let output := if l.error < 0 then output - 0.1 else output
    servoSetSpeed servo (.fin output)
    pure { l with output := output }
  else pure l

def control (servo : ServoName) (slow : ℚ) (l : Ramp) : Proc World Ramp := do
  let now ← clock
  if CLOCKS_PER_SEC / 100 ≤ now - l.startTime then do
    let l ← reverseSpeed servo l
    let l ← rampSpeed servo slow l
    let startTime ← clock
    pure { l with prevError := l.error, startTime }
  else pure l

/-! ## What a tick does -/

/-- The output after a tenth towards the target. -/
def nudge (error output : ℚ) : ℚ :=
  let output := if 0 < error then output + 0.1 else output
  if error < 0 then output - 0.1 else output

/-- The output after the stop of a servo that drives the wrong way. -/
def Ramp.turned (l : Ramp) : ℚ := if l.output * l.error < 0 then 0 else l.output

/-- The output after a tick. -/
def Ramp.driven (slow : ℚ) (l : Ramp) : ℚ :=
  if |l.error - l.prevError| < slow then nudge l.error l.turned else l.turned

/-- The speeds a tick commands. -/
def Ramp.commands (slow : ℚ) (l : Ramp) : List ℚ :=
  (if l.output * l.error < 0 then [0] else []) ++
    if |l.error - l.prevError| < slow then [nudge l.error l.turned] else []

def speedEvents (servo : ServoName) (u : ℚ) : List MotionEvent :=
  [.speed servo (.fin u), .duty servo.ctrlPin (dutyCycle (.fin u))]

/-- The trace grows, the scripts stay. -/
def World.also (s : World) (events : List MotionEvent) : World :=
  { s with trace := s.trace ++ events }

section Tick
variable {servo : ServoName} {slow : ℚ} {l : Ramp} {s : World} {halt : World → Prop}

theorem exec_reverseSpeed :
    exec (reverseSpeed servo l) s = (some { l with output := l.turned },
      s.also ((if l.output * l.error < 0 then [0] else []).flatMap (speedEvents servo))) := by
  unfold reverseSpeed Ramp.turned
  by_cases wrong : l.output * l.error < 0
  · rw [if_pos wrong, if_pos wrong, if_pos wrong, exec_bind_some (exec_servoSetSpeed ..)]
    simp [World.also, speedEvents, Dbl.zero_eq]
  · rw [if_neg wrong, if_neg wrong, if_neg wrong]
    simp [World.also]

theorem exec_rampSpeed :
    exec (rampSpeed servo slow l) s =
      (some { l with output := if |l.error - l.prevError| < slow then nudge l.error l.output else l.output },
        s.also ((if |l.error - l.prevError| < slow then [nudge l.error l.output] else []).flatMap
          (speedEvents servo))) := by
  unfold rampSpeed
  by_cases small : |l.error - l.prevError| < slow
  · rw [if_pos small, if_pos small, if_pos small]
    dsimp only
    rw [exec_bind_some (exec_servoSetSpeed ..)]
    simp [World.also, speedEvents, nudge]
  · rw [if_neg small, if_neg small, if_neg small]
    simp [World.also]

/-- The controller reads the clock and, at a tick, commands and reads it again. -/
theorem wp_control {post : Ramp → World → Prop} (cut : s.clocks = [] → halt s)
    (idle : ∀ now rest, s.clocks = now :: rest → now - l.startTime < CLOCKS_PER_SEC / 100 →
      post l { s with clocks := rest, trace := s.trace ++ [.clock now] })
    (ticks : ∀ now rest, s.clocks = now :: rest → CLOCKS_PER_SEC / 100 ≤ now - l.startTime →
      let drives := .clock now :: (l.commands slow).flatMap (speedEvents servo)
      (rest = [] → halt { s with clocks := rest, trace := s.trace ++ drives }) ∧
        ∀ after left, rest = after :: left →
          post ⟨l.error, l.error, l.driven slow, after⟩
            { s with clocks := left, trace := s.trace ++ drives ++ [.clock after] }) :
    Wp (control servo slow l) post halt s := by
  rw [control, wp_bind]
  refine wp_clock cut ?_
  intro now rest clocks
  by_cases tick : CLOCKS_PER_SEC / 100 ≤ now - l.startTime
  · obtain ⟨halts, returns⟩ := ticks now rest clocks tick
    rw [if_pos tick, wp_bind, Wp, exec_reverseSpeed]
    dsimp only
    rw [wp_bind, Wp, exec_rampSpeed]
    dsimp only
    rw [wp_bind]
    refine wp_clock ?_ ?_
    · intro none
      simpa [World.also, Ramp.commands] using halts none
    · intro after left clocks'
      rw [wp_pure]
      simpa [World.also, Ramp.commands, Ramp.driven] using returns after left clocks'
  · rw [if_neg tick, wp_pure]
    exact idle now rest clocks (not_le.mp tick)

end Tick

end ProjectOwl.Beagle
