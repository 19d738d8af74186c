import ProjectOwl.Lib.Dbl
import ProjectOwl.Lib.Wp

/-! # What the motion programs read and command

The functions of `beagle/owl.c` that move the payload read the clock, the
accelerometer and the PRU's angle, and set the speed of a servo.  A `World` holds
what these calls will give and the trace of the calls made so far. -/

set_option autoImplicit false

namespace ProjectOwl.Beagle

def CLOCKS_PER_SEC : Int := 1000000

def PI : Dbl := 3.14159265358979323846

/-- The variables `swivel_servo` and `rotation_servo`. -/
inductive ServoName where
  | swivelServo
  | rotationServo
  deriving DecidableEq, Repr

def ServoName.ctrlPin : ServoName → String
  | swivelServo => "P9_16"
  | rotationServo => "P8_13"

/-- What the three calls of `bno055_read_accel_norm` leave in its variables; a
transfer that fails leaves a zero. -/
structure RawAccel where
  x : Int16
  y : Int16
  z : Int16
  deriving DecidableEq, Repr

structure Reading where
  x : Dbl
  y : Dbl
  z : Dbl
  deriving DecidableEq, Repr

inductive MotionEvent where
  | clock (ticks : Int)
  | accel (reading : Reading)
  | position (servo : ServoName) (angle : ℚ)
  | zeroed (servo : ServoName) (angle : ℚ)
  | speed (servo : ServoName) (speed : Dbl)
  | duty (pin : String) (dutyCycle : Dbl)
  deriving DecidableEq, Repr

structure World where
  clocks : List Int
  accels : List RawAccel
  positions : List ℚ
  trace : List MotionEvent
  deriving DecidableEq, Repr

def World.record (event : MotionEvent) (w : World) : World :=
  { w with trace := w.trace ++ [event] }

/-- The functions of the C library that are not rational arithmetic: the root
of a rational that is not negative, and `atan2`. -/
structure Libm where
  root : ℚ → ℚ
  atan2 : Dbl → Dbl → Dbl

/-! ## Clock -/

def clock : Proc World Int :=
  .step fun w =>
    match w.clocks with
    | [] => none
    | ticks :: rest => some (ticks, { w with clocks := rest }.record (.clock ticks))

/-- The clock readings taken before `ticks` have passed since `startTime`, the
first one after included, and those still to come. -/
def spin (startTime ticks : Int) : List Int → Option (List Int × List Int)
  | [] => none
  | now :: rest =>
      if now - startTime < ticks then
        (spin startTime ticks rest).map fun (passed, left) => (now :: passed, left)
      else some ([now], rest)

/-- `while (clock() - start_time < ticks);` -/
def busyWait (startTime ticks : Int) : Proc World PUnit :=
  .step fun w =>
    (spin startTime ticks w.clocks).map fun (passed, left) =>
      (⟨⟩, { w with clocks := left, trace := w.trace ++ passed.map .clock })

/-! ## Accelerometer -/

/-- The sum of squares in the 32-bit `int` that the products are taken in. -/
def RawAccel.sumOfSquares (raw : RawAccel) : Int32 :=
  raw.x.toInt32 * raw.x.toInt32 + raw.y.toInt32 * raw.y.toInt32 + raw.z.toInt32 * raw.z.toInt32

def ofInt (n : Int) : Dbl := .fin n

def RawAccel.normalised (libm : Libm) (raw : RawAccel) : Reading :=
  let norm := (ofInt raw.sumOfSquares.toInt).sqrt libm.root
  ⟨ofInt raw.x.toInt / norm, ofInt raw.y.toInt / norm, ofInt raw.z.toInt / norm⟩

def bno055ReadAccelNorm (libm : Libm) : Proc World Reading :=
  .step fun w =>
    match w.accels with
    | [] => none
    | raw :: rest =>
        let reading := raw.normalised libm
        some (reading, { w with accels := rest }.record (.accel reading))

/-! ## Servos -/

def MAXSPEED : Dbl := 140

/-- The duty cycle that `servo_set_speed` sets. -/
def dutyCycle (speed : Dbl) : Dbl :=
  let speed := if MAXSPEED < speed then MAXSPEED else speed
  let speed := if speed < -MAXSPEED then -MAXSPEED else speed
  if speed = 0 then 7.5
  else if speed < 0 then 7.4 + speed / 140.0
  else 7.6 + speed / 140.0

def servoSetSpeed (servo : ServoName) (speed : Dbl) : Proc World PUnit :=
  .modify fun w =>
    (w.record (.speed servo speed)).record (.duty servo.ctrlPin (dutyCycle speed))

/-- The next result of `servo_position`. -/
def servoPosition (servo : ServoName) : Proc World ℚ :=
  .step fun w =>
    match w.positions with
    | [] => none
    | angle :: rest => some (angle, { w with positions := rest }.record (.position servo angle))

def servoZero (servo : ServoName) : Proc World PUnit := do
  let angle ← servoPosition servo
  .modify (World.record (.zeroed servo angle))

/-- Stops the servo and waits; gives the clock reading the wait began with. -/
def stopAndWait (servo : ServoName) (ticks : Int) : Proc World Int := do
  servoSetSpeed servo 0
  let startTime ← clock
  busyWait startTime ticks
  pure startTime

/-! ## What a trace ends with -/

def MotionEvent.readingOf : MotionEvent → Option Reading
  | accel reading => some reading
  | _ => none

def MotionEvent.angleOf (servo : ServoName) : MotionEvent → Option ℚ
  | position read angle => if read = servo then some angle else none
  | _ => none

def MotionEvent.speedOf (servo : ServoName) : MotionEvent → Option Dbl
  | speed commanded u => if commanded = servo then some u else none
  | _ => none

def lastOf {α : Type} (kind : MotionEvent → Option α) (trace : List MotionEvent) : Option α :=
  (trace.filterMap kind).getLast?

def lastReading : List MotionEvent → Option Reading := lastOf MotionEvent.readingOf

def lastAngle (servo : ServoName) : List MotionEvent → Option ℚ :=
  lastOf (MotionEvent.angleOf servo)

def lastSpeed (servo : ServoName) : List MotionEvent → Option Dbl :=
  lastOf (MotionEvent.speedOf servo)

section LastOf
variable {α : Type} {kind : MotionEvent → Option α} {trace events : List MotionEvent}

theorem lastOf_append_other (other : ∀ event ∈ events, kind event = none) :
    lastOf kind (trace ++ events) = lastOf kind trace := by
  have nothing : events.filterMap kind = [] := List.filterMap_eq_nil_iff.mpr other
  rw [lastOf, List.filterMap_append, nothing, List.append_nil, lastOf]

theorem lastOf_concat {event : MotionEvent} {a : α} (found : kind event = some a) :
    lastOf kind (trace ++ [event]) = some a := by
  simp [lastOf, List.filterMap_append, found]

end LastOf

/-! ## What the calls do to the world -/

section Calls
open Proc
variable {s t : World}

theorem clock_some {ticks : Int} (ran : exec clock s = (some ticks, t)) :
    ∃ rest, s.clocks = ticks :: rest ∧
      t = { s with clocks := rest, trace := s.trace ++ [.clock ticks] } := by
  have stepped := exec_step_eq_some.mp ran
  cases clocks : s.clocks with
  | nil => simp [clocks] at stepped
  | cons now rest =>
      simp only [clocks, Option.some.injEq, Prod.mk.injEq] at stepped
      obtain ⟨rfl, rfl⟩ := stepped
      exact ⟨rest, rfl, rfl⟩

theorem busyWait_some {startTime ticks : Int} {done : PUnit}
    (ran : exec (busyWait startTime ticks) s = (some done, t)) :
    ∃ passed left, spin startTime ticks s.clocks = some (passed, left) ∧
      t = { s with clocks := left, trace := s.trace ++ passed.map .clock } := by
  have stepped := exec_step_eq_some.mp ran
  obtain ⟨⟨passed, left⟩, spun, eq⟩ := Option.map_eq_some_iff.mp stepped
  simp only [Prod.mk.injEq] at eq
  obtain ⟨-, rfl⟩ := eq
  exact ⟨passed, left, spun, rfl⟩

theorem bno055ReadAccelNorm_some {libm : Libm} {reading : Reading}
    (ran : exec (bno055ReadAccelNorm libm) s = (some reading, t)) :
    ∃ raw rest, s.accels = raw :: rest ∧ reading = raw.normalised libm ∧
      t = { s with accels := rest, trace := s.trace ++ [.accel reading] } := by
  have stepped := exec_step_eq_some.mp ran
  cases accels : s.accels with
  | nil => simp [accels] at stepped
  | cons raw rest =>
      simp only [accels, Option.some.injEq, Prod.mk.injEq] at stepped
      obtain ⟨rfl, rfl⟩ := stepped
      exact ⟨raw, rest, rfl, rfl, rfl⟩

theorem servoPosition_some {servo : ServoName} {angle : ℚ}
    (ran : exec (servoPosition servo) s = (some angle, t)) :
    ∃ rest, s.positions = angle :: rest ∧
      t = { s with positions := rest, trace := s.trace ++ [.position servo angle] } := by
  have stepped := exec_step_eq_some.mp ran
  cases positions : s.positions with
  | nil => simp [positions] at stepped
  | cons read rest =>
      simp only [positions, Option.some.injEq, Prod.mk.injEq] at stepped
      obtain ⟨rfl, rfl⟩ := stepped
      exact ⟨rest, rfl, rfl⟩

@[simp] theorem exec_servoSetSpeed (servo : ServoName) (u : Dbl) (s : World) :
    exec (servoSetSpeed servo u) s =
      (some ⟨⟩,
        { s with trace := s.trace ++ [.speed servo u, .duty servo.ctrlPin (dutyCycle u)] }) := by
  simp [servoSetSpeed, World.record]

theorem stopAndWait_some {servo : ServoName} {ticks startTime : Int}
    (ran : exec (stopAndWait servo ticks) s = (some startTime, t)) :
    ∃ passed left, spin startTime ticks (s.clocks.drop 1) = some (passed, left) ∧
      t = { s with
        clocks := left
        trace := s.trace ++ [.speed servo 0, .duty servo.ctrlPin (dutyCycle 0)] ++
          (startTime :: passed).map .clock } := by
  obtain ⟨stopped, first, ranStop, ranRest⟩ := exec_bind_eq_some.mp ran
  obtain ⟨now, second, ranClock, ranRest⟩ := exec_bind_eq_some.mp ranRest
  obtain ⟨waited, third, ranWait, ranPure⟩ := exec_bind_eq_some.mp ranRest
  simp only [exec_servoSetSpeed, Prod.mk.injEq, true_and] at ranStop
  subst ranStop
  obtain ⟨rest, clocks, rfl⟩ := clock_some ranClock
  obtain ⟨passed, left, spun, rfl⟩ := busyWait_some ranWait
  obtain ⟨rfl, rfl⟩ := exec_pure_eq_some.mp ranPure
  simp only at clocks
  exact ⟨passed, left, by rw [clocks]; exact spun, by simp⟩

end Calls

/-! ## What the calls ask for

A call that finds nothing to read stops in the state it was made in. -/

section Rules
open Proc
variable {s : World} {halt : World → Prop}

theorem wp_clock {post : Int → World → Prop} (cut : s.clocks = [] → halt s)
    (reads : ∀ now rest, s.clocks = now :: rest →
      post now { s with clocks := rest, trace := s.trace ++ [.clock now] }) :
    Wp clock post halt s := by
  refine wp_step.mpr ⟨?_, ?_⟩
  · cases clocks : s.clocks with
    | nil => exact fun _ => cut clocks
    | cons now rest => simp
  · intro now t stepped
    obtain ⟨rest, clocks, rfl⟩ := clock_some (exec_step_eq_some.mpr stepped)
    exact reads now rest clocks

theorem wp_servoPosition {servo : ServoName} {post : ℚ → World → Prop}
    (cut : s.positions = [] → halt s)
    (reads : ∀ p rest, s.positions = p :: rest →
      post p { s with positions := rest, trace := s.trace ++ [.position servo p] }) :
    Wp (servoPosition servo) post halt s := by
  refine wp_step.mpr ⟨?_, ?_⟩
  · cases positions : s.positions with
    | nil => exact fun _ => cut positions
    | cons p rest => simp
  · intro p t stepped
    obtain ⟨rest, positions, rfl⟩ := servoPosition_some (exec_step_eq_some.mpr stepped)
    exact reads p rest positions

theorem wp_bno055ReadAccelNorm {libm : Libm} {post : Reading → World → Prop}
    (cut : s.accels = [] → halt s)
    (reads : ∀ raw rest, s.accels = raw :: rest → post (raw.normalised libm)
      { s with accels := rest, trace := s.trace ++ [.accel (raw.normalised libm)] }) :
    Wp (bno055ReadAccelNorm libm) post halt s := by
  refine wp_step.mpr ⟨?_, ?_⟩
  · cases accels : s.accels with
    | nil => exact fun _ => cut accels
    | cons raw rest => simp
  · intro reading t stepped
    obtain ⟨raw, rest, accels, rfl, rfl⟩ :=
      bno055ReadAccelNorm_some (exec_step_eq_some.mpr stepped)
    exact reads raw rest accels

theorem wp_servoSetSpeed {servo : ServoName} {u : Dbl} {post : PUnit → World → Prop} :
    Wp (servoSetSpeed servo u) post halt s ↔
      post ⟨⟩ { s with trace := s.trace ++ [.speed servo u, .duty servo.ctrlPin (dutyCycle u)] } := by
  rw [Wp, exec_servoSetSpeed]

/-- The stop, the reading the wait begins with, and those of the wait. -/
def stopEvents (servo : ServoName) (readings : List Int) : List MotionEvent :=
  [.speed servo 0, .duty servo.ctrlPin (dutyCycle 0)] ++ readings.map .clock

/-- The readings end before `ticks` have passed since the first one. -/
def EndsEarly (ticks : Int) (clocks : List Int) : Prop :=
  ∀ startTime rest, clocks = startTime :: rest → spin startTime ticks rest = none

theorem wp_stopAndWait {servo : ServoName} {ticks : Int} {post : Int → World → Prop}
    (cut : EndsEarly ticks s.clocks → ∀ readings clocks,
      halt { s with clocks := clocks, trace := s.trace ++ stopEvents servo readings })
    (waits : ∀ startTime rest passed left, s.clocks = startTime :: rest →
      spin startTime ticks rest = some (passed, left) → post startTime
        { s with clocks := left, trace := s.trace ++ stopEvents servo (startTime :: passed) }) :
    Wp (stopAndWait servo ticks) post halt s := by
  rw [stopAndWait, wp_bind, wp_servoSetSpeed, wp_bind]
  refine wp_clock ?_ ?_
  · intro none
    change s.clocks = [] at none
    simpa [stopEvents] using cut (by simp [EndsEarly, none]) [] s.clocks
  · intro startTime rest clocks
    rw [wp_bind]
    refine wp_step.mpr ⟨?_, ?_⟩
    · intro unspun
      have early : EndsEarly ticks s.clocks := by
        intro first later eq
        obtain ⟨rfl, rfl⟩ := List.cons.inj (clocks.symm.trans eq)
        exact Option.map_eq_none_iff.mp unspun
      simpa [stopEvents] using cut early [startTime] rest
    · intro done t stepped
      obtain ⟨passed, left, spun, rfl⟩ := busyWait_some (exec_step_eq_some.mpr stepped)
      rw [wp_pure]
      simpa [stopEvents] using waits startTime rest passed left clocks spun

end Rules

/-- A wait ends with the first reading that is late enough. -/
theorem spin_some {startTime ticks : Int} {readings passed left : List Int}
    (spun : spin startTime ticks readings = some (passed, left)) :
    readings = passed ++ left ∧
      ∃ waiting finish, passed = waiting ++ [finish] ∧ ticks ≤ finish - startTime := by
  induction readings generalizing passed with
  | nil => simp [spin] at spun
  | cons now rest ih =>
      rw [spin] at spun
      by_cases early : now - startTime < ticks
      · rw [if_pos early] at spun
        obtain ⟨⟨later, left'⟩, inner, eq⟩ := Option.map_eq_some_iff.mp spun
        obtain ⟨rfl, rfl⟩ := Prod.mk.inj eq
        obtain ⟨rfl, waiting, finish, rfl, late⟩ := ih inner
        exact ⟨rfl, now :: waiting, finish, rfl, late⟩
      · rw [if_neg early, Option.some.injEq, Prod.mk.injEq] at spun
        obtain ⟨rfl, rfl⟩ := spun
        exact ⟨rfl, [], now, rfl, not_lt.mp early⟩

/-- After a wait that long the controller has a tick. -/
theorem tick_after_wait {startTime now : Int} {readings passed left : List Int}
    (sorted : readings.Pairwise (· ≤ ·))
    (spun : spin startTime (CLOCKS_PER_SEC / 10) readings = some (passed, now :: left)) :
    CLOCKS_PER_SEC / 100 ≤ now - startTime := by
  obtain ⟨rfl, waiting, finish, rfl, late⟩ := spin_some spun
  have next : finish ≤ now := (List.pairwise_append.mp sorted).2.2 finish (by simp) now (by simp)
  unfold CLOCKS_PER_SEC at late ⊢
  omega

/-! ## Traces after each call -/

section Traces
variable (trace : List MotionEvent) (servo other : ServoName)

theorem lastSpeed_set (u : Dbl) (pin : String) (duty : Dbl) :
    lastSpeed servo (trace ++ [.speed servo u, .duty pin duty]) = some u := by
  simp [lastSpeed, lastOf, List.filterMap_append, List.filterMap_cons, MotionEvent.speedOf]

theorem lastReading_set (u : Dbl) (pin : String) (duty : Dbl) :
    lastReading (trace ++ [.speed other u, .duty pin duty]) = lastReading trace := by
  apply lastOf_append_other
  intro event member
  simp only [List.mem_cons, List.not_mem_nil, or_false] at member
  rcases member with rfl | rfl
  · rfl
  · rfl

theorem lastSpeed_clocks (passed : List Int) :
    lastSpeed servo (trace ++ passed.map .clock) = lastSpeed servo trace := by
  apply lastOf_append_other
  intro event member
  obtain ⟨ticks, -, rfl⟩ := List.mem_map.mp member
  rfl

theorem lastSpeed_sample (p : ℚ) :
    lastSpeed servo (trace ++ [.position other p]) = lastSpeed servo trace := by
  apply lastOf_append_other
  intro event member
  obtain rfl := List.mem_singleton.mp member
  rfl

theorem lastAngle_sample (p : ℚ) : lastAngle servo (trace ++ [.position servo p]) = some p :=
  lastOf_concat (by simp [MotionEvent.angleOf])

end Traces

end ProjectOwl.Beagle
