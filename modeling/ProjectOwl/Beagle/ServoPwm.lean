import ProjectOwl.Beagle.PwmRequests
import ProjectOwl.Beagle.ServoDuty

/-! # The pulses that reach a servo

`beagle/servo.c` on top of the PWM driver: `init_servo` starts the channel of the
control pin with a pulse of 1.5 ms every 20 ms, which stops the servo, and
`servo_set_speed` changes the pulse.  At every speed that is a real number the pulse
is one the servo understands, and it turns the servo the way of the speed.  The
duty cycle is computed in doubles, and `pwm_set_duty_cycle` takes it as a `float`. -/

set_option autoImplicit false

namespace ProjectOwl.Beagle

open Pwm BinaryFormat

/-- The calls of `servo.c` that reach the driver. -/
inductive PulseCall where
  | initServo (outcome : StartOutcome) (ctrlPin : String)
  | setSpeed (succeeds : Bool) (ctrlPin : String) (speed : Dbl)
  | cleanup (writes : Nat → Bool) (ctrlPin : String)

def PulseCall.call : PulseCall → Call
  | .initServo outcome ctrlPin => .start outcome ctrlPin 7.5 50 0
  | .setSpeed succeeds ctrlPin speed => .set ctrlPin (.dutyCycle succeeds (floatDuty speed))
  | .cleanup writes ctrlPin => .disable writes ctrlPin

def PulseCall.ctrlPin : PulseCall → String
  | .initServo _ ctrlPin => ctrlPin
  | .setSpeed _ ctrlPin _ => ctrlPin
  | .cleanup _ ctrlPin => ctrlPin

/-- The speed of each servo that has been set up. -/
abbrev Speeds := String → Option Dbl

def command (speeds : Speeds) : PulseCall → Speeds
  | .initServo _ ctrlPin => Function.update speeds ctrlPin (some 0)
  | .setSpeed _ ctrlPin speed => Function.update speeds ctrlPin ((speeds ctrlPin).map fun _ => speed)
  | .cleanup _ ctrlPin => Function.update speeds ctrlPin none

/-- Speeds are real numbers, they are given to servos that have been set up, and no
system call fails of itself. -/
def Smooth (speeds : Speeds) : PulseCall → Prop
  | .initServo outcome ctrlPin => ∃ p, getPwmByKey ctrlPin = some p ∧ outcome.Done p
  | .setSpeed succeeds ctrlPin speed => speeds ctrlPin ≠ none ∧ succeeds = true ∧ speed.IsReal
  | .cleanup writes _ => ∀ a, writes a = true

/-! ## Pulses -/

/-- The pulses, in nanoseconds, that stop a servo and that turn it each way. -/
def PulseOf (speed : ℚ) (ns : Nat) : Prop :=
  (speed = 0 ∧ ns = 1500000) ∨ (0 < speed ∧ 1519999 ≤ ns ∧ ns ≤ 1720000) ∨
    (speed < 0 ∧ 1280000 ≤ ns ∧ ns ≤ 1480000)

section Pulses
variable (board : Board)

theorem periodNsOf_50 : periodNsOf board 50 = 20000000 := by
  have quotient : double.round (1000000000 / 50) = .fin 20000000 := by decide +kernel
  have floor := board.ulong_floor 20000000 (by norm_num) (by norm_num [ULONG_MAX])
  have whole : (20000000 : ℚ).floor = 20000000 := by decide +kernel
  rw [periodNsOf, quotient]
  omega

/-- The pulse of a turn lies between those of the ends of its side. -/
theorem turnNs_within (base : ℚ) {turn first last : ℚ} {low high : Nat} (least : first ≤ turn)
    (most : turn ≤ last) (below : (roundedNs 20000000 (turnDuty base first)).floor = low)
    (above : (roundedNs 20000000 (turnDuty base last)).floor = high)
    (positive : 0 ≤ turnDuty base first) (inRange : turnDuty base last ≤ 100) :
    low ≤ dutyNsOf board 20000000 (.fin (turnDuty base turn)) ∧
      dutyNsOf board 20000000 (.fin (turnDuty base turn)) ≤ high := by
  have least := turnDuty_mono base least
  have most := turnDuty_mono base most
  have ns := dutyNsOf_eq board (positive.trans least) (most.trans inRange)
    (show 20000000 ≤ ULONG_MAX by decide)
  have fromBelow := Rat.floor_monotone (roundedNs_mono 20000000 least)
  have fromAbove := Rat.floor_monotone (roundedNs_mono 20000000 most)
  omega

/-- The pulse of every real speed, those beyond the limit included. -/
theorem pulse_of_speed (q : ℚ) : PulseOf q (dutyNsOf board 20000000 (floatDuty (.fin q))) := by
  rcases floatDuty_fin q with ⟨zero, duty⟩ | ⟨positive, turn, least, most, duty⟩ |
    ⟨negative, turn, least, most, duty⟩
  · have ns := dutyNsOf_eq board (q := 7.5) (by norm_num) (by norm_num)
      (show 20000000 ≤ ULONG_MAX by decide)
    have whole : (roundedNs 20000000 7.5).floor = 1500000 := by decide +kernel
    rw [duty]
    exact Or.inl ⟨zero, by omega⟩
  · have low : (roundedNs 20000000 (turnDuty 7.6 0)).floor = (1519999 : Nat) := by decide +kernel
    have high : (roundedNs 20000000 (turnDuty 7.6 1)).floor = (1720000 : Nat) := by decide +kernel
    rw [duty]
    exact Or.inr (Or.inl ⟨positive, turnNs_within board 7.6 least most low high
      (by decide +kernel) (by decide +kernel)⟩)
  · have low : (roundedNs 20000000 (turnDuty 7.4 (-1))).floor = (1280000 : Nat) := by decide +kernel
    have high : (roundedNs 20000000 (turnDuty 7.4 0)).floor = (1480000 : Nat) := by decide +kernel
    rw [duty]
    exact Or.inr (Or.inr ⟨negative, turnNs_within board 7.4 least most low high
      (by decide +kernel) (by decide +kernel)⟩)

end Pulses

/-! ## What the servo calls ask of the driver -/

section Ask
variable {speeds : Speeds} {call : PulseCall}

def requestOf (speed : Dbl) : Request := ⟨floatDuty speed, 50, false⟩

def requests (speeds : Speeds) : Asked := fun ctrlPin => (speeds ctrlPin).map requestOf

theorem requests_update (ctrlPin : String) (speed : Option Dbl) :
    requests (Function.update speeds ctrlPin speed) =
      Function.update (requests speeds) ctrlPin (speed.map requestOf) := by
  funext other
  by_cases same : other = ctrlPin
  · simp [requests, same]
  · simp [requests, same]

theorem requests_command (speeds : Speeds) (call : PulseCall) :
    requests (command speeds call) = ask (requests speeds) call.call := by
  cases call with
  | initServo outcome ctrlPin =>
      have stopped : requestOf 0 = ⟨7.5, 50, false⟩ := by decide +kernel
      rw [command, requests_update, Option.map_some, stopped]
      rfl
  | setSpeed succeeds ctrlPin speed =>
      rw [command, requests_update]
      cases held : speeds ctrlPin with
      | none => simp [PulseCall.call, ask, requests, held]
      | some before => simp [PulseCall.call, ask, requests, held, Setting.ask, requestOf]
  | cleanup writes ctrlPin =>
      rw [command, requests_update]
      rfl

theorem floatDuty_inRange {speed : Dbl} (real : speed.IsReal) : DutyInRange (floatDuty speed) := by
  obtain ⟨q, rfl⟩ := real
  rcases floatDuty_fin q with ⟨-, duty⟩ | ⟨-, turn, least, most, duty⟩ |
    ⟨-, turn, least, most, duty⟩
  · exact ⟨7.5, duty, by norm_num, by norm_num⟩
  · have positive : 0 ≤ turnDuty 7.6 0 := by decide +kernel
    have inRange : turnDuty 7.6 1 ≤ 100 := by decide +kernel
    exact ⟨_, duty, positive.trans (turnDuty_mono 7.6 least), (turnDuty_mono 7.6 most).trans inRange⟩
  · have positive : 0 ≤ turnDuty 7.4 (-1) := by decide +kernel
    have inRange : turnDuty 7.4 0 ≤ 100 := by decide +kernel
    exact ⟨_, duty, positive.trans (turnDuty_mono 7.4 least), (turnDuty_mono 7.4 most).trans inRange⟩

theorem plain_of_smooth (smooth : Smooth speeds call) : Plain (requests speeds) call.call := by
  cases call with
  | initServo outcome ctrlPin =>
      refine ⟨smooth, ⟨7.5, rfl, by norm_num, by norm_num⟩, ⟨50, rfl, by norm_num, by norm_num, ?_⟩,
        Or.inl rfl⟩
      norm_num [ULONG_MAX]
  | setSpeed succeeds ctrlPin speed =>
      obtain ⟨inUse, went, real⟩ := smooth
      refine ⟨?_, went, floatDuty_inRange real⟩
      simpa [requests] using inUse
  | cleanup writes ctrlPin => exact smooth

theorem each_plain (calls : List PulseCall) (smooth : Machine.Each command Smooth speeds calls) :
    Machine.Each ask Plain (requests speeds) (calls.map PulseCall.call) ∧
      Machine.run ask (requests speeds) (calls.map PulseCall.call) =
        requests (Machine.run command speeds calls) := by
  induction calls generalizing speeds with
  | nil => exact ⟨trivial, rfl⟩
  | cons call rest ih =>
      obtain ⟨first, others⟩ := smooth
      obtain ⟨each, final⟩ := ih others
      rw [requests_command] at each final
      exact ⟨⟨plain_of_smooth first, each⟩, final⟩

/-- The speeds that have been commanded are real numbers. -/
theorem run_real (calls : List PulseCall) (smooth : Machine.Each command Smooth speeds calls)
    (real : ∀ ctrlPin speed, speeds ctrlPin = some speed → speed.IsReal) {ctrlPin : String}
    {speed : Dbl} (last : Machine.run command speeds calls ctrlPin = some speed) : speed.IsReal := by
  induction calls generalizing speeds with
  | nil => exact real ctrlPin speed last
  | cons call rest ih =>
      obtain ⟨first, others⟩ := smooth
      refine ih others (fun pin u held => ?_) last
      cases call with
      | initServo outcome other =>
          by_cases same : pin = other
          · rw [same, command, Function.update_self] at held
            exact Option.some.inj held ▸ Dbl.isReal_fin 0
          · rw [command, Function.update_of_ne same] at held
            exact real pin u held
      | setSpeed succeeds other v =>
          by_cases same : pin = other
          · rw [same, command, Function.update_self] at held
            obtain ⟨before, -, rfl⟩ := Option.map_eq_some_iff.mp held
            exact first.2.2
          · rw [command, Function.update_of_ne same] at held
            exact real pin u held
      | cleanup writes other =>
          by_cases same : pin = other
          · rw [same, command, Function.update_self] at held
            cases held
          · rw [command, Function.update_of_ne same] at held
            exact real pin u held

end Ask

/-- Whatever real speeds the servos are given, in any order, each of them gets one
pulse every 20 ms, of 1.5 ms where it was stopped and on the side of its speed
otherwise, and no call fails. -/
theorem servo_pulses {board : Board} (rules : board.Rules) {s : System} (initial : s.Initial)
    (ordered : ∀ channel, (s.channels channel).duty ≤ (s.channels channel).period)
    {calls : List PulseCall} (smooth : Machine.Each command Smooth (fun _ => none) calls)
    (apart : Apart {pin | ∃ call ∈ calls, call.ctrlPin = pin}) :
    ∃ t, run board (calls.map PulseCall.call) s = some (calls.map fun _ => .ok, t) ∧
      ∀ ctrlPin p speed, getPwmByKey ctrlPin = some p →
        Machine.run command (fun _ => none) calls ctrlPin = some speed →
        ∃ q ns, speed = .fin q ∧ PulseOf q ns ∧ t.channels p.channel = ⟨20000000, ns, false, true⟩ := by
  have keys : ∀ call : PulseCall, call.call.key = some call.ctrlPin := fun call => by
    cases call <;> rfl
  have within : ∀ call ∈ calls.map PulseCall.call, ∀ key ∈ call.key,
      key ∈ {pin | ∃ call ∈ calls, call.ctrlPin = pin} := by
    intro called member key named
    obtain ⟨call, isCall, rfl⟩ := List.mem_map.mp member
    exact ⟨call, isCall, Option.some.inj ((keys call).symm.trans named)⟩
  obtain ⟨each, final⟩ := each_plain calls smooth
  obtain ⟨t, entries, ran, follows⟩ :=
    run_follows rules apart (Follows.initial initial _ ordered) _ each within
  refine ⟨t, by simpa [Function.comp_def] using ran, fun ctrlPin p speed known last => ?_⟩
  obtain ⟨q, rfl⟩ := run_real calls smooth (fun _ _ held => by cases held) last
  refine ⟨q, _, rfl, pulse_of_speed board q, ?_⟩
  have isAsked : Machine.run ask (fun _ => none) (calls.map PulseCall.call) ctrlPin =
      some (requestOf (.fin q)) := by
    refine (congrFun final ctrlPin).trans ?_
    rw [requests, last]
    rfl
  rw [(follows.file known isAsked).2, Request.settings]
  simp only [requestOf, periodNsOf_50]

/-- Both servos are set up, and turned each its way. -/
def bothServos : List PulseCall :=
  [.initServo smoothStart "P9_16", .initServo smoothStart "P8_13", .setSpeed true "P9_16" 10,
   .setSpeed true "P8_13" (-150)]

theorem servo_pulses_example :
    ∃ t, run plainBoard (bothServos.map PulseCall.call) stopped =
        some ([.ok, .ok, .ok, .ok], t) ∧
      ∀ ctrlPin p speed, getPwmByKey ctrlPin = some p →
        Machine.run command (fun _ => none) bothServos ctrlPin = some speed →
        ∃ q ns, speed = .fin q ∧ PulseOf q ns ∧
          t.channels p.channel = ⟨20000000, ns, false, true⟩ := by
  refine servo_pulses plainBoard_rules stopped_initial (fun _ => le_rfl)
    ⟨?_, ?_, ?_, ?_, trivial⟩ (apart_servos.mono ?_)
  · exact ⟨⟨"ehrpwm1", 1, "48302000", "48302200", "P9_16"⟩, by decide +kernel, smoothStart_done _⟩
  · exact ⟨⟨"ehrpwm2", 1, "48304000", "48304200", "P8_13"⟩, by decide +kernel, smoothStart_done _⟩
  · exact ⟨by simp [command], rfl, Dbl.isReal_fin 10⟩
  · exact ⟨by simp [command], rfl, Dbl.isReal_fin (-150)⟩
  · rintro pin ⟨call, member, rfl⟩
    simp only [bothServos, List.mem_cons, List.not_mem_nil, or_false] at member
    rcases member with rfl | rfl | rfl | rfl
    · exact Or.inl rfl
    · exact Or.inr rfl
    · exact Or.inl rfl
    · exact Or.inr rfl

end ProjectOwl.Beagle
