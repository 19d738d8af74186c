import ProjectOwl.Beagle.Pwm

/-! # One PWM channel

What the calls of the driver do to one channel: the settings in its files and the
copy the driver keeps of them.  The calls on the linked list come down to these
functions on the channel they find. -/

set_option autoImplicit false

namespace ProjectOwl.Beagle.Pwm

/-- What the driver remembers of a channel. -/
structure Cache where
  duty : Dbl
  dutyNs : Nat
  periodNs : Nat
  deriving DecidableEq, Repr

structure Device where
  cache : Cache
  file : Settings
  deriving DecidableEq, Repr

namespace Device

section Functions
variable (board : Board)

def write (succeeds : Bool) (attr : Attribute) (text : Written) (d : Device) : Bool × Device :=
  match d.file.put attr text with
  | none => (false, d)
  | some after =>
      if succeeds && board.accepts d.file after then (true, { d with file := after })
      else (false, d)

def writeIf (wanted succeeds : Bool) (attr : Attribute) (text : Written) (d : Device) :
    Bool × Device :=
  if wanted then d.write board succeeds attr text else (true, d)

/-- A failed write ends the call. -/
def checked (wrote : Bool × Device) (rest : Device → BbioErr × Device) : BbioErr × Device :=
  if !wrote.1 then (.sysfs, wrote.2) else rest wrote.2

/-- An error ends the call. -/
def andThen (result : BbioErr × Device) (rest : Device → BbioErr × Device) :
    BbioErr × Device :=
  if result.1 ≠ .ok then result else rest result.2

def setFrequency (outcome : FrequencyOutcome) (freq : Dbl) (d : Device) : BbioErr × Device :=
  if notPositive freq then (.invarg, d)
  else
    let periodNs := periodNsOf board freq
    let dutyNs := dutyNsOf board periodNs d.cache.duty
    if periodNs < d.cache.periodNs then
      let d := { d with cache := { d.cache with periodNs, dutyNs } }
      checked (d.write board outcome.first .dutyCycle (.ns dutyNs)) fun d =>
      checked (d.write board outcome.second .period (.ns periodNs)) fun d =>
      (.ok, d)
    else if d.cache.periodNs < periodNs then
      let d := { d with cache := { d.cache with periodNs } }
      checked (d.write board outcome.first .period (.ns periodNs)) fun d =>
      let d := { d with cache := { d.cache with dutyNs } }
      checked (d.write board outcome.second .dutyCycle (.ns dutyNs)) fun d =>
      (.ok, d)
    else (.ok, d)

def setDutyCycle (succeeds : Bool) (duty : Dbl) (d : Device) : BbioErr × Device :=
  if duty < 0 ∨ 100 < duty then (.invarg, d)
  else
    let dutyNs := dutyNsOf board d.cache.periodNs duty
    let d := { d with cache := { d.cache with duty, dutyNs } }
    checked (d.write board succeeds .dutyCycle (.ns dutyNs)) fun d => (.ok, d)

def setPolarity (outcome : PolarityOutcome) (polarity : Int) (d : Device) : BbioErr × Device :=
  if !outcome.read then (.sysfs, d)
  else
    let on := d.file.enabled
    checked (d.writeIf board on outcome.disable .enable (.enable false)) fun d =>
    if polarity ≠ 0 ∧ polarity ≠ 1 then (.invarg, d)
    else
      checked (d.write board outcome.polarity .polarity (.polarity (polarity = 1))) fun d =>
      checked (d.writeIf board (on || outcome.enabled) outcome.restore .enable (.enable true))
        fun d => (.ok, d)

def start (outcome : StartOutcome) (duty freq : Dbl) (polarity : Int) (d : Device) :
    BbioErr × Device :=
  if !outcome.readPeriod then (.sysfs, d)
  else
    let d := { d with cache := { d.cache with periodNs := d.file.period } }
    if !outcome.readDuty then (.sysfs, d)
    else
      let d := { d with cache := { d.cache with duty, dutyNs := d.file.duty } }
      andThen (d.setFrequency board outcome.frequency freq) fun d =>
      andThen (d.setDutyCycle board outcome.dutyCycle duty) fun d =>
      andThen (d.setPolarity board outcome.polarity polarity) fun d =>
      checked (d.write board outcome.enable .enable (.enable true)) fun d => (.ok, d)

end Functions

/-! ## What a call that returned `BBIO_OK` did -/

section Done
variable {board : Board} {succeeds : Bool} {attr : Attribute} {text : Written} {d d' : Device}
  {duty freq : Dbl} {polarity : Int}

theorem write_cases (board : Board) (succeeds : Bool) (attr : Attribute) (text : Written)
    (d : Device) :
    d.write board succeeds attr text = (false, d) ∨
      ∃ after, d.file.put attr text = some after ∧
        d.write board succeeds attr text = (true, { d with file := after }) := by
  unfold write
  cases d.file.put attr text with
  | none => exact Or.inl rfl
  | some after =>
      dsimp only
      split
      · exact Or.inr ⟨after, rfl, rfl⟩
      · exact Or.inl rfl

theorem checked_ok {wrote : Bool × Device} {rest : Device → BbioErr × Device}
    (ok : checked wrote rest = (.ok, d')) : wrote.1 = true ∧ rest wrote.2 = (.ok, d') := by
  unfold checked at ok
  cases went : wrote.1 with
  | false => simp [went] at ok
  | true => exact ⟨rfl, by simpa [went] using ok⟩

theorem andThen_ok {result : BbioErr × Device} {rest : Device → BbioErr × Device}
    (ok : andThen result rest = (.ok, d')) :
    ∃ mid, result = (.ok, mid) ∧ rest mid = (.ok, d') := by
  unfold andThen at ok
  by_cases failed : result.1 ≠ .ok
  · rw [if_pos failed] at ok
    exact absurd (congrArg Prod.fst ok) failed
  · rw [if_neg failed] at ok
    have isOk : result.1 = .ok := by simpa using failed
    exact ⟨result.2, Prod.ext isOk rfl, ok⟩

/-- A call that got past a write went on with what was written. -/
theorem checked_write_ok {after : Settings} {rest : Device → BbioErr × Device}
    (put : d.file.put attr text = some after)
    (ok : checked (d.write board succeeds attr text) rest = (.ok, d')) :
    rest { d with file := after } = (.ok, d') := by
  obtain ⟨done, next⟩ := checked_ok ok
  rcases write_cases board succeeds attr text d with failed | ⟨after', put', wrote⟩
  · rw [failed] at done
    cases done
  · rw [put, Option.some.injEq] at put'
    rw [wrote, ← put'] at next
    exact next

theorem setFrequency_ok {outcome : FrequencyOutcome}
    (ok : d.setFrequency board outcome freq = (.ok, d')) :
    notPositive freq = false ∧ d'.cache.periodNs = periodNsOf board freq ∧
      d'.cache.duty = d.cache.duty ∧
      (d.cache.periodNs = d.file.period →
        ∃ duty, d'.file = { d.file with period := periodNsOf board freq, duty }) := by
  unfold setFrequency at ok
  by_cases negative : notPositive freq = true
  · rw [if_pos negative] at ok
    simp at ok
  · rw [if_neg negative] at ok
    refine ⟨by simpa using negative, ?_⟩
    by_cases shorter : periodNsOf board freq < d.cache.periodNs
    · simp only [if_pos shorter] at ok
      have second := checked_write_ok rfl ok
      have done := checked_write_ok rfl second
      obtain rfl := (Prod.mk.inj done).2
      exact ⟨rfl, rfl, fun _ => ⟨_, rfl⟩⟩
    · by_cases longer : d.cache.periodNs < periodNsOf board freq
      · simp only [if_neg shorter, if_pos longer] at ok
        have second := checked_write_ok rfl ok
        have done := checked_write_ok rfl second
        obtain rfl := (Prod.mk.inj done).2
        exact ⟨rfl, rfl, fun _ => ⟨_, rfl⟩⟩
      · simp only [if_neg shorter, if_neg longer, Prod.mk.injEq, true_and] at ok
        have same : d.cache.periodNs = periodNsOf board freq := by omega
        subst ok
        refine ⟨same, rfl, fun mirrored => ⟨d.file.duty, ?_⟩⟩
        rw [← same, mirrored]

theorem setDutyCycle_ok (ok : d.setDutyCycle board succeeds duty = (.ok, d')) :
    ¬(duty < 0 ∨ 100 < duty) ∧
      d' = ⟨⟨duty, dutyNsOf board d.cache.periodNs duty, d.cache.periodNs⟩,
        { d.file with duty := dutyNsOf board d.cache.periodNs duty }⟩ := by
  unfold setDutyCycle at ok
  by_cases outside : duty < 0 ∨ 100 < duty
  · rw [if_pos outside] at ok
    simp at ok
  · rw [if_neg outside] at ok
    have done := checked_write_ok rfl ok
    exact ⟨outside, (Prod.mk.inj done).2.symm⟩

theorem checked_writeIf_ok {wanted on : Bool} {rest : Device → BbioErr × Device}
    (ok : checked (d.writeIf board wanted succeeds .enable (.enable on)) rest = (.ok, d')) :
    ∃ enabled, rest { d with file := { d.file with enabled } } = (.ok, d') := by
  cases wanted with
  | false => exact ⟨d.file.enabled, (checked_ok ok).2⟩
  | true =>
      have direct : checked (d.write board succeeds .enable (.enable on)) rest = (.ok, d') := ok
      exact ⟨on, checked_write_ok rfl direct⟩

theorem setPolarity_ok {outcome : PolarityOutcome}
    (ok : d.setPolarity board outcome polarity = (.ok, d')) :
    (polarity = 0 ∨ polarity = 1) ∧ d'.cache = d.cache ∧
      ∃ enabled, d'.file = { d.file with inversed := decide (polarity = 1), enabled } := by
  unfold setPolarity at ok
  cases read : outcome.read with
  | false => simp [read] at ok
  | true =>
      simp only [read, Bool.not_true, Bool.false_eq_true, if_false] at ok
      obtain ⟨off, checkedValue⟩ := checked_writeIf_ok ok
      by_cases invalid : polarity ≠ 0 ∧ polarity ≠ 1
      · rw [if_pos invalid] at checkedValue
        simp at checkedValue
      · rw [if_neg invalid] at checkedValue
        obtain ⟨enabled, done⟩ := checked_writeIf_ok (checked_write_ok rfl checkedValue)
        obtain rfl := (Prod.mk.inj done).2
        exact ⟨by omega, rfl, enabled, rfl⟩

/-- Once a channel has been started, its files hold what was asked for, whatever
they and the cache held before. -/
theorem start_ok {outcome : StartOutcome}
    (ok : d.start board outcome duty freq polarity = (.ok, d')) :
    (polarity = 0 ∨ polarity = 1) ∧ notPositive freq = false ∧ ¬(duty < 0 ∨ 100 < duty) ∧
      d' = ⟨⟨duty, dutyNsOf board (periodNsOf board freq) duty, periodNsOf board freq⟩,
        ⟨periodNsOf board freq, dutyNsOf board (periodNsOf board freq) duty,
          decide (polarity = 1), true⟩⟩ := by
  unfold start at ok
  cases readPeriod : outcome.readPeriod with
  | false => simp [readPeriod] at ok
  | true =>
      cases readDuty : outcome.readDuty with
      | false => simp [readPeriod, readDuty] at ok
      | true =>
          simp only [readPeriod, readDuty, Bool.not_true, Bool.false_eq_true, if_false] at ok
          obtain ⟨d₁, frequency, ok⟩ := andThen_ok ok
          obtain ⟨d₂, dutyCycle, ok⟩ := andThen_ok ok
          obtain ⟨d₃, value, ok⟩ := andThen_ok ok
          have done := checked_write_ok rfl ok
          obtain ⟨positive, period, -, file⟩ := setFrequency_ok frequency
          obtain ⟨_, file⟩ := file rfl
          obtain ⟨inside, rfl⟩ := setDutyCycle_ok dutyCycle
          obtain ⟨valid, cache, enabled, file₃⟩ := setPolarity_ok value
          refine ⟨valid, positive, inside, ?_⟩
          rw [← (Prod.mk.inj done).2, cache, file₃, file, period]

end Done

end Device

end ProjectOwl.Beagle.Pwm
