import ProjectOwl.Beagle.PwmSettings
import ProjectOwl.Lib.Machine

/-! # The driver as its callers see it

A caller asks for a duty cycle, a frequency and a polarity on a key, changes one of
them, or gives the key up.  The kernel refuses a duty cycle longer than the period
and a change of polarity while the channel runs.  As long as no system call fails
for another reason and no two keys stand for one channel, the driver never writes
what the kernel refuses, and its files carry what was asked. -/

set_option autoImplicit false

namespace ProjectOwl.Beagle.Pwm

/-- What a caller has asked for. -/
structure Request where
  duty : Dbl
  freq : Dbl
  inversed : Bool
  deriving DecidableEq, Repr

/-- What has been asked for on each key that is in use. -/
abbrev Asked := String → Option Request

def Call.key : Call → Option String
  | .start _ key _ _ _ => some key
  | .set key _ => some key
  | .disable _ key => some key
  | .cleanup _ => none

def Setting.ask (r : Request) : Setting → Request
  | .frequency _ freq => { r with freq }
  | .dutyCycle _ duty => { r with duty }
  | .polarity _ value => { r with inversed := decide (value = 1) }

def ask (asked : Asked) : Call → Asked
  | .start _ key duty freq polarity =>
      Function.update asked key (some ⟨duty, freq, decide (polarity = 1)⟩)
  | .set key setting => Function.update asked key ((asked key).map setting.ask)
  | .disable _ key => Function.update asked key none
  | .cleanup _ => fun _ => none

/-! ## Calls that nothing stands in the way of -/

def FrequencyOutcome.Done (outcome : FrequencyOutcome) : Prop :=
  outcome.first = true ∧ outcome.second = true

def PolarityOutcome.Done (outcome : PolarityOutcome) : Prop :=
  outcome.read = true ∧ outcome.disable = true ∧ outcome.polarity = true ∧ outcome.restore = true

structure SetupOutcome.Done (outcome : SetupOutcome) (p : PwmT) : Prop where
  suitable : outcome.overlays.suitable = true
  located : locate outcome p = .ok
  openPeriod : outcome.openPeriod = true
  openDuty : outcome.openDuty = true
  openPolarity : outcome.openPolarity = true
  openEnable : outcome.openEnable = true
  malloc : outcome.malloc = true

structure StartOutcome.Done (outcome : StartOutcome) (p : PwmT) : Prop where
  setup : outcome.setup.Done p
  readPeriod : outcome.readPeriod = true
  readDuty : outcome.readDuty = true
  frequency : outcome.frequency.Done
  dutyCycle : outcome.dutyCycle = true
  polarity : outcome.polarity.Done
  enable : outcome.enable = true

def Setting.Plain : Setting → Prop
  | .frequency outcome freq => outcome.Done ∧ FreqInRange freq
  | .dutyCycle succeeds duty => succeeds = true ∧ DutyInRange duty
  | .polarity outcome value => outcome.Done ∧ (value = 0 ∨ value = 1)

/-- The arguments are in range, the key is in use where it has to be, no clean-up
finds two keys in use, and no system call fails of itself. -/
def Plain (asked : Asked) : Call → Prop
  | .start outcome key duty freq polarity =>
      (∃ p, getPwmByKey key = some p ∧ outcome.Done p) ∧ DutyInRange duty ∧ FreqInRange freq ∧
        (polarity = 0 ∨ polarity = 1)
  | .set key setting => asked key ≠ none ∧ setting.Plain
  | .disable writes _ => ∀ a, writes a = true
  | .cleanup rounds =>
      (∀ key other, asked key ≠ none → asked other ≠ none → key = other) ∧
        ∃ writes ∈ rounds, ∀ a, writes a = true

/-- What the kernel takes, as the driver's comments have it. -/
structure Board.Rules (board : Board) : Prop where
  accepts : ∀ before after : Settings, 0 < after.period → after.duty ≤ after.period →
    (before.enabled = true → after.inversed = before.inversed) → board.accepts before after = true

/-! ## Writes that the kernel takes -/

namespace Device

section Taken
variable {board : Board} {cache : Cache} {file after : Settings}
  {rest : Device → BbioErr × Device} {d : Device} {duty freq : Dbl} {polarity : Int}

/-- The duty cycle that a change of frequency leaves in the file. -/
def dutyAfter (board : Board) (freq : Dbl) (d : Device) : Nat :=
  if periodNsOf board freq = d.file.period then d.file.duty
  else dutyNsOf board (periodNsOf board freq) d.cache.duty

theorem andThen_ok_eq : andThen (.ok, d) rest = rest d := rfl

theorem checked_taken {attr : Attribute} {text : Written} (put : file.put attr text = some after)
    (taken : board.accepts file after = true) :
    checked (Device.write board true attr text ⟨cache, file⟩) rest = rest ⟨cache, after⟩ := by
  unfold write
  simp [put, taken, checked]

section Rules
variable (rules : board.Rules) {periodNs dutyNs n : Nat} {inversed enabled b : Bool}

include rules

theorem checked_period (runs : 0 < n) (fits : dutyNs ≤ n) :
    checked (Device.write board true .period (.ns n)
      ⟨cache, ⟨periodNs, dutyNs, inversed, enabled⟩⟩) rest =
        rest ⟨cache, ⟨n, dutyNs, inversed, enabled⟩⟩ :=
  checked_taken rfl (rules.accepts _ _ runs fits fun _ => rfl)

theorem checked_duty (runs : 0 < periodNs) (fits : n ≤ periodNs) :
    checked (Device.write board true .dutyCycle (.ns n)
      ⟨cache, ⟨periodNs, dutyNs, inversed, enabled⟩⟩) rest =
        rest ⟨cache, ⟨periodNs, n, inversed, enabled⟩⟩ :=
  checked_taken rfl (rules.accepts _ _ runs fits fun _ => rfl)

/-- The polarity of a channel that is stopped. -/
theorem checked_polarity (runs : 0 < periodNs) (ordered : dutyNs ≤ periodNs) :
    checked (Device.write board true .polarity (.polarity b)
      ⟨cache, ⟨periodNs, dutyNs, inversed, false⟩⟩) rest =
        rest ⟨cache, ⟨periodNs, dutyNs, b, false⟩⟩ :=
  checked_taken rfl (rules.accepts _ _ runs ordered fun running => absurd running Bool.false_ne_true)

theorem checked_enable (runs : 0 < periodNs) (ordered : dutyNs ≤ periodNs) :
    checked (Device.write board true .enable (.enable b)
      ⟨cache, ⟨periodNs, dutyNs, inversed, enabled⟩⟩) rest =
        rest ⟨cache, ⟨periodNs, dutyNs, inversed, b⟩⟩ :=
  checked_taken rfl (rules.accepts _ _ runs ordered fun _ => rfl)

theorem checked_enableIf {wanted : Bool} (runs : 0 < periodNs) (ordered : dutyNs ≤ periodNs) :
    checked (Device.writeIf board wanted true .enable (.enable b)
      ⟨cache, ⟨periodNs, dutyNs, inversed, enabled⟩⟩) rest =
        rest ⟨cache, ⟨periodNs, dutyNs, inversed, if wanted then b else enabled⟩⟩ := by
  cases wanted with
  | false => rfl
  | true => exact checked_enable rules runs ordered

theorem setFrequency_taken {outcome : FrequencyOutcome} (done : outcome.Done)
    (inRange : FreqInRange freq) (dutyInRange : DutyInRange d.cache.duty)
    (period : d.cache.periodNs = d.file.period) (dutyNs : d.cache.dutyNs = d.file.duty)
    (ordered : d.file.duty ≤ d.file.period) :
    d.setFrequency board outcome freq =
      (.ok, ⟨⟨d.cache.duty, d.dutyAfter board freq, periodNsOf board freq⟩,
        { d.file with period := periodNsOf board freq, duty := d.dutyAfter board freq }⟩) := by
  have runs := periodNsOf_pos board inRange
  have fits := dutyNsOf_le board dutyInRange (periodNsOf_le board freq)
  have positive : notPositive freq = false := by
    obtain ⟨q, rfl, positive, -⟩ := inRange
    have above : (0 : Dbl) < .fin q := positive
    simp [notPositive, above]
  obtain ⟨first, second⟩ := done
  unfold setFrequency dutyAfter
  rw [positive, period, first, second, if_neg Bool.false_ne_true]
  rcases Nat.lt_trichotomy (periodNsOf board freq) d.file.period with shorter | same | longer
  · simp only [if_pos shorter, if_neg shorter.ne]
    rw [checked_duty rules (runs.trans shorter) (fits.trans shorter.le),
      checked_period rules runs fits]
  · have unchanged : d = ⟨⟨d.cache.duty, d.file.duty, d.file.period⟩, d.file⟩ := by
      rw [← period, ← dutyNs]
    simp only [same, Nat.lt_irrefl, if_false, if_true]
    exact congrArg (Prod.mk BbioErr.ok) unchanged
  · simp only [if_neg longer.not_gt, if_pos longer, if_neg longer.ne']
    rw [checked_period rules runs (ordered.trans longer.le), checked_duty rules runs fits]

theorem setDutyCycle_taken (inRange : DutyInRange duty) (runs : 0 < d.file.period)
    (fits : d.file.period ≤ ULONG_MAX) (period : d.cache.periodNs = d.file.period) :
    d.setDutyCycle board true duty =
      (.ok, ⟨⟨duty, dutyNsOf board d.file.period duty, d.file.period⟩,
        { d.file with duty := dutyNsOf board d.file.period duty }⟩) := by
  have inside : ¬(duty < 0 ∨ 100 < duty) := by
    obtain ⟨q, rfl, least, most⟩ := inRange
    rintro (below | above)
    · exact absurd least (not_le.mpr (below : q < 0))
    · exact absurd most (not_le.mpr (above : 100 < q))
  unfold setDutyCycle
  simp only [if_neg inside, period]
  rw [checked_duty rules runs (dutyNsOf_le board inRange fits)]

/-- The channel is stopped for the change of polarity if it runs. -/
theorem setPolarity_taken {outcome : PolarityOutcome} (done : outcome.Done)
    (valid : polarity = 0 ∨ polarity = 1) (runs : 0 < d.file.period)
    (ordered : d.file.duty ≤ d.file.period) :
    d.setPolarity board outcome polarity =
      (.ok, { d with file := { d.file with
        inversed := decide (polarity = 1), enabled := d.file.enabled || outcome.enabled } }) := by
  obtain ⟨read, disable, change, restore⟩ := done
  have known : ¬(polarity ≠ 0 ∧ polarity ≠ 1) := by omega
  unfold setPolarity
  rw [read, disable, change, restore]
  simp only [Bool.not_true, Bool.false_eq_true, if_false, if_neg known]
  have stopped : (if d.file.enabled = true then false else d.file.enabled) = false := by
    cases d.file.enabled <;> rfl
  have started : (if (d.file.enabled || outcome.enabled) = true then true else false) =
      (d.file.enabled || outcome.enabled) := by
    cases d.file.enabled || outcome.enabled <;> rfl
  rw [checked_enableIf rules runs ordered, stopped, checked_polarity rules runs ordered,
    checked_enableIf rules runs ordered, started]

theorem start_taken {outcome : StartOutcome} {p : PwmT} (done : outcome.Done p)
    (dutyInRange : DutyInRange duty) (freqInRange : FreqInRange freq)
    (valid : polarity = 0 ∨ polarity = 1) (ordered : d.file.duty ≤ d.file.period) :
    ∃ d', d.start board outcome duty freq polarity = (.ok, d') := by
  unfold start
  rw [done.readPeriod, done.readDuty]
  simp only [Bool.not_true, Bool.false_eq_true, if_false]
  let d₁ : Device := ⟨⟨duty, d.file.duty, d.file.period⟩, d.file⟩
  have frequency := setFrequency_taken (d := d₁) rules done.frequency freqInRange dutyInRange rfl
    rfl ordered
  have runs := periodNsOf_pos board freqInRange
  have fits := periodNsOf_le board freq
  have dutyFits := dutyNsOf_le board dutyInRange fits
  rw [frequency, andThen_ok_eq, done.dutyCycle, setDutyCycle_taken rules dutyInRange runs fits rfl,
    andThen_ok_eq, setPolarity_taken rules done.polarity valid runs dutyFits, andThen_ok_eq,
    done.enable, checked_enable rules runs dutyFits]
  exact ⟨_, rfl⟩

end Rules

end Taken

end Device

/-! ## The state behind what was asked -/

section Behind
variable (board : Board)

def Request.settings (r : Request) : Settings :=
  ⟨periodNsOf board r.freq, dutyNsOf board (periodNsOf board r.freq) r.duty, r.inversed, true⟩

def Request.device (r : Request) : Device :=
  ⟨⟨r.duty, dutyNsOf board (periodNsOf board r.freq) r.duty, periodNsOf board r.freq⟩,
    r.settings board⟩

structure Request.InRange (r : Request) : Prop where
  duty : DutyInRange r.duty
  freq : FreqInRange r.freq

/-- No two of the keys stand for one channel. -/
def Apart (keys : Set String) : Prop :=
  ∀ key ∈ keys, ∀ other ∈ keys, ∀ p q, getPwmByKey key = some p → getPwmByKey other = some q →
    p.channel = q.channel → key = other

/-- A cell and its channel are as asked. -/
def Agrees (asked : Asked) (s : System) (entry : Entry) : Prop :=
  ∃ p r, getPwmByKey entry.2.key = some p ∧ asked entry.2.key = some r ∧ r.InRange ∧
    entry.2.cache = (r.device board).cache ∧ s.channels p.channel = r.settings board

structure Follows (keys : Set String) (asked : Asked) (s : System) (entries : List Entry) :
    Prop where
  holds : s.Holds entries
  within : ∀ entry ∈ entries, entry.2.key ∈ keys
  agree : ∀ entry ∈ entries, Agrees board asked s entry
  listed : ∀ key, asked key ≠ none → ∃ entry ∈ entries, entry.2.key = key
  ordered : ∀ channel, (s.channels channel).duty ≤ (s.channels channel).period

end Behind

section Follows
variable {board : Board} {keys : Set String} {asked : Asked} {s : System}
  {entries front back : List Entry} {a : Nat} {pwm : PwmExp} {p : PwmT} {r : Request}

theorem Request.InRange.settings_ordered (inRange : r.InRange) :
    (r.settings board).duty ≤ (r.settings board).period :=
  dutyNsOf_le board inRange.duty (periodNsOf_le board r.freq)

/-- Where nothing of an entry's key or channel changes, it goes on agreeing. -/
theorem Agrees.congr {entry : Entry} {asked' : Asked} {t : System}
    (agrees : Agrees board asked s entry) (same : asked' entry.2.key = asked entry.2.key)
    (channels : ∀ p, getPwmByKey entry.2.key = some p →
      t.channels p.channel = s.channels p.channel) : Agrees board asked' t entry := by
  obtain ⟨p, r, known, isAsked, inRange, cache, file⟩ := agrees
  exact ⟨p, r, known, same.trans isAsked, inRange, cache, (channels p known).trans file⟩

theorem channel_ne (apart : Apart keys) {key other : String} (member : key ∈ keys)
    (isOther : other ∈ keys) (differ : other ≠ key) {p q : PwmT}
    (known : getPwmByKey key = some p) (otherKnown : getPwmByKey other = some q) :
    q.channel ≠ p.channel :=
  fun same => differ (apart other isOther key member q p otherKnown known same)

/-- An entry and the others. -/
theorem mem_middle {entry here : Entry} :
    entry ∈ front ++ here :: back ↔ entry = here ∨ entry ∈ front ++ back :=
  List.perm_middle.mem_iff.trans List.mem_cons

/-- One channel is set to a request, and the others follow as before. -/
theorem follows_put (apart : Apart keys) (holds : s.Holds (front ++ (a, pwm) :: back))
    (within : ∀ entry ∈ front ++ (a, pwm) :: back, entry.2.key ∈ keys)
    (agree : ∀ entry ∈ front ++ back, Agrees board asked s entry)
    (listed : ∀ key, key ≠ pwm.key → asked key ≠ none → ∃ entry ∈ front ++ back, entry.2.key = key)
    (ordered : ∀ channel, (s.channels channel).duty ≤ (s.channels channel).period)
    (known : getPwmByKey pwm.key = some p) (inRange : r.InRange) :
    Follows board keys (Function.update asked pwm.key (some r))
      (s.put a p.channel (r.device board))
      (front ++ (a, pwm.withCache (r.device board).cache) :: back) := by
  have member : pwm.key ∈ keys := within (a, pwm) (mem_middle.mpr (Or.inl rfl))
  have others := List.forall_mem_append.mpr (keys_apart holds.keys)
  have inside : ∀ entry ∈ front ++ back, entry.2.key ∈ keys := fun entry isOther =>
    within entry (mem_middle.mpr (Or.inr isOther))
  refine ⟨holds.put p.channel _, ?_, ?_, ?_, ?_⟩
  · intro entry isEntry
    rcases mem_middle.mp isEntry with rfl | isOther
    · exact member
    · exact inside entry isOther
  · intro entry isEntry
    rcases mem_middle.mp isEntry with rfl | isOther
    · exact ⟨p, r, known, Function.update_self .., inRange, rfl, put_channel⟩
    · have differ := others entry isOther
      refine (agree entry isOther).congr (Function.update_of_ne differ _ _) fun q otherKnown => ?_
      exact put_channel_other
        (channel_ne apart member (inside entry isOther) differ known otherKnown)
  · intro key isAsked
    by_cases same : key = pwm.key
    · exact ⟨(a, pwm.withCache (r.device board).cache), mem_middle.mpr (Or.inl rfl), same.symm⟩
    · rw [Function.update_of_ne same] at isAsked
      obtain ⟨entry, isOther, rfl⟩ := listed key same isAsked
      exact ⟨entry, mem_middle.mpr (Or.inr isOther), rfl⟩
  · intro channel
    by_cases same : channel = p.channel
    · rw [same, put_channel]
      exact inRange.settings_ordered
    · rw [put_channel_other same]
      exact ordered channel

theorem Follows.device (follows : Follows board keys asked s (front ++ (a, pwm) :: back))
    (found : s.Found a pwm p) (known : getPwmByKey pwm.key = some p) :
    ∃ r, asked pwm.key = some r ∧ r.InRange ∧ s.device a p.channel = r.device board := by
  obtain ⟨q, r, alsoKnown, isAsked, inRange, cache, file⟩ := follows.agree (a, pwm) (by simp)
  obtain rfl : q = p := Option.some.inj (alsoKnown.symm.trans known)
  refine ⟨r, isAsked, inRange, ?_⟩
  rw [System.device, found.stored, file, cache]
  rfl

theorem Follows.put (apart : Apart keys)
    (follows : Follows board keys asked s (front ++ (a, pwm) :: back))
    (known : getPwmByKey pwm.key = some p) (inRange : r.InRange) :
    Follows board keys (Function.update asked pwm.key (some r))
      (s.put a p.channel (r.device board))
      (front ++ (a, pwm.withCache (r.device board).cache) :: back) := by
  refine follows_put apart follows.holds follows.within (fun entry member => ?_)
    (fun key differ isAsked => ?_) follows.ordered known inRange
  · exact follows.agree entry (mem_middle.mpr (Or.inr member))
  · obtain ⟨entry, member, rfl⟩ := follows.listed key isAsked
    rcases mem_middle.mp member with rfl | isOther
    · exact absurd rfl differ
    · exact ⟨entry, isOther, rfl⟩

/-- A change of one setting does to the channel what it does to the request. -/
theorem act_request (rules : board.Rules) (inRange : r.InRange) {setting : Setting}
    (plain : setting.Plain) :
    setting.act board (r.device board) = (.ok, (setting.ask r).device board) ∧
      (setting.ask r).InRange := by
  have ordered : (r.settings board).duty ≤ (r.settings board).period := inRange.settings_ordered
  have runs := periodNsOf_pos board inRange.freq
  have fits := periodNsOf_le board r.freq
  cases setting with
  | frequency outcome freq =>
      obtain ⟨done, freqInRange⟩ := plain
      refine ⟨?_, ⟨inRange.duty, freqInRange⟩⟩
      have after : (r.device board).dutyAfter board freq =
          dutyNsOf board (periodNsOf board freq) r.duty := by
        unfold Device.dutyAfter
        split
        · rename_i same
          rw [same]
          rfl
        · rfl
      have taken := Device.setFrequency_taken (d := r.device board) rules done freqInRange
        inRange.duty rfl rfl ordered
      rw [after] at taken
      exact taken
  | dutyCycle succeeds duty =>
      obtain ⟨rfl, dutyInRange⟩ := plain
      exact ⟨Device.setDutyCycle_taken (d := r.device board) rules dutyInRange runs fits rfl,
        ⟨dutyInRange, inRange.freq⟩⟩
  | polarity outcome value =>
      obtain ⟨done, valid⟩ := plain
      exact ⟨Device.setPolarity_taken (d := r.device board) rules done valid runs ordered,
        ⟨inRange.duty, inRange.freq⟩⟩

/-- Nothing goes wrong in `pwm_setup` when none of its system calls fails. -/
theorem pwmSetup_done {outcome : SetupOutcome} {key : String} {result : BbioErr × System}
    (known : getPwmByKey key = some p) (done : outcome.Done p)
    (ran : pwmSetup board outcome key s = some result) : result.1 = .ok := by
  simp only [pwmSetup, done.suitable, known, done.located, openChannel, openFile, malloc,
    done.openPeriod, done.openDuty, done.openPolarity, done.openEnable, done.malloc] at ran
  obtain ⟨t, -, same⟩ := Option.bind_eq_some_iff.mp ran
  exact congrArg Prod.fst (Option.some.inj same).symm

theorem start_request (rules : board.Rules) {outcome : StartOutcome} (done : outcome.Done p)
    {duty freq : Dbl} {polarity : Int} (dutyInRange : DutyInRange duty)
    (freqInRange : FreqInRange freq) (valid : polarity = 0 ∨ polarity = 1)
    (ordered : ∀ channel, (s.channels channel).duty ≤ (s.channels channel).period) :
    (s.device a p.channel).start board outcome duty freq polarity =
      (.ok, Request.device board ⟨duty, freq, decide (polarity = 1)⟩) := by
  obtain ⟨d, taken⟩ := Device.start_taken (d := s.device a p.channel) rules done dutyInRange
    freqInRange valid (ordered p.channel)
  obtain ⟨-, -, -, rfl⟩ := Device.start_ok taken
  exact taken

end Follows

section Drop
variable {board : Board} {keys : Set String} {asked : Asked} {s t : System} {front back : List Entry}
  {a : Nat} {pwm : PwmExp} {p : PwmT}

/-- A channel is stopped and its cell given up, and the others follow as before. -/
theorem follows_drop (apart : Apart keys)
    (follows : Follows board keys asked s (front ++ (a, pwm) :: back))
    (holds : t.Holds (front ++ back)) (known : getPwmByKey pwm.key = some p)
    (channels : t.channels = Function.update s.channels p.channel
      { s.channels p.channel with enabled := false }) :
    Follows board keys (Function.update asked pwm.key none) t (front ++ back) := by
  have member : pwm.key ∈ keys := follows.within (a, pwm) (mem_middle.mpr (Or.inl rfl))
  have others := List.forall_mem_append.mpr (keys_apart follows.holds.keys)
  have inside : ∀ entry ∈ front ++ back, entry.2.key ∈ keys := fun entry isOther =>
    follows.within entry (mem_middle.mpr (Or.inr isOther))
  refine ⟨holds, inside, ?_, ?_, ?_⟩
  · intro entry isOther
    have differ := others entry isOther
    have agrees := follows.agree entry (mem_middle.mpr (Or.inr isOther))
    refine agrees.congr (Function.update_of_ne differ _ _) fun q otherKnown => ?_
    rw [channels]
    exact Function.update_of_ne
      (channel_ne apart member (inside entry isOther) differ known otherKnown) ..
  · intro key isAsked
    have differ : key ≠ pwm.key := by
      rintro rfl
      rw [Function.update_self] at isAsked
      exact isAsked rfl
    rw [Function.update_of_ne differ] at isAsked
    obtain ⟨entry, isEntry, rfl⟩ := follows.listed key isAsked
    rcases mem_middle.mp isEntry with rfl | isOther
    · exact absurd rfl differ
    · exact ⟨entry, isOther, rfl⟩
  · intro channel
    rw [channels]
    by_cases same : channel = p.channel
    · rw [same, Function.update_self]
      exact follows.ordered p.channel
    · rw [Function.update_of_ne same]
      exact follows.ordered channel

/-- The channel of a cell can be stopped. -/
theorem write_stop (rules : board.Rules)
    (follows : Follows board keys asked s (front ++ (a, pwm) :: back)) (found : s.Found a pwm p)
    (known : getPwmByKey pwm.key = some p) :
    (write board true pwm.enableFd (.enable false) s).1 = true := by
  obtain ⟨q, r, alsoKnown, -, inRange, -, file⟩ := follows.agree (a, pwm) (by simp)
  obtain rfl : q = p := Option.some.inj (alsoKnown.symm.trans known)
  have open_ := found.file .enable
  simp only [PwmExp.fd] at open_
  have taken := rules.accepts (r.settings board) { r.settings board with enabled := false }
    (periodNsOf_pos board inRange.freq) inRange.settings_ordered fun _ => rfl
  unfold write
  rw [open_]
  simp only [file, Settings.put, taken, Bool.and_self, if_true]

/-- With one key in use at most, there is one cell at most. -/
theorem Follows.length_le_one {entries : List Entry} (follows : Follows board keys asked s entries)
    (one : ∀ key other, asked key ≠ none → asked other ≠ none → key = other) :
    entries.length ≤ 1 := by
  by_contra more
  obtain ⟨first, second, rest, rfl⟩ : ∃ first second rest, entries = first :: second :: rest := by
    cases entries with
    | nil => simp at more
    | cons first others =>
        cases others with
        | nil => simp at more
        | cons second rest => exact ⟨first, second, rest, rfl⟩
  obtain ⟨-, r, -, isAsked, -⟩ := follows.agree first (by simp)
  obtain ⟨-, r', -, alsoAsked, -⟩ := follows.agree second (by simp)
  have same := one first.2.key second.2.key (by simp [isAsked]) (by simp [alsoAsked])
  have keys := follows.holds.keys
  simp [same] at keys

end Drop

section Steps
variable {board : Board} (rules : board.Rules) {keys : Set String} (apart : Apart keys)
  {asked : Asked} {s : System} {entries : List Entry}

include rules apart

/-- A clean-up that finds one key in use at most stops its channel. -/
theorem cleanup_follows (follows : Follows board keys asked s entries) {rounds : List (Nat → Bool)}
    (one : ∀ key other, asked key ≠ none → asked other ≠ none → key = other)
    (succeeds : ∃ writes ∈ rounds, ∀ a, writes a = true) :
    ∃ t, pwmCleanup board rounds s = some (true, t) ∧
      Follows board keys (fun _ => none) t [] := by
  obtain ⟨-, returns, returned, -⟩ := pwmCleanup_cases board follows.holds rounds
  have few := follows.length_le_one one
  cases entries with
  | nil =>
      obtain ⟨t, ran⟩ := returns.mpr (Or.inl rfl)
      obtain rfl := (returned t ran).idle rfl
      refine ⟨t, ran, follows.holds, by simp, by simp, ?_, follows.ordered⟩
      exact fun key isAsked => absurd rfl isAsked
  | cons entry back =>
      obtain ⟨a, pwm⟩ := entry
      obtain rfl : back = [] := by
        rw [List.length_cons] at few
        exact List.eq_nil_of_length_eq_zero (by omega)
      have single : Follows board keys asked s ([] ++ (a, pwm) :: []) := follows
      obtain ⟨p, known, found⟩ := single.holds.found
      obtain ⟨next, read, -⟩ := single.holds.list.split
      have stops := write_stop rules single found known
      have head : s.exportedPwms = some a := follows.holds.list.linked.1
      obtain ⟨writes, member, all⟩ := succeeds
      have can : s.canDisable board writes = true := by
        simp only [System.canDisable, head, read, all, stops]
      obtain ⟨t, ran⟩ := returns.mpr (Or.inr ⟨rfl, writes, member, can⟩)
      have after := returned t ran
      have dropped := follows_drop apart single after.holds known (after.stopped a pwm p rfl known)
      have unused : Function.update asked pwm.key none = fun _ => none := by
        funext key
        by_cases same : key = pwm.key
        · rw [same, Function.update_self]
        · rw [Function.update_of_ne same]
          by_contra inUse
          obtain ⟨-, r, -, isAsked, -⟩ := follows.agree (a, pwm) (by simp)
          exact same (one key pwm.key inUse (by simp [isAsked]))
      rw [unused] at dropped
      exact ⟨t, ran, dropped⟩

/-- A key that is started is put on the list unless it is there. -/
theorem start_follows (follows : Follows board keys asked s entries) {outcome : StartOutcome}
    {key : String} {p : PwmT} {duty freq : Dbl} {polarity : Int}
    (known : getPwmByKey key = some p) (done : outcome.Done p) (dutyInRange : DutyInRange duty)
    (freqInRange : FreqInRange freq) (valid : polarity = 0 ∨ polarity = 1) (within : key ∈ keys) :
    ∃ t entries', pwmStart board outcome key duty freq polarity s = some (.ok, t) ∧
      Follows board keys
        (Function.update asked key (some ⟨duty, freq, decide (polarity = 1)⟩)) t entries' := by
  rcases follows.holds.lookup_cases key with
    ⟨lookup, absent⟩ | ⟨front, a, pwm, back, rfl, rfl, -⟩
  · obtain ⟨⟨err, t⟩, setup, channels, ⟨failed, -, -⟩ | ⟨-, a, pwm, q, rfl, alsoKnown, holds,
      found, ran⟩⟩ := start_absent board follows.holds lookup absent outcome duty freq polarity
    · exact absurd (pwmSetup_done known done.setup setup) failed
    · obtain rfl : q = p := Option.some.inj (alsoKnown.symm.trans known)
      have channels : t.channels = s.channels := channels
      have ordered : ∀ channel, (t.channels channel).duty ≤ (t.channels channel).period := by
        rw [channels]
        exact follows.ordered
      rw [start_request rules done dutyInRange freqInRange valid ordered] at ran
      refine ⟨_, _, ran, follows_put apart holds ?_ ?_ ?_ ordered known
        ⟨dutyInRange, freqInRange⟩⟩
      · intro entry member
        rcases List.mem_append.mp member with before | last
        · exact follows.within entry before
        · obtain rfl := List.mem_singleton.mp last
          exact within
      · intro entry member
        rw [List.append_nil] at member
        exact (follows.agree entry member).congr rfl fun p _ => congrFun channels p.channel
      · intro key _ isAsked
        rw [List.append_nil]
        exact follows.listed key isAsked
  · obtain ⟨q, alsoKnown, found⟩ := follows.holds.found
    obtain rfl : q = p := Option.some.inj (alsoKnown.symm.trans known)
    have ran := start_found board found outcome duty freq polarity
    rw [start_request rules done dutyInRange freqInRange valid follows.ordered] at ran
    exact ⟨_, _, ran, follows.put apart known ⟨dutyInRange, freqInRange⟩⟩

/-- A setting of a key in use is changed as its request is. -/
theorem setting_follows (follows : Follows board keys asked s entries) {key : String}
    {setting : Setting} (inUse : asked key ≠ none) (plain : setting.Plain) :
    ∃ t entries', setting.call board key s = some (.ok, t) ∧
      Follows board keys (Function.update asked key ((asked key).map setting.ask)) t entries' := by
  rcases follows.holds.lookup_cases key with
    ⟨lookup, absent⟩ | ⟨front, a, pwm, back, rfl, rfl, -⟩
  · obtain ⟨entry, member, same⟩ := follows.listed key inUse
    exact absurd same (absent entry member)
  · obtain ⟨p, known, found⟩ := follows.holds.found
    obtain ⟨r, isAsked, inRange, device⟩ := follows.device found known
    obtain ⟨acts, stays⟩ := act_request rules inRange plain
    have ran := setting_found board found setting
    rw [device, acts] at ran
    have changed : some (setting.ask r) = (asked pwm.key).map setting.ask := by
      rw [isAsked]
      rfl
    have after := follows.put apart known stays
    rw [changed] at after
    exact ⟨_, _, ran, after⟩

/-- A key that is disabled is off the list, if it was on it. -/
theorem disable_follows (follows : Follows board keys asked s entries) {writes : Nat → Bool}
    (succeeds : ∀ a, writes a = true) (key : String) :
    ∃ t entries', pwmDisable board writes (.text key) s = some (.ok, t) ∧
      Follows board keys (Function.update asked key none) t entries' := by
  rcases follows.holds.lookup_cases key with
    ⟨lookup, absent⟩ | ⟨front, a, pwm, back, rfl, rfl, -⟩
  · have unused : asked key = none := by
      by_contra inUse
      obtain ⟨entry, member, same⟩ := follows.listed key inUse
      exact absent entry member same
    have same : Function.update asked key none = asked := by
      rw [← unused, Function.update_eq_self]
    rw [same]
    exact ⟨s, entries, pwmDisable_absent board writes follows.holds absent, follows⟩
  · obtain ⟨p, known, found⟩ := follows.holds.found
    obtain ⟨⟨err, t⟩, ran, ⟨-, refused⟩ | ⟨rfl, holds, channels⟩⟩ :=
      pwmDisable_found board writes follows.holds found
    · rw [succeeds a, write_stop rules follows found known] at refused
      cases refused
    · exact ⟨t, _, ran, follows_drop apart follows holds known channels⟩

/-- A plain call does what it was asked to do. -/
theorem step_follows (follows : Follows board keys asked s entries) {call : Call}
    (plain : Plain asked call) (within : ∀ key ∈ call.key, key ∈ keys) :
    ∃ t entries', step board s call = some (.ok, t) ∧
      Follows board keys (ask asked call) t entries' := by
  cases call with
  | start outcome key duty freq polarity =>
      obtain ⟨⟨p, known, done⟩, dutyInRange, freqInRange, valid⟩ := plain
      exact start_follows rules apart follows known done dutyInRange freqInRange valid
        (within key rfl)
  | set key setting => exact setting_follows rules apart follows plain.1 plain.2
  | disable writes key => exact disable_follows rules apart follows plain key
  | cleanup rounds =>
      obtain ⟨t, ran, after⟩ := cleanup_follows rules apart follows plain.1 plain.2
      exact ⟨t, [], by rw [step, ran, Option.map_some], after⟩

theorem run_follows (follows : Follows board keys asked s entries) (calls : List Call)
    (plain : Machine.Each ask Plain asked calls) (within : ∀ call ∈ calls, ∀ key ∈ call.key, key ∈ keys) :
    ∃ t entries', run board calls s = some (calls.map fun _ => .ok, t) ∧
      Follows board keys (Machine.run ask asked calls) t entries' := by
  induction calls generalizing asked s entries with
  | nil => exact ⟨s, entries, rfl, follows⟩
  | cons call rest ih =>
      obtain ⟨plainCall, plainRest⟩ := plain
      obtain ⟨isKey, areKeys⟩ := List.forall_mem_cons.mp within
      obtain ⟨mid, between, ran, kept⟩ := step_follows rules apart follows plainCall isKey
      obtain ⟨t, entries', remaining, final⟩ := ih kept plainRest areKeys
      exact ⟨t, entries', by simp [run, ran, remaining], final⟩

end Steps

theorem Follows.initial {board : Board} {s : System} (initial : s.Initial) (keys : Set String)
    (ordered : ∀ channel, (s.channels channel).duty ≤ (s.channels channel).period) :
    Follows board keys (fun _ => none) s [] where
  holds := initial.holds
  within := by simp
  agree := by simp
  listed key isAsked := absurd rfl isAsked
  ordered := ordered

/-- The files of a key in use carry what was asked of it. -/
theorem Follows.file {board : Board} {keys : Set String} {asked : Asked} {s : System}
    {entries : List Entry} (follows : Follows board keys asked s entries) {key : String}
    {p : PwmT} {r : Request} (known : getPwmByKey key = some p) (isAsked : asked key = some r) :
    r.InRange ∧ s.channels p.channel = r.settings board := by
  obtain ⟨entry, member, rfl⟩ := follows.listed key (by simp [isAsked])
  obtain ⟨q, r', alsoKnown, alsoAsked, inRange, -, file⟩ := follows.agree entry member
  obtain rfl : q = p := Option.some.inj (alsoKnown.symm.trans known)
  obtain rfl : r' = r := Option.some.inj (alsoAsked.symm.trans isAsked)
  exact ⟨inRange, file⟩

theorem plainBoard_rules : plainBoard.Rules where
  accepts before after positive fits still := by
    have ordered : decide (0 < after.period) = true ∧ decide (after.duty ≤ after.period) = true :=
      ⟨decide_eq_true positive, decide_eq_true fits⟩
    cases running : before.enabled with
    | false => simp [plainBoard, ordered, running]
    | true => simp [plainBoard, ordered, running, still running]

theorem smoothStart_done (p : PwmT) : smoothStart.Done p where
  setup := by
    refine ⟨by decide +kernel, ?_, rfl, rfl, rfl, rfl, rfl⟩
    simp [locate, smoothStart, buildPath, exportIfNeeded, findPwmPath]
  readPeriod := rfl
  readDuty := rfl
  frequency := ⟨rfl, rfl⟩
  dutyCycle := rfl
  polarity := ⟨rfl, rfl, rfl, rfl⟩
  enable := rfl

theorem Apart.mono {keys keys' : Set String} (apart : Apart keys) (subset : keys' ⊆ keys) :
    Apart keys' :=
  fun key isKey other isOther => apart key (subset isKey) other (subset isOther)

/-- The control pins of the two servos stand for different channels. -/
theorem apart_servos : Apart {key | key = "P9_16" ∨ key = "P8_13"} := by
  have first : getPwmByKey "P9_16" = some ⟨"ehrpwm1", 1, "48302000", "48302200", "P9_16"⟩ := by
    decide +kernel
  have second : getPwmByKey "P8_13" = some ⟨"ehrpwm2", 1, "48304000", "48304200", "P8_13"⟩ := by
    decide +kernel
  have differ : ∀ p q, getPwmByKey "P9_16" = some p → getPwmByKey "P8_13" = some q →
      p.channel ≠ q.channel := by
    intro p q known alsoKnown
    rw [first, Option.some.injEq] at known
    rw [second, Option.some.injEq] at alsoKnown
    subst known alsoKnown
    decide
  intro key isKey other isOther p q known alsoKnown same
  rcases isKey with rfl | rfl
  · rcases isOther with rfl | rfl
    · rfl
    · exact absurd same (differ p q known alsoKnown)
  · rcases isOther with rfl | rfl
    · exact absurd same.symm (differ q p alsoKnown known)
    · rfl

/-- A channel is started, set to a duty cycle that rounds down, and cleaned up. -/
def startSet : List Call := [.start smoothStart "P9_16" 7.5 50 0, .set "P9_16" (.dutyCycle true 41)]

end ProjectOwl.Beagle.Pwm
