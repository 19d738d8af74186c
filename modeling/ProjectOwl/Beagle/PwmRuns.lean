import ProjectOwl.Beagle.PwmLedger

/-! # Runs of the PWM driver

Any calls of the driver with any keys and arguments, in any order and however
their system calls fail.  `pwm_cleanup` passes the key in the cell that is freed,
so it reads freed memory where a second channel is listed; no other call does, and
between calls no cell and no descriptor is lost. -/

set_option autoImplicit false

namespace ProjectOwl.Beagle.Pwm

/-! ## Cleaning up -/

section Cleanup
variable (board : Board) {s : System} {entries back : List Entry} {a : Nat} {pwm : PwmExp}

/-- The first channel of the list can be disabled. -/
def System.canDisable (s : System) (writes : Nat → Bool) : Bool :=
  match s.exportedPwms with
  | none => false
  | some a =>
      match s.memory.get? a with
      | none => false
      | some (pwm, _) => (write board (writes a) pwm.enableFd (.enable false) s).1

/-- The settings of a channel that is stopped, and of all the others. -/
def System.stopping (s : System) (channel : Channel) : Channel → Settings :=
  Function.update s.channels channel { s.channels channel with enabled := false }

/-- `pwm_disable` with the key in the first cell itself: once that cell is freed,
the key cannot be compared with that of the next one. -/
theorem pwmDisable_cell (holds : s.Holds ((a, pwm) :: back)) (writes : Nat → Bool) :
    (s.canDisable board writes = false ∧
      pwmDisable board writes (.cell a) s = some (.sysfs, s)) ∨
    (s.canDisable board writes = true ∧ back = [] ∧
      ∃ t, pwmDisable board writes (.cell a) s = some (.ok, t) ∧ t.Holds [] ∧
        ∀ p, getPwmByKey pwm.key = some p → t.channels = s.stopping p.channel) ∨
    (s.canDisable board writes = true ∧ back ≠ [] ∧
      pwmDisable board writes (.cell a) s = none) := by
  have first : s.Holds ([] ++ (a, pwm) :: back) := holds
  obtain ⟨next, read, -⟩ := first.list.split
  have head : s.exportedPwms = some a := holds.list.linked.1
  have length : s.memory.used.card = back.length + 1 := by
    rw [holds.list.card, List.length_cons]
  rw [pwmDisable, length, head, disableFrom]
  simp only [System.canDisable, head, read, KeyPointer.read, Option.bind_eq_bind,
    Option.bind_some, Option.map_some, if_true]
  obtain ⟨p, known, found⟩ := first.found
  rcases write_enable board found (writes a) false with failed | done
  · rw [failed]
    exact Or.inl ⟨rfl, rfl⟩
  · rw [done]
    simp only [Bool.not_true, Bool.false_eq_true, if_false, true_and, false_and, false_or,
      Bool.true_eq_false]
    have list := holds.list.dropHead read
    cases back with
    | nil =>
        have null : next = none := list.linked
        subst null
        rw [disableFrom_end]
        refine Or.inl ⟨rfl, _, rfl, first.dropped list rfl, fun q isKnown => ?_⟩
        obtain rfl : p = q := Option.some.inj (known.symm.trans isKnown)
        rfl
    | cons entry rest =>
        obtain ⟨b, other⟩ := entry
        obtain ⟨rfl, after, readNext, -⟩ := list.linked
        refine Or.inr ⟨List.cons_ne_nil _ _, ?_⟩
        rw [List.length_cons, disableFrom]
        simp only [free, close, System.setChannel, readNext, KeyPointer.read,
          Pool.get?_drop_self, Option.bind_eq_bind, Option.bind_some, Option.map_none,
          Option.bind_none]

theorem pwmCleanup_empty (empty : s.exportedPwms = none) (rounds : List (Nat → Bool)) :
    pwmCleanup board rounds s = some (true, s) := by
  cases rounds with
  | nil => simp [pwmCleanup, empty]
  | cons writes rest => simp [pwmCleanup, empty]

/-- What a clean-up that returned has done: the one channel there was is stopped. -/
structure Emptied (s t : System) (entries : List Entry) : Prop where
  holds : t.Holds []
  idle : entries = [] → t = s
  stopped : ∀ a pwm p, entries = [(a, pwm)] → getPwmByKey pwm.key = some p →
    t.channels = s.stopping p.channel

/-- Rounds in which the first channel cannot be disabled change nothing. -/
theorem pwmCleanup_cases (holds : s.Holds entries) (rounds : List (Nat → Bool)) :
    (pwmCleanup board rounds s = none ↔
      2 ≤ entries.length ∧ ∃ writes ∈ rounds, s.canDisable board writes = true) ∧
    ((∃ t, pwmCleanup board rounds s = some (true, t)) ↔
      entries = [] ∨ (entries.length = 1 ∧ ∃ writes ∈ rounds, s.canDisable board writes = true)) ∧
    (∀ t, pwmCleanup board rounds s = some (true, t) → Emptied s t entries) ∧
    ∀ t, pwmCleanup board rounds s = some (false, t) → t = s := by
  cases entries with
  | nil =>
      rw [pwmCleanup_empty board holds.list.linked]
      refine ⟨by simp, by simp, ?_, by simp⟩
      intro t same
      obtain rfl : s = t := by simpa using same
      exact ⟨holds, fun _ => rfl, fun a pwm p one => by cases one⟩
  | cons entry back =>
      obtain ⟨a, pwm⟩ := entry
      have head : s.exportedPwms = some a := holds.list.linked.1
      induction rounds with
      | nil => simp [pwmCleanup, head]
      | cons writes rest ih =>
          have round : pwmCleanup board (writes :: rest) s =
              (pwmDisable board writes (.cell a) s).bind fun result =>
                pwmCleanup board rest result.2 := by
            conv_lhs => unfold pwmCleanup
            rw [head]
            rfl
          rw [round]
          rcases pwmDisable_cell board holds writes with
            ⟨cannot, ran⟩ | ⟨can, rfl, t, ran, after, channels⟩ | ⟨can, more, ran⟩
          · rw [ran, Option.bind_some]
            simpa [cannot] using ih
          · rw [ran, Option.bind_some, pwmCleanup_empty board after.list.linked]
            refine ⟨by simp, by simp [can], ?_, by simp⟩
            intro u same
            obtain rfl : t = u := by simpa using same
            refine ⟨after, fun none => (List.cons_ne_nil _ _ none).elim, fun b other p one => ?_⟩
            obtain ⟨rfl, rfl⟩ : a = b ∧ pwm = other := by simpa using one
            exact channels p
          · have positive := List.length_pos_iff.mpr more
            have two : 1 ≤ back.length := positive
            rw [ran, Option.bind_none]
            refine ⟨by simp [can, two], ?_, by simp, by simp⟩
            simp [more]

end Cleanup

/-! ## Runs -/

/-- A call that changes one setting of a channel. -/
inductive Setting where
  | frequency (outcome : FrequencyOutcome) (freq : Dbl)
  | dutyCycle (succeeds : Bool) (duty : Dbl)
  | polarity (outcome : PolarityOutcome) (value : Int)

inductive Call where
  | start (outcome : StartOutcome) (key : String) (duty freq : Dbl) (polarity : Int)
  | set (key : String) (setting : Setting)
  | disable (writes : Nat → Bool) (key : String)
  | cleanup (rounds : List (Nat → Bool))

section Runs
variable (board : Board)

def Setting.call (key : String) (s : System) : Setting → Option (BbioErr × System)
  | .frequency outcome freq => pwmSetFrequency board outcome key freq s
  | .dutyCycle succeeds duty => pwmSetDutyCycle board succeeds key duty s
  | .polarity outcome value => pwmSetPolarity board outcome key value s

def Setting.act (d : Device) : Setting → BbioErr × Device
  | .frequency outcome freq => d.setFrequency board outcome freq
  | .dutyCycle succeeds duty => d.setDutyCycle board succeeds duty
  | .polarity outcome value => d.setPolarity board outcome value

/-- `pwm_cleanup` returns nothing, and one that is still going has changed nothing. -/
def step (s : System) : Call → Option (BbioErr × System)
  | .start outcome key duty freq polarity => pwmStart board outcome key duty freq polarity s
  | .set key setting => setting.call board key s
  | .disable writes key => pwmDisable board writes (.text key) s
  | .cleanup rounds => (pwmCleanup board rounds s).map fun result => (.ok, result.2)

/-- The results of a run of calls, and the state they leave. -/
def run : List Call → System → Option (List BbioErr × System)
  | [], s => some ([], s)
  | call :: rest, s => do
      let (err, s) ← step board s call
      let (errs, s) ← run rest s
      return (err :: errs, s)

end Runs

/-- Before any call of the driver. -/
structure System.Initial (s : System) : Prop where
  exported : s.exportedPwms = none
  memory : s.memory.used = ∅
  files : s.files.used = ∅

theorem System.Initial.holds {s : System} (initial : s.Initial) : s.Holds [] where
  list := by
    rw [initial.exported]
    exact Chain.owns_empty s.memory initial.memory
  keys := List.nodup_nil
  known entry member := absurd member List.not_mem_nil
  files := initial.files
  apart := List.nodup_nil

/-- A conversion that takes what is out of range to the nearest bound. -/
def saturate : Dbl → Nat
  | .nan => 0
  | .inf negative => if negative then 0 else ULONG_MAX
  | .fin q => min q.floor.toNat ULONG_MAX

theorem saturate_floor {q : ℚ} (least : 0 ≤ q) (most : q ≤ ULONG_MAX) :
    (saturate (.fin q) : Int) = q.floor := by
  have below : q.floor ≤ ULONG_MAX := by
    have bound : (q.floor : ℚ) ≤ ((ULONG_MAX : ℤ) : ℚ) := (Rat.floor_le q).trans (by exact_mod_cast most)
    exact_mod_cast bound
  have positive : (0 : ℤ) ≤ q.floor := Rat.le_floor_iff.mpr (by exact_mod_cast least)
  rw [saturate]
  omega

def plainBoard : Board where
  ulong := saturate
  ulong_le x := by
    cases x with
    | nan => exact Nat.zero_le _
    | inf negative => cases negative <;> simp [saturate]
    | fin q => exact Nat.min_le_right _ _
  ulong_floor _ least most := saturate_floor least most
  malloc := .above
  descriptor := .above
  accepts before after :=
    decide (0 < after.period) && decide (after.duty ≤ after.period) &&
      (!before.enabled || before.inversed == after.inversed)

def stopped : System where
  exportedPwms := none
  memory := ⟨∅, fun _ => (⟨"", 0, 0, 0, 0, 0, 0, 0⟩, none)⟩
  files := ⟨∅, fun _ => (⟨"", 0⟩, .period)⟩
  channels := fun _ => ⟨0, 0, false, false⟩
  pinModes := fun _ => none

theorem stopped_initial : stopped.Initial := ⟨rfl, rfl, rfl⟩

/-- Every system call succeeds. -/
def smoothStart : StartOutcome where
  setup := ⟨⟨1, 0, 0, fun _ => 0⟩, true, .matched, .matched, .matched, .directory, true, .directory,
    .missing, .missing, true, true, true, true, true, (.nan, 0, 0)⟩
  readPeriod := true
  readDuty := true
  frequency := ⟨true, true⟩
  dutyCycle := true
  polarity := ⟨true, false, true, true, true⟩
  enable := true

/-! ## What a call does -/

section Steps
variable (board : Board) {s : System} {entries front back : List Entry} {a : Nat} {pwm : PwmExp}
  {p : PwmT} {key : String}

theorem setting_found (found : s.Found a pwm p) (setting : Setting) :
    setting.call board pwm.key s =
      s.giving a p.channel (setting.act board (s.device a p.channel)) := by
  have same : s.put a p.channel (s.device a p.channel) = s := put_self
  cases setting with
  | frequency outcome freq =>
      have act := setFrequency_put board found (s.device a p.channel) outcome freq
      rw [same] at act
      exact act
  | dutyCycle succeeds duty =>
      have act := setDutyCycle_put board found (s.device a p.channel) succeeds duty
      rw [same] at act
      exact act
  | polarity outcome value =>
      have act := setPolarity_put board found (s.device a p.channel) outcome value
      rw [same] at act
      exact act

/-- A key that is not on the list is refused before anything is done. -/
theorem setting_absent (absent : lookupExportedPwm key s = some none) (setting : Setting) :
    ∃ err, err ≠ .ok ∧ setting.call board key s = some (err, s) := by
  cases setting with
  | frequency outcome freq =>
      by_cases negative : notPositive freq = true
      · exact ⟨.invarg, by decide, by simp [Setting.call, pwmSetFrequency, negative]⟩
      · exact ⟨.gen, by decide, by simp [Setting.call, pwmSetFrequency, negative, absent]⟩
  | dutyCycle succeeds duty =>
      by_cases outside : duty < 0 ∨ 100 < duty
      · exact ⟨.invarg, by decide, by simp [Setting.call, pwmSetDutyCycle, outside]⟩
      · exact ⟨.gen, by decide, by simp [Setting.call, pwmSetDutyCycle, outside, absent]⟩
  | polarity outcome value =>
      exact ⟨.gen, by decide, by simp [Setting.call, pwmSetPolarity, absent]⟩

theorem start_found (found : s.Found a pwm p) (outcome : StartOutcome) (duty freq : Dbl)
    (polarity : Int) :
    pwmStart board outcome pwm.key duty freq polarity s =
      s.giving a p.channel ((s.device a p.channel).start board outcome duty freq polarity) := by
  have lookup := found.lookup (s.device a p.channel)
  have act := startExported_put board found (s.device a p.channel) outcome duty freq
    polarity
  rw [put_self] at lookup act
  simp only [pwmStart, lookup, Option.bind_eq_bind, Option.bind_some]
  exact act

/-- `pwm_start` of a key that is not on the list: setting it up fails, or the
channel is started in the state that is left. -/
theorem start_absent (holds : s.Holds entries) (lookup : lookupExportedPwm key s = some none)
    (absent : ∀ entry ∈ entries, entry.2.key ≠ key) (outcome : StartOutcome) (duty freq : Dbl)
    (polarity : Int) :
    ∃ result, pwmSetup board outcome.setup key s = some result ∧ result.2.channels = s.channels ∧
      ((result.1 ≠ .ok ∧ result.2.Holds entries ∧
        pwmStart board outcome key duty freq polarity s = some result) ∨
      (result.1 = .ok ∧ ∃ a pwm p, pwm.key = key ∧ getPwmByKey key = some p ∧
        result.2.Holds (entries ++ [(a, pwm)]) ∧ result.2.Found a pwm p ∧
        pwmStart board outcome key duty freq polarity s = result.2.giving a p.channel
          ((result.2.device a p.channel).start board outcome duty freq polarity))) := by
  obtain ⟨⟨err, t⟩, setup, channels, grown⟩ := pwmSetup_grown board holds absent outcome.setup
  refine ⟨(err, t), setup, channels, ?_⟩
  rcases grown with ⟨failed, same⟩ | ⟨ok, a, pwm, rfl, after⟩
  · refine Or.inl ⟨failed, same, ?_⟩
    simp only [pwmStart, lookup, setup, Option.bind_eq_bind, Option.bind_some]
    exact if_pos failed
  · obtain ⟨p, known, found⟩ := after.found
    refine Or.inr ⟨ok, a, pwm, p, rfl, known, after, found, ?_⟩
    have again := found.lookup (t.device a p.channel)
    have act := startExported_put board found (t.device a p.channel) outcome duty freq
      polarity
    rw [put_self] at again act
    have ok : err = .ok := ok
    simp only [pwmStart, lookup, setup, Option.bind_eq_bind, Option.bind_some, ok, again]
    exact act

/-- A clean-up with two channels or more on the list that can disable the first. -/
def Call.ReadsFreed (s : System) (entries : List Entry) : Call → Prop
  | .cleanup rounds => 2 ≤ entries.length ∧ ∃ writes ∈ rounds, s.canDisable board writes = true
  | _ => False

theorem step_of_some {call : Call} {result : BbioErr × System} {entries' : List Entry}
    (other : ¬call.ReadsFreed board s entries) (ran : step board s call = some result)
    (kept : result.2.Holds entries') :
    (step board s call = none ↔ call.ReadsFreed board s entries) ∧
      ∀ result, step board s call = some result → ∃ entries', result.2.Holds entries' := by
  rw [ran]
  refine ⟨iff_of_false (Option.some_ne_none _) other, fun result same => ?_⟩
  obtain rfl := Option.some.inj same
  exact ⟨entries', kept⟩

/-- Every call keeps what holds of the list, for some list of cells, unless it
reads a freed one. -/
theorem step_holds (holds : s.Holds entries) (call : Call) :
    (step board s call = none ↔ call.ReadsFreed board s entries) ∧
      ∀ result, step board s call = some result → ∃ entries', result.2.Holds entries' := by
  cases call with
  | start outcome key duty freq polarity =>
      rcases holds.lookup_cases key with ⟨lookup, absent⟩ | ⟨front, a, pwm, back, rfl, rfl, -⟩
      · obtain ⟨result, -, -, ⟨-, same, ran⟩ | ⟨-, a, pwm, p, -, -, after, -, ran⟩⟩ :=
          start_absent board holds lookup absent outcome duty freq polarity
        · exact step_of_some board id ran same
        · exact step_of_some board id ran (after.put p.channel _)
      · obtain ⟨p, -, found⟩ := holds.found
        have ran := start_found board found outcome duty freq polarity
        exact step_of_some board id ran (holds.put p.channel _)
  | set key setting =>
      rcases holds.lookup_cases key with ⟨lookup, -⟩ | ⟨front, a, pwm, back, rfl, rfl, -⟩
      · obtain ⟨err, -, ran⟩ := setting_absent board lookup setting
        exact step_of_some board id ran holds
      · obtain ⟨p, -, found⟩ := holds.found
        exact step_of_some board id (setting_found board found setting) (holds.put p.channel _)
  | disable writes key =>
      rcases holds.lookup_cases key with ⟨-, absent⟩ | ⟨front, a, pwm, back, rfl, rfl, -⟩
      · exact step_of_some board id (pwmDisable_absent board writes holds absent) holds
      · obtain ⟨p, -, found⟩ := holds.found
        obtain ⟨result, ran, ⟨rfl, -⟩ | ⟨-, after, -⟩⟩ := pwmDisable_found board writes holds found
        · exact step_of_some board id ran holds
        · exact step_of_some board id ran after
  | cleanup rounds =>
      obtain ⟨reads, -, returned, cut⟩ := pwmCleanup_cases board holds rounds
      refine ⟨Option.map_eq_none_iff.trans reads, fun result ran => ?_⟩
      obtain ⟨⟨done, t⟩, cleaned, rfl⟩ := Option.map_eq_some_iff.mp ran
      cases done with
      | true => exact ⟨[], (returned t cleaned).holds⟩
      | false => exact ⟨entries, cut t cleaned ▸ holds⟩

theorem run_cons (call : Call) (rest : List Call) (s : System) :
    run board (call :: rest) s = (step board s call).bind fun result =>
      (run board rest result.2).map fun later => (result.1 :: later.1, later.2) := by
  rw [run]
  cases step board s call with
  | none => rfl
  | some result =>
      simp only [Option.bind_eq_bind, Option.bind_some]
      cases run board rest result.2 with
      | none => rfl
      | some later => rfl

theorem run_holds (holds : s.Holds entries) {calls : List Call} {errs : List BbioErr} {t : System}
    (ran : run board calls s = some (errs, t)) : ∃ entries', t.Holds entries' := by
  induction calls generalizing s entries errs with
  | nil =>
      obtain ⟨-, rfl⟩ : [] = errs ∧ s = t := by simpa [run] using ran
      exact ⟨entries, holds⟩
  | cons call rest ih =>
      rw [run_cons] at ran
      obtain ⟨result, first, others⟩ := Option.bind_eq_some_iff.mp ran
      obtain ⟨⟨later, u⟩, remaining, same⟩ := Option.map_eq_some_iff.mp others
      obtain ⟨-, rfl⟩ := Prod.mk.inj same
      obtain ⟨entries', kept⟩ := (step_holds board holds call).2 result first
      exact ih kept remaining

/-- A run gets to a clean-up that reads a freed cell. -/
def ReadsFreed (calls : List Call) (s : System) : Prop :=
  ∃ before call after errs t entries, calls = before ++ call :: after ∧
    run board before s = some (errs, t) ∧ t.Holds entries ∧ call.ReadsFreed board t entries

theorem ReadsFreed.of_cons {call : Call} {rest : List Call} {result : BbioErr × System}
    (ran : step board s call = some result) (reads : ReadsFreed board rest result.2) :
    ReadsFreed board (call :: rest) s := by
  obtain ⟨before, last, after, errs, t, entries, rfl, reached, holds, frees⟩ := reads
  refine ⟨call :: before, last, after, result.1 :: errs, t, entries, rfl, ?_, holds, frees⟩
  rw [run_cons, ran, Option.bind_some, reached, Option.map_some]

/-- A run has a result unless it reads a freed cell. -/
theorem run_eq_none_iff (holds : s.Holds entries) (calls : List Call) :
    run board calls s = none ↔ ReadsFreed board calls s := by
  induction calls generalizing s entries with
  | nil =>
      constructor
      · intro none
        cases none
      · rintro ⟨before, call, after, -, -, -, split, -⟩
        exact (List.append_ne_nil_of_right_ne_nil before (List.cons_ne_nil call after) split.symm).elim
  | cons call rest ih =>
      obtain ⟨stops, kept⟩ := step_holds board holds call
      rw [run_cons]
      cases ran : step board s call with
      | none =>
          have reads := stops.mp ran
          refine ⟨fun _ => ?_, fun _ => rfl⟩
          exact ⟨[], call, rest, [], s, entries, rfl, rfl, holds, reads⟩
      | some result =>
          obtain ⟨entries', after⟩ := kept result ran
          rw [Option.bind_some, Option.map_eq_none_iff, ih after]
          refine ⟨ReadsFreed.of_cons board ran, ?_⟩
          rintro ⟨before, last, later, errs, t, others, split, reached, known, frees⟩
          cases before with
          | nil =>
              obtain ⟨rfl, rfl⟩ := List.cons.inj split
              obtain ⟨-, rfl⟩ : [] = errs ∧ s = t := by simpa [run] using reached
              have same : others.length = entries.length := known.list.card.symm.trans holds.list.card
              have stopped : step board s call = none := by
                refine stops.mpr ?_
                cases call with
                | cleanup rounds => exact ⟨same ▸ frees.1, frees.2⟩
                | start _ _ _ _ _ => exact frees
                | set _ _ => exact frees
                | disable _ _ => exact frees
              rw [stopped] at ran
              cases ran
          | cons first before =>
              obtain ⟨rfl, rfl⟩ := List.cons.inj split
              rw [run_cons, ran, Option.bind_some] at reached
              obtain ⟨⟨errs', u⟩, earlier, pair⟩ := Option.map_eq_some_iff.mp reached
              obtain ⟨-, rfl⟩ := Prod.mk.inj pair
              exact ⟨before, last, later, errs', u, others, rfl, earlier, known, frees⟩

/-- The keys on the list are keys of the table, each at most once. -/
theorem System.Holds.length_le (holds : s.Holds entries) : entries.length ≤ pwmTable.length := by
  have known : (entries.map fun entry => entry.2.key) ⊆ pwmTable.map PwmT.key := by
    intro key member
    obtain ⟨entry, isEntry, rfl⟩ := List.mem_map.mp member
    obtain ⟨p, known, -⟩ := holds.known entry isEntry
    have same : p.key = entry.2.key := by simpa using List.find?_some known
    exact same ▸ List.mem_map_of_mem (List.mem_of_find?_eq_some known)
  have fewer := (holds.keys.subperm known).length_le
  simpa using fewer

theorem System.Holds.open_files (holds : s.Holds entries) :
    s.files.used.card = 4 * entries.length := by
  rw [holds.files, List.toFinset_card_of_nodup holds.apart, descriptors, List.length_flatMap]
  simp [PwmExp.descriptors, Nat.mul_comm]

/-- Two channels are started. -/
def twoStarts : List Call :=
  [.start smoothStart "P9_16" 7.5 50 0, .start smoothStart "P8_13" 7.5 50 0]

theorem twoStarts_run : ∃ t, run plainBoard twoStarts stopped = some ([.ok, .ok], t) ∧
    t.memory.used.card = 2 ∧ t.canDisable plainBoard (fun _ => true) = true := by
  have seen : (run plainBoard twoStarts stopped).map (fun result =>
      (result.1, result.2.memory.used.card, result.2.canDisable plainBoard fun _ => true)) =
        some ([.ok, .ok], 2, true) := by
    decide +kernel
  obtain ⟨⟨errs, t⟩, ran, same⟩ := Option.map_eq_some_iff.mp seen
  obtain ⟨rfl, pair⟩ := Prod.mk.inj same
  exact ⟨t, ran, (Prod.mk.inj pair).1, (Prod.mk.inj pair).2⟩

end Steps

end ProjectOwl.Beagle.Pwm
