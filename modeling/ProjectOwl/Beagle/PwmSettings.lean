import ProjectOwl.Beagle.PwmNumbers
import ProjectOwl.Beagle.PwmRuns

/-! # What the PWM files hold

After any run, with failures anywhere in it, a `pwm_start` that reports success
has put the settings asked for into the files of the channel, and into no other.
Changing the frequency is less sure: a call that failed has already changed the
driver's copy of the period, and the same call made again finds nothing to do. -/

set_option autoImplicit false

namespace ProjectOwl.Beagle.Pwm

/-! ## Starting a channel -/

section Start
variable (board : Board) {s : System} {entries : List Entry} {a : Nat} {pwm : PwmExp} {p : PwmT}
  {key : String} {duty freq : Dbl} {polarity : Int}

/-- The settings that a start asks for. -/
def startSettings (duty freq : Dbl) (polarity : Int) : Settings :=
  ⟨periodNsOf board freq, dutyNsOf board (periodNsOf board freq) duty, decide (polarity = 1), true⟩

theorem giving_start_ok {outcome : StartOutcome} {u : System}
    (ok : s.giving a p.channel ((s.device a p.channel).start board outcome duty freq polarity) =
      some (.ok, u)) :
    (polarity = 0 ∨ polarity = 1) ∧ notPositive freq = false ∧ ¬(duty < 0 ∨ 100 < duty) ∧
      u.channels = Function.update s.channels p.channel
        (startSettings board duty freq polarity) := by
  obtain ⟨isOk, rfl⟩ := Prod.mk.inj (Option.some.inj ok)
  obtain ⟨valid, positive, inside, done⟩ := Device.start_ok (Prod.ext isOk rfl)
  exact ⟨valid, positive, inside, congrArg (fun d => (s.put a p.channel d).channels) done⟩

theorem start_settles_of_holds (holds : s.Holds entries) {outcome : StartOutcome} {u : System}
    (ok : pwmStart board outcome key duty freq polarity s = some (.ok, u)) :
    ∃ p, getPwmByKey key = some p ∧ (polarity = 0 ∨ polarity = 1) ∧ notPositive freq = false ∧
      ¬(duty < 0 ∨ 100 < duty) ∧ u.channels = Function.update s.channels p.channel
        (startSettings board duty freq polarity) := by
  rcases holds.lookup_cases key with ⟨lookup, absent⟩ | ⟨front, a, pwm, back, rfl, rfl, -⟩
  · obtain ⟨result, -, channels, ⟨failed, -, ran⟩ | ⟨-, a, pwm, p, -, known, -, -, ran⟩⟩ :=
      start_absent board holds lookup absent outcome duty freq polarity
    · rw [ran, Option.some.injEq] at ok
      exact absurd (congrArg Prod.fst ok) failed
    · rw [ran] at ok
      have settled := giving_start_ok board ok
      rw [channels] at settled
      exact ⟨p, known, settled⟩
  · obtain ⟨p, known, found⟩ := holds.found
    rw [start_found board found] at ok
    exact ⟨p, known, giving_start_ok board ok⟩

/-- What the rounding of a double loses is seen in the file. -/
example : startSettings plainBoard 41 50 0 = ⟨20000000, 8199999, false, true⟩ := by
  decide +kernel

end Start

/-! ## A frequency that could not be set -/

section Frequency
variable (board : Board) {s : System} {entries : List Entry} {key : String} {freq : Dbl}

/-- The cell of a key has a period in it. -/
def System.Remembers (s : System) (key : String) (periodNs : Nat) : Prop :=
  ∃ entries, s.Holds entries ∧ ∃ entry ∈ entries, entry.2.key = key ∧ entry.2.periodNs = periodNs

/-- Neither a start nor a disabling of the key, a clean-up included, nor a change to
another period. -/
def Call.Keeps (key : String) (periodNs : Nat) : Call → Prop
  | .start _ other _ _ _ => other ≠ key
  | .set other (.frequency _ freq) => other = key → periodNsOf board freq = periodNs
  | .set _ _ => True
  | .disable _ other => other ≠ key
  | .cleanup _ => False

/-- A frequency whose period is in the cell changes nothing. -/
theorem frequency_remembered (remembers : s.Remembers key (periodNsOf board freq))
    (positive : notPositive freq = false) (outcome : FrequencyOutcome) :
    pwmSetFrequency board outcome key freq s = some (.ok, s) := by
  obtain ⟨entries, holds, ⟨a, pwm⟩, member, rfl, period⟩ := remembers
  obtain ⟨front, back, rfl⟩ := List.append_of_mem member
  obtain ⟨p, -, found⟩ := holds.found
  have call := setting_found board found (.frequency outcome freq)
  have cached : (s.device a p.channel).cache.periodNs = periodNsOf board freq := by
    rw [← period, ← found.stored]
    rfl
  have same : (s.device a p.channel).setFrequency board outcome freq =
      (.ok, s.device a p.channel) := by
    simp [Device.setFrequency, positive, cached]
  simp only [Setting.call, Setting.act, same, System.giving, put_self] at call
  exact call

theorem write_failed {succeeds : Bool} {attr : Attribute} {text : Written} {d : Device}
    (failed : (d.write board succeeds attr text).1 = false) :
    (d.write board succeeds attr text).2 = d := by
  rcases Device.write_cases board succeeds attr text d with same | ⟨after, -, wrote⟩
  · rw [same]
  · rw [wrote] at failed
    cases failed

theorem checked_sysfs {wrote : Bool × Device} {rest : Device → BbioErr × Device} {d' : Device}
    (failed : Device.checked wrote rest = (.sysfs, d')) :
    (wrote.1 = false ∧ wrote.2 = d') ∨ (wrote.1 = true ∧ rest wrote.2 = (.sysfs, d')) := by
  unfold Device.checked at failed
  cases went : wrote.1 with
  | false => exact Or.inl ⟨rfl, by simpa [went] using failed⟩
  | true => exact Or.inr ⟨rfl, by simpa [went] using failed⟩

/-- Two writes after each other, one of which failed. -/
theorem checked_checked_sysfs {first second : Bool} {attr attr' : Attribute} {text text' : Written}
    {f : Cache → Cache} {d d' : Device}
    (failed : Device.checked (d.write board first attr text) (fun d =>
      Device.checked (Device.write board second attr' text' { d with cache := f d.cache })
        fun d => (.ok, d)) = (.sysfs, d')) :
    d' = d ∨ ∃ after, d.file.put attr text = some after ∧ d' = ⟨f d.cache, after⟩ := by
  rcases checked_sysfs failed with ⟨went, same⟩ | ⟨went, next⟩
  · exact Or.inl (same.symm.trans (write_failed board went))
  · rcases checked_sysfs next with ⟨went', same⟩ | ⟨-, absurdity⟩
    · rcases Device.write_cases board first attr text d with not | ⟨after, put, wrote⟩
      · rw [not] at went
        cases went
      · refine Or.inr ⟨after, put, ?_⟩
        rw [← same, write_failed board went', wrote]
    · simp at absurdity

/-- A change of frequency that failed is remembered all the same, and one of the
two files has not been written. -/
theorem setFrequency_sysfs {outcome : FrequencyOutcome} {d d' : Device}
    (failed : d.setFrequency board outcome freq = (.sysfs, d')) :
    notPositive freq = false ∧ d'.cache.periodNs = periodNsOf board freq ∧
      (d'.file.period = d.file.period ∨ d'.file.duty = d.file.duty) := by
  unfold Device.setFrequency at failed
  by_cases negative : notPositive freq = true
  · rw [if_pos negative] at failed
    simp at failed
  · rw [if_neg negative] at failed
    refine ⟨by simpa using negative, ?_⟩
    by_cases shorter : periodNsOf board freq < d.cache.periodNs
    · simp only [if_pos shorter] at failed
      rcases checked_checked_sysfs board (f := id) failed with rfl | ⟨after, put, rfl⟩
      · exact ⟨rfl, Or.inl rfl⟩
      · obtain rfl := Option.some.inj put
        exact ⟨rfl, Or.inl rfl⟩
    · by_cases longer : d.cache.periodNs < periodNsOf board freq
      · simp only [if_neg shorter, if_pos longer] at failed
        rcases checked_checked_sysfs board (f := fun cache => { cache with
          dutyNs := dutyNsOf board (periodNsOf board freq) d.cache.duty }) failed with
          rfl | ⟨after, put, rfl⟩
        · exact ⟨rfl, Or.inl rfl⟩
        · obtain rfl := Option.some.inj put
          exact ⟨rfl, Or.inr rfl⟩
      · simp [if_neg shorter, if_neg longer] at failed

/-! ## The calls after it -/

section Later
variable {front back : List Entry} {a : Nat} {pwm : PwmExp} {p : PwmT} {periodNs : Nat}

theorem System.Holds.remembers (holds : s.Holds entries) {entry : Entry} (member : entry ∈ entries) :
    s.Remembers entry.2.key entry.2.periodNs :=
  ⟨entries, holds, entry, member, rfl, rfl⟩

/-- Work on one cell keeps the periods in the others. -/
theorem put_remembers (holds : s.Holds (front ++ (a, pwm) :: back)) (channel : Channel) (d : Device)
    {entry : Entry} (member : entry ∈ front ++ (a, pwm) :: back)
    (kept : entry.2.key = pwm.key → d.cache.periodNs = entry.2.periodNs) :
    (s.put a channel d).Remembers entry.2.key entry.2.periodNs := by
  have after := holds.put channel d
  rcases List.mem_append.mp member with before | rest
  · exact after.remembers (List.mem_append_left _ before)
  · rcases List.mem_cons.mp rest with rfl | rest
    · exact ⟨_, after, (a, pwm.withCache d.cache), by simp, rfl, kept rfl⟩
    · exact after.remembers (List.mem_append_right _ (List.mem_cons_of_mem _ rest))

theorem write_cache (succeeds : Bool) (attr : Attribute) (text : Written) (d : Device) :
    (d.write board succeeds attr text).2.cache = d.cache := by
  rcases Device.write_cases board succeeds attr text d with same | ⟨after, -, wrote⟩
  · rw [same]
  · rw [wrote]

theorem writeIf_cache (wanted succeeds : Bool) (attr : Attribute) (text : Written) (d : Device) :
    (d.writeIf board wanted succeeds attr text).2.cache = d.cache := by
  cases wanted with
  | false => rfl
  | true => exact write_cache board succeeds attr text d

theorem checked_cache {wrote : Bool × Device} {rest : Device → BbioErr × Device} {cache : Cache}
    (first : wrote.2.cache = cache) (kept : (rest wrote.2).2.cache = wrote.2.cache) :
    (Device.checked wrote rest).2.cache = cache := by
  unfold Device.checked
  split
  · exact first
  · exact kept.trans first

theorem setPolarity_cache (outcome : PolarityOutcome) (polarity : Int) (d : Device) :
    (d.setPolarity board outcome polarity).2.cache = d.cache := by
  unfold Device.setPolarity
  split
  · rfl
  · refine checked_cache (writeIf_cache board ..) ?_
    split
    · rfl
    · refine checked_cache (write_cache board ..) ?_
      exact checked_cache (writeIf_cache board ..) rfl

/-- Only another frequency changes the period in the cell. -/
theorem act_periodNs (setting : Setting) (d : Device)
    (keeps : ∀ outcome freq, setting = .frequency outcome freq →
      periodNsOf board freq = d.cache.periodNs) :
    (setting.act board d).2.cache.periodNs = d.cache.periodNs := by
  cases setting with
  | frequency outcome freq =>
      have same := keeps outcome freq rfl
      simp only [Setting.act, Device.setFrequency, same, Nat.lt_irrefl, if_false]
      split <;> rfl
  | dutyCycle succeeds duty =>
      simp only [Setting.act, Device.setDutyCycle]
      split
      · rfl
      · exact (congrArg Cache.periodNs (checked_cache (write_cache board ..) rfl)).trans rfl
  | polarity outcome value =>
      exact congrArg Cache.periodNs (setPolarity_cache board outcome value d)

theorem step_remembers (remembers : s.Remembers key periodNs) {call : Call}
    (keeps : call.Keeps board key periodNs) :
    ∃ result, step board s call = some result ∧ result.2.Remembers key periodNs := by
  obtain ⟨entries, holds, entry, member, rfl, rfl⟩ := remembers
  cases call with
  | start outcome other duty freq polarity =>
      have differ : other ≠ entry.2.key := keeps
      rcases holds.lookup_cases other with ⟨lookup, absent⟩ | ⟨front, a, pwm, back, rfl, rfl, -⟩
      · obtain ⟨result, -, -, ⟨-, same, ran⟩ | ⟨-, a, pwm, p, named, -, after, -, ran⟩⟩ :=
          start_absent board holds lookup absent outcome duty freq polarity
        · exact ⟨result, ran, same.remembers member⟩
        · refine ⟨_, ran, put_remembers after p.channel _ (List.mem_append_left _ member) ?_⟩
          intro same
          exact absurd (named.symm.trans same.symm) differ
      · obtain ⟨p, -, found⟩ := holds.found
        refine ⟨_, start_found board found outcome duty freq polarity, ?_⟩
        exact put_remembers holds p.channel _ member fun same => absurd same.symm differ
  | set other setting =>
      rcases holds.lookup_cases other with ⟨lookup, -⟩ | ⟨front, a, pwm, back, rfl, rfl, -⟩
      · obtain ⟨err, -, ran⟩ := setting_absent board lookup setting
        exact ⟨_, ran, holds.remembers member⟩
      · obtain ⟨p, -, found⟩ := holds.found
        refine ⟨_, setting_found board found setting, put_remembers holds p.channel _ member ?_⟩
        intro same
        have one : entry = (a, pwm) :=
          List.inj_on_of_nodup_map holds.keys member (by simp) same
        subst one
        have cached : (s.device a p.channel).cache.periodNs = pwm.periodNs := by
          rw [← found.stored]
          rfl
        refine (act_periodNs board setting _ ?_).trans cached
        rintro outcome freq rfl
        exact (keeps rfl).trans cached.symm
  | disable writes other =>
      have differ : other ≠ entry.2.key := keeps
      rcases holds.lookup_cases other with ⟨-, absent⟩ | ⟨front, a, pwm, back, rfl, rfl, -⟩
      · exact ⟨_, pwmDisable_absent board writes holds absent, holds.remembers member⟩
      · obtain ⟨p, -, found⟩ := holds.found
        obtain ⟨result, ran, ⟨rfl, -⟩ | ⟨-, after, -⟩⟩ := pwmDisable_found board writes holds found
        · exact ⟨_, ran, holds.remembers member⟩
        · refine ⟨_, ran, after.remembers ?_⟩
          rcases List.mem_append.mp member with before | rest
          · exact List.mem_append_left _ before
          · rcases List.mem_cons.mp rest with rfl | rest
            · exact absurd rfl differ
            · exact List.mem_append_right _ rest
  | cleanup rounds => exact keeps.elim

theorem run_remembers (remembers : s.Remembers key periodNs) (calls : List Call)
    (keeps : ∀ call ∈ calls, call.Keeps board key periodNs) :
    ∃ errs t, run board calls s = some (errs, t) ∧ t.Remembers key periodNs := by
  induction calls generalizing s with
  | nil => exact ⟨[], s, rfl, remembers⟩
  | cons call rest ih =>
      obtain ⟨first, others⟩ := List.forall_mem_cons.mp keeps
      obtain ⟨⟨err, mid⟩, ran, kept⟩ := step_remembers board remembers first
      obtain ⟨errs, t, remaining, final⟩ := ih kept others
      exact ⟨err :: errs, t, by simp [run, ran, remaining], final⟩

/-- A change of frequency that failed is not made up for: until the key is started
again, disabled or given another period, the same call reports success and writes
nothing, although one of the two files of the channel was left as it was. -/
theorem frequency_sticks (initial : s.Initial) {calls : List Call} {errs : List BbioErr}
    {t : System} (ran : run board calls s = some (errs, t)) {outcome : FrequencyOutcome}
    {u : System} (failed : pwmSetFrequency board outcome key freq t = some (.sysfs, u)) :
    (∃ p, getPwmByKey key = some p ∧
      ((u.channels p.channel).period = (t.channels p.channel).period ∨
        (u.channels p.channel).duty = (t.channels p.channel).duty)) ∧
    ∀ later : List Call, (∀ call ∈ later, call.Keeps board key (periodNsOf board freq)) →
      ∃ errs v, run board later u = some (errs, v) ∧
        ∀ again, pwmSetFrequency board again key freq v = some (.ok, v) := by
  obtain ⟨entries, holds⟩ := run_holds board initial.holds ran
  rcases holds.lookup_cases key with ⟨lookup, -⟩ | ⟨front, a, pwm, back, rfl, rfl, -⟩
  · by_cases negative : notPositive freq = true
    · simp [pwmSetFrequency, negative] at failed
    · simp [pwmSetFrequency, negative, lookup] at failed
  · obtain ⟨p, known, found⟩ := holds.found
    have call := setting_found board found (.frequency outcome freq)
    simp only [Setting.call, Setting.act, failed, System.giving, Option.some.injEq,
      Prod.mk.injEq] at call
    obtain ⟨err, rfl⟩ := call
    obtain ⟨positive, period, file⟩ := setFrequency_sysfs board (Prod.ext err.symm rfl)
    refine ⟨⟨p, known, ?_⟩, fun later keeps => ?_⟩
    · rw [put_channel]
      exact file
    · have after := holds.put p.channel ((t.device a p.channel).setFrequency board outcome freq).2
      have remembers : System.Remembers _ pwm.key (periodNsOf board freq) :=
        ⟨_, after, (a, pwm.withCache _), by simp, rfl, period⟩
      obtain ⟨errs', v, ran', kept⟩ := run_remembers board remembers later keeps
      exact ⟨errs', v, ran', frequency_remembered board kept positive⟩

theorem frequency_sticks_example :
    ∃ t u, run plainBoard [.start smoothStart "P9_16" 7.5 50 0] stopped = some ([.ok], t) ∧
      pwmSetFrequency plainBoard ⟨true, false⟩ "P9_16" 100 t = some (.sysfs, u) ∧
      (∃ p, getPwmByKey "P9_16" = some p ∧
        ((u.channels p.channel).period = (t.channels p.channel).period ∨
          (u.channels p.channel).duty = (t.channels p.channel).duty)) ∧
      ∀ later : List Call,
        (∀ call ∈ later, call.Keeps plainBoard "P9_16" (periodNsOf plainBoard 100)) →
          ∃ errs v, run plainBoard later u = some (errs, v) ∧
            ∀ again, pwmSetFrequency plainBoard again "P9_16" 100 v = some (.ok, v) := by
  have both : ((run plainBoard [.start smoothStart "P9_16" 7.5 50 0] stopped).bind fun started =>
      (pwmSetFrequency plainBoard ⟨true, false⟩ "P9_16" 100 started.2).map fun set =>
        (started.1, set.1)) = some ([.ok], .sysfs) := by
    decide +kernel
  obtain ⟨⟨errs, t⟩, ran, next⟩ := Option.bind_eq_some_iff.mp both
  obtain ⟨⟨err, u⟩, failed, same⟩ := Option.map_eq_some_iff.mp next
  obtain ⟨rfl, rfl⟩ := Prod.mk.inj same
  exact ⟨t, u, ran, failed, frequency_sticks plainBoard stopped_initial ran failed⟩

end Later

end Frequency

end ProjectOwl.Beagle.Pwm
