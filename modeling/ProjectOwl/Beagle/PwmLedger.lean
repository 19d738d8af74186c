import ProjectOwl.Beagle.PwmDevice

/-! # The list of exported channels

What holds of the driver's list, its memory and its descriptors between any two
calls, whatever the calls and however they fail: every cell is on the list, the
keys are those of different channels of the table, and the open descriptors are
the four of each cell.  On such a list a call that finds its key is the function
of the one channel found. -/

set_option autoImplicit false

namespace ProjectOwl.Beagle.Pwm

def PwmExp.cache (pwm : PwmExp) : Cache := ⟨pwm.duty, pwm.dutyNs, pwm.periodNs⟩

def PwmExp.withCache (pwm : PwmExp) (cache : Cache) : PwmExp :=
  { pwm with duty := cache.duty, dutyNs := cache.dutyNs, periodNs := cache.periodNs }

def PwmExp.fd (pwm : PwmExp) : Attribute → Nat
  | .period => pwm.periodFd
  | .dutyCycle => pwm.dutyFd
  | .polarity => pwm.polarityFd
  | .enable => pwm.enableFd

def PwmExp.descriptors (pwm : PwmExp) : List Nat :=
  [pwm.periodFd, pwm.dutyFd, pwm.polarityFd, pwm.enableFd]

/-- A cell of the list. -/
abbrev Entry := Nat × PwmExp

def descriptors (entries : List Entry) : List Nat := entries.flatMap fun entry => entry.2.descriptors

structure System.Holds (s : System) (entries : List Entry) : Prop where
  list : Chain.Owns s.memory s.exportedPwms entries
  keys : (entries.map fun entry => entry.2.key).Nodup
  known : ∀ entry ∈ entries, ∃ p, getPwmByKey entry.2.key = some p ∧
    ∀ attr, s.files.get? (entry.2.fd attr) = some (p.channel, attr)
  files : s.files.used = (descriptors entries).toFinset
  apart : (descriptors entries).Nodup

/-! ## One cell and its channel -/

def System.device (s : System) (a : Nat) (channel : Channel) : Device :=
  ⟨(s.memory.contents a).1.cache, s.channels channel⟩

/-- The state with another cache in cell `a` and other settings of its channel. -/
def System.put (s : System) (a : Nat) (channel : Channel) (d : Device) : System :=
  { s with
    memory := s.memory.set a
      ((s.memory.contents a).1.withCache d.cache, (s.memory.contents a).2)
    channels := Function.update s.channels channel d.file }

/-- The driver finds the channel `p` in cell `a`, whatever the settings of it. -/
structure System.Found (s : System) (a : Nat) (pwm : PwmExp) (p : PwmT) : Prop where
  lookup : ∀ d, lookupExportedPwm pwm.key (s.put a p.channel d) = some (some a)
  inUse : a ∈ s.memory.used
  stored : (s.memory.contents a).1 = pwm
  file : ∀ attr, s.files.get? (pwm.fd attr) = some (p.channel, attr)

/-- A call that worked on the channel of cell `a` only. -/
def System.giving (s : System) (a : Nat) (channel : Channel) (given : BbioErr × Device) :
    Option (BbioErr × System) :=
  some (given.1, s.put a channel given.2)

theorem giving_ite (s : System) (a : Nat) (channel : Channel) (c : Prop) [Decidable c]
    (yes no : BbioErr × Device) :
    s.giving a channel (if c then yes else no) =
      if c then s.giving a channel yes else s.giving a channel no :=
  apply_ite ..

theorem giving_bind (s : System) (a : Nat) (channel : Channel) (given : BbioErr × Device)
    (f : BbioErr × System → Option (BbioErr × System)) :
    (s.giving a channel given).bind f = f (given.1, s.put a channel given.2) := rfl

section Put
variable {s : System} {a : Nat} {pwm : PwmExp} {p : PwmT} {channel : Channel} {d : Device}

@[simp] theorem put_files : (s.put a channel d).files = s.files := rfl

@[simp] theorem put_channel : (s.put a channel d).channels channel = d.file := by
  simp [System.put]

theorem put_channel_other {other : Channel} (different : other ≠ channel) :
    (s.put a channel d).channels other = s.channels other := by
  simp [System.put, different]

theorem put_get? (inUse : a ∈ s.memory.used) :
    (s.put a channel d).memory.get? a =
      some ((s.memory.contents a).1.withCache d.cache, (s.memory.contents a).2) :=
  Pool.get?_set_self inUse _

theorem put_self : s.put a channel (s.device a channel) = s := by
  simp [System.put, System.device, Pool.set, PwmExp.withCache, PwmExp.cache]

theorem assign_put (inUse : a ∈ s.memory.used) (f : Cache → Cache)
    {g : PwmExp × Link → PwmExp × Link}
    (acts : ∀ pwm next, g (pwm, next) = (pwm.withCache (f pwm.cache), next)) :
    assign a g (s.put a channel d) =
      some (s.put a channel { d with cache := f d.cache }) := by
  rw [assign, put_get? inUse]
  simp [acts, System.put, Pool.set, PwmExp.withCache, PwmExp.cache]

theorem write_put (board : Board) {fd : Nat} {attr : Attribute}
    (file : s.files.get? fd = some (channel, attr)) (d : Device) (succeeds : Bool)
    (text : Written) :
    write board succeeds fd text (s.put a channel d) =
      ((d.write board succeeds attr text).1,
        s.put a channel (d.write board succeeds attr text).2) := by
  unfold write Device.write
  rw [put_files, file]
  dsimp only
  rw [put_channel]
  cases d.file.put attr text with
  | none => rfl
  | some after =>
      dsimp only
      split
      · simp [System.setChannel, System.put]
      · rfl

theorem writeIf_put (board : Board) {fd : Nat} {attr : Attribute}
    (file : s.files.get? fd = some (channel, attr)) (d : Device) (wanted succeeds : Bool)
    (text : Written) :
    writeIf board wanted succeeds fd text (s.put a channel d) =
      ((d.writeIf board wanted succeeds attr text).1,
        s.put a channel (d.writeIf board wanted succeeds attr text).2) := by
  unfold writeIf Device.writeIf
  cases wanted with
  | false => rfl
  | true => exact write_put board file d succeeds text

theorem readFile_put {fd : Nat} {attr : Attribute}
    (file : s.files.get? fd = some (channel, attr)) (succeeds : Bool) :
    readFile succeeds fd (s.put a channel d) =
      if succeeds then some (d.file, attr) else none := by
  simp [readFile, file]

end Put

/-! ## The calls on a channel that is found -/

section Found
variable (board : Board) {s : System} {a : Nat} {pwm : PwmExp} {p : PwmT}
  (found : s.Found a pwm p) (d : Device)

include found

theorem System.Found.read : (s.put a p.channel d).memory.get? a =
    some (pwm.withCache d.cache, (s.memory.contents a).2) := by
  rw [put_get? found.inUse, found.stored]

theorem setFrequency_put (outcome : FrequencyOutcome) (freq : Dbl) :
    pwmSetFrequency board outcome pwm.key freq (s.put a p.channel d) =
      s.giving a p.channel (d.setFrequency board outcome freq) := by
  have period := write_put (s := s) (a := a) board (found.file .period)
  have duty := write_put (s := s) (a := a) board (found.file .dutyCycle)
  simp only [PwmExp.fd] at period duty
  unfold pwmSetFrequency Device.setFrequency
  by_cases negative : notPositive freq = true
  · simp [negative, System.giving]
  · simp only [if_neg negative, found.lookup, found.read, Option.bind_eq_bind, Option.bind_some,
      PwmExp.withCache]
    by_cases shorter : periodNsOf board freq < d.cache.periodNs
    · rw [if_pos shorter, if_pos shorter, assign_put found.inUse
        (fun cache => { cache with
          periodNs := periodNsOf board freq
          dutyNs := dutyNsOf board (periodNsOf board freq) d.cache.duty })
        (fun _ _ => rfl), Option.bind_some]
      simp only [period, duty, giving_ite, Device.checked]
      rfl
    · by_cases longer : d.cache.periodNs < periodNsOf board freq
      · rw [if_neg shorter, if_neg shorter, if_pos longer, if_pos longer, assign_put found.inUse
          (fun cache => { cache with periodNs := periodNsOf board freq }) (fun _ _ => rfl),
          Option.bind_some]
        simp only [period, giving_ite, Device.checked]
        rw [assign_put found.inUse (fun cache => { cache with
          dutyNs := dutyNsOf board (periodNsOf board freq) d.cache.duty }) (fun _ _ => rfl),
          Option.bind_some]
        simp only [duty]
        rfl
      · rw [if_neg shorter, if_neg shorter, if_neg longer, if_neg longer]
        rfl

theorem setDutyCycle_put (succeeds : Bool) (duty : Dbl) :
    pwmSetDutyCycle board succeeds pwm.key duty (s.put a p.channel d) =
      s.giving a p.channel (d.setDutyCycle board succeeds duty) := by
  have file := write_put (s := s) (a := a) board (found.file .dutyCycle)
  simp only [PwmExp.fd] at file
  unfold pwmSetDutyCycle Device.setDutyCycle
  by_cases outside : duty < 0 ∨ 100 < duty
  · rw [if_pos outside, if_pos outside]
    rfl
  · rw [if_neg outside, if_neg outside]
    simp only [found.lookup, found.read, Option.bind_eq_bind, Option.bind_some, PwmExp.withCache]
    rw [assign_put found.inUse
      (fun cache => { cache with duty, dutyNs := dutyNsOf board d.cache.periodNs duty })
      (fun _ _ => rfl), Option.bind_some]
    simp only [file, giving_ite, Device.checked]
    rfl

theorem setPolarity_put (outcome : PolarityOutcome) (polarity : Int) :
    pwmSetPolarity board outcome pwm.key polarity (s.put a p.channel d) =
      s.giving a p.channel (d.setPolarity board outcome polarity) := by
  have enable := writeIf_put (s := s) (a := a) board (found.file .enable)
  have file := write_put (s := s) (a := a) board (found.file .polarity)
  have read := readFile_put (a := a) (d := d) (found.file .enable) outcome.read
  simp only [PwmExp.fd] at enable file read
  unfold pwmSetPolarity Device.setPolarity
  simp only [found.lookup, found.read, Option.bind_eq_bind, Option.bind_some, PwmExp.withCache,
    readEnable, read]
  cases outcome.read with
  | false => rfl
  | true =>
      simp only [enable, file, giving_ite, Device.checked]
      rfl

theorem startExported_put (outcome : StartOutcome) (duty freq : Dbl) (polarity : Int) :
    startExported board outcome pwm.key duty freq polarity a (s.put a p.channel d) =
      s.giving a p.channel (d.start board outcome duty freq polarity) := by
  have enable := write_put (s := s) (a := a) board (found.file .enable)
  have readPeriod := fun d => readFile_put (a := a) (d := d) (found.file .period) outcome.readPeriod
  have readDuty := fun d => readFile_put (a := a) (d := d) (found.file .dutyCycle) outcome.readDuty
  simp only [PwmExp.fd] at enable readPeriod readDuty
  unfold startExported Device.start
  simp only [found.read, Option.bind_eq_bind, Option.bind_some, PwmExp.withCache, readNs,
    readPeriod]
  cases outcome.readPeriod with
  | false => rfl
  | true =>
      simp only [if_true]
      rw [assign_put found.inUse (fun cache => { cache with periodNs := d.file.period })
        (fun _ _ => rfl), Option.bind_some]
      simp only [readDuty]
      cases outcome.readDuty with
      | false => rfl
      | true =>
          simp only [if_true]
          rw [assign_put found.inUse (fun cache => { cache with duty, dutyNs := d.file.duty })
            (fun _ _ => rfl), Option.bind_some]
          simp only [setFrequency_put board found, setDutyCycle_put board found,
            setPolarity_put board found, enable,
            giving_bind, giving_ite, Device.checked, Device.andThen]
          rfl

end Found

/-! ## Finding a key -/

theorem storedKey_of_known {key : String} {p : PwmT} (known : getPwmByKey key = some p) :
    storedKey key = key := by
  have short : ∀ p ∈ pwmTable, storedKey p.key = p.key := by decide +kernel
  have same : p.key = key := by simpa using List.find?_some known
  exact same ▸ short p (List.mem_of_find?_eq_some known)

section Holds
variable {s : System} {front back entries : List Entry} {a : Nat} {pwm : PwmExp}

/-- What holds depends on the list, the memory and the open files alone. -/
theorem System.Holds.congr {t : System} (holds : s.Holds entries) (memory : t.memory = s.memory)
    (head : t.exportedPwms = s.exportedPwms) (used : t.files.used = s.files.used)
    (files : ∀ fd, t.files.get? fd = s.files.get? fd) : t.Holds entries where
  list := by
    rw [memory, head]
    exact holds.list
  keys := holds.keys
  known entry member := by
    obtain ⟨p, known, open_⟩ := holds.known entry member
    exact ⟨p, known, fun attr => (files _).trans (open_ attr)⟩
  files := used.trans holds.files
  apart := holds.apart

theorem System.Holds.put (holds : s.Holds (front ++ (a, pwm) :: back)) (channel : Channel)
    (d : Device) :
    (s.put a channel d).Holds (front ++ (a, pwm.withCache d.cache) :: back) := by
  obtain ⟨next, read, -⟩ := holds.list.split
  have inUse := Pool.mem_of_get? read
  have stored : s.memory.contents a = (pwm, next) := by
    simpa [Pool.get?, inUse] using read
  refine ⟨?_, ?_, ?_, ?_, ?_⟩
  · rw [System.put, stored]
    exact holds.list.set read _
  · simpa [PwmExp.withCache] using holds.keys
  · intro entry member
    rcases List.mem_append.mp member with before | after
    · exact holds.known entry (List.mem_append_left _ before)
    · rcases List.mem_cons.mp after with rfl | after
      · exact holds.known (a, pwm) (by simp)
      · exact holds.known entry (by simp [after])
  · simpa [descriptors, PwmExp.withCache, PwmExp.descriptors] using holds.files
  · simpa [descriptors, PwmExp.withCache, PwmExp.descriptors] using holds.apart

theorem System.Holds.lookup (holds : s.Holds entries) (key : String) :
    lookupExportedPwm key s =
      some ((entries.find? fun entry => entry.2.key = key).map Prod.fst) :=
  holds.list.find _

/-- No cell before one with the key has it. -/
theorem find?_entry (keys : ((front ++ (a, pwm) :: back).map fun entry => entry.2.key).Nodup) :
    (front ++ (a, pwm) :: back).find? (fun entry => entry.2.key = pwm.key) = some (a, pwm) := by
  rw [List.find?_eq_some_iff_append]
  refine ⟨by simp, front, back, rfl, fun entry member => ?_⟩
  rw [List.map_append, List.map_cons, List.nodup_middle, List.nodup_cons] at keys
  have differ : entry.2.key ≠ pwm.key := by
    intro same
    exact keys.1 (List.mem_append_left _ (same ▸ List.mem_map_of_mem member))
  simpa using differ

theorem System.Holds.found (holds : s.Holds (front ++ (a, pwm) :: back)) :
    ∃ p, getPwmByKey pwm.key = some p ∧ s.Found a pwm p := by
  obtain ⟨p, known, open_⟩ := holds.known (a, pwm) (by simp)
  obtain ⟨next, read, -⟩ := holds.list.split
  have inUse := Pool.mem_of_get? read
  refine ⟨p, known, ⟨fun d => ?_, inUse, ?_, open_⟩⟩
  · have after := holds.put p.channel d
    have first : (front ++ (a, pwm.withCache d.cache) :: back).find?
        (fun entry => entry.2.key = pwm.key) = some (a, pwm.withCache d.cache) :=
      find?_entry after.keys
    rw [after.lookup, first]
    rfl
  · have stored : s.memory.contents a = (pwm, next) := by
      simpa [Pool.get?, inUse] using read
    rw [stored]

/-- A key is on the list or it is not. -/
theorem System.Holds.lookup_cases (holds : s.Holds entries) (key : String) :
    (lookupExportedPwm key s = some none ∧ ∀ entry ∈ entries, entry.2.key ≠ key) ∨
      ∃ front a pwm back, entries = front ++ (a, pwm) :: back ∧ pwm.key = key ∧
        lookupExportedPwm key s = some (some a) := by
  rw [holds.lookup]
  cases found : entries.find? fun entry => entry.2.key = key with
  | none =>
      refine Or.inl ⟨rfl, fun entry member => ?_⟩
      simpa using List.find?_eq_none.mp found entry member
  | some entry =>
      obtain ⟨same, front, back, rfl, -⟩ := List.find?_eq_some_iff_append.mp found
      exact Or.inr ⟨front, entry.1, entry.2, back, rfl, by simpa using same, rfl⟩

end Holds

/-! ## Setting up a channel -/

section Setup
variable (board : Board) {s : System} {entries : List Entry} {key : String}

theorem setPinMode_eq (outcome : SetupOutcome) (key mode : String) (s : System) :
    ∃ pinModes, setPinMode outcome key mode s = { s with pinModes } := by
  unfold setPinMode
  dsimp only
  split
  · exact ⟨s.pinModes, rfl⟩
  · split
    · exact ⟨s.pinModes, rfl⟩
    · exact ⟨_, rfl⟩

/-- The list with one cell more at its end. -/
theorem exportPwm_owns (list : Chain.Owns s.memory s.exportedPwms entries) {a : Nat}
    (fresh : a ∉ s.memory.used) (pwm : PwmExp) :
    ∃ memory head,
      exportPwm a { s with memory := s.memory.add a (pwm, none) } =
        some { s with memory, exportedPwms := head } ∧
      Chain.Owns memory head (entries ++ [(a, pwm)]) := by
  rcases List.eq_nil_or_concat entries with rfl | ⟨front, ⟨b, u⟩, rfl⟩
  · have empty : s.exportedPwms = none := list.linked
    refine ⟨s.memory.add a (pwm, none), some a, by simp [exportPwm, empty], ?_⟩
    rw [empty] at list
    exact list.push fresh pwm
  · rw [List.concat_eq_append] at list ⊢
    obtain ⟨next, read, -, ending⟩ := list.split
    have null : next = none := ending
    subst null
    obtain ⟨first, head⟩ : ∃ first, s.exportedPwms = some first := by
      cases head : s.exportedPwms with
      | none =>
          rw [head] at list
          simpa using list.nil_of_head
      | some first => exact ⟨first, rfl⟩
    have absent : a ∉ Chain.addresses (front ++ [(b, u)]) :=
      fun member => fresh ((list.mem_used a).mpr member)
    have differ : b ≠ a := fun same => absent (by simp [same])
    have linked : Chain.Segment (s.memory.add a (pwm, none)) s.exportedPwms none
        (front ++ [(b, u)]) :=
      list.linked.frame fun c member =>
        Pool.get?_add_other _ _ fun same => absent (same ▸ member)
    have enough : front.length < (s.memory.add a (pwm, none)).used.card := by
      rw [Pool.add_used, Finset.card_insert_of_notMem fresh, list.card, List.length_append,
        List.length_singleton]
      omega
    refine ⟨(s.memory.add a (pwm, none)).set b (u, some a), some first, ?_, ?_⟩
    · simp only [exportPwm, head]
      rw [Chain.last_segment linked enough head]
      simp [assign, Pool.get?_add_other _ _ differ, read]
    · have owns := list.append fresh pwm
      rw [head] at owns
      exact owns

/-- A new cell with four new descriptors. -/
theorem System.Holds.exported (holds : s.Holds entries)
    (absent : ∀ entry ∈ entries, entry.2.key ≠ key) {p : PwmT} (known : getPwmByKey key = some p)
    {a : Nat} (fresh : a ∉ s.memory.used) (pwm : PwmExp) (named : pwm.key = key)
    (apart : pwm.descriptors.Nodup) (unused : ∀ fd ∈ pwm.descriptors, fd ∉ s.files.used)
    {files : Pool (Channel × Attribute)}
    (opened : files.used = s.files.used ∪ pwm.descriptors.toFinset)
    (old : ∀ fd ∈ s.files.used, files.get? fd = s.files.get? fd)
    (new : ∀ attr, files.get? (pwm.fd attr) = some (p.channel, attr)) :
    ∃ t, exportPwm a { s with files, memory := s.memory.add a (pwm, none) } = some t ∧
      t.channels = s.channels ∧ t.Holds (entries ++ [(a, pwm)]) := by
  obtain ⟨memory, head, run, list⟩ := exportPwm_owns (s := { s with files }) holds.list fresh pwm
  refine ⟨_, run, rfl, ⟨list, ?_, ?_, ?_, ?_⟩⟩
  · rw [List.map_append, List.nodup_append]
    refine ⟨holds.keys, by simp, fun other member last isLast => ?_⟩
    obtain ⟨entry, isEntry, rfl⟩ := List.mem_map.mp member
    have isNew : last = pwm.key := by simpa using isLast
    rw [isNew, named]
    exact absent entry isEntry
  · intro entry member
    rcases List.mem_append.mp member with before | last
    · obtain ⟨q, isKnown, open_⟩ := holds.known entry before
      exact ⟨q, isKnown, fun attr => (old _ (Pool.mem_of_get? (open_ attr))).trans (open_ attr)⟩
    · obtain rfl := List.mem_singleton.mp last
      exact ⟨p, named ▸ known, new⟩
  · rw [opened, holds.files]
    simp [descriptors]
  · rw [descriptors, List.flatMap_append, List.nodup_append]
    refine ⟨holds.apart, by simpa using apart, ?_⟩
    intro fd member other last same
    subst same
    have inUse : fd ∈ s.files.used := by
      rw [holds.files]
      exact List.mem_toFinset.mpr member
    exact unused fd (by simpa using last) inUse

/-- What a call leaves that works on the list: a cell more, or nothing at all. -/
def Grown (key : String) (entries : List Entry) (s : System) (result : BbioErr × System) : Prop :=
  result.2.channels = s.channels ∧
    ((result.1 ≠ .ok ∧ result.2.Holds entries) ∨
      (result.1 = .ok ∧ ∃ a pwm, pwm.key = key ∧ result.2.Holds (entries ++ [(a, pwm)])))

theorem openChannel_grown (holds : s.Holds entries) (absent : ∀ entry ∈ entries, entry.2.key ≠ key)
    {p : PwmT} (known : getPwmByKey key = some p) (outcome : SetupOutcome) :
    ∃ result, openChannel board outcome key p.channel s = some result ∧
      Grown key entries s result := by
  -- Whatever has been opened is closed again, in the order it was opened.
  have failed : ∀ (k : Nat) (attrs : List Attribute) (err : BbioErr), err ≠ .ok →
      Grown key entries s (err, { s with files :=
        (s.files.addAll ((board.descriptor.several k s.files.used).zip
          (attrs.map (p.channel, ·)))).dropAll (((board.descriptor.several k s.files.used).zip
            (attrs.map (p.channel, ·))).map Prod.fst) }) := by
    intro k attrs err isError
    have same := Pool.get?_dropAll_addAll s.files ((board.descriptor.several k s.files.used).zip
      (attrs.map (p.channel, ·))) fun pair member =>
        (board.descriptor.several_fresh k s.files.used).2 _ (List.of_mem_zip member).1
    exact ⟨rfl, Or.inl ⟨isError, holds.congr rfl rfl (Pool.used_eq same) same⟩⟩
  unfold openChannel
  cases outcome.openPeriod with
  | false => exact ⟨_, rfl, failed 0 [] .sysfs (by decide)⟩
  | true =>
  cases outcome.openDuty with
  | false => exact ⟨_, rfl, failed 1 [.period] .sysfs (by decide)⟩
  | true =>
  cases outcome.openPolarity with
  | false => exact ⟨_, rfl, failed 2 [.period, .dutyCycle] .sysfs (by decide)⟩
  | true =>
  cases outcome.openEnable with
  | false => exact ⟨_, rfl, failed 3 [.period, .dutyCycle, .polarity] .sysfs (by decide)⟩
  | true =>
  cases outcome.malloc with
  | false => exact ⟨_, rfl, failed 4 [.period, .dutyCycle, .polarity, .enable] .mem (by decide)⟩
  | true =>
      let choose := board.descriptor.choose
      let fd1 := choose s.files.used
      let fd2 := choose (insert fd1 s.files.used)
      let fd3 := choose (insert fd2 (insert fd1 s.files.used))
      let fd4 := choose (insert fd3 (insert fd2 (insert fd1 s.files.used)))
      let newPwm : PwmExp := ⟨storedKey key, fd1, fd2, fd3, fd4, outcome.garbage.1,
        outcome.garbage.2.1, outcome.garbage.2.2⟩
      obtain ⟨apart, unused⟩ := board.descriptor.several_fresh 4 s.files.used
      let pairs := newPwm.descriptors.zip ([Attribute.period, .dutyCycle, .polarity, .enable].map (p.channel, ·))
      have names : pairs.map Prod.fst = newPwm.descriptors := rfl
      have opened := Pool.addAll_used s.files pairs
      rw [names] at opened
      have old : ∀ fd ∈ s.files.used, (s.files.addAll pairs).get? fd = s.files.get? fd :=
        fun fd inUse => Pool.get?_addAll_of_notMem s.files pairs fun member => unused fd member inUse
      have new : ∀ fd file, (fd, file) ∈ pairs → (s.files.addAll pairs).get? fd = some file :=
        fun fd file => Pool.get?_addAll_of_mem s.files pairs apart
      obtain ⟨t, run, channels, after⟩ := holds.exported absent known
        (board.malloc.fresh s.memory.used) newPwm (storedKey_of_known known) apart unused opened old (by
          intro attr
          cases attr with
          | period => exact new _ _ (List.mem_cons_self ..)
          | dutyCycle => exact new _ _ (.tail _ (List.mem_cons_self ..))
          | polarity => exact new _ _ (.tail _ (.tail _ (List.mem_cons_self ..)))
          | enable => exact new _ _ (.tail _ (.tail _ (.tail _ (List.mem_cons_self ..)))))
      refine ⟨(.ok, t), ?_, channels, Or.inr ⟨rfl, _, newPwm, storedKey_of_known known, after⟩⟩
      exact congrArg (fun exported => exported.bind fun s => some (BbioErr.ok, s)) run

/-- `pwm_setup` of a key that is not on the list. -/
theorem pwmSetup_grown (holds : s.Holds entries) (absent : ∀ entry ∈ entries, entry.2.key ≠ key)
    (outcome : SetupOutcome) :
    ∃ result, pwmSetup board outcome key s = some result ∧ Grown key entries s result := by
  unfold pwmSetup
  cases suitable : outcome.overlays.suitable with
  | false => exact ⟨(.cape, s), rfl, rfl, Or.inl ⟨fun same => BbioErr.noConfusion same, holds⟩⟩
  | true =>
      obtain ⟨pinModes, muxed⟩ := setPinMode_eq outcome key (if key = "P9_28" then "pwm2" else "pwm") s
      have kept : ({ s with pinModes }).Holds entries := holds.congr rfl rfl rfl fun _ => rfl
      simp only [muxed]
      cases known : getPwmByKey key with
      | none =>
          exact ⟨(.invarg, _), rfl, rfl, Or.inl ⟨fun same => BbioErr.noConfusion same, kept⟩⟩
      | some p =>
          by_cases located : locate outcome p = .ok
          · simp only [located]
            exact openChannel_grown board kept absent known outcome
          · exact ⟨(locate outcome p, { s with pinModes }), if_pos located, rfl,
              Or.inl ⟨located, kept⟩⟩

end Setup

/-! ## Giving a channel up -/

section Disable
variable (board : Board) {s : System} {front back entries : List Entry} {a : Nat} {pwm : PwmExp}
  {p : PwmT} {key : String} (writes : Nat → Bool)

/-- The loop of `pwm_disable` walks over cells with other keys. -/
theorem disableFrom_skip {link stop : Link}
    (segment : Chain.Segment s.memory link stop entries)
    (absent : ∀ entry ∈ entries, entry.2.key ≠ key) (fuel : Nat) (prev : Link) :
    disableFrom board writes (.text key) (entries.length + fuel) prev link s =
      disableFrom board writes (.text key) fuel
        (entries.foldl (fun _ entry => some entry.1) prev) stop s := by
  induction entries generalizing link prev with
  | nil =>
      have same : link = stop := segment
      rw [same, List.length_nil, Nat.zero_add]
      rfl
  | cons entry rest ih =>
      obtain ⟨b, other⟩ := entry
      obtain ⟨rfl, next, read, remaining⟩ := segment
      have differ : other.key ≠ key := absent (b, other) (by simp)
      have shape : ((b, other) :: rest).length + fuel = rest.length + fuel + 1 := by
        rw [List.length_cons]
        omega
      rw [shape, disableFrom]
      simp only [read, KeyPointer.read, Option.bind_eq_bind, Option.bind_some, if_neg differ]
      rw [ih remaining fun entry member => absent entry (by simp [member])]
      rfl

/-- One cell less, and its four descriptors closed. -/
theorem System.Holds.dropped {t : System} (holds : s.Holds (front ++ (a, pwm) :: back))
    (list : Chain.Owns t.memory t.exportedPwms (front ++ back))
    (files : t.files = s.files.dropAll [pwm.enableFd, pwm.periodFd, pwm.dutyFd, pwm.polarityFd]) :
    t.Holds (front ++ back) := by
  have kept : (front ++ back).Sublist (front ++ (a, pwm) :: back) :=
    (List.Sublist.refl front).append (List.sublist_cons_self ..)
  have apart := holds.apart
  have parts : descriptors (front ++ (a, pwm) :: back) =
      descriptors front ++ (pwm.descriptors ++ descriptors back) := by
    simp [descriptors]
  have others : descriptors (front ++ back) = descriptors front ++ descriptors back := by
    simp [descriptors]
  have same : ∀ fd, fd ∈ [pwm.enableFd, pwm.periodFd, pwm.dutyFd, pwm.polarityFd] ↔
      fd ∈ pwm.descriptors := by
    intro fd
    simp only [PwmExp.descriptors, List.mem_cons]
    tauto
  rw [parts] at apart
  have disjoint : ∀ fd ∈ descriptors front ++ descriptors back, fd ∉ pwm.descriptors := by
    have moved := (List.perm_append_comm_assoc (descriptors front) pwm.descriptors
      (descriptors back)).nodup_iff.mp apart
    intro fd member closed
    exact (List.nodup_append.mp moved).2.2 fd closed fd member rfl
  have fds : ∀ entry ∈ front ++ back, ∀ attr, entry.2.fd attr ∈ descriptors (front ++ back) := by
    intro entry member attr
    refine List.mem_flatMap.mpr ⟨entry, member, ?_⟩
    cases attr <;> simp [PwmExp.fd, PwmExp.descriptors]
  refine ⟨list, ?_, ?_, ?_, ?_⟩
  · exact holds.keys.sublist (kept.map _)
  · intro entry member
    obtain ⟨p, known, open_⟩ := holds.known entry (kept.subset member)
    refine ⟨p, known, fun attr => ?_⟩
    have stays := disjoint _ (others ▸ fds entry member attr)
    rw [files, Pool.get?_dropAll, if_neg fun closed => stays ((same _).mp closed), open_ attr]
  · rw [files, Pool.dropAll_used, holds.files, parts, others]
    ext fd
    simp only [Finset.mem_sdiff, List.mem_toFinset, List.mem_append, same]
    constructor
    · tauto
    · intro member
      have stays := disjoint fd (List.mem_append.mpr member)
      tauto
  · rw [others]
    refine apart.sublist ?_
    exact (List.Sublist.refl _).append (List.sublist_append_right ..)

theorem disableFrom_end (fuel : Nat) (prev : Link) (key : KeyPointer) :
    disableFrom board writes key fuel prev none s = some (.ok, s) := by
  cases fuel with
  | zero => rfl
  | succ fuel => rfl

/-- The loop stops where the list does, if no cell left has the key. -/
theorem disableFrom_absent {link : Link} (segment : Chain.Segment s.memory link none entries)
    (absent : ∀ entry ∈ entries, entry.2.key ≠ key) (prev : Link) :
    disableFrom board writes (.text key) entries.length prev link s = some (.ok, s) := by
  have walk := disableFrom_skip board writes segment absent 0 prev
  rw [Nat.add_zero] at walk
  rw [walk, disableFrom_end]

theorem pwmDisable_absent (holds : s.Holds entries)
    (absent : ∀ entry ∈ entries, entry.2.key ≠ key) :
    pwmDisable board writes (.text key) s = some (.ok, s) := by
  rw [pwmDisable, holds.list.card]
  exact disableFrom_absent board writes holds.list.linked absent none

theorem keys_apart (keys : ((front ++ (a, pwm) :: back).map fun entry => entry.2.key).Nodup) :
    (∀ entry ∈ front, entry.2.key ≠ pwm.key) ∧ ∀ entry ∈ back, entry.2.key ≠ pwm.key := by
  rw [List.map_append, List.map_cons, List.nodup_middle, List.nodup_cons, List.mem_append,
    not_or] at keys
  constructor
  · intro entry member same
    exact keys.1.1 (same ▸ List.mem_map_of_mem member)
  · intro entry member same
    exact keys.1.2 (same ▸ List.mem_map_of_mem member)

/-- The write to `enable` fails and does nothing, or does its work. -/
theorem write_enable (found : s.Found a pwm p) (succeeds on : Bool) :
    write board succeeds pwm.enableFd (.enable on) s = (false, s) ∨
      write board succeeds pwm.enableFd (.enable on) s =
        (true, s.setChannel p.channel { s.channels p.channel with enabled := on }) := by
  have file := found.file .enable
  simp only [PwmExp.fd] at file
  unfold write
  rw [file]
  simp only [Settings.put]
  split
  · exact Or.inr rfl
  · exact Or.inl rfl

/-- `pwm_disable` of a key on the list fails and does nothing, or takes its cell
off the list and disables its channel. -/
theorem pwmDisable_found (holds : s.Holds (front ++ (a, pwm) :: back))
    (found : s.Found a pwm p) :
    ∃ result, pwmDisable board writes (.text pwm.key) s = some result ∧
      ((result = (.sysfs, s) ∧ (write board (writes a) pwm.enableFd (.enable false) s).1 = false) ∨
        (result.1 = .ok ∧ result.2.Holds (front ++ back) ∧
          result.2.channels = Function.update s.channels p.channel
            { s.channels p.channel with enabled := false })) := by
  obtain ⟨notFront, notBack⟩ := keys_apart holds.keys
  obtain ⟨next, read, before, after⟩ := holds.list.split
  have walk := disableFrom_skip board writes before notFront (back.length + 1) none
  have length : s.memory.used.card = front.length + (back.length + 1) := by
    rw [holds.list.card, List.length_append, List.length_cons]
  rw [pwmDisable, length, walk, disableFrom]
  simp only [read, KeyPointer.read, Option.bind_eq_bind, Option.bind_some, if_true]
  rcases write_enable board found (writes a) false with failed | done
  · rw [failed]
    exact ⟨(.sysfs, s), rfl, Or.inl ⟨rfl, rfl⟩⟩
  · rw [done]
    simp only [Bool.not_true, Bool.false_eq_true, if_false]
    rcases List.eq_nil_or_concat front with rfl | ⟨front, ⟨b, u⟩, rfl⟩
    · have list := holds.list.dropHead read
      simp only [List.foldl_nil]
      rw [disableFrom_absent board writes (list.linked) notBack]
      exact ⟨_, rfl, Or.inr ⟨rfl, holds.dropped list rfl, rfl⟩⟩
    · rw [List.concat_eq_append] at holds
      have shape : front ++ [(b, u)] ++ (a, pwm) :: back = front ++ (b, u) :: (a, pwm) :: back := by
        simp
      have prev : (front.concat (b, u)).foldl (fun _ entry => some entry.1) none = some b := by
        simp
      have owns := holds.list
      rw [shape] at owns
      obtain ⟨link, readPrev, -⟩ := owns.split
      have list := owns.dropNext read
      rw [← List.singleton_append, ← List.append_assoc] at list
      simp only [prev, assign, close, System.setChannel, readPrev, Option.map_some,
        Option.bind_some, free]
      rw [disableFrom_absent board writes (owns.rest_of_dropNext read) notBack]
      rw [List.concat_eq_append]
      exact ⟨_, rfl, Or.inr ⟨rfl, holds.dropped list rfl, rfl⟩⟩

end Disable

end ProjectOwl.Beagle.Pwm
