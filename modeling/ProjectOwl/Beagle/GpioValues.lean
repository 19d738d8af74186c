import ProjectOwl.Beagle.GpioStill

/-! # Values

A pin is read from the file that its descriptor on the list was opened for, and written
through a descriptor of its own each time.  Both are the same file as long as
`beaglebone_blue` answers the same.  Setting a direction writes the pin too: an output
begins low, and an input follows its line. -/

set_option autoImplicit false

namespace ProjectOwl.Beagle.Gpio

open Pwm (BbioErr)

/-! ## The files of the pins -/

section Paths
variable {blue access : Bool} {gpio other : Nat}

theorem ledNames_inj {name : String} (here : ledNames.lookup gpio = some name)
    (there : ledNames.lookup other = some name) : gpio = other := by
  have inverse : ∀ {gpio : Nat}, ledNames.lookup gpio = some name →
      (ledNames.map fun led => (led.2, led.1)).lookup name = some gpio := by
    intro gpio found
    have member : (gpio, name) ∈ ledNames := by
      obtain ⟨front, back, split, -⟩ := List.lookup_eq_some_iff.mp found
      rw [split]
      exact List.mem_append_right _ List.mem_cons_self
    simp only [ledNames, List.mem_cons, List.not_mem_nil, or_false, Prod.mk.injEq] at member
    rcases member with ⟨rfl, rfl⟩ | ⟨rfl, rfl⟩ | ⟨rfl, rfl⟩ | ⟨rfl, rfl⟩ | ⟨rfl, rfl⟩ | ⟨rfl, rfl⟩ |
      ⟨rfl, rfl⟩
    all_goals decide
  exact Option.some.inj ((inverse here).symm.trans (inverse there))

/-- The file of a pin, case by case. -/
theorem valuePath_cases (blue : Bool) (gpio : Nat) :
    (isUsrLed gpio = true ∧ valuePath blue gpio = .usrLed (gpio - USR_LED_GPIO_MIN)) ∨
      (∃ name, ledNames.lookup gpio = some name ∧ valuePath blue gpio = .led name) ∨
      valuePath blue gpio = .gpio gpio := by
  unfold valuePath
  split
  · rename_i usr
    exact Or.inl ⟨usr, rfl⟩
  · split
    · cases found : ledNames.lookup gpio with
      | some name => exact Or.inr (Or.inl ⟨name, rfl, rfl⟩)
      | none => exact Or.inr (Or.inr rfl)
    · exact Or.inr (Or.inr rfl)

theorem valuePath_inj (same : valuePath blue gpio = valuePath blue other) : gpio = other := by
  rcases valuePath_cases blue gpio with ⟨usr, here⟩ | ⟨name, found, here⟩ | here
  · rcases valuePath_cases blue other with ⟨usr', there⟩ | ⟨name, -, there⟩ | there
    · rw [here, there] at same
      have offset := Path.usrLed.inj same
      simp only [isUsrLed, Bool.and_eq_true, decide_eq_true_eq] at usr usr'
      omega
    · rw [here, there] at same
      cases same
    · rw [here, there] at same
      cases same
  · rcases valuePath_cases blue other with ⟨-, there⟩ | ⟨name', found', there⟩ | there
    · rw [here, there] at same
      cases same
    · rw [here, there] at same
      cases same
      exact ledNames_inj found found'
    · rw [here, there] at same
      cases same
  · rcases valuePath_cases blue other with ⟨-, there⟩ | ⟨name, -, there⟩ | there
    · rw [here, there] at same
      cases same
    · rw [here, there] at same
      cases same
    · rw [here, there] at same
      exact Path.gpio.inj same

/-- A pin whose file is that of a line is no LED. -/
theorem valuePath_line (line : valuePath blue gpio = .gpio other) :
    other = gpio ∧ isLed blue gpio = false := by
  rcases valuePath_cases blue gpio with ⟨-, here⟩ | ⟨name, -, here⟩ | here
  · rw [here] at line
    cases line
  · rw [here] at line
    cases line
  · rw [here] at line
    refine ⟨(Path.gpio.inj line).symm, ?_⟩
    unfold valuePath at here
    split at here
    · cases here
    · rename_i notUsr
      have notUsr : isUsrLed gpio = false := by simpa using notUsr
      cases blue with
      | false => simp [isLed, notUsr]
      | true =>
          rw [if_pos rfl] at here
          cases found : ledNames.lookup gpio with
          | none => simp [isLed, notUsr, found]
          | some name =>
              rw [found] at here
              cases here

/-- Where the file of a LED can be written, or the pin is none, the write goes to the file
that is read. -/
theorem setValuePath_eq (writable : isUsrLed gpio = true → access = true) :
    setValuePath blue access gpio = valuePath blue gpio := by
  unfold setValuePath
  split
  · rename_i other
    simp only [Bool.and_eq_true, Bool.not_eq_eq_eq_not, Bool.not_true] at other
    rw [writable other.1] at other
    cases other.2
  · rfl

theorem setValuePath_ne (different : other ≠ gpio) :
    setValuePath blue access other ≠ valuePath blue gpio := by
  unfold setValuePath
  split
  · rcases valuePath_cases blue gpio with ⟨-, here⟩ | ⟨name, -, here⟩ | here
    · rw [here]
      intro same
      cases same
    · rw [here]
      intro same
      cases same
    · rw [here]
      intro same
      cases same
  · exact fun same => different (valuePath_inj same)

end Paths

/-! ## What changes a value -/

theorem run_append (board : Board) (first later : List Event) (s : System) :
    run board (first ++ later) s = (run board first s).bind (run board later) := by
  induction first generalizing s with
  | nil => rfl
  | cons event rest ih =>
      rw [List.cons_append, run, run, Option.bind_assoc]
      congr 1
      funext t
      exact ih t

def Call.writes (blue : Bool) (gpio : Nat) : Call → Bool
  | .gpioSetValue outcome _ other _ => other = gpio || outcome.blue != blue
  | call => !isLed blue gpio && call.drives gpio

def Event.writes (blue : Bool) (gpio : Nat) : Event → Bool
  | .level path _ => path = valuePath blue gpio
  | event => event.calls.any (Call.writes blue gpio)

section Values
variable (board : Board) {s t : System} {blue : Bool} {gpio : Nat} {touched : Nat → Prop}
  {path : Path}

theorem epfdOrCreate_value (succeeds : Bool) (s : System) :
    (epfdOrCreate board succeeds s).2.value = s.value := by
  unfold epfdOrCreate
  split
  · rfl
  · cases succeeds with
    | false => rfl
    | true => rfl

theorem addEdgeDetect_value {outcome : WatchOutcome} {thread : Bool} {edge : Nat} {reply : Reply}
    (touches : outcome.direction.writes = true → touched gpio)
    (apart : ∀ gpio, touched gpio → path ≠ .gpio gpio)
    (goes : addEdgeDetect board outcome thread gpio edge s = some (reply, t)) :
    t.value path = s.value path := by
  unfold addEdgeDetect at goes
  have asked : Still touched s (gpioEventAdd gpio s).2 := .eventAdd gpio s
  rcases added : gpioEventAdd gpio s with ⟨already, s₁⟩
  rw [added] at asked goes
  cases already with
  | true =>
      cases goes
      exact asked.value path apart
  | false =>
      obtain ⟨s₂, prepared, goes⟩ := Option.bind_eq_some_iff.mp goes
      have ready := asked.trans (Still.prepare touches prepared)
      have opened := ready.trans (Still.openIfNeeded board outcome.value gpio (fdLookup gpio s) s₂)
      rcases opens : openIfNeeded board outcome.value gpio (fdLookup gpio s) s₂ with ⟨fd, s₃⟩
      rw [opens] at opened goes
      cases fd with
      | none =>
          cases goes
          exact opened.value path apart
      | some fd =>
          have created := epfdOrCreate_value board outcome.create s₃
          rcases creates : epfdOrCreate board outcome.create s₃ with ⟨epfd, s₄⟩
          dsimp only at goes
          rw [creates] at created goes
          have same : s₄.value path = s.value path :=
            (congrFun created path).trans (opened.value path apart)
          cases epfd with
          | none =>
              cases goes
              exact same
          | some epfd =>
              have watched : Still touched s₄ (epollAdd outcome.add epfd fd s₄).2 := .epollAdd ..
              rcases adds : epollAdd outcome.add epfd fd s₄ with ⟨succeeded, s₅⟩
              dsimp only at goes
              rw [adds] at watched goes
              have same : s₅.value path = s.value path := (watched.value path apart).trans same
              split at goes
              · cases goes
                exact same
              · split at goes
                · cases goes
                  exact same
                · split at goes
                  · cases goes
                    exact same
                  · cases goes
                    exact same

theorem waitBegin_value {outcome : WatchOutcome} {edge : Nat} {reply : Reply}
    (touches : outcome.direction.writes = true → touched gpio)
    (apart : ∀ gpio, touched gpio → path ≠ .gpio gpio)
    (goes : blockingWaitBegin board outcome gpio edge s = some (reply, t)) :
    t.value path = s.value path := by
  unfold blockingWaitBegin at goes
  have created : (epollCreate board outcome.create s).2.value = s.value := by
    cases outcome.create with
    | false => rfl
    | true => rfl
  rcases creates : epollCreate board outcome.create s with ⟨epfd, s₁⟩
  rw [creates] at created goes
  cases epfd with
  | none =>
      cases goes
      exact congrFun created path
  | some epfd =>
      have asked : Still touched s₁ (gpioEventAdd gpio s₁).2 := .eventAdd gpio s₁
      rcases added : gpioEventAdd gpio s₁ with ⟨already, s₂⟩
      dsimp only at goes
      rw [added] at asked goes
      have same : s₂.value path = s.value path :=
        (asked.value path apart).trans (congrFun created path)
      cases already with
      | true =>
          cases goes
          exact same
      | false =>
          obtain ⟨s₃, prepared, goes⟩ := Option.bind_eq_some_iff.mp goes
          have opened := (Still.prepare touches prepared).trans
            (Still.openIfNeeded board outcome.value gpio (fdLookup gpio s) s₃)
          rcases opens : openIfNeeded board outcome.value gpio (fdLookup gpio s) s₃ with ⟨fd, s₄⟩
          rw [opens] at opened goes
          have same : s₄.value path = s.value path := (opened.value path apart).trans same
          cases fd with
          | none =>
              cases goes
              exact same
          | some fd =>
              have watched : Still touched s₄ (epollAdd outcome.add epfd fd s₄).2 := .epollAdd ..
              rcases adds : epollAdd outcome.add epfd fd s₄ with ⟨succeeded, s₅⟩
              dsimp only at goes
              rw [adds] at watched goes
              have same : s₅.value path = s.value path := (watched.value path apart).trans same
              have removed : Still touched s₅ (gpioEventRemove gpio s₅) := .eventRemove gpio s₅
              split at goes
              · cases goes
                exact (removed.value path apart).trans same
              · cases goes
                exact same

theorem gpioSetValue_value (outcome : SysfsOutcome) (access : Bool) (gpio value : Nat) (s : System) :
    (gpioSetValue outcome access gpio value s).2.value =
      if (gpioSetValue outcome access gpio value s).1 = .ok then
        Function.update s.value (setValuePath outcome.blue access gpio) (value ≠ 0)
      else s.value := by
  unfold gpioSetValue
  dsimp only
  split
  · rfl
  · rfl

theorem Call.writes_of_drives {call : Call} (drives : call.drives gpio = true)
    (notLed : isLed blue gpio = false) : call.writes blue gpio = true := by
  cases call with
  | gpioSetValue outcome access other value => cases drives
  | _ => simp [Call.writes, notLed, drives]

/-- A call that does not write the pin leaves its file. -/
theorem call_value {call : Call} {reply : Reply} (other : call.writes blue gpio = false)
    (goes : call.run board s = some (reply, t)) :
    t.value (valuePath blue gpio) = s.value (valuePath blue gpio) := by
  let touched : Nat → Prop := fun pin => valuePath blue gpio ≠ .gpio pin
  have apart : ∀ pin, touched pin → valuePath blue gpio ≠ .gpio pin := fun _ => id
  -- a line that is driven is that of another pin, or the pin is a LED
  have touches : ∀ pin, call.drives pin = true → touched pin := by
    intro pin drives line
    obtain ⟨rfl, notLed⟩ := valuePath_line line
    rw [Call.writes_of_drives drives notLed] at other
    cases other
  cases call with
  | gpioSetValue outcome access pin value =>
      have same : (gpioSetValue outcome access pin value s).2 = t :=
        congrArg Prod.snd (Option.some.inj goes)
      rw [← same, gpioSetValue_value]
      simp only [Call.writes, Bool.or_eq_false_iff, decide_eq_false_iff_not, bne_eq_false_iff_eq]
        at other
      obtain ⟨different, rfl⟩ := other
      split
      · exact Function.update_of_ne (setValuePath_ne different).symm ..
      · rfl
  | addEdgeDetect outcome thread pin edge =>
      have direction : outcome.direction.writes = true → touched pin := fun writes =>
        touches pin (by simp [Call.drives, writes])
      exact addEdgeDetect_value board direction apart goes
  | waitBegin outcome pin edge =>
      have direction : outcome.direction.writes = true → touched pin := fun writes =>
        touches pin (by simp [Call.drives, writes])
      exact waitBegin_value board direction apart goes
  | _ => exact (Still.call board rfl touches goes).value _ apart

theorem value_respects (blue : Bool) (gpio : Nat) : Respects board
    (fun s t => t.value (valuePath blue gpio) = s.value (valuePath blue gpio))
    (fun call => call.writes blue gpio = false) where
  refl _ := rfl
  trans first second := second.trans first
  call other goes := call_value board other goes
  ran _ _ _ := rfl

theorem pollAgain_value (thread : Nat) (s : System) : (pollAgain thread s).value = s.value := by
  unfold pollAgain
  split
  · split
    · rfl
    · rfl
  · rfl

theorem step_value {event : Event} (other : event.writes blue gpio = false)
    (goes : step board event s = some t) :
    t.value (valuePath blue gpio) = s.value (valuePath blue gpio) := by
  have respects := value_respects board blue gpio
  cases event with
  | call call =>
      obtain ⟨⟨reply, u⟩, ran, same⟩ := Option.map_eq_some_iff.mp goes
      cases same
      have single : call.writes blue gpio = false := by
        simpa [Event.writes, Event.calls] using other
      exact respects.call single ran
  | threadStart =>
      cases goes
      unfold threadStart
      split
      · rfl
      · split
        · rfl
        · rfl
  | wake thread fd reads bodies =>
      have noWrites : ∀ call ∈ bodies.flatten, call.writes blue gpio = false := by
        have silent : bodies.flatten.any (Call.writes blue gpio) = false := other
        intro call member
        simpa using List.any_eq_false.mp silent call member
      rcases pollThread_cases goes with rfl | ⟨-, rfl | ⟨pin, rfl | ⟨u, ran, rfl⟩⟩⟩
      · rfl
      · rfl
      · rw [pollAgain_value]
        rfl
      · have kept := respects.callbacks noWrites ran
        rw [pollAgain_value]
        exact kept
  | waitFailed thread =>
      cases goes
      split
      · rfl
      · rfl
  | level path value =>
      cases goes
      have different : path ≠ valuePath blue gpio := by simpa [Event.writes] using other
      exact Function.update_of_ne different.symm ..

theorem run_value {events : List Event} (others : ∀ event ∈ events, event.writes blue gpio = false)
    (goes : run board events s = some t) :
    t.value (valuePath blue gpio) = s.value (valuePath blue gpio) := by
  induction events generalizing s with
  | nil =>
      cases goes
      rfl
  | cons event rest ih =>
      obtain ⟨here, later⟩ := List.forall_mem_cons.mp others
      rw [run] at goes
      obtain ⟨mid, first, goes⟩ := Option.bind_eq_some_iff.mp goes
      exact (ih later goes).trans (step_value board here first)

/-! ## What is read -/

/-- A value is read from the pin's own file, whatever descriptor it is read by. -/
theorem System.Rests.getValue_eq {present : Nat → Bool} {before : List Note}
    {callbacks : List (Nat × Callback)} {stale : Bool}
    (rests : s.Rests (· = blue) present before callbacks stale) {outcome : OpenOutcome}
    (same : outcome.blue = blue) (reads : Bool) (gpio : Nat) :
    (gpioGetValue board outcome reads gpio s).1 = (.sysfs, none) ∨
      (gpioGetValue board outcome reads gpio s).1 = (.ok, some (s.value (valuePath blue gpio))) := by
  obtain ⟨lost, good⟩ := rests
  have still : Still (fun _ => False) s (openIfNeeded board outcome gpio (fdLookup gpio s) s).2 :=
    .openIfNeeded ..
  have file : ∀ fd t, openIfNeeded board outcome gpio (fdLookup gpio s) s = (some fd, t) →
      t.files.get? fd = some (.value (valuePath blue gpio)) := by
    intro fd t opens
    unfold openIfNeeded at opens
    rcases good.ledger.lookup_cases gpio with ⟨zero, -⟩ | ⟨positive, listed⟩
    · rw [if_pos zero, openValueFile] at opens
      split at opens
      · have path : valuePath outcome.blue gpio = valuePath blue gpio := by rw [same]
        unfold addFdList at opens
        dsimp only [openFile] at opens
        split at opens
        · cases opens
          rw [path]
          exact Pool.get?_add_self ..
        · cases opens
          rw [path]
          exact Pool.get?_add_self ..
      · cases opens
    · rw [if_neg (by omega)] at opens
      cases opens
      obtain ⟨answer, rfl, file⟩ := good.ledger.value _ listed
      exact file
  unfold gpioGetValue
  rcases opens : openIfNeeded board outcome gpio (fdLookup gpio s) s with ⟨fd, t⟩
  rw [opens] at still
  cases fd with
  | none => exact Or.inl rfl
  | some fd =>
      have byte : t.readByte fd = some (s.value (valuePath blue gpio)) := by
        rw [System.readByte, file fd t opens, ← still.value _ fun _ no => no.elim]
      cases reads with
      | false => exact Or.inl rfl
      | true =>
          right
          dsimp only
          rw [if_pos rfl, byte]

/-- What a successful call of `gpio_set_value` wrote is read back later on, whatever is called
meanwhile, unless the pin is written again, or its line set up or given up. -/
theorem value_round_trip (initial : s.Initial) {first later : List Event} {outcome : SysfsOutcome}
    {access : Bool} {value : Nat}
    (proper : Proper (· = blue) (first ++ .call (.gpioSetValue outcome access gpio value) :: later))
    (spared : Spared board (first ++ .call (.gpioSetValue outcome access gpio value) :: later) s)
    (answers : outcome.blue = blue) (writable : isUsrLed gpio = true → access = true)
    (others : ∀ event ∈ later, event.writes blue gpio = false) :
    ∃ mid t, run board first s = some mid ∧
      run board (first ++ .call (.gpioSetValue outcome access gpio value) :: later) s = some t ∧
      ((gpioSetValue outcome access gpio value mid).1 = .ok →
        ∀ (get : OpenOutcome) (reads : Bool), get.blue = blue →
          (gpioGetValue board get reads gpio t).1 = (.sysfs, none) ∨
            (gpioGetValue board get reads gpio t).1 = (.ok, some (decide (value ≠ 0)))) := by
  obtain ⟨t, callbacks, stale, ran, rests, -, -⟩ := initial.run_rests board proper spared
  obtain ⟨mid, begins, goes⟩ :=
    Option.bind_eq_some_iff.mp ((run_append board first _ s).symm.trans ran)
  refine ⟨mid, t, begins, ran, fun succeeds get reads same => ?_⟩
  have kept : t.value (valuePath blue gpio) = decide (value ≠ 0) := by
    rw [run] at goes
    obtain ⟨set, wrote, goes⟩ := Option.bind_eq_some_iff.mp goes
    have written : (gpioSetValue outcome access gpio value mid).2 = set := Option.some.inj wrote
    rw [run_value board others goes, ← written, gpioSetValue_value, if_pos succeeds, answers,
      setValuePath_eq writable]
    exact Function.update_self ..
  rw [← kept]
  exact rests.getValue_eq board same reads gpio

/-- Pin 60 is an output. -/
def outputRun : List Event :=
  [.call (.gpioExport ⟨false, false, true, true, true⟩ 60), .call (.gpioSetDirection smoothSysfs 60 1)]

/-- Pin 60 is set, and pin 48 watched for a while. -/
theorem value_round_trip_example :
    ∃ t, run plainBoard (outputRun ++ .call (.gpioSetValue smoothSysfs true 60 1) ::
        buttonRun.take 7) idle = some t ∧
      ∀ (get : OpenOutcome) (reads : Bool), get.blue = false →
        (gpioGetValue plainBoard get reads 60 t).1 = (.sysfs, none) ∨
          (gpioGetValue plainBoard get reads 60 t).1 = (.ok, some (decide (1 ≠ 0))) := by
  have proper : Proper (· = false)
      (outputRun ++ .call (.gpioSetValue smoothSysfs true 60 1) :: buttonRun.take 7) :=
    ⟨by decide, by decide⟩
  obtain ⟨mid, t, begins, ran, reads⟩ :=
    value_round_trip plainBoard idle_initial proper (by decide) rfl (by decide) (by decide)
  refine ⟨t, ran, reads ?_⟩
  have succeeds : (run plainBoard outputRun idle).map
      (fun mid => (gpioSetValue smoothSysfs true 60 1 mid).1) = some .ok := by decide
  rw [begins] at succeeds
  exact Option.some.inj succeeds

end Values

end ProjectOwl.Beagle.Gpio
