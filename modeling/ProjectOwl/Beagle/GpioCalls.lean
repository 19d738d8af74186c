import ProjectOwl.Beagle.GpioWatch

/-! # The calls of the library

A call in range ends, and the account of the pins is good after it, whatever fails. -/

set_option autoImplicit false

namespace ProjectOwl.Beagle.Gpio

/-- The pins and edges that a call may be given; `may` tells what `beaglebone_blue` may
return to it. -/
def Call.InRange (may : Bool → Prop) : Call → Prop
  | .gpioExport _ gpio | .gpioUnexport _ gpio | .removeEdgeDetect _ gpio | .eventDetected gpio =>
      gpio < GPIOS
  | .gpioSetEdge _ _ edge => edge < 4
  | .gpioGetValue outcome _ _ => may outcome.blue
  | .addEdgeDetect outcome _ gpio edge | .waitBegin outcome gpio edge =>
      gpio < GPIOS ∧ edge < 4 ∧ may outcome.value.blue
  | _ => True

instance (may : Bool → Prop) [DecidablePred may] : ∀ call : Call, Decidable (call.InRange may)
  | .gpioExport _ _ | .gpioUnexport _ _ | .removeEdgeDetect _ _ | .eventDetected _ =>
      inferInstanceAs (Decidable (_ < GPIOS))
  | .gpioSetEdge _ _ edge => inferInstanceAs (Decidable (edge < 4))
  | .gpioGetValue outcome _ _ => inferInstanceAs (Decidable (may outcome.blue))
  | .addEdgeDetect outcome _ gpio edge | .waitBegin outcome gpio edge =>
      inferInstanceAs (Decidable (gpio < GPIOS ∧ edge < 4 ∧ may outcome.value.blue))
  | .exportsCleanup _ | .gpioSetDirection .. | .gpioGetDirection .. | .gpioSetValue ..
  | .addEdgeCallback .. | .gpioInitial _ | .gpioIsEvented _ | .gpioEventAdd _ | .gpioEventRemove _
  | .eventCleanup _ | .waitEnd .. => inferInstanceAs (Decidable True)

def Call.cleansUp : Call → Bool
  | .eventCleanup _ => true
  | _ => false

/-- The account between two calls; `stale` tells that `epfd` has been closed. -/
def Account.resting (may : Bool → Prop) (present : Nat → Bool) (before : List Note)
    (epfd : Option Nat) (waits : List Wait) (callbacks : List (Nat × Callback)) (stale : Bool)
    (lost : List Nat) : Account :=
  ⟨may, present, before, epfd, waits, callbacks,
    (if stale then [] else epfd.toList) ++ waits.map Wait.epfd, lost⟩

def System.Rests (s : System) (may : Bool → Prop) (present : Nat → Bool) (before : List Note)
    (callbacks : List (Nat × Callback)) (stale : Bool) : Prop :=
  ∃ lost, s.Good (.resting may present before s.epfd s.waits callbacks stale lost)

section Parts
variable (board : Board) {s : System} {acc : Account} {gpio : Nat}

/-! ## Exports -/

theorem System.Good.setExported (good : s.Good acc) {state : Exported} {there : Bool}
    (agrees : there = (acc.present gpio || decide (state = .exported)))
    (ours : state = .exported → acc.present gpio = false ∧ gpio < GPIOS) :
    ({ s with present := Function.update s.present gpio there }.setExported gpio state).Good acc := by
  refine ⟨good.ledger, good.counted, good.addresses, good.told, ?_, good.epfd,
    good.waits, good.callbacks⟩
  intro other
  by_cases same : other = gpio
  · subst same
    simp only [System.setExported, Function.update_self]
    exact ⟨agrees, ours⟩
  · simp only [System.setExported, Function.update_of_ne same]
    exact good.exports other

theorem System.Good.gpioExport (good : s.Good acc) (outcome : ExportOutcome)
    (inRange : gpio < GPIOS) :
    ∃ err t, Gpio.gpioExport outcome gpio s = some (err, t) ∧ t.Good acc ∧ t.pairs = s.pairs := by
  obtain ⟨present, -⟩ := good.exports gpio
  unfold Gpio.gpioExport
  rw [if_neg (by omega)]
  by_cases before : s.exportedGpios gpio = .notExported
  · rw [if_neg (by simp [before])]
    have agrees : s.present gpio = acc.present gpio := by simpa [before] using present
    by_cases led : isLed outcome.blue gpio = true
    · exact ⟨_, _, by rw [if_pos led], good, rfl⟩
    · rw [if_neg led]
      by_cases there : (s.present gpio && outcome.access) = true
      · rw [if_pos there]
        have same : s.setExported gpio .alreadyExported =
            { s with present := Function.update s.present gpio (s.present gpio) }.setExported gpio
              .alreadyExported := by
          rw [Function.update_eq_self]
        refine ⟨_, _, rfl, ?_, rfl⟩
        rw [same]
        exact good.setExported (by simpa using agrees) fun no => by cases no
      · rw [if_neg there]
        split
        · exact ⟨_, _, rfl, good, rfl⟩
        · dsimp only
          split
          · rename_i writes
            have absent : s.present gpio = false := by
              simp only [Bool.and_eq_true, Bool.not_eq_eq_eq_not, Bool.not_true] at writes
              exact writes.2
            refine ⟨_, _, rfl, ?_, rfl⟩
            exact good.setExported (by simp) fun _ => ⟨agrees.symm.trans absent, inRange⟩
          · exact ⟨_, _, rfl, good, rfl⟩
  · exact ⟨_, _, by rw [if_pos before], good, rfl⟩

theorem System.Good.gpioUnexport (good : s.Good acc) (outcome : SysfsOutcome)
    (inRange : gpio < GPIOS) :
    ∃ err t, Gpio.gpioUnexport outcome gpio s = some (err, t) ∧ t.Good acc := by
  unfold Gpio.gpioUnexport
  rw [if_neg (by omega)]
  by_cases ours : s.exportedGpios gpio = .exported
  · rw [if_neg (by simp [ours])]
    obtain ⟨absent, -⟩ := (good.exports gpio).2 ours
    obtain ⟨closed, -⟩ := good.closeValue gpio
    dsimp only
    split
    · exact ⟨_, _, rfl, closed⟩
    · split
      · exact ⟨_, _, rfl, closed⟩
      · have given := closed.rest (Function.update (closeValueFd gpio s).output gpio false)
          (closeValueFd gpio s).edge
          (Function.update (closeValueFd gpio s).value (.gpio gpio) outcome.line)
          (closeValueFd gpio s).threadRunning (closeValueFd gpio s).created
          (closeValueFd gpio s).instances (closeValueFd gpio s).polling
        exact ⟨_, _, rfl, given.setExported (by simp [absent]) fun no => by cases no⟩
  · exact ⟨_, _, by rw [if_pos ours], good⟩

theorem System.Good.exportsCleanupFrom (good : s.Good acc) (outcomes : Nat → SysfsOutcome)
    {pins : List Nat} (inRange : ∀ gpio ∈ pins, gpio < GPIOS) :
    ∃ t, Gpio.exportsCleanupFrom outcomes pins s = some t ∧ t.Good acc := by
  induction pins generalizing s with
  | nil => exact ⟨s, rfl, good⟩
  | cons gpio rest ih =>
      obtain ⟨here, others⟩ := List.forall_mem_cons.mp inRange
      obtain ⟨err, mid, ran, kept⟩ := good.gpioUnexport (outcomes gpio) here
      obtain ⟨t, rest, final⟩ := ih kept others
      exact ⟨t, by simp [Gpio.exportsCleanupFrom, ran, rest], final⟩

theorem System.Good.exportsCleanup (good : s.Good acc) (outcomes : Nat → SysfsOutcome) :
    ∃ t, Gpio.exportsCleanup outcomes s = some t ∧ t.Good acc :=
  good.exportsCleanupFrom outcomes fun _ member => List.mem_range.mp member

/-! ## Setting a pin up -/

theorem System.Good.setDirection (good : s.Good acc) (outcome : SysfsOutcome)
    (gpio inFlag : Nat) :
    (gpioSetDirection outcome gpio inFlag s).2.Good acc ∧
      (gpioSetDirection outcome gpio inFlag s).2.pairs = s.pairs := by
  unfold gpioSetDirection
  split
  · exact ⟨good, rfl⟩
  · split
    · exact ⟨good, rfl⟩
    · exact ⟨good.rest .., rfl⟩

theorem System.Good.setEdge (good : s.Good acc) (outcome : SysfsOutcome) (gpio : Nat) {edge : Nat}
    (inRange : edge < 4) :
    ∃ set t, gpioSetEdge outcome gpio edge s = some (set, t) ∧ t.Good acc ∧ t.pairs = s.pairs := by
  unfold gpioSetEdge
  split
  · exact ⟨_, _, rfl, good, rfl⟩
  · rw [if_neg (by omega)]
    split
    · exact ⟨_, _, rfl, good, rfl⟩
    · exact ⟨_, _, rfl, good.rest .., rfl⟩

theorem System.Good.prepare (good : s.Good acc) (outcome : WatchOutcome) {edge : Nat}
    (inRange : gpio < GPIOS) (known : edge < 4) :
    ∃ t, Gpio.prepare outcome gpio edge s = some t ∧ t.Good acc ∧ t.pairs = s.pairs := by
  obtain ⟨err, first, exported, good₁, same₁⟩ := good.gpioExport outcome.exports inRange
  obtain ⟨good₂, same₂⟩ := good₁.setDirection outcome.direction gpio 0
  obtain ⟨set, t, edges, good₃, same₃⟩ := good₂.setEdge outcome.edge gpio known
  refine ⟨t, ?_, good₃, same₃.trans (same₂.trans same₁)⟩
  simp [Gpio.prepare, exported, edges]

/-- The descriptor that was looked up before the pin was set up. -/
theorem System.Good.openLater (good : s.Good acc) {outcome : OpenOutcome}
    (allowed : acc.may outcome.blue) (gpio : Nat) {earlier : System}
    (same : s.pairs = earlier.pairs) :
    Gpio.openIfNeeded board outcome gpio (fdLookup gpio earlier) s = (none, s) ∨
      ∃ fd t lost, Gpio.openIfNeeded board outcome gpio (fdLookup gpio earlier) s = (some fd, t) ∧
        t.Good { acc with lost } ∧ t.Usable gpio fd := by
  have lookup : fdLookup gpio earlier = fdLookup gpio s := by rw [fdLookup_eq, fdLookup_eq, same]
  rw [lookup]
  exact good.openIfNeeded board allowed gpio

theorem System.Good.abandon {e : Nat} {epolls : List Nat} (good : s.Good acc)
    (first : acc.epolls = e :: epolls) (gpio : Nat) :
    (s.note (.lost gpio)).Good { acc with epolls, lost := e :: acc.lost } := by
  have ledger := good.ledger
  rw [first] at ledger
  refine ⟨ledger.abandon, ?_, good.addresses, ?_, good.exports, good.epfd,
    good.waits, good.callbacks⟩
  · simp [System.note, Note.isLost, good.counted]
  · exact good.told.step rfl trivial rfl fun _ _ => rfl

theorem System.Good.permute {epolls : List Nat} (good : s.Good acc)
    (same : acc.epolls.Perm epolls) : s.Good { acc with epolls } :=
  ⟨good.ledger.perm same, good.counted, good.addresses, good.told, good.exports, good.epfd,
    good.waits, good.callbacks⟩

theorem System.Good.setWaits (good : s.Good acc) (waits : List Wait) :
    { s with waits }.Good { acc with waits } :=
  ⟨good.ledger, good.counted, good.addresses, good.told, good.exports, good.epfd, rfl,
    good.callbacks⟩

/-! ## Callbacks -/

theorem System.Good.addCallback (good : s.Good acc) (malloc : Bool) (gpio func : Nat) :
    (addEdgeCallback board malloc gpio func s).2.Good acc ∨
      ∃ a, (addEdgeCallback board malloc gpio func s).2.Good
        { acc with callbacks := acc.callbacks ++ [(a, ⟨gpio, func⟩)] } := by
  unfold addEdgeCallback
  cases malloc with
  | false => exact Or.inl good
  | true =>
      right
      have fresh := board.malloc.fresh (s.callbacks.map Prod.fst).toFinset
      rw [List.mem_toFinset] at fresh
      refine ⟨_, good.ledger, ?_, ?_, ?_, good.exports, good.epfd, good.waits,
        congrArg (· ++ _) good.callbacks⟩
      · simpa [System.note, Note.isLost] using good.counted
      · have apart := List.nodup_cons.mpr ⟨fresh, good.addresses⟩
        simpa [System.note] using List.nodup_append_comm.mp apart
      · refine good.told.step rfl trivial ?_ fun other elsewhere => ?_
        · simp [System.pin, Pin.act, System.note, gpioInitial, Note.gpio]
        · have different : gpio ≠ other := elsewhere
          simp [System.pin, System.note, gpioInitial, different]

theorem removeCallbacksFrom_eq (gpio : Nat) (callbacks : List (Nat × Callback)) :
    removeCallbacksFrom gpio callbacks = callbacks.filter fun cb => cb.2.gpio ≠ gpio := by
  induction callbacks with
  | nil => rfl
  | cons cb rest ih =>
      rw [removeCallbacksFrom]
      by_cases here : cb.2.gpio = gpio
      · rw [if_pos here, List.filter_cons_of_neg (by simp [here]), ih]
      · rw [if_neg here, List.filter_cons_of_pos (by simp [here]), ih]

theorem System.Good.removeCallbacks (good : s.Good acc) (gpio : Nat) :
    (Gpio.removeCallbacks gpio s).Good
      { acc with callbacks := acc.callbacks.filter fun cb => cb.2.gpio ≠ gpio } := by
  unfold Gpio.removeCallbacks
  rw [removeCallbacksFrom_eq]
  refine ⟨good.ledger, ?_, ?_, ?_, good.exports, good.epfd, good.waits,
    congrArg (List.filter _) good.callbacks⟩
  · simpa [System.note, Note.isLost] using good.counted
  · exact good.addresses.sublist (List.filter_sublist.map _)
  · refine good.told.step rfl trivial ?_ fun other elsewhere => ?_
    · have none : (s.callbacks.filter fun cb => cb.2.gpio ≠ gpio).filter
          (fun cb => cb.2.gpio = gpio) = [] := by
        rw [List.filter_eq_nil_iff]
        intro cb member
        simpa using (List.mem_filter.mp member).2
      exact congrArg (fun cbs : List (Nat × Callback) =>
        Pin.mk (gpioInitial gpio s) (s.eventOccurred gpio) (cbs.map fun cb => cb.2.func)) none
    · have different : gpio ≠ other := elsewhere
      simp only [System.pin, System.note, gpioInitial, List.filter_filter, Pin.mk.injEq, true_and]
      congr 1
      apply List.filter_congr
      intro cb _
      by_cases isOther : cb.2.gpio = other
      · simp [isOther, Ne.symm different]
      · simp [isOther]

/-! ## Flags -/

theorem System.Good.clear (good : s.Good acc) (note : Note) (quiet : note.ofThread = false)
    (kept : note.isLost = false)
    (clears : ∀ pin : Pin, pin.act note = { pin with occurred := false })
    (here : note.Answers s.eventOccurred) :
    ({ s with eventOccurred := Function.update s.eventOccurred note.gpio false }.note note).Good
      acc := by
  refine ⟨good.ledger, ?_, good.addresses, ?_, good.exports, good.epfd, good.waits, good.callbacks⟩
  · simpa [System.note, kept] using good.counted
  · refine good.told.step quiet here ?_ fun other elsewhere => ?_
    · rw [clears]
      simp [System.pin, System.note, gpioInitial]
    · simp [System.pin, System.note, gpioInitial, Ne.symm elsewhere]

theorem System.Good.eventDetected (good : s.Good acc) (inRange : gpio < GPIOS) :
    ∃ yes t, Gpio.eventDetected gpio s = some (yes, t) ∧ t.Good acc := by
  unfold Gpio.eventDetected
  rw [if_neg (by omega)]
  by_cases occurred : s.eventOccurred gpio = true
  · rw [if_pos occurred]
    exact ⟨_, _, rfl, good.clear (.detected gpio true) rfl rfl (fun _ => rfl) occurred.symm⟩
  · rw [if_neg occurred]
    refine ⟨_, _, rfl, good.ledger, ?_, good.addresses, ?_, good.exports, good.epfd,
      good.waits, good.callbacks⟩
    · simpa [System.note, Note.isLost] using good.counted
    · have unset : s.eventOccurred gpio = false := by simpa using occurred
      exact good.told.step rfl unset.symm rfl fun _ _ => rfl

end Parts

/-! ## Edge detection -/

section Edges
variable (board : Board) {s : System} {may : Bool → Prop} {present : Nat → Bool}
  {before : List Note} {epfd : Option Nat} {waits : List Wait} {callbacks : List (Nat × Callback)}
  {stale : Bool} {lost : List Nat} {gpio : Nat}

theorem System.Good.rests
    (good : s.Good (.resting may present before epfd waits callbacks stale lost)) :
    s.Rests may present before callbacks stale := by
  have epfd : s.epfd = _ := good.epfd
  have waits : s.waits = _ := good.waits
  refine ⟨lost, ?_⟩
  rw [epfd, waits]
  exact good

theorem System.Good.epfdOrCreate
    (good : s.Good (.resting may present before epfd waits callbacks stale lost)) (succeeds : Bool) :
    Gpio.epfdOrCreate board succeeds s = (none, s) ∨
      ∃ e t stale', Gpio.epfdOrCreate board succeeds s = (some e, t) ∧
        t.Good (.resting may present before (some e) waits callbacks stale' lost) ∧
        (stale' = true → stale = true) ∧ ∀ gpio fd, s.Usable gpio fd → t.Usable gpio fd := by
  unfold Gpio.epfdOrCreate
  have own : s.epfd = epfd := good.epfd
  cases epfd with
  | some e =>
      rw [own]
      exact Or.inr ⟨e, s, stale, rfl, good, id, fun _ _ => id⟩
  | none =>
      rw [own]
      have quiet : (Account.resting may present before none waits callbacks stale lost).epolls =
          waits.map Wait.epfd := by
        cases stale with
        | true => rfl
        | false => rfl
      cases succeeds with
      | false =>
          left
          have same : { s with epfd := none } = s := by rw [← own]
          simp only [Gpio.epollCreate, Bool.false_eq_true, if_false]
          rw [same]
      | true =>
          right
          have fresh := board.descriptor.fresh s.files.used
          have positive := board.descriptor_pos s.files.used
          have ledger := good.ledger
          rw [quiet] at ledger
          refine ⟨_, _, false, rfl, ?_, (fun no => by cases no), ?_⟩
          · exact ⟨ledger.created fresh positive _, good.counted, good.addresses, good.told,
              good.exports, rfl, good.waits, good.callbacks⟩
          · rintro other fd ⟨⟨path, file⟩, pin⟩
            exact ⟨⟨path, Pool.get?_add_of_fresh _ _ fresh file⟩, pin⟩

theorem System.Rests.addEdgeDetect (rests : s.Rests may present before callbacks stale)
    {outcome : WatchOutcome} {edge : Nat} (inRange : gpio < GPIOS) (known : edge < 4)
    (allowed : may outcome.value.blue) (thread : Bool) :
    ∃ reply t stale', Gpio.addEdgeDetect board outcome thread gpio edge s = some (reply, t) ∧
      t.Rests may present before callbacks stale' ∧ (stale' = true → stale = true) := by
  obtain ⟨lost, good⟩ := rests
  obtain ⟨good₁, pairs₁, -⟩ := good.eventAdd gpio
  rcases added : gpioEventAdd gpio s with ⟨already, s₁⟩
  rw [added] at good₁ pairs₁
  cases already with
  | true => exact ⟨.code (-1), s₁, stale, by simp [Gpio.addEdgeDetect, added], good₁.rests, id⟩
  | false =>
      obtain ⟨s₂, prepared, good₂, pairs₂⟩ := good₁.prepare outcome inRange known
      rcases good₂.openLater board allowed gpio (pairs₂.trans pairs₁) with
        closed | ⟨fd, s₃, lost', opens, good₃, usable⟩
      · exact ⟨.errno, s₂, stale, by simp [Gpio.addEdgeDetect, added, prepared, closed],
          good₂.rests, id⟩
      · rcases System.Good.epfdOrCreate board good₃ outcome.create with
          fails | ⟨e, s₄, stale', creates, good₄, since, usable'⟩
        · exact ⟨.errno, s₃, stale, by simp [Gpio.addEdgeDetect, added, prepared, opens, fails],
            System.Good.rests good₃, id⟩
        · have good₅ := good₄.epollAdd (usable' _ _ usable) inRange outcome.add e
          rcases adds : epollAdd outcome.add e fd s₄ with ⟨succeeded, s₅⟩
          rw [adds] at good₅
          cases succeeded with
          | false =>
              exact ⟨.errno, s₅, stale',
                by simp [Gpio.addEdgeDetect, added, prepared, opens, creates, adds],
                good₅.rests, since⟩
          | true =>
              by_cases running : s₅.threadRunning = true
              · exact ⟨.code 0, s₅, stale',
                  by simp [Gpio.addEdgeDetect, added, prepared, opens, creates, adds, running],
                  good₅.rests, since⟩
              · cases thread with
                | false =>
                    exact ⟨.errno, s₅, stale',
                      by simp [Gpio.addEdgeDetect, added, prepared, opens, creates, adds, running],
                      good₅.rests, since⟩
                | true =>
                    exact ⟨.code 0, { s₅ with created := s₅.created + 1 }, stale',
                      by simp [Gpio.addEdgeDetect, added, prepared, opens, creates, adds, running],
                      (good₅.rest ..).rests, since⟩

theorem System.Rests.removeEdgeDetect (rests : s.Rests may present before callbacks stale)
    (outcome : SysfsOutcome) (inRange : gpio < GPIOS) :
    ∃ t, Gpio.removeEdgeDetect outcome gpio s = some t ∧
      t.Rests may present before (callbacks.filter fun cb => cb.2.gpio ≠ gpio) stale := by
  obtain ⟨lost, good⟩ := rests
  have good₁ := good.removeCallbacks gpio
  have good₂ := good₁.epollDel (Gpio.removeCallbacks gpio s).epfd (fdLookup gpio s)
  obtain ⟨set, s₃, edges, good₃, -⟩ := good₂.setEdge outcome gpio (by decide : 0 < 4)
  obtain ⟨good₄, -⟩ := good₃.eventRemove gpio
  have cleared := good₄.clear (.cleared gpio) rfl rfl (fun _ => rfl) trivial
  refine ⟨_, ?_, cleared.rests⟩
  simp [Gpio.removeEdgeDetect, edges, show ¬GPIOS ≤ gpio by omega, Note.gpio]

theorem System.Rests.eventCleanup (rests : s.Rests may present before callbacks false)
    (outcomes : Nat → SysfsOutcome) :
    ∃ t stale', Gpio.eventCleanup outcomes s = some t ∧
      t.Rests may present before callbacks stale' := by
  obtain ⟨lost, good⟩ := rests
  unfold Gpio.eventCleanup
  cases own : s.epfd with
  | none =>
      rw [own] at good
      obtain ⟨t, ran, final⟩ := (good.rest s.output s.edge s.value false s.created s.instances
        s.polling).exportsCleanup outcomes
      exact ⟨t, false, ran, final.rests⟩
  | some e =>
      rw [own] at good
      have closed :
          (close e s).Good (.resting may present before (some e) s.waits callbacks true lost) :=
        good.closeEpoll rfl
      obtain ⟨t, ran, final⟩ := (closed.rest s.output s.edge s.value false s.created s.instances
        s.polling).exportsCleanup outcomes
      exact ⟨t, true, ran, final.rests⟩

theorem System.Rests.getValue (rests : s.Rests may present before callbacks stale)
    {outcome : OpenOutcome} (allowed : may outcome.blue) (reads : Bool) (gpio : Nat) :
    (gpioGetValue board outcome reads gpio s).2.Rests may present before callbacks stale := by
  obtain ⟨lost, good⟩ := rests
  unfold gpioGetValue
  rcases good.openIfNeeded board allowed gpio with closed | ⟨fd, t, lost', opens, good', -⟩
  · rw [closed]
    exact good.rests
  · rw [opens]
    dsimp only
    split
    · exact System.Good.rests good'
    · exact System.Good.rests good'

/-! ## Waits -/

theorem System.Rests.waitBegin (rests : s.Rests may present before callbacks stale)
    {outcome : WatchOutcome} {edge : Nat} (inRange : gpio < GPIOS) (known : edge < 4)
    (allowed : may outcome.value.blue) :
    ∃ reply t, blockingWaitBegin board outcome gpio edge s = some (reply, t) ∧
      t.Rests may present before callbacks stale := by
  obtain ⟨lost, good⟩ := rests
  rcases good.epollCreate board outcome.create with fails | ⟨e, s₁, creates, good₁, pairs₁⟩
  · exact ⟨.code 1, s, by simp [blockingWaitBegin, fails], good.rests⟩
  · obtain ⟨good₂, pairs₂, -⟩ := good₁.eventAdd gpio
    rcases added : gpioEventAdd gpio s₁ with ⟨already, s₂⟩
    rw [added] at good₂ pairs₂
    cases already with
    | true =>
        exact ⟨.code 2, s₂.note (.lost gpio), by simp [blockingWaitBegin, creates, added],
          System.Good.rests (good₂.abandon rfl gpio)⟩
    | false =>
        obtain ⟨s₃, prepared, good₃, pairs₃⟩ := good₂.prepare outcome inRange known
        rcases good₃.openLater board allowed gpio (pairs₃.trans (pairs₂.trans pairs₁)) with
          closed | ⟨fd, s₄, lost', opens, good₄, usable⟩
        · exact ⟨.code 3, s₃.note (.lost gpio),
            by simp [blockingWaitBegin, creates, added, prepared, closed],
            System.Good.rests (good₃.abandon rfl gpio)⟩
        · have good₅ := good₄.epollAdd usable inRange outcome.add e
          rcases adds : epollAdd outcome.add e fd s₄ with ⟨succeeded, s₅⟩
          rw [adds] at good₅
          cases succeeded with
          | false =>
              obtain ⟨good₆, -⟩ := good₅.eventRemove gpio
              exact ⟨.code 4, (gpioEventRemove gpio s₅).note (.lost gpio),
                by simp [blockingWaitBegin, creates, added, prepared, opens, adds],
                System.Good.rests (good₆.abandon rfl gpio)⟩
          | true =>
              have waits : s₅.waits = s.waits := good₅.waits
              have order : (e :: ((if stale then [] else s.epfd.toList) ++ s.waits.map Wait.epfd)).Perm
                  ((if stale then [] else s.epfd.toList) ++
                    (s.waits ++ [Wait.mk gpio fd e]).map Wait.epfd) := by
                rw [List.map_append, ← List.append_assoc]
                exact (List.perm_append_comm : ([e] ++ _).Perm _)
              have final := (good₅.permute order).setWaits (s.waits ++ [⟨gpio, fd, e⟩])
              refine ⟨.waiting, { s₅ with waits := s.waits ++ [⟨gpio, fd, e⟩] }, ?_,
                System.Good.rests final⟩
              simp [blockingWaitBegin, creates, added, prepared, opens, adds, waits]

theorem System.Rests.waitEnd (rests : s.Rests may present before callbacks stale) (which : Nat)
    (waited : Waited) :
    (blockingWaitEnd which waited s).2.Rests may present before callbacks stale := by
  obtain ⟨lost, good⟩ := rests
  unfold blockingWaitEnd
  cases found : s.waits[which]? with
  | none => exact good.rests
  | some wait =>
      obtain ⟨inside, here⟩ := List.getElem?_eq_some_iff.mp found
      have order : ((if stale then [] else s.epfd.toList) ++ s.waits.map Wait.epfd).Perm
          (wait.epfd :: ((if stale then [] else s.epfd.toList) ++
            (s.waits.eraseIdx which).map Wait.epfd)) := by
        have taken := (List.getElem_cons_eraseIdx_perm inside).symm.map Wait.epfd
        rw [here, List.map_cons] at taken
        exact (taken.append_left _).trans List.perm_middle
      have held := (good.permute order).setWaits (s.waits.eraseIdx which)
      obtain ⟨good', -⟩ := held.eventRemove wait.gpio
      cases waited with
      | failed => exact System.Good.rests (good'.abandon rfl wait.gpio)
      | timeout => exact System.Good.rests (good'.closeEpoll rfl)
      | ready reads =>
          cases reads with
          | false => exact System.Good.rests (good'.abandon rfl wait.gpio)
          | true => exact System.Good.rests (good'.closeEpoll rfl)

/-! ## Any call -/

/-- What a call makes of the callbacks. -/
def Call.Edits (callbacks : List (Nat × Callback)) : Call → List (Nat × Callback) → Prop
  | .addEdgeCallback _ gpio func, after =>
      after = callbacks ∨ ∃ a, after = callbacks ++ [(a, ⟨gpio, func⟩)]
  | .removeEdgeDetect _ gpio, after => after = callbacks.filter fun cb => cb.2.gpio ≠ gpio
  | _, after => after = callbacks

theorem call_rests (rests : s.Rests may present before callbacks stale) {call : Call}
    (inRange : call.InRange may) (once : call.cleansUp = true → stale = false) :
    ∃ reply t callbacks' stale', call.run board s = some (reply, t) ∧
      t.Rests may present before callbacks' stale' ∧ call.Edits callbacks callbacks' ∧
      (stale' = true → stale = true ∨ call.cleansUp = true) := by
  have calm := rests
  obtain ⟨lost, good⟩ := rests
  cases call with
  | gpioExport outcome gpio =>
      obtain ⟨err, t, ran, after, -⟩ := good.gpioExport outcome inRange
      exact ⟨.err err, t, callbacks, stale, by simp [Call.run, ran], after.rests, rfl, Or.inl⟩
  | gpioUnexport outcome gpio =>
      obtain ⟨err, t, ran, after⟩ := good.gpioUnexport outcome inRange
      exact ⟨.err err, t, callbacks, stale, by simp [Call.run, ran], after.rests, rfl, Or.inl⟩
  | exportsCleanup outcomes =>
      obtain ⟨t, ran, after⟩ := good.exportsCleanup outcomes
      exact ⟨.done, t, callbacks, stale, by simp [Call.run, ran], after.rests, rfl, Or.inl⟩
  | gpioSetDirection outcome gpio inFlag =>
      exact ⟨_, _, callbacks, stale, rfl, (good.setDirection outcome gpio inFlag).1.rests, rfl, Or.inl⟩
  | gpioGetDirection outcome gpio => exact ⟨_, s, callbacks, stale, rfl, calm, rfl, Or.inl⟩
  | gpioSetValue outcome access gpio value =>
      refine ⟨.err (gpioSetValue outcome access gpio value s).1,
        (gpioSetValue outcome access gpio value s).2, callbacks, stale, rfl, ?_, rfl, Or.inl⟩
      unfold gpioSetValue
      dsimp only
      split
      · exact calm
      · exact (good.rest ..).rests
  | gpioGetValue outcome reads gpio =>
      exact ⟨_, _, callbacks, stale, rfl, calm.getValue board inRange reads gpio, rfl, Or.inl⟩
  | gpioSetEdge outcome gpio edge =>
      obtain ⟨set, t, ran, after, -⟩ := good.setEdge outcome gpio inRange
      exact ⟨.code (if set then 0 else -1), t, callbacks, stale, by simp [Call.run, ran], after.rests,
        rfl, Or.inl⟩
  | addEdgeCallback malloc gpio func =>
      rcases good.addCallback board malloc gpio func with same | ⟨a, added⟩
      · exact ⟨_, _, callbacks, stale, rfl, same.rests, Or.inl rfl, Or.inl⟩
      · exact ⟨_, _, _, stale, rfl, System.Good.rests added, Or.inr ⟨a, rfl⟩, Or.inl⟩
  | addEdgeDetect outcome thread gpio edge =>
      obtain ⟨reply, t, stale', ran, after, since⟩ :=
        calm.addEdgeDetect board inRange.1 inRange.2.1 inRange.2.2 thread
      exact ⟨reply, t, callbacks, stale', ran, after, rfl, fun closed => Or.inl (since closed)⟩
  | removeEdgeDetect outcome gpio =>
      obtain ⟨t, ran, after⟩ := calm.removeEdgeDetect outcome inRange
      exact ⟨.done, t, _, stale, by simp [Call.run, ran], after, rfl, Or.inl⟩
  | eventDetected gpio =>
      obtain ⟨yes, t, ran, after⟩ := good.eventDetected inRange
      exact ⟨.code (if yes then 1 else 0), t, callbacks, stale, by simp [Call.run, ran], after.rests,
        rfl, Or.inl⟩
  | gpioInitial gpio => exact ⟨_, s, callbacks, stale, rfl, calm, rfl, Or.inl⟩
  | gpioIsEvented gpio => exact ⟨_, s, callbacks, stale, rfl, calm, rfl, Or.inl⟩
  | gpioEventAdd gpio =>
      exact ⟨_, _, callbacks, stale, rfl, (good.eventAdd gpio).1.rests, rfl, Or.inl⟩
  | gpioEventRemove gpio =>
      exact ⟨_, _, callbacks, stale, rfl, (good.eventRemove gpio).1.rests, rfl, Or.inl⟩
  | eventCleanup outcomes =>
      have fresh := once rfl
      subst fresh
      obtain ⟨t, stale', ran, after⟩ := calm.eventCleanup outcomes
      exact ⟨.done, t, callbacks, stale', by simp [Call.run, ran], after, rfl, fun _ => Or.inr rfl⟩
  | waitBegin outcome gpio edge =>
      obtain ⟨reply, t, ran, after⟩ := calm.waitBegin board inRange.1 inRange.2.1 inRange.2.2
      exact ⟨reply, t, callbacks, stale, ran, after, rfl, Or.inl⟩
  | waitEnd which waited =>
      exact ⟨_, _, callbacks, stale, rfl, calm.waitEnd which waited, rfl, Or.inl⟩

end Edges

end ProjectOwl.Beagle.Gpio
