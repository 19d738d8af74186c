import ProjectOwl.Beagle.GpioRuns

/-! # What the parts of a call leave alone

Most parts of a call leave the instance that `epfd` is, the threads and the values alone:
they open and close value files and change the lists and the pins in sysfs.  The value of
a pin is another one only once its direction is set or it is given up. -/

set_option autoImplicit false

namespace ProjectOwl.Beagle.Gpio

open Pwm (BbioErr)

def Note.isTrigger : Note → Bool
  | .triggered _ => true
  | _ => false

def System.triggers (s : System) : Nat := s.trace.countP Note.isTrigger

/-- `touched` are the pins whose values may change. -/
structure Still (touched : Nat → Prop) (s t : System) : Prop where
  epfd : t.epfd = s.epfd
  polling : t.polling = s.polling
  created : t.created = s.created
  stopped : s.threadRunning = false → t.threadRunning = false
  /-- What is not open as an instance of epoll is not opened as one. -/
  instanceOf : ∀ fd, s.instanceOf fd = none → t.instanceOf fd = none
  value : ∀ path, (∀ gpio, touched gpio → path ≠ .gpio gpio) → t.value path = s.value path
  triggers : t.triggers = s.triggers

section Still
variable {touched : Nat → Prop} {s t u : System} {gpio : Nat}

theorem Still.refl (s : System) : Still touched s s :=
  ⟨rfl, rfl, rfl, id, fun _ => id, fun _ _ => rfl, rfl⟩

theorem Still.trans (first : Still touched s t) (second : Still touched t u) :
    Still touched s u where
  epfd := second.epfd.trans first.epfd
  polling := second.polling.trans first.polling
  created := second.created.trans first.created
  stopped := second.stopped ∘ first.stopped
  instanceOf fd := second.instanceOf fd ∘ first.instanceOf fd
  value path apart := (second.value path apart).trans (first.value path apart)
  triggers := second.triggers.trans first.triggers

/-- The lists and the pins in sysfs may be other ones. -/
theorem Still.lists (s : System) (fdList : List Fdx) (callbacks : List (Nat × Callback))
    (exportedGpios : Nat → Exported) (eventOccurred : Nat → Bool) (interest : Nat → Finset Nat)
    (waits : List Wait) (present output : Nat → Bool) (edge : Nat → Nat) :
    Still touched s
      { s with
        fdList, callbacks, exportedGpios, eventOccurred, interest, waits, present, output, edge } :=
  ⟨rfl, rfl, rfl, id, fun _ => id, fun _ _ => rfl, rfl⟩

theorem Still.note (still : Still touched s t) {note : Note} (quiet : note.isTrigger = false) :
    Still touched s (t.note note) :=
  still.trans ⟨rfl, rfl, rfl, id, fun _ => id, fun _ _ => rfl, by
    simp [System.triggers, System.note, quiet]⟩

/-- A pin gets another level. -/
theorem Still.drive (s : System) (touches : touched gpio) (exportedGpios : Nat → Exported)
    (present output : Nat → Bool) (level : Bool) :
    Still touched s
      { s with
        exportedGpios, present, output, value := Function.update s.value (.gpio gpio) level } :=
  ⟨rfl, rfl, rfl, id, fun _ => id,
    fun _ apart => Function.update_of_ne (apart gpio touches) .., rfl⟩

theorem Still.close (fd : Nat) (s : System) : Still touched s (close fd s) := by
  refine ⟨rfl, rfl, rfl, id, ?_, fun _ _ => rfl, rfl⟩
  intro other none
  unfold System.instanceOf at *
  rw [Gpio.close, Pool.get?_drop]
  by_cases same : other = fd
  · rw [if_pos same]
  · rw [if_neg same]
    exact none

/-! ## Parts -/

theorem Still.closeValueFdFrom (gpio : Nat) (fdList : List Fdx) (s : System) :
    Still touched s (closeValueFdFrom gpio fdList s).2 := by
  induction fdList generalizing s with
  | nil => exact .refl s
  | cons f rest ih =>
      rw [Gpio.closeValueFdFrom]
      split
      · exact (Still.close f.fd s).trans (ih _)
      · exact ih s

theorem Still.closeValueFd (gpio : Nat) (s : System) : Still touched s (closeValueFd gpio s) := by
  unfold Gpio.closeValueFd
  refine Still.note ?_ rfl
  exact (Still.closeValueFdFrom gpio s.fdList s).trans (Still.lists ..)

theorem Still.eventAdd (gpio : Nat) (s : System) : Still touched s (gpioEventAdd gpio s).2 := by
  unfold gpioEventAdd
  split
  · exact .refl s
  · split
    · exact .refl s
    · exact .lists ..

theorem Still.eventRemove (gpio : Nat) (s : System) : Still touched s (gpioEventRemove gpio s) := by
  unfold gpioEventRemove
  split
  · exact Still.note (Still.lists ..) rfl
  · exact .refl s

theorem Still.openIfNeeded (board : Board) (outcome : OpenOutcome) (gpio fd : Nat) (s : System) :
    Still touched s (openIfNeeded board outcome gpio fd s).2 := by
  have opened : ∀ path : Path,
      Still touched s
        { s with files := s.files.add (board.descriptor.choose s.files.used) (.value path) } := by
    intro path
    refine ⟨rfl, rfl, rfl, id, ?_, fun _ _ => rfl, rfl⟩
    intro other none
    unfold System.instanceOf at *
    rw [Pool.get?_add]
    by_cases same : other = board.descriptor.choose s.files.used
    · rw [if_pos same]
    · rw [if_neg same]
      exact none
  unfold Gpio.openIfNeeded openValueFile addFdList
  split
  · split
    · dsimp only [openFile]
      split
      · exact Still.note ((opened _).trans (Still.lists ..)) rfl
      · exact Still.note (opened _) rfl
    · exact .refl s
  · exact .refl s

theorem Still.gpioExport {outcome : ExportOutcome} {err : BbioErr}
    (goes : gpioExport outcome gpio s = some (err, t)) : Still touched s t := by
  unfold Gpio.gpioExport at goes
  split at goes
  · cases goes
  · split at goes
    · cases goes
      exact .refl s
    · split at goes
      · cases goes
        exact .refl s
      · split at goes
        · cases goes
          exact .lists ..
        · split at goes
          · cases goes
            exact .refl s
          · dsimp only at goes
            split at goes
            · cases goes
              exact .lists ..
            · cases goes
              exact .refl s

theorem Still.gpioUnexport {outcome : SysfsOutcome} {err : BbioErr}
    (touches : outcome.writes = true → touched gpio)
    (goes : gpioUnexport outcome gpio s = some (err, t)) : Still touched s t := by
  unfold Gpio.gpioUnexport at goes
  split at goes
  · cases goes
  · split at goes
    · cases goes
      exact .refl s
    · have closed : Still touched s (Gpio.closeValueFd gpio s) := .closeValueFd gpio s
      dsimp only at goes
      split at goes
      · cases goes
        exact closed
      · rename_i opens
        split at goes
        · cases goes
          exact closed
        · rename_i done
          cases goes
          have writes : outcome.writes = true := by
            simp only [Bool.not_eq_eq_eq_not, Bool.not_true, Bool.not_eq_false, Bool.and_eq_true]
              at opens done
            simp [SysfsOutcome.writes, opens, done.1]
          exact closed.trans (Still.drive _ (touches writes) ..)

theorem Still.exportsCleanupFrom {outcomes : Nat → SysfsOutcome} {pins : List Nat}
    (touches : ∀ gpio, (outcomes gpio).writes = true → touched gpio)
    (goes : exportsCleanupFrom outcomes pins s = some t) : Still touched s t := by
  induction pins generalizing s with
  | nil =>
      cases goes
      exact .refl _
  | cons gpio rest ih =>
      rw [Gpio.exportsCleanupFrom] at goes
      obtain ⟨⟨err, mid⟩, ran, later⟩ := Option.bind_eq_some_iff.mp goes
      exact (Still.gpioUnexport (touches gpio) ran).trans (ih later)

theorem Still.setDirection {outcome : SysfsOutcome} (touches : outcome.writes = true → touched gpio)
    (inFlag : Nat) (s : System) : Still touched s (gpioSetDirection outcome gpio inFlag s).2 := by
  unfold gpioSetDirection
  split
  · exact .refl s
  · split
    · exact .refl s
    · rename_i writes
      exact Still.drive s (touches (by simpa using writes)) ..

theorem Still.setEdge {outcome : SysfsOutcome} {edge : Nat} {set : Bool}
    (goes : gpioSetEdge outcome gpio edge s = some (set, t)) : Still touched s t := by
  unfold gpioSetEdge at goes
  split at goes
  · cases goes
    exact .refl s
  · split at goes
    · cases goes
    · split at goes
      · cases goes
        exact .refl s
      · cases goes
        exact .lists ..

theorem Still.prepare {outcome : WatchOutcome} {edge : Nat}
    (touches : outcome.direction.writes = true → touched gpio)
    (goes : prepare outcome gpio edge s = some t) : Still touched s t := by
  unfold Gpio.prepare at goes
  obtain ⟨⟨err, mid⟩, exported, goes⟩ := Option.bind_eq_some_iff.mp goes
  obtain ⟨⟨set, last⟩, edges, goes⟩ := Option.bind_eq_some_iff.mp goes
  cases goes
  exact (Still.gpioExport exported).trans
    ((Still.setDirection touches 0 mid).trans (Still.setEdge edges))

theorem Still.getValue (board : Board) (outcome : OpenOutcome) (reads : Bool) (gpio : Nat)
    (s : System) : Still touched s (gpioGetValue board outcome reads gpio s).2 := by
  have opened : Still touched s (Gpio.openIfNeeded board outcome gpio (fdLookup gpio s) s).2 :=
    .openIfNeeded ..
  unfold gpioGetValue
  split
  · rename_i closed
    rw [closed] at opened
    exact opened
  · rename_i opens
    rw [opens] at opened
    split
    · exact opened
    · exact opened

theorem Still.addCallback (board : Board) (malloc : Bool) (gpio func : Nat) (s : System) :
    Still touched s (addEdgeCallback board malloc gpio func s).2 := by
  unfold addEdgeCallback
  split
  · exact Still.note (Still.lists ..) rfl
  · exact .refl s

theorem Still.epollAdd (succeeds : Bool) (epfd fd : Nat) (s : System) :
    Still touched s (epollAdd succeeds epfd fd s).2 := by
  unfold Gpio.epollAdd
  split
  · exact .refl s
  · split
    · exact .lists ..
    · exact .refl s

theorem Still.epollDel (epfd : Option Nat) (fd : Nat) (s : System) :
    Still touched s (epollDel epfd fd s) := by
  unfold Gpio.epollDel
  split
  · exact .refl s
  · exact .lists ..

theorem Still.removeEdgeDetect {outcome : SysfsOutcome}
    (goes : removeEdgeDetect outcome gpio s = some t) : Still touched s t := by
  unfold Gpio.removeEdgeDetect at goes
  have removed : Still touched s (removeCallbacks gpio s) := Still.note (Still.lists ..) rfl
  obtain ⟨⟨set, mid⟩, edges, goes⟩ := Option.bind_eq_some_iff.mp goes
  dsimp only at goes
  split at goes
  · cases goes
  · cases goes
    refine Still.note ?_ rfl
    exact removed.trans ((Still.epollDel ..).trans ((Still.setEdge edges).trans
      ((Still.eventRemove gpio mid).trans (Still.lists ..))))

theorem Still.eventDetected {yes : Bool} (goes : eventDetected gpio s = some (yes, t)) :
    Still touched s t := by
  unfold Gpio.eventDetected at goes
  split at goes
  · cases goes
  · split at goes
    · cases goes
      exact Still.note (Still.lists ..) rfl
    · cases goes
      exact Still.note (.refl s) rfl

theorem Still.stop (s : System) : Still touched s { s with threadRunning := false } :=
  ⟨rfl, rfl, rfl, fun _ => rfl, fun _ => id, fun _ _ => rfl, rfl⟩

theorem Still.eventCleanup {outcomes : Nat → SysfsOutcome}
    (touches : ∀ gpio, (outcomes gpio).writes = true → touched gpio)
    (goes : eventCleanup outcomes s = some t) : Still touched s t := by
  unfold Gpio.eventCleanup exportsCleanup at goes
  cases own : s.epfd with
  | none =>
      rw [own] at goes
      exact (Still.stop s).trans (Still.exportsCleanupFrom touches goes)
  | some e =>
      rw [own] at goes
      exact (Still.close e s).trans ((Still.stop _).trans (Still.exportsCleanupFrom touches goes))

theorem Still.waitEnd (which : Nat) (waited : Waited) (s : System) :
    Still touched s (blockingWaitEnd which waited s).2 := by
  unfold blockingWaitEnd
  split
  · exact .refl s
  · rename_i wait _
    have ended : Still touched s
        (gpioEventRemove wait.gpio { s with waits := s.waits.eraseIdx which }) :=
      Still.trans (Still.lists ..) (Still.eventRemove ..)
    cases waited with
    | failed => exact ended.note rfl
    | timeout => exact ended.trans (Still.close ..)
    | ready reads =>
        cases reads with
        | false => exact ended.note rfl
        | true => exact ended.trans (Still.close ..)

end Still

/-! ## Calls -/

/-- The line of a pin is set up or given up. -/
def Call.drives (gpio : Nat) : Call → Bool
  | .gpioSetDirection outcome other _ | .gpioUnexport outcome other => outcome.writes && other = gpio
  | .addEdgeDetect outcome _ other _ | .waitBegin outcome other _ =>
      outcome.direction.writes && other = gpio
  | .exportsCleanup outcomes | .eventCleanup outcomes => (outcomes gpio).writes
  | _ => false

/-- Calls that make no instance of epoll, and set no value but of a line they drive. -/
def Call.still : Call → Bool
  | .gpioSetValue .. | .addEdgeDetect .. | .waitBegin .. => false
  | _ => true

theorem Still.call (board : Board) {touched : Nat → Prop} {s t : System} {call : Call} {reply : Reply}
    (frames : call.still = true) (touches : ∀ gpio, call.drives gpio = true → touched gpio)
    (goes : call.run board s = some (reply, t)) : Still touched s t := by
  cases call with
  | gpioExport outcome gpio =>
      obtain ⟨⟨err, u⟩, ran, same⟩ := Option.map_eq_some_iff.mp goes
      cases same
      exact Still.gpioExport ran
  | gpioUnexport outcome gpio =>
      obtain ⟨⟨err, u⟩, ran, same⟩ := Option.map_eq_some_iff.mp goes
      cases same
      exact Still.gpioUnexport (fun writes => touches gpio (by simp [Call.drives, writes])) ran
  | exportsCleanup outcomes =>
      obtain ⟨u, ran, same⟩ := Option.map_eq_some_iff.mp goes
      cases same
      exact Still.exportsCleanupFrom touches ran
  | gpioSetDirection outcome gpio inFlag =>
      cases goes
      exact Still.setDirection (fun writes => touches gpio (by simp [Call.drives, writes])) ..
  | gpioGetDirection outcome gpio =>
      cases goes
      exact .refl s
  | gpioSetValue outcome access gpio value => cases frames
  | gpioGetValue outcome reads gpio =>
      cases goes
      exact Still.getValue ..
  | gpioSetEdge outcome gpio edge =>
      obtain ⟨⟨set, u⟩, ran, same⟩ := Option.map_eq_some_iff.mp goes
      cases same
      exact Still.setEdge ran
  | addEdgeCallback malloc gpio func =>
      cases goes
      exact Still.addCallback ..
  | addEdgeDetect outcome thread gpio edge => cases frames
  | removeEdgeDetect outcome gpio =>
      obtain ⟨u, ran, same⟩ := Option.map_eq_some_iff.mp goes
      cases same
      exact Still.removeEdgeDetect ran
  | eventDetected gpio =>
      obtain ⟨⟨yes, u⟩, ran, same⟩ := Option.map_eq_some_iff.mp goes
      cases same
      exact Still.eventDetected ran
  | gpioInitial gpio =>
      cases goes
      exact .refl s
  | gpioIsEvented gpio =>
      cases goes
      exact .refl s
  | gpioEventAdd gpio =>
      cases goes
      exact Still.eventAdd ..
  | gpioEventRemove gpio =>
      cases goes
      exact Still.eventRemove ..
  | eventCleanup outcomes =>
      obtain ⟨u, ran, same⟩ := Option.map_eq_some_iff.mp goes
      cases same
      exact Still.eventCleanup touches ran
  | waitBegin outcome gpio edge => cases frames
  | waitEnd which waited =>
      have same : (blockingWaitEnd which waited s).2 = t := congrArg Prod.snd (Option.some.inj goes)
      rw [← same]
      exact Still.waitEnd ..

/-! ## Calls made by callbacks -/

section Respects
variable {board : Board} {s t : System} {gpio : Nat}

/-- One block of the loop over the callbacks. -/
theorem runCallbacksFrom_cases {fuel cb : Nat} {bodies : List (List Call)}
    (goes : runCallbacksFrom board gpio (fuel + 1) (some cb) bodies s = some t) :
    ∃ (before : Callback) (left : List (List Call)) (mid : System) (next : Option Nat),
      (before.gpio = gpio →
        runCalls board (bodies.headD []) (s.note (.ran gpio before.func)) = some mid ∧
          left = bodies.tail) ∧
      (before.gpio ≠ gpio → mid = s ∧ left = bodies) ∧
      (mid = t ∨ runCallbacksFrom board gpio fuel next left mid = some t) := by
  rw [runCallbacksFrom] at goes
  obtain ⟨⟨before, after⟩, -, goes⟩ := Option.bind_eq_some_iff.mp goes
  have ends : ∀ (mid : System) (left : List (List Call)),
      ((blockAt cb mid.callbacks).bind fun read =>
        if before.cookie ≠ read.1.cookie then some mid
        else runCallbacksFrom board gpio fuel read.2 left mid) = some t →
      ∃ next, mid = t ∨ runCallbacksFrom board gpio fuel next left mid = some t := by
    intro mid left goes
    obtain ⟨⟨again, next⟩, -, goes⟩ := Option.bind_eq_some_iff.mp goes
    refine ⟨next, ?_⟩
    dsimp only at goes
    split at goes
    · exact Or.inl (Option.some.inj goes)
    · exact Or.inr goes
  dsimp only at goes
  by_cases pin : before.gpio = gpio
  · rw [if_pos pin] at goes
    obtain ⟨⟨left, mid⟩, ran, goes⟩ := Option.bind_eq_some_iff.mp goes
    obtain ⟨u, body, same⟩ := Option.map_eq_some_iff.mp ran
    cases same
    obtain ⟨next, further⟩ := ends mid bodies.tail goes
    exact ⟨before, bodies.tail, mid, next, fun _ => ⟨body, rfl⟩, fun other => absurd pin other, further⟩
  · rw [if_neg pin] at goes
    obtain ⟨next, further⟩ := ends s bodies goes
    exact ⟨before, bodies, s, next, fun same => absurd same pin, fun _ => ⟨rfl, rfl⟩, further⟩

/-- A wake-up of the thread: it does nothing, or it leaves, or it passes over the first
trigger of a pin, or it serves one. -/
theorem pollThread_cases {thread fd : Nat} {reads : Bool} {bodies : List (List Call)}
    (goes : pollThread board thread fd reads bodies s = some t) :
    t = s ∨ (thread < s.polling.length ∧ (t = s.exit thread ∨ ∃ gpio,
      t = pollAgain thread (setInitialFalse gpio (s.note (.triggered gpio))) ∨
        ∃ u, runCallbacks board gpio bodies { s.note (.triggered gpio) with
            eventOccurred := Function.update s.eventOccurred gpio true } = some u ∧
          t = pollAgain thread u)) := by
  unfold pollThread at goes
  split at goes
  · cases goes
    exact Or.inl rfl
  · rename_i inst waiting
    obtain ⟨inside, -⟩ := List.getElem?_eq_some_iff.mp waiting
    split at goes
    · cases goes
      exact Or.inl rfl
    · refine Or.inr ⟨inside, ?_⟩
      split at goes
      · cases goes
        exact Or.inl rfl
      · refine Or.inr ⟨gpioLookup fd s, ?_⟩
        dsimp only at goes
        split at goes
        · cases goes
          exact Or.inl rfl
        · split at goes
          · cases goes
          · obtain ⟨u, ran, same⟩ := Option.bind_eq_some_iff.mp goes
            cases same
            exact Or.inr ⟨u, ran, rfl⟩

/-- A relation between states that the allowed calls keep, one by one. -/
structure Respects (board : Board) (R : System → System → Prop) (allowed : Call → Prop) : Prop where
  refl : ∀ s, R s s
  trans : ∀ {s t u}, R s t → R t u → R s u
  call : ∀ {call s reply t}, allowed call → call.run board s = some (reply, t) → R s t
  ran : ∀ gpio func s, R s (s.note (.ran gpio func))

variable {R : System → System → Prop} {allowed : Call → Prop}

theorem Respects.calls (respects : Respects board R allowed) {calls : List Call}
    (all : ∀ call ∈ calls, allowed call) (goes : runCalls board calls s = some t) : R s t := by
  induction calls generalizing s with
  | nil =>
      cases goes
      exact respects.refl _
  | cons call rest ih =>
      obtain ⟨here, others⟩ := List.forall_mem_cons.mp all
      rw [runCalls] at goes
      obtain ⟨⟨reply, mid⟩, ran, later⟩ := Option.bind_eq_some_iff.mp goes
      exact respects.trans (respects.call here ran) (ih others later)

theorem Respects.callbacks (respects : Respects board R allowed) {fuel : Nat} {cb : Option Nat}
    {bodies : List (List Call)} (all : ∀ call ∈ bodies.flatten, allowed call)
    (goes : runCallbacksFrom board gpio fuel cb bodies s = some t) : R s t := by
  induction fuel generalizing s cb bodies with
  | zero =>
      cases cb with
      | none =>
          cases goes
          exact respects.refl _
      | some cb => cases goes
  | succ fuel ih =>
      cases cb with
      | none =>
          cases goes
          exact respects.refl _
      | some cb =>
          obtain ⟨before, left, mid, next, served, skipped, goes⟩ := runCallbacksFrom_cases goes
          have middle : R s mid ∧ ∀ call ∈ left.flatten, allowed call := by
            by_cases pin : before.gpio = gpio
            · obtain ⟨ran, rfl⟩ := served pin
              rw [flatten_bodies, List.forall_mem_append] at all
              obtain ⟨here, later⟩ := all
              exact ⟨respects.trans (respects.ran gpio before.func s) (respects.calls here ran), later⟩
            · obtain ⟨rfl, rfl⟩ := skipped pin
              exact ⟨respects.refl _, all⟩
          obtain ⟨first, all⟩ := middle
          rcases goes with rfl | further
          · exact first
          · exact respects.trans first (ih all further)

end Respects

end ProjectOwl.Beagle.Gpio
