import ProjectOwl.Beagle.GpioStill

/-! # Cleaning up

`event_cleanup` closes the descriptor of the thread, tells it to stop, and unexports the
pins that the program exported.  `epfd` keeps its number, so that no pin can be watched
again, and a thread that waits serves one more edge. -/

set_option autoImplicit false

namespace ProjectOwl.Beagle.Gpio

/-! ## The pins -/

section Pins
variable {s : System} {acc : Account} {gpio : Nat}

theorem closeValueFdFrom_eq (gpio : Nat) (fdList : List Fdx) (s : System) :
    ∃ files interest, (closeValueFdFrom gpio fdList s).2 = { s with files, interest } := by
  induction fdList generalizing s with
  | nil => exact ⟨s.files, s.interest, rfl⟩
  | cons f rest ih =>
      rw [closeValueFdFrom]
      split
      · obtain ⟨files, interest, same⟩ := ih (close f.fd s)
        exact ⟨files, interest, same⟩
      · exact ih s

theorem closeValueFd_eq (gpio : Nat) (s : System) :
    ∃ fdList files interest,
      closeValueFd gpio s = { s with fdList, files, interest }.note (.closed gpio) := by
  obtain ⟨files, interest, same⟩ := closeValueFdFrom_eq gpio s.fdList s
  refine ⟨(closeValueFdFrom gpio s.fdList s).1, files, interest, ?_⟩
  rcases parts : closeValueFdFrom gpio s.fdList s with ⟨kept, t⟩
  rw [parts] at same
  have left : t = { s with files, interest } := same
  rw [closeValueFd, parts, left]

/-- The entries of the program's own pins are taken off the list, also where the write of
the unexport is not done. -/
theorem System.Good.unexported (good : s.Good acc) (outcome : SysfsOutcome) (inRange : gpio < GPIOS) :
    ∃ err t, Gpio.gpioUnexport outcome gpio s = some (err, t) ∧ t.Good acc ∧
      t.threadRunning = s.threadRunning ∧
      t.fdList = s.fdList.filter (fun f => !(f.gpio = gpio && s.exportedGpios gpio = .exported)) ∧
      t.exportedGpios = if s.exportedGpios gpio = .exported ∧ outcome.writes = true then
        Function.update s.exportedGpios gpio .notExported else s.exportedGpios := by
  obtain ⟨err, t, ran, after⟩ := good.gpioUnexport outcome inRange
  refine ⟨err, t, ran, after, ?_⟩
  unfold Gpio.gpioUnexport at ran
  rw [if_neg (by omega)] at ran
  by_cases ours : s.exportedGpios gpio = .exported
  · rw [if_neg (by simp [ours])] at ran
    obtain ⟨closed, kept⟩ := good.closeValue gpio
    obtain ⟨fdList, files, interest, same⟩ := closeValueFd_eq gpio s
    have there : (closeValueFd gpio s).present gpio = true := by
      rw [(closed.exports gpio).1, same]
      simp [System.note, ours]
    have list : (closeValueFd gpio s).fdList =
        s.fdList.filter fun f => !(f.gpio = gpio && s.exportedGpios gpio = .exported) := by
      rw [kept]
      apply List.filter_congr
      intro f _
      simp [ours]
    have exported : (closeValueFd gpio s).exportedGpios = s.exportedGpios := by rw [same]; rfl
    have running : (closeValueFd gpio s).threadRunning = s.threadRunning := by rw [same]; rfl
    dsimp only at ran
    split at ran
    · rename_i fails
      cases ran
      refine ⟨running, list, ?_⟩
      rw [exported, if_neg (by simp [SysfsOutcome.writes] at fails ⊢; simp [fails])]
    · rename_i opens
      split at ran
      · rename_i fails
        cases ran
        refine ⟨running, list, ?_⟩
        rw [exported, if_neg]
        rintro ⟨-, writes⟩
        simp only [SysfsOutcome.writes, Bool.and_eq_true] at writes
        simp [writes.2, there] at fails
      · rename_i done
        cases ran
        refine ⟨running, list, ?_⟩
        have writes : outcome.writes = true := by
          simp only [Bool.not_eq_eq_eq_not, Bool.not_true, Bool.not_eq_false, Bool.and_eq_true]
            at opens done
          simp [SysfsOutcome.writes, opens, done.1]
        rw [if_pos ⟨ours, writes⟩, ← exported]
        rfl
  · rw [if_pos ours] at ran
    cases ran
    refine ⟨rfl, ?_, ?_⟩
    · simp [ours]
    · simp [ours]

/-- The loop of `exports_cleanup`. -/
theorem System.Good.cleanedFrom (good : s.Good acc) (outcomes : Nat → SysfsOutcome)
    {pins : List Nat} (inRange : ∀ gpio ∈ pins, gpio < GPIOS) (apart : pins.Nodup) :
    ∃ t, Gpio.exportsCleanupFrom outcomes pins s = some t ∧ t.Good acc ∧
      t.threadRunning = s.threadRunning ∧
      t.fdList = s.fdList.filter (fun f => !(f.gpio ∈ pins && s.exportedGpios f.gpio = .exported)) ∧
      ∀ gpio, t.exportedGpios gpio =
        if gpio ∈ pins ∧ s.exportedGpios gpio = .exported ∧ (outcomes gpio).writes = true then
          .notExported else s.exportedGpios gpio := by
  induction pins generalizing s with
  | nil => exact ⟨s, rfl, good, rfl, by simp, by simp⟩
  | cons gpio rest ih =>
      obtain ⟨here, others⟩ := List.forall_mem_cons.mp inRange
      obtain ⟨notLater, apart⟩ := List.nodup_cons.mp apart
      obtain ⟨err, mid, ran, kept, running, list, exported⟩ := good.unexported (outcomes gpio) here
      obtain ⟨t, goes, final, running', list', exported'⟩ := ih kept others apart
      have same : ∀ other, other ≠ gpio → mid.exportedGpios other = s.exportedGpios other := by
        intro other different
        rw [exported]
        split
        · exact Function.update_of_ne different ..
        · rfl
      refine ⟨t, by simp [Gpio.exportsCleanupFrom, ran, goes], final, running'.trans running, ?_, ?_⟩
      · rw [list', list, List.filter_filter]
        apply List.filter_congr
        intro f _
        by_cases first : f.gpio = gpio
        · simp [first, notLater]
        · simp [first, same f.gpio first]
      · intro other
        rw [exported' other]
        by_cases first : other = gpio
        · subst first
          rw [if_neg (fun both => notLater both.1), exported]
          by_cases writes : s.exportedGpios other = .exported ∧ (outcomes other).writes = true
          · simp [writes]
          · rw [if_neg writes, if_neg (fun all => writes all.2)]
        · simp [first, same other first]

/-- The thread's descriptor is closed and those of the waits are left. -/
theorem System.Good.cleaned {may : Bool → Prop} {present : Nat → Bool} {before : List Note}
    {callbacks : List (Nat × Callback)} {lost : List Nat}
    (good : s.Good (.resting may present before s.epfd s.waits callbacks false lost))
    (outcomes : Nat → SysfsOutcome) :
    ∃ t, Gpio.eventCleanup outcomes s = some t ∧
      t.Good ⟨may, present, before, s.epfd, s.waits, callbacks, s.waits.map Wait.epfd, lost⟩ ∧
      t.threadRunning = false ∧
      t.fdList = s.fdList.filter (fun f => !(f.gpio < GPIOS && s.exportedGpios f.gpio = .exported)) ∧
      ∀ gpio, t.exportedGpios gpio =
        if gpio < GPIOS ∧ s.exportedGpios gpio = .exported ∧ (outcomes gpio).writes = true then
          .notExported else s.exportedGpios gpio := by
  obtain ⟨closed, cleanup, sameList, sameExports, shut⟩ : ∃ closed : System,
      Gpio.eventCleanup outcomes s =
        Gpio.exportsCleanup outcomes { closed with threadRunning := false } ∧
      closed.fdList = s.fdList ∧ closed.exportedGpios = s.exportedGpios ∧
      closed.Good ⟨may, present, before, s.epfd, s.waits, callbacks, s.waits.map Wait.epfd, lost⟩ := by
    cases own : s.epfd with
    | none =>
        rw [own] at good
        exact ⟨s, by simp [Gpio.eventCleanup, own], rfl, rfl, good⟩
    | some e =>
        rw [own] at good
        exact ⟨close e s, by simp [Gpio.eventCleanup, own], rfl, rfl, good.closeEpoll rfl⟩
  have stopped := shut.rest closed.output closed.edge closed.value false closed.created closed.instances
    closed.polling
  obtain ⟨t, ran, final, running, list, exported⟩ := stopped.cleanedFrom outcomes
    (fun gpio member => List.mem_range.mp member) List.nodup_range
  refine ⟨t, cleanup.trans ran, final, running, ?_, ?_⟩
  · simpa [sameList, sameExports] using list
  · simpa [sameExports] using exported

end Pins

section Main
variable (board : Board) {s : System} {may : Bool → Prop}

/-- What `event_cleanup` leaves: of the pins that were not there at the start, those for which
the write of the unexport fails, and of the descriptors, those of pins that the program did not
export, those of the waits, and the lost ones. -/
theorem cleanup_unexports (initial : s.Initial) {events : List Event}
    {outcomes : Nat → SysfsOutcome} (proper : Proper may (events ++ [.call (.eventCleanup outcomes)]))
    (spared : Spared board events s) :
    ∃ t u lost, run board events s = some t ∧ eventCleanup outcomes t = some u ∧
      u.threadRunning = false ∧
      u.fdList = t.fdList.filter (fun f => t.exportedGpios f.gpio ≠ .exported) ∧
      (∀ gpio, u.present gpio = (s.present gpio ||
        (decide (t.exportedGpios gpio = .exported) && !(outcomes gpio).writes))) ∧
      u.waits = t.waits ∧
      Ledger may t.pairs t.files t.interest (t.epfd.toList ++ t.waits.map Wait.epfd) lost ∧
      Ledger may u.pairs u.files u.interest (u.waits.map Wait.epfd) lost ∧
      lost.length = u.trace.countP Note.isLost := by
  obtain ⟨inRange, once⟩ := proper
  rw [List.flatMap_append] at inRange once
  rw [cleanups, List.countP_append] at once
  have last : [Event.call (.eventCleanup outcomes)].flatMap Event.calls =
      [.eventCleanup outcomes] := rfl
  rw [last, List.countP_singleton] at once
  have one : (Call.eventCleanup outcomes).cleansUp = true := rfl
  rw [if_pos one] at once
  have proper : Proper may events :=
    ⟨fun call member => inRange call (List.mem_append_left _ member), by unfold cleanups; omega⟩
  obtain ⟨t, callbacks, stale, ran, rests, -, bound⟩ := initial.run_rests board proper spared
  have fresh : stale = false := by
    cases stale with
    | false => rfl
    | true =>
        have one : 1 ≤ cleanups (events.flatMap Event.calls) := bound
        unfold cleanups at one
        omega
  subst fresh
  obtain ⟨lost, open'⟩ := rests
  have range : ∀ gpio, t.exportedGpios gpio = .exported → gpio < GPIOS :=
    fun gpio ours => ((open'.exports gpio).2 ours).2
  obtain ⟨u, cleaned, good, stopped, list, exported⟩ := open'.cleaned outcomes
  have waits : u.waits = t.waits := good.waits
  refine ⟨t, u, lost, ran, cleaned, stopped, ?_, ?_, waits, open'.ledger, ?_, good.counted⟩
  · rw [list]
    apply List.filter_congr
    intro f _
    by_cases ours : t.exportedGpios f.gpio = .exported
    · simp [ours, range f.gpio ours]
    · simp [ours]
  · intro gpio
    have there : u.present gpio = (s.present gpio || decide (u.exportedGpios gpio = .exported)) :=
      (good.exports gpio).1
    rw [there, exported gpio]
    congr 1
    by_cases ours : t.exportedGpios gpio = .exported
    · cases writes : (outcomes gpio).writes with
      | true => simp [ours, range gpio ours]
      | false => simp [ours]
    · simp [ours]
  · rw [waits]
    exact good.ledger

theorem cleanup_unexports_example :
    ∃ t u lost, run plainBoard (buttonRun.take 7) idle = some t ∧
      eventCleanup (fun _ => smoothSysfs) t = some u ∧ u.threadRunning = false ∧
      u.fdList = t.fdList.filter (fun f => t.exportedGpios f.gpio ≠ .exported) ∧
      (∀ gpio, u.present gpio = (idle.present gpio ||
        (decide (t.exportedGpios gpio = .exported) && !smoothSysfs.writes))) ∧
      u.waits = t.waits ∧
      Ledger (· = false) t.pairs t.files t.interest (t.epfd.toList ++ t.waits.map Wait.epfd) lost ∧
      Ledger (· = false) u.pairs u.files u.interest (u.waits.map Wait.epfd) lost ∧
      lost.length = u.trace.countP Note.isLost :=
  cleanup_unexports plainBoard idle_initial buttonRun_proper (by decide)

end Main

/-! ## Afterwards -/

def Call.waits : Call → Bool
  | .waitBegin .. => true
  | _ => false

/-- `epfd` is closed, and no thread is to go on. -/
structure System.Retired (s : System) : Prop where
  closed : ∃ e, s.epfd = some e ∧ s.instanceOf e = none
  stopped : s.threadRunning = false

/-- The threads that wait, and the wake-ups so far. -/
def System.service (s : System) : List Nat × Nat := (s.polling, s.triggers)

section Afterwards
variable (board : Board) {s t : System} {gpio : Nat} {touched : Nat → Prop}

theorem Still.retired (still : Still touched s t) (retired : s.Retired) : t.Retired := by
  obtain ⟨⟨e, own, none⟩, stopped⟩ := retired
  exact ⟨⟨e, still.epfd.trans own, still.instanceOf e none⟩, still.stopped stopped⟩

theorem Still.service (still : Still touched s t) : t.service = s.service := by
  rw [System.service, System.service, still.triggers, still.polling]

/-- No pin is watched without an instance of epoll. -/
theorem System.Retired.addEdgeDetect (retired : s.Retired) {outcome : WatchOutcome} {thread : Bool}
    {edge : Nat} {reply : Reply}
    (goes : addEdgeDetect board outcome thread gpio edge s = some (reply, t)) :
    reply ≠ .code 0 ∧ Still (fun _ => True) s t := by
  unfold Gpio.addEdgeDetect at goes
  have asked : Still (fun _ => True) s (gpioEventAdd gpio s).2 := .eventAdd gpio s
  rcases added : gpioEventAdd gpio s with ⟨already, s₁⟩
  rw [added] at asked goes
  cases already with
  | true =>
      cases goes
      exact ⟨by decide, asked⟩
  | false =>
      obtain ⟨s₂, prepared, goes⟩ := Option.bind_eq_some_iff.mp goes
      have ready := asked.trans (Still.prepare (fun _ => trivial) prepared)
      have opened := ready.trans (Still.openIfNeeded board outcome.value gpio (fdLookup gpio s) s₂)
      rcases opens : openIfNeeded board outcome.value gpio (fdLookup gpio s) s₂ with ⟨fd, s₃⟩
      rw [opens] at opened goes
      cases fd with
      | none =>
          cases goes
          exact ⟨by decide, opened⟩
      | some fd =>
          obtain ⟨⟨e, own, none⟩, -⟩ := opened.retired retired
          have kept : epfdOrCreate board outcome.create s₃ = (some e, s₃) := by
            rw [epfdOrCreate, own]
          have refused : epollAdd outcome.add e fd s₃ = (false, s₃) := by
            rw [epollAdd, none]
          dsimp only at goes
          rw [kept] at goes
          dsimp only at goes
          rw [refused] at goes
          cases goes
          exact ⟨by decide, opened⟩

theorem System.Retired.call (retired : s.Retired) {call : Call} {reply : Reply}
    (noWait : call.waits = false) (goes : call.run board s = some (reply, t)) :
    t.Retired ∧ t.service = s.service := by
  have done : Still (fun _ => True) s t → t.Retired ∧ t.service = s.service :=
    fun still => ⟨still.retired retired, still.service⟩
  cases call with
  | gpioSetValue outcome access gpio value =>
      have same : (gpioSetValue outcome access gpio value s).2 = t :=
        congrArg Prod.snd (Option.some.inj goes)
      rw [← same]
      unfold gpioSetValue
      dsimp only
      split
      · exact ⟨retired, rfl⟩
      · exact ⟨⟨retired.closed, retired.stopped⟩, rfl⟩
  | addEdgeDetect outcome thread gpio edge => exact done (retired.addEdgeDetect board goes).2
  | waitBegin outcome gpio edge => cases noWait
  | _ => exact done (Still.call board rfl (fun _ _ => trivial) goes)

theorem retired_respects : Respects board
    (fun s t => s.Retired → t.Retired ∧ t.service = s.service) (fun call => call.waits = false) where
  refl s retired := ⟨retired, rfl⟩
  trans first second retired := by
    obtain ⟨still, same⟩ := first retired
    obtain ⟨final, same'⟩ := second still
    exact ⟨final, same'.trans same⟩
  call noWait goes retired := retired.call board noWait goes
  ran gpio func s retired := by
    have noted : Still (fun _ => True) s (s.note (.ran gpio func)) := (Still.refl s).note rfl
    exact ⟨noted.retired retired, noted.service⟩

/-- A thread that comes back from its wait leaves its loop. -/
theorem System.Retired.leaves (retired : s.Retired) (thread : Nat) :
    (pollAgain thread s).Retired ∧ (pollAgain thread s).polling = s.polling.eraseIdx thread ∧
      (pollAgain thread s).triggers = s.triggers := by
  rw [pollAgain, if_neg (by simp [retired.stopped])]
  exact ⟨⟨retired.closed, rfl⟩, rfl, rfl⟩

/-- A wake-up does nothing, or its thread serves the edge and leaves. -/
theorem System.Retired.wake (retired : s.Retired) {thread fd : Nat} {reads : Bool}
    {bodies : List (List Call)} (noWaits : ∀ call ∈ bodies.flatten, call.waits = false)
    (goes : pollThread board thread fd reads bodies s = some t) :
    t = s ∨ (thread < s.polling.length ∧ t.Retired ∧ t.polling = s.polling.eraseIdx thread ∧
      t.triggers ≤ s.triggers + 1) := by
  have counts : ∀ gpio, (s.note (.triggered gpio)).triggers = s.triggers + 1 := by
    intro gpio
    simp [System.triggers, System.note, Note.isTrigger]
  rcases pollThread_cases goes with rfl | ⟨inside, rfl | ⟨gpio, rfl | ⟨u, ran, rfl⟩⟩⟩
  · exact Or.inl rfl
  · exact Or.inr ⟨inside, ⟨retired.closed, rfl⟩, rfl, Nat.le_succ _⟩
  · have passed : (setInitialFalse gpio (s.note (.triggered gpio))).Retired :=
      ⟨retired.closed, retired.stopped⟩
    obtain ⟨final, polling, triggers⟩ := passed.leaves thread
    have counted : (setInitialFalse gpio (s.note (.triggered gpio))).triggers =
        s.triggers + 1 := counts gpio
    exact Or.inr ⟨inside, final, polling, (triggers.trans counted).le⟩
  · have flagged : System.Retired { s.note (.triggered gpio) with
        eventOccurred := Function.update s.eventOccurred gpio true } :=
      ⟨retired.closed, retired.stopped⟩
    obtain ⟨still, same⟩ := (retired_respects board).callbacks noWaits ran flagged
    obtain ⟨waiting, counted⟩ := Prod.mk.inj same
    obtain ⟨final, polling, triggers⟩ := still.leaves thread
    have counted : u.triggers = s.triggers + 1 := counted.trans (counts gpio)
    have waiting : u.polling = s.polling := waiting
    exact Or.inr ⟨inside, final, by rw [polling, waiting], (triggers.trans counted).le⟩

/-- Threads go and none comes, and one that serves an edge goes. -/
structure Winds (s t : System) : Prop where
  polling : t.polling.Sublist s.polling
  served : t.triggers + t.polling.length ≤ s.triggers + s.polling.length

theorem Winds.refl (s : System) : Winds s s := ⟨List.Sublist.refl _, le_rfl⟩

theorem Winds.trans {u : System} (first : Winds s t) (second : Winds t u) : Winds s u :=
  ⟨second.polling.trans first.polling, second.served.trans first.served⟩

theorem System.Retired.step (retired : s.Retired) {event : Event}
    (noWaits : ∀ call ∈ event.calls, call.waits = false) (goes : step board event s = some t) :
    t.Retired ∧ Winds s t := by
  cases event with
  | call call =>
      obtain ⟨⟨reply, u⟩, ran, same⟩ := Option.map_eq_some_iff.mp goes
      cases same
      obtain ⟨still, same⟩ := retired.call board (noWaits call List.mem_cons_self) ran
      obtain ⟨polling, triggers⟩ := Prod.mk.inj same
      have polling : u.polling = s.polling := polling
      have triggers : u.triggers = s.triggers := triggers
      refine ⟨still, ?_, ?_⟩
      · rw [polling]
      · rw [polling, triggers]
  | threadStart =>
      cases goes
      obtain ⟨e, own, unopened⟩ := retired.closed
      unfold Gpio.threadStart
      split
      · exact ⟨retired, .refl s⟩
      · split
        · rename_i open'
          rw [own, Option.bind_some, unopened] at open'
          cases open'
        · exact ⟨⟨⟨e, own, unopened⟩, rfl⟩, List.Sublist.refl _, le_rfl⟩
  | wake thread fd reads bodies =>
      rcases retired.wake board noWaits goes with rfl | ⟨inside, still, polling, triggers⟩
      · exact ⟨retired, .refl _⟩
      · refine ⟨still, ?_, ?_⟩
        · rw [polling]
          exact List.eraseIdx_sublist ..
        · rw [polling, List.length_eraseIdx_of_lt inside]
          omega
  | waitFailed thread =>
      cases goes
      split
      · refine ⟨⟨retired.closed, rfl⟩, List.eraseIdx_sublist .., ?_⟩
        exact Nat.add_le_add_left (List.length_eraseIdx_le ..) _
      · exact ⟨retired, .refl s⟩
  | level path value =>
      cases goes
      exact ⟨⟨retired.closed, retired.stopped⟩, List.Sublist.refl _, le_rfl⟩

theorem System.Retired.run (retired : s.Retired) {events : List Event}
    (noWaits : ∀ call ∈ events.flatMap Event.calls, call.waits = false)
    (goes : run board events s = some t) : t.Retired ∧ Winds s t := by
  induction events generalizing s with
  | nil =>
      cases goes
      exact ⟨retired, .refl _⟩
  | cons event rest ih =>
      rw [List.flatMap_cons] at noWaits
      obtain ⟨here, later⟩ := List.forall_mem_append.mp noWaits
      rw [Gpio.run] at goes
      obtain ⟨mid, first, goes⟩ := Option.bind_eq_some_iff.mp goes
      obtain ⟨still, fewer⟩ := retired.step board here first
      obtain ⟨final, fewer'⟩ := ih still later goes
      exact ⟨final, fewer.trans fewer'⟩

/-- After `event_cleanup` each thread that waits serves one more edge at most, after which it
is gone, none comes, and `add_edge_detect` returns an error each time. -/
theorem cleanup_is_final {outcomes : Nat → SysfsOutcome} (made : s.epfd ≠ none)
    (cleaned : eventCleanup outcomes s = some t) {events : List Event}
    (noWaits : ∀ call ∈ events.flatMap Event.calls, call.waits = false) {u : System}
    (goes : run board events t = some u) :
    u.polling.Sublist s.polling ∧
      u.triggers + u.polling.length ≤ s.triggers + s.polling.length ∧
      (∀ thread fd reads bodies v, (∀ call ∈ bodies.flatten, call.waits = false) →
        step board (.wake thread fd reads bodies) u = some v →
        v = u ∨ (thread < u.polling.length ∧ v.polling = u.polling.eraseIdx thread ∧
          v.triggers ≤ u.triggers + 1)) ∧
      ∀ outcome thread gpio edge reply v,
        addEdgeDetect board outcome thread gpio edge u = some (reply, v) → reply ≠ .code 0 := by
  obtain ⟨e, own⟩ := Option.ne_none_iff_exists'.mp made
  have still : Still (fun _ => True) s t := .eventCleanup (fun _ _ => trivial) cleaned
  have closed : t.instanceOf e = none := by
    unfold eventCleanup exportsCleanup at cleaned
    rw [own] at cleaned
    have left : Still (fun _ => True) _ t := .exportsCleanupFrom (fun _ _ => trivial) cleaned
    refine left.instanceOf e ?_
    simp [System.instanceOf, close]
  have stopped : t.threadRunning = false := by
    unfold eventCleanup exportsCleanup at cleaned
    have left : Still (fun _ => True) _ t := .exportsCleanupFrom (fun _ _ => trivial) cleaned
    exact left.stopped rfl
  have retired : t.Retired := ⟨⟨e, still.epfd.trans own, closed⟩, stopped⟩
  obtain ⟨final, sublist, fewer⟩ := retired.run board noWaits goes
  rw [still.polling] at sublist
  rw [still.triggers, still.polling] at fewer
  refine ⟨sublist, fewer, fun thread fd reads bodies v quiet woke => ?_,
    fun outcome thread gpio edge reply v added => (final.addEdgeDetect board added).1⟩
  rcases final.wake board quiet woke with same | ⟨inside, -, polling, triggers⟩
  · exact Or.inl same
  · exact Or.inr ⟨inside, polling, triggers⟩

/-- Pin 48, which was there before, is watched by a thread that waits. -/
def watching : System :=
  { idle with
    fdList := [⟨1, 48, false, true⟩]
    exportedGpios := fun gpio => if gpio = 48 then .alreadyExported else .notExported
    threadRunning := true
    epfd := some 2
    files := ⟨{1, 2}, fun fd => if fd = 1 then .value (.gpio 48) else .epoll 0⟩
    interest := fun inst => if inst = 0 then {1} else ∅
    instances := 1
    polling := [0]
    present := fun gpio => gpio = 48 }

def lateRun : List Event :=
  [.wake 0 1 true [], .call (.addEdgeDetect smoothWatch true 49 1), .threadStart, .wake 0 1 true []]

theorem cleanup_is_final_example :
    ∃ t u, eventCleanup (fun _ => smoothSysfs) watching = some t ∧
      run plainBoard lateRun t = some u ∧
      u.polling.Sublist watching.polling ∧
      u.triggers + u.polling.length ≤ watching.triggers + watching.polling.length ∧
      (∀ thread fd reads bodies v, (∀ call ∈ bodies.flatten, call.waits = false) →
        step plainBoard (.wake thread fd reads bodies) u = some v →
        v = u ∨ (thread < u.polling.length ∧ v.polling = u.polling.eraseIdx thread ∧
          v.triggers ≤ u.triggers + 1)) ∧
      ∀ outcome thread gpio edge reply v,
        addEdgeDetect plainBoard outcome thread gpio edge u = some (reply, v) → reply ≠ .code 0 := by
  have ends : ((eventCleanup (fun _ => smoothSysfs) watching).bind
      (run plainBoard lateRun)).isSome = true := by decide
  obtain ⟨u, both⟩ := Option.isSome_iff_exists.mp ends
  obtain ⟨t, cleaned, goes⟩ := Option.bind_eq_some_iff.mp both
  exact ⟨t, u, cleaned, goes, cleanup_is_final plainBoard (by decide) cleaned (by decide) goes⟩

end Afterwards

end ProjectOwl.Beagle.Gpio
