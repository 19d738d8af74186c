import ProjectOwl.Beagle.GpioRuns

/-! # Callbacks that remove callbacks

`run_callbacks` looks at the block of a callback again after its function has returned,
to see by its first byte whether the list has changed.  A function that removes those of
its own pin has freed the block by then. -/

set_option autoImplicit false

namespace ProjectOwl.Beagle.Gpio

def Call.adds : Call → Bool
  | .addEdgeCallback .. => true
  | _ => false

/-! ## What is left of the callbacks -/

section Left
variable {callbacks after : List (Nat × Callback)}

/-- What is left of the callbacks by calls that add none. -/
def leftBy (calls : List Call) (callbacks : List (Nat × Callback)) : List (Nat × Callback) :=
  callbacks.filter fun cb => !calls.any (Call.removes cb.2.gpio)

theorem Call.Edits.leftBy {call : Call} (edits : call.Edits callbacks after)
    (plain : call.adds = false) : after = Gpio.leftBy [call] callbacks := by
  have whole : callbacks = callbacks.filter fun _ => !false := (List.filter_true callbacks).symm
  cases call with
  | addEdgeCallback malloc gpio func => cases plain
  | removeEdgeDetect outcome gpio =>
      have cut : after = _ := edits
      rw [cut, Gpio.leftBy]
      apply List.filter_congr
      intro cb _
      by_cases same : gpio = cb.2.gpio
      · simp [Call.removes, same]
      · simp [Call.removes, same, Ne.symm same]
  | _ =>
      have same : after = callbacks := edits
      rw [same]
      exact whole

theorem EditedBy.leftBy {calls : List Call} (edited : EditedBy calls callbacks after)
    (plain : ∀ call ∈ calls, call.adds = false) : after = Gpio.leftBy calls callbacks := by
  induction calls generalizing callbacks with
  | nil =>
      have same : after = callbacks := edited
      rw [same]
      exact (List.filter_true callbacks).symm
  | cons call rest ih =>
      obtain ⟨between, edits, later⟩ := edited
      obtain ⟨here, others⟩ := List.forall_mem_cons.mp plain
      rw [ih later others, edits.leftBy here, Gpio.leftBy, Gpio.leftBy, Gpio.leftBy,
        List.filter_filter]
      apply List.filter_congr
      intro cb _
      simp [Bool.and_comm]

/-- The callbacks of a pin stay, all of them, or they all go. -/
theorem funcsOf_leftBy (gpio : Nat) (calls : List Call) (callbacks : List (Nat × Callback)) :
    funcsOf gpio (leftBy calls callbacks) =
      if calls.any (Call.removes gpio) then [] else funcsOf gpio callbacks := by
  rw [funcsOf, leftBy, List.filter_filter]
  split
  · rename_i gone
    have none : (callbacks.filter fun cb =>
        decide (cb.2.gpio = gpio) && !calls.any (Call.removes cb.2.gpio)) = [] := by
      rw [List.filter_eq_nil_iff]
      intro cb _
      by_cases same : cb.2.gpio = gpio
      · simpa [same] using gone
      · simp [same]
    rw [none]
    rfl
  · rename_i stays
    rw [funcsOf]
    congr 1
    apply List.filter_congr
    intro cb _
    by_cases same : cb.2.gpio = gpio
    · simpa [same] using stays
    · simp [same]

theorem blockAt_absent {a : Nat} (absent : a ∉ callbacks.map Prod.fst) :
    blockAt a callbacks = none := by
  induction callbacks with
  | nil => rfl
  | cons cb rest ih =>
      rw [List.map_cons, List.mem_cons, not_or] at absent
      rw [blockAt, if_neg (Ne.symm absent.1), ih absent.2]

end Left

/-! ## The loop -/

section Loop
variable (board : Board) {s : System} {may : Bool → Prop} {present : Nat → Bool}
  {before : List Note} {callbacks : List (Nat × Callback)} {stale : Bool}

/-- The loop over the callbacks from a block on, `front` being behind it. -/
theorem runCallbacksFrom_none (gpio fuel : Nat) (bodies : List (List Call))
    (front back : List (Nat × Callback))
    (rests : s.Rests may present before (front ++ back) stale)
    (inRange : ∀ call ∈ bodies.flatten, call.InRange may)
    (plain : ∀ call ∈ bodies.flatten, call.adds = false)
    (once : cleanups bodies.flatten + stale.toNat ≤ 1) (enough : back.length ≤ fuel) :
    runCallbacksFrom board gpio fuel (back.head?.map Prod.fst) bodies s = none ↔
      ∃ body ∈ bodies.take (funcsOf gpio back).length, body.any (Call.removes gpio) = true := by
  induction fuel generalizing s before front back bodies stale with
  | zero =>
      obtain rfl : back = [] := List.length_eq_zero_iff.mp (by omega)
      simp [runCallbacksFrom, funcsOf]
  | succ fuel ih =>
      cases back with
      | nil => simp [runCallbacksFrom, funcsOf]
      | cons block rest =>
          obtain ⟨a, cb⟩ := block
          rw [List.length_cons] at enough
          obtain ⟨-, apart⟩ := rests.callbacks_eq
          have read := rests.blockAt_eq
          by_cases pin : cb.gpio = gpio
          · subst pin
            have flat := flatten_bodies bodies
            generalize first : bodies.headD [] = body at flat
            generalize tail : bodies.tail = others at flat
            rw [flat, List.forall_mem_append] at inRange plain
            rw [flat, cleanups, List.countP_append] at once
            obtain ⟨mid, callbacks', stale', ran, calm, bound, edited⟩ :=
              runCalls_rests board (rests.ran cb.gpio cb.func) body inRange.1
                (by unfold cleanups; omega)
            have left := edited.leftBy plain.1
            subst left
            obtain ⟨after, -⟩ := calm.callbacks_eq
            have split : leftBy body (front ++ (a, cb) :: rest) =
                leftBy body front ++ leftBy body ((a, cb) :: rest) := List.filter_append ..
            have served : (∃ body ∈ bodies.take (funcsOf cb.gpio ((a, cb) :: rest)).length,
                body.any (Call.removes cb.gpio) = true) ↔ body.any (Call.removes cb.gpio) = true ∨
                  ∃ body ∈ others.take (funcsOf cb.gpio rest).length,
                    body.any (Call.removes cb.gpio) = true := by
              have count : (funcsOf cb.gpio ((a, cb) :: rest)).length =
                  (funcsOf cb.gpio rest).length + 1 := by simp [funcsOf]
              rw [count]
              cases bodies with
              | nil =>
                  subst first tail
                  simp
              | cons first' others' =>
                  have same : first' = body := first
                  have same' : others' = others := tail
                  subst same same'
                  simp
            rw [served]
            have first' : bodies.head?.getD [] = body := List.headD_eq_head?_getD.symm.trans first
            by_cases removes : body.any (Call.removes cb.gpio) = true
            · have gone : blockAt a mid.callbacks = none := by
                apply blockAt_absent
                rw [after]
                intro member
                obtain ⟨other, kept, same⟩ := List.mem_map.mp member
                obtain ⟨listed, stays⟩ := List.mem_filter.mp kept
                have equal : other = (a, cb) :=
                  List.inj_on_of_nodup_map apart listed (by simp) same
                rw [equal, removes] at stays
                cases stays
              simp [runCallbacksFrom, read, first', ran, gone, removes]
            · have stays : leftBy body ((a, cb) :: rest) = (a, cb) :: leftBy body rest :=
                List.filter_cons_of_pos (by simpa using removes)
              rw [split, stays] at calm
              have again := calm.blockAt_eq
              have moved : leftBy body front ++ (a, cb) :: leftBy body rest =
                  (leftBy body front ++ [(a, cb)]) ++ leftBy body rest := by simp
              rw [moved] at calm
              have fewer : (leftBy body rest).length ≤ rest.length := List.length_filter_le ..
              have further := ih others _ _ calm inRange.2 plain.2
                (by unfold cleanups at *; omega) (by omega)
              rw [funcsOf_leftBy, if_neg removes] at further
              simp only [removes]
              rw [← further]
              simp [runCallbacksFrom, read, first', tail, ran, again]
          · have moved : front ++ (a, cb) :: rest = (front ++ [(a, cb)]) ++ rest := by simp
            rw [moved] at rests
            have others : funcsOf gpio ((a, cb) :: rest) = funcsOf gpio rest := by
              simp [funcsOf, pin]
            rw [others, ← ih bodies _ _ rests inRange plain once (by omega)]
            simp [runCallbacksFrom, read, pin]

/-- An iteration of the thread that looks at a freed block. -/
theorem pollThread_none (rests : s.Rests may present before callbacks stale) (thread fd : Nat)
    (reads : Bool) {bodies : List (List Call)} (inRange : ∀ call ∈ bodies.flatten, call.InRange may)
    (plain : ∀ call ∈ bodies.flatten, call.adds = false)
    (once : cleanups bodies.flatten + stale.toNat ≤ 1) :
    pollThread board thread fd reads bodies s = none ↔
      (∃ inst, s.polling[thread]? = some inst ∧ fd ∈ s.interest inst) ∧ reads = true ∧
        (view (gpioLookup fd s) s.trace).pending = false ∧
        ∃ body ∈ bodies.take (view (gpioLookup fd s) s.trace).funcs.length,
          body.any (Call.removes (gpioLookup fd s)) = true := by
  unfold pollThread
  cases waiting : s.polling[thread]? with
  | none => simp
  | some inst =>
      by_cases watched : fd ∈ s.interest inst
      · have range := rests.lookup_lt watched
        generalize gpioLookup fd s = gpio at *
        have pending : (view gpio s.trace).pending = gpioInitial gpio s := by
          rw [rests.view_eq]
          rfl
        have funcs := rests.funcs_eq gpio
        cases reads with
        | false => simp [watched]
        | true =>
            by_cases initial : gpioInitial gpio s = true
            · have noted : gpioInitial gpio (s.note (.triggered gpio)) = true := initial
              simp [watched, noted, pending, initial]
            · have known : gpioInitial gpio s = false := by simpa using initial
              have noted : gpioInitial gpio (s.note (.triggered gpio)) = false := known
              obtain ⟨here, -⟩ := rests.callbacks_eq
              have loop := runCallbacksFrom_none board gpio
                (callbacks.length + bodies.flatten.length) bodies [] callbacks (rests.flagged known)
                inRange plain once (Nat.le_add_right ..)
              have same : (s.note (.triggered gpio)).eventOccurred = s.eventOccurred := rfl
              have goes : runCallbacks board gpio bodies { s.note (.triggered gpio) with
                  eventOccurred := Function.update s.eventOccurred gpio true } = none ↔
                  ∃ body ∈ bodies.take (funcsOf gpio callbacks).length,
                    body.any (Call.removes gpio) = true := by
                rw [← loop, ← here]
                rfl
              rw [pending, known, funcs, ← goes]
              simpa [watched, noted, same, show ¬GPIOS ≤ gpio by omega] using
                Option.eq_none_iff_forall_ne_some.symm
      · simp [watched]

/-- Where the functions of a wake-up add none, the thread looks at a freed block if and only
if one of those it calls removes the callbacks of its own pin. -/
theorem removal_in_callback (initial : s.Initial) {events : List Event} {thread fd : Nat}
    {reads : Bool} {bodies : List (List Call)}
    (proper : Proper may (events ++ [.wake thread fd reads bodies]))
    (spared : Spared board events s) (plain : ∀ call ∈ bodies.flatten, call.adds = false) :
    ∃ t, run board events s = some t ∧
      (step board (.wake thread fd reads bodies) t = none ↔
        (∃ inst, t.polling[thread]? = some inst ∧ fd ∈ t.interest inst) ∧ reads = true ∧
          (view (gpioLookup fd t) t.trace).pending = false ∧
          ∃ body ∈ bodies.take (view (gpioLookup fd t) t.trace).funcs.length,
            body.any (Call.removes (gpioLookup fd t)) = true) := by
  obtain ⟨inRange, once⟩ := proper
  have last : [Event.wake thread fd reads bodies].flatMap Event.calls = bodies.flatten :=
    List.append_nil _
  rw [List.flatMap_append, last] at inRange once
  rw [cleanups, List.countP_append] at once
  have proper : Proper may events :=
    ⟨fun call member => inRange call (List.mem_append_left _ member), by unfold cleanups; omega⟩
  obtain ⟨t, callbacks, stale, ran, rests, -, bound⟩ := initial.run_rests board proper spared
  refine ⟨t, ran, ?_⟩
  exact pollThread_none board rests thread fd reads
    (fun call member => inRange call (List.mem_append_right _ member)) plain
    (by unfold cleanups at *; omega)

/-- The function for pin 48 removes what pin 48 is watched for. -/
theorem buttonRemoval_proper :
    Proper (· = false) (buttonRun.take 5 ++
      [.wake 0 1 true [[.removeEdgeDetect smoothSysfs 48]]]) :=
  ⟨by decide, by decide⟩

theorem removal_in_callback_example :
    ∃ t, run plainBoard (buttonRun.take 5) idle = some t ∧
      (step plainBoard (.wake 0 1 true [[.removeEdgeDetect smoothSysfs 48]]) t = none ↔
        (∃ inst, t.polling[0]? = some inst ∧ 1 ∈ t.interest inst) ∧ true = true ∧
          (view (gpioLookup 1 t) t.trace).pending = false ∧
          ∃ body ∈ [[Call.removeEdgeDetect smoothSysfs 48]].take
              (view (gpioLookup 1 t) t.trace).funcs.length,
            body.any (Call.removes (gpioLookup 1 t)) = true) :=
  removal_in_callback plainBoard idle_initial buttonRemoval_proper (by decide) (by decide)

end Loop

end ProjectOwl.Beagle.Gpio
