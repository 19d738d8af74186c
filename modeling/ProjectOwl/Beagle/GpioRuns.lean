import ProjectOwl.Beagle.GpioCalls

/-! # Runs of calls and wake-ups

Calls of the library, made by the program or by a callback, and iterations of the
thread in any order. -/

set_option autoImplicit false

namespace ProjectOwl.Beagle.Gpio

/-! ## The functions of a pin while its callbacks run -/

/-- The blocks of a pin stay where they are, and `room` others may follow. -/
def Keeps (gpio room : Nat) (callbacks after : List (Nat × Callback)) : Prop :=
  ∃ keep added, after = callbacks.filter keep ++ added ∧
    (∀ cb ∈ callbacks, cb.2.gpio = gpio → keep cb = true) ∧ added.length ≤ room

def Call.removes (gpio : Nat) : Call → Bool
  | .removeEdgeDetect _ other => other = gpio
  | _ => false

section Keeps
variable {gpio room more : Nat} {callbacks after last : List (Nat × Callback)}

theorem Keeps.refl (gpio room : Nat) (callbacks : List (Nat × Callback)) :
    Keeps gpio room callbacks callbacks := by
  refine ⟨fun _ => true, [], ?_, fun _ _ _ => rfl, Nat.zero_le _⟩
  rw [List.filter_true, List.append_nil]

theorem Keeps.trans (first : Keeps gpio room callbacks after) (second : Keeps gpio more after last) :
    Keeps gpio (room + more) callbacks last := by
  obtain ⟨keep, added, rfl, kept, few⟩ := first
  obtain ⟨keep', added', rfl, kept', few'⟩ := second
  refine ⟨fun cb => keep' cb && keep cb, added.filter keep' ++ added', ?_, ?_, ?_⟩
  · rw [List.filter_append, List.filter_filter, List.append_assoc]
  · intro cb member pin
    have here := kept cb member pin
    have there := kept' cb (List.mem_append_left _ (List.mem_filter.mpr ⟨member, here⟩)) pin
    simp [here, there]
  · have fewer := List.length_filter_le keep' added
    rw [List.length_append]
    omega

theorem Call.Edits.keeps {call : Call} (edits : call.Edits callbacks after)
    (stays : call.removes gpio = false) : Keeps gpio 1 callbacks after := by
  cases call with
  | addEdgeCallback malloc pin func =>
      rcases edits with rfl | ⟨a, rfl⟩
      · exact Keeps.refl ..
      · refine ⟨fun _ => true, [(a, ⟨pin, func⟩)], ?_, fun _ _ _ => rfl, Nat.le_refl 1⟩
        rw [List.filter_true]
  | removeEdgeDetect outcome pin =>
      have other : pin ≠ gpio := by simpa [Call.removes] using stays
      have after : after = _ := edits
      subst after
      refine ⟨fun cb => cb.2.gpio ≠ pin, [], by rw [List.append_nil], ?_, Nat.zero_le 1⟩
      intro cb _ same
      simp [same, Ne.symm other]
  | _ =>
      have after : after = callbacks := edits
      subst after
      exact Keeps.refl ..

/-- What calls made one after the other make of the callbacks. -/
def EditedBy : List Call → List (Nat × Callback) → List (Nat × Callback) → Prop
  | [], callbacks, after => after = callbacks
  | call :: rest, callbacks, after =>
      ∃ between, call.Edits callbacks between ∧ EditedBy rest between after

theorem EditedBy.keeps {calls : List Call} (edited : EditedBy calls callbacks after)
    (stay : ∀ call ∈ calls, call.removes gpio = false) :
    Keeps gpio calls.length callbacks after := by
  induction calls generalizing callbacks with
  | nil =>
      have same : after = callbacks := edited
      rw [same]
      exact Keeps.refl ..
  | cons call rest ih =>
      obtain ⟨between, edits, later⟩ := edited
      obtain ⟨here, others⟩ := List.forall_mem_cons.mp stay
      have both := (edits.keeps here).trans (ih later others)
      rwa [List.length_cons, Nat.add_comm rest.length 1]

/-- The blocks around one of the pin. -/
theorem Keeps.split {front rest : List (Nat × Callback)} {cb : Nat × Callback}
    (keeps : Keeps gpio room (front ++ cb :: rest) after) (pin : cb.2.gpio = gpio) :
    ∃ front' rest', after = front' ++ cb :: rest' ∧
      (front'.filter fun cb => cb.2.gpio = gpio) = (front.filter fun cb => cb.2.gpio = gpio) ∧
      rest'.length ≤ rest.length + room := by
  obtain ⟨keep, added, rfl, kept, few⟩ := keeps
  refine ⟨front.filter keep, rest.filter keep ++ added, ?_, ?_, ?_⟩
  · rw [List.filter_append, List.filter_cons_of_pos (kept cb (by simp) pin), List.append_assoc]
    rfl
  · rw [List.filter_filter]
    apply List.filter_congr
    intro other member
    by_cases same : other.2.gpio = gpio
    · simp [same, kept other (by simp [member]) same]
    · simp [same]
  · have fewer := List.length_filter_le keep rest
    rw [List.length_append]
    omega

end Keeps

/-! ## Bodies of callbacks -/

def cleanups (calls : List Call) : Nat := calls.countP Call.cleansUp

section Runs
variable (board : Board) {s : System} {may : Bool → Prop} {present : Nat → Bool}
  {before : List Note} {callbacks : List (Nat × Callback)} {stale : Bool} {gpio : Nat}

theorem runCalls_rests (rests : s.Rests may present before callbacks stale) (calls : List Call)
    (inRange : ∀ call ∈ calls, call.InRange may) (once : cleanups calls + stale.toNat ≤ 1) :
    ∃ t callbacks' stale', runCalls board calls s = some t ∧
      t.Rests may present before callbacks' stale' ∧
      stale'.toNat ≤ cleanups calls + stale.toNat ∧ EditedBy calls callbacks callbacks' := by
  induction calls generalizing s callbacks stale with
  | nil => exact ⟨s, callbacks, stale, rfl, rests, by omega, rfl⟩
  | cons call rest ih =>
      obtain ⟨here, others⟩ := List.forall_mem_cons.mp inRange
      have count : cleanups (call :: rest) = cleanups rest + call.cleansUp.toNat := by
        rw [cleanups, List.countP_cons, cleanups]
        cases call.cleansUp with
        | true => rfl
        | false => rfl
      rw [count] at once ⊢
      have unused : call.cleansUp = true → stale = false := by
        intro cleans
        cases stale with
        | false => rfl
        | true =>
            rw [cleans] at once
            simp only [Bool.toNat_true] at once
            omega
      obtain ⟨reply, mid, between, stale₁, ran, calm, edits, since⟩ :=
        call_rests board rests here unused
      have bound : stale₁.toNat ≤ call.cleansUp.toNat + stale.toNat := by
        cases stale₁ with
        | false => simp
        | true =>
            rcases since rfl with before | now
            · rw [before]
              simp
            · rw [now]
              simp
      obtain ⟨t, callbacks', stale', goes, final, bound', edited⟩ := ih calm others (by omega)
      exact ⟨t, callbacks', stale', by simp [runCalls, ran, goes], final, by omega, between, edits,
        edited⟩

/-- The account of the next call. -/
theorem System.Rests.rebase (rests : s.Rests may present before callbacks stale) :
    s.Rests may present s.trace callbacks stale := by
  obtain ⟨lost, good⟩ := rests
  refine ⟨lost, good.ledger, good.counted, good.addresses, ⟨good.told.pins, good.told.detects, ?_⟩,
    good.exports, good.epfd, good.waits, good.callbacks⟩
  exact ⟨[], (List.append_nil _).symm, fun note member => absurd member List.not_mem_nil⟩

/-! ## The loop over the callbacks -/

def ranFuncs (part : List Note) : List Nat :=
  part.filterMap fun note =>
    match note with
    | .ran _ func => some func
    | _ => none

def funcsOf (gpio : Nat) (callbacks : List (Nat × Callback)) : List Nat :=
  (callbacks.filter fun cb => cb.2.gpio = gpio).map fun cb => cb.2.func

/-- Of the thread's notes, only those of functions of the pin. -/
def OnlyRuns (gpio : Nat) (part : List Note) : Prop :=
  ∀ note ∈ part, note.ofThread = true → ∃ func, note = .ran gpio func

theorem ranFuncs_quiet {part : List Note} (quiet : ∀ note ∈ part, note.ofThread = false) :
    ranFuncs part = [] := by
  rw [ranFuncs, List.filterMap_eq_nil_iff]
  intro note member
  have silent := quiet note member
  cases note with
  | ran gpio func => cases silent
  | _ => rfl

theorem onlyRuns_quiet {part : List Note} (quiet : ∀ note ∈ part, note.ofThread = false) :
    OnlyRuns gpio part := by
  intro note member loud
  rw [quiet note member] at loud
  cases loud

theorem blockAt_middle {front rest : List (Nat × Callback)} {a : Nat} {cb : Callback}
    (apart : ((front ++ (a, cb) :: rest).map Prod.fst).Nodup) :
    blockAt a (front ++ (a, cb) :: rest) = some (cb, rest.head?.map Prod.fst) := by
  rw [List.map_append, List.map_cons, List.nodup_middle, List.nodup_cons, List.mem_append,
    not_or] at apart
  have notFront := apart.1.1
  clear apart
  induction front with
  | nil => rw [List.nil_append, blockAt, if_pos rfl]
  | cons other front ih =>
      rw [List.map_cons, List.mem_cons, not_or] at notFront
      rw [List.cons_append, blockAt, if_neg (Ne.symm notFront.1), ih notFront.2]

theorem System.Rests.callbacks_eq (rests : s.Rests may present before callbacks stale) :
    s.callbacks = callbacks ∧ (callbacks.map Prod.fst).Nodup := by
  obtain ⟨lost, good⟩ := rests
  have here : s.callbacks = callbacks := good.callbacks
  refine ⟨here, ?_⟩
  rw [← here]
  exact good.addresses

/-- A block on the list is read with the address of the next one. -/
theorem System.Rests.blockAt_eq {front rest : List (Nat × Callback)} {a : Nat} {cb : Callback}
    (rests : s.Rests may present before (front ++ (a, cb) :: rest) stale) :
    blockAt a s.callbacks = some (cb, rest.head?.map Prod.fst) := by
  obtain ⟨here, apart⟩ := rests.callbacks_eq
  rw [here]
  exact blockAt_middle apart

/-- The body of the next function, and those of the others. -/
theorem flatten_bodies (bodies : List (List Call)) :
    bodies.flatten = bodies.headD [] ++ bodies.tail.flatten := by
  cases bodies with
  | nil => rfl
  | cons first others => rfl

/-- A function is called for the pin. -/
theorem System.Rests.ran (rests : s.Rests may present before callbacks stale) (gpio func : Nat) :
    (s.note (.ran gpio func)).Rests may present (s.trace ++ [.ran gpio func]) callbacks stale := by
  obtain ⟨lost, good⟩ := rests
  refine ⟨lost, good.ledger, ?_, good.addresses, ⟨?_, ?_, ?_⟩, good.exports, good.epfd, good.waits,
    good.callbacks⟩
  · have counted : lost.length = s.trace.countP Note.isLost := good.counted
    change lost.length = (s.trace ++ [Note.ran gpio func]).countP Note.isLost
    rw [counted, List.countP_append]
    rfl
  · intro other
    have same : (view other s.trace).after other (.ran gpio func) = view other s.trace := by
      unfold Pin.after
      split
      · rfl
      · rfl
    rw [System.note, view_concat, same, good.told.pins]
    rfl
  · exact good.told.detects.concat trivial
  · exact ⟨[], (List.append_nil _).symm, fun note member => absurd member List.not_mem_nil⟩

/-- What the loop over the callbacks does from a block on, `front` being behind it: each
function of the pin that is on the list at the end has been called in its turn. -/
theorem runCallbacksFrom_rests (gpio fuel : Nat) (bodies : List (List Call))
    (front back : List (Nat × Callback))
    (rests : s.Rests may present before (front ++ back) stale)
    (inRange : ∀ call ∈ bodies.flatten, call.InRange may)
    (spares : ∀ call ∈ bodies.flatten, call.removes gpio = false)
    (once : cleanups bodies.flatten + stale.toNat ≤ 1)
    (enough : back.length + bodies.flatten.length ≤ fuel) :
    ∃ t part callbacks' stale',
      runCallbacksFrom board gpio fuel (back.head?.map Prod.fst) bodies s = some t ∧
      t.Rests may present t.trace callbacks' stale' ∧ t.trace = s.trace ++ part ∧
      OnlyRuns gpio part ∧ funcsOf gpio front ++ ranFuncs part = funcsOf gpio callbacks' ∧
      stale'.toNat ≤ cleanups bodies.flatten + stale.toNat := by
  induction fuel generalizing s before front back bodies stale with
  | zero =>
      obtain rfl : back = [] := List.length_eq_zero_iff.mp (by omega)
      refine ⟨s, [], front, stale, rfl, ?_, (List.append_nil _).symm, ?_, by simp [ranFuncs], by omega⟩
      · rw [List.append_nil] at rests
        exact rests.rebase
      · exact onlyRuns_quiet fun note member => absurd member List.not_mem_nil
  | succ fuel ih =>
      cases back with
      | nil =>
          refine ⟨s, [], front, stale, rfl, ?_, (List.append_nil _).symm, ?_, by simp [ranFuncs],
            by omega⟩
          · rw [List.append_nil] at rests
            exact rests.rebase
          · exact onlyRuns_quiet fun note member => absurd member List.not_mem_nil
      | cons block rest =>
          obtain ⟨a, cb⟩ := block
          have read := rests.blockAt_eq
          by_cases pin : cb.gpio = gpio
          · subst pin
            let body := bodies.headD []
            have flat : bodies.flatten = body ++ bodies.tail.flatten := flatten_bodies bodies
            rw [flat, List.forall_mem_append] at inRange spares
            rw [flat, List.length_append, List.length_cons] at enough
            rw [flat, cleanups, List.countP_append] at once ⊢
            obtain ⟨mid, callbacks₁, stale₁, ran, calm, bound, edited⟩ :=
              runCalls_rests board (rests.ran cb.gpio cb.func) body inRange.1
                (by unfold cleanups; omega)
            obtain ⟨front', rest', rfl, same, few⟩ := (edited.keeps spares.1).split rfl
            obtain ⟨quietPart, trace₁, quiet⟩ : ∃ part,
                mid.trace = s.trace ++ .ran cb.gpio cb.func :: part ∧
                  ∀ note ∈ part, note.ofThread = false := by
              obtain ⟨lost, good⟩ := calm
              obtain ⟨part, trace, quiet⟩ := good.told.quiet
              exact ⟨part, by rw [trace]; simp [Account.resting], quiet⟩
            have again := calm.blockAt_eq
            have moved : front' ++ (a, cb) :: rest' = (front' ++ [(a, cb)]) ++ rest' := by simp
            rw [moved] at calm
            obtain ⟨t, part, callbacks', stale', goes, final, trace, own, funcs, bound'⟩ :=
              ih bodies.tail _ _ calm inRange.2 spares.2 (by unfold cleanups at *; omega) (by omega)
            have none := ranFuncs_quiet quiet
            refine ⟨t, .ran cb.gpio cb.func :: (quietPart ++ part), callbacks', stale', ?_, final, ?_,
              ?_, ?_, ?_⟩
            · have body : bodies.head?.getD [] = body := List.headD_eq_head?_getD.symm
              simp [runCallbacksFrom, read, body, ran, again, goes]
            · rw [trace, trace₁]
              simp
            · intro note member loud
              rcases List.mem_cons.mp member with rfl | later
              · exact ⟨cb.func, rfl⟩
              · rcases List.mem_append.mp later with inBody | inRest
                · exact onlyRuns_quiet quiet note inBody loud
                · exact own note inRest loud
            · have here : funcsOf cb.gpio (front' ++ [(a, cb)]) =
                  funcsOf cb.gpio front ++ [cb.func] := by
                simp [funcsOf, same]
              rw [← funcs, here]
              simp only [ranFuncs] at none ⊢
              simp [none]
            · unfold cleanups at *
              omega
          · have moved : front ++ (a, cb) :: rest = (front ++ [(a, cb)]) ++ rest := by simp
            rw [moved] at rests
            obtain ⟨t, part, callbacks', stale', goes, calm, trace, own, funcs, bound⟩ :=
              ih bodies _ _ rests inRange spares once (by rw [List.length_cons] at enough; omega)
            refine ⟨t, part, callbacks', stale', ?_, calm, trace, own, ?_, bound⟩
            · simp [runCallbacksFrom, read, pin, goes]
            · rw [← funcs]
              simp [funcsOf, pin]

end Runs

/-! ## The thread -/

section Thread
variable {s : System} {may : Bool → Prop} {present : Nat → Bool} {before : List Note}
  {callbacks : List (Nat × Callback)} {stale : Bool} {gpio : Nat}

theorem System.Rests.rest (rests : s.Rests may present before callbacks stale)
    (threadRunning : Bool) (created : Nat) (polling : List Nat) :
    { s with threadRunning, created, polling }.Rests may present before callbacks stale := by
  obtain ⟨lost, good⟩ := rests
  exact ⟨lost, good.rest s.output s.edge s.value threadRunning created s.instances polling⟩

theorem System.Rests.exit (rests : s.Rests may present before callbacks stale) (thread : Nat) :
    (s.exit thread).Rests may present before callbacks stale :=
  rests.rest ..

theorem System.Rests.pollAgain (rests : s.Rests may present before callbacks stale) (thread : Nat) :
    (pollAgain thread s).Rests may present before callbacks stale := by
  unfold Gpio.pollAgain
  split
  · split
    · exact rests.rest ..
    · exact rests.exit thread
  · exact rests.exit thread

theorem pollAgain_trace (thread : Nat) (s : System) : (pollAgain thread s).trace = s.trace := by
  unfold pollAgain
  split
  · split
    · rfl
    · rfl
  · rfl

theorem System.Rests.threadStart (rests : s.Rests may present before callbacks stale) :
    (threadStart s).Rests may present before callbacks stale := by
  unfold Gpio.threadStart
  split
  · exact rests
  · split
    · exact rests.rest ..
    · exact rests.rest ..

theorem threadStart_trace (s : System) : (threadStart s).trace = s.trace := by
  unfold threadStart
  split
  · rfl
  · split
    · rfl
    · rfl

/-- A watched descriptor is that of a pin in range, or it is looked up as pin 0. -/
theorem System.Rests.lookup_lt (rests : s.Rests may present before callbacks stale) {inst fd : Nat}
    (watched : fd ∈ s.interest inst) : gpioLookup fd s < GPIOS := by
  obtain ⟨lost, good⟩ := rests
  unfold gpioLookup
  cases found : s.fdList.find? fun f => f.fd = fd with
  | none => decide
  | some f =>
      have listed := List.mem_of_find?_eq_some found
      have same : f.fd = fd := by simpa using List.find?_some found
      subst same
      exact good.ledger.range inst (f.fd, f.gpio) (List.mem_map_of_mem listed) watched

theorem any_setInitialFalse (gpio other : Nat) (fdList : List Fdx) :
    (fdList.map fun f => if f.gpio = gpio then { f with initial := false } else f).any
        (fun f => f.gpio = other && f.initial) =
      if gpio = other then false else fdList.any fun f => f.gpio = other && f.initial := by
  induction fdList with
  | nil => simp
  | cons f rest ih =>
      rw [List.map_cons, List.any_cons, List.any_cons, ih]
      by_cases same : gpio = other
      · subst same
        by_cases here : f.gpio = gpio
        · simp [here]
        · simp [here]
      · by_cases here : f.gpio = gpio
        · simp [here, same]
        · simp [here, same]

/-- A trigger of a pin, whatever it makes of the lists. -/
theorem System.Rests.triggered (rests : s.Rests may present before callbacks stale)
    {fdList : List Fdx} {eventOccurred : Nat → Bool}
    (pairs : fdList.map (fun f => (f.fd, f.gpio)) = s.pairs)
    (acts : System.pin { s with fdList, eventOccurred } gpio = (s.pin gpio).act (.triggered gpio))
    (others : ∀ other, gpio ≠ other → System.pin { s with fdList, eventOccurred } other = s.pin other) :
    System.Rests { s with fdList, eventOccurred, trace := s.trace ++ [.triggered gpio] } may present
      (s.trace ++ [.triggered gpio]) callbacks stale := by
  obtain ⟨lost, good⟩ := rests
  refine ⟨lost, ?_, ?_, good.addresses, ⟨?_, ?_, ?_⟩, good.exports, good.epfd, good.waits,
    good.callbacks⟩
  · have ledger := good.ledger
    rw [← pairs] at ledger
    exact ledger
  · have counted : lost.length = s.trace.countP Note.isLost := good.counted
    change lost.length = (s.trace ++ [Note.triggered gpio]).countP Note.isLost
    rw [counted, List.countP_append]
    rfl
  · intro other
    rw [view_concat, good.told.pins]
    by_cases same : gpio = other
    · subst same
      exact (if_pos rfl).trans acts.symm
    · exact (if_neg same).trans (others other same).symm
  · exact good.told.detects.concat trivial
  · exact ⟨[], (List.append_nil _).symm, fun note member => absurd member List.not_mem_nil⟩

/-- The trigger that is passed over. -/
theorem System.Rests.passed (rests : s.Rests may present before callbacks stale)
    (pending : gpioInitial gpio s = true) :
    (setInitialFalse gpio (s.note (.triggered gpio))).Rests may present
      (s.trace ++ [.triggered gpio]) callbacks stale := by
  have initial := fun other => any_setInitialFalse gpio other s.fdList
  refine rests.triggered ?_ ?_ fun other elsewhere => ?_
  · rw [System.pairs, List.map_map]
    apply List.map_congr_left
    intro f _
    by_cases same : f.gpio = gpio
    · simp [same]
    · simp [same]
  · have before : (s.pin gpio).pending = true := pending
    rw [Pin.act, if_pos before]
    exact congrArg (fun pending => Pin.mk pending _ _) ((initial gpio).trans (if_pos rfl))
  · exact congrArg (fun pending => Pin.mk pending _ _) ((initial other).trans (if_neg elsewhere))

/-- The trigger of which the flag tells. -/
theorem System.Rests.flagged (rests : s.Rests may present before callbacks stale)
    (known : gpioInitial gpio s = false) :
    System.Rests { s.note (.triggered gpio) with
        eventOccurred := Function.update s.eventOccurred gpio true } may present
      (s.trace ++ [.triggered gpio]) callbacks stale := by
  refine rests.triggered rfl ?_ fun other elsewhere => ?_
  · have before : (s.pin gpio).pending = false := known
    rw [Pin.act, if_neg (by rw [before]; decide)]
    simp [System.pin, System.note, gpioInitial]
  · simp [System.pin, System.note, gpioInitial, Ne.symm elsewhere]

end Thread

/-! ## Runs -/

/-- What a call or a wake-up adds to the trace: notes of calls only, or a trigger that is
passed over, or one that the functions of the pin are called for, those included that are
added meanwhile. -/
inductive Part (before : List Note) : List Note → Prop where
  | calls {part : List Note} : (∀ note ∈ part, note.ofThread = false) → Part before part
  | passed {gpio : Nat} : (view gpio before).pending = true → Part before [.triggered gpio]
  | served {gpio : Nat} {part : List Note} : (view gpio before).pending = false →
      OnlyRuns gpio part →
      ranFuncs part = (view gpio (before ++ .triggered gpio :: part)).funcs →
      Part before (.triggered gpio :: part)

inductive Served : List Note → Prop where
  | start : Served []
  | next {trace part : List Note} : Served trace → Part trace part → Served (trace ++ part)

def Event.calls : Event → List Call
  | .call one => [one]
  | .wake _ _ _ bodies => bodies.flatten
  | _ => []

/-- The calls of a run are in range, and one of them cleans up at most. -/
structure Proper (may : Bool → Prop) (events : List Event) : Prop where
  inRange : ∀ call ∈ events.flatMap Event.calls, call.InRange may
  once : cleanups (events.flatMap Event.calls) ≤ 1

/-- No function removes those of the pin it is called for. -/
def Event.Spares (s : System) : Event → Prop
  | .wake _ fd _ bodies => ∀ call ∈ bodies.flatten, call.removes (gpioLookup fd s) = false
  | _ => True

instance (s : System) : ∀ event : Event, Decidable (event.Spares s)
  | .wake _ fd _ bodies =>
      inferInstanceAs (Decidable (∀ call ∈ bodies.flatten, call.removes (gpioLookup fd s) = false))
  | .call _ | .threadStart | .waitFailed _ | .level _ _ => inferInstanceAs (Decidable True)

section Runs
variable (board : Board) {s : System} {may : Bool → Prop} {present : Nat → Bool}
  {before : List Note} {callbacks : List (Nat × Callback)} {stale : Bool}

def Spared : List Event → System → Prop
  | [], _ => True
  | event :: rest, s =>
      event.Spares s ∧
        match step board event s with
        | some t => Spared rest t
        | none => True

instance Spared.decidable : ∀ (events : List Event) (s : System), Decidable (Spared board events s)
  | [], _ => inferInstanceAs (Decidable True)
  | event :: rest, s =>
      haveI : Decidable
          (match step board event s with
          | some t => Spared board rest t
          | none => True) :=
        match step board event s with
        | some t => Spared.decidable rest t
        | none => inferInstanceAs (Decidable True)
      inferInstanceAs (Decidable (_ ∧ _))

theorem System.Rests.view_eq (rests : s.Rests may present before callbacks stale) (gpio : Nat) :
    view gpio s.trace = s.pin gpio := by
  obtain ⟨lost, good⟩ := rests
  exact good.told.pins gpio

theorem System.Rests.funcs_eq (rests : s.Rests may present before callbacks stale) (gpio : Nat) :
    (view gpio s.trace).funcs = funcsOf gpio callbacks := by
  rw [rests.view_eq]
  obtain ⟨lost, good⟩ := rests
  have here : s.callbacks = callbacks := good.callbacks
  rw [System.pin, here, funcsOf]

theorem pollThread_rests (rests : s.Rests may present before callbacks stale) (thread fd : Nat)
    (reads : Bool) {bodies : List (List Call)} (inRange : ∀ call ∈ bodies.flatten, call.InRange may)
    (spares : ∀ call ∈ bodies.flatten, call.removes (gpioLookup fd s) = false)
    (once : cleanups bodies.flatten + stale.toNat ≤ 1) :
    ∃ t part callbacks' stale', pollThread board thread fd reads bodies s = some t ∧
      t.Rests may present t.trace callbacks' stale' ∧ t.trace = s.trace ++ part ∧
      Part s.trace part ∧ stale'.toNat ≤ cleanups bodies.flatten + stale.toNat := by
  have unchanged : Part s.trace [] := .calls fun note member => absurd member List.not_mem_nil
  unfold pollThread
  cases waiting : s.polling[thread]? with
  | none =>
      exact ⟨s, [], callbacks, stale, rfl, rests.rebase, (List.append_nil _).symm, unchanged, by omega⟩
  | some inst =>
      by_cases watched : fd ∈ s.interest inst
      · have range := rests.lookup_lt watched
        generalize gpioLookup fd s = gpio at *
        have pending : (view gpio s.trace).pending = gpioInitial gpio s := by
          rw [rests.view_eq]
          rfl
        cases reads with
        | false =>
            refine ⟨s.exit thread, [], callbacks, stale, ?_, rests.rebase.exit thread,
              (List.append_nil _).symm, unchanged, by omega⟩
            simp [watched]
        | true =>
            by_cases initial : gpioInitial gpio s = true
            · refine ⟨pollAgain thread (setInitialFalse gpio (s.note (.triggered gpio))),
                [.triggered gpio], callbacks, stale, ?_, ?_, pollAgain_trace .., ?_, by omega⟩
              · have noted : gpioInitial gpio (s.note (.triggered gpio)) = true := initial
                simp [watched, noted]
              · rw [pollAgain_trace]
                exact (rests.passed initial).pollAgain thread
              · exact .passed (pending.trans initial)
            · have known : gpioInitial gpio s = false := by simpa using initial
              have flagged := rests.flagged known
              obtain ⟨here, -⟩ := rests.callbacks_eq
              obtain ⟨t, part, callbacks', stale', ran, calm, trace, own, funcs, bound⟩ :=
                runCallbacksFrom_rests board gpio (callbacks.length + bodies.flatten.length) bodies []
                  callbacks flagged inRange spares once (Nat.le_refl _)
              have whole : t.trace = s.trace ++ .triggered gpio :: part := by
                rw [trace]
                simp [System.note]
              refine ⟨pollAgain thread t, .triggered gpio :: part, callbacks', stale', ?_, ?_,
                (pollAgain_trace ..).trans whole, ?_, bound⟩
              · have noted : gpioInitial gpio (s.note (.triggered gpio)) = false := known
                rw [← here] at ran
                have goes : runCallbacks board gpio bodies { s.note (.triggered gpio) with
                    eventOccurred := Function.update s.eventOccurred gpio true } = some t := ran
                have same : (s.note (.triggered gpio)).eventOccurred = s.eventOccurred := rfl
                simp [watched, noted, same, goes, show ¬GPIOS ≤ gpio by omega]
              · rw [pollAgain_trace]
                exact calm.pollAgain thread
              · refine .served (pending.trans known) own ?_
                rw [← whole, calm.funcs_eq, ← funcs]
                rfl
      · refine ⟨s, [], callbacks, stale, ?_, rests.rebase, (List.append_nil _).symm, unchanged,
          by omega⟩
        simp [watched]

theorem step_rests (rests : s.Rests may present before callbacks stale) {event : Event}
    (inRange : ∀ call ∈ event.calls, call.InRange may) (spares : event.Spares s)
    (once : cleanups event.calls + stale.toNat ≤ 1) :
    ∃ t part callbacks' stale', step board event s = some t ∧
      t.Rests may present t.trace callbacks' stale' ∧ t.trace = s.trace ++ part ∧
      Part s.trace part ∧ stale'.toNat ≤ cleanups event.calls + stale.toNat := by
  have unchanged : Part s.trace [] := .calls fun note member => absurd member List.not_mem_nil
  cases event with
  | call call =>
      have runs := runCalls_rests board rests.rebase [call] inRange once
      obtain ⟨t, callbacks', stale', ran, calm, bound, -⟩ := runs
      obtain ⟨part, trace, quiet⟩ : ∃ part, t.trace = s.trace ++ part ∧
          ∀ note ∈ part, note.ofThread = false := by
        obtain ⟨lost, good⟩ := calm
        exact good.told.quiet
      refine ⟨t, part, callbacks', stale', ?_, calm.rebase, trace, .calls quiet, bound⟩
      simpa [runCalls, step, Option.map_eq_bind, Function.comp_def] using ran
  | threadStart =>
      refine ⟨threadStart s, [], callbacks, stale, rfl, ?_, ?_, unchanged, by omega⟩
      · exact rests.threadStart.rebase
      · rw [threadStart_trace, List.append_nil]
  | wake thread fd reads bodies =>
      exact pollThread_rests board rests thread fd reads inRange spares once
  | level path value =>
      refine ⟨{ s with value := Function.update s.value path value }, [], callbacks, stale, rfl, ?_,
        (List.append_nil _).symm, unchanged, by omega⟩
      obtain ⟨lost, good⟩ := rests.rebase
      exact ⟨lost, good.rest ..⟩
  | waitFailed thread =>
      refine ⟨if thread < s.polling.length then s.exit thread else s, [], callbacks, stale, rfl, ?_, ?_,
        unchanged, by omega⟩
      · split
        · exact (rests.exit thread).rebase
        · exact rests.rebase
      · split
        · exact (List.append_nil _).symm
        · exact (List.append_nil _).symm

theorem run_rests {events : List Event} (proper : Proper may events) (spared : Spared board events s)
    (rests : s.Rests may present before callbacks stale) (served : Served s.trace)
    (once : cleanups (events.flatMap Event.calls) + stale.toNat ≤ 1) :
    ∃ t callbacks' stale', run board events s = some t ∧
      t.Rests may present t.trace callbacks' stale' ∧ Served t.trace ∧
      stale'.toNat ≤ cleanups (events.flatMap Event.calls) + stale.toNat := by
  induction events generalizing s before callbacks stale with
  | nil => exact ⟨s, callbacks, stale, rfl, rests.rebase, served, by omega⟩
  | cons event rest ih =>
      have inRange := proper.inRange
      have few := proper.once
      rw [List.flatMap_cons] at inRange
      rw [List.flatMap_cons, cleanups, List.countP_append] at few once ⊢
      obtain ⟨spares, later⟩ := spared
      obtain ⟨mid, part, callbacks₁, stale₁, goes, calm, trace, adds, bound⟩ :=
        step_rests board rests (fun call member => inRange call (List.mem_append_left _ member)) spares
          (by unfold cleanups; omega)
      rw [goes] at later
      have others : Proper may rest :=
        ⟨fun call member => inRange call (List.mem_append_right _ member), by unfold cleanups; omega⟩
      have still : Served mid.trace := by
        rw [trace]
        exact served.next adds
      obtain ⟨t, callbacks', stale', ran, final, parts, bound'⟩ :=
        ih others later calm still (by unfold cleanups at *; omega)
      refine ⟨t, callbacks', stale', by simp [run, goes, ran], final, parts, ?_⟩
      unfold cleanups at *
      omega

/-! ## From the start of the program -/

/-- Nothing is open, exported, added or waited for. -/
structure System.Initial (s : System) : Prop where
  fdList : s.fdList = []
  callbacks : s.callbacks = []
  exported : ∀ gpio, s.exportedGpios gpio = .notExported
  occurred : ∀ gpio, s.eventOccurred gpio = false
  epfd : s.epfd = none
  files : s.files.used = ∅
  interest : ∀ inst, s.interest inst = ∅
  waits : s.waits = []
  polling : s.polling = []
  trace : s.trace = []

theorem System.Initial.rests (initial : s.Initial) : s.Rests may s.present [] [] false := by
  have pairs : s.pairs = [] := by rw [System.pairs, initial.fdList]; rfl
  have epolls : (Account.resting may s.present [] s.epfd s.waits [] false []).epolls = [] := by
    rw [Account.resting, initial.epfd, initial.waits]
    rfl
  refine ⟨[], ?_, ?_, ?_, ⟨?_, ?_, ?_⟩, ?_, rfl, rfl, initial.callbacks⟩
  · rw [pairs, epolls]
    exact
      { pins := List.nodup_nil
        value := fun pair member => absurd member List.not_mem_nil
        epoll := fun e member => absurd member List.not_mem_nil
        apart := List.nodup_nil
        whole := initial.files
        positive := fun fd member => by simp [initial.files] at member
        watched := fun inst fd member => by simp [initial.interest] at member
        range := fun inst pair member => absurd member List.not_mem_nil }
  · rw [initial.trace]
    rfl
  · rw [initial.callbacks]
    exact List.nodup_nil
  · intro gpio
    simp [initial.trace, System.pin, gpioInitial, initial.fdList, initial.occurred, initial.callbacks]
  · intro front gpio yes after split
    rw [initial.trace] at split
    exact absurd split.symm (List.append_ne_nil_of_right_ne_nil _ (List.cons_ne_nil _ _))
  · exact ⟨[], initial.trace, fun note member => absurd member List.not_mem_nil⟩
  · intro gpio
    simp [Account.resting, initial.exported]

theorem System.Initial.run_rests (initial : s.Initial) {events : List Event}
    (proper : Proper may events) (spared : Spared board events s) :
    ∃ t callbacks stale, run board events s = some t ∧ t.Rests may s.present t.trace callbacks stale ∧
      Served t.trace ∧ stale.toNat ≤ cleanups (events.flatMap Event.calls) := by
  have served : Served s.trace := by
    rw [initial.trace]
    exact .start
  exact Gpio.run_rests board proper spared initial.rests served proper.once

end Runs

/-! ## A board -/

def plainBoard : Board where
  malloc := .above
  descriptor := .above
  descriptor_pos _ := Nat.succ_pos _

def idle : System where
  fdList := []
  callbacks := []
  exportedGpios _ := .notExported
  eventOccurred _ := false
  threadRunning := false
  epfd := none
  files := ⟨∅, fun _ => .epoll 0⟩
  interest _ := ∅
  instances := 0
  created := 0
  polling := []
  waits := []
  present _ := false
  output _ := false
  edge _ := 0
  value _ := false
  trace := []

theorem idle_initial : idle.Initial :=
  ⟨rfl, rfl, fun _ => rfl, fun _ => rfl, rfl, rfl, fun _ => rfl, rfl, rfl, rfl⟩

/-- Every system call succeeds. -/
def smoothSysfs : SysfsOutcome := ⟨false, true, true, false⟩

def smoothWatch : WatchOutcome :=
  ⟨⟨false, true, true, true, true⟩, smoothSysfs, smoothSysfs, ⟨false, true, true⟩, true, true⟩

/-- Pin 48 is watched; the function for it reads pin 49 and removes what pin 49 is
watched for. -/
def buttonRun : List Event :=
  [.call (.addEdgeCallback true 48 7), .call (.addEdgeCallback true 49 8),
   .call (.addEdgeDetect smoothWatch true 48 1), .threadStart, .wake 0 1 true [],
   .wake 0 1 true
    [[.gpioGetValue ⟨false, true, true⟩ true 49, .removeEdgeDetect smoothSysfs 49]],
   .call (.eventDetected 48), .call (.eventCleanup fun _ => smoothSysfs)]

theorem buttonRun_proper : Proper (· = false) buttonRun := ⟨by decide, by decide⟩

/-! ## What holds of every run -/

section Main
variable (board : Board) {s : System} {may : Bool → Prop}

/-- Every descriptor is accounted for: it is the one of a pin on the list and open on that
pin's file, or that of the thread or of a wait, or one of those that the trace tells lost. -/
theorem pins_accounted (initial : s.Initial) {events : List Event} (proper : Proper may events)
    (spared : Spared board events s) :
    ∃ t closed lost, run board events s = some t ∧
      Ledger may t.pairs t.files t.interest
        ((if closed then [] else t.epfd.toList) ++ t.waits.map Wait.epfd) lost ∧
      lost.length = t.trace.countP Note.isLost ∧ (t.callbacks.map Prod.fst).Nodup ∧
      (closed = true → cleanups (events.flatMap Event.calls) = 1) ∧
      ∀ gpio, t.present gpio = (s.present gpio || decide (t.exportedGpios gpio = .exported)) ∧
        (t.exportedGpios gpio = .exported → s.present gpio = false ∧ gpio < GPIOS) := by
  obtain ⟨t, callbacks, closed, ran, ⟨lost, good⟩, -, bound⟩ := initial.run_rests board proper spared
  refine ⟨t, closed, lost, ran, good.ledger, good.counted, good.addresses, ?_, good.exports⟩
  rintro rfl
  exact le_antisymm proper.once bound

theorem pins_accounted_example :
    ∃ t closed lost, run plainBoard buttonRun idle = some t ∧
      Ledger (· = false) t.pairs t.files t.interest
        ((if closed then [] else t.epfd.toList) ++ t.waits.map Wait.epfd) lost ∧
      lost.length = t.trace.countP Note.isLost ∧ (t.callbacks.map Prod.fst).Nodup ∧
      (closed = true → cleanups (buttonRun.flatMap Event.calls) = 1) ∧
      ∀ gpio, t.present gpio = (idle.present gpio || decide (t.exportedGpios gpio = .exported)) ∧
        (t.exportedGpios gpio = .exported → idle.present gpio = false ∧ gpio < GPIOS) :=
  pins_accounted plainBoard idle_initial buttonRun_proper (by decide)

/-- What the calls and the thread make of the pins is what the trace tells of them. -/
theorem edges_served (initial : s.Initial) {events : List Event} (proper : Proper may events)
    (spared : Spared board events s) :
    ∃ t, run board events s = some t ∧ Served t.trace ∧ Detects t.trace ∧
      ∀ gpio, t.pin gpio = view gpio t.trace := by
  obtain ⟨t, callbacks, stale, ran, rests, served, -⟩ := initial.run_rests board proper spared
  obtain ⟨lost, good⟩ := rests
  exact ⟨t, ran, served, good.told.detects, fun gpio => (good.told.pins gpio).symm⟩

theorem edges_served_example :
    ∃ t, run plainBoard buttonRun idle = some t ∧ Served t.trace ∧ Detects t.trace ∧
      ∀ gpio, t.pin gpio = view gpio t.trace :=
  edges_served plainBoard idle_initial buttonRun_proper (by decide)

end Main

end ProjectOwl.Beagle.Gpio
