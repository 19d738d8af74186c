import ProjectOwl.Beagle.GpioLedger

/-! # What a pin is to its callers

For its callers a pin has a first trigger that is passed over, a flag, and functions to
call in the order in which they were added.  What happens to the pins is read off the
trace, and the lists of the program are at any time those of the pins. -/

set_option autoImplicit false

namespace ProjectOwl.Beagle.Gpio

structure Pin where
  /-- The next trigger is passed over. -/
  pending : Bool
  occurred : Bool
  funcs : List Nat
  deriving DecidableEq, Repr

def Note.gpio : Note → Nat
  | .opened gpio | .closed gpio | .reset gpio | .lost gpio | .added gpio _ | .removed gpio
  | .triggered gpio | .ran gpio _ | .cleared gpio | .detected gpio _ => gpio

/-- The pin after what happened to it. -/
def Pin.act (pin : Pin) : Note → Pin
  | .opened _ | .reset _ => { pin with pending := true }
  | .closed _ => { pin with pending := false }
  | .added _ func => { pin with funcs := pin.funcs ++ [func] }
  | .removed _ => { pin with funcs := [] }
  | .triggered _ => if pin.pending then { pin with pending := false } else { pin with occurred := true }
  | .cleared _ | .detected _ true => { pin with occurred := false }
  | .lost _ | .ran _ _ | .detected _ false => pin

def Pin.after (gpio : Nat) (pin : Pin) (note : Note) : Pin :=
  if note.gpio = gpio then pin.act note else pin

def view (gpio : Nat) (trace : List Note) : Pin :=
  trace.foldl (Pin.after gpio) ⟨false, false, []⟩

@[simp] theorem view_nil (gpio : Nat) : view gpio [] = ⟨false, false, []⟩ := rfl

@[simp] theorem view_concat (gpio : Nat) (trace : List Note) (note : Note) :
    view gpio (trace ++ [note]) = (view gpio trace).after gpio note :=
  List.foldl_concat ..

theorem after_other {gpio : Nat} {note : Note} (other : note.gpio ≠ gpio) (pin : Pin) :
    pin.after gpio note = pin :=
  if_neg other

theorem after_self (note : Note) (pin : Pin) : pin.after note.gpio note = pin.act note :=
  if_pos rfl

/-- The pin in the lists of the program. -/
def System.pin (s : System) (gpio : Nat) : Pin :=
  ⟨gpioInitial gpio s, s.eventOccurred gpio,
    (s.callbacks.filter fun cb => cb.2.gpio = gpio).map fun cb => cb.2.func⟩

/-! ## Stories -/

/-- The thread's own notes. -/
def Note.ofThread : Note → Bool
  | .triggered _ | .ran _ _ => true
  | _ => false

def Note.isLost : Note → Bool
  | .lost _ => true
  | _ => false

/-- `event_detected` tells of the pin's flag. -/
def Detects (trace : List Note) : Prop :=
  ∀ before gpio yes after, trace = before ++ .detected gpio yes :: after →
    yes = (view gpio before).occurred

/-- What a note of `event_detected` says, if it is one. -/
def Note.Answers (occurred : Nat → Bool) : Note → Prop
  | .detected gpio yes => yes = occurred gpio
  | _ => True

/-- The trace tells of the pins, and after `before` it has no notes of the thread. -/
structure Told (before trace : List Note) (pins : Nat → Pin) : Prop where
  pins : ∀ gpio, view gpio trace = pins gpio
  detects : Detects trace
  quiet : ∃ part, trace = before ++ part ∧ ∀ note ∈ part, note.ofThread = false

section Told
variable {before trace : List Note} {pins pins' : Nat → Pin} {note : Note}

theorem Detects.concat (detects : Detects trace)
    (here : note.Answers fun gpio => (view gpio trace).occurred) : Detects (trace ++ [note]) := by
  intro front gpio yes after eq
  rcases List.eq_nil_or_concat after with rfl | ⟨rest, last, rfl⟩
  · have split : trace ++ [note] = front ++ [.detected gpio yes] := eq
    obtain ⟨rfl, same⟩ := List.append_inj' split rfl
    rw [(List.cons.inj same).1] at here
    exact here
  · have split : trace ++ [note] = (front ++ .detected gpio yes :: rest) ++ [last] := by
      rw [eq, List.concat_eq_append, List.append_assoc]
      rfl
    obtain ⟨rfl, -⟩ := List.append_inj' split rfl
    exact detects front gpio yes rest rfl

theorem Told.step (told : Told before trace pins) (quiet : note.ofThread = false)
    (here : note.Answers fun gpio => (pins gpio).occurred)
    (acts : pins' note.gpio = (pins note.gpio).act note)
    (others : ∀ gpio, note.gpio ≠ gpio → pins' gpio = pins gpio) :
    Told before (trace ++ [note]) pins' where
  pins gpio := by
    rw [view_concat, told.pins]
    by_cases same : note.gpio = gpio
    · subst same
      rw [after_self, acts]
    · rw [after_other same, others gpio same]
  detects := told.detects.concat (by simpa only [told.pins] using here)
  quiet := by
    obtain ⟨part, rfl, earlier⟩ := told.quiet
    refine ⟨part ++ [note], by rw [List.append_assoc], ?_⟩
    intro other member
    rcases List.mem_append.mp member with inPart | last
    · exact earlier other inPart
    · rw [List.mem_singleton.mp last]
      exact quiet

end Told

/-! ## The lists -/

/-- What the account of a call is given in: the results of `beaglebone_blue`, the pins
present from the start, the trace before the call, the callbacks and the descriptors. -/
structure Account where
  may : Bool → Prop
  present : Nat → Bool
  before : List Note
  epfd : Option Nat
  waits : List Wait
  callbacks : List (Nat × Callback)
  epolls : List Nat
  lost : List Nat

structure System.Good (s : System) (acc : Account) : Prop where
  ledger : Ledger acc.may s.pairs s.files s.interest acc.epolls acc.lost
  counted : acc.lost.length = s.trace.countP Note.isLost
  addresses : (s.callbacks.map Prod.fst).Nodup
  told : Told acc.before s.trace s.pin
  exports : ∀ gpio,
    s.present gpio = (acc.present gpio || decide (s.exportedGpios gpio = .exported)) ∧
      (s.exportedGpios gpio = .exported → acc.present gpio = false ∧ gpio < GPIOS)
  epfd : s.epfd = acc.epfd
  waits : s.waits = acc.waits
  callbacks : s.callbacks = acc.callbacks

section Lists
variable {s : System} {acc : Account} {gpio : Nat}

/-- The pins in sysfs and the threads may be other ones. -/
theorem System.Good.rest (good : s.Good acc) (output : Nat → Bool) (edge : Nat → Nat)
    (value : Path → Bool) (threadRunning : Bool) (created instances : Nat) (polling : List Nat) :
    { s with output, edge, value, threadRunning, created, instances, polling }.Good acc :=
  ⟨good.ledger, good.counted, good.addresses, good.told, good.exports, good.epfd,
    good.waits, good.callbacks⟩

/-! ### Flags -/

section Flags
variable (gpio) (change : Fdx → Fdx) (test : Fdx → Bool)

theorem pairs_assignFirst (same : ∀ f, (change f).fd = f.fd ∧ (change f).gpio = f.gpio)
    (fdList : List Fdx) :
    (assignFirst gpio change fdList).map (fun f => (f.fd, f.gpio)) =
      fdList.map fun f => (f.fd, f.gpio) := by
  induction fdList with
  | nil => rfl
  | cons f rest ih =>
      rw [assignFirst]
      split
      · rw [List.map_cons, List.map_cons, (same f).1, (same f).2]
      · rw [List.map_cons, List.map_cons, ih]

theorem any_assignFirst (same : ∀ f, f.gpio = gpio → test (change f) = test f)
    (fdList : List Fdx) : (assignFirst gpio change fdList).any test = fdList.any test := by
  induction fdList with
  | nil => rfl
  | cons f rest ih =>
      rw [assignFirst]
      split
      · rename_i here
        rw [List.any_cons, List.any_cons, same f here]
      · rw [List.any_cons, List.any_cons, ih]

theorem any_assignFirst_of_listed
    (passes : ∀ f, f.gpio = gpio → test (change f) = true) {fdList : List Fdx}
    (listed : fdList.any (fun f => f.gpio = gpio) = true) :
    (assignFirst gpio change fdList).any test = true := by
  induction fdList with
  | nil => cases listed
  | cons f rest ih =>
      rw [assignFirst]
      split
      · rename_i here
        rw [List.any_cons, passes f here, Bool.true_or]
      · rename_i other
        rw [List.any_cons, ih (by simpa [other] using listed), Bool.or_true]

end Flags

theorem System.Good.eventAdd (good : s.Good acc) (gpio : Nat) :
    (gpioEventAdd gpio s).2.Good acc ∧ (gpioEventAdd gpio s).2.pairs = s.pairs ∧
      (gpioEventAdd gpio s).2.files = s.files := by
  unfold gpioEventAdd
  split
  · exact ⟨good, rfl, rfl⟩
  · split
    · exact ⟨good, rfl, rfl⟩
    · let change : Fdx → Fdx := fun f => { f with isEvented := true }
      have pairs : System.pairs { s with fdList := assignFirst gpio change s.fdList } = s.pairs :=
        pairs_assignFirst gpio change (fun f => ⟨rfl, rfl⟩) s.fdList
      have pins : System.pin { s with fdList := assignFirst gpio change s.fdList } = s.pin := by
        funext other
        have initial := any_assignFirst gpio change (fun f => f.gpio = other && f.initial)
          (fun f _ => rfl) s.fdList
        simp only [System.pin, gpioInitial, initial]
      refine ⟨⟨?_, good.counted, good.addresses, ?_, good.exports, good.epfd,
        good.waits, good.callbacks⟩, pairs, rfl⟩
      · have ledger := good.ledger
        rw [← pairs] at ledger
        exact ledger
      · have told := good.told
        rw [← pins] at told
        exact told

theorem System.Good.eventRemove (good : s.Good acc) (gpio : Nat) :
    (gpioEventRemove gpio s).Good acc ∧ (gpioEventRemove gpio s).pairs = s.pairs ∧
      (gpioEventRemove gpio s).files = s.files := by
  unfold gpioEventRemove
  split
  · rename_i listed
    let change : Fdx → Fdx := fun f => { f with isEvented := false, initial := true }
    have pairs : System.pairs { s with fdList := assignFirst gpio change s.fdList } = s.pairs :=
      pairs_assignFirst gpio change (fun f => ⟨rfl, rfl⟩) s.fdList
    refine ⟨⟨?_, ?_, good.addresses, ?_, good.exports, good.epfd,
      good.waits, good.callbacks⟩, pairs, rfl⟩
    · have ledger := good.ledger
      rw [← pairs] at ledger
      exact ledger
    · simpa [System.note, Note.isLost] using good.counted
    · refine good.told.step rfl trivial ?_ fun other elsewhere => ?_
      · have initial := any_assignFirst_of_listed gpio change
          (fun f => f.gpio = gpio && f.initial) (fun f here => by simp [change, here]) listed
        exact congrArg (fun pending => Pin.mk pending _ _) initial
      · have different : gpio ≠ other := elsewhere
        have initial := any_assignFirst gpio change (fun f => f.gpio = other && f.initial)
          (fun f pin => by simp [change, pin, different]) s.fdList
        exact congrArg (fun pending => Pin.mk pending _ _) initial
  · exact ⟨good, rfl, rfl⟩

/-! ### Descriptors -/

theorem fdLookup_eq (gpio : Nat) (s : System) :
    fdLookup gpio s =
      match s.pairs.find? fun pair => pair.2 = gpio with
      | some pair => pair.1
      | none => 0 := by
  unfold fdLookup System.pairs
  rw [List.find?_map]
  simp only [Function.comp_def]
  cases s.fdList.find? fun f => f.gpio = gpio with
  | none => rfl
  | some f => rfl

/-- A pin is on the list with the descriptor that is looked up, or it is not. -/
theorem Ledger.lookup_cases (ledger : Ledger acc.may s.pairs s.files s.interest acc.epolls acc.lost)
    (gpio : Nat) :
    (fdLookup gpio s = 0 ∧ gpio ∉ s.pairs.map Prod.snd) ∨
      (0 < fdLookup gpio s ∧ (fdLookup gpio s, gpio) ∈ s.pairs) := by
  rw [fdLookup_eq]
  cases found : s.pairs.find? fun pair => pair.2 = gpio with
  | none =>
      refine Or.inl ⟨rfl, fun member => ?_⟩
      obtain ⟨pair, isPair, same⟩ := List.mem_map.mp member
      simpa [same] using List.find?_eq_none.mp found pair isPair
  | some pair =>
      have isPair := List.mem_of_find?_eq_some found
      have same : pair.2 = gpio := by simpa using List.find?_some found
      subst same
      refine Or.inr ⟨ledger.positive _ ?_, isPair⟩
      exact ledger.mem_used.mpr (List.mem_append_left _ (List.mem_map_of_mem isPair))

/-- A descriptor of the list is that of one pin. -/
theorem Ledger.same_pin {may : Bool → Prop} {pairs : List (Nat × Nat)} {files : Pool File}
    {interest : Nat → Finset Nat} {epolls lost : List Nat} {fd : Nat} {pair : Nat × Nat}
    (ledger : Ledger may pairs files interest epolls lost) (listed : (fd, gpio) ∈ pairs)
    (member : pair ∈ pairs) (same : pair.1 = fd) : pair.2 = gpio := by
  have apart := (List.nodup_append.mp ledger.apart).1
  have equal : pair = (fd, gpio) := List.inj_on_of_nodup_map apart member listed same
  rw [equal]

section Opening
variable (board : Board)

/-- What is known of the descriptor that a pin is watched by. -/
structure System.Usable (s : System) (gpio fd : Nat) : Prop where
  file : ∃ path, s.files.get? fd = some (.value path)
  pin : ∀ pair ∈ s.pairs, pair.1 = fd → pair.2 = gpio

theorem System.Good.openValue (good : s.Good acc) {outcome : OpenOutcome}
    (allowed : acc.may outcome.blue) (absent : gpio ∉ s.pairs.map Prod.snd) :
    openValueFile board outcome gpio s = (none, s) ∨
      ∃ fd t lost, openValueFile board outcome gpio s = (some fd, t) ∧
        t.Good { acc with lost } ∧ t.Usable gpio fd := by
  unfold openValueFile
  split
  · right
    have fresh := board.descriptor.fresh s.files.used
    have positive := board.descriptor_pos s.files.used
    have notListed : ∀ pair ∈ s.pairs, pair.1 ≠ board.descriptor.choose s.files.used := by
      intro pair member same
      apply good.ledger.notMem fresh
      rw [← same]
      exact List.mem_append_left _ (List.mem_map_of_mem member)
    simp only [openFile, addFdList]
    cases outcome.malloc with
    | true =>
        rw [if_pos rfl]
        refine ⟨_, _, acc.lost, rfl, ?_, ⟨⟨_, Pool.get?_add_self ..⟩, ?_⟩⟩
        · refine ⟨good.ledger.opened fresh positive allowed absent, ?_, good.addresses, ?_,
            good.exports, good.epfd, good.waits, good.callbacks⟩
          · simpa [System.note, Note.isLost] using good.counted
          · refine good.told.step rfl trivial ?_ fun other elsewhere => ?_
            · simp [System.pin, Pin.act, System.note, gpioInitial, Note.gpio]
            · have different : gpio ≠ other := elsewhere
              simp [System.pin, System.note, gpioInitial, different]
        · intro pair member same
          rcases List.mem_cons.mp member with rfl | before
          · rfl
          · exact absurd same (notListed pair before)
    | false =>
        rw [if_neg (by decide)]
        refine ⟨_, _, board.descriptor.choose s.files.used :: acc.lost, rfl, ?_,
          ⟨⟨_, Pool.get?_add_self ..⟩, ?_⟩⟩
        · refine ⟨good.ledger.unlisted fresh positive _, ?_, good.addresses, ?_, good.exports,
            good.epfd, good.waits, good.callbacks⟩
          · simp [System.note, Note.isLost, good.counted]
          · exact good.told.step rfl trivial rfl fun _ _ => rfl
        · exact fun pair member same => absurd same (notListed pair member)
  · exact Or.inl rfl

theorem System.Good.openIfNeeded (good : s.Good acc) {outcome : OpenOutcome}
    (allowed : acc.may outcome.blue) (gpio : Nat) :
    openIfNeeded board outcome gpio (fdLookup gpio s) s = (none, s) ∨
      ∃ fd t lost, openIfNeeded board outcome gpio (fdLookup gpio s) s = (some fd, t) ∧
        t.Good { acc with lost } ∧ t.Usable gpio fd := by
  unfold Gpio.openIfNeeded
  rcases good.ledger.lookup_cases gpio with ⟨zero, absent⟩ | ⟨positive, listed⟩
  · rw [if_pos zero]
    exact good.openValue board allowed absent
  · right
    rw [if_neg (by omega)]
    obtain ⟨blue, -, file⟩ := good.ledger.value _ listed
    refine ⟨_, s, acc.lost, rfl, good, ⟨⟨_, file⟩, ?_⟩⟩
    exact fun pair member => good.ledger.same_pin listed member

theorem System.Good.epollCreate (good : s.Good acc) (succeeds : Bool) :
    Gpio.epollCreate board succeeds s = (none, s) ∨
      ∃ e t, Gpio.epollCreate board succeeds s = (some e, t) ∧
        t.Good { acc with epolls := e :: acc.epolls } ∧ t.pairs = s.pairs := by
  unfold Gpio.epollCreate
  cases succeeds with
  | false => exact Or.inl rfl
  | true =>
      right
      have fresh := board.descriptor.fresh s.files.used
      have positive := board.descriptor_pos s.files.used
      refine ⟨_, _, rfl, ?_, rfl⟩
      exact ⟨good.ledger.created fresh positive _, good.counted, good.addresses, good.told,
        good.exports, good.epfd, good.waits, good.callbacks⟩

theorem System.Good.epollAdd (good : s.Good acc) {fd : Nat} (usable : s.Usable gpio fd)
    (inRange : gpio < GPIOS) (succeeds : Bool) (e : Nat) :
    (Gpio.epollAdd succeeds e fd s).2.Good acc := by
  unfold Gpio.epollAdd
  cases s.instanceOf e with
  | none => exact good
  | some inst =>
      dsimp only
      split
      · obtain ⟨path, file⟩ := usable.file
        refine ⟨good.ledger.watch inst file ?_, good.counted, good.addresses, good.told, good.exports,
          good.epfd, good.waits, good.callbacks⟩
        intro pair member same
        rwa [usable.pin pair member same]
      · exact good

theorem System.Good.epollDel (good : s.Good acc) (epfd : Option Nat) (fd : Nat) :
    (Gpio.epollDel epfd fd s).Good acc := by
  unfold Gpio.epollDel
  cases epfd.bind s.instanceOf with
  | none => exact good
  | some inst =>
      have fewer : ∀ other,
          Function.update s.interest inst ((s.interest inst).erase fd) other ⊆ s.interest other := by
        intro other
        by_cases same : other = inst
        · subst same
          rw [Function.update_self]
          exact Finset.erase_subset ..
        · rw [Function.update_of_ne same]
      exact ⟨good.ledger.unwatch fewer, good.counted, good.addresses, good.told, good.exports,
        good.epfd, good.waits, good.callbacks⟩

/-- Closing the instance at the head of the account. -/
theorem System.Good.closeEpoll {e : Nat} {epolls : List Nat} (good : s.Good acc)
    (first : acc.epolls = e :: epolls) : (close e s).Good { acc with epolls } := by
  have ledger := good.ledger
  rw [first] at ledger
  exact ⟨ledger.closeEpoll, good.counted, good.addresses, good.told, good.exports, good.epfd,
    good.waits, good.callbacks⟩

end Opening

/-! ### Closing -/

theorem closeValueFdFrom_absent {fdList : List Fdx} (absent : ∀ f ∈ fdList, f.gpio ≠ gpio)
    (s : System) : closeValueFdFrom gpio fdList s = (fdList, s) := by
  induction fdList with
  | nil => rfl
  | cons f rest ih =>
      obtain ⟨here, others⟩ := List.forall_mem_cons.mp absent
      rw [closeValueFdFrom, if_neg here, ih others]

theorem closeValueFdFrom_listed {front back : List Fdx} {f : Fdx} (here : f.gpio = gpio)
    (before : ∀ f ∈ front, f.gpio ≠ gpio) (after : ∀ f ∈ back, f.gpio ≠ gpio) (s : System) :
    closeValueFdFrom gpio (front ++ f :: back) s = (front ++ back, close f.fd s) := by
  induction front with
  | nil =>
      rw [List.nil_append, closeValueFdFrom, if_pos here, closeValueFdFrom_absent after]
      rfl
  | cons g rest ih =>
      obtain ⟨other, others⟩ := List.forall_mem_cons.mp before
      rw [List.cons_append, closeValueFdFrom, if_neg other, ih others]
      rfl

theorem System.Good.closeValue (good : s.Good acc) (gpio : Nat) :
    (closeValueFd gpio s).Good acc ∧
      (closeValueFd gpio s).fdList = s.fdList.filter fun f => f.gpio ≠ gpio := by
  have pins := good.ledger.pins
  rw [System.pairs, List.map_map] at pins
  have told : ∀ fdList : List Fdx, fdList = s.fdList.filter (fun f => f.gpio ≠ gpio) →
      Told acc.before (s.trace ++ [.closed gpio])
        (System.pin { s with fdList }) := by
    rintro fdList rfl
    refine good.told.step rfl trivial ?_ fun other elsewhere => ?_
    · have initial : (s.fdList.filter fun f => f.gpio ≠ gpio).any
          (fun f => f.gpio = gpio && f.initial) = false := by
        rw [List.any_filter, List.any_eq_false]
        intro f _
        by_cases here : f.gpio = gpio
        · simp [here]
        · simp [here]
      exact congrArg (fun pending => Pin.mk pending _ _) initial
    · have different : gpio ≠ other := elsewhere
      have initial : (s.fdList.filter fun f => f.gpio ≠ gpio).any
          (fun f => f.gpio = other && f.initial) =
          s.fdList.any fun f => f.gpio = other && f.initial := by
        rw [List.any_filter]
        congr 1
        funext f
        by_cases isOther : f.gpio = other
        · simp [isOther, Ne.symm different]
        · simp [isOther]
      exact congrArg (fun pending => Pin.mk pending _ _) initial
  by_cases listed : ∃ f ∈ s.fdList, f.gpio = gpio
  · obtain ⟨f, member, here⟩ := listed
    obtain ⟨front, back, split⟩ := List.append_of_mem member
    rw [split, List.map_append, List.map_cons, List.nodup_middle, List.nodup_cons,
      List.mem_append, not_or] at pins
    have before : ∀ g ∈ front, g.gpio ≠ gpio := fun g inFront same =>
      pins.1.1 (List.mem_map.mpr ⟨g, inFront, same.trans here.symm⟩)
    have after : ∀ g ∈ back, g.gpio ≠ gpio := fun g inBack same =>
      pins.1.2 (List.mem_map.mpr ⟨g, inBack, same.trans here.symm⟩)
    have kept : front ++ back = s.fdList.filter fun f => f.gpio ≠ gpio := by
      rw [split, List.filter_append, List.filter_cons_of_neg (by simp [here]),
        List.filter_eq_self.mpr (by simpa using before), List.filter_eq_self.mpr (by simpa using after)]
    have ledger := good.ledger
    have pairs : s.pairs = front.map (fun f => (f.fd, f.gpio)) ++ (f.fd, f.gpio) ::
        back.map fun f => (f.fd, f.gpio) := by
      rw [System.pairs, split, List.map_append, List.map_cons]
    rw [pairs] at ledger
    have closes : closeValueFd gpio s =
        ({ close f.fd s with fdList := front ++ back }).note (.closed gpio) := by
      rw [closeValueFd, split, closeValueFdFrom_listed here before after]
    rw [closes]
    refine ⟨⟨?_, ?_, good.addresses, told _ kept, good.exports, good.epfd,
      good.waits, good.callbacks⟩, kept⟩
    · have closed := ledger.closePair
      rw [← List.map_append] at closed
      exact closed
    · simpa [System.note, close, Note.isLost] using good.counted
  · have absent : ∀ f ∈ s.fdList, f.gpio ≠ gpio := fun f member same => listed ⟨f, member, same⟩
    have kept : s.fdList = s.fdList.filter fun f => f.gpio ≠ gpio :=
      (List.filter_eq_self.mpr (by simpa using absent)).symm
    have closes : closeValueFd gpio s = s.note (.closed gpio) := by
      rw [closeValueFd, closeValueFdFrom_absent absent]
    rw [closes]
    refine ⟨⟨good.ledger, ?_, good.addresses, told _ kept, good.exports, good.epfd,
      good.waits, good.callbacks⟩, kept⟩
    simpa [System.note, Note.isLost] using good.counted

end Lists

end ProjectOwl.Beagle.Gpio
