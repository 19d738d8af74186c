import ProjectOwl.Beagle.Pwm

/-! # GPIO events

`beagle/bbio/event_gpio.c` keeps the descriptors of the pins it has opened and the
functions to call on an edge, and polls the pins in a thread of its own.  A call is a
function of the outcomes of its system calls, and so is an iteration of the thread,
which comes between two calls.  Either gives `none` when it reads outside an array or
from a block that is not allocated.  Log texts, pauses and descriptors that a function
closes itself are left out. -/

set_option autoImplicit false

namespace ProjectOwl.Beagle.Gpio

open Pwm (BbioErr)

/-- The length of `exported_gpios` and `event_occurred`. -/
def GPIOS : Nat := 120

def USR_LED_GPIO_MIN : Nat := 53

def USR_LED_GPIO_MAX : Nat := 56

/-- The other built-in LEDs of a BeagleBone Blue. -/
def ledNames : List (Nat × String) :=
  [(66, "red"), (67, "green"), (27, "bat25"), (11, "bat50"), (61, "bat75"), (10000, "bat100"),
   (10001, "wifi")]

def usrLedTrigger : List String := ["heartbeat", "mmc0", "cpu0", "mmc1"]

def isUsrLed (gpio : Nat) : Bool := USR_LED_GPIO_MIN ≤ gpio && gpio ≤ USR_LED_GPIO_MAX

/-- `blue` is what `beaglebone_blue` returns. -/
def isLed (blue : Bool) (gpio : Nat) : Bool :=
  isUsrLed gpio || (blue && (ledNames.lookup gpio).isSome)

/-! ## The state -/

inductive Exported where
  | notExported
  | exported
  | alreadyExported
  deriving DecidableEq, Repr

structure Fdx where
  fd : Nat
  gpio : Nat
  initial : Bool
  isEvented : Bool
  deriving DecidableEq, Repr

structure Callback where
  gpio : Nat
  func : Nat
  deriving DecidableEq, Repr

/-- The file that a pin's value is read from or written to. -/
inductive Path where
  | gpio (gpio : Nat)
  | usrLed (led : Nat)
  | trigger (name : String)
  | led (name : String)
  deriving DecidableEq, Repr

/-- What a descriptor stands for: a value file, or an instance of epoll. -/
inductive File where
  | value (path : Path)
  | epoll (inst : Nat)
  deriving DecidableEq, Repr

/-- A call of `blocking_wait_for_edge` that waits. -/
structure Wait where
  gpio : Nat
  fd : Nat
  epfd : Nat
  deriving DecidableEq, Repr

/-- What happened to a pin. -/
inductive Note where
  | opened (gpio : Nat)
  | closed (gpio : Nat)
  | reset (gpio : Nat)
  /-- A descriptor that stays open and that nothing keeps. -/
  | lost (gpio : Nat)
  | added (gpio func : Nat)
  | removed (gpio : Nat)
  | triggered (gpio : Nat)
  | ran (gpio func : Nat)
  | cleared (gpio : Nat)
  | detected (gpio : Nat) (yes : Bool)
  deriving DecidableEq, Repr

structure System where
  fdList : List Fdx
  /-- The blocks of the list with their addresses. -/
  callbacks : List (Nat × Callback)
  exportedGpios : Nat → Exported
  eventOccurred : Nat → Bool
  threadRunning : Bool
  epfd : Option Nat
  files : Pool File
  /-- The descriptors that were added to an instance of epoll. -/
  interest : Nat → Finset Nat
  /-- The instances made so far. -/
  instances : Nat
  /-- The threads that were created and have not run. -/
  created : Nat
  /-- The instance that each of the other threads waits for. -/
  polling : List Nat
  waits : List Wait
  /-- The pins in sysfs. -/
  present : Nat → Bool
  output : Nat → Bool
  edge : Nat → Nat
  value : Path → Bool
  trace : List Note

def System.note (note : Note) (s : System) : System := { s with trace := s.trace ++ [note] }

/-- The allocators; descriptor 0 is one the process was started with. -/
structure Board where
  malloc : Allocator
  descriptor : Allocator
  descriptor_pos : ∀ used, 0 < descriptor.choose used

/-! ## System calls -/

section SystemCalls
variable (board : Board)

def openFile (file : File) (s : System) : Nat × System :=
  let fd := board.descriptor.choose s.files.used
  (fd, { s with files := s.files.add fd file })

/-- A closed descriptor is dropped from every instance it was added to. -/
def close (fd : Nat) (s : System) : System :=
  { s with
    files := s.files.drop fd
    interest := fun inst => (s.interest inst).erase fd }

/-- `none` is -1. -/
def epollCreate (succeeds : Bool) (s : System) : Option Nat × System :=
  if succeeds then
    let (fd, t) := openFile board (.epoll s.instances) s
    (some fd, { t with instances := s.instances + 1 })
  else (none, s)

def System.instanceOf (s : System) (epfd : Nat) : Option Nat :=
  match s.files.get? epfd with
  | some (.epoll inst) => some inst
  | _ => none

/-- `epoll_ctl` with `EPOLL_CTL_ADD`, which refuses a descriptor for the second time. -/
def epollAdd (succeeds : Bool) (epfd fd : Nat) (s : System) : Bool × System :=
  match s.instanceOf epfd with
  | none => (false, s)
  | some inst =>
      if succeeds && (s.files.get? fd).isSome && fd ∉ s.interest inst then
        (true, { s with
          interest := Function.update s.interest inst (insert fd (s.interest inst)) })
      else (false, s)

/-- `epoll_ctl` with `EPOLL_CTL_DEL`; its result is not looked at. -/
def epollDel (epfd : Option Nat) (fd : Nat) (s : System) : System :=
  match epfd.bind s.instanceOf with
  | none => s
  | some inst =>
      { s with interest := Function.update s.interest inst ((s.interest inst).erase fd) }

end SystemCalls

/-! ## The list of descriptors -/

section Descriptors
variable (board : Board)

/-- The loop of `close_value_fd`: what is left of the list. -/
def closeValueFdFrom (gpio : Nat) : List Fdx → System → List Fdx × System
  | [], s => ([], s)
  | f :: rest, s =>
      if f.gpio = gpio then closeValueFdFrom gpio rest (close f.fd s)
      else
        let (kept, s) := closeValueFdFrom gpio rest s
        (f :: kept, s)

def closeValueFd (gpio : Nat) (s : System) : System :=
  let (kept, s) := closeValueFdFrom gpio s.fdList s
  { s with fdList := kept }.note (.closed gpio)

/-- 0 if there is none. -/
def fdLookup (gpio : Nat) (s : System) : Nat :=
  match s.fdList.find? fun f => f.gpio = gpio with
  | some f => f.fd
  | none => 0

def gpioLookup (fd : Nat) (s : System) : Nat :=
  match s.fdList.find? fun f => f.fd = fd with
  | some f => f.gpio
  | none => 0

def addFdList (malloc : Bool) (gpio fd : Nat) (s : System) : System :=
  if malloc then { s with fdList := ⟨fd, gpio, true, false⟩ :: s.fdList }.note (.opened gpio)
  else s.note (.lost gpio)

def valuePath (blue : Bool) (gpio : Nat) : Path :=
  if isUsrLed gpio then .usrLed (gpio - USR_LED_GPIO_MIN)
  else if blue then
    match ledNames.lookup gpio with
    | some name => .led name
    | none => .gpio gpio
  else .gpio gpio

structure OpenOutcome where
  blue : Bool
  opens : Bool
  malloc : Bool
  deriving DecidableEq, Repr

/-- `none` is -1; the result of `add_fd_list` is not looked at. -/
def openValueFile (outcome : OpenOutcome) (gpio : Nat) (s : System) : Option Nat × System :=
  if outcome.opens then
    let (fd, s) := openFile board (.value (valuePath outcome.blue gpio)) s
    (some fd, addFdList outcome.malloc gpio fd s)
  else (none, s)

/-- `if (!fd) fd = open_value_file(gpio)`. -/
def openIfNeeded (outcome : OpenOutcome) (gpio fd : Nat) (s : System) : Option Nat × System :=
  if fd = 0 then openValueFile board outcome gpio s else (some fd, s)

def setInitialFalse (gpio : Nat) (s : System) : System :=
  { s with fdList := s.fdList.map fun f => if f.gpio = gpio then { f with initial := false } else f }

def gpioInitial (gpio : Nat) (s : System) : Bool :=
  s.fdList.any fun f => f.gpio = gpio && f.initial

def gpioIsEvented (gpio : Nat) (s : System) : Bool := s.fdList.any fun f => f.gpio = gpio

/-- An assignment to the first entry of a pin. -/
def assignFirst (gpio : Nat) (change : Fdx → Fdx) : List Fdx → List Fdx
  | [] => []
  | f :: rest => if f.gpio = gpio then change f :: rest else f :: assignFirst gpio change rest

/-- Whether it returns 1. -/
def gpioEventAdd (gpio : Nat) (s : System) : Bool × System :=
  match s.fdList.find? fun f => f.gpio = gpio with
  | none => (false, s)
  | some f =>
      if f.isEvented then (true, s)
      else (false, { s with fdList := assignFirst gpio ({ · with isEvented := true }) s.fdList })

def gpioEventRemove (gpio : Nat) (s : System) : System :=
  if gpioIsEvented gpio s then
    { s with
      fdList := assignFirst gpio ({ · with isEvented := false, initial := true }) s.fdList }.note
        (.reset gpio)
  else s

end Descriptors

/-! ## Pins in sysfs -/

structure SysfsOutcome where
  blue : Bool
  opens : Bool
  done : Bool
  /-- The level of the line, which an input follows. -/
  line : Bool
  deriving DecidableEq, Repr

/-- The file is opened and written. -/
def SysfsOutcome.writes (outcome : SysfsOutcome) : Bool := outcome.opens && outcome.done

structure ExportOutcome where
  blue : Bool
  access : Bool
  opens : Bool
  writes : Bool
  closes : Bool
  deriving DecidableEq, Repr

def System.setExported (s : System) (gpio : Nat) (state : Exported) : System :=
  { s with exportedGpios := Function.update s.exportedGpios gpio state }

/-- A pin that is present cannot be exported; `ret` is what `close` returns once there is
a descriptor to close. -/
def gpioExport (outcome : ExportOutcome) (gpio : Nat) (s : System) : Option (BbioErr × System) :=
  if GPIOS ≤ gpio then none
  else if s.exportedGpios gpio ≠ .notExported then some (.ok, s)
  else if isLed outcome.blue gpio then some (.ok, s)
  else if s.present gpio && outcome.access then
    some (.ok, s.setExported gpio .alreadyExported)
  else if !outcome.opens then some (.sysfs, s)
  else
    let ret := if outcome.closes then .ok else .sysfs
    if outcome.writes && !s.present gpio then
      some (ret, { s with present := Function.update s.present gpio true }.setExported gpio .exported)
    else some (ret, s)

/-- A pin that is not present cannot be unexported, and one that is given up is an input. -/
def gpioUnexport (outcome : SysfsOutcome) (gpio : Nat) (s : System) : Option (BbioErr × System) :=
  if GPIOS ≤ gpio then none
  else if s.exportedGpios gpio ≠ .exported then some (.ok, s)
  else
    let s := closeValueFd gpio s
    if !outcome.opens then some (.sysfs, s)
    else if !(outcome.done && s.present gpio) then some (.sysfs, s)
    else some (.ok,
      { s with
        present := Function.update s.present gpio false
        output := Function.update s.output gpio false
        value := Function.update s.value (.gpio gpio) outcome.line }.setExported gpio .notExported)

/-- `out` drives the pin low. -/
def gpioSetDirection (outcome : SysfsOutcome) (gpio inFlag : Nat) (s : System) :
    BbioErr × System :=
  if isLed outcome.blue gpio then (.ok, s)
  else if !outcome.writes then (.sysfs, s)
  else (.ok,
    { s with
      output := Function.update s.output gpio (inFlag ≠ 0)
      value := Function.update s.value (.gpio gpio) (if inFlag ≠ 0 then false else outcome.line) })

/-- The value is that of `OUTPUT`. -/
def gpioGetDirection (outcome : SysfsOutcome) (gpio : Nat) (s : System) : BbioErr × Option Bool :=
  if !outcome.opens || !outcome.done then (.sysfs, none) else (.ok, some (s.output gpio))

/-- `access` tells whether the file of a user LED can be written. -/
def setValuePath (blue access : Bool) (gpio : Nat) : Path :=
  if isUsrLed gpio && !access then
    .trigger (usrLedTrigger.getD (gpio - USR_LED_GPIO_MIN) "")
  else valuePath blue gpio

/-- The value of a pin that is an input is not written. -/
def System.refuses (s : System) : Path → Bool
  | .gpio gpio => !s.output gpio
  | _ => false

def gpioSetValue (outcome : SysfsOutcome) (access : Bool) (gpio value : Nat) (s : System) :
    BbioErr × System :=
  let path := setValuePath outcome.blue access gpio
  if !outcome.writes || s.refuses path then (.sysfs, s)
  else (.ok, { s with value := Function.update s.value path (value ≠ 0) })

/-- A byte read from a descriptor; an epoll descriptor has none. -/
def System.readByte (s : System) (fd : Nat) : Option Bool :=
  match s.files.get? fd with
  | some (.value path) => some (s.value path)
  | _ => none

def gpioGetValue (board : Board) (outcome : OpenOutcome) (reads : Bool) (gpio : Nat) (s : System) :
    (BbioErr × Option Bool) × System :=
  match openIfNeeded board outcome gpio (fdLookup gpio s) s with
  | (none, s) => ((.sysfs, none), s)
  | (some fd, s) =>
      match if reads then s.readByte fd else none with
      | none => ((.sysfs, none), s)
      | some value => ((.ok, some value), s)

/-- The second result tells whether it returns 0; `stredge` has four entries. -/
def gpioSetEdge (outcome : SysfsOutcome) (gpio edge : Nat) (s : System) : Option (Bool × System) :=
  if !outcome.opens then some (false, s)
  else if 4 ≤ edge then none
  else if !outcome.done then some (false, s)
  else some (true, { s with edge := Function.update s.edge gpio edge })

/-- The loop of `exports_cleanup` over the pins left. -/
def exportsCleanupFrom (outcomes : Nat → SysfsOutcome) : List Nat → System → Option System
  | [], s => some s
  | gpio :: rest, s => do
      let (_, s) ← gpioUnexport (outcomes gpio) gpio s
      exportsCleanupFrom outcomes rest s

def exportsCleanup (outcomes : Nat → SysfsOutcome) (s : System) : Option System :=
  exportsCleanupFrom outcomes (List.range GPIOS) s

/-! ## Callbacks -/

section Callbacks
variable (board : Board)

/-- Whether it returns 0. -/
def addEdgeCallback (malloc : Bool) (gpio func : Nat) (s : System) : Bool × System :=
  if malloc then
    let a := board.malloc.choose (s.callbacks.map Prod.fst).toFinset
    (true, { s with callbacks := s.callbacks ++ [(a, Callback.mk gpio func)] }.note (.added gpio func))
  else (false, s)

/-- The loop of `remove_callbacks`: what is left of the list. -/
def removeCallbacksFrom (gpio : Nat) : List (Nat × Callback) → List (Nat × Callback)
  | [] => []
  | cb :: rest =>
      if cb.2.gpio = gpio then removeCallbacksFrom gpio rest
      else cb :: removeCallbacksFrom gpio rest

def removeCallbacks (gpio : Nat) (s : System) : System :=
  { s with callbacks := removeCallbacksFrom gpio s.callbacks }.note (.removed gpio)

/-- The block at an address, and its `next`. -/
def blockAt (a : Nat) : List (Nat × Callback) → Option (Callback × Option Nat)
  | [] => none
  | (b, cb) :: rest => if b = a then some (cb, rest.head?.map Prod.fst) else blockAt a rest

/-- The first byte of a block is the low one of its `gpio`. -/
def Callback.cookie (cb : Callback) : Nat := cb.gpio % 256

end Callbacks

/-! ## Edge detection -/

structure WatchOutcome where
  exports : ExportOutcome
  direction : SysfsOutcome
  edge : SysfsOutcome
  value : OpenOutcome
  create : Bool
  add : Bool
  deriving DecidableEq, Repr

inductive Reply where
  | done
  | err (err : BbioErr)
  | read (err : BbioErr) (value : Option Bool)
  | code (n : Int)
  | errno
  | waiting
  deriving DecidableEq, Repr

section Edges
variable (board : Board)

/-- `gpio_export`, `gpio_set_direction` to input and `gpio_set_edge`, whatever they return. -/
def prepare (outcome : WatchOutcome) (gpio edge : Nat) (s : System) : Option System := do
  let (_, s) ← gpioExport outcome.exports gpio s
  let (_, s) := gpioSetDirection outcome.direction gpio 0 s
  let (_, s) ← gpioSetEdge outcome.edge gpio edge s
  return s

/-- `epfd` once it is created. -/
def epfdOrCreate (succeeds : Bool) (s : System) : Option Nat × System :=
  match s.epfd with
  | some epfd => (some epfd, s)
  | none =>
      let (epfd, s) := epollCreate board succeeds s
      (epfd, { s with epfd })

def addEdgeDetect (outcome : WatchOutcome) (thread : Bool) (gpio edge : Nat) (s : System) :
    Option (Reply × System) := do
  let fd := fdLookup gpio s
  let (already, s) := gpioEventAdd gpio s
  if already then
    return (.code (-1), s)
  let s ← prepare outcome gpio edge s
  match openIfNeeded board outcome.value gpio fd s with
  | (none, s) => return (.errno, s)
  | (some fd, s) =>
  match epfdOrCreate board outcome.create s with
  | (none, s) => return (.errno, s)
  | (some epfd, s) =>
  let (added, s) := epollAdd outcome.add epfd fd s
  if !added then
    return (.errno, s)
  if s.threadRunning then
    return (.code 0, s)
  if !thread then
    return (.errno, s)
  return (.code 0, { s with created := s.created + 1 })

def removeEdgeDetect (outcome : SysfsOutcome) (gpio : Nat) (s : System) : Option System := do
  let fd := fdLookup gpio s
  let s := removeCallbacks gpio s
  let s := epollDel s.epfd fd s
  let (_, s) ← gpioSetEdge outcome gpio 0 s
  let s := gpioEventRemove gpio s
  if GPIOS ≤ gpio then none
  else
    return { s with eventOccurred := Function.update s.eventOccurred gpio false }.note (.cleared gpio)

def eventDetected (gpio : Nat) (s : System) : Option (Bool × System) :=
  if GPIOS ≤ gpio then none
  else if s.eventOccurred gpio then
    some (true,
      { s with eventOccurred := Function.update s.eventOccurred gpio false }.note
        (.detected gpio true))
  else some (false, s.note (.detected gpio false))

/-- `epfd` keeps its number. -/
def eventCleanup (outcomes : Nat → SysfsOutcome) (s : System) : Option System :=
  let s :=
    match s.epfd with
    | some epfd => close epfd s
    | none => s
  exportsCleanup outcomes { s with threadRunning := false }

/-- `blocking_wait_for_edge` up to its wait. -/
def blockingWaitBegin (outcome : WatchOutcome) (gpio edge : Nat) (s : System) :
    Option (Reply × System) := do
  let fd := fdLookup gpio s
  match epollCreate board outcome.create s with
  | (none, s) => return (.code 1, s)
  | (some epfd, s) =>
  let (already, s) := gpioEventAdd gpio s
  if already then
    return (.code 2, s.note (.lost gpio))
  let s ← prepare outcome gpio edge s
  match openIfNeeded board outcome.value gpio fd s with
  | (none, s) => return (.code 3, s.note (.lost gpio))
  | (some fd, s) =>
  let (added, s) := epollAdd outcome.add epfd fd s
  if !added then
    return (.code 4, (gpioEventRemove gpio s).note (.lost gpio))
  return (.waiting, { s with waits := s.waits ++ [⟨gpio, fd, epfd⟩] })

inductive Waited where
  | failed
  | timeout
  | ready (reads : Bool)
  deriving DecidableEq, Repr

/-- The rest of `blocking_wait_for_edge`; the ready descriptor is the one it added. -/
def blockingWaitEnd (which : Nat) (waited : Waited) (s : System) : Reply × System :=
  match s.waits[which]? with
  | none => (.done, s)
  | some wait =>
      let s := { s with waits := s.waits.eraseIdx which }
      let s := gpioEventRemove wait.gpio s
      match waited with
      | .failed => (.code 5, s.note (.lost wait.gpio))
      | .ready false => (.code 6, s.note (.lost wait.gpio))
      | .timeout => (.code (-1), close wait.epfd s)
      | .ready true => (.code 0, close wait.epfd s)

/-! ## Calls -/

inductive Call where
  | gpioExport (outcome : ExportOutcome) (gpio : Nat)
  | gpioUnexport (outcome : SysfsOutcome) (gpio : Nat)
  | exportsCleanup (outcomes : Nat → SysfsOutcome)
  | gpioSetDirection (outcome : SysfsOutcome) (gpio inFlag : Nat)
  | gpioGetDirection (outcome : SysfsOutcome) (gpio : Nat)
  | gpioSetValue (outcome : SysfsOutcome) (access : Bool) (gpio value : Nat)
  | gpioGetValue (outcome : OpenOutcome) (reads : Bool) (gpio : Nat)
  | gpioSetEdge (outcome : SysfsOutcome) (gpio edge : Nat)
  | addEdgeCallback (malloc : Bool) (gpio func : Nat)
  | addEdgeDetect (outcome : WatchOutcome) (thread : Bool) (gpio edge : Nat)
  | removeEdgeDetect (outcome : SysfsOutcome) (gpio : Nat)
  | eventDetected (gpio : Nat)
  | gpioInitial (gpio : Nat)
  | gpioIsEvented (gpio : Nat)
  | gpioEventAdd (gpio : Nat)
  | gpioEventRemove (gpio : Nat)
  | eventCleanup (outcomes : Nat → SysfsOutcome)
  | waitBegin (outcome : WatchOutcome) (gpio edge : Nat)
  | waitEnd (which : Nat) (waited : Waited)

def Call.run : Call → System → Option (Reply × System)
  | .gpioExport outcome gpio, s => (Gpio.gpioExport outcome gpio s).map fun (e, s) => (.err e, s)
  | .gpioUnexport outcome gpio, s =>
      (Gpio.gpioUnexport outcome gpio s).map fun (e, s) => (.err e, s)
  | .exportsCleanup outcomes, s => (Gpio.exportsCleanup outcomes s).map fun s => (.done, s)
  | .gpioSetDirection outcome gpio inFlag, s =>
      let (e, s) := Gpio.gpioSetDirection outcome gpio inFlag s
      some (.err e, s)
  | .gpioGetDirection outcome gpio, s =>
      let (e, value) := Gpio.gpioGetDirection outcome gpio s
      some (.read e value, s)
  | .gpioSetValue outcome access gpio value, s =>
      let (e, s) := Gpio.gpioSetValue outcome access gpio value s
      some (.err e, s)
  | .gpioGetValue outcome reads gpio, s =>
      let ((e, value), s) := Gpio.gpioGetValue board outcome reads gpio s
      some (.read e value, s)
  | .gpioSetEdge outcome gpio edge, s =>
      (Gpio.gpioSetEdge outcome gpio edge s).map fun (set, s) => (.code (if set then 0 else -1), s)
  | .addEdgeCallback malloc gpio func, s =>
      let (added, s) := Gpio.addEdgeCallback board malloc gpio func s
      some (.code (if added then 0 else -1), s)
  | .addEdgeDetect outcome thread gpio edge, s =>
      Gpio.addEdgeDetect board outcome thread gpio edge s
  | .removeEdgeDetect outcome gpio, s =>
      (Gpio.removeEdgeDetect outcome gpio s).map fun s => (.done, s)
  | .eventDetected gpio, s =>
      (Gpio.eventDetected gpio s).map fun (yes, s) => (.code (if yes then 1 else 0), s)
  | .gpioInitial gpio, s => some (.code (if Gpio.gpioInitial gpio s then 1 else 0), s)
  | .gpioIsEvented gpio, s => some (.code (if Gpio.gpioIsEvented gpio s then 1 else 0), s)
  | .gpioEventAdd gpio, s =>
      let (already, s) := Gpio.gpioEventAdd gpio s
      some (.code (if already then 1 else 0), s)
  | .gpioEventRemove gpio, s => some (.code 0, Gpio.gpioEventRemove gpio s)
  | .eventCleanup outcomes, s => (Gpio.eventCleanup outcomes s).map fun s => (.done, s)
  | .waitBegin outcome gpio edge, s => blockingWaitBegin board outcome gpio edge s
  | .waitEnd which waited, s => some (blockingWaitEnd which waited s)

/-- The body of a callback. -/
def runCalls : List Call → System → Option System
  | [], s => some s
  | call :: rest, s => do
      let (_, s) ← call.run board s
      runCalls rest s

/-! ## The thread -/

/-- The loop of `run_callbacks` from the block `cb` on; each function that is run has the
next of the bodies. -/
def runCallbacksFrom (gpio : Nat) : Nat → Option Nat → List (List Call) → System → Option System
  | _, none, _, s => some s
  | 0, some _, _, _ => none
  | fuel + 1, some cb, bodies, s => do
      let (before, _) ← blockAt cb s.callbacks
      let (bodies, s) ←
        if before.gpio = gpio then
          (runCalls board (bodies.headD []) (s.note (.ran gpio before.func))).map
            fun s => (bodies.tail, s)
        else some (bodies, s)
      let (after, next) ← blockAt cb s.callbacks
      if before.cookie ≠ after.cookie then some s
      else runCallbacksFrom gpio fuel next bodies s

/-- The blocks there are, and those that the bodies may add, bound the loop. -/
def runCallbacks (gpio : Nat) (bodies : List (List Call)) (s : System) : Option System :=
  runCallbacksFrom board gpio (s.callbacks.length + bodies.flatten.length)
    (s.callbacks.head?.map Prod.fst) bodies s

/-- A thread that leaves its loop. -/
def System.exit (s : System) (thread : Nat) : System :=
  { s with threadRunning := false, polling := s.polling.eraseIdx thread }

/-- `while (thread_running)` and the next `epoll_wait`, which fails without an instance. -/
def pollAgain (thread : Nat) (s : System) : System :=
  if s.threadRunning then
    match s.epfd.bind s.instanceOf with
    | some inst => { s with polling := s.polling.set thread inst }
    | none => s.exit thread
  else s.exit thread

/-- A thread that begins to run. -/
def threadStart (s : System) : System :=
  match s.created with
  | 0 => s
  | created + 1 =>
      match s.epfd.bind s.instanceOf with
      | some inst =>
          { s with created, threadRunning := true, polling := s.polling ++ [inst] }
      | none => { s with created, threadRunning := false }

/-- An iteration of `poll_thread` once `epoll_wait` returns a descriptor. -/
def pollThread (thread fd : Nat) (reads : Bool) (bodies : List (List Call)) (s : System) :
    Option System :=
  match s.polling[thread]? with
  | none => some s
  | some inst =>
      if fd ∉ s.interest inst then some s
      else if !reads then some (s.exit thread)
      else do
        let gpio := gpioLookup fd s
        let s := s.note (.triggered gpio)
        if gpioInitial gpio s then
          return pollAgain thread (setInitialFalse gpio s)
        else if GPIOS ≤ gpio then none
        else
          let s := { s with eventOccurred := Function.update s.eventOccurred gpio true }
          let s ← runCallbacks board gpio bodies s
          return pollAgain thread s

inductive Event where
  | call (call : Call)
  | threadStart
  | wake (thread fd : Nat) (reads : Bool) (bodies : List (List Call))
  | waitFailed (thread : Nat)
  /-- A pin, or another program, changes a value. -/
  | level (path : Path) (value : Bool)

def step : Event → System → Option System
  | .call call, s => (call.run board s).map Prod.snd
  | .threadStart, s => some (Gpio.threadStart s)
  | .wake thread fd reads bodies, s => pollThread board thread fd reads bodies s
  | .waitFailed thread, s => some (if thread < s.polling.length then s.exit thread else s)
  | .level path value, s => some { s with value := Function.update s.value path value }

def run : List Event → System → Option System
  | [], s => some s
  | event :: rest, s => (step board event s).bind (run rest)

end Edges

end ProjectOwl.Beagle.Gpio
