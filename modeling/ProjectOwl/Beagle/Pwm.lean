import ProjectOwl.Lib.Chain
import ProjectOwl.Lib.Round

/-! # The PWM driver

`beagle/bbio/c_pwm.c` keeps a linked list of the channels it has exported, each
with four descriptors of sysfs files and a copy of what it last wrote to them.
A call is a function of the outcomes of its system calls; it gives `none` when it
reads or writes memory that is not allocated.  Log texts and the texts of paths
are left out, and `unsigned long` is the 32-bit one of the board.  A duty cycle and
a frequency are the `float` that the callee gets; what is computed from them is
computed in doubles, each operation rounded. -/

set_option autoImplicit false

namespace ProjectOwl.Beagle.Pwm

open BinaryFormat (double)

inductive BbioErr where
  | ok
  | access
  | sysfs
  | cape
  | invarg
  | mem
  | gen
  deriving DecidableEq, Repr

/-! ## The table of channels -/

/-- The fields of `pwm_t` that the driver reads. -/
structure PwmT where
  module : String
  index : Nat
  chip : String
  addr : String
  key : String
  deriving DecidableEq, Repr

def pwmTable : List PwmT :=
  [⟨"ehrpwm2", 1, "48304000", "48304200", "P8_13"⟩,
   ⟨"ehrpwm2", 0, "48304000", "48304200", "P8_19"⟩,
   ⟨"ehrpwm1", 1, "48302000", "48302200", "P8_34"⟩,
   ⟨"ehrpwm1", 0, "48302000", "48302200", "P8_36"⟩,
   ⟨"ehrpwm2", 0, "48304000", "48304200", "P8_45"⟩,
   ⟨"ehrpwm2", 1, "48304000", "48304200", "P8_46"⟩,
   ⟨"ehrpwm1", 0, "48302000", "48302200", "P9_14"⟩,
   ⟨"ehrpwm1", 1, "48302000", "48302200", "P9_16"⟩,
   ⟨"ehrpwm0", 1, "48300000", "48300200", "P9_21"⟩,
   ⟨"ehrpwm0", 0, "48300000", "48300200", "P9_22"⟩,
   ⟨"ecap2", 0, "48304000", "48304100", "P9_28"⟩,
   ⟨"ehrpwm0", 1, "48300000", "48300200", "P9_29"⟩,
   ⟨"ehrpwm0", 0, "48300000", "48300200", "P9_31"⟩,
   ⟨"ecap0", 0, "48300000", "48300100", "P9_42"⟩,
   ⟨"timer4", 0, "", "dmtimer-pwm-4", "P8_7"⟩,
   ⟨"timer7", 0, "", "dmtimer-pwm-7", "P8_8"⟩,
   ⟨"timer5", 0, "", "dmtimer-pwm-5", "P8_9"⟩,
   ⟨"timer6", 0, "", "dmtimer-pwm-6", "P8_10"⟩,
   ⟨"ehrpwm0", 0, "48300000", "48300200", "P1_8"⟩,
   ⟨"ehrpwm0", 0, "48300000", "48300200", "P1_36"⟩,
   ⟨"ehrpwm0", 1, "48300000", "48300200", "P1_10"⟩,
   ⟨"ehrpwm0", 1, "48300000", "48300200", "P1_33"⟩,
   ⟨"ehrpwm1", 0, "48302000", "48302200", "P2_1"⟩,
   ⟨"ehrpwm2", 1, "48304000", "48304200", "P2_3"⟩,
   ⟨"timer7", 0, "", "dmtimer-pwm-7", "P1_20"⟩,
   ⟨"timer6", 0, "", "dmtimer-pwm-6", "P1_26"⟩,
   ⟨"timer5", 0, "", "dmtimer-pwm-5", "P1_28"⟩,
   ⟨"timer7", 0, "", "dmtimer-pwm-7", "P2_27"⟩,
   ⟨"timer4", 0, "", "dmtimer-pwm-4", "P2_31"⟩]

/-- `get_pwm_by_key` of `common.c`; `none` is `BBIO_INVARG`. -/
def getPwmByKey (key : String) : Option PwmT := pwmTable.find? fun p => p.key = key

def isDmtimerPin (p : PwmT) : Bool := p.module.toList.take 5 = "timer".toList

/-- The directory of a channel is that of its chip and its index. -/
structure Channel where
  addr : String
  index : Nat
  deriving DecidableEq, Repr

def PwmT.channel (p : PwmT) : Channel := ⟨p.addr, p.index⟩

/-! ## The state -/

def KEYLEN : Nat := 7

/-- `strncpy` of at most `KEYLEN` bytes. -/
def storedKey (key : String) : String := String.ofList (key.toList.take KEYLEN)

inductive Attribute where
  | period
  | dutyCycle
  | polarity
  | enable
  deriving DecidableEq, Repr

structure PwmExp where
  key : String
  periodFd : Nat
  dutyFd : Nat
  polarityFd : Nat
  enableFd : Nat
  duty : Dbl
  dutyNs : Nat
  periodNs : Nat
  deriving DecidableEq, Repr

/-- What the files of a channel hold. -/
structure Settings where
  period : Nat
  duty : Nat
  inversed : Bool
  enabled : Bool
  deriving DecidableEq, Repr

structure System where
  exportedPwms : Link
  memory : Heap PwmExp
  files : Pool (Channel × Attribute)
  channels : Channel → Settings
  /-- The state files of the pins. -/
  pinModes : String → Option String

def ULONG_MAX : Nat := 4294967295

/-- What is not the driver's own: the conversion of a double to `unsigned long`,
of which only the values in range are known, the two allocators, and which
writes to its files the kernel refuses. -/
structure Board where
  ulong : Dbl → Nat
  ulong_le : ∀ x, ulong x ≤ ULONG_MAX
  ulong_floor : ∀ q : ℚ, 0 ≤ q → q ≤ ULONG_MAX → (ulong (.fin q) : Int) = q.floor
  malloc : Allocator
  descriptor : Allocator
  accepts : Settings → Settings → Bool

/-! ## System calls -/

inductive Written where
  | ns (n : Nat)
  | polarity (inversed : Bool)
  | enable (on : Bool)
  deriving DecidableEq, Repr

/-- The settings once a text is written to a file; a file takes its own texts only. -/
def Settings.put (settings : Settings) : Attribute → Written → Option Settings
  | .period, .ns n => some { settings with period := n }
  | .dutyCycle, .ns n => some { settings with duty := n }
  | .polarity, .polarity inversed => some { settings with inversed := inversed }
  | .enable, .enable on => some { settings with enabled := on }
  | _, _ => none

def System.setChannel (s : System) (channel : Channel) (settings : Settings) : System :=
  { s with channels := Function.update s.channels channel settings }

section Calls
variable (board : Board)

/-- `lseek(fd, 0, SEEK_SET)` and `write`; false is -1. -/
def write (succeeds : Bool) (fd : Nat) (text : Written) (s : System) : Bool × System :=
  match s.files.get? fd with
  | none => (false, s)
  | some (channel, attr) =>
      match (s.channels channel).put attr text with
      | none => (false, s)
      | some after =>
          if succeeds && board.accepts (s.channels channel) after then
            (true, s.setChannel channel after)
          else (false, s)

def writeIf (wanted succeeds : Bool) (fd : Nat) (text : Written) (s : System) : Bool × System :=
  if wanted then write board succeeds fd text s else (true, s)

/-- `read` of the file of a descriptor. -/
def readFile (succeeds : Bool) (fd : Nat) (s : System) : Option (Settings × Attribute) :=
  if succeeds then (s.files.get? fd).map fun file => (s.channels file.1, file.2) else none

/-- The number `sscanf` takes from a file; `none` is a failed `read`, or one that
fills the buffer, which the driver treats alike. -/
def readNs (succeeds : Bool) (fd : Nat) (s : System) : Option Nat :=
  match readFile succeeds fd s with
  | some (settings, .period) => some settings.period
  | some (settings, .dutyCycle) => some settings.duty
  | _ => none

def readEnable (succeeds : Bool) (fd : Nat) (s : System) : Option Bool :=
  match readFile succeeds fd s with
  | some (settings, .enable) => some settings.enabled
  | _ => none

/-- `open(path, O_RDWR)`; `none` is -1. -/
def openFile (succeeds : Bool) (channel : Channel) (attr : Attribute) (s : System) :
    Option Nat × System :=
  if succeeds then
    let fd := board.descriptor.choose s.files.used
    (some fd, { s with files := s.files.add fd (channel, attr) })
  else (none, s)

def close (fd : Nat) (s : System) : System := { s with files := s.files.drop fd }

def malloc (succeeds : Bool) (cell : PwmExp × Link) (s : System) : Link × System :=
  if succeeds then
    let a := board.malloc.choose s.memory.used
    (some a, { s with memory := s.memory.add a cell })
  else (none, s)

def free (a : Nat) (s : System) : System := { s with memory := s.memory.drop a }

/-- An assignment through a pointer. -/
def assign (a : Nat) (f : PwmExp × Link → PwmExp × Link) (s : System) : Option System :=
  (s.memory.get? a).map fun cell => { s with memory := s.memory.set a (f cell) }

/-! ## The list -/

def lookupExportedPwm (key : String) (s : System) : Option Link :=
  Chain.find s.memory (fun pwm => pwm.key = key) s.memory.used.card s.exportedPwms

def exportPwm (newPwm : Nat) (s : System) : Option System :=
  match s.exportedPwms with
  | none => some { s with exportedPwms := some newPwm }
  | some first => do
      let pwm ← Chain.last s.memory s.memory.used.card first
      assign pwm (fun (pwm, _) => (pwm, some newPwm)) s

/-! ## The settings of a channel -/

structure FrequencyOutcome where
  first : Bool
  second : Bool
  deriving DecidableEq, Repr

/-- `(unsigned long)(period_ns * (duty / 100.0))`. -/
def dutyNsOf (periodNs : Nat) (duty : Dbl) : Nat :=
  board.ulong (double.round (.fin periodNs * double.round (duty / 100)))

/-- `(unsigned long)(1e9 / freq)`. -/
def periodNsOf (freq : Dbl) : Nat := board.ulong (double.round (1000000000 / freq))

def notPositive : Dbl → Bool
  | .nan => false
  | freq => !decide ((0 : Dbl) < freq)

def pwmSetFrequency (outcome : FrequencyOutcome) (key : String) (freq : Dbl) (s : System) :
    Option (BbioErr × System) := do
  if notPositive freq then
    return (.invarg, s)
  match ← lookupExportedPwm key s with
  | none => return (.gen, s)
  | some a =>
      let periodNs := periodNsOf board freq
      let (pwm, _) ← s.memory.get? a
      if periodNs < pwm.periodNs then
        let dutyNs := dutyNsOf board periodNs pwm.duty
        let s ← assign a (fun (pwm, next) => ({ pwm with periodNs, dutyNs }, next)) s
        let (written, s) := write board outcome.first pwm.dutyFd (.ns dutyNs) s
        if !written then
          return (.sysfs, s)
        let (written, s) := write board outcome.second pwm.periodFd (.ns periodNs) s
        if !written then
          return (.sysfs, s)
        return (.ok, s)
      else if pwm.periodNs < periodNs then
        let s ← assign a (fun (pwm, next) => ({ pwm with periodNs }, next)) s
        let (written, s) := write board outcome.first pwm.periodFd (.ns periodNs) s
        if !written then
          return (.sysfs, s)
        let dutyNs := dutyNsOf board periodNs pwm.duty
        let s ← assign a (fun (pwm, next) => ({ pwm with dutyNs }, next)) s
        let (written, s) := write board outcome.second pwm.dutyFd (.ns dutyNs) s
        if !written then
          return (.sysfs, s)
        return (.ok, s)
      else
        return (.ok, s)

def pwmSetDutyCycle (succeeds : Bool) (key : String) (duty : Dbl) (s : System) :
    Option (BbioErr × System) := do
  if duty < 0 ∨ 100 < duty then
    return (.invarg, s)
  match ← lookupExportedPwm key s with
  | none => return (.gen, s)
  | some a =>
      let (pwm, _) ← s.memory.get? a
      let dutyNs := dutyNsOf board pwm.periodNs duty
      let s ← assign a (fun (pwm, next) => ({ pwm with duty, dutyNs }, next)) s
      let (written, s) := write board succeeds pwm.dutyFd (.ns dutyNs) s
      if !written then
        return (.sysfs, s)
      return (.ok, s)

/-- `enabled` is what the variable of that name holds before it is set. -/
structure PolarityOutcome where
  read : Bool
  enabled : Bool
  disable : Bool
  polarity : Bool
  restore : Bool
  deriving DecidableEq, Repr

def pwmSetPolarity (outcome : PolarityOutcome) (key : String) (polarity : Int) (s : System) :
    Option (BbioErr × System) := do
  match ← lookupExportedPwm key s with
  | none => return (.gen, s)
  | some a =>
      let (pwm, _) ← s.memory.get? a
      match readEnable outcome.read pwm.enableFd s with
      | none => return (.sysfs, s)
      | some on =>
          let enabled := on || outcome.enabled
          let (written, s) := writeIf board on outcome.disable pwm.enableFd (.enable false) s
          if !written then
            return (.sysfs, s)
          if polarity ≠ 0 ∧ polarity ≠ 1 then
            return (.invarg, s)
          let (written, s) :=
            write board outcome.polarity pwm.polarityFd (.polarity (polarity = 1)) s
          if !written then
            return (.sysfs, s)
          let (written, s) := writeIf board enabled outcome.restore pwm.enableFd (.enable true) s
          if !written then
            return (.sysfs, s)
          return (.ok, s)

/-! ## Setting up a channel -/

inductive Stat where
  | directory
  | file
  | missing
  | failed
  deriving DecidableEq, Repr

inductive Glob where
  | matched
  | noSpace
  | noMatch
  deriving DecidableEq, Repr

/-- `build_path` of `common.c`. -/
def buildPath : Glob → BbioErr
  | .matched => .ok
  | .noSpace => .mem
  | .noMatch => .gen

/-- What `uboot_overlay_enabled`, `beaglebone_blue`, `pocketbeagle` and
`device_tree_loaded` return. -/
structure Overlays where
  uboot : Int
  blue : Int
  pocket : Int
  loaded : String → Int

def universalCapes : List String :=
  ["cape-univ-audio", "cape-univ-emmc", "cape-univ-hdmi", "cape-universal", "cape-universala",
   "cape-universaln", "univ-all", "univ-bbgw", "univ-emmc", "univ-hdmi", "univ-nhdmi"]

/-- A negative result of `device_tree_loaded`, an error, counts as loaded. -/
def Overlays.suitable (overlays : Overlays) : Bool :=
  overlays.uboot ≠ 0 || overlays.blue ≠ 0 || overlays.pocket ≠ 0 ||
    universalCapes.any fun name => overlays.loaded name ≠ 0

structure SetupOutcome where
  overlays : Overlays
  openState : Bool
  devPath : Glob
  addrPath : Glob
  chipPath : Glob
  statPwm : Stat
  openExport : Bool
  statAgain : Stat
  statUdev : Stat
  statEcap : Stat
  openPeriod : Bool
  openDuty : Bool
  openPolarity : Bool
  openEnable : Bool
  malloc : Bool
  /-- `duty`, `duty_ns` and `period_ns` of a new block. -/
  garbage : Dbl × Nat × Nat

/-- `set_pin_mode` of `c_pinmux.c`; its result is not looked at. -/
def setPinMode (outcome : SetupOutcome) (key mode : String) (s : System) : System :=
  if key.toList.take 3 = "USR".toList then s
  else
    let pin :=
      if key.length = 4 then key.toList.take 3 ++ '0' :: key.toList.drop 3
      else key.toList.take 5
    if outcome.overlays.blue ≠ 0 ∨ ¬outcome.openState then s
    else { s with pinModes := Function.update s.pinModes (String.ofList pin) (some mode) }

/-- The directory of the channel, in one of its three spellings. -/
inductive PwmPath where
  | pwm
  | udev
  | ecap
  deriving DecidableEq, Repr

def exportIfNeeded (outcome : SetupOutcome) : BbioErr :=
  match outcome.statPwm with
  | .missing => if outcome.openExport then .ok else .access
  | .failed => .gen
  | .directory => .ok
  | .file => .gen

def findPwmPath (outcome : SetupOutcome) : Except BbioErr PwmPath :=
  match outcome.statAgain with
  | .missing =>
      match outcome.statUdev with
      | .missing =>
          match outcome.statEcap with
          | .missing => .error .gen
          -- any other error of `stat` leaves the path as it is
          | .failed => .ok .pwm
          | _ => .ok .ecap
      | .failed => .ok .pwm
      | _ => .ok .udev
  | _ => .ok .pwm

/-- The steps of `pwm_setup` before it opens a file. -/
def locate (outcome : SetupOutcome) (p : PwmT) : BbioErr :=
  if !isDmtimerPin p ∧ buildPath outcome.devPath ≠ .ok then buildPath outcome.devPath
  else if buildPath outcome.addrPath ≠ .ok then buildPath outcome.addrPath
  else if buildPath outcome.chipPath ≠ .ok then buildPath outcome.chipPath
  else if exportIfNeeded outcome ≠ .ok then exportIfNeeded outcome
  else
    match findPwmPath outcome with
    | .error err => err
    | .ok _ => .ok

/-- The rest of `pwm_setup`. -/
def openChannel (outcome : SetupOutcome) (key : String) (channel : Channel) (s : System) :
    Option (BbioErr × System) := do
  match openFile board outcome.openPeriod channel .period s with
  | (none, s) => return (.sysfs, s)
  | (some periodFd, s) =>
  match openFile board outcome.openDuty channel .dutyCycle s with
  | (none, s) => return (.sysfs, close periodFd s)
  | (some dutyFd, s) =>
  match openFile board outcome.openPolarity channel .polarity s with
  | (none, s) => return (.sysfs, close dutyFd (close periodFd s))
  | (some polarityFd, s) =>
  match openFile board outcome.openEnable channel .enable s with
  | (none, s) => return (.sysfs, close polarityFd (close dutyFd (close periodFd s)))
  | (some enableFd, s) =>
  let (duty, dutyNs, periodNs) := outcome.garbage
  let newPwm : PwmExp :=
    ⟨storedKey key, periodFd, dutyFd, polarityFd, enableFd, duty, dutyNs, periodNs⟩
  match malloc board outcome.malloc (newPwm, none) s with
  | (none, s) => return (.mem, close enableFd (close polarityFd (close dutyFd (close periodFd s))))
  | (some a, s) =>
      let s ← exportPwm a s
      return (.ok, s)

def pwmSetup (outcome : SetupOutcome) (key : String) (s : System) : Option (BbioErr × System) :=
  if !outcome.overlays.suitable then some (.cape, s)
  else
    let s := setPinMode outcome key (if key = "P9_28" then "pwm2" else "pwm") s
    match getPwmByKey key with
    | none => some (.invarg, s)
    | some p =>
        if locate outcome p ≠ .ok then some (locate outcome p, s)
        else openChannel board outcome key p.channel s

structure StartOutcome where
  setup : SetupOutcome
  readPeriod : Bool
  readDuty : Bool
  frequency : FrequencyOutcome
  dutyCycle : Bool
  polarity : PolarityOutcome
  enable : Bool

/-- The part of `pwm_start` that works on an exported channel. -/
def startExported (outcome : StartOutcome) (key : String) (duty freq : Dbl) (polarity : Int)
    (a : Nat) (s : System) : Option (BbioErr × System) := do
  let (pwm, _) ← s.memory.get? a
  match readNs outcome.readPeriod pwm.periodFd s with
  | none => return (.sysfs, s)
  | some periodNs =>
  let s ← assign a (fun (pwm, next) => ({ pwm with periodNs }, next)) s
  match readNs outcome.readDuty pwm.dutyFd s with
  | none => return (.sysfs, s)
  | some dutyNs =>
  let s ← assign a (fun (pwm, next) => ({ pwm with duty, dutyNs }, next)) s
  let (err, s) ← pwmSetFrequency board outcome.frequency key freq s
  if err ≠ .ok then
    return (err, s)
  let (err, s) ← pwmSetDutyCycle board outcome.dutyCycle key duty s
  if err ≠ .ok then
    return (err, s)
  let (err, s) ← pwmSetPolarity board outcome.polarity key polarity s
  if err ≠ .ok then
    return (err, s)
  let (written, s) := write board outcome.enable pwm.enableFd (.enable true) s
  if !written then
    return (.sysfs, s)
  return (.ok, s)

def pwmStart (outcome : StartOutcome) (key : String) (duty freq : Dbl) (polarity : Int)
    (s : System) : Option (BbioErr × System) := do
  match ← lookupExportedPwm key s with
  | some a => startExported board outcome key duty freq polarity a s
  | none =>
      let (err, s) ← pwmSetup board outcome.setup key s
      if err ≠ .ok then
        return (err, s)
      match ← lookupExportedPwm key s with
      | none => return (.gen, s)
      | some a => startExported board outcome key duty freq polarity a s

/-! ## Giving a channel up -/

/-- A `const char *` into a string of the caller, or into the key of a cell. -/
inductive KeyPointer where
  | text (key : String)
  | cell (a : Nat)
  deriving DecidableEq, Repr

def KeyPointer.read (s : System) : KeyPointer → Option String
  | .text key => some key
  | .cell a => (s.memory.get? a).map fun cell => cell.1.key

/-- The loop of `pwm_disable`; `writes` tells whether a cell's channel can be disabled. -/
def disableFrom (writes : Nat → Bool) (key : KeyPointer) :
    Nat → Link → Link → System → Option (BbioErr × System)
  | _, _, none, s => some (.ok, s)
  | 0, _, some _, _ => none
  | fuel + 1, prev, some a, s => do
      let (pwm, next) ← s.memory.get? a
      if pwm.key = (← key.read s) then
        let (written, s) := write board (writes a) pwm.enableFd (.enable false) s
        if !written then
          return (.sysfs, s)
        let s := close pwm.polarityFd (close pwm.dutyFd (close pwm.periodFd (close pwm.enableFd s)))
        match prev with
        | none => disableFrom writes key fuel (some a) next (free a { s with exportedPwms := next })
        | some b =>
            let s ← assign b (fun (before, _) => (before, next)) s
            disableFrom writes key fuel prev next (free a s)
      else disableFrom writes key fuel (some a) next s

def pwmDisable (writes : Nat → Bool) (key : KeyPointer) (s : System) :
    Option (BbioErr × System) :=
  disableFrom board writes key s.memory.used.card none s.exportedPwms s

/-- `pwm_cleanup`, on the outcomes of its rounds: whether it has returned by then. -/
def pwmCleanup : List (Nat → Bool) → System → Option (Bool × System)
  | rounds, s =>
      match s.exportedPwms, rounds with
      | none, _ => some (true, s)
      | some _, [] => some (false, s)
      | some a, writes :: rest => do
          let (_, s) ← pwmDisable board writes (.cell a) s
          pwmCleanup rest s

end Calls

end ProjectOwl.Beagle.Pwm
