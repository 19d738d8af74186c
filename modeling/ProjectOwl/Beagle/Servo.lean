import Mathlib.Data.Finset.Basic
import Mathlib.Data.Rat.Defs
import ProjectOwl.Lib.Machine

/-! # The resources of a servo

`init_servo` and `servo_cleanup` of `beagle/servo.c` over a ledger of what the
process holds: descriptors of `/dev/mem`, mappings, and PWM channels that run.
Each system call either does all of its work or fails and does none. -/

set_option autoImplicit false

namespace ProjectOwl.Beagle

def PRU_ADDR : Nat := 0x4A300000
def PRU_LEN : Nat := 0x80000
def PRU0_DRAM : Nat := 0x00000
def PRU1_DRAM : Nat := 0x02000

structure Mapping where
  base : Nat
  len : Nat
  physical : Nat
  deriving DecidableEq, Repr

structure Holdings where
  descriptors : Finset Nat
  mappings : Finset Mapping
  pwms : Finset String
  deriving DecidableEq

/-- `next` names the next descriptor or mapping; no name is used twice. -/
structure Kernel where
  held : Holdings
  next : Nat

def Kernel.idle : Kernel := ⟨⟨∅, ∅, ∅⟩, 0⟩

inductive Pointer where
  | null
  | mapFailed
  | mapped (base : Nat)
  deriving DecidableEq, Repr

structure Servo where
  pru : Pointer
  /-- The mapping and the offset in it, counted in words of 32 bits. -/
  pruDram : Option (Nat × Nat)
  ctrlPin : String
  prunum : Int
  zero : ℚ
  deriving DecidableEq

/-! ## System calls -/

structure PwmSettings where
  duty : ℚ
  freq : ℚ
  polarity : Nat

/-- The settings do not matter to the ledger. -/
def pwmStart (succeeds : Bool) (pin : String) (_settings : PwmSettings) (k : Kernel) :
    Bool × Kernel :=
  if succeeds then
    (true, { k with held := { k.held with pwms := insert pin k.held.pwms } })
  else (false, k)

def pwmDisable (succeeds : Bool) (pin : String) (k : Kernel) : Bool × Kernel :=
  if succeeds then
    (true, { k with held := { k.held with pwms := k.held.pwms.erase pin } })
  else (false, k)

/-- `open("/dev/mem", O_RDWR | O_SYNC)`; `none` is -1. -/
def openDevMem (succeeds : Bool) (k : Kernel) : Option Nat × Kernel :=
  if succeeds then
    (some k.next,
      ⟨{ k.held with descriptors := insert k.next k.held.descriptors }, k.next + 1⟩)
  else (none, k)

def close (fd : Nat) (k : Kernel) : Kernel :=
  { k with held := { k.held with descriptors := k.held.descriptors.erase fd } }

/-- A mapping of `len` bytes of the open device from `physical` on. -/
def mmap (succeeds : Bool) (len fd physical : Nat) (k : Kernel) : Pointer × Kernel :=
  if succeeds ∧ fd ∈ k.held.descriptors then
    (.mapped k.next,
      ⟨{ k.held with mappings := insert ⟨k.next, len, physical⟩ k.held.mappings }, k.next + 1⟩)
  else (.mapFailed, k)

def munmap (succeeds : Bool) (pru : Pointer) (len : Nat) (k : Kernel) : Bool × Kernel :=
  match succeeds, pru with
  | true, .mapped base =>
      (true, { k with held := { k.held with
        mappings := k.held.mappings.filter fun m => ¬(m.base = base ∧ m.len = len) } })
  | _, _ => (false, k)

/-! ## The two calls of the driver -/

structure InitOutcome where
  pwmStart : Bool
  openMem : Bool
  mmap : Bool
  deriving DecidableEq, Repr

structure CleanupOutcome where
  pwmDisable : Bool
  munmap : Bool
  deriving DecidableEq, Repr

/-- The word offset of a PRU's samples in the mapping. -/
def dramOffset (prunum : Int) : Nat :=
  ((if prunum ≠ 0 then PRU1_DRAM else PRU0_DRAM) + 0x200) / 4

def initServo (outcome : InitOutcome) (servo : Servo) (k : Kernel) : Int × Servo × Kernel :=
  match pwmStart outcome.pwmStart servo.ctrlPin ⟨7.5, 50, 0⟩ k with
  | (false, k) => (1, servo, k)
  | (true, k) =>
      match openDevMem outcome.openMem k with
      | (none, k) => (1, servo, k)
      | (some fd, k) =>
          match mmap outcome.mmap PRU_LEN fd PRU_ADDR k with
          | (.mapped base, k) =>
              let servo := { servo with
                pru := .mapped base
                pruDram := some (base, dramOffset servo.prunum) }
              (0, servo, close fd k)
          -- `fd` stays open on this path
          | (pru, k) => (1, { servo with pru := pru }, k)

def servoCleanup (outcome : CleanupOutcome) (servo : Servo) (k : Kernel) : Int × Kernel :=
  match pwmDisable outcome.pwmDisable servo.ctrlPin k with
  | (false, k) => (1, k)
  | (true, k) =>
      match munmap outcome.munmap servo.pru PRU_LEN k with
      | (false, k) => (1, k)
      | (true, k) => (0, k)

end ProjectOwl.Beagle
