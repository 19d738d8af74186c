import ProjectOwl.Beagle.Servo
import ProjectOwl.Lib.Remainder

/-! # The angle of a servo

`servo_position` and `servo_zero` of `beagle/servo.c` on the samples a PRU takes.
The angle is turned up by at most one turn and then capped at a full one, when it
is read and when the zero is taken. -/

set_option autoImplicit false

namespace ProjectOwl.Beagle

open Remainder

def DCMIN : ℚ := 3
def DCMAX : ℚ := 95.7

/-- The words `pru_dram[0]` and `pru_dram[1]`. -/
structure PruSample where
  highTime : ℕ
  totalTime : ℕ
  deriving DecidableEq, Repr

/-- The angle of the duty cycle. -/
def PruSample.raw (sample : PruSample) : ℚ :=
  let dutyCycle : ℚ := sample.highTime / sample.totalTime * 100
  (dutyCycle - DCMIN) * 360 / (DCMAX - DCMIN + 1)

def Servo.servoPosition (servo : Servo) (sample : PruSample) : ℚ :=
  if sample.totalTime = 0 then 0
  else
    let angle := sample.raw - servo.zero
    let angle := if angle < 0 then 360 + angle else angle
    if 360 < angle then 360 else angle

def Servo.servoZero (servo : Servo) (sample : PruSample) : Servo :=
  let servo := { servo with zero := 0 }
  { servo with zero := servo.servoPosition sample }

/-- The variable of a servo before `init_servo`: static storage, but for the pin and
the PRU, which `main` sets. -/
def Servo.static (ctrlPin : String) (prunum : Int) : Servo := ⟨.null, none, ctrlPin, prunum, 0⟩

/-- A period was measured, and the signal was high for a part of it. -/
def PruSample.Measured (sample : PruSample) : Prop :=
  0 < sample.totalTime ∧ sample.highTime ≤ sample.totalTime

instance (sample : PruSample) : Decidable sample.Measured := inferInstanceAs (Decidable (_ ∧ _))

section Raw
variable {sample : PruSample}

theorem raw_eq (sample : PruSample) :
    sample.raw = (100 * sample.highTime / sample.totalTime - 3) * 360 / (95.7 - 3 + 1) := by
  unfold PruSample.raw DCMIN DCMAX
  dsimp only
  ring

/-- The duty cycle lies between none and full. -/
theorem raw_bounds (measured : sample.Measured) : -12 < sample.raw ∧ sample.raw < 373 := by
  obtain ⟨positive, within⟩ := measured
  have total : (0 : ℚ) < sample.totalTime := by exact_mod_cast positive
  have part : (sample.highTime : ℚ) ≤ sample.totalTime := by exact_mod_cast within
  have low : (0 : ℚ) ≤ sample.highTime / sample.totalTime := by positivity
  have high : (sample.highTime : ℚ) / sample.totalTime ≤ 1 := (div_le_one total).mpr part
  rw [raw_eq, mul_div_assoc 100]
  constructor
  · rw [lt_div_iff₀ (by norm_num)]
    linarith
  · rw [div_lt_iff₀ (by norm_num)]
    linarith

end Raw

/-! ## What a reading is -/

section Position
variable {servo : Servo} {sample first : PruSample}

theorem servoPosition_below (servo : Servo) (taken : 0 < sample.totalTime)
    (low : sample.raw < servo.zero) :
    servo.servoPosition sample = sample.raw - servo.zero + 360 := by
  have negative : sample.raw - servo.zero < 0 := by linarith
  unfold Servo.servoPosition
  rw [if_neg taken.ne']
  dsimp only
  rw [if_pos negative, if_neg (by linarith), add_comm]

theorem servoPosition_within (servo : Servo) (taken : 0 < sample.totalTime)
    (low : servo.zero ≤ sample.raw) (high : sample.raw - servo.zero ≤ 360) :
    servo.servoPosition sample = sample.raw - servo.zero := by
  have nonneg : ¬sample.raw - servo.zero < 0 := by linarith
  unfold Servo.servoPosition
  rw [if_neg taken.ne']
  dsimp only
  rw [if_neg nonneg, if_neg (by linarith)]

theorem servoPosition_capped (servo : Servo) (taken : 0 < sample.totalTime)
    (high : 360 < sample.raw - servo.zero) : servo.servoPosition sample = 360 := by
  have nonneg : ¬sample.raw - servo.zero < 0 := by linarith
  unfold Servo.servoPosition
  rw [if_neg taken.ne']
  dsimp only
  rw [if_neg nonneg, if_pos high]

/-- Unless it is capped, a reading is the raw angle less the zero. -/
theorem servoPosition_modEq (servo : Servo) (taken : 0 < sample.totalTime)
    (uncapped : sample.raw - servo.zero ≤ 360) :
    servo.servoPosition sample ≡ sample.raw - servo.zero [PMOD 360] := by
  rcases lt_or_ge sample.raw servo.zero with low | high
  · rw [servoPosition_below servo taken low]
    simp
  · rw [servoPosition_within servo taken high uncapped]

theorem servoZero_zero (servo : Servo) (first : PruSample) :
    (servo.servoZero first).zero = { servo with zero := 0 }.servoPosition first := rfl

/-- Zeroing under the range, where the angle is turned up. -/
theorem servoZero_below (servo : Servo) (measured : first.Measured) (low : first.raw < 0) :
    (servo.servoZero first).zero = first.raw + 360 := by
  have read := servoPosition_below { servo with zero := 0 } measured.1 low
  rw [servoZero_zero, read]
  ring

theorem servoZero_within (servo : Servo) (measured : first.Measured) (low : 0 ≤ first.raw)
    (high : first.raw ≤ 360) : (servo.servoZero first).zero = first.raw := by
  have read := servoPosition_within { servo with zero := 0 } measured.1 low
    (by linarith)
  rw [servoZero_zero, read]
  ring

/-- Zeroing over the range, where it is capped. -/
theorem servoZero_capped (servo : Servo) (measured : first.Measured) (high : 360 < first.raw) :
    (servo.servoZero first).zero = 360 := by
  rw [servoZero_zero]
  exact servoPosition_capped _ measured.1 (by simpa using high)

theorem shift_iff (servo : Servo) (measuredFirst : first.Measured) (measured : sample.Measured) :
    (servo.servoZero first).servoPosition sample ≡ sample.raw - first.raw [PMOD 360] ↔
      first.raw ≤ 360 ∧ (first.raw < 0 ∨ sample.raw - first.raw ≤ 360) := by
  obtain ⟨lowFirst, highFirst⟩ := raw_bounds measuredFirst
  obtain ⟨low, high⟩ := raw_bounds measured
  rcases lt_or_ge first.raw 0 with below | nonneg
  · refine iff_of_true ?_ ⟨by linarith, Or.inl below⟩
    have zero := servoZero_below servo measuredFirst below
    have read := servoPosition_modEq (servo.servoZero first) measured.1 (by rw [zero]; linarith)
    rw [zero, ← sub_sub] at read
    refine read.trans ?_
    simpa using sub_mul_modEq (K := ℚ) (x := sample.raw - first.raw) (y := 360) 1
  · rcases le_or_gt first.raw 360 with within | above
    · have zero := servoZero_within servo measuredFirst nonneg within
      rcases le_or_gt (sample.raw - first.raw) 360 with uncapped | capped
      · refine iff_of_true ?_ ⟨within, Or.inr uncapped⟩
        have read := servoPosition_modEq (servo.servoZero first) measured.1
          (by rw [zero]; exact uncapped)
        rwa [zero] at read
      · refine iff_of_false ?_ ?_
        · rw [servoPosition_capped _ measured.1 (by rw [zero]; exact capped)]
          intro congruent
          exact not_modEq_of_lt (by linarith) (by linarith) congruent.symm
        · rintro ⟨-, negative | uncapped⟩
          · linarith
          · linarith
    · have zero := servoZero_capped servo measuredFirst above
      refine iff_of_false ?_ (fun uncapped => absurd uncapped.1 (not_le.mpr above))
      have read := servoPosition_modEq (servo.servoZero first) measured.1 (by rw [zero]; linarith)
      rw [zero] at read
      intro congruent
      exact not_modEq_of_lt (by linarith) (by linarith) (read.symm.trans congruent)

/-- After zeroing on one sample another reads as the difference of their raw angles
exactly when the cap was met neither in taking the zero nor in reading. -/
theorem servoZero_shift_iff (servo : Servo) (first sample : PruSample)
    (measuredFirst : first.Measured) (measured : sample.Measured) :
    ((servo.servoZero first).servoPosition sample ≡ sample.raw - first.raw [PMOD 360] ↔
        first.raw ≤ 360 ∧ (first.raw < 0 ∨ sample.raw - first.raw ≤ 360)) ∧
      ((servo.servoZero first).servoPosition first ≡ 0 [PMOD 360] ↔ first.raw ≤ 360) := by
  refine ⟨shift_iff servo measuredFirst measured, ?_⟩
  have again := shift_iff servo measuredFirst measuredFirst
  rw [sub_self] at again
  rw [again]
  exact and_iff_left (Or.inr (by norm_num))

theorem servoZero_shift_iff_tenth :
    ((Servo.static "P9_16" 0).servoZero ⟨50, 100⟩).servoPosition ⟨60, 100⟩ ≡
        PruSample.raw ⟨60, 100⟩ - PruSample.raw ⟨50, 100⟩ [PMOD 360] ∧
      ((Servo.static "P9_16" 0).servoZero ⟨50, 100⟩).servoPosition ⟨50, 100⟩ ≡ 0 [PMOD 360] := by
  have shift := servoZero_shift_iff (Servo.static "P9_16" 0) ⟨50, 100⟩ ⟨60, 100⟩ (by decide)
    (by decide)
  refine ⟨shift.1.mpr ⟨by decide +kernel, Or.inr (by decide +kernel)⟩, ?_⟩
  exact shift.2.mpr (by decide +kernel)

/-- The zero is taken at full duty, and capped: the same sample reads as 12.7 degrees. -/
theorem servoZero_capped_full :
    ((Servo.static "P9_16" 0).servoZero ⟨1, 1⟩).servoPosition ⟨1, 1⟩ = 11880 / 937 ∧
      ¬((Servo.static "P9_16" 0).servoZero ⟨1, 1⟩).servoPosition ⟨1, 1⟩ ≡ 0 [PMOD 360] := by
  have read : ((Servo.static "P9_16" 0).servoZero ⟨1, 1⟩).servoPosition ⟨1, 1⟩ = 11880 / 937 := by
    decide +kernel
  refine ⟨read, ?_⟩
  rw [read]
  exact not_modEq_of_lt (by norm_num) (by norm_num)

/-! ## The range of a reading -/

/-- A reading is turned up once: it stays below zero when it lies more than a turn
under the stored zero. -/
theorem servoPosition_range_iff (servo : Servo) (sample : PruSample) :
    (0 ≤ servo.servoPosition sample ∧ servo.servoPosition sample ≤ 360) ↔
      sample.totalTime = 0 ∨ servo.zero - 360 ≤ sample.raw := by
  rcases Nat.eq_zero_or_pos sample.totalTime with none | taken
  · refine iff_of_true ?_ (Or.inl none)
    rw [Servo.servoPosition, if_pos none]
    norm_num
  · rw [or_iff_right taken.ne']
    rcases lt_or_ge sample.raw servo.zero with low | high
    · rw [servoPosition_below servo taken low]
      constructor
      · rintro ⟨nonneg, -⟩
        linarith
      · intro near
        exact ⟨by linarith, by linarith⟩
    · refine iff_of_true ?_ (by linarith)
      rcases le_or_gt (sample.raw - servo.zero) 360 with uncapped | capped
      · rw [servoPosition_within servo taken high uncapped]
        exact ⟨by linarith, uncapped⟩
      · rw [servoPosition_capped servo taken capped]
        norm_num

/-- The stored zero is in range itself. -/
theorem servoZero_range (servo : Servo) (within : first.highTime ≤ first.totalTime) :
    0 ≤ (servo.servoZero first).zero ∧ (servo.servoZero first).zero ≤ 360 := by
  rw [servoZero_zero, servoPosition_range_iff]
  rcases Nat.eq_zero_or_pos first.totalTime with none | taken
  · exact Or.inl none
  · have low := (raw_bounds ⟨taken, within⟩).1
    right
    dsimp only
    linarith

end Position

/-- The servo after `init_servo` and a zeroing on each of the samples. -/
def Servo.zeroedOn (outcome : InitOutcome) (k : Kernel) (earlier : List PruSample)
    (servo : Servo) : Servo :=
  earlier.foldl Servo.servoZero (initServo outcome servo k).2.1

section Reachable
variable (outcome : InitOutcome) (k : Kernel) (servo : Servo)

theorem initServo_zero : (initServo outcome servo k).2.1.zero = servo.zero := by
  unfold initServo
  split
  · rfl
  · split
    · rfl
    · split
      · rfl
      · rfl

/-- In every state reached the stored zero is in range. -/
theorem zeroedOn_range {earlier : List PruSample} (ctrlPin : String) (prunum : Int)
    (within : ∀ first ∈ earlier, first.highTime ≤ first.totalTime) :
    0 ≤ ((Servo.static ctrlPin prunum).zeroedOn outcome k earlier).zero ∧
      ((Servo.static ctrlPin prunum).zeroedOn outcome k earlier).zero ≤ 360 := by
  induction earlier using List.reverseRecOn with
  | nil =>
      rw [Servo.zeroedOn, List.foldl_nil, initServo_zero]
      exact ⟨le_rfl, show (0 : ℚ) ≤ 360 by norm_num⟩
  | append_singleton earlier first _ =>
      rw [Servo.zeroedOn, List.foldl_append]
      exact servoZero_range _ (within first (by simp))

/-- In every state reached a reading is in range exactly when nothing was measured or
the raw angle is at most a turn under the stored zero. -/
theorem servo_position_range_iff (ctrlPin : String) (prunum : Int) (earlier : List PruSample)
    (sample : PruSample) :
    let servo := (Servo.static ctrlPin prunum).zeroedOn outcome k earlier
    (0 ≤ servo.servoPosition sample ∧ servo.servoPosition sample ≤ 360) ↔
      sample.totalTime = 0 ∨ servo.zero - 360 ≤ sample.raw :=
  servoPosition_range_iff _ sample

/-- A duty cycle of `DCMIN` at least reads in range. -/
theorem servo_position_range_of_duty {ctrlPin : String} {prunum : Int} {earlier : List PruSample}
    {sample : PruSample} (within : ∀ first ∈ earlier, first.highTime ≤ first.totalTime)
    (duty : 0 ≤ sample.raw) :
    let servo := (Servo.static ctrlPin prunum).zeroedOn outcome k earlier
    0 ≤ servo.servoPosition sample ∧ servo.servoPosition sample ≤ 360 := by
  have small := (zeroedOn_range outcome k ctrlPin prunum within).2
  exact (servoPosition_range_iff _ sample).mpr (Or.inr (by linarith))

end Reachable

/-- The zero is taken at full duty and the next sample at none. -/
theorem servo_position_below_zero :
    ((Servo.static "P9_16" 0).zeroedOn ⟨true, true, true⟩ .idle [⟨1, 1⟩]).servoPosition ⟨0, 1⟩ =
        -10800 / 937 ∧
      ¬0 ≤ ((Servo.static "P9_16" 0).zeroedOn ⟨true, true, true⟩ .idle [⟨1, 1⟩]).servoPosition
        ⟨0, 1⟩ := by
  have read : ((Servo.static "P9_16" 0).zeroedOn ⟨true, true, true⟩ .idle [⟨1, 1⟩]).servoPosition
      ⟨0, 1⟩ = -10800 / 937 := by
    decide +kernel
  refine ⟨read, ?_⟩
  rw [read]
  norm_num

end ProjectOwl.Beagle
