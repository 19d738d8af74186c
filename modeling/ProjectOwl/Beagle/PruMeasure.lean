import ProjectOwl.Lib.Machine
import ProjectOwl.Lib.Wave
import ProjectOwl.Beagle.ServoAngle
import Mathlib.Tactic.FieldSimp

/-! # Measuring the angle signal

`beagle/pru/swivel.pru0.c` and `beagle/pru/rotate.pru1.c`: a loop on a PRU that times
the high part and the whole of each pulse with the cycle counter and leaves both in
its memory, where `servo_position` loads them one after the other.  A run is given by
the cycles that pass up to each statement, in the measuring and between the two
loads; the counter is a parameter, of which the counts up to its limit are known. -/

set_option autoImplicit false

namespace ProjectOwl.Beagle

/-! ## The program -/

/-- The statements of the loop. -/
inductive PruStatement where
  | clearCycle
  | whileHigh
  | storeHigh
  | whileLow
  | storeTotal
  deriving DecidableEq, Repr

/-- `cleared` is when the counter was last cleared. -/
structure Pru where
  next : PruStatement
  now : ℕ
  cleared : ℕ
  dram : PruSample
  deriving DecidableEq, Repr

def P8_15 : UInt32 := (1 : UInt32) <<< 15
def P8_27 : UInt32 := (1 : UInt32) <<< 8

section Program
variable (cycle : ℕ → ℕ) (pin : UInt32) (r31 : ℕ → UInt32)

/-- `__R31 & pin` -/
def pinHigh (time : ℕ) : Bool := r31 time &&& pin ≠ 0

/-- The next statement, `delay` cycles after the last one. -/
def Pru.step (pru : Pru) (delay : ℕ) : Pru :=
  let now := pru.now + delay
  match pru.next with
  | .clearCycle => { pru with next := .whileHigh, now, cleared := now }
  | .whileHigh => { pru with next := if pinHigh pin r31 now then .whileHigh else .storeHigh, now }
  | .storeHigh =>
      { pru with next := .whileLow, now, dram := { pru.dram with highTime := cycle (now - pru.cleared) } }
  | .whileLow => { pru with next := if pinHigh pin r31 now then .storeTotal else .whileLow, now }
  | .storeTotal =>
      { pru with next := .clearCycle, now, dram := { pru.dram with totalTime := cycle (now - pru.cleared) } }

end Program

/-- `main` of `swivel.pru0.c`. -/
def swivelPru0 (cycle : ℕ → ℕ) (r31 : ℕ → UInt32) : Pru → ℕ → Pru := Pru.step cycle P8_15 r31

/-- `main` of `rotate.pru1.c`. -/
def rotatePru1 (cycle : ℕ → ℕ) (r31 : ℕ → UInt32) : Pru → ℕ → Pru := Pru.step cycle P8_27 r31

def Pru.boot (time : ℕ) (dram : PruSample) : Pru := ⟨.clearCycle, time, 0, dram⟩

/-- How many periods a run measures to their end. -/
def periods (step : Pru → ℕ → Pru) : Pru → List ℕ → ℕ
  | _, [] => 0
  | pru, delay :: rest =>
      (if pru.next = .storeTotal then 1 else 0) + periods step (step pru delay) rest

/-- `servo_position` loads the high time, and the total time after the PRU has made
some more steps. -/
def torn (first later : Pru) : PruSample := ⟨first.dram.highTime, later.dram.totalTime⟩

/-! ## Samples of a wave -/

def CYCLE_MAX : ℕ := 4294967295

/-- Both parts of every pulse are long for a program that takes `latency` cycles for a
statement at most, and the counter does not reach its limit. -/
structure SlowFor (w : Wave) (latency : ℕ) : Prop where
  high : ∀ i, w.rise i + 4 * latency < w.fall i
  low : ∀ i, w.fall i + 8 * latency ≤ w.rise (i + 1)
  short : ∀ i, w.rise (i + 1) + 3 * latency ≤ w.rise i + CYCLE_MAX

section Near
variable (w : Wave) (latency i : ℕ)

/-- The high time of a pulse, but for the latencies. -/
def NearHigh (time : ℕ) : Prop :=
  time + w.rise i ≤ w.fall i + 4 * latency ∧ w.fall i ≤ time + w.rise i + 4 * latency

/-- The period that begins with a pulse, but for the latencies. -/
def NearTotal (time : ℕ) : Prop :=
  time + w.rise i ≤ w.rise (i + 1) + 4 * latency ∧ w.rise (i + 1) ≤ time + w.rise i + 4 * latency

/-- Where the program is while the wave is in its `i`-th period. -/
def InPeriod (pru : Pru) : Prop :=
  match pru.next with
  | .clearCycle => w.rise i ≤ pru.now ∧ pru.now ≤ w.rise i + 3 * latency
  | .whileHigh => w.rise i ≤ pru.cleared ∧ pru.cleared ≤ w.rise i + 4 * latency ∧
      pru.cleared ≤ pru.now ∧ pru.now < w.fall i
  | .storeHigh => w.rise i ≤ pru.cleared ∧ pru.cleared ≤ w.rise i + 4 * latency ∧
      w.fall i ≤ pru.now ∧ pru.now < w.fall i + latency
  | .whileLow => w.rise i ≤ pru.cleared ∧ pru.cleared ≤ w.rise i + 4 * latency ∧
      w.fall i ≤ pru.now ∧ pru.now < w.rise (i + 1) ∧ NearHigh w latency i pru.dram.highTime
  | .storeTotal => w.rise i ≤ pru.cleared ∧ pru.cleared ≤ w.rise i + 4 * latency ∧
      w.rise (i + 1) ≤ pru.now ∧ pru.now ≤ w.rise (i + 1) + 2 * latency ∧
      NearHigh w latency i pru.dram.highTime

/-- The sample in memory is one of the wave. -/
def Filled (pru : Pru) : Prop :=
  ∃ k j, k ≤ i ∧ i ≤ k + 1 ∧ i = j + 1 ∧ NearHigh w latency k pru.dram.highTime ∧
    NearTotal w latency j pru.dram.totalTime

/-- Before the first period has been measured, at whatever time the program started. -/
def Warming (pru : Pru) : Prop :=
  match pru.next with
  | .clearCycle => True
  | .whileHigh => True
  | .storeHigh => w.level pru.now = false
  | .whileLow => ∃ time, w.level time = false ∧ time ≤ pru.now ∧ pru.now ≤ time + latency
  | .storeTotal => ∃ i, w.rise i ≤ pru.now ∧ pru.now ≤ w.rise i + 2 * latency

end Near

section Steps
variable {cycle : ℕ → ℕ} {pin : UInt32} {r31 : ℕ → UInt32} {w : Wave} {latency i delay : ℕ}
  {pru : Pru}

theorem step_warming (carries : ∀ time, pinHigh pin r31 time = w.level time)
    (warming : Warming w latency pru) (short : delay ≤ latency) (before : pru.next ≠ .storeTotal) :
    Warming w latency (pru.step cycle pin r31 delay) := by
  obtain ⟨next, now, cleared, dram⟩ := pru
  cases next with
  | clearCycle => exact trivial
  | whileHigh =>
      simp only [Pru.step, carries]
      cases isHigh : w.level (now + delay) with
      | true => exact trivial
      | false => exact isHigh
  | storeHigh => exact ⟨now, warming, Nat.le_add_right .., Nat.add_le_add_left short now⟩
  | whileLow =>
      obtain ⟨time, wasLow, before, close⟩ := warming
      simp only [Pru.step, carries]
      cases isHigh : w.level (now + delay) with
      | false => exact ⟨now + delay, isHigh, le_rfl, Nat.le_add_right ..⟩
      | true =>
          have before : time ≤ now := before
          have close : now ≤ time + latency := close
          obtain ⟨i, after, upTo, -⟩ := w.exists_rise wasLow isHigh (by omega)
          exact ⟨i, upTo, by simp only; omega⟩
  | storeTotal => exact absurd rfl before

theorem step_warm (warming : Warming w latency pru) (short : delay ≤ latency)
    (after : pru.next = .storeTotal) :
    ∃ i, InPeriod w latency i (pru.step cycle pin r31 delay) := by
  obtain ⟨next, now, cleared, dram⟩ := pru
  obtain rfl : next = .storeTotal := after
  obtain ⟨i, low, high⟩ := warming
  have low : w.rise i ≤ now := low
  have high : now ≤ w.rise i + 2 * latency := high
  exact ⟨i, by simp only [Pru.step]; omega, by simp only [Pru.step]; omega⟩

variable (slow : SlowFor w latency) (counts : ∀ n, n ≤ CYCLE_MAX → cycle n = n)

include slow counts

theorem step_inPeriod (carries : ∀ time, pinHigh pin r31 time = w.level time)
    (inPeriod : InPeriod w latency i pru) (short : delay ≤ latency)
    (before : pru.next ≠ .storeTotal) :
    InPeriod w latency i (pru.step cycle pin r31 delay) ∧
      (Filled w latency i pru → Filled w latency i (pru.step cycle pin r31 delay)) := by
  have high := slow.high i
  have low := slow.low i
  have fits := slow.short i
  obtain ⟨next, now, cleared, dram⟩ := pru
  cases next with
  | clearCycle =>
      obtain ⟨after, upTo⟩ := inPeriod
      dsimp only at after upTo
      refine ⟨?_, id⟩
      simp only [Pru.step, InPeriod]
      omega
  | whileHigh =>
      obtain ⟨least, most, order, inside⟩ := inPeriod
      dsimp only at least most order inside
      refine ⟨?_, id⟩
      simp only [Pru.step, carries]
      have pulse : w.level (now + delay) = true ↔ now + delay < w.fall i :=
        w.level_iff_pulse (by omega) (by omega)
      cases isHigh : w.level (now + delay) with
      | true =>
          have still := pulse.mp isHigh
          simp only [if_true, InPeriod]
          omega
      | false =>
          have fallen : ¬now + delay < w.fall i := fun still => by
            rw [pulse.mpr still] at isHigh
            cases isHigh
          simp only [Bool.false_eq_true, if_false, InPeriod]
          omega
  | storeHigh =>
      obtain ⟨least, most, after, close⟩ := inPeriod
      dsimp only at least most after close
      have stored : cycle (now + delay - cleared) = now + delay - cleared :=
        counts _ (by omega)
      have near : NearHigh w latency i (now + delay - cleared) := by
        unfold NearHigh
        omega
      constructor
      · simp only [Pru.step, InPeriod, stored]
        exact ⟨least, most, by omega, by omega, near⟩
      · rintro ⟨k, j, -, -, succ, -, total⟩
        refine ⟨i, j, le_rfl, Nat.le_succ i, succ, ?_, total⟩
        simp only [Pru.step, stored]
        exact near
  | whileLow =>
      obtain ⟨least, most, after, upTo, near⟩ := inPeriod
      dsimp only at least most after upTo near
      refine ⟨?_, id⟩
      simp only [Pru.step, carries]
      cases isHigh : w.level (now + delay) with
      | true =>
          have risen : w.rise (i + 1) ≤ now + delay := by
            by_contra notYet
            have isLow : w.level (now + delay) = false := w.level_low (i := i) (by omega) (by omega)
            rw [isLow] at isHigh
            cases isHigh
          simp only [if_true, InPeriod]
          exact ⟨least, most, risen, by omega, near⟩
      | false =>
          have notRisen : now + delay < w.rise (i + 1) := by
            by_contra risen
            have next := slow.high (i + 1)
            have rises : w.level (now + delay) = true :=
              w.level_high (i := i + 1) (by omega) (by omega)
            rw [rises] at isHigh
            cases isHigh
          simp only [Bool.false_eq_true, if_false, InPeriod]
          exact ⟨least, most, by omega, notRisen, near⟩
  | storeTotal => exact absurd rfl before

/-- The end of a period: its sample is complete. -/
theorem step_next (inPeriod : InPeriod w latency i pru) (short : delay ≤ latency)
    (after : pru.next = .storeTotal) :
    InPeriod w latency (i + 1) (pru.step cycle pin r31 delay) ∧
      Filled w latency (i + 1) (pru.step cycle pin r31 delay) := by
  have fits := slow.short i
  obtain ⟨next, now, cleared, dram⟩ := pru
  obtain rfl : next = .storeTotal := after
  obtain ⟨least, most, risen, close, near⟩ := inPeriod
  dsimp only at least most risen close near
  have up := w.rise_lt_rise i
  have stored : cycle (now + delay - cleared) = now + delay - cleared := counts _ (by omega)
  constructor
  · simp only [Pru.step, InPeriod]
    omega
  · refine ⟨i, i, Nat.le_succ i, le_rfl, rfl, near, ?_⟩
    simp only [Pru.step, stored, NearTotal]
    omega

/-! ## Whole runs -/

/-- What is known of the program once `n` periods have been measured to their end. -/
def Measuring (w : Wave) (latency : ℕ) : ℕ → Pru → Prop
  | 0, pru => Warming w latency pru
  | 1, pru => ∃ i, InPeriod w latency i pru
  | _ + 2, pru => ∃ i, InPeriod w latency i pru ∧ Filled w latency i pru

variable (carries : ∀ time, pinHigh pin r31 time = w.level time)

include carries

theorem step_measuring {n : ℕ} (measuring : Measuring w latency n pru) (short : delay ≤ latency) :
    Measuring w latency (n + if pru.next = .storeTotal then 1 else 0)
      (pru.step cycle pin r31 delay) := by
  by_cases ends : pru.next = .storeTotal
  · rw [if_pos ends]
    match n, measuring with
    | 0, warming => exact step_warm warming short ends
    | 1, ⟨i, inPeriod⟩ => exact ⟨i + 1, step_next slow counts inPeriod short ends⟩
    | _ + 2, ⟨i, inPeriod, _⟩ => exact ⟨i + 1, step_next slow counts inPeriod short ends⟩
  · rw [if_neg ends, Nat.add_zero]
    match n, measuring with
    | 0, warming => exact step_warming carries warming short ends
    | 1, ⟨i, inPeriod⟩ => exact ⟨i, (step_inPeriod slow counts carries inPeriod short ends).1⟩
    | _ + 2, ⟨i, inPeriod, filled⟩ =>
        obtain ⟨stays, keeps⟩ := step_inPeriod slow counts carries inPeriod short ends
        exact ⟨i, stays, keeps filled⟩

theorem run_measuring {n : ℕ} (measuring : Measuring w latency n pru) (delays : List ℕ)
    (short : ∀ delay ∈ delays, delay ≤ latency) :
    Measuring w latency (n + periods (Pru.step cycle pin r31) pru delays)
      (Machine.run (Pru.step cycle pin r31) pru delays) := by
  induction delays generalizing pru n with
  | nil => exact measuring
  | cons delay rest ih =>
      obtain ⟨first, others⟩ := List.forall_mem_cons.mp short
      have after := step_measuring slow counts carries measuring first
      have final := ih after others
      rw [Nat.add_assoc] at final
      exact final

/-- From one period on, the program is in that one or in a later one. -/
theorem run_filled (inPeriod : InPeriod w latency i pru) (filled : Filled w latency i pru)
    (delays : List ℕ) (short : ∀ delay ∈ delays, delay ≤ latency) :
    ∃ j, i ≤ j ∧ InPeriod w latency j (Machine.run (Pru.step cycle pin r31) pru delays) ∧
      Filled w latency j (Machine.run (Pru.step cycle pin r31) pru delays) := by
  induction delays generalizing pru i with
  | nil => exact ⟨i, le_rfl, inPeriod, filled⟩
  | cons delay rest ih =>
      obtain ⟨first, others⟩ := List.forall_mem_cons.mp short
      by_cases ends : pru.next = .storeTotal
      · obtain ⟨next, complete⟩ : InPeriod w latency (i + 1) (pru.step cycle pin r31 delay) ∧
            Filled w latency (i + 1) (pru.step cycle pin r31 delay) :=
          step_next slow counts inPeriod first ends
        obtain ⟨j, later, final⟩ := ih next complete others
        exact ⟨j, by omega, final⟩
      · obtain ⟨stays, keeps⟩ := step_inPeriod slow counts carries inPeriod first ends
        exact ih stays (keeps filled) others

omit counts carries in
theorem inPeriod_now (inPeriod : InPeriod w latency i pru) :
    w.rise i ≤ pru.now ∧ pru.now ≤ w.rise (i + 1) + 2 * latency := by
  have high := slow.high i
  have low := slow.low i
  obtain ⟨next, now, cleared, dram⟩ := pru
  cases next
  all_goals
    simp only [InPeriod] at inPeriod
    dsimp only
    omega

/-- The pair that `servo_position` loads, however far the program has come in between:
the high time is of the pulse going on at the first load or of the one before, the
total time of the last period that was over at the second. -/
theorem torn_near (time : ℕ) (dram : PruSample) (before between : List ℕ)
    (shortBefore : ∀ delay ∈ before, delay ≤ latency)
    (shortBetween : ∀ delay ∈ between, delay ≤ latency)
    (measured : 2 ≤ periods (Pru.step cycle pin r31) (Pru.boot time dram) before) :
    let first := Machine.run (Pru.step cycle pin r31) (Pru.boot time dram) before
    let later := Machine.run (Pru.step cycle pin r31) first between
    ∃ i j, i ≤ j + 1 ∧ NearHigh w latency i (torn first later).highTime ∧
      NearTotal w latency j (torn first later).totalTime ∧
      w.rise i ≤ first.now ∧ first.now ≤ w.rise (i + 2) + 2 * latency ∧
      w.rise (j + 1) ≤ later.now ∧ later.now ≤ w.rise (j + 2) + 2 * latency := by
  have start : Measuring w latency 0 (Pru.boot time dram) := trivial
  have here := run_measuring slow counts carries start before shortBefore
  obtain ⟨n, many⟩ := Nat.exists_eq_add_of_le measured
  rw [Nat.zero_add, many, Nat.add_comm 2 n] at here
  obtain ⟨i, inPeriod, filled⟩ := here
  obtain ⟨j, later, inLater, k, l, -, -, rfl, -, total⟩ :=
    run_filled slow counts carries inPeriod filled between shortBetween
  obtain ⟨k, -, most, least, -, high, -⟩ := filled
  obtain ⟨since, until_⟩ := inPeriod_now slow inPeriod
  obtain ⟨sinceLater, untilLater⟩ := inPeriod_now slow inLater
  have first := w.rise_strictMono.monotone most
  have second := w.rise_strictMono.monotone (show i + 1 ≤ k + 2 by omega)
  exact ⟨k, l, by omega, high, total, by omega, by omega, sinceLater, untilLater⟩

end Steps

/-! ## The angle -/

section Angle
variable {w : Wave} {latency period : ℕ}

/-- The sample that an exact measurement of a pulse would give. -/
def pulseSample (w : Wave) (i : ℕ) : PruSample := ⟨w.fall i - w.rise i, w.rise (i + 1) - w.rise i⟩

/-- How far the angle of a sample is from that of the pulse, at most. -/
def angleError (latency period : ℕ) : ℚ := 288000 / 93.7 * latency / (period - 4 * latency)

/-- Quotients of numbers that are close, where the first is a part of the whole. -/
theorem quotient_near {h h' t t' e : ℚ} (near : |h - h'| ≤ e) (nearTotal : |t - t'| ≤ e)
    (part : 0 ≤ h') (whole : h' ≤ t') (positive : e < t') :
    |h / t - h' / t'| ≤ 2 * e / (t' - e) := by
  have least : t' - e ≤ t := by
    have := (abs_le.mp nearTotal).1
    linarith
  have error : 0 ≤ e := (abs_nonneg _).trans near
  have total' : 0 < t' := error.trans_lt positive
  have total : 0 < t := by linarith
  have split : h / t - h' / t' = (h - h') / t + h' / t' * ((t' - t) / t) := by
    field_simp
    ring
  have share : |h' / t'| ≤ 1 := by
    rw [abs_of_nonneg (div_nonneg part total'.le)]
    exact (div_le_one total').mpr whole
  have first : |(h - h') / t| ≤ e / t := by
    rw [abs_div, abs_of_pos total]
    exact div_le_div_of_nonneg_right near total.le
  have second : |h' / t' * ((t' - t) / t)| ≤ e / t := by
    rw [abs_mul, abs_div _ t, abs_of_pos total, abs_sub_comm]
    exact (mul_le_of_le_one_left (div_nonneg (abs_nonneg _) total.le) share).trans
      (div_le_div_of_nonneg_right nearTotal total.le)
  have outer : 2 * e / t ≤ 2 * e / (t' - e) :=
    div_le_div_of_nonneg_left (by linarith) (by linarith) least
  calc |h / t - h' / t'| ≤ |(h - h') / t| + |h' / t' * ((t' - t) / t)| := by
        rw [split]
        exact abs_add_le _ _
    _ ≤ e / t + e / t := add_le_add first second
    _ = 2 * e / t := by ring
    _ ≤ 2 * e / (t' - e) := outer

theorem cast_near {a b n : ℕ} (above : a ≤ b + n) (below : b ≤ a + n) : |(a : ℚ) - b| ≤ n := by
  have above' : (a : ℚ) ≤ b + n := by exact_mod_cast above
  have below' : (b : ℚ) ≤ a + n := by exact_mod_cast below
  rw [abs_le]
  constructor <;> linarith

theorem raw_near {i j : ℕ} (slow : SlowFor w latency)
    (steady : ∀ i, w.rise (i + 1) = w.rise i + period) {sample : PruSample}
    (high : NearHigh w latency i sample.highTime) (total : NearTotal w latency j sample.totalTime) :
    sample.Measured ∧ |sample.raw - (pulseSample w i).raw| ≤ angleError latency period := by
  have up := w.up i
  have down := w.down i
  have spare := slow.low i
  have turns := steady i
  have turnsToo := steady j
  unfold NearHigh at high
  unfold NearTotal at total
  refine ⟨⟨by omega, by omega⟩, ?_⟩
  let ideal := pulseSample w i
  have isHigh : |(sample.highTime : ℚ) - ideal.highTime| ≤ (4 * latency : ℕ) :=
    cast_near (by simp only [ideal, pulseSample]; omega) (by simp only [ideal, pulseSample]; omega)
  have isTotal : |(sample.totalTime : ℚ) - ideal.totalTime| ≤ (4 * latency : ℕ) :=
    cast_near (by simp only [ideal, pulseSample]; omega) (by simp only [ideal, pulseSample]; omega)
  have whole : (ideal.highTime : ℚ) ≤ ideal.totalTime := by
    have part : w.fall i - w.rise i ≤ w.rise (i + 1) - w.rise i := by omega
    exact_mod_cast part
  have turn : (ideal.totalTime : ℚ) = period := by
    have same : w.rise (i + 1) - w.rise i = period := by omega
    exact_mod_cast same
  have long : ((4 * latency : ℕ) : ℚ) < ideal.totalTime := by
    have room : 4 * latency < w.rise (i + 1) - w.rise i := by omega
    exact_mod_cast room
  have near := quotient_near isHigh isTotal (Nat.cast_nonneg _) whole long
  have scale : sample.raw - ideal.raw = 36000 / 93.7 *
      ((sample.highTime : ℚ) / sample.totalTime - ideal.highTime / ideal.totalTime) := by
    rw [raw_eq, raw_eq]
    ring
  have factor : |(36000 / 93.7 : ℚ)| = 36000 / 93.7 := abs_of_pos (by norm_num)
  rw [scale, abs_mul, factor]
  have bound : angleError latency period =
      36000 / 93.7 * (2 * ((4 * latency : ℕ) : ℚ) / (ideal.totalTime - (4 * latency : ℕ))) := by
    rw [turn]
    unfold angleError
    push_cast
    ring
  rw [bound]
  exact mul_le_mul_of_nonneg_left near (by norm_num)

/-- On a wave of one period, a reading that may be torn by any number of the program's
steps is the angle of a pulse at most two periods old, but for the latencies, less the
zero: up to a turn, or capped. -/
theorem position_tracks {cycle : ℕ → ℕ} {pin : UInt32} {r31 : ℕ → UInt32}
    (slow : SlowFor w latency) (counts : ∀ n, n ≤ CYCLE_MAX → cycle n = n)
    (carries : ∀ time, pinHigh pin r31 time = w.level time)
    (steady : ∀ i, w.rise (i + 1) = w.rise i + period) (time : ℕ) (dram : PruSample)
    (before between : List ℕ) (shortBefore : ∀ delay ∈ before, delay ≤ latency)
    (shortBetween : ∀ delay ∈ between, delay ≤ latency)
    (measured : 2 ≤ periods (Pru.step cycle pin r31) (Pru.boot time dram) before) (servo : Servo) :
    let first := Machine.run (Pru.step cycle pin r31) (Pru.boot time dram) before
    let sample := torn first (Machine.run (Pru.step cycle pin r31) first between)
    sample.Measured ∧ ∃ i e, w.rise i ≤ first.now ∧
      first.now ≤ w.rise i + 2 * period + 2 * latency ∧ |e| ≤ angleError latency period ∧
      if (pulseSample w i).raw + e - servo.zero ≤ 360 then
        servo.servoPosition sample ≡ (pulseSample w i).raw + e - servo.zero [PMOD 360]
      else servo.servoPosition sample = 360 := by
  intro first sample
  obtain ⟨i, j, -, high, total, since, until_, -⟩ :=
    torn_near slow counts carries time dram before between shortBefore shortBetween measured
  obtain ⟨isMeasured, near⟩ := raw_near slow steady high total
  have turns := steady i
  have turnsAgain : w.rise (i + 2) = w.rise (i + 1) + period := steady (i + 1)
  have until_ : first.now ≤ w.rise (i + 2) + 2 * latency := until_
  refine ⟨isMeasured, i, sample.raw - (pulseSample w i).raw, since, by omega, near, ?_⟩
  rw [add_sub_cancel]
  split
  · rename_i uncapped
    exact servoPosition_modEq servo isMeasured.1 uncapped
  · rename_i capped
    exact servoPosition_capped servo isMeasured.1 (not_le.mp capped)

/-- A pulse of eight cycles in every twenty. -/
def beat : Wave where
  rise i := 20 * i
  fall i := 20 * i + 8
  up i := by omega
  down i := by omega

def beatPins (time : ℕ) : UInt32 := if time % 20 < 8 then P8_15 else 0

theorem beat_carries (time : ℕ) : pinHigh P8_15 beatPins time = beat.level time := by
  have pulse : beat.level time = true ↔ time % 20 < 8 := by
    have low : beat.rise (time / 20) ≤ time := by
      simp only [beat]
      omega
    have high : time < beat.rise (time / 20 + 1) := by
      simp only [beat]
      omega
    rw [Wave.level_iff_pulse low high]
    simp only [beat]
    omega
  rw [pinHigh, beatPins]
  by_cases early : time % 20 < 8
  · rw [if_pos early, pulse.mpr early]
    decide
  · have isLow : beat.level time = false := by
      rw [← Bool.not_eq_true, pulse]
      exact early
    rw [if_neg early, isLow]
    decide

def atZero : Servo := ⟨.null, none, "", 0, 0⟩

theorem position_tracks_example :
    let first := Machine.run (swivelPru0 id beatPins) (Pru.boot 0 ⟨0, 0⟩) (List.replicate 60 1)
    let sample := torn first (Machine.run (swivelPru0 id beatPins) first [1, 1, 1])
    sample.Measured ∧ ∃ i e, beat.rise i ≤ first.now ∧
      first.now ≤ beat.rise i + 2 * 20 + 2 * 1 ∧ |e| ≤ angleError 1 20 ∧
      if (pulseSample beat i).raw + e - atZero.zero ≤ 360 then
        atZero.servoPosition sample ≡ (pulseSample beat i).raw + e - atZero.zero [PMOD 360]
      else atZero.servoPosition sample = 360 := by
  have slow : SlowFor beat 1 := by
    constructor
    all_goals
      intro i
      simp only [beat, CYCLE_MAX]
      omega
  have steady : ∀ i, beat.rise (i + 1) = beat.rise i + 20 := by
    intro i
    simp only [beat]
    omega
  exact position_tracks slow (fun _ _ => rfl) beat_carries steady 0 ⟨0, 0⟩ (List.replicate 60 1)
    [1, 1, 1] (by simp) (by simp) (by decide +kernel) atZero

end Angle

end ProjectOwl.Beagle
