import Mathlib.Order.WellFounded
import Mathlib.Tactic.Common

/-! # Pulse trains

A wave is high from each rise to the fall after it, and low between its pulses and
before the first.  Times are natural numbers, and so are the pulses. -/

set_option autoImplicit false

structure Wave where
  rise : ℕ → ℕ
  fall : ℕ → ℕ
  up : ∀ i, rise i < fall i
  down : ∀ i, fall i < rise (i + 1)

namespace Wave

section Level
variable (w : Wave) {i : ℕ} {time earlier : ℕ}

/-- No pulse that rises after `time` is looked at: the `i`-th one rises at `i` or later. -/
def level (time : ℕ) : Bool :=
  (List.range (time + 1)).any fun i => decide (w.rise i ≤ time) && decide (time < w.fall i)

theorem rise_lt_rise (i : ℕ) : w.rise i < w.rise (i + 1) := (w.up i).trans (w.down i)

theorem rise_strictMono : StrictMono w.rise := strictMono_nat_of_lt_succ w.rise_lt_rise

variable {w}

theorem level_high (low : w.rise i ≤ time) (high : time < w.fall i) : w.level time = true := by
  have index : i ≤ time := (w.rise_strictMono.le_apply).trans low
  rw [level, List.any_eq_true]
  exact ⟨i, List.mem_range.mpr (Nat.lt_succ_of_le index), by simp [low, high]⟩

/-- A wave that is high is in one of its pulses. -/
theorem exists_pulse (isHigh : w.level time = true) : ∃ i, w.rise i ≤ time ∧ time < w.fall i := by
  rw [level, List.any_eq_true] at isHigh
  obtain ⟨i, -, inside⟩ := isHigh
  exact ⟨i, by simpa using inside⟩

theorem level_low (low : w.fall i ≤ time) (high : time < w.rise (i + 1)) :
    w.level time = false := by
  by_contra isHigh
  obtain ⟨j, above, below⟩ := exists_pulse (by simpa using isHigh)
  rcases Nat.lt_or_ge i j with later | before
  · have := w.rise_strictMono.monotone (show i + 1 ≤ j from later)
    omega
  · rcases Nat.eq_or_lt_of_le before with rfl | less
    · omega
    · have first := w.rise_strictMono.monotone (show j + 1 ≤ i from less)
      have := w.down j
      have := w.up i
      omega

/-- Between a time when the wave was low and one when it is high it has risen. -/
theorem exists_rise (wasLow : w.level earlier = false) (isHigh : w.level time = true)
    (order : earlier ≤ time) : ∃ i, earlier < w.rise i ∧ w.rise i ≤ time ∧ time < w.fall i := by
  obtain ⟨i, low, high⟩ := exists_pulse isHigh
  refine ⟨i, ?_, low, high⟩
  by_contra notAfter
  have sameToo := level_high (w := w) (i := i) (by omega) (by omega : earlier < w.fall i)
  rw [wasLow] at sameToo
  cases sameToo

/-- From a pulse, the wave has not yet reached the next one as long as it is followed
closely. -/
theorem level_iff_pulse (low : w.rise i ≤ time) (high : time < w.rise (i + 1)) :
    w.level time = true ↔ time < w.fall i := by
  constructor
  · intro isHigh
    by_contra fallen
    have isLow := level_low (w := w) (i := i) (by omega) high
    rw [isLow] at isHigh
    cases isHigh
  · exact fun before => level_high low before

end Level

end Wave
