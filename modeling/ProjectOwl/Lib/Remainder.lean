import Mathlib.Algebra.Group.ModEq
import Mathlib.Algebra.Order.Floor.Ring
import Mathlib.Data.Rat.Floor
import Mathlib.Tactic.Linarith

/-! # Remainders in an ordered field

`fmod` rounds the quotient towards zero, so its result has the sign of the
dividend; `wrap` rounds it down, so its result lies in one period from zero. -/

set_option autoImplicit false

namespace Remainder

section Remainders
variable {K : Type*} [Field K] {x y : K}

theorem sub_mul_modEq (k : ℤ) : x - k * y ≡ x [PMOD y] := by
  rw [AddCommGroup.modEq_iff_zsmul]
  exact ⟨k, by rw [zsmul_eq_mul]; ring⟩

variable [LinearOrder K] [FloorRing K]

def trunc (q : K) : ℤ := if 0 ≤ q then ⌊q⌋ else ⌈q⌉

def fmod (x y : K) : K := x - trunc (x / y) * y

def wrap (x y : K) : K := x - ⌊x / y⌋ * y

theorem fmod_modEq : fmod x y ≡ x [PMOD y] := sub_mul_modEq _

variable [IsStrictOrderedRing K]

/-- Less than a period apart, and not equal. -/
theorem not_modEq_of_lt (low : 0 < x - y) {p : K} (high : x - y < p) : ¬x ≡ y [PMOD p] := by
  intro congruent
  obtain ⟨turns, eq⟩ := AddCommGroup.modEq_iff_zsmul.mp congruent.symm
  rw [zsmul_eq_mul] at eq
  have positive : 0 < p := low.trans high
  rw [← eq] at low high
  have more : (0 : K) < turns := (mul_pos_iff_of_pos_right positive).mp low
  have less : (turns : K) < 1 := by
    refine lt_of_mul_lt_mul_right ?_ positive.le
    rw [one_mul]
    exact high
  have above : 0 < turns := by exact_mod_cast more
  have below : turns < 1 := by exact_mod_cast less
  omega

theorem wrap_nonneg (positive : 0 < y) : 0 ≤ wrap x y := by
  have below : ⌊x / y⌋ * y ≤ x := (le_div_iff₀ positive).mp (Int.floor_le _)
  unfold wrap
  linarith

theorem wrap_lt (positive : 0 < y) : wrap x y < y := by
  have above : x < (⌊x / y⌋ + 1) * y := (div_lt_iff₀ positive).mp (Int.lt_floor_add_one _)
  unfold wrap
  linarith

/-- The remainder is known once it lies in the first period. -/
theorem wrap_eq (positive : 0 < y) {k : ℤ} (low : 0 ≤ x - k * y) (high : x - k * y < y) :
    wrap x y = x - k * y := by
  have quotient : ⌊x / y⌋ = k := by
    rw [Int.floor_eq_iff, le_div_iff₀ positive, div_lt_iff₀ positive]
    constructor
    · linarith
    · linarith
  rw [wrap, quotient]

theorem wrap_sub_mul (nonzero : y ≠ 0) (k : ℤ) : wrap (x - k * y) y = wrap x y := by
  unfold wrap
  rw [sub_div, mul_div_cancel_right₀ _ nonzero, Int.floor_sub_intCast]
  push_cast
  ring

theorem trunc_neg (q : K) : trunc (-q) = -trunc q := by
  unfold trunc
  rcases lt_trichotomy q 0 with negative | rfl | positive
  · rw [if_pos (by linarith), if_neg (by linarith), Int.floor_neg]
  · simp
  · rw [if_neg (by linarith), if_pos (by linarith), Int.ceil_neg]

theorem fmod_neg (x y : K) : fmod (-x) y = -fmod x y := by
  unfold fmod
  rw [neg_div, trunc_neg]
  push_cast
  ring

theorem fmod_of_nonneg (positive : 0 < y) (nonneg : 0 ≤ x) : fmod x y = wrap x y := by
  rw [fmod, trunc, if_pos (div_nonneg nonneg positive.le), wrap]

/-- Under a dividend that is not positive the remainder is not positive either. -/
theorem fmod_of_nonpos (positive : 0 < y) (nonpos : x ≤ 0) : fmod x y = -wrap (-x) y := by
  rw [← fmod_of_nonneg positive (neg_nonneg.mpr nonpos), fmod_neg, neg_neg]

end Remainders

end Remainder
