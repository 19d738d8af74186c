import ProjectOwl.Lib.Dbl
import Mathlib.Data.Int.Log
import Mathlib.Data.Rat.Floor
import Mathlib.Tactic.Linarith
import Mathlib.Tactic.NormNum

/-! # Rounding to a binary format

The numbers of a binary floating-point format and the rounding of a rational to
the nearest of them, halfway cases to the even multiple.  A number of the format
is never crossed: what is at most such a number stays so when it is rounded.  So
rounding keeps the order. -/

set_option autoImplicit false

/-- Significant bits, the exponent of the least distance between two numbers, and
the exponent from which on a number is too great.  Every natural number of few
enough bits is a number of the format. -/
structure BinaryFormat where
  precision : Nat
  least : ℤ
  most : Nat
  precision_pos : 0 < precision
  precision_lt : precision < most
  least_le : least ≤ 0

namespace BinaryFormat

def single : BinaryFormat := ⟨24, -149, 128, by decide, by decide, by decide⟩

def double : BinaryFormat := ⟨53, -1074, 1024, by decide, by decide, by decide⟩

/-! ## The nearest integer -/

/-- The halves go to the even neighbour. -/
def RoundsDown (q : ℚ) : Prop := q - ⌊q⌋ < 1 / 2 ∨ (q - ⌊q⌋ = 1 / 2 ∧ Even ⌊q⌋)

instance (q : ℚ) : Decidable (RoundsDown q) := inferInstanceAs (Decidable (_ ∨ _))

def nearestEven (q : ℚ) : ℤ := if RoundsDown q then ⌊q⌋ else ⌊q⌋ + 1

section Integer
variable {q : ℚ} {k : ℤ}

theorem nearestEven_near (q : ℚ) : |nearestEven q - q| ≤ 1 / 2 := by
  have below := Int.floor_le q
  have above := Int.lt_floor_add_one q
  unfold nearestEven
  rw [abs_le]
  by_cases down : RoundsDown q
  · rw [if_pos down]
    rcases down with less | ⟨half, -⟩
    · constructor <;> linarith
    · constructor <;> linarith
  · rw [if_neg down]
    have half : 1 / 2 ≤ q - ⌊q⌋ := not_lt.mp fun less => down (Or.inl less)
    push_cast
    constructor <;> linarith

theorem le_nearestEven (least : k ≤ q) : k ≤ nearestEven q := by
  have floor : k ≤ ⌊q⌋ := Int.le_floor.mpr least
  unfold nearestEven
  split
  · exact floor
  · omega

theorem nearestEven_le (most : q ≤ k) : nearestEven q ≤ k := by
  by_contra beyond
  have next : (k + 1 : ℚ) ≤ nearestEven q := by exact_mod_cast not_le.mp beyond
  have close := (abs_le.mp (nearestEven_near q)).2
  linarith

theorem RoundsDown.of_le {p : ℚ} (down : RoundsDown q) (ordered : p ≤ q) (same : ⌊p⌋ = ⌊q⌋) :
    RoundsDown p := by
  unfold RoundsDown
  rw [same]
  rcases down with less | ⟨half, even⟩
  · exact Or.inl (by linarith)
  · rcases lt_or_eq_of_le ordered with below | rfl
    · exact Or.inl (by linarith)
    · exact Or.inr ⟨half, even⟩

theorem nearestEven_mono {p : ℚ} (ordered : p ≤ q) : nearestEven p ≤ nearestEven q := by
  rcases lt_or_eq_of_le (Int.floor_mono ordered) with apart | same
  · have above := Int.lt_floor_add_one p
    have between : p ≤ ⌊q⌋ := above.le.trans (by exact_mod_cast apart)
    exact (nearestEven_le between).trans (le_nearestEven (Int.floor_le q))
  · unfold nearestEven
    by_cases down : RoundsDown q
    · rw [if_pos down, if_pos (down.of_le ordered same), same]
    · rw [if_neg down, same]
      split
      · omega
      · exact le_rfl

end Integer

/-! ## The nearest number of a format -/

section Near
variable (f : BinaryFormat)

/-- The exponent of the distance between the numbers around `q`. -/
def exponent (q : ℚ) : ℤ := max (Int.log 2 |q| + 1 - f.precision) f.least

def ulp (q : ℚ) : ℚ := 2 ^ f.exponent q

def near (q : ℚ) : ℚ := nearestEven (q / f.ulp q) * f.ulp q

def Representable (q : ℚ) : Prop :=
  ∃ m e : ℤ, q = m * 2 ^ e ∧ |m| ≤ 2 ^ f.precision ∧ f.least ≤ e

variable {f} {q r : ℚ} {k : ℤ}

theorem ulp_pos (q : ℚ) : 0 < f.ulp q := zpow_pos (by norm_num) _

theorem near_zero : f.near 0 = 0 := by
  have zero : nearestEven 0 = 0 := by decide +kernel
  rw [near, zero_div, zero, Int.cast_zero, zero_mul]

/-- Multiples of the distance are not crossed. -/
theorem near_le_mul (most : q ≤ k * f.ulp q) : f.near q ≤ k * f.ulp q := by
  have quotient : q / f.ulp q ≤ k := (div_le_iff₀ (ulp_pos q)).mpr most
  have whole : (nearestEven (q / f.ulp q) : ℚ) ≤ k := by exact_mod_cast nearestEven_le quotient
  exact mul_le_mul_of_nonneg_right whole (ulp_pos q).le

theorem mul_le_near (least : k * f.ulp q ≤ q) : k * f.ulp q ≤ f.near q := by
  have quotient : k ≤ q / f.ulp q := (le_div_iff₀ (ulp_pos q)).mpr least
  have whole : (k : ℚ) ≤ nearestEven (q / f.ulp q) := by exact_mod_cast le_nearestEven quotient
  exact mul_le_mul_of_nonneg_right whole (ulp_pos q).le

/-- A power of two that is a multiple of the distance. -/
theorem zpow_eq_mul_ulp {e : ℤ} (coarse : f.exponent q ≤ e) (m : ℤ) :
    ∃ k : ℤ, (m : ℚ) * 2 ^ e = k * f.ulp q := by
  obtain ⟨n, shift⟩ := Int.eq_ofNat_of_zero_le (sub_nonneg.mpr coarse)
  refine ⟨m * 2 ^ n, ?_⟩
  have split : e = n + f.exponent q := by omega
  rw [split, zpow_add₀ (by norm_num), zpow_natCast, ulp]
  push_cast
  ring

/-- A number of the format is a multiple of the distance around `q`, or it lies
beneath the power of two at which that distance begins. -/
theorem Representable.cases (fits : f.Representable r) (nonzero : q ≠ 0) :
    (∃ k : ℤ, r = k * f.ulp q) ∨
      ∃ k : ℤ, |r| ≤ k * f.ulp q ∧ k * f.ulp q ≤ |q| := by
  obtain ⟨m, e, rfl, digits, least⟩ := fits
  rcases le_or_gt (f.exponent q) e with coarse | fine
  · exact Or.inl (zpow_eq_mul_ulp coarse m)
  · have normal : f.exponent q = Int.log 2 |q| + 1 - f.precision := by
      unfold exponent at fine ⊢
      omega
    have positive := f.precision_pos
    obtain ⟨k, power⟩ := zpow_eq_mul_ulp (f := f) (q := q) (e := Int.log 2 |q|) (by omega) 1
    rw [Int.cast_one, one_mul] at power
    refine Or.inr ⟨k, ?_, ?_⟩
    · have scale : (2 : ℚ) ^ f.precision * 2 ^ e ≤ 2 ^ Int.log 2 |q| := by
        rw [← zpow_natCast, ← zpow_add₀ (by norm_num)]
        exact zpow_le_zpow_right₀ (by norm_num) (by omega)
      have bound : |(m : ℚ)| ≤ 2 ^ f.precision := by exact_mod_cast digits
      have two : (0 : ℚ) < 2 ^ e := zpow_pos (by norm_num) e
      rw [← power, abs_mul, abs_of_pos two]
      exact (mul_le_mul_of_nonneg_right bound two.le).trans scale
    · rw [← power]
      exact Int.zpow_log_le_self (by norm_num) (abs_pos.mpr nonzero)

/-- Rounding does not cross a number of the format. -/
theorem near_le (fits : f.Representable r) (most : q ≤ r) : f.near q ≤ r := by
  by_cases zero : q = 0
  · rwa [zero, near_zero, ← zero]
  · rcases fits.cases zero with ⟨k, rfl⟩ | ⟨k, beneath, reached⟩
    · exact near_le_mul most
    · obtain ⟨low, high⟩ := abs_le.mp beneath
      rcases lt_or_ge 0 q with positive | negative
      · rw [abs_of_pos positive] at reached
        have tight : q ≤ k * f.ulp q := most.trans high
        exact (near_le_mul tight).trans (reached.trans most)
      · rw [abs_of_nonpos negative] at reached
        have tight : q ≤ ((-k : ℤ) : ℚ) * f.ulp q := by
          push_cast
          linarith
        have rounded := near_le_mul tight
        push_cast at rounded
        linarith

theorem le_near (fits : f.Representable r) (least : r ≤ q) : r ≤ f.near q := by
  by_cases zero : q = 0
  · rwa [zero, near_zero, ← zero]
  · rcases fits.cases zero with ⟨k, rfl⟩ | ⟨k, beneath, reached⟩
    · exact mul_le_near least
    · obtain ⟨low, high⟩ := abs_le.mp beneath
      rcases lt_or_ge q 0 with negative | positive
      · rw [abs_of_neg negative] at reached
        have tight : ((-k : ℤ) : ℚ) * f.ulp q ≤ q := by
          push_cast
          linarith
        have rounded := mul_le_near tight
        push_cast at rounded
        linarith
      · rw [abs_of_nonneg positive] at reached
        have rounded := mul_le_near reached
        linarith

theorem representable_natCast {n : Nat} (digits : n ≤ 2 ^ f.precision) : f.Representable n :=
  ⟨n, 0, by simp, by exact_mod_cast digits, f.least_le⟩

theorem representable_zpow {e : ℤ} (least : f.least ≤ e) : f.Representable (2 ^ e) :=
  ⟨1, e, by simp, by rw [abs_one]; exact one_le_pow₀ (by norm_num), least⟩

theorem Representable.neg (fits : f.Representable q) : f.Representable (-q) := by
  obtain ⟨m, e, rfl, digits, least⟩ := fits
  exact ⟨-m, e, by push_cast; ring, by rwa [abs_neg], least⟩

/-- Nor does it cross the bounds of an interval around zero. -/
theorem abs_near_le {n : Nat} (bounded : |q| ≤ n) (digits : n ≤ 2 ^ f.precision) :
    |f.near q| ≤ n := by
  obtain ⟨low, high⟩ := abs_le.mp bounded
  have fits := representable_natCast digits
  exact abs_le.mpr ⟨le_near fits.neg low, near_le fits high⟩

theorem near_nonneg (positive : 0 ≤ q) : 0 ≤ f.near q := by
  have fits := representable_natCast (f := f) (Nat.zero_le _)
  rw [Nat.cast_zero] at fits
  exact le_near fits positive

/-! ### The order -/

theorem exponent_neg (q : ℚ) : f.exponent (-q) = f.exponent q := by
  rw [exponent, exponent, abs_neg]

/-- Where the distance grows there is a power of two. -/
theorem exists_between_pos {p : ℚ} (positive : 0 < p) (ordered : p ≤ q)
    (grows : f.exponent p ≠ f.exponent q) : ∃ r, f.Representable r ∧ p ≤ r ∧ r ≤ q := by
  have above : 0 < q := positive.trans_le ordered
  have logs : Int.log 2 p ≤ Int.log 2 q := Int.log_mono_right positive ordered
  unfold exponent at grows
  rw [abs_of_pos positive, abs_of_pos above] at grows
  have digits := f.precision_pos
  refine ⟨2 ^ Int.log 2 q, representable_zpow (by omega), ?_, ?_⟩
  · have next : p < 2 ^ (Int.log 2 p + 1) := Int.lt_zpow_succ_log_self (by norm_num) p
    exact next.le.trans (zpow_le_zpow_right₀ (by norm_num) (by omega))
  · exact Int.zpow_log_le_self (by norm_num) above

theorem exists_between {p : ℚ} (ordered : p ≤ q)
    (differ : f.exponent p ≠ f.exponent q) : ∃ r, f.Representable r ∧ p ≤ r ∧ r ≤ q := by
  rcases lt_or_ge 0 p with positive | low
  · exact exists_between_pos positive ordered differ
  · rcases lt_or_ge q 0 with negative | high
    · rw [← exponent_neg p, ← exponent_neg q] at differ
      obtain ⟨r, fits, below, above⟩ :=
        exists_between_pos (neg_pos.mpr negative) (neg_le_neg ordered) differ.symm
      exact ⟨-r, fits.neg, by linarith, by linarith⟩
    · have zero := representable_natCast (f := f) (Nat.zero_le _)
      rw [Nat.cast_zero] at zero
      exact ⟨0, zero, low, high⟩

/-- Rounding keeps the order. -/
theorem near_mono {p : ℚ} (ordered : p ≤ q) : f.near p ≤ f.near q := by
  by_cases same : f.exponent p = f.exponent q
  · have distance : f.ulp p = f.ulp q := congrArg (fun e => (2 : ℚ) ^ e) same
    have positive := ulp_pos (f := f) q
    have quotients : p / f.ulp q ≤ q / f.ulp q := div_le_div_of_nonneg_right ordered positive.le
    have whole : (nearestEven (p / f.ulp q) : ℚ) ≤ nearestEven (q / f.ulp q) := by
      exact_mod_cast nearestEven_mono quotients
    rw [near, near, distance]
    exact mul_le_mul_of_nonneg_right whole positive.le
  · obtain ⟨r, fits, below, above⟩ := exists_between ordered same
    exact (near_le fits below).trans (le_near fits above)

/-- The error of rounding a number below a power of two. -/
theorem near_close {n : ℤ} (below : |q| < 2 ^ n) (normal : f.least ≤ n - f.precision) :
    |f.near q - q| ≤ 2 ^ (n - f.precision - 1) := by
  by_cases zero : q = 0
  · rw [zero, near_zero, sub_self, abs_zero]
    exact (zpow_pos (by norm_num) _).le
  · have reach : Int.log 2 |q| < n :=
      (Int.lt_zpow_iff_log_lt (by norm_num) (abs_pos.mpr zero)).mp below
    have exponent : f.exponent q ≤ n - f.precision := by
      unfold BinaryFormat.exponent
      omega
    have small : f.ulp q ≤ 2 ^ (n - f.precision) := zpow_le_zpow_right₀ (by norm_num) exponent
    have positive := ulp_pos (f := f) q
    have close := nearestEven_near (q / f.ulp q)
    have scaled : |f.near q - q| = |nearestEven (q / f.ulp q) - q / f.ulp q| * f.ulp q := by
      rw [← abs_of_pos positive, ← abs_mul, abs_of_pos positive, sub_mul,
        div_mul_cancel₀ _ positive.ne', near]
    have half : (2 : ℚ) ^ (n - f.precision - 1) = 1 / 2 * 2 ^ (n - f.precision) := by
      rw [zpow_sub_one₀ (by norm_num)]
      ring
    rw [scaled, half]
    exact mul_le_mul close small positive.le (by norm_num)

end Near

/-! ## Doubles -/

/-- An operation of the format gives its exact result rounded. -/
def round (f : BinaryFormat) : Dbl → Dbl
  | .fin q => if 2 ^ f.most ≤ |f.near q| then .inf (decide (q < 0)) else .fin (f.near q)
  | x => x

theorem round_fin {f : BinaryFormat} {q : ℚ} {n : Nat} (bounded : |q| ≤ n)
    (digits : n ≤ 2 ^ f.precision) : f.round (.fin q) = .fin (f.near q) := by
  have kept := abs_near_le bounded digits
  have inBits : (n : ℚ) ≤ 2 ^ f.precision := by exact_mod_cast digits
  have below : (2 : ℚ) ^ f.precision < 2 ^ f.most := pow_lt_pow_right₀ (by norm_num) f.precision_lt
  exact if_neg ((kept.trans inBits).trans_lt below).not_ge

end BinaryFormat
