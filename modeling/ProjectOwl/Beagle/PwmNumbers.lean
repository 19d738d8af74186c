import ProjectOwl.Beagle.Pwm

/-! # Nanoseconds

The period and the duty cycle that the driver computes from a frequency and a
percentage.  Rounding costs no more than a nanosecond of either, and a duty cycle
of at most a hundred percent stays within the period. -/

set_option autoImplicit false

namespace ProjectOwl.Beagle.Pwm

open BinaryFormat

def DutyInRange (duty : Dbl) : Prop := ∃ q, duty = .fin q ∧ 0 ≤ q ∧ q ≤ 100

/-- The period is at least one nanosecond and fits an `unsigned long`. -/
def FreqInRange (freq : Dbl) : Prop :=
  ∃ q, freq = .fin q ∧ 0 < q ∧ q ≤ 1000000000 ∧ 1000000000 ≤ ULONG_MAX * q

section Numbers
variable (board : Board) {duty freq : Dbl} {x q : ℚ} {n : Nat}

/-- A number the conversion takes, once it is rounded. -/
theorem ulong_round (least : 0 ≤ x) (most : x ≤ ULONG_MAX) :
    (board.ulong (double.round (.fin x)) : ℤ) = (double.near x).floor := by
  have bounded : |x| ≤ ULONG_MAX := by rwa [abs_of_nonneg least]
  rw [round_fin bounded (by decide)]
  exact board.ulong_floor _ (near_nonneg least) (near_le (representable_natCast (by decide)) most)

theorem ulong_round_le (least : 0 ≤ x) (most : x ≤ n) (fits : n ≤ ULONG_MAX) :
    board.ulong (double.round (.fin x)) ≤ n := by
  have bound : (n : ℚ) ≤ ULONG_MAX := by exact_mod_cast fits
  have floor := ulong_round board least (most.trans bound)
  have digits : n ≤ 2 ^ double.precision := fits.trans (by decide)
  have rounded := near_le (representable_natCast digits) most
  have below : ((double.near x).floor : ℚ) ≤ n := (Rat.floor_le _).trans rounded
  have whole : (double.near x).floor ≤ n := by exact_mod_cast below
  omega

theorem le_ulong_round (least : n ≤ x) (most : x ≤ ULONG_MAX) :
    n ≤ board.ulong (double.round (.fin x)) := by
  have floor := ulong_round board ((Nat.cast_nonneg n).trans least) most
  have fits : n ≤ ULONG_MAX := by exact_mod_cast least.trans most
  have digits : n ≤ 2 ^ double.precision := fits.trans (by decide)
  have rounded := le_near (representable_natCast digits) least
  have whole : (n : ℤ) ≤ (double.near x).floor := Rat.le_floor_iff.mpr (by exact_mod_cast rounded)
  omega

theorem periodNsOf_fin (positive : 0 < q) :
    periodNsOf board (.fin q) = board.ulong (double.round (.fin (1000000000 / q))) := by
  have quotient : (1000000000 : Dbl) / Dbl.fin q = .fin (1000000000 / q) := by
    change (if q ≠ 0 then Dbl.fin (1000000000 / q) else _) = _
    rw [if_pos positive.ne']
  rw [periodNsOf, quotient]

theorem periodNsOf_pos (inRange : FreqInRange freq) : 0 < periodNsOf board freq := by
  obtain ⟨q, rfl, positive, atMost, fits⟩ := inRange
  have long : ((1 : Nat) : ℚ) ≤ 1000000000 / q := by
    rw [Nat.cast_one]
    exact (one_le_div positive).mpr atMost
  have short : 1000000000 / q ≤ (ULONG_MAX : ℚ) := (div_le_iff₀ positive).mpr fits
  rw [periodNsOf_fin board positive]
  exact le_ulong_round board long short

theorem periodNsOf_le (freq : Dbl) : periodNsOf board freq ≤ ULONG_MAX := board.ulong_le _

/-- The share of a period that a duty cycle stands for. -/
theorem share_within (least : 0 ≤ q) (most : q ≤ 100) :
    0 ≤ double.near (q / 100) ∧ double.near (q / 100) ≤ 1 := by
  have one : double.Representable (1 : Nat) := representable_natCast (by decide)
  rw [Nat.cast_one] at one
  exact ⟨near_nonneg (by linarith), near_le one (by linarith)⟩

theorem dutyNsOf_fin (least : 0 ≤ q) (most : q ≤ 100) (periodNs : Nat) :
    dutyNsOf board periodNs (.fin q) =
      board.ulong (double.round (.fin (periodNs * double.near (q / 100)))) := by
  have quotient : Dbl.fin q / 100 = .fin (q / 100) := by
    change (if (100 : ℚ) ≠ 0 then Dbl.fin (q / 100) else Dbl.nan) = _
    exact if_pos (by norm_num)
  have bounded : |q / 100| ≤ (1 : Nat) := abs_le.mpr ⟨by push_cast; linarith, by push_cast; linarith⟩
  rw [dutyNsOf, quotient, round_fin bounded (by decide)]
  rfl

theorem dutyNsOf_le (inRange : DutyInRange duty) {periodNs : Nat} (fits : periodNs ≤ ULONG_MAX) :
    dutyNsOf board periodNs duty ≤ periodNs := by
  obtain ⟨q, rfl, least, most⟩ := inRange
  obtain ⟨low, high⟩ := share_within least most
  have long : (0 : ℚ) ≤ periodNs := Nat.cast_nonneg _
  rw [dutyNsOf_fin board least most]
  exact ulong_round_le board (mul_nonneg long low) (mul_le_of_le_one_right long high) fits

/-- The number a duty cycle comes to, before it is cut to an integer. -/
def roundedNs (periodNs : Nat) (duty : ℚ) : ℚ := double.near (periodNs * double.near (duty / 100))

theorem roundedNs_mono (periodNs : Nat) {p : ℚ} (ordered : p ≤ q) :
    roundedNs periodNs p ≤ roundedNs periodNs q := by
  have share : double.near (p / 100) ≤ double.near (q / 100) :=
    near_mono (by linarith)
  exact near_mono (mul_le_mul_of_nonneg_left share (Nat.cast_nonneg _))

theorem dutyNsOf_eq (least : 0 ≤ q) (most : q ≤ 100) (fits : n ≤ ULONG_MAX) :
    (dutyNsOf board n (.fin q) : ℤ) = (roundedNs n q).floor := by
  obtain ⟨low, high⟩ := share_within least most
  have bound : (n : ℚ) ≤ ULONG_MAX := by exact_mod_cast fits
  have long : (0 : ℚ) ≤ n := Nat.cast_nonneg _
  rw [dutyNsOf_fin board least most]
  exact ulong_round board (mul_nonneg long low) ((mul_le_of_le_one_right long high).trans bound)

/-! ## What rounding costs -/

theorem floor_close {a b : ℚ} (close : |a - b| ≤ 1) : |a.floor - b.floor| ≤ 1 := by
  obtain ⟨low, high⟩ := abs_le.mp close
  have belowA := Rat.floor_le a
  have belowB := Rat.floor_le b
  have aboveA : a < a.floor + 1 := by exact_mod_cast Rat.lt_floor_add_one a
  have aboveB : b < b.floor + 1 := by exact_mod_cast Rat.lt_floor_add_one b
  have up : (a.floor : ℚ) < b.floor + 2 := by linarith
  have down : (b.floor : ℚ) < a.floor + 2 := by linarith
  have up : a.floor < b.floor + 2 := by exact_mod_cast up
  have down : b.floor < a.floor + 2 := by exact_mod_cast down
  rw [abs_le]
  omega

/-- Below 2³² a double is within a 2²¹st of what it stands for. -/
theorem double_close (least : 0 ≤ x) (most : x ≤ ULONG_MAX) :
    |double.near x - x| ≤ 1 / 2097152 := by
  have below : |x| < 2 ^ (32 : ℤ) := by
    rw [abs_of_nonneg least]
    exact most.trans_lt (by norm_num [ULONG_MAX])
  refine (near_close below (by decide)).trans ?_
  norm_num [double]

/-- The period in nanoseconds is the exact one rounded down, or one more or less. -/
theorem periodNsOf_close (positive : 0 < q) (fits : 1000000000 ≤ ULONG_MAX * q) :
    |(periodNsOf board (.fin q) : ℤ) - (1000000000 / q).floor| ≤ 1 := by
  have least : 0 ≤ 1000000000 / q := (div_pos (by norm_num) positive).le
  have most : 1000000000 / q ≤ (ULONG_MAX : ℚ) := (div_le_iff₀ positive).mpr fits
  rw [periodNsOf_fin board positive, ulong_round board least most]
  exact floor_close ((double_close least most).trans (by norm_num))

/-- So is the duty cycle. -/
theorem dutyNsOf_close (least : 0 ≤ q) (most : q ≤ 100) (fits : n ≤ ULONG_MAX) :
    |(dutyNsOf board n (.fin q) : ℤ) - (n * (q / 100)).floor| ≤ 1 := by
  obtain ⟨low, high⟩ := share_within least most
  have bound : (n : ℚ) ≤ ULONG_MAX := by exact_mod_cast fits
  have long : (0 : ℚ) ≤ n := Nat.cast_nonneg _
  have rounded := double_close (x := n * double.near (q / 100)) (mul_nonneg long low)
    ((mul_le_of_le_one_right long high).trans bound)
  have share : |double.near (q / 100) - q / 100| ≤ 2 ^ (1 - 53 - 1 : ℤ) :=
    near_close (by rw [abs_of_nonneg (by linarith)]; linarith) (by decide)
  have scaled : |n * double.near (q / 100) - n * (q / 100)| ≤ 1 / 2097152 := by
    rw [← mul_sub, abs_mul, abs_of_nonneg long]
    refine (mul_le_mul bound share (abs_nonneg _) (by norm_num [ULONG_MAX])).trans ?_
    norm_num [ULONG_MAX]
  rw [dutyNsOf_eq board least most fits]
  refine floor_close ((abs_sub_le _ (n * double.near (q / 100)) _).trans ?_)
  rw [roundedNs]
  linarith

end Numbers

/-- Settings that are the exact ones but for a nanosecond of either. -/
def Settings.Close (settings : Settings) (duty freq : Dbl) : Prop :=
  ∃ q r, duty = .fin q ∧ freq = .fin r ∧
    |(settings.period : ℤ) - (1000000000 / r).floor| ≤ 1 ∧
    |(settings.duty : ℤ) - (settings.period * (q / 100)).floor| ≤ 1

theorem settings_close (board : Board) {duty freq : Dbl} (dutyInRange : DutyInRange duty)
    (freqInRange : FreqInRange freq) (inversed enabled : Bool) :
    Settings.Close ⟨periodNsOf board freq, dutyNsOf board (periodNsOf board freq) duty,
      inversed, enabled⟩ duty freq := by
  obtain ⟨q, rfl, least, most⟩ := dutyInRange
  obtain ⟨r, rfl, positive, -, fits⟩ := freqInRange
  exact ⟨q, r, rfl, rfl, periodNsOf_close board positive fits,
    dutyNsOf_close board least most (periodNsOf_le board _)⟩

end ProjectOwl.Beagle.Pwm
