import ProjectOwl.Beagle.World
import ProjectOwl.Lib.Round

/-! # The duty cycle of a speed

`servo_set_speed` cuts a speed to its limit and turns it into a duty cycle.  The
computation is stated over a rounding of what its operations give: without one it
is the exact duty cycle, and rounded to doubles and then to a `float` it is the
argument that `pwm_set_duty_cycle` gets. -/

set_option autoImplicit false

namespace ProjectOwl.Beagle

open BinaryFormat

/-- `servo_set_speed`, each constant and what each operation gives being rounded. -/
def dutyCycleIn (round : Dbl → Dbl) (speed : Dbl) : Dbl :=
  let speed := if MAXSPEED < speed then MAXSPEED else speed
  let speed := if speed < -MAXSPEED then -MAXSPEED else speed
  if speed = 0 then 7.5
  else if speed < 0 then round (round 7.4 + round (speed / 140.0))
  else round (round 7.6 + round (speed / 140.0))

theorem dutyCycleIn_id (speed : Dbl) : dutyCycleIn id speed = dutyCycle speed := rfl

/-- The argument of `pwm_set_duty_cycle`. -/
def floatDuty (speed : Dbl) : Dbl := single.round (dutyCycleIn double.round speed)

theorem maxSpeed_eq : MAXSPEED = .fin 140 := by
  change Dbl.fin ((140 : ℕ) : ℚ) = .fin 140
  norm_num

theorem neg_maxSpeed_eq : -MAXSPEED = .fin (-140) := by
  rw [maxSpeed_eq]
  rfl

section Cut
variable (round : Dbl → Dbl) {q c : ℚ}

/-- A speed beyond the limit is the limit. -/
theorem dutyCycleIn_above (high : 140 < q) :
    dutyCycleIn round (.fin q) = dutyCycleIn round (.fin 140) := by
  unfold dutyCycleIn
  rw [neg_maxSpeed_eq, maxSpeed_eq, if_pos (show Dbl.fin 140 < Dbl.fin q from high),
    if_neg (show ¬Dbl.fin 140 < Dbl.fin 140 from lt_irrefl (140 : ℚ))]

theorem dutyCycleIn_below (low : q < -140) :
    dutyCycleIn round (.fin q) = dutyCycleIn round (.fin (-140)) := by
  have notAbove : ¬(140 : ℚ) < q := by linarith
  have notAbove' : ¬(140 : ℚ) < -140 := by norm_num
  unfold dutyCycleIn
  rw [neg_maxSpeed_eq, maxSpeed_eq, if_neg (show ¬Dbl.fin 140 < Dbl.fin q from notAbove),
    if_neg (show ¬Dbl.fin 140 < Dbl.fin (-140) from notAbove')]
  dsimp only
  rw [if_pos (show Dbl.fin q < Dbl.fin (-140) from low),
    if_neg (show ¬Dbl.fin (-140) < Dbl.fin (-140) from lt_irrefl (-140 : ℚ))]

/-- A speed and what it is cut to have one sign. -/
theorem dutyCycleIn_cut (q : ℚ) :
    ∃ c, -140 ≤ c ∧ c ≤ 140 ∧ dutyCycleIn round (.fin q) = dutyCycleIn round (.fin c) ∧
      (q = 0 ↔ c = 0) ∧ (0 < q ↔ 0 < c) := by
  rcases lt_or_ge 140 q with above | high
  · refine ⟨140, by norm_num, le_rfl, dutyCycleIn_above round above, ?_, ?_⟩
    · constructor
      · intro zero
        linarith
      · intro zero
        norm_num at zero
    · exact ⟨fun _ => by norm_num, fun _ => by linarith⟩
  · rcases lt_or_ge q (-140) with below | low
    · refine ⟨-140, le_rfl, by norm_num, dutyCycleIn_below round below, ?_, ?_⟩
      · constructor
        · intro zero
          linarith
        · intro zero
          norm_num at zero
      · constructor
        · intro positive
          linarith
        · intro positive
          norm_num at positive
    · exact ⟨q, low, high, rfl, Iff.rfl, Iff.rfl⟩

theorem div_140 (c : ℚ) : Dbl.fin c / 140.0 = .fin (c / 140) := by
  change (if (140.0 : ℚ) ≠ 0 then Dbl.fin (c / 140.0) else _) = _
  rw [if_pos (by norm_num)]
  norm_num

/-- The duty cycles of a stop, of a turn back and of one forth. -/
theorem dutyCycleIn_within (low : -140 ≤ c) (high : c ≤ 140) :
    dutyCycleIn round (.fin c) =
      if c = 0 then .fin 7.5
      else if c < 0 then round (round (.fin 7.4) + round (.fin (c / 140)))
      else round (round (.fin 7.6) + round (.fin (c / 140))) := by
  unfold dutyCycleIn
  rw [neg_maxSpeed_eq, maxSpeed_eq, if_neg (show ¬Dbl.fin 140 < Dbl.fin c from not_lt.mpr high)]
  dsimp only
  rw [if_neg (show ¬Dbl.fin c < Dbl.fin (-140) from not_lt.mpr low), div_140]
  by_cases zero : c = 0
  · rw [if_pos zero, if_pos (by rw [zero, Dbl.zero_eq])]
    rfl
  · have other : Dbl.fin c ≠ 0 := by
      rw [Dbl.zero_eq]
      exact fun same => zero (Dbl.fin.inj same)
    rw [if_neg zero, if_neg other]
    by_cases negative : c < 0
    · rw [if_pos negative, if_pos (show Dbl.fin c < 0 from negative)]
      rfl
    · rw [if_neg negative, if_neg (show ¬Dbl.fin c < 0 from negative)]
      rfl

end Cut

/-! ## Without rounding -/

/-- A duty cycle the servo understands. -/
def InBand (d : Dbl) : Prop := ∃ q, d = .fin q ∧ 6.4 ≤ q ∧ q ≤ 8.6

theorem dutyCycle_inBand {u : Dbl} (real : u.IsReal) : InBand (dutyCycle u) := by
  obtain ⟨q, rfl⟩ := real
  obtain ⟨c, low, high, same, -, -⟩ := dutyCycleIn_cut id q
  rw [← dutyCycleIn_id, same, dutyCycleIn_within id low high]
  split
  · exact ⟨7.5, rfl, by norm_num, by norm_num⟩
  · split
    · exact ⟨7.4 + c / 140, rfl, by linarith, by linarith⟩
    · exact ⟨7.6 + c / 140, rfl, by linarith, by linarith⟩

/-! ## In doubles, as a float -/

/-- The duty cycle of the share `turn` of the greatest speed, on the side of `base`. -/
def turnDuty (base turn : ℚ) : ℚ := single.near (double.near (double.near base + turn))

theorem turnDuty_mono (base : ℚ) {turn turn' : ℚ} (ordered : turn ≤ turn') :
    turnDuty base turn ≤ turnDuty base turn' := by
  have sum : double.near (double.near base + turn) ≤ double.near (double.near base + turn') :=
    near_mono (by linarith)
  exact near_mono sum

theorem single_double_turn {base turn : ℚ} (inBase : |base| ≤ 8) (inTurn : |turn| ≤ 1) :
    single.round (double.round (double.round (.fin base) + double.round (.fin turn))) =
      .fin (turnDuty base (double.near turn)) := by
  have base' : |base| ≤ (8 : Nat) := inBase
  have turn' : |turn| ≤ (1 : Nat) := inTurn.trans (by norm_num)
  have roundedBase := abs_near_le (f := double) base' (by decide)
  have roundedTurn := abs_near_le (f := double) turn' (by decide)
  have bounded : |double.near base + double.near turn| ≤ (9 : Nat) := by
    refine (abs_add_le _ _).trans ?_
    push_cast at roundedBase roundedTurn ⊢
    linarith
  have sum : Dbl.fin (double.near base) + Dbl.fin (double.near turn) =
      .fin (double.near base + double.near turn) := rfl
  rw [round_fin base' (by decide), round_fin turn' (by decide), sum,
    round_fin bounded (by decide), round_fin (abs_near_le bounded (by decide)) (by decide)]
  rfl

/-- Each way a turn is a share of the greatest one. -/
theorem floatDuty_fin (q : ℚ) :
    (q = 0 ∧ floatDuty (.fin q) = .fin 7.5) ∨
      (0 < q ∧ ∃ turn, 0 ≤ turn ∧ turn ≤ 1 ∧ floatDuty (.fin q) = .fin (turnDuty 7.6 turn)) ∨
      (q < 0 ∧ ∃ turn, -1 ≤ turn ∧ turn ≤ 0 ∧
        floatDuty (.fin q) = .fin (turnDuty 7.4 turn)) := by
  obtain ⟨c, low, high, same, isZero, isPositive⟩ := dutyCycleIn_cut double.round q
  have inTurn : |c / 140| ≤ 1 := abs_le.mpr ⟨by linarith, by linarith⟩
  obtain ⟨least, most⟩ :=
    abs_le.mp (abs_near_le (f := double) (n := 1) (by simpa using inTurn) (by decide))
  push_cast at least most
  rw [floatDuty, same, dutyCycleIn_within double.round low high]
  rcases lt_trichotomy c 0 with negative | rfl | positive
  · have notZero : q ≠ 0 := fun zero => negative.ne (isZero.mp zero)
    have notPositive : ¬0 < q := fun positive => negative.not_gt (isPositive.mp positive)
    have nonpos : double.near (c / 140) ≤ double.near 0 := near_mono (by linarith)
    rw [near_zero] at nonpos
    refine Or.inr (Or.inr ⟨lt_of_le_of_ne (not_lt.mp notPositive) notZero, _, least, nonpos, ?_⟩)
    rw [if_neg negative.ne, if_pos negative]
    exact single_double_turn (by norm_num) inTurn
  · refine Or.inl ⟨isZero.mpr rfl, ?_⟩
    rw [if_pos rfl]
    decide +kernel
  · have nonneg : 0 ≤ double.near (c / 140) := near_nonneg (by linarith)
    refine Or.inr (Or.inl ⟨isPositive.mpr positive, _, nonneg, most, ?_⟩)
    rw [if_neg positive.ne', if_neg positive.not_gt]
    exact single_double_turn (by norm_num) inTurn

end ProjectOwl.Beagle
