import Mathlib.Algebra.Order.Ring.Rat
import Mathlib.Algebra.Order.Group.Unbundled.Abs

/-! # Doubles without rounding

Rationals with the special values of IEEE 754: infinities, and a not-a-number
that every operation keeps and every comparison refuses.  There is one zero, and
it counts as positive where a quotient by it has a sign. -/

set_option autoImplicit false

inductive Dbl where
  | nan
  | inf (negative : Bool)
  | fin (q : ℚ)
  deriving DecidableEq, Repr

namespace Dbl

instance (n : Nat) : OfNat Dbl n := ⟨fin n⟩

instance : OfScientific Dbl :=
  ⟨fun mantissa negative exponent => fin (OfScientific.ofScientific mantissa negative exponent)⟩

theorem zero_eq : (0 : Dbl) = fin 0 := rfl

def neg : Dbl → Dbl
  | nan => nan
  | inf negative => inf (!negative)
  | fin q => fin (-q)

def add : Dbl → Dbl → Dbl
  | fin p, fin q => fin (p + q)
  | inf a, inf b => if a = b then inf a else nan
  | inf a, fin _ => inf a
  | fin _, inf b => inf b
  | _, _ => nan

def mul : Dbl → Dbl → Dbl
  | fin p, fin q => fin (p * q)
  | inf a, inf b => inf (a ^^ b)
  | inf a, fin q => if q = 0 then nan else inf (a ^^ decide (q < 0))
  | fin p, inf b => if p = 0 then nan else inf (decide (p < 0) ^^ b)
  | _, _ => nan

def div : Dbl → Dbl → Dbl
  | fin p, fin q => if q ≠ 0 then fin (p / q) else if p = 0 then nan else inf (decide (p < 0))
  | inf a, fin q => inf (a ^^ decide (q < 0))
  | fin _, inf _ => fin 0
  | _, _ => nan

instance : Neg Dbl := ⟨neg⟩
instance : Add Dbl := ⟨add⟩
instance : Sub Dbl := ⟨fun x y => x + -y⟩
instance : Mul Dbl := ⟨mul⟩
instance : Div Dbl := ⟨div⟩

/-- `fabs`. -/
def fabs : Dbl → Dbl
  | nan => nan
  | inf _ => inf false
  | fin q => fin |q|

/-- `sqrt`, with the square root of a rational that is not negative given by `root`. -/
def sqrt (root : ℚ → ℚ) : Dbl → Dbl
  | fin q => if q < 0 then nan else fin (root q)
  | inf false => inf false
  | _ => nan

def Less : Dbl → Dbl → Prop
  | fin p, fin q => p < q
  | inf true, fin _ => True
  | fin _, inf false => True
  | inf true, inf false => True
  | _, _ => False

instance : LT Dbl := ⟨Less⟩

instance : DecidableRel Less
  | fin p, fin q => inferInstanceAs (Decidable (p < q))
  | inf true, fin _ => .isTrue trivial
  | fin _, inf false => .isTrue trivial
  | inf true, inf false => .isTrue trivial
  | nan, _ => .isFalse id
  | fin _, nan => .isFalse id
  | fin _, inf true => .isFalse id
  | inf false, _ => .isFalse id
  | inf true, nan => .isFalse id
  | inf true, inf true => .isFalse id

instance (x y : Dbl) : Decidable (x < y) := inferInstanceAs (Decidable (Less x y))

/-! ## Real numbers -/

/-- Neither an infinity nor a not-a-number. -/
def IsReal (x : Dbl) : Prop := ∃ q, x = fin q

section IsReal
variable {x y : Dbl}

theorem isReal_fin (q : ℚ) : IsReal (fin q) := ⟨q, rfl⟩

theorem IsReal.neg (hx : x.IsReal) : (-x).IsReal := by
  obtain ⟨p, rfl⟩ := hx
  exact ⟨-p, rfl⟩

theorem IsReal.add (hx : x.IsReal) (hy : y.IsReal) : (x + y).IsReal := by
  obtain ⟨p, rfl⟩ := hx
  obtain ⟨q, rfl⟩ := hy
  exact ⟨p + q, rfl⟩

theorem IsReal.sub (hx : x.IsReal) (hy : y.IsReal) : (x - y).IsReal := hx.add hy.neg

theorem IsReal.mul (hx : x.IsReal) (hy : y.IsReal) : (x * y).IsReal := by
  obtain ⟨p, rfl⟩ := hx
  obtain ⟨q, rfl⟩ := hy
  exact ⟨p * q, rfl⟩

theorem IsReal.div (hx : x.IsReal) {q : ℚ} (nonzero : q ≠ 0) : (x / fin q).IsReal := by
  obtain ⟨p, rfl⟩ := hx
  refine ⟨p / q, ?_⟩
  change (if q ≠ 0 then fin (p / q) else _) = _
  rw [if_pos nonzero]

end IsReal

end Dbl
