import Mathlib.Algebra.BigOperators.Group.List.Basic
import Mathlib.Algebra.Order.Floor.Ring
import Mathlib.Algebra.Order.Floor.Semifield
import Mathlib.Data.Nat.Cast.Order.Ring
import Mathlib.Data.Rat.Floor
import Mathlib.Tactic.FieldSimp
import Mathlib.Tactic.Linarith
import Mathlib.Tactic.Positivity
import Mathlib.Tactic.Ring

set_option autoImplicit false

namespace Exact

/-- A double whose finite values are exact rationals. Rounding is left out; the
special values that a division by zero produces are kept. -/
inductive Double where
  | nan
  | infinite (negative : Bool)
  | finite (value : ℚ)
  deriving DecidableEq, Repr

namespace Double

instance : Inhabited Double := ⟨finite 0⟩
instance : Zero Double := ⟨finite 0⟩
instance : One Double := ⟨finite 1⟩
instance : NatCast Double := ⟨fun n => finite n⟩

def add : Double → Double → Double
  | nan, _ => nan
  | _, nan => nan
  | infinite s, infinite t => if s = t then infinite s else nan
  | infinite s, finite _ => infinite s
  | finite _, infinite t => infinite t
  | finite x, finite y => finite (x + y)

def mul : Double → Double → Double
  | nan, _ => nan
  | _, nan => nan
  | infinite s, infinite t => infinite (s != t)
  | infinite s, finite y => if y = 0 then nan else infinite (s != decide (y < 0))
  | finite x, infinite t => if x = 0 then nan else infinite (decide (x < 0) != t)
  | finite x, finite y => finite (x * y)

def div : Double → Double → Double
  | nan, _ => nan
  | _, nan => nan
  | infinite _, infinite _ => nan
  | infinite s, finite y => infinite (s != decide (y < 0))
  | finite _, infinite _ => finite 0
  | finite x, finite y =>
      if y = 0 then (if x = 0 then nan else infinite (decide (x < 0))) else finite (x / y)

instance : Add Double := ⟨add⟩
instance : Mul Double := ⟨mul⟩
instance : Div Double := ⟨div⟩

/-- `x > y`: no comparison with a NaN holds. -/
def exceeds : Double → Double → Bool
  | finite x, finite y => decide (y < x)
  | infinite s, infinite t => !s && t
  | infinite s, finite _ => !s
  | finite _, infinite t => t
  | _, _ => false

/-- `if (x)`: every value but zero. -/
def truthy : Double → Bool
  | finite x => decide (x ≠ 0)
  | _ => true

/-- Conversion to an unsigned word, which truncates. The language leaves the
conversion of a negative or special value open; here it gives zero. -/
def toUnsigned : Double → ℕ
  | finite x => ⌊x⌋₊
  | _ => 0

def ceil : Double → Double
  | finite x => finite ⌈x⌉
  | x => x

theorem zero_def : (0 : Double) = finite 0 := rfl
theorem natCast_def (n : ℕ) : (n : Double) = finite n := rfl

@[simp] theorem finite_add (x y : ℚ) : finite x + finite y = finite (x + y) := rfl
@[simp] theorem finite_mul (x y : ℚ) : finite x * finite y = finite (x * y) := rfl

theorem finite_div (x y : ℚ) (nonzero : y ≠ 0) : finite x / finite y = finite (x / y) := by
  change div _ _ = _
  simp only [div, nonzero, ↓reduceIte]

@[simp] theorem exceeds_finite (x y : ℚ) : exceeds (finite x) (finite y) = decide (y < x) := rfl

@[simp] theorem truthy_finite (x : ℚ) : truthy (finite x) = decide (x ≠ 0) := rfl

@[simp] theorem toUnsigned_finite (x : ℚ) : toUnsigned (finite x) = ⌊x⌋₊ := rfl

@[simp] theorem ceil_finite (x : ℚ) : ceil (finite x) = finite ⌈x⌉ := rfl

@[simp] theorem toUnsigned_natCast (n : ℕ) : toUnsigned (n : Double) = n := by
  simp only [natCast_def, toUnsigned_finite, Nat.floor_natCast]

theorem natCast_injective (m n : ℕ) (same : (m : Double) = n) : m = n := by
  simpa only [toUnsigned_natCast] using congrArg toUnsigned same

protected theorem add_comm (x y : Double) : x + y = y + x := by
  change add x y = add y x
  cases x <;> cases y <;> simp only [add, Rat.add_comm]
  rename_i s t
  cases s <;> cases t <;> rfl

protected theorem add_assoc (x y z : Double) : x + y + z = x + (y + z) := by
  change add (add x y) z = add x (add y z)
  cases x <;> cases y <;> cases z <;> simp only [add, Rat.add_assoc]
  all_goals grind [add]

protected theorem zero_add (x : Double) : 0 + x = x := by
  cases x with
  | finite x => exact congrArg finite (Rat.zero_add x)
  | nan => rfl
  | infinite s => rfl

/-- Exact addition stays commutative and associative at the special values, so
sums may be regrouped without knowing that their terms are finite. -/
instance : AddCommMonoidWithOne Double where
  add_assoc := Double.add_assoc
  zero_add := Double.zero_add
  add_zero x := (Double.add_comm x 0).trans (Double.zero_add x)
  add_comm := Double.add_comm
  nsmul := nsmulRec
  natCast_zero := congrArg finite Nat.cast_zero
  natCast_succ n := congrArg finite (Nat.cast_succ n)

theorem natCast_mul (m n : ℕ) : ((m * n : ℕ) : Double) = (m : Double) * n :=
  congrArg finite (Nat.cast_mul m n)

theorem natCast_div (m n : ℕ) (positive : 0 < n) :
    (m : Double) / (n : Double) = finite ((m : ℚ) / n) :=
  finite_div m n (Nat.cast_ne_zero.mpr (Nat.ne_of_gt positive))

/-- Scaling the divisor down is scaling the dividend up, a zero divisor included. -/
theorem natCast_div_div (m n k : ℕ) (positive : 0 < k) :
    (m : Double) / ((n : Double) / (k : Double)) = ((m * k : ℕ) : Double) / (n : Double) := by
  have scale : (k : ℚ) ≠ 0 := Nat.cast_ne_zero.mpr (Nat.ne_of_gt positive)
  rw [natCast_div n k positive, natCast_def, natCast_def, natCast_def]
  change div _ _ = div _ _
  rcases Nat.eq_zero_or_pos n with rfl | inside
  · rcases Nat.eq_zero_or_pos m with rfl | large
    · simp [div]
    · have both : 0 < (m : ℚ) * k := by positivity
      have left : (0 : ℚ) < m := by positivity
      simp [div, left.ne', both.ne', not_lt.mpr left.le, both.le]
  · have divisor : (n : ℚ) ≠ 0 := Nat.cast_ne_zero.mpr (Nat.ne_of_gt inside)
    have quotient : (n : ℚ) / k ≠ 0 := div_ne_zero divisor scale
    simp only [div, divisor, quotient, ↓reduceIte, finite.injEq, Nat.cast_mul]
    field_simp

/-- A relative excess `a / b * 100 > t` of naturals; at `b = 0` the quotient is
infinite unless `a` is zero too. -/
theorem exceeds_percentage (a b : ℕ) (t : ℚ) :
    exceeds ((a : Double) / (b : Double) * ((100 : ℕ) : Double)) (finite t) =
      if b = 0 then decide (a ≠ 0) else decide (t * b < 100 * a) := by
  rw [natCast_def 100, Nat.cast_ofNat]
  rcases Nat.eq_zero_or_pos b with rfl | positive
  · rcases Nat.eq_zero_or_pos a with rfl | large
    · rfl
    · have left : (0 : ℚ) < a := by positivity
      change exceeds (mul (div (finite a) (finite 0)) (finite 100)) (finite t) = _
      simp [div, mul, exceeds, left.ne', not_lt.mpr left.le, Nat.ne_of_gt large]
  · have divisor : (0 : ℚ) < b := by exact_mod_cast positive
    rw [natCast_div a b positive, finite_mul, exceeds_finite]
    simp only [Nat.ne_of_gt positive, ↓reduceIte, decide_eq_decide]
    rw [div_mul_eq_mul_div, lt_div_iff₀ divisor, mul_comm (a : ℚ)]

end Double

end Exact
