import Mathlib.Algebra.Order.Field.Rat
import Mathlib.Algebra.Order.Ring.Abs
import Mathlib.Tactic.Linarith
import Mathlib.Tactic.Positivity
import Mathlib.Tactic.NormNum

/-! Integers of any size next to floating-point numbers, and what becomes of them
in mixed arithmetic.

Finite numbers are exact, as if nothing were rounded, but too large ones become
infinite; an integer that is too large for a float raises an error instead.
-/

set_option autoImplicit false

namespace Numbers

/-- From here on a number is rounded to an infinity. -/
def overflow : ℚ := 2 ^ 1024 - 2 ^ 970

theorem overflow_lt : overflow < 2 ^ 1024 := sub_lt_self _ (by positivity)

theorem lt_overflow : 2 ^ 1023 < overflow := by
  have double : (2 : ℚ) ^ 1024 = 2 ^ 1023 * 2 := pow_succ 2 1023
  have less : (2 : ℚ) ^ 970 < 2 ^ 1023 := pow_lt_pow_right₀ (by norm_num) (by norm_num)
  rw [overflow, double]
  generalize (2 : ℚ) ^ 1023 = half, (2 : ℚ) ^ 970 = rest at less ⊢
  linarith

theorem small_of_le {value : ℚ} (bound : |value| ≤ 1024) : |value| < overflow := by
  have power : (2 : ℚ) ^ 10 ≤ 2 ^ 1023 := pow_le_pow_right₀ (by norm_num) (by norm_num)
  have same : (2 : ℚ) ^ 10 = 1024 := by norm_num
  exact (bound.trans (same.symm.le.trans power)).trans_lt lt_overflow

inductive Floating where
  | finite (value : ℚ) (small : |value| < overflow)
  | infinity (negative : Bool)
  | nan
  deriving DecidableEq

namespace Floating

def ofExact (value : ℚ) : Floating :=
  if small : |value| < overflow then .finite value small else .infinity (value < 0)

def neg : Floating → Floating
  | .finite value small => .finite (-value) (by rwa [abs_neg])
  | .infinity negative => .infinity !negative
  | .nan => .nan

def add : Floating → Floating → Floating
  | .finite a _, .finite b _ => ofExact (a + b)
  | .nan, _ | _, .nan => .nan
  | .infinity a, .infinity b => if a = b then .infinity a else .nan
  | .infinity a, .finite _ _ => .infinity a
  | .finite _ _, .infinity b => .infinity b

def mul : Floating → Floating → Floating
  | .finite a _, .finite b _ => ofExact (a * b)
  | .nan, _ | _, .nan => .nan
  | .infinity a, .infinity b => .infinity (a != b)
  | .infinity a, .finite b _ => if b = 0 then .nan else .infinity (a != decide (b < 0))
  | .finite a _, .infinity b => if a = 0 then .nan else .infinity (decide (a < 0) != b)

def IsFinite : Floating → Prop
  | .finite _ _ => True
  | .infinity _ | .nan => False

instance (value : Floating) : Decidable value.IsFinite := by
  cases value <;> unfold IsFinite <;> infer_instance

theorem ofExact_small {value : ℚ} (small : |value| < overflow) : ofExact value = .finite value small := dif_pos small

theorem ofExact_ne_nan (value : ℚ) : ofExact value ≠ .nan := by
  unfold ofExact
  split <;> simp

theorem add_finite_ne_nan {first second : Floating} (finite : first.IsFinite) (number : second ≠ .nan) :
    first.add second ≠ .nan := by
  cases first with
  | infinity | nan => exact finite.elim
  | finite a _ =>
    cases second with
    | finite b _ => exact ofExact_ne_nan _
    | infinity => simp [add]
    | nan => exact absurd rfl number

theorem mul_finite_ne_nan {first second : Floating} (left : first.IsFinite) (right : second.IsFinite) :
    first.mul second ≠ .nan := by
  cases first with
  | infinity | nan => exact left.elim
  | finite a _ =>
    cases second with
    | infinity | nan => exact right.elim
    | finite b _ => exact ofExact_ne_nan _

end Floating

inductive Number where
  | int (value : ℤ)
  | float (value : Floating)
  deriving DecidableEq

inductive Fault where
  | overflowError
  | valueError
  deriving DecidableEq

namespace Number

/-- The float that an operand is taken for next to a float. -/
def toFloat : Number → Except Fault Floating
  | .int value =>
    if small : |(value : ℚ)| < overflow then .ok (.finite value small) else .error .overflowError
  | .float value => .ok value

def neg : Number → Number
  | .int value => .int (-value)
  | .float value => .float value.neg

def add : Number → Number → Except Fault Number
  | .int a, .int b => .ok (.int (a + b))
  | first, second => do return .float ((← first.toFloat).add (← second.toFloat))

def sub (first second : Number) : Except Fault Number := first.add second.neg

def mul : Number → Number → Except Fault Number
  | .int a, .int b => .ok (.int (a * b))
  | first, second => do return .float ((← first.toFloat).mul (← second.toFloat))

/-- The comparison is exact, and nothing is less than NaN or greater. -/
def less : Number → Number → Bool
  | .float .nan, _ | _, .float .nan => false
  | .float (.infinity a), .float (.infinity b) => a && !b
  | .float (.infinity negative), .int _ | .float (.infinity negative), .float (.finite _ _) => negative
  | .int _, .float (.infinity negative) | .float (.finite _ _), .float (.infinity negative) => !negative
  | .int a, .int b => a < b
  | .int a, .float (.finite b _) => (a : ℚ) < b
  | .float (.finite a _), .int b => a < (b : ℚ)
  | .float (.finite a _), .float (.finite b _) => a < b

/-- `min` of two, the first unless the second is less. -/
def min (first second : Number) : Number := if second.less first then second else first

/-- It is a finite number that a float can hold. -/
def Ordinary : Number → Prop
  | .int value => |(value : ℚ)| < overflow
  | .float value => value.IsFinite

instance (number : Number) : Decidable number.Ordinary := by
  cases number <;> unfold Ordinary <;> infer_instance

theorem toFloat_of_ordinary {number : Number} (ordinary : number.Ordinary) :
    ∃ value small, number.toFloat = .ok (.finite value small) := by
  cases number with
  | int value => exact ⟨value, ordinary, dif_pos ordinary⟩
  | float value =>
    cases value with
    | finite value small => exact ⟨value, small, rfl⟩
    | infinity | nan => exact ordinary.elim

theorem mul_float (first : Number) (second : Floating) :
    first.mul (.float second) = first.toFloat.map fun value => .float (value.mul second) := by
  have same : first.mul (.float second) = do return .float ((← first.toFloat).mul second) := by
    cases first <;> rfl
  rw [same]
  cases first.toFloat <;> rfl

theorem float_mul (first : Floating) (second : Number) :
    (Number.float first).mul second = second.toFloat.map fun value => .float (first.mul value) := by
  have same : (Number.float first).mul second = do return .float (first.mul (← second.toFloat)) := by
    cases second <;> rfl
  rw [same]
  cases second.toFloat <;> rfl

theorem add_float (first : Number) (second : Floating) :
    first.add (.float second) = first.toFloat.map fun value => .float (value.add second) := by
  have same : first.add (.float second) = do return .float ((← first.toFloat).add second) := by
    cases first <;> rfl
  rw [same]
  cases first.toFloat <;> rfl

theorem two_pow_small_iff (exponent : Nat) : |((2 ^ exponent : ℤ) : ℚ)| < overflow ↔ exponent < 1024 := by
  have same : |((2 ^ exponent : ℤ) : ℚ)| = 2 ^ exponent := by
    push_cast
    exact abs_of_pos (by positivity)
  rw [same]
  constructor
  · intro small
    by_contra large
    have power : (2 : ℚ) ^ 1024 ≤ 2 ^ exponent := pow_le_pow_right₀ (by norm_num) (Nat.not_lt.mp large)
    exact absurd (power.trans_lt (small.trans overflow_lt)) (lt_irrefl _)
  · intro early
    have power : (2 : ℚ) ^ exponent ≤ 2 ^ 1023 := pow_le_pow_right₀ (by norm_num) (by omega)
    exact power.trans_lt lt_overflow

end Number

end Numbers
