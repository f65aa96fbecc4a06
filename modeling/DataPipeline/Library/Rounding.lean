import Mathlib.Data.Rat.Floor
import Mathlib.Algebra.Order.Field.Rat
import Mathlib.Tactic.Linarith
import Mathlib.Tactic.Ring
import Mathlib.Tactic.Positivity
import Mathlib.Tactic.FieldSimp
import Mathlib.Data.Nat.Prime.Basic

/-! Rounding numbers to decimals.

Roundings to the nearest differ only in where they send what lies half-way
between two numbers, which is a choice depending on the lower one. The sign
plays no part in it.
-/

set_option autoImplicit false

namespace Rounding

/-- The nearest natural number; `up` tells whether half-way above a number goes up. -/
def nearest (up : Nat → Bool) (magnitude : ℚ) : Nat :=
  let whole := ⌊magnitude⌋₊
  if magnitude - whole < 1 / 2 then whole
  else if 1 / 2 < magnitude - whole then whole + 1
  else if up whole then whole + 1 else whole

/-- Half-way goes to the even neighbour, as in `round` of Python. -/
def toEven (whole : Nat) : Bool := whole % 2 = 1

/-- Half-way goes away from zero, as in `ROUND` of a numeric. -/
def awayFromZero (_ : Nat) : Bool := true

def toDecimals (up : Nat → Bool) (digits : Nat) (value : ℚ) : ℚ :=
  (if value < 0 then -1 else 1) * nearest up (|value| * 10 ^ digits) / 10 ^ digits

variable {up : Nat → Bool} {magnitude value : ℚ} {n m digits : Nat}

/-! ## What is rounded to a number -/

/-- Less than a half away, or half-way and sent here. -/
def Cell (up : Nat → Bool) (n : Nat) (magnitude : ℚ) : Prop :=
  ((n : ℚ) - 1 / 2 < magnitude ∨ (magnitude = n - 1 / 2 ∧ up (n - 1) = true)) ∧
  (magnitude < n + 1 / 2 ∨ (magnitude = n + 1 / 2 ∧ up n = false))

theorem cell_nearest (nonneg : 0 ≤ magnitude) : Cell up (nearest up magnitude) magnitude := by
  have lower := Nat.floor_le nonneg
  have upper := Nat.lt_floor_add_one magnitude
  unfold nearest Cell
  generalize ⌊magnitude⌋₊ = whole at lower upper ⊢
  dsimp only
  split
  next below => exact ⟨.inl (by linarith), .inl (by linarith)⟩
  next notBelow =>
    split
    next above => exact ⟨.inl (by push_cast; linarith), .inl (by push_cast; linarith)⟩
    next notAbove =>
      have halfway : magnitude = whole + 1 / 2 := by linarith
      split
      next goesUp => exact ⟨.inr ⟨by push_cast; linarith, goesUp⟩, .inl (by push_cast; linarith)⟩
      next goesDown => exact ⟨.inl (by linarith), .inr ⟨halfway, by simpa using goesDown⟩⟩

theorem Cell.le (first : Cell up n magnitude) (second : Cell up m magnitude) : n ≤ m := by
  by_contra greater
  have apart : (m : ℚ) + 1 ≤ n := by exact_mod_cast Nat.lt_of_not_le greater
  -- Two cells can only meet half-way, which belongs to one of them.
  rcases first.1 with beyond | ⟨start, goesUp⟩
  · rcases second.2 with before | ⟨stop, -⟩ <;> linarith
  · rcases second.2 with before | ⟨stop, goesDown⟩
    · linarith
    · have next : n = m + 1 := by
        have : (n : ℚ) = m + 1 := by linarith
        exact_mod_cast this
      rw [next, Nat.add_sub_cancel, goesDown] at goesUp
      cases goesUp

theorem nearest_eq_iff (nonneg : 0 ≤ magnitude) : nearest up magnitude = n ↔ Cell up n magnitude := by
  constructor
  · rintro rfl
    exact cell_nearest nonneg
  · intro cell
    have own : Cell up (nearest up magnitude) magnitude := cell_nearest nonneg
    exact le_antisymm (own.le cell) (cell.le own)

/-- The two roundings differ half-way above an even number. -/
theorem nearest_agree_iff (nonneg : 0 ≤ magnitude) :
    nearest awayFromZero magnitude = nearest toEven magnitude ↔ ∀ k : Nat, magnitude ≠ 2 * k + 1 / 2 := by
  rw [nearest_eq_iff nonneg]
  have own : Cell toEven (nearest toEven magnitude) magnitude := cell_nearest nonneg
  generalize nearest toEven magnitude = n at own
  constructor
  · rintro ⟨-, before⟩ k halfway
    have even : Cell toEven (2 * k) magnitude := by
      refine ⟨.inl (by push_cast; linarith), .inr ⟨by push_cast; linarith, ?_⟩⟩
      simp [toEven]
    have same : n = 2 * k := le_antisymm (own.le even) (even.le own)
    rcases before with before | ⟨-, down⟩
    · rw [same] at before
      push_cast at before
      linarith
    · cases down
  · intro apart
    refine ⟨own.1.imp_right fun ⟨start, _⟩ => ⟨start, rfl⟩, ?_⟩
    rcases own.2 with before | ⟨stop, down⟩
    · exact .inl before
    · have even : n % 2 = 0 := by simpa [toEven] using down
      refine absurd ?_ (apart (n / 2))
      have twice : (n : ℚ) = 2 * (n / 2 : Nat) := by exact_mod_cast (by omega : n = 2 * (n / 2))
      rw [stop, ← twice]

/-! ## Decimals -/

@[simp] theorem toDecimals_zero (up : Nat → Bool) (digits : Nat) : toDecimals up digits 0 = 0 := by
  simp [toDecimals, nearest]

theorem toDecimals_agree_iff (nonneg : 0 ≤ value) :
    toDecimals awayFromZero digits value = toDecimals toEven digits value ↔
      ∀ k : Nat, value * 10 ^ digits ≠ 2 * k + 1 / 2 := by
  have scale : (10 : ℚ) ^ digits ≠ 0 := by positivity
  rw [← nearest_agree_iff (by positivity), toDecimals, toDecimals, abs_of_nonneg nonneg, if_neg (not_lt.mpr nonneg),
    one_mul, one_mul, div_left_inj' scale]
  exact Nat.cast_inj

theorem toDecimals_meet_iff {choice : Nat → Bool} {other : ℚ} (sameSign : value < 0 ↔ other < 0) :
    (toDecimals up digits value ≠ 0 ∧ toDecimals up digits value = toDecimals choice digits other) ↔
      ∃ n : Nat, 0 < n ∧ Cell up n (|value| * 10 ^ digits) ∧ Cell choice n (|other| * 10 ^ digits) := by
  have scale : (10 : ℚ) ^ digits ≠ 0 := by positivity
  have sign : (if value < 0 then -1 else 1 : ℚ) ≠ 0 := by split <;> norm_num
  have scaled : ∀ number : ℚ, 0 ≤ |number| * 10 ^ digits := fun number => by positivity
  rw [toDecimals, toDecimals, ← if_congr sameSign rfl rfl, div_left_inj' scale, mul_right_inj' sign, Nat.cast_inj,
    ne_eq, div_eq_zero_iff, mul_eq_zero, Nat.cast_eq_zero]
  simp only [sign, scale, false_or, or_false]
  constructor
  · rintro ⟨positive, same⟩
    refine ⟨_, Nat.pos_of_ne_zero positive, cell_nearest (scaled value), ?_⟩
    rw [same]
    exact cell_nearest (scaled other)
  · rintro ⟨n, positive, cell, otherCell⟩
    rw [(nearest_eq_iff (scaled value)).mpr cell, (nearest_eq_iff (scaled other)).mpr otherCell]
    exact ⟨Nat.pos_iff_ne_zero.mp positive, rfl⟩

/-! ## Fractions -/

theorem toDecimals_near (nonneg : 0 ≤ value) :
    |toDecimals up digits value - value| * 10 ^ digits ≤ 1 / 2 := by
  have scale : (0 : ℚ) < 10 ^ digits := by positivity
  have own : Cell up (nearest up (value * 10 ^ digits)) (value * 10 ^ digits) := cell_nearest (by positivity)
  have shown : toDecimals up digits value * 10 ^ digits = nearest up (value * 10 ^ digits) := by
    rw [toDecimals, abs_of_nonneg nonneg, if_neg (not_lt.mpr nonneg), one_mul, div_mul_cancel₀ _ scale.ne']
  have lower : (nearest up (value * 10 ^ digits) : ℚ) - 1 / 2 ≤ value * 10 ^ digits := by
    rcases own.1 with beyond | ⟨start, -⟩
    · exact beyond.le
    · exact start.ge
  have upper : value * 10 ^ digits ≤ (nearest up (value * 10 ^ digits) : ℚ) + 1 / 2 := by
    rcases own.2 with before | ⟨stop, -⟩
    · exact before.le
    · exact stop.le
  rw [← abs_of_pos scale, ← abs_mul, sub_mul, shown, abs_le]
  constructor <;> linarith

theorem toDecimals_fraction_inj {choice : Nat → Bool} {i j : Nat} (positive : 0 < m) (small : m < 10 ^ digits)
    (same : toDecimals up digits ((i : ℚ) / m) = toDecimals choice digits ((j : ℚ) / m)) : i = j := by
  have denominator : (0 : ℚ) < m := Nat.cast_pos.mpr positive
  have first : |toDecimals up digits ((i : ℚ) / m) - i / m| * 10 ^ digits ≤ 1 / 2 := toDecimals_near (by positivity)
  have second : |toDecimals choice digits ((j : ℚ) / m) - j / m| * 10 ^ digits ≤ 1 / 2 :=
    toDecimals_near (by positivity)
  have fine : (m : ℚ) < 10 ^ digits := by exact_mod_cast small
  rw [same] at first
  generalize toDecimals choice digits ((j : ℚ) / m) = rounded at first second
  by_contra different
  -- Different numerators are at least one apart.
  have apart : (1 : ℚ) ≤ |(i : ℚ) - j| := by
    have integers : (1 : ℤ) ≤ |(i : ℤ) - j| := Int.one_le_abs (sub_ne_zero.mpr (by exact_mod_cast different))
    exact_mod_cast integers
  have triangle : |(i : ℚ) / m - j / m| ≤ |rounded - i / m| + |rounded - j / m| := by
    rw [abs_sub_comm rounded ((i : ℚ) / m)]
    exact abs_sub_le _ _ _
  have close : |(i : ℚ) / m - j / m| * 10 ^ digits ≤ 1 := by nlinarith
  rw [← sub_div, abs_div, abs_of_pos denominator, div_mul_eq_mul_div, div_le_one denominator] at close
  nlinarith

/-- The two roundings agree on all fractions of a denominator, unless one of them is half-way. -/
theorem fractions_agree_iff (positive : 0 < m) (digits : Nat) :
    (∀ i ≤ m, toDecimals awayFromZero digits ((i : ℚ) / m) = toDecimals toEven digits ((i : ℚ) / m)) ↔
      ¬ 2 ^ (digits + 1) ∣ m := by
  have denominator : (m : ℚ) ≠ 0 := Nat.cast_ne_zero.mpr positive.ne'
  have halfway : ∀ i k : Nat, (i : ℚ) / m * 10 ^ digits = 2 * k + 1 / 2 ↔
      2 ^ (digits + 1) * (5 ^ digits * i) = (4 * k + 1) * m := by
    intro i k
    have tens : (10 : ℚ) ^ digits = 2 ^ digits * 5 ^ digits := by rw [← mul_pow]; norm_num
    rw [div_mul_eq_mul_div, div_eq_iff denominator, tens, pow_succ, ← Nat.cast_inj (R := ℚ)]
    push_cast
    constructor
    · intro same
      linarith
    · intro same
      linarith
  have agree : ∀ i : Nat, toDecimals awayFromZero digits ((i : ℚ) / m) = toDecimals toEven digits ((i : ℚ) / m) ↔
      ∀ k : Nat, 2 ^ (digits + 1) * (5 ^ digits * i) ≠ (4 * k + 1) * m := by
    intro i
    rw [toDecimals_agree_iff (by positivity)]
    exact forall_congr' fun k => not_congr (halfway i k)
  simp only [agree]
  constructor
  · rintro apart ⟨n, rfl⟩
    -- A power of five is one more than a multiple of four.
    have remainder : 5 ^ digits % 4 = 1 := by rw [Nat.pow_mod]; norm_num
    have split : 5 ^ digits = 4 * (5 ^ digits / 4) + 1 := by omega
    refine apart n (Nat.le_mul_of_pos_left n (by positivity)) (5 ^ digits / 4) ?_
    rw [← split]
    ring
  · intro odd i _ k same
    apply odd
    have coprime : Nat.Coprime (2 ^ (digits + 1)) (4 * k + 1) := by
      apply Nat.Coprime.pow_left
      rw [Nat.coprime_two_left, Nat.odd_iff]
      omega
    exact coprime.dvd_of_dvd_mul_left ⟨_, same.symm⟩

end Rounding
