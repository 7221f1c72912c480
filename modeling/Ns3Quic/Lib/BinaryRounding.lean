import Mathlib.Algebra.Order.Ring.Nat
import Mathlib.Tactic.Linarith
import Mathlib.Tactic.Positivity
import Mathlib.Tactic.Ring

/-!
# Rounding to significant bits

A natural number is rounded to the nearest one with a given number of
significant bits, and a tie to the even one.  That is what a conversion to a
binary floating-point format does, and also a product of such numbers, whose
exponents only shift the result.  Exponents are unbounded.
-/

namespace BinaryRounding

def unit (precision value : Nat) : Nat := 2 ^ (value.log2 + 1 - precision)

def round (precision value : Nat) : Nat :=
  let unit := unit precision value
  if unit < 2 * (value % unit) ∨
      (unit = 2 * (value % unit) ∧ value / unit % 2 = 1) then
    (value / unit + 1) * unit
  else
    value / unit * unit

variable {precision value : Nat}

theorem unit_pos (precision value : Nat) : 0 < unit precision value :=
  Nat.two_pow_pos _

theorem round_near (precision value : Nat) :
    2 * round precision value ≤ 2 * value + unit precision value ∧
      2 * value ≤ 2 * round precision value + unit precision value := by
  have split := Nat.div_add_mod value (unit precision value)
  have rest := Nat.mod_lt value (unit_pos precision value)
  rw [Nat.mul_comm] at split
  unfold round
  dsimp only
  split
  next up =>
    rw [Nat.add_mul, Nat.one_mul]
    omega
  next down =>
    rw [not_or] at down
    omega

theorem round_of_log2_lt (exact : value.log2 < precision) : round precision value = value := by
  have one : unit precision value = 1 := by
    unfold unit
    rw [Nat.sub_eq_zero_of_le exact, Nat.pow_zero]
  unfold round
  rw [one]
  simp [Nat.mod_one]

theorem round_of_lt (bits : 0 < precision) (small : value < 2 ^ precision) :
    round precision value = value := by
  apply round_of_log2_lt
  obtain rfl | nonzero := Nat.eq_zero_or_pos value
  · exact bits
  · exact (Nat.log2_lt nonzero.ne').mpr small

theorem unit_le (inexact : precision ≤ value.log2) (positive : value ≠ 0) :
    2 ^ precision * unit precision value ≤ 2 * value := by
  unfold unit
  rw [← Nat.pow_add, Nat.add_sub_cancel' (Nat.le_succ_of_le inexact), Nat.pow_succ, Nat.mul_comm]
  exact Nat.mul_le_mul_left 2 (Nat.log2_self_le positive)

/-- The relative error of rounding is at most `2 ^ (-precision)`. -/
theorem round_relative (bits : 0 < precision) (value : Nat) :
    2 ^ precision * round precision value ≤ 2 ^ precision * value + value ∧
      2 ^ precision * value ≤ 2 ^ precision * round precision value + value := by
  rcases Nat.lt_or_ge value.log2 precision with exact | inexact
  · rw [round_of_log2_lt exact]
    exact ⟨Nat.le_add_right _ _, Nat.le_add_right _ _⟩
  · have positive : value ≠ 0 := by
      rintro rfl
      exact absurd inexact (Nat.not_le.mpr bits)
    have half := unit_le inexact positive
    obtain ⟨above, below⟩ := round_near precision value
    have above := Nat.mul_le_mul_left (2 ^ precision) above
    have below := Nat.mul_le_mul_left (2 ^ precision) below
    rw [Nat.mul_add, Nat.mul_left_comm, Nat.mul_left_comm (2 ^ precision) 2] at above below
    omega

theorem down_le_round (precision value : Nat) :
    value / unit precision value * unit precision value ≤ round precision value := by
  unfold round
  dsimp only
  split
  next => exact Nat.mul_le_mul_right _ (Nat.le_succ _)
  next => exact le_rfl

theorem le_round {head shift : Nat} (few : head < 2 ^ precision)
    (below : head * 2 ^ shift ≤ value) : head * 2 ^ shift ≤ round precision value := by
  refine le_trans ?_ (down_le_round precision value)
  obtain fine | coarse := Nat.lt_or_ge shift (value.log2 + 1 - precision)
  · -- the unit is larger than the number: the leading bit of the value is
    obtain rfl | positive := Nat.eq_zero_or_pos precision
    · have zero : head = 0 := Nat.lt_one_iff.mp few
      rw [zero, Nat.zero_mul]
      exact Nat.zero_le _
    have nonzero : value ≠ 0 := by
      rintro rfl
      rw [Nat.log2_zero] at fine
      omega
    have leading : 2 ^ value.log2 = 2 ^ (precision - 1) * unit precision value := by
      unfold unit
      rw [← Nat.pow_add]
      congr 1
      omega
    have small : head * 2 ^ shift ≤ 2 ^ value.log2 := by
      calc head * 2 ^ shift
          ≤ 2 ^ precision * 2 ^ shift := Nat.mul_le_mul_right _ few.le
        _ = 2 ^ (precision + shift) := (Nat.pow_add _ _ _).symm
        _ ≤ 2 ^ value.log2 := Nat.pow_le_pow_right (by decide) (by omega)
    refine small.trans ?_
    rw [leading]
    apply Nat.mul_le_mul_right
    rw [Nat.le_div_iff_mul_le (unit_pos _ _), ← leading]
    exact Nat.log2_self_le nonzero
  · have multiple : head * 2 ^ shift =
        head * 2 ^ (shift - (value.log2 + 1 - precision)) * unit precision value := by
      unfold unit
      rw [Nat.mul_assoc, ← Nat.pow_add, Nat.sub_add_cancel coarse]
    rw [multiple] at below ⊢
    apply Nat.mul_le_mul_right
    exact (Nat.le_div_iff_mul_le (unit_pos _ _)).mpr below

/-! ## Numbers with a scale -/

/-- The number `mantissa / 2 ^ scale`. -/
structure Scaled where
  mantissa : Nat
  scale : Nat
  deriving DecidableEq

namespace Scaled

def ofNat (precision value : Nat) : Scaled := ⟨round precision value, 0⟩

def add (precision : Nat) (left right : Scaled) : Scaled :=
  ⟨round precision (left.mantissa * 2 ^ right.scale + right.mantissa * 2 ^ left.scale),
    left.scale + right.scale⟩

def mul (precision : Nat) (left right : Scaled) : Scaled :=
  ⟨round precision (left.mantissa * right.mantissa), left.scale + right.scale⟩

/-- The quotient is taken with more bits than are kept, and its last bit says
whether it is inexact. -/
def div (precision : Nat) (left right : Scaled) : Scaled :=
  let numerator := left.mantissa * 2 ^ right.scale
  let denominator := right.mantissa * 2 ^ left.scale
  let shift := precision + denominator.log2 + 1
  let inexact := if numerator * 2 ^ shift % denominator = 0 then 0 else 1
  ⟨round precision (2 * (numerator * 2 ^ shift / denominator) + inexact), shift + 1⟩

def truncate (number : Scaled) : Nat := number.mantissa / 2 ^ number.scale

theorem le_truncate_add {left right : Scaled} {whole : Nat} (few : whole < 2 ^ precision)
    (below : whole * 2 ^ left.scale ≤ left.mantissa) :
    whole ≤ (add precision left right).truncate := by
  unfold truncate add
  rw [Nat.le_div_iff_mul_le (Nat.two_pow_pos _)]
  apply le_round few
  calc whole * 2 ^ (left.scale + right.scale)
      = whole * 2 ^ left.scale * 2 ^ right.scale := by rw [Nat.pow_add, Nat.mul_assoc]
    _ ≤ left.mantissa * 2 ^ right.scale := Nat.mul_le_mul_right _ below
    _ ≤ _ := Nat.le_add_right _ _

end Scaled

section Quotient

variable {numerator denominator shift inexact : Nat}

theorem extended_quotient_bounds (positive : 0 < denominator) (last : inexact ≤ 1) :
    numerator / denominator * 2 ^ (shift + 1) ≤
        2 * (numerator * 2 ^ shift / denominator) + inexact ∧
      denominator * (2 * (numerator * 2 ^ shift / denominator) + inexact) ≤
        numerator * 2 ^ (shift + 1) + denominator := by
  rw [Nat.pow_succ, ← Nat.mul_assoc, ← Nat.mul_assoc]
  constructor
  · have whole : numerator / denominator * 2 ^ shift ≤ numerator * 2 ^ shift / denominator := by
      rw [Nat.le_div_iff_mul_le positive, Nat.mul_right_comm]
      exact Nat.mul_le_mul_right _ (Nat.div_mul_le_self _ _)
    omega
  · have product := Nat.mul_div_le (numerator * 2 ^ shift) denominator
    have extra : denominator * inexact ≤ denominator * 1 := Nat.mul_le_mul_left _ last
    rw [Nat.mul_add, Nat.mul_left_comm]
    omega

/-- A numerator without rounding leaves enough room below the next whole number
for the error of the quotient. -/
theorem rounded_quotient_lt {extended : Nat} (bits : 0 < precision) (positive : 0 < denominator)
    (few : numerator < 2 ^ precision)
    (close : denominator * extended ≤
      numerator * 2 ^ (precision + denominator.log2 + 2) + denominator) :
    round precision extended <
      (numerator / denominator + 1) * 2 ^ (precision + denominator.log2 + 2) := by
  have relative := (round_relative bits extended).1
  have next : numerator + 1 ≤ denominator * (numerator / denominator + 1) :=
    Nat.lt_mul_div_succ numerator positive
  have fine : (2 ^ precision + 1) * denominator <
      2 ^ (precision + denominator.log2 + 2) := by
    have wide : denominator < 2 ^ (denominator.log2 + 1) := Nat.lt_log2_self
    have one : 1 ≤ 2 ^ precision := Nat.one_le_two_pow
    calc (2 ^ precision + 1) * denominator
        ≤ 2 * 2 ^ precision * denominator := Nat.mul_le_mul_right _ (by omega)
      _ < 2 * 2 ^ precision * 2 ^ (denominator.log2 + 1) :=
          Nat.mul_lt_mul_of_pos_left wide (by positivity)
      _ = 2 ^ (precision + denominator.log2 + 2) := by ring
  generalize 2 ^ (precision + denominator.log2 + 2) = weight at *
  generalize 2 ^ precision = bound at *
  generalize numerator / denominator = quotient at *
  by_contra reached
  rw [not_lt] at reached
  -- the rounded quotient would be off by more than a part in `2 ^ precision`
  have error : bound * ((quotient + 1) * weight) ≤ (bound + 1) * extended := by
    calc bound * ((quotient + 1) * weight)
        ≤ bound * round precision extended := Nat.mul_le_mul_left _ reached
      _ ≤ (bound + 1) * extended := by linarith
  have scaled : bound * (numerator + 1) * weight ≤
      (bound + 1) * (numerator * weight + denominator) := by
    calc bound * (numerator + 1) * weight
        ≤ bound * (denominator * (quotient + 1)) * weight :=
          Nat.mul_le_mul_right _ (Nat.mul_le_mul_left _ next)
      _ = denominator * (bound * ((quotient + 1) * weight)) := by ring
      _ ≤ denominator * ((bound + 1) * extended) := Nat.mul_le_mul_left _ error
      _ = (bound + 1) * (denominator * extended) := by ring
      _ ≤ _ := Nat.mul_le_mul_left _ close
  have room : (numerator + 1) * weight ≤ bound * weight := Nat.mul_le_mul_right _ few
  nlinarith

/-- Truncating a quotient undoes its rounding if the numerator needs none. -/
theorem Scaled.truncate_div {left right : Scaled} (bits : 0 < precision)
    (few : left.mantissa * 2 ^ right.scale < 2 ^ precision) (positive : 0 < right.mantissa) :
    (Scaled.div precision left right).truncate =
      left.mantissa * 2 ^ right.scale / (right.mantissa * 2 ^ left.scale) := by
  have positive : 0 < right.mantissa * 2 ^ left.scale := by positivity
  unfold Scaled.truncate Scaled.div
  dsimp only
  generalize left.mantissa * 2 ^ right.scale = numerator at *
  generalize right.mantissa * 2 ^ left.scale = denominator at *
  obtain ⟨below, close⟩ := @extended_quotient_bounds numerator denominator
    (precision + denominator.log2 + 1)
    (if numerator * 2 ^ (precision + denominator.log2 + 1) % denominator = 0 then 0 else 1)
    positive (by split <;> decide)
  apply Nat.div_eq_of_lt_le
  · exact le_round ((Nat.div_le_self _ _).trans_lt few) below
  · exact rounded_quotient_lt bits positive few close

end Quotient

end BinaryRounding
