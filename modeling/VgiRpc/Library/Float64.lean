import Mathlib.Data.Nat.Log
import Mathlib.Data.Rat.Floor

/-!
# Doubles

A double is not a number, an infinity, or a sign and the magnitude of a binary fraction
with 53 significant bits.  Comparisons and conversions are exact on the magnitude, and an
integer that has more bits is rounded to the nearest double, ties to even.
-/

namespace VgiRpc.Library

/-- The magnitude of a finite double. -/
def Representable (magnitude : ℚ) : Prop :=
  ∃ (significand : ℕ) (exponent : ℤ), significand < 2 ^ 53 ∧ -1074 ≤ exponent ∧ exponent ≤ 971 ∧
    magnitude = significand * 2 ^ exponent

inductive Float64 where
  | nan
  | infinite (negative : Bool)
  | finite (negative : Bool) (magnitude : ℚ) (representable : Representable magnitude)

namespace Float64

def isFinite : Float64 → Bool
  | .finite _ _ _ => true
  | .nan | .infinite _ => false

/-- The fractional part is zero; that of an infinity is not a number. -/
def isWhole : Float64 → Bool
  | .finite _ magnitude _ => magnitude.den = 1
  | .nan | .infinite _ => false

def absBelow (bound : ℚ) : Float64 → Bool
  | .finite _ magnitude _ => magnitude < bound
  | .nan | .infinite _ => false

/-- Below zero; the negative zero is not. -/
def isNegative : Float64 → Bool
  | .finite negative magnitude _ => negative && decide (magnitude ≠ 0)
  | .infinite negative => negative
  | .nan => false

def unsignZero : Float64 → Float64
  | .finite negative magnitude representable =>
    .finite (negative && decide (magnitude ≠ 0)) magnitude representable
  | .infinite negative => .infinite negative
  | .nan => .nan

/-- Equality of values: the zeros are equal, and what is not a number equals nothing. -/
def eq : Float64 → Float64 → Bool
  | .finite negative magnitude _, .finite other another _ =>
    decide (magnitude = another) && (negative == other || decide (magnitude = 0))
  | .infinite negative, .infinite other => negative == other
  | _, _ => false

/-- The integer part as a signed 64-bit integer, saturating at the ends of its range. -/
def toI64 : Float64 → ℤ
  | .nan => 0
  | .infinite negative => if negative then -2 ^ 63 else 2 ^ 63 - 1
  | .finite negative magnitude _ =>
    max (-2 ^ 63) (min (2 ^ 63 - 1) (if negative then -⌊magnitude⌋ else ⌊magnitude⌋))

theorem toI64_fits (value : Float64) : -2 ^ 63 ≤ value.toI64 ∧ value.toI64 < 2 ^ 64 := by
  cases value with
  | nan => decide
  | infinite negative => cases negative <;> decide
  | finite negative magnitude representable =>
    exact ⟨le_max_left _ _, max_lt (by norm_num) ((min_le_left _ _).trans_lt (by norm_num))⟩

def roundQuotient (value unit : ℕ) : ℕ :=
  if unit < 2 * (value % unit) ∨ 2 * (value % unit) = unit ∧ value / unit % 2 = 1 then
    value / unit + 1
  else value / unit

def roundNat (value : ℕ) : ℕ :=
  roundQuotient value (2 ^ (value.log2 - 52)) * 2 ^ (value.log2 - 52)

theorem roundNat_of_lt {value : ℕ} (small : value < 2 ^ 53) : roundNat value = value := by
  have shift : value.log2 - 52 = 0 := by
    rcases Nat.eq_zero_or_pos value with rfl | positive
    · rfl
    · have below := (Nat.log2_lt (Nat.pos_iff_ne_zero.mp positive)).mpr small
      omega
  rw [roundNat, shift, roundQuotient, pow_zero, Nat.mod_one, if_neg (by omega), Nat.div_one,
    Nat.mul_one]

variable {bound : ℕ}

theorem roundQuotient_le {value unit : ℕ} (below : value < bound * unit) :
    roundQuotient value unit ≤ bound := by
  have quotient : value / unit < bound := Nat.div_lt_of_lt_mul (by rwa [Nat.mul_comm])
  unfold roundQuotient
  split
  · exact quotient
  · exact quotient.le

theorem roundNat_representable {value : ℕ} (fits : value ≤ 2 ^ 64) :
    Representable (roundNat value) := by
  have log : value.log2 ≤ 64 := by
    rw [Nat.log2_eq_log_two]
    exact (Nat.log_mono_right fits).trans (by rw [Nat.log_pow (by decide)])
  have below : value < 2 ^ 53 * 2 ^ (value.log2 - 52) := by
    refine Nat.lt_log2_self.trans_le ?_
    rw [← pow_add]
    exact Nat.pow_le_pow_right (by decide) (by omega)
  rcases (roundQuotient_le below).lt_or_eq with small | top
  · refine ⟨_, (value.log2 - 52 : ℕ), small, by omega, by omega, ?_⟩
    rw [roundNat, Nat.cast_mul, Nat.cast_pow, zpow_natCast]
    rfl
  · -- Rounded up to the next power of two.
    refine ⟨2 ^ 52, (value.log2 - 52 + 1 : ℕ), by decide, by omega, by omega, ?_⟩
    rw [roundNat, top, Nat.cast_mul, Nat.cast_pow, zpow_natCast]
    push_cast
    ring

def ofInt (value : ℤ) (fits : value.natAbs ≤ 2 ^ 64) : Float64 :=
  .finite (decide (value < 0)) (roundNat value.natAbs) (roundNat_representable fits)

variable {negative : Bool} {magnitude : ℚ} {representable : Representable magnitude}

theorem finite_congr {other : Bool} {another : ℚ} {likewise : Representable another}
    (sign : negative = other) (same : magnitude = another) :
    finite negative magnitude representable = finite other another likewise := by
  subst sign same
  rfl

theorem representable_nonneg (representable : Representable magnitude) : 0 ≤ magnitude := by
  obtain ⟨significand, exponent, -, -, -, rfl⟩ := representable
  exact mul_nonneg (Nat.cast_nonneg _) (zpow_nonneg (by norm_num) _)

theorem exists_natCast_of_isWhole (whole : (finite negative magnitude representable).isWhole = true)
    :
    ∃ count : ℕ, magnitude = count := by
  have integral := Rat.den_eq_one_iff magnitude |>.mp (of_decide_eq_true whole)
  have positive : 0 ≤ magnitude.num := Rat.num_nonneg.mpr (representable_nonneg representable)
  obtain ⟨count, same⟩ := Int.eq_ofNat_of_zero_le positive
  exact ⟨count, by rw [← integral, same, Int.cast_natCast]⟩

variable {value : Float64}

/-- A whole number of 53 bits survives as an integer, but for the sign of a zero. -/
theorem ofInt_toI64 (bounded : bound ≤ 2 ^ 53) (whole : value.isWhole = true)
    (below : value.absBelow bound = true) (fits : value.toI64.natAbs ≤ 2 ^ 64) :
    ofInt value.toI64 fits = value.unsignZero := by
  cases value with
  | nan => cases whole
  | infinite negative => cases whole
  | finite negative magnitude representable =>
    obtain ⟨count, rfl⟩ := exists_natCast_of_isWhole whole
    have small : count < bound := by exact_mod_cast of_decide_eq_true below
    have converted : (finite negative (count : ℚ) representable).toI64 =
        if negative then -(count : ℤ) else count := by
      simp only [toI64, Int.floor_natCast]
      cases negative with
      | false => simp only [Bool.false_eq_true, if_false]; omega
      | true => simp only [if_true]; omega
    refine finite_congr ?_ ?_
    · rw [converted]
      cases negative with
      | false => simp
      | true => simp [Nat.pos_iff_ne_zero]
    · have magnitude : (finite negative (count : ℚ) representable).toI64.natAbs = count := by
        rw [converted]
        cases negative <;> simp
      rw [magnitude, roundNat_of_lt (by omega)]

theorem unsignZero_of_not_isWhole (unlike : value.isWhole = false) : value.unsignZero = value := by
  cases value with
  | nan => rfl
  | infinite negative => rfl
  | finite negative magnitude representable =>
    refine finite_congr ?_ rfl
    have nonzero : magnitude ≠ 0 := by
      rintro rfl
      cases unlike
    simp [nonzero]

theorem unsignZero_of_not_absBelow {bound : ℚ} (positive : 0 < bound)
    (above : value.absBelow bound = false) : value.unsignZero = value := by
  cases value with
  | nan => rfl
  | infinite negative => rfl
  | finite negative magnitude representable =>
    refine finite_congr ?_ rfl
    have nonzero : magnitude ≠ 0 := by
      rintro rfl
      exact absurd positive (of_decide_eq_false above)
    simp [nonzero]

@[simp]
theorem isFinite_unsignZero (value : Float64) : value.unsignZero.isFinite = value.isFinite := by
  cases value <;> rfl

@[simp]
theorem isNegative_unsignZero (value : Float64) :
    value.unsignZero.isNegative = value.isNegative := by
  cases value <;> simp [unsignZero, isNegative]

theorem eq_unsignZero (finite : value.isFinite = true) : value.unsignZero.eq value = true := by
  cases value with
  | nan => cases finite
  | infinite negative => cases finite
  | finite negative magnitude representable =>
    by_cases zero : magnitude = 0
    · simp [unsignZero, eq, zero]
    · simp [unsignZero, eq, zero]

end Float64
end VgiRpc.Library
