import Mathlib.Data.Int.Log
import VgiRpc.Library.Float64

/-!
# Rounding to doubles

The double nearest to a rational number, ties to even.  Rounding keeps the order and leaves
what already is a double alone; nothing else is used of it.
-/

namespace VgiRpc.Library.Float64

variable (value : ℚ)

def nearestInt : ℤ :=
  if value - ⌊value⌋ < 1 / 2 ∨ value - ⌊value⌋ = 1 / 2 ∧ ⌊value⌋ % 2 = 0 then ⌊value⌋
  else ⌊value⌋ + 1

/-- The exponent of the last bit of the doubles around a positive number. -/
def lastBit (magnitude : ℚ) : ℤ := max (Int.log 2 magnitude - 52) (-1074)

def nearestMagnitude (magnitude : ℚ) : ℚ :=
  nearestInt (magnitude / 2 ^ lastBit magnitude) * 2 ^ lastBit magnitude

/-- The double nearest to a number.  Nothing here comes near the largest double. -/
def nearest : ℚ :=
  if value < 0 then -nearestMagnitude (-value) else nearestMagnitude value

theorem nearestInt_intCast (value : ℤ) : nearestInt value = value := by
  simp [nearestInt]

theorem floor_le_nearestInt : ⌊value⌋ ≤ nearestInt value := by
  unfold nearestInt
  split <;> omega

theorem nearestInt_le : nearestInt value ≤ ⌊value⌋ + 1 := by
  unfold nearestInt
  split <;> omega

variable {less more : ℚ}

theorem nearestInt_mono (order : less ≤ more) : nearestInt less ≤ nearestInt more := by
  have floors : ⌊less⌋ ≤ ⌊more⌋ := Int.floor_mono order
  rcases floors.lt_or_eq with apart | same
  · exact (nearestInt_le less).trans ((Int.add_one_le_of_lt apart).trans (floor_le_nearestInt more))
  · by_cases up : more - ⌊more⌋ < 1 / 2 ∨ more - ⌊more⌋ = 1 / 2 ∧ ⌊more⌋ % 2 = 0
    · -- The larger number is rounded down, and so is the smaller one.
      have down : less - ⌊less⌋ < 1 / 2 ∨ less - ⌊less⌋ = 1 / 2 ∧ ⌊less⌋ % 2 = 0 := by
        rw [same]
        rcases up with below | ⟨middle, even⟩
        · exact .inl (by linarith)
        · rcases order.lt_or_eq with strict | equal
          · exact .inl (by linarith)
          · exact .inr ⟨by rw [equal, middle], even⟩
      rw [nearestInt, nearestInt, if_pos down, if_pos up, same]
    · rw [show nearestInt more = ⌊more⌋ + 1 from if_neg up, ← same]
      exact nearestInt_le less

theorem two_zpow_pos (exponent : ℤ) : (0 : ℚ) < 2 ^ exponent := zpow_pos (by norm_num) exponent

theorem lastBit_mono (positive : 0 < less) (order : less ≤ more) : lastBit less ≤ lastBit more :=
  max_le_max (Int.sub_le_sub_right (Int.log_mono_right positive order) _) (le_refl _)

variable {magnitude : ℚ} {bound : ℤ}

/-- A number below a multiple of its last bit is not rounded above it. -/
theorem nearestMagnitude_le (below : magnitude ≤ bound * 2 ^ lastBit magnitude) :
    nearestMagnitude magnitude ≤ bound * 2 ^ lastBit magnitude := by
  have unit := two_zpow_pos (lastBit magnitude)
  have scaled : magnitude / 2 ^ lastBit magnitude ≤ bound := (div_le_iff₀ unit).mpr below
  have rounded := nearestInt_mono scaled
  rw [nearestInt_intCast] at rounded
  exact mul_le_mul_of_nonneg_right (by exact_mod_cast rounded) unit.le

theorem le_nearestMagnitude (above : bound * 2 ^ lastBit magnitude ≤ magnitude) :
    bound * 2 ^ lastBit magnitude ≤ nearestMagnitude magnitude := by
  have unit := two_zpow_pos (lastBit magnitude)
  have scaled : (bound : ℚ) ≤ magnitude / 2 ^ lastBit magnitude := (le_div_iff₀ unit).mpr above
  have rounded := nearestInt_mono scaled
  rw [nearestInt_intCast] at rounded
  exact mul_le_mul_of_nonneg_right (by exact_mod_cast rounded) unit.le

theorem nearestMagnitude_zero : nearestMagnitude 0 = 0 := by
  rw [nearestMagnitude, zero_div, show nearestInt 0 = 0 from nearestInt_intCast 0, Int.cast_zero,
    zero_mul]

theorem nearestMagnitude_nonneg (nonneg : 0 ≤ magnitude) : 0 ≤ nearestMagnitude magnitude := by
  have above := le_nearestMagnitude (show ((0 : ℤ) : ℚ) * 2 ^ lastBit magnitude ≤ magnitude by
    simpa using nonneg)
  simpa using above

theorem nearestMagnitude_mono (nonneg : 0 ≤ less) (order : less ≤ more) :
    nearestMagnitude less ≤ nearestMagnitude more := by
  rcases nonneg.eq_or_lt with rfl | positive
  · rw [nearestMagnitude_zero]
    exact nearestMagnitude_nonneg order
  rcases (lastBit_mono positive order).lt_or_eq with apart | same
  · -- A power of two lies between the two numbers.
    have larger : lastBit more = Int.log 2 more - 52 := by
      unfold lastBit at apart ⊢
      omega
    have smaller : Int.log 2 less < Int.log 2 more := by
      unfold lastBit at apart
      omega
    have power (exponent : ℤ) (low : exponent ≤ Int.log 2 more) : (2 : ℚ) ^ Int.log 2 more =
          ((2 ^ (Int.log 2 more - exponent).toNat : ℤ) : ℚ) * 2 ^ exponent := by
      rw [Int.cast_pow, ← zpow_natCast, Int.toNat_of_nonneg (by omega), Int.cast_ofNat,
        ← zpow_add₀ (by norm_num)]
      congr 1
      omega
    have above : (2 : ℚ) ^ Int.log 2 more ≤ more := by
      exact_mod_cast Int.zpow_log_le_self (by norm_num) (positive.trans_le order)
    have below : less ≤ (2 : ℚ) ^ Int.log 2 more := by
      have bound := Int.lt_zpow_succ_log_self (show 1 < 2 by norm_num) less
      refine bound.le.trans ?_
      exact_mod_cast zpow_le_zpow_right₀ (show (1 : ℚ) ≤ 2 by norm_num) (by omega)
    rw [power (lastBit less) (by omega)] at below
    have first := nearestMagnitude_le below
    rw [← power (lastBit less) (by omega)] at first
    rw [power (lastBit more) (by omega)] at above
    have second := le_nearestMagnitude above
    rw [← power (lastBit more) (by omega)] at second
    exact first.trans second
  · unfold nearestMagnitude
    rw [same]
    have unit := two_zpow_pos (lastBit more)
    have scaled : less / 2 ^ lastBit more ≤ more / 2 ^ lastBit more :=
      (div_le_div_iff_of_pos_right unit).mpr order
    exact mul_le_mul_of_nonneg_right (by exact_mod_cast nearestInt_mono scaled) unit.le

theorem nearestMagnitude_of_representable
    (representable : Representable magnitude) : nearestMagnitude magnitude = magnitude := by
  obtain ⟨significand, exponent, small, least, -, rfl⟩ := representable
  rcases Nat.eq_zero_or_pos significand with rfl | positive
  · rw [Nat.cast_zero, zero_mul, nearestMagnitude_zero]
  · have unit := two_zpow_pos exponent
    have filled : (0 : ℚ) < significand * 2 ^ exponent := mul_pos (by exact_mod_cast positive) unit
    have below : (significand : ℚ) * 2 ^ exponent < 2 ^ (53 + exponent) := by
      rw [zpow_add₀ (by norm_num)]
      exact mul_lt_mul_of_pos_right (by exact_mod_cast small) unit
    have log : Int.log 2 ((significand : ℚ) * 2 ^ exponent) < 53 + exponent :=
      (Int.lt_zpow_iff_log_lt (by norm_num) filled).mp (by exact_mod_cast below)
    have low : lastBit (significand * 2 ^ exponent) ≤ exponent := by
      unfold lastBit
      omega
    have whole : (significand : ℚ) * 2 ^ exponent / 2 ^ lastBit (significand * 2 ^ exponent) =
        ((significand * 2 ^ (exponent - lastBit (significand * 2 ^ exponent)).toNat : ℤ) : ℚ) := by
      rw [mul_div_assoc, ← zpow_sub₀ (by norm_num), Int.cast_mul, Int.cast_natCast, Int.cast_pow,
        ← zpow_natCast, Int.toNat_of_nonneg (by omega), Int.cast_ofNat]
    rw [nearestMagnitude, whole, nearestInt_intCast, ← whole,
      div_mul_cancel₀ _ (two_zpow_pos _).ne']

theorem nearest_mono (order : less ≤ more) : nearest less ≤ nearest more := by
  unfold nearest
  by_cases low : less < 0
  · rw [if_pos low]
    split_ifs with high
    · exact neg_le_neg (nearestMagnitude_mono (by linarith) (by linarith))
    · have left := nearestMagnitude_nonneg (show 0 ≤ -less by linarith)
      have right := nearestMagnitude_nonneg (not_lt.mp high)
      linarith
  · rw [if_neg low, if_neg (by linarith)]
    exact nearestMagnitude_mono (not_lt.mp low) order

variable {value : ℚ}

theorem nearest_of_representable (representable : Representable |value|) : nearest value = value := by
  unfold nearest
  split
  · rename_i negative
    rw [abs_of_neg negative] at representable
    rw [nearestMagnitude_of_representable representable, neg_neg]
  · rename_i positive
    rw [abs_of_nonneg (not_lt.mp positive)] at representable
    exact nearestMagnitude_of_representable representable

/-- What comes of rounding is a double; the bound is far beyond what is rounded here. -/
theorem nearestMagnitude_representable (nonneg : 0 ≤ magnitude)
    (below : magnitude < 2 ^ 100) : Representable (nearestMagnitude magnitude) := by
  have unit := two_zpow_pos (lastBit magnitude)
  have log : Int.log 2 magnitude ≤ 100 := by
    rcases nonneg.eq_or_lt with rfl | positive
    · rw [Int.log_zero_right]
      norm_num
    · have bound : magnitude < ((2 : ℕ) : ℚ) ^ (100 : ℤ) := by exact_mod_cast below
      exact ((Int.lt_zpow_iff_log_lt (by norm_num) positive).mp bound).le
  have bits : magnitude ≤ ((2 ^ 53 : ℤ) : ℚ) * 2 ^ lastBit magnitude := by
    have bound := Int.lt_zpow_succ_log_self (show 1 < 2 by norm_num) magnitude
    have shifted : ((2 ^ 53 : ℤ) : ℚ) * 2 ^ lastBit magnitude = 2 ^ (53 + lastBit magnitude) := by
      rw [zpow_add₀ (by norm_num)]
      norm_num
    rw [shifted]
    refine bound.le.trans ?_
    rw [Nat.cast_ofNat]
    refine zpow_le_zpow_right₀ (by norm_num) ?_
    unfold lastBit
    omega
  have most : nearestInt (magnitude / 2 ^ lastBit magnitude) ≤ 2 ^ 53 := by
    have rounded := nearestInt_mono ((div_le_iff₀ unit).mpr bits)
    rwa [nearestInt_intCast] at rounded
  have least : 0 ≤ nearestInt (magnitude / 2 ^ lastBit magnitude) := by
    have rounded := nearestInt_mono (div_nonneg nonneg unit.le)
    rwa [show nearestInt 0 = 0 from nearestInt_intCast 0] at rounded
  have low : -1074 ≤ lastBit magnitude := le_max_right _ _
  have high : lastBit magnitude ≤ 100 := by
    unfold lastBit
    omega
  unfold nearestMagnitude
  obtain ⟨count, same⟩ := Int.eq_ofNat_of_zero_le least
  rw [same] at most ⊢
  rcases most.lt_or_eq with small | top
  · exact ⟨count, lastBit magnitude, by exact_mod_cast small, low, by omega,
      by rw [Int.cast_natCast]⟩
  · -- Rounded up to the next power of two.
    refine ⟨2 ^ 52, lastBit magnitude + 1, by norm_num, by omega, by omega, ?_⟩
    rw [top, zpow_add₀ (by norm_num)]
    push_cast
    ring

theorem nearest_nearest (nonneg : 0 ≤ value) (below : value < 2 ^ 100) :
    nearest (nearest value) = nearest value := by
  have rounded : nearest value = nearestMagnitude value := if_neg (not_lt.mpr nonneg)
  rw [rounded]
  refine nearest_of_representable ?_
  rw [abs_of_nonneg (nearestMagnitude_nonneg nonneg)]
  exact nearestMagnitude_representable nonneg below

theorem representable_intCast {value : ℤ} (small : |value| ≤ 2 ^ 53) :
    Representable |(value : ℚ)| := by
  rcases small.lt_or_eq with below | top
  · refine ⟨value.natAbs, 0, ?_, by norm_num, by norm_num, ?_⟩
    · rw [Int.abs_eq_natAbs] at below
      omega
    · rw [zpow_zero, mul_one, ← Int.cast_abs, Int.abs_eq_natAbs, Int.cast_natCast]
  · refine ⟨2 ^ 52, 1, by norm_num, by norm_num, by norm_num, ?_⟩
    rw [← Int.cast_abs, top]
    norm_num

theorem representable_floor (representable : Representable magnitude) :
    Representable (⌊magnitude⌋ : ℤ) := by
  have nonneg := representable_nonneg representable
  obtain ⟨significand, exponent, small, least, most, rfl⟩ := representable
  rcases le_or_gt 0 exponent with up | down
  · obtain ⟨count, rfl⟩ := Int.eq_ofNat_of_zero_le up
    refine ⟨significand, count, small, least, most, ?_⟩
    have whole : (significand : ℚ) * 2 ^ (count : ℤ) = ((significand * 2 ^ count : ℤ) : ℚ) := by
      push_cast
      rw [zpow_natCast]
    rw [whole, Int.floor_intCast]
  · have shrunk : (significand : ℚ) * 2 ^ exponent ≤ significand :=
      mul_le_of_le_one_right (Nat.cast_nonneg _) (zpow_le_one_of_nonpos₀ (by norm_num) down.le)
    obtain ⟨count, same⟩ := Int.eq_ofNat_of_zero_le (Int.floor_nonneg.mpr nonneg)
    have bound : (count : ℚ) ≤ significand := by
      have floored := (Int.floor_le _).trans shrunk
      rw [same] at floored
      exact_mod_cast floored
    refine ⟨count, 0, ?_, by norm_num, by norm_num, ?_⟩
    · exact (Nat.cast_le.mp bound).trans_lt small
    · rw [same, zpow_zero, mul_one, Int.cast_natCast]

end VgiRpc.Library.Float64
