import Mathlib.Algebra.Order.Field.Rat
import Mathlib.Data.Int.Log
import Mathlib.Data.Rat.Floor
import Mathlib.Tactic.Linarith
import Mathlib.Tactic.NormNum

/-!
Doubles, as the rational numbers that they stand for.

`toDouble` is the double next to an exact value, and of two that are as near the
one whose last binary digit is zero. It is what `Number` makes of a decimal text
and what an arithmetic operation makes of its exact result. Values from `2 ^ 1024`
on, which have no such double, are left out.
-/

namespace PocketCoder.Foundation

/-- The next integer, of two the even one. -/
def roundEven (q : ℚ) : ℤ :=
  if q - ⌊q⌋ < 1 / 2 then ⌊q⌋
  else if 1 / 2 < q - ⌊q⌋ then ⌊q⌋ + 1
  else ⌊q⌋ + ⌊q⌋ % 2

/-- The place of the last binary digit of the doubles around a value. -/
def lastPlace (q : ℚ) : ℤ := max (Int.log 2 |q| - 52) (-1074)

def toDouble (q : ℚ) : ℚ := roundEven (q / 2 ^ lastPlace q) * 2 ^ lastPlace q

variable {p q : ℚ}

theorem roundEven_bounds (q : ℚ) : ⌊q⌋ ≤ roundEven q ∧ roundEven q ≤ ⌊q⌋ + 1 := by
  unfold roundEven
  split_ifs <;> omega

theorem roundEven_intCast (k : ℤ) : roundEven (k : ℚ) = k := by
  rw [roundEven, Int.floor_intCast, sub_self, if_pos (by norm_num)]

theorem roundEven_of_lt {k : ℤ} (h : k ≤ q) (h' : q < k + 1 / 2) : roundEven q = k := by
  have hfloor : ⌊q⌋ = k := Int.floor_eq_iff.mpr ⟨h, by linarith⟩
  rw [roundEven, hfloor, if_pos (by linarith)]

theorem roundEven_half {k : ℤ} (h : k % 2 = 0) : roundEven ((k : ℚ) + 1 / 2) = k := by
  have hfloor : ⌊(k : ℚ) + 1 / 2⌋ = k := Int.floor_eq_iff.mpr ⟨by linarith, by linarith⟩
  rw [roundEven, hfloor, if_neg (by linarith), if_neg (by linarith), h, add_zero]

theorem roundEven_mono (h : p ≤ q) : roundEven p ≤ roundEven q := by
  rcases (Int.floor_mono h).lt_or_eq with hlt | heq
  · have hp := (roundEven_bounds p).2
    have hq := (roundEven_bounds q).1
    omega
  · have hfraction : p - ⌊p⌋ ≤ q - ⌊q⌋ := by
      rw [heq]
      exact sub_le_sub_right h _
    unfold roundEven
    rw [heq] at hfraction ⊢
    split_ifs <;> first | omega | (exfalso; linarith)

theorem roundEven_nonneg (h : 0 ≤ q) : 0 ≤ roundEven q := by
  have hzero := roundEven_intCast 0
  rw [Int.cast_zero] at hzero
  exact hzero ▸ roundEven_mono h

theorem pow_pos_two (e : ℤ) : (0 : ℚ) < 2 ^ e := zpow_pos (by norm_num) e

theorem toDouble_nonneg (h : 0 ≤ q) : 0 ≤ toDouble q := by
  have hround := roundEven_nonneg (div_nonneg h (pow_pos_two (lastPlace q)).le)
  exact mul_nonneg (Int.cast_nonneg hround) (pow_pos_two _).le

theorem toDouble_zero : toDouble 0 = 0 := by
  have hzero := roundEven_intCast 0
  rw [Int.cast_zero] at hzero
  rw [toDouble, zero_div, hzero, Int.cast_zero, zero_mul]

/-- A value that is no greater than a multiple of the last place is rounded to
one that is no greater. -/
theorem toDouble_le {k : ℤ} (h : q ≤ k * 2 ^ lastPlace q) : toDouble q ≤ k * 2 ^ lastPlace q := by
  have hround := roundEven_mono ((div_le_iff₀ (pow_pos_two (lastPlace q))).mpr h)
  rw [roundEven_intCast] at hround
  exact mul_le_mul_of_nonneg_right (Int.cast_le.mpr hround) (pow_pos_two _).le

theorem le_toDouble {k : ℤ} (h : k * 2 ^ lastPlace q ≤ q) : k * 2 ^ lastPlace q ≤ toDouble q := by
  have hround := roundEven_mono ((le_div_iff₀ (pow_pos_two (lastPlace q))).mpr h)
  rw [roundEven_intCast] at hround
  exact mul_le_mul_of_nonneg_right (Int.cast_le.mpr hround) (pow_pos_two _).le

/-- A power of two is a multiple of a smaller one. -/
theorem zpow_eq_mul {e e' : ℤ} (h : e ≤ e') :
    (2 : ℚ) ^ e' = ((2 ^ (e' - e).toNat : ℤ) : ℚ) * 2 ^ e := by
  rw [Int.cast_pow, Int.cast_ofNat, ← zpow_natCast, ← zpow_add₀ (by norm_num)]
  congr 1
  omega

theorem toDouble_mono (hp : 0 ≤ p) (h : p ≤ q) : toDouble p ≤ toDouble q := by
  rcases hp.eq_or_lt with rfl | hpos
  · rw [toDouble_zero]
    exact toDouble_nonneg h
  have hq : 0 < q := hpos.trans_le h
  have hlog : Int.log 2 |p| ≤ Int.log 2 |q| := by
    rw [abs_of_pos hpos, abs_of_pos hq]
    exact Int.log_mono_right hpos h
  rcases (max_le_max_right (-1074) (sub_le_sub_right hlog 52)).lt_or_eq with hlt | heq
  · -- the power of two below `q` is a double at or above `p`
    have hplace : lastPlace q = Int.log 2 |q| - 52 := by
      have hlow := le_max_right (Int.log 2 |p| - 52) (-1074)
      rw [lastPlace]
      omega
    have hlow : lastPlace p < Int.log 2 |q| - 52 := hplace ▸ hlt
    have hup : Int.log 2 |p| + 1 ≤ Int.log 2 |q| := by
      have hle := le_max_left (Int.log 2 |p| - 52) (-1074)
      rw [← lastPlace] at hle
      omega
    have hpow : p ≤ 2 ^ Int.log 2 |q| := by
      have hself := (Int.lt_zpow_succ_log_self (show 1 < 2 by decide) p).le
      rw [abs_of_pos hpos] at hup
      exact hself.trans (zpow_le_zpow_right₀ (by norm_num) (by exact_mod_cast hup))
    have hpow' : (2 : ℚ) ^ Int.log 2 |q| ≤ q := by
      have hself := Int.zpow_log_le_self (show 1 < 2 by decide) hq
      rw [abs_of_pos hq]
      exact_mod_cast hself
    have hle : lastPlace p ≤ Int.log 2 |q| := by omega
    have hle' : lastPlace q ≤ Int.log 2 |q| := by omega
    calc
      toDouble p ≤ 2 ^ Int.log 2 |q| := by
        rw [zpow_eq_mul hle] at hpow ⊢
        exact toDouble_le hpow
      _ ≤ toDouble q := by
        rw [zpow_eq_mul hle'] at hpow' ⊢
        exact le_toDouble hpow'
  -- with the same last place it is the rounding of integers
  · replace heq : lastPlace p = lastPlace q := heq
    have hround := roundEven_mono (div_le_div_of_nonneg_right h (pow_pos_two (lastPlace q)).le)
    rw [toDouble, toDouble, heq]
    exact mul_le_mul_of_nonneg_right (Int.cast_le.mpr hround) (pow_pos_two _).le

/-- The double of a value by its last place. -/
theorem toDouble_eq {e : ℤ} (he : -1074 ≤ e) (hlow : (2 : ℚ) ^ (e + 52) ≤ q)
    (hhigh : q < 2 ^ (e + 53)) : toDouble q = roundEven (q / 2 ^ e) * 2 ^ e := by
  have hq : 0 < q := (pow_pos_two _).trans_le hlow
  have hlog : Int.log 2 |q| = e + 52 := by
    rw [abs_of_pos hq]
    refine le_antisymm ?_ ?_
    · have hlt := (Int.lt_zpow_iff_log_lt (b := 2) (by decide) hq).mp (by exact_mod_cast hhigh)
      omega
    · exact (Int.zpow_le_iff_le_log (b := 2) (by decide) hq).mp (by exact_mod_cast hlow)
  have hplace : lastPlace q = e := by
    rw [lastPlace, hlog]
    omega
  rw [toDouble, hplace]

end PocketCoder.Foundation
