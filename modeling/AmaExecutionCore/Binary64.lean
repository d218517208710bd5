import AmaExecutionCore.Rounding
import Mathlib.Algebra.Order.Field.Power
import Mathlib.Data.Int.Log
import Mathlib.Tactic.Positivity
import Mathlib.Tactic.Ring

/-! The finite doubles among the rational numbers: rounding to the nearest one, with ties to the
even mantissa. Overflow to infinity is left out. -/
namespace Binary64

open Rounding

/-- The exponent of the last bit, with 53 bits of mantissa and the subnormal numbers below. -/
def exponentOf (x : ℚ) : ℤ := max (Int.log 2 |x| - 52) (-1074)

def ulp (x : ℚ) : ℚ := 2 ^ exponentOf x

def nearest (x : ℚ) : ℚ := halfEven (x / ulp x) * ulp x

/-- A rational number that a double is. -/
@[ext]
structure Double where
  value : ℚ
  nearest_eq : nearest value = value

variable {x y : ℚ} {k : ℤ}

theorem exponentOf_ge (x : ℚ) : -1074 ≤ exponentOf x := le_max_right _ _

theorem ulp_pos (x : ℚ) : 0 < ulp x := by
  unfold ulp
  positivity

theorem exponentOf_le_iff_abs (hx : x ≠ 0) (hk : -1074 ≤ k) :
    exponentOf x ≤ k ↔ |x| < 2 ^ (k + 53) := by
  have hlog : |x| < ((2 : ℕ) : ℚ) ^ (k + 53) ↔ Int.log 2 |x| < k + 53 :=
    Int.lt_zpow_iff_log_lt (by decide) (abs_pos.mpr hx)
  rw [Nat.cast_ofNat] at hlog
  rw [exponentOf, hlog, max_le_iff]
  omega

theorem exponentOf_le_iff (hx : 0 < x) (hk : -1074 ≤ k) :
    exponentOf x ≤ k ↔ x < 2 ^ (k + 53) := by
  rw [exponentOf_le_iff_abs hx.ne' hk, abs_of_pos hx]

theorem le_exponentOf_iff (hx : 0 < x) (hk : -1074 < k) :
    k ≤ exponentOf x ↔ 2 ^ (k + 52) ≤ x := by
  have hprev := exponentOf_le_iff (k := k - 1) hx (by omega)
  rw [show k - 1 + 53 = k + 52 by omega] at hprev
  rw [← not_lt, ← not_iff_not, not_not, not_le, ← hprev]
  omega

theorem abs_lt_ulp_mul (x : ℚ) : |x| < 2 ^ 53 * ulp x := by
  by_cases hx : x = 0
  · rw [hx, abs_zero]
    exact mul_pos (by positivity) (ulp_pos 0)
  · have h := (exponentOf_le_iff_abs hx (exponentOf_ge x)).mp le_rfl
    rw [zpow_add₀ two_ne_zero, mul_comm] at h
    exact_mod_cast h

theorem nearest_eq_of_near {m : ℤ} {u : ℚ} (hulp : ulp y = u) (hlow : (m - 1 / 2) * u < y)
    (hhigh : y < (m + 1 / 2) * u) : nearest y = m * u := by
  have hpos : 0 < u := hulp ▸ ulp_pos y
  rw [nearest, hulp,
    halfEven_eq_of_near ((lt_div_iff₀ hpos).mpr hlow) ((div_lt_iff₀ hpos).mpr hhigh)]

theorem zpow_exponentOf (x : ℚ) : (2 : ℚ) ^ (exponentOf x + 52) = 2 ^ 52 * ulp x := by
  rw [zpow_add₀ two_ne_zero, mul_comm, ulp]
  norm_cast

/-- A number with a lower exponent is below the power of two at which the exponent begins. -/
theorem lt_of_exponentOf_lt (hy : 0 < y) (hlower : exponentOf y < exponentOf x) :
    y < 2 ^ 52 * ulp x := by
  have hge := exponentOf_ge y
  have hstep := (exponentOf_le_iff (k := exponentOf x - 1) hy (by omega)).mp (by omega)
  rwa [show exponentOf x - 1 + 53 = exponentOf x + 52 by omega, zpow_exponentOf] at hstep

/-- From half of that power on, the doubles below it lie twice as close. -/
theorem ulp_of_exponentOf_lt (hy : 0 < y) (hlower : exponentOf y < exponentOf x)
    (hhalf : 2 ^ 52 * ulp x / 2 ≤ y) : ulp y = ulp x / 2 := by
  have hge := exponentOf_ge y
  have hnext : exponentOf x - 1 ≤ exponentOf y := by
    by_cases hleast : exponentOf x - 1 = -1074
    · exact hleast ▸ hge
    · apply (le_exponentOf_iff hy (by omega)).mpr
      rwa [show exponentOf x - 1 + 52 = (exponentOf x + 52) + -1 by omega, zpow_add₀ two_ne_zero,
        zpow_exponentOf, zpow_neg_one, ← div_eq_mul_inv]
  rw [ulp, ulp, show exponentOf y = exponentOf x + -1 by omega, zpow_add₀ two_ne_zero,
    zpow_neg_one, ← div_eq_mul_inv]

/-- Whatever lies nearer to a double than a small part of it rounds to it. Just below a power of
two the doubles lie twice as close, and the number can have the lower exponent. -/
theorem nearest_of_near (hx : 0 < x) (hdouble : nearest x = x) (h : |y - x| < x / 2 ^ 54) :
    nearest y = x := by
  obtain ⟨m, hm⟩ : ∃ m : ℤ, x = m * ulp x := ⟨_, hdouble.symm⟩
  obtain ⟨hlow, hhigh⟩ := abs_lt.mp h
  have hpos := ulp_pos x
  have hlt := abs_of_pos hx ▸ abs_lt_ulp_mul x
  have hy : 0 < y := by linarith
  have hmantissa : (m : ℚ) + 1 ≤ 2 ^ 53 := by
    have hcast : (m : ℚ) < 2 ^ 53 := lt_of_mul_lt_mul_right (hm ▸ hlt) hpos.le
    have hint : m + 1 ≤ 2 ^ 53 := by exact_mod_cast hcast
    exact_mod_cast hint
  have hbelow : (m + 1 / 2 : ℚ) * ulp x ≤ 2 ^ 53 * ulp x :=
    mul_le_mul_of_nonneg_right (by linarith) hpos.le
  have hmiddle : y < (m + 1 / 2) * ulp x := by
    linarith
  have hle : exponentOf y ≤ exponentOf x := by
    apply (exponentOf_le_iff hy (exponentOf_ge x)).mpr
    rw [zpow_add₀ two_ne_zero, mul_comm]
    exact lt_of_lt_of_le hmiddle (by exact_mod_cast hbelow)
  obtain hsame | hlower := eq_or_lt_of_le hle
  · have hulp : ulp y = ulp x := by rw [ulp, ulp, hsame]
    rw [nearest_eq_of_near hulp (by linarith) hmiddle, ← hm]
  · -- `y` is below the power of two at which the exponent of `x` begins, and `x` is that power.
    have hnormal : -1074 < exponentOf x := lt_of_le_of_lt (exponentOf_ge y) hlower
    have hxge : 2 ^ 52 * ulp x ≤ x := zpow_exponentOf x ▸ (le_exponentOf_iff hx hnormal).mp le_rfl
    have hylt := lt_of_exponentOf_lt hy hlower
    have hm52 : m = 2 ^ 52 := by
      have hge : (2 ^ 52 : ℚ) ≤ m := le_of_mul_le_mul_right (hm ▸ hxge) hpos
      have hlt : (m : ℚ) < 2 ^ 52 + 1 := by
        apply lt_of_mul_lt_mul_right _ hpos.le
        rw [← hm]
        linarith
      have hge' : (2 ^ 52 : ℤ) ≤ m := by exact_mod_cast hge
      have hlt' : m < 2 ^ 52 + 1 := by exact_mod_cast hlt
      omega
    have hx52 : x = 2 ^ 52 * ulp x := by
      rw [hm52] at hm
      exact_mod_cast hm
    have hulp := ulp_of_exponentOf_lt hy hlower (by linarith)
    have hnear : nearest y = ((2 ^ 53 : ℤ) : ℚ) * (ulp x / 2) := by
      apply nearest_eq_of_near hulp <;> push_cast <;> linarith
    calc
      nearest y = ((2 ^ 53 : ℤ) : ℚ) * (ulp x / 2) := hnear
      _ = 2 ^ 52 * ulp x := by push_cast; ring
      _ = x := hx52.symm

theorem nearest_of_multiple {m : ℤ} (h : y = m * ulp y) : nearest y = y := by
  have hquotient : y / ulp y = m := (div_eq_iff (ulp_pos y).ne').mpr h
  rw [nearest, hquotient, halfEven_intCast, ← h]

theorem abs_mantissa_le (x : ℚ) : |halfEven (x / ulp x)| ≤ 2 ^ 53 := by
  have hpos := ulp_pos x
  obtain ⟨hlow, hhigh⟩ := abs_lt.mp (abs_lt_ulp_mul x)
  have hbelow : ((-2 ^ 53 : ℤ) : ℚ) ≤ x / ulp x := by
    rw [le_div_iff₀ hpos]
    push_cast
    linarith
  have habove : x / ulp x ≤ ((2 ^ 53 : ℤ) : ℚ) := by
    rw [div_le_iff₀ hpos]
    push_cast
    linarith
  have hlow' := halfEven_mono hbelow
  have hhigh' := halfEven_mono habove
  rw [halfEven_intCast] at hlow' hhigh'
  exact abs_le.mpr ⟨hlow', hhigh'⟩

/-- A mantissa of 53 bits with an exponent that is not too small makes a double. -/
theorem nearest_grid {m : ℤ} (hm : |m| < 2 ^ 53) (hk : -1074 ≤ k) :
    nearest (m * 2 ^ k) = m * 2 ^ k := by
  by_cases hzero : (m : ℚ) * 2 ^ k = 0
  · rw [hzero]
    exact nearest_of_multiple (m := 0) (by norm_num)
  have hle : exponentOf (m * 2 ^ k) ≤ k := by
    apply (exponentOf_le_iff_abs hzero hk).mpr
    have hpos : (0 : ℚ) < 2 ^ k := by positivity
    have hcast : |(m : ℚ)| < 2 ^ 53 := by exact_mod_cast hm
    rw [abs_mul, abs_of_pos hpos, zpow_add₀ two_ne_zero, mul_comm]
    exact mul_lt_mul_of_pos_left (by exact_mod_cast hcast) hpos
  obtain ⟨n, hn⟩ := Int.eq_ofNat_of_zero_le (Int.sub_nonneg.mpr hle)
  apply nearest_of_multiple (m := m * 2 ^ n)
  have hpower : (2 : ℚ) ^ k = 2 ^ n * ulp (m * 2 ^ k) := by
    rw [ulp, ← zpow_natCast, ← zpow_add₀ two_ne_zero]
    congr 1
    exact sub_eq_iff_eq_add.mp hn
  calc
    (m : ℚ) * 2 ^ k = m * (2 ^ n * ulp (m * 2 ^ k)) := congrArg _ hpower
    _ = ((m * 2 ^ n : ℤ) : ℚ) * ulp (m * 2 ^ k) := by push_cast; ring

theorem nearest_nearest (x : ℚ) : nearest (nearest x) = nearest x := by
  have hmantissa := abs_mantissa_le x
  have hexponent := exponentOf_ge x
  rw [show nearest x = halfEven (x / ulp x) * 2 ^ exponentOf x from rfl]
  generalize halfEven (x / ulp x) = m at hmantissa
  obtain hlt | heq := lt_or_eq_of_le hmantissa
  · exact nearest_grid hlt hexponent
  · -- The mantissa is carried into one bit more.
    have hhalf : (m : ℚ) * 2 ^ exponentOf x = ((m / 2 : ℤ) : ℚ) * 2 ^ (exponentOf x + 1) := by
      have hm : m = m / 2 * 2 := by
        obtain h | h := (abs_eq (by decide)).mp heq <;> omega
      have hcast : (m : ℚ) = ((m / 2 : ℤ) : ℚ) * 2 := by exact_mod_cast hm
      rw [hcast, zpow_add₀ two_ne_zero]
      ring
    rw [hhalf]
    apply nearest_grid _ (by omega)
    obtain h | h := (abs_eq (by decide)).mp heq <;> rw [h] <;> decide

def Double.round (x : ℚ) : Double := ⟨nearest x, nearest_nearest x⟩

theorem nearest_mono (hx : 0 < x) (h : x ≤ y) : nearest x ≤ nearest y := by
  have hy := lt_of_lt_of_le hx h
  have hle : exponentOf x ≤ exponentOf y := by
    apply (exponentOf_le_iff hx (exponentOf_ge y)).mpr
    exact lt_of_le_of_lt h ((exponentOf_le_iff hy (exponentOf_ge y)).mp le_rfl)
  obtain hsame | hlower := eq_or_lt_of_le hle
  · have hulp : ulp x = ulp y := by rw [ulp, ulp, hsame]
    rw [nearest, nearest, hulp]
    apply mul_le_mul_of_nonneg_right _ (ulp_pos y).le
    exact_mod_cast halfEven_mono (div_le_div_of_nonneg_right h (ulp_pos y).le)
  · -- The power of two at which the exponent of `y` begins lies between them.
    have hnormal : -1074 < exponentOf y := lt_of_le_of_lt (exponentOf_ge x) hlower
    have hpower : (2 : ℚ) ^ (exponentOf y + 52) = 2 ^ 52 * ulp y := by
      rw [zpow_add₀ two_ne_zero, mul_comm, ulp]
      norm_cast
    have hstart := (le_exponentOf_iff hy hnormal).mp le_rfl
    have hxle : nearest x ≤ 2 ^ (exponentOf x + 53) := by
      have hmantissa : ((halfEven (x / ulp x) : ℤ) : ℚ) ≤ 2 ^ 53 := by
        exact_mod_cast (le_abs_self _).trans (abs_mantissa_le x)
      rw [nearest, zpow_add₀ two_ne_zero, mul_comm]
      exact mul_le_mul_of_nonneg_left (by exact_mod_cast hmantissa) (ulp_pos x).le
    have hyge : 2 ^ (exponentOf y + 52) ≤ nearest y := by
      have hquotient : ((2 ^ 52 : ℤ) : ℚ) ≤ y / ulp y := by
        rw [le_div_iff₀ (ulp_pos y)]
        push_cast
        exact hpower ▸ hstart
      have hmantissa := halfEven_mono hquotient
      rw [halfEven_intCast] at hmantissa
      have hcast : (2 ^ 52 : ℚ) ≤ halfEven (y / ulp y) := by exact_mod_cast hmantissa
      rw [hpower, nearest]
      exact mul_le_mul_of_nonneg_right hcast (ulp_pos y).le
    calc
      nearest x ≤ 2 ^ (exponentOf x + 53) := hxle
      _ ≤ 2 ^ (exponentOf y + 52) := zpow_le_zpow_right₀ (by norm_num) (by omega)
      _ ≤ nearest y := hyge

end Binary64
