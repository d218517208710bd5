import AmaExecutionCore.Rounding
import Mathlib.Algebra.BigOperators.Group.List.Basic
import Mathlib.Algebra.Order.Field.Power
import Mathlib.Data.Int.Log
import Mathlib.Tactic.Positivity
import Mathlib.Tactic.Ring

/-! Decimal arithmetic in a context, which rounds the result of each operation: to so many
significant digits, or not at all. Overflow and underflow are left out. -/
namespace Rounding
variable {x y : ℚ} {p : ℕ}

/-- The value of the last of `p` significant digits. -/
def quantum (p : ℕ) (x : ℚ) : ℚ := 10 ^ (Int.log 10 |x| + 1 - p)

def magnitudeToDigits (p : ℕ) (x : ℚ) : ℚ := halfEven (|x| / quantum p x) * quantum p x

/-- The nearest number of `p` significant digits, with ties to the even last digit. -/
def toDigits (p : ℕ) (x : ℚ) : ℚ := if x < 0 then -magnitudeToDigits p x else magnitudeToDigits p x

theorem quantum_pos (p : ℕ) (x : ℚ) : 0 < quantum p x := by
  unfold quantum
  positivity

theorem quantum_neg (p : ℕ) (x : ℚ) : quantum p (-x) = quantum p x := by
  rw [quantum, quantum, abs_neg]

theorem toDigits_of_pos (h : 0 < x) :
    toDigits p x = halfEven (x / quantum p x) * quantum p x := by
  rw [toDigits, if_neg h.not_gt, magnitudeToDigits, abs_of_pos h]

theorem toDigits_zero (p : ℕ) : toDigits p 0 = 0 := by
  have hzero : halfEven (0 : ℚ) = 0 := by exact_mod_cast halfEven_intCast (K := ℚ) 0
  rw [toDigits, if_neg (lt_irrefl 0), magnitudeToDigits, abs_zero, zero_div, hzero, Int.cast_zero,
    zero_mul]

theorem toDigits_neg (p : ℕ) (x : ℚ) : toDigits p (-x) = -toDigits p x := by
  have hmagnitude : magnitudeToDigits p (-x) = magnitudeToDigits p x := by
    rw [magnitudeToDigits, magnitudeToDigits, abs_neg, quantum_neg]
  obtain hneg | rfl | hpos := lt_trichotomy x 0
  · rw [toDigits, toDigits, if_neg (by linarith), if_pos hneg, hmagnitude, neg_neg]
  · rw [neg_zero, toDigits_zero, neg_zero]
  · rw [toDigits, toDigits, if_pos (by linarith), if_neg (by linarith), hmagnitude]

/-- The last digit is so small that the number has `p` digits before it ends. -/
theorem quantum_mul_le (hx : 0 < x) : 10 ^ ((p : ℤ) - 1) * quantum p x ≤ x := by
  have hlog := Int.zpow_log_le_self (b := 10) (by decide) hx
  rw [quantum, abs_of_pos hx, ← zpow_add₀ (by decide)]
  rw [Nat.cast_ofNat] at hlog
  rwa [show (p : ℤ) - 1 + (Int.log 10 x + 1 - p) = Int.log 10 x by omega]

theorem lt_quantum_mul (hx : 0 < x) : x < 10 ^ (p : ℤ) * quantum p x := by
  have hlog := Int.lt_zpow_succ_log_self (b := 10) (by decide) x
  rw [quantum, abs_of_pos hx, ← zpow_add₀ (by decide)]
  rw [Nat.cast_ofNat] at hlog
  rwa [show (p : ℤ) + (Int.log 10 x + 1 - p) = Int.log 10 x + 1 by omega]

/-- The digits of a positive number make an integer of `p` digits, or are carried into the next
power of ten. -/
theorem digits_between (hp : 0 < p) (hx : 0 < x) :
    10 ^ (p - 1) ≤ halfEven (x / quantum p x) ∧ halfEven (x / quantum p x) ≤ 10 ^ p := by
  have hpos := quantum_pos p x
  have hlow : ((10 ^ (p - 1) : ℤ) : ℚ) ≤ x / quantum p x := by
    have h := quantum_mul_le (p := p) hx
    rw [show (p : ℤ) - 1 = ((p - 1 : ℕ) : ℤ) by omega, zpow_natCast] at h
    rw [le_div_iff₀ hpos]
    exact_mod_cast h
  have hhigh : x / quantum p x ≤ ((10 ^ p : ℤ) : ℚ) := by
    have h := (lt_quantum_mul (p := p) hx).le
    rw [zpow_natCast] at h
    rw [div_le_iff₀ hpos]
    exact_mod_cast h
  have hlow' := halfEven_mono hlow
  have hhigh' := halfEven_mono hhigh
  rw [halfEven_intCast] at hlow' hhigh'
  exact ⟨hlow', hhigh'⟩

theorem toDigits_pos (hp : 0 < p) (hx : 0 < x) : 0 < toDigits p x := by
  have hdigits : (0 : ℤ) < halfEven (x / quantum p x) :=
    lt_of_lt_of_le (by positivity) (digits_between hp hx).1
  rw [toDigits_of_pos hx]
  exact mul_pos (by exact_mod_cast hdigits) (quantum_pos p x)

theorem toDigits_mono_of_pos (hp : 0 < p) (hx : 0 < x) (h : x ≤ y) :
    toDigits p x ≤ toDigits p y := by
  have hy := lt_of_lt_of_le hx h
  have hlog : Int.log 10 x ≤ Int.log 10 y := Int.log_mono_right hx h
  rw [toDigits_of_pos hx, toDigits_of_pos hy]
  obtain hsame | hlower := eq_or_lt_of_le hlog
  · have hquantum : quantum p x = quantum p y := by
      rw [quantum, quantum, abs_of_pos hx, abs_of_pos hy, hsame]
    rw [hquantum]
    apply mul_le_mul_of_nonneg_right _ (quantum_pos p y).le
    exact_mod_cast halfEven_mono (div_le_div_of_nonneg_right h (quantum_pos p y).le)
  · -- a power of ten lies between them
    have hxle : (halfEven (x / quantum p x) : ℚ) ≤ 10 ^ p := by
      exact_mod_cast (digits_between hp hx).2
    have hyge : (10 : ℚ) ^ (p - 1) ≤ halfEven (y / quantum p y) := by
      exact_mod_cast (digits_between hp hy).1
    have hcarry : (10 : ℚ) ^ p * quantum p x ≤ 10 ^ (p - 1) * quantum p y := by
      rw [quantum, quantum, abs_of_pos hx, abs_of_pos hy, ← zpow_natCast, ← zpow_natCast,
        ← zpow_add₀ (by decide), ← zpow_add₀ (by decide)]
      exact zpow_le_zpow_right₀ (by norm_num) (by omega)
    calc
      halfEven (x / quantum p x) * quantum p x ≤ 10 ^ p * quantum p x :=
        mul_le_mul_of_nonneg_right hxle (quantum_pos p x).le
      _ ≤ 10 ^ (p - 1) * quantum p y := hcarry
      _ ≤ halfEven (y / quantum p y) * quantum p y :=
        mul_le_mul_of_nonneg_right hyge (quantum_pos p y).le

theorem toDigits_mono (hp : 0 < p) : Monotone (toDigits p) := by
  intro x y h
  obtain hneg | rfl | hpos := lt_trichotomy x 0
  · have hx : toDigits p x < 0 := by
      have h := toDigits_pos hp (neg_pos.mpr hneg)
      rw [toDigits_neg] at h
      exact neg_pos.mp h
    obtain hyneg | rfl | hypos := lt_trichotomy y 0
    · have hmagnitude := toDigits_mono_of_pos hp (neg_pos.mpr hyneg) (neg_le_neg h)
      rw [toDigits_neg, toDigits_neg] at hmagnitude
      exact neg_le_neg_iff.mp hmagnitude
    · rw [toDigits_zero]
      exact hx.le
    · exact hx.le.trans (toDigits_pos hp hypos).le
  · obtain rfl | hypos := eq_or_lt_of_le h
    · exact le_rfl
    · rw [toDigits_zero]
      exact (toDigits_pos hp hypos).le
  · exact toDigits_mono_of_pos hp hpos h

theorem toDigits_of_multiple {m : ℤ} (hx : 0 < x) (h : x = m * quantum p x) : toDigits p x = x := by
  have hquotient : x / quantum p x = m := (div_eq_iff (quantum_pos p x).ne').mpr h
  rw [toDigits_of_pos hx, hquotient, halfEven_intCast, ← h]

theorem quantum_eq {e : ℤ} (hlow : 10 ^ e ≤ y) (hhigh : y < 10 ^ (e + 1)) :
    quantum p y = 10 ^ (e + 1 - p) := by
  have hy : 0 < y := lt_of_lt_of_le (by positivity) hlow
  have hle : e ≤ Int.log 10 y := (Int.zpow_le_iff_le_log (b := 10) (by decide) hy).mp hlow
  have hlt : Int.log 10 y < e + 1 := (Int.lt_zpow_iff_log_lt (b := 10) (by decide) hy).mp hhigh
  rw [quantum, abs_of_pos hy, show Int.log 10 y = e by omega]

theorem toDigits_toDigits_of_pos (hp : 0 < p) (hx : 0 < x) :
    toDigits p (toDigits p x) = toDigits p x := by
  have hpos := toDigits_pos hp hx
  obtain ⟨hlow, hhigh⟩ := digits_between hp hx
  have hquantum : quantum p x = 10 ^ (Int.log 10 x + 1 - p) := by rw [quantum, abs_of_pos hx]
  have hvalue := toDigits_of_pos (p := p) hx
  generalize halfEven (x / quantum p x) = m at hlow hhigh hvalue
  generalize toDigits p x = y at hpos hvalue
  generalize Int.log 10 x = e at hquantum
  have hqpos := quantum_pos p x
  have hstart : (10 : ℚ) ^ e ≤ y := by
    have hdigits : (10 : ℚ) ^ (p - 1) ≤ m := by exact_mod_cast hlow
    calc
      (10 : ℚ) ^ e = 10 ^ (p - 1) * quantum p x := by
        rw [hquantum, ← zpow_natCast, ← zpow_add₀ (by decide)]
        congr 1
        omega
      _ ≤ m * quantum p x := mul_le_mul_of_nonneg_right hdigits hqpos.le
      _ = y := hvalue.symm
  have hend : (10 : ℚ) ^ (e + 1) = 10 ^ p * quantum p x := by
    rw [hquantum, ← zpow_natCast, ← zpow_add₀ (by decide)]
    congr 1
    omega
  obtain hlt | rfl := lt_or_eq_of_le hhigh
  · have hdigits : (m : ℚ) < 10 ^ p := by exact_mod_cast hlt
    have hbelow : y < 10 ^ (e + 1) := by
      rw [hend, hvalue]
      exact mul_lt_mul_of_pos_right hdigits hqpos
    exact toDigits_of_multiple hpos (by rw [quantum_eq hstart hbelow, ← hquantum, hvalue])
  · -- the digits are carried: one and zeros, in the next power of ten
    have hcarried : y = 10 ^ (e + 1) := by
      rw [hend, hvalue]
      push_cast
      rfl
    have hnext : y < 10 ^ (e + 1 + 1) := by
      rw [hcarried]
      exact zpow_lt_zpow_right₀ (by norm_num) (by omega)
    apply toDigits_of_multiple (m := 10 ^ (p - 1)) hpos
    rw [quantum_eq hcarried.ge hnext, hcarried]
    push_cast
    rw [← zpow_natCast, ← zpow_add₀ (by decide)]
    congr 1
    omega

theorem toDigits_toDigits (hp : 0 < p) (x : ℚ) : toDigits p (toDigits p x) = toDigits p x := by
  obtain hneg | rfl | hpos := lt_trichotomy x 0
  · have h := toDigits_toDigits_of_pos hp (neg_pos.mpr hneg)
    rw [toDigits_neg, toDigits_neg] at h
    exact neg_injective h
  · rw [toDigits_zero, toDigits_zero]
  · exact toDigits_toDigits_of_pos hp hpos

end Rounding

/-- How the result of an operation is rounded. -/
structure DecimalContext where
  round : ℚ → ℚ
  mono : Monotone round
  round_neg (x : ℚ) : round (-x) = -round x
  round_round (x : ℚ) : round (round x) = round x
  round_pos {x : ℚ} : 0 < x → 0 < round x

namespace DecimalContext

def exact : DecimalContext where
  round x := x
  mono := monotone_id
  round_neg _ := rfl
  round_round _ := rfl
  round_pos h := h

/-- Arithmetic with `p` significant digits. -/
def digits (p : ℕ) (hp : 0 < p) : DecimalContext where
  round := Rounding.toDigits p
  mono := Rounding.toDigits_mono hp
  round_neg := Rounding.toDigits_neg p
  round_round := Rounding.toDigits_toDigits hp
  round_pos := Rounding.toDigits_pos hp

variable (context : DecimalContext) (x y : ℚ)

def add : ℚ := context.round (x + y)
def sub : ℚ := context.round (x - y)
def mul : ℚ := context.round (x * y)
def div : ℚ := context.round (x / y)
def abs : ℚ := context.round |x|

/-- The sum from left to right. -/
def sum (xs : List ℚ) : ℚ := xs.foldl context.add 0

/-- The number has no digits that the context would drop. -/
def Holds : Prop := context.round x = x

instance : Decidable (context.Holds x) := inferInstanceAs (Decidable (context.round x = x))

section Exact

@[simp] theorem exact_add : exact.add x y = x + y := rfl
@[simp] theorem exact_sub : exact.sub x y = x - y := rfl
@[simp] theorem exact_mul : exact.mul x y = x * y := rfl
@[simp] theorem exact_div : exact.div x y = x / y := rfl
@[simp] theorem exact_abs : exact.abs x = |x| := rfl

@[simp] theorem exact_sum (xs : List ℚ) : exact.sum xs = xs.sum := List.sum_eq_foldl.symm

end Exact

variable {context x y}

@[simp] theorem round_zero : context.round 0 = 0 := by
  have h := context.round_neg 0
  rw [neg_zero] at h
  linarith

theorem round_nonneg_iff : 0 ≤ context.round x ↔ 0 ≤ x := by
  constructor
  · intro h
    by_contra hneg
    have hpos := context.round_pos (neg_pos.mpr (not_le.mp hneg))
    rw [context.round_neg] at hpos
    linarith
  · intro h
    have hmono := context.mono h
    rwa [round_zero] at hmono

theorem round_nonpos_iff : context.round x ≤ 0 ↔ x ≤ 0 := by
  rw [← neg_nonneg, ← context.round_neg, round_nonneg_iff, neg_nonneg]

theorem round_eq_zero_iff : context.round x = 0 ↔ x = 0 := by
  rw [le_antisymm_iff, le_antisymm_iff, round_nonneg_iff, round_nonpos_iff]

theorem sub_mono (y : ℚ) : Monotone (context.sub · y) :=
  fun _ _ h => context.mono (sub_le_sub_right h y)

theorem sum_concat (xs : List ℚ) : context.sum (xs ++ [x]) = context.add (context.sum xs) x := by
  rw [sum, List.foldl_append]
  rfl

theorem round_sum (xs : List ℚ) : context.round (context.sum xs) = context.sum xs := by
  induction xs using List.reverseRecOn with
  | nil => exact round_zero
  | append_singleton xs x _ =>
    rw [sum_concat]
    exact context.round_round _

end DecimalContext
