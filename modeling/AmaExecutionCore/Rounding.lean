import Mathlib.Algebra.Order.Floor.Ring
import Mathlib.Algebra.Order.Ring.Int
import Mathlib.Data.Rat.Floor
import Mathlib.Tactic.Linarith
import Mathlib.Tactic.FieldSimp

/-! Rounding in an ordered field: down to a multiple of a step, and to the nearest integer with
ties to the even one. -/
namespace Rounding
variable {K : Type*} [Field K] [LinearOrder K] [IsStrictOrderedRing K] [FloorRing K]

/-- The largest multiple of the step that is at most `x`. -/
def down (step x : K) : K := ⌊x / step⌋ * step

variable {step x y : K}

theorem le_down_iff (hstep : 0 < step) (m : ℤ) : m * step ≤ down step x ↔ m * step ≤ x := by
  unfold down
  rw [mul_le_mul_iff_of_pos_right hstep, Int.cast_le, Int.le_floor, le_div_iff₀ hstep]

theorem down_le (hstep : 0 < step) : down step x ≤ x :=
  (le_down_iff hstep ⌊x / step⌋).mp le_rfl

theorem lt_down_add (hstep : 0 < step) : x < down step x + step := by
  have h := Int.lt_floor_add_one (x / step)
  rw [div_lt_iff₀ hstep, add_mul, one_mul] at h
  exact h

/-- The nearest integer, the even one of two that are equally near. -/
def halfEven (x : K) : ℤ :=
  if Int.fract x < 1 / 2 then ⌊x⌋
  else if 1 / 2 < Int.fract x then ⌊x⌋ + 1
  else if ⌊x⌋ % 2 = 0 then ⌊x⌋ else ⌊x⌋ + 1

/-- `x` rounds to `k` or below: it is below the middle between `k` and the next integer, or in
the middle, with `k` the even one. -/
def AtMostMiddle (k : ℤ) (x : K) : Prop := x < k + 1 / 2 ∨ (x = k + 1 / 2 ∧ k % 2 = 0)

theorem halfEven_le_iff (k : ℤ) : halfEven x ≤ k ↔ AtMostMiddle k x := by
  have hfract := Int.self_sub_floor x
  have hlow := Int.fract_nonneg x
  have hhigh := Int.fract_lt_one x
  have hx : x = ⌊x⌋ + Int.fract x := by linarith
  unfold halfEven AtMostMiddle
  generalize ⌊x⌋ = n at *
  generalize Int.fract x = r at *
  subst hx
  obtain hk | rfl | hk := lt_trichotomy n k
  · have hcast : (n : K) + 1 ≤ k := by exact_mod_cast hk
    have hle : (if r < 1 / 2 then n else if 1 / 2 < r then n + 1
        else if n % 2 = 0 then n else n + 1) ≤ k := by
      split_ifs <;> omega
    exact iff_of_true hle (.inl (by linarith))
  · by_cases hbelow : r < 1 / 2
    · rw [if_pos hbelow]
      exact iff_of_true le_rfl (.inl (by linarith))
    · rw [if_neg hbelow]
      by_cases habove : 1 / 2 < r
      · rw [if_pos habove]
        refine iff_of_false (by omega) ?_
        intro h
        obtain h | ⟨h, -⟩ := h <;> linarith
      · rw [if_neg habove]
        have hmid : r = 1 / 2 := le_antisymm (not_lt.mp habove) (not_lt.mp hbelow)
        subst hmid
        by_cases heven : n % 2 = 0
        · rw [if_pos heven]
          exact iff_of_true le_rfl (.inr ⟨rfl, heven⟩)
        · rw [if_neg heven]
          refine iff_of_false (by omega) ?_
          intro h
          obtain h | ⟨-, h⟩ := h
          · exact lt_irrefl _ h
          · exact heven h
  · have hcast : (k : K) + 1 ≤ n := by exact_mod_cast hk
    have hlt : k < (if r < 1 / 2 then n else if 1 / 2 < r then n + 1
        else if n % 2 = 0 then n else n + 1) := by
      split_ifs <;> omega
    refine iff_of_false (not_le.mpr hlt) ?_
    intro h
    obtain h | ⟨h, -⟩ := h <;> linarith

theorem halfEven_eq_of_near {k : ℤ} (hlow : k - 1 / 2 < x) (hhigh : x < k + 1 / 2) :
    halfEven x = k := by
  have hle : halfEven x ≤ k := (halfEven_le_iff k).mpr (.inl hhigh)
  have hnot : ¬ halfEven x ≤ k - 1 := by
    rw [halfEven_le_iff, AtMostMiddle]
    push_cast
    rintro (h | ⟨h, -⟩) <;> linarith
  omega

theorem abs_sub_halfEven_le (x : K) : |x - halfEven x| ≤ 1 / 2 := by
  have hle := (halfEven_le_iff (halfEven x)).mp le_rfl
  have hnot : ¬ halfEven x ≤ halfEven x - 1 := by omega
  rw [halfEven_le_iff, AtMostMiddle] at hnot
  push_cast at hnot
  rw [not_or, not_lt] at hnot
  rw [abs_le]
  constructor
  · linarith [hnot.1]
  · obtain h | ⟨h, -⟩ := hle <;> linarith

theorem halfEven_mono {y : K} (h : x ≤ y) : halfEven x ≤ halfEven y := by
  have hy := (halfEven_le_iff (halfEven y)).mp le_rfl
  apply (halfEven_le_iff _).mpr
  obtain hlt | ⟨heq, heven⟩ := hy
  · exact .inl (lt_of_le_of_lt h hlt)
  · obtain hlt | hsame := lt_or_eq_of_le h
    · exact .inl (heq ▸ hlt)
    · exact .inr ⟨hsame.trans heq, heven⟩

theorem halfEven_intCast (k : ℤ) : halfEven (k : K) = k :=
  halfEven_eq_of_near (by linarith) (by linarith)

theorem halfEven_eq_up_iff : halfEven x = ⌊x⌋ + 1 ↔
    1 / 2 < Int.fract x ∨ (Int.fract x = 1 / 2 ∧ ⌊x⌋ % 2 = 1) := by
  unfold halfEven
  split_ifs with hbelow habove heven
  · refine iff_of_false (by omega) ?_
    intro h
    obtain h | ⟨h, -⟩ := h <;> linarith
  · exact iff_of_true rfl (.inl habove)
  · refine iff_of_false (by omega) ?_
    intro h
    obtain h | ⟨-, h⟩ := h
    · exact habove h
    · omega
  · exact iff_of_true rfl (.inr ⟨le_antisymm (not_lt.mp habove) (not_lt.mp hbelow), by omega⟩)

omit [IsStrictOrderedRing K] in
theorem halfEven_eq_or : halfEven x = ⌊x⌋ ∨ halfEven x = ⌊x⌋ + 1 := by
  unfold halfEven
  split_ifs <;> simp

/-- Rounding to a finer grid of an even number of parts goes no higher than the coarse rounding
when that rounds up, or leaves at most half a fine step. -/
theorem halfEven_mul_le_iff (c : ℕ) (hpos : 0 < c) (heven : c % 2 = 0) :
    halfEven (x * c) ≤ halfEven x * c ↔
      Int.fract x * c ≤ 1 / 2 ∨ 1 / 2 < Int.fract x ∨ (Int.fract x = 1 / 2 ∧ ⌊x⌋ % 2 = 1) := by
  have hc : (0 : K) < c := by exact_mod_cast hpos
  have htie : (halfEven x * c) % 2 = 0 := by
    rw [Int.mul_emod, show (c : ℤ) % 2 = 0 by omega, mul_zero, Int.zero_emod]
  have hmiddle : halfEven (x * c) ≤ halfEven x * c ↔ x * c ≤ halfEven x * c + 1 / 2 := by
    rw [halfEven_le_iff, AtMostMiddle, le_iff_lt_or_eq]
    simp [htie]
  have hx : x = ⌊x⌋ + Int.fract x := (Int.floor_add_fract x).symm
  rw [hmiddle, ← halfEven_eq_up_iff]
  obtain hdown | hup := @halfEven_eq_or K _ _ _ x
  · have hne : ¬ halfEven x = ⌊x⌋ + 1 := by omega
    rw [or_iff_left hne, hdown]
    constructor
    · intro h
      nlinarith
    · intro h
      nlinarith
  · refine iff_of_true ?_ (.inr hup)
    have hlt := Int.fract_lt_one x
    rw [hup]
    push_cast
    nlinarith

/-- A positive number rounds to zero when it is at most one half. -/
theorem halfEven_eq_zero_iff (hx : 0 < x) : halfEven x = 0 ↔ x ≤ 1 / 2 := by
  have hnonneg : 0 ≤ halfEven x := by
    by_contra hneg
    have hle : halfEven x ≤ -1 := by omega
    obtain h | ⟨h, -⟩ := (halfEven_le_iff (-1)).mp hle <;> push_cast at h <;> linarith
  have hle : halfEven x ≤ 0 ↔ x ≤ 1 / 2 := by
    rw [halfEven_le_iff, AtMostMiddle, le_iff_lt_or_eq]
    simp
  rw [← hle]
  omega

end Rounding
