import Mathlib.Algebra.BigOperators.Group.List.Basic
import Mathlib.Algebra.Order.Field.Basic
import Mathlib.Tactic.Linarith
import Mathlib.Tactic.Ring

/-! Averages in an ordered field lie between the bounds of what they average. -/
namespace Means

variable {K α : Type*} [Field K] [LinearOrder K] [IsStrictOrderedRing K]

/-- A point that moves towards another by a part of their distance stays in every interval that
holds both. -/
theorem moved_between {lo hi x y part : K} (hx : lo ≤ x ∧ x ≤ hi) (hy : lo ≤ y ∧ y ≤ hi)
    (hpart : 0 ≤ part) (hone : part ≤ 1) :
    lo ≤ (y - x) * part + x ∧ (y - x) * part + x ≤ hi := by
  have hrest : 0 ≤ 1 - part := by linarith
  have hsplit : (y - x) * part + x = y * part + x * (1 - part) := by ring
  rw [hsplit]
  constructor
  · calc
      lo = lo * part + lo * (1 - part) := by ring
      _ ≤ y * part + x * (1 - part) :=
        add_le_add (mul_le_mul_of_nonneg_right hy.1 hpart) (mul_le_mul_of_nonneg_right hx.1 hrest)
  · calc
      y * part + x * (1 - part) ≤ hi * part + hi * (1 - part) :=
        add_le_add (mul_le_mul_of_nonneg_right hy.2 hpart) (mul_le_mul_of_nonneg_right hx.2 hrest)
      _ = hi := by ring

/-- A weighted sum lies between the bounds of its values, times the sum of the weights. -/
theorem weighted_between {lo hi : K} {value weight : α → K} {xs : List α}
    (hvalue : ∀ x ∈ xs, lo ≤ value x ∧ value x ≤ hi) (hweight : ∀ x ∈ xs, 0 ≤ weight x) :
    lo * (xs.map weight).sum ≤ (xs.map fun x => value x * weight x).sum ∧
      (xs.map fun x => value x * weight x).sum ≤ hi * (xs.map weight).sum := by
  induction xs with
  | nil => simp
  | cons x xs ih =>
    obtain ⟨hx, hvalue⟩ := List.forall_mem_cons.mp hvalue
    obtain ⟨hwx, hweight⟩ := List.forall_mem_cons.mp hweight
    obtain ⟨hlow, hhigh⟩ := ih hvalue hweight
    rw [List.map_cons, List.map_cons, List.sum_cons, List.sum_cons, mul_add, mul_add]
    exact ⟨add_le_add (mul_le_mul_of_nonneg_right hx.1 hwx) hlow,
      add_le_add (mul_le_mul_of_nonneg_right hx.2 hwx) hhigh⟩

theorem mean_between {lo hi : K} {xs : List K} (h : ∀ x ∈ xs, lo ≤ x ∧ x ≤ hi)
    (hne : 0 < xs.length) : lo ≤ xs.sum / xs.length ∧ xs.sum / xs.length ≤ hi := by
  have hpos : (0 : K) < xs.length := by exact_mod_cast hne
  have hsum := @weighted_between K K _ _ _ lo hi id (fun _ => 1) xs h fun _ _ => zero_le_one
  simp only [id, mul_one, List.map_const', List.sum_replicate, nsmul_eq_mul, List.map_id'] at hsum
  rw [le_div_iff₀ hpos, div_le_iff₀ hpos]
  exact hsum

omit [Field K] [IsStrictOrderedRing K] in
theorem exists_bounds {xs : List K} (h : xs ≠ []) : ∃ lowest highest,
    xs.min? = some lowest ∧ xs.max? = some highest ∧ ∀ x ∈ xs, lowest ≤ x ∧ x ≤ highest := by
  obtain ⟨lowest, hlowest⟩ := Option.ne_none_iff_exists'.mp (mt List.min?_eq_none_iff.mp h)
  obtain ⟨highest, hhighest⟩ := Option.ne_none_iff_exists'.mp (mt List.max?_eq_none_iff.mp h)
  refine ⟨lowest, highest, hlowest, hhighest, fun x hx => ⟨?_, ?_⟩⟩
  · exact (List.min?_eq_some_iff.mp hlowest).2 x hx
  · exact (List.max?_eq_some_iff.mp hhighest).2 x hx

end Means
