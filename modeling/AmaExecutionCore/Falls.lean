import Mathlib.Algebra.BigOperators.Group.List.Basic
import Mathlib.Order.Bounds.Image

/-! The points of a curve that a list of changes draws, the falls between them, and the greatest of
both after one more change. -/
namespace Falls

section Curve

variable {α K : Type*} (point : List α → K) (gap : K → K → K)

/-- The points of the curve, the start included. -/
def heights (changes : List α) : Set K :=
  {height | ∃ before, before <+: changes ∧ height = point before}

/-- The gaps between a point of the curve and a later one. -/
def falls (changes : List α) : Set K :=
  {fall | ∃ before through, before <+: through ∧ through <+: changes ∧
    fall = gap (point before) (point through)}

theorem heights_concat (changes : List α) (x : α) :
    heights point (changes ++ [x]) = insert (point (changes ++ [x])) (heights point changes) := by
  ext height
  constructor
  · rintro ⟨before, hbefore, rfl⟩
    obtain rfl | hbefore := List.prefix_concat_iff.mp hbefore
    · exact Set.mem_insert _ _
    · exact Set.mem_insert_of_mem _ ⟨before, hbefore, rfl⟩
  · rintro (rfl | ⟨before, hbefore, rfl⟩)
    · exact ⟨_, List.prefix_refl _, rfl⟩
    · exact ⟨before, hbefore.trans (List.prefix_append _ _), rfl⟩

/-- A fall after one more change was there before, or ends with the change. -/
theorem falls_concat (changes : List α) (x : α) :
    falls point gap (changes ++ [x]) = falls point gap changes ∪
      (gap · (point (changes ++ [x]))) '' heights point (changes ++ [x]) := by
  ext fall
  constructor
  · rintro ⟨before, through, hbefore, hthrough, rfl⟩
    obtain rfl | hthrough := List.prefix_concat_iff.mp hthrough
    · exact .inr ⟨_, ⟨before, hbefore, rfl⟩, rfl⟩
    · exact .inl ⟨before, through, hbefore, hthrough, rfl⟩
  · rintro (⟨before, through, hbefore, hthrough, rfl⟩ | ⟨_, ⟨before, hbefore, rfl⟩, rfl⟩)
    · exact ⟨before, through, hbefore, hthrough.trans (List.prefix_append _ _), rfl⟩
    · exact ⟨before, changes ++ [x], hbefore, List.prefix_refl _, rfl⟩

/-- The falls, by the numbers of changes before and through them. -/
theorem mem_falls_iff (changes : List α) (fall : K) :
    fall ∈ falls point gap changes ↔ ∃ i j, i ≤ j ∧ j ≤ changes.length ∧
      fall = gap (point (changes.take i)) (point (changes.take j)) := by
  constructor
  · rintro ⟨before, through, hbefore, hthrough, rfl⟩
    refine ⟨before.length, through.length, hbefore.length_le, hthrough.length_le, ?_⟩
    rw [← List.prefix_iff_eq_take.mp hthrough,
      ← List.prefix_iff_eq_take.mp (hbefore.trans hthrough)]
  · rintro ⟨i, j, hij, -, rfl⟩
    refine ⟨changes.take i, changes.take j, ?_, List.take_prefix _ _, rfl⟩
    rw [← min_eq_left hij, ← List.take_take]
    exact List.take_prefix _ _

variable {point gap} [LinearOrder K]

theorem isGreatest_heights_concat {changes : List α} {peak : K} (x : α)
    (h : IsGreatest (heights point changes) peak) :
    IsGreatest (heights point (changes ++ [x])) (max peak (point (changes ++ [x]))) := by
  rw [heights_concat, max_comm]
  exact h.insert _

/-- The largest fall after one more change: it was there before, or it starts at the peak and
ends with the change. -/
theorem isGreatest_falls_concat {changes : List α} {peak largest : K} (x : α)
    (hmono : Monotone (gap · (point (changes ++ [x]))))
    (hpeak : IsGreatest (heights point (changes ++ [x])) peak)
    (h : IsGreatest (falls point gap changes) largest) :
    IsGreatest (falls point gap (changes ++ [x]))
      (max largest (gap peak (point (changes ++ [x])))) := by
  rw [falls_concat]
  exact h.union (hmono.map_isGreatest hpeak)

end Curve

/-- The falls of a curve of exact sums are the losses over runs of consecutive changes. -/
theorem falls_sum {K : Type*} [AddCommGroup K] (changes : List K) :
    falls List.sum (· - ·) changes = {loss | ∃ run, run <:+: changes ∧ loss = -run.sum} := by
  ext loss
  constructor
  · rintro ⟨before, _, ⟨run, rfl⟩, hthrough, rfl⟩
    refine ⟨run, (List.suffix_append before run).isInfix.trans hthrough.isInfix, ?_⟩
    rw [List.sum_append]
    exact sub_add_cancel_left _ _
  · rintro ⟨run, ⟨before, after, rfl⟩, rfl⟩
    refine ⟨before, before ++ run, List.prefix_append _ _, List.prefix_append _ _, ?_⟩
    rw [List.sum_append]
    exact (sub_add_cancel_left _ _).symm

end Falls
