import Mathlib.Algebra.BigOperators.Group.List.Basic
import Mathlib.Data.List.Induction
import Mathlib.Data.List.Perm.Basic
import Mathlib.Data.List.Sort
import Mathlib.Order.Lattice

/-! Lists collected by a key, in the order in which the keys come up, and sorted by it. -/
namespace Grouping

section Groups

variable {κ α : Type*} [DecidableEq κ]

/-- `groups[key].append(x)`, where a new key comes last. -/
def append (key : κ) (x : α) : List (κ × List α) → List (κ × List α)
  | [] => [(key, [x])]
  | group :: groups =>
    if group.1 = key then (key, group.2 ++ [x]) :: groups else group :: append key x groups

/-- The elements, collected by their keys. -/
def groupBy (key : α → κ) (xs : List α) : List (κ × List α) :=
  xs.foldl (fun groups x => append (key x) x groups) []

variable {key : α → κ} {k : κ} {x : α} {groups : List (κ × List α)}

theorem mem_keys_append (groups : List (κ × List α)) (k : κ) (x : α) (k' : κ) :
    k' ∈ (append k x groups).map Prod.fst ↔ k' = k ∨ k' ∈ groups.map Prod.fst := by
  induction groups with
  | nil => simp [append]
  | cons group groups ih =>
    by_cases hkey : group.1 = k
    · rw [append, if_pos hkey, List.map_cons, List.map_cons, List.mem_cons, List.mem_cons, hkey]
      tauto
    · rw [append, if_neg hkey, List.map_cons, List.map_cons, List.mem_cons, List.mem_cons, ih]
      tauto

theorem nodup_append (h : (groups.map Prod.fst).Nodup) :
    ((append k x groups).map Prod.fst).Nodup := by
  induction groups with
  | nil => exact List.nodup_singleton _
  | cons group groups ih =>
    obtain ⟨hnew, hrest⟩ := List.nodup_cons.mp h
    by_cases hkey : group.1 = k
    · rw [append, if_pos hkey]
      exact List.nodup_cons.mpr ⟨hkey ▸ hnew, hrest⟩
    · rw [append, if_neg hkey]
      refine List.nodup_cons.mpr ⟨fun hmem => ?_, ih hrest⟩
      obtain heq | hmem := (mem_keys_append groups k x group.1).mp hmem
      · exact hkey heq
      · exact hnew hmem

theorem flatMap_append_perm (groups : List (κ × List α)) (k : κ) (x : α) :
    ((append k x groups).flatMap Prod.snd).Perm (groups.flatMap Prod.snd ++ [x]) := by
  induction groups with
  | nil => exact .refl _
  | cons group groups ih =>
    by_cases hkey : group.1 = k
    · rw [append, if_pos hkey, List.flatMap_cons, List.flatMap_cons, List.append_assoc,
        List.append_assoc]
      exact List.perm_append_comm.append_left group.2
    · rw [append, if_neg hkey, List.flatMap_cons, List.flatMap_cons, List.append_assoc]
      exact ih.append_left group.2

theorem groupBy_concat (key : α → κ) (xs : List α) (x : α) :
    groupBy key (xs ++ [x]) = append (key x) x (groupBy key xs) := by
  rw [groupBy, List.foldl_append]
  rfl

theorem nodup_groupBy (key : α → κ) (xs : List α) : ((groupBy key xs).map Prod.fst).Nodup := by
  induction xs using List.reverseRecOn with
  | nil => exact List.nodup_nil
  | append_singleton xs x ih =>
    rw [groupBy_concat]
    exact nodup_append ih

/-- The groups together hold every element once. -/
theorem flatMap_groupBy_perm (key : α → κ) (xs : List α) :
    ((groupBy key xs).flatMap Prod.snd).Perm xs := by
  induction xs using List.reverseRecOn with
  | nil => exact .refl _
  | append_singleton xs x ih =>
    rw [groupBy_concat]
    exact (flatMap_append_perm _ _ _).trans (ih.append_right [x])

/-- What the groups add up to is what the elements add up to. -/
theorem sum_groupBy {M : Type*} [AddCommMonoid M] (f : α → M) (key : α → κ) (xs : List α) :
    ((groupBy key xs).map fun group => (group.2.map f).sum).sum = (xs.map f).sum := by
  have hperm := ((flatMap_groupBy_perm key xs).map f).sum_eq
  rw [← hperm, List.map_flatMap, List.flatMap, List.sum_flatten, List.map_map]
  rfl

end Groups

section Order

variable {κ α : Type*} [LinearOrder κ]

/-- `sorted(groups.items())`, with distinct keys. -/
def sortByKey (groups : List (κ × List α)) : List (κ × List α) :=
  groups.mergeSort fun group group' => decide (group.1 ≤ group'.1)

theorem sortByKey_perm (groups : List (κ × List α)) : (sortByKey groups).Perm groups :=
  List.mergeSort_perm _ _

/-- Distinct keys are strictly ascending once they are sorted. -/
theorem ascending_sortByKey {groups : List (κ × List α)} (h : (groups.map Prod.fst).Nodup) :
    ((sortByKey groups).map Prod.fst).Pairwise (· < ·) := by
  have hsorted : (sortByKey groups).Pairwise fun group group' => group.1 ≤ group'.1 := by
    have htrans : ∀ a b c : κ × List α, decide (a.1 ≤ b.1) = true → decide (b.1 ≤ c.1) = true →
        decide (a.1 ≤ c.1) = true := by
      intro a b c hab hbc
      exact decide_eq_true (le_trans (of_decide_eq_true hab) (of_decide_eq_true hbc))
    have htotal : ∀ a b : κ × List α, (decide (a.1 ≤ b.1) || decide (b.1 ≤ a.1)) = true := by
      intro a b
      simpa using le_total a.1 b.1
    exact (List.pairwise_mergeSort htrans htotal groups).imp fun hle => of_decide_eq_true hle
  have hnodup : ((sortByKey groups).map Prod.fst).Nodup :=
    ((sortByKey_perm groups).map Prod.fst).nodup_iff.mpr h
  have hle : ((sortByKey groups).map Prod.fst).Pairwise (· ≤ ·) := List.pairwise_map.mpr hsorted
  exact hle.imp₂ (fun _ _ => lt_of_le_of_ne) hnodup

end Order

end Grouping
