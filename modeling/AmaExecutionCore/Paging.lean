import Mathlib.Data.List.DropRight
import Mathlib.Data.List.Sort

/-! An ascending history read in pages, the newest page first. The pages come in any order; what
is collected is sorted by its key, with one item for each key. -/
namespace Paging

variable {α κ : Type*} [LinearOrder κ]

/-- `sorted(xs, key=key)`. -/
def sortBy (key : α → κ) (xs : List α) : List α :=
  xs.mergeSort fun x y => decide (key x ≤ key y)

/-- `values[key(x)] = x`, where a key that is there keeps its place. -/
def put (key : α → κ) (x : α) : List α → List α
  | [] => [x]
  | y :: ys => if key y = key x then x :: ys else y :: put key x ys

/-- The values of `{key(x): x for x in xs}`. -/
def distinctBy (key : α → κ) (xs : List α) : List α :=
  xs.foldl (fun values x => put key x values) []

def Ascending (key : α → κ) (xs : List α) : Prop := xs.Pairwise fun x y => key x < key y

section Order

variable {key : α → κ} {xs ys : List α}

theorem Ascending.nodup (h : Ascending key xs) : (xs.map key).Nodup := by
  apply List.pairwise_map.mpr
  exact h.imp fun hlt => ne_of_lt hlt

theorem Ascending.drop (h : Ascending key xs) (n : Nat) : Ascending key (xs.drop n) :=
  List.Pairwise.sublist (List.drop_sublist n xs) h

theorem Ascending.take (h : Ascending key xs) (n : Nat) : Ascending key (xs.take n) :=
  List.Pairwise.sublist (List.take_sublist n xs) h

theorem sortBy_perm (key : α → κ) (xs : List α) : (sortBy key xs).Perm xs :=
  List.mergeSort_perm _ _

theorem length_sortBy (key : α → κ) (xs : List α) : (sortBy key xs).length = xs.length :=
  (sortBy_perm key xs).length_eq

theorem pairwise_sortBy (key : α → κ) (xs : List α) :
    (sortBy key xs).Pairwise fun x y => key x ≤ key y := by
  have htrans : ∀ a b c : α, decide (key a ≤ key b) = true → decide (key b ≤ key c) = true →
      decide (key a ≤ key c) = true := by
    intro a b c hab hbc
    exact decide_eq_true (le_trans (of_decide_eq_true hab) (of_decide_eq_true hbc))
  have htotal : ∀ a b : α, (decide (key a ≤ key b) || decide (key b ≤ key a)) = true := by
    intro a b
    simpa using le_total (key a) (key b)
  exact (List.pairwise_mergeSort htrans htotal xs).imp fun hle => of_decide_eq_true hle

/-- Sorting puts the items of an ascending list back in their order. -/
theorem sortBy_eq (hperm : xs.Perm ys) (h : Ascending key ys) : sortBy key xs = ys := by
  have hle : ys.Pairwise fun x y => key x ≤ key y := h.imp le_of_lt
  have hall : (sortBy key xs).Perm ys := (sortBy_perm key xs).trans hperm
  have heq : ∀ x ∈ ys, ∀ y ∈ ys, key x = key y → x = y := fun x hx y hy =>
    List.inj_on_of_nodup_map h.nodup hx hy
  apply List.Perm.eq_of_pairwise _ (pairwise_sortBy key xs) hle hall
  intro x y hx hy hxy hyx
  exact heq x (hall.mem_iff.mp hx) y hy (le_antisymm hxy hyx)

theorem ascending_sortBy (h : (xs.map key).Nodup) : Ascending key (sortBy key xs) := by
  have hnodup : (sortBy key xs).Pairwise fun x y => key x ≠ key y :=
    List.pairwise_map.mp (((sortBy_perm key xs).map key).nodup_iff.mpr h)
  exact (pairwise_sortBy key xs).imp₂ (fun _ _ => lt_of_le_of_ne) hnodup

/-- Lists with the same items sort to the same list, when no key comes twice. -/
theorem sortBy_eq_iff (hys : (ys.map key).Nodup) :
    sortBy key xs = sortBy key ys ↔ xs.Perm ys := by
  constructor
  · intro heq
    exact (sortBy_perm key xs).symm.trans (heq ▸ sortBy_perm key ys)
  · intro hperm
    exact sortBy_eq (hperm.trans (sortBy_perm key ys).symm) (ascending_sortBy hys)

theorem put_of_notMem {x : α} (h : key x ∉ xs.map key) : put key x xs = xs ++ [x] := by
  induction xs with
  | nil => rfl
  | cons y ys ih =>
    rw [List.map_cons, List.mem_cons, not_or] at h
    rw [put, if_neg (Ne.symm h.1), ih h.2, List.cons_append]

/-- Items with different keys are all kept, where they came. -/
theorem distinctBy_eq (h : (xs.map key).Nodup) : distinctBy key xs = xs := by
  have hfold : ∀ values, ((values ++ xs).map key).Nodup →
      xs.foldl (fun values x => put key x values) values = values ++ xs := by
    clear h
    induction xs with
    | nil => exact fun values _ => (List.append_nil values).symm
    | cons x xs ih =>
      intro values hnodup
      have hnew : key x ∉ values.map key := by
        rw [List.map_append, List.map_cons, List.nodup_middle, List.nodup_cons] at hnodup
        exact fun hmem => hnodup.1 (List.mem_append_left _ hmem)
      rw [List.foldl_cons, put_of_notMem hnew, ih, List.append_assoc, List.singleton_append]
      rwa [List.append_assoc, List.singleton_append]
  exact hfold [] h

theorem sortBy_distinctBy (hperm : xs.Perm ys) (h : Ascending key ys) :
    sortBy key (distinctBy key xs) = ys := by
  rw [distinctBy_eq ((hperm.map key).nodup_iff.mpr h.nodup)]
  exact sortBy_eq hperm h

end Order

section Pages

/-- What is collected of a history are its newest items, and the next request reaches all the
others. -/
structure Collected (history : List α) (reached : α → Bool) (xs : List α) : Prop where
  length_le : xs.length ≤ history.length
  perm : xs.Perm (history.rtake xs.length)
  older : history.filter reached = history.rdrop xs.length

variable {key : α → κ} {history xs batch : List α} {reached : α → Bool} {limit : Nat}

theorem Collected.nil (history : List α) : Collected history (fun _ => true) [] where
  length_le := Nat.zero_le _
  perm := by simp
  older := by simp

theorem Collected.length_page (h : Collected history reached xs)
    (hbatch : batch.Perm ((history.filter reached).rtake limit)) :
    batch.length = min limit (history.length - xs.length) := by
  rw [hbatch.length_eq, h.older, List.rtake, List.rdrop, List.length_drop, List.length_take]
  omega

theorem Collected.perm_newest {total : Nat} (h : Collected history reached xs)
    (hle : xs.length ≤ total)
    (hdone : xs.length = total ∨ xs.length = history.length) :
    xs.Perm (history.rtake total) := by
  have hsame : history.rtake xs.length = history.rtake total := by
    rw [List.rtake, List.rtake]
    congr 1
    omega
  exact hsame ▸ h.perm

theorem split_page (xs : List α) {m n : Nat} (h : m ≤ n) :
    xs = xs.take m ++ ((xs.take n).drop m ++ xs.drop n) := by
  have htake : (xs.take n).take m = xs.take m := by rw [List.take_take, min_eq_left h]
  rw [← List.append_assoc, ← htake, List.take_append_drop, List.take_append_drop]

/-- One more page is collected, when the next request reaches just what is older than it. -/
theorem Collected.page (h : Collected history reached xs) (hascending : Ascending key history)
    (hbatch : batch.Perm ((history.filter reached).rtake limit)) {oldest : α} {newer : List α}
    (hsorted : sortBy key batch = oldest :: newer) {reached' : α → Bool}
    (hcut : ∀ x ∈ history, reached' x = true ↔ key x < key oldest) :
    Collected history reached' (xs ++ (oldest :: newer)) := by
  have hlength := h.length_page hbatch
  have hle := h.length_le
  obtain ⟨size, hsize⟩ : ∃ size, size = batch.length := ⟨_, rfl⟩
  have hpageLength : (oldest :: newer).length = size := by
    rw [← hsorted, length_sortBy, hsize]
  have hpage : oldest :: newer = (history.take (history.length - xs.length)).drop
      (history.length - xs.length - size) := by
    rw [← hsorted, sortBy_eq hbatch]
    · rw [h.older, List.rtake, List.rdrop, List.length_take]
      congr 1
      omega
    · rw [h.older, List.rtake, List.rdrop]
      exact (hascending.take _).drop _
  have hsplit : history = history.take (history.length - xs.length - size) ++
      ((oldest :: newer) ++ history.drop (history.length - xs.length)) := by
    rw [hpage]
    exact split_page history (Nat.sub_le _ _)
  have hcount : (xs ++ (oldest :: newer)).length = xs.length + size := by
    rw [List.length_append, hpageLength]
  have hposition : history.length - (xs.length + size) = history.length - xs.length - size := by
    omega
  refine ⟨by rw [hcount]; omega, ?_, ?_⟩
  · rw [hcount, List.rtake, hposition]
    have hnewest : history.drop (history.length - xs.length - size) =
        (oldest :: newer) ++ history.drop (history.length - xs.length) := by
      apply (congrArg (List.drop _) hsplit).trans
      apply List.drop_left'
      rw [List.length_take]
      omega
    rw [hnewest]
    exact (h.perm.append_right _).trans List.perm_append_comm
  · rw [hcount, List.rdrop, hposition]
    have holder : ∀ x ∈ history.take (history.length - xs.length - size),
        reached' x = true := by
      intro x hx
      apply (hcut x (List.mem_of_mem_take hx)).mpr
      rw [Ascending, hsplit] at hascending
      exact (List.pairwise_append.mp hascending).2.2 x hx oldest
        (List.mem_append_left _ List.mem_cons_self)
    have hrest : ∀ x ∈ (oldest :: newer) ++ history.drop (history.length - xs.length),
        ¬ reached' x = true := by
      intro x hx hreached
      have hmem : x ∈ history := hsplit ▸ List.mem_append_right _ hx
      rw [Ascending, hsplit] at hascending
      have hright := (List.pairwise_append.mp hascending).2.1
      obtain rfl | hx := List.mem_cons.mp hx
      · exact lt_irrefl _ ((hcut x hmem).mp hreached)
      · exact lt_asymm ((hcut x hmem).mp hreached) (List.rel_of_pairwise_cons hright hx)
    apply (congrArg (List.filter reached') hsplit).trans
    rw [List.filter_append, List.filter_eq_self.mpr holder, List.filter_eq_nil_iff.mpr hrest,
      List.append_nil]

end Pages

end Paging
