import Mathlib.Algebra.Order.BigOperators.Group.List
import Mathlib.Data.List.Forall2
import Mathlib.Data.List.Nodup

/-! Tables of rows that are written by key, and what relates a table to a later
version of it row by row. -/
namespace Rows

variable {α κ : Type*} {key : α → κ}

theorem forall₂_trans {β γ : Type*} {R : α → β → Prop} {S : β → γ → Prop} {T : α → γ → Prop}
    {a : List α} {b : List β} {c : List γ} (h : List.Forall₂ R a b)
    (h' : List.Forall₂ S b c) (himp : ∀ x y z, R x y → S y z → T x z) : List.Forall₂ T a c := by
  induction h generalizing c with
  | nil =>
    cases h'
    exact .nil
  | cons hxy _ ih =>
    cases h' with
    | cons hyz h' => exact .cons (himp _ _ _ hxy hyz) (ih h')

theorem exists_left {β : Type*} {R : α → β → Prop} {a : List α} {b : List β} (h : List.Forall₂ R a b) {y : β}
    (hy : y ∈ b) : ∃ x ∈ a, R x y := by
  induction h with
  | nil => cases hy
  | cons hxy _ ih =>
    rcases List.mem_cons.mp hy with rfl | hy
    · exact ⟨_, List.mem_cons_self, hxy⟩
    · obtain ⟨x, hx, hR⟩ := ih hy
      exact ⟨x, List.mem_cons_of_mem _ hx, hR⟩

theorem exists_right {β : Type*} {R : α → β → Prop} {a : List α} {b : List β} (h : List.Forall₂ R a b) {x : α}
    (hx : x ∈ a) : ∃ y ∈ b, R x y :=
  exists_left h.flip hx

theorem map_key_eq {R : α → α → Prop} {a b : List α} (h : List.Forall₂ R a b)
    (hkey : ∀ x y, R x y → key y = key x) : b.map key = a.map key := by
  induction h with
  | nil => rfl
  | cons hxy _ ih => simp [hkey _ _ hxy, ih]

theorem find?_rel {R : α → α → Prop} {p q : α → Bool} {a b : List α} (h : List.Forall₂ R a b)
    (hpq : ∀ x y, R x y → p x = q y) : Option.Rel R (a.find? p) (b.find? q) := by
  induction h with
  | nil => exact .none
  | cons hxy _ ih =>
    rw [List.find?_cons, List.find?_cons, ← hpq _ _ hxy]
    split
    · exact .some hxy
    · exact ih

theorem getLast?_rel {R : α → α → Prop} {a b : List α} (h : List.Forall₂ R a b) :
    Option.Rel R a.getLast? b.getLast? := by
  induction h with
  | nil => exact .none
  | cons hxy hrest ih =>
    cases hrest with
    | nil => exact .some hxy
    | cons => simpa using ih

theorem last_rel {R : α → α → Prop} {p q : α → Bool} {a b : List α} (h : List.Forall₂ R a b)
    (hpq : ∀ x y, R x y → p x = q y) :
    Option.Rel R (a.filter p).getLast? (b.filter q).getLast? := by
  refine getLast?_rel (List.rel_filter ?_ h)
  intro x y hxy
  show p x = true ↔ q y = true
  rw [hpq x y hxy]

/-- A sum over some rows grows no further than the rows and their shares do. -/
theorem sum_filter_le {M : Type*} [AddCommMonoid M] [PartialOrder M] [IsOrderedAddMonoid M]
    {R : α → α → Prop} {p q : α → Bool} {f g : α → M} {a b : List α} (h : List.Forall₂ R a b)
    (hpos : ∀ x y, R x y → 0 ≤ f x) (hle : ∀ x y, R x y → q y = true → p x = true ∧ g y ≤ f x) :
    ((b.filter q).map g).sum ≤ ((a.filter p).map f).sum := by
  induction h with
  | nil => exact le_refl _
  | @cons x y _ _ hxy _ ih =>
    by_cases hq : q y = true
    · obtain ⟨hp, hgf⟩ := hle x y hxy hq
      rw [List.filter_cons_of_pos hq, List.filter_cons_of_pos hp]
      exact add_le_add hgf ih
    · rw [List.filter_cons_of_neg hq]
      by_cases hp : p x = true
      · rw [List.filter_cons_of_pos hp]
        exact ih.trans (le_add_of_nonneg_left (hpos x y hxy))
      · rw [List.filter_cons_of_neg hp]
        exact ih

theorem sum_map_changed {M : Type*} [AddCommMonoid M] (f : α → M) (h : α → α) {l : List α}
    (hnodup : (l.map key).Nodup) {a : α} (ha : a ∈ l) (hrest : ∀ x ∈ l, key x ≠ key a → h x = x) :
    ((l.map h).map f).sum + f a = (l.map f).sum + f (h a) := by
  induction l with
  | nil => cases ha
  | cons x l ih =>
    simp only [List.map_cons, List.sum_cons] at hnodup ⊢
    obtain ⟨hx, hl⟩ := List.nodup_cons.mp hnodup
    obtain rfl | ha := List.mem_cons.mp ha
    · have hsame : l.map h = l := by
        refine (List.map_congr_left fun y hy => ?_).trans (List.map_id l)
        exact hrest y (List.mem_cons_of_mem _ hy) fun hkey => hx (hkey ▸ List.mem_map_of_mem hy)
      rw [hsame, add_comm, ← add_assoc, add_right_comm]
    · have hne : key x ≠ key a := fun hkey => hx (hkey ▸ List.mem_map_of_mem ha)
      rw [hrest x List.mem_cons_self hne, add_assoc, ih hl ha fun y hy => hrest y (List.mem_cons_of_mem _ hy),
        add_assoc]

theorem countP_le {R : α → α → Prop} {p q : α → Bool} {a b : List α} (h : List.Forall₂ R a b)
    (hle : ∀ x y, R x y → q y = true → p x = true) : b.countP q ≤ a.countP p := by
  induction h with
  | nil => exact le_refl _
  | @cons x y _ _ hxy _ ih =>
    rw [List.countP_cons, List.countP_cons]
    by_cases hq : q y = true
    · rw [if_pos hq, if_pos (hle x y hxy hq)]
      exact Nat.succ_le_succ ih
    · rw [if_neg hq]
      exact ih.trans (Nat.le_add_right _ _)

variable [DecidableEq κ]

theorem countP_le_succ {R : α → α → Prop} {p q : α → Bool} {a b : List α} (k : κ)
    (h : List.Forall₂ R a b) (hnodup : (a.map key).Nodup)
    (hle : ∀ x y, R x y → q y = true → p x = true ∨ key x = k) :
    b.countP q ≤ a.countP p + 1 := by
  have hor : ∀ l : List α, l.countP (fun x => p x || key x = k) ≤
      l.countP p + l.countP fun x => key x = k := by
    intro l
    induction l with
    | nil => exact le_refl _
    | cons x l ih =>
      simp only [List.countP_cons]
      by_cases hp : p x = true <;> by_cases hk : key x = k <;> simp [hp, hk] <;> omega
  have hone : a.countP (fun x => key x = k) ≤ 1 := by
    have hcount := List.nodup_iff_count_le_one.mp hnodup k
    rw [List.count, List.countP_map] at hcount
    exact hcount.trans' (List.countP_mono_left fun x _ hx => by simpa using hx)
  calc b.countP q
      ≤ a.countP fun x => p x || key x = k := countP_le h fun x y hxy hq => by
        simpa using hle x y hxy hq
    _ ≤ a.countP p + a.countP fun x => key x = k := hor a
    _ ≤ a.countP p + 1 := Nat.add_le_add_left hone _

/-- Write a row over the row with its key, or append it when the key is new. -/
def put (key : α → κ) (row : α) (rows : List α) : List α :=
  if rows.any (fun r => key r = key row) then rows.map fun r => if key r = key row then row else r
  else rows ++ [row]

theorem put_of_mem {row : α} {rows : List α} (h : ∃ r ∈ rows, key r = key row) :
    put key row rows = rows.map fun r => if key r = key row then row else r := by
  unfold put
  rw [if_pos (by simpa using h)]

theorem put_of_fresh {row : α} {rows : List α} (h : ∀ r ∈ rows, key r ≠ key row) :
    put key row rows = rows ++ [row] := by
  unfold put
  rw [if_neg (by simpa using h)]

theorem mem_put (row : α) (rows : List α) : row ∈ put key row rows := by
  by_cases h : ∃ r ∈ rows, key r = key row
  · rw [put_of_mem h]
    obtain ⟨r, hr, hkey⟩ := h
    exact List.mem_map.mpr ⟨r, hr, if_pos hkey⟩
  · rw [put_of_fresh fun r hr hkey => h ⟨r, hr, hkey⟩]
    simp

theorem forall₂_put {R : α → α → Prop} {row : α} {rows : List α}
    (hmem : ∃ r ∈ rows, key r = key row) (hrow : ∀ r ∈ rows, key r = key row → R r row)
    (hrest : ∀ r ∈ rows, key r ≠ key row → R r r) : List.Forall₂ R rows (put key row rows) := by
  rw [put_of_mem hmem, List.forall₂_map_right_iff, List.forall₂_same]
  intro r hr
  by_cases hkey : key r = key row
  · rw [if_pos hkey]
    exact hrow r hr hkey
  · rw [if_neg hkey]
    exact hrest r hr hkey

end Rows
