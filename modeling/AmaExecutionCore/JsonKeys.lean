import AmaExecutionCore.GateManifest
import AmaExecutionCore.Paging
import Mathlib.Data.String.Basic

/-! JSON values up to the order of their keys: `json.dumps` with `sort_keys` writes two of them
from the same sorted value exactly when they are the same. -/
namespace AmaExecutionCore

open Paging

mutual

/-- What `sort_keys` makes of a value, at every depth. -/
def Json.sortKeys : Json → Json
  | .list items => .list (sortItems items)
  | .dict fields => .dict (sortBy Prod.fst (sortFields fields))
  | .null => .null
  | .bool b => .bool b
  | .int n => .int n
  | .float x => .float x
  | .str text => .str text

def sortItems : List Json → List Json
  | [] => []
  | item :: items => item.sortKeys :: sortItems items

def sortFields : Payload → Payload
  | [] => []
  | (key, value) :: fields => (key, value.sortKeys) :: sortFields fields

end

mutual

/-- The same value but for the order of the keys of its objects. -/
def Json.Same : Json → Json → Prop
  | .list items, .list items' => SameItems items items'
  | .dict fields, .dict fields' => fields.length = fields'.length ∧ FieldsIn fields fields'
  | .null, .null => True
  | .bool b, .bool b' => b = b'
  | .int n, .int n' => n = n'
  | .float x, .float x' => x = x'
  | .str text, .str text' => text = text'
  | _, _ => False

def SameItems : List Json → List Json → Prop
  | [], [] => True
  | item :: items, item' :: items' => item.Same item' ∧ SameItems items items'
  | _, _ => False

/-- Every field is among the others, with the same value. -/
def FieldsIn : Payload → Payload → Prop
  | [], _ => True
  | (key, value) :: fields, fields' =>
    (∃ value', (key, value') ∈ fields' ∧ value.Same value') ∧ FieldsIn fields fields'

end

mutual

/-- No object has a key twice. -/
def Json.DistinctKeys : Json → Prop
  | .list items => ItemsDistinct items
  | .dict fields => (fields.map Prod.fst).Nodup ∧ FieldsDistinct fields
  | _ => True

def ItemsDistinct : List Json → Prop
  | [] => True
  | item :: items => item.DistinctKeys ∧ ItemsDistinct items

def FieldsDistinct : Payload → Prop
  | [] => True
  | (_, value) :: fields => value.DistinctKeys ∧ FieldsDistinct fields

end

theorem sortFields_keys (fields : Payload) :
    (sortFields fields).map Prod.fst = fields.map Prod.fst := by
  induction fields with
  | nil => rfl
  | cons field fields ih => rw [sortFields, List.map_cons, List.map_cons, ih]

theorem length_sortFields (fields : Payload) : (sortFields fields).length = fields.length := by
  rw [← List.length_map Prod.fst, sortFields_keys, List.length_map]

theorem mem_sortFields {fields : Payload} {key : String} {sorted : Json} :
    (key, sorted) ∈ sortFields fields ↔
      ∃ value, (key, value) ∈ fields ∧ value.sortKeys = sorted := by
  induction fields with
  | nil => simp [sortFields]
  | cons field fields ih =>
    rw [sortFields, List.mem_cons, ih, Prod.mk.injEq]
    constructor
    · rintro (⟨rfl, rfl⟩ | ⟨value, hmem, rfl⟩)
      · exact ⟨_, List.mem_cons_self, rfl⟩
      · exact ⟨value, List.mem_cons_of_mem _ hmem, rfl⟩
    · rintro ⟨value, hmem, rfl⟩
      obtain rfl | hmem := List.mem_cons.mp hmem
      · exact .inl ⟨rfl, rfl⟩
      · exact .inr ⟨value, hmem, rfl⟩

theorem FieldsDistinct.mem {fields : Payload} (h : FieldsDistinct fields) {key : String}
    {value : Json} (hmem : (key, value) ∈ fields) : value.DistinctKeys := by
  induction fields with
  | nil => cases hmem
  | cons field fields ih =>
    obtain rfl | hmem := List.mem_cons.mp hmem
    · exact h.1
    · exact ih h.2 hmem

/-- Objects of the same size have the same fields when those of one are among those of the
other. -/
theorem sortFields_perm_iff {fields fields' : Payload} (h : (fields.map Prod.fst).Nodup) :
    (sortFields fields).Perm (sortFields fields') ↔
      fields.length = fields'.length ∧ sortFields fields ⊆ sortFields fields' := by
  constructor
  · intro hperm
    have hlength := hperm.length_eq
    rw [length_sortFields, length_sortFields] at hlength
    exact ⟨hlength, hperm.subset⟩
  · rintro ⟨hlength, hsubset⟩
    have hnodup : (sortFields fields).Nodup := by
      apply List.Nodup.of_map Prod.fst
      rwa [sortFields_keys]
    apply (List.subperm_of_subset hnodup hsubset).perm_of_length_le
    rw [length_sortFields, length_sortFields, hlength]

mutual

theorem Json.sortKeys_eq_iff : ∀ {a b : Json}, a.DistinctKeys → b.DistinctKeys →
    (a.sortKeys = b.sortKeys ↔ a.Same b)
  | .list items, b, ha, hb => by
    cases b with
    | list items' =>
      rw [Json.sortKeys, Json.sortKeys, Json.list.injEq, Json.Same]
      exact sortItems_eq_iff ha hb
    | _ => simp [Json.sortKeys, Json.Same]
  | .dict fields, b, ha, hb => by
    cases b with
    | dict fields' =>
      have hkeys : ((sortFields fields').map Prod.fst).Nodup := by
        rw [sortFields_keys]
        exact hb.1
      rw [Json.sortKeys, Json.sortKeys, Json.dict.injEq, Json.Same, sortBy_eq_iff hkeys,
        sortFields_perm_iff ha.1]
      exact and_congr_right fun _ => sortFields_subset_iff ha.2 hb.2
    | _ => simp [Json.sortKeys, Json.Same]
  | .null, b, _, _ => by cases b <;> simp [Json.sortKeys, Json.Same]
  | .bool _, b, _, _ => by cases b <;> simp [Json.sortKeys, Json.Same]
  | .int _, b, _, _ => by cases b <;> simp [Json.sortKeys, Json.Same]
  | .float _, b, _, _ => by cases b <;> simp [Json.sortKeys, Json.Same]
  | .str _, b, _, _ => by cases b <;> simp [Json.sortKeys, Json.Same]

theorem sortItems_eq_iff : ∀ {items items' : List Json}, ItemsDistinct items →
    ItemsDistinct items' → (sortItems items = sortItems items' ↔ SameItems items items')
  | [], [], _, _ => by simp [sortItems, SameItems]
  | [], _ :: _, _, _ => by simp [sortItems, SameItems]
  | _ :: _, [], _, _ => by simp [sortItems, SameItems]
  | item :: items, item' :: items', h, h' => by
    rw [sortItems, sortItems, List.cons.injEq, SameItems, Json.sortKeys_eq_iff h.1 h'.1,
      sortItems_eq_iff h.2 h'.2]

theorem sortFields_subset_iff : ∀ {fields fields' : Payload}, FieldsDistinct fields →
    FieldsDistinct fields' →
      (sortFields fields ⊆ sortFields fields' ↔ FieldsIn fields fields')
  | [], _, _, _ => by simp [sortFields, FieldsIn]
  | (key, value) :: fields, fields', h, h' => by
    rw [sortFields, List.cons_subset, FieldsIn, mem_sortFields, sortFields_subset_iff h.2 h']
    apply and_congr_left'
    apply exists_congr
    intro value'
    apply and_congr_right
    intro hmem
    rw [eq_comm]
    exact Json.sortKeys_eq_iff h.1 (h'.mem hmem)

end

theorem fieldsIn_iff_forall₂ {fields fields' all : Payload} (hall : (all.map Prod.fst).Nodup)
    (hin : fields' ⊆ all) (hkeys : fields.map Prod.fst = fields'.map Prod.fst) :
    FieldsIn fields all ↔
      List.Forall₂ (fun field field' => field.2.Same field'.2) fields fields' := by
  induction fields generalizing fields' with
  | nil =>
    cases fields' with
    | nil => simp [FieldsIn]
    | cons _ _ => cases hkeys
  | cons field fields ih =>
    cases fields' with
    | nil => cases hkeys
    | cons field' fields' =>
      rw [List.map_cons, List.map_cons, List.cons.injEq] at hkeys
      obtain ⟨hfield', hrest⟩ := List.cons_subset.mp hin
      rw [FieldsIn, List.forall₂_cons, ih hrest hkeys.2]
      apply and_congr_left'
      constructor
      · rintro ⟨value', hmem, hsame⟩
        have heq := List.inj_on_of_nodup_map hall hmem hfield' hkeys.1
        rwa [← heq]
      · intro hsame
        exact ⟨field'.2, hkeys.1 ▸ hfield', hsame⟩

end AmaExecutionCore
