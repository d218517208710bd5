import Mathlib.Algebra.Order.Ring.Rat
import Mathlib.Data.List.Forall2
import Mathlib.Order.WithBot

/-! Numbers with infinities and an undefined value, compared as floats and as decimals are, and
lists of computations that may fail. -/

/-- A rational, an infinity or the undefined value. -/
inductive Number where
  | nan
  | value (x : WithBot (WithTop ℚ))
  deriving DecidableEq

namespace Number

variable {x y : Number}

def ofRat (q : ℚ) : Number := value (q : WithTop ℚ)
def infinity : Number := value ((⊤ : WithTop ℚ) : WithBot (WithTop ℚ))

def IsFinite (x : Number) : Prop := ∃ q, x = ofRat q

/-- The order of the defined numbers; the undefined one is related to none. -/
def AtMost : Number → Number → Prop
  | value x, value y => x ≤ y
  | _, _ => False

/-- The strict order of the defined numbers. -/
def Below : Number → Number → Prop
  | value x, value y => x < y
  | _, _ => False

instance (x y : Number) : Decidable (x.Below y) :=
  match x, y with
  | value x, value y => inferInstanceAs (Decidable (x < y))
  | nan, _ => isFalse fun h => h
  | value _, nan => isFalse fun h => h

/-- `x < y` of two floats: false as soon as one of them is undefined. -/
def lt (x y : Number) : Bool := decide (x.Below y)

theorem IsFinite.ne_nan (h : x.IsFinite) : x ≠ nan := by
  obtain ⟨q, rfl⟩ := h
  exact Number.noConfusion

theorem AtMost.left (h : x.AtMost y) : x ≠ nan := by
  cases x with
  | nan => exact h.elim
  | value x => exact Number.noConfusion

theorem AtMost.right (h : x.AtMost y) : y ≠ nan := by
  cases y with
  | nan => cases x <;> exact h.elim
  | value y => exact Number.noConfusion

theorem atMost_of_lt (hx : x ≠ nan) (hy : y ≠ nan) (h : x.lt y = false) : y.AtMost x := by
  cases x with
  | nan => exact absurd rfl hx
  | value x =>
    cases y with
    | nan => exact absurd rfl hy
    | value y => exact not_lt.mp (of_decide_eq_false h)

/-- The comparison of two decimals, which fails on the undefined value. -/
def ltDecimal {ε : Type*} (invalid : ε) (x y : Number) : Except ε Bool :=
  if x = nan ∨ y = nan then .error invalid else .ok (x.lt y)

theorem atMost_of_ltDecimal {ε : Type*} {invalid : ε}
    (h : x.ltDecimal invalid y = .ok false) : y.AtMost x := by
  unfold ltDecimal at h
  by_cases hnan : x = nan ∨ y = nan
  · rw [if_pos hnan] at h
    exact nomatch h
  · rw [if_neg hnan] at h
    obtain ⟨hx, hy⟩ := not_or.mp hnan
    exact atMost_of_lt hx hy (Except.ok.inj h)

/-- `x <= y` of two decimals. -/
def leDecimal {ε : Type*} (invalid : ε) (x y : Number) : Except ε Bool :=
  if x = nan ∨ y = nan then .error invalid else .ok !(y.lt x)

theorem below_of_leDecimal {ε : Type*} {invalid : ε}
    (h : x.leDecimal invalid y = .ok false) : y.Below x := by
  unfold leDecimal at h
  by_cases hnan : x = nan ∨ y = nan
  · rw [if_pos hnan] at h
    exact nomatch h
  · rw [if_neg hnan] at h
    have hlt : y.lt x = true := by simpa using Except.ok.inj h
    exact of_decide_eq_true hlt

end Number

namespace Fallible

universe u v
variable {ε : Type u} {α β : Type v}

theorem bind_ok {x : Except ε α} {f : α → Except ε β} {b : β} (h : (x >>= f) = .ok b) :
    ∃ a, x = .ok a ∧ f a = .ok b := by
  cases x with
  | error e => exact nomatch h
  | ok a => exact ⟨a, rfl, h⟩

theorem forall₂_of_mapM {f : α → Except ε β} {as : List α} {bs : List β}
    (h : as.mapM f = .ok bs) : List.Forall₂ (fun a b => f a = .ok b) as bs := by
  induction as generalizing bs with
  | nil =>
    cases h
    exact .nil
  | cons a as ih =>
    rw [List.mapM_cons] at h
    obtain ⟨b, hb, h⟩ := bind_ok h
    obtain ⟨rest, hrest, h⟩ := bind_ok h
    cases h
    exact .cons hb (ih hrest)

theorem mapM_take {f : α → Except ε β} {as : List α} {bs : List β} (h : as.mapM f = .ok bs)
    (n : Nat) : (as.take n).mapM f = .ok (bs.take n) := by
  induction as generalizing bs n with
  | nil =>
    cases h
    rw [List.take_nil]
    exact congrArg Except.ok List.take_nil.symm
  | cons a as ih =>
    rw [List.mapM_cons] at h
    obtain ⟨b, hb, h⟩ := bind_ok h
    obtain ⟨rest, hrest, h⟩ := bind_ok h
    cases h
    cases n with
    | zero => rfl
    | succ n =>
      rw [List.take_succ_cons, List.mapM_cons, hb, ih hrest n]
      rfl

theorem exists_of_mapM {f : α → Except ε β} {as : List α} {bs : List β}
    (h : as.mapM f = .ok bs) {a : α} (ha : a ∈ as) : ∃ b ∈ bs, f a = .ok b := by
  have hall := forall₂_of_mapM h
  clear h
  induction hall with
  | nil => exact absurd ha List.not_mem_nil
  | cons hab _ ih =>
    obtain rfl | ha := List.mem_cons.mp ha
    · exact ⟨_, List.mem_cons_self, hab⟩
    · obtain ⟨b, hb, hf⟩ := ih ha
      exact ⟨b, List.mem_cons_of_mem _ hb, hf⟩

/-- The computation succeeds, with a result that has the property. -/
def Yields (x : Except ε α) (P : α → Prop) : Prop := ∃ a, x = .ok a ∧ P a

namespace Yields

variable {x : Except ε α} {P P' : α → Prop} {Q : β → Prop}

theorem ok {a : α} (h : P a) : Yields (.ok a : Except ε α) P := ⟨a, rfl, h⟩

theorem nothing {P : α → Prop} : Yields (.ok none : Except ε (Option α)) fun result =>
    ∀ a, result = some a → P a := ok fun _ h => absurd h (Option.some_ne_none _).symm

theorem found {P : α → Prop} {a : α} (h : P a) : Yields (.ok (some a) : Except ε (Option α))
    fun result => ∀ b, result = some b → P b := ok fun _ heq => Option.some.inj heq ▸ h

theorem mono (h : Yields x P) (himp : ∀ a, P a → P' a) : Yields x P' := by
  obtain ⟨a, ha, hp⟩ := h
  exact ⟨a, ha, himp a hp⟩

theorem bind {f : α → Except ε β} (h : Yields x P) (hf : ∀ a, P a → Yields (f a) Q) :
    Yields (x >>= f) Q := by
  obtain ⟨a, rfl, hp⟩ := h
  exact hf a hp

theorem mapM {f : α → Except ε β} {as : List α} (h : ∀ a ∈ as, Yields (f a) Q) :
    Yields (as.mapM f) fun bs => bs.length = as.length ∧ ∀ b ∈ bs, Q b := by
  induction as with
  | nil => exact ok ⟨rfl, fun b hb => absurd hb List.not_mem_nil⟩
  | cons a as ih =>
    rw [List.mapM_cons]
    refine bind (h a List.mem_cons_self) fun b hb => ?_
    refine bind (ih fun a' ha' => h a' (List.mem_cons_of_mem _ ha')) fun bs hbs => ok ?_
    obtain ⟨hlength, hall⟩ := hbs
    exact ⟨congrArg (· + 1) hlength, List.forall_mem_cons.mpr ⟨hb, hall⟩⟩

end Yields

end Fallible
