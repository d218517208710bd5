import AmaExecutionCore.Sessions

/-! How many sessions of a kind there are at once, and the most there ever were in a run. -/
namespace Sessions

variable {W C A E : Type*} (sys : System W C A E)

/-- The sessions of a kind. -/
def count (kind : C → Bool) (s : State W C) : Nat := s.sessions.countP kind

/-- The most sessions of a kind that there were at once in any state of a run. -/
def peak (kind : C → Bool) : State W C → List (Act A E) → Nat
  | s, [] => count kind s
  | s, act :: acts => max (count kind s) (peak kind (step sys s act) acts)

variable {sys} {kind other : C → Bool} {s : State W C}

theorem count_le_count (h : ∀ c, kind c = true → other c = true) :
    count kind s ≤ count other s :=
  List.countP_mono_left fun c _ => h c

theorem countP_cons_toNat (c : C) (cs : List C) :
    (c :: cs).countP kind = cs.countP kind + (kind c).toNat := by
  rw [List.countP_cons]
  cases kind c <;> rfl

theorem count_add_count_le {both : C → Bool}
    (h : ∀ c, (kind c).toNat + (other c).toNat ≤ (both c).toNat) :
    count kind s + count other s ≤ count both s := by
  rw [count, count, count]
  induction s.sessions with
  | nil => exact Nat.le_refl 0
  | cons c cs ih =>
    have hc := h c
    simp only [countP_cons_toNat]
    omega

theorem count_start (a : A) :
    count kind (step sys s (.start a)) = count kind s + (kind (sys.start a)).toNat := by
  simp only [count, step, List.countP_append, List.countP_singleton]
  cases kind (sys.start a) <;> rfl

theorem count_advance {i : Nat} {c : C} (hc : s.sessions[i]? = some c) :
    count kind (step sys s (.advance i)) + (kind c).toNat =
      count kind s + (kind (sys.next c s.store).2).toNat := by
  simp only [count, step, hc]
  exact countP_set hc _

theorem count_le_peak (s : State W C) (acts : List (Act A E)) :
    count kind s ≤ peak sys kind s acts := by
  cases acts with
  | nil => exact Nat.le_refl _
  | cons act acts => exact Nat.le_max_left _ _

/-- What every step keeps while there are no more sessions of the kind than the bound holds at
the end of the run, with the peak for the bound. -/
theorem run_of_peak {I : Nat → State W C → Prop} (acts : List (Act A E)) (hinit : ∀ k, I k s)
    (hstep : ∀ k t act, I k t → count kind t ≤ k → count kind (step sys t act) ≤ k →
      I k (step sys t act)) :
    I (peak sys kind s acts) (Runs.run (step sys) s acts) := by
  have hrun : ∀ k (t : State W C), peak sys kind t acts ≤ k → I k t →
      I k (Runs.run (step sys) t acts) := by
    intro k t hpeak ht
    induction acts generalizing t with
    | nil => exact ht
    | cons act acts ih =>
      have hcount : count kind t ≤ k := Nat.le_trans (Nat.le_max_left _ _) hpeak
      have hrest : peak sys kind (step sys t act) acts ≤ k := Nat.le_trans (Nat.le_max_right _ _) hpeak
      exact ih _ hrest (hstep k t act ht hcount (Nat.le_trans (count_le_peak _ acts) hrest))
  exact hrun _ s (Nat.le_refl _) (hinit _)

end Sessions
