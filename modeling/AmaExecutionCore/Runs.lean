import Mathlib.Logic.Basic

/-! Runs of a step function under a condition on each step. -/
namespace Runs

variable {σ ι : Type*} (step : σ → ι → σ)

/-- The state a run ends in. -/
def run (s : σ) (is : List ι) : σ := is.foldl step s

/-- Each step of the run meets the condition in the state it is taken from. -/
def Meets (cond : σ → ι → Prop) : σ → List ι → Prop
  | _, [] => True
  | s, i :: is => cond s i ∧ Meets cond (step s i) is

/-- The property holds in every state the run passes through. -/
def Always (P : σ → Prop) : σ → List ι → Prop
  | s, [] => P s
  | s, i :: is => P s ∧ Always P (step s i) is

instance decidableMeets (cond : σ → ι → Prop) [∀ s i, Decidable (cond s i)] :
    (s : σ) → (is : List ι) → Decidable (Meets step cond s is)
  | _, [] => inferInstanceAs (Decidable True)
  | s, i :: is =>
    have := decidableMeets cond (step s i) is
    inferInstanceAs (Decidable (cond s i ∧ Meets step cond (step s i) is))

instance decidableAlways (P : σ → Prop) [DecidablePred P] :
    (s : σ) → (is : List ι) → Decidable (Always step P s is)
  | s, [] => inferInstanceAs (Decidable (P s))
  | s, i :: is =>
    have := decidableAlways P (step s i) is
    inferInstanceAs (Decidable (P s ∧ Always step P (step s i) is))

variable {step} {cond cond' : σ → ι → Prop} {P I : σ → Prop}

theorem Meets.mono {s : σ} {is : List ι} (h : Meets step cond s is)
    (himp : ∀ s i, cond s i → cond' s i) : Meets step cond' s is := by
  induction is generalizing s with
  | nil => trivial
  | cons i is ih => exact ⟨himp s i h.1, ih h.2⟩

theorem Meets.and {s : σ} {is : List ι} (h : Meets step cond s is) (h' : Meets step cond' s is) :
    Meets step (fun s i => cond s i ∧ cond' s i) s is := by
  induction is generalizing s with
  | nil => trivial
  | cons i is ih => exact ⟨⟨h.1, h'.1⟩, ih h.2 h'.2⟩

theorem Meets.trivial (s : σ) (is : List ι) : Meets step (fun _ _ => True) s is := by
  induction is generalizing s with
  | nil => exact True.intro
  | cons i is ih => exact ⟨True.intro, ih (step s i)⟩

/-- What holds of each input is met along the run. -/
theorem Meets.of_forall {P : ι → Prop} (s : σ) {is : List ι} (h : ∀ i ∈ is, P i) :
    Meets step (fun _ i => P i) s is := by
  induction is generalizing s with
  | nil => exact True.intro
  | cons i is ih =>
    exact ⟨h i List.mem_cons_self, ih (step s i) fun j hj => h j (List.mem_cons_of_mem i hj)⟩

theorem run_append (s : σ) (before rest : List ι) :
    run step s (before ++ rest) = run step (run step s before) rest := List.foldl_append

theorem Meets.of_append {s : σ} {before rest : List ι} (h : Meets step cond s (before ++ rest)) :
    Meets step cond s before ∧ Meets step cond (run step s before) rest := by
  induction before generalizing s with
  | nil => exact ⟨True.intro, h⟩
  | cons i before ih =>
    obtain ⟨hbefore, hrest⟩ := ih h.2
    exact ⟨⟨h.1, hbefore⟩, hrest⟩

theorem Always.head {s : σ} {is : List ι} (h : Always step P s is) : P s := by
  cases is with
  | nil => exact h
  | cons i is => exact h.1

theorem Always.last {s : σ} {is : List ι} (h : Always step P s is) : P (run step s is) := by
  induction is generalizing s with
  | nil => exact h
  | cons i is ih => exact ih h.2

/-- What every step under the condition keeps holds all along the run. -/
theorem always_of_invariant {s : σ} {is : List ι} (hinit : I s)
    (hstep : ∀ s i, I s → cond s i → I (step s i)) (hP : ∀ s, I s → P s)
    (h : Meets step cond s is) : Always step P s is := by
  induction is generalizing s with
  | nil => exact hP s hinit
  | cons i is ih => exact ⟨hP s hinit, ih (hstep s i hinit h.1) h.2⟩

/-- What holds of every step from an invariant state holds of every step of the run. -/
theorem meets_of_invariant {s : σ} {is : List ι} (hinit : I s)
    (hstep : ∀ s i, I s → cond s i → I (step s i)) (hP : ∀ s i, I s → cond s i → cond' s i)
    (h : Meets step cond s is) : Meets step cond' s is := by
  induction is generalizing s with
  | nil => trivial
  | cons i is ih => exact ⟨hP s i hinit h.1, ih (hstep s i hinit h.1) h.2⟩

theorem run_of_meets {s : σ} {is : List ι} (hinit : I s)
    (hstep : ∀ s i, I s → cond s i → I (step s i)) (h : Meets step cond s is) : I (run step s is) := by
  induction is generalizing s with
  | nil => exact hinit
  | cons i is ih => exact ih (hstep s i hinit h.1) h.2

theorem run_invariant {s : σ} (is : List ι) (hinit : I s) (hstep : ∀ s i, I s → I (step s i)) :
    I (run step s is) := by
  induction is generalizing s with
  | nil => exact hinit
  | cons i is ih => exact ih (hstep s i hinit)

end Runs
