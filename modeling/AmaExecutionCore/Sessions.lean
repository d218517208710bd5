import AmaExecutionCore.Runs

/-! Sessions that take turns on one store. An interleaving starts a session, takes a
session one piece further, or lets an event change the store on its own. -/
namespace Sessions

structure State (W C : Type*) where
  store : W
  sessions : List C

inductive Act (A E : Type*)
  | start (a : A)
  | advance (i : Nat)
  | event (e : E)

/-- How sessions begin, what each does next, and what an event does. -/
structure System (W C A E : Type*) where
  start : A → C
  next : C → W → W × C
  handle : W → E → W

variable {W C A E : Type*} (sys : System W C A E)

def step (s : State W C) : Act A E → State W C
  | .start a => { s with sessions := s.sessions ++ [sys.start a] }
  | .advance i =>
    match s.sessions[i]? with
    | none => s
    | some c => ⟨(sys.next c s.store).1, s.sessions.set i (sys.next c s.store).2⟩
  | .event e => { s with store := sys.handle s.store e }

theorem step_advance {sys : System W C A E} {s : State W C} {i : Nat} {c : C}
    (hc : s.sessions[i]? = some c) : step sys s (.advance i) =
      ⟨(sys.next c s.store).1, s.sessions.set i (sys.next c s.store).2⟩ := by
  simp only [step, hc]

/-- A session that does not move leaves everything as it is. -/
theorem step_of_waiting {sys : System W C A E} {s : State W C} {i : Nat}
    (h : ∀ c, s.sessions[i]? = some c → sys.next c s.store = (s.store, c)) :
    step sys s (.advance i) = s := by
  simp only [step]
  cases hc : s.sessions[i]? with
  | none => rfl
  | some c =>
    obtain ⟨hlt, hget⟩ := List.getElem?_eq_some_iff.mp hc
    simp only [h c hc]
    rw [← hget, List.set_getElem_self]

/-- An invariant of the store, one of each session with the store, and one between any
two sessions. -/
structure Holds (I : W → Prop) (J : W → C → Prop) (K : C → C → Prop) (s : State W C) : Prop where
  store : I s.store
  own : ∀ (i : Nat) c, s.sessions[i]? = some c → J s.store c
  apart : ∀ (i j : Nat) c d, s.sessions[i]? = some c → s.sessions[j]? = some d → i ≠ j → K c d

variable {sys} {I : W → Prop} {J : W → C → Prop} {K : C → C → Prop} {s : State W C}

theorem Holds.init {w : W} (h : I w) : Holds I J K ⟨w, []⟩ where
  store := h
  own := by simp
  apart := by simp

theorem Holds.start {a : A} (h : Holds I J K s) (hown : J s.store (sys.start a))
    (hapart : ∀ c ∈ s.sessions, K c (sys.start a) ∧ K (sys.start a) c) :
    Holds I J K (step sys s (.start a)) := by
  have hget : ∀ (i : Nat) c, (s.sessions ++ [sys.start a])[i]? = some c →
      s.sessions[i]? = some c ∨ (i = s.sessions.length ∧ c = sys.start a) := by
    intro i c hc
    by_cases hi : i < s.sessions.length
    · rw [List.getElem?_append_left hi] at hc
      exact .inl hc
    · rw [List.getElem?_append_right (Nat.not_lt.mp hi)] at hc
      obtain ⟨hlt, hval⟩ := List.getElem?_eq_some_iff.mp hc
      simp only [List.length_singleton] at hlt
      refine .inr ⟨by omega, ?_⟩
      simpa using hval.symm
  refine ⟨h.store, ?_, ?_⟩
  · intro i c hc
    obtain hc | ⟨-, rfl⟩ := hget i c hc
    · exact h.own i c hc
    · exact hown
  · intro i j c d hc hd hne
    obtain hc | ⟨hi, rfl⟩ := hget i c hc
    · obtain hd | ⟨-, rfl⟩ := hget j d hd
      · exact h.apart i j c d hc hd hne
      · exact (hapart c (List.mem_of_getElem? hc)).1
    · obtain hd | ⟨hj, -⟩ := hget j d hd
      · exact (hapart d (List.mem_of_getElem? hd)).2
      · exact absurd (hi.trans hj.symm) hne

theorem Holds.event {e : E} (h : Holds I J K s) (hstore : I (sys.handle s.store e))
    (hown : ∀ c ∈ s.sessions, J s.store c → J (sys.handle s.store e) c) :
    Holds I J K (step sys s (.event e)) where
  store := hstore
  own := fun i c hc => hown c (List.mem_of_getElem? hc) (h.own i c hc)
  apart := h.apart

/-- A session's next piece, and what holds of the store, of the session and of every other
one after it. -/
theorem Holds.advance_to {I' : W → Prop} {J' : W → C → Prop} {i : Nat} {c : C} (h : Holds I J K s)
    (hc : s.sessions[i]? = some c) (hstore : I' (sys.next c s.store).1)
    (hown : J' (sys.next c s.store).1 (sys.next c s.store).2)
    (hothers : ∀ (j : Nat) d, s.sessions[j]? = some d → j ≠ i → J' (sys.next c s.store).1 d ∧
      K (sys.next c s.store).2 d ∧ K d (sys.next c s.store).2) :
    Holds I' J' K (step sys s (.advance i)) := by
  simp only [step, hc]
  have hget : ∀ (j : Nat) d, (s.sessions.set i (sys.next c s.store).2)[j]? = some d →
      (j = i ∧ d = (sys.next c s.store).2) ∨ (j ≠ i ∧ s.sessions[j]? = some d) := by
    intro j d hd
    rw [List.getElem?_set] at hd
    by_cases hj : i = j
    · obtain ⟨hlt, -⟩ := List.getElem?_eq_some_iff.mp hc
      rw [if_pos hj, if_pos hlt] at hd
      exact .inl ⟨hj.symm, (Option.some.inj hd).symm⟩
    · rw [if_neg hj] at hd
      exact .inr ⟨Ne.symm hj, hd⟩
  refine ⟨hstore, ?_, ?_⟩
  · intro j d hd
    obtain ⟨-, rfl⟩ | ⟨hj, hd⟩ := hget j d hd
    · exact hown
    · exact (hothers j d hd hj).1
  · intro j l d e hd he hne
    obtain ⟨hj, rfl⟩ | ⟨hj, hd⟩ := hget j d hd
    · obtain ⟨hl, -⟩ | ⟨hl, he⟩ := hget l e he
      · exact absurd (hj.trans hl.symm) hne
      · exact (hothers l e he hl).2.1
    · obtain ⟨-, rfl⟩ | ⟨hl, he⟩ := hget l e he
      · exact (hothers j d hd hj).2.2
      · exact h.apart j l d e hd he hne

/-- A session's next piece keeps the store right, for itself and for every other one. -/
theorem Holds.advance {i : Nat} (h : Holds I J K s)
    (hnext : ∀ c, s.sessions[i]? = some c → I (sys.next c s.store).1 ∧
      J (sys.next c s.store).1 (sys.next c s.store).2 ∧
      ∀ (j : Nat) d, s.sessions[j]? = some d → j ≠ i → J (sys.next c s.store).1 d ∧
        K (sys.next c s.store).2 d ∧ K d (sys.next c s.store).2) :
    Holds I J K (step sys s (.advance i)) := by
  cases hc : s.sessions[i]? with
  | none =>
    simp only [step, hc]
    exact h
  | some c =>
    obtain ⟨hstore, hown, hothers⟩ := hnext c hc
    exact h.advance_to hc hstore hown hothers

theorem mem_set_or_eq {cs : List C} {i : Nat} {c d : C} (hc : cs[i]? = some c) (hd : d ∈ cs) (c' : C) :
    d ∈ cs.set i c' ∨ d = c := by
  obtain ⟨j, hj⟩ := List.getElem?_of_mem hd
  by_cases hij : i = j
  · subst hij
    exact .inr (Option.some.inj (hj.symm.trans hc))
  · refine .inl (List.mem_of_getElem? (i := j) ?_)
    rw [List.getElem?_set_ne hij, hj]

theorem mem_set_self {cs : List C} {i : Nat} {c : C} (hc : cs[i]? = some c) (c' : C) :
    c' ∈ cs.set i c' := by
  obtain ⟨hlt, -⟩ := List.getElem?_eq_some_iff.mp hc
  exact List.mem_set hlt c'

theorem countP_set {p : C → Bool} {cs : List C} {i : Nat} {c : C} (hc : cs[i]? = some c) (d : C) :
    (cs.set i d).countP p + (p c).toNat = cs.countP p + (p d).toNat := by
  induction cs generalizing i with
  | nil => cases hc
  | cons x cs ih =>
    cases i with
    | zero =>
      obtain rfl : x = c := by simpa using hc
      simp only [List.set_cons_zero, List.countP_cons]
      cases p x <;> cases p d <;> simp
    | succ i =>
      have := ih (i := i) (by simpa using hc)
      simp only [List.set_cons_succ, List.countP_cons]
      omega

theorem filter_set_perm {p : C → Bool} {cs : List C} {i : Nat} {c : C} (hc : cs[i]? = some c)
    (hp : p c = false) (d : C) :
    ((cs.set i d).filter p).Perm (if p d = true then d :: cs.filter p else cs.filter p) := by
  induction cs generalizing i with
  | nil => cases hc
  | cons x cs ih =>
    cases i with
    | zero =>
      obtain rfl : x = c := by simpa using hc
      rw [List.set_cons_zero, List.filter_cons, List.filter_cons, hp]
      simp
    | succ i =>
      have := ih (i := i) (by simpa using hc)
      rw [List.set_cons_succ, List.filter_cons, List.filter_cons]
      by_cases hd : p d = true
      · rw [if_pos hd] at this ⊢
        by_cases hx : p x = true
        · rw [if_pos hx, if_pos hx]
          exact (this.cons x).trans (.swap d x _)
        · rw [if_neg hx, if_neg hx]
          exact this
      · rw [if_neg hd] at this ⊢
        by_cases hx : p x = true
        · rw [if_pos hx, if_pos hx]
          exact this.cons x
        · rw [if_neg hx, if_neg hx]
          exact this

end Sessions
