import AmaExecutionCore.Runs
import Mathlib.Data.List.Nodup

/-! Two sessions on one row of a read-committed database. A session that has written the
row holds it until it commits; what it writes may come from a copy it loaded before. -/
namespace RowSessions

inductive Op (α : Type*)
  /-- insert the row unless it is there -/
  | ensure
  | select
  /-- write what the session made of its copy -/
  | flush (write : α → α → α)
  | update (f : α → α)
  | commit

structure Session (α : Type*) where
  ops : List (Op α)
  loaded : Option α := none

structure State (α : Type*) where
  committed : Option α
  draft : Option (Bool × α) := none
  sessions : Bool → Session α

variable {α : Type*}

namespace State

/-- The version of the row the session sees. -/
def visible (who : Bool) (s : State α) : Option α :=
  match s.draft with
  | some (w, v) => if w = who then some v else s.committed
  | none => s.committed

/-- Another session holds the row. -/
def Locked (who : Bool) (s : State α) : Prop := ∃ v, s.draft = some (!who, v)

instance (who : Bool) (s : State α) : Decidable (s.Locked who) :=
  match h : s.draft with
  | none => .isFalse (by simp [Locked, h])
  | some (w, v) =>
    if hw : w = !who then .isTrue ⟨v, by rw [h, hw]⟩
    else .isFalse (by simp [Locked, h, hw])

def withSession (who : Bool) (c : Session α) (s : State α) : State α :=
  { s with sessions := fun w => if w = who then c else s.sessions w }

/-- The session goes on with the rest of its operations. -/
def goOn (who : Bool) (ops : List (Op α)) (s : State α) : State α :=
  s.withSession who { s.sessions who with ops := ops }

end State

/-- The next operation of one session; one that has to wait for the row stays. -/
def step (fresh : α) (s : State α) (who : Bool) : State α :=
  match (s.sessions who).ops with
  | [] => s
  | .ensure :: ops =>
    if s.Locked who then s
    else match s.visible who with
      | some _ => s.goOn who ops
      | none => { s.goOn who ops with draft := some (who, fresh) }
  | .select :: ops => s.withSession who ⟨ops, s.visible who⟩
  | .flush write :: ops =>
    if s.Locked who then s
    else match (s.sessions who).loaded, s.visible who with
      | some copy, some row => { s.goOn who ops with draft := some (who, write copy row) }
      | _, _ => s.goOn who ops
  | .update f :: ops =>
    if s.Locked who then s
    else match s.visible who with
      | some row => { s.goOn who ops with draft := some (who, f row) }
      | none => s.goOn who ops
  | .commit :: ops =>
    match s.draft with
    | some (w, v) =>
      if w = who then { s.goOn who ops with committed := some v, draft := none } else s.goOn who ops
    | none => s.goOn who ops

def State.Finished (s : State α) : Prop := ∀ who, (s.sessions who).ops = []

/-- Nothing is left but reading and the commit. -/
inductive Written : List (Op α) → Prop
  | ensure {ops} (h : Written ops) : Written (.ensure :: ops)
  | select {ops} (h : Written ops) : Written (.select :: ops)
  | commit : Written [.commit]

/-- One write is left, which makes `e` of the row when the copy is the row itself. A copy
is loaded before it is written back. -/
inductive Unwritten (e : α → α) : Bool → List (Op α) → Prop
  | ensure {b ops} (h : Unwritten e b ops) : Unwritten e b (.ensure :: ops)
  | select {b ops} (h : Unwritten e true ops) : Unwritten e b (.select :: ops)
  | flush {b write ops} (hb : b = true) (he : ∀ row, write row row = e row) (h : Written ops) :
      Unwritten e b (.flush write :: ops)
  | update {b ops} (h : Written ops) : Unwritten e b (.update e :: ops)

/-- Writing back an outdated copy makes of the row what it would with a copy of the row. -/
def Clean (s : State α) (who : Bool) : Prop :=
  ∀ write ops, (s.sessions who).ops = .flush write :: ops → ¬ s.Locked who →
    ∀ copy row, (s.sessions who).loaded = some copy → s.visible who = some row →
      write copy row = write row row

/-- The row after the sessions did their writes one after the other. -/
def serialValue (e : Bool → α → α) (base : α) (done : List Bool) : α :=
  done.foldl (fun row who => e who row) base

/-- The row is what the sessions in `done` made of it one after the other; a session that
holds the row adds its own write, and the others have not written yet. -/
structure Serial (fresh : α) (start : Option α) (e : Bool → α → α) (done : List Bool)
    (s : State α) : Prop where
  nodup : done.Nodup
  committed : s.committed =
    if done = [] then start else some (serialValue e (start.getD fresh) done)
  ended : ∀ who ∈ done, (s.sessions who).ops = []
  waiting : ∀ who, who ∉ done → (∀ v, s.draft ≠ some (who, v)) →
    Unwritten (e who) (s.sessions who).loaded.isSome (s.sessions who).ops ∧
      (s.committed = none → ∃ ops, (s.sessions who).ops = .ensure :: ops)
  holding : ∀ who v, s.draft = some (who, v) → who ∉ done ∧
    ((Unwritten (e who) (s.sessions who).loaded.isSome (s.sessions who).ops ∧ v = fresh ∧
        start = none ∧ done = []) ∨
      (Written (s.sessions who).ops ∧ v = e who (serialValue e (start.getD fresh) done)))
  loaded : ∀ who copy, (s.sessions who).loaded = some copy →
    Unwritten (e who) true (s.sessions who).ops →
    copy = start.getD fresh ∨ s.committed = some copy

theorem serialValue_concat (e : Bool → α → α) (base : α) (done : List Bool) (who : Bool) :
    serialValue e base (done ++ [who]) = e who (serialValue e base done) := by
  simp [serialValue]

theorem State.visible_of_draft {who : Bool} {v : α} {s : State α} (h : s.draft = some (who, v)) :
    s.visible who = some v := by
  simp only [State.visible, h, if_true]

theorem State.visible_of_free {who : Bool} {s : State α} (h : ∀ v, s.draft ≠ some (who, v)) :
    s.visible who = s.committed := by
  unfold State.visible
  split
  · next w v heq =>
    rw [if_neg]
    rintro rfl
    exact h v heq
  · rfl

theorem State.not_locked_of_draft {who : Bool} {v : α} {s : State α} (h : s.draft = some (who, v)) :
    ¬ s.Locked who := by
  rintro ⟨v', h'⟩
  rw [h] at h'
  cases who <;> simp at h'

namespace Serial

variable {fresh : α} {start : Option α} {e : Bool → α → α} {done : List Bool} {s : State α}

theorem withSession (h : Serial fresh start e done s) {who : Bool} (hwho : who ∉ done)
    {c : Session α}
    (hwait : (∀ v, s.draft ≠ some (who, v)) → Unwritten (e who) c.loaded.isSome c.ops ∧
      s.committed ≠ none)
    (hhold : ∀ v, s.draft = some (who, v) →
      (Unwritten (e who) (s.sessions who).loaded.isSome (s.sessions who).ops →
        Unwritten (e who) c.loaded.isSome c.ops) ∧
      (Written (s.sessions who).ops → Written c.ops))
    (hcopy : ∀ copy, c.loaded = some copy → Unwritten (e who) true c.ops →
      copy = start.getD fresh ∨ s.committed = some copy) :
    Serial fresh start e done (s.withSession who c) where
  nodup := h.nodup
  committed := h.committed
  ended := by
    intro w hw
    have hne : w ≠ who := fun heq => hwho (heq ▸ hw)
    simp only [State.withSession, if_neg hne]
    exact h.ended w hw
  waiting := by
    intro w hw hfree
    by_cases hne : w = who
    · subst hne
      obtain ⟨hun, hrow⟩ := hwait hfree
      simp only [State.withSession, if_true]
      exact ⟨hun, fun hnone => (hrow hnone).elim⟩
    · simp only [State.withSession, if_neg hne]
      exact h.waiting w hw hfree
  holding := by
    intro w v hd
    obtain ⟨hw, hcase⟩ := h.holding w v hd
    refine ⟨hw, ?_⟩
    by_cases hne : w = who
    · subst hne
      simp only [State.withSession, if_true]
      obtain ⟨hun, hwr⟩ := hhold v hd
      exact hcase.imp (And.imp_left hun) (And.imp_left hwr)
    · simp only [State.withSession, if_neg hne]
      exact hcase
  loaded := by
    intro w copy hl hun
    by_cases hne : w = who
    · subst hne
      simp only [State.withSession, if_true] at hl hun
      exact hcopy copy hl hun
    · simp only [State.withSession, if_neg hne] at hl hun
      exact h.loaded w copy hl hun

/-- A session that finds the row free takes it, for the missing row or for its write. -/
theorem take (h : Serial fresh start e done s) {who : Bool} (hwho : who ∉ done)
    (hlock : ¬ s.Locked who) {c : Session α} {v : α}
    (hcase : (Unwritten (e who) c.loaded.isSome c.ops ∧ v = fresh ∧ start = none ∧ done = []) ∨
      (Written c.ops ∧ v = e who (serialValue e (start.getD fresh) done)))
    (hcopy : ∀ copy, c.loaded = some copy → Unwritten (e who) true c.ops →
      copy = start.getD fresh ∨ s.committed = some copy) :
    Serial fresh start e done { s.withSession who c with draft := some (who, v) } where
  nodup := h.nodup
  committed := h.committed
  ended := by
    intro w hw
    have hne : w ≠ who := fun heq => hwho (heq ▸ hw)
    simp only [State.withSession, if_neg hne]
    exact h.ended w hw
  waiting := by
    intro w hw hfree
    have hne : w ≠ who := by
      rintro rfl
      exact hfree v rfl
    have hfree' : ∀ v', s.draft ≠ some (w, v') := by
      intro v' hd
      exact hlock ⟨v', by rw [hd, Bool.eq_not.mpr hne]⟩
    simp only [State.withSession, if_neg hne]
    exact h.waiting w hw hfree'
  holding := by
    intro w v' hd
    obtain ⟨rfl, rfl⟩ := Prod.mk.inj (Option.some.inj hd)
    simp only [State.withSession, if_true]
    exact ⟨hwho, hcase⟩
  loaded := by
    intro w copy hl hun
    by_cases hne : w = who
    · subst hne
      simp only [State.withSession, if_true] at hl hun
      exact hcopy copy hl hun
    · simp only [State.withSession, if_neg hne] at hl hun
      exact h.loaded w copy hl hun

theorem commit (h : Serial fresh start e done s) {who : Bool} (hwho : who ∉ done) {v : α}
    (hd : s.draft = some (who, v)) (hv : v = e who (serialValue e (start.getD fresh) done))
    {c : Session α} (hc : c.ops = []) :
    Serial fresh start e (done ++ [who])
      { s.withSession who c with committed := some v, draft := none } where
  nodup := by
    rw [List.nodup_append_comm]
    exact List.nodup_cons.mpr ⟨hwho, h.nodup⟩
  committed := by
    rw [if_neg (List.append_ne_nil_of_right_ne_nil _ (List.cons_ne_nil _ _)), serialValue_concat, hv]
  ended := by
    intro w hw
    by_cases hne : w = who
    · subst hne
      simp only [State.withSession, if_true]
      exact hc
    · simp only [State.withSession, if_neg hne]
      exact h.ended w ((List.mem_append.mp hw).resolve_right (by simpa using hne))
  waiting := by
    intro w hw hfree
    rw [List.mem_append, not_or, List.mem_singleton] at hw
    have hfree' : ∀ v', s.draft ≠ some (w, v') := by
      intro v' hd'
      rw [hd] at hd'
      exact hw.2 (Prod.mk.inj (Option.some.inj hd')).1.symm
    simp only [State.withSession, if_neg hw.2]
    exact ⟨(h.waiting w hw.1 hfree').1, fun hnone => by cases hnone⟩
  holding := by
    intro w v' hd'
    cases hd'
  loaded := by
    intro w copy hl hun
    by_cases hne : w = who
    · subst hne
      simp only [State.withSession, if_true, hc] at hun
      cases hun
    · simp only [State.withSession, if_neg hne] at hl hun
      have hdone : done = [] := by
        rw [List.eq_nil_iff_forall_not_mem]
        intro b hb
        have hb' : b = w ∨ b = who := by
          cases b <;> cases w <;> cases who <;> simp_all
        obtain rfl | rfl := hb'
        · rw [h.ended b hb] at hun
          cases hun
        · exact hwho hb
      obtain hbase | hcom := h.loaded w copy hl hun
      · exact .inl hbase
      · rw [h.committed, if_pos hdone] at hcom
        rw [hcom]
        exact .inl rfl

end Serial

theorem Written.not_unwritten {e : α → α} {b : Bool} {ops : List (Op α)} (h : Written ops) :
    ¬ Unwritten e b ops := by
  induction h generalizing b with
  | ensure _ ih | select _ ih =>
    intro hun
    cases hun with
    | _ hun => exact ih hun
  | commit => exact fun hun => nomatch hun

namespace Serial

variable {fresh : α} {start : Option α} {e : Bool → α → α} {done : List Bool} {s : State α}

/-- The turn of a session that holds the row and has not written it. -/
theorem step_inserted (h : Serial fresh start e done s) {who : Bool} (hclean : Clean s who)
    (hd : s.draft = some (who, fresh)) (hwho : who ∉ done) (hstart : start = none)
    (hdone : done = [])
    (hun : Unwritten (e who) (s.sessions who).loaded.isSome (s.sessions who).ops) :
    Serial fresh start e done (step fresh s who) := by
  have hlock := State.not_locked_of_draft hd
  have hvis := State.visible_of_draft hd
  have hvalue : e who fresh = e who (serialValue e (start.getD fresh) done) := by
    rw [hstart, hdone]
    rfl
  have hbusy : ∀ {P : Prop}, (∀ v, s.draft ≠ some (who, v)) → P := fun hfree => (hfree _ hd).elim
  have hcopy := h.loaded who
  unfold RowSessions.step
  generalize hops : (s.sessions who).ops = ops at hun hcopy
  cases hun with
  | ensure hun =>
    simp only [if_neg hlock, hvis]
    exact h.withSession hwho hbusy (fun _ _ => ⟨fun _ => hun, fun hwr => by
      rw [hops] at hwr
      exact (hwr.not_unwritten (.ensure hun)).elim⟩)
      fun copy hl hun' => hcopy copy hl (.ensure hun')
  | select hun =>
    simp only [hvis]
    exact h.withSession hwho hbusy (fun _ _ => ⟨fun _ => hun, fun hwr => by
      rw [hops] at hwr
      exact (hwr.not_unwritten (b := true) (.select hun)).elim⟩)
      fun copy hl _ => .inl (by rw [hstart]; exact (Option.some.inj hl).symm)
  | flush hb he hwr =>
    obtain ⟨copy, hl⟩ := Option.isSome_iff_exists.mp hb
    simp only [if_neg hlock, hvis, hl]
    refine h.take hwho hlock (.inr ⟨hwr, ?_⟩) fun _ _ hun => (hwr.not_unwritten hun).elim
    rw [hclean _ _ hops hlock copy fresh hl hvis, he, hvalue]
  | update hwr =>
    simp only [if_neg hlock, hvis]
    exact h.take hwho hlock (.inr ⟨hwr, hvalue⟩) fun _ _ hun => (hwr.not_unwritten hun).elim

/-- The turn of a session that has written the row. -/
theorem step_written (h : Serial fresh start e done s) {who : Bool} {v : α}
    (hd : s.draft = some (who, v)) (hwho : who ∉ done)
    (hwr : Written (s.sessions who).ops)
    (hv : v = e who (serialValue e (start.getD fresh) done)) :
    ∃ done', Serial fresh start e done' (step fresh s who) := by
  have hlock := State.not_locked_of_draft hd
  have hvis := State.visible_of_draft hd
  have hbusy : ∀ {P : Prop}, (∀ v, s.draft ≠ some (who, v)) → P := fun hfree => (hfree _ hd).elim
  unfold RowSessions.step
  generalize hops : (s.sessions who).ops = ops at hwr
  have hon : ∀ {ops' : List (Op α)} {copy : Option α}, Written ops → Written ops' →
      Serial fresh start e done (s.withSession who ⟨ops', copy⟩) := by
    intro ops' copy hwr hwr'
    refine h.withSession hwho hbusy (fun _ _ => ⟨fun hun => ?_, fun _ => hwr'⟩)
      fun _ _ hun => (hwr'.not_unwritten hun).elim
    rw [hops] at hun
    exact (hwr.not_unwritten hun).elim
  cases hwr with
  | ensure hwr =>
    simp only [if_neg hlock, hvis]
    exact ⟨done, hon (.ensure hwr) hwr⟩
  | select hwr => exact ⟨done, hon (.select hwr) hwr⟩
  | commit =>
    simp only [hd, if_true]
    exact ⟨_, h.commit hwho hd hv rfl⟩

theorem value_committed (h : Serial fresh start e done s) (who : Bool) {row : α}
    (hcom : s.committed = some row) : e who row = e who (serialValue e (start.getD fresh) done) := by
  rw [h.committed] at hcom
  by_cases hdone : done = []
  · rw [if_pos hdone] at hcom
    rw [hcom, hdone]
    rfl
  · rw [if_neg hdone] at hcom
    rw [← Option.some.inj hcom]

theorem exists_committed (h : Serial fresh start e done s) {who : Bool} (hwho : who ∉ done)
    (hfree : ∀ v, s.draft ≠ some (who, v)) (hops : ∀ ops, (s.sessions who).ops ≠ .ensure :: ops) :
    ∃ row, s.committed = some row := by
  refine Option.ne_none_iff_exists'.mp fun hnone => ?_
  obtain ⟨ops, heq⟩ := (h.waiting who hwho hfree).2 hnone
  exact hops ops heq

/-- The turn of a session that does not hold the row. -/
theorem step_waiting (h : Serial fresh start e done s) {who : Bool} (hclean : Clean s who)
    (hwho : who ∉ done) (hfree : ∀ v, s.draft ≠ some (who, v)) :
    Serial fresh start e done (step fresh s who) := by
  have hvis := State.visible_of_free hfree
  have hidle : ∀ {P : Prop} {v : α}, s.draft = some (who, v) → P := fun hd => (hfree _ hd).elim
  obtain ⟨hun, -⟩ := h.waiting who hwho hfree
  have hsome := h.exists_committed hwho hfree
  have hcopy := h.loaded who
  unfold RowSessions.step
  generalize hops : (s.sessions who).ops = ops at hun hsome hcopy
  cases hun with
  | ensure hun =>
    dsimp only
    by_cases hlock : s.Locked who
    · rw [if_pos hlock]
      exact h
    · rw [if_neg hlock, hvis]
      cases hcom : s.committed with
      | some row =>
        exact h.withSession hwho (fun _ => ⟨hun, by simp [hcom]⟩) (fun _ hd => hidle hd)
          fun copy hl hun' => hcopy copy hl (.ensure hun')
      | none =>
        have hnone : start = none ∧ done = [] := by
          have hcom' := h.committed
          rw [hcom] at hcom'
          split_ifs at hcom' with hdone
          exact ⟨hcom'.symm, hdone⟩
        exact h.take hwho hlock (.inl ⟨hun, rfl, hnone.1, hnone.2⟩)
          fun copy hl hun' => hcopy copy hl (.ensure hun')
  | select hun =>
    obtain ⟨row, hcom⟩ := hsome fun _ => by simp
    rw [hvis]
    refine h.withSession hwho (fun _ => ⟨?_, by simp [hcom]⟩) (fun _ hd => hidle hd)
      fun copy hl _ => .inr hl
    rw [hcom]
    exact hun
  | flush hb he hwr =>
    obtain ⟨row, hcom⟩ := hsome fun _ => by simp
    dsimp only
    by_cases hlock : s.Locked who
    · rw [if_pos hlock]
      exact h
    · obtain ⟨copy, hl⟩ := Option.isSome_iff_exists.mp hb
      rw [if_neg hlock, hvis, hl, hcom]
      refine h.take hwho hlock (.inr ⟨hwr, ?_⟩) fun _ _ hun => (hwr.not_unwritten hun).elim
      rw [hclean _ _ hops hlock copy row hl (hvis.trans hcom), he, h.value_committed who hcom]
  | update hwr =>
    obtain ⟨row, hcom⟩ := hsome fun _ => by simp
    dsimp only
    by_cases hlock : s.Locked who
    · rw [if_pos hlock]
      exact h
    · rw [if_neg hlock, hvis, hcom]
      exact h.take hwho hlock (.inr ⟨hwr, h.value_committed who hcom⟩)
        fun _ _ hun => (hwr.not_unwritten hun).elim

theorem step (h : Serial fresh start e done s) (who : Bool) (hclean : Clean s who) :
    ∃ done', Serial fresh start e done' (step fresh s who) := by
  by_cases hwho : who ∈ done
  · refine ⟨done, ?_⟩
    unfold RowSessions.step
    rw [h.ended who hwho]
    exact h
  · by_cases hheld : ∃ v, s.draft = some (who, v)
    · obtain ⟨v, hd⟩ := hheld
      obtain ⟨-, ⟨hun, rfl, hstart, hdone⟩ | ⟨hwr, hv⟩⟩ := h.holding who v hd
      · exact ⟨done, h.step_inserted hclean hd hwho hstart hdone hun⟩
      · exact h.step_written hd hwho hwr hv
    · exact ⟨done, h.step_waiting hclean hwho fun v hd => hheld ⟨v, hd⟩⟩

theorem init {sessions : Bool → Session α} (h : ∀ who, (sessions who).loaded = none ∧
    Unwritten (e who) false (sessions who).ops ∧ ∃ ops, (sessions who).ops = .ensure :: ops) :
    Serial fresh start e [] ⟨start, none, sessions⟩ where
  nodup := List.nodup_nil
  committed := rfl
  ended := by simp
  waiting := by
    intro who _ _
    obtain ⟨hloaded, hun, hops⟩ := h who
    exact ⟨by rw [hloaded]; exact hun, fun _ => hops⟩
  holding := by
    intro who v hd
    cases hd
  loaded := by
    intro who copy hl
    rw [(h who).1] at hl
    cases hl

/-- When both have finished, the row is what they made of it one after the other. -/
theorem finished (h : Serial fresh start e done s) (hfin : s.Finished) : ∃ first,
    s.committed = some (serialValue e (start.getD fresh) [first, !first]) := by
  have hall : ∀ who, who ∈ done := by
    intro who
    by_contra hwho
    by_cases hheld : ∃ v, s.draft = some (who, v)
    · obtain ⟨v, hd⟩ := hheld
      obtain ⟨-, ⟨hun, -⟩ | ⟨hwr, -⟩⟩ := h.holding who v hd
      · rw [hfin who] at hun
        cases hun
      · rw [hfin who] at hwr
        cases hwr
    · have hun := (h.waiting who hwho fun v hd => hheld ⟨v, hd⟩).1
      rw [hfin who] at hun
      cases hun
  have horder : ∃ first, done = [first, !first] := by
    have hnodup := h.nodup
    match done, hall, hnodup with
    | [], hall, _ => exact absurd (hall true) (by simp)
    | [a], hall, _ => exact absurd (hall (!a)) (by cases a <;> simp)
    | [a, b], _, hnodup => exact ⟨a, by cases a <;> cases b <;> simp_all⟩
    | a :: b :: c :: rest, _, hnodup =>
      cases a <;> cases b <;> cases c <;> simp_all
  obtain ⟨first, rfl⟩ := horder
  exact ⟨first, by rw [h.committed, if_neg (by simp)]⟩

end Serial

/-- One session has written `v` over the finished work of the other. -/
inductive Held (v : α) (s : State α) : Prop
  | writing (who : Bool) (hd : s.draft = some (who, v)) (hwr : Written (s.sessions who).ops)
      (hother : (s.sessions !who).ops = [])
  | final (hcom : s.committed = some v) (hfin : s.Finished)

theorem Held.step {fresh v : α} {s : State α} (h : Held v s) (who : Bool) :
    Held v (step fresh s who) := by
  cases h with
  | final hcom hfin =>
    unfold RowSessions.step
    rw [hfin who]
    exact .final hcom hfin
  | writing w hd hwr hother =>
    by_cases hw : who = w
    · subst hw
      have hlock := State.not_locked_of_draft hd
      have hvis := State.visible_of_draft hd
      have hne : (!who) ≠ who := by simp
      unfold RowSessions.step
      generalize hops : (s.sessions who).ops = ops at hwr
      cases hwr with
      | ensure hwr =>
        simp only [if_neg hlock, hvis]
        exact .writing who hd (by simpa [State.goOn, State.withSession] using hwr)
          (by simpa [State.goOn, State.withSession] using hother)
      | select hwr =>
        exact .writing who hd (by simpa [State.withSession] using hwr)
          (by simpa [State.withSession] using hother)
      | commit =>
        simp only [hd, if_true]
        refine .final rfl fun w => ?_
        by_cases hw : w = who
        · simp [State.goOn, State.withSession, hw]
        · rw [← Bool.eq_not.mpr hw] at hother
          simpa [State.goOn, State.withSession, hw] using hother
    · obtain rfl := Bool.eq_not.mpr hw
      unfold RowSessions.step
      rw [hother]
      exact .writing w hd hwr hother

theorem Held.run {fresh v : α} {s : State α} (h : Held v s) (turns : List Bool) :
    Held v (Runs.run (RowSessions.step fresh) s turns) :=
  Runs.run_invariant turns h fun _ who h => h.step who

theorem Held.finished {v : α} {s : State α} (h : Held v s) (hfin : s.Finished) :
    s.committed = some v := by
  cases h with
  | final hcom => exact hcom
  | writing who hd hwr =>
    rw [hfin who] at hwr
    cases hwr

/-- An outdated copy that is written back was taken before the other session finished. -/
theorem Serial.outdated {fresh : α} {start : Option α} {e : Bool → α → α} {done : List Bool}
    {s : State α} (h : Serial fresh start e done s) {who : Bool} {write : α → α → α}
    {ops : List (Op α)} (hops : (s.sessions who).ops = .flush write :: ops)
    (hlock : ¬ s.Locked who) {copy row : α} (hl : (s.sessions who).loaded = some copy)
    (hvis : s.visible who = some row) (hne : row ≠ copy) :
    copy = start.getD fresh ∧ row = e (!who) (start.getD fresh) ∧
      Held (write copy row) (RowSessions.step fresh s who) := by
  have hwho : who ∉ done := by
    intro hmem
    rw [h.ended who hmem] at hops
    cases hops
  have hbusy : ¬ ∃ v, s.draft = some (who, v) := by
    rintro ⟨v, hd⟩
    obtain ⟨-, ⟨hun, rfl, rfl, rfl⟩ | ⟨hwr, -⟩⟩ := h.holding who v hd
    · rw [State.visible_of_draft hd] at hvis
      obtain rfl := Option.some.inj hvis
      rw [hl] at hun
      obtain hbase | hcom := h.loaded who copy hl hun
      · exact hne hbase.symm
      · rw [h.committed] at hcom
        cases hcom
    · rw [hops] at hwr
      cases hwr
  have hfree : ∀ v, s.draft ≠ some (who, v) := fun v hd => hbusy ⟨v, hd⟩
  have hun := (h.waiting who hwho hfree).1
  rw [hl] at hun
  have hcom : s.committed = some row := by rw [← State.visible_of_free hfree, hvis]
  have hcopy : copy = start.getD fresh := by
    obtain hbase | hcom' := h.loaded who copy hl hun
    · exact hbase
    · exact (hne (Option.some.inj (hcom.symm.trans hcom'))).elim
  have hdone : done = [!who] := by
    have hnodup := h.nodup
    match done, hwho, hnodup with
    | [], _, _ =>
      rw [h.committed, if_pos rfl] at hcom
      rw [hcom] at hcopy
      exact (hne hcopy.symm).elim
    | [a], hwho, _ =>
      have ha : a = !who := Bool.eq_not.mpr fun ha => hwho (by simp [ha])
      rw [ha]
    | a :: b :: rest, hwho, hnodup => cases a <;> cases b <;> cases who <;> simp_all
  refine ⟨hcopy, ?_, ?_⟩
  · rw [h.committed, hdone] at hcom
    exact (Option.some.inj hcom).symm
  · have hwr : Written ops := by
      rw [hops] at hun
      cases hun with
      | flush _ _ hwr => exact hwr
    have hend := h.ended (!who) (by simp [hdone])
    unfold RowSessions.step
    rw [hops]
    simp only [if_neg hlock, hl, hvis]
    exact .writing who rfl (by simpa [State.goOn, State.withSession] using hwr)
      (by simpa [State.goOn, State.withSession] using hend)

theorem State.withSession_suffix {s : State α} {who : Bool} {o : Op α} {c : Session α}
    (hops : (s.sessions who).ops = o :: c.ops) (w : Bool) :
    ((s.withSession who c).sessions w).ops <:+ (s.sessions w).ops := by
  by_cases hw : w = who
  · subst hw
    simp only [State.withSession, if_true, hops]
    exact List.suffix_cons o c.ops
  · simp only [State.withSession, if_neg hw]
    exact List.suffix_refl _

/-- What is left of a session is the end of what it began with. -/
theorem step_suffix (fresh : α) (s : State α) (who w : Bool) :
    ((step fresh s who).sessions w).ops <:+ (s.sessions w).ops := by
  unfold step
  split
  · exact List.suffix_refl _
  · next hops =>
    split_ifs
    · exact List.suffix_refl _
    · split <;> exact State.withSession_suffix hops w
  · next hops => exact State.withSession_suffix hops w
  · next hops =>
    split_ifs
    · exact List.suffix_refl _
    · split <;> exact State.withSession_suffix hops w
  · next hops =>
    split_ifs
    · exact List.suffix_refl _
    · split <;> exact State.withSession_suffix hops w
  · next hops =>
    split
    · split_ifs <;> exact State.withSession_suffix hops w
    · exact State.withSession_suffix hops w

end RowSessions
