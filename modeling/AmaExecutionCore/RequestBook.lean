import AmaExecutionCore.RequestRuns

/-! What interleaved requests know of the book: the submission a request has read, the
signal it registered and the trade it returns all belong to its fingerprint. -/
namespace AmaExecutionCore
open TradeStatus

/-- The trade was made for a signal of the fingerprint. -/
def World.Answers (w : World) (fingerprint : String) (t : Trade) : Prop :=
  ∃ id ∈ t.signalId, (id, fingerprint) ∈ w.origin

instance (w : World) (fingerprint : String) (t : Trade) : Decidable (w.Answers fingerprint t) :=
  inferInstanceAs (Decidable (∃ id ∈ t.signalId, (id, fingerprint) ∈ w.origin))

/-- A committed trade with the id was made for the fingerprint. -/
def World.HasTrade (w : World) (fingerprint : String) (id : TradeId) : Prop :=
  ∃ t ∈ w.db.trades, t.id = id ∧ w.Answers fingerprint t

instance (w : World) (fingerprint : String) (id : TradeId) :
    Decidable (w.HasTrade fingerprint id) :=
  inferInstanceAs (Decidable (∃ t ∈ w.db.trades, t.id = id ∧ w.Answers fingerprint t))

/-- What the row names was made for its fingerprint. -/
def World.Leads (w : World) (s : SignalSubmission) : Prop :=
  (∀ id ∈ s.signalId, (id, s.fingerprint) ∈ w.origin) ∧
    ∀ id ∈ s.tradeId, w.HasTrade s.fingerprint id

def World.HasRow (w : World) (fingerprint : String) : Prop :=
  ∃ s ∈ w.db.submissions, s.fingerprint = fingerprint

/-- A signal is stored once, for one fingerprint, and that has a submission. -/
structure World.Origins (w : World) : Prop where
  bound : ∀ p ∈ w.origin, p.1 < w.issued
  unique : ∀ p ∈ w.origin, ∀ q ∈ w.origin, p.1 = q.1 → p = q
  stored : ∀ p ∈ w.origin, w.HasRow p.2
  signed : ∀ t ∈ w.db.trades, ∀ id ∈ t.signalId, ∃ f, (id, f) ∈ w.origin
  leads : ∀ s ∈ w.db.submissions, w.Leads s

theorem World.Origins.init : ({} : World).Origins := by
  constructor <;> simp

/-- Nothing of the book is lost. -/
structure World.Grows (w w' : World) : Prop where
  origin : ∀ p ∈ w.origin, p ∈ w'.origin
  trades : ∀ t ∈ w.db.trades, ∃ t' ∈ w'.db.trades, t'.id = t.id ∧ t'.signalId = t.signalId
  rows : ∀ f, w.HasRow f → w'.HasRow f

theorem World.Grows.answers {w w' : World} (h : w.Grows w') {f : String} {t t' : Trade}
    (ht : w.Answers f t) (hsignal : t'.signalId = t.signalId) : w'.Answers f t' := by
  obtain ⟨id, hid, horigin⟩ := ht
  exact ⟨id, hsignal ▸ hid, h.origin _ horigin⟩

theorem World.Grows.hasTrade {w w' : World} (h : w.Grows w') {f : String} {id : TradeId}
    (ht : w.HasTrade f id) : w'.HasTrade f id := by
  obtain ⟨t, hmem, hid, hanswers⟩ := ht
  obtain ⟨t', hmem', hid', hsignal⟩ := h.trades t hmem
  exact ⟨t', hmem', hid'.trans hid, h.answers hanswers hsignal⟩

theorem World.Grows.leads {w w' : World} (h : w.Grows w') {s : SignalSubmission}
    (hs : w.Leads s) : w'.Leads s :=
  ⟨fun id hid => h.origin _ (hs.1 id hid), fun id hid => h.hasTrade (hs.2 id hid)⟩

theorem World.Grows.of_rows {R : Trade → Trade → Prop} {w w' : World} (hbook : w.SameBook w')
    (hrows : List.Forall₂ R w.db.trades w'.db.trades)
    (hkey : ∀ t t', R t t' → t'.id = t.id ∧ t'.signalId = t.signalId) : w.Grows w' where
  origin := by
    rw [hbook.origin]
    exact fun _ hp => hp
  trades := by
    intro t ht
    obtain ⟨t', ht', hR⟩ := Rows.exists_right hrows ht
    exact ⟨t', ht', hkey t t' hR⟩
  rows := by
    rintro f ⟨s, hs, hf⟩
    exact ⟨s, hbook.submissions ▸ hs, hf⟩

theorem World.Grows.of_same {w w' : World} (hbook : w.SameBook w')
    (htrades : w'.db.trades = w.db.trades) : w.Grows w' := by
  refine .of_rows (R := Eq) hbook (by rw [htrades]; exact List.forall₂_refl _) ?_
  rintro t _ rfl
  exact ⟨rfl, rfl⟩

theorem World.Origins.grows {w w' : World} (h : w.Origins) (hbook : w.SameBook w')
    (hg : w.Grows w') (hissued : w.issued ≤ w'.issued)
    (hsigned : ∀ t ∈ w'.db.trades, ∀ id ∈ t.signalId, ∃ f, (id, f) ∈ w.origin) : w'.Origins where
  bound := by
    rw [hbook.origin]
    exact fun p hp => (h.bound p hp).trans_le hissued
  unique := by
    rw [hbook.origin]
    exact h.unique
  stored := by
    rw [hbook.origin]
    exact fun p hp => hg.rows _ (h.stored p hp)
  signed := by
    rw [hbook.origin]
    exact hsigned
  leads := by
    rw [hbook.submissions]
    exact fun s hs => hg.leads (h.leads s hs)

theorem World.Origins.signed_rows {R : Trade → Trade → Prop} {w : World} (h : w.Origins)
    {trades : List Trade} (hrows : List.Forall₂ R w.db.trades trades)
    (hkey : ∀ t t', R t t' → t'.signalId = t.signalId) :
    ∀ t ∈ trades, ∀ id ∈ t.signalId, ∃ f, (id, f) ∈ w.origin := by
  intro t' ht' id hid
  obtain ⟨t, ht, hR⟩ := Rows.exists_left hrows ht'
  exact h.signed t ht id (hkey t t' hR ▸ hid)

/-- A row of a new attempt is an old one, or names the new signal for the fingerprint. -/
theorem submissionRows_row {f : String} {n : SignalId} {db : Db} {rows : List SignalSubmission}
    {loaded : Option SignalSubmission} (h : submissionRows f loaded n db = .ok rows)
    {s : SignalSubmission} (hs : s ∈ rows) : s ∈ db.submissions ∨
      (s.fingerprint = f ∧ s.signalId = some n ∧
        (s.tradeId = none ∨ ∃ r ∈ db.submissions, r.fingerprint = f ∧ s.tradeId = r.tradeId)) := by
  unfold submissionRows at h
  cases loaded with
  | none =>
    dsimp only at h
    split_ifs at h
    obtain rfl := Except.ok.inj h
    obtain hs | hs := List.mem_append.mp hs
    · exact .inl hs
    · rw [List.mem_singleton.mp hs]
      exact .inr ⟨rfl, rfl, .inl rfl⟩
  | some row =>
    obtain rfl := Except.ok.inj h
    obtain ⟨r, hr, rfl⟩ := List.mem_map.mp hs
    by_cases hprint : r.fingerprint = f
    · rw [if_pos hprint]
      refine .inr ⟨hprint, rfl, ?_⟩
      by_cases hlink : row.tradeId = none
      · exact .inr ⟨r, hr, hprint, by simp [hlink]⟩
      · exact .inl (by simp [hlink])
    · rw [if_neg hprint]
      exact .inl hr

theorem submissionRows_keeps {f : String} {n : SignalId} {db : Db} {rows : List SignalSubmission}
    {loaded : Option SignalSubmission} (h : submissionRows f loaded n db = .ok rows)
    (hrow : loaded ≠ none → ∃ s ∈ db.submissions, s.fingerprint = f) {f' : String}
    (hf : f' = f ∨ ∃ s ∈ db.submissions, s.fingerprint = f') : ∃ s ∈ rows, s.fingerprint = f' := by
  unfold submissionRows at h
  cases loaded with
  | none =>
    dsimp only at h
    split_ifs at h
    obtain rfl := Except.ok.inj h
    obtain rfl | ⟨s, hs, rfl⟩ := hf
    · exact ⟨⟨f', some n, none⟩, by simp, rfl⟩
    · exact ⟨s, List.mem_append_left _ hs, rfl⟩
  | some row =>
    obtain rfl := Except.ok.inj h
    have hold : ∃ s ∈ db.submissions, s.fingerprint = f' := by
      obtain rfl | hold := hf
      · exact hrow (Option.some_ne_none _)
      · exact hold
    obtain ⟨s, hs, rfl⟩ := hold
    refine ⟨_, List.mem_map_of_mem hs, ?_⟩
    split_ifs <;> rfl

theorem registered_grows {f : String} {loaded : Option SignalSubmission} {w w' : World}
    {rows : List SignalSubmission} (hrows : submissionRows f loaded w.issued w.db = .ok rows)
    (hrow : loaded ≠ none → w.HasRow f) (hsubmissions : w'.db.submissions = rows)
    (horigin : w'.origin = w.origin ++ [(w.issued, f)]) (htrades : w'.db.trades = w.db.trades) :
    w.Grows w' where
  origin := by
    rw [horigin]
    exact fun _ hp => List.mem_append_left _ hp
  trades := by
    rw [htrades]
    exact fun t ht => ⟨t, ht, rfl, rfl⟩
  rows := by
    intro f' hf'
    rw [World.HasRow, hsubmissions]
    exact submissionRows_keeps hrows hrow (.inr hf')

theorem World.Origins.registered {f : String} {loaded : Option SignalSubmission} {w w' : World}
    {rows : List SignalSubmission} (h : w.Origins)
    (hrows : submissionRows f loaded w.issued w.db = .ok rows)
    (hrow : loaded ≠ none → w.HasRow f) (hsubmissions : w'.db.submissions = rows)
    (horigin : w'.origin = w.origin ++ [(w.issued, f)]) (htrades : w'.db.trades = w.db.trades)
    (hissued : w'.issued = w.issued + 1) : w'.Origins := by
  have hg := registered_grows hrows hrow hsubmissions horigin htrades
  have hown : (w.issued, f) ∈ w'.origin := by simp [horigin]
  refine ⟨?_, ?_, ?_, ?_, ?_⟩
  · intro p hp
    rw [horigin] at hp
    rw [hissued]
    obtain hp | hp := List.mem_append.mp hp
    · exact (h.bound p hp).trans (Nat.lt_succ_self _)
    · rw [List.mem_singleton.mp hp]
      exact Nat.lt_succ_self _
  · intro p hp q hq heq
    rw [horigin] at hp hq
    obtain hp | hp := List.mem_append.mp hp <;> obtain hq | hq := List.mem_append.mp hq
    · exact h.unique p hp q hq heq
    · rw [List.mem_singleton.mp hq] at heq
      exact absurd heq (h.bound p hp).ne
    · rw [List.mem_singleton.mp hp] at heq
      exact absurd heq (h.bound q hq).ne'
    · rw [List.mem_singleton.mp hp, List.mem_singleton.mp hq]
  · intro p hp
    rw [horigin] at hp
    obtain hp | hp := List.mem_append.mp hp
    · exact hg.rows _ (h.stored p hp)
    · rw [List.mem_singleton.mp hp, World.HasRow, hsubmissions]
      exact submissionRows_keeps hrows hrow (.inl rfl)
  · intro t ht id hid
    obtain ⟨f', hf'⟩ := h.signed t (htrades ▸ ht) id hid
    exact ⟨f', hg.origin _ hf'⟩
  · intro s hs
    rw [hsubmissions] at hs
    obtain hs | ⟨rfl, hsignal, hlink⟩ := submissionRows_row hrows hs
    · exact hg.leads (h.leads s hs)
    · refine ⟨fun id hid => ?_, fun id hid => ?_⟩
      · rw [hsignal] at hid
        rw [← Option.mem_some.mp hid]
        exact hown
      · obtain hnone | ⟨r, hr, hprint, heq⟩ := hlink
        · rw [hnone] at hid
          cases hid
        · exact hprint ▸ hg.hasTrade ((h.leads r hr).2 id (heq ▸ hid))

theorem committed_grows {io : ExecuteIo} {k : Work} {w : World}
    (hput : Db.saveTrade k.trade w.db.trades = w.db.trades ++ [k.trade]) :
    w.Grows { w with db := recordEntry io k w.db } where
  origin := fun _ hp => hp
  trades := by
    intro t ht
    refine ⟨t, ?_, rfl, rfl⟩
    show t ∈ Db.saveTrade k.trade w.db.trades
    rw [hput]
    exact List.mem_append_left _ ht
  rows := fun _ h => h

theorem linkTrade_grows (f : String) (id : TradeId) (w : World) : w.Grows (w.linkTrade f id) where
  origin := fun _ hp => hp
  trades := fun t ht => ⟨t, ht, rfl, rfl⟩
  rows := by
    rintro f' ⟨s, hs, rfl⟩
    refine ⟨_, List.mem_map_of_mem hs, ?_⟩
    split_ifs <;> rfl

theorem World.Origins.linkTrade {f : String} {id : TradeId} {w : World} (h : w.Origins)
    (hid : w.HasTrade f id) : (w.linkTrade f id).Origins := by
  have hg := linkTrade_grows f id w
  refine ⟨h.bound, h.unique, fun p hp => hg.rows _ (h.stored p hp), h.signed, fun s hs => ?_⟩
  obtain ⟨r, hr, rfl⟩ := List.mem_map.mp hs
  by_cases hf : r.fingerprint = f
  · rw [if_pos hf]
    refine ⟨(hg.leads (h.leads r hr)).1, fun id' hid' => ?_⟩
    rw [← Option.mem_some.mp hid']
    show (w.linkTrade f id).HasTrade r.fingerprint id
    rw [hf]
    exact hg.hasTrade hid
  · rw [if_neg hf]
    exact hg.leads (h.leads r hr)

theorem World.Leads.found {w : World} {s : SignalSubmission} {t : Trade} (hw : w.WellFormed)
    (h : w.Leads s) (hfound : w.db.getTradeForSubmission s = some t) :
    w.HasTrade s.fingerprint t.id := by
  refine ⟨t, Db.getTradeForSubmission_mem hfound, rfl, ?_⟩
  unfold Db.getTradeForSubmission at hfound
  split at hfound
  · next t' hlinked =>
    obtain rfl : t' = t := by simpa using hfound
    obtain ⟨id, hid, hget⟩ := Option.bind_eq_some_iff.mp hlinked
    obtain ⟨hmem, rfl⟩ := Db.getTrade_mem hget
    obtain ⟨r, hr, hrid, hanswers⟩ := h.2 _ hid
    rwa [← hw.eq_of_id hr hmem hrid]
  · split at hfound
    · cases hfound
    · next id hsignal =>
      have ht := (List.mem_filter.mp (List.mem_of_getLast? hfound)).2
      exact ⟨id, by simpa using ht, h.1 id hsignal⟩

/-- What a request has read, registered and made belongs to its fingerprint. -/
def Request.OfPrint (f : String) (w : World) (r : Request) : Prop :=
  match r.stage with
  | .arrived | .unregistered none => r.created = none
  | .submissionRead s => r.created = none ∧ w.HasRow f ∧ s.fingerprint = f ∧ w.Leads s
  | .statusAsked _ existing => r.created = none ∧ w.HasRow f ∧ w.HasTrade f existing.id
  | .unregistered (some _) => r.created = none ∧ w.HasRow f
  | .guarded id | .breakerPassed id | .unsubmitted id | .planned id _ =>
    r.created = none ∧ (id, f) ∈ w.origin
  | .sent id settled => r.created = some settled.work.trade.id ∧
      settled.work.trade.signalId = some id ∧ (id, f) ∈ w.origin
  | .recorded _ t => r.created = some t.id ∧ w.HasTrade f t.id
  | .finished (.ok result) =>
    if result.replayed then r.created = none ∧ w.HasTrade f result.tradeId
    else r.created = some result.tradeId
  | .finished (.error _) => True

theorem Request.OfPrint.grows {f : String} {w w' : World} {r : Request} (h : r.OfPrint f w)
    (hg : w.Grows w') : r.OfPrint f w' := by
  unfold Request.OfPrint at h ⊢
  cases hst : r.stage with
  | arrived => simpa only [hst] using h
  | submissionRead s =>
    simp only [hst] at h ⊢
    exact ⟨h.1, hg.rows _ h.2.1, h.2.2.1, hg.leads h.2.2.2⟩
  | statusAsked s existing =>
    simp only [hst] at h ⊢
    exact ⟨h.1, hg.rows _ h.2.1, hg.hasTrade h.2.2⟩
  | unregistered loaded =>
    cases loaded with
    | none => simpa only [hst] using h
    | some s =>
      simp only [hst] at h ⊢
      exact ⟨h.1, hg.rows _ h.2⟩
  | guarded id =>
    simp only [hst] at h ⊢
    exact ⟨h.1, hg.origin _ h.2⟩
  | breakerPassed id =>
    simp only [hst] at h ⊢
    exact ⟨h.1, hg.origin _ h.2⟩
  | unsubmitted id =>
    simp only [hst] at h ⊢
    exact ⟨h.1, hg.origin _ h.2⟩
  | planned id plan =>
    simp only [hst] at h ⊢
    exact ⟨h.1, hg.origin _ h.2⟩
  | sent id settled =>
    simp only [hst] at h ⊢
    exact ⟨h.1, h.2.1, hg.origin _ h.2.2⟩
  | recorded id t =>
    simp only [hst] at h ⊢
    exact ⟨h.1, hg.hasTrade h.2⟩
  | finished result =>
    cases result with
    | error e => simp only
    | ok result =>
      simp only [hst] at h ⊢
      split_ifs at h ⊢
      · exact ⟨h.1, hg.hasTrade h.2⟩
      · exact h

theorem replayResult_ofPrint {f : String} {submission : SignalSubmission} {t : Trade}
    {w w' : World} {r : Request} (hcreated : r.created = none) (h : w'.HasTrade f t.id) :
    (r.atStage (.finished (replayResult submission t w).1)).OfPrint f w' := by
  unfold replayResult
  split
  · exact ⟨hcreated, h⟩
  · trivial

/-- The book has grown, and the request still belongs to its fingerprint. -/
def Request.KeepsBook (env : Env) (r : Request) (w : World) (p : World × Request) : Prop :=
  w.Grows p.1 ∧ p.1.Origins ∧ p.2.OfPrint (env.fingerprint r.req) p.1 ∧ p.2.req = r.req

section Pieces
variable {env : Env} {r : Request} {w : World}

theorem Request.keepsBook_atStage (ho : w.Origins) {stage : Stage}
    (h : (r.atStage stage).OfPrint (env.fingerprint r.req) w) :
    r.KeepsBook env w (w, r.atStage stage) :=
  ⟨.of_same (.refl w) rfl, ho, h, rfl⟩

theorem Request.keepsBook_read {submission : SignalSubmission} (ho : w.Origins)
    (hst : r.stage = .arrived) (h : r.OfPrint (env.fingerprint r.req) w)
    (hrow : w.db.getSignalSubmission (env.fingerprint r.req) = some submission) :
    r.KeepsBook env w (w, r.atStage (.submissionRead submission)) := by
  simp only [Request.OfPrint, hst] at h
  have hmem := List.mem_of_find?_eq_some hrow
  have hprint : submission.fingerprint = env.fingerprint r.req := by
    simpa using List.find?_some hrow
  exact Request.keepsBook_atStage ho ⟨h, ⟨_, hmem, hprint⟩, hprint, ho.leads _ hmem⟩

theorem Request.keepsBook_told {submission : SignalSubmission} {existing : Trade} {k : Work}
    {stage : Stage} (ho : w.Origins) (hst : r.stage = .statusAsked submission existing)
    (h : r.OfPrint (env.fingerprint r.req) w)
    (hk : reconcilePendingUnknown r.io.pendingLookup (w.work existing) = (.ok (), k))
    (hstage : stage = .unregistered (some submission) ∨
      stage = .finished (replayResult submission k.trade (w.commitLoaded existing k)).1) :
    r.KeepsBook env w (w.commitLoaded existing k, r.atStage stage) := by
  simp only [Request.OfPrint, hst] at h
  obtain ⟨hentry, hexits, -⟩ := told_rows hk
  have hrows := commitLoaded_rows (w := w) hentry hexits
  have hg : w.Grows (w.commitLoaded existing k) := .of_rows ⟨rfl, rfl⟩ hrows
    fun _ _ h => ⟨h.1.1.id, h.1.1.signalId⟩
  refine ⟨hg, ho.grows ⟨rfl, rfl⟩ hg (Nat.le_succ _)
    (ho.signed_rows hrows fun _ _ h => h.1.1.signalId), ?_, rfl⟩
  obtain rfl | rfl := hstage
  · exact ⟨h.1, hg.rows _ h.2.1⟩
  · exact replayResult_ofPrint h.1 (hentry.id ▸ hg.hasTrade h.2.2)

/-- The submission is written, over the row that was loaded or as a new one. -/
theorem Request.keepsBook_registered {loaded : Option SignalSubmission}
    {rows : List SignalSubmission} {w' : World} {stage : Stage} (ho : w.Origins)
    (hst : r.stage = .unregistered loaded) (h : r.OfPrint (env.fingerprint r.req) w)
    (hrows : submissionRows (env.fingerprint r.req) loaded w.issued w.db = .ok rows)
    (hsub : w'.db.submissions = rows)
    (horigin : w'.origin = w.origin ++ [(w.issued, env.fingerprint r.req)])
    (htrades : w'.db.trades = w.db.trades) (hissued : w'.issued = w.issued + 1)
    (hstage : stage = .guarded w.issued ∨ ∃ e, stage = .finished (.error e)) :
    r.KeepsBook env w (w', r.atStage stage) := by
  have hloaded : r.created = none ∧ (loaded ≠ none → w.HasRow (env.fingerprint r.req)) := by
    cases loaded with
    | none =>
      simp only [Request.OfPrint, hst] at h
      exact ⟨h, fun hne => absurd rfl hne⟩
    | some s =>
      simp only [Request.OfPrint, hst] at h
      exact ⟨h.1, fun _ => h.2⟩
  refine ⟨registered_grows hrows hloaded.2 hsub horigin htrades,
    ho.registered hrows hloaded.2 hsub horigin htrades hissued, ?_, rfl⟩
  obtain rfl | ⟨e, rfl⟩ := hstage
  · refine ⟨hloaded.1, ?_⟩
    simp [horigin]
  · trivial

theorem Request.keepsBook_submitted {signalId : SignalId} {plan : EntryPlan} (hw : w.WellFormed)
    (ho : w.Origins) (hst : r.stage = .planned signalId plan)
    (h : r.OfPrint (env.fingerprint r.req) w) :
    r.KeepsBook env w (r.submitted env signalId plan w) := by
  simp only [Request.OfPrint, hst] at h
  obtain ⟨-, -, hnew⟩ := @submitted_reserved env r signalId plan w hw
  obtain ⟨hid, hsignal, -⟩ := hnew _ rfl
  have hg : w.Grows (r.submitted env signalId plan w).1 := .of_same ⟨rfl, rfl⟩ rfl
  exact ⟨hg, ho.grows ⟨rfl, rfl⟩ hg (Nat.le_succ _) ho.signed,
    ⟨congrArg some hid.symm, hsignal, h.2⟩, rfl⟩

/-- The trade of the request is in the book, with the signal of its fingerprint. -/
theorem Request.keepsBook_committed {signalId : SignalId} {raised : Option PyError} {k : Work}
    {stage : Stage} (ho : w.Origins) (hown : OwnTrade w r)
    (hst : r.stage = .sent signalId (.committed raised k))
    (h : r.OfPrint (env.fingerprint r.req) w)
    (hstage : stage = .recorded signalId k.trade ∨ ∃ e, stage = .finished (.error e)) :
    r.KeepsBook env w ({ w with db := recordEntry r.io k w.db }, r.atStage stage) := by
  simp only [Request.OfPrint, hst] at h
  have hput : Db.saveTrade k.trade w.db.trades = w.db.trades ++ [k.trade] :=
    Rows.put_of_fresh (hown k.trade (by simp [Request.pending, hst, Settled.work])).fresh
  have hg := @committed_grows r.io _ _ hput
  refine ⟨hg, ho.grows ⟨rfl, rfl⟩ hg (le_refl _) ?_, ?_, rfl⟩
  · intro t ht i hi
    have hmem : t ∈ w.db.trades ++ [k.trade] := hput ▸ ht
    obtain ht | ht := List.mem_append.mp hmem
    · exact ho.signed t ht i hi
    · rw [List.mem_singleton.mp ht, show k.trade.signalId = some signalId from h.2.1] at hi
      exact ⟨_, Option.mem_some.mp hi ▸ h.2.2⟩
  · obtain rfl | ⟨e, rfl⟩ := hstage
    · exact ⟨h.1, k.trade, Rows.mem_put _ _, rfl, signalId, h.2.1, h.2.2⟩
    · trivial

/-- A piece of a request grows the book, and the request still belongs to its fingerprint. -/
theorem Piece.book {p : World × Request} (hw : w.WellFormed) (ho : w.Origins)
    (hown : OwnTrade w r) (h : r.OfPrint (env.fingerprint r.req) w) (hp : Piece env r w p) :
    r.KeepsBook env w p := by
  have hprint := h
  unfold Request.OfPrint at h
  cases hp with
  | unread hst =>
    simp only [hst] at h
    exact Request.keepsBook_atStage ho h
  | read hst hrow => exact Request.keepsBook_read ho hst hprint hrow
  | renewed hst =>
    simp only [hst] at h
    exact Request.keepsBook_atStage ho ⟨h.1, h.2.1⟩
  | asked hst hfound =>
    simp only [hst] at h
    exact Request.keepsBook_atStage ho ⟨h.1, h.2.1, h.2.2.1 ▸ h.2.2.2.found hw hfound⟩
  | replayed hst hfound =>
    simp only [hst] at h
    exact Request.keepsBook_atStage ho
      (replayResult_ofPrint h.1 (h.2.2.1 ▸ h.2.2.2.found hw hfound))
  | told hst hk hstage => exact Request.keepsBook_told ho hst hprint hk hstage
  | registered hst hrows hsub horigin htrades hexchange hissued hstage =>
    exact Request.keepsBook_registered ho hst hprint hrows hsub horigin htrades hissued hstage
  | breaker hst =>
    simp only [hst] at h
    exact Request.keepsBook_atStage ho h
  | idempotent hst =>
    simp only [hst] at h
    exact Request.keepsBook_atStage ho h
  | planned hst =>
    simp only [hst] at h
    exact Request.keepsBook_atStage ho h
  | submitted hst => exact Request.keepsBook_submitted hw ho hst hprint
  | committed hst hstage => exact Request.keepsBook_committed ho hown hst hprint hstage
  | linked hst =>
    simp only [hst] at h
    exact ⟨linkTrade_grows _ _ w, ho.linkTrade h.2, h.1, rfl⟩
  | raised hsame =>
    have hg := World.Grows.of_same hsame.toSameBook hsame.trades
    exact ⟨hg, ho.grows hsame.toSameBook hg hsame.issued (hsame.trades ▸ ho.signed), trivial, rfl⟩
  | ended hst => exact ⟨.of_same (.refl w) rfl, ho, by rwa [Request.OfPrint], rfl⟩

end Pieces

/-- Every request belongs to its fingerprint, whatever the interleaving. -/
abbrev BookKept (env : Env) (s : Sessions.State World Request) : Prop :=
  Sessions.Holds World.Origins (fun w r => r.OfPrint (env.fingerprint r.req) w) (fun _ _ => True) s

theorem Effect.grows {env : Env} {e : Step} {w : World} (hs : ∀ req io, e ≠ .executeSignal req io)
    (heff : Effect env e w (step env w e)) : w.Grows (step env w e) := by
  refine .of_rows (step_sameBook env w hs) (heff.moved_trades hs) ?_
  rintro t t' ⟨k, k', hmove, rfl, rfl, -⟩
  exact ⟨hmove.entry.id, hmove.entry.signalId⟩

theorem bookKept_step (env : Env) {s : Sessions.State World Request} (hs : RequestsSound s)
    (h : BookKept env s) (act : Sessions.Act (NormalizedExecuteSignalRequest × ExecuteIo) Step) :
    BookKept env (Sessions.step (requestSystem env) s act) := by
  cases act with
  | start a => exact h.start rfl fun _ _ => ⟨trivial, trivial⟩
  | advance i =>
    refine h.advance fun r hr => ?_
    obtain ⟨hg, ho, hprint, hreq⟩ := (next_piece env r s.store).book hs.store h.store
      (hs.own i r hr) (h.own i r hr)
    exact ⟨ho, hreq ▸ hprint, fun j d hd _ => ⟨(h.own j d hd).grows hg, trivial, trivial⟩⟩
  | event e =>
    obtain ⟨-, hsame | ⟨hne, heq, heff⟩⟩ := handle_effect env e hs.store
    · refine h.event ?_ fun r _ hr => ?_
      · rw [hsame]
        exact h.store
      · rw [hsame]
        exact hr
    · rw [heq] at heff
      have hg := heff.grows hne
      refine h.event ?_ fun r _ hr => ?_
      · rw [heq]
        refine h.store.grows (step_sameBook env s.store hne) hg heff.issued
          (h.store.signed_rows (heff.moved_trades hne) ?_)
        rintro t t' ⟨k, k', hmove, rfl, rfl, -⟩
        exact hmove.entry.signalId
      · rw [heq]
        exact hr.grows hg

end AmaExecutionCore
