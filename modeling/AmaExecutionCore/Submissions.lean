import AmaExecutionCore.Steps

/-! The submission rows: only `execute_signal` writes them, and what it writes names
signals and trades that exist. -/
namespace AmaExecutionCore

/-- The submissions and the record of what each signal was stored for are kept. -/
structure World.SameBook (w w' : World) : Prop where
  submissions : w'.db.submissions = w.db.submissions
  origin : w'.origin = w.origin

theorem World.SameBook.refl (w : World) : w.SameBook w := ⟨rfl, rfl⟩

theorem World.SameBook.trans {w w₁ w' : World} (h : w.SameBook w₁) (h' : w₁.SameBook w') :
    w.SameBook w' := ⟨h'.submissions.trans h.submissions, h'.origin.trans h.origin⟩

theorem World.SameBook.commit (k : Work) (w : World) : w.SameBook (w.commit k) := ⟨rfl, rfl⟩

theorem World.SameBook.rollback (k : Work) (w : World) : w.SameBook (w.rollback k) := ⟨rfl, rfl⟩

theorem processOrder_sameBook (restClient : Bool) (io : HandlerIo) (data : OrderData) (w : World) :
    w.SameBook (processOrder restClient io data w).2 := by
  unfold processOrder
  split
  · split
    · exact .refl w
    · exact .refl w
    · split
      · exact .rollback _ w
      · exact .commit _ w
  · exact .refl w

theorem processExecution_sameBook (data : ExecutionData) (w : World) :
    w.SameBook (processExecution data w).2 := by
  unfold processExecution
  split
  · exact .refl w
  · split_ifs
    · exact .refl w
    · split
      · exact .refl w
      · exact .refl w
      · exact .refl w
      · dsimp only
        split
        · exact .refl w
        · exact .commit _ w

theorem closeTrade_sameBook (mode : TradingMode) (id : TradeId) (reason : ExitReason)
    (io : CloseIo) (w : World) : w.SameBook (closeTrade mode id reason io w).2 := by
  unfold closeTrade
  split
  · exact .refl w
  · split_ifs
    · split
      · exact .rollback _ w
      · exact .commit _ w
    · exact .refl w

theorem reconcileStatusGroup_sameBook (restClient : Bool) (statuses : List TradeStatus)
    (answer : TradeId → StatusOutcome) (io : TradeId → HandlerIo) (w : World) :
    w.SameBook (reconcileStatusGroup restClient statuses answer io w) := by
  unfold reconcileStatusGroup
  split_ifs
  · exact .refl w
  · generalize w.db.listTradesByStatus statuses = ts
    induction ts generalizing w with
    | nil => exact .refl w
    | cons t ts ih => exact (World.SameBook.commit _ w).trans (ih _)

theorem protectListed_sameBook (restClient : Bool) (io : TradeId → HandlerIo) (ts : List Trade)
    (w : World) : w.SameBook (protectListed restClient io ts w).2 := by
  induction ts generalizing w with
  | nil => exact .refl w
  | cons t ts ih =>
    unfold protectListed
    split
    · exact ih w
    · split
      · exact .refl w
      · exact ih w
      · exact (World.SameBook.commit _ w).trans (ih _)

theorem reconcileMissingProtection_sameBook (restClient : Bool) (io : TradeId → HandlerIo)
    (w : World) : w.SameBook (reconcileMissingProtectionOrders restClient io w) := by
  have hlisted := protectListed_sameBook restClient io w.db.listSpotMarketTradesMissingProtection w
  unfold reconcileMissingProtectionOrders
  split_ifs
  · exact .refl w
  · split
    · next w' hrun =>
      rw [hrun] at hlisted
      exact hlisted
    · next e w' hrun =>
      rw [hrun] at hlisted
      exact ⟨rfl, hlisted.origin⟩

/-- Every step but a request keeps the submissions. -/
theorem step_sameBook (env : Env) (w : World) {s : Step}
    (hs : ∀ req io, s ≠ .executeSignal req io) : w.SameBook (step env w s) := by
  cases s with
  | executeSignal req io => exact absurd rfl (hs req io)
  | processOrder data io => exact processOrder_sameBook _ _ _ _
  | processExecution data => exact processExecution_sameBook _ _
  | closeTrade id reason io => exact closeTrade_sameBook _ _ _ _ _
  | reconcileEntryOrders answer io => exact reconcileStatusGroup_sameBook _ _ _ _ _
  | reconcileCloseOrders answer io => exact reconcileStatusGroup_sameBook _ _ _ _ _
  | reconcileMissingProtection io => exact reconcileMissingProtection_sameBook _ _ _
  | activateKillSwitch now =>
    simp only [step, activateKillSwitch]
    split_ifs <;> exact ⟨rfl, rfl⟩
  | resetKillSwitch now => exact ⟨rfl, rfl⟩
  | killSwitchStatus now => exact ⟨rfl, rfl⟩
  | settle link state => exact ⟨rfl, rfl⟩

/-- The signals and trades the book names have been issued. -/
structure World.Booked (w : World) : Prop where
  origin : ∀ p ∈ w.origin, p.1 < w.issued
  signals : ∀ s ∈ w.db.submissions, ∀ id ∈ s.signalId, id < w.issued
  linked : ∀ s ∈ w.db.submissions, ∀ id ∈ s.tradeId, id < w.issued
  traded : ∀ t ∈ w.db.trades, ∀ id ∈ t.signalId, id < w.issued

theorem World.Booked.init : ({} : World).Booked := by
  constructor <;> simp

theorem World.Booked.moved {R : Trade → Trade → Prop} {w w' : World} (h : w.Booked)
    (hbook : w.SameBook w') (hissued : w.issued ≤ w'.issued)
    (hrows : List.Forall₂ R w.db.trades w'.db.trades)
    (hsignal : ∀ t t', R t t' → t'.signalId = t.signalId) : w'.Booked where
  origin := by
    rw [hbook.origin]
    exact fun p hp => (h.origin p hp).trans_le hissued
  signals := by
    rw [hbook.submissions]
    exact fun s hs id hid => (h.signals s hs id hid).trans_le hissued
  linked := by
    rw [hbook.submissions]
    exact fun s hs id hid => (h.linked s hs id hid).trans_le hissued
  traded := by
    intro t' ht' id hid
    obtain ⟨t, ht, hR⟩ := Rows.exists_left hrows ht'
    rw [hsignal t t' hR] at hid
    exact (h.traded t ht id hid).trans_le hissued

theorem find_mapSubmission {f : String} {g : SignalSubmission → SignalSubmission}
    (hg : ∀ s, (g s).fingerprint = s.fingerprint) (rows : List SignalSubmission) :
    (mapSubmission f g rows).find? (fun s => s.fingerprint = f) =
      (rows.find? fun s => s.fingerprint = f).map g := by
  induction rows with
  | nil => rfl
  | cons s rows ih =>
    by_cases hs : s.fingerprint = f
    · simp [mapSubmission, hs, hg]
    · simpa [mapSubmission, hs] using ih

theorem find_mapSubmission_ne {f f' : String} {g : SignalSubmission → SignalSubmission}
    (hg : ∀ s, (g s).fingerprint = s.fingerprint) (hne : f' ≠ f) (rows : List SignalSubmission) :
    (mapSubmission f g rows).find? (fun s => s.fingerprint = f') =
      rows.find? fun s => s.fingerprint = f' := by
  induction rows with
  | nil => rfl
  | cons s rows ih =>
    by_cases hs : s.fingerprint = f
    · have hother : f ≠ f' := hne.symm
      simpa [mapSubmission, hs, hg, hother] using ih
    · by_cases hs' : s.fingerprint = f'
      · simp [mapSubmission, hs', hne]
      · simpa [mapSubmission, hs, hs'] using ih

/-- The row of a new attempt names the new signal and no trade; the others are kept. -/
theorem submissionRows_find {f : String} {n : SignalId} {db : Db} {rows : List SignalSubmission}
    (h : submissionRows f (db.getSignalSubmission f) n db = .ok rows) :
    (∃ s, rows.find? (fun s => s.fingerprint = f) = some s ∧ s.signalId = some n ∧
      s.tradeId = none) ∧
    ∀ f', f' ≠ f → rows.find? (fun s => s.fingerprint = f') =
      db.submissions.find? fun s => s.fingerprint = f' := by
  unfold submissionRows at h
  cases hloaded : db.getSignalSubmission f with
  | none =>
    have hnone : db.submissions.find? (fun s => s.fingerprint = f) = none := hloaded
    simp only [hloaded, Option.isSome_none, Bool.false_eq_true, if_false, Except.ok.injEq] at h
    subst h
    constructor
    · refine ⟨⟨f, some n, none⟩, ?_, rfl, rfl⟩
      rw [List.find?_append, hnone]
      simp
    · intro f' hne
      rw [List.find?_append]
      simp [hne.symm]
  | some row =>
    have hrow : db.submissions.find? (fun s => s.fingerprint = f) = some row := hloaded
    simp only [hloaded, Except.ok.injEq] at h
    subst h
    constructor
    · refine ⟨{ row with
        signalId := some n
        tradeId := if row.tradeId = none then row.tradeId else none }, ?_, rfl, ?_⟩
      · refine (find_mapSubmission ?_ _).trans ?_
        · exact fun _ => rfl
        · rw [hrow]
          rfl
      · by_cases hlink : row.tradeId = none <;> simp [hlink]
    · intro f' hne
      refine find_mapSubmission_ne ?_ hne _
      exact fun _ => rfl

/-- A row of a new attempt names the new signal, or is an old row. -/
theorem submissionRows_mem {f : String} {n : SignalId} {db : Db} {rows : List SignalSubmission}
    {loaded : Option SignalSubmission} (h : submissionRows f loaded n db = .ok rows)
    {s : SignalSubmission} (hs : s ∈ rows) :
    (s.signalId = some n ∨ ∃ r ∈ db.submissions, s.signalId = r.signalId) ∧
      (s.tradeId = none ∨ ∃ r ∈ db.submissions, s.tradeId = r.tradeId) := by
  unfold submissionRows at h
  cases loaded with
  | none =>
    dsimp only at h
    split_ifs at h
    obtain rfl := Except.ok.inj h
    obtain hs | hs := List.mem_append.mp hs
    · exact ⟨.inr ⟨s, hs, rfl⟩, .inr ⟨s, hs, rfl⟩⟩
    · rw [List.mem_singleton.mp hs]
      exact ⟨.inl rfl, .inl rfl⟩
  | some row =>
    obtain rfl := Except.ok.inj h
    obtain ⟨r, hr, rfl⟩ := List.mem_map.mp hs
    by_cases hprint : r.fingerprint = f
    · rw [if_pos hprint]
      refine ⟨.inl rfl, ?_⟩
      by_cases hlink : row.tradeId = none
      · exact .inr ⟨r, hr, by simp [hlink]⟩
      · exact .inl (by simp [hlink])
    · rw [if_neg hprint]
      exact ⟨.inr ⟨r, hr, rfl⟩, .inr ⟨r, hr, rfl⟩⟩

/-- What a new attempt leaves: nothing, its signal and submission, or these and a trade. -/
inductive Attempted (fingerprint : String) (loaded : Option SignalSubmission) (w w' : World) : Prop
  | failed (hrows : (submissionRows fingerprint loaded w.issued w.db).toOption = none)
      (hw : w' = w)
  | registered {rows} (hrows : submissionRows fingerprint loaded w.issued w.db = .ok rows)
      (hsubmissions : w'.db.submissions = rows)
      (horigin : w'.origin = w.origin ++ [(w.issued, fingerprint)])
      (hissued : w.issued < w'.issued) (htrades : w'.db.trades = w.db.trades)
  | traded {rows t} (hrows : submissionRows fingerprint loaded w.issued w.db = .ok rows)
      (hsubmissions : w'.db.submissions = rows ∨ w'.db.submissions =
        mapSubmission fingerprint (fun s => { s with tradeId := some t.id }) rows)
      (horigin : w'.origin = w.origin ++ [(w.issued, fingerprint)])
      (hsignal : t.signalId = some w.issued) (hid : w.issued ≤ t.id) (hissued : t.id < w'.issued)
      (htrades : w'.db.trades = w.db.trades ++ [t])

theorem submitEntry_attempted {env : Env} {req : NormalizedExecuteSignalRequest} {io : ExecuteIo}
    {loaded : Option SignalSubmission} {plan : EntryPlan} {rows : List SignalSubmission}
    {w w₁ : World} (hw : w.WellFormed)
    (hrows : submissionRows (env.fingerprint req) loaded w.issued w.db = .ok rows)
    (hsubmissions : w₁.db.submissions = rows)
    (horigin : w₁.origin = w.origin ++ [(w.issued, env.fingerprint req)])
    (hissued : w₁.issued = w.issued + 1) (htrades : w₁.db.trades = w.db.trades) :
    Attempted (env.fingerprint req) loaded w (submitEntry env req io w.issued plan w₁).2 := by
  have hent := settleEntry_entered env.settings .spot req io
    (entryWork env req io (w₁, w.issued, plan)) (entryWork_link _ _ _ _)
  obtain ⟨status, link, ty, new, henters, -, -⟩ := hent.enters (entryWork_link _ _ _ _)
  have hput : ∀ k : Work, k.trade.id = w₁.issued →
      Db.saveTrade k.trade w₁.db.trades = w.db.trades ++ [k.trade] := by
    intro k hk
    rw [← htrades]
    refine Rows.put_of_fresh fun r hr => ?_
    have hlt := hw.fresh r (htrades ▸ hr)
    rw [hk, hissued]
    exact (hlt.trans (Nat.lt_succ_self _)).ne
  simp only [submitEntry]
  split
  · refine .registered hrows hsubmissions horigin ?_ htrades
    show w.issued < w₁.issued + 1
    omega
  all_goals
    next k hres =>
    have hwork : settleEntry env.settings .spot req io (entryWork env req io
      (w₁, w.issued, plan)) = .committed _ k := hres
    rw [hwork] at henters
    have hid : k.trade.id = w₁.issued := henters.same.id
    have hsignal : k.trade.signalId = some w.issued := henters.same.signalId
    have hle : w.issued ≤ k.trade.id := by
      rw [hid, hissued]
      exact Nat.le_succ _
    refine .traded hrows ?_ horigin hsignal hle ?_ (hput k hid)
    · first
        | exact .inl hsubmissions
        | exact .inr (by simp [World.linkTrade, AmaExecutionCore.linkTrade, World.commitEntry,
            recordEntry, hsubmissions])
    · rw [hid]
      exact Nat.lt_succ_self _

theorem executeFresh_attempted {env : Env} {req : NormalizedExecuteSignalRequest} {io : ExecuteIo}
    {loaded : Option SignalSubmission} {w : World} (hw : w.WellFormed) :
    Attempted (env.fingerprint req) loaded w (executeFresh env req io loaded w).2 := by
  unfold executeFresh
  split
  · next e hreg =>
    refine .failed ?_ rfl
    unfold registerSignal at hreg
    cases hrows : submissionRows (env.fingerprint req) loaded w.issued w.db with
    | error e => rfl
    | ok rows => simp [hrows, Except.map] at hreg
  · next registered hreg =>
    unfold registerSignal at hreg
    cases hrows : submissionRows (env.fingerprint req) loaded w.issued w.db with
    | error e => simp [hrows, Except.map] at hreg
    | ok rows =>
      simp only [hrows, Except.map, Except.ok.injEq] at hreg
      have hguard := killSwitchGuard_world io.now registered
      subst hreg
      split
      · next e w₂ hg =>
        rw [hg] at hguard
        subst hguard
        exact .registered hrows rfl rfl (Nat.lt_succ_self _) rfl
      · next w₂ hg =>
        rw [hg] at hguard
        subst hguard
        split
        · exact .registered hrows rfl rfl (Nat.lt_succ_self _) rfl
        · exact submitEntry_attempted hw hrows rfl rfl rfl rfl

theorem World.Booked.rows {f : String} {loaded : Option SignalSubmission} {w : World}
    {rows : List SignalSubmission} (h : w.Booked)
    (hrows : submissionRows f loaded w.issued w.db = .ok rows) :
    ∀ s ∈ rows, (∀ id ∈ s.signalId, id ≤ w.issued) ∧ ∀ id ∈ s.tradeId, id < w.issued := by
  intro s hs
  obtain ⟨hsignal, htrade⟩ := submissionRows_mem hrows hs
  constructor
  · intro id hid
    obtain hnew | ⟨r, hr, heq⟩ := hsignal
    · rw [hnew] at hid
      exact (Option.mem_some.mp hid).ge
    · exact (h.signals r hr id (heq ▸ hid)).le
  · intro id hid
    obtain hnone | ⟨r, hr, heq⟩ := htrade
    · rw [hnone] at hid
      cases hid
    · exact h.linked r hr id (heq ▸ hid)

theorem World.Booked.attempted {f : String} {loaded : Option SignalSubmission} {w w' : World}
    (h : w.Booked) (ha : Attempted f loaded w w') : w'.Booked := by
  have horigin : ∀ n, w.issued < n → ∀ p ∈ w.origin ++ [(w.issued, f)], p.1 < n := by
    intro n hn p hp
    obtain hp | hp := List.mem_append.mp hp
    · exact (h.origin p hp).trans hn
    · rw [List.mem_singleton.mp hp]
      exact hn
  cases ha with
  | failed _ hw =>
    rw [hw]
    exact h
  | registered hrows hsubmissions horig hissued htrades =>
    have hb := h.rows hrows
    refine ⟨horig ▸ horigin _ hissued, ?_, ?_, ?_⟩
    · rw [hsubmissions]
      exact fun s hs id hid => ((hb s hs).1 id hid).trans_lt hissued
    · rw [hsubmissions]
      exact fun s hs id hid => ((hb s hs).2 id hid).trans hissued
    · rw [htrades]
      exact fun t ht id hid => (h.traded t ht id hid).trans hissued
  | @traded rows t hrows hsubmissions horig hsignal hid hissued htrades =>
    have hlt : w.issued < w'.issued := hid.trans_lt hissued
    have hb : ∀ s ∈ w'.db.submissions,
        (∀ id ∈ s.signalId, id ≤ w.issued) ∧ ∀ id ∈ s.tradeId, id < w'.issued := by
      obtain hsub | hsub := hsubmissions
      · rw [hsub]
        exact fun s hs => ⟨(h.rows hrows s hs).1,
          fun id hid => ((h.rows hrows s hs).2 id hid).trans hlt⟩
      · rw [hsub]
        intro s hs
        obtain ⟨r, hr, rfl⟩ := List.mem_map.mp hs
        have hold := h.rows hrows r hr
        split_ifs
        · refine ⟨hold.1, fun id hid => ?_⟩
          rw [← Option.mem_some.mp hid]
          exact hissued
        · exact ⟨hold.1, fun id hid => (hold.2 id hid).trans hlt⟩
    refine ⟨horig ▸ horigin _ hlt, fun s hs id hid => ((hb s hs).1 id hid).trans_lt hlt,
      fun s hs => (hb s hs).2, ?_⟩
    rw [htrades]
    intro r hr id hr'
    obtain hr | hr := List.mem_append.mp hr
    · exact (h.traded r hr id hr').trans hlt
    · rw [List.mem_singleton.mp hr, hsignal] at hr'
      rw [← Option.mem_some.mp hr']
      exact hlt

end AmaExecutionCore
