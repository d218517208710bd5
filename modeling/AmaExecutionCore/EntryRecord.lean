import AmaExecutionCore.Steps

/-! The durable record of entry orders: when `execute_signal` leaves a committed trade
for every entry order the exchange may have taken. -/
namespace AmaExecutionCore
open TradeStatus

/-- The `place_order` calls `execute_signal` makes, in order. -/
def sentAttempts (env : Env) (req : NormalizedExecuteSignalRequest) (io : ExecuteIo) (w : World) :
    List Attempt :=
  match entryStart env req io w with
  | none => []
  | some start =>
    if env.settings.tradingMode = .shadow then []
    else attempts env.settings.orderMode io (entryWork env req io start)

/-- Every entry order the exchange may have taken has its committed trade. -/
def EntryRecorded (env : Env) (req : NormalizedExecuteSignalRequest) (io : ExecuteIo) (w : World) :
    Prop :=
  ∀ a ∈ sentAttempts env req io w, a.outcome.mayBeAccepted = true →
    ∃ t ∈ (executeSignal env req io w).2.db.trades, t.orderLinkId = some a.link

instance (env : Env) (req : NormalizedExecuteSignalRequest) (io : ExecuteIo) (w : World) :
    Decidable (EntryRecorded env req io w) :=
  inferInstanceAs (Decidable (∀ a ∈ sentAttempts env req io w, a.outcome.mayBeAccepted = true →
    ∃ t ∈ (executeSignal env req io w).2.db.trades, t.orderLinkId = some a.link))

/-- The call got an outcome it commits on: no exception of an unforeseen kind from the
last `place_order`, and after an uncertain one none from the lookup of its order either. -/
def EntryDurable (mode : OrderMode) (io : ExecuteIo) (k : Work) : Prop :=
  match (finalAttempt mode io k).outcome with
  | .accepted _ | .apiError _ => True
  | .connectionError _ | .timeoutError _ => lookupCaught io.lookup = true
  | .otherError _ => False

theorem submitEntry_settled (env : Env) (req : NormalizedExecuteSignalRequest) (io : ExecuteIo)
    (signalId : SignalId) (plan : EntryPlan) (w : World) {r : Settled}
    (h : settleEntry env.settings .spot req io (entryWork env req io (w, signalId, plan)) = r) :
    (submitEntry env req io signalId plan w).2.exchange = r.work.exchange ∧
      (submitEntry env req io signalId plan w).2.db.trades = match r with
        | .committed _ k => Db.saveTrade k.trade w.db.trades
        | .aborted _ _ => w.db.trades := by
  simp only [entryWork] at h
  simp only [submitEntry, h]
  cases r with
  | committed raised k => cases raised <;> exact ⟨rfl, rfl⟩
  | aborted e k => exact ⟨rfl, rfl⟩

/-- The attempts are the orders the call sends. -/
theorem executeSignal_orders (env : Env) (req : NormalizedExecuteSignalRequest) (io : ExecuteIo)
    {w : World} (hw : w.WellFormed) : ∃ t, (executeSignal env req io w).2.exchange.orders =
      w.exchange.orders ++ (sentAttempts env req io w).map (attemptOrder .spot req t) := by
  rcases entryStart_cases env req io hw with
    ⟨hnone, hord, -⟩ | ⟨w₁, signalId, plan, ids, hstart, heq, -, hord, -⟩
  · exact ⟨(entryWork env req io (w, 0, ⟨0, 0, 0⟩)).trade, by simp [sentAttempts, hnone, hord]⟩
  · refine ⟨(entryWork env req io (w₁, signalId, plan)).trade, ?_⟩
    have hent := (settleEntry_entered env.settings .spot req io
      (entryWork env req io (w₁, signalId, plan)) (entryWork_link _ _ _ _)).orders
    rw [heq, (submitEntry_settled env req io signalId plan w₁ rfl).1, hent, ← hord,
      sentAttempts, hstart]
    dsimp only
    split_ifs <;> rfl

/-- A durable outcome is committed, under the id of the last attempt; any other is not. -/
theorem Entered.durable {s : Settings} {category : MarketType}
    {req : NormalizedExecuteSignalRequest} {io : ExecuteIo} {k : Work} {r : Settled}
    (h : Entered s category req io k r) (hmode : s.tradingMode ≠ .shadow) :
    (EntryDurable s.orderMode io k ∧ ∃ raised k', r = .committed raised k' ∧
      k'.trade.orderLinkId = some (finalAttempt s.orderMode io k).link) ∨
    (¬ EntryDurable s.orderMode io k ∧ ∃ e k', r = .aborted e k') := by
  unfold EntryDurable
  cases h with
  | shadow h => exact absurd h hmode
  | accepted _ ha _ ho h =>
    subst ha
    rw [ho]
    exact .inl ⟨trivial, none, _, rfl, h.link⟩
  | refused _ ha _ ho h =>
    subst ha
    rw [ho]
    exact .inl ⟨trivial, _, _, rfl, h.link⟩
  | uncertain _ ha _ ho hcaught _ h =>
    subst ha
    rcases ho with ho | ho <;> rw [ho] <;> exact .inl ⟨hcaught, none, _, rfl, h.link⟩
  | unknown _ ha _ ho hcaught h =>
    subst ha
    rcases ho with ho | ho <;> rw [ho] <;> exact .inr ⟨by simp [hcaught], _, _, rfl⟩
  | broken _ ha _ ho h =>
    subst ha
    rw [ho]
    exact .inr ⟨id, _, _, rfl⟩

theorem not_recorded_of_aborted {env : Env} {req : NormalizedExecuteSignalRequest} {io : ExecuteIo}
    {signalId : SignalId} {plan : EntryPlan} {w : World} {e : PyError} {k : Work} (hw : w.WellFormed)
    (h : settleEntry env.settings .spot req io (entryWork env req io (w, signalId, plan)) =
      .aborted e k) {t : Trade} (ht : t ∈ (submitEntry env req io signalId plan w).2.db.trades) :
    t.orderLinkId ≠ some (finalAttempt env.settings.orderMode io
      (entryWork env req io (w, signalId, plan))).link := by
  rw [(submitEntry_settled env req io signalId plan w h).2] at ht
  intro hlink
  obtain ⟨n, hn, hd⟩ := hw.links t ht _ (by rw [Trade.owns_iff]; exact .inl hlink)
  have hfinal := drawnAt_entryLink (finalAttempt_link env.settings.orderMode io
    (entryWork env req io (w, signalId, plan)))
  exact absurd (OrderLinkId.drawnAt_unique hd hfinal) hn.ne

/-- The attempts are the orders the call sends, and each one the exchange may have taken gets
its committed trade exactly when the call ends in an outcome it commits on, if it gets as far
as sending an order at all. -/
theorem entryRecorded_iff (env : Env) (ss : List Step) (req : NormalizedExecuteSignalRequest)
    (io : ExecuteIo) :
    (∃ t, (executeSignal env req io (Runs.run (step env) {} ss)).2.exchange.orders =
      (Runs.run (step env) {} ss).exchange.orders ++
        (sentAttempts env req io (Runs.run (step env) {} ss)).map (attemptOrder .spot req t)) ∧
    (EntryRecorded env req io (Runs.run (step env) {} ss) ↔
      ∀ start, entryStart env req io (Runs.run (step env) {} ss) = some start →
        env.settings.tradingMode ≠ .shadow →
        EntryDurable env.settings.orderMode io (entryWork env req io start)) := by
  have hw := wellFormed_run env ss
  generalize Runs.run (step env) {} ss = w at hw
  refine ⟨executeSignal_orders env req io hw, ?_⟩
  unfold EntryRecorded sentAttempts
  rcases entryStart_cases env req io hw with
    ⟨hnone, -⟩ | ⟨w₁, signalId, plan, ids, hstart, heq, -, -, hpass⟩
  · simp [hnone]
  · rw [hstart, heq]
    have hent := settleEntry_entered env.settings .spot req io
      (entryWork env req io (w₁, signalId, plan)) (entryWork_link _ _ _ _)
    by_cases hmode : env.settings.tradingMode = .shadow
    · simp [hmode]
    · simp only [if_neg hmode, Option.some.injEq, forall_eq']
      rcases hent.durable hmode with ⟨hdur, raised, k', hres, hlink⟩ | ⟨hdur, e, k', hres⟩
      · refine ⟨fun _ _ => hdur, fun _ a ha hmay => ?_⟩
        rcases List.mem_append.mp ha with ha | ha
        · rw [refusedAttempts_outcome ha] at hmay
          cases hmay
        · rw [List.mem_singleton.mp ha]
          refine ⟨k'.trade, ?_, hlink⟩
          rw [(submitEntry_settled env req io signalId plan w₁ hres).2]
          exact Rows.mem_put _ _
      · refine ⟨fun hrec _ => ?_, fun h => absurd (h hmode) hdur⟩
        have hmay : (finalAttempt env.settings.orderMode io
            (entryWork env req io (w₁, signalId, plan))).outcome.mayBeAccepted = true := by
          unfold EntryDurable at hdur
          generalize (finalAttempt env.settings.orderMode io
            (entryWork env req io (w₁, signalId, plan))).outcome = o at hdur
          cases o <;> simp_all [PlaceOutcome.mayBeAccepted]
        obtain ⟨t, ht, hlink⟩ := hrec _ (List.mem_append_right _ (List.mem_singleton_self _)) hmay
        exact absurd hlink (not_recorded_of_aborted hpass.wellFormed hres ht)

/-- The lookup after a timed out submission is refused by the exchange: the row is lost. -/
theorem entry_not_recorded : ¬ EntryRecorded (demoEnv .takerAllowed) demoRequest
    (demoExecute (.timeoutError true) (.error (.bybitApiError "too many visits"))) {} := by
  decide +kernel

end AmaExecutionCore
