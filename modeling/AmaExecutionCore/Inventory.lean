import AmaExecutionCore.Passes

/-! Bought inventory: a trade whose entry order was reported as executed, even in part,
must stay visible, and when it is written off instead. -/
namespace AmaExecutionCore
open TradeStatus

def TradeStatus.writtenOff (s : TradeStatus) : Bool := s = orderCancelled || s = orderRejected

def OrderData.executed (data : OrderData) : Bool :=
  data.orderStatus = .partiallyFilled ||
    match data.cumExecQty with
    | some (.decimal q) => 0 < q
    | _ => false

/-- The payload reports the entry order of the trade as executed. -/
def ReportsEntry (data : OrderData) (t : Trade) : Prop :=
  data.executed = true ∧ data.orderLinkId ≠ none ∧ data.orderLinkId = t.orderLinkId

instance (data : OrderData) (t : Trade) : Decidable (ReportsEntry data t) :=
  inferInstanceAs (Decidable (data.executed = true ∧ data.orderLinkId ≠ none ∧
    data.orderLinkId = t.orderLinkId))

/-- The new trade of a request whose submission ended in doubt and was looked up. -/
def unsure (env : Env) (req : NormalizedExecuteSignalRequest) (io : ExecuteIo) (w : World) :
    Option TradeId :=
  (entryStart env req io w).bind fun start =>
    match (finalAttempt env.settings.orderMode io (entryWork env req io start)).outcome with
    | .connectionError _ | .timeoutError _ =>
      if env.settings.tradingMode = .shadow then none else some start.1.issued
    | _ => none

/-- The answer about an order tells that it is executed, if only in part. -/
def reportsExecution (lookup : StatusOutcome) : Bool := lookup.toOption.join.any OrderData.executed

/-- The trades whose entry order the step hears to be executed: a request asks about an
earlier trade, and about its own. -/
def Step.reported (env : Env) (w : World) : Step → List TradeId
  | .executeSignal req io =>
    (if reportsExecution io.pendingLookup then ((replayed env req w).map Trade.id).toList else []) ++
      (if reportsExecution io.lookup then (unsure env req io w).toList else [])
  | s => (w.db.trades.filter fun t => ∃ u ∈ s.update env t, ReportsEntry u.1 t).map Trade.id

/-- The system, with the trades reported as executed so far. -/
def reportStep (env : Env) (x : World × List TradeId) (s : Step) : World × List TradeId :=
  (step env x.1 s, x.2 ++ s.reported env x.1)

/-- No trade reported as executed is written off. -/
def InventoryVisible (x : World × List TradeId) : Prop :=
  ∀ t ∈ x.1.db.trades, t.id ∈ x.2 → t.status.writtenOff = false

instance : DecidablePred InventoryVisible := fun x =>
  inferInstanceAs (Decidable (∀ t ∈ x.1.db.trades, t.id ∈ x.2 → t.status.writtenOff = false))

/-- A cancellation or rejection of the entry order that is not ignored. -/
def WritesOff (data : OrderData) (t : Trade) : Prop :=
  (data.orderStatus = .cancelled ∨ data.orderStatus = .rejected) ∧
    (∃ link ∈ data.orderLinkId, t.isProtectiveClose link = false) ∧
    t.status ∉ [positionOpen, positionClosePending, positionClosed, positionCloseFailed, pnlRecorded]

instance (data : OrderData) (t : Trade) : Decidable (WritesOff data t) :=
  inferInstanceAs (Decidable ((data.orderStatus = .cancelled ∨ data.orderStatus = .rejected) ∧
    (∃ link ∈ data.orderLinkId, t.isProtectiveClose link = false) ∧
    t.status ∉ [positionOpen, positionClosePending, positionClosed, positionCloseFailed,
      pnlRecorded]))

/-- The payload takes a trade that was written off back. -/
def TakesBack (data : OrderData) : Prop :=
  data.orderStatus = .partiallyFilled ∨
    (data.orderStatus = .filled ∧ data.avgPrice ≠ some .malformed)

instance (data : OrderData) : Decidable (TakesBack data) :=
  inferInstanceAs (Decidable (data.orderStatus = .partiallyFilled ∨
    (data.orderStatus = .filled ∧ data.avgPrice ≠ some .malformed)))

/-- The update writes no reported trade off, and takes a written-off trade back when it
reports an execution. -/
def UpdateKeeps (reported : List TradeId) (data : OrderData) (t : Trade) : Prop :=
  (t.id ∈ reported ∨ ReportsEntry data t → ¬ WritesOff data t) ∧
    (t.status.writtenOff = true → ReportsEntry data t → TakesBack data)

instance (reported : List TradeId) (data : OrderData) (t : Trade) :
    Decidable (UpdateKeeps reported data t) :=
  inferInstanceAs (Decidable ((t.id ∈ reported ∨ ReportsEntry data t → ¬ WritesOff data t) ∧
    (t.status.writtenOff = true → ReportsEntry data t → TakesBack data)))

/-- The answer about an order is that it is cancelled or rejected. -/
def reportsWrittenOff (lookup : StatusOutcome) : Bool :=
  lookup.toOption.join.any fun remote => (mapRemoteOrderStatus remote.orderStatus).writtenOff

/-- A lookup does not answer that a trade with executions is cancelled or rejected. -/
def LookupKeeps (env : Env) (x : World × List TradeId) : Step → Prop
  | .executeSignal req io =>
    (reportsWrittenOff io.pendingLookup = true → ∀ t ∈ replayed env req x.1,
      t.id ∉ x.2 ∧ reportsExecution io.pendingLookup = false) ∧
    (reportsWrittenOff io.lookup = true → unsure env req io x.1 ≠ none →
      reportsExecution io.lookup = false)
  | _ => True

instance (env : Env) (x : World × List TradeId) : (s : Step) → Decidable (LookupKeeps env x s)
  | .executeSignal req io => inferInstanceAs (Decidable
      ((reportsWrittenOff io.pendingLookup = true → ∀ t ∈ replayed env req x.1,
        t.id ∉ x.2 ∧ reportsExecution io.pendingLookup = false) ∧
      (reportsWrittenOff io.lookup = true → unsure env req io x.1 ≠ none →
        reportsExecution io.lookup = false)))
  | .processOrder _ _ | .processExecution _ | .closeTrade _ _ _ | .reconcileEntryOrders _ _
  | .reconcileCloseOrders _ _ | .reconcileMissingProtection _ | .activateKillSwitch _
  | .resetKillSwitch _ | .killSwitchStatus _ | .settle _ _ => inferInstanceAs (Decidable True)

/-- Nothing the step is told writes off a trade with executions. -/
def KeepsInventory (env : Env) (x : World × List TradeId) (s : Step) : Prop :=
  (∀ t ∈ x.1.db.trades, ∀ u ∈ s.update env t, UpdateKeeps x.2 u.1 t) ∧ LookupKeeps env x s

instance (env : Env) (x : World × List TradeId) (s : Step) : Decidable (KeepsInventory env x s) :=
  inferInstanceAs (Decidable ((∀ t ∈ x.1.db.trades, ∀ u ∈ s.update env t,
    UpdateKeeps x.2 u.1 t) ∧ LookupKeeps env x s))

theorem writtenOff_of_protection {io : HandlerIo} {k : Work} {p : Bool × Work}
    (h : Protection io k p) (hk : k.trade.status.writtenOff = false) :
    p.2.trade.status.writtenOff = false := by
  obtain h | ⟨-, h | h⟩ := h.status
  · rw [h]
    exact hk
  · rw [h]
    rfl
  · rw [h]
    rfl

theorem Updated.visible {io : HandlerIo} {data : OrderData} {k : Work} {r : Outcome Work Bool}
    (h : Updated io data k r) (hvis : k.trade.status.writtenOff = false)
    (hup : ¬ WritesOff data k.trade) : r.2.trade.status.writtenOff = false := by
  cases h with
  | unmoved h => rwa [h.status]
  | @entryMoved _ link s hlink hrole hs hne hkeep h =>
    rw [h.status]
    have hold : k.trade.status ∉ [positionOpen, positionClosePending, positionClosed,
        positionCloseFailed, pnlRecorded] := by
      intro hmem
      simp [shouldIgnoreEntryUpdate, hmem] at hkeep
    obtain ⟨-, rfl⟩ | ⟨hst, rfl⟩ | ⟨hst, rfl⟩ | ⟨-, rfl⟩ := orderStatusMap_eq hs
    · rfl
    · exact (hup ⟨.inr hst, ⟨link, hlink, hrole⟩, hold⟩).elim
    · exact (hup ⟨.inl hst, ⟨link, hlink, hrole⟩, hold⟩).elim
    · rfl
  | entryFilled _ _ _ _ h =>
    rw [h.status]
    rfl
  | @entryDone k₁ k₂ p _ _ _ _ _ _ h hp hend =>
    have hprot := writtenOff_of_protection hp (by rw [h.status]; rfl)
    rw [hend.status]
    split_ifs
    · rfl
    · exact hprot
  | exitBroken _ _ _ _ h =>
    rw [h.status]
    rfl
  | exitFilled _ _ _ _ _ h =>
    rw [h.status]
    rfl
  | exitFailed _ _ _ _ h =>
    rw [h.status]
    rfl
  | exitPartly _ _ _ _ h =>
    rw [h.status]
    rfl

theorem Handled.visible {env : Env} {w : World} {s : Step} {k k' : Work}
    (h : Handled env w s k k') (hvis : k.trade.status.writtenOff = false)
    (hup : ∀ u ∈ s.update env k.trade, ¬ WritesOff u.1 k.trade)
    (hlook : ∀ req io remote, s = .executeSignal req io → replayed env req w = some k.trade →
      io.pendingLookup = .ok (some remote) →
        (mapRemoteOrderStatus remote.orderStatus).writtenOff = false) :
    k'.trade.status.writtenOff = false := by
  cases h with
  | unanswered => exact hvis
  | @update _ data io r _ _ hdata h _ =>
    have hu := applyOrderUpdate_updated env.restClient io data k
    rw [h] at hu
    exact hu.visible hvis (hup _ hdata)
  | execution _ _ _ h =>
    obtain ⟨q, rfl⟩ := noteSlippage_same h
    obtain ⟨paid, hfee⟩ := k.trade.addFee_eq _
    rw [hfee]
    exact hvis
  | @closed reason io _ _ _ h =>
    have hcl := submitClose_closing env.settings.tradingMode reason io k
    rw [h] at hcl
    cases hcl with
    | shadow _ he => rw [he.status]; rfl
    | sent _ he => rw [he.status]; rfl
  | protect => exact writtenOff_of_protection (ensureSpotMarketProtection_protection _ _ _) hvis
  | @resolved req io _ _ hfound h =>
    obtain rfl | ⟨remote, hl, rfl⟩ := reconcilePendingUnknown_ok h
    · exact hvis
    · rw [(noteRemoteStatus_settles remote k).status]
      exact hlook req io remote rfl hfound hl

/-- An update that takes a written-off trade back is applied, and leaves it visible. -/
theorem applyOrderUpdate_takesBack {restClient : Bool} {io : HandlerIo} {data : OrderData} {k : Work}
    {link : OrderLinkId} (hlink : data.orderLinkId = some link)
    (hoff : k.trade.status.writtenOff = true) (hexec : data.executed = true) (h : TakesBack data) :
    ∃ b k', applyOrderUpdate restClient io data k = (.ok b, k') ∧
      k'.trade.status.writtenOff = false := by
  have hst := (noteExchangeOrderId_settles link data.orderId k).status
  have hoff' : k.trade.status = orderCancelled ∨ k.trade.status = orderRejected := by
    simpa [TradeStatus.writtenOff] using hoff
  have hentry : ∀ s b, shouldIgnoreEntryUpdate (k.onTrade (Trade.noteExchangeOrderId link
      data.orderId)).trade s b = false := by
    intro s b
    rw [shouldIgnoreEntryUpdate_congr hst]
    obtain h | h := hoff' <;> simp [shouldIgnoreEntryUpdate, h]
  have hexit : shouldIgnoreCloseUpdate (k.onTrade (Trade.noteExchangeOrderId link
      data.orderId)).trade = false := by
    rw [shouldIgnoreCloseUpdate, hst]
    obtain h | h := hoff' <;> simp [h]
  generalize hk₁ : k.onTrade (Trade.noteExchangeOrderId link data.orderId) = k₁ at hentry hexit
  obtain hpart | ⟨hfilled, hprice⟩ := h
  · refine ⟨true, k₁.transitionTradeStatus orderPartiallyFilled exchangeSync, ?_, by simp; rfl⟩
    simp [applyOrderUpdate, hlink, hpart, orderStatusMap, hk₁, hentry, hexit]
  · have hcum : data.cumExecQty ≠ some .malformed := by
      intro hc
      simp [OrderData.executed, hfilled, hc] at hexec
    cases hrole : k.trade.isProtectiveClose link with
    | true =>
      obtain ⟨p, hparse⟩ : ∃ p, (data.avgPrice.getD (.decimal 0)).parse = .ok p := by
        cases hparse : (data.avgPrice.getD (.decimal 0)).parse with
        | error e => exact absurd (parse_getD_error hparse) hprice
        | ok p => exact ⟨p, rfl⟩
      obtain ⟨k', hbook, hend⟩ := recordExit_booked io.now link p
        (k₁.transitionTradeStatus orderConfirmed exchangeSync)
      refine ⟨true, k', ?_, by rw [hend.status]; rfl⟩
      simp [applyOrderUpdate, hlink, hfilled, orderStatusMap, hk₁, hrole, hexit, applyExitFill,
        hparse, hbook]
    | false =>
      obtain ⟨avg, havg⟩ := parseOptional_of_ne hprice
      obtain ⟨cum, hcum⟩ := parseOptional_of_ne hcum
      have hconf := (confirmEntryFill_settles io.now avg cum k₁).status
      have hprot := writtenOff_of_protection (ensureSpotMarketProtection_protection restClient io
        (confirmEntryFill io.now avg cum k₁)) (by rw [hconf]; rfl)
      have hfill : ∃ b k', applyEntryFill restClient io data k₁ = (.ok b, k') ∧
          k'.trade.status.writtenOff = false := by
        simp only [applyEntryFill, havg, hcum]
        refine ⟨true, _, rfl, ?_⟩
        simp only [Work.onTrade_trade, Trade.storeFilledQty]
        split_ifs
        · split
          · simp
            rfl
          · next hens =>
            rw [hens] at hprot
            exact hprot
        · rw [hconf]
          rfl
      simpa [applyOrderUpdate, hlink, hfilled, orderStatusMap, hk₁, hrole, hentry] using hfill

theorem replayed_mem {env : Env} {req : NormalizedExecuteSignalRequest} {w : World} {t : Trade}
    (h : replayed env req w = some t) : t ∈ w.db.trades := by
  obtain ⟨submission, -, hfound⟩ := Option.bind_eq_some_iff.mp (Option.filter_eq_some_iff.mp h).1
  exact Db.getTradeForSubmission_mem hfound

theorem reported_request {env : Env} {req : NormalizedExecuteSignalRequest} {io : ExecuteIo}
    {w : World} {id : TradeId} (h : id ∈ (Step.executeSignal req io).reported env w) :
    (reportsExecution io.pendingLookup = true ∧ ∃ t, replayed env req w = some t ∧ t.id = id) ∨
      (reportsExecution io.lookup = true ∧ unsure env req io w = some id) := by
  obtain h | h := List.mem_append.mp h
  · left
    split_ifs at h with hexec
    · exact ⟨hexec, by simpa using h⟩
    · cases h
  · right
    split_ifs at h with hexec
    · exact ⟨hexec, by simpa using h⟩
    · cases h

theorem reported_update {env : Env} {s : Step} {w : World} (hw : w.WellFormed)
    (hs : ∀ req io, s ≠ .executeSignal req io) {t : Trade} (ht : t ∈ w.db.trades)
    (h : t.id ∈ s.reported env w) : ∃ u ∈ s.update env t, ReportsEntry u.1 t := by
  have hmem : t.id ∈ (w.db.trades.filter fun t =>
      ∃ u ∈ s.update env t, ReportsEntry u.1 t).map Trade.id := by
    cases s with
    | executeSignal req io => exact (hs req io rfl).elim
    | _ => exact h
  obtain ⟨r, hr, hid⟩ := List.mem_map.mp hmem
  obtain ⟨hr, hrep⟩ := List.mem_filter.mp hr
  obtain rfl := hw.eq_of_id hr ht hid
  simpa using hrep

theorem unsure_id {env : Env} {req : NormalizedExecuteSignalRequest} {io : ExecuteIo} {w : World}
    {id : TradeId} (h : unsure env req io w = some id) :
    ∃ w₁ signalId plan, entryStart env req io w = some (w₁, signalId, plan) ∧ id = w₁.issued := by
  obtain ⟨⟨w₁, signalId, plan⟩, hstart, hid⟩ := Option.bind_eq_some_iff.mp h
  refine ⟨w₁, signalId, plan, hstart, ?_⟩
  dsimp only at hid
  split at hid
  · split_ifs at hid
    exact (Option.some.inj hid).symm
  · split_ifs at hid
    exact (Option.some.inj hid).symm
  · cases hid

theorem entryStart_issued {env : Env} {req : NormalizedExecuteSignalRequest} {io : ExecuteIo}
    {w w₁ : World} {signalId : SignalId} {plan : EntryPlan} (hw : w.WellFormed)
    (h : entryStart env req io w = some (w₁, signalId, plan)) :
    w.issued ≤ w₁.issued ∧ w₁.issued < (executeSignal env req io w).2.issued := by
  obtain ⟨hnone, -⟩ | ⟨w₂, signalId', plan', ids, hstart, heq, -, -, hpass⟩ :=
    entryStart_cases env req io hw
  · rw [hnone] at h
    cases h
  · rw [hstart] at h
    obtain ⟨rfl, rfl, rfl⟩ : w₂ = w₁ ∧ signalId' = signalId ∧ plan' = plan := by simpa using h
    refine ⟨hpass.issued, ?_⟩
    rw [heq]
    simp only [submitEntry]
    split <;> exact Nat.lt_succ_self _

/-- The session on a trade that was reported, by then or by this step, keeps it visible. -/
theorem Handled.keepsVisible {env : Env} {w : World} {s : Step} {k k' : Work} {rep : List TradeId}
    (h : Handled env w s k k') (hw : w.WellFormed) (ht : k.trade ∈ w.db.trades)
    (hgo : KeepsInventory env (w, rep) s) (hrep : k.trade.id ∈ rep ++ s.reported env w)
    (hvis : k.trade.status.writtenOff = false) : k'.trade.status.writtenOff = false := by
  refine h.visible hvis ?_ ?_
  · intro u hu
    refine (hgo.1 k.trade ht u hu).1 ?_
    obtain hold | hnew := List.mem_append.mp hrep
    · exact .inl hold
    · have hs : ∀ req io, s ≠ .executeSignal req io := by
        rintro req io rfl
        cases hu
      obtain ⟨u', hu', hreports⟩ := reported_update hw hs ht hnew
      obtain rfl : u' = u := Option.some.inj (hu'.symm.trans hu)
      exact .inr hreports
  · rintro req io remote rfl hfound hl
    by_contra hoff
    have hwritten : reportsWrittenOff io.pendingLookup = true := by
      simpa [reportsWrittenOff, hl, Except.toOption] using hoff
    obtain ⟨hnotin, hexec⟩ := hgo.2.1 hwritten k.trade hfound
    obtain hold | hnew := List.mem_append.mp hrep
    · exact hnotin hold
    · obtain ⟨hheard, -⟩ | ⟨-, hunsure⟩ := reported_request hnew
      · simp [hexec] at hheard
      · obtain ⟨w₁, signalId, plan, hstart, hid⟩ := unsure_id hunsure
        have hlt : k.trade.id < w.issued := hw.fresh k.trade ht
        exact absurd hid (hlt.trans_le (entryStart_issued hw hstart).1).ne

/-- A new trade that was looked up is committed with the status the lookup told. -/
theorem created_visible {env : Env} {req : NormalizedExecuteSignalRequest} {io : ExecuteIo}
    {w w₁ : World} {signalId : SignalId} {plan : EntryPlan} {raised : Option PyError} {k : Work}
    (hstart : entryStart env req io w = some (w₁, signalId, plan))
    (hent : Entered env.settings .spot req io (entryWork env req io (w₁, signalId, plan))
      (.committed raised k)) (hunsure : unsure env req io w ≠ none)
    (hkept : reportsWrittenOff io.lookup = false) :
    k.trade.status.writtenOff = false := by
  simp only [unsure, hstart, Option.bind_some] at hunsure
  cases hent with
  | shadow hmode h => rw [h.status]; rfl
  | accepted _ _ _ _ h => rw [h.status]; rfl
  | refused _ ha _ ho _ =>
    subst ha
    simp [ho] at hunsure
  | uncertain _ _ _ _ _ hstatus h =>
    rw [h.status]
    obtain rfl | ⟨remote, hl, rfl⟩ := hstatus
    · rfl
    · simpa [reportsWrittenOff, hl, Except.toOption] using hkept

theorem rows_visible {env : Env} {s : Step} {w w' : World} {rep : List TradeId} (hw : w.WellFormed)
    (hgo : KeepsInventory env (w, rep) s) (hc : Commits env s w w') {t' : Trade}
    (ht' : t' ∈ w'.db.trades) :
    (∃ t ∈ w.db.trades, t.id = t'.id ∧ (t.status.writtenOff = false →
      t.id ∈ rep ++ s.reported env w → t'.status.writtenOff = false)) ∨
    (w.issued ≤ t'.id ∧ (t'.id ∈ s.reported env w → t'.status.writtenOff = false)) := by
  induction hc generalizing t' with
  | start => exact .inl ⟨t', ht', rfl, fun h _ => h⟩
  | @commit w₁ t k' _ hw₁ ht ht₁ hk ih =>
    have hid : k'.trade.id = t.id := hk.frame.entry.id
    rw [World.commit_trades ht₁ hid] at ht'
    obtain ⟨r, hr, hrow⟩ := List.mem_map.mp ht'
    by_cases hkey : r.id = t.id
    · rw [if_pos hkey] at hrow
      subst hrow
      exact .inl ⟨t, ht, hid.symm, fun hvis hrep => hk.keepsVisible hw ht hgo hrep hvis⟩
    · rw [if_neg hkey] at hrow
      subst hrow
      exact ih hr
  | quiet _ hq ih => exact ih (hq.trades ▸ ht')
  | @created w₁ w₂ req io signalId plan raised k _ _ hs hstart hk htrades _ _ ih =>
    rw [htrades] at ht'
    obtain ht' | ht' := List.mem_append.mp ht'
    · exact ih ht'
    · obtain rfl := List.mem_singleton.mp ht'
      subst hs
      have hent := settleEntry_entered env.settings .spot req io
        (entryWork env req io (w₁, signalId, plan)) (entryWork_link _ _ _ _)
      obtain ⟨status, link, ty, new, henters, -, -⟩ := hent.enters (entryWork_link _ _ _ _)
      rw [hk] at hent henters
      have hid : k.trade.id = w₁.issued := henters.same.id
      have hfresh := (entryStart_issued hw hstart).1
      refine .inr ⟨hid ▸ hfresh, fun hrep => ?_⟩
      obtain ⟨-, t, hfound, hsame⟩ | ⟨hexec, hunsure⟩ := reported_request hrep
      · have hlt : t.id < w.issued := hw.fresh t (replayed_mem hfound)
        exact absurd (hsame.trans hid) (hlt.trans_le hfresh).ne
      · have hne : unsure env req io w ≠ none := by simp [hunsure]
        refine created_visible hstart hent hne ?_
        by_contra hoff
        simp [hgo.2.2 (by simpa using hoff) hne] at hexec

theorem TakesBack.mapped {data : OrderData} (h : TakesBack data) :
    orderStatusMap data.orderStatus ≠ none := by
  obtain h | ⟨h, -⟩ := h <;> simp [h, orderStatusMap]

/-- A written-off trade that is reported by now is reported by an order event, which
takes it back. -/
theorem reported_takenBack {env : Env} {s : Step} {w : World} {rep : List TradeId} {t t' : Trade}
    (hw : w.WellFormed) (hgo : KeepsInventory env (w, rep) s) (ht : t ∈ w.db.trades)
    (hoff : t.status.writtenOff = true) (hrep : t.id ∈ s.reported env w)
    (ht' : t' ∈ (step env w s).db.trades) (hid : t'.id = t.id) : t'.status.writtenOff = false := by
  have hoff' : t.status = orderCancelled ∨ t.status = orderRejected := by
    simpa [TradeStatus.writtenOff] using hoff
  cases s with
  | executeSignal req io =>
    obtain ⟨-, r, hfound, hsame⟩ | ⟨-, hunsure⟩ := reported_request hrep
    · -- a trade that is looked up again is not written off
      obtain rfl := hw.eq_of_id (replayed_mem hfound) ht hsame
      simp [replayed_status hfound, TradeStatus.writtenOff] at hoff
    · obtain ⟨w₁, signalId, plan, hstart, hnew⟩ := unsure_id hunsure
      have hlt : t.id < w.issued := hw.fresh t ht
      exact absurd hnew (hlt.trans_le (entryStart_issued hw hstart).1).ne
  | processOrder data io =>
    obtain ⟨u, hu, hreports⟩ := reported_update hw (fun req io => Step.noConfusion) ht hrep
    have hgo := (hgo.1 t ht u hu).2 hoff hreports
    simp only [Step.update] at hu
    obtain ⟨⟨link, hlink, hown⟩, rfl⟩ : (∃ link ∈ data.orderLinkId,
        t.ownsOrderLinkId link = true) ∧ (data, io) = u := by simpa using hu
    obtain ⟨b, k', happ, hvis⟩ := @applyOrderUpdate_takesBack env.restClient io data (w.work t) _
      hlink hoff hreports.1 hgo
    have hframe := applyOrderUpdate_frame env.restClient io data (w.work t)
    rw [happ] at hframe
    have hrow := processOrder_row hw ht hlink hown hgo.mapped happ
    have hkept : (w.commit k').WellFormed := hw.commit ht hframe
    rw [step, hrow] at ht'
    have hmem : k'.trade ∈ (w.commit k').db.trades := World.commit_row ht hframe.entry.id
    rwa [hkept.eq_of_id ht' hmem (hid.trans hframe.entry.id.symm)]
  | _ =>
    obtain ⟨u, hu, -⟩ := reported_update hw (fun req io => Step.noConfusion) ht hrep
    obtain h | h := hoff' <;>
      simp [Step.update, h, entryReconciliationStatuses, closeReconciliationStatuses] at hu

structure ReportsKept (x : World × List TradeId) : Prop where
  wellFormed : x.1.WellFormed
  issued : ∀ id ∈ x.2, id < x.1.issued
  visible : InventoryVisible x

theorem ReportsKept.step {env : Env} {x : World × List TradeId} {s : Step} (h : ReportsKept x)
    (hgo : KeepsInventory env x s) : ReportsKept (reportStep env x s) := by
  obtain ⟨w, rep⟩ := x
  have heffect := step_effect env s h.wellFormed
  refine ⟨heffect.2, ?_, ?_⟩
  · intro id hid
    obtain hold | hnew := List.mem_append.mp hid
    · exact (h.issued id hold).trans_le heffect.1.issued
    · have hrow : (∃ t ∈ w.db.trades, t.id = id) → id < (AmaExecutionCore.step env w s).issued := by
        rintro ⟨t, ht, rfl⟩
        exact (h.wellFormed.fresh t ht).trans_le heffect.1.issued
      cases s with
      | executeSignal req io =>
        obtain ⟨-, t, hfound, hsame⟩ | ⟨-, hunsure⟩ := reported_request hnew
        · exact hrow ⟨t, replayed_mem hfound, hsame⟩
        · obtain ⟨w₁, signalId, plan, hstart, rfl⟩ := unsure_id hunsure
          exact (entryStart_issued h.wellFormed hstart).2
      | _ =>
        obtain ⟨t, ht, hsame⟩ := List.mem_map.mp hnew
        exact hrow ⟨t, (List.mem_filter.mp ht).1, hsame⟩
  · intro t' ht' hrep
    obtain ⟨t, ht, hid, hkeep⟩ | ⟨hfresh, hkeep⟩ :=
      rows_visible h.wellFormed hgo (step_commits env s h.wellFormed) ht'
    · rw [← hid] at hrep
      cases hvis : t.status.writtenOff with
      | false => exact hkeep hvis hrep
      | true =>
        obtain hold | hnew := List.mem_append.mp hrep
        · exact absurd (h.visible t ht hold) (by simp [hvis])
        · exact reported_takenBack h.wellFormed hgo ht hvis hnew ht' hid.symm
    · obtain hold | hnew := List.mem_append.mp hrep
      · exact absurd (h.issued _ hold) (not_lt.mpr hfresh)
      · exact hkeep hnew

/-- In every run in which no update, reconcile answer or lookup writes off a trade with
executions, each trade that was reported as executed stays visible. -/
theorem inventoryKept_run (env : Env) (ss : List Step)
    (h : Runs.Meets (reportStep env) (KeepsInventory env) ({}, []) ss) :
    Runs.Always (reportStep env) InventoryVisible ({}, []) ss := by
  refine Runs.always_of_invariant (I := ReportsKept) ⟨wellFormed_init, ?_, ?_⟩
    (fun _ _ hk hgo => hk.step hgo) (fun _ hk => hk.visible) h
  · intro id hid
    cases hid
  · intro t ht
    cases ht

/-- An entry order that is executed in part, and then reaches `state`, reported as
`status`. -/
def partialEntryRun (state : OrderState) (status : OrderStatusText) : List Step :=
  [.executeSignal demoRequest (demoExecute (.accepted none) (.ok none)),
    .settle (.generated (some 0) 2) (.live true),
    .processOrder { orderLinkId := some (.generated (some 0) 2), orderStatus := .partiallyFilled,
                    cumExecQty := some (.decimal 2) } (demoHandler 1),
    .settle (.generated (some 0) 2) state,
    .processOrder { orderLinkId := some (.generated (some 0) 2), orderStatus := status,
                    cumExecQty := some (.decimal 5), leavesQty := some "0" } (demoHandler 2)]

theorem inventoryKept_filled : Runs.Always (reportStep (demoEnv .takerAllowed)) InventoryVisible
    ({}, []) (partialEntryRun .filled .filled) :=
  inventoryKept_run _ _ (by decide +kernel)

/-- The kill switch cancels the rest of a partially filled entry: the cancellation writes
the bought part off. -/
theorem inventoryKept_fails : ¬ Runs.Always (reportStep (demoEnv .takerAllowed)) InventoryVisible
    ({}, []) (partialEntryRun (.cancelled true) .cancelled) := by
  decide +kernel

end AmaExecutionCore
