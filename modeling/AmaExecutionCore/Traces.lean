import AmaExecutionCore.Effects

/-! What a handler writes besides the columns of its trade: trade events, and the
row of a day when it books a closed trade. -/
namespace AmaExecutionCore
open TradeStatus

/-- Status transitions of one trade, each starting where the one before it ended. -/
def Linked (id : TradeId) : TradeStatus → List TradeEvent → TradeStatus → Prop
  | s, [], s' => s' = s
  | s, e :: es, s' => e.tradeId = id ∧ e.eventType = .statusTransition ∧ e.fromStatus = some s ∧
      ∃ m, e.toStatus = some m ∧ m ≠ s ∧ Linked id m es s'

theorem Linked.append {id : TradeId} {s m s' : TradeStatus} {es es' : List TradeEvent}
    (h : Linked id s es m) (h' : Linked id m es' s') : Linked id s (es ++ es') s' := by
  induction es generalizing s with
  | nil =>
    obtain rfl : m = s := h
    exact h'
  | cons e es ih =>
    obtain ⟨hid, htype, hfrom, next, hto, hne, hrest⟩ := h
    exact ⟨hid, htype, hfrom, next, hto, hne, ih hrest⟩

theorem Linked.tradeId {id : TradeId} {s s' : TradeStatus} {es : List TradeEvent}
    (h : Linked id s es s') : ∀ e ∈ es, e.tradeId = id := by
  induction es generalizing s with
  | nil => simp
  | cons e es ih =>
    obtain ⟨hid, -, -, next, -, -, hrest⟩ := h
    intro e' he'
    obtain rfl | he' := List.mem_cons.mp he'
    · exact hid
    · exact ih hrest e' he'

/-- The session logs every change of the status, and leaves the fee and the rows of
the days alone. -/
structure Work.Traced (k k' : Work) : Prop where
  id : k'.trade.id = k.trade.id
  fee : k'.trade.feePaid = k.trade.feePaid
  days : k'.ledger.dailyStats = k.ledger.dailyStats
  trail : ∃ new, k'.events = k.events ++ new ∧
    Linked k.trade.id k.trade.status new k'.trade.status

namespace Work.Traced

theorem refl (k : Work) : k.Traced k := ⟨rfl, rfl, rfl, [], by simp, rfl⟩

theorem trans {k k' k'' : Work} (h : k.Traced k') (h' : k'.Traced k'') : k.Traced k'' where
  id := h'.id.trans h.id
  fee := h'.fee.trans h.fee
  days := h'.days.trans h.days
  trail := by
    obtain ⟨new, hnew, hl⟩ := h.trail
    obtain ⟨new', hnew', hl'⟩ := h'.trail
    rw [h.id] at hl'
    exact ⟨new ++ new', by rw [hnew', hnew, List.append_assoc], hl.append hl'⟩

/-- The only place that writes the status writes its event with it. -/
theorem transition (s : TradeStatus) (m : List (String × String)) (k : Work) :
    k.Traced (k.transitionTradeStatus s m) := by
  refine ⟨by simp, by simp, by simp, ?_⟩
  by_cases hs : k.trade.status = s
  · exact ⟨[], by simp [Work.transitionTradeStatus, hs], by simp [Linked, hs]⟩
  · refine ⟨[⟨k.trade.id, .statusTransition, some k.trade.status, some s, m⟩], ?_, ?_⟩
    · simp [Work.transitionTradeStatus, hs, Work.appendTradeEvent, Work.onTrade]
    · exact ⟨rfl, rfl, rfl, s, rfl, fun h => hs h.symm, by simp [Linked]⟩

theorem onTrade (f : Trade → Trade) (k : Work) (hid : (f k.trade).id = k.trade.id)
    (hst : (f k.trade).status = k.trade.status) (hfee : (f k.trade).feePaid = k.trade.feePaid) :
    k.Traced (k.onTrade f) :=
  ⟨hid, hfee, rfl, [], by simp [Work.onTrade], hst⟩

theorem onLedger (f : Ledger → Ledger) (k : Work)
    (h : (f k.ledger).dailyStats = k.ledger.dailyStats) : k.Traced (k.onLedger f) :=
  ⟨rfl, rfl, h, [], by simp [Work.onLedger], rfl⟩

theorem placeOrder (r : OrderRole) (q : OrderRequest) (o : PlaceOutcome) (k : Work) :
    k.Traced (k.placeOrder r q o) :=
  ⟨rfl, rfl, rfl, [], by simp [Work.placeOrder], rfl⟩

end Work.Traced

theorem submitEmergencyClose_traced (io : HandlerIo) (k : Work) :
    k.Traced (submitEmergencyClose io k) := by
  have hnote : k.Traced (k.onTrade (Trade.noteEmergencyClose
      (.generated k.trade.signalId (2 * k.nonce)))) := .onTrade _ _ rfl rfl rfl
  have hsent := hnote.trans (.placeOrder .emergencyClose
    (emergencyCloseRequest (k.trade.noteEmergencyClose (.generated k.trade.signalId (2 * k.nonce)))
      (.generated k.trade.signalId (2 * k.nonce))) io.emergencyClose _)
  simp only [submitEmergencyClose]
  split
  · exact hsent.trans (.trans (.onLedger _ _ rfl) (.transition _ _ _))
  · exact hsent.trans (.trans (.onTrade (Trade.noteCloseExchangeId _) _ rfl rfl rfl)
      (.transition _ _ _))

theorem handleStopLossSubmissionFailure_traced (restClient : Bool) (io : HandlerIo) (k : Work) :
    k.Traced (handleStopLossSubmissionFailure restClient io k) := by
  simp only [handleStopLossSubmissionFailure]
  split
  · exact .trans (.onLedger _ _ rfl) (.trans (.onLedger _ _ rfl) (submitEmergencyClose_traced _ _))
  · exact .trans (.onLedger _ _ rfl) (.trans (.onLedger _ _ rfl) (.transition _ _ _))

theorem armStopLoss_traced (restClient : Bool) (io : HandlerIo) (qty stopPrice : Rat) (k : Work) :
    k.Traced (armStopLoss restClient io qty stopPrice k).2 := by
  simp only [armStopLoss]
  split
  · exact .refl k
  · refine .trans (.placeOrder .stop (protectiveRequest k.trade qty (.stop k.nonce) stopPrice)
      io.stop k) ?_
    split
    · exact handleStopLossSubmissionFailure_traced restClient io _
    · exact .onTrade _ _ rfl rfl rfl

theorem armTakeProfit_traced (io : HandlerIo) (qty : Rat) (k : Work) :
    k.Traced (armTakeProfit io qty k) := by
  simp only [armTakeProfit]
  split
  · next targetPrice _ _ =>
    refine .trans (.placeOrder .takeProfit
      (protectiveRequest k.trade qty (.tp k.nonce) targetPrice) io.takeProfit k) ?_
    split
    · exact .onLedger _ _ rfl
    · exact .onTrade _ _ rfl rfl rfl
  · exact .refl k

theorem ensureSpotMarketProtection_traced (restClient : Bool) (io : HandlerIo) (k : Work) :
    k.Traced (ensureSpotMarketProtection restClient io k).2 := by
  unfold ensureSpotMarketProtection
  split_ifs
  · exact .refl k
  · exact .refl k
  · split
    · next qty stopPrice _ _ =>
      split_ifs
      · exact .refl k
      · have harm := armStopLoss_traced restClient io qty stopPrice k
        split
        · next h =>
          rw [h] at harm
          exact harm
        · next h =>
          rw [h] at harm
          exact harm.trans (armTakeProfit_traced io qty _)
    · exact .refl k

theorem noteExchangeOrderId_traced (link : OrderLinkId) (orderId : Option String) (k : Work) :
    k.Traced (k.onTrade (Trade.noteExchangeOrderId link orderId)) := by
  refine .onTrade _ _ ?_ ?_ ?_ <;> unfold Trade.noteExchangeOrderId <;> split
  all_goals first | rfl | (split_ifs <;> rfl)

theorem confirmEntryFill_traced (now : Timestamp) (avg cum : Option Rat) (k : Work) :
    k.Traced (confirmEntryFill now avg cum k) := by
  simp only [confirmEntryFill]
  refine .trans ?_ (.onTrade _ _ rfl rfl rfl)
  refine .trans ?_ (.transition _ _ _)
  exact .trans (.onTrade _ _ rfl rfl rfl) (.onTrade _ _ rfl rfl rfl)

theorem applyEntryFill_traced (restClient : Bool) (io : HandlerIo) (data : OrderData) (k : Work) :
    k.Traced (applyEntryFill restClient io data k).2 := by
  obtain ⟨e, avg, h⟩ | ⟨avg, cum, -, h⟩ := applyEntryFill_cases restClient io data k
  · rw [h]
    exact .onTrade _ _ rfl rfl rfl
  · rw [h]
    refine .trans ?_ (.onTrade _ _ rfl rfl rfl)
    refine (confirmEntryFill_traced io.now avg cum k).trans ?_
    split_ifs
    · have hens := ensureSpotMarketProtection_traced restClient io (confirmEntryFill io.now avg cum k)
      split
      · next h =>
        rw [h] at hens
        exact hens.trans (.transition _ _ _)
      · next h =>
        rw [h] at hens
        exact hens
    · exact .refl _

theorem recordExit_traced (now : Timestamp) (link : OrderLinkId) (exitPrice : Rat) (k : Work) :
    k.Traced (recordExit now link exitPrice k) := by
  simp only [recordExit]
  refine .trans ?_ (.transition _ _ _)
  refine .trans ?_ (.onTrade _ _ rfl rfl rfl)
  refine .trans ?_ (.onTrade _ _ rfl rfl rfl)
  refine .trans ?_ (.transition _ _ _)
  exact .onTrade _ _ rfl rfl rfl

theorem applyExitFailure_traced (s : TradeStatus) (k : Work) : k.Traced (applyExitFailure s k) :=
  .trans (.trans (.transition _ _ _) (.transition _ _ _)) (.onLedger _ _ rfl)

theorem noteRemoteStatus_traced (remote : OrderData) (k : Work) :
    k.Traced (noteRemoteStatus remote k) :=
  .trans (.onTrade _ _ rfl rfl rfl) (.transition _ _ _)

theorem reconcilePendingUnknown_traced (lookup : StatusOutcome) (k : Work) :
    k.Traced (reconcilePendingUnknown lookup k).2 := by
  obtain ⟨e, h, -⟩ | ⟨h, -⟩ | ⟨remote, -, h⟩ := reconcilePendingUnknown_cases lookup k
  · rw [h]
    exact .refl k
  · rw [h]
    exact .refl k
  · rw [h]
    exact noteRemoteStatus_traced remote k

theorem noteSubmitted_traced (orderType : OrderType) (isPostOnly : Bool) (orderId : Option String)
    (k : Work) : k.Traced (noteSubmitted orderType isPostOnly orderId k) :=
  .trans (.onTrade _ _ rfl rfl rfl) (.transition _ _ _)

theorem submitMarket_traced (category : MarketType) (req : NormalizedExecuteSignalRequest)
    (link : OrderLinkId) (outcome : PlaceOutcome) (k : Work) :
    k.Traced (submitMarket category req link outcome k).2 := by
  have hsent := Work.Traced.placeOrder .entry (marketEntryRequest category req
    (k.trade.qty.getD 0) k.trade.exchangeSide link) outcome k
  simp only [submitMarket]
  split
  · exact hsent
  · exact hsent.trans (noteSubmitted_traced _ _ _ _)

theorem submitOrder_traced (mode : OrderMode) (category : MarketType)
    (req : NormalizedExecuteSignalRequest) (io : ExecuteIo) (k : Work) :
    k.Traced (submitOrder mode category req io k).2 := by
  have hsent := Work.Traced.placeOrder .entry (limitEntryRequest category req
    (k.trade.qty.getD 0) k.trade.exchangeSide
    (k.trade.orderLinkId.getD (.generated k.trade.signalId (2 * k.nonce)))) io.entry k
  simp only [submitOrder]
  split_ifs
  · exact submitMarket_traced _ _ _ _ _
  · split
    · exact hsent.trans (noteSubmitted_traced _ _ _ _)
    · split_ifs
      · exact hsent.trans (.trans (.onTrade _ _ rfl rfl rfl) (submitMarket_traced _ _ _ _ _))
      · exact hsent
    · exact hsent

theorem settleEntry_traced (s : Settings) (category : MarketType)
    (req : NormalizedExecuteSignalRequest) (io : ExecuteIo) (k : Work) :
    k.Traced (settleEntry s category req io k).work := by
  simp only [settleEntry]
  split_ifs
  · exact .transition _ _ _
  · have hchecked : k.Traced ((k.transitionTradeStatus safetyChecked orderExecutor).onTrade
        fun t => { t with orderType := some .limit }) :=
      .trans (.transition _ _ _) (.onTrade _ _ rfl rfl rfl)
    have hsent := hchecked.trans (submitOrder_traced s.orderMode category req io _)
    have hunsure : ∀ k' : Work, k.Traced k' →
        k.Traced (handleSubmitUncertainty io.lookup k').work := by
      intro k' hk'
      have hpend : k.Traced (k'.transitionTradeStatus orderPendingUnknown
          (orderExecutor ++ [("reason", "submit_uncertain")])) := hk'.trans (.transition _ _ _)
      have hrec := hpend.trans (reconcilePendingUnknown_traced io.lookup _)
      unfold handleSubmitUncertainty
      split <;>
      · next h =>
        rw [h] at hrec
        exact hrec
    generalize submitOrder s.orderMode category req io _ = r at hsent
    split
    · exact hsent
    · exact hsent.trans (.transition _ _ _)
    · exact hunsure _ hsent
    · exact hunsure _ hsent
    · exact hsent

/-- The columns that record how a trade ended. -/
structure Trade.SameResult (t t' : Trade) : Prop where
  realizedPnl : t'.realizedPnl = t.realizedPnl
  pnlPct : t'.pnlPct = t.pnlPct
  pnlInR : t'.pnlInR = t.pnlInR
  avgExitPrice : t'.avgExitPrice = t.avgExitPrice
  closedAt : t'.closedAt = t.closedAt
  exitReason : t'.exitReason = t.exitReason

theorem Trade.SameResult.refl (t : Trade) : t.SameResult t := by constructor <;> rfl

theorem Trade.SameResult.trans {t t' t'' : Trade} (h : t.SameResult t') (h' : t'.SameResult t'') :
    t.SameResult t'' where
  realizedPnl := h'.realizedPnl.trans h.realizedPnl
  pnlPct := h'.pnlPct.trans h.pnlPct
  pnlInR := h'.pnlInR.trans h.pnlInR
  avgExitPrice := h'.avgExitPrice.trans h.avgExitPrice
  closedAt := h'.closedAt.trans h.closedAt
  exitReason := h'.exitReason.trans h.exitReason

/-- A handler books nothing and leaves a recorded result alone, or it closes a trade
that was not closed yet and books it once. -/
inductive Work.Writes (k : Work) : Work → Prop
  | kept {k'} (h : k.Traced k') (hrec : k.trade.status = pnlRecorded → k.trade.SameResult k'.trade)
      (hst : k'.trade.status = pnlRecorded ↔ k.trade.status = pnlRecorded) : k.Writes k'
  | booked {k' now pnl} (h : k.Traced k') (hopen : k.trade.status ≠ pnlRecorded)
      (hst : k'.trade.status = pnlRecorded) (hpnl : k'.trade.realizedPnl = some pnl)
      (hclosed : k'.trade.closedAt = some now) :
      k.Writes (k'.onLedger (Ledger.updateDailyStat now.date (bookOutcome k'.trade pnl)))

theorem Work.Writes.of_traced {k k₁ k' : Work} (h : k.Traced k₁)
    (hst : k₁.trade.status = k.trade.status) (hrec : k.trade.SameResult k₁.trade)
    (h' : k₁.Writes k') : k.Writes k' := by
  cases h' with
  | kept h' hrec' hst' =>
    refine .kept (h.trans h') ?_ (hst ▸ hst')
    intro hp
    exact hrec.trans (hrec' (hst.trans hp))
  | booked h' hopen hst' hpnl hclosed =>
    exact .booked (h.trans h') (hst ▸ hopen) hst' hpnl hclosed

theorem Work.Writes.of_status {k k' : Work} (h : k.Traced k') (hopen : k.trade.status ≠ pnlRecorded)
    (hst : k'.trade.status ≠ pnlRecorded) : k.Writes k' :=
  .kept h (fun hp => (hopen hp).elim) (iff_of_false hst hopen)

theorem Work.Writes.after {k k₁ k' : Work} (h : k.Traced k₁) (hopen : k.trade.status ≠ pnlRecorded)
    (hopen₁ : k₁.trade.status ≠ pnlRecorded) (h' : k₁.Writes k') : k.Writes k' := by
  cases h' with
  | kept h' _ hst' => exact .of_status (h.trans h') hopen fun hp => hopen₁ (hst'.mp hp)
  | booked h' _ hst' hpnl hclosed => exact .booked (h.trans h') hopen hst' hpnl hclosed

theorem noteExchangeOrderId_result (link : OrderLinkId) (orderId : Option String) (t : Trade) :
    t.SameResult (t.noteExchangeOrderId link orderId) := by
  unfold Trade.noteExchangeOrderId
  split
  · exact .refl t
  · split_ifs <;> constructor <;> rfl

theorem applyEntryFill_status (restClient : Bool) (io : HandlerIo) (data : OrderData) (k : Work)
    (h : k.trade.status ≠ pnlRecorded) :
    (applyEntryFill restClient io data k).2.trade.status ≠ pnlRecorded := by
  obtain ⟨e, avg, heq⟩ | ⟨avg, cum, -, heq⟩ := applyEntryFill_cases restClient io data k
  · rw [heq]
    exact h
  · have hconf := (confirmEntryFill_settles io.now avg cum k).status
    rw [heq]
    simp only [Work.onTrade_trade, Trade.storeFilledQty]
    split_ifs
    · have hprot := (ensureSpotMarketProtection_protection restClient io
        (confirmEntryFill io.now avg cum k)).status
      rw [hconf] at hprot
      split
      · simp
      · next hp =>
        rw [hp] at hprot
        obtain hprot | ⟨-, hprot | hprot⟩ := hprot <;> dsimp only at hprot ⊢ <;> simp [hprot]
    · simp [hconf]

theorem Work.Writes.book {k k₁ : Work} {now : Timestamp} (h : k.Traced k₁)
    (hopen : k.trade.status ≠ pnlRecorded) (hst : k₁.trade.status = pnlRecorded)
    (hpnl : k₁.trade.realizedPnl ≠ none) (hclosed : k₁.trade.closedAt = some now) :
    k.Writes (k₁.applyTradeOutcomeAnalytics now).2 := by
  obtain ⟨pnl, hpnl⟩ := Option.ne_none_iff_exists'.mp hpnl
  simp only [Work.applyTradeOutcomeAnalytics, hpnl, hclosed, Option.getD_some]
  exact .booked h hopen hst hpnl hclosed

theorem applyExitFill_writes (io : HandlerIo) (link : OrderLinkId) (data : OrderData) (k : Work)
    (hopen : k.trade.status ≠ pnlRecorded) : k.Writes (applyExitFill io link data k).2 := by
  have hconf : k.Traced (k.transitionTradeStatus orderConfirmed exchangeSync) := .transition _ _ _
  simp only [applyExitFill]
  split
  · exact .of_status hconf hopen (by simp)
  · next exitPrice _ =>
    have hbook : k.Writes ((recordExit io.now link exitPrice (k.transitionTradeStatus orderConfirmed
        exchangeSync)).applyTradeOutcomeAnalytics io.now).2 :=
      .book (hconf.trans (recordExit_traced io.now link exitPrice _)) hopen
        (recordExit_settles io.now link exitPrice _).status
        (by simp [recordExit, Trade.recordPnl])
        (by simp [recordExit, Trade.recordPnl, Trade.noteExit])
    split <;>
    · next h =>
      rw [h] at hbook
      exact hbook

theorem applyOrderUpdate_writes (restClient : Bool) (io : HandlerIo) (data : OrderData) (k : Work) :
    k.Writes (applyOrderUpdate restClient io data k).2 := by
  have hidle : ∀ k₁ : Work, k₁.Writes k₁ := fun k₁ => .kept (.refl k₁) (fun _ => .refl _) Iff.rfl
  unfold applyOrderUpdate
  split
  · next link s _ hs =>
    refine .of_traced (noteExchangeOrderId_traced link data.orderId k)
      (noteExchangeOrderId_settles link data.orderId k).status
      (noteExchangeOrderId_result link data.orderId k.trade) ?_
    generalize k.onTrade (Trade.noteExchangeOrderId link data.orderId) = k₁
    dsimp only
    split_ifs with hentry hexit hfill hclose hfail
    · exact hidle _
    · exact hidle _
    all_goals
      -- an update that is not ignored finds the trade not closed yet
      have hopen : k₁.trade.status ≠ pnlRecorded := by
        intro hp
        cases hrole : k.trade.isProtectiveClose link <;>
          simp [hrole, shouldIgnoreEntryUpdate, shouldIgnoreCloseUpdate, hp] at hentry hexit
    · exact .of_status (applyEntryFill_traced restClient io data _) hopen
        (applyEntryFill_status restClient io data _ hopen)
    · exact applyExitFill_writes io link data _ hopen
    · exact .of_status (applyExitFailure_traced _ _) hopen (by simp [applyExitFailure])
    · refine .of_status (.transition _ _ _) hopen ?_
      have hne : s ≠ pnlRecorded := by
        obtain h | h | h | h := orderStatusMap_eq hs <;> simp [h.2]
      simpa using hne
  · exact hidle _

theorem recordShadowClose_writes (reason : ExitReason) (now : Timestamp) (k : Work)
    (hopen : k.trade.status ≠ pnlRecorded) : k.Writes (recordShadowClose reason now k).2 := by
  simp only [recordShadowClose]
  refine .book ?_ hopen (by simp) (by simp [Trade.recordPnl]) (by simp [Trade.recordPnl])
  refine .trans ?_ (.transition _ _ _)
  refine .trans ?_ (.onTrade _ _ rfl rfl rfl)
  refine .trans ?_ (.onTrade _ _ rfl rfl rfl)
  exact .onTrade _ _ rfl rfl rfl

theorem submitClose_writes (mode : TradingMode) (reason : ExitReason) (io : CloseIo) (k : Work)
    (hopen : k.trade.status ≠ pnlRecorded) {r : Except PyError Unit} {k' : Work}
    (h : submitClose mode reason io k = (r, k')) : k.Writes k' := by
  have hprep : k.Traced ((k.onTrade (prepareCloseSubmission reason k.nonce)).transitionTradeStatus
      positionClosePending positionManager) :=
    .trans (.onTrade _ _ rfl rfl rfl) (.transition _ _ _)
  simp only [submitClose] at h
  split_ifs at h
  · have hclose := recordShadowClose_writes reason io.now ((k.onTrade (prepareCloseSubmission reason
      k.nonce)).transitionTradeStatus positionClosePending positionManager) (by simp)
    rw [h] at hclose
    exact .after hprep hopen (by simp) hclose
  · split at h <;> obtain rfl := (Prod.mk.inj h).2
    · refine .of_status (hprep.trans (.placeOrder _ _ _ _)) hopen ?_
      simp
    · refine .of_status (hprep.trans (.trans (.placeOrder _ _ _ _) (.onTrade _ _ rfl rfl rfl))) hopen ?_
      simp [Trade.noteCloseExchangeId]

theorem parseOptional_ok {n : Option RawNumber} {q : Option Rat} (h : parseOptional n = .ok q) :
    n ≠ some .malformed := by
  intro hn
  rw [hn] at h
  cases h

theorem parseOptional_error {n : Option RawNumber} {e : PyError} (h : parseOptional n = .error e) :
    n = some .malformed := by
  match n, h with
  | some .malformed, _ => rfl

theorem parseOptional_of_ne {n : Option RawNumber} (h : n ≠ some .malformed) :
    ∃ q, parseOptional n = .ok q := by
  match n, h with
  | none, _ => exact ⟨none, rfl⟩
  | some (.decimal q), _ => exact ⟨some q, rfl⟩
  | some .malformed, h => exact (h rfl).elim

/-- What an update that raised did before: noted the order id, then either the price of
an entry fill, or the first status of an exit fill. -/
theorem applyOrderUpdate_raised {restClient : Bool} {io : HandlerIo} {data : OrderData} {k k' : Work}
    {e : PyError} (h : applyOrderUpdate restClient io data k = (.error e, k')) :
    ∃ link, data.orderLinkId = some link ∧ data.orderStatus = .filled ∧
      ((k.trade.isProtectiveClose link = true ∧ k.trade.status ≠ pnlRecorded ∧
          data.avgPrice = some .malformed ∧
          k' = (k.onTrade (Trade.noteExchangeOrderId link data.orderId)).transitionTradeStatus
            orderConfirmed exchangeSync) ∨
        (k.trade.isProtectiveClose link = false ∧
          shouldIgnoreEntryUpdate k.trade .orderConfirmed (data.leavesQty = some "0") = false ∧
          ((data.avgPrice = some .malformed ∧
              k' = k.onTrade (Trade.noteExchangeOrderId link data.orderId)) ∨
            ∃ avg, data.cumExecQty = some .malformed ∧ parseOptional data.avgPrice = .ok avg ∧
              k' = (k.onTrade (Trade.noteExchangeOrderId link data.orderId)).onTrade
                (Trade.noteFillPrice avg)))) := by
  unfold applyOrderUpdate at h
  split at h
  · next link s hlink hs =>
    have hst := (noteExchangeOrderId_settles link data.orderId k).status
    refine ⟨link, hlink, ?_⟩
    dsimp only at h
    rw [shouldIgnoreEntryUpdate_congr hst] at h
    split_ifs at h with hentry hexit hfill hclose hfail
    · simp at h
    · simp at h
    · obtain ⟨rfl, hrole⟩ := hfill
      have hfilled : data.orderStatus = .filled := by
        obtain h | h | h | h := orderStatusMap_eq hs <;> simp_all
      refine ⟨hfilled, .inr ⟨hrole, by simpa [hrole] using hentry, ?_⟩⟩
      unfold applyEntryFill at h
      split at h
      · next e' havg =>
        exact .inl ⟨parseOptional_error havg, (Prod.mk.inj h).2.symm⟩
      · next avg havg =>
        split at h
        · next e' hcum =>
          exact .inr ⟨avg, parseOptional_error hcum, havg, (Prod.mk.inj h).2.symm⟩
        · simp at h
    · obtain ⟨hrole, rfl⟩ := hclose
      have hfilled : data.orderStatus = .filled := by
        obtain h | h | h | h := orderStatusMap_eq hs <;> simp_all
      refine ⟨hfilled, .inl ⟨hrole, ?_, ?_⟩⟩
      · intro hp
        exact hexit ⟨hrole, by rw [shouldIgnoreCloseUpdate, hst, hp]; rfl⟩
      · simp only [applyExitFill] at h
        split at h
        · next e' hparse =>
          exact ⟨parse_getD_error hparse, (Prod.mk.inj h).2.symm⟩
        · next exitPrice _ =>
          obtain ⟨k₁, hbook, -⟩ := recordExit_booked io.now link exitPrice
            ((k.onTrade (Trade.noteExchangeOrderId link data.orderId)).transitionTradeStatus
              orderConfirmed exchangeSync)
          simp [hbook] at h
    · simp at h
    · simp at h
  · simp at h

/-- A fill that is not ignored raises when the price of an exit, or one of the numbers
of an entry, cannot be read. -/
theorem applyOrderUpdate_malformed {restClient : Bool} {io : HandlerIo} {data : OrderData} {k : Work}
    {link : OrderLinkId} (hlink : data.orderLinkId = some link) (hs : data.orderStatus = .filled)
    (h : (k.trade.isProtectiveClose link = true ∧ k.trade.status ≠ pnlRecorded ∧
        data.avgPrice = some .malformed) ∨
      (k.trade.isProtectiveClose link = false ∧
        shouldIgnoreEntryUpdate k.trade .orderConfirmed (data.leavesQty = some "0") = false ∧
        (data.avgPrice = some .malformed ∨ data.cumExecQty = some .malformed))) :
    ∃ e k', applyOrderUpdate restClient io data k = (.error e, k') := by
  have hst := (noteExchangeOrderId_settles link data.orderId k).status
  obtain ⟨hrole, hopen, hprice⟩ | ⟨hrole, hkeep, hnumber⟩ := h
  · have hexit : shouldIgnoreCloseUpdate (k.onTrade (Trade.noteExchangeOrderId link
        data.orderId)).trade = false := by
      rw [shouldIgnoreCloseUpdate, hst]
      simpa using hopen
    rw [Work.onTrade_trade] at hexit
    simp [applyOrderUpdate, hlink, hs, orderStatusMap, hrole, hexit, applyExitFill, hprice,
      RawNumber.parse]
  · have hentry := shouldIgnoreEntryUpdate_congr hst orderConfirmed (data.leavesQty = some "0")
    rw [hkeep] at hentry
    have hfill : ∃ e k', applyEntryFill restClient io data (k.onTrade (Trade.noteExchangeOrderId link
        data.orderId)) = (.error e, k') := by
      unfold applyEntryFill
      cases havg : parseOptional data.avgPrice with
      | error e => exact ⟨e, _, rfl⟩
      | ok avg =>
        cases hcum : parseOptional data.cumExecQty with
        | error e => exact ⟨e, _, rfl⟩
        | ok cum => exact (hnumber.elim (parseOptional_ok havg) (parseOptional_ok hcum)).elim
    rw [Work.onTrade_trade] at hentry
    simpa [applyOrderUpdate, hlink, hs, orderStatusMap, hrole, hentry] using hfill

end AmaExecutionCore
