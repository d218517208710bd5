import AmaExecutionCore.PositionManager
import AmaExecutionCore.OrderExecutor

/-! What the handlers of one trade leave alone: the columns fixed at entry, the
orders already sent, and the requests to cancel. -/
namespace AmaExecutionCore
open TradeStatus

namespace Work

@[simp] theorem transition_trade (s : TradeStatus) (m : List (String × String)) (k : Work) :
    (k.transitionTradeStatus s m).trade = { k.trade with status := s } := by
  unfold transitionTradeStatus
  split
  · next h => rw [← h]
  · rfl

@[simp] theorem transition_exchange (s : TradeStatus) (m : List (String × String)) (k : Work) :
    (k.transitionTradeStatus s m).exchange = k.exchange := by
  unfold transitionTradeStatus; split <;> rfl

@[simp] theorem transition_ledger (s : TradeStatus) (m : List (String × String)) (k : Work) :
    (k.transitionTradeStatus s m).ledger = k.ledger := by
  unfold transitionTradeStatus; split <;> rfl

@[simp] theorem transition_nonce (s : TradeStatus) (m : List (String × String)) (k : Work) :
    (k.transitionTradeStatus s m).nonce = k.nonce := by
  unfold transitionTradeStatus; split <;> rfl

@[simp] theorem onTrade_trade (f : Trade → Trade) (k : Work) : (k.onTrade f).trade = f k.trade := rfl
@[simp] theorem onTrade_exchange (f : Trade → Trade) (k : Work) :
    (k.onTrade f).exchange = k.exchange := rfl
@[simp] theorem onTrade_ledger (f : Trade → Trade) (k : Work) : (k.onTrade f).ledger = k.ledger := rfl
@[simp] theorem onTrade_nonce (f : Trade → Trade) (k : Work) : (k.onTrade f).nonce = k.nonce := rfl
@[simp] theorem onLedger_trade (f : Ledger → Ledger) (k : Work) :
    (k.onLedger f).trade = k.trade := rfl
@[simp] theorem onLedger_exchange (f : Ledger → Ledger) (k : Work) :
    (k.onLedger f).exchange = k.exchange := rfl
@[simp] theorem onLedger_nonce (f : Ledger → Ledger) (k : Work) :
    (k.onLedger f).nonce = k.nonce := rfl

@[simp] theorem placeOrder_trade (r : OrderRole) (q : OrderRequest) (o : PlaceOutcome) (k : Work) :
    (k.placeOrder r q o).trade = k.trade := rfl

@[simp] theorem placeOrder_exchange (r : OrderRole) (q : OrderRequest) (o : PlaceOutcome)
    (k : Work) : (k.placeOrder r q o).exchange = k.exchange.place k.trade.id r q o := rfl

@[simp] theorem placeOrder_nonce (r : OrderRole) (q : OrderRequest) (o : PlaceOutcome) (k : Work) :
    (k.placeOrder r q o).nonce = k.nonce := rfl

end Work

@[simp] theorem World.work_trade (t : Trade) (w : World) : (w.work t).trade = t := rfl
@[simp] theorem World.work_exchange (t : Trade) (w : World) : (w.work t).exchange = w.exchange := rfl
@[simp] theorem World.work_nonce (t : Trade) (w : World) : (w.work t).nonce = w.issued := rfl

/-- The columns a trade keeps from its creation on. -/
structure Trade.SameTerms (t t' : Trade) : Prop where
  id : t'.id = t.id
  signalId : t'.signalId = t.signalId
  symbol : t'.symbol = t.symbol
  signalDirection : t'.signalDirection = t.signalDirection
  exchangeSide : t'.exchangeSide = t.exchangeSide
  marketType : t'.marketType = t.marketType
  mode : t'.mode = t.mode
  riskAmountUsd : t'.riskAmountUsd = t.riskAmountUsd
  qty : t'.qty = t.qty
  stopPrice : t'.stopPrice = t.stopPrice
  targetPrice : t'.targetPrice = t.targetPrice

theorem Trade.SameTerms.refl (t : Trade) : t.SameTerms t := by constructor <;> rfl

theorem Trade.SameTerms.trans {t t' t'' : Trade} (h : t.SameTerms t') (h' : t'.SameTerms t'') :
    t.SameTerms t'' where
  id := h'.id.trans h.id
  signalId := h'.signalId.trans h.signalId
  symbol := h'.symbol.trans h.symbol
  signalDirection := h'.signalDirection.trans h.signalDirection
  exchangeSide := h'.exchangeSide.trans h.exchangeSide
  marketType := h'.marketType.trans h.marketType
  mode := h'.mode.trans h.mode
  riskAmountUsd := h'.riskAmountUsd.trans h.riskAmountUsd
  qty := h'.qty.trans h.qty
  stopPrice := h'.stopPrice.trans h.stopPrice
  targetPrice := h'.targetPrice.trans h.targetPrice

/-- The columns no handler of an existing trade writes. -/
structure Trade.SameEntry (t t' : Trade) : Prop extends t.SameTerms t' where
  orderLinkId : t'.orderLinkId = t.orderLinkId
  orderType : t'.orderType = t.orderType

theorem Trade.SameEntry.refl (t : Trade) : t.SameEntry t := by repeat' constructor

theorem Trade.SameEntry.trans {t t' t'' : Trade} (h : t.SameEntry t') (h' : t'.SameEntry t'') :
    t.SameEntry t'' where
  toSameTerms := h.toSameTerms.trans h'.toSameTerms
  orderLinkId := h'.orderLinkId.trans h.orderLinkId
  orderType := h'.orderType.trans h.orderType

theorem Trade.owns_iff (t : Trade) (link : OrderLinkId) :
    t.ownsOrderLinkId link = true ↔ t.orderLinkId = some link ∨ t.closeOrderLinkId = some link ∨
      t.stopOrderLinkId = some link ∨ t.takeProfitOrderLinkId = some link := by
  simp [Trade.ownsOrderLinkId, or_assoc]

/-- The columns that name exit orders. -/
structure Trade.SameExits (t t' : Trade) : Prop where
  close : t'.closeOrderLinkId = t.closeOrderLinkId
  stop : t'.stopOrderLinkId = t.stopOrderLinkId
  takeProfit : t'.takeProfitOrderLinkId = t.takeProfitOrderLinkId

theorem Trade.SameEntry.owns {t t' : Trade} (h : t.SameEntry t') (hx : t.SameExits t')
    (link : OrderLinkId) : t'.ownsOrderLinkId link = t.ownsOrderLinkId link := by
  simp only [Trade.ownsOrderLinkId, h.orderLinkId, hx.close, hx.stop, hx.takeProfit]

/-- The id was made from the number `n`. -/
def OrderLinkId.drawnAt (n : Nat) : OrderLinkId → Prop
  | .generated _ k => k / 2 = n
  | .close k | .stop k | .tp k => k = n
  | .foreign _ => False

/-- The frame of a handler: the entry columns stay, an exit column gets fresh ids
only, and the only new orders are exit orders of the same trade. -/
structure Work.Frame (k k' : Work) : Prop where
  entry : k.trade.SameEntry k'.trade
  links : ∀ link, k'.trade.ownsOrderLinkId link = true →
    k.trade.ownsOrderLinkId link = true ∨ link.drawnAt k.nonce
  nonce : k'.nonce = k.nonce
  cancels : k'.exchange.cancelRequests = k.exchange.cancelRequests
  orders : ∃ new, k'.exchange.orders = k.exchange.orders ++ new ∧
    ∀ o ∈ new, o.trade = k.trade.id ∧ o.role.isExit = true

namespace Work.Frame

theorem refl (k : Work) : k.Frame k where
  entry := .refl _
  links := fun _ h => .inl h
  nonce := rfl
  cancels := rfl
  orders := ⟨[], by simp, by simp⟩

theorem trans {k k' k'' : Work} (h : k.Frame k') (h' : k'.Frame k'') : k.Frame k'' where
  entry := h.entry.trans h'.entry
  links := by
    intro link hl
    rcases h'.links link hl with hl | hl
    · exact h.links link hl
    · exact .inr (h.nonce ▸ hl)
  nonce := h'.nonce.trans h.nonce
  cancels := h'.cancels.trans h.cancels
  orders := by
    obtain ⟨new, hnew, hr⟩ := h.orders
    obtain ⟨new', hnew', hr'⟩ := h'.orders
    refine ⟨new ++ new', by rw [hnew', hnew, List.append_assoc], ?_⟩
    intro o ho
    rcases List.mem_append.mp ho with ho | ho
    · exact hr o ho
    · rw [← h.entry.id]
      exact hr' o ho

theorem placeOrder (r : OrderRole) (q : OrderRequest) (o : PlaceOutcome) (k : Work)
    (hr : r.isExit = true) : k.Frame (k.placeOrder r q o) where
  entry := .refl _
  links := fun _ h => .inl h
  nonce := rfl
  cancels := rfl
  orders := ⟨[.ofCall k.trade.id r q o], rfl, by simp [SentOrder.ofCall, hr]⟩

theorem onLink (f : Trade → Trade) (k : Work) (h : k.trade.SameEntry (f k.trade))
    (hl : ∀ link, (f k.trade).ownsOrderLinkId link = true →
      k.trade.ownsOrderLinkId link = true ∨ link.drawnAt k.nonce) : k.Frame (k.onTrade f) where
  entry := h
  links := hl
  nonce := rfl
  cancels := rfl
  orders := ⟨[], by simp, by simp⟩

theorem onTrade (f : Trade → Trade) (k : Work) (h : k.trade.SameEntry (f k.trade))
    (hx : k.trade.SameExits (f k.trade)) : k.Frame (k.onTrade f) :=
  onLink f k h fun link hl => .inl (by rwa [h.owns hx] at hl)

theorem transition (s : TradeStatus) (m : List (String × String)) (k : Work) :
    k.Frame (k.transitionTradeStatus s m) where
  entry := ⟨by constructor <;> simp, by simp, by simp⟩
  links := by
    intro link hl
    exact .inl (by simpa [Trade.ownsOrderLinkId] using hl)
  nonce := by simp
  cancels := by simp
  orders := ⟨[], by simp, by simp⟩

theorem onLedger (f : Ledger → Ledger) (k : Work) : k.Frame (k.onLedger f) where
  entry := .refl _
  links := fun _ h => .inl h
  nonce := rfl
  cancels := rfl
  orders := ⟨[], by simp, by simp⟩

theorem mem {k k' : Work} (h : k.Frame k') {o : SentOrder} (ho : o ∈ k.exchange.orders) :
    o ∈ k'.exchange.orders := by
  obtain ⟨new, hnew, -⟩ := h.orders
  rw [hnew]
  exact List.mem_append_left new ho

/-- An order was sent before, or it is an exit order of the trade. -/
theorem order_cases {k k' : Work} (h : k.Frame k') {o : SentOrder} (ho : o ∈ k'.exchange.orders) :
    o ∈ k.exchange.orders ∨ (o.trade = k.trade.id ∧ o.role.isExit = true) := by
  obtain ⟨new, hnew, hexit⟩ := h.orders
  rw [hnew] at ho
  obtain ho | ho := List.mem_append.mp ho
  · exact .inl ho
  · exact .inr (hexit o ho)

end Work.Frame

theorem submitEmergencyClose_frame (io : HandlerIo) (k : Work) :
    k.Frame (submitEmergencyClose io k) := by
  have hnote : k.Frame (k.onTrade (Trade.noteEmergencyClose
      (.generated k.trade.signalId (2 * k.nonce)))) := by
    refine .onLink _ _ ⟨by constructor <;> rfl, rfl, rfl⟩ ?_
    intro link hl
    rw [Trade.owns_iff] at hl ⊢
    rcases hl with hl | hl | hl | hl
    · exact .inl (.inl hl)
    · refine .inr ?_
      obtain rfl : OrderLinkId.generated k.trade.signalId (2 * k.nonce) = link :=
        Option.some.inj hl
      simp [OrderLinkId.drawnAt]
    · exact .inl (.inr (.inr (.inl hl)))
    · exact .inl (.inr (.inr (.inr hl)))
  have hsent := hnote.trans (.placeOrder .emergencyClose
    (emergencyCloseRequest (k.trade.noteEmergencyClose (.generated k.trade.signalId (2 * k.nonce)))
      (.generated k.trade.signalId (2 * k.nonce))) io.emergencyClose _ rfl)
  simp only [submitEmergencyClose]
  split
  · refine hsent.trans ?_
    exact .trans (.onLedger _ _) (.transition _ _ _)
  · refine hsent.trans ?_
    exact .trans (.onTrade (Trade.noteCloseExchangeId _) _ ⟨by constructor <;> rfl, rfl, rfl⟩
      (by constructor <;> rfl)) (.transition _ _ _)

theorem handleStopLossSubmissionFailure_frame (restClient : Bool) (io : HandlerIo) (k : Work) :
    k.Frame (handleStopLossSubmissionFailure restClient io k) := by
  have hlog : k.Frame ((k.onLedger (Ledger.activateKillSwitch io.now)).onLedger
      (Ledger.appendSystemEvent .error
        "Stop-loss protective order could not be armed after spot market fill." k.trade.id)) :=
    .trans (.onLedger _ _) (.onLedger _ _)
  simp only [handleStopLossSubmissionFailure]
  split
  · exact hlog.trans (submitEmergencyClose_frame io _)
  · exact hlog.trans (.transition _ _ _)

theorem noteStopOrder_frame (orderId : Option String) (k : Work) :
    k.Frame (k.onTrade (Trade.noteStopOrder (.stop k.nonce) orderId)) := by
  refine .onLink _ _ ⟨by constructor <;> rfl, rfl, rfl⟩ ?_
  intro link hl
  rw [Trade.owns_iff] at hl ⊢
  rcases hl with hl | hl | hl | hl
  · exact .inl (.inl hl)
  · exact .inl (.inr (.inl hl))
  · obtain rfl : OrderLinkId.stop k.nonce = link := Option.some.inj hl
    exact .inr rfl
  · exact .inl (.inr (.inr (.inr hl)))

theorem armStopLoss_frame (restClient : Bool) (io : HandlerIo) (qty stopPrice : Rat) (k : Work) :
    k.Frame (armStopLoss restClient io qty stopPrice k).2 := by
  simp only [armStopLoss]
  split
  · exact .refl k
  · have hsent := Work.Frame.placeOrder .stop
      (protectiveRequest k.trade qty (.stop k.nonce) stopPrice) io.stop k rfl
    split
    · exact hsent.trans (handleStopLossSubmissionFailure_frame restClient io _)
    · exact hsent.trans (noteStopOrder_frame _ _)

theorem noteTakeProfitOrder_frame (orderId : Option String) (k : Work) :
    k.Frame (k.onTrade (Trade.noteTakeProfitOrder (.tp k.nonce) orderId)) := by
  refine .onLink _ _ ⟨by constructor <;> rfl, rfl, rfl⟩ ?_
  intro link hl
  rw [Trade.owns_iff] at hl ⊢
  rcases hl with hl | hl | hl | hl
  · exact .inl (.inl hl)
  · exact .inl (.inr (.inl hl))
  · exact .inl (.inr (.inr (.inl hl)))
  · obtain rfl : OrderLinkId.tp k.nonce = link := Option.some.inj hl
    exact .inr rfl

theorem armTakeProfit_frame (io : HandlerIo) (qty : Rat) (k : Work) :
    k.Frame (armTakeProfit io qty k) := by
  simp only [armTakeProfit]
  split
  · next targetPrice _ _ =>
    have hsent := Work.Frame.placeOrder .takeProfit
      (protectiveRequest k.trade qty (.tp k.nonce) targetPrice) io.takeProfit k rfl
    split
    · exact hsent.trans (.onLedger _ _)
    · exact hsent.trans (noteTakeProfitOrder_frame _ _)
  · exact .refl k

theorem ensureSpotMarketProtection_frame (restClient : Bool) (io : HandlerIo) (k : Work) :
    k.Frame (ensureSpotMarketProtection restClient io k).2 := by
  unfold ensureSpotMarketProtection
  split_ifs with hrest hspot
  · exact .refl k
  · exact .refl k
  · split
    · next qty stopPrice _ _ =>
      split_ifs with hqty
      · exact .refl k
      · have harm := armStopLoss_frame restClient io qty stopPrice k
        split
        · next h =>
          rw [h] at harm
          exact harm
        · next h =>
          rw [h] at harm
          exact harm.trans (armTakeProfit_frame io qty _)
    · exact .refl k

theorem noteExchangeOrderId_frame (link : OrderLinkId) (orderId : Option String) (k : Work) :
    k.Frame (k.onTrade (Trade.noteExchangeOrderId link orderId)) := by
  refine .onTrade _ _ ⟨?_, ?_, ?_⟩ ?_ <;> unfold Trade.noteExchangeOrderId <;> split
  · constructor <;> rfl
  · split_ifs <;> constructor <;> rfl
  · rfl
  · split_ifs <;> rfl
  · rfl
  · split_ifs <;> rfl
  · constructor <;> rfl
  · split_ifs <;> constructor <;> rfl

theorem confirmEntryFill_frame (now : Timestamp) (avg cum : Option Rat) (k : Work) :
    k.Frame (confirmEntryFill now avg cum k) := by
  simp only [confirmEntryFill]
  refine .trans ?_ (.onTrade _ _ ⟨by constructor <;> rfl, rfl, rfl⟩ (by constructor <;> rfl))
  refine .trans ?_ (.transition _ _ _)
  refine .trans ?_ (.onTrade _ _ ⟨by constructor <;> rfl, rfl, rfl⟩ (by constructor <;> rfl))
  exact .onTrade _ _ ⟨by constructor <;> rfl, rfl, rfl⟩ (by constructor <;> rfl)

/-- What an entry fill can do: raise on a malformed number, or confirm the fill and,
when nothing is left of the order, arm protection and open the position. -/
theorem applyEntryFill_cases (restClient : Bool) (io : HandlerIo) (data : OrderData) (k : Work) :
    (∃ e avg, applyEntryFill restClient io data k =
      (.error e, k.onTrade (Trade.noteFillPrice avg))) ∨
    ∃ avg cum, parseOptional data.cumExecQty = .ok cum ∧
      applyEntryFill restClient io data k = (.ok true,
        (if data.leavesQty = some "0" then
          match ensureSpotMarketProtection restClient io (confirmEntryFill io.now avg cum k) with
          | (true, k') => k'.transitionTradeStatus .positionOpen exchangeSync
          | (false, k') => k'
        else confirmEntryFill io.now avg cum k).onTrade (Trade.storeFilledQty cum)) := by
  unfold applyEntryFill
  split
  · next e _ => exact .inl ⟨e, none, rfl⟩
  · next avg _ =>
    split
    · next e _ => exact .inl ⟨e, avg, rfl⟩
    · next cum hcum => exact .inr ⟨avg, cum, hcum, rfl⟩

theorem storeFilledQty_frame (cum : Option Rat) (k : Work) :
    k.Frame (k.onTrade (Trade.storeFilledQty cum)) :=
  .onTrade _ _ ⟨by constructor <;> rfl, rfl, rfl⟩ (by constructor <;> rfl)

theorem applyEntryFill_frame (restClient : Bool) (io : HandlerIo) (data : OrderData) (k : Work) :
    k.Frame (applyEntryFill restClient io data k).2 := by
  rcases applyEntryFill_cases restClient io data k with ⟨e, avg, h⟩ | ⟨avg, cum, -, h⟩
  · rw [h]
    exact .onTrade _ _ ⟨by constructor <;> rfl, rfl, rfl⟩ (by constructor <;> rfl)
  · rw [h]
    refine .trans ?_ (storeFilledQty_frame cum _)
    refine (confirmEntryFill_frame io.now avg cum k).trans ?_
    split_ifs
    · have hens := ensureSpotMarketProtection_frame restClient io
        (confirmEntryFill io.now avg cum k)
      split <;> next h =>
        rw [h] at hens
        first
          | exact hens
          | exact hens.trans (.transition _ _ _)
    · exact .refl _

theorem applyTradeOutcomeAnalytics_frame (now : Timestamp) (k : Work) :
    k.Frame (k.applyTradeOutcomeAnalytics now).2 := by
  unfold Work.applyTradeOutcomeAnalytics
  split
  · exact .refl k
  · exact .onLedger _ _

theorem recordExit_frame (now : Timestamp) (link : OrderLinkId) (exitPrice : Rat) (k : Work) :
    k.Frame (recordExit now link exitPrice k) := by
  simp only [recordExit]
  refine .trans ?_ (.transition _ _ _)
  refine .trans ?_ (.onTrade _ _ ⟨by constructor <;> rfl, rfl, rfl⟩ (by constructor <;> rfl))
  refine .trans ?_ (.onTrade _ _ ⟨by constructor <;> rfl, rfl, rfl⟩ (by constructor <;> rfl))
  refine .trans ?_ (.transition _ _ _)
  exact .onTrade _ _ ⟨by constructor <;> rfl, rfl, rfl⟩ (by constructor <;> rfl)

theorem applyExitFill_frame (io : HandlerIo) (link : OrderLinkId) (data : OrderData) (k : Work) :
    k.Frame (applyExitFill io link data k).2 := by
  simp only [applyExitFill]
  refine .trans (.transition .orderConfirmed exchangeSync k) ?_
  split
  · exact .refl _
  · next exitPrice _ =>
    have hrec := recordExit_frame io.now link exitPrice
      (k.transitionTradeStatus .orderConfirmed exchangeSync)
    have hana := applyTradeOutcomeAnalytics_frame io.now (recordExit io.now link exitPrice
      (k.transitionTradeStatus .orderConfirmed exchangeSync))
    split <;> next h =>
      rw [h] at hana
      exact hrec.trans hana

theorem applyExitFailure_frame (s : TradeStatus) (k : Work) : k.Frame (applyExitFailure s k) :=
  .trans (.trans (.transition _ _ _) (.transition _ _ _)) (.onLedger _ _)

theorem applyOrderUpdate_frame (restClient : Bool) (io : HandlerIo) (data : OrderData) (k : Work) :
    k.Frame (applyOrderUpdate restClient io data k).2 := by
  unfold applyOrderUpdate
  split
  · next link _ _ _ =>
    refine (noteExchangeOrderId_frame link data.orderId k).trans ?_
    dsimp only
    split_ifs
    · exact .refl _
    · exact .refl _
    · exact applyEntryFill_frame restClient io data _
    · exact applyExitFill_frame io link data _
    · exact applyExitFailure_frame _ _
    · exact .transition _ _ _
  · exact .refl k

theorem reconcileTrade_frame (restClient : Bool) (answer : StatusOutcome) (io : HandlerIo)
    (k : Work) : k.Frame (reconcileTrade restClient answer io k).2 := by
  unfold reconcileTrade
  split_ifs
  · exact .refl k
  · split
    · exact .refl k
    · split
      · exact .refl k
      · exact .refl k
      · exact applyOrderUpdate_frame restClient io _ k

theorem recordShadowClose_frame (reason : ExitReason) (now : Timestamp) (k : Work) :
    k.Frame (recordShadowClose reason now k).2 := by
  simp only [recordShadowClose]
  refine .trans ?_ (applyTradeOutcomeAnalytics_frame now _)
  refine .trans ?_ (.transition _ _ _)
  refine .trans ?_ (.onTrade _ _ ⟨by constructor <;> rfl, rfl, rfl⟩ (by constructor <;> rfl))
  refine .trans ?_ (.onTrade _ _ ⟨by constructor <;> rfl, rfl, rfl⟩ (by constructor <;> rfl))
  exact .onTrade _ _ ⟨by constructor <;> rfl, rfl, rfl⟩ (by constructor <;> rfl)

theorem prepareCloseSubmission_frame (reason : ExitReason) (k : Work) :
    k.Frame (k.onTrade (prepareCloseSubmission reason k.nonce)) := by
  refine .onLink _ _ ⟨by constructor <;> rfl, rfl, rfl⟩ ?_
  intro link hl
  rw [Trade.owns_iff] at hl ⊢
  rcases hl with hl | hl | hl | hl
  · exact .inl (.inl hl)
  · obtain rfl : OrderLinkId.close k.nonce = link := Option.some.inj hl
    exact .inr rfl
  · exact .inl (.inr (.inr (.inl hl)))
  · exact .inl (.inr (.inr (.inr hl)))

theorem submitClose_frame (mode : TradingMode) (reason : ExitReason) (io : CloseIo) (k : Work) :
    k.Frame (submitClose mode reason io k).2 := by
  simp only [submitClose]
  refine (prepareCloseSubmission_frame reason k).trans ?_
  refine .trans (.transition .positionClosePending positionManager _) ?_
  split_ifs
  · exact recordShadowClose_frame reason io.now _
  · split
    · exact .placeOrder .close _ _ _ rfl
    · refine .trans ?_ (.onTrade _ _ ⟨by constructor <;> rfl, rfl, rfl⟩ (by constructor <;> rfl))
      exact .placeOrder .close _ _ _ rfl

theorem reconcilePendingUnknown_frame (lookup : StatusOutcome) (k : Work) :
    k.Frame (reconcilePendingUnknown lookup k).2 := by
  unfold reconcilePendingUnknown
  split
  · exact .refl k
  · split
    · exact .refl k
    · exact .refl k
    · exact .refl k
    · exact .refl k
    · next remote =>
      refine .trans ?_ (.transition _ _ _)
      exact .onTrade _ _ ⟨by constructor <;> rfl, rfl, rfl⟩ (by constructor <;> rfl)

end AmaExecutionCore
