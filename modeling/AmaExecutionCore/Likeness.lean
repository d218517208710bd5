import AmaExecutionCore.Effects

/-! What `_apply_order_update` makes of a trade depends neither on its fees and slippage
nor on which fresh ids its new exit orders got. -/
namespace AmaExecutionCore
open TradeStatus

/-- The trade with other fees, another slippage and other exit ids. -/
def Trade.recast (fee slip : Option Rat) (close stop takeProfit : Option OrderLinkId) (t : Trade) :
    Trade :=
  { t with
    feePaid := fee
    slippage := slip
    closeOrderLinkId := close
    stopOrderLinkId := stop
    takeProfitOrderLinkId := takeProfit }

/-- Which order of the one run is which of the other. -/
abbrev Renaming := OrderLinkId → OrderLinkId → Prop

/-- Both columns name the same order, as far as it is a known one. -/
def SameKnown (R : Renaming) (a b : Option OrderLinkId) : Prop :=
  ∀ x y, R x y → (b = some y ↔ a = some x)

/-- The trades differ in fees, slippage and exit ids alone, and the known orders have the
same role in both. -/
structure Trade.Alike (R : Renaming) (t s : Trade) : Prop where
  recast : ∃ fee slip close stop takeProfit, s = t.recast fee slip close stop takeProfit
  close : SameKnown R t.closeOrderLinkId s.closeOrderLinkId
  stop : SameKnown R t.stopOrderLinkId s.stopOrderLinkId
  takeProfit : SameKnown R t.takeProfitOrderLinkId s.takeProfitOrderLinkId
  armed : s.stopOrderLinkId = none ↔ t.stopOrderLinkId = none
  aimed : s.takeProfitOrderLinkId = none ↔ t.takeProfitOrderLinkId = none

/-- The function neither reads nor writes fees, slippage and exit ids. -/
def Recasts (f : Trade → Trade) : Prop :=
  ∀ fee slip close stop takeProfit t,
    f (t.recast fee slip close stop takeProfit) = (f t).recast fee slip close stop takeProfit

theorem SameKnown.new {R : Renaming} {a b : OrderLinkId} (h : ∀ x y, R x y → (y = b ↔ x = a)) :
    SameKnown R (some a) (some b) := by
  intro x y hr
  rw [Option.some.injEq, Option.some.injEq, eq_comm, h x y hr, eq_comm]

namespace Trade.Alike

variable {R : Renaming} {t s : Trade}

theorem exits_of_recasts {f : Trade → Trade} (hf : Recasts f) (t : Trade) :
    (f t).closeOrderLinkId = t.closeOrderLinkId ∧ (f t).stopOrderLinkId = t.stopOrderLinkId ∧
      (f t).takeProfitOrderLinkId = t.takeProfitOrderLinkId := by
  have h : f t = (f t).recast t.feePaid t.slippage t.closeOrderLinkId t.stopOrderLinkId
      t.takeProfitOrderLinkId := hf _ _ _ _ _ t
  rw [h]
  exact ⟨rfl, rfl, rfl⟩

theorem map {f : Trade → Trade} (hf : Recasts f) (h : t.Alike R s) : (f t).Alike R (f s) := by
  obtain ⟨hc, hst, htp⟩ := exits_of_recasts hf t
  obtain ⟨hc', hst', htp'⟩ := exits_of_recasts hf s
  refine ⟨?_, by rw [hc, hc']; exact h.close, by rw [hst, hst']; exact h.stop,
    by rw [htp, htp']; exact h.takeProfit, by rw [hst, hst']; exact h.armed,
    by rw [htp, htp']; exact h.aimed⟩
  obtain ⟨fee, slip, close, stop, takeProfit, rfl⟩ := h.recast
  exact ⟨fee, slip, close, stop, takeProfit, hf fee slip close stop takeProfit t⟩

theorem isProtectiveClose (h : t.Alike R s) {x y : OrderLinkId} (hr : R x y) :
    s.isProtectiveClose y = t.isProtectiveClose x := by
  simp only [Trade.isProtectiveClose, h.close x y hr, h.stop x y hr, h.takeProfit x y hr]

theorem ownsOrderLinkId (h : t.Alike R s) (hentry : SameKnown R t.orderLinkId t.orderLinkId)
    {x y : OrderLinkId} (hr : R x y) : s.ownsOrderLinkId y = t.ownsOrderLinkId x := by
  have hsame : s.orderLinkId = t.orderLinkId := by
    obtain ⟨fee, slip, close, stop, takeProfit, rfl⟩ := h.recast
    rfl
  simp only [Trade.ownsOrderLinkId, hsame, hentry x y hr, h.close x y hr, h.stop x y hr,
    h.takeProfit x y hr]

theorem noteExchangeOrderId (h : t.Alike R s) {x y : OrderLinkId} (hr : R x y)
    (orderId : Option String) :
    (t.noteExchangeOrderId x orderId).Alike R (s.noteExchangeOrderId y orderId) := by
  cases orderId with
  | none => exact h
  | some orderId =>
    simp only [Trade.noteExchangeOrderId, h.close x y hr, h.stop x y hr, h.takeProfit x y hr]
    split_ifs
    · exact h.map (f := fun t => { t with closeExchangeOrderId := some orderId }) fun _ _ _ _ _ _ => rfl
    · exact h.map (f := fun t => { t with stopExchangeOrderId := some orderId }) fun _ _ _ _ _ _ => rfl
    · exact h.map (f := fun t => { t with takeProfitExchangeOrderId := some orderId })
        fun _ _ _ _ _ _ => rfl
    · exact h.map (f := fun t => { t with exchangeOrderId := some orderId }) fun _ _ _ _ _ _ => rfl

theorem withStatus (h : t.Alike R s) (status : TradeStatus) :
    { t with status := status }.Alike R { s with status := status } :=
  h.map (f := fun t => { t with status := status }) fun _ _ _ _ _ _ => rfl

theorem noteEmergencyClose (h : t.Alike R s) {a b : OrderLinkId}
    (hnew : ∀ x y, R x y → (y = b ↔ x = a)) :
    (t.noteEmergencyClose a).Alike R (s.noteEmergencyClose b) := by
  refine ⟨?_, .new hnew, h.stop, h.takeProfit, h.armed, h.aimed⟩
  obtain ⟨fee, slip, close, stop, takeProfit, rfl⟩ := h.recast
  exact ⟨fee, slip, some b, stop, takeProfit, rfl⟩

theorem noteStopOrder (h : t.Alike R s) {a b : OrderLinkId}
    (hnew : ∀ x y, R x y → (y = b ↔ x = a)) (orderId : Option String) :
    (t.noteStopOrder a orderId).Alike R (s.noteStopOrder b orderId) := by
  refine ⟨?_, h.close, .new hnew, h.takeProfit, by simp [Trade.noteStopOrder], h.aimed⟩
  obtain ⟨fee, slip, close, stop, takeProfit, rfl⟩ := h.recast
  exact ⟨fee, slip, close, some b, takeProfit, rfl⟩

theorem noteTakeProfitOrder (h : t.Alike R s) {a b : OrderLinkId}
    (hnew : ∀ x y, R x y → (y = b ↔ x = a)) (orderId : Option String) :
    (t.noteTakeProfitOrder a orderId).Alike R (s.noteTakeProfitOrder b orderId) := by
  refine ⟨?_, h.close, h.stop, .new hnew, h.armed, by simp [Trade.noteTakeProfitOrder]⟩
  obtain ⟨fee, slip, close, stop, takeProfit, rfl⟩ := h.recast
  exact ⟨fee, slip, close, stop, some b, rfl⟩

theorem noteExit (h : t.Alike R s) {x y : OrderLinkId} (hr : R x y) (now : Timestamp) :
    (t.noteExit x now).Alike R (s.noteExit y now) := by
  have hreason : s.resolveExitReason y = t.resolveExitReason x := by
    have hold : s.exitReason = t.exitReason := by
      obtain ⟨fee, slip, close, stop, takeProfit, rfl⟩ := h.recast
      rfl
    simp only [Trade.resolveExitReason, h.stop x y hr, h.takeProfit x y hr, hold]
  unfold Trade.noteExit
  rw [hreason]
  generalize t.resolveExitReason x = reason
  exact h.map (f := fun t => { t with
    closedAt := some now, holdTimeSeconds := t.holdTime now, exitReason := reason })
    fun _ _ _ _ _ _ => rfl

end Trade.Alike

/-- The ids made from the two numbers correspond to each other. -/
structure SameDraws (R : Renaming) (n m : Nat) : Prop where
  stop : ∀ x y, R x y → (y = .stop m ↔ x = .stop n)
  takeProfit : ∀ x y, R x y → (y = .tp m ↔ x = .tp n)
  emergency : ∀ signal x y, R x y →
    (y = .generated signal (2 * m) ↔ x = .generated signal (2 * n))

/-- Two sessions on alike trades that draw corresponding ids. -/
structure Work.Alike (R : Renaming) (k l : Work) : Prop where
  trade : k.trade.Alike R l.trade
  draws : SameDraws R k.nonce l.nonce

/-- Two calls with the same result on alike sessions. -/
structure Outcome.Alike {α : Type} (R : Renaming) (r r' : Outcome Work α) : Prop where
  result : r'.1 = r.1
  work : r.2.Alike R r'.2

namespace Work.Alike

variable {R : Renaming} {k l : Work}

theorem status (h : k.Alike R l) : l.trade.status = k.trade.status := by
  obtain ⟨fee, slip, close, stop, takeProfit, heq⟩ := h.trade.recast
  rw [heq]
  rfl

theorem onTrade {f g : Trade → Trade} (h : k.Alike R l) (hf : (f k.trade).Alike R (g l.trade)) :
    (k.onTrade f).Alike R (l.onTrade g) := ⟨hf, h.draws⟩

theorem map {f : Trade → Trade} (hf : Recasts f) (h : k.Alike R l) :
    (k.onTrade f).Alike R (l.onTrade f) := h.onTrade (h.trade.map hf)

theorem onLedger (h : k.Alike R l) (f g : Ledger → Ledger) :
    (k.onLedger f).Alike R (l.onLedger g) := ⟨h.trade, h.draws⟩

theorem placeOrder (h : k.Alike R l) (r : OrderRole) (q q' : OrderRequest) (o : PlaceOutcome) :
    (k.placeOrder r q o).Alike R (l.placeOrder r q' o) := ⟨h.trade, h.draws⟩

theorem transition (h : k.Alike R l) (s : TradeStatus) (m : List (String × String)) :
    (k.transitionTradeStatus s m).Alike R (l.transitionTradeStatus s m) := by
  refine ⟨?_, by simpa using h.draws⟩
  rw [Work.transition_trade, Work.transition_trade]
  exact h.trade.withStatus s

theorem submitEmergencyClose (h : k.Alike R l) (io : HandlerIo) :
    (submitEmergencyClose io k).Alike R (submitEmergencyClose io l) := by
  have hsignal : l.trade.signalId = k.trade.signalId := by
    obtain ⟨fee, slip, close, stop, takeProfit, heq⟩ := h.trade.recast
    rw [heq]
    rfl
  have hnew : (k.onTrade (Trade.noteEmergencyClose
      (.generated k.trade.signalId (2 * k.nonce)))).Alike R (l.onTrade (Trade.noteEmergencyClose
      (.generated l.trade.signalId (2 * l.nonce)))) := by
    rw [hsignal]
    exact h.onTrade (h.trade.noteEmergencyClose (h.draws.emergency _))
  simp only [AmaExecutionCore.submitEmergencyClose]
  split
  · exact ((hnew.placeOrder _ _ _ _).onLedger _ _).transition _ _
  · next orderId _ =>
    exact ((hnew.placeOrder _ _ _ _).map (f := Trade.noteCloseExchangeId orderId)
      fun _ _ _ _ _ _ => rfl).transition _ _

theorem handleStopLossSubmissionFailure (h : k.Alike R l) (restClient : Bool) (io : HandlerIo) :
    (handleStopLossSubmissionFailure restClient io k).Alike R
      (handleStopLossSubmissionFailure restClient io l) := by
  simp only [AmaExecutionCore.handleStopLossSubmissionFailure]
  split
  · exact ((h.onLedger _ _).onLedger _ _).submitEmergencyClose io
  · exact ((h.onLedger _ _).onLedger _ _).transition _ _

theorem armStopLoss (h : k.Alike R l) (restClient : Bool) (io : HandlerIo) (qty stopPrice : Rat) :
    (armStopLoss restClient io qty stopPrice l).1 = (armStopLoss restClient io qty stopPrice k).1 ∧
      (armStopLoss restClient io qty stopPrice k).2.Alike R
        (armStopLoss restClient io qty stopPrice l).2 := by
  simp only [AmaExecutionCore.armStopLoss]
  cases hstop : k.trade.stopOrderLinkId with
  | some link =>
    obtain ⟨link', hstop'⟩ := Option.ne_none_iff_exists'.mp
      (mt h.trade.armed.mp (by simp [hstop]))
    simp only [hstop']
    exact ⟨trivial, h⟩
  | none =>
    simp only [h.trade.armed.mpr hstop]
    split
    · exact ⟨rfl, (h.placeOrder _ _ _ _).handleStopLossSubmissionFailure restClient io⟩
    · exact ⟨rfl, (h.placeOrder _ _ _ _).onTrade (h.trade.noteStopOrder h.draws.stop _)⟩

theorem armTakeProfit (h : k.Alike R l) (io : HandlerIo) (qty : Rat) :
    (armTakeProfit io qty k).Alike R (armTakeProfit io qty l) := by
  have htarget : l.trade.targetPrice = k.trade.targetPrice := by
    obtain ⟨fee, slip, close, stop, takeProfit, heq⟩ := h.trade.recast
    rw [heq]
    rfl
  simp only [AmaExecutionCore.armTakeProfit, htarget]
  cases hprice : k.trade.targetPrice with
  | none => exact h
  | some targetPrice =>
    cases htp : k.trade.takeProfitOrderLinkId with
    | some link =>
      obtain ⟨link', htp'⟩ := Option.ne_none_iff_exists'.mp
        (mt h.trade.aimed.mp (by simp [htp]))
      simp only [htp']
      exact h
    | none =>
      simp only [h.trade.aimed.mpr htp]
      split
      · exact (h.placeOrder _ _ _ _).onLedger _ _
      · exact (h.placeOrder _ _ _ _).onTrade (h.trade.noteTakeProfitOrder h.draws.takeProfit _)

theorem ensureSpotMarketProtection (h : k.Alike R l) (restClient : Bool) (io : HandlerIo) :
    (ensureSpotMarketProtection restClient io l).1 =
        (ensureSpotMarketProtection restClient io k).1 ∧
      (ensureSpotMarketProtection restClient io k).2.Alike R
        (ensureSpotMarketProtection restClient io l).2 := by
  have hterms : l.trade.marketType = k.trade.marketType ∧ l.trade.orderType = k.trade.orderType ∧
      l.trade.filledQty = k.trade.filledQty ∧ l.trade.qty = k.trade.qty ∧
      l.trade.stopPrice = k.trade.stopPrice := by
    obtain ⟨fee, slip, close, stop, takeProfit, heq⟩ := h.trade.recast
    rw [heq]
    exact ⟨rfl, rfl, rfl, rfl, rfl⟩
  obtain ⟨hmarket, htype, hfilled, hqty, hstop⟩ := hterms
  simp only [AmaExecutionCore.ensureSpotMarketProtection, hmarket, htype, hfilled, hqty, hstop]
  split_ifs
  · exact ⟨rfl, h⟩
  · exact ⟨rfl, h⟩
  · split
    · next qty stopPrice _ _ =>
      split_ifs
      · exact ⟨rfl, h⟩
      · obtain ⟨hb, hw⟩ := h.armStopLoss restClient io qty stopPrice
        match hk : AmaExecutionCore.armStopLoss restClient io qty stopPrice k,
          hl : AmaExecutionCore.armStopLoss restClient io qty stopPrice l with
        | (b, k'), (b', l') =>
          rw [hk, hl] at hb hw
          obtain rfl : b' = b := hb
          cases b' with
          | false => exact ⟨rfl, hw⟩
          | true => exact ⟨rfl, Work.Alike.armTakeProfit hw io qty⟩
    · exact ⟨rfl, h⟩

theorem confirmEntryFill (h : k.Alike R l) (now : Timestamp) (avg cum : Option Rat) :
    (confirmEntryFill now avg cum k).Alike R (confirmEntryFill now avg cum l) := by
  simp only [AmaExecutionCore.confirmEntryFill]
  have hnoted := (h.map (f := Trade.noteFillPrice avg) fun _ _ _ _ _ _ => rfl).map
    (f := Trade.noteFilledQty cum) fun _ _ _ _ _ _ => rfl
  exact (hnoted.transition _ _).map (f := fun t => { t with openedAt := some now })
    fun _ _ _ _ _ _ => rfl

theorem applyEntryFill (h : k.Alike R l) (restClient : Bool) (io : HandlerIo) (data : OrderData) :
    Outcome.Alike R (applyEntryFill restClient io data k) (applyEntryFill restClient io data l) := by
  unfold AmaExecutionCore.applyEntryFill
  split
  · exact ⟨rfl, h⟩
  · next avg _ =>
    split
    · exact ⟨rfl, h.map (f := Trade.noteFillPrice avg) fun _ _ _ _ _ _ => rfl⟩
    · next cum _ =>
      have hconf := h.confirmEntryFill io.now avg cum
      dsimp only
      refine ⟨rfl, Work.Alike.map (f := Trade.storeFilledQty cum) (fun _ _ _ _ _ _ => rfl) ?_⟩
      split_ifs
      · obtain ⟨hb, hw⟩ := hconf.ensureSpotMarketProtection restClient io
        match hk : AmaExecutionCore.ensureSpotMarketProtection restClient io
            (AmaExecutionCore.confirmEntryFill io.now avg cum k),
          hl : AmaExecutionCore.ensureSpotMarketProtection restClient io
            (AmaExecutionCore.confirmEntryFill io.now avg cum l) with
        | (b, k'), (b', l') =>
          rw [hk, hl] at hb hw
          obtain rfl : b' = b := hb
          cases b' with
          | false => exact hw
          | true => exact Work.Alike.transition hw _ _
      · exact hconf

theorem applyTradeOutcomeAnalytics (h : k.Alike R l) (now : Timestamp) :
    Outcome.Alike R (k.applyTradeOutcomeAnalytics now) (l.applyTradeOutcomeAnalytics now) := by
  have hpnl : l.trade.realizedPnl = k.trade.realizedPnl := by
    obtain ⟨fee, slip, close, stop, takeProfit, heq⟩ := h.trade.recast
    rw [heq]
    rfl
  unfold Work.applyTradeOutcomeAnalytics
  rw [hpnl]
  split
  · exact ⟨rfl, h⟩
  · exact ⟨rfl, h.onLedger _ _⟩

theorem recordExit (h : k.Alike R l) (now : Timestamp) {x y : OrderLinkId} (hr : R x y)
    (exitPrice : Rat) : (recordExit now x exitPrice k).Alike R (recordExit now y exitPrice l) := by
  have hclosed := (h.map (f := fun t => { t with avgExitPrice := some exitPrice })
    fun _ _ _ _ _ _ => rfl).transition .positionClosed exchangeSync
  have hexit := hclosed.onTrade (hclosed.trade.noteExit hr now)
  exact (hexit.map (f := Trade.recordPnl exitPrice) fun _ _ _ _ _ _ => rfl).transition _ _

theorem applyExitFill (h : k.Alike R l) (io : HandlerIo) {x y : OrderLinkId} (hr : R x y)
    (data : OrderData) : Outcome.Alike R (applyExitFill io x data k) (applyExitFill io y data l) := by
  have hconf := h.transition .orderConfirmed exchangeSync
  simp only [AmaExecutionCore.applyExitFill]
  split
  · exact ⟨rfl, hconf⟩
  · next exitPrice _ =>
    obtain ⟨hb, hw⟩ := (hconf.recordExit io.now hr exitPrice).applyTradeOutcomeAnalytics io.now
    rcases hk : (AmaExecutionCore.recordExit io.now x exitPrice (k.transitionTradeStatus
      .orderConfirmed exchangeSync)).applyTradeOutcomeAnalytics io.now with ⟨b, k'⟩
    rcases hl : (AmaExecutionCore.recordExit io.now y exitPrice (l.transitionTradeStatus
      .orderConfirmed exchangeSync)).applyTradeOutcomeAnalytics io.now with ⟨b', l'⟩
    rw [hk, hl] at hb hw
    obtain rfl : b' = b := hb
    cases b' with
    | error e => exact ⟨rfl, hw⟩
    | ok u => exact ⟨rfl, hw⟩

theorem applyExitFailure (h : k.Alike R l) (s : TradeStatus) :
    (applyExitFailure s k).Alike R (applyExitFailure s l) :=
  ((h.transition _ _).transition _ _).onLedger _ _

theorem applyOrderUpdate (h : k.Alike R l) (restClient : Bool) (io : HandlerIo) (data : OrderData)
    {x y : OrderLinkId} (hr : R x y) :
    Outcome.Alike R (applyOrderUpdate restClient io { data with orderLinkId := some x } k)
      (applyOrderUpdate restClient io { data with orderLinkId := some y } l) := by
  have hnote := h.onTrade (h.trade.noteExchangeOrderId hr data.orderId)
  have hrole := h.trade.isProtectiveClose hr
  have hst := hnote.status
  unfold AmaExecutionCore.applyOrderUpdate
  dsimp only
  cases orderStatusMap data.orderStatus with
  | none => exact ⟨rfl, h⟩
  | some newStatus =>
    dsimp only
    rw [hrole, shouldIgnoreEntryUpdate_congr hst, shouldIgnoreCloseUpdate,
      shouldIgnoreCloseUpdate, hst]
    split_ifs
    · exact ⟨rfl, hnote⟩
    · exact ⟨rfl, hnote⟩
    · exact hnote.applyEntryFill restClient io data
    · exact hnote.applyExitFill io hr data
    · exact ⟨rfl, hnote.applyExitFailure _⟩
    · exact ⟨rfl, hnote.transition _ _⟩

end Work.Alike
end AmaExecutionCore
