import AmaExecutionCore.Effects

/-! What a handler does to its trade and the trade's events depends on the trade alone:
neither on the shared rows nor on the orders sent so far. -/
namespace AmaExecutionCore
open TradeStatus

/-- Two sessions on the same trade, over different shared rows and exchanges. -/
structure Work.Twin (k l : Work) : Prop where
  trade : l.trade = k.trade
  events : l.events = k.events
  nonce : l.nonce = k.nonce

/-- Two calls with the same result on twin sessions. -/
structure Outcome.Twin {α : Type} (r r' : Outcome Work α) : Prop where
  result : r'.1 = r.1
  work : r.2.Twin r'.2

namespace Work.Twin

variable {k l : Work}

theorem refl (k : Work) : k.Twin k := ⟨rfl, rfl, rfl⟩

theorem onTrade (h : k.Twin l) (f : Trade → Trade) : (k.onTrade f).Twin (l.onTrade f) :=
  ⟨congrArg f h.trade, h.events, h.nonce⟩

theorem onLedger (h : k.Twin l) (f g : Ledger → Ledger) : (k.onLedger f).Twin (l.onLedger g) :=
  ⟨h.trade, h.events, h.nonce⟩

theorem placeOrder (h : k.Twin l) (r : OrderRole) (q q' : OrderRequest) (o : PlaceOutcome) :
    (k.placeOrder r q o).Twin (l.placeOrder r q' o) := ⟨h.trade, h.events, h.nonce⟩

theorem transition (h : k.Twin l) (s : TradeStatus) (m : List (String × String)) :
    (k.transitionTradeStatus s m).Twin (l.transitionTradeStatus s m) := by
  unfold Work.transitionTradeStatus
  rw [h.trade]
  split_ifs
  · exact h
  · refine ⟨?_, ?_, h.nonce⟩
    · simp [Work.appendTradeEvent, Work.onTrade, h.trade]
    · simp [Work.appendTradeEvent, Work.onTrade, h.trade, h.events]

theorem submitEmergencyClose (h : k.Twin l) (io : HandlerIo) :
    (submitEmergencyClose io k).Twin (submitEmergencyClose io l) := by
  simp only [AmaExecutionCore.submitEmergencyClose, h.trade, h.nonce]
  have hsent := (h.onTrade (Trade.noteEmergencyClose
    (.generated k.trade.signalId (2 * k.nonce)))).placeOrder .emergencyClose
  split
  · exact ((hsent _ _ _).onLedger _ _).transition _ _
  · exact ((hsent _ _ _).onTrade _).transition _ _

theorem handleStopLossSubmissionFailure (h : k.Twin l) (restClient : Bool) (io : HandlerIo) :
    (handleStopLossSubmissionFailure restClient io k).Twin
      (handleStopLossSubmissionFailure restClient io l) := by
  simp only [AmaExecutionCore.handleStopLossSubmissionFailure]
  split
  · exact ((h.onLedger _ _).onLedger _ _).submitEmergencyClose io
  · exact ((h.onLedger _ _).onLedger _ _).transition _ _

theorem armStopLoss (h : k.Twin l) (restClient : Bool) (io : HandlerIo) (qty stopPrice : Rat) :
    (armStopLoss restClient io qty stopPrice l).1 = (armStopLoss restClient io qty stopPrice k).1 ∧
      (armStopLoss restClient io qty stopPrice k).2.Twin
        (armStopLoss restClient io qty stopPrice l).2 := by
  simp only [AmaExecutionCore.armStopLoss, h.trade, h.nonce]
  split
  · exact ⟨rfl, h⟩
  · split
    · exact ⟨rfl, (h.placeOrder _ _ _ _).handleStopLossSubmissionFailure restClient io⟩
    · exact ⟨rfl, (h.placeOrder _ _ _ _).onTrade _⟩

theorem armTakeProfit (h : k.Twin l) (io : HandlerIo) (qty : Rat) :
    (armTakeProfit io qty k).Twin (armTakeProfit io qty l) := by
  simp only [AmaExecutionCore.armTakeProfit, h.trade, h.nonce]
  split
  · split
    · exact (h.placeOrder _ _ _ _).onLedger _ _
    · exact (h.placeOrder _ _ _ _).onTrade _
  · exact h

theorem ensureSpotMarketProtection (h : k.Twin l) (restClient : Bool) (io : HandlerIo) :
    (ensureSpotMarketProtection restClient io l).1 =
        (ensureSpotMarketProtection restClient io k).1 ∧
      (ensureSpotMarketProtection restClient io k).2.Twin
        (ensureSpotMarketProtection restClient io l).2 := by
  simp only [AmaExecutionCore.ensureSpotMarketProtection, h.trade]
  split_ifs
  · exact ⟨rfl, h⟩
  · exact ⟨rfl, h⟩
  · split
    · next qty stopPrice _ _ =>
      split_ifs
      · exact ⟨rfl, h⟩
      · obtain ⟨hb, hw⟩ := h.armStopLoss restClient io qty stopPrice
        match hk : AmaExecutionCore.armStopLoss restClient io qty stopPrice k,
          hl : AmaExecutionCore.armStopLoss restClient io qty stopPrice l with
        | (b, k'), (b', l') =>
          rw [hk, hl] at hb hw
          obtain rfl : b' = b := hb
          cases b' with
          | false => exact ⟨rfl, hw⟩
          | true => exact ⟨rfl, Work.Twin.armTakeProfit hw io qty⟩
    · exact ⟨rfl, h⟩

theorem confirmEntryFill (h : k.Twin l) (now : Timestamp) (avg cum : Option Rat) :
    (confirmEntryFill now avg cum k).Twin (confirmEntryFill now avg cum l) := by
  simp only [AmaExecutionCore.confirmEntryFill]
  exact (((h.onTrade _).onTrade _).transition _ _).onTrade _

theorem applyEntryFill (h : k.Twin l) (restClient : Bool) (io : HandlerIo) (data : OrderData) :
    Outcome.Twin (applyEntryFill restClient io data k) (applyEntryFill restClient io data l) := by
  unfold AmaExecutionCore.applyEntryFill
  split
  · exact ⟨rfl, h⟩
  · next avg _ =>
    split
    · exact ⟨rfl, h.onTrade _⟩
    · next cum _ =>
      have hconf := h.confirmEntryFill io.now avg cum
      dsimp only
      refine ⟨rfl, Work.Twin.onTrade ?_ _⟩
      split_ifs
      · obtain ⟨hb, hw⟩ := hconf.ensureSpotMarketProtection restClient io
        match hk : AmaExecutionCore.ensureSpotMarketProtection restClient io
            (AmaExecutionCore.confirmEntryFill io.now avg cum k),
          hl : AmaExecutionCore.ensureSpotMarketProtection restClient io
            (AmaExecutionCore.confirmEntryFill io.now avg cum l) with
        | (b, k'), (b', l') =>
          rw [hk, hl] at hb hw
          obtain rfl : b' = b := hb
          cases b' with
          | false => exact hw
          | true => exact Work.Twin.transition hw _ _
      · exact hconf

theorem applyTradeOutcomeAnalytics (h : k.Twin l) (now : Timestamp) :
    Outcome.Twin (k.applyTradeOutcomeAnalytics now) (l.applyTradeOutcomeAnalytics now) := by
  unfold Work.applyTradeOutcomeAnalytics
  rw [h.trade]
  split
  · exact ⟨rfl, h⟩
  · exact ⟨rfl, h.onLedger _ _⟩

theorem recordExit (h : k.Twin l) (now : Timestamp) (link : OrderLinkId) (exitPrice : Rat) :
    (recordExit now link exitPrice k).Twin (recordExit now link exitPrice l) :=
  ((((h.onTrade _).transition _ _).onTrade _).onTrade _).transition _ _

theorem applyExitFill (h : k.Twin l) (io : HandlerIo) (link : OrderLinkId) (data : OrderData) :
    Outcome.Twin (applyExitFill io link data k) (applyExitFill io link data l) := by
  have hconf := h.transition .orderConfirmed exchangeSync
  simp only [AmaExecutionCore.applyExitFill]
  split
  · exact ⟨rfl, hconf⟩
  · next exitPrice _ =>
    obtain ⟨hb, hw⟩ := (hconf.recordExit io.now link exitPrice).applyTradeOutcomeAnalytics io.now
    rcases hk : (AmaExecutionCore.recordExit io.now link exitPrice (k.transitionTradeStatus
      .orderConfirmed exchangeSync)).applyTradeOutcomeAnalytics io.now with ⟨b, k'⟩
    rcases hl : (AmaExecutionCore.recordExit io.now link exitPrice (l.transitionTradeStatus
      .orderConfirmed exchangeSync)).applyTradeOutcomeAnalytics io.now with ⟨b', l'⟩
    rw [hk, hl] at hb hw
    obtain rfl : b' = b := hb
    cases b' with
    | error e => exact ⟨rfl, hw⟩
    | ok u => exact ⟨rfl, hw⟩

theorem applyExitFailure (h : k.Twin l) (s : TradeStatus) :
    (applyExitFailure s k).Twin (applyExitFailure s l) :=
  ((h.transition _ _).transition _ _).onLedger _ _

theorem applyOrderUpdate (h : k.Twin l) (restClient : Bool) (io : HandlerIo) (data : OrderData) :
    Outcome.Twin (applyOrderUpdate restClient io data k) (applyOrderUpdate restClient io data l) := by
  unfold AmaExecutionCore.applyOrderUpdate
  rw [h.trade]
  split
  · next link _ _ _ =>
    have hnote := h.onTrade (Trade.noteExchangeOrderId link data.orderId)
    dsimp only
    rw [hnote.trade]
    split_ifs
    · exact ⟨rfl, hnote⟩
    · exact ⟨rfl, hnote⟩
    · exact hnote.applyEntryFill restClient io data
    · exact hnote.applyExitFill io link data
    · exact ⟨rfl, hnote.applyExitFailure _⟩
    · exact ⟨rfl, hnote.transition _ _⟩
  · exact ⟨rfl, h⟩

theorem reconcileTrade (h : k.Twin l) (restClient : Bool) (answer : StatusOutcome)
    (io : HandlerIo) : Outcome.Twin (reconcileTrade restClient answer io k)
      (reconcileTrade restClient answer io l) := by
  unfold AmaExecutionCore.reconcileTrade
  rw [h.trade]
  split_ifs
  · exact ⟨rfl, h⟩
  · split
    · exact ⟨rfl, h⟩
    · split
      · exact ⟨rfl, h⟩
      · exact ⟨rfl, h⟩
      · exact h.applyOrderUpdate restClient io _

end Work.Twin
end AmaExecutionCore
