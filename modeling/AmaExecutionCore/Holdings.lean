import AmaExecutionCore.Entries
import AmaExecutionCore.Passes

/-! What the exchange reported as bought for a trade, and what `close_trade` then sells. -/
namespace AmaExecutionCore
open TradeStatus

/-- The events of one entry order: partial fills, then possibly its end. A complete fill
says how much was bought. -/
structure EntryHistory (link : OrderLinkId) where
  partials : List (OrderData × HandlerIo)
  last : Option (OrderData × HandlerIo)
  partly : ∀ u ∈ partials, u.1.orderStatus = .partiallyFilled
  ended : ∀ u ∈ last, u.1.orderStatus = .filled ∨ u.1.orderStatus = .cancelled
  named : ∀ u ∈ partials ++ last.toList, u.1.orderLinkId = some link
  filled : ∀ u ∈ last, u.1.orderStatus = .filled → ∃ q, 0 < q ∧ u.1.cumExecQty = some (.decimal q)

namespace EntryHistory
variable {link : OrderLinkId}

def steps (h : EntryHistory link) : List Step :=
  (h.partials ++ h.last.toList).map fun u => .processOrder u.1 u.2

def largest (h : EntryHistory link) : Rat :=
  ((h.partials ++ h.last.toList).filterMap fun u => u.1.cumQty).foldr max 0

/-- No event that ended the order was applied: there is none, or its price is malformed. -/
def unended (h : EntryHistory link) : Prop :=
  ∀ u ∈ h.last, u.1.orderStatus = .filled ∧ u.1.avgPrice = some .malformed

end EntryHistory

def closeSteps (id : TradeId) (closes : List (ExitReason × CloseIo)) : List Step :=
  closes.map fun c => .closeTrade id c.1 c.2

/-- After the events of its entry order, each close of the trade sells at most the largest
executed quantity they reported. -/
def ClosesCovered (env : Env) (w : World) {link : OrderLinkId} (h : EntryHistory link)
    (id : TradeId) (closes : List (ExitReason × CloseIo)) : Prop :=
  ∀ o ∈ (Runs.run (step env) (Runs.run (step env) w h.steps) (closeSteps id closes)).exchange.orders.drop
    (Runs.run (step env) w h.steps).exchange.orders.length, o.request.qty ≤ h.largest

instance (env : Env) (w : World) {link : OrderLinkId} (h : EntryHistory link) (id : TradeId)
    (closes : List (ExitReason × CloseIo)) : Decidable (ClosesCovered env w h id closes) :=
  inferInstanceAs (Decidable (∀ o ∈ (Runs.run (step env) (Runs.run (step env) w h.steps)
    (closeSteps id closes)).exchange.orders.drop
      (Runs.run (step env) w h.steps).exchange.orders.length, o.request.qty ≤ h.largest))

def Trade.sellQty (t : Trade) : Rat := (pyOr t.filledQty t.qty).getD 0

/-- Calls of `close_trade` from the row `t` on: the row they leave, and what they sent. -/
structure Sold (env : Env) (w w' : World) (t t' : Trade) (sent : List SentOrder) : Prop where
  wellFormed : w'.WellFormed
  mem : t' ∈ w'.db.trades
  id : t'.id = t.id
  sellQty : t'.sellQty = t.sellQty
  orders : w'.exchange.orders = w.exchange.orders ++ sent
  qty : ∀ o ∈ sent, o.request.qty = t.sellQty
  shadow : env.settings.tradingMode = .shadow → sent = []

theorem Sold.refl {env : Env} {w : World} {t : Trade} (hw : w.WellFormed) (ht : t ∈ w.db.trades) :
    Sold env w w t t [] :=
  ⟨hw, ht, rfl, rfl, (List.append_nil _).symm, by simp, fun _ => rfl⟩

theorem Sold.trans {env : Env} {w w₁ w' : World} {t t₁ t' : Trade} {sent sent' : List SentOrder}
    (h : Sold env w w₁ t t₁ sent) (h' : Sold env w₁ w' t₁ t' sent') :
    Sold env w w' t t' (sent ++ sent') where
  wellFormed := h'.wellFormed
  mem := h'.mem
  id := h'.id.trans h.id
  sellQty := h'.sellQty.trans h.sellQty
  orders := by rw [h'.orders, h.orders, List.append_assoc]
  qty := by
    intro o ho
    obtain ho | ho := List.mem_append.mp ho
    · exact h.qty o ho
    · exact (h'.qty o ho).trans h.sellQty
  shadow hmode := by rw [h.shadow hmode, h'.shadow hmode, List.append_nil]

theorem submitClose_shadow (reason : ExitReason) (io : CloseIo) (k : Work) :
    (submitClose .shadow reason io k).2.exchange.orders = k.exchange.orders := by
  simp [submitClose, recordShadowClose, Work.applyTradeOutcomeAnalytics, Trade.recordPnl]

theorem submitClose_sellQty (mode : TradingMode) (reason : ExitReason) (io : CloseIo) (k : Work) :
    (submitClose mode reason io k).2.trade.sellQty = k.trade.sellQty := by
  rw [Trade.sellQty, submitClose_filledQty, (submitClose_frame mode reason io k).entry.qty,
    Trade.sellQty]

theorem submitClose_orders {mode : TradingMode} (hmode : mode ≠ .shadow) (reason : ExitReason)
    (io : CloseIo) (k : Work) : (submitClose mode reason io k).2.exchange.orders =
      k.exchange.orders ++ [closeOrder io k] := by
  have hcl := submitClose_closing mode reason io k
  generalize submitClose mode reason io k = r at hcl
  cases hcl with
  | shadow h => exact absurd h hmode
  | sent _ h => exact h.orders
  | lost _ h => exact h.orders

theorem closeTrade_sold {env : Env} {w : World} {t : Trade} (hw : w.WellFormed)
    (ht : t ∈ w.db.trades) (hst : t.status ∈ closeRetryableStatuses) (reason : ExitReason)
    (io : CloseIo) : ∃ t' sent, Sold env w (step env w (.closeTrade t.id reason io)) t t' sent ∧
      (env.settings.tradingMode ≠ .shadow → sent ≠ []) := by
  have hframe := submitClose_frame env.settings.tradingMode reason io (w.work t)
  have hsell := submitClose_sellQty env.settings.tradingMode reason io (w.work t)
  have hwell := (step_effect env (.closeTrade t.id reason io) hw).2
  obtain ⟨sent, hsent, hqty, hshadow, hne⟩ : ∃ sent : List SentOrder,
      (submitClose env.settings.tradingMode reason io (w.work t)).2.exchange.orders =
        w.exchange.orders ++ sent ∧ (∀ o ∈ sent, o.request.qty = t.sellQty) ∧
        (env.settings.tradingMode = .shadow → sent = []) ∧
        (env.settings.tradingMode ≠ .shadow → sent ≠ []) := by
    by_cases hmode : env.settings.tradingMode = .shadow
    · rw [hmode]
      exact ⟨[], by rw [submitClose_shadow, List.append_nil]; rfl, by simp, fun _ => rfl, by simp⟩
    · refine ⟨[closeOrder io (w.work t)], submitClose_orders hmode reason io _, ?_,
        fun h => (hmode h).elim, by simp⟩
      intro o ho
      rw [List.mem_singleton.mp ho]
      rfl
  simp only [step, closeTrade, hw.getTrade ht, hst, if_false, not_true] at hwell ⊢
  generalize submitClose env.settings.tradingMode reason io (w.work t) = r at *
  obtain ⟨_ | _, k'⟩ := r
  · exact ⟨t, sent, ⟨hwell, ht, rfl, rfl, hsent, hqty, hshadow⟩, hne⟩
  · exact ⟨k'.trade, sent, ⟨hwell, World.commit_row ht hframe.entry.id, hframe.entry.id, hsell,
      hsent, hqty, hshadow⟩, hne⟩

theorem closeTrade_refused {env : Env} {w : World} {t : Trade} (hw : w.WellFormed)
    (ht : t ∈ w.db.trades) (hst : t.status ∉ closeRetryableStatuses) (reason : ExitReason)
    (io : CloseIo) : step env w (.closeTrade t.id reason io) = w := by
  simp only [step, closeTrade, hw.getTrade ht, hst, not_false_eq_true, if_true]

theorem closes_refused {env : Env} {w : World} {t : Trade} (hw : w.WellFormed)
    (ht : t ∈ w.db.trades) (hst : t.status ∉ closeRetryableStatuses)
    (closes : List (ExitReason × CloseIo)) :
    Runs.run (step env) w (closeSteps t.id closes) = w := by
  induction closes with
  | nil => rfl
  | cons c closes ih =>
    simp only [closeSteps, Runs.run, List.map_cons, List.foldl_cons] at ih ⊢
    rw [closeTrade_refused hw ht hst]
    exact ih

theorem closes_sold {env : Env} {w : World} {t : Trade} (hw : w.WellFormed)
    (ht : t ∈ w.db.trades) (closes : List (ExitReason × CloseIo)) :
    ∃ t' sent, Sold env w (Runs.run (step env) w (closeSteps t.id closes)) t t' sent ∧
      (env.settings.tradingMode ≠ .shadow → t.status ∈ closeRetryableStatuses → closes ≠ [] →
        sent ≠ []) := by
  induction closes generalizing w t with
  | nil => exact ⟨t, [], .refl hw ht, fun _ _ h => absurd rfl h⟩
  | cons c closes ih =>
    by_cases hst : t.status ∈ closeRetryableStatuses
    · obtain ⟨t₁, sent, hfirst, hne⟩ := closeTrade_sold hw ht hst c.1 c.2
      obtain ⟨t', sent', hrest, -⟩ := ih hfirst.wellFormed hfirst.mem
      rw [hfirst.id] at hrest
      refine ⟨t', sent ++ sent', hfirst.trans hrest, fun hmode _ _ h => hne hmode ?_⟩
      exact (List.append_eq_nil_iff.mp h).1
    · rw [closes_refused hw ht hst]
      exact ⟨t, [], .refl hw ht, fun _ h => absurd h hst⟩

/-- A row of the trade whose entry order `link` is open, or partially filled: nothing is
recorded as bought. -/
structure Entering (link : OrderLinkId) (w : World) (t : Trade) : Prop where
  wellFormed : w.WellFormed
  mem : t ∈ w.db.trades
  named : t.orderLinkId = some link
  role : t.isProtectiveClose link = false
  status : t.status ∈ [orderSubmitted, orderPendingUnknown, orderPartiallyFilled]
  unbought : t.filledQty = none

theorem Entering.kept {link : OrderLinkId} {w : World} {t : Trade} (h : Entering link w t)
    (s : TradeStatus) (b : Bool) : shouldIgnoreEntryUpdate t s b = false := by
  have hst := h.status
  simp only [List.mem_cons, List.not_mem_nil, or_false] at hst
  obtain hst | hst | hst := hst <;> simp [shouldIgnoreEntryUpdate, hst]

theorem Entering.kept_noted {link : OrderLinkId} {w : World} {t : Trade} (h : Entering link w t)
    (s : TradeStatus) (b : Bool) (orderId : Option String) :
    shouldIgnoreEntryUpdate (t.noteExchangeOrderId link orderId) s b = false := by
  have hst : (t.noteExchangeOrderId link orderId).status = t.status :=
    (noteExchangeOrderId_settles link orderId (w.work t)).status
  rw [shouldIgnoreEntryUpdate_congr hst]
  exact h.kept s b

theorem Entering.owns {link : OrderLinkId} {w : World} {t : Trade} (h : Entering link w t) :
    t.ownsOrderLinkId link = true := by
  rw [Trade.owns_iff]
  exact .inl h.named

theorem Entering.moved {env : Env} {link : OrderLinkId} {w : World} {t : Trade} {s : TradeStatus}
    {data : OrderData} (h : Entering link w t) (io : HandlerIo)
    (hlink : data.orderLinkId = some link) (hs : orderStatusMap data.orderStatus = some s)
    (hne : s ≠ orderConfirmed) : ∃ orderId,
      { t with exchangeOrderId := orderId, status := s } ∈
        (step env w (.processOrder data io)).db.trades := by
  have hnote := @noteExchangeOrderId_entry link data.orderId t h.role
  have happ : applyOrderUpdate env.restClient io data (w.work t) = (.ok true,
      ((w.work t).onTrade (Trade.noteExchangeOrderId link data.orderId)).transitionTradeStatus s
        exchangeSync) := by
    simp [applyOrderUpdate, hlink, hs, h.role, h.kept_noted, hne]
  have hframe := applyOrderUpdate_frame env.restClient io data (w.work t)
  rw [happ] at hframe
  have hrow := World.commit_row h.mem hframe.entry.id
  rw [step, processOrder_row h.wellFormed h.mem hlink h.owns (by simp [hs]) happ]
  refine ⟨data.orderId <|> t.exchangeOrderId, ?_⟩
  simpa [hnote] using hrow

/-- The protection of a confirmed fill ends in an open position or in one that was given up
without its emergency close, exactly when the columns and the outcomes are such. -/
def LeavesClosable (restClient : Bool) (io : HandlerIo) (t : Trade) : Prop :=
  restClient = true ∧ (t.marketType ≠ .spot ∨ t.orderType ≠ some .market ∨ t.stopPrice ≠ none ∧
    (t.stopOrderLinkId ≠ none ∨ io.stop.raises = false ∨ io.emergencyClose.raises = true))

instance (restClient : Bool) (io : HandlerIo) (t : Trade) :
    Decidable (LeavesClosable restClient io t) := by
  unfold LeavesClosable
  infer_instance

theorem armStopLoss_closable (io : HandlerIo) (qty stopPrice : Rat) (k : Work) :
    (armStopLoss true io qty stopPrice k).1 = true ∨
        (armStopLoss true io qty stopPrice k).2.trade.status ∈ closeRetryableStatuses ↔
      k.trade.stopOrderLinkId ≠ none ∨ io.stop.raises = false ∨ io.emergencyClose.raises = true := by
  cases hlink : k.trade.stopOrderLinkId with
  | some link => simp [armStopLoss, hlink]
  | none =>
    simp only [armStopLoss, hlink]
    cases hstop : io.stop.result with
    | ok orderId => simp [PlaceOutcome.not_raises_of_ok hstop]
    | error e =>
      have hraises := PlaceOutcome.raises_of_error hstop
      simp only [handleStopLossSubmissionFailure, submitEmergencyClose]
      cases hclose : io.emergencyClose.result with
      | ok orderId =>
        simp [PlaceOutcome.not_raises_of_ok hclose, hraises, closeRetryableStatuses]
      | error e => simp [PlaceOutcome.raises_of_error hclose, closeRetryableStatuses]

theorem ensureSpotMarketProtection_closable (restClient : Bool) (io : HandlerIo) {k : Work} {q : Rat}
    (hst : k.trade.status = orderConfirmed) (hqty : k.trade.filledQty = some q) (hne : q ≠ 0) :
    (ensureSpotMarketProtection restClient io k).1 = true ∨
        (ensureSpotMarketProtection restClient io k).2.trade.status ∈ closeRetryableStatuses ↔
      LeavesClosable restClient io k.trade := by
  have hsells : pyOr k.trade.filledQty k.trade.qty = some q := by simp [hqty, pyOr, hne]
  have hwaits : k.trade.status ∉ closeRetryableStatuses := by simp [hst, closeRetryableStatuses]
  unfold ensureSpotMarketProtection LeavesClosable
  split_ifs with hrest hspot
  · simp [hrest, hwaits]
  · simp only [hrest, true_or, true_iff]
    exact ⟨by simp, hspot.imp_right .inl⟩
  · obtain ⟨hmarket, htype⟩ : k.trade.marketType = .spot ∧ k.trade.orderType = some .market := by
      simpa [not_or] using hspot
    cases hstop : k.trade.stopPrice with
    | none => simp [hsells, hmarket, htype, hwaits]
    | some stopPrice =>
      have harm := armStopLoss_closable io q stopPrice k
      have htrue : restClient = true := by simpa using hrest
      subst htrue
      simp only [hsells, if_neg hne, hmarket, htype, ne_eq, not_true_eq_false, false_or, true_and,
        reduceCtorEq, not_false_eq_true] at harm ⊢
      rw [← harm]
      split
      · next hfalse => simp [hfalse]
      · next htrue => simp [htrue]

/-- A fill that is recorded says how much was bought, and whether the trade can be closed. -/
theorem applyEntryFill_filled (restClient : Bool) (io : HandlerIo) {data : OrderData} {q : Rat}
    (hprice : data.avgPrice ≠ some .malformed) (hcum : data.cumExecQty = some (.decimal q))
    (hne : q ≠ 0) (k : Work) : ∃ k', applyEntryFill restClient io data k = (.ok true, k') ∧
      k'.trade.filledQty = some (storedAmount q) ∧
      (k'.trade.status ∈ closeRetryableStatuses ↔
        data.leavesQty = some "0" ∧ LeavesClosable restClient io k.trade) := by
  obtain ⟨avg, havg⟩ := parseOptional_of_ne hprice
  have hparse : parseOptional data.cumExecQty = .ok (some q) := by rw [hcum]; rfl
  have hconf : (confirmEntryFill io.now avg (some q) k).trade.status = orderConfirmed :=
    (confirmEntryFill_settles io.now avg (some q) k).status
  have hfilled : (confirmEntryFill io.now avg (some q) k).trade.filledQty = some q := by
    simp [confirmEntryFill, Trade.noteFilledQty]
  have hclosable := ensureSpotMarketProtection_closable restClient io hconf hfilled hne
  have hcolumns : LeavesClosable restClient io (confirmEntryFill io.now avg (some q) k).trade ↔
      LeavesClosable restClient io k.trade := by
    simp [LeavesClosable, confirmEntryFill, Trade.noteFillPrice, Trade.noteFilledQty]
  rw [hcolumns] at hclosable
  simp only [applyEntryFill, havg, hparse]
  refine ⟨_, rfl, by simp [Trade.storeFilledQty], ?_⟩
  simp only [Work.onTrade_trade, Trade.storeFilledQty]
  split_ifs with hleaves
  · rw [← hclosable]
    split
    · next hens => simp [hleaves, hens, closeRetryableStatuses]
    · next hens => simp [hleaves, hens]
  · simp [hleaves, hconf, closeRetryableStatuses]

/-- The event is a complete fill after which `close_trade` takes the trade. -/
def FillClosable (env : Env) (u : OrderData × HandlerIo) (t : Trade) : Prop :=
  u.1.orderStatus = .filled ∧ u.1.avgPrice ≠ some .malformed ∧ u.1.leavesQty = some "0" ∧
    LeavesClosable env.restClient u.2 t

instance (env : Env) (u : OrderData × HandlerIo) (t : Trade) : Decidable (FillClosable env u t) := by
  unfold FillClosable
  infer_instance

theorem Entering.filled {env : Env} {link : OrderLinkId} {w : World} {t : Trade}
    {u : OrderData × HandlerIo} {q : Rat} (h : Entering link w t)
    (hlink : u.1.orderLinkId = some link) (hs : u.1.orderStatus = .filled)
    (hcum : u.1.cumExecQty = some (.decimal q)) (hne : q ≠ 0) :
    if u.1.avgPrice = some .malformed then t ∈ (step env w (.processOrder u.1 u.2)).db.trades
    else ∃ t' ∈ (step env w (.processOrder u.1 u.2)).db.trades, t'.id = t.id ∧
      t'.sellQty = (t.storeFilledQty u.1.cumQty).sellQty ∧
      (t'.status ∈ closeRetryableStatuses ↔ FillClosable env u t) := by
  obtain ⟨data, io⟩ := u
  dsimp only at hlink hs hcum ⊢
  have hnote := @noteExchangeOrderId_entry link data.orderId t h.role
  have happ : applyOrderUpdate env.restClient io data (w.work t) = applyEntryFill env.restClient io
      data ((w.work t).onTrade (Trade.noteExchangeOrderId link data.orderId)) := by
    simp [applyOrderUpdate, hlink, hs, orderStatusMap, h.role, h.kept_noted]
  split_ifs with hprice
  · have hrun : (processOrder env.restClient io data w).2.db = w.db := by
      simp only [processOrder, hlink, hs, orderStatusMap, h.wellFormed.getTradeByOrderLinkId h.mem
        h.owns, happ, applyEntryFill, hprice]
      rfl
    rw [step, hrun]
    exact h.mem
  · obtain ⟨k', hfill, hqty, hclosable⟩ := applyEntryFill_filled env.restClient io hprice hcum hne
      ((w.work t).onTrade (Trade.noteExchangeOrderId link data.orderId))
    have hframe := applyOrderUpdate_frame env.restClient io data (w.work t)
    rw [happ, hfill] at hframe
    rw [step, processOrder_row h.wellFormed h.mem hlink h.owns (by simp [hs, orderStatusMap])
      (happ.trans hfill)]
    refine ⟨k'.trade, World.commit_row h.mem hframe.entry.id, hframe.entry.id, ?_, ?_⟩
    · have hplanned : k'.trade.qty = t.qty := hframe.entry.qty
      simp [Trade.sellQty, Trade.storeFilledQty, hqty, hplanned, OrderData.cumQty, hcum]
    · rw [hclosable, Work.onTrade_trade, World.work, hnote]
      simp [FillClosable, LeavesClosable, hs, hprice]

theorem Entering.partials {env : Env} {link : OrderLinkId} {w : World} {t : Trade}
    (h : Entering link w t) (us : List (OrderData × HandlerIo))
    (hpartly : ∀ u ∈ us, u.1.orderStatus = .partiallyFilled)
    (hnamed : ∀ u ∈ us, u.1.orderLinkId = some link) :
    ∃ t' orderId s, Entering link (Runs.run (step env) w (us.map fun u => .processOrder u.1 u.2)) t' ∧
      t' = { t with exchangeOrderId := orderId, status := s } ∧
      (us ≠ [] → s = orderPartiallyFilled) ∧ (us = [] → s = t.status) := by
  induction us generalizing w t with
  | nil => exact ⟨t, t.exchangeOrderId, t.status, h, rfl, fun h => absurd rfl h, fun _ => rfl⟩
  | cons u us ih =>
    have hs : orderStatusMap u.1.orderStatus = some orderPartiallyFilled := by
      rw [hpartly u List.mem_cons_self]
      rfl
    obtain ⟨orderId, hrow⟩ := @Entering.moved env _ _ _ _ _ h u.2
      (hnamed u List.mem_cons_self) hs (by decide)
    have hnext : Entering link (step env w (.processOrder u.1 u.2))
        { t with exchangeOrderId := orderId, status := orderPartiallyFilled } :=
      ⟨(step_effect env _ h.wellFormed).2, hrow, h.named, h.role, by simp, h.unbought⟩
    obtain ⟨t', orderId', s, hlast, hrow, hmoved, hkept⟩ := ih hnext
      (fun v hv => hpartly v (List.mem_cons_of_mem _ hv))
      (fun v hv => hnamed v (List.mem_cons_of_mem _ hv))
    refine ⟨t', orderId', s, hlast, hrow, fun _ => ?_, fun h => nomatch h⟩
    by_cases hus : us = []
    · exact hkept hus
    · exact hmoved hus

theorem EntryHistory.le_largest {link : OrderLinkId} (h : EntryHistory link)
    {u : OrderData × HandlerIo} {q : Rat} (hu : u ∈ h.partials ++ h.last.toList)
    (hq : u.1.cumExecQty = some (.decimal q)) : q ≤ h.largest := by
  have hmem : q ∈ (h.partials ++ h.last.toList).filterMap fun u => u.1.cumQty :=
    List.mem_filterMap.mpr ⟨u, hu, by simp [OrderData.cumQty, hq]⟩
  unfold EntryHistory.largest
  generalize (h.partials ++ h.last.toList).filterMap (fun u => u.1.cumQty) = qs at hmem
  induction qs with
  | nil => cases hmem
  | cons p qs ih =>
    obtain rfl | hmem := List.mem_cons.mp hmem
    · exact le_max_left _ _
    · exact (ih hmem).trans (le_max_right _ _)

/-- The trade can be closed after partial fills alone: it is sold as planned. -/
def PartlyClosable {link : OrderLinkId} (h : EntryHistory link) : Prop := h.partials ≠ [] ∧ h.unended

instance {link : OrderLinkId} (h : EntryHistory link) : Decidable (PartlyClosable h) :=
  inferInstanceAs (Decidable (h.partials ≠ [] ∧
    ∀ u ∈ h.last, u.1.orderStatus = .filled ∧ u.1.avgPrice = some .malformed))

/-- The row after the events of the entry order: whether it can be closed, and what a close
of it sells. -/
structure Ended (env : Env) {link : OrderLinkId} (h : EntryHistory link) (w : World) (t t' : Trade) :
    Prop where
  wellFormed : w.WellFormed
  mem : t' ∈ w.db.trades
  id : t'.id = t.id
  closable : t'.status ∈ closeRetryableStatuses ↔
    PartlyClosable h ∨ ∃ u ∈ h.last, FillClosable env u t
  planned : h.unended → t'.sellQty = t.qty.getD 0
  bought : ∀ u ∈ h.last, FillClosable env u t → t'.sellQty = (t.storeFilledQty u.1.cumQty).sellQty

theorem EntryHistory.not_fillClosable {env : Env} {link : OrderLinkId} {h : EntryHistory link}
    (hun : h.unended) (t : Trade) : ¬ ∃ u ∈ h.last, FillClosable env u t := by
  rintro ⟨u, hu, -, hprice, -⟩
  exact hprice (hun u hu).2

theorem EntryHistory.ends {env : Env} {link : OrderLinkId} (h : EntryHistory link) {w : World}
    {t : Trade} (ht : Entering link w t) (hopen : t.status ∈ entryReconciliationStatuses) :
    ∃ t', Ended env h (Runs.run (step env) w h.steps) t t' := by
  obtain ⟨t₁, orderId, s, hrow, hcolumns, hmoved, hkept⟩ := @Entering.partials env _ _ _ ht h.partials
    h.partly fun u hu => h.named u (List.mem_append_left _ hu)
  have hid : t₁.id = t.id := by rw [hcolumns]
  have hsell : t₁.sellQty = t.qty.getD 0 := by
    simp [hcolumns, Trade.sellQty, ht.unbought, pyOr]
  have hsame : ∀ u, FillClosable env u t₁ ↔ FillClosable env u t := by
    intro u
    rw [hcolumns]
    rfl
  have hpartly : t₁.status ∈ closeRetryableStatuses ↔ h.partials ≠ [] := by
    by_cases hnil : h.partials = []
    · simp only [entryReconciliationStatuses, List.mem_pair] at hopen
      obtain hopen | hopen := hopen <;> simp [hcolumns, hkept hnil, hopen, hnil, closeRetryableStatuses]
    · simp [hcolumns, hmoved hnil, hnil, closeRetryableStatuses]
  have hunended : h.unended → (t₁.status ∈ closeRetryableStatuses ↔
      PartlyClosable h ∨ ∃ u ∈ h.last, FillClosable env u t) := by
    intro hun
    rw [hpartly, or_iff_left (EntryHistory.not_fillClosable hun t), PartlyClosable]
    exact ⟨fun hne => ⟨hne, hun⟩, And.left⟩
  cases hlast : h.last with
  | none =>
    have hun : h.unended := by simp [EntryHistory.unended, hlast]
    simp only [EntryHistory.steps, hlast, Option.toList_none, List.append_nil]
    exact ⟨t₁, hrow.wellFormed, hrow.mem, hid, hunended hun, fun _ => hsell,
      fun u hu => by simp [hlast] at hu⟩
  | some u =>
    have hu : u ∈ h.partials ++ h.last.toList := by simp [hlast]
    have hiff : h.unended ↔ u.1.orderStatus = .filled ∧ u.1.avgPrice = some .malformed := by
      simp [EntryHistory.unended, hlast]
    have honly : (∃ v ∈ h.last, FillClosable env v t) ↔ FillClosable env u t := by simp [hlast]
    have hlink := h.named u hu
    simp only [EntryHistory.steps, hlast, Option.toList_some, List.map_append, List.map_cons,
      List.map_nil, Runs.run, List.foldl_append, List.foldl_cons, List.foldl_nil]
    generalize hw₁ : (h.partials.map fun u => Step.processOrder u.1 u.2).foldl (step env) w = w₁
    rw [Runs.run, hw₁] at hrow
    have hwell := (step_effect env (.processOrder u.1 u.2) hrow.wellFormed).2
    obtain hfilled | hcancelled := h.ended u (by simp [hlast])
    · obtain ⟨q, hpos, hcum⟩ := h.filled u (by simp [hlast]) hfilled
      have hfill := @Entering.filled env _ _ _ _ _ hrow hlink hfilled hcum hpos.ne'
      split_ifs at hfill with hprice
      · have hun : h.unended := hiff.mpr ⟨hfilled, hprice⟩
        refine ⟨t₁, hwell, hfill, hid, hunended hun, fun _ => hsell, fun v hv hclosable => ?_⟩
        exact absurd ⟨v, hv, hclosable⟩ (EntryHistory.not_fillClosable hun t)
      · have hun : ¬ h.unended := fun hun => hprice (hiff.mp hun).2
        obtain ⟨t', ht', hid', hsells, hclosable⟩ := hfill
        rw [hsame] at hclosable
        refine ⟨t', hwell, ht', hid'.trans hid, ?_, fun h => absurd h hun, fun v hv _ => ?_⟩
        · rw [hclosable, honly, PartlyClosable, or_iff_right fun hp => hun hp.2]
        · obtain rfl : u = v := Option.some.inj (hlast.symm.trans hv)
          rw [hsells, hcolumns]
          rfl
    · have hun : ¬ h.unended := by
        intro hun
        rw [hcancelled] at hiff
        cases (hiff.mp hun).1
      have hnone : ¬ FillClosable env u t := by
        rintro ⟨hfilled, -⟩
        rw [hcancelled] at hfilled
        cases hfilled
      obtain ⟨orderId, ht'⟩ := @Entering.moved env _ _ _ orderCancelled _ hrow u.2 hlink
        (by rw [hcancelled]; rfl) (by decide)
      refine ⟨_, hwell, ht', hid, ?_, fun h => absurd h hun, fun v hv hclosable => ?_⟩
      · rw [honly]
        simp [closeRetryableStatuses, PartlyClosable, hun, hnone]
      · obtain rfl : u = v := Option.some.inj (hlast.symm.trans hv)
        exact absurd hclosable hnone

/-- A close after the events sells more than they report: the planned quantity after partial
fills alone, or the filled one as the column keeps it. -/
def Oversold (env : Env) {link : OrderLinkId} (h : EntryHistory link) (t : Trade) : Prop :=
  (PartlyClosable h ∧ h.largest < t.qty.getD 0) ∨
    ∃ u ∈ h.last, FillClosable env u t ∧ h.largest < (t.storeFilledQty u.1.cumQty).sellQty

instance (env : Env) {link : OrderLinkId} (h : EntryHistory link) (t : Trade) :
    Decidable (Oversold env h t) := by
  unfold Oversold
  infer_instance

theorem Ended.oversold {env : Env} {link : OrderLinkId} {h : EntryHistory link} {w : World}
    {t t' : Trade} (he : Ended env h w t t') :
    t'.status ∈ closeRetryableStatuses ∧ h.largest < t'.sellQty ↔ Oversold env h t := by
  constructor
  · rintro ⟨hst, hlt⟩
    obtain hpartly | ⟨u, hu, hfill⟩ := he.closable.mp hst
    · exact .inl ⟨hpartly, he.planned hpartly.2 ▸ hlt⟩
    · exact .inr ⟨u, hu, hfill, he.bought u hu hfill ▸ hlt⟩
  · rintro (⟨hpartly, hlt⟩ | ⟨u, hu, hfill, hlt⟩)
    · exact ⟨he.closable.mpr (.inl hpartly), (he.planned hpartly.2).symm ▸ hlt⟩
    · exact ⟨he.closable.mpr (.inr ⟨u, hu, hfill⟩), (he.bought u hu hfill).symm ▸ hlt⟩

/-- The closes after the events of an entry order sell at most what was reported exactly
when it is not so that something was closed after partial fills alone, and more was planned
than they report, or after a complete fill of which the column keeps more. -/
theorem closesCovered_iff (env : Env) (ss : List Step) {t : Trade} {link : OrderLinkId}
    (h : EntryHistory link) (closes : List (ExitReason × CloseIo))
    (ht : t ∈ (Runs.run (step env) {} ss).db.trades)
    (hopen : t.status ∈ [orderSubmitted, orderPendingUnknown]) (hlink : t.orderLinkId = some link) :
    ClosesCovered env (Runs.run (step env) {} ss) h t.id closes ↔
      ¬ (env.settings.tradingMode ≠ .shadow ∧ closes ≠ [] ∧ Oversold env h t) := by
  have hw := wellFormed_run env ss
  have hkept := entryKept_run env ss t ht
  generalize Runs.run (step env) {} ss = w at ht hw
  have hentering : Entering link w t := ⟨hw, ht, hlink, hkept.role link hlink, by
    simp only [List.mem_pair] at hopen
    obtain hopen | hopen := hopen <;> simp [hopen], hkept.unbought hopen⟩
  obtain ⟨t₁, hended⟩ := @EntryHistory.ends env _ h _ _ hentering hopen
  rw [← hended.oversold]
  unfold ClosesCovered
  by_cases hst : t₁.status ∈ closeRetryableStatuses
  · obtain ⟨t', sent, hsold, hne⟩ := @closes_sold env _ _ hended.wellFormed hended.mem closes
    have hdrop : (Runs.run (step env) (Runs.run (step env) w h.steps)
        (closeSteps t.id closes)).exchange.orders.drop
          (Runs.run (step env) w h.steps).exchange.orders.length = sent := by
      rw [← hended.id, hsold.orders, List.drop_left]
    rw [hdrop]
    constructor
    · rintro hcovered ⟨hmode, hcloses, -, hlt⟩
      obtain ⟨o, ho⟩ := List.exists_mem_of_ne_nil sent (hne hmode hst hcloses)
      have hle := hcovered o ho
      rw [hsold.qty o ho] at hle
      exact absurd hlt (not_lt.mpr hle)
    · intro hnot o ho
      rw [hsold.qty o ho]
      by_contra hlt
      refine hnot ⟨fun hmode => ?_, fun hcloses => ?_, hst, not_le.mp hlt⟩
      · simp [hsold.shadow hmode] at ho
      · subst hcloses
        rw [← hdrop] at ho
        simp [closeSteps, Runs.run] at ho
  · refine iff_of_true ?_ fun hnot => hst hnot.2.2.1
    rw [← hended.id, closes_refused hended.wellFormed hended.mem hst]
    simp

/-- An accepted entry order of five. -/
def submittedRun : List Step := [.executeSignal demoRequest (demoExecute (.accepted none) (.ok none))]

/-- Two of the five are bought, then possibly all of them. -/
def partialHistory (last : Option HandlerIo) : EntryHistory (.generated (some 0) 2) where
  partials := [({ orderLinkId := some (.generated (some 0) 2), orderStatus := .partiallyFilled,
                  cumExecQty := some (.decimal 2) }, demoHandler 1)]
  last := last.map fun io => (demoEntryFill, io)
  partly := by simp
  ended := by
    intro u hu
    obtain ⟨io, -, rfl⟩ := Option.mem_map.mp hu
    exact .inl rfl
  named := by
    intro u hu
    obtain hu | hu := List.mem_append.mp hu
    · rw [List.mem_singleton.mp hu]
    · obtain ⟨io, -, rfl⟩ := Option.mem_map.mp (Option.mem_toList.mp hu)
      rfl
  filled := by
    intro u hu _
    obtain ⟨io, -, rfl⟩ := Option.mem_map.mp hu
    exact ⟨5, by decide, rfl⟩

theorem closesCovered_filled : ∃ t ∈ (Runs.run (step (demoEnv .takerAllowed)) {}
    submittedRun).db.trades, ClosesCovered (demoEnv .takerAllowed)
      (Runs.run (step (demoEnv .takerAllowed)) {} submittedRun)
      (partialHistory (some (demoHandler 2))) t.id [(.manual, ⟨3, .accepted none⟩)] := by
  have hopen : ∃ t ∈ (Runs.run (step (demoEnv .takerAllowed)) {} submittedRun).db.trades,
      t.status ∈ [orderSubmitted, orderPendingUnknown] ∧
        t.orderLinkId = some (.generated (some 0) 2) ∧
        ¬ Oversold (demoEnv .takerAllowed) (partialHistory (some (demoHandler 2))) t := by
    decide +kernel
  obtain ⟨t, ht, hst, hlink, hnot⟩ := hopen
  exact ⟨t, ht, (closesCovered_iff _ _ _ _ ht hst hlink).mpr fun h => hnot h.2.2⟩

/-- Two are bought, and a close sells the planned five. -/
theorem closesCovered_fails : ¬ ClosesCovered (demoEnv .takerAllowed)
    (Runs.run (step (demoEnv .takerAllowed)) {} submittedRun) (partialHistory none) 1
      [(.manual, ⟨3, .accepted none⟩)] := by
  decide +kernel

end AmaExecutionCore
