import AmaExecutionCore.Handlers

/-! What each handler of one trade can do, case by case: the status it ends in, the
exit columns it leaves and the orders it sends. -/
namespace AmaExecutionCore
open TradeStatus

/-- The work ends in `status` with these exit columns, after sending the orders `new`. -/
structure Work.Ends (k k' : Work) (status : TradeStatus)
    (close stop takeProfit : Option OrderLinkId) (new : List SentOrder) : Prop where
  frame : k.Frame k'
  status : k'.trade.status = status
  close : k'.trade.closeOrderLinkId = close
  stop : k'.trade.stopOrderLinkId = stop
  takeProfit : k'.trade.takeProfitOrderLinkId = takeProfit
  orders : k'.exchange.orders = k.exchange.orders ++ new

/-- The work keeps the exit columns and sends nothing. -/
abbrev Work.Settles (k k' : Work) (status : TradeStatus) : Prop :=
  k.Ends k' status k.trade.closeOrderLinkId k.trade.stopOrderLinkId
    k.trade.takeProfitOrderLinkId []

namespace Work.Ends

theorem trans {k k' k'' : Work} {s s' : TradeStatus} {c c' st st' tp tp' : Option OrderLinkId}
    {new new' : List SentOrder} (h : k.Ends k' s c st tp new) (h' : k'.Ends k'' s' c' st' tp' new') :
    k.Ends k'' s' c' st' tp' (new ++ new') where
  frame := h.frame.trans h'.frame
  status := h'.status
  close := h'.close
  stop := h'.stop
  takeProfit := h'.takeProfit
  orders := by rw [h'.orders, h.orders, List.append_assoc]

theorem settles {k k' k'' : Work} {s s' : TradeStatus} {c st tp : Option OrderLinkId}
    {new : List SentOrder} (h : k.Ends k' s c st tp new) (h' : k'.Settles k'' s') :
    k.Ends k'' s' c st tp new := by
  have := h.trans h'
  rwa [h.close, h.stop, h.takeProfit, List.append_nil] at this

theorem of_settles {k k' k'' : Work} {s s' : TradeStatus} {c st tp : Option OrderLinkId}
    {new : List SentOrder} (h : k.Settles k' s) (h' : k'.Ends k'' s' c st tp new) :
    k.Ends k'' s' c st tp new := h.trans h'

theorem refl (k : Work) : k.Settles k k.trade.status :=
  ⟨.refl k, rfl, rfl, rfl, rfl, by simp⟩

theorem transition (s : TradeStatus) (m : List (String × String)) (k : Work) :
    k.Settles (k.transitionTradeStatus s m) s :=
  ⟨.transition s m k, by simp, by simp, by simp, by simp, by simp⟩

theorem onLedger (f : Ledger → Ledger) (k : Work) : k.Settles (k.onLedger f) k.trade.status :=
  ⟨.onLedger f k, rfl, rfl, rfl, rfl, by simp⟩

theorem onTrade (f : Trade → Trade) (k : Work) (h : k.trade.SameEntry (f k.trade))
    (hx : k.trade.SameExits (f k.trade)) : k.Settles (k.onTrade f) (f k.trade).status :=
  ⟨.onTrade f k h hx, rfl, hx.close, hx.stop, hx.takeProfit, by simp⟩

end Work.Ends

theorem noteExchangeOrderId_settles (link : OrderLinkId) (orderId : Option String) (k : Work) :
    k.Settles (k.onTrade (Trade.noteExchangeOrderId link orderId)) k.trade.status := by
  refine ⟨noteExchangeOrderId_frame link orderId k, ?_, ?_, ?_, ?_, by simp⟩ <;>
  · simp only [Work.onTrade_trade, Trade.noteExchangeOrderId]
    split
    · rfl
    · split_ifs <;> rfl

theorem noteExchangeOrderId_filledQty (link : OrderLinkId) (orderId : Option String) (k : Work) :
    (k.onTrade (Trade.noteExchangeOrderId link orderId)).trade.filledQty = k.trade.filledQty := by
  simp only [Work.onTrade_trade, Trade.noteExchangeOrderId]
  split
  · rfl
  · split_ifs <;> rfl

theorem noteExchangeOrderId_entry {link : OrderLinkId} {orderId : Option String} {t : Trade}
    (h : t.isProtectiveClose link = false) : t.noteExchangeOrderId link orderId =
      { t with exchangeOrderId := orderId <|> t.exchangeOrderId } := by
  simp only [Trade.isProtectiveClose, Bool.or_eq_false_iff, decide_eq_false_iff_not] at h
  cases orderId <;> simp [Trade.noteExchangeOrderId, h]

def emergencyOrder (io : HandlerIo) (k : Work) : SentOrder :=
  .ofCall k.trade.id .emergencyClose
    (emergencyCloseRequest k.trade (.generated k.trade.signalId (2 * k.nonce))) io.emergencyClose

/-- `_handle_stop_loss_submission_failure` closes the position or gives up. -/
inductive GivenUp (io : HandlerIo) (k : Work) : Work → Prop
  | unsent {k'} (h : k.Settles k' positionCloseFailed) : GivenUp io k k'
  | sent {k'} (h : k.Ends k' positionClosePending
      (some (.generated k.trade.signalId (2 * k.nonce))) k.trade.stopOrderLinkId
      k.trade.takeProfitOrderLinkId [emergencyOrder io k])
      (hok : io.emergencyClose.raises = false) : GivenUp io k k'
  | failed {k'} (h : k.Ends k' positionCloseFailed
      (some (.generated k.trade.signalId (2 * k.nonce))) k.trade.stopOrderLinkId
      k.trade.takeProfitOrderLinkId [emergencyOrder io k])
      (hbad : io.emergencyClose.raises = true) : GivenUp io k k'

theorem PlaceOutcome.raises_of_error {o : PlaceOutcome} {e : PyError} (h : o.result = .error e) :
    o.raises = true := by
  simp [PlaceOutcome.raises, h, Except.toOption]

theorem PlaceOutcome.not_raises_of_ok {o : PlaceOutcome} {x : Option String}
    (h : o.result = .ok x) : o.raises = false := by
  simp [PlaceOutcome.raises, h, Except.toOption]

theorem PlaceOutcome.reached_of_not_raises {o : PlaceOutcome} (h : o.raises = false) :
    o.reached = true := by
  cases o <;> simp_all [PlaceOutcome.raises, PlaceOutcome.result, Except.toOption,
    PlaceOutcome.reached]

theorem submitEmergencyClose_givenUp (io : HandlerIo) (k : Work) :
    GivenUp io k (submitEmergencyClose io k) := by
  have hframe := submitEmergencyClose_frame io k
  cases hres : io.emergencyClose.result with
  | error e =>
    refine .failed ⟨hframe, ?_, ?_, ?_, ?_, ?_⟩ (PlaceOutcome.raises_of_error hres) <;>
      simp only [submitEmergencyClose, hres] <;> simp <;> rfl
  | ok orderId =>
    refine .sent ⟨hframe, ?_, ?_, ?_, ?_, ?_⟩ (PlaceOutcome.not_raises_of_ok hres) <;>
      simp only [submitEmergencyClose, hres] <;> simp <;> rfl

theorem handleStopLossSubmissionFailure_givenUp (restClient : Bool) (io : HandlerIo) (k : Work) :
    GivenUp io k (handleStopLossSubmissionFailure restClient io k) := by
  have hlog : k.Settles ((k.onLedger (Ledger.activateKillSwitch io.now)).onLedger
      (Ledger.appendSystemEvent .error
        "Stop-loss protective order could not be armed after spot market fill." k.trade.id))
      k.trade.status := .of_settles (.onLedger _ _) (.onLedger _ _)
  simp only [handleStopLossSubmissionFailure]
  split
  · cases submitEmergencyClose_givenUp io ((k.onLedger (Ledger.activateKillSwitch io.now)).onLedger
      (Ledger.appendSystemEvent .error
        "Stop-loss protective order could not be armed after spot market fill." k.trade.id)) with
    | unsent h => exact .unsent (.of_settles hlog h)
    | sent h hok => exact .sent (.of_settles hlog h) hok
    | failed h hbad => exact .failed (.of_settles hlog h) hbad
  · exact .unsent (.of_settles hlog (.transition _ _ _))

def stopOrder (io : HandlerIo) (qty stopPrice : Rat) (k : Work) : SentOrder :=
  .ofCall k.trade.id .stop (protectiveRequest k.trade qty (.stop k.nonce) stopPrice) io.stop

def takeProfitOrder (io : HandlerIo) (qty targetPrice : Rat) (k : Work) : SentOrder :=
  .ofCall k.trade.id .takeProfit (protectiveRequest k.trade qty (.tp k.nonce) targetPrice)
    io.takeProfit

/-- What arming the take-profit order can do to its column, and the orders it sends. -/
inductive TakeProfitArmed (io : HandlerIo) (k : Work) :
    Option OrderLinkId → List SentOrder → Prop
  | kept : TakeProfitArmed io k k.trade.takeProfitOrderLinkId []
  | placed {qty targetPrice} (htp : k.trade.takeProfitOrderLinkId = none)
      (hok : io.takeProfit.raises = false) :
      TakeProfitArmed io k (some (.tp k.nonce)) [takeProfitOrder io qty targetPrice k]
  | lost {qty targetPrice} (htp : k.trade.takeProfitOrderLinkId = none)
      (hbad : io.takeProfit.raises = true) :
      TakeProfitArmed io k none [takeProfitOrder io qty targetPrice k]

theorem armTakeProfit_armed (io : HandlerIo) (qty : Rat) (k : Work) :
    ∃ tp new, TakeProfitArmed io k tp new ∧
      k.Ends (armTakeProfit io qty k) k.trade.status k.trade.closeOrderLinkId
        k.trade.stopOrderLinkId tp new := by
  have hframe := armTakeProfit_frame io qty k
  revert hframe
  simp only [armTakeProfit]
  split
  · next targetPrice _ htp =>
    split
    · next e hres =>
      intro hframe
      exact ⟨none, [takeProfitOrder io qty targetPrice k],
        .lost htp (PlaceOutcome.raises_of_error hres), hframe, rfl, rfl, rfl, htp, rfl⟩
    · next orderId hres =>
      intro hframe
      exact ⟨some (.tp k.nonce), [takeProfitOrder io qty targetPrice k],
        .placed htp (PlaceOutcome.not_raises_of_ok hres), hframe, rfl, rfl, rfl, rfl, rfl⟩
  · intro _
    exact ⟨_, _, .kept, .refl k⟩

/-- The work after a stop order went out, before its outcome is noted. -/
def Work.sendStop (io : HandlerIo) (qty stopPrice : Rat) (k : Work) : Work :=
  k.placeOrder .stop (protectiveRequest k.trade qty (.stop k.nonce) stopPrice) io.stop

theorem sendStop_ends (io : HandlerIo) (qty stopPrice : Rat) (k : Work) :
    k.Ends (k.sendStop io qty stopPrice) k.trade.status k.trade.closeOrderLinkId
      k.trade.stopOrderLinkId k.trade.takeProfitOrderLinkId [stopOrder io qty stopPrice k] :=
  ⟨.placeOrder .stop _ _ _ rfl, rfl, rfl, rfl, rfl, rfl⟩

/-- What `_ensure_spot_market_protection` can do. -/
inductive Protection (io : HandlerIo) (k : Work) : Bool × Work → Prop
  | idle {b : Bool} (h : b = true →
      k.trade.marketType ≠ .spot ∨ k.trade.orderType ≠ some .market) : Protection io k (b, k)
  | stopKept {k' link tp new} (hmarket : k.trade.marketType = .spot ∧
      k.trade.orderType = some .market) (hstop : k.trade.stopOrderLinkId = some link)
      (h : k.Ends k' k.trade.status k.trade.closeOrderLinkId (some link) tp new)
      (htp : TakeProfitArmed io k tp new) : Protection io k (true, k')
  | stopArmed {k' qty stopPrice tp new} (hmarket : k.trade.marketType = .spot ∧
      k.trade.orderType = some .market) (hstop : k.trade.stopOrderLinkId = none)
      (hok : io.stop.raises = false)
      (h : k.Ends k' k.trade.status k.trade.closeOrderLinkId (some (.stop k.nonce)) tp
        (stopOrder io qty stopPrice k :: new))
      (htp : TakeProfitArmed io k tp new) : Protection io k (true, k')
  | stopLost {k' qty stopPrice} (hmarket : k.trade.marketType = .spot ∧
      k.trade.orderType = some .market) (hstop : k.trade.stopOrderLinkId = none)
      (hbad : io.stop.raises = true) (hg : GivenUp io (k.sendStop io qty stopPrice) k') :
      Protection io k (false, k')

theorem ensureSpotMarketProtection_protection (restClient : Bool) (io : HandlerIo) (k : Work) :
    Protection io k (ensureSpotMarketProtection restClient io k) := by
  unfold ensureSpotMarketProtection
  split_ifs with hrest hspot
  · exact .idle (by simp)
  · exact .idle fun _ => hspot
  · have hmarket : k.trade.marketType = .spot ∧ k.trade.orderType = some .market := by
      simpa [not_or] using hspot
    split
    · next qty stopPrice _ _ =>
      split_ifs with hqty
      · exact .idle (by simp)
      · cases hstop : k.trade.stopOrderLinkId with
        | some link =>
          obtain ⟨tp, new, htp, h⟩ := armTakeProfit_armed io qty k
          rw [hstop] at h
          simp only [armStopLoss, hstop]
          exact .stopKept hmarket hstop h htp
        | none =>
          simp only [armStopLoss, hstop]
          cases hres : io.stop.result with
          | error e =>
            exact .stopLost hmarket hstop (PlaceOutcome.raises_of_error hres)
              (handleStopLossSubmissionFailure_givenUp restClient io _)
          | ok orderId =>
            have hsent : k.Ends ((k.sendStop io qty stopPrice).onTrade
                (Trade.noteStopOrder (.stop k.nonce) orderId)) k.trade.status
                k.trade.closeOrderLinkId (some (.stop k.nonce)) k.trade.takeProfitOrderLinkId
                [stopOrder io qty stopPrice k] :=
              ⟨.trans (.placeOrder .stop _ _ _ rfl) (noteStopOrder_frame orderId _),
                rfl, rfl, rfl, rfl, rfl⟩
            obtain ⟨tp, new, htp, h⟩ := armTakeProfit_armed io qty
              ((k.sendStop io qty stopPrice).onTrade (Trade.noteStopOrder (.stop k.nonce) orderId))
            refine .stopArmed hmarket hstop (PlaceOutcome.not_raises_of_ok hres) (hsent.trans h) ?_
            cases htp with
            | kept => exact .kept
            | placed htp hok => exact .placed htp hok
            | lost htp hbad => exact .lost htp hbad
    · exact .idle (by simp)

theorem confirmEntryFill_settles (now : Timestamp) (avg cum : Option Rat) (k : Work) :
    k.Settles (confirmEntryFill now avg cum k) orderConfirmed :=
  ⟨confirmEntryFill_frame now avg cum k, by simp [confirmEntryFill], by simp [confirmEntryFill,
    Trade.noteFilledQty, Trade.noteFillPrice], by simp [confirmEntryFill, Trade.noteFilledQty,
    Trade.noteFillPrice], by simp [confirmEntryFill, Trade.noteFilledQty, Trade.noteFillPrice],
    by simp [confirmEntryFill]⟩

theorem Work.Settles.stored {k k' : Work} {s : TradeStatus} (h : k.Settles k' s) (cum : Option Rat) :
    k.Settles (k'.onTrade (Trade.storeFilledQty cum)) s := by
  have hstored : k'.Settles (k'.onTrade (Trade.storeFilledQty cum)) k'.trade.status :=
    .onTrade _ _ ⟨by constructor <;> rfl, rfl, rfl⟩ (by constructor <;> rfl)
  rw [h.status] at hstored
  exact h.settles hstored

theorem recordExit_settles (now : Timestamp) (link : OrderLinkId) (exitPrice : Rat) (k : Work) :
    k.Settles (recordExit now link exitPrice k) pnlRecorded := by
  refine ⟨recordExit_frame now link exitPrice k, ?_, ?_, ?_, ?_, ?_⟩ <;>
    simp [recordExit, Trade.recordPnl, Trade.noteExit]

/-- The booking at the end of a close cannot raise: the result is on the trade by then. -/
theorem recordExit_booked (now : Timestamp) (link : OrderLinkId) (exitPrice : Rat) (k : Work) :
    ∃ k', (recordExit now link exitPrice k).applyTradeOutcomeAnalytics now = (.ok (), k') ∧
      (recordExit now link exitPrice k).Settles k' pnlRecorded := by
  have hstatus := (recordExit_settles now link exitPrice k).status
  have hpnl : (recordExit now link exitPrice k).trade.realizedPnl ≠ none := by
    simp [recordExit, Trade.recordPnl]
  obtain ⟨pnl, hpnl⟩ := Option.ne_none_iff_exists'.mp hpnl
  refine ⟨(recordExit now link exitPrice k).onLedger (Ledger.updateDailyStat
    ((recordExit now link exitPrice k).trade.closedAt.getD now).date
    (bookOutcome (recordExit now link exitPrice k).trade pnl)), ?_, ?_⟩
  · simp only [Work.applyTradeOutcomeAnalytics, hpnl]
  · have hbook := Work.Ends.onLedger (Ledger.updateDailyStat
      ((recordExit now link exitPrice k).trade.closedAt.getD now).date
      (bookOutcome (recordExit now link exitPrice k).trade pnl)) (recordExit now link exitPrice k)
    rwa [hstatus] at hbook

/-- What `_apply_order_update` can do with an update about the order `link`. -/
inductive Updated (io : HandlerIo) (data : OrderData) (k : Work) : Outcome Work Bool → Prop
  /-- Not about a status the program maps, or ignored, or malformed. -/
  | unmoved {r k'} (h : k.Settles k' k.trade.status) : Updated io data k (r, k')
  | entryMoved {k' link s} (hlink : data.orderLinkId = some link)
      (hrole : k.trade.isProtectiveClose link = false)
      (hs : orderStatusMap data.orderStatus = some s) (hne : s ≠ orderConfirmed)
      (hkeep : shouldIgnoreEntryUpdate k.trade s (data.leavesQty = some "0") = false)
      (h : k.Settles k' s) : Updated io data k (.ok true, k')
  | entryFilled {k' link} (hlink : data.orderLinkId = some link)
      (hrole : k.trade.isProtectiveClose link = false) (hs : data.orderStatus = .filled)
      (hkeep : shouldIgnoreEntryUpdate k.trade .orderConfirmed (data.leavesQty = some "0") = false)
      (h : k.Settles k' orderConfirmed) : Updated io data k (.ok true, k')
  | entryDone {k' k'' p link} (hlink : data.orderLinkId = some link)
      (hrole : k.trade.isProtectiveClose link = false) (hs : data.orderStatus = .filled)
      (hleaves : data.leavesQty = some "0")
      (hkeep : shouldIgnoreEntryUpdate k.trade .orderConfirmed true = false)
      (h : k.Settles k' orderConfirmed) (hp : Protection io k' p)
      (hend : p.2.Settles k'' (if p.1 then positionOpen else p.2.trade.status)) :
      Updated io data k (.ok true, k'')
  | exitBroken {k' link e} (hlink : data.orderLinkId = some link)
      (hrole : k.trade.isProtectiveClose link = true) (hs : data.orderStatus = .filled)
      (hkeep : k.trade.status ≠ pnlRecorded)
      (h : k.Settles k' orderConfirmed) : Updated io data k (.error e, k')
  | exitFilled {k' link} (hlink : data.orderLinkId = some link)
      (hrole : k.trade.isProtectiveClose link = true) (hs : data.orderStatus = .filled)
      (hkeep : k.trade.status ≠ pnlRecorded) (hprice : data.avgPrice ≠ some .malformed)
      (h : k.Settles k' pnlRecorded) : Updated io data k (.ok true, k')
  | exitFailed {k' link} (hlink : data.orderLinkId = some link)
      (hrole : k.trade.isProtectiveClose link = true)
      (hs : data.orderStatus = .rejected ∨ data.orderStatus = .cancelled)
      (hkeep : k.trade.status ≠ pnlRecorded)
      (h : k.Settles k' positionCloseFailed) : Updated io data k (.ok true, k')
  | exitPartly {k' link} (hlink : data.orderLinkId = some link)
      (hrole : k.trade.isProtectiveClose link = true) (hs : data.orderStatus = .partiallyFilled)
      (hkeep : k.trade.status ≠ pnlRecorded)
      (h : k.Settles k' orderPartiallyFilled) : Updated io data k (.ok true, k')

theorem shouldIgnoreEntryUpdate_congr {t t' : Trade} (h : t'.status = t.status) (s : TradeStatus)
    (b : Bool) : shouldIgnoreEntryUpdate t' s b = shouldIgnoreEntryUpdate t s b := by
  simp only [shouldIgnoreEntryUpdate, h]

theorem orderStatusMap_eq {status : OrderStatusText} {s : TradeStatus}
    (h : orderStatusMap status = some s) :
    (status = .filled ∧ s = orderConfirmed) ∨ (status = .rejected ∧ s = orderRejected) ∨
      (status = .cancelled ∧ s = orderCancelled) ∨
      (status = .partiallyFilled ∧ s = orderPartiallyFilled) := by
  cases status <;> simp_all [orderStatusMap]

/-- The price of an exit fill, zero where none is reported, fails to parse when it is malformed. -/
theorem parse_getD_error {n : Option RawNumber} {e : PyError}
    (h : (n.getD (.decimal 0)).parse = .error e) : n = some .malformed := by
  cases n with
  | none => cases h
  | some raw =>
    cases raw with
    | decimal q => cases h
    | malformed => rfl

theorem parse_getD_ok {n : Option RawNumber} {q : Rat}
    (h : (n.getD (.decimal 0)).parse = .ok q) : n ≠ some .malformed := by
  rintro rfl
  cases h

theorem applyExitFill_updated (io : HandlerIo) (data : OrderData) {link : OrderLinkId} {k k₁ : Work}
    (hlink : data.orderLinkId = some link) (hrole : k.trade.isProtectiveClose link = true)
    (hs : data.orderStatus = .filled) (hkeep : k.trade.status ≠ pnlRecorded)
    (h : k.Settles k₁ k.trade.status) : Updated io data k (applyExitFill io link data k₁) := by
  have hconf : k.Settles (k₁.transitionTradeStatus .orderConfirmed exchangeSync) orderConfirmed :=
    h.settles (.transition _ _ _)
  simp only [applyExitFill]
  split
  · exact .exitBroken hlink hrole hs hkeep hconf
  · next exitPrice hparse =>
    obtain ⟨k', hbook, hk'⟩ := recordExit_booked io.now link exitPrice
      (k₁.transitionTradeStatus .orderConfirmed exchangeSync)
    simp only [hbook]
    exact .exitFilled hlink hrole hs hkeep (parse_getD_ok hparse)
      ((hconf.settles (recordExit_settles _ _ _ _)).settles hk')

theorem applyEntryFill_updated (restClient : Bool) (io : HandlerIo) (data : OrderData)
    {link : OrderLinkId} {k k₁ : Work}
    (hlink : data.orderLinkId = some link) (hrole : k.trade.isProtectiveClose link = false)
    (hs : data.orderStatus = .filled)
    (hkeep : shouldIgnoreEntryUpdate k.trade .orderConfirmed (data.leavesQty = some "0") = false)
    (h : k.Settles k₁ k.trade.status) :
    Updated io data k (applyEntryFill restClient io data k₁) := by
  rcases applyEntryFill_cases restClient io data k₁ with ⟨e, avg, happ⟩ | ⟨avg, cum, -, happ⟩
  · rw [happ]
    have hnote : k₁.Settles (k₁.onTrade (Trade.noteFillPrice avg)) k₁.trade.status :=
      .onTrade _ _ ⟨by constructor <;> rfl, rfl, rfl⟩ (by constructor <;> rfl)
    rw [h.status] at hnote
    exact .unmoved (h.settles hnote)
  · have hconf := h.settles (confirmEntryFill_settles io.now avg cum k₁)
    have hp := ensureSpotMarketProtection_protection restClient io
      (confirmEntryFill io.now avg cum k₁)
    rw [happ]
    split_ifs with hleaves
    · rw [hleaves] at hkeep
      split <;> next hens =>
        rw [hens] at hp
        first
          | exact .entryDone hlink hrole hs hleaves (by simpa using hkeep) hconf hp
              (.stored (.transition _ _ _) cum)
          | exact .entryDone hlink hrole hs hleaves (by simpa using hkeep) hconf hp
              (.stored (.refl _) cum)
    · exact .entryFilled hlink hrole hs hkeep (.stored hconf cum)

theorem applyExitFailure_settles (s : TradeStatus) (k : Work) :
    k.Settles (applyExitFailure s k) positionCloseFailed := by
  refine ⟨applyExitFailure_frame s k, ?_, ?_, ?_, ?_, ?_⟩ <;> simp [applyExitFailure]

theorem applyOrderUpdate_updated (restClient : Bool) (io : HandlerIo) (data : OrderData)
    (k : Work) : Updated io data k (applyOrderUpdate restClient io data k) := by
  unfold applyOrderUpdate
  split
  · next link s hlink hs =>
    have hnote := noteExchangeOrderId_settles link data.orderId k
    generalize k.onTrade (Trade.noteExchangeOrderId link data.orderId) = k₁ at hnote
    dsimp only
    rw [shouldIgnoreEntryUpdate_congr hnote.status]
    split_ifs with hentry hexit hfill hclose hfail
    · exact .unmoved hnote
    · exact .unmoved hnote
    · obtain ⟨rfl, hrole⟩ := hfill
      have hst : data.orderStatus = .filled := by
        rcases orderStatusMap_eq hs with h | h | h | h <;> simp_all
      refine applyEntryFill_updated restClient io data hlink hrole hst ?_ hnote
      simpa [hrole] using hentry
    · obtain ⟨hrole, rfl⟩ := hclose
      have hst : data.orderStatus = .filled := by
        rcases orderStatusMap_eq hs with h | h | h | h <;> simp_all
      refine applyExitFill_updated io data hlink hrole hst ?_ hnote
      simpa [hrole, shouldIgnoreCloseUpdate, hnote.status] using hexit
    · obtain ⟨hrole, hs'⟩ := hfail
      have hst : data.orderStatus = .rejected ∨ data.orderStatus = .cancelled := by
        rcases orderStatusMap_eq hs with h | h | h | h <;> simp_all
      refine .exitFailed hlink hrole hst ?_ ?_
      · simpa [hrole, shouldIgnoreCloseUpdate, hnote.status] using hexit
      · exact hnote.settles (applyExitFailure_settles _ _)
    · cases hrole : k.trade.isProtectiveClose link with
      | false =>
        refine .entryMoved hlink hrole hs ?_ (by simpa [hrole] using hentry)
          (hnote.settles (.transition _ _ _))
        intro h
        exact hfill ⟨h, hrole⟩
      | true =>
        have hst : data.orderStatus = .partiallyFilled ∧ s = orderPartiallyFilled := by
          rcases orderStatusMap_eq hs with h | h | h | h <;> simp_all
        obtain ⟨hst, rfl⟩ := hst
        refine .exitPartly hlink hrole hst ?_ (hnote.settles (.transition _ _ _))
        simpa [hrole, shouldIgnoreCloseUpdate, hnote.status] using hexit
  · exact .unmoved (.refl k)

theorem applyOrderUpdate_error {restClient : Bool} {io : HandlerIo} {data : OrderData}
    {k k' : Work} {e : PyError} (h : applyOrderUpdate restClient io data k = (.error e, k')) :
    k'.exchange = k.exchange := by
  have hup := applyOrderUpdate_updated restClient io data k
  have hcancels := (applyOrderUpdate_frame restClient io data k).cancels
  rw [h] at hup hcancels
  have horders : k'.exchange.orders = k.exchange.orders := by
    cases hup with
    | unmoved h => simpa using h.orders
    | exitBroken _ _ _ _ h => simpa using h.orders
  cases hx : k'.exchange
  cases hy : k.exchange
  simp_all

/-- The payload a reconcile pass hands on. -/
def reconciledData (tracked : OrderLinkId) (remote : OrderData) : OrderData :=
  { remote with orderLinkId := remote.orderLinkId <|> some tracked }

theorem reconcileTrade_cases (restClient : Bool) (answer : StatusOutcome) (io : HandlerIo)
    (k : Work) :
    (reconcileTrade restClient answer io k).2 = k ∨
    ∃ tracked remote, restClient = true ∧ k.trade.trackedOrderLinkId = some tracked ∧
      answer = .ok (some remote) ∧ reconcileTrade restClient answer io k =
        applyOrderUpdate restClient io (reconciledData tracked remote) k := by
  unfold reconcileTrade
  split_ifs with hrest
  · exact .inl rfl
  · split
    · exact .inl rfl
    · next tracked htracked =>
      split
      · exact .inl rfl
      · exact .inl rfl
      · next remote => exact .inr ⟨tracked, remote, by simpa using hrest, htracked, rfl, rfl⟩

def noteRemoteStatus (remote : OrderData) (k : Work) : Work :=
  (k.onTrade fun t => { t with exchangeOrderId := remote.orderId }).transitionTradeStatus
    (mapRemoteOrderStatus remote.orderStatus) [("source", "pending_unknown_reconciliation")]

theorem noteRemoteStatus_settles (remote : OrderData) (k : Work) :
    k.Settles (noteRemoteStatus remote k) (mapRemoteOrderStatus remote.orderStatus) := by
  have hnote : k.Settles (k.onTrade fun t => { t with exchangeOrderId := remote.orderId })
      k.trade.status := .onTrade _ _ ⟨by constructor <;> rfl, rfl, rfl⟩ (by constructor <;> rfl)
  exact hnote.settles (.transition _ _ _)

/-- The lookup answered, or failed in a way `reconcile_pending_unknown` catches. -/
def lookupCaught : StatusOutcome → Bool
  | .error .bybitConnectionError | .error .timeoutError => true
  | .error _ => false
  | .ok _ => true

theorem reconcilePendingUnknown_cases (lookup : StatusOutcome) (k : Work) :
    (∃ e, reconcilePendingUnknown lookup k = (.error e, k) ∧ lookup = .error e ∧
      lookupCaught lookup = false) ∨
    (reconcilePendingUnknown lookup k = (.ok (), k) ∧
      (k.trade.orderLinkId = none ∨ lookupCaught lookup = true)) ∨
    ∃ remote, lookup = .ok (some remote) ∧
      reconcilePendingUnknown lookup k = (.ok (), noteRemoteStatus remote k) := by
  unfold reconcilePendingUnknown
  split
  · next hlink => exact .inr (.inl ⟨rfl, .inl hlink⟩)
  · split
    · exact .inr (.inl ⟨rfl, .inr rfl⟩)
    · exact .inr (.inl ⟨rfl, .inr rfl⟩)
    · next e hconn htime =>
      refine .inl ⟨e, rfl, rfl, ?_⟩
      cases e <;> first | rfl | exact (hconn rfl).elim | exact (htime rfl).elim
    · exact .inr (.inl ⟨rfl, .inr rfl⟩)
    · next remote => exact .inr (.inr ⟨remote, rfl, rfl⟩)

/-- A lookup that is not raised leaves the trade as it is, or notes what it was told. -/
theorem reconcilePendingUnknown_ok {lookup : StatusOutcome} {k k' : Work}
    (h : reconcilePendingUnknown lookup k = (.ok (), k')) :
    k = k' ∨ ∃ remote, lookup = .ok (some remote) ∧ noteRemoteStatus remote k = k' := by
  obtain ⟨e, hrun, -⟩ | ⟨hrun, -⟩ | ⟨remote, hlookup, hrun⟩ := reconcilePendingUnknown_cases lookup k
  · rw [hrun] at h
    cases h
  · rw [hrun] at h
    exact .inl (Prod.mk.inj h).2
  · rw [hrun] at h
    exact .inr ⟨remote, hlookup, (Prod.mk.inj h).2⟩

theorem reconcilePendingUnknown_ledger (lookup : StatusOutcome) (k : Work) :
    (reconcilePendingUnknown lookup k).2.ledger = k.ledger := by
  obtain ⟨e, hrun, -⟩ | ⟨hrun, -⟩ | ⟨remote, -, hrun⟩ := reconcilePendingUnknown_cases lookup k <;>
    rw [hrun]
  simp [noteRemoteStatus]

theorem reconcilePendingUnknown_orders (lookup : StatusOutcome) (k : Work) :
    (reconcilePendingUnknown lookup k).2.exchange.orders = k.exchange.orders := by
  rcases reconcilePendingUnknown_cases lookup k with ⟨e, h, -⟩ | ⟨h, -⟩ | ⟨remote, -, h⟩ <;> rw [h]
  rw [(noteRemoteStatus_settles remote k).orders, List.append_nil]

def closeOrder (io : CloseIo) (k : Work) : SentOrder :=
  .ofCall k.trade.id .close (closeRequest k.trade k.nonce) io.close

/-- What `close_trade` can do to its trade. -/
inductive Closing (mode : TradingMode) (io : CloseIo) (k : Work) : Outcome Work Unit → Prop
  | shadow {k'} (hmode : mode = .shadow) (h : k.Ends k' pnlRecorded (some (.close k.nonce))
      k.trade.stopOrderLinkId k.trade.takeProfitOrderLinkId []) : Closing mode io k (.ok (), k')
  | sent {k'} (hok : io.close.raises = false) (h : k.Ends k' positionClosePending
      (some (.close k.nonce)) k.trade.stopOrderLinkId k.trade.takeProfitOrderLinkId
      [closeOrder io k]) : Closing mode io k (.ok (), k')
  | lost {k' e} (hbad : io.close.raises = true) (h : k.Ends k' positionClosePending
      (some (.close k.nonce)) k.trade.stopOrderLinkId k.trade.takeProfitOrderLinkId
      [closeOrder io k]) : Closing mode io k (.error e, k')

theorem recordShadowClose_booked (reason : ExitReason) (now : Timestamp) (k : Work) :
    ∃ k', recordShadowClose reason now k = (.ok (), k') ∧ k.Settles k' pnlRecorded := by
  refine ⟨(recordShadowClose reason now k).2, ?_, recordShadowClose_frame reason now k, ?_, ?_, ?_,
    ?_, ?_⟩ <;>
  simp [recordShadowClose, Work.applyTradeOutcomeAnalytics, Trade.recordPnl]

theorem submitClose_closing (mode : TradingMode) (reason : ExitReason) (io : CloseIo) (k : Work) :
    Closing mode io k (submitClose mode reason io k) := by
  have hprep : k.Ends ((k.onTrade (prepareCloseSubmission reason k.nonce)).transitionTradeStatus
      .positionClosePending positionManager) positionClosePending (some (.close k.nonce))
      k.trade.stopOrderLinkId k.trade.takeProfitOrderLinkId [] :=
    ⟨.trans (prepareCloseSubmission_frame reason k) (.transition _ _ _),
      by simp, by simp [prepareCloseSubmission], by simp [prepareCloseSubmission],
      by simp [prepareCloseSubmission], by simp⟩
  have hframe := submitClose_frame mode reason io k
  revert hframe
  simp only [submitClose]
  split_ifs with hmode
  · intro _
    obtain ⟨k', hbook, hk'⟩ := recordShadowClose_booked reason io.now
      ((k.onTrade (prepareCloseSubmission reason k.nonce)).transitionTradeStatus
        .positionClosePending positionManager)
    rw [hbook]
    exact .shadow hmode (hprep.settles hk')
  · split
    · next e hres =>
      intro hframe
      refine .lost (PlaceOutcome.raises_of_error hres) ⟨hframe, hprep.status, hprep.close,
        hprep.stop, hprep.takeProfit, ?_⟩
      simp [closeOrder, closeRequest, prepareCloseSubmission]
      rfl
    · next orderId hres =>
      intro hframe
      refine .sent (PlaceOutcome.not_raises_of_ok hres) ⟨hframe, hprep.status, hprep.close,
        hprep.stop, hprep.takeProfit, ?_⟩
      simp [closeOrder, closeRequest, prepareCloseSubmission]
      rfl

theorem GivenUp.frame {io : HandlerIo} {k k' : Work} (h : GivenUp io k k') : k.Frame k' := by
  cases h with
  | unsent h => exact h.frame
  | sent h => exact h.frame
  | failed h => exact h.frame

theorem Protection.frame {io : HandlerIo} {k : Work} {p : Bool × Work} (h : Protection io k p) :
    k.Frame p.2 := by
  cases h with
  | idle => exact .refl k
  | stopKept _ _ h => exact h.frame
  | stopArmed _ _ _ h => exact h.frame
  | stopLost _ _ _ hg => exact (sendStop_ends io _ _ k).frame.trans hg.frame

theorem Protection.status {io : HandlerIo} {k : Work} {p : Bool × Work} (h : Protection io k p) :
    p.2.trade.status = k.trade.status ∨ (p.1 = false ∧
      (p.2.trade.status = positionClosePending ∨ p.2.trade.status = positionCloseFailed)) := by
  cases h with
  | idle => exact .inl rfl
  | stopKept _ _ h => exact .inl h.status
  | stopArmed _ _ _ h => exact .inl h.status
  | stopLost _ _ _ hg =>
    refine .inr ⟨rfl, ?_⟩
    cases hg with
    | unsent h => exact .inr h.status
    | sent h => exact .inl h.status
    | failed h => exact .inr h.status

theorem Updated.frame {io : HandlerIo} {data : OrderData} {k : Work} {r : Outcome Work Bool}
    (h : Updated io data k r) : k.Frame r.2 := by
  cases h with
  | unmoved h => exact h.frame
  | entryMoved _ _ _ _ _ h => exact h.frame
  | entryFilled _ _ _ _ h => exact h.frame
  | entryDone _ _ _ _ _ h hp hend => exact h.frame.trans (hp.frame.trans hend.frame)
  | exitBroken _ _ _ _ h => exact h.frame
  | exitFilled _ _ _ _ _ h => exact h.frame
  | exitFailed _ _ _ _ h => exact h.frame
  | exitPartly _ _ _ _ h => exact h.frame

theorem Closing.frame {mode : TradingMode} {io : CloseIo} {k : Work} {r : Outcome Work Unit}
    (h : Closing mode io k r) : k.Frame r.2 := by
  cases h with
  | shadow _ h => exact h.frame
  | sent _ h => exact h.frame
  | lost _ h => exact h.frame

/-- The filled quantity is kept, or it is what the payload says, as the column keeps it. -/
def FilledFrom (data : OrderData) (t t' : Trade) : Prop :=
  t'.filledQty = t.filledQty ∨
    ∃ q, data.cumExecQty = some (.decimal q) ∧ t'.filledQty = some (storedAmount q)

theorem armStopLoss_filledQty (restClient : Bool) (io : HandlerIo) (qty stopPrice : Rat) (k : Work) :
    (armStopLoss restClient io qty stopPrice k).2.trade.filledQty = k.trade.filledQty := by
  simp only [armStopLoss, handleStopLossSubmissionFailure, submitEmergencyClose]
  split
  · rfl
  · split
    · split_ifs
      · split <;> simp [Trade.noteEmergencyClose, Trade.noteCloseExchangeId]
      · simp
    · rfl

theorem ensureSpotMarketProtection_filledQty (restClient : Bool) (io : HandlerIo) (k : Work) :
    (ensureSpotMarketProtection restClient io k).2.trade.filledQty = k.trade.filledQty := by
  unfold ensureSpotMarketProtection
  split_ifs with hrest hspot
  · rfl
  · rfl
  · split
    · next qty stopPrice _ _ =>
      split_ifs with hqty
      · rfl
      · have harm := armStopLoss_filledQty restClient io qty stopPrice k
        split <;> next h =>
          rw [h] at harm
          first
            | exact harm
            | rw [← harm]
              simp only [armTakeProfit]
              split
              · split <;> rfl
              · rfl
    · rfl

theorem parseOptional_filled {data : OrderData} {cum : Option Rat}
    (h : parseOptional data.cumExecQty = .ok cum) (t : Trade) :
    FilledFrom data t { t with filledQty := cum.map storedAmount <|> t.filledQty } := by
  cases hc : data.cumExecQty with
  | none =>
    rw [hc] at h
    obtain rfl := Except.ok.inj h
    exact .inl rfl
  | some n =>
    rw [hc] at h
    cases n with
    | malformed => cases h
    | decimal q =>
      obtain rfl := Except.ok.inj h
      exact .inr ⟨q, hc, rfl⟩

theorem applyEntryFill_filledQty (restClient : Bool) (io : HandlerIo) (data : OrderData)
    (k : Work) : FilledFrom data k.trade (applyEntryFill restClient io data k).2.trade := by
  rcases applyEntryFill_cases restClient io data k with ⟨e, avg, h⟩ | ⟨avg, cum, hcum, h⟩
  · rw [h]
    exact .inl rfl
  · have hstored := parseOptional_filled hcum k.trade
    have hens := ensureSpotMarketProtection_filledQty restClient io
      (confirmEntryFill io.now avg cum k)
    rw [h]
    -- the quantity the session used goes as soon as there is one to store
    have hkept : ∀ k' : Work, k'.trade.filledQty = (confirmEntryFill io.now avg cum k).trade.filledQty →
        FilledFrom data k.trade (k'.onTrade (Trade.storeFilledQty cum)).trade := by
      intro k' hk'
      cases cum with
      | none =>
        have hnone : k'.trade.filledQty = k.trade.filledQty := by
          simpa [confirmEntryFill, Trade.noteFilledQty, Trade.noteFillPrice] using hk'
        exact .inl (by simpa [Trade.storeFilledQty] using hnone)
      | some q => simpa [FilledFrom, Trade.storeFilledQty] using hstored
    dsimp only
    split_ifs
    · split <;> next hp =>
        rw [hp] at hens
        exact hkept _ (by simpa using hens)
    · exact hkept _ rfl

theorem applyExitFill_filledQty (io : HandlerIo) (link : OrderLinkId) (data : OrderData)
    (k : Work) : (applyExitFill io link data k).2.trade.filledQty = k.trade.filledQty := by
  simp only [applyExitFill]
  split
  · simp
  · next exitPrice _ =>
    have hrec : ∀ k : Work, ((recordExit io.now link exitPrice k).applyTradeOutcomeAnalytics
        io.now).2.trade.filledQty = k.trade.filledQty := by
      intro k
      unfold Work.applyTradeOutcomeAnalytics
      split <;> simp [recordExit, Trade.recordPnl, Trade.noteExit]
    have := hrec (k.transitionTradeStatus .orderConfirmed exchangeSync)
    split <;> next h =>
      rw [h] at this
      simpa using this

theorem applyOrderUpdate_filledQty (restClient : Bool) (io : HandlerIo) (data : OrderData)
    (k : Work) : FilledFrom data k.trade (applyOrderUpdate restClient io data k).2.trade := by
  unfold applyOrderUpdate
  split
  · next link _ _ _ =>
    have hnote := noteExchangeOrderId_filledQty link data.orderId k
    generalize k.onTrade (Trade.noteExchangeOrderId link data.orderId) = k₁ at hnote
    unfold FilledFrom
    rw [← hnote]
    dsimp only
    split_ifs
    · exact .inl rfl
    · exact .inl rfl
    · exact applyEntryFill_filledQty restClient io data k₁
    · exact .inl (applyExitFill_filledQty io link data k₁)
    · exact .inl (by simp [applyExitFailure])
    · exact .inl (by simp)
  · exact .inl rfl

theorem submitClose_filledQty (mode : TradingMode) (reason : ExitReason) (io : CloseIo) (k : Work) :
    (submitClose mode reason io k).2.trade.filledQty = k.trade.filledQty := by
  simp only [submitClose]
  split_ifs
  · simp only [recordShadowClose, Work.applyTradeOutcomeAnalytics]
    split <;> simp [prepareCloseSubmission, Trade.recordPnl]
  · split <;> simp [prepareCloseSubmission, Trade.noteCloseExchangeId]

end AmaExecutionCore
