import AmaExecutionCore.Store

/-! `ExchangeSyncEngine`: from order payloads to trade states, with the protective
orders of spot market entries. -/
namespace AmaExecutionCore

def orderStatusMap : OrderStatusText → Option TradeStatus
  | .filled => some .orderConfirmed
  | .rejected => some .orderRejected
  | .cancelled => some .orderCancelled
  | .partiallyFilled => some .orderPartiallyFilled
  | .other => none

def entryReconciliationStatuses : List TradeStatus := [.orderSubmitted, .orderPendingUnknown]
def closeReconciliationStatuses : List TradeStatus := [.positionClosePending]

/-- What one handled update meets: the clock, and the outcome of each order it may send. -/
structure HandlerIo where
  now : Timestamp
  stop : PlaceOutcome
  takeProfit : PlaceOutcome
  emergencyClose : PlaceOutcome

namespace Trade

def closeSide (t : Trade) : ExchangeSide :=
  if t.exchangeSide = .buy then .sell else .buy

/-- `is_protective_close_order`. -/
def isProtectiveClose (link : OrderLinkId) (t : Trade) : Bool :=
  t.closeOrderLinkId = some link || t.stopOrderLinkId = some link ||
    t.takeProfitOrderLinkId = some link

def noteExchangeOrderId (link : OrderLinkId) (orderId : Option String) (t : Trade) : Trade :=
  match orderId with
  | none => t
  | some _ =>
    if t.closeOrderLinkId = some link then { t with closeExchangeOrderId := orderId }
    else if t.stopOrderLinkId = some link then { t with stopExchangeOrderId := orderId }
    else if t.takeProfitOrderLinkId = some link then { t with takeProfitExchangeOrderId := orderId }
    else { t with exchangeOrderId := orderId }

def trackedOrderLinkId (t : Trade) : Option OrderLinkId :=
  if t.status ∈ closeReconciliationStatuses then t.closeOrderLinkId
  else if t.status ∈ entryReconciliationStatuses then t.orderLinkId
  else none

end Trade

def shouldIgnoreEntryUpdate (t : Trade) (newStatus : TradeStatus) (isFullyFilled : Bool) : Bool :=
  if t.status ∈ [.positionOpen, .positionClosePending, .positionClosed, .positionCloseFailed,
      .pnlRecorded] then true
  else if t.status = .orderConfirmed ∧ newStatus = .orderPartiallyFilled then true
  else t.status = .positionOpen && newStatus = .orderConfirmed && isFullyFilled

def shouldIgnoreCloseUpdate (t : Trade) : Bool := t.status = .pnlRecorded

def exchangeSync : List (String × String) := [("source", "exchange_sync")]

def marketUnit (side : ExchangeSide) : Option String :=
  if side = .buy then some "baseCoin" else none

def protectiveRequest (t : Trade) (qty : Rat) (link : OrderLinkId) (trigger : Rat) : OrderRequest :=
  { category := .spot, symbol := t.symbol, side := t.closeSide, orderType := .market, qty := qty
    orderLinkId := link, marketUnit := marketUnit t.closeSide, triggerPrice := some trigger
    orderFilter := some "tpslOrder", reduceOnly := some true }

def emergencyCloseRequest (t : Trade) (link : OrderLinkId) : OrderRequest :=
  { category := .spot, symbol := t.symbol, side := t.closeSide, orderType := .market
    qty := (pyOr t.filledQty t.qty).getD 0
    orderLinkId := link, marketUnit := marketUnit t.closeSide, reduceOnly := some true }

def Trade.noteEmergencyClose (link : OrderLinkId) (t : Trade) : Trade :=
  { t with closeOrderLinkId := some link, exitReason := some .killSwitch }

def Trade.noteCloseExchangeId (orderId : Option String) (t : Trade) : Trade :=
  { t with closeExchangeOrderId := orderId <|> t.closeExchangeOrderId }

def Trade.noteStopOrder (link : OrderLinkId) (orderId : Option String) (t : Trade) : Trade :=
  { t with
    stopOrderLinkId := some link
    stopExchangeOrderId := orderId <|> t.stopExchangeOrderId }

def Trade.noteTakeProfitOrder (link : OrderLinkId) (orderId : Option String) (t : Trade) : Trade :=
  { t with
    takeProfitOrderLinkId := some link
    takeProfitExchangeOrderId := orderId <|> t.takeProfitExchangeOrderId }

/-- The emergency close is recorded on the trade before it is sent. -/
def submitEmergencyClose (io : HandlerIo) (w : Work) : Work :=
  let link := OrderLinkId.generated w.trade.signalId (2 * w.nonce)
  let w := w.onTrade (Trade.noteEmergencyClose link)
  let w := w.placeOrder .emergencyClose (emergencyCloseRequest w.trade link) io.emergencyClose
  match io.emergencyClose.result with
  | .error _ =>
    (w.onLedger (Ledger.appendSystemEvent .error
        "Emergency close submission failed after stop-loss arming failure."
        w.trade.id)).transitionTradeStatus
      .positionCloseFailed (exchangeSync ++ [("reason", "emergency_close_failed")])
  | .ok orderId =>
    (w.onTrade (Trade.noteCloseExchangeId orderId)).transitionTradeStatus
      .positionClosePending (exchangeSync ++ [("reason", "emergency_close_after_stop_failure")])

def handleStopLossSubmissionFailure (restClient : Bool) (io : HandlerIo) (w : Work) : Work :=
  let w := w.onLedger (Ledger.activateKillSwitch io.now)
  let w := w.onLedger (Ledger.appendSystemEvent .error
    "Stop-loss protective order could not be armed after spot market fill." w.trade.id)
  if restClient then submitEmergencyClose io w
  else w.transitionTradeStatus .positionCloseFailed
    (exchangeSync ++ [("reason", "stop_loss_arm_failed")])

/-- The stop-loss half of `_ensure_spot_market_protection`; `false` when arming failed. -/
def armStopLoss (restClient : Bool) (io : HandlerIo) (qty stopPrice : Rat) (w : Work) : Bool × Work :=
  match w.trade.stopOrderLinkId with
  | some _ => (true, w)
  | none =>
    let link := OrderLinkId.stop w.nonce
    let w := w.placeOrder .stop (protectiveRequest w.trade qty link stopPrice) io.stop
    match io.stop.result with
    | .error _ => (false, handleStopLossSubmissionFailure restClient io w)
    | .ok orderId => (true, w.onTrade (Trade.noteStopOrder link orderId))

/-- The take-profit half; a failure is only logged. -/
def armTakeProfit (io : HandlerIo) (qty : Rat) (w : Work) : Work :=
  match w.trade.targetPrice, w.trade.takeProfitOrderLinkId with
  | some targetPrice, none =>
    let link := OrderLinkId.tp w.nonce
    let w := w.placeOrder .takeProfit (protectiveRequest w.trade qty link targetPrice) io.takeProfit
    match io.takeProfit.result with
    | .error _ => w.onLedger (Ledger.appendSystemEvent .error
        "Take-profit protective order could not be armed after spot market fill." w.trade.id)
    | .ok orderId => w.onTrade (Trade.noteTakeProfitOrder link orderId)
  | _, _ => w

def ensureSpotMarketProtection (restClient : Bool) (io : HandlerIo) (w : Work) : Bool × Work :=
  if restClient = false then (false, w)
  else if w.trade.marketType ≠ .spot ∨ w.trade.orderType ≠ some .market then (true, w)
  else
    match pyOr w.trade.filledQty w.trade.qty, w.trade.stopPrice with
    | some qty, some stopPrice =>
      if qty = 0 then (false, w)
      else
        match armStopLoss restClient io qty stopPrice w with
        | (false, w) => (false, w)
        | (true, w) => (true, armTakeProfit io qty w)
    | _, _ => (false, w)

/-- An absent field keeps the column, a malformed one raises. -/
def parseOptional : Option RawNumber → Except PyError (Option Rat)
  | none => .ok none
  | some n => n.parse.map some

def Trade.noteFillPrice (avg : Option Rat) (t : Trade) : Trade :=
  { t with avgFillPrice := avg <|> t.avgFillPrice }

def Trade.noteFilledQty (cum : Option Rat) (t : Trade) : Trade :=
  { t with filledQty := cum <|> t.filledQty }

/-- The reported quantity as the column keeps it. -/
def Trade.storeFilledQty (cum : Option Rat) (t : Trade) : Trade :=
  { t with filledQty := cum.map storedAmount <|> t.filledQty }

/-- A confirmed fill, before protection is armed. -/
def confirmEntryFill (now : Timestamp) (avg cum : Option Rat) (w : Work) : Work :=
  let w := w.onTrade (Trade.noteFillPrice avg)
  let w := w.onTrade (Trade.noteFilledQty cum)
  let w := w.transitionTradeStatus .orderConfirmed exchangeSync
  w.onTrade fun t => { t with openedAt := some now }

def applyEntryFill (restClient : Bool) (io : HandlerIo) (data : OrderData) (w : Work) :
    Outcome Work Bool :=
  match parseOptional data.avgPrice with
  | .error e => (.error e, w)
  | .ok avg =>
    match parseOptional data.cumExecQty with
    | .error e => (.error e, w.onTrade (Trade.noteFillPrice avg))
    | .ok cum =>
      let w := confirmEntryFill io.now avg cum w
      let w :=
        if data.leavesQty = some "0" then
          match ensureSpotMarketProtection restClient io w with
          | (true, w) => w.transitionTradeStatus .positionOpen exchangeSync
          | (false, w) => w
        else w
      -- this session has used the quantity as reported, every later one reads the column
      (.ok true, w.onTrade (Trade.storeFilledQty cum))

def Trade.resolveExitReason (link : OrderLinkId) (t : Trade) : Option ExitReason :=
  if t.stopOrderLinkId = some link then some .slHit
  else if t.takeProfitOrderLinkId = some link then some .tpHit
  else if t.exitReason = none then some .manual
  else t.exitReason

def Trade.holdTime (closedAt : Timestamp) (t : Trade) : Option Int :=
  match t.openedAt with
  | some openedAt => some ((closedAt - openedAt).tdiv 1000000)
  | none => t.holdTimeSeconds

def Trade.noteExit (link : OrderLinkId) (now : Timestamp) (t : Trade) : Trade :=
  { t with
    closedAt := some now
    holdTimeSeconds := t.holdTime now
    exitReason := t.resolveExitReason link }

/-- The columns that record a close at `exitPrice`. -/
def Trade.recordPnl (exitPrice : Rat) (t : Trade) : Trade :=
  { t with
    realizedPnl := some (calculateRealizedPnl t exitPrice)
    pnlPct := calculatePnlPct t (calculateRealizedPnl t exitPrice)
    pnlInR := calculatePnlInR t (calculateRealizedPnl t exitPrice) }

/-- The close of the trade at `exitPrice`, before the day's row is updated. -/
def recordExit (now : Timestamp) (link : OrderLinkId) (exitPrice : Rat) (w : Work) : Work :=
  let w := w.onTrade fun t => { t with avgExitPrice := some exitPrice }
  let w := w.transitionTradeStatus .positionClosed exchangeSync
  let w := w.onTrade (Trade.noteExit link now)
  let w := w.onTrade (Trade.recordPnl exitPrice)
  w.transitionTradeStatus .pnlRecorded exchangeSync

def applyExitFill (io : HandlerIo) (link : OrderLinkId) (data : OrderData) (w : Work) :
    Outcome Work Bool :=
  let w := w.transitionTradeStatus .orderConfirmed exchangeSync
  match (data.avgPrice.getD (.decimal 0)).parse with
  | .error e => (.error e, w)
  | .ok exitPrice =>
    match (recordExit io.now link exitPrice w).applyTradeOutcomeAnalytics io.now with
    | (.error e, w) => (.error e, w)
    | (.ok (), w) => (.ok true, w)

/-- A close, stop or take-profit order that was rejected or cancelled. -/
def applyExitFailure (newStatus : TradeStatus) (w : Work) : Work :=
  let w := w.transitionTradeStatus newStatus exchangeSync
  let w := w.transitionTradeStatus .positionCloseFailed exchangeSync
  w.onLedger (Ledger.appendSystemEvent .error "Close order failed and position may remain open."
    w.trade.id)

def applyOrderUpdate (restClient : Bool) (io : HandlerIo) (data : OrderData) (w : Work) :
    Outcome Work Bool :=
  match data.orderLinkId, orderStatusMap data.orderStatus with
  | some link, some newStatus =>
    let protective := w.trade.isProtectiveClose link
    let w := w.onTrade (Trade.noteExchangeOrderId link data.orderId)
    if protective = false ∧ shouldIgnoreEntryUpdate w.trade newStatus (data.leavesQty = some "0") then
      (.ok false, w)
    else if protective = true ∧ shouldIgnoreCloseUpdate w.trade then (.ok false, w)
    else if newStatus = .orderConfirmed ∧ protective = false then
      applyEntryFill restClient io data w
    else if protective = true ∧ newStatus = .orderConfirmed then
      applyExitFill io link data w
    else if protective = true ∧ (newStatus = .orderRejected ∨ newStatus = .orderCancelled) then
      (.ok true, applyExitFailure newStatus w)
    else (.ok true, w.transitionTradeStatus newStatus exchangeSync)
  | _, _ => (.ok false, w)

/-- `_reconcile_trade`: the answer about the tracked order, applied to the trade. -/
def reconcileTrade (restClient : Bool) (answer : StatusOutcome) (io : HandlerIo) (w : Work) :
    Outcome Work Bool :=
  if restClient = false then (.ok false, w)
  else
    match w.trade.trackedOrderLinkId with
    | none => (.ok false, w)
    | some tracked =>
      match answer with
      | .error e => (.error e, w)
      | .ok none => (.ok false, w)
      | .ok (some remote) =>
        applyOrderUpdate restClient io
          { remote with orderLinkId := remote.orderLinkId <|> some tracked } w

def processOrder (restClient : Bool) (io : HandlerIo) (data : OrderData) (w : World) :
    Outcome World Unit :=
  match data.orderLinkId, orderStatusMap data.orderStatus with
  | some link, some _ =>
    match w.db.getTradeByOrderLinkId link with
    | .error e => (.error e, w)
    | .ok none => (.ok (), w)
    | .ok (some trade) =>
      match applyOrderUpdate restClient io data (w.work trade) with
      | (.error e, k) => (.error e, w.rollback k)
      | (.ok _, k) => (.ok (), w.commit k)
  | _, _ => (.ok (), w)

/-- The entry order's executions set the slippage. -/
def noteSlippage (link : OrderLinkId) (price : Option RawNumber) (t : Trade) :
    Except PyError Trade :=
  match price, t.entryPrice with
  | some price, some entryPrice =>
    if t.orderLinkId = some link ∧ entryPrice ≠ 0 then
      price.parse.map fun p => { t with slippage := some |p - entryPrice| }
    else .ok t
  | _, _ => .ok t

/-- `_process_execution`: the fee is added by one atomic update of the row. -/
def processExecution (data : ExecutionData) (w : World) : Outcome World Unit :=
  match data.orderLinkId with
  | none => (.ok (), w)
  | some link =>
    if data.execFee = none ∧ data.execPrice = none then (.ok (), w)
    else
      match parseOptional data.execFee, w.db.getTradeByOrderLinkId link with
      | .error e, _ => (.error e, w)
      | .ok _, .error e => (.error e, w)
      | .ok _, .ok none => (.ok (), w)
      | .ok fee, .ok (some trade) =>
        let trade := match fee with
          | some q => { trade with feePaid := some (trade.feePaid.getD 0 + q) }
          | none => trade
        match noteSlippage link data.execPrice trade with
        | .error e => (.error e, w)
        | .ok trade => (.ok (), w.commit (w.work trade))

/-- `_reconcile_status_group`: one session and one commit for the whole list; an
exception is logged and what it left in the session is committed with the rest. -/
def reconcileStatusGroup (restClient : Bool) (statuses : List TradeStatus)
    (answer : TradeId → StatusOutcome) (io : TradeId → HandlerIo) (w : World) : World :=
  if restClient = false then w
  else
    (w.db.listTradesByStatus statuses).foldl
      (fun w t => w.commit (reconcileTrade restClient (answer t.id) (io t.id) (w.work t)).2) w

def reconcileEntryOrders (restClient : Bool) (answer : TradeId → StatusOutcome)
    (io : TradeId → HandlerIo) (w : World) : World :=
  reconcileStatusGroup restClient entryReconciliationStatuses answer io w

def reconcileCloseOrders (restClient : Bool) (answer : TradeId → StatusOutcome)
    (io : TradeId → HandlerIo) (w : World) : World :=
  reconcileStatusGroup restClient closeReconciliationStatuses answer io w

/-- The loop of `reconcile_missing_protection_orders`; each trade is found again by
its entry id, and a second row with that id ends the pass. -/
def protectListed (restClient : Bool) (io : TradeId → HandlerIo) :
    List Trade → World → Outcome World Unit
  | [], w => (.ok (), w)
  | t :: ts, w =>
    match t.orderLinkId with
    | none => protectListed restClient io ts w
    | some link =>
      match w.db.getTradeByOrderLinkId link with
      | .error e => (.error e, w)
      | .ok none => protectListed restClient io ts w
      | .ok (some locked) =>
        protectListed restClient io ts
          (w.commit (ensureSpotMarketProtection restClient (io locked.id) (w.work locked)).2)

/-- `reconcile_missing_protection_orders`: committed as a whole or not at all. -/
def reconcileMissingProtectionOrders (restClient : Bool) (io : TradeId → HandlerIo) (w : World) :
    World :=
  if restClient = false then w
  else
    match protectListed restClient io w.db.listSpotMarketTradesMissingProtection w with
    | (.ok (), w') => w'
    | (.error _, w') => { w' with db := w.db }

/-- The answers of `get_order_status` about the orders the trades of `db` wait for. -/
def answersOf (getOrderStatus : OrderLinkId → StatusOutcome) (db : Db) (id : TradeId) :
    StatusOutcome :=
  match (db.getTrade id).bind Trade.trackedOrderLinkId with
  | none => .ok none
  | some link => getOrderStatus link

/-- What the three passes of one `reconcile_once` meet at a trade. -/
structure ReconcileIo where
  entries : TradeId → HandlerIo
  closes : TradeId → HandlerIo
  protections : TradeId → HandlerIo

/-- `reconcile_once`, with nothing handled between its passes. -/
def reconcileOnce (restClient : Bool) (getOrderStatus : OrderLinkId → StatusOutcome)
    (io : ReconcileIo) (w : World) : World :=
  if restClient = false then w
  else
    let w := reconcileEntryOrders restClient (answersOf getOrderStatus w.db) io.entries w
    let w := reconcileCloseOrders restClient (answersOf getOrderStatus w.db) io.closes w
    reconcileMissingProtectionOrders restClient io.protections w

end AmaExecutionCore
