import AmaExecutionCore.ExchangeSync

/-! `PositionManagerService`: which trades are open, and closing them. -/
namespace AmaExecutionCore

def openPositionStatuses : List TradeStatus :=
  [.positionOpen, .orderPartiallyFilled, .positionClosePending, .positionCloseFailed]

def closeRetryableStatuses : List TradeStatus :=
  [.positionOpen, .orderPartiallyFilled, .positionCloseFailed]

def listOpenTrades (db : Db) : List Trade := db.listTradesByStatus openPositionStatuses

structure CloseIo where
  now : Timestamp
  close : PlaceOutcome

def positionManager : List (String × String) := [("source", "position_manager")]

def prepareCloseSubmission (exitReason : ExitReason) (nonce : Nat) (t : Trade) : Trade :=
  { t with
    closeOrderLinkId := some (.close nonce)
    closeExchangeOrderId := none
    exitReason := some exitReason }

def closeRequest (t : Trade) (nonce : Nat) : OrderRequest :=
  { category := .spot, symbol := t.symbol, side := t.closeSide, orderType := .market
    qty := (pyOr t.filledQty t.qty).getD 0
    orderLinkId := .close nonce, marketUnit := marketUnit t.closeSide }

/-- The price a shadow close assumes. -/
def shadowExitPrice (exitReason : ExitReason) (t : Trade) : Option Rat :=
  match exitReason, t.stopPrice, t.targetPrice with
  | .slHit, some stopPrice, _ => some stopPrice
  | .tpHit, _, some targetPrice => some targetPrice
  | _, _, _ => pyOr (pyOr t.targetPrice t.entryPrice) t.stopPrice

/-- The shadow branch of `close_trade`. -/
def recordShadowClose (exitReason : ExitReason) (now : Timestamp) (w : Work) : Outcome Work Unit :=
  let w := w.onTrade fun t =>
    { t with avgExitPrice := shadowExitPrice exitReason t, closedAt := some now }
  let w := w.onTrade fun t => t.recordPnl (t.avgExitPrice.getD 0)
  let w := w.onTrade fun t => { t with holdTimeSeconds := t.holdTime now }
  let w := w.transitionTradeStatus .pnlRecorded (positionManager ++ [("execution_mode", "shadow")])
  w.applyTradeOutcomeAnalytics now

/-- `close_trade` from the loaded trade on, up to its commit. -/
def submitClose (mode : TradingMode) (exitReason : ExitReason) (io : CloseIo) (w : Work) :
    Outcome Work Unit :=
  let w := w.onTrade (prepareCloseSubmission exitReason w.nonce)
  let w := w.transitionTradeStatus .positionClosePending positionManager
  if mode = .shadow then recordShadowClose exitReason io.now w
  else
    let w := w.placeOrder .close (closeRequest w.trade w.nonce) io.close
    match io.close.result with
    | .error e => (.error e, w)
    | .ok orderId => (.ok (), w.onTrade (Trade.noteCloseExchangeId orderId))

def closeTrade (mode : TradingMode) (tradeId : TradeId) (exitReason : ExitReason) (io : CloseIo)
    (w : World) : Outcome World Unit :=
  match w.db.getTrade tradeId with
  | none => (.error (.valueError "was not found"), w)
  | some trade =>
    if trade.status ∉ closeRetryableStatuses then (.error (.valueError "is not open"), w)
    else
      match submitClose mode exitReason io (w.work trade) with
      | (.error e, k) => (.error e, w.rollback k)
      | (.ok (), k) => (.ok (), w.commit k)

end AmaExecutionCore
