import AmaExecutionCore.Exchange
import AmaExecutionCore.Rows
import Mathlib.Data.List.DropRight

/-! `TradeJournalStore`. A `Work` is what one session does to one trade: the trade as
the session holds it, the trade events it appends, the shared rows it reads and
writes, and the orders it sends. Nothing of it is committed. -/
namespace AmaExecutionCore

/-- `nonce` stands for the `uuid4` values drawn while the work runs. -/
structure Work where
  trade : Trade
  events : List TradeEvent := []
  ledger : Ledger
  exchange : Exchange
  nonce : Nat
  deriving DecidableEq, Repr

/-- A call that may raise; what it did to the session before raising stays done. -/
abbrev Outcome (σ α : Type) := Except PyError α × σ

namespace Work

def onTrade (f : Trade → Trade) (w : Work) : Work := { w with trade := f w.trade }

def onLedger (f : Ledger → Ledger) (w : Work) : Work := { w with ledger := f w.ledger }

def appendTradeEvent (eventType : TradeEventType) (fromStatus toStatus : Option TradeStatus)
    (metadata : List (String × String)) (w : Work) : Work :=
  { w with events := w.events ++ [⟨w.trade.id, eventType, fromStatus, toStatus, metadata⟩] }

def transitionTradeStatus (newStatus : TradeStatus) (metadata : List (String × String))
    (w : Work) : Work :=
  if w.trade.status = newStatus then w
  else (w.onTrade fun t => { t with status := newStatus }).appendTradeEvent
    .statusTransition (some w.trade.status) (some newStatus) metadata

/-- `place_order`: the request goes out whatever the call then returns. -/
def placeOrder (role : OrderRole) (request : OrderRequest) (outcome : PlaceOutcome)
    (w : Work) : Work :=
  { w with exchange := w.exchange.place w.trade.id role request outcome }

end Work

namespace Ledger

def ensureDailyStat (date : Date) (l : Ledger) : Ledger :=
  if l.dailyStats.any (fun stat => stat.statDate = date) then l
  else { l with dailyStats := l.dailyStats ++ [{ statDate := date }] }

def dailyStat (date : Date) (l : Ledger) : DailyStat :=
  (l.dailyStats.find? (fun stat => stat.statDate = date)).getD { statDate := date }

/-- `get_or_create_daily_stat` and what the caller does to the row. -/
def updateDailyStat (date : Date) (f : DailyStat → DailyStat) (l : Ledger) : Ledger :=
  { l.ensureDailyStat date with
      dailyStats := (l.ensureDailyStat date).dailyStats.map
        (fun stat => if stat.statDate = date then f stat else stat) }

def incrementDailyTradeCount (date : Date) (l : Ledger) : Ledger :=
  l.updateDailyStat date fun stat => { stat with totalTrades := stat.totalTrades + 1 }

def resetConsecutiveLosses (date : Date) (l : Ledger) : Ledger :=
  l.updateDailyStat date fun stat => { stat with consecutiveLosses := 0 }

def activateKillSwitch (now : Timestamp) (l : Ledger) : Ledger :=
  { l with safety := { l.safety with killSwitchActive := true, lastTriggeredAt := some now } }

def setPause (reason : PauseReason) (manualResetRequired : Bool)
    (cooldownUntil : Option Timestamp) (now : Timestamp) (l : Ledger) : Ledger :=
  { l with safety := { l.safety with
      pauseReason := some reason
      manualResetRequired := manualResetRequired
      cooldownUntil := cooldownUntil
      lastTriggeredAt := some now } }

def lossStreakStatDate (state : SafetyState) (now : Timestamp) : Date :=
  match state.lastTriggeredAt with
  | none => now.date
  | some t => t.date

def clearPauseIfExpired (now : Timestamp) (l : Ledger) : Ledger :=
  match l.safety.pauseReason, l.safety.cooldownUntil with
  | some .cooldown, some cooldownUntil =>
    if cooldownUntil ≤ now then
      let l := l.resetConsecutiveLosses (lossStreakStatDate l.safety now)
      { l with safety := { l.safety with
          pauseReason := none, cooldownUntil := none, manualResetRequired := false } }
    else l
  | _, _ => l

def resetSafetyState (resetLosses : Bool) (now : Timestamp) (l : Ledger) : Ledger :=
  let l := if resetLosses then l.resetConsecutiveLosses (lossStreakStatDate l.safety now) else l
  { l with safety := { l.safety with
      killSwitchActive := false, pauseReason := none, cooldownUntil := none,
      manualResetRequired := false } }

def appendSystemEvent (eventType : SystemEventType) (description : String)
    (tradeId : Option TradeId) (l : Ledger) : Ledger :=
  { l with systemEvents := l.systemEvents ++ [⟨eventType, description, tradeId⟩] }

end Ledger

/-- The code points of `str.isspace`. -/
def isSpace (c : Char) : Bool :=
  c.toNat ∈ [0x9, 0xa, 0xb, 0xc, 0xd, 0x1c, 0x1d, 0x1e, 0x1f, 0x20, 0x85, 0xa0, 0x1680, 0x2000,
    0x2001, 0x2002, 0x2003, 0x2004, 0x2005, 0x2006, 0x2007, 0x2008, 0x2009, 0x200a, 0x2028,
    0x2029, 0x202f, 0x205f, 0x3000]

/-- `text.strip()`. -/
def strip (text : List Char) : List Char :=
  (text.dropWhile isSpace).rdropWhile isSpace

/-- Upper case of the letters of ASCII, which leaves every other character as it is. -/
def asciiUpper (c : Char) : Char :=
  if 97 ≤ c.toNat ∧ c.toNat < 97 + 26 then Char.ofNat (65 + (c.toNat - 97)) else c

/-- `symbol.strip().upper()`; the symbols of the exchange have only ASCII letters. -/
def symbolKey (symbol : String) : String :=
  String.ofList ((strip symbol.toList).map asciiUpper)

def updateSymbolStats (symbol : String) (isWin : Bool) (stat : DailyStat) : DailyStat :=
  let current := (stat.symbolStats.lookup (symbolKey symbol)).getD {}
  let next : SymbolStats :=
    if isWin then { current with wins := current.wins + 1, consecutiveLosses := 0 }
    else { current with losses := current.losses + 1,
                        consecutiveLosses := current.consecutiveLosses + 1 }
  { stat with symbolStats :=
      (symbolKey symbol, next) :: stat.symbolStats.filter (fun e => e.1 ≠ symbolKey symbol) }

/-- What `apply_trade_outcome_analytics` does to the row of the day. -/
def bookOutcome (trade : Trade) (realizedPnl : Rat) (stat : DailyStat) : DailyStat :=
  let feePaid := trade.feePaid.getD 0
  let stat :=
    if stat.totalTrades ≤ stat.winningTrades + stat.losingTrades then
      { stat with totalTrades := stat.totalTrades + 1 }
    else stat
  let stat := { stat with
    grossPnl := some (stat.grossPnl.getD 0 + realizedPnl),
    totalFees := some (stat.totalFees.getD 0 + feePaid),
    netPnl := some (stat.netPnl.getD 0 + (realizedPnl - feePaid)) }
  if realizedPnl < 0 then
    updateSymbolStats trade.symbol false { stat with
      losingTrades := stat.losingTrades + 1,
      consecutiveLosses := stat.consecutiveLosses + 1,
      dailyLossPct := match trade.pnlPct with
        | some p => some (stat.dailyLossPct.getD 0 + |p|)
        | none => stat.dailyLossPct }
  else
    updateSymbolStats trade.symbol true { stat with
      winningTrades := stat.winningTrades + 1, consecutiveLosses := 0 }

def Work.applyTradeOutcomeAnalytics (now : Timestamp) (w : Work) : Outcome Work Unit :=
  match w.trade.realizedPnl with
  | none => (.error (.valueError "Trade outcome analytics require realized_pnl."), w)
  | some realizedPnl =>
    let date := (w.trade.closedAt.getD now).date
    (.ok (), w.onLedger (Ledger.updateDailyStat date (bookOutcome w.trade realizedPnl)))

def calculateRealizedPnl (trade : Trade) (exitPrice : Rat) : Rat :=
  let entryPrice := (pyOr trade.avgFillPrice trade.entryPrice).getD 0
  let filledQty := (pyOr trade.filledQty trade.qty).getD 0
  match trade.signalDirection with
  | .long => (exitPrice - entryPrice) * filledQty
  | .short => (entryPrice - exitPrice) * filledQty

def calculatePnlPct (trade : Trade) (realizedPnl : Rat) : Option Rat :=
  match trade.equityAtEntry with
  | none => none
  | some equity => if equity = 0 then none else some (realizedPnl / equity)

def calculatePnlInR (trade : Trade) (realizedPnl : Rat) : Option Rat :=
  match trade.riskAmountUsd with
  | none => none
  | some risk => if risk = 0 then none else some (realizedPnl / risk)

namespace Db

/-- The row is written in place, or appended when it is new. -/
def saveTrade (trade : Trade) (trades : List Trade) : List Trade :=
  Rows.put Trade.id trade trades

/-- `commit` of a session that worked on one trade. -/
def record (w : Work) (db : Db) : Db :=
  { db with trades := saveTrade w.trade db.trades,
            tradeEvents := db.tradeEvents ++ w.events,
            ledger := w.ledger }

def getTrade (tradeId : TradeId) (db : Db) : Option Trade :=
  db.trades.find? fun t => t.id = tradeId

end Db

def Trade.ownsOrderLinkId (link : OrderLinkId) (t : Trade) : Bool :=
  t.orderLinkId = some link || t.closeOrderLinkId = some link ||
    t.stopOrderLinkId = some link || t.takeProfitOrderLinkId = some link

namespace Db

/-- `get_trade_by_order_link_id`; `scalar_one_or_none` raises on a second row. -/
def getTradeByOrderLinkId (link : OrderLinkId) (db : Db) : Except PyError (Option Trade) :=
  match db.trades.filter (Trade.ownsOrderLinkId link) with
  | [] => .ok none
  | [t] => .ok (some t)
  | _ => .error .multipleResultsFound

def listTradesByStatus (statuses : List TradeStatus) (db : Db) : List Trade :=
  db.trades.filter fun t => t.status ∈ statuses

def missingProtection (t : Trade) : Bool :=
  t.marketType = .spot && t.orderType = some .market &&
    (t.status = .orderConfirmed || t.status = .positionOpen) &&
    t.filledQty.getD 0 ≠ 0 &&
    (t.stopOrderLinkId = none || (t.targetPrice ≠ none && t.takeProfitOrderLinkId = none))

def listSpotMarketTradesMissingProtection (db : Db) : List Trade :=
  db.trades.filter missingProtection

def getSignalSubmission (fingerprint : String) (db : Db) : Option SignalSubmission :=
  db.submissions.find? fun s => s.fingerprint = fingerprint

/-- `get_trade_for_submission`: the linked trade, else the newest trade of the signal. -/
def getTradeForSubmission (s : SignalSubmission) (db : Db) : Option Trade :=
  match s.tradeId.bind db.getTrade with
  | some t => some t
  | none => match s.signalId with
    | none => none
    | some signalId => (db.trades.filter fun t => t.signalId = some signalId).getLast?

end Db

/-- The committed database, the exchange, and the supply of fresh identifiers.
`origin` says which fingerprint a signal was stored for; no table keeps it. -/
structure World where
  db : Db := {}
  exchange : Exchange := {}
  issued : Nat := 0
  origin : List (SignalId × String) := []
  deriving DecidableEq, Repr

namespace World

def work (trade : Trade) (w : World) : Work :=
  { trade := trade, ledger := w.db.ledger, exchange := w.exchange, nonce := w.issued }

/-- `session.commit()` of the work. -/
def commit (k : Work) (w : World) : World :=
  { w with db := w.db.record k, exchange := k.exchange, issued := w.issued + 1 }

/-- The session is closed without a commit: the orders it sent stay sent. -/
def rollback (k : Work) (w : World) : World :=
  { w with exchange := k.exchange, issued := w.issued + 1 }

end World
end AmaExecutionCore
