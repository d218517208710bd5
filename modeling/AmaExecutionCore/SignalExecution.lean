import AmaExecutionCore.OrderExecutor

/-! `ExecutionService.execute_signal`: deduplication by fingerprint around
`OrderExecutor.execute`, commit by commit. -/
namespace AmaExecutionCore

/-- The deployment: settings, whether the sync engine has a REST client, and
`fingerprint_signal_request` (canonical JSON under SHA-256). -/
structure Env where
  settings : Settings
  restClient : Bool
  fingerprint : NormalizedExecuteSignalRequest → String

structure ExecutionResult where
  signalId : SignalId
  tradeId : TradeId
  orderLinkId : Option OrderLinkId
  status : TradeStatus
  mode : TradingMode
  replayed : Bool
  deriving DecidableEq, Repr

def buildResult (signalId : SignalId) (t : Trade) (replayed : Bool) : ExecutionResult :=
  ⟨signalId, t.id, t.orderLinkId, t.status, t.mode, replayed⟩

def mapSubmission (fingerprint : String) (f : SignalSubmission → SignalSubmission)
    (submissions : List SignalSubmission) : List SignalSubmission :=
  submissions.map fun s => if s.fingerprint = fingerprint then f s else s

/-- The submission row of a new attempt: inserted under the unique fingerprint, or
pointed at the new signal. Only columns that differ from the loaded row are written. -/
def submissionRows (fingerprint : String) (loaded : Option SignalSubmission)
    (signalId : SignalId) (db : Db) : Except PyError (List SignalSubmission) :=
  match loaded with
  | none =>
    if (db.getSignalSubmission fingerprint).isSome then .error .integrityError
    else .ok (db.submissions ++ [⟨fingerprint, some signalId, none⟩])
  | some row => .ok (mapSubmission fingerprint
      (fun s => { s with
        signalId := some signalId
        tradeId := if row.tradeId = none then s.tradeId else none }) db.submissions)

def buildSignal (signalId : SignalId) (req : NormalizedExecuteSignalRequest) : Signal :=
  ⟨signalId, req.symbol, req.direction, req.reason, req.strategyVersion, req.indicatorsSnapshot⟩

/-- `create_signal_submission`, `create_signal` and the new link, as flushed. -/
def registerSignal (fingerprint : String) (loaded : Option SignalSubmission)
    (req : NormalizedExecuteSignalRequest) (w : World) : Except PyError World :=
  (submissionRows fingerprint loaded w.issued w.db).map fun rows =>
    { w with
      db := { w.db with submissions := rows, signals := w.db.signals ++ [buildSignal w.issued req] }
      issued := w.issued + 1
      origin := w.origin ++ [(w.issued, fingerprint)] }

/-- The rows `execute` commits for its trade. `increment_trade_count` reads the clock anew. -/
def recordEntry (io : ExecuteIo) (k : Work) (db : Db) : Db :=
  { db with
    trades := Db.saveTrade k.trade db.trades
    tradeEvents := db.tradeEvents ++ k.events
    ledger := ((db.ledger.ensureDailyStat io.now.date).clearPauseIfExpired
      io.now).incrementDailyTradeCount io.countedAt.date }

def linkTrade (fingerprint : String) (tradeId : TradeId) (db : Db) : Db :=
  { db with submissions :=
      mapSubmission fingerprint (fun s => { s with tradeId := some tradeId }) db.submissions }

namespace World

/-- Rows the breaker committed before it raised. -/
def adoptLedger (l : Option Ledger) (w : World) : World :=
  w.mapLedger fun old => l.getD old

def commitEntry (io : ExecuteIo) (k : Work) (w : World) : World :=
  { w with db := recordEntry io k w.db, exchange := k.exchange, issued := w.issued + 1 }

def linkTrade (fingerprint : String) (tradeId : TradeId) (w : World) : World :=
  { w with db := AmaExecutionCore.linkTrade fingerprint tradeId w.db }

end World

/-- `execute` from the trade's creation to its commit, and the final link. -/
def submitEntry (env : Env) (req : NormalizedExecuteSignalRequest) (io : ExecuteIo)
    (signalId : SignalId) (plan : EntryPlan) (w : World) : Outcome World ExecutionResult :=
  let trade := buildTrade env.settings req plan signalId io.now w.issued
  match settleEntry env.settings .spot req io (createTrade trade w) with
  | .aborted e k => (.error e, w.rollback k)
  | .committed (some e) k => (.error e, w.commitEntry io k)
  | .committed none k =>
    (.ok (buildResult signalId k.trade false),
      (w.commitEntry io k).linkTrade (env.fingerprint req) k.trade.id)

/-- The part of `execute_signal` that starts a new attempt. -/
def executeFresh (env : Env) (req : NormalizedExecuteSignalRequest) (io : ExecuteIo)
    (loaded : Option SignalSubmission) (w : World) : Outcome World ExecutionResult :=
  match registerSignal (env.fingerprint req) loaded req w with
  | .error e => (.error e, w)
  | .ok registered =>
    -- the guard commits the new submission and signal before anything is checked
    match killSwitchGuard io.now registered with
    | (.error e, w') => (.error e, w')
    | (.ok (), w') =>
      match checkEntry env.settings .spot req io w.issued w'.db with
      | .error (e, l) => (.error e, w'.adoptLedger l)
      | .ok plan => submitEntry env req io w.issued plan w'

def replayResult (submission : SignalSubmission) (t : Trade) (w : World) :
    Outcome World ExecutionResult :=
  match submission.signalId <|> t.signalId with
  | some signalId => (.ok (buildResult signalId t true), w)
  | none => (.error .runtimeError, w)

def executeSignal (env : Env) (req : NormalizedExecuteSignalRequest) (io : ExecuteIo) (w : World) :
    Outcome World ExecutionResult :=
  match w.db.getSignalSubmission (env.fingerprint req) with
  | none => executeFresh env req io none w
  | some submission =>
    match w.db.getTradeForSubmission submission with
    | none => executeFresh env req io (some submission) w
    | some existing =>
      if isTradeTerminal existing.status then executeFresh env req io (some submission) w
      else if existing.status = .orderPendingUnknown then
        match reconcilePendingUnknown io.pendingLookup (w.work existing) with
        | (.error e, k) => (.error e, w.rollback k)
        | (.ok (), k) =>
          if isTradeTerminal k.trade.status then
            executeFresh env req io (some submission) (w.commit k)
          else replayResult submission k.trade (w.commit k)
      else replayResult submission existing w

end AmaExecutionCore
