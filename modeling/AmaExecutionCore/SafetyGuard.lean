import AmaExecutionCore.Store

/-! `KillSwitch` and `CircuitBreaker` over the shared rows. -/
namespace AmaExecutionCore

def cancellableStatuses : List TradeStatus :=
  [.orderSubmitted, .orderPendingUnknown, .orderPartiallyFilled]

def World.mapLedger (f : Ledger → Ledger) (w : World) : World :=
  { w with db := { w.db with ledger := f w.db.ledger } }

/-- `KillSwitch.status`, which commits. -/
def killSwitchStatus (now : Timestamp) (w : World) : World :=
  w.mapLedger (Ledger.clearPauseIfExpired now)

/-- `KillSwitch.guard`: the commit of `status` is kept even when it raises. -/
def killSwitchGuard (now : Timestamp) (w : World) : Outcome World Unit :=
  let w := killSwitchStatus now w
  if w.db.ledger.safety.killSwitchActive then (.error .killSwitchActiveError, w) else (.ok (), w)

def cancelEntryOrder (x : Exchange) (t : Trade) : Exchange :=
  match t.orderLinkId with
  | some link => x.requestCancel link
  | none => x

/-- `_cancel_pending_orders`; a call that raises is logged and the loop goes on. -/
def cancelPendingOrders (w : World) : World :=
  { w with
    exchange := (w.db.listTradesByStatus cancellableStatuses).foldl cancelEntryOrder w.exchange }

/-- `KillSwitch.activate`. -/
def activateKillSwitch (mode : TradingMode) (restClient : Bool) (now : Timestamp) (w : World) :
    World :=
  let w := killSwitchStatus now w
  if w.db.ledger.safety.killSwitchActive then w
  else
    let w := w.mapLedger (Ledger.activateKillSwitch now)
    let w := if restClient = true ∧ mode ≠ .shadow then cancelPendingOrders w else w
    w.mapLedger (Ledger.appendSystemEvent .killSwitch "Kill switch activated." none)

/-- `KillSwitch.reset`. -/
def resetKillSwitch (now : Timestamp) (w : World) : World :=
  w.mapLedger fun l =>
    (l.resetSafetyState (l.safety.pauseReason = some .cooldown ||
      l.safety.pauseReason = some .hardLossStreak) now).appendSystemEvent
        .killSwitch "Safety state reset." none

def calculateWeeklyLossPct (now : Timestamp) (l : Ledger) : Rat :=
  ((l.dailyStats.filter fun stat => now.date - 6 ≤ stat.statDate).map
    fun stat => stat.dailyLossPct.getD 0).sum

def pauseError : PauseReason → PyError
  | .dailyLoss => .dailyLossLimitError
  | .weeklyLoss => .weeklyLossLimitError
  | .cooldown => .cooldownActiveError
  | .hardLossStreak => .hardLossStreakPauseError

/-- A tripwire sets a pause, commits it and raises. -/
def trip (reason : PauseReason) (manual : Bool) (cooldownUntil : Option Timestamp)
    (description : String) (now : Timestamp) (l : Ledger) :
    Except (PyError × Option Ledger) Ledger :=
  .error (pauseError reason, some
    ((l.setPause reason manual cooldownUntil now).appendSystemEvent .circuitBreaker
      description none))

/-- `CircuitBreaker.check`. An error carries the rows that were committed before it
was raised, if any were. -/
def circuitBreakerCheck (s : Settings) (now : Timestamp) (l : Ledger) :
    Except (PyError × Option Ledger) Ledger :=
  let l := (l.ensureDailyStat now.date).clearPauseIfExpired now
  let stat := l.dailyStat now.date
  match l.safety.pauseReason with
  | some reason => .error (pauseError reason, none)
  | none =>
    if s.maxTradesPerDay ≤ stat.totalTrades then .error (.dailyLossLimitError, none)
    else if stat.dailyLossPct.any (s.maxDailyLossPct ≤ ·) then
      trip .dailyLoss true none "Daily loss limit reached." now
        (l.updateDailyStat now.date fun stat => { stat with circuitBreakerTriggered := true })
    else if s.maxWeeklyLossPct ≤ calculateWeeklyLossPct now l then
      trip .weeklyLoss true none "Weekly loss limit reached." now l
    else if s.hardPauseConsecutiveLosses ≤ stat.consecutiveLosses then
      trip .hardLossStreak true none "consecutive losses — hard loss-streak pause triggered." now l
    else if s.maxConsecutiveLosses ≤ stat.consecutiveLosses then
      trip .cooldown false (some (now + s.cooldownHours * 3600000000))
        "consecutive losses — cooldown triggered." now l
    else .ok l

end AmaExecutionCore
