import AmaExecutionCore.SignalRunners
import AmaExecutionCore.CandleWindows

/-! `WebSocketSignalRunner` and the candle feed it reads: one snapshot at a time, while the feed
goes on. -/
namespace AmaExecutionCore

/-- Where `run_forever` stands: at the test of its loop, at the queue, at the row of today, at the
strategy, at the order, or over. -/
inductive WebSocketStage (K : Type) where
  | looping
  | getting
  | blacklist (snapshot : MarketSnapshot K)
  | strategy (snapshot : MarketSnapshot K)
  | execution (symbol : String)
  | ended

namespace WebSocketStage

variable {K : Type}

/-- The snapshot that is looked at before the order. -/
def snapshot : WebSocketStage K → Option (MarketSnapshot K)
  | .blacklist snapshot | .strategy snapshot => some snapshot
  | _ => none

/-- The symbol that is past the check of its cooldown. -/
def symbol : WebSocketStage K → Option String
  | .blacklist snapshot | .strategy snapshot => some snapshot.symbol
  | .execution symbol => some symbol
  | _ => none

def isGetting : WebSocketStage K → Bool
  | .getting => true
  | _ => false

end WebSocketStage

structure WebSocketSignalRunner (K : Type) where
  strategy : BaseStrategy K
  feed : BybitCandleFeed
  cooldownSeconds : Int
  hasSessionFactory : Bool := true
  maxStalenessIntervals : Int := 2
  graceSeconds : Int := 15

structure WebSocketState (K : Type) where
  clock : Timestamp
  feed : CandleFeedState K
  states : String → SymbolState
  stage : WebSocketStage K := .looping
  stopped : Bool := false
  history : RunnerHistory K := []

namespace WebSocketState

variable {K : Type} (s : WebSocketState K)

def goTo (stage : WebSocketStage K) : WebSocketState K := { s with stage := stage }

def happens (event : RunnerEvent K) : WebSocketState K :=
  { s with history := s.history ++ [(s.clock, event)] }

def stop : WebSocketState K := { s with stopped := true }

def recordEntry (symbol : String) : WebSocketState K :=
  { s with states := Function.update s.states symbol ((s.states symbol).recordEntry s.clock) }

/-- The test of the loop. -/
def loop : WebSocketState K :=
  match s.stage with
  | .looping => if s.stopped then s.goTo .ended else s.goTo .getting
  | _ => s

/-- The queue stays empty for two seconds. -/
def timeout : WebSocketState K :=
  match s.stage with
  | .getting => s.goTo .looping
  | _ => s

/-- The row of today, or what the session raised, which ends the task. -/
def checkBlacklist (row : Except PyError DailyStat) : WebSocketState K :=
  match s.stage with
  | .blacklist snapshot =>
    match row with
    | .error _ => s.goTo .ended
    | .ok stat =>
      s.goTo (if isSymbolBlacklisted stat snapshot.symbol then .looping else .strategy snapshot)
  | _ => s

/-- `execute_signal` returns or raises. -/
def executed (outcome : Except PyError Unit) : WebSocketState K :=
  match s.stage with
  | .execution symbol =>
    match outcome with
    | .ok () => ((s.recordEntry symbol).happens (.recorded symbol)).goTo .looping
    | .error e => (if e.isSafetyGuardError then s.stop else s).goTo .looping
  | _ => s

end WebSocketState

/-- A step of the runner, a step of the feed, a stop from outside, or time that passes. -/
inductive WebSocketAction (K : Type) where
  | elapse (microseconds : Nat)
  | feed (action : FeedAction K)
  | loop
  | timeout
  | take
  | checkBlacklist (row : Except PyError DailyStat)
  | evaluated
  | executed (outcome : Except PyError Unit)
  | stop

namespace WebSocketSignalRunner

variable {K : Type} (runner : WebSocketSignalRunner K)

/-- The feed has started with the klines of each symbol. -/
def initialState (clock : Timestamp) (answers : String → List (MarketCandle K)) :
    WebSocketState K where
  clock := clock
  feed := runner.feed.start answers
  states := fun symbol => ⟨symbol, runner.cooldownSeconds, none⟩

def isStale (snapshot : MarketSnapshot K) (now : Timestamp) : Except PyError Bool :=
  isSnapshotStale snapshot runner.maxStalenessIntervals runner.graceSeconds now

/-- `_skip_reason`, up to the row of today. What it raises ends the task. -/
def check (feedSnapshot : CandleFeedSnapshot K) (s : WebSocketState K) : WebSocketState K :=
  let snapshot := feedSnapshot.snapshot
  if feedSnapshot.gapRecovered then s.goTo .looping
  else
    match runner.isStale snapshot s.clock with
    | .error _ => s.goTo .ended
    | .ok true => s.goTo .looping
    | .ok false =>
      if (s.states snapshot.symbol).isInCooldown s.clock then s.goTo .looping
      else if runner.hasSessionFactory then s.goTo (.blacklist snapshot)
      else s.goTo (.strategy snapshot)

/-- `queue.get` returns a snapshot. -/
def take (s : WebSocketState K) : WebSocketState K :=
  match s.stage, s.feed.queue with
  | .getting, feedSnapshot :: _ =>
    runner.check feedSnapshot
      ({ s with feed := runner.feed.step s.feed .taken }.happens (.taken feedSnapshot))
  | _, _ => s

/-- What the runner asks `execute_signal` for, if the strategy has a signal. -/
def requestOf (snapshot : MarketSnapshot K) : Option (ExecuteSignalRequest K) :=
  match runner.strategy.generateSignal snapshot with
  | .ok (some signal) => (toExecuteSignalRequest signal).toOption
  | _ => none

/-- `generate_signal` returns or raises, up to `execute_signal`. -/
def evaluated (s : WebSocketState K) : WebSocketState K :=
  match s.stage with
  | .strategy snapshot =>
    match runner.requestOf snapshot with
    | none => s.goTo .looping
    | some request =>
      (s.happens (.called snapshot.symbol snapshot request)).goTo (.execution snapshot.symbol)
  | _ => s

def step (s : WebSocketState K) : WebSocketAction K → WebSocketState K
  | .elapse microseconds => { s with clock := s.clock + microseconds }
  -- only the runner takes from the queue
  | .feed .taken => s
  | .feed action => { s with feed := runner.feed.step s.feed action }
  | .loop => s.loop
  | .timeout => s.timeout
  | .take => runner.take s
  | .checkBlacklist row => s.checkBlacklist row
  | .evaluated => runner.evaluated s
  | .executed outcome => s.executed outcome
  | .stop => s.stop

end WebSocketSignalRunner

end AmaExecutionCore
