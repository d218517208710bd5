import AmaExecutionCore.Models

/-! Candles, snapshots and the signals strategies make of them, over any type of numbers. -/
namespace AmaExecutionCore

structure MarketCandle (K : Type) where
  openedAt : Timestamp
  openPrice : K
  high : K
  low : K
  close : K
  volume : K
  deriving DecidableEq, Repr

def MarketCandle.date {K : Type} (candle : MarketCandle K) : Date := candle.openedAt.date

structure MarketSnapshot (K : Type) where
  symbol : String
  interval : String
  candles : List (MarketCandle K)
  deriving DecidableEq, Repr

structure StrategySignal (K : Type) where
  symbol : String
  direction : String
  entry : K
  stop : K
  target : K
  reason : Option String := none
  strategyVersion : Option String := none
  indicatorsSnapshot : Option (List (String × K)) := none
  deriving DecidableEq, Repr

structure ExecuteSignalRequest (K : Type) where
  symbol : String
  direction : SignalDirection
  entry : K
  stop : K
  target : K
  reason : Option String := none
  strategyVersion : Option String := none
  indicatorsSnapshot : Option (List (String × K)) := none
  deriving DecidableEq, Repr

/-- `_to_execute_signal_request`, with the length the schema asks of a symbol. -/
def toExecuteSignalRequest {K : Type} (signal : StrategySignal K) :
    Except PyError (ExecuteSignalRequest K) :=
  let request (direction : SignalDirection) : Except PyError (ExecuteSignalRequest K) :=
    if 1 ≤ signal.symbol.length ∧ signal.symbol.length ≤ 20 then
      .ok { symbol := signal.symbol, direction := direction, entry := signal.entry
            stop := signal.stop, target := signal.target, reason := signal.reason
            strategyVersion := signal.strategyVersion
            indicatorsSnapshot := signal.indicatorsSnapshot }
    else .error (.valueError "symbol")
  if signal.direction = "long" then request .long
  else if signal.direction = "short" then request .short
  else .error (.valueError ("Unsupported strategy signal direction: " ++ signal.direction))

end AmaExecutionCore
