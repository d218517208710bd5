import AmaExecutionCore.MarketData
import AmaExecutionCore.Numbers
import Mathlib.Algebra.Order.Field.Basic

/-! The indicators that strategies read off a snapshot, over any ordered field. Operations that
fail in Python fail here. -/
namespace AmaExecutionCore

/-- The functions of `math` that a field lacks. -/
structure RealFunctions (K : Type) where
  log : K → K
  sqrt : K → K

/-! The literals that several modules share: what makes each of them one stands here, once. -/

scoped instance atLeastTwo_2 : Nat.AtLeastTwo 2 := ⟨by decide⟩
scoped instance atLeastTwo_3 : Nat.AtLeastTwo 3 := ⟨by decide⟩
scoped instance atLeastTwo_25 : Nat.AtLeastTwo 25 := ⟨by decide⟩
scoped instance atLeastTwo_100 : Nat.AtLeastTwo 100 := ⟨by decide⟩
scoped instance atLeastTwo_999 : Nat.AtLeastTwo 999 := ⟨by decide⟩
scoped instance atLeastTwo_1000 : Nat.AtLeastTwo 1000 := ⟨by decide⟩
scoped instance atLeastTwo_1001 : Nat.AtLeastTwo 1001 := ⟨by decide⟩

section Operations

variable {K : Type} [Field K] [LinearOrder K] {α : Type}

def zeroDivisionError : PyError := .otherError
def indexError : PyError := .otherError
def statisticsError : PyError := .otherError

def divide (x y : K) : Except PyError K :=
  if y = 0 then .error zeroDivisionError else .ok (x / y)

/-- `xs[i]`, counted from the end for a negative index. -/
def item (xs : List α) (i : Int) : Except PyError α :=
  let position := if i < 0 then xs.length + i else i
  if position < 0 then .error indexError
  else (xs[position.toNat]?).elim (.error indexError) .ok

/-- `xs[-a:-b]`, and `xs[-a:]` when `b` is zero. -/
def slice (xs : List α) (a b : Nat) : List α :=
  (xs.take (xs.length - b)).drop (xs.length - a)

/-- The neighbours in a list, as `pairwise` gives them. -/
def pairwise (xs : List α) : List (α × α) := xs.zip xs.tail

def emptySequence : PyError := .valueError "iterable argument is empty"

def maximum (xs : List K) : Except PyError K := xs.max?.elim (.error emptySequence) .ok
def minimum (xs : List K) : Except PyError K := xs.min?.elim (.error emptySequence) .ok

/-- `statistics.median`. -/
def median (xs : List K) : Except PyError K :=
  let sorted := xs.mergeSort fun x y => decide (x ≤ y)
  let half := sorted.length / 2
  if xs.isEmpty then .error statisticsError
  else if sorted.length % 2 = 1 then item sorted half
  else do return ((← item sorted (half - 1 : Int)) + (← item sorted half)) / 2

/-- `statistics.stdev`. -/
def stdev (fn : RealFunctions K) (xs : List K) : Except PyError K :=
  if xs.length < 2 then .error statisticsError
  else
    let mean := xs.sum / xs.length
    .ok (fn.sqrt ((xs.map fun x => (x - mean) ^ 2).sum / (xs.length - 1 : Nat)))

/-- `math.log`. -/
def logarithm (fn : RealFunctions K) (x : K) : Except PyError K :=
  if x ≤ 0 then .error (.valueError "math domain error") else .ok (fn.log x)

end Operations

namespace MarketSnapshot

variable {K : Type} (snapshot : MarketSnapshot K)

def closes : List K := snapshot.candles.map (·.close)
def highs : List K := snapshot.candles.map (·.high)
def lows : List K := snapshot.candles.map (·.low)
def volumes : List K := snapshot.candles.map (·.volume)

end MarketSnapshot

section Averages

variable {K : Type} [Field K] [LinearOrder K]

/-- `_calculate_ema`, the same in every strategy. -/
def calculateEma (values : List K) (period : Nat) : Except PyError (List K) :=
  let multiplier : K := 2 / (period + 1)
  match values with
  | [] => .error indexError
  | first :: prices =>
    .ok (prices.scanl (fun ema price => (price - ema) * multiplier + ema) first)

/-- The next average: `((average * (period - 1)) + value) / period`. -/
def smooth (period : Nat) (average value : K) : K := (average * (period - 1) + value) / period

def trueRange (high low previousClose : K) : K :=
  max (max (high - low) |high - previousClose|) |low - previousClose|

def trueRanges (highs lows closes : List K) : List K :=
  ((highs.tail.zip lows.tail).zip closes).map fun ((high, low), previousClose) =>
    trueRange high low previousClose

/-- `_calculate_atr`, the same in every strategy. -/
def calculateAtr (highs lows closes : List K) (period : Nat) : Except PyError (List K) :=
  if closes.length ≤ period then .error (.valueError "Not enough candles to calculate ATR.")
  else do
    let ranges := trueRanges highs lows closes
    let first ← divide (ranges.take period).sum (period : K)
    return (ranges.drop period).scanl (smooth period) first

/-- The index of an average gain and an average loss. -/
def toRsi (averageGain averageLoss : K) : Except PyError K :=
  if averageLoss = 0 then .ok 100
  else do
    let relativeStrength ← divide averageGain averageLoss
    return 100 - (← divide 100 (1 + relativeStrength))

/-- The relative strength of the moves in the values, given what a move loses. -/
def rsiValues (loss : K → K) (values : List K) (period : Nat) : Except PyError (List K) := do
  let moves := (pairwise values).map fun (previous, current) => current - previous
  let gains := moves.map fun delta => max delta 0
  let losses := moves.map loss
  let averageGain ← divide (gains.take period).sum (period : K)
  let averageLoss ← divide (losses.take period).sum (period : K)
  let averages := ((gains.drop period).zip (losses.drop period)).scanl
    (fun average next => (smooth period average.1 next.1, smooth period average.2 next.2))
    (averageGain, averageLoss)
  averages.mapM fun average => toRsi average.1 average.2

/-- `_calculate_rsi` of the pullback and of the VWAP strategies. -/
def calculateRsi (closes : List K) (period : Nat) : Except PyError (List K) :=
  if closes.length ≤ period then .error (.valueError "Not enough closes to calculate RSI.")
  else rsiValues (fun delta => |min delta 0|) closes period

end Averages

section Snapshots

variable {K : Type} [Field K] [LinearOrder K]

def realizedVolatility (fn : RealFunctions K) (keep : K × K → Bool) (snapshot : MarketSnapshot K) :
    Except PyError K :=
  let closes := slice snapshot.closes 20 0
  if closes.length < 2 then .ok 0
  else do
    let returns ← ((pairwise closes).filter keep).mapM fun (previous, current) => do
      logarithm fn (← divide current previous)
    if returns.length < 2 then .ok 0 else stdev fn returns

def typicalPrice (candle : MarketCandle K) : K := (candle.high + candle.low + candle.close) / 3

def calculateIntradayVwap (snapshot : MarketSnapshot K) : Except PyError (Option K) :=
  match snapshot.candles.getLast? with
  | none => .error (.valueError "VWAP requires candles.")
  | some last =>
    let traded := snapshot.candles.filter fun candle =>
      candle.date = last.date && candle.volume ≠ 0
    let cumulativePriceVolume := (traded.map fun c => typicalPrice c * c.volume).sum
    let cumulativeVolume := (traded.map fun c => c.volume).sum
    if cumulativeVolume = 0 then .ok none
    else some <$> divide cumulativePriceVolume cumulativeVolume

def countCurrentUtcDayCandles (snapshot : MarketSnapshot K) : Nat :=
  match snapshot.candles.getLast? with
  | none => 0
  | some last => snapshot.candles.countP fun candle => candle.date = last.date

end Snapshots

section Regime

variable {K : Type} [Field K] [LinearOrder K]

structure DirectionalMove (K : Type) where
  trueRange : K
  positive : K
  negative : K

def directionalMove (candles : MarketCandle K × MarketCandle K) : DirectionalMove K :=
  let (previous, current) := candles
  let upwardMove := current.high - previous.high
  let downwardMove := previous.low - current.low
  { trueRange := trueRange current.high current.low previous.close
    positive := if upwardMove > downwardMove ∧ upwardMove > 0 then upwardMove else 0
    negative := if downwardMove > upwardMove ∧ downwardMove > 0 then downwardMove else 0 }

def calculateDx (move : DirectionalMove K) : Except PyError K :=
  if move.trueRange ≤ 0 then .ok 0
  else do
    let positiveDi := (← divide move.positive move.trueRange) * 100
    let negativeDi := (← divide move.negative move.trueRange) * 100
    let denominator := positiveDi + negativeDi
    if denominator ≤ 0 then return 0
    else return (← divide |positiveDi - negativeDi| denominator) * 100

/-- The Wilder sums after one more move. -/
def accumulate (period : Nat) (sums move : DirectionalMove K) : DirectionalMove K :=
  { trueRange := sums.trueRange - sums.trueRange / period + move.trueRange
    positive := sums.positive - sums.positive / period + move.positive
    negative := sums.negative - sums.negative / period + move.negative }

def calculateAdx (candles : List (MarketCandle K)) (period : Nat) : Except PyError K := do
  let moves := (pairwise candles).map directionalMove
  let seed := moves.take period
  let sums := (moves.drop period).scanl (accumulate period)
    { trueRange := (seed.map (·.trueRange)).sum
      positive := (seed.map (·.positive)).sum
      negative := (seed.map (·.negative)).sum }
  let dxValues ← sums.mapM calculateDx
  let seedSize := min period dxValues.length
  let first ← divide (dxValues.take seedSize).sum (seedSize : K)
  return (dxValues.drop seedSize).foldl (smooth period) first

structure RegimeDetectionResult (K : Type) where
  adxValue : K
  regime : String
  recommendedStrategy : String

def detectRegime (candles : List (MarketCandle K)) (period : Nat) :
    Except PyError (RegimeDetectionResult K) :=
  let needed := period + 1
  if period = 0 then .error (.valueError "ADX period must be greater than zero.")
  else if candles.length < needed then
    .error (.valueError s!"At least {needed} candles are required to detect regime.")
  else do
    let adxValue ← calculateAdx candles period
    if adxValue < 25 then
      return { adxValue := adxValue, regime := "ranging", recommendedStrategy := "vwap_reversion" }
    else
      return { adxValue := adxValue, regime := "trending", recommendedStrategy := "ema_crossover" }

end Regime

end AmaExecutionCore
