import AmaExecutionCore.Store
import AmaExecutionCore.TrendStrategies

/-! The strategies that bet on a return, to the VWAP or after a divergence, and the two builders
of strategies. -/
namespace AmaExecutionCore

structure RSIDivergenceStrategy (K : Type) [Field K] where
  rsiPeriod : Nat := 14
  swingWing : Nat := 2
  swingLookback : Nat := 30
  minRrr : K := 3 / 2
  targetRrr : K := 3 / 2

namespace RSIDivergenceStrategy

variable {K : Type} [Field K] [LinearOrder K] (strategy : RSIDivergenceStrategy K)

/-- `_calculate_rsi` of this strategy. -/
def calculateRsi (values : List K) (period : Nat) : Except PyError (List K) :=
  let needed := period + 1
  if values.length < needed then
    .error (.valueError s!"At least {needed} closes are required to calculate RSI.")
  else rsiValues (fun delta => max (-delta) 0) values period

def compareAt (compare : K → K → Bool) (values : List K) (i j : Nat) : Bool :=
  match values[i]?, values[j]? with
  | some x, some y => compare x y
  | _, _ => false

/-- The indices whose value compares so with the `wing` neighbours on each side. -/
def findSwings (compare : K → K → Bool) (values : List K) (wing : Nat) : List Nat :=
  let candidates := (List.range (values.length - wing - wing)).map fun offset => offset + wing
  candidates.filter fun i =>
    ((List.range wing).all fun k => compareAt compare values i (i - (k + 1))) &&
    ((List.range wing).all fun k => compareAt compare values i (i + (k + 1)))

def findSwingLows (values : List K) (wing : Nat) : List Nat :=
  findSwings (fun x y => decide (x < y)) values wing

def findSwingHighs (values : List K) (wing : Nat) : List Nat :=
  findSwings (fun x y => decide (x > y)) values wing

def requiredCandleCount : Nat :=
  strategy.rsiPeriod + strategy.swingLookback + strategy.swingWing * 2 + 5

def searchSize : Nat := strategy.swingLookback + strategy.swingWing * 2

def nearThreshold : Int := (strategy.searchSize : Int) - strategy.swingWing * 2 - 3

/-- The last two swings, with the closes and the relative strengths there. -/
structure Swings (K : Type) where
  second : Nat
  priceAtSwing1 : K
  priceAtSwing2 : K
  rsiAtSwing1 : K
  rsiAtSwing2 : K

/-- The last two swings of the search window, unless there are fewer or the second is stale. -/
def lastSwings (searchCloses searchRsi : List K) (swingIdxs : List Nat) :
    Except PyError (Option (Swings K)) :=
  if swingIdxs.length < 2 then .ok none
  else do
    let i1 ← item swingIdxs (-2)
    let i2 ← item swingIdxs (-1)
    if (i2 : Int) < strategy.nearThreshold then return none
    else return some {
      second := i2
      priceAtSwing1 := ← item searchCloses i1
      priceAtSwing2 := ← item searchCloses i2
      rsiAtSwing1 := ← item searchRsi i1
      rsiAtSwing2 := ← item searchRsi i2 }

def signal (snapshot : MarketSnapshot K) (direction reason : String) (entry stop target rrr : K)
    (swings : Swings K) : StrategySignal K :=
  { symbol := snapshot.symbol
    direction := direction
    entry := entry
    stop := stop
    target := target
    reason := some reason
    strategyVersion := some "rsi-divergence-v1"
    indicatorsSnapshot := some
      [("rsi_at_swing1", swings.rsiAtSwing1), ("rsi_at_swing2", swings.rsiAtSwing2),
        ("price_at_swing1", swings.priceAtSwing1), ("price_at_swing2", swings.priceAtSwing2),
        ("rrr", rrr)] }

/-- The position in the whole snapshot of the second swing. -/
def fullIndex (closes : List K) (swings : Swings K) : Int :=
  (closes.length : Int) - strategy.searchSize + swings.second

def bullishSignal (snapshot : MarketSnapshot K) (swings : Swings K) :
    Except PyError (Option (StrategySignal K)) := do
  let low ← item snapshot.lows (strategy.fullIndex snapshot.closes swings)
  let stop := low * (999 / 1000)
  let entry ← item snapshot.closes (-1)
  if stop ≥ entry then return none
  else do
    let risk := entry - stop
    let target := entry + strategy.targetRrr * risk
    let rrr ← divide (target - entry) risk
    if rrr < strategy.minRrr - 1 / 1000000000 then return none
    else return some (signal snapshot "long" "rsi_divergence_bullish" entry stop target rrr swings)

def bearishSignal (snapshot : MarketSnapshot K) (swings : Swings K) :
    Except PyError (Option (StrategySignal K)) := do
  let high ← item snapshot.highs (strategy.fullIndex snapshot.closes swings)
  let stop := high * (1001 / 1000)
  let entry ← item snapshot.closes (-1)
  if stop ≤ entry then return none
  else do
    let risk := stop - entry
    let target := entry - strategy.targetRrr * risk
    let rrr ← divide (entry - target) risk
    if rrr < strategy.minRrr - 1 / 1000000000 then return none
    else return some (signal snapshot "short" "rsi_divergence_bearish" entry stop target rrr swings)

def checkBullishDivergence (snapshot : MarketSnapshot K) (searchCloses searchRsi : List K) :
    Except PyError (Option (StrategySignal K)) := do
  match ← strategy.lastSwings searchCloses searchRsi
      (findSwingLows searchCloses strategy.swingWing) with
  | none => return none
  | some swings =>
    if swings.priceAtSwing2 < swings.priceAtSwing1 ∧ swings.rsiAtSwing2 > swings.rsiAtSwing1 then
      strategy.bullishSignal snapshot swings
    else return none

def checkBearishDivergence (snapshot : MarketSnapshot K) (searchCloses searchRsi : List K) :
    Except PyError (Option (StrategySignal K)) := do
  match ← strategy.lastSwings searchCloses searchRsi
      (findSwingHighs searchCloses strategy.swingWing) with
  | none => return none
  | some swings =>
    if swings.priceAtSwing2 > swings.priceAtSwing1 ∧ swings.rsiAtSwing2 < swings.rsiAtSwing1 then
      strategy.bearishSignal snapshot swings
    else return none

def generateSignal (snapshot : MarketSnapshot K) : Except PyError (Option (StrategySignal K)) := do
  validateSnapshot strategy.requiredCandleCount snapshot
  let rsi ← calculateRsi snapshot.closes strategy.rsiPeriod
  let searchCloses := slice snapshot.closes strategy.searchSize 0
  let searchRsi := slice rsi strategy.searchSize 0
  match ← strategy.checkBullishDivergence snapshot searchCloses searchRsi with
  | some signal => return some signal
  | none => strategy.checkBearishDivergence snapshot searchCloses searchRsi

end RSIDivergenceStrategy

structure VWAPReversionStrategy (K : Type) [Field K] where
  atrPeriod : Nat := 14
  rsiPeriod : Nat := 7
  minDeviation : K := 5 / 1000
  minCurrentDayCandles : Nat := 12
  minRrr : K := 1

namespace VWAPReversionStrategy

variable {K : Type} [Field K] [LinearOrder K] (strategy : VWAPReversionStrategy K)

def requiredCandleCount : Nat := 50

def rrrMeetsMinimum (entry stop target : K) : Except PyError Bool :=
  let risk := |entry - stop|
  let reward := |target - entry|
  if risk = 0 then .ok false
  else do return !decide ((← divide reward risk) < strategy.minRrr)

/-- The signal towards the VWAP, if its reward is large enough for its risk. -/
def signal (snapshot : MarketSnapshot K) (direction : String) (entry stop vwap rsi atr : K) :
    Except PyError (Option (StrategySignal K)) := do
  let meets ← strategy.rrrMeetsMinimum entry stop vwap
  if meets then
    return some {
      symbol := snapshot.symbol
      direction := direction
      entry := entry
      stop := stop
      target := vwap
      reason := some s!"vwap_reversion_{direction}"
      strategyVersion := some "vwap-reversion-v1"
      indicatorsSnapshot := some [("vwap", vwap), ("rsi", rsi), ("atr", atr)] }
  else return none

/-- The signal on the last close, given the VWAP of the day. -/
def vwapSignal (snapshot : MarketSnapshot K) (vwap : K) :
    Except PyError (Option (StrategySignal K)) := do
  let rsiValues ← calculateRsi snapshot.closes strategy.rsiPeriod
  let atrValues ← calculateAtr snapshot.highs snapshot.lows snapshot.closes strategy.atrPeriod
  let currentClose ← item snapshot.closes (-1)
  let previousClose ← item snapshot.closes (-2)
  let currentRsi ← item rsiValues (-1)
  let currentAtr ← item atrValues (-1)
  -- the deviation itself is only logged, but its division can fail
  let _deviationPct ← divide (currentClose - vwap) vwap
  if currentClose < vwap * (1 - strategy.minDeviation) ∧ previousClose < currentClose ∧
      currentRsi < 35 then
    strategy.signal snapshot "long" currentClose (currentClose - 2 * currentAtr) vwap currentRsi
      currentAtr
  else if currentClose > vwap * (1 + strategy.minDeviation) ∧ previousClose > currentClose ∧
      currentRsi > 65 then
    strategy.signal snapshot "short" currentClose (currentClose + 2 * currentAtr) vwap currentRsi
      currentAtr
  else return none

def generateSignal (snapshot : MarketSnapshot K) : Except PyError (Option (StrategySignal K)) :=
  if snapshot.candles.length < requiredCandleCount then .error (tooFewCandles requiredCandleCount)
  else if countCurrentUtcDayCandles snapshot < strategy.minCurrentDayCandles then .ok none
  else do
    match ← calculateIntradayVwap snapshot with
    | none => return none
    | some vwap => strategy.vwapSignal snapshot vwap

end VWAPReversionStrategy

structure VWAPReversionStrategyV2 (K : Type) [Field K] where
  minDeviation : K := 5 / 1000
  rsiPeriod : Nat := 7
  rsiLongThreshold : K := 30
  rsiShortThreshold : K := 70
  atrPeriod : Nat := 14
  atrStopMultiplier : K := 3 / 2
  minRrr : K := 13 / 10
  makerFeeRate : K := 1 / 1000
  takerFeeRate : K := 25 / 10000
  spreadBps : K := 2
  volumeConfirmationMultiplier : K := 12 / 10
  requireReversalBar : Bool := true
  minCurrentDayCandles : Nat := 4
  regimeAdxPeriod : Nat := 14
  regimeAdxThreshold : K := 25
  volatilitySkipThreshold : K := 25 / 1000
  strategyVersion : String := "vwap-reversion-v2"

namespace VWAPReversionStrategyV2

variable {K : Type} [Field K] [LinearOrder K] (fn : RealFunctions K)
  (strategy : VWAPReversionStrategyV2 K)

def requiredCandleCount : Nat := max 50 (strategy.regimeAdxPeriod + 15 + 1)

def adxValue (snapshot : MarketSnapshot K) : Except PyError K := do
  let regimeLookback := max 30 (strategy.regimeAdxPeriod + 1)
  return (← detectRegime (slice snapshot.candles regimeLookback 0)
    strategy.regimeAdxPeriod).adxValue

def direction (entry previousClose currentRsi vwap : K) :
    Except PyError (Option SignalDirection) := do
  let deviation := |← divide (entry - vwap) vwap|
  if deviation < strategy.minDeviation then return none
  else if entry < vwap ∧ currentRsi < strategy.rsiLongThreshold then
    if strategy.requireReversalBar ∧ entry ≤ previousClose then return none
    else return some .long
  else if entry > vwap ∧ currentRsi > strategy.rsiShortThreshold then
    if strategy.requireReversalBar ∧ entry ≥ previousClose then return none
    else return some .short
  else return none

def directionText : SignalDirection → String
  | .long => "long"
  | .short => "short"

def volumeConfirms (volumes : List K) : Except PyError Bool :=
  if volumes.length < 20 then .ok false
  else volumeReaches strategy.volumeConfirmationMultiplier volumes (slice volumes 20 0)

structure TradeLevels (K : Type) where
  stop : K
  target : K
  rrr : K

def stopOf (direction : SignalDirection) (entry atr : K) : K :=
  match direction with
  | .long => entry - strategy.atrStopMultiplier * atr
  | .short => entry + strategy.atrStopMultiplier * atr

def targetOf (direction : SignalDirection) (entry risk : K) : K :=
  let roundTripCostFraction :=
    strategy.makerFeeRate + strategy.takerFeeRate + strategy.spreadBps / 10000
  let effectiveRewardNeeded := risk * strategy.minRrr + entry * roundTripCostFraction
  match direction with
  | .long => entry + effectiveRewardNeeded
  | .short => entry - effectiveRewardNeeded

def beyondVwap (direction : SignalDirection) (target vwap : K) : Bool :=
  match direction with
  | .long => decide (target > vwap * (1005 / 1000))
  | .short => decide (target < vwap * (995 / 1000))

def buildTradeLevels (direction : SignalDirection) (entry atr vwap : K) :
    Except PyError (Option (TradeLevels K)) :=
  let stop := strategy.stopOf direction entry atr
  let risk := |entry - stop|
  if risk = 0 then .ok none
  else
    let target := strategy.targetOf direction entry risk
    if beyondVwap direction target vwap then .ok none
    else do
      let rrr ← divide |target - entry| risk
      if rrr < strategy.minRrr then return none
      else return some { stop := stop, target := target, rrr := rrr }

/-- The signal on the last close of a calm, ranging market. -/
def vwapSignal (snapshot : MarketSnapshot K) (adxValue realizedVolatility vwap : K) :
    Except PyError (Option (StrategySignal K)) := do
  let currentRsi ← item (← calculateRsi snapshot.closes strategy.rsiPeriod) (-1)
  let atrValues ← calculateAtr snapshot.highs snapshot.lows snapshot.closes strategy.atrPeriod
  let currentAtr ← item atrValues (-1)
  let entry ← item snapshot.closes (-1)
  let previousClose ← item snapshot.closes (-2)
  match ← strategy.direction entry previousClose currentRsi vwap with
  | none => return none
  | some direction =>
    let confirmed ← strategy.volumeConfirms snapshot.volumes
    if !confirmed then return none
    else
      match ← strategy.buildTradeLevels direction entry currentAtr vwap with
      | none => return none
      | some levels =>
        let text := directionText direction
        return some {
          symbol := snapshot.symbol
          direction := text
          entry := entry
          stop := levels.stop
          target := levels.target
          reason := some s!"{text}_vwap_reversion_v2"
          strategyVersion := some strategy.strategyVersion
          indicatorsSnapshot := some
            [("vwap", vwap), ("rsi", currentRsi), ("atr", currentAtr), ("adx", adxValue),
              ("realized_volatility", realizedVolatility), ("rrr", levels.rrr)] }

/-- `generate_signal`, with `_signal_context` in place. -/
def generateSignal (snapshot : MarketSnapshot K) : Except PyError (Option (StrategySignal K)) :=
  let minimum := strategy.requiredCandleCount
  if snapshot.candles.length < minimum then .error (tooFewCandles minimum)
  else if countCurrentUtcDayCandles snapshot < strategy.minCurrentDayCandles then .ok none
  else do
    let volatility ← realizedVolatility fn (fun pair => 0 < pair.1) snapshot
    if volatility < strategy.volatilitySkipThreshold then do
      let adx ← strategy.adxValue snapshot
      if adx < strategy.regimeAdxThreshold then do
        match ← calculateIntradayVwap snapshot with
        | none => return none
        | some vwap => strategy.vwapSignal snapshot adx volatility vwap
      else return none
    else return none

end VWAPReversionStrategyV2

section Factory

variable {K : Type} [Field K] [LinearOrder K] (fn : RealFunctions K)

/-- `strategy_name.strip().lower()`. -/
def normalizedName (strategyName : String) : String :=
  String.ofList ((strip strategyName.toList).map Char.toLower)

def buildDayTradingStrategy (strategyName : String) (minRrr : K) :
    Except PyError (BaseStrategy K) :=
  if normalizedName strategyName = "ema_crossover" then
    let strategy : EMACrossoverStrategy K := { minRrr := minRrr }
    .ok ⟨strategy.requiredCandleCount, strategy.generateSignal⟩
  else .error (.valueError s!"Unknown day-trading strategy: \x27{strategyName}\x27")

def buildScalpingStrategy (strategyName : String) (minRrr : K) :
    Except PyError (BaseStrategy K) :=
  let name := normalizedName strategyName
  if name = "rsi_divergence" then
    let strategy : RSIDivergenceStrategy K := { minRrr := minRrr, targetRrr := max (3 / 2) minRrr }
    .ok ⟨strategy.requiredCandleCount, strategy.generateSignal⟩
  else if name = "vwap_reversion" then
    let strategy : VWAPReversionStrategy K := { minRrr := minRrr }
    .ok ⟨VWAPReversionStrategy.requiredCandleCount, strategy.generateSignal⟩
  else if name = "vwap_reversion_v2" then
    let strategy : VWAPReversionStrategyV2 K := { minRrr := minRrr }
    .ok ⟨strategy.requiredCandleCount, strategy.generateSignal fn⟩
  else if name = "ema_pullback" then
    let strategy : EMAPullbackStrategy K := { minRrr := minRrr }
    .ok ⟨strategy.requiredCandleCount, strategy.generateSignal⟩
  else if name = "breakout" then
    let strategy : BreakoutStrategy K := { minRrr := minRrr }
    .ok ⟨strategy.requiredCandleCount, strategy.generateSignal fn⟩
  else if name = "ts_momentum" then
    let strategy : TSMomentumStrategy K := { minRrr := minRrr }
    .ok ⟨strategy.requiredCandleCount, strategy.generateSignal fn⟩
  else if name = "bb_squeeze" then
    let strategy : BBSqueezeStrategy K := { minRrr := minRrr }
    .ok ⟨strategy.requiredCandleCount, strategy.generateSignal fn⟩
  else .error (.valueError s!"Unknown scalping strategy: \x27{strategyName}\x27")

end Factory

end AmaExecutionCore
