import AmaExecutionCore.Indicators

/-! The strategies that follow a move: crossover and pullback of averages, breakouts, momentum. -/
namespace AmaExecutionCore

section Common

variable {K : Type} [Field K] [LinearOrder K]

/-- What `build_day_trading_strategy` and `build_scalping_strategy` return. -/
structure BaseStrategy (K : Type) where
  requiredCandleCount : Nat
  generateSignal : MarketSnapshot K → Except PyError (Option (StrategySignal K))

def tooFewCandles (minimum : Nat) : PyError :=
  .valueError s!"At least {minimum} candles are required."

/-- `_validate_snapshot` of the strategies that read highs, lows and closes side by side. -/
def validateSnapshot (minimum : Nat) (snapshot : MarketSnapshot K) : Except PyError Unit :=
  if snapshot.closes.length < minimum then .error (tooFewCandles minimum)
  else if snapshot.highs.length ≠ snapshot.closes.length ∨
      snapshot.lows.length ≠ snapshot.closes.length then
    .error (.valueError "Closes, highs, and lows must have equal lengths.")
  else .ok ()

/-- `_build_signal`: the signal, unless its reward is too small for its risk. -/
def buildStrategySignal (minRrr : K) (signal : StrategySignal K) (indicators : K → List (String × K)) :
    Except PyError (Option (StrategySignal K)) :=
  let risk := |signal.entry - signal.stop|
  let reward := |signal.target - signal.entry|
  if risk = 0 then .ok none
  else do
    let rrr ← divide reward risk
    if rrr < minRrr then return none
    else return some { signal with indicatorsSnapshot := some (indicators rrr) }

def volumeReaches (multiplier : K) (volumes recent : List K) : Except PyError Bool := do
  return decide (multiplier * (← median recent) ≤ (← item volumes (-1)))

end Common

structure EMACrossoverStrategy (K : Type) [Field K] where
  fast : Nat := 9
  slow : Nat := 21
  minRrr : K := 2

namespace EMACrossoverStrategy

variable {K : Type} [Field K] [LinearOrder K] (strategy : EMACrossoverStrategy K)

def requiredCandleCount : Nat := strategy.slow + 1

def signal (snapshot : MarketSnapshot K) (direction : String) (entry stop target emaFast emaSlow : K) :
    Except PyError (Option (StrategySignal K)) :=
  let fast := strategy.fast
  let slow := strategy.slow
  buildStrategySignal strategy.minRrr
    { symbol := snapshot.symbol
      direction := direction
      entry := entry
      stop := stop
      target := target
      reason := some s!"ema_{fast}_{slow}_crossover"
      strategyVersion := some s!"ema-crossover-{fast}-{slow}" }
    fun rrr => [("ema_fast", emaFast), ("ema_slow", emaSlow), ("rrr", rrr)]

def generateSignal (snapshot : MarketSnapshot K) : Except PyError (Option (StrategySignal K)) := do
  validateSnapshot strategy.requiredCandleCount snapshot
  let emaFast ← calculateEma snapshot.closes strategy.fast
  let emaSlow ← calculateEma snapshot.closes strategy.slow
  let previousFast ← item emaFast (-2)
  let previousSlow ← item emaSlow (-2)
  let currentFast ← item emaFast (-1)
  let currentSlow ← item emaSlow (-1)
  let entry ← item snapshot.closes (-1)
  if previousFast ≤ previousSlow ∧ currentFast > currentSlow ∧ entry > currentFast then do
    let stop ← item snapshot.lows (-1)
    if stop ≥ entry then return none
    else
      strategy.signal snapshot "long" entry stop (entry + 2 * (entry - stop)) currentFast
        currentSlow
  else if previousFast ≥ previousSlow ∧ currentFast < currentSlow ∧ entry < currentFast then do
    let stop ← item snapshot.highs (-1)
    if stop ≤ entry then return none
    else
      strategy.signal snapshot "short" entry stop (entry - 2 * (stop - entry)) currentFast
        currentSlow
  else return none

end EMACrossoverStrategy

structure BreakoutStrategy (K : Type) [Field K] where
  lookbackPeriod : Nat := 20
  volumeMultiplier : K := 2
  atrPeriod : Nat := 14
  atrStopMultiplier : K := 1
  minRrr : K := 2
  trendEmaPeriod : Nat := 50
  volatilitySkipThreshold : K := 4 / 100
  strategyVersion : String := "breakout-v1"

namespace BreakoutStrategy

variable {K : Type} [Field K] [LinearOrder K] (fn : RealFunctions K)
  (strategy : BreakoutStrategy K)

def requiredCandleCount : Nat :=
  max (max (max (strategy.trendEmaPeriod + 1) (strategy.lookbackPeriod + 1))
    (strategy.atrPeriod + 1)) 21

def signal (snapshot : MarketSnapshot K) (direction : String)
    (entry stop target rangeHigh rangeLow currentEma currentAtr : K) :
    Except PyError (Option (StrategySignal K)) :=
  buildStrategySignal strategy.minRrr
    { symbol := snapshot.symbol
      direction := direction
      entry := entry
      stop := stop
      target := target
      reason := some s!"{direction}_breakout"
      strategyVersion := some strategy.strategyVersion }
    fun rrr => [("range_high", rangeHigh), ("range_low", rangeLow), ("ema", currentEma),
      ("atr", currentAtr), ("rrr", rrr)]

def baselineVolumes (volumes : List K) : List K :=
  if volumes.length ≥ 21 then slice volumes 21 1 else slice volumes 20 0

/-- The signal on the last close, once the skipping of volatile markets is decided. -/
def breakoutSignal (snapshot : MarketSnapshot K) :
    Except PyError (Option (StrategySignal K)) := do
  let emaValues ← calculateEma snapshot.closes strategy.trendEmaPeriod
  let currentEma ← item emaValues (-1)
  let atrValues ← calculateAtr snapshot.highs snapshot.lows snapshot.closes strategy.atrPeriod
  let currentAtr ← item atrValues (-1)
  let currentClose ← item snapshot.closes (-1)
  let rangeHigh ← maximum (slice snapshot.highs (strategy.lookbackPeriod + 1) 1)
  let rangeLow ← minimum (slice snapshot.lows (strategy.lookbackPeriod + 1) 1)
  let reached ← volumeReaches strategy.volumeMultiplier snapshot.volumes
    (baselineVolumes snapshot.volumes)
  if currentClose > rangeHigh ∧ currentClose > currentEma ∧ reached then
    let stop := currentClose - strategy.atrStopMultiplier * currentAtr
    let target := currentClose + strategy.minRrr * |currentClose - stop|
    strategy.signal snapshot "long" currentClose stop target rangeHigh rangeLow currentEma
      currentAtr
  else if currentClose < rangeLow ∧ currentClose < currentEma ∧ reached then
    let stop := currentClose + strategy.atrStopMultiplier * currentAtr
    let target := currentClose - strategy.minRrr * |currentClose - stop|
    strategy.signal snapshot "short" currentClose stop target rangeHigh rangeLow currentEma
      currentAtr
  else return none

def generateSignal (snapshot : MarketSnapshot K) : Except PyError (Option (StrategySignal K)) := do
  validateSnapshot strategy.requiredCandleCount snapshot
  let volatility ← realizedVolatility fn (fun pair => 0 < pair.1) snapshot
  if volatility ≥ strategy.volatilitySkipThreshold then return none
  else strategy.breakoutSignal snapshot

end BreakoutStrategy

structure TSMomentumStrategy (K : Type) [Field K] where
  emaFastPeriod : Nat := 96
  emaSlowPeriod : Nat := 288
  momentumLookback : Nat := 24
  atrPeriod : Nat := 20
  volumeMultiplier : K := 3 / 2
  volatilitySkipThreshold : K := 3 / 100
  atrInitialStopMultiplier : K := 3 / 2
  minRrr : K := 3 / 2
  strategyVersion : String := "ts-momentum-v1"

namespace TSMomentumStrategy

variable {K : Type} [Field K] [LinearOrder K] (fn : RealFunctions K)
  (strategy : TSMomentumStrategy K)

def requiredCandleCount : Nat :=
  max (max (strategy.emaSlowPeriod + 5) (strategy.momentumLookback + strategy.atrPeriod + 5)) 50

def regimeAllows (closes emaFast emaSlow : List K) : Except PyError Bool := do
  let close ← item closes (-1)
  let fast ← item emaFast (-1)
  let slow ← item emaSlow (-1)
  let previousFast ← item emaFast (-2)
  let previousSlow ← item emaSlow (-2)
  return decide (close > fast ∧ fast > slow ∧ fast > previousFast ∧ slow > previousSlow)

def bothPositive (pair : K × K) : Bool := 0 < pair.1 && 0 < pair.2

def momentumSum (closes : List K) : Except PyError K := do
  let pairs := slice (pairwise closes) strategy.momentumLookback 0
  let returns ← (pairs.filter bothPositive).mapM fun (previous, current) => do
    logarithm fn (← divide current previous)
  return returns.sum

def computeMomentumScore (snapshot : MarketSnapshot K) : Except PyError (Option K) := do
  validateSnapshot strategy.requiredCandleCount snapshot
  let emaFast ← calculateEma snapshot.closes strategy.emaFastPeriod
  let emaSlow ← calculateEma snapshot.closes strategy.emaSlowPeriod
  let allowed ← regimeAllows snapshot.closes emaFast emaSlow
  if !allowed then return none
  else do
    let volatility ← realizedVolatility fn bothPositive snapshot
    if volatility ≥ strategy.volatilitySkipThreshold then return none
    else do
      let atrValues ← calculateAtr snapshot.highs snapshot.lows snapshot.closes strategy.atrPeriod
      let currentAtr ← item atrValues (-1)
      if currentAtr ≤ 0 then return none
      else return some (← divide (← strategy.momentumSum fn snapshot.closes) currentAtr)

/-- The signal for a market whose momentum has the score. -/
def momentumSignal (score : K) (snapshot : MarketSnapshot K) :
    Except PyError (Option (StrategySignal K)) := do
  let currentClose ← item snapshot.closes (-1)
  let reached ← volumeReaches strategy.volumeMultiplier snapshot.volumes
    (slice snapshot.volumes 20 0)
  if !reached then return none
  else do
    let atrValues ← calculateAtr snapshot.highs snapshot.lows snapshot.closes strategy.atrPeriod
    let currentAtr ← item atrValues (-1)
    let stop := currentClose - strategy.atrInitialStopMultiplier * currentAtr
    if stop ≥ currentClose then return none
    else return some {
      symbol := snapshot.symbol
      direction := "long"
      entry := currentClose
      stop := stop
      target := currentClose + strategy.minRrr * |currentClose - stop|
      reason := some "ts_momentum_long"
      strategyVersion := some strategy.strategyVersion
      indicatorsSnapshot :=
        some [("score", score), ("atr", currentAtr), ("rrr", strategy.minRrr)] }

def generateSignal (snapshot : MarketSnapshot K) : Except PyError (Option (StrategySignal K)) := do
  match ← strategy.computeMomentumScore fn snapshot with
  | none => return none
  | some score => strategy.momentumSignal score snapshot

end TSMomentumStrategy

structure BollingerBand (K : Type) where
  upper : K
  middle : K
  lower : K

structure BBSqueezeStrategy (K : Type) [Field K] where
  bbPeriod : Nat := 20
  bbStd : K := 2
  squeezeLookback : Nat := 50
  atrPeriod : Nat := 14
  minRrr : K := 3 / 2

namespace BBSqueezeStrategy

variable {K : Type} [Field K] [LinearOrder K] (fn : RealFunctions K)
  (strategy : BBSqueezeStrategy K)

def requiredCandleCount : Nat :=
  strategy.bbPeriod + strategy.squeezeLookback + strategy.atrPeriod + 5

def bollingerBand (period : Nat) (numStd : K) (window : List K) :
    Except PyError (BollingerBand K) := do
  let mean ← divide window.sum (period : K)
  let variance ← divide (window.map fun x => (x - mean) ^ 2).sum (period : K)
  let std := fn.sqrt variance
  return { upper := mean + numStd * std, middle := mean, lower := mean - numStd * std }

/-- `_calculate_bollinger_bands`, the three lists as one. -/
def calculateBollingerBands (closes : List K) (period : Nat) (numStd : K) :
    Except PyError (List (BollingerBand K)) :=
  let windows := (List.range (closes.length + 1 - period)).map fun start =>
    (closes.drop start).take period
  windows.mapM (bollingerBand fn period numStd)

def bandWidth (band : BollingerBand K) : Except PyError K :=
  if band.middle ≠ 0 then divide (band.upper - band.lower) band.middle else .ok 0

def signal (snapshot : MarketSnapshot K) (direction : String) (entry stop target rrr : K)
    (band : BollingerBand K) (width currentAtr : K) : StrategySignal K :=
  { symbol := snapshot.symbol
    direction := direction
    entry := entry
    stop := stop
    target := target
    reason := some s!"bb_squeeze_breakout_{direction}"
    strategyVersion := some "bb-squeeze-v1"
    indicatorsSnapshot := some
      [("bb_upper", band.upper), ("bb_lower", band.lower), ("bb_width", width),
        ("atr", currentAtr), ("rrr", rrr)] }

/-- The signal on the last close after a squeeze. -/
def squeezeSignal (snapshot : MarketSnapshot K) (bands : List (BollingerBand K))
    (bandWidths atrValues : List K) : Except PyError (Option (StrategySignal K)) := do
  let currentClose ← item snapshot.closes (-1)
  let prevClose ← item snapshot.closes (-2)
  let currentAtr ← item atrValues (-1)
  let band ← item bands (-1)
  let width ← item bandWidths (-1)
  if currentClose > band.upper ∧ currentClose > prevClose then
    let stop := currentClose - 2 * currentAtr
    if stop ≥ currentClose then
      .error (.valueError "Long setup: ATR stop must be below entry.")
    else do
      let risk := currentClose - stop
      let target := currentClose + risk * strategy.minRrr
      let rrr ← divide (target - currentClose) risk
      return some (signal snapshot "long" currentClose stop target rrr band width currentAtr)
  else if currentClose < band.lower ∧ currentClose < prevClose then
    let stop := currentClose + 2 * currentAtr
    if stop ≤ currentClose then
      .error (.valueError "Short setup: ATR stop must be above entry.")
    else do
      let risk := stop - currentClose
      let target := currentClose - risk * strategy.minRrr
      let rrr ← divide (currentClose - target) risk
      return some (signal snapshot "short" currentClose stop target rrr band width currentAtr)
  else return none

def generateSignal (snapshot : MarketSnapshot K) : Except PyError (Option (StrategySignal K)) := do
  validateSnapshot strategy.requiredCandleCount snapshot
  let bands ← calculateBollingerBands fn snapshot.closes strategy.bbPeriod strategy.bbStd
  let atrValues ← calculateAtr snapshot.highs snapshot.lows snapshot.closes strategy.atrPeriod
  let bandWidths ← bands.mapM bandWidth
  let historicalWidths := slice bandWidths (strategy.squeezeLookback + 2) 2
  if historicalWidths.isEmpty then return none
  else do
    let squeezeThreshold ← minimum historicalWidths
    let prevWidth ← item bandWidths (-2)
    if prevWidth ≤ squeezeThreshold then
      strategy.squeezeSignal snapshot bands bandWidths atrValues
    else return none

end BBSqueezeStrategy

structure EMAPullbackStrategy (K : Type) [Field K] where
  fastEmaPeriod : Nat := 20
  slowEmaPeriod : Nat := 50
  rsiPeriod : Nat := 14
  rsiLongEntryMin : K := 40
  rsiShortEntryMax : K := 60
  rsiTrendMaxLong : K := 70
  rsiTrendMinShort : K := 30
  atrPeriod : Nat := 14
  atrStopMultiplier : K := 12 / 10
  targetRMultiple : K := 18 / 10
  minRrr : K := 3 / 2
  volumeConfirmationMultiplier : K := 11 / 10
  pullbackAtrTolerance : K := 8 / 10
  minTrendStrengthCandles : Nat := 5
  strategyVersion : String := "ema-pullback-v1"

namespace EMAPullbackStrategy

variable {K : Type} [Field K] [LinearOrder K] (strategy : EMAPullbackStrategy K)

def requiredCandleCount : Nat := max 60 (strategy.slowEmaPeriod + strategy.atrPeriod + 5)

/-- The last values of the indicators. -/
structure Reading (K : Type) where
  fastEma : K
  slowEma : K
  rsi : K
  atr : K

def signal (snapshot : MarketSnapshot K) (direction : String) (entry stop target : K)
    (current : Reading K) : Except PyError (Option (StrategySignal K)) :=
  buildStrategySignal strategy.minRrr
    { symbol := snapshot.symbol
      direction := direction
      entry := entry
      stop := stop
      target := target
      reason := some s!"{direction}_ema_pullback"
      strategyVersion := some strategy.strategyVersion }
    fun rrr => [("ema_fast", current.fastEma), ("ema_slow", current.slowEma),
      ("rsi", current.rsi), ("atr", current.atr), ("rrr", rrr)]

/-- Whether one of the last three prices came back to the fast average. -/
def hasPullback (prices : List K) (current : Reading K) : Bool :=
  (slice prices 3 0).any fun price =>
    decide (|price - current.fastEma| ≤ strategy.pullbackAtrTolerance * current.atr)

def volumeConfirms (volumes : List K) : Except PyError Bool :=
  volumeReaches strategy.volumeConfirmationMultiplier volumes (slice volumes 20 0)

def buildLongSignal (snapshot : MarketSnapshot K) (entry : K) (current : Reading K) :
    Except PyError (Option (StrategySignal K)) :=
  if !strategy.hasPullback snapshot.lows current || entry ≤ current.fastEma then .ok none
  else if ¬ (strategy.rsiLongEntryMin ≤ current.rsi ∧ current.rsi ≤ strategy.rsiTrendMaxLong) then
    .ok none
  else do
    let confirmed ← strategy.volumeConfirms snapshot.volumes
    if !confirmed then return none
    else do
      let swingLow ← minimum (slice snapshot.lows 5 0)
      let atrStop := entry - strategy.atrStopMultiplier * current.atr
      let stop := max (swingLow - 1 / 1000 * entry) atrStop
      if stop ≥ entry then return none
      else
        strategy.signal snapshot "long" entry stop
          (entry + strategy.targetRMultiple * (entry - stop)) current

def buildShortSignal (snapshot : MarketSnapshot K) (entry : K) (current : Reading K) :
    Except PyError (Option (StrategySignal K)) :=
  if !strategy.hasPullback snapshot.highs current || entry ≥ current.fastEma then .ok none
  else if ¬ (strategy.rsiTrendMinShort ≤ current.rsi ∧
      current.rsi ≤ strategy.rsiShortEntryMax) then .ok none
  else do
    let confirmed ← strategy.volumeConfirms snapshot.volumes
    if !confirmed then return none
    else do
      let swingHigh ← maximum (slice snapshot.highs 5 0)
      let atrStop := entry + strategy.atrStopMultiplier * current.atr
      let stop := min (swingHigh + 1 / 1000 * entry) atrStop
      if stop ≤ entry then return none
      else
        strategy.signal snapshot "short" entry stop
          (entry - strategy.targetRMultiple * (stop - entry)) current

def generateSignal (snapshot : MarketSnapshot K) : Except PyError (Option (StrategySignal K)) := do
  validateSnapshot strategy.requiredCandleCount snapshot
  let fastEma ← calculateEma snapshot.closes strategy.fastEmaPeriod
  let slowEma ← calculateEma snapshot.closes strategy.slowEmaPeriod
  let currentRsi ← item (← calculateRsi snapshot.closes strategy.rsiPeriod) (-1)
  let atrValues ← calculateAtr snapshot.highs snapshot.lows snapshot.closes strategy.atrPeriod
  let currentAtr ← item atrValues (-1)
  let currentFastEma ← item fastEma (-1)
  let currentSlowEma ← item slowEma (-1)
  let entry ← item snapshot.closes (-1)
  let trendOffset : Int := -strategy.minTrendStrengthCandles
  let trendFastEma ← item fastEma trendOffset
  let trendSlowEma ← item slowEma trendOffset
  let current : Reading K :=
    { fastEma := currentFastEma, slowEma := currentSlowEma, rsi := currentRsi, atr := currentAtr }
  if currentFastEma > currentSlowEma ∧ trendFastEma > trendSlowEma then
    strategy.buildLongSignal snapshot entry current
  else if currentFastEma < currentSlowEma ∧ trendFastEma < trendSlowEma then
    strategy.buildShortSignal snapshot entry current
  else return none

end EMAPullbackStrategy

end AmaExecutionCore
