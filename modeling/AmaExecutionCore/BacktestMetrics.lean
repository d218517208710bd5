import AmaExecutionCore.BacktestGate
import AmaExecutionCore.Falls
import AmaExecutionCore.Grouping
import AmaExecutionCore.Simulation
import Mathlib.Algebra.Order.Group.Unbundled.Abs
import Mathlib.Data.List.MinMax
import Mathlib.Data.String.Basic

/-! The report of a replay, the metrics that the gate makes of its executions, and their
breakdown by month. -/
namespace AmaExecutionCore

section Drawdown

structure DrawdownLoop where
  equityCurve : Rat := 0
  peakEquity : Rat := 0
  maxDrawdown : Rat := 0

variable (decimals : DecimalContext)

def DrawdownLoop.next (loop : DrawdownLoop) (realizedPnl : Rat) : DrawdownLoop :=
  let equityCurve := decimals.add loop.equityCurve realizedPnl
  let peakEquity := max loop.peakEquity equityCurve
  { equityCurve := equityCurve
    peakEquity := peakEquity
    maxDrawdown := max loop.maxDrawdown (decimals.sub peakEquity equityCurve) }

def calculateMaxDrawdown (realizedPnls : List Rat) : Rat :=
  (realizedPnls.foldl (DrawdownLoop.next decimals) {}).maxDrawdown

open Falls

/-- The equity, its highest point and its largest fall, after the trades so far. -/
structure DrawdownLoop.Tracks (pnls : List Rat) (loop : DrawdownLoop) : Prop where
  equity : loop.equityCurve = decimals.sum pnls
  peak : IsGreatest (heights decimals.sum pnls) loop.peakEquity
  fall : IsGreatest (falls decimals.sum decimals.sub pnls) loop.maxDrawdown

theorem DrawdownLoop.Tracks.start : DrawdownLoop.Tracks decimals [] {} where
  equity := rfl
  peak := by
    refine ⟨⟨[], List.prefix_refl _, rfl⟩, ?_⟩
    rintro height ⟨before, hbefore, rfl⟩
    rw [List.prefix_nil.mp hbefore]
    exact le_rfl
  fall := by
    have hnone : decimals.sub (decimals.sum []) (decimals.sum []) = 0 := by
      rw [DecimalContext.sub, sub_self, DecimalContext.round_zero]
    refine ⟨⟨[], [], List.prefix_refl _, List.prefix_refl _, hnone.symm⟩, ?_⟩
    rintro fall ⟨before, through, hbefore, hthrough, rfl⟩
    rw [List.prefix_nil.mp hthrough] at hbefore ⊢
    rw [List.prefix_nil.mp hbefore, hnone]

variable {decimals}

theorem DrawdownLoop.Tracks.next {pnls : List Rat} {loop : DrawdownLoop}
    (h : loop.Tracks decimals pnls) (pnl : Rat) :
    (loop.next decimals pnl).Tracks decimals (pnls ++ [pnl]) := by
  have hequity : decimals.add loop.equityCurve pnl = decimals.sum (pnls ++ [pnl]) := by
    rw [h.equity, DecimalContext.sum_concat]
  have hpeak : IsGreatest (heights decimals.sum (pnls ++ [pnl]))
      (max loop.peakEquity (decimals.add loop.equityCurve pnl)) := by
    rw [hequity]
    exact isGreatest_heights_concat pnl h.peak
  refine ⟨hequity, hpeak, ?_⟩
  have hfall := isGreatest_falls_concat pnl (DecimalContext.sub_mono _) hpeak h.fall
  rw [← hequity] at hfall
  exact hfall

theorem drawdownLoop_tracks (pnls : List Rat) :
    (pnls.foldl (DrawdownLoop.next decimals) {}).Tracks decimals pnls := by
  induction pnls using List.reverseRecOn with
  | nil => exact .start decimals
  | append_singleton pnls pnl ih =>
    rw [List.foldl_append]
    exact ih.next pnl

/-- The maximum drawdown is the largest fall of the equity curve, as the context adds it up, from
one of its points to a later one. In exact arithmetic it is the largest of zero and the losses over
runs of consecutive trades. -/
theorem calculateMaxDrawdown_isGreatest (decimals : DecimalContext) (pnls : List Rat) :
    IsGreatest {fall | ∃ i j, i ≤ j ∧ j ≤ pnls.length ∧
        fall = decimals.sub (decimals.sum (pnls.take i)) (decimals.sum (pnls.take j))}
        (calculateMaxDrawdown decimals pnls) ∧
      IsGreatest (insert 0 {loss | ∃ run, run <:+: pnls ∧ loss = -run.sum})
        (calculateMaxDrawdown .exact pnls) := by
  constructor
  · have hsame : {fall | ∃ i j, i ≤ j ∧ j ≤ pnls.length ∧
        fall = decimals.sub (decimals.sum (pnls.take i)) (decimals.sum (pnls.take j))} =
        falls decimals.sum decimals.sub pnls := by
      ext fall
      exact (mem_falls_iff _ _ pnls fall).symm
    rw [hsame]
    exact (drawdownLoop_tracks pnls).fall
  · have hsums : falls (DecimalContext.sum .exact) (DecimalContext.sub .exact) pnls =
        {loss | ∃ run, run <:+: pnls ∧ loss = -run.sum} := by
      rw [← falls_sum, show DecimalContext.sum .exact = List.sum from
        funext DecimalContext.exact_sum]
      rfl
    rw [← hsums, Set.insert_eq_of_mem]
    · exact (drawdownLoop_tracks pnls).fall
    · rw [hsums]
      exact ⟨[], List.nil_infix, rfl⟩

/-- A gain of a hundred thirds and a loss of one third, in 28 digits. -/
def thirds : List Rat :=
  [33333333333333333333333333333 / 1000000000000000000000000000,
    -(3333333333333333333333333333 / 10000000000000000000000000000)]

/-- The equity is rounded after the loss, and the fall to it is short of the loss. -/
theorem calculateMaxDrawdown_thirds :
    ¬ IsGreatest (insert 0 {loss | ∃ run, run <:+: thirds ∧ loss = -run.sum})
      (calculateMaxDrawdown pythonContext thirds) := by
  intro hgreatest
  have hloss := hgreatest.2 (Set.mem_insert_of_mem 0
    ⟨[-(3333333333333333333333333333 / 10000000000000000000000000000)],
      (List.suffix_cons _ _).isInfix, rfl⟩)
  exact absurd hloss (by decide +kernel)

example : calculateMaxDrawdown .exact [10, -5, -15, 20] = 20 := by decide +kernel

theorem calculateMaxDrawdown_nonneg (pnls : List Rat) : 0 ≤ calculateMaxDrawdown decimals pnls := by
  refine (drawdownLoop_tracks pnls).fall.2 ⟨[], [], List.prefix_refl _, List.nil_prefix, ?_⟩
  rw [DecimalContext.sub, sub_self, DecimalContext.round_zero]

/-- The trades lose no more, in all, than the drawdown. -/
theorem neg_sum_le_maxDrawdown (pnls : List Rat) :
    -decimals.sum pnls ≤ calculateMaxDrawdown decimals pnls := by
  refine (drawdownLoop_tracks pnls).fall.2 ⟨[], pnls, List.nil_prefix, List.prefix_refl _, ?_⟩
  rw [DecimalContext.sub, show decimals.sum [] = 0 from rfl, zero_sub, decimals.round_neg,
    DecimalContext.round_sum]

end Drawdown

section Report

/-- What the report of a replay reads of an execution besides `ExecutionMetrics`. -/
class ReportMetrics (ε : Type) extends ExecutionMetrics ε where
  slippage : ε → Except PyError (Option Rat)
  rejectedShortSignal : ε → Bool
  skippedMinNotional : ε → Bool
  skippedInsufficientCapital : ε → Bool
  ambiguousCandle : ε → Bool

instance : ReportMetrics SimulationExecutionResult where
  slippage result := .ok (some result.slippage)
  rejectedShortSignal := SimulationExecutionResult.rejectedShortSignal
  skippedMinNotional := SimulationExecutionResult.skippedMinNotional
  skippedInsufficientCapital := SimulationExecutionResult.skippedInsufficientCapital
  ambiguousCandle := SimulationExecutionResult.ambiguousCandle

structure HistoricalReplayMetrics where
  closedTrades : Nat
  winningTrades : Nat
  losingTrades : Nat
  expectancy : Option Rat
  winRate : Option Rat
  profitFactor : Option Rat
  maxDrawdown : Option Rat

structure HistoricalReplaySlippageSummary where
  count : Nat
  average : Rat
  minimum : Rat
  maximum : Rat

structure HistoricalReplayCounters where
  rejectedShortSignals : Nat := 0
  skippedMinNotional : Nat := 0
  skippedInsufficientCapital : Nat := 0
  ambiguousCandles : Nat := 0

structure HistoricalReplayReport where
  metrics : HistoricalReplayMetrics
  slippage : Option HistoricalReplaySlippageSummary
  counters : HistoricalReplayCounters

variable {ε : Type} [ReportMetrics ε]

def collectReportCounters (steps : List (HistoricalReplayStep ε)) : HistoricalReplayCounters :=
  let executions := steps.filterMap (·.execution)
  { rejectedShortSignals := executions.countP ReportMetrics.rejectedShortSignal
    skippedMinNotional := executions.countP ReportMetrics.skippedMinNotional
    skippedInsufficientCapital := executions.countP ReportMetrics.skippedInsufficientCapital
    ambiguousCandles := executions.countP ReportMetrics.ambiguousCandle }

/-- One turn of the loop of `_collect_trade_outputs`. -/
def collectTradeOutput (outputs : List Rat × List Rat) (step : HistoricalReplayStep ε) :
    Except PyError (List Rat × List Rat) :=
  match step.execution with
  | none => .ok outputs
  | some execution =>
    if executionWasExecuted execution then do
      let realizedPnl ← ExecutionMetrics.realizedPnl execution
      let slippage ← ReportMetrics.slippage execution
      return (outputs.1 ++ realizedPnl.toList, outputs.2 ++ slippage.toList)
    else .ok outputs

/-- `_collect_trade_outputs`: the realized PnLs and the slippages. -/
def collectTradeOutputs (steps : List (HistoricalReplayStep ε)) :
    Except PyError (List Rat × List Rat) :=
  steps.foldlM collectTradeOutput ([], [])

def buildReport (decimals : DecimalContext) (steps : List (HistoricalReplayStep ε)) :
    Except PyError HistoricalReplayReport := do
  let (realizedPnls, slippages) ← collectTradeOutputs steps
  let winningTrades := realizedPnls.filter fun pnl => 0 < pnl
  let losingTrades := realizedPnls.filter fun pnl => pnl < 0
  let tradeCount := realizedPnls.length
  let ifTrades (value : Rat) : Option Rat := if tradeCount = 0 then none else some value
  return {
    metrics := {
      closedTrades := tradeCount
      winningTrades := winningTrades.length
      losingTrades := losingTrades.length
      expectancy := ifTrades (decimals.div (decimals.sum realizedPnls) tradeCount)
      winRate := ifTrades (decimals.div winningTrades.length tradeCount)
      profitFactor :=
        if losingTrades.isEmpty then none
        else some (decimals.div (decimals.sum winningTrades)
          (decimals.abs (decimals.sum losingTrades)))
      maxDrawdown := ifTrades (calculateMaxDrawdown decimals realizedPnls) }
    slippage :=
      match slippages.min?, slippages.max? with
      | some minimum, some maximum =>
        some ⟨slippages.length, decimals.div (decimals.sum slippages) slippages.length, minimum,
          maximum⟩
      | _, _ => none
    counters := collectReportCounters steps }

end Report

section Month

/-- The year and the month of a day. Years are counted from March on, in eras of 400 years. -/
def yearAndMonth (date : Date) : Int × Int :=
  let era := (date + 719468) / 146097
  let dayOfEra := (date + 719468) % 146097
  let yearOfEra := (dayOfEra - dayOfEra / 1460 + dayOfEra / 36524 - dayOfEra / 146096) / 365
  let dayOfYear := dayOfEra - (365 * yearOfEra + yearOfEra / 4 - yearOfEra / 100)
  let monthFromMarch := (5 * dayOfYear + 2) / 153
  let month := if monthFromMarch < 10 then monthFromMarch + 3 else monthFromMarch - 9
  (yearOfEra + era * 400 + (if month ≤ 2 then 1 else 0), month)

/-- `strftime("%Y-%m")`. -/
def monthText (date : Date) : String :=
  let (year, month) := yearAndMonth date
  let padding := if month < 10 then "0" else ""
  s!"{year}-{padding}{month}"

-- the last day of 2023 and a leap day
example : [monthText 19722, monthText 18321] = ["2023-12", "2020-02"] := by decide +kernel

end Month

section Metrics

structure PricedScenario extends BacktestScenario where
  riskAmount : Rat
  startingEquity : Rat
  riskAmount_eq : riskAmountUsd = .ofRat riskAmount
  startingEquity_eq : startingEquityUsd = .ofRat startingEquity

structure MonthlyPnlPoint where
  month : String
  pnl : Rat
  trades : Nat
  grossProfit : Rat
  grossLoss : Rat
  winRate : Option Rat
  profitFactor : Option Number
  maxDrawdownPct : Option Rat

/-- `ScenarioMetrics`, whole. Its `oos_result` is left out: it is always `None`. -/
structure FullScenarioMetrics where
  closedTrades : Nat
  winningTrades : Nat
  grossProfit : Rat
  grossLoss : Rat
  winRate : Option Rat
  expectancy : Option Rat
  profitFactor : Option Number
  maxDrawdown : Option Rat
  maxDrawdownPct : Option Rat
  totalPnl : Rat
  netPnl : Rat
  feesPaid : Rat
  slippagePaid : Rat
  rejectedShortSignals : Nat
  skippedMinNotional : Nat
  skippedInsufficientCapital : Nat
  ambiguousCandles : Nat
  monthlyPnl : List MonthlyPnlPoint
  bestMonth : Option MonthlyPnlPoint
  worstMonth : Option MonthlyPnlPoint

def FullScenarioMetrics.forProfile (metrics : FullScenarioMetrics) : ScenarioMetrics where
  closedTrades := metrics.closedTrades
  winRate := metrics.winRate.map .ofRat
  expectancy := metrics.expectancy.map .ofRat
  profitFactor := metrics.profitFactor
  maxDrawdownPct := metrics.maxDrawdownPct.map .ofRat

variable (decimals : DecimalContext)

def netTradePnls (executions : List SimulationExecutionResult) : List Rat :=
  executions.map fun execution => decimals.sub execution.realizedPnl execution.feesPaid

def winningTrades (pnls : List Rat) : Nat := pnls.countP fun pnl => 0 < pnl
def grossWins (pnls : List Rat) : Rat := decimals.sum (pnls.filter fun pnl => 0 < pnl)
def grossLosses (pnls : List Rat) : Rat :=
  decimals.sum ((pnls.filter fun pnl => pnl < 0).map decimals.abs)

def profitFactorOf (grossWins grossLosses : Rat) : Option Number :=
  if grossLosses = 0 then if grossWins = 0 then none else some .infinity
  else some (.ofRat (decimals.div grossWins grossLosses))

def winRateOf (pnls : List Rat) : Option Rat :=
  if pnls.length = 0 then none else some (decimals.div (winningTrades pnls) pnls.length)

def maxDrawdownPctOf (startingEquity : Rat) (pnls : List Rat) : Option Rat :=
  if 0 < startingEquity then
    some (decimals.div (calculateMaxDrawdown decimals pnls) startingEquity)
  else none

variable (scenario : PricedScenario) (candles : List (MarketCandle Rat))

def buildMonthlyPoint (month : String) (executions : List SimulationExecutionResult) :
    MonthlyPnlPoint :=
  let pnls := netTradePnls decimals executions
  { month := month
    pnl := decimals.sum pnls
    trades := pnls.length
    grossProfit := grossWins decimals pnls
    grossLoss := grossLosses decimals pnls
    winRate := winRateOf decimals pnls
    profitFactor := profitFactorOf decimals (grossWins decimals pnls) (grossLosses decimals pnls)
    maxDrawdownPct := maxDrawdownPctOf decimals scenario.startingEquity pnls }

def closeMonth (execution : SimulationExecutionResult) : Option String :=
  if execution.closedAtStep < 0 ∨ execution.closedAtStep ≥ candles.length then none
  else candles[execution.closedAtStep.toNat]?.map fun candle => monthText candle.date

/-- One turn of the loop of `_build_monthly_pnl`, over `by_month` and `unresolved`. -/
def collectMonth (months : List (String × List SimulationExecutionResult) × Nat)
    (execution : SimulationExecutionResult) :
    List (String × List SimulationExecutionResult) × Nat :=
  match closeMonth candles execution with
  | none => (months.1, months.2 + 1)
  | some month => (Grouping.append month execution months.1, months.2)

structure MonthlyPnl where
  points : List MonthlyPnlPoint
  bestMonth : Option MonthlyPnlPoint
  worstMonth : Option MonthlyPnlPoint
  unresolved : Nat

def buildMonthlyPnl (executions : List SimulationExecutionResult) : MonthlyPnl :=
  let (byMonth, unresolved) := executions.foldl (collectMonth candles) ([], 0)
  let points := (Grouping.sortByKey byMonth).map fun (month, monthExecutions) =>
    buildMonthlyPoint decimals scenario month monthExecutions
  { points := points
    bestMonth := points.argmax (·.pnl)
    worstMonth := points.argmin (·.pnl)
    unresolved := unresolved }

/-- `_calculate_metrics`: the metrics and the limitations. -/
def calculateMetrics (executions : List SimulationExecutionResult)
    (report : HistoricalReplayReport) : FullScenarioMetrics × List String :=
  let executed := executions.filter fun execution => execution.status ≠ "skipped"
  let pnls := netTradePnls decimals executed
  let monthly := buildMonthlyPnl decimals scenario candles executed
  let name := scenario.name
  let count := monthly.unresolved
  ({ closedTrades := pnls.length
     winningTrades := winningTrades pnls
     grossProfit := grossWins decimals pnls
     grossLoss := grossLosses decimals pnls
     winRate := winRateOf decimals pnls
     expectancy :=
       if pnls.length = 0 then none else some (decimals.div (decimals.sum pnls) pnls.length)
     profitFactor := profitFactorOf decimals (grossWins decimals pnls) (grossLosses decimals pnls)
     maxDrawdown := some (calculateMaxDrawdown decimals pnls)
     maxDrawdownPct := maxDrawdownPctOf decimals scenario.startingEquity pnls
     totalPnl := decimals.sum (executed.map (·.realizedPnl))
     netPnl := decimals.sum pnls
     feesPaid := decimals.sum (executed.map (·.feesPaid))
     slippagePaid := decimals.sum
       (executed.map fun execution => decimals.mul execution.slippage execution.qty)
     rejectedShortSignals := report.counters.rejectedShortSignals
     skippedMinNotional := report.counters.skippedMinNotional
     skippedInsufficientCapital := report.counters.skippedInsufficientCapital
     ambiguousCandles := report.counters.ambiguousCandles
     monthlyPnl := monthly.points
     bestMonth := monthly.bestMonth
     worstMonth := monthly.worstMonth },
    if count > 0 then
      [s!"{name}: excluded {count} closed trades from monthly_pnl because close timestamps " ++
        "could not be resolved."]
    else [])

structure ReplayStrategy (τ : Type) where
  requiredCandleCount : Nat
  generateSignal : MarketSnapshot Rat → τ → Except PyError (Option (StrategySignal Rat)) × τ

variable {τ ρ : Type} (random : ρ → Rat × ρ)

def SimulationExecutionService.replayServices (service : SimulationExecutionService)
    (strategy : ReplayStrategy τ) : ReplayServices SimulationExecutionResult (τ × ρ) where
  requiredCandleCount := strategy.requiredCandleCount
  generateSignal snapshot s :=
    let (signal, t) := strategy.generateSignal snapshot s.1
    (signal, t, s.2)
  executeSignal := .inr fun signal futureCandles step s =>
    let (result, rng) := service.executeReplaySignal random signal futureCandles step s.2
    (result, s.1, rng)

structure EvaluatedScenario where
  metrics : FullScenarioMetrics
  limitations : List String
  report : HistoricalReplayReport

def replayScenario (strategy : ReplayStrategy τ) (feeRatePerSide : Rat) (s : τ × ρ) :
    Except PyError (ReplayLoop SimulationExecutionResult (τ × ρ)) := do
  let service ← SimulationExecutionService.create decimals {
    maxHoldCandles := scenario.maxHoldCandles
    riskAmountUsd := scenario.riskAmount
    feeRatePerSide := some feeRatePerSide
    marketMode := "spot"
    virtualEquityUsd := scenario.startingEquity }
  let request : HistoricalReplayRequest :=
    { symbol := scenario.symbol, interval := scenario.interval, candles := some candles }
  return replay {} (service.replayServices random strategy) request s

/-- `evaluate_scenario`, up to its metrics. -/
def evaluateScenario (strategy : ReplayStrategy τ) (feeRatePerSide : Rat) (s : τ × ρ) :
    Except PyError EvaluatedScenario := do
  let loop ← replayScenario decimals scenario candles random strategy feeRatePerSide s
  if let some e := loop.raised then
    throw e
  let report ← buildReport decimals loop.results
  let executions := loop.results.filterMap (·.execution)
  let (metrics, limitations) := calculateMetrics decimals scenario candles executions report
  return ⟨metrics, limitations, report⟩

end Metrics

end AmaExecutionCore
