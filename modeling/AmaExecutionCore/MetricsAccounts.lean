import AmaExecutionCore.BacktestMetrics
import AmaExecutionCore.ReplayRules
import AmaExecutionCore.SimulationExits
import Mathlib.Algebra.Order.BigOperators.Group.List
import Mathlib.Tactic.Ring

/-! The metrics of a scenario and their breakdown by month hold the same trades as the executions
of its replay, and in exact arithmetic the same money. -/
namespace AmaExecutionCore

section Folds

theorem grossWins_sub_grossLosses (pnls : List Rat) :
    grossWins .exact pnls - grossLosses .exact pnls = pnls.sum := by
  unfold grossWins grossLosses
  rw [DecimalContext.exact_sum, DecimalContext.exact_sum]
  induction pnls with
  | nil => simp
  | cons pnl pnls ih =>
    rw [List.sum_cons, ← ih]
    obtain hneg | rfl | hpos := lt_trichotomy pnl 0
    · rw [List.filter_cons_of_neg (by simpa using hneg.le),
        List.filter_cons_of_pos (by simpa using hneg), List.map_cons, List.sum_cons,
        DecimalContext.exact_abs, abs_of_neg hneg]
      ring
    · simp
    · rw [List.filter_cons_of_pos (by simpa using hpos),
        List.filter_cons_of_neg (by simpa using hpos.le), List.sum_cons]
      ring

theorem sum_netTradePnls (executions : List SimulationExecutionResult) :
    (netTradePnls .exact executions).sum =
      (executions.map (·.realizedPnl)).sum - (executions.map (·.feesPaid)).sum := by
  unfold netTradePnls
  induction executions with
  | nil => simp
  | cons execution executions ih =>
    rw [List.map_cons, List.map_cons, List.map_cons, List.sum_cons, List.sum_cons, List.sum_cons, ih,
      DecimalContext.exact_sub]
    ring

end Folds

section Months

variable {candles : List (MarketCandle Rat)}

/-- The candle at which the trade is closed is one of the candles. -/
def ClosesAmong (candles : List (MarketCandle Rat)) (execution : SimulationExecutionResult) : Prop :=
  0 ≤ execution.closedAtStep ∧ execution.closedAtStep < candles.length

def monthOf (candles : List (MarketCandle Rat)) (execution : SimulationExecutionResult) : String :=
  (closeMonth candles execution).getD ""

theorem closeMonth_eq {execution : SimulationExecutionResult} (h : ClosesAmong candles execution) :
    closeMonth candles execution = some (monthOf candles execution) := by
  obtain ⟨hlow, hhigh⟩ := h
  have hin : execution.closedAtStep.toNat < candles.length := by omega
  unfold monthOf closeMonth
  rw [if_neg (by omega), List.getElem?_eq_getElem hin]
  rfl

/-- When each close is at one of the candles, the loop collects every trade under its month. -/
theorem collectMonth_foldl {executions : List SimulationExecutionResult}
    (h : ∀ execution ∈ executions, ClosesAmong candles execution) :
    executions.foldl (collectMonth candles) ([], 0) =
      (Grouping.groupBy (monthOf candles) executions, 0) := by
  induction executions using List.reverseRecOn with
  | nil => rfl
  | append_singleton executions execution ih =>
    rw [List.foldl_append, ih fun e he => h e (List.mem_append_left _ he), Grouping.groupBy_concat,
      List.foldl_cons, List.foldl_nil, collectMonth, closeMonth_eq (h execution (by simp))]

variable {decimals : DecimalContext} {scenario : PricedScenario}
  {executions : List SimulationExecutionResult}

def monthPoints (decimals : DecimalContext) (scenario : PricedScenario)
    (candles : List (MarketCandle Rat)) (executions : List SimulationExecutionResult) :
    List MonthlyPnlPoint :=
  (Grouping.sortByKey (Grouping.groupBy (monthOf candles) executions)).map fun group =>
    buildMonthlyPoint decimals scenario group.1 group.2

theorem buildMonthlyPnl_eq (h : ∀ execution ∈ executions, ClosesAmong candles execution) :
    buildMonthlyPnl decimals scenario candles executions = {
      points := monthPoints decimals scenario candles executions
      bestMonth := (monthPoints decimals scenario candles executions).argmax (·.pnl)
      worstMonth := (monthPoints decimals scenario candles executions).argmin (·.pnl)
      unresolved := 0 } := by
  unfold buildMonthlyPnl
  rw [collectMonth_foldl h]
  rfl

theorem sum_monthPoints {M : Type} [AddCommMonoid M] (value : MonthlyPnlPoint → M)
    (f : SimulationExecutionResult → M)
    (h : ∀ month group, value (buildMonthlyPoint decimals scenario month group) =
      (group.map f).sum) :
    ((monthPoints decimals scenario candles executions).map value).sum =
      (executions.map f).sum := by
  have hvalue : (value ∘ fun group : String × List SimulationExecutionResult =>
      buildMonthlyPoint decimals scenario group.1 group.2) = fun group => (group.2.map f).sum := by
    funext group
    exact h group.1 group.2
  unfold monthPoints
  rw [List.map_map, hvalue, ((Grouping.sortByKey_perm _).map _).sum_eq]
  exact Grouping.sum_groupBy f (monthOf candles) executions

theorem sum_monthTrades : ((monthPoints decimals scenario candles executions).map (·.trades)).sum =
    (netTradePnls decimals executions).length := by
  rw [sum_monthPoints (·.trades) (fun _ => 1) fun month group => by
    simp [buildMonthlyPoint, netTradePnls]]
  simp [netTradePnls]

theorem sum_monthPnls : ((monthPoints .exact scenario candles executions).map (·.pnl)).sum =
    (netTradePnls .exact executions).sum :=
  sum_monthPoints (·.pnl) (fun execution => execution.realizedPnl - execution.feesPaid)
    fun _ _ => DecimalContext.exact_sum _

theorem monthPoints_ascending :
    ((monthPoints decimals scenario candles executions).map (·.month)).Pairwise (· < ·) := by
  unfold monthPoints
  rw [List.map_map]
  exact Grouping.ascending_sortByKey (Grouping.nodup_groupBy _ _)

end Months

section Replay

variable {τ ρ : Type} {random : ρ → Rat × ρ} {service : SimulationExecutionService}
  {strategy : ReplayStrategy τ} {runner : HistoricalReplayRunner}
  {request normalized : HistoricalReplayRequest} {candles : List (MarketCandle Rat)}
  {steps : List (Int × MarketSnapshot Rat)} {input : Int × MarketSnapshot Rat}
  {loop loop' : ReplayLoop SimulationExecutionResult (τ × ρ)}

def StepAmong (candles : List (MarketCandle Rat)) (input : Int × MarketSnapshot Rat) : Prop :=
  input.1 < candles.length ∧ (input.2.candles ≠ [] → 0 ≤ input.1)

theorem buildCandleReplaySteps_among {required : Nat}
    (h : buildCandleReplaySteps request candles required = .ok steps) :
    ∀ input ∈ steps, StepAmong candles input := by
  unfold buildCandleReplaySteps at h
  dsimp only at h
  split_ifs at h with hshort hearly horder hend
  obtain rfl := Except.ok.inj h
  intro input hinput
  obtain ⟨step, hstep, rfl⟩ := List.mem_map.mp hinput
  obtain ⟨i, hi, rfl⟩ := List.mem_map.mp hstep
  have hlt := List.mem_range.mp hi
  refine ⟨by dsimp only; omega, fun hne => ?_⟩
  by_contra hneg
  apply hne
  have hnone : (request.startStep.getD (required - 1) + i + 1).toNat = 0 := by omega
  simp [candleWindow, hnone]

theorem replayInputs_among
    (h : replayInputs (service.replayServices random strategy)
      { request with candles := some candles, snapshots := none } = .ok (normalized, steps)) :
    normalized.candles = some candles ∧ ∀ input ∈ steps, StepAmong candles input := by
  unfold replayInputs HistoricalReplayRequest.normalize at h
  dsimp only at h
  split_ifs at h
  dsimp only [buildReplaySteps] at h
  split at h
  · cases h
  · rename_i built hbuilt
    obtain ⟨rfl, rfl⟩ := Prod.mk.inj (Except.ok.inj h)
    exact ⟨rfl, buildCandleReplaySteps_among hbuilt⟩

/-- The trades so far are closed at candles of the replay. -/
def TradesCloseAmong (candles : List (MarketCandle Rat))
    (loop : ReplayLoop SimulationExecutionResult (τ × ρ)) : Prop :=
  ∀ result ∈ loop.results, ∀ execution ∈ result.execution,
    executionWasExecuted execution = true → ClosesAmong candles execution

theorem TradesCloseAmong.append {result : HistoricalReplayStep SimulationExecutionResult}
    (h : TradesCloseAmong candles loop) (hresults : loop'.results = loop.results ++ [result])
    (hresult : ∀ execution ∈ result.execution, executionWasExecuted execution = true →
      ClosesAmong candles execution) : TradesCloseAmong candles loop' := by
  intro result' hmem
  rw [hresults] at hmem
  obtain hmem | hmem := List.mem_append.mp hmem
  · exact h result' hmem
  · rw [List.mem_singleton.mp hmem]
    exact hresult

theorem callExecution_closesAmong (hhold : 1 ≤ service.maxHoldCandles)
    (hcandles : request.candles = some candles) {step : Int} (hlow : 0 ≤ step)
    (hhigh : step < candles.length) {signal : ExecuteSignalRequest Rat} {s s' : τ × ρ}
    {execution : SimulationExecutionResult}
    (h : callExecution (service.replayServices random strategy) request signal step s =
      (.ok execution, s')) : ClosesAmong candles execution := by
  obtain ⟨result, rng', hresult, hlater, hwithin⟩ :=
    @SimulationExecutionService.executeReplaySignal_closesWithin service ρ random signal step s.2
      (futureCandlesForStep request step) hhold
  simp only [callExecution, SimulationExecutionService.replayServices, hresult] at h
  obtain rfl := Except.ok.inj (Prod.mk.inj h).1
  have hfuture : ((futureCandlesForStep request step).length : Int) = candles.length - step - 1 := by
    rw [futureCandlesForStep, hcandles]
    dsimp only
    rw [List.length_drop]
    omega
  exact ⟨by omega, by omega⟩

theorem Stepped.tradesCloseAmong (hhold : 1 ≤ service.maxHoldCandles)
    (hcandles : request.candles = some candles) (hinput : StepAmong candles input)
    (hstep : Stepped runner (service.replayServices random strategy) request loop input loop')
    (h : TradesCloseAmong candles loop) : TradesCloseAmong candles loop' := by
  cases hstep with
  | ended hraised => exact h
  | idle hraised hcandle hidle =>
    refine h.append (congrArg (· ++ [_]) ReplayLoop.opened_results) ?_
    intro execution hexecution hexecuted
    rw [HistoricalReplayStep.executed, Option.mem_def.mp hexecution, Option.any_some,
      hexecuted] at hidle
    cases hidle
  | entered hentry =>
    refine h.append (congrArg (· ++ [_])
      (ReplayLoop.track_results.trans ReplayLoop.opened_results)) ?_
    intro execution hexecution hexecuted
    obtain rfl := Option.some.inj hexecution
    obtain ⟨executeSignalRequest, s', -, -, hcall⟩ := hentry.answered
    have hne : input.2.candles ≠ [] := by
      intro hnil
      have hlatest := hentry.latest
      rw [hnil] at hlatest
      cases hlatest
    exact callExecution_closesAmong hhold hcandles (hinput.2 hne) hinput.1 hcall

/-- In every replay over candles, each trade is closed at one of them. -/
theorem replay_tradesCloseAmong (hhold : 1 ≤ service.maxHoldCandles) (s : τ × ρ) :
    TradesCloseAmong candles (replay runner (service.replayServices random strategy)
      { request with candles := some candles, snapshots := none } s) := by
  have hinit : ∀ r, TradesCloseAmong candles
      ({ services := s, raised := r } : ReplayLoop SimulationExecutionResult (τ × ρ)) :=
    fun _ _ hresult => absurd hresult List.not_mem_nil
  unfold replay
  split
  · exact hinit _
  · rename_i normalized steps hinputs
    obtain ⟨hcandles, hsteps⟩ := replayInputs_among hinputs
    refine Runs.run_of_meets (hinit none) (fun loop input hloop hinput => ?_)
      (Runs.Meets.of_forall _ hsteps)
    exact (replayStep_stepped runner _ normalized loop input).tradesCloseAmong hhold hcandles
      hinput hloop

end Replay

section Evaluation

variable {τ ρ : Type}

def executedEntries (steps : List (HistoricalReplayStep SimulationExecutionResult)) :
    List SimulationExecutionResult :=
  (steps.filterMap (·.execution)).filter fun execution => execution.status ≠ "skipped"

theorem collectTradeOutput_foldlM (steps : List (HistoricalReplayStep SimulationExecutionResult))
    (outputs : List Rat × List Rat) :
    steps.foldlM collectTradeOutput outputs =
      .ok (outputs.1 ++ (executedEntries steps).map (·.realizedPnl),
        outputs.2 ++ (executedEntries steps).map (·.slippage)) := by
  induction steps generalizing outputs with
  | nil => simp [executedEntries, pure, Except.pure]
  | cons step steps ih =>
    rw [List.foldlM_cons]
    cases hexecution : step.execution with
    | none =>
      have hentries : executedEntries (step :: steps) = executedEntries steps := by
        simp [executedEntries, hexecution]
      rw [collectTradeOutput, hexecution, hentries]
      exact ih outputs
    | some execution =>
      by_cases hskipped : execution.status = "skipped"
      · have hentries : executedEntries (step :: steps) = executedEntries steps := by
          simp [executedEntries, hexecution, hskipped]
        have hidle : executionWasExecuted execution = false := by
          simp [executionWasExecuted, ExecutionMetrics.status, hskipped]
        rw [collectTradeOutput, hexecution, hentries]
        dsimp only
        rw [hidle]
        exact ih outputs
      · have hentries : executedEntries (step :: steps) = execution :: executedEntries steps := by
          simp [executedEntries, hexecution, hskipped]
        have hexecuted : executionWasExecuted execution = true := by
          simp [executionWasExecuted, ExecutionMetrics.status, hskipped]
        rw [collectTradeOutput, hexecution, hentries]
        dsimp only
        rw [hexecuted]
        refine (ih (outputs.1 ++ [execution.realizedPnl], outputs.2 ++ [execution.slippage])).trans ?_
        simp

theorem buildReport_closedTrades (decimals : DecimalContext)
    (steps : List (HistoricalReplayStep SimulationExecutionResult)) :
    ∃ report, buildReport decimals steps = .ok report ∧
      report.metrics.closedTrades = (executedEntries steps).length := by
  unfold buildReport collectTradeOutputs
  rw [collectTradeOutput_foldlM]
  exact ⟨_, rfl, by simp⟩

/-- The metrics hold all of the trades, and bound their months and their losses. -/
structure TradesConserved (evaluated : EvaluatedScenario) : Prop where
  reported : evaluated.metrics.closedTrades = evaluated.report.metrics.closedTrades
  trades : (evaluated.metrics.monthlyPnl.map (·.trades)).sum = evaluated.metrics.closedTrades
  resolved : evaluated.limitations = []
  ascending : (evaluated.metrics.monthlyPnl.map (·.month)).Pairwise (· < ·)
  best : ∀ point ∈ evaluated.metrics.monthlyPnl, ∃ best ∈ evaluated.metrics.bestMonth,
    best ∈ evaluated.metrics.monthlyPnl ∧ point.pnl ≤ best.pnl
  worst : ∀ point ∈ evaluated.metrics.monthlyPnl, ∃ worst ∈ evaluated.metrics.worstMonth,
    worst ∈ evaluated.metrics.monthlyPnl ∧ worst.pnl ≤ point.pnl
  drawdown : ∃ maxDrawdown ∈ evaluated.metrics.maxDrawdown,
    max 0 (-evaluated.metrics.netPnl) ≤ maxDrawdown

/-- The amounts of the metrics are the same money, as the context adds them up. -/
structure MoneyConserved (decimals : DecimalContext) (metrics : FullScenarioMetrics) : Prop where
  gross : decimals.sub metrics.grossProfit metrics.grossLoss = metrics.netPnl
  net : metrics.netPnl = decimals.sub metrics.totalPnl metrics.feesPaid
  pnl : metrics.netPnl = decimals.sum (metrics.monthlyPnl.map (·.pnl))

theorem exists_argmax {points : List MonthlyPnlPoint} {point : MonthlyPnlPoint}
    (h : point ∈ points) : ∃ best ∈ points.argmax (·.pnl), best ∈ points ∧ point.pnl ≤ best.pnl := by
  cases hbest : points.argmax (·.pnl) with
  | none =>
    rw [List.argmax_eq_none.mp hbest] at h
    exact absurd h List.not_mem_nil
  | some best => exact ⟨best, rfl, List.argmax_mem hbest, List.le_of_mem_argmax h hbest⟩

theorem exists_argmin {points : List MonthlyPnlPoint} {point : MonthlyPnlPoint}
    (h : point ∈ points) : ∃ worst ∈ points.argmin (·.pnl), worst ∈ points ∧ worst.pnl ≤ point.pnl := by
  cases hworst : points.argmin (·.pnl) with
  | none =>
    rw [List.argmin_eq_none.mp hworst] at h
    exact absurd h List.not_mem_nil
  | some worst => exact ⟨worst, rfl, List.argmin_mem hworst, List.le_of_mem_argmin h hworst⟩

/-- The metrics of executions that all close at candles hold each of them. -/
theorem calculateMetrics_tradesConserved {decimals : DecimalContext} {scenario : PricedScenario}
    {candles : List (MarketCandle Rat)} {executions : List SimulationExecutionResult}
    {report : HistoricalReplayReport}
    (hclose : ∀ execution ∈ executions.filter fun execution => execution.status ≠ "skipped",
      ClosesAmong candles execution)
    (hreport : report.metrics.closedTrades =
      (executions.filter fun execution => execution.status ≠ "skipped").length) :
    TradesConserved ⟨(calculateMetrics decimals scenario candles executions report).1,
      (calculateMetrics decimals scenario candles executions report).2, report⟩ := by
  unfold calculateMetrics
  dsimp only
  rw [buildMonthlyPnl_eq hclose]
  generalize executions.filter (fun execution => execution.status ≠ "skipped") = executed
    at hreport
  exact {
    reported := by
      dsimp only
      rw [hreport, netTradePnls, List.length_map]
    trades := sum_monthTrades
    resolved := rfl
    ascending := monthPoints_ascending
    best := fun _ => exists_argmax
    worst := fun _ => exists_argmin
    drawdown := ⟨_, rfl, max_le (calculateMaxDrawdown_nonneg _) (neg_sum_le_maxDrawdown _)⟩ }

theorem calculateMetrics_moneyConserved {scenario : PricedScenario}
    {candles : List (MarketCandle Rat)} {executions : List SimulationExecutionResult}
    {report : HistoricalReplayReport}
    (hclose : ∀ execution ∈ executions.filter fun execution => execution.status ≠ "skipped",
      ClosesAmong candles execution) :
    MoneyConserved .exact (calculateMetrics .exact scenario candles executions report).1 := by
  unfold calculateMetrics
  dsimp only
  rw [buildMonthlyPnl_eq hclose]
  generalize executions.filter (fun execution => execution.status ≠ "skipped") = executed
  constructor
  · simp only [DecimalContext.exact_sub, DecimalContext.exact_sum]
    exact grossWins_sub_grossLosses _
  · simp only [DecimalContext.exact_sub, DecimalContext.exact_sum]
    exact sum_netTradePnls executed
  · simp only [DecimalContext.exact_sum]
    exact sum_monthPnls.symm

/-- A scenario whose replay ends without an exception has metrics, and these conserve the trades,
and in exact arithmetic the money. -/
theorem evaluateScenario_conserves (decimals : DecimalContext) (scenario : PricedScenario)
    (candles : List (MarketCandle Rat)) (random : ρ → Rat × ρ) (strategy : ReplayStrategy τ)
    (feeRatePerSide : Rat) (s : τ × ρ) (hhold : 1 ≤ scenario.maxHoldCandles)
    (loop : ReplayLoop SimulationExecutionResult (τ × ρ))
    (hreplay : replayScenario decimals scenario candles random strategy feeRatePerSide s = .ok loop)
    (haccepted : loop.raised = none) :
    ∃ evaluated, evaluateScenario decimals scenario candles random strategy feeRatePerSide s =
      .ok evaluated ∧ TradesConserved evaluated ∧
      (decimals = .exact → MoneyConserved decimals evaluated.metrics) := by
  obtain ⟨report, hreport, hcount⟩ := buildReport_closedTrades decimals loop.results
  have hevaluated : evaluateScenario decimals scenario candles random strategy feeRatePerSide s =
      .ok ⟨(calculateMetrics decimals scenario candles
          (loop.results.filterMap (·.execution)) report).1,
        (calculateMetrics decimals scenario candles (loop.results.filterMap (·.execution)) report).2,
        report⟩ := by
    unfold evaluateScenario
    rw [hreplay]
    simp only [bind, Except.bind, haccepted, hreport]
    rfl
  have hclose : ∀ execution ∈ executedEntries loop.results, ClosesAmong candles execution := by
    obtain ⟨service, hservice, hloop⟩ := Fallible.bind_ok hreplay
    obtain rfl := Except.ok.inj hloop
    have hsame : 1 ≤ service.maxHoldCandles := by
      simp only [SimulationExecutionService.create] at hservice
      obtain rfl := Except.ok.inj hservice
      exact hhold
    intro execution hexecution
    obtain ⟨hmem, hstatus⟩ := List.mem_filter.mp hexecution
    obtain ⟨result, hresult, hsome⟩ := List.mem_filterMap.mp hmem
    refine @replay_tradesCloseAmong τ ρ random service strategy {}
      { symbol := scenario.symbol, interval := scenario.interval } candles hsame s result hresult
      execution hsome ?_
    simpa [executionWasExecuted, ExecutionMetrics.status] using hstatus
  refine ⟨_, hevaluated, calculateMetrics_tradesConserved hclose hcount, ?_⟩
  rintro rfl
  exact calculateMetrics_moneyConserved hclose

/-- A scenario with small amounts. -/
def twoMonths : PricedScenario where
  name := "btc"
  family := "scalping"
  strategy := "demo"
  symbol := "BTCUSDT"
  interval := "60"
  lookbackDays := 1
  liveLookbackDays := 1
  datasetPath := ""
  riskAmountUsd := .ofRat 10
  startingEquityUsd := .ofRat 10000
  maxHoldCandles := 20
  minRrr := .ofRat 1
  regressionProfile := ""
  liveProfile := ""
  riskAmount := 10
  startingEquity := 10000
  riskAmount_eq := rfl
  startingEquity_eq := rfl

def buyer : ReplayStrategy Unit where
  requiredCandleCount := 1
  generateSignal snapshot t := (.ok (some {
    symbol := snapshot.symbol, direction := "long", entry := 100, stop := 98, target := 103 }), t)

/-- A candle of the last hours of January 2024, and of the first of February. -/
def januaryHour (hour : Int) (low high : Rat) : MarketCandle Rat :=
  ⟨(19753 * 24 + hour) * 3600000000, 100, high, low, 100, 1⟩

def januaryToFebruary : List (MarketCandle Rat) :=
  [januaryHour 20 99 101, januaryHour 21 99 104, januaryHour 22 99 101, januaryHour 23 99 101,
    januaryHour 24 99 101, januaryHour 25 97 101]

/-- A trade of January wins and one of February loses. -/
theorem evaluateScenario_conserves_twoMonths : ∃ evaluated,
    evaluateScenario .exact twoMonths januaryToFebruary (fun rng : Nat => (1 / 2, rng + 1)) buyer
      (1 / 1000) ((), 0) = .ok evaluated ∧ TradesConserved evaluated ∧
      MoneyConserved .exact evaluated.metrics := by
  obtain ⟨evaluated, hevaluated, htrades, hmoney⟩ := evaluateScenario_conserves .exact twoMonths
    januaryToFebruary (fun rng : Nat => (1 / 2, rng + 1)) buyer (1 / 1000) ((), 0) (by decide) _ rfl
    (by decide +kernel)
  exact ⟨evaluated, hevaluated, htrades, hmoney rfl⟩

/-- Opens at which the quantity of a trade is ten thirds. -/
def openedHigher : List (MarketCandle Rat) :=
  januaryToFebruary.map fun candle => { candle with openPrice := 101 }

/-- In 28 digits the net result is not the total less the fees. -/
theorem evaluateScenario_conserves_rounded : ∃ evaluated,
    evaluateScenario pythonContext twoMonths openedHigher (fun rng : Nat => (1 / 2, rng + 1)) buyer
      (1 / 1000) ((), 0) = .ok evaluated ∧ ¬ MoneyConserved pythonContext evaluated.metrics := by
  have hnet : (evaluateScenario pythonContext twoMonths openedHigher
      (fun rng : Nat => (1 / 2, rng + 1)) buyer (1 / 1000) ((), 0)).toOption.map (fun evaluated =>
        decide (evaluated.metrics.netPnl =
          pythonContext.sub evaluated.metrics.totalPnl evaluated.metrics.feesPaid)) =
      some false := by decide +kernel
  cases hrun : evaluateScenario pythonContext twoMonths openedHigher
      (fun rng : Nat => (1 / 2, rng + 1)) buyer (1 / 1000) ((), 0) with
  | error e =>
    rw [hrun] at hnet
    cases hnet
  | ok evaluated =>
    rw [hrun] at hnet
    refine ⟨evaluated, rfl, ?_⟩
    intro hmoney
    exact of_decide_eq_false (Option.some.inj hnet) hmoney.net

end Evaluation

end AmaExecutionCore
