import AmaExecutionCore.GateManifest

/-! The backtest gate: every scenario of the manifest that the suite selects is evaluated against
its profile, and one failure fails the gate. -/
namespace AmaExecutionCore

structure ScenarioMetrics where
  closedTrades : Int
  winRate : Option Number
  expectancy : Option Number
  profitFactor : Option Number
  maxDrawdownPct : Option Number

structure GridBacktestResult where
  completedCycles : Int
  netPnlUsdt : Number
  feeCoverageRatio : Number
  annualizedYieldPct : Number
  maxUnrealizedDrawdownPct : Number

/-- The datasets and the two engines that the gate calls. -/
structure GateEngines (κ γ : Type) where
  loadDataset : String → Except GateError (List κ)
  fetchCandles : String → String → Int → Except GateError (List κ)
  candlesForLookback : String → Int → Except GateError Int
  scenarioMetrics : BacktestScenario → List κ → Except GateError (ScenarioMetrics × List String)
  loadFixture : String → Except GateError (List γ)
  gridMetrics : GridBacktestScenario → List γ → Except GateError GridBacktestResult

structure ScenarioEvaluation where
  name : String
  family : String
  strategy : String
  symbol : String
  interval : String
  lookbackDays : Int
  profile : String
  metrics : ScenarioMetrics
  failureReasons : List String
  limitations : List String

structure GridScenarioEvaluation where
  name : String
  symbol : String
  profile : String
  metrics : GridBacktestResult
  profitableWindowRate : Option Number
  walkForwardDays : Option Int
  walkForwardWindows : Option Int
  failureReasons : List String

/-- One entry of the report. -/
inductive GateResult where
  | scenario (evaluation : ScenarioEvaluation)
  | grid (evaluation : GridScenarioEvaluation)

namespace GateResult

def name : GateResult → String
  | scenario evaluation => evaluation.name
  | grid evaluation => evaluation.name

def failureReasons : GateResult → List String
  | scenario evaluation => evaluation.failureReasons
  | grid evaluation => evaluation.failureReasons

def passed (result : GateResult) : Bool := result.failureReasons.isEmpty

def strategy : GateResult → Option String
  | scenario evaluation => some evaluation.strategy
  | grid _ => none

def limitations : GateResult → List String
  | scenario evaluation => evaluation.limitations
  | grid _ => []

end GateResult

structure GateReport where
  strategyName : String
  suite : Option String
  mode : GateMode
  allPassed : Bool
  limitations : List String
  results : List GateResult

section Profiles

variable (py : PythonText)

def failure (metric left sign right : String) : String := s!"{metric} {left} {sign} {right}"

def shown (value : Option Number) : String := value.elim "None" py.showNumber

/-- A metric that is absent or fails its comparison gives the reason. -/
def failsCheck (value : Option Number) (fails : Number → Except GateError Bool)
    (reason : String) : Except GateError (List String) :=
  match value with
  | none => .ok [reason]
  | some x => do return if ← fails x then [reason] else []

def expectancyReasons (metrics : ScenarioMetrics) (profile : BacktestThresholdProfile) :
    Except GateError (List String) :=
  if profile.requirePositiveExpectancy then
    failsCheck metrics.expectancy (fun x => x.leDecimal .invalidOperation (.ofRat 0))
      (failure "expectancy" (shown py metrics.expectancy) "<=" "0")
  else .ok []

def evaluateProfile (metrics : ScenarioMetrics) (profile : BacktestThresholdProfile) :
    Except GateError (List String) := do
  let trades :=
    if metrics.closedTrades < profile.minClosedTrades then
      [failure "closed_trades" (toString metrics.closedTrades) "<"
        (toString profile.minClosedTrades)]
    else []
  let winRate ← failsCheck metrics.winRate
    (fun x => x.ltDecimal .invalidOperation profile.minWinRate)
    (failure "win_rate" (shown py metrics.winRate) "<" (py.showNumber profile.minWinRate))
  let profitFactor ← failsCheck metrics.profitFactor
    (fun x => x.ltDecimal .invalidOperation profile.minProfitFactor)
    (failure "profit_factor" (shown py metrics.profitFactor) "<"
      (py.showNumber profile.minProfitFactor))
  let expectancy ← expectancyReasons py metrics profile
  let maxDrawdownPct ← failsCheck metrics.maxDrawdownPct
    (fun x => profile.maxDrawdownPct.ltDecimal .invalidOperation x)
    (failure "max_drawdown_pct" (shown py metrics.maxDrawdownPct) ">"
      (py.showNumber profile.maxDrawdownPct))
  return trades ++ winRate ++ profitFactor ++ expectancy ++ maxDrawdownPct

def failsFloat (metric : String) (value : Number) (sign : String) (threshold : Number)
    (fails : Bool) : List String :=
  if fails then [failure metric (py.showNumber value) sign (py.showNumber threshold)] else []

def windowRateReasons (minimum rate : Option Number) : List String :=
  match minimum, rate with
  | none, _ => []
  | some _, none => ["profitable_window_rate missing"]
  | some minimum, some rate =>
    failsFloat py "profitable_window_rate" rate "<" minimum (rate.lt minimum)

def evaluateGridProfile (metrics : GridBacktestResult) (profile : GridThresholdProfile)
    (profitableWindowRate : Option Number) : List String :=
  let cycles :=
    if metrics.completedCycles < profile.minCompletedCycles then
      [failure "completed_cycles" (toString metrics.completedCycles) "<"
        (toString profile.minCompletedCycles)]
    else []
  let netPnl := failsFloat py "net_pnl_usdt" metrics.netPnlUsdt "<" profile.minNetPnlUsdt
    (metrics.netPnlUsdt.lt profile.minNetPnlUsdt)
  let feeCoverage := failsFloat py "fee_coverage_ratio" metrics.feeCoverageRatio "<"
    profile.minFeeCoverageRatio (metrics.feeCoverageRatio.lt profile.minFeeCoverageRatio)
  let annualizedYield := failsFloat py "annualized_yield_pct" metrics.annualizedYieldPct "<"
    profile.minAnnualizedYieldPct (metrics.annualizedYieldPct.lt profile.minAnnualizedYieldPct)
  let drawdown := failsFloat py "max_unrealized_drawdown_pct" metrics.maxUnrealizedDrawdownPct ">"
    profile.maxUnrealizedDrawdownPct
    (profile.maxUnrealizedDrawdownPct.lt metrics.maxUnrealizedDrawdownPct)
  cycles ++ netPnl ++ feeCoverage ++ annualizedYield ++ drawdown ++
    windowRateReasons py profile.minProfitableWindowRate profitableWindowRate

end Profiles

namespace GateEngines

variable {κ γ : Type} (engines : GateEngines κ γ) (py : PythonText)

def lookbackDays (mode : GateMode) (scenario : BacktestScenario) : Int :=
  match mode with
  | .regression => scenario.lookbackDays
  | .live => scenario.liveLookbackDays

def profileName (mode : GateMode) (scenario : BacktestScenario) : String :=
  match mode with
  | .regression => scenario.regressionProfile
  | .live => scenario.liveProfile

/-- The candles of a scenario: its dataset, or in live mode what the exchange has, if enough. -/
def scenarioCandles (mode : GateMode) (scenario : BacktestScenario) :
    Except GateError (List κ) :=
  match mode with
  | .regression => engines.loadDataset scenario.datasetPath
  | .live => do
    let candles ←
      engines.fetchCandles scenario.symbol scenario.interval scenario.liveLookbackDays
    let expected ← engines.candlesForLookback scenario.interval scenario.liveLookbackDays
    let count := candles.length
    let symbol := scenario.symbol
    let interval := scenario.interval
    if (count : Int) < expected then
      throw (.runtimeError (s!"Fetched only {count} candles for {symbol} {interval}, " ++
        s!"expected {expected}."))
    return candles

def evaluateMetrics (mode : GateMode) (scenario : BacktestScenario) :
    Except GateError (ScenarioMetrics × List String) := do
  engines.scenarioMetrics scenario (← engines.scenarioCandles mode scenario)

/-- One turn of the gate's loop over the scenarios, `evaluate_scenario` included. -/
def evaluateScenario (mode : GateMode) (profiles : List (String × BacktestThresholdProfile))
    (scenario : BacktestScenario) : Except GateError ScenarioEvaluation := do
  let candles ← engines.scenarioCandles mode scenario
  let name := profileName mode scenario
  let profile ← (profiles.lookup name).elim (.error (.keyError name)) .ok
  let (metrics, limitations) ← engines.scenarioMetrics scenario candles
  let failureReasons ← evaluateProfile py metrics profile
  let lookback := lookbackDays mode scenario
  return {
    name := scenario.name
    family := scenario.family
    strategy := scenario.strategy
    symbol := scenario.symbol
    interval := scenario.interval
    lookbackDays := if lookback = 0 then scenario.lookbackDays else lookback
    profile := profile.name
    metrics := metrics
    failureReasons := failureReasons
    limitations := limitations }

def applyMaxCandles (candles : List γ) (maxCandles : Option Int) : Except GateError (List γ) :=
  match maxCandles with
  | none => .ok candles
  | some maxCandles =>
    let count := candles.length
    if maxCandles ≤ 0 then .error (.valueError "max_candles must be positive.")
    else if (count : Int) < maxCandles then
      .error (.valueError s!"Fixture has {count} candles, expected at least {maxCandles}.")
    else .ok (candles.take maxCandles.toNat)

def gridBacktest (scenario : GridBacktestScenario) (candles : List γ) :
    Except GateError GridBacktestResult :=
  let name := scenario.name
  if candles.isEmpty then .error (.valueError s!"{name} has no candles.")
  else engines.gridMetrics scenario candles

def evaluateGridMetrics (scenario : GridBacktestScenario) :
    Except GateError GridBacktestResult := do
  let candles ← engines.loadFixture scenario.datasetPath
  engines.gridBacktest scenario (← applyMaxCandles candles scenario.maxCandles)

def windowProfitable (scenario : GridBacktestScenario) (candles : List γ)
    (candlesPerWindow windowIndex : Nat) : Except GateError Bool := do
  let windowCandles := (candles.drop (windowIndex * candlesPerWindow)).take candlesPerWindow
  let count := windowCandles.length
  let name := scenario.name
  let number := windowIndex + 1
  if count ≠ candlesPerWindow then
    throw (.valueError (s!"{name} walk-forward window {number} has {count} candles, " ++
      s!"expected {candlesPerWindow}."))
  let metrics ← engines.gridBacktest scenario windowCandles
  return (Number.ofRat 0).lt metrics.netPnlUsdt

def gridProfitableWindowRate (scenario : GridBacktestScenario) (candles : List γ) :
    Except GateError (Option Number) :=
  match scenario.walkForwardDays, scenario.walkForwardWindows with
  | none, none => .ok none
  | some days, some windows => do
    let candlesPerWindow := days * 24 * 4
    if candlesPerWindow ≤ 0 ∨ windows ≤ 0 then
      throw (.valueError "walk-forward settings must be positive.")
    let profitable ← (List.range windows.toNat).mapM fun windowIndex =>
      engines.windowProfitable scenario candles candlesPerWindow.toNat windowIndex
    let profitableWindows := profitable.countP fun p => p
    return some (.ofRat (py.nearest ((profitableWindows : Rat) / windows)))
  | _, _ => .error (.valueError
      "walk_forward_days and walk_forward_windows must be provided together.")

/-- `_evaluate_grid_scenario`, with the profile looked up. -/
def evaluateGridScenario (profiles : List (String × GridThresholdProfile))
    (scenario : GridBacktestScenario) : Except GateError GridScenarioEvaluation := do
  let profileName := scenario.profile
  let profile ← (profiles.lookup profileName).elim
    (.error (.valueError s!"Unknown grid profile: {profileName}")) .ok
  let candles ← engines.loadFixture scenario.datasetPath
  let metrics ← engines.gridBacktest scenario (← applyMaxCandles candles scenario.maxCandles)
  let rate ← engines.gridProfitableWindowRate py scenario candles
  return {
    name := scenario.name
    symbol := scenario.symbol
    profile := profile.name
    metrics := metrics
    profitableWindowRate := rate
    walkForwardDays := scenario.walkForwardDays
    walkForwardWindows := scenario.walkForwardWindows
    failureReasons := evaluateGridProfile py metrics profile rate }

end GateEngines

section Gate

def isSelected (selectedNames : Option (List String)) (name : String) : Bool :=
  match selectedNames with
  | none => true
  | some names => decide (name ∈ names)

def validateSelectedNames (py : PythonText) (selectedNames : Option (List String))
    (results : List GateResult) : Except GateError Unit :=
  match selectedNames with
  | none => .ok ()
  | some names =>
    let missing := names.filter fun name => !(results.map GateResult.name).contains name
    let listed := py.repr (.list ((missing.dedup.mergeSort fun a b => decide (a ≤ b)).map .str))
    if missing.isEmpty then .ok ()
    else .error (.valueError s!"Manifest suite references unknown scenarios: {listed}")

def resolveReportStrategyName (activeStrategy : Option String) (results : List GateResult) :
    String :=
  match normalizeSelectorName activeStrategy with
  | some strategy => strategy
  | none =>
    let names := results.filterMap fun result => normalizeSelectorName result.strategy
    match names.dedup with
    | [strategy] => strategy
    | _ => "mixed"

def buildManifestReport (activeStrategy : Option String) (mode : GateMode)
    (resolvedSuite : Option String) (results : List GateResult) : GateReport :=
  { strategyName := resolveReportStrategyName activeStrategy results
    suite := resolvedSuite
    mode := mode
    allPassed := results.all GateResult.passed
    limitations :=
      (results.flatMap GateResult.limitations).dedup.mergeSort fun a b => decide (a ≤ b)
    results := results }

def gateOutcome (report : GateReport) : Except GateError GateReport :=
  if report.allPassed then .ok report else .error .backtestGateError

variable {κ γ : Type} (engines : GateEngines κ γ) (py : PythonText)

/-- `run_manifest_gate`: the report, unless the gate raises. -/
def runManifestGate (payload : Json) (mode : GateMode) (suite activeStrategy : Option String) :
    Except GateError GateReport := do
  let rawManifest ← loadRawManifest payload
  let selection ← resolveSuiteSelection py rawManifest suite activeStrategy mode
  let selectedNames := selection.map Prod.snd
  let manifest ← loadManifest py payload
  let scenarios := manifest.scenarios.filter fun s => isSelected selectedNames s.name
  let evaluations ← scenarios.mapM (engines.evaluateScenario py mode manifest.profiles)
  let gridProfiles ← loadGridProfiles py rawManifest
  let gridScenarios ← loadGridScenarios py rawManifest
  let gridEvaluations ← (gridScenarios.filter fun s => isSelected selectedNames s.name).mapM
    (engines.evaluateGridScenario py gridProfiles)
  let results := evaluations.map .scenario ++ gridEvaluations.map .grid
  validateSelectedNames py selectedNames results
  gateOutcome (buildManifestReport activeStrategy mode (selection.map Prod.fst) results)

end Gate

end AmaExecutionCore
