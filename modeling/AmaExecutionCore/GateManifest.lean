import AmaExecutionCore.Numbers
import AmaExecutionCore.Store

/-! The manifest of the backtest gate: what `json.loads` hands over, how profiles and scenarios
are read from it, and how a suite is chosen. -/
namespace AmaExecutionCore

inductive Json where
  | null
  | bool (b : Bool)
  | int (n : Int)
  | float (x : Number)
  | str (text : String)
  | list (items : List Json)
  | dict (fields : List (String × Json))

abbrev Payload := List (String × Json)

inductive GateError where
  | typeError (text : String)
  | valueError (text : String)
  | keyError (key : String)
  | overflowError
  | invalidOperation
  | conversionError
  | runtimeError (text : String)
  | backtestGateError
  deriving DecidableEq, Repr

/-- Python's own texts of values, readings of texts and roundings to a double. -/
structure PythonText where
  repr : Json → String
  showNumber : Number → String
  parseInt : String → Option Int
  parseDecimal : String → Option Number
  parseFloat : String → Option Number
  floatOfInt : Int → Option Rat
  nearest : Rat → Rat

namespace Json

variable (py : PythonText)

/-- `str(value)`; the text of a string is itself. -/
def toText : Json → String
  | .str text => text
  | value => py.repr value

def truncate (q : Rat) : Int := if q < 0 then -(-q).floor else q.floor

/-- `int(value)`. -/
def toInt : Json → Except GateError Int
  | .int n => .ok n
  | .bool b => .ok (if b then 1 else 0)
  | .float (.value (some (some q))) => .ok (truncate q)
  | .float .nan => .error .conversionError
  | .float _ => .error .overflowError
  | .str text => (py.parseInt text).elim (.error .conversionError) .ok
  | _ => .error .conversionError

/-- `float(value)`. -/
def toFloat : Json → Except GateError Number
  | .int n => (py.floatOfInt n).elim (.error .overflowError) fun q => .ok (Number.ofRat q)
  | .bool b => .ok (Number.ofRat (if b then 1 else 0))
  | .float x => .ok x
  | .str text => (py.parseFloat text).elim (.error .conversionError) .ok
  | _ => .error .conversionError

/-- `Decimal(str(value))`. -/
def toDecimal (value : Json) : Except GateError Number :=
  (py.parseDecimal (value.toText py)).elim (.error .invalidOperation) .ok

/-- `bool(value)`. -/
def toBool : Json → Bool
  | .null => false
  | .bool b => b
  | .int n => n ≠ 0
  | .float x => x ≠ Number.ofRat 0
  | .str text => text ≠ ""
  | .list items => !items.isEmpty
  | .dict fields => !fields.isEmpty

/-- The objects among the items, which `isinstance(item, dict)` keeps. -/
def objects (items : List Json) : List Payload :=
  items.filterMap fun item => match item with | .dict fields => some fields | _ => none

end Json

/-- `payload[key]`. -/
def requiredField (payload : Payload) (key : String) : Except GateError Json :=
  (payload.lookup key).elim (.error (.keyError key)) .ok

/-- `payload.get(key, default)`. -/
def fieldOr (payload : Payload) (key : String) (default : Json) : Json :=
  (payload.lookup key).getD default

structure BacktestThresholdProfile where
  name : String
  minClosedTrades : Int
  minWinRate : Number
  minProfitFactor : Number
  requirePositiveExpectancy : Bool
  maxDrawdownPct : Number

structure BacktestScenario where
  name : String
  family : String
  strategy : String
  symbol : String
  interval : String
  lookbackDays : Int
  liveLookbackDays : Int
  datasetPath : String
  riskAmountUsd : Number
  startingEquityUsd : Number
  maxHoldCandles : Int
  minRrr : Number
  regressionProfile : String
  liveProfile : String

structure BacktestManifest where
  profiles : List (String × BacktestThresholdProfile)
  scenarios : List BacktestScenario

def BacktestThresholdProfile.ofPayload (py : PythonText) (name : String) (payload : Payload) :
    Except GateError BacktestThresholdProfile := do
  let minClosedTrades ← (← requiredField payload "min_closed_trades").toInt py
  let minWinRate ← (← requiredField payload "min_win_rate").toDecimal py
  let minProfitFactor ← (← requiredField payload "min_profit_factor").toDecimal py
  let requirePositiveExpectancy ← requiredField payload "require_positive_expectancy"
  let maxDrawdownPct ← (← requiredField payload "max_drawdown_pct").toDecimal py
  return {
    name := name
    minClosedTrades := minClosedTrades
    minWinRate := minWinRate
    minProfitFactor := minProfitFactor
    requirePositiveExpectancy := requirePositiveExpectancy.toBool
    maxDrawdownPct := maxDrawdownPct }

def BacktestScenario.ofPayload (py : PythonText) (item : Payload) :
    Except GateError BacktestScenario := do
  let name ← requiredField item "name"
  let family ← requiredField item "family"
  let strategy ← requiredField item "strategy"
  let symbol ← requiredField item "symbol"
  let interval ← requiredField item "interval"
  let lookbackDays ← (← requiredField item "lookback_days").toInt py
  let liveLookbackDays ← (← requiredField item "live_lookback_days").toInt py
  let datasetPath ← requiredField item "dataset_path"
  let riskAmountUsd ← (fieldOr item "risk_amount_usd" (.float (.ofRat 100))).toFloat py
  let startingEquityUsd ← (fieldOr item "starting_equity_usd" (.float (.ofRat 10000))).toFloat py
  let maxHoldCandles ← (fieldOr item "max_hold_candles" (.int 20)).toInt py
  let minRrr ← (fieldOr item "min_rrr" (.float (.ofRat (3 / 2)))).toFloat py
  let regressionProfile ← requiredField item "regression_profile"
  let liveProfile ← requiredField item "live_profile"
  return {
    name := name.toText py
    family := family.toText py
    strategy := strategy.toText py
    symbol := symbolKey (symbol.toText py)
    interval := String.ofList (strip (interval.toText py).toList)
    lookbackDays := lookbackDays
    liveLookbackDays := liveLookbackDays
    datasetPath := datasetPath.toText py
    riskAmountUsd := riskAmountUsd
    startingEquityUsd := startingEquityUsd
    maxHoldCandles := maxHoldCandles
    minRrr := minRrr
    regressionProfile := regressionProfile.toText py
    liveProfile := liveProfile.toText py }

/-- The profiles of the manifest that are objects, under their names. -/
def loadProfiles (py : PythonText) (rawProfiles : Payload) :
    Except GateError (List (String × BacktestThresholdProfile)) :=
  let named := rawProfiles.filterMap fun (name, value) =>
    match value with | .dict payload => some (name, payload) | _ => none
  named.mapM fun (name, payload) => do
    return (name, ← BacktestThresholdProfile.ofPayload py name payload)

def checkProfilesKnown (profiles : List (String × BacktestThresholdProfile))
    (scenario : BacktestScenario) : Except GateError Unit :=
  let regressionProfile := scenario.regressionProfile
  let liveProfile := scenario.liveProfile
  if (profiles.lookup regressionProfile).isNone then
    .error (.valueError s!"Unknown regression profile: {regressionProfile}")
  else if (profiles.lookup liveProfile).isNone then
    .error (.valueError s!"Unknown live profile: {liveProfile}")
  else .ok ()

/-- `load_manifest`, from the value that `json.loads` returned. -/
def loadManifest (py : PythonText) (payload : Json) : Except GateError BacktestManifest :=
  match payload with
  | .dict fields =>
    match fields.lookup "profiles", fields.lookup "scenarios" with
    | some (.dict rawProfiles), some (.list rawScenarios) => do
      let profiles ← loadProfiles py rawProfiles
      let scenarios ← (Json.objects rawScenarios).mapM (BacktestScenario.ofPayload py)
      if profiles.isEmpty || scenarios.isEmpty then
        throw (.valueError
          "Backtest manifest must define at least one profile and one scenario.")
      let _ ← scenarios.mapM (checkProfilesKnown profiles)
      return { profiles := profiles, scenarios := scenarios }
    | _, _ => .error (.typeError "Backtest manifest must define profiles and scenarios.")
  | _ => .error (.typeError "Backtest manifest must be a JSON object.")

/-- `_load_raw_manifest`, from the value that `json.loads` returned. -/
def loadRawManifest (payload : Json) : Except GateError Payload :=
  match payload with
  | .dict fields => .ok fields
  | _ => .error (.typeError "Backtest manifest must be a JSON object.")

section Suites

inductive GateMode where
  | regression | live
  deriving DecidableEq, Repr

def GateMode.text : GateMode → String
  | .regression => "regression"
  | .live => "live"

def normalizeSelectorName (value : Option String) : Option String :=
  value.bind fun value =>
    let normalized := String.ofList (strip value.toList)
    if normalized = "" then none else some normalized

def suiteForActiveStrategy (rawManifest : Payload) (activeStrategy : String) :
    Except GateError String :=
  match fieldOr rawManifest "active_strategy_suites" (.dict []) with
  | .dict strategySuites =>
    let names := (strategySuites.map Prod.fst).filter fun name => name ≠ ""
    let available := String.intercalate ", " (names.mergeSort fun a b => decide (a ≤ b))
    let unknown := GateError.valueError (s!"Unknown active strategy: {activeStrategy}. " ++
      s!"Available active strategies: {available}")
    match strategySuites.lookup activeStrategy with
    | some (.str suite) => if suite = "" then .error unknown else .ok suite
    | _ => .error unknown
  | _ => .error (.typeError "active_strategy_suites must be an object.")

def scenarioNameOf (py : PythonText) (suite : String) (rawName : Json) : Except GateError String :=
  let quoted := py.repr (.str suite)
  let invalid := GateError.typeError s!"Manifest suite {quoted} contains invalid scenario name."
  match rawName with
  | .str name => if name = "" then .error invalid else .ok name
  | _ => .error invalid

def selectedNamesForSuite (py : PythonText) (rawManifest : Payload) (suite : String) :
    Except GateError (List String) :=
  let quoted := py.repr (.str suite)
  let empty := GateError.valueError s!"Manifest suite {quoted} must define at least one scenario."
  match rawManifest.lookup "suites" with
  | some (.dict suites) =>
    match suites.lookup suite with
    | some (.list rawNames) =>
      if rawNames.isEmpty then .error empty else rawNames.mapM (scenarioNameOf py suite)
    | _ => .error empty
  | _ => .error (.typeError "Manifest suite requested, but manifest does not define suites.")

/-- The suite that `default_suites` names for the mode. -/
def defaultSuite (rawManifest : Payload) (mode : GateMode) : Option String :=
  match rawManifest.lookup "default_suites" with
  | some (.dict defaults) =>
    match defaults.lookup mode.text with
    | some (.str suite) => some suite
    | _ => none
  | _ => none

/-- The suite asked for, else that of the active strategy, else the mode's default. -/
def resolvedSuite (rawManifest : Payload) (suite activeStrategy : Option String)
    (mode : GateMode) : Except GateError (Option String) :=
  match normalizeSelectorName suite, normalizeSelectorName activeStrategy with
  | some suite, _ => .ok (some suite)
  | none, some activeStrategy => some <$> suiteForActiveStrategy rawManifest activeStrategy
  | none, none => .ok (defaultSuite rawManifest mode)

def resolveSuiteSelection (py : PythonText) (rawManifest : Payload)
    (suite activeStrategy : Option String) (mode : GateMode) :
    Except GateError (Option (String × List String)) := do
  match ← resolvedSuite rawManifest suite activeStrategy mode with
  | none => return none
  | some suite => return some (suite, ← selectedNamesForSuite py rawManifest suite)

end Suites

section GridScenarios

structure GridThresholdProfile where
  name : String
  minCompletedCycles : Int
  minProfitableWindowRate : Option Number
  minAnnualizedYieldPct : Number
  minFeeCoverageRatio : Number
  minNetPnlUsdt : Number
  maxUnrealizedDrawdownPct : Number

structure GridBacktestScenario where
  name : String
  symbol : String
  datasetPath : String
  pMinPctFromStart : Number
  pMaxPctFromStart : Number
  nLevels : Int
  capitalUsdt : Number
  profile : String
  maxCandles : Option Int
  walkForwardDays : Option Int
  walkForwardWindows : Option Int

variable (py : PythonText)

def mappingPayload (rawValue : Json) (label : String) : Except GateError Payload :=
  match rawValue with
  | .dict payload => .ok payload
  | _ => .error (.typeError s!"{label} must be an object.")

def strValue (payload : Payload) (key : String) : Except GateError String :=
  let invalid := GateError.typeError s!"{key} must be a non-empty string."
  match payload.lookup key with
  | some (.str value) => if value = "" then .error invalid else .ok value
  | _ => .error invalid

def integer (key : String) : Json → Except GateError Int
  | .int n => .ok n
  | _ => .error (.typeError s!"{key} must be an integer.")

def intValue (payload : Payload) (key : String) (default : Json) : Except GateError Int :=
  integer key (fieldOr payload key default)

def optionalIntValue (payload : Payload) (key : String) : Except GateError (Option Int) :=
  match fieldOr payload key .null with
  | .null => .ok none
  | value => some <$> integer key value

def numeric (key : String) : Json → Except GateError Number
  | .int n => (Json.int n).toFloat py
  | .float x => .ok x
  | _ => .error (.typeError s!"{key} must be numeric.")

def floatValue (payload : Payload) (key : String) (default : Json) : Except GateError Number :=
  numeric py key (fieldOr payload key default)

def optionalFloatValue (payload : Payload) (key : String) : Except GateError (Option Number) :=
  match fieldOr payload key .null with
  | .null => .ok none
  | value => some <$> numeric py key value

def GridThresholdProfile.ofPayload (name : String) (payload : Payload) :
    Except GateError GridThresholdProfile := do
  let minCompletedCycles ← intValue payload "min_completed_cycles" (.int 1)
  let minProfitableWindowRate ← optionalFloatValue py payload "min_profitable_window_rate"
  let minAnnualizedYieldPct ←
    floatValue py payload "min_annualized_yield_pct" (.float (.ofRat 0))
  let minFeeCoverageRatio ← floatValue py payload "min_fee_coverage_ratio" (.float (.ofRat 0))
  let minNetPnlUsdt ← floatValue py payload "min_net_pnl_usdt" (.float (.ofRat 0))
  let maxUnrealizedDrawdownPct ←
    floatValue py payload "max_unrealized_drawdown_pct" (.float (.ofRat 100))
  return {
    name := name
    minCompletedCycles := minCompletedCycles
    minProfitableWindowRate := minProfitableWindowRate
    minAnnualizedYieldPct := minAnnualizedYieldPct
    minFeeCoverageRatio := minFeeCoverageRatio
    minNetPnlUsdt := minNetPnlUsdt
    maxUnrealizedDrawdownPct := maxUnrealizedDrawdownPct }

def loadGridProfiles (rawManifest : Payload) :
    Except GateError (List (String × GridThresholdProfile)) :=
  match fieldOr rawManifest "grid_threshold_profiles" (.dict []) with
  | .dict rawProfiles => rawProfiles.mapM fun (name, rawProfile) => do
    let payload ← mappingPayload rawProfile s!"grid_threshold_profiles.{name}"
    return (name, ← GridThresholdProfile.ofPayload py name payload)
  | _ => .error (.typeError "grid_threshold_profiles must be an object.")

def GridBacktestScenario.ofPayload (payload : Payload) :
    Except GateError GridBacktestScenario := do
  let name ← strValue payload "name"
  let symbol ← strValue payload "symbol"
  let datasetPath ← strValue payload "dataset_path"
  let pMinPctFromStart ← floatValue py payload "p_min_pct_from_start" .null
  let pMaxPctFromStart ← floatValue py payload "p_max_pct_from_start" .null
  let nLevels ← intValue payload "n_levels" .null
  let capitalUsdt ← floatValue py payload "capital_usdt" .null
  let profile ← strValue payload "profile"
  let maxCandles ← optionalIntValue payload "max_candles"
  let walkForwardDays ← optionalIntValue payload "walk_forward_days"
  let walkForwardWindows ← optionalIntValue payload "walk_forward_windows"
  return {
    name := name
    symbol := String.ofList (symbol.toList.map asciiUpper)
    datasetPath := datasetPath
    pMinPctFromStart := pMinPctFromStart
    pMaxPctFromStart := pMaxPctFromStart
    nLevels := nLevels
    capitalUsdt := capitalUsdt
    profile := profile
    maxCandles := maxCandles
    walkForwardDays := walkForwardDays
    walkForwardWindows := walkForwardWindows }

def loadGridScenarios (rawManifest : Payload) : Except GateError (List GridBacktestScenario) :=
  match fieldOr rawManifest "grid_scenarios" (.list []) with
  | .list rawScenarios => rawScenarios.zipIdx.mapM fun (rawScenario, index) => do
    let payload ← mappingPayload rawScenario s!"grid_scenarios[{index}]"
    GridBacktestScenario.ofPayload py payload
  | _ => .error (.typeError "grid_scenarios must be a list.")

end GridScenarios

end AmaExecutionCore
