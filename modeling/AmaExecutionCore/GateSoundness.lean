import AmaExecutionCore.BacktestGate

/-! What a report of the backtest gate vouches for. -/
namespace AmaExecutionCore
open Fallible

structure BacktestThresholdProfile.Meets (profile : BacktestThresholdProfile)
    (metrics : ScenarioMetrics) : Prop where
  closedTrades : profile.minClosedTrades ≤ metrics.closedTrades
  winRate : ∃ x, metrics.winRate = some x ∧ profile.minWinRate.AtMost x
  profitFactor : ∃ x, metrics.profitFactor = some x ∧ profile.minProfitFactor.AtMost x
  expectancy : profile.requirePositiveExpectancy = true →
    ∃ x, metrics.expectancy = some x ∧ (Number.ofRat 0).Below x
  maxDrawdownPct : ∃ x, metrics.maxDrawdownPct = some x ∧ x.AtMost profile.maxDrawdownPct

structure GridThresholdProfile.Meets (profile : GridThresholdProfile)
    (metrics : GridBacktestResult) (rate : Option Number) : Prop where
  completedCycles : profile.minCompletedCycles ≤ metrics.completedCycles
  netPnlUsdt : profile.minNetPnlUsdt.AtMost metrics.netPnlUsdt
  feeCoverageRatio : profile.minFeeCoverageRatio.AtMost metrics.feeCoverageRatio
  annualizedYieldPct : profile.minAnnualizedYieldPct.AtMost metrics.annualizedYieldPct
  maxUnrealizedDrawdownPct :
    metrics.maxUnrealizedDrawdownPct.AtMost profile.maxUnrealizedDrawdownPct
  profitableWindowRate : ∀ minimum, profile.minProfitableWindowRate = some minimum →
    ∃ x, rate = some x ∧ minimum.AtMost x

structure GridThresholdProfile.IsFinite (profile : GridThresholdProfile) : Prop where
  minNetPnlUsdt : profile.minNetPnlUsdt.IsFinite
  minFeeCoverageRatio : profile.minFeeCoverageRatio.IsFinite
  minAnnualizedYieldPct : profile.minAnnualizedYieldPct.IsFinite
  maxUnrealizedDrawdownPct : profile.maxUnrealizedDrawdownPct.IsFinite
  minProfitableWindowRate : ∀ minimum, profile.minProfitableWindowRate = some minimum →
    minimum.IsFinite

/-- None of the metrics that are compared is undefined. -/
structure GridBacktestResult.Defined (metrics : GridBacktestResult) : Prop where
  netPnlUsdt : metrics.netPnlUsdt ≠ .nan
  feeCoverageRatio : metrics.feeCoverageRatio ≠ .nan
  annualizedYieldPct : metrics.annualizedYieldPct ≠ .nan
  maxUnrealizedDrawdownPct : metrics.maxUnrealizedDrawdownPct ≠ .nan

section Checks

variable {py : PythonText}

theorem failsCheck_nil {value : Option Number} {fails : Number → Except GateError Bool}
    {reason : String} (h : failsCheck value fails reason = .ok []) :
    ∃ x, value = some x ∧ fails x = .ok false := by
  cases value with
  | none => exact absurd (Except.ok.inj h) (List.cons_ne_nil _ _)
  | some x =>
    obtain ⟨failed, hfails, h⟩ := bind_ok h
    cases failed with
    | true => exact absurd (Except.ok.inj h) (List.cons_ne_nil _ _)
    | false => exact ⟨x, rfl, hfails⟩

theorem evaluateProfile_meets {metrics : ScenarioMetrics} {profile : BacktestThresholdProfile}
    (h : evaluateProfile py metrics profile = .ok []) : profile.Meets metrics := by
  unfold evaluateProfile at h
  obtain ⟨winRate, hwin, h⟩ := bind_ok h
  obtain ⟨profitFactor, hfactor, h⟩ := bind_ok h
  obtain ⟨expectancy, hexpectancy, h⟩ := bind_ok h
  obtain ⟨drawdown, hdrawdown, h⟩ := bind_ok h
  have hnil := Except.ok.inj h
  simp only [List.append_eq_nil_iff] at hnil
  obtain ⟨⟨⟨⟨htrades, rfl⟩, rfl⟩, rfl⟩, rfl⟩ := hnil
  obtain ⟨win, hw, hwin⟩ := failsCheck_nil hwin
  obtain ⟨factor, hf, hfactor⟩ := failsCheck_nil hfactor
  obtain ⟨fall, hd, hdrawdown⟩ := failsCheck_nil hdrawdown
  refine ⟨?_, ⟨win, hw, Number.atMost_of_ltDecimal hwin⟩,
    ⟨factor, hf, Number.atMost_of_ltDecimal hfactor⟩, ?_,
    ⟨fall, hd, Number.atMost_of_ltDecimal hdrawdown⟩⟩
  · by_contra hless
    rw [if_pos (not_le.mp hless)] at htrades
    exact List.cons_ne_nil _ _ htrades
  · intro hrequired
    rw [expectancyReasons, if_pos hrequired] at hexpectancy
    obtain ⟨x, hx, hexpectancy⟩ := failsCheck_nil hexpectancy
    exact ⟨x, hx, Number.below_of_leDecimal hexpectancy⟩

theorem failsFloat_nil {metric sign : String} {value threshold : Number} {fails : Bool}
    (h : failsFloat py metric value sign threshold fails = []) : fails = false := by
  cases fails with
  | true => exact absurd h (List.cons_ne_nil _ _)
  | false => rfl

/-- Without a reason to fail, the thresholds are met as far as the metrics are defined. -/
theorem evaluateGridProfile_meets {metrics : GridBacktestResult}
    {profile : GridThresholdProfile} {rate : Option Number} (hfinite : profile.IsFinite)
    (hdefined : metrics.Defined) (hrate : rate ≠ some .nan)
    (h : evaluateGridProfile py metrics profile rate = []) : profile.Meets metrics rate := by
  simp only [evaluateGridProfile, List.append_eq_nil_iff] at h
  obtain ⟨⟨⟨⟨⟨hcycles, hpnl⟩, hfees⟩, hyield⟩, hdrawdown⟩, hwindows⟩ := h
  refine ⟨?_, ?_, ?_, ?_, ?_, ?_⟩
  · by_contra hless
    rw [if_pos (not_le.mp hless)] at hcycles
    exact List.cons_ne_nil _ _ hcycles
  · exact Number.atMost_of_lt hdefined.netPnlUsdt hfinite.minNetPnlUsdt.ne_nan
      (failsFloat_nil hpnl)
  · exact Number.atMost_of_lt hdefined.feeCoverageRatio hfinite.minFeeCoverageRatio.ne_nan
      (failsFloat_nil hfees)
  · exact Number.atMost_of_lt hdefined.annualizedYieldPct hfinite.minAnnualizedYieldPct.ne_nan
      (failsFloat_nil hyield)
  · exact Number.atMost_of_lt hfinite.maxUnrealizedDrawdownPct.ne_nan
      hdefined.maxUnrealizedDrawdownPct (failsFloat_nil hdrawdown)
  · intro minimum hminimum
    rw [hminimum] at hwindows
    cases rate with
    | none => exact absurd hwindows (List.cons_ne_nil _ _)
    | some x =>
      have hx : x ≠ .nan := fun hnan => hrate (hnan ▸ rfl)
      exact ⟨x, rfl, Number.atMost_of_lt hx (hfinite.minProfitableWindowRate _ hminimum).ne_nan
        (failsFloat_nil hwindows)⟩

theorem GridThresholdProfile.Meets.defined {profile : GridThresholdProfile}
    {metrics : GridBacktestResult} {rate : Option Number} (h : profile.Meets metrics rate) :
    metrics.Defined :=
  ⟨h.netPnlUsdt.right, h.feeCoverageRatio.right, h.annualizedYieldPct.right,
    h.maxUnrealizedDrawdownPct.left⟩

end Checks

def manifestObjects (payload : Json) (key : String) : List Payload :=
  match payload with
  | .dict fields =>
    match fields.lookup key with
    | some (.list items) => Json.objects items
    | _ => []
  | _ => []

/-- The names the resolved suite lists; none when no suite resolves. -/
def selectedNames (py : PythonText) (payload : Json) (mode : GateMode)
    (suite activeStrategy : Option String) : Except GateError (Option (List String)) := do
  let rawManifest ← loadRawManifest payload
  let selection ← resolveSuiteSelection py rawManifest suite activeStrategy mode
  return selection.map Prod.snd

section Soundness

variable {κ γ : Type} (engines : GateEngines κ γ) (py : PythonText) (payload : Json)
  (mode : GateMode) (suite activeStrategy : Option String)

def Selects (name : String) : Prop :=
  ∃ names, selectedNames py payload mode suite activeStrategy = .ok names ∧
    isSelected names name = true

/-- The evaluation is the scenario's own and meets its profile for the mode. -/
structure ScenarioPassed (scenario : BacktestScenario) (evaluation : ScenarioEvaluation) :
    Prop where
  name : evaluation.name = scenario.name
  metrics : ∃ limitations,
    engines.evaluateMetrics mode scenario = .ok (evaluation.metrics, limitations)
  profile : ∃ manifest profile, loadManifest py payload = .ok manifest ∧
    manifest.profiles.lookup (GateEngines.profileName mode scenario) = some profile ∧
    profile.Meets evaluation.metrics

/-- The evaluation is the grid scenario's own and meets its profile. -/
structure GridScenarioPassed (scenario : GridBacktestScenario)
    (evaluation : GridScenarioEvaluation) : Prop where
  name : evaluation.name = scenario.name
  metrics : engines.evaluateGridMetrics scenario = .ok evaluation.metrics
  rate : ∃ candles, engines.loadFixture scenario.datasetPath = .ok candles ∧
    engines.gridProfitableWindowRate py scenario candles = .ok evaluation.profitableWindowRate
  profile : ∃ rawManifest profiles profile, loadRawManifest payload = .ok rawManifest ∧
    loadGridProfiles py rawManifest = .ok profiles ∧
    profiles.lookup scenario.profile = some profile ∧
    profile.Meets evaluation.metrics evaluation.profitableWindowRate

/-- Something was evaluated, all of the suite was, and all of it meets its thresholds. -/
structure GateSound (report : GateReport) : Prop where
  evaluated : report.results ≠ []
  suiteNames : ∀ names, selectedNames py payload mode suite activeStrategy = .ok (some names) →
    ∀ name ∈ names, ∃ result ∈ report.results, result.name = name
  scenarios : ∀ item ∈ manifestObjects payload "scenarios", ∃ scenario,
    BacktestScenario.ofPayload py item = .ok scenario ∧
    (Selects py payload mode suite activeStrategy scenario.name →
      ∃ evaluation, .scenario evaluation ∈ report.results ∧
        ScenarioPassed engines py payload mode scenario evaluation)
  gridScenarios : ∀ item ∈ manifestObjects payload "grid_scenarios", ∃ scenario,
    GridBacktestScenario.ofPayload py item = .ok scenario ∧
    (Selects py payload mode suite activeStrategy scenario.name →
      ∃ evaluation, .grid evaluation ∈ report.results ∧
        GridScenarioPassed engines py payload scenario evaluation)

def GridThresholdsFinite : Prop :=
  ∀ rawManifest profiles, loadRawManifest payload = .ok rawManifest →
    loadGridProfiles py rawManifest = .ok profiles →
    ∀ name profile, profiles.lookup name = some profile → profile.IsFinite

def GridMetricsDefined : Prop :=
  ∀ item ∈ manifestObjects payload "grid_scenarios", ∀ scenario,
    GridBacktestScenario.ofPayload py item = .ok scenario →
    Selects py payload mode suite activeStrategy scenario.name →
    ∀ metrics, engines.evaluateGridMetrics scenario = .ok metrics → metrics.Defined

end Soundness

section Loading

variable {py : PythonText}

theorem loadRawManifest_ok {payload : Json} {fields : Payload}
    (h : loadRawManifest payload = .ok fields) : payload = .dict fields := by
  unfold loadRawManifest at h
  split at h
  · cases h
    rfl
  · exact nomatch h

theorem selectedNamesForSuite_ne_nil {fields : Payload} {suite : String} {names : List String}
    (h : selectedNamesForSuite py fields suite = .ok names) : names ≠ [] := by
  unfold selectedNamesForSuite at h
  dsimp only at h
  split at h
  · split at h
    · split at h
      · exact nomatch h
      · rename_i rawNames _ hne
        have hlength := (forall₂_of_mapM h).length_eq
        intro hnil
        rw [hnil] at hlength
        exact hne (List.isEmpty_iff_length_eq_zero.mpr hlength)
    · exact nomatch h
  · exact nomatch h

theorem selectedNames_ne_nil {payload : Json} {mode : GateMode}
    {suite activeStrategy : Option String} {names : List String}
    (h : selectedNames py payload mode suite activeStrategy = .ok (some names)) : names ≠ [] := by
  unfold selectedNames at h
  obtain ⟨fields, _, h⟩ := bind_ok h
  obtain ⟨selection, hselection, h⟩ := bind_ok h
  unfold resolveSuiteSelection at hselection
  obtain ⟨resolved, _, hselection⟩ := bind_ok hselection
  cases resolved with
  | none =>
    cases hselection
    exact nomatch h
  | some suite =>
    obtain ⟨listed, hlisted, hselection⟩ := bind_ok hselection
    cases hselection
    cases h
    exact selectedNamesForSuite_ne_nil hlisted

theorem loadManifest_scenarios {payload : Json} {manifest : BacktestManifest}
    (h : loadManifest py payload = .ok manifest) :
    manifest.scenarios ≠ [] ∧ (manifestObjects payload "scenarios").mapM
      (BacktestScenario.ofPayload py) = .ok manifest.scenarios := by
  unfold loadManifest at h
  split at h
  · split at h
    · rename_i fields _ rawProfiles rawScenarios _ hlist
      obtain ⟨profiles, _, h⟩ := bind_ok h
      obtain ⟨scenarios, hscenarios, h⟩ := bind_ok h
      split at h
      · cases h
      · rename_i hempty
        obtain ⟨_, _, h⟩ := bind_ok h
        cases h
        refine ⟨fun hnil => hempty ?_, ?_⟩
        · dsimp only at hnil
          simp [hnil]
        · simp only [manifestObjects, hlist]
          exact hscenarios
    · cases h
  · cases h

theorem loadGridScenarios_items {fields : Payload} {scenarios : List GridBacktestScenario}
    (h : loadGridScenarios py fields = .ok scenarios) {item : Payload}
    (hitem : item ∈ manifestObjects (.dict fields) "grid_scenarios") :
    ∃ scenario ∈ scenarios, GridBacktestScenario.ofPayload py item = .ok scenario := by
  unfold manifestObjects at hitem
  dsimp only at hitem
  split at hitem
  · rename_i items hitems
    simp only [loadGridScenarios, fieldOr, hitems, Option.getD_some] at h
    obtain ⟨value, hvalue, heq⟩ := List.mem_filterMap.mp hitem
    split at heq
    · cases heq
      obtain ⟨index, hindex⟩ := List.mem_iff_getElem?.mp hvalue
      obtain ⟨scenario, hmem, hscenario⟩ :=
        exists_of_mapM h (List.mk_mem_zipIdx_iff_getElem?.mpr hindex)
      exact ⟨scenario, hmem, hscenario⟩
    · exact nomatch heq
  · exact absurd hitem List.not_mem_nil

end Loading

section Run

variable {κ γ : Type} {engines : GateEngines κ γ} {py : PythonText} {payload : Json}
  {mode : GateMode} {suite activeStrategy : Option String} {report : GateReport}

/-- What the gate has read and evaluated when it returns the report. -/
structure GateRun (engines : GateEngines κ γ) (py : PythonText) (payload : Json)
    (mode : GateMode) (names : Option (List String)) (report : GateReport) where
  fields : Payload
  raw : loadRawManifest payload = .ok fields
  manifest : BacktestManifest
  loaded : loadManifest py payload = .ok manifest
  evaluations : List ScenarioEvaluation
  evaluated : (manifest.scenarios.filter fun s => isSelected names s.name).mapM
    (engines.evaluateScenario py mode manifest.profiles) = .ok evaluations
  gridProfiles : List (String × GridThresholdProfile)
  gridProfilesLoaded : loadGridProfiles py fields = .ok gridProfiles
  gridScenarios : List GridBacktestScenario
  gridScenariosLoaded : loadGridScenarios py fields = .ok gridScenarios
  gridEvaluations : List GridScenarioEvaluation
  gridEvaluated : (gridScenarios.filter fun s => isSelected names s.name).mapM
    (engines.evaluateGridScenario py gridProfiles) = .ok gridEvaluations
  results : report.results = evaluations.map .scenario ++ gridEvaluations.map .grid
  validated : validateSelectedNames py names report.results = .ok ()
  allPassed : ∀ result ∈ report.results, result.failureReasons = []

theorem gateOutcome_ok {built : GateReport} (h : gateOutcome built = .ok report) :
    report.allPassed = true ∧ report = built := by
  unfold gateOutcome at h
  split at h
  · rename_i hpassed
    cases h
    exact ⟨hpassed, rfl⟩
  · exact nomatch h

theorem runManifestGate_run
    (h : runManifestGate engines py payload mode suite activeStrategy = .ok report) :
    ∃ names, selectedNames py payload mode suite activeStrategy = .ok names ∧
      Nonempty (GateRun engines py payload mode names report) := by
  unfold runManifestGate at h
  obtain ⟨fields, hraw, h⟩ := bind_ok h
  obtain ⟨selection, hselection, h⟩ := bind_ok h
  obtain ⟨manifest, hmanifest, h⟩ := bind_ok h
  obtain ⟨evaluations, hevaluations, h⟩ := bind_ok h
  obtain ⟨gridProfiles, hprofiles, h⟩ := bind_ok h
  obtain ⟨gridScenarios, hscenarios, h⟩ := bind_ok h
  obtain ⟨gridEvaluations, hgrids, h⟩ := bind_ok h
  obtain ⟨_, hvalidated, h⟩ := bind_ok h
  obtain ⟨hpassed, hreport⟩ := gateOutcome_ok h
  refine ⟨selection.map Prod.snd, ?_, ⟨fields, hraw, manifest, hmanifest, evaluations,
    hevaluations, gridProfiles, hprofiles, gridScenarios, hscenarios, gridEvaluations, hgrids,
    hreport ▸ rfl, hreport ▸ hvalidated, ?_⟩⟩
  · simp only [selectedNames, hraw, hselection, bind, Except.bind]
    rfl
  · intro result hresult
    rw [hreport] at hpassed hresult
    exact List.isEmpty_iff.mp (List.all_eq_true.mp hpassed result hresult)

theorem lookup_ok {α : Type} {value : Option α} {e : GateError} {a : α}
    (h : value.elim (.error e) Except.ok = .ok a) : value = some a := by
  cases value with
  | none => exact nomatch h
  | some b => exact congrArg some (Except.ok.inj h)

theorem evaluateScenario_passed {manifest : BacktestManifest} {scenario : BacktestScenario}
    {evaluation : ScenarioEvaluation} (hmanifest : loadManifest py payload = .ok manifest)
    (h : engines.evaluateScenario py mode manifest.profiles scenario = .ok evaluation)
    (hreasons : evaluation.failureReasons = []) :
    ScenarioPassed engines py payload mode scenario evaluation := by
  unfold GateEngines.evaluateScenario at h
  obtain ⟨candles, hcandles, h⟩ := bind_ok h
  obtain ⟨profile, hprofile, h⟩ := bind_ok h
  obtain ⟨⟨metrics, limitations⟩, hmetrics, h⟩ := bind_ok h
  obtain ⟨reasons, hprofileReasons, h⟩ := bind_ok h
  cases h
  refine ⟨rfl, ⟨limitations, ?_⟩, manifest, profile, hmanifest, lookup_ok hprofile, ?_⟩
  · simp only [GateEngines.evaluateMetrics, hcandles, bind, Except.bind]
    exact hmetrics
  · dsimp only at hreasons
    exact evaluateProfile_meets (hreasons ▸ hprofileReasons)

theorem gridProfitableWindowRate_defined {scenario : GridBacktestScenario} {candles : List γ}
    {rate : Option Number} (h : engines.gridProfitableWindowRate py scenario candles = .ok rate) :
    rate ≠ some .nan := by
  unfold GateEngines.gridProfitableWindowRate at h
  split at h
  · cases h
    exact nofun
  · dsimp only at h
    split at h
    · exact nomatch h
    · obtain ⟨profitable, _, h⟩ := bind_ok h
      cases h
      exact nofun
  · exact nomatch h

theorem evaluateGridScenario_metrics {profiles : List (String × GridThresholdProfile)}
    {scenario : GridBacktestScenario} {evaluation : GridScenarioEvaluation}
    (h : engines.evaluateGridScenario py profiles scenario = .ok evaluation) :
    engines.evaluateGridMetrics scenario = .ok evaluation.metrics := by
  unfold GateEngines.evaluateGridScenario at h
  obtain ⟨profile, _, h⟩ := bind_ok h
  obtain ⟨candles, hcandles, h⟩ := bind_ok h
  obtain ⟨runCandles, hrun, h⟩ := bind_ok h
  obtain ⟨metrics, hmetrics, h⟩ := bind_ok h
  obtain ⟨rate, _, h⟩ := bind_ok h
  cases h
  simp only [GateEngines.evaluateGridMetrics, hcandles, hrun, bind, Except.bind]
  exact hmetrics

theorem evaluateGridScenario_passed {fields : Payload}
    {profiles : List (String × GridThresholdProfile)} {scenario : GridBacktestScenario}
    {evaluation : GridScenarioEvaluation} (hraw : loadRawManifest payload = .ok fields)
    (hprofiles : loadGridProfiles py fields = .ok profiles)
    (hfinite : GridThresholdsFinite py payload)
    (h : engines.evaluateGridScenario py profiles scenario = .ok evaluation)
    (hreasons : evaluation.failureReasons = []) (hdefined : evaluation.metrics.Defined) :
    GridScenarioPassed engines py payload scenario evaluation := by
  have hmetrics := evaluateGridScenario_metrics h
  unfold GateEngines.evaluateGridScenario at h
  obtain ⟨profile, hprofile, h⟩ := bind_ok h
  obtain ⟨candles, hcandles, h⟩ := bind_ok h
  obtain ⟨runCandles, hrun, h⟩ := bind_ok h
  obtain ⟨metrics, _, h⟩ := bind_ok h
  obtain ⟨rate, hrate, h⟩ := bind_ok h
  cases h
  have hlookup := lookup_ok hprofile
  refine ⟨rfl, hmetrics, ⟨candles, hcandles, hrate⟩, fields, profiles, profile, hraw, hprofiles,
    hlookup, ?_⟩
  exact evaluateGridProfile_meets (hfinite fields profiles hraw hprofiles _ _ hlookup) hdefined
    (gridProfitableWindowRate_defined hrate) hreasons

theorem validateSelectedNames_ok {names : List String} {results : List GateResult}
    (h : validateSelectedNames py (some names) results = .ok ()) {name : String}
    (hname : name ∈ names) : ∃ result ∈ results, result.name = name := by
  simp only [validateSelectedNames] at h
  split at h
  · rename_i hmissing
    by_contra hnone
    have hnot : name ∉ results.map GateResult.name := fun hmem =>
      hnone (List.mem_map.mp hmem)
    have hmem : name ∈ names.filter fun name => !(results.map GateResult.name).contains name := by
      simpa using ⟨hname, fun result hresult heq =>
        hnone ⟨result, hresult, heq⟩⟩
    rw [List.isEmpty_iff.mp hmissing] at hmem
    exact absurd hmem List.not_mem_nil
  · exact nomatch h

theorem Selects.isSelected {names : Option (List String)} {name : String}
    (h : Selects py payload mode suite activeStrategy name)
    (hnames : selectedNames py payload mode suite activeStrategy = .ok names) :
    isSelected names name = true := by
  obtain ⟨names', hnames', hselected⟩ := h
  cases Except.ok.inj (hnames'.symm.trans hnames)
  exact hselected

namespace GateRun

variable {names : Option (List String)}

theorem scenarioPassed (run : GateRun engines py payload mode names report) {item : Payload}
    (hitem : item ∈ manifestObjects payload "scenarios") :
    ∃ scenario, BacktestScenario.ofPayload py item = .ok scenario ∧
      (isSelected names scenario.name = true →
        ∃ evaluation, .scenario evaluation ∈ report.results ∧
          ScenarioPassed engines py payload mode scenario evaluation) := by
  obtain ⟨scenario, hscenario, hparse⟩ :=
    exists_of_mapM (loadManifest_scenarios run.loaded).2 hitem
  refine ⟨scenario, hparse, fun hselected => ?_⟩
  obtain ⟨evaluation, hmem, heval⟩ :=
    exists_of_mapM run.evaluated (List.mem_filter.mpr ⟨hscenario, hselected⟩)
  have hresult : .scenario evaluation ∈ report.results := by
    rw [run.results]
    exact List.mem_append_left _ (List.mem_map_of_mem hmem)
  exact ⟨evaluation, hresult,
    evaluateScenario_passed run.loaded heval (run.allPassed _ hresult)⟩

theorem gridEvaluation (run : GateRun engines py payload mode names report) {item : Payload}
    (hitem : item ∈ manifestObjects payload "grid_scenarios") :
    ∃ scenario, GridBacktestScenario.ofPayload py item = .ok scenario ∧
      (isSelected names scenario.name = true →
        ∃ evaluation, .grid evaluation ∈ report.results ∧
          engines.evaluateGridScenario py run.gridProfiles scenario = .ok evaluation ∧
          evaluation.failureReasons = []) := by
  have hobject : payload = .dict run.fields := loadRawManifest_ok run.raw
  rw [hobject] at hitem
  obtain ⟨scenario, hscenario, hparse⟩ := loadGridScenarios_items run.gridScenariosLoaded hitem
  refine ⟨scenario, hparse, fun hselected => ?_⟩
  obtain ⟨evaluation, hmem, heval⟩ :=
    exists_of_mapM run.gridEvaluated (List.mem_filter.mpr ⟨hscenario, hselected⟩)
  have hresult : .grid evaluation ∈ report.results := by
    rw [run.results]
    exact List.mem_append_right _ (List.mem_map_of_mem hmem)
  exact ⟨evaluation, hresult, heval, run.allPassed _ hresult⟩

theorem results_ne_nil (run : GateRun engines py payload mode names report)
    (hnames : ∀ list, names = some list → list ≠ []) : report.results ≠ [] := by
  cases names with
  | none =>
    obtain ⟨hne, hload⟩ := loadManifest_scenarios run.loaded
    obtain ⟨scenario, hscenario⟩ := List.exists_mem_of_ne_nil _ hne
    obtain ⟨evaluation, hmem, _⟩ :=
      exists_of_mapM run.evaluated (List.mem_filter.mpr ⟨hscenario, rfl⟩)
    have hresult : .scenario evaluation ∈ report.results := by
      rw [run.results]
      exact List.mem_append_left _ (List.mem_map_of_mem hmem)
    exact List.ne_nil_of_mem hresult
  | some list =>
    obtain ⟨name, hname⟩ := List.exists_mem_of_ne_nil _ (hnames list rfl)
    obtain ⟨result, hresult, _⟩ := validateSelectedNames_ok run.validated hname
    exact List.ne_nil_of_mem hresult

end GateRun

end Run

theorem GateSound.metricsDefined {κ γ : Type} {engines : GateEngines κ γ} {py : PythonText}
    {payload : Json} {mode : GateMode} {suite activeStrategy : Option String}
    {report : GateReport}
    (h : GateSound engines py payload mode suite activeStrategy report) :
    GridMetricsDefined engines py payload mode suite activeStrategy := by
  intro item hitem scenario hparse hselects metrics hmetrics
  obtain ⟨scenario', hparse', hpassed⟩ := h.gridScenarios item hitem
  cases Except.ok.inj (hparse'.symm.trans hparse)
  obtain ⟨evaluation, _, hpassed⟩ := hpassed hselects
  cases Except.ok.inj (hpassed.metrics.symm.trans hmetrics)
  obtain ⟨_, _, _, _, _, _, hmeets⟩ := hpassed.profile
  exact hmeets.defined

/-- A report of the gate vouches for every scenario exactly when no selected grid scenario has an
undefined metric. -/
theorem runManifestGate_sound_iff {κ γ : Type} (engines : GateEngines κ γ) (py : PythonText)
    (payload : Json) (mode : GateMode) (suite activeStrategy : Option String)
    (report : GateReport) (hfinite : GridThresholdsFinite py payload)
    (h : runManifestGate engines py payload mode suite activeStrategy = .ok report) :
    GateSound engines py payload mode suite activeStrategy report ↔
      GridMetricsDefined engines py payload mode suite activeStrategy := by
  obtain ⟨names, hnames, ⟨run⟩⟩ := runManifestGate_run h
  constructor
  · exact GateSound.metricsDefined
  · intro hdefined
    refine ⟨?_, ?_, ?_, ?_⟩
    · refine run.results_ne_nil fun listed hlisted => ?_
      rw [hlisted] at hnames
      exact selectedNames_ne_nil hnames
    · intro listed hlisted name hname
      cases Except.ok.inj (hnames.symm.trans hlisted)
      exact validateSelectedNames_ok run.validated hname
    · intro item hitem
      obtain ⟨scenario, hparse, hpassed⟩ := run.scenarioPassed hitem
      exact ⟨scenario, hparse, fun hselects => hpassed (hselects.isSelected hnames)⟩
    · intro item hitem
      obtain ⟨scenario, hparse, hevaluation⟩ := run.gridEvaluation hitem
      refine ⟨scenario, hparse, fun hselects => ?_⟩
      obtain ⟨evaluation, hresult, heval, hreasons⟩ :=
        hevaluation (hselects.isSelected hnames)
      have hmetrics := hdefined item hitem scenario hparse hselects evaluation.metrics
        (evaluateGridScenario_metrics heval)
      exact ⟨evaluation, hresult, evaluateGridScenario_passed run.raw run.gridProfilesLoaded
        hfinite heval hreasons hmetrics⟩

/-- A manifest whose one suite selects a grid with the given capital. -/
def gridManifest (capital : Number) : Json :=
  .dict
    [("suites", .dict [("grid", .list [.str "grid_btcusdt"])]),
      ("profiles", .dict [("live_v1", .dict
        [("min_closed_trades", .int 20), ("min_win_rate", .str "0.45"),
          ("min_profit_factor", .str "1.2"), ("require_positive_expectancy", .bool true),
          ("max_drawdown_pct", .str "0.2")])]),
      ("scenarios", .list [.dict
        [("name", .str "vwap_btcusdt"), ("family", .str "scalping"),
          ("strategy", .str "vwap_reversion"), ("symbol", .str "BTCUSDT"),
          ("interval", .str "15"), ("lookback_days", .int 365),
          ("live_lookback_days", .int 180), ("dataset_path", .str "btcusdt_15m.json.gz"),
          ("regression_profile", .str "live_v1"), ("live_profile", .str "live_v1")]]),
      ("grid_threshold_profiles", .dict [("grid_live", .dict
        [("min_completed_cycles", .int 1), ("min_annualized_yield_pct", .float (.ofRat 8)),
          ("min_fee_coverage_ratio", .float (.ofRat (3 / 2))),
          ("min_net_pnl_usdt", .float (.ofRat 0)),
          ("max_unrealized_drawdown_pct", .float (.ofRat 60))])]),
      ("grid_scenarios", .list [.dict
        [("name", .str "grid_btcusdt"), ("symbol", .str "BTCUSDT"),
          ("dataset_path", .str "btcusdt_15m.json.gz"),
          ("p_min_pct_from_start", .float (.ofRat (-1 / 5))),
          ("p_max_pct_from_start", .float (.ofRat (1 / 5))), ("n_levels", .int 1),
          ("capital_usdt", .float capital), ("profile", .str "grid_live")]])]

/-- The readings of the three decimals that the manifest spells out. -/
def manifestText : PythonText where
  repr := fun _ => ""
  showNumber := fun _ => ""
  parseInt := fun _ => none
  parseDecimal := fun text =>
    [("0.45", Number.ofRat (9 / 20)), ("1.2", .ofRat (6 / 5)), ("0.2", .ofRat (1 / 5))].lookup text
  parseFloat := fun _ => none
  floatOfInt := fun n => some n
  nearest := fun q => q

/-- One candle around a price of 100 that crosses the one level: one cycle. With a capital of
infinity its profit and its fees are both infinite, their difference and quotient undefined. -/
def crossingEngines : GateEngines Unit Unit where
  loadDataset := fun _ => .ok [()]
  fetchCandles := fun _ _ _ => .ok [()]
  candlesForLookback := fun _ _ => .ok 1
  scenarioMetrics := fun _ _ => .error (.valueError "no strategy runs in this suite")
  loadFixture := fun _ => .ok [()]
  gridMetrics := fun scenario _ =>
    if scenario.capitalUsdt = .infinity then
      .ok { completedCycles := 1, netPnlUsdt := .nan, feeCoverageRatio := .nan
            annualizedYieldPct := .nan, maxUnrealizedDrawdownPct := .ofRat 0 }
    else
      .ok { completedCycles := 1, netPnlUsdt := .ofRat (199 / 20)
            feeCoverageRatio := .ofRat 200, annualizedYieldPct := .ofRat (72635 / 4)
            maxUnrealizedDrawdownPct := .ofRat 0 }

theorem gridManifest_finite (capital : Number) :
    GridThresholdsFinite manifestText (gridManifest capital) := by
  intro fields profiles hfields hprofiles name profile hlookup
  cases hfields
  cases hprofiles
  simp only [List.reverse_singleton, List.lookup_cons, List.lookup_nil] at hlookup
  split at hlookup
  · cases hlookup
    exact ⟨⟨_, rfl⟩, ⟨_, rfl⟩, ⟨_, rfl⟩, ⟨_, rfl⟩, nofun⟩
  · exact nomatch hlookup

theorem exists_of_toBool {ε α : Type} {result : Except ε α} (h : result.toBool = true) :
    ∃ a, result = .ok a := by
  cases result with
  | error e => exact nomatch h
  | ok a => exact ⟨a, rfl⟩

theorem runManifestGate_sound_capital : ∃ report,
    runManifestGate crossingEngines manifestText (gridManifest (.ofRat 20)) .live
      (some " grid ") none = .ok report ∧
    GateSound crossingEngines manifestText (gridManifest (.ofRat 20)) .live (some " grid ") none
      report := by
  obtain ⟨report, h⟩ := exists_of_toBool (show (runManifestGate crossingEngines manifestText
    (gridManifest (.ofRat 20)) .live (some " grid ") none).toBool = true by decide +kernel)
  refine ⟨report, h, (runManifestGate_sound_iff _ _ _ _ _ _ _ (gridManifest_finite _) h).mpr ?_⟩
  intro item hitem scenario hparse _ metrics hmetrics
  cases List.mem_singleton.mp hitem
  cases hparse
  cases hmetrics
  exact ⟨nofun, nofun, nofun, nofun⟩

/-- With an infinite capital the gate passes a grid whose profit is undefined. -/
theorem runManifestGate_unsound : ∃ report,
    runManifestGate crossingEngines manifestText (gridManifest .infinity) .live
      (some " grid ") none = .ok report ∧
    GridThresholdsFinite manifestText (gridManifest .infinity) ∧
    ¬ GateSound crossingEngines manifestText (gridManifest .infinity) .live (some " grid ") none
      report := by
  obtain ⟨report, h⟩ := exists_of_toBool (show (runManifestGate crossingEngines manifestText
    (gridManifest .infinity) .live (some " grid ") none).toBool = true by decide +kernel)
  refine ⟨report, h, gridManifest_finite _, fun hsound => ?_⟩
  have hdefined := hsound.metricsDefined _ (List.mem_singleton_self _) _ rfl
    ⟨some ["grid_btcusdt"], rfl, by decide +kernel⟩ _ rfl
  exact hdefined.netPnlUsdt rfl

end AmaExecutionCore
