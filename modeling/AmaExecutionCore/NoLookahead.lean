import AmaExecutionCore.ReplayRules
import AmaExecutionCore.SimulationExits

/-! A replay with simulated executions does not look ahead: two replays over candles that agree on
a prefix agree on their steps in it. -/
namespace AmaExecutionCore

namespace ReplayPortfolioState

variable {runner : HistoricalReplayRunner} {state state' : ReplayPortfolioState}

/-- Two states that differ only in the prices and the planned closes of their open positions. -/
structure Like (state state' : ReplayPortfolioState) : Prop where
  rest : { state with openPositions := [] } = { state' with openPositions := [] }
  symbols : state.openPositions.map (·.symbol) = state'.openPositions.map (·.symbol)

namespace Like

theorem refl (state : ReplayPortfolioState) : state.Like state := ⟨rfl, rfl⟩

theorem exists_positions (h : state.Like state') :
    ∃ positions, state' = { state with openPositions := positions } := by
  obtain ⟨positions, cooldown, daily, losses, halted, current⟩ := state
  obtain ⟨positions', cooldown', daily', losses', halted', current'⟩ := state'
  obtain ⟨hrest, -⟩ := h
  simp only [ReplayPortfolioState.mk.injEq, true_and] at hrest
  obtain ⟨rfl, rfl, rfl, rfl, rfl⟩ := hrest
  exact ⟨positions', rfl⟩

theorem reset (h : state.Like state') (date : Date) :
    (state.resetDailyCircuitBreaker date).Like (state'.resetDailyCircuitBreaker date) := by
  obtain ⟨positions, rfl⟩ := h.exists_positions
  have hsymbols := h.symbols
  unfold resetDailyCircuitBreaker
  dsimp only
  split_ifs
  · exact ⟨rfl, hsymbols⟩
  · exact ⟨rfl, hsymbols⟩

theorem filter_symbols {positions : List ReplayOpenPosition} (symbol : String) :
    (positions.filter fun p => p.symbol ≠ symbol).map (·.symbol) =
      (positions.map (·.symbol)).filter fun s => s ≠ symbol := by
  rw [List.filter_map]
  rfl

theorem record (h : state.Like state') (closure : ReplayScheduledClosure) :
    (state.recordClosedTrade runner closure).Like (state'.recordClosedTrade runner closure) := by
  obtain ⟨positions, rfl⟩ := h.exists_positions
  have hsymbols := h.symbols
  refine ⟨?_, ?_⟩
  · unfold recordClosedTrade
    dsimp only
    split
    · rfl
    · split_ifs <;> rfl
  · rw [recordClosedTrade_open, recordClosedTrade_open, filter_symbols, filter_symbols]
    exact congrArg _ hsymbols

theorem openPosition_symbols (position : ReplayOpenPosition) :
    (state.openPosition position).openPositions.map (·.symbol) =
      if position.symbol ∈ state.openPositions.map (·.symbol) then
        state.openPositions.map (·.symbol)
      else state.openPositions.map (·.symbol) ++ [position.symbol] := by
  have hmem : (state.openPositions.any fun p => p.symbol = position.symbol) ↔
      position.symbol ∈ state.openPositions.map (·.symbol) := by
    simp
  unfold openPosition
  dsimp only
  by_cases h : position.symbol ∈ state.openPositions.map (·.symbol)
  · rw [if_pos h, if_pos (hmem.mpr h), List.map_map]
    refine List.map_congr_left fun p _ => ?_
    by_cases hp : p.symbol = position.symbol <;> simp [hp]
  · rw [if_neg h, if_neg (mt hmem.mp h), List.map_append]
    rfl

theorem openPosition (h : state.Like state') {position position' : ReplayOpenPosition}
    (hsymbol : position.symbol = position'.symbol) :
    (state.openPosition position).Like (state'.openPosition position') where
  rest := h.rest
  symbols := by
    rw [openPosition_symbols, openPosition_symbols, h.symbols, hsymbol]

theorem canExecute (h : state.Like state') (symbol : String) (step : Int) (date : Date) :
    state.canExecuteSignal runner symbol step date =
      state'.canExecuteSignal runner symbol step date := by
  have hany : (state.openPositions.any fun p => p.symbol = symbol) =
      state'.openPositions.any fun p => p.symbol = symbol := by
    have hsymbols := congrArg (List.any · fun s => decide (s = symbol)) h.symbols
    rw [List.any_map, List.any_map] at hsymbols
    exact hsymbols
  have hlength : state.openPositions.length = state'.openPositions.length := by
    simpa using congrArg List.length h.symbols
  obtain ⟨hrest, -⟩ := h
  simp only [ReplayPortfolioState.mk.injEq, true_and] at hrest
  obtain ⟨hcooldown, hdaily, -, hhalted, -⟩ := hrest
  unfold canExecuteSignal
  rw [hany, hlength, hcooldown, hdaily, hhalted]

end Like

end ReplayPortfolioState

/-- Two executions of a step: the same decision from the same entry, and the same execution if it
is closed before step `m` in one of them. -/
def SameExecution (m : Int) : Option SimulationExecutionResult → Option SimulationExecutionResult →
    Prop
  | none, none => True
  | some result, some result' => result.status = result'.status ∧
      result.entryPrice = result'.entryPrice ∧
      (result.closedAtStep < m ∨ result'.closedAtStep < m → result = result')
  | _, _ => False

structure SameStep (m : Int) (result result' : HistoricalReplayStep SimulationExecutionResult) :
    Prop where
  stepIndex : result.stepIndex = result'.stepIndex
  signal : result.signal = result'.signal
  execution : SameExecution m result.execution result'.execution

theorem SameExecution.refl {m : Int} (execution : Option SimulationExecutionResult) :
    SameExecution m execution execution := by
  cases execution with
  | none => trivial
  | some result => exact ⟨rfl, rfl, fun _ => rfl⟩

theorem SameExecution.of_open {m : Int} {result result' : SimulationExecutionResult}
    (h : SimulationExecutionService.OpenTwins m result result') :
    SameExecution m (some result) (some result') := by
  refine ⟨h.status.trans h.status'.symm, h.entry, fun hclosed => ?_⟩
  have hclose := h.close
  have hclose' := h.close'
  omega

section
variable {ρ : Type} {runner : HistoricalReplayRunner} {symbol : String} {m now step : Int}
  {loop loop' : ReplayLoop SimulationExecutionResult ρ}

/-- The symbol has an open position that is not closed before step `m`. -/
def ReplayLoop.Holds (m now : Int) (symbol : String) (loop : ReplayLoop SimulationExecutionResult ρ) :
    Prop :=
  symbol ∈ loop.portfolio.openPositions.map (·.symbol) ∧
    ∀ k, now ≤ k → k < m → ∀ c ∈ loop.scheduledClosures k, c.symbol ≠ symbol

/-- Two replays before step `now` whose candles agree before step `m`. While their services differ
they hold a position that is closed later. -/
structure ReplayLoop.Twins (m now : Int) (symbol : String)
    (loop loop' : ReplayLoop SimulationExecutionResult ρ) : Prop where
  portfolio : loop.portfolio.Like loop'.portfolio
  scheduled : ∀ k, now ≤ k → k < m → loop.scheduledClosures k = loop'.scheduledClosures k
  raised : loop.raised = loop'.raised
  results : List.Forall₂ (SameStep m) loop.results loop'.results
  services : loop.services = loop'.services ∨ loop.Holds m now symbol

namespace ReplayLoop

theorem Holds.later (h : loop.Holds m now symbol) : loop.Holds m (now + 1) symbol :=
  ⟨h.1, fun k hk => h.2 k (by omega)⟩

theorem closeAll_raised (cs : List ReplayScheduledClosure) :
    (loop.closeAll runner step cs).raised = loop.raised := by
  induction cs generalizing loop with
  | nil => rfl
  | cons c cs ih => exact ih

theorem closeAll_like (cs : List ReplayScheduledClosure)
    (h : loop.portfolio.Like loop'.portfolio) :
    (loop.closeAll runner step cs).portfolio.Like (loop'.closeAll runner step cs).portfolio := by
  induction cs generalizing loop loop' with
  | nil => exact h
  | cons c cs ih => exact ih (h.record c)

namespace Twins

theorem ended (h : Twins m now symbol loop loop') {s s' : ρ} (r : Option PyError)
    (hservices : s = s' ∨ loop.Holds m now symbol) :
    Twins m (now + 1) symbol { loop with services := s, raised := r }
      { loop' with services := s', raised := r } where
  portfolio := h.portfolio
  scheduled k hk := h.scheduled k (by omega)
  raised := rfl
  results := h.results
  services := hservices.imp id Holds.later

theorem opened (h : Twins m step symbol loop loop') (hstep : step < m) (date : Date) :
    Twins m (step + 1) symbol (loop.opened runner step date) (loop'.opened runner step date) := by
  have hsame := h.scheduled step (le_refl _) hstep
  constructor
  · rw [opened_eq, opened_eq, ← hsame]
    exact closeAll_like _ (h.portfolio.reset date)
  · intro k hk hkm
    rw [opened_scheduled, opened_scheduled, Function.update_of_ne (by omega),
      Function.update_of_ne (by omega)]
    exact h.scheduled k (by omega) hkm
  · rw [opened_eq, opened_eq, closeAll_raised, closeAll_raised]
    exact h.raised
  · rw [opened_results, opened_results]
    exact h.results
  · rw [opened_eq, opened_eq, closeAll_services, closeAll_services]
    obtain hservices | ⟨hopen, hlate⟩ := h.services
    · exact .inl hservices
    · refine .inr ⟨?_, fun k hk hkm => ?_⟩
      · rw [← opened_eq, opened_open]
        obtain ⟨p, hp, hsymbol⟩ := List.mem_map.mp hopen
        refine List.mem_map.mpr ⟨p, List.mem_filter.mpr ⟨hp, decide_eq_true fun hclosed => ?_⟩, hsymbol⟩
        obtain ⟨c, hc, hcs⟩ := List.mem_map.mp hclosed
        exact hlate step (le_refl _) hstep c hc (hcs.trans hsymbol)
      · rw [← opened_eq, opened_scheduled, Function.update_of_ne (by omega)]
        exact hlate k (by omega) hkm

theorem append (h : Twins m now symbol loop loop')
    {result result' : HistoricalReplayStep SimulationExecutionResult}
    (hresult : SameStep m result result') :
    Twins m now symbol (loop.append result) (loop'.append result') where
  portfolio := h.portfolio
  scheduled := h.scheduled
  raised := h.raised
  results := List.rel_append h.results (.cons hresult .nil)
  services := h.services

theorem track (h : Twins m (step + 1) symbol loop loop') (hservices : loop.services = loop'.services)
    (signal : StrategySignal Rat) (date : Date) (tracking : Tracking) :
    Twins m (step + 1) symbol (loop.track runner signal step date tracking)
      (loop'.track runner signal step date tracking) := by
  have hopen : (loop.portfolio.openPosition (positionOf signal step tracking)).Like
      (loop'.portfolio.openPosition (positionOf signal step tracking)) := h.portfolio.openPosition rfl
  constructor
  · by_cases hnow : tracking.closeStep ≤ step
    · rw [track_now hnow, track_now hnow]
      exact hopen.record _
    · rw [track_later hnow, track_later hnow]
      exact hopen
  · intro k hk hkm
    rw [track_scheduled (by omega), track_scheduled (by omega), h.scheduled k hk hkm]
  · rw [track_raised, track_raised]
    exact h.raised
  · rw [track_results, track_results]
    exact h.results
  · rw [track_services, track_services]
    exact .inl hservices

/-- Trades that are open before step `m` are tracked in both, whatever their closes. -/
theorem trackOpen (h : Twins m (step + 1) symbol loop loop') (hbooks : loop.Books runner step (step + 1))
    {signal : StrategySignal Rat} {date : Date}
    (hcan : loop.portfolio.canExecuteSignal runner signal.symbol step date = true)
    {tracking tracking' : Tracking} (hlate : m ≤ tracking.closeStep)
    (hlate' : m ≤ tracking'.closeStep) (hstep : step < m) {s s' : ρ} :
    Twins m (step + 1) signal.symbol
      { loop.track runner signal step date tracking with services := s }
      { loop'.track runner signal step date tracking' with services := s' } := by
  have hfree := (Books.canExecute hcan).2.1
  rw [track_later (by omega), track_later (by omega)]
  have hkeep : ∀ k, k < m → ∀ (scheduled : Int → List ReplayScheduledClosure) c close, m ≤ close →
      Function.update scheduled close c k = scheduled k := by
    intro k hk scheduled c close hclose
    exact Function.update_of_ne (by omega) _ _
  constructor
  · exact h.portfolio.openPosition rfl
  · intro k hk hkm
    dsimp only
    rw [hkeep k hkm _ _ _ hlate, hkeep k hkm _ _ _ hlate']
    exact h.scheduled k hk hkm
  · exact h.raised
  · exact h.results
  · refine .inr ⟨?_, fun k hk hkm c hc hsymbol => ?_⟩
    · dsimp only
      rw [ReplayPortfolioState.Like.openPosition_symbols]
      split_ifs with hin
      · exact hin
      · exact List.mem_append_right _ (List.mem_singleton_self _)
    · -- A closure that is still scheduled belongs to an open position.
      dsimp only at hc
      rw [hkeep k hkm _ _ _ hlate, hbooks.waiting k hk] at hc
      obtain ⟨hc, hclose⟩ := List.mem_filter.mp hc
      have hclose : c.closeStep = k := of_decide_eq_true hclose
      have hin : (c.symbol, c.closeStep) ∈
          loop.portfolio.openPositions.map fun p => (p.symbol, p.plannedCloseStep) := by
        rw [hbooks.positions]
        exact List.mem_map.mpr ⟨c, List.mem_filter.mpr ⟨hc, decide_eq_true (by omega)⟩, rfl⟩
      obtain ⟨p, hp, heq⟩ := List.mem_map.mp hin
      exact hfree p hp ((Prod.mk.inj heq).1.trans hsymbol)

theorem later (h : Twins m now symbol loop loop') : Twins m (now + 1) symbol loop loop' where
  portfolio := h.portfolio
  scheduled k hk := h.scheduled k (by omega)
  raised := h.raised
  results := h.results
  services := h.services.imp id Holds.later

/-- While a position of the symbol is held, no signal of the symbol is executed. -/
theorem services_eq (h : Twins m now symbol loop loop') {date : Date}
    (hcan : loop.portfolio.canExecuteSignal runner symbol step date = true) :
    loop.services = loop'.services := by
  obtain hservices | ⟨hopen, -⟩ := h.services
  · exact hservices
  · obtain ⟨p, hp, hsymbol⟩ := List.mem_map.mp hopen
    exact absurd hsymbol ((Books.canExecute hcan).2.1 p hp)

end Twins

end ReplayLoop

theorem ReplayLoop.Twins.withServices (h : loop.Twins m now symbol loop') (s : ρ) :
    ReplayLoop.Twins m now symbol { loop with services := s } { loop' with services := s } where
  portfolio := h.portfolio
  scheduled := h.scheduled
  raised := h.raised
  results := h.results
  services := .inl rfl

def SimulationExecutionResult.tracking (result : SimulationExecutionResult) : Tracking where
  closeStep := result.closedAtStep
  entryPrice := some result.entryPrice
  netTradePnl := some (result.realizedPnl - result.feesPaid)

/-- What two requests have in common at a step before `m`. -/
structure SameFuture (m step : Int) (request request' : HistoricalReplayRequest) : Prop where
  length : (futureCandlesForStep request step).length = (futureCandlesForStep request' step).length
  take : (futureCandlesForStep request step).take ((m - 2 - step).toNat + 1) =
    (futureCandlesForStep request' step).take ((m - 2 - step).toNat + 1)

section
variable {service : SimulationExecutionService} {random : ρ → Rat × ρ} {required : Nat}
  {strategy : MarketSnapshot Rat → Except PyError (Option (StrategySignal Rat))}
  {request request' : HistoricalReplayRequest}

theorem executeStep_twins (hhold : 1 ≤ service.maxHoldCandles) (hstep : step + 1 < m)
    (hfuture : SameFuture m step request request')
    (h : loop.Twins m (step + 1) symbol loop') (hbooks : loop.Books runner step (step + 1))
    (hservices : loop.services = loop'.services) {signal : StrategySignal Rat}
    (hsymbol : signal.symbol = symbol) {date : Date}
    (hcan : loop.portfolio.canExecuteSignal runner signal.symbol step date = true)
    (snapshot : MarketSnapshot Rat) :
    (∃ e s, executeStep runner (service.services random required strategy) request signal step
        date snapshot loop loop.services = (.error e, s) ∧
      executeStep runner (service.services random required strategy) request' signal step
        date snapshot loop' loop'.services = (.error e, s)) ∨
    ∃ next next' s s', executeStep runner (service.services random required strategy) request
        signal step date snapshot loop loop.services = (.ok next, s) ∧
      executeStep runner (service.services random required strategy) request' signal step
        date snapshot loop' loop'.services = (.ok next', s') ∧
      ReplayLoop.Twins m (step + 1) symbol { next with services := s }
        { next' with services := s' } := by
  subst hsymbol
  unfold executeStep
  rw [← hservices]
  cases toExecuteSignalRequest signal with
  | error e => exact .inl ⟨e, _, rfl, rfl⟩
  | ok executeSignalRequest =>
    dsimp only [callExecution, SimulationExecutionService.services]
    obtain hsame | ⟨result, rng, result', rng', hresult, hresult', hopen⟩ :=
      @SimulationExecutionService.executeReplaySignal_agree service ρ random executeSignalRequest
        step loop.services _ _ _ hhold hfuture.length hfuture.take
    · rw [← hsame]
      match service.executeReplaySignal random executeSignalRequest
          (futureCandlesForStep request step) step loop.services with
      | (.error e, rng) => exact .inl ⟨e, _, rfl, rfl⟩
      | (.ok result, rng) =>
        have hresult : SameStep m ⟨step, snapshot, some signal, some result⟩
            ⟨step, snapshot, some signal, some result⟩ := ⟨rfl, rfl, .refl _⟩
        dsimp only
        by_cases hdone : executionWasExecuted result = true
        · rw [if_pos hdone, if_pos hdone]
          have htrack := (@ReplayLoop.Twins.track ρ runner _ _ _ _ _ h hservices signal date
            result.tracking).withServices rng
          exact .inr ⟨_, _, rng, rng, rfl, rfl, htrack.append hresult⟩
        · rw [if_neg hdone, if_neg hdone]
          exact .inr ⟨_, _, rng, rng, rfl, rfl, (h.withServices rng).append hresult⟩
    · have hlate : step + ((m - 2 - step).toNat + 1) + 1 = m := by omega
      rw [hlate] at hopen
      have hdone : executionWasExecuted result = true := by
        simp [executionWasExecuted, ExecutionMetrics.status, hopen.status]
      have hdone' : executionWasExecuted result' = true := by
        simp [executionWasExecuted, ExecutionMetrics.status, hopen.status']
      rw [hresult, hresult']
      dsimp only
      rw [if_pos hdone, if_pos hdone']
      have htrack := @ReplayLoop.Twins.trackOpen ρ runner _ _ _ _ _ h hbooks signal date hcan
        result.tracking result'.tracking hopen.close hopen.close' (by omega) rng rng'
      exact .inr ⟨_, _, rng, rng', rfl, rfl, htrack.append ⟨rfl, rfl, .of_open hopen⟩⟩

theorem replayStep_twins (hhold : 1 ≤ service.maxHoldCandles)
    (hstrategy : ∀ snapshot signal, strategy snapshot = .ok (some signal) →
      signal.symbol = snapshot.symbol)
    (hstep : step + 1 < m) (hfuture : SameFuture m step request request')
    (h : loop.Twins m step symbol loop') (hsound : loop.SoundBefore runner step)
    {snapshot : MarketSnapshot Rat} (hsnapshot : snapshot.symbol = symbol) :
    ReplayLoop.Twins m (step + 1) symbol
      (replayStep runner (service.services random required strategy) request loop (step, snapshot))
      (replayStep runner (service.services random required strategy) request' loop'
        (step, snapshot)) := by
  unfold replayStep
  rw [← h.raised]
  split_ifs with hsome
  · exact h.later
  · have hraised : loop.raised = none := by simpa using hsome
    dsimp only
    unfold replayStepOutcome
    cases snapshot.candles.getLast? with
    | none => exact h.ended _ h.services
    | some candle =>
      have hopened := @ReplayLoop.Twins.opened ρ runner _ _ _ _ _ h (by omega) candle.date
      have hgenerate : ∀ rng, (service.services random required strategy).generateSignal snapshot
          rng = (strategy snapshot, rng) := fun _ => rfl
      dsimp only
      rw [hgenerate, hgenerate]
      cases hanswer : strategy snapshot with
      | error e =>
        refine h.ended (some e) ?_
        rw [ReplayLoop.opened_services, ReplayLoop.opened_services]
        exact h.services
      | ok answer =>
        cases answer with
        | none => exact hopened.append ⟨rfl, rfl, .refl _⟩
        | some signal =>
          have hsignal : signal.symbol = symbol :=
            (hstrategy snapshot signal hanswer).trans hsnapshot
          dsimp only
          rw [← hopened.portfolio.canExecute signal.symbol step candle.date]
          split_ifs with hcan
          · obtain ⟨before, hbefore, hnow⟩ := hsound
            obtain rfl := hnow hraised
            have hservices : (loop.opened runner before candle.date).services =
                (loop'.opened runner before candle.date).services := by
              rw [hsignal] at hcan
              exact hopened.services_eq hcan
            obtain ⟨e, s, herror, herror'⟩ | ⟨next, next', s, s', hnext, hnext', htwins⟩ :=
              @executeStep_twins ρ runner symbol m before _ _ service random required strategy
                request request' hhold hstep hfuture hopened hbefore.books.opened hservices signal
                hsignal candle.date hcan snapshot
            · rw [herror, herror']
              exact h.ended (some e) (.inl rfl)
            · rw [hnext, hnext']
              exact htwins
          · exact hopened.append ⟨rfl, rfl, .refl _⟩

def ReplayLoop.before (m : Int) (loop : ReplayLoop SimulationExecutionResult ρ) :
    List (HistoricalReplayStep SimulationExecutionResult) :=
  loop.results.filter (·.stepIndex < m)

theorem replayStep_before {services : ReplayServices SimulationExecutionResult ρ}
    {input : Int × MarketSnapshot Rat} (hlate : m ≤ input.1) :
    (replayStep runner services request loop input).before m = loop.before m := by
  have hstep := replayStep_stepped runner services request loop input
  generalize replayStep runner services request loop input = next at hstep ⊢
  have hdrop : ∀ result : HistoricalReplayStep SimulationExecutionResult,
      result.stepIndex = input.1 →
        (loop.results ++ [result]).filter (·.stepIndex < m) = loop.before m := by
    intro result hindex
    rw [List.filter_append, List.filter_cons_of_neg, List.filter_nil, List.append_nil]
    · rfl
    · rw [hindex, decide_eq_true_eq]
      omega
  cases hstep with
  | ended hsome => rfl
  | idle hraised hcandle hidle =>
    unfold ReplayLoop.before
    simp only [ReplayLoop.append, ReplayLoop.opened_results]
    exact hdrop _ rfl
  | entered hentry =>
    unfold ReplayLoop.before
    simp only [ReplayLoop.append, ReplayLoop.track_results, ReplayLoop.opened_results]
    exact hdrop _ rfl

/-- The steps from `m` on add nothing to the results before `m`. -/
theorem run_before {services : ReplayServices SimulationExecutionResult ρ} {start : Int}
    {inputs : List (Int × MarketSnapshot Rat)} (hsteps : Consecutive start inputs)
    (hlate : m ≤ start) :
    (Runs.run (replayStep runner services request) loop inputs).before m = loop.before m := by
  induction inputs generalizing start loop with
  | nil => rfl
  | cons input rest ih =>
    obtain ⟨rfl, hrest⟩ := hsteps
    exact (ih hrest (by omega)).trans (replayStep_before hlate)

/-- Two inputs of one step: the same snapshot, as far as its candles agree. -/
structure SameInput (m : Int) (symbol : String) (input input' : Int × MarketSnapshot Rat) :
    Prop where
  step : input.1 = input'.1
  start : -1 ≤ input.1
  symbol : input.2.symbol = symbol
  snapshot : input.1 < m → input.2 = input'.2

theorem Consecutive.same {start : Int} {inputs inputs' : List (Int × MarketSnapshot Rat)}
    (hsteps : Consecutive start inputs) (h : List.Forall₂ (SameInput m symbol) inputs inputs') :
    Consecutive start inputs' := by
  induction h generalizing start with
  | nil => trivial
  | cons hinput _ ih => exact ⟨hinput.step.symm.trans hsteps.1, ih hsteps.2⟩

theorem ReplayLoop.Twins.before (h : loop.Twins m now symbol loop') (n : Int) :
    List.Forall₂ (SameStep m) (loop.before n) (loop'.before n) := by
  refine List.rel_filter (fun result result' hsame => ?_) h.results
  dsimp only
  rw [hsame.stepIndex]

/-- Replays over such inputs agree on the steps before `m - 1`. -/
theorem run_twins (hhold : 1 ≤ service.maxHoldCandles)
    (hstrategy : ∀ snapshot signal, strategy snapshot = .ok (some signal) →
      signal.symbol = snapshot.symbol)
    (hfuture : ∀ step, -1 ≤ step → step + 1 < m → SameFuture m step request request') {start : Int}
    {inputs inputs' : List (Int × MarketSnapshot Rat)} (hsteps : Consecutive start inputs)
    (hinputs : List.Forall₂ (SameInput m symbol) inputs inputs')
    (h : loop.Twins m start symbol loop') (hsound : loop.SoundBefore runner start) :
    List.Forall₂ (SameStep m)
      ((Runs.run (replayStep runner (service.services random required strategy) request) loop
        inputs).before (m - 1))
      ((Runs.run (replayStep runner (service.services random required strategy) request') loop'
        inputs').before (m - 1)) := by
  induction hinputs generalizing start loop loop' with
  | nil => exact h.before (m - 1)
  | @cons input input' rest rest' hinput hrest' ih =>
    have hall := hsteps
    have hsteps' := hsteps.same (.cons hinput hrest')
    obtain ⟨hfirst, hrest⟩ := hsteps
    subst hfirst
    by_cases hearly : input.1 + 1 < m
    · have hinput' : input' = input :=
        Prod.ext hinput.step.symm (hinput.snapshot (by omega)).symm
      subst hinput'
      have hnext := @replayStep_twins ρ runner symbol m input'.1 loop loop' service random required
        strategy request request' hhold hstrategy hearly (hfuture _ hinput.start hearly) h hsound
        input'.2 hinput.symbol
      have hsound' := (replayStep_stepped runner (service.services random required strategy)
        request loop input').sound hsound
      exact ih hrest hnext hsound'
    · rw [run_before hall (by omega), run_before hsteps' (by omega)]
      exact h.before (m - 1)

theorem candleWindow_same {candles candles' : List (MarketCandle Rat)} {n : Nat}
    (hagree : candles.take n = candles'.take n) (hstep : step < n) :
    candleWindow request candles required step = candleWindow request candles' required step := by
  have htake : candles.take (step + 1).toNat = candles'.take (step + 1).toNat := by
    have hle : (step + 1).toNat ≤ n := by omega
    rw [← Nat.min_eq_left hle, ← List.take_take, hagree, List.take_take]
  unfold candleWindow
  rw [htake]

theorem buildCandleReplaySteps_same {candles candles' : List (MarketCandle Rat)} {n : Nat}
    (hlength : candles.length = candles'.length) (hagree : candles.take n = candles'.take n) :
    (∃ e, buildCandleReplaySteps request candles required = .error e ∧
      buildCandleReplaySteps { request with candles := some candles' } candles' required = .error e) ∨
    ∃ steps steps', buildCandleReplaySteps request candles required = .ok steps ∧
      buildCandleReplaySteps { request with candles := some candles' } candles' required = .ok steps' ∧
      List.Forall₂ (SameInput n request.symbol) steps steps' := by
  unfold buildCandleReplaySteps
  dsimp only
  rw [← hlength]
  split_ifs with hfew hearly horder hend
  · exact .inl ⟨_, rfl, rfl⟩
  · exact .inl ⟨_, rfl, rfl⟩
  · exact .inl ⟨_, rfl, rfl⟩
  · exact .inl ⟨_, rfl, rfl⟩
  · refine .inr ⟨_, _, rfl, rfl, ?_⟩
    rw [List.forall₂_map_left_iff, List.forall₂_map_right_iff, List.forall₂_same]
    intro step hmem
    obtain ⟨i, -, rfl⟩ := List.mem_map.mp hmem
    exact ⟨rfl, by dsimp only; omega, rfl, fun hlt => candleWindow_same hagree hlt⟩

theorem replayInputs_same {candles candles' : List (MarketCandle Rat)} {n : Nat}
    (hlength : candles.length = candles'.length) (hagree : candles.take n = candles'.take n) :
    (∃ e, replayInputs (service.services random required strategy)
        { request with candles := some candles } = .error e ∧
      replayInputs (service.services random required strategy)
        { request with candles := some candles' } = .error e) ∨
    ∃ (normalized : HistoricalReplayRequest) (steps steps' : List (Int × MarketSnapshot Rat)),
      replayInputs (service.services random required strategy)
        { request with candles := some candles } =
          .ok ({ normalized with candles := some candles }, steps) ∧
      replayInputs (service.services random required strategy)
        { request with candles := some candles' } =
          .ok ({ normalized with candles := some candles' }, steps') ∧
      List.Forall₂ (SameInput n normalized.symbol) steps steps' := by
  unfold replayInputs HistoricalReplayRequest.normalize
  simp only [Option.isNone_some]
  split_ifs with hsymbol hinterval hboth hstart hend
  · exact .inl ⟨_, rfl, rfl⟩
  · exact .inl ⟨_, rfl, rfl⟩
  · exact .inl ⟨_, rfl, rfl⟩
  · exact .inl ⟨_, rfl, rfl⟩
  · exact .inl ⟨_, rfl, rfl⟩
  · cases hsnapshots : request.snapshots with
    | some snapshots =>
      rw [hsnapshots] at hboth
      exact absurd rfl hboth
    | none =>
      dsimp only [buildReplaySteps, SimulationExecutionService.services]
      obtain ⟨e, herror, herror'⟩ | ⟨steps, steps', hsteps, hsteps', hinputs⟩ :=
        @buildCandleReplaySteps_same required
          { request with
            symbol := symbolKey request.symbol
            interval := String.ofList (strip request.interval.toList)
            candles := some candles
            snapshots := none } candles candles' n hlength hagree
      · rw [herror, herror']
        exact .inl ⟨e, rfl, rfl⟩
      · rw [hsteps, hsteps']
        exact .inr ⟨_, steps, steps', rfl, rfl, hinputs⟩

end

/-- Replays over candles of one length that agree on the first `m` have the same signals, the same
decisions and the same entries before step `m - 1`, and the same executions as far as these are
closed before step `m`. -/
theorem no_lookahead (runner : HistoricalReplayRunner) (service : SimulationExecutionService)
    (random : ρ → Rat × ρ) (seed : ρ) (required : Nat)
    (strategy : MarketSnapshot Rat → Except PyError (Option (StrategySignal Rat)))
    (request : HistoricalReplayRequest) (candles candles' : List (MarketCandle Rat)) (m : Nat)
    (hhold : 1 ≤ service.maxHoldCandles)
    (hstrategy : ∀ snapshot signal, strategy snapshot = .ok (some signal) →
      signal.symbol = snapshot.symbol)
    (hlength : candles.length = candles'.length) (hagree : candles.take m = candles'.take m) :
    List.Forall₂ (SameStep m)
      ((replay runner (service.services random required strategy)
        { request with candles := some candles } seed).before (m - 1))
      ((replay runner (service.services random required strategy)
        { request with candles := some candles' } seed).before (m - 1)) := by
  have hfuture : ∀ normalized : HistoricalReplayRequest, ∀ step : Int, -1 ≤ step → step + 1 < m →
      SameFuture m step { normalized with candles := some candles }
        { normalized with candles := some candles' } := by
    intro normalized step hstart hstep
    have htake : ((m : Int) - 2 - step).toNat + 1 + (step + 1).toNat = m := by omega
    refine ⟨?_, ?_⟩
    · simp only [futureCandlesForStep, List.length_drop, hlength]
    · simp only [futureCandlesForStep]
      rw [List.take_drop, List.take_drop, Nat.add_comm, htake, hagree]
  obtain ⟨e, herror, herror'⟩ | ⟨normalized, steps, steps', hsteps, hsteps', hinputs⟩ :=
    @replayInputs_same ρ service random required strategy request candles candles' m hlength hagree
  · unfold replay
    rw [herror, herror']
    exact .nil
  · unfold replay
    rw [hsteps, hsteps']
    obtain ⟨start, hconsecutive⟩ := replayInputs_consecutive hsteps
    have hinit : ReplayLoop.Twins m start normalized.symbol
        ({ services := seed } : ReplayLoop SimulationExecutionResult ρ) { services := seed } :=
      ⟨.refl _, fun _ _ _ => rfl, rfl, .nil, .inl rfl⟩
    have hsound : ReplayLoop.SoundBefore runner start
        ({ services := seed } : ReplayLoop SimulationExecutionResult ρ) :=
      ⟨start, .init seed none start, fun _ => rfl⟩
    exact run_twins hhold hstrategy (hfuture normalized) hconsecutive hinputs hinit hsound

end

/-- The simulation with its defaults, in derivatives mode. -/
def demoSimulation : SimulationExecutionService where
  decimals := pythonContext
  maxHoldCandles := 20
  riskAmount := 100
  marketMode := .derivatives
  virtualEquity := 10000
  defaultMinNotional := 5
  minNotionalBySymbol := defaultSpotMinNotionals
  makerFeeRate := 1 / 1000
  takerFeeRate := 25 / 10000
  makerFillProbability := 7 / 10
  spreadBps := 2
  slippageBps := 1
  oneBarExecutionDelay := true

def buyAlways (snapshot : MarketSnapshot Rat) : Except PyError (Option (StrategySignal Rat)) :=
  .ok (some { symbol := snapshot.symbol, direction := "long", entry := 100, stop := 99,
              target := 103 })

def hourCandle (hour : Int) (low high : Rat) : MarketCandle Rat :=
  ⟨hour * 3600000000, 100, high, low, 100, 1⟩

def risingHours : List (MarketCandle Rat) :=
  [hourCandle 0 99.5 101, hourCandle 1 99.5 101, hourCandle 2 99.5 101, hourCandle 3 99.5 104]

def fallingHours : List (MarketCandle Rat) :=
  [hourCandle 0 99.5 101, hourCandle 1 99.5 101, hourCandle 2 99.5 101, hourCandle 3 97 101]

theorem no_lookahead_fourHours : List.Forall₂ (SameStep (3 : Nat))
    ((replay {} (demoSimulation.services (fun rng : Nat => (1 / 2, rng + 1)) 1 buyAlways)
      { symbol := "BTCUSDT", interval := "60", candles := some risingHours } 0).before
        ((3 : Nat) - 1))
    ((replay {} (demoSimulation.services (fun rng : Nat => (1 / 2, rng + 1)) 1 buyAlways)
      { symbol := "BTCUSDT", interval := "60", candles := some fallingHours } 0).before
        ((3 : Nat) - 1)) := by
  refine no_lookahead {} demoSimulation _ 0 1 buyAlways { symbol := "BTCUSDT", interval := "60" }
    risingHours fallingHours 3 (by decide) (fun snapshot signal hsignal => ?_) rfl rfl
  obtain rfl := Option.some.inj (Except.ok.inj hsignal)
  rfl

end AmaExecutionCore
