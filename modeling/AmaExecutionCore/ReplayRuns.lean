import AmaExecutionCore.ReplayRunner

/-! What one step of a replay can do: the closures it records, and the entry it makes. -/
namespace AmaExecutionCore

def HistoricalReplayStep.date {ε : Type} (result : HistoricalReplayStep ε) : Option Date :=
  result.snapshot.candles.getLast?.map MarketCandle.date

/-- The trade a step executed, as the closure that ends it. -/
def HistoricalReplayStep.trade {ε : Type} [ExecutionMetrics ε] (result : HistoricalReplayStep ε) :
    Option ReplayScheduledClosure :=
  match result.signal, result.execution, result.date with
  | some signal, some execution, some date =>
    if executionWasExecuted execution then
      match readTracking result.stepIndex execution with
      | .error _ => none
      | .ok tracking => some
        ⟨signal.symbol, result.stepIndex, tracking.closeStep, date, tracking.netTradePnl⟩
    else none
  | _, _, _ => none

def HistoricalReplayStep.executed {ε : Type} [ExecutionMetrics ε] (result : HistoricalReplayStep ε) :
    Bool :=
  result.execution.any executionWasExecuted

theorem HistoricalReplayStep.trade_of_idle {ε : Type} [ExecutionMetrics ε]
    {result : HistoricalReplayStep ε} (h : result.executed = false) : result.trade = none := by
  unfold HistoricalReplayStep.trade
  split
  · rename_i execution _ _ hexecution _
    have hnot : executionWasExecuted execution = false := by
      simpa [HistoricalReplayStep.executed, hexecution] using h
    rw [hnot, if_neg (by simp)]
  · rfl

def ReplayLoop.trades {ε σ : Type} [ExecutionMetrics ε] (loop : ReplayLoop ε σ) :
    List ReplayScheduledClosure :=
  loop.results.filterMap HistoricalReplayStep.trade

section
variable {ε σ : Type}

namespace ReplayLoop

/-- The closures recorded at the start of a step. -/
def closeAll (runner : HistoricalReplayRunner) (step : Int) (cs : List ReplayScheduledClosure)
    (loop : ReplayLoop ε σ) : ReplayLoop ε σ :=
  cs.foldl (fun loop closure => loop.record runner step closure) loop

variable {runner : HistoricalReplayRunner} {step : Int} {loop : ReplayLoop ε σ}

@[simp] theorem record_results (c : ReplayScheduledClosure) :
    (loop.record runner step c).results = loop.results := rfl

@[simp] theorem record_scheduled (c : ReplayScheduledClosure) :
    (loop.record runner step c).scheduledClosures = loop.scheduledClosures := rfl

@[simp] theorem record_recorded (c : ReplayScheduledClosure) :
    (loop.record runner step c).recorded = loop.recorded ++ [(step, c)] := rfl

@[simp] theorem record_portfolio (c : ReplayScheduledClosure) :
    (loop.record runner step c).portfolio = loop.portfolio.recordClosedTrade runner c := rfl

theorem closeAll_results (cs : List ReplayScheduledClosure) :
    (loop.closeAll runner step cs).results = loop.results := by
  induction cs generalizing loop with
  | nil => rfl
  | cons c cs ih => exact ih

theorem closeAll_services (cs : List ReplayScheduledClosure) :
    (loop.closeAll runner step cs).services = loop.services := by
  induction cs generalizing loop with
  | nil => rfl
  | cons c cs ih => exact ih

theorem closeAll_scheduled (cs : List ReplayScheduledClosure) :
    (loop.closeAll runner step cs).scheduledClosures = loop.scheduledClosures := by
  induction cs generalizing loop with
  | nil => rfl
  | cons c cs ih => exact ih

theorem closeAll_recorded (cs : List ReplayScheduledClosure) :
    (loop.closeAll runner step cs).recorded = loop.recorded ++ cs.map fun c => (step, c) := by
  induction cs generalizing loop with
  | nil => simp [closeAll]
  | cons c cs ih =>
    have h := @ih (loop.record runner step c)
    simpa [closeAll] using h

end ReplayLoop

namespace ReplayPortfolioState

variable {runner : HistoricalReplayRunner} {state : ReplayPortfolioState}

@[simp] theorem recordClosedTrade_open (c : ReplayScheduledClosure) :
    (state.recordClosedTrade runner c).openPositions =
      state.openPositions.filter fun p => p.symbol ≠ c.symbol := by
  unfold recordClosedTrade
  dsimp only
  split
  · rfl
  · split_ifs <;> rfl

@[simp] theorem recordClosedTrade_cooldown (c : ReplayScheduledClosure) :
    (state.recordClosedTrade runner c).cooldownUntil =
      Function.update state.cooldownUntil c.symbol (some (c.closeStep + runner.cooldownCandles)) := by
  unfold recordClosedTrade
  dsimp only
  split
  · rfl
  · split_ifs <;> rfl

@[simp] theorem recordClosedTrade_daily (c : ReplayScheduledClosure) :
    (state.recordClosedTrade runner c).dailyTrades =
      Function.update state.dailyTrades c.entryDate (state.dailyTrades c.entryDate + 1) := by
  unfold recordClosedTrade
  dsimp only
  split
  · rfl
  · split_ifs <;> rfl

@[simp] theorem recordClosedTrade_date (c : ReplayScheduledClosure) :
    (state.recordClosedTrade runner c).currentDate = state.currentDate := by
  unfold recordClosedTrade
  dsimp only
  split
  · rfl
  · split_ifs <;> rfl

end ReplayPortfolioState

namespace ReplayLoop

variable {runner : HistoricalReplayRunner} {step : Int} {loop : ReplayLoop ε σ}

theorem closeAll_open (cs : List ReplayScheduledClosure) :
    (loop.closeAll runner step cs).portfolio.openPositions =
      loop.portfolio.openPositions.filter fun p => p.symbol ∉ cs.map (·.symbol) := by
  induction cs generalizing loop with
  | nil => simp [closeAll]
  | cons c cs ih =>
    have h := @ih (loop.record runner step c)
    rw [record_portfolio, ReplayPortfolioState.recordClosedTrade_open, List.filter_filter] at h
    refine h.trans (List.filter_congr fun p _ => ?_)
    by_cases hsym : p.symbol = c.symbol <;> simp [hsym]

theorem closeAll_cooldown (cs : List ReplayScheduledClosure)
    (hcs : ∀ c ∈ cs, c.closeStep = step) (symbol : String) :
    (loop.closeAll runner step cs).portfolio.cooldownUntil symbol =
      if symbol ∈ cs.map (·.symbol) then some (step + runner.cooldownCandles)
      else loop.portfolio.cooldownUntil symbol := by
  induction cs generalizing loop with
  | nil => rfl
  | cons c cs ih =>
    have h := @ih (loop.record runner step c) fun c' hc' => hcs c' (List.mem_cons_of_mem _ hc')
    refine h.trans ?_
    rw [record_portfolio, ReplayPortfolioState.recordClosedTrade_cooldown,
      hcs c List.mem_cons_self]
    by_cases hin : symbol ∈ cs.map (·.symbol)
    · simp [hin]
    · by_cases hsym : symbol = c.symbol
      · subst hsym
        simp
      · simp [hin, hsym]

theorem closeAll_daily (cs : List ReplayScheduledClosure) (date : Date) :
    (loop.closeAll runner step cs).portfolio.dailyTrades date =
      loop.portfolio.dailyTrades date + cs.countP (·.entryDate = date) := by
  induction cs generalizing loop with
  | nil => simp [closeAll]
  | cons c cs ih =>
    have h := @ih (loop.record runner step c)
    refine h.trans ?_
    rw [record_portfolio, ReplayPortfolioState.recordClosedTrade_daily, List.countP_cons]
    by_cases hdate : date = c.entryDate
    · subst hdate
      simp
      omega
    · simp [Function.update_of_ne hdate, Ne.symm hdate]

theorem closeAll_date (cs : List ReplayScheduledClosure) :
    (loop.closeAll runner step cs).portfolio.currentDate = loop.portfolio.currentDate := by
  induction cs generalizing loop with
  | nil => rfl
  | cons c cs ih =>
    have h := @ih (loop.record runner step c)
    exact h.trans (by simp)

end ReplayLoop

namespace ReplayLoop

variable {runner : HistoricalReplayRunner} {step : Int} {loop : ReplayLoop ε σ} {date : Date}

theorem opened_eq : loop.opened runner step date = closeAll runner step (loop.scheduledClosures step)
    { loop with
      portfolio := loop.portfolio.resetDailyCircuitBreaker date
      scheduledClosures := Function.update loop.scheduledClosures step [] } := rfl

theorem reset_open (state : ReplayPortfolioState) :
    (state.resetDailyCircuitBreaker date).openPositions = state.openPositions := by
  unfold ReplayPortfolioState.resetDailyCircuitBreaker
  split_ifs <;> rfl

theorem reset_cooldown (state : ReplayPortfolioState) :
    (state.resetDailyCircuitBreaker date).cooldownUntil = state.cooldownUntil := by
  unfold ReplayPortfolioState.resetDailyCircuitBreaker
  split_ifs <;> rfl

theorem reset_daily (state : ReplayPortfolioState) :
    (state.resetDailyCircuitBreaker date).dailyTrades = state.dailyTrades := by
  unfold ReplayPortfolioState.resetDailyCircuitBreaker
  split_ifs <;> rfl

theorem reset_date (state : ReplayPortfolioState) :
    (state.resetDailyCircuitBreaker date).currentDate = some date := by
  unfold ReplayPortfolioState.resetDailyCircuitBreaker
  split_ifs with h
  · exact h
  · rfl

@[simp] theorem opened_results : (loop.opened runner step date).results = loop.results := by
  rw [opened_eq, closeAll_results]

theorem opened_services : (loop.opened runner step date).services = loop.services := by
  rw [opened_eq, closeAll_services]

theorem opened_scheduled : (loop.opened runner step date).scheduledClosures =
    Function.update loop.scheduledClosures step [] := by
  rw [opened_eq, closeAll_scheduled]

theorem opened_recorded : (loop.opened runner step date).recorded =
    loop.recorded ++ (loop.scheduledClosures step).map fun c => (step, c) := by
  rw [opened_eq, closeAll_recorded]

theorem opened_open : (loop.opened runner step date).portfolio.openPositions =
    loop.portfolio.openPositions.filter fun p =>
      p.symbol ∉ (loop.scheduledClosures step).map (·.symbol) := by
  rw [opened_eq, closeAll_open, reset_open]

theorem opened_cooldown (h : ∀ c ∈ loop.scheduledClosures step, c.closeStep = step)
    (symbol : String) : (loop.opened runner step date).portfolio.cooldownUntil symbol =
      if symbol ∈ (loop.scheduledClosures step).map (·.symbol) then
        some (step + runner.cooldownCandles)
      else loop.portfolio.cooldownUntil symbol := by
  rw [opened_eq, closeAll_cooldown _ h, reset_cooldown]

theorem opened_daily (d : Date) : (loop.opened runner step date).portfolio.dailyTrades d =
    loop.portfolio.dailyTrades d + (loop.scheduledClosures step).countP (·.entryDate = d) := by
  rw [opened_eq, closeAll_daily, reset_daily]

theorem opened_date : (loop.opened runner step date).portfolio.currentDate = some date := by
  rw [opened_eq, closeAll_date, reset_date]

def closureOf (signal : StrategySignal Rat) (step : Int) (date : Date) (tracking : Tracking) :
    ReplayScheduledClosure :=
  ⟨signal.symbol, step, tracking.closeStep, date, tracking.netTradePnl⟩

variable {signal : StrategySignal Rat} {tracking : Tracking}

@[simp] theorem closureOf_symbol :
    (closureOf signal step date tracking).symbol = signal.symbol := rfl

@[simp] theorem closureOf_openedAtStep :
    (closureOf signal step date tracking).openedAtStep = step := rfl

@[simp] theorem closureOf_closeStep :
    (closureOf signal step date tracking).closeStep = tracking.closeStep := rfl

@[simp] theorem closureOf_entryDate :
    (closureOf signal step date tracking).entryDate = date := rfl

@[simp] theorem closureOf_netTradePnl :
    (closureOf signal step date tracking).netTradePnl = tracking.netTradePnl := rfl

def positionOf (signal : StrategySignal Rat) (step : Int) (tracking : Tracking) :
    ReplayOpenPosition where
  symbol := signal.symbol
  direction := signal.direction
  entryPrice := (pyOr tracking.entryPrice (some signal.entry)).getD 0
  stopPrice := signal.stop
  targetPrice := signal.target
  openedAtStep := step
  plannedCloseStep := tracking.closeStep

theorem track_now (h : tracking.closeStep ≤ step) :
    loop.track runner signal step date tracking = record runner step
      (closureOf signal step date tracking)
      { loop with portfolio := loop.portfolio.openPosition (positionOf signal step tracking) } := by
  unfold track
  rw [if_pos h]
  rfl

theorem track_later (h : ¬ tracking.closeStep ≤ step) :
    loop.track runner signal step date tracking = { loop with
      portfolio := loop.portfolio.openPosition (positionOf signal step tracking)
      scheduledClosures := Function.update loop.scheduledClosures tracking.closeStep
        (loop.scheduledClosures tracking.closeStep ++ [closureOf signal step date tracking]) } := by
  unfold track
  rw [if_neg h]
  rfl

theorem track_results : (loop.track runner signal step date tracking).results = loop.results := by
  by_cases h : tracking.closeStep ≤ step
  · rw [track_now h]
    rfl
  · rw [track_later h]

theorem track_raised : (loop.track runner signal step date tracking).raised = loop.raised := by
  by_cases h : tracking.closeStep ≤ step
  · rw [track_now h]
    rfl
  · rw [track_later h]

theorem track_services :
    (loop.track runner signal step date tracking).services = loop.services := by
  by_cases h : tracking.closeStep ≤ step
  · rw [track_now h]
    rfl
  · rw [track_later h]

theorem track_scheduled {k : Int} (hk : step < k) :
    (loop.track runner signal step date tracking).scheduledClosures k =
      loop.scheduledClosures k ++
        if tracking.closeStep = k then [closureOf signal step date tracking] else [] := by
  by_cases h : tracking.closeStep ≤ step
  · rw [track_now h, record_scheduled, if_neg (by omega), List.append_nil]
  · rw [track_later h]
    by_cases hclose : tracking.closeStep = k
    · subst hclose
      simp
    · simp [Function.update_of_ne (Ne.symm hclose), hclose]

theorem track_recorded : (loop.track runner signal step date tracking).recorded =
    loop.recorded ++
      if tracking.closeStep ≤ step then [(step, closureOf signal step date tracking)] else [] := by
  by_cases h : tracking.closeStep ≤ step
  · rw [track_now h, record_recorded, if_pos h]
  · rw [track_later h, if_neg h, List.append_nil]

theorem track_open (hopen : ∀ p ∈ loop.portfolio.openPositions, p.symbol ≠ signal.symbol) :
    (loop.track runner signal step date tracking).portfolio.openPositions =
      loop.portfolio.openPositions ++
        if tracking.closeStep ≤ step then [] else [positionOf signal step tracking] := by
  have hnew : (loop.portfolio.openPosition (positionOf signal step tracking)).openPositions =
      loop.portfolio.openPositions ++ [positionOf signal step tracking] := by
    have hany : ¬ (loop.portfolio.openPositions.any fun p =>
        p.symbol = (positionOf signal step tracking).symbol) := by
      rw [List.any_eq_true]
      intro ⟨p, hp, heq⟩
      exact hopen p hp (of_decide_eq_true heq)
    unfold ReplayPortfolioState.openPosition
    rw [if_neg hany]
  by_cases h : tracking.closeStep ≤ step
  · rw [track_now h, record_portfolio, ReplayPortfolioState.recordClosedTrade_open, hnew,
      List.filter_append, if_pos h]
    have hkeep : (loop.portfolio.openPositions.filter fun p =>
        p.symbol ≠ (closureOf signal step date tracking).symbol) =
        loop.portfolio.openPositions := by
      rw [List.filter_eq_self]
      intro p hp
      exact decide_eq_true (hopen p hp)
    rw [hkeep, List.filter_cons_of_neg (by simp [closureOf, positionOf]), List.filter_nil]
  · rw [track_later h, if_neg h]
    exact hnew

theorem track_date : (loop.track runner signal step date tracking).portfolio.currentDate =
    loop.portfolio.currentDate := by
  by_cases h : tracking.closeStep ≤ step
  · rw [track_now h, record_portfolio, ReplayPortfolioState.recordClosedTrade_date]
    rfl
  · rw [track_later h]
    rfl

theorem track_daily (d : Date) : (loop.track runner signal step date tracking).portfolio.dailyTrades d =
    loop.portfolio.dailyTrades d + if tracking.closeStep ≤ step ∧ date = d then 1 else 0 := by
  by_cases h : tracking.closeStep ≤ step
  · rw [track_now h, record_portfolio, ReplayPortfolioState.recordClosedTrade_daily]
    by_cases hdate : d = date
    · subst hdate
      simp [h, ReplayPortfolioState.openPosition]
    · simp [Ne.symm hdate, hdate, ReplayPortfolioState.openPosition]
  · rw [track_later h]
    simp [h, ReplayPortfolioState.openPosition]

theorem track_cooldown (symbol : String) :
    (loop.track runner signal step date tracking).portfolio.cooldownUntil symbol =
      if tracking.closeStep ≤ step ∧ symbol = signal.symbol then
        some (tracking.closeStep + runner.cooldownCandles)
      else loop.portfolio.cooldownUntil symbol := by
  by_cases h : tracking.closeStep ≤ step
  · rw [track_now h, record_portfolio, ReplayPortfolioState.recordClosedTrade_cooldown]
    by_cases hsym : symbol = signal.symbol
    · subst hsym
      simp [closureOf, h]
    · simp [closureOf, hsym, ReplayPortfolioState.openPosition]
  · rw [track_later h]
    simp [h, ReplayPortfolioState.openPosition]

end ReplayLoop

/-- A step that asks the services enters a trade: the signal is allowed, and it is executed. -/
structure Entry [ExecutionMetrics ε] (runner : HistoricalReplayRunner)
    (services : ReplayServices ε σ) (request : HistoricalReplayRequest) (loop : ReplayLoop ε σ)
    (input : Int × MarketSnapshot Rat) (candle : MarketCandle Rat) (signal : StrategySignal Rat)
    (execution : ε) (tracking : Tracking) (s : σ) : Prop where
  active : loop.raised = none
  latest : input.2.candles.getLast? = some candle
  allowed : (loop.opened runner input.1 candle.date).portfolio.canExecuteSignal runner signal.symbol
    input.1 candle.date = true
  answered : ∃ executeSignalRequest s', services.generateSignal input.2 loop.services =
      (.ok (some signal), s') ∧ toExecuteSignalRequest signal = .ok executeSignalRequest ∧
    callExecution services request executeSignalRequest input.1 s' = (.ok execution, s)
  executed : executionWasExecuted execution = true
  tracked : readTracking input.1 execution = .ok tracking

/-- What a step can do: nothing because of an exception, a result without a trade, or a result
with one. -/
inductive Stepped [ExecutionMetrics ε] (runner : HistoricalReplayRunner)
    (services : ReplayServices ε σ) (request : HistoricalReplayRequest) (loop : ReplayLoop ε σ)
    (input : Int × MarketSnapshot Rat) : ReplayLoop ε σ → Prop
  | ended {s r} (hraised : r.isSome) :
      Stepped runner services request loop input { loop with services := s, raised := r }
  | idle {candle signal execution s} (hraised : loop.raised = none)
      (hcandle : input.2.candles.getLast? = some candle)
      (hidle : HistoricalReplayStep.executed
        (⟨input.1, input.2, signal, execution⟩ : HistoricalReplayStep ε) = false) :
      Stepped runner services request loop input
        { (loop.opened runner input.1 candle.date).append
            ⟨input.1, input.2, signal, execution⟩ with services := s }
  | entered {candle signal execution tracking s}
      (hentry : Entry runner services request loop input candle signal execution tracking s) :
      Stepped runner services request loop input
        { ((loop.opened runner input.1 candle.date).track runner signal input.1 candle.date
            tracking).append ⟨input.1, input.2, some signal, some execution⟩ with services := s }

theorem Entry.trade [ExecutionMetrics ε] {runner : HistoricalReplayRunner}
    {services : ReplayServices ε σ} {request : HistoricalReplayRequest} {loop : ReplayLoop ε σ}
    {input : Int × MarketSnapshot Rat} {candle : MarketCandle Rat} {signal : StrategySignal Rat}
    {execution : ε} {tracking : Tracking} {s : σ}
    (h : Entry runner services request loop input candle signal execution tracking s) :
    HistoricalReplayStep.trade
      (⟨input.1, input.2, some signal, some execution⟩ : HistoricalReplayStep ε) =
        some (ReplayLoop.closureOf signal input.1 candle.date tracking) := by
  simp [HistoricalReplayStep.trade, HistoricalReplayStep.date, h.latest, h.executed, h.tracked,
    ReplayLoop.closureOf]

section
variable [ExecutionMetrics ε] {runner : HistoricalReplayRunner} {services : ReplayServices ε σ}
  {request : HistoricalReplayRequest} {loop : ReplayLoop ε σ} {input : Int × MarketSnapshot Rat}
  {candle : MarketCandle Rat} {signal : StrategySignal Rat} {execution : ε} {tracking : Tracking}
  {s : σ}

theorem Entry.date (h : Entry runner services request loop input candle signal execution tracking s) :
    HistoricalReplayStep.date
      (⟨input.1, input.2, some signal, some execution⟩ : HistoricalReplayStep ε) =
        some candle.date := by
  simp [HistoricalReplayStep.date, h.latest]

theorem Entry.done (h : Entry runner services request loop input candle signal execution tracking s) :
    HistoricalReplayStep.executed
      (⟨input.1, input.2, some signal, some execution⟩ : HistoricalReplayStep ε) = true := by
  simp [HistoricalReplayStep.executed, h.executed]

end

theorem Entry.step_eq [ExecutionMetrics ε] {runner : HistoricalReplayRunner}
    {services : ReplayServices ε σ} {request : HistoricalReplayRequest} {loop : ReplayLoop ε σ}
    {input : Int × MarketSnapshot Rat} {candle : MarketCandle Rat} {signal : StrategySignal Rat}
    {execution : ε} {tracking : Tracking} {s : σ}
    (h : Entry runner services request loop input candle signal execution tracking s) :
    replayStep runner services request loop input =
      { ((loop.opened runner input.1 candle.date).track runner signal input.1 candle.date
          tracking).append ⟨input.1, input.2, some signal, some execution⟩ with services := s } := by
  obtain ⟨executeSignalRequest, s', hsignal, hrequest, hexecution⟩ := h.answered
  simp [replayStep, replayStepOutcome, executeStep, h.active, h.latest, h.allowed,
    ReplayLoop.opened_services,
    hsignal, hrequest, hexecution, h.executed, h.tracked]

theorem replayStep_stepped [ExecutionMetrics ε] (runner : HistoricalReplayRunner)
    (services : ReplayServices ε σ) (request : HistoricalReplayRequest) (loop : ReplayLoop ε σ)
    (input : Int × MarketSnapshot Rat) :
    Stepped runner services request loop input (replayStep runner services request loop input) := by
  unfold replayStep
  split_ifs with hsome
  · exact .ended hsome
  · have hraised : loop.raised = none := by simpa using hsome
    unfold replayStepOutcome
    cases hcandle : input.2.candles.getLast? with
    | none => exact .ended rfl
    | some candle =>
      dsimp only
      match hsignal : services.generateSignal input.2
          (loop.opened runner input.1 candle.date).services with
      | (.error e, s) => exact .ended rfl
      | (.ok none, s) => exact .idle hraised hcandle rfl
      | (.ok (some signal), s) =>
        dsimp only
        split_ifs with hcan
        · unfold executeStep
          cases hreq : toExecuteSignalRequest signal with
          | error e => exact .ended rfl
          | ok executeSignalRequest =>
            dsimp only
            match hexec : callExecution services request executeSignalRequest input.1 s with
            | (.error e, s') => exact .ended rfl
            | (.ok execution, s') =>
              dsimp only
              split_ifs with hdone
              · cases hread : readTracking input.1 execution with
                | error e => exact .ended rfl
                | ok tracking =>
                  rw [ReplayLoop.opened_services] at hsignal
                  exact .entered ⟨hraised, hcandle, hcan, ⟨_, s, hsignal, hreq, hexec⟩, hdone, hread⟩
              · refine .idle hraised hcandle ?_
                simpa [HistoricalReplayStep.executed] using hdone
        · exact .idle hraised hcandle rfl

end

end AmaExecutionCore
