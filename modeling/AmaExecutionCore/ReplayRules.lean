import AmaExecutionCore.ReplayBreaker

/-! The portfolio rules of a replay: the open positions, the trades of a symbol, the closures and
the pause after losses. -/
namespace AmaExecutionCore

/-- The steps follow each other without a hole. -/
def Consecutive {α : Type} : Int → List (Int × α) → Prop
  | _, [] => True
  | step, input :: rest => input.1 = step ∧ Consecutive (step + 1) rest

theorem Consecutive.of_fst {α : Type} {start : Int} {n : Nat} {inputs : List (Int × α)}
    (h : inputs.map Prod.fst = (List.range n).map fun i : Nat => start + i) :
    Consecutive start inputs := by
  induction inputs generalizing start n with
  | nil => trivial
  | cons input rest ih =>
    cases n with
    | zero => simp at h
    | succ n =>
      rw [List.map_cons, List.range_succ_eq_map, List.map_cons, List.map_map] at h
      obtain ⟨hfst, hrest⟩ := List.cons.inj h
      refine ⟨by simpa using hfst, ih (hrest.trans (List.map_congr_left fun i _ => ?_))⟩
      simp only [Function.comp_apply, Nat.succ_eq_add_one]
      push_cast
      omega

theorem Consecutive.of_stepRange {α : Type} {startStep endStep : Int} {inputs : List (Int × α)}
    (h : inputs.map Prod.fst = stepRange startStep endStep) : Consecutive startStep inputs :=
  .of_fst h

theorem buildSnapshotReplaySteps_consecutive {request : HistoricalReplayRequest}
    {snapshots : List (MarketSnapshot Rat)} {steps : List (Int × MarketSnapshot Rat)}
    (hstart : ∀ s ∈ request.startStep, 0 ≤ s)
    (h : buildSnapshotReplaySteps request snapshots = .ok steps) :
    ∃ start, Consecutive start steps := by
  unfold buildSnapshotReplaySteps at h
  dsimp only at h
  split_ifs at h with horder hend
  obtain rfl := Except.ok.inj h
  have hnonneg : 0 ≤ request.startStep.getD 0 := by
    cases hs : request.startStep with
    | none => simp
    | some s => exact hstart s hs
  refine ⟨request.startStep.getD 0,
    @Consecutive.of_stepRange _ _ (request.endStep.getD snapshots.length) _ ?_⟩
  rw [List.map_filterMap]
  refine (List.filterMap_congr (g := some) fun step hstep => ?_).trans List.filterMap_some
  obtain ⟨i, hi, rfl⟩ := List.mem_map.mp hstep
  have hlt := List.mem_range.mp hi
  have hin : (request.startStep.getD 0 + i).toNat < snapshots.length := by omega
  simp [List.getElem?_eq_getElem hin]

theorem buildCandleReplaySteps_consecutive {request : HistoricalReplayRequest}
    {candles : List (MarketCandle Rat)} {required : Nat} {steps : List (Int × MarketSnapshot Rat)}
    (h : buildCandleReplaySteps request candles required = .ok steps) :
    ∃ start, Consecutive start steps := by
  unfold buildCandleReplaySteps at h
  dsimp only at h
  split_ifs at h
  obtain rfl := Except.ok.inj h
  refine ⟨request.startStep.getD (required - 1),
    @Consecutive.of_stepRange _ _ (request.endStep.getD candles.length) _ ?_⟩
  rw [List.map_map]
  exact List.map_id _

theorem replayInputs_consecutive {ε σ : Type} {services : ReplayServices ε σ}
    {request normalized : HistoricalReplayRequest} {steps : List (Int × MarketSnapshot Rat)}
    (h : replayInputs services request = .ok (normalized, steps)) :
    ∃ start, Consecutive start steps := by
  unfold replayInputs at h
  cases hnorm : request.normalize with
  | error e => simp [hnorm] at h
  | ok normal =>
    rw [hnorm] at h
    dsimp only at h
    have hstart : ∀ s ∈ normal.startStep, 0 ≤ s := by
      unfold HistoricalReplayRequest.normalize at hnorm
      dsimp only at hnorm
      split_ifs at hnorm with _ _ _ hneg
      obtain rfl := Except.ok.inj hnorm
      intro s hs
      dsimp only at hs
      rw [Option.mem_def.mp hs] at hneg
      simpa using hneg
    cases hsteps : buildReplaySteps normal services.requiredCandleCount with
    | error e => simp [hsteps] at h
    | ok built =>
      rw [hsteps] at h
      obtain ⟨-, rfl⟩ := Prod.mk.inj (Except.ok.inj h)
      unfold buildReplaySteps at hsteps
      split at hsteps
      · exact buildSnapshotReplaySteps_consecutive hstart hsteps
      · exact buildCandleReplaySteps_consecutive hsteps
      · cases hsteps

section
variable {ε σ : Type} [ExecutionMetrics ε] {runner : HistoricalReplayRunner}
  {services : ReplayServices ε σ} {request : HistoricalReplayRequest}

/-- The books and the circuit breaker of a replay before step `now`. -/
structure ReplayLoop.Sound (runner : HistoricalReplayRunner) (now : Int)
    (loop : ReplayLoop ε σ) : Prop where
  books : loop.Books runner now now
  breaker : loop.Breaker runner now

theorem ReplayLoop.Sound.waiting {now : Int} {loop : ReplayLoop ε σ} (h : loop.Sound runner now) :
    ∀ c ∈ loop.scheduledClosures now, c.openedAtStep < now := by
  intro c hc
  rw [h.books.waiting now (le_refl _)] at hc
  exact h.books.past c (List.mem_filter.mp hc).1

theorem ReplayLoop.Sound.init (s : σ) (r : Option PyError) (now : Int) :
    ({ services := s, raised := r } : ReplayLoop ε σ).Sound runner now where
  books := (ReplayLoop.Books.init s).ended s r
  breaker := (ReplayLoop.Breaker.init s).ended s r

theorem ReplayLoop.Sound.ended {now : Int} {loop : ReplayLoop ε σ} (h : loop.Sound runner now)
    (s : σ) (r : Option PyError) :
    ({ loop with services := s, raised := r } : ReplayLoop ε σ).Sound runner now where
  books := h.books.ended s r
  breaker := h.breaker.ended s r

theorem ReplayLoop.Sound.idle {step : Int} {loop : ReplayLoop ε σ} (h : loop.Sound runner step)
    {snapshot : MarketSnapshot Rat} {candle : MarketCandle Rat}
    (hcandle : snapshot.candles.getLast? = some candle) {signal : Option (StrategySignal Rat)}
    {execution : Option ε} (hidle : HistoricalReplayStep.executed
      (⟨step, snapshot, signal, execution⟩ : HistoricalReplayStep ε) = false) :
    ((loop.opened runner step candle.date).append
      ⟨step, snapshot, signal, execution⟩).Sound runner (step + 1) where
  books := h.books.opened.idle (HistoricalReplayStep.trade_of_idle hidle)
  breaker := h.breaker.idle h.waiting rfl (by simp [HistoricalReplayStep.date, hcandle])
    (HistoricalReplayStep.trade_of_idle hidle)

theorem ReplayLoop.Sound.entered {input : Int × MarketSnapshot Rat} {loop : ReplayLoop ε σ}
    (h : loop.Sound runner input.1) {candle : MarketCandle Rat} {signal : StrategySignal Rat}
    {execution : ε} {tracking : Tracking} {s : σ}
    (hentry : Entry runner services request loop input candle signal execution tracking s) :
    (((loop.opened runner input.1 candle.date).track runner signal input.1 candle.date
      tracking).append ⟨input.1, input.2, some signal, some execution⟩).Sound runner
        (input.1 + 1) where
  books := h.books.opened.entered hentry.allowed hentry.trade
  breaker := h.breaker.entered h.waiting rfl (by simp [HistoricalReplayStep.date, hentry.latest])
    signal tracking (ReplayLoop.Books.canExecute hentry.allowed).1

/-- A replay that goes on is before step `now`. -/
def ReplayLoop.SoundBefore (runner : HistoricalReplayRunner) (now : Int)
    (loop : ReplayLoop ε σ) : Prop :=
  ∃ before, loop.Sound runner before ∧ (loop.raised = none → before = now)

theorem Stepped.sound {input : Int × MarketSnapshot Rat} {loop loop' : ReplayLoop ε σ}
    (hstep : Stepped runner services request loop input loop')
    (h : loop.SoundBefore runner input.1) : loop'.SoundBefore runner (input.1 + 1) := by
  obtain ⟨before, hsound, hbefore⟩ := h
  cases hstep with
  | ended hsome =>
    refine ⟨before, hsound.ended _ _, fun hnone => ?_⟩
    dsimp only at hnone
    rw [hnone] at hsome
    cases hsome
  | idle hraised hcandle hidle =>
    obtain rfl := hbefore hraised
    exact ⟨input.1 + 1, (hsound.idle hcandle hidle).ended _ _, fun _ => rfl⟩
  | entered hentry =>
    obtain rfl := hbefore hentry.active
    exact ⟨input.1 + 1, (hsound.entered hentry).ended _ _, fun _ => rfl⟩

/-- What is sound before each step holds all along a replay. -/
theorem always_of_sound {P : ReplayLoop ε σ → Prop} {start : Int}
    {inputs : List (Int × MarketSnapshot Rat)} (hsteps : Consecutive start inputs)
    {loop : ReplayLoop ε σ} (h : loop.SoundBefore runner start)
    (hP : ∀ loop now, ReplayLoop.Sound runner now loop → P loop) :
    Runs.Always (replayStep runner services request) P loop inputs := by
  have hhere : P loop := by
    obtain ⟨before, hsound, -⟩ := h
    exact hP loop before hsound
  induction inputs generalizing start loop with
  | nil => exact hhere
  | cons input rest ih =>
    obtain ⟨rfl, hrest⟩ := hsteps
    have hnext := (replayStep_stepped runner services request loop input).sound h
    refine ⟨hhere, ih hrest hnext ?_⟩
    obtain ⟨before, hsound, -⟩ := hnext
    exact hP _ before hsound

/-- The property holds at the start of a replay and after each of its steps. -/
def ReplayAlways (runner : HistoricalReplayRunner) (services : ReplayServices ε σ)
    (request : HistoricalReplayRequest) (s : σ) (P : ReplayLoop ε σ → Prop) : Prop :=
  match replayInputs services request with
  | .error e => P { services := s, raised := some e }
  | .ok (normalized, steps) =>
    Runs.Always (replayStep runner services normalized) P { services := s } steps

/-- The rules the trades of a replay follow. -/
structure ReplayRules (runner : HistoricalReplayRunner) (loop : ReplayLoop ε σ) : Prop where
  open_le : (loop.portfolio.openPositions.length : Int) ≤ max 0 runner.maxOpenPositions
  apart : loop.trades.Pairwise (ReplayScheduledClosure.Apart runner)
  closedOnce : ∀ trade ∈ loop.trades, trade.openedAtStep < trade.closeStep →
    (∃ result ∈ loop.results, result.stepIndex = trade.closeStep) →
      (loop.recorded.filter fun r => r.2.openedAtStep = trade.openedAtStep) =
        [(trade.closeStep, trade)]
  paused : loop.PausesAfterLosses runner

theorem ReplayLoop.Sound.rules {now : Int} {loop : ReplayLoop ε σ} (h : loop.Sound runner now) :
    ReplayRules runner loop where
  open_le := h.books.open_le
  apart := h.books.apart
  closedOnce := by
    intro trade htrade hlater hreached
    obtain ⟨result, hresult, hstep⟩ := hreached
    have hlt := h.breaker.earlier result hresult
    rw [h.books.recorded trade htrade, if_pos (by omega), max_eq_right hlater.le]
  paused := h.breaker.paused

theorem ReplayAlways.replay {P : ReplayLoop ε σ → Prop} {s : σ}
    (h : ReplayAlways runner services request s P) :
    P (AmaExecutionCore.replay runner services request s) := by
  unfold ReplayAlways at h
  unfold AmaExecutionCore.replay
  generalize replayInputs services request = inputs at h ⊢
  cases inputs with
  | error e => exact h
  | ok inputs => exact h.last

/-- In every replay, after each step and in the end, the open positions are within their cap, the
trades of a symbol are apart, every trade is closed once and at its step, and enough losses end
the entries of a day. -/
theorem replay_rules (runner : HistoricalReplayRunner) (services : ReplayServices ε σ)
    (request : HistoricalReplayRequest) (s : σ) :
    ReplayAlways runner services request s (ReplayRules runner) ∧
      ReplayRules runner (replay runner services request s) := by
  have halways : ReplayAlways runner services request s (ReplayRules runner) := by
    unfold ReplayAlways
    split
    · rename_i e _
      exact (ReplayLoop.Sound.init s (some e) 0).rules
    · rename_i normalized steps hinputs
      obtain ⟨start, hsteps⟩ := replayInputs_consecutive hinputs
      have hstart : ReplayLoop.SoundBefore runner start ({ services := s } : ReplayLoop ε σ) :=
        ⟨start, .init s none start, fun _ => rfl⟩
      exact always_of_sound hsteps hstart fun _ _ hsound => hsound.rules
  exact ⟨halways, halways.replay⟩

end

end AmaExecutionCore
