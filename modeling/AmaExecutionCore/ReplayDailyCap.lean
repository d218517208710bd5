import AmaExecutionCore.ReplayRules

/-! The daily cap of a replay. The count the cap is compared with grows when a trade closes, so the
trades of a date that are still open are not in it. -/
namespace AmaExecutionCore

section
variable {ε σ : Type} [ExecutionMetrics ε] {runner : HistoricalReplayRunner}
  {services : ReplayServices ε σ} {request : HistoricalReplayRequest}

def ReplayLoop.entriesOn (date : Date) (loop : ReplayLoop ε σ) : Nat :=
  loop.results.countP fun result => result.executed ∧ result.date = some date

omit [ExecutionMetrics ε] in
def ReplayLoop.openOn (date : Date) (loop : ReplayLoop ε σ) : Nat :=
  loop.portfolio.openPositions.countP fun p =>
    (loop.scheduledClosures p.plannedCloseStep).any fun c => c.symbol = p.symbol ∧ c.entryDate = date

/-- No date has more entries than the cap. -/
def DailyCapHeld (runner : HistoricalReplayRunner) (loop : ReplayLoop ε σ) : Prop :=
  ∀ date, (loop.entriesOn date : Int) ≤ runner.maxTradesPerDay

/-- When the step makes an entry, the closed trades of its date and the trades of that date still
open leave room for it. -/
def RoomForEntry (runner : HistoricalReplayRunner) (services : ReplayServices ε σ)
    (request : HistoricalReplayRequest) (loop : ReplayLoop ε σ)
    (input : Int × MarketSnapshot Rat) : Prop :=
  ∀ candle signal execution tracking s,
    Entry runner services request loop input candle signal execution tracking s →
      (loop.opened runner input.1 candle.date).portfolio.dailyTrades candle.date +
        (loop.opened runner input.1 candle.date).openOn candle.date < runner.maxTradesPerDay

/-- The counts of a replay that recorded what closes before step `due`. -/
structure ReplayLoop.Tallied (due : Int) (loop : ReplayLoop ε σ) : Prop where
  entries : ∀ date, loop.entriesOn date = loop.trades.countP (·.entryDate = date)
  closed : ∀ date, loop.portfolio.dailyTrades date =
    loop.trades.countP fun c => c.closeStep < due ∧ c.entryDate = date

namespace ReplayLoop.Tallied

variable {due step : Int} {loop : ReplayLoop ε σ} {date : Date}

theorem init (s : σ) (r : Option PyError) :
    ({ services := s, raised := r } : ReplayLoop ε σ).Tallied due where
  entries _ := rfl
  closed _ := rfl

theorem ended (h : loop.Tallied due) (s : σ) (r : Option PyError) :
    ({ loop with services := s, raised := r } : ReplayLoop ε σ).Tallied due where
  entries := h.entries
  closed := h.closed

theorem opened (h : loop.Tallied step) (hbooks : loop.Books runner step step) :
    (loop.opened runner step date).Tallied (step + 1) where
  entries d := by
    have hentries := h.entries d
    simpa [ReplayLoop.entriesOn, ReplayLoop.trades] using hentries
  closed d := by
    have htrades : (loop.opened runner step date).trades = loop.trades := by
      simp [ReplayLoop.trades]
    rw [ReplayLoop.opened_daily, h.closed d, hbooks.waiting step (le_refl _), htrades,
      List.countP_filter]
    induction loop.trades with
    | nil => rfl
    | cons c cs ih =>
      rw [List.countP_cons, List.countP_cons, List.countP_cons]
      push_cast
      rw [← ih]
      by_cases hdate : c.entryDate = d
      · obtain hlt | heq | hgt := lt_trichotomy c.closeStep step
        · have hnext : c.closeStep < step + 1 := by omega
          simp [hdate, hlt, hlt.ne, hnext]
          omega
        · have hnext : c.closeStep < step + 1 := by omega
          simp [hdate, heq]
          omega
        · have hnot : ¬ c.closeStep < step := by omega
          have hnext : ¬ c.closeStep < step + 1 := by omega
          simp [hgt.ne', hnot, hnext]
      · simp [hdate]

theorem idle (h : loop.Tallied due) {result : HistoricalReplayStep ε}
    (hidle : result.executed = false) : (loop.append result).Tallied due where
  entries d := by
    have hentries := h.entries d
    simpa [ReplayLoop.entriesOn, ReplayLoop.trades, ReplayLoop.append, hidle,
      HistoricalReplayStep.trade_of_idle hidle] using hentries
  closed d := by
    have hclosed := h.closed d
    simpa [ReplayLoop.trades, ReplayLoop.append, HistoricalReplayStep.trade_of_idle hidle]
      using hclosed

variable {signal : StrategySignal Rat} {tracking : Tracking}

theorem entered (h : loop.Tallied (step + 1)) {result : HistoricalReplayStep ε}
    (hexecuted : result.executed = true) (hdate : result.date = some date)
    (htrade : result.trade = some (ReplayLoop.closureOf signal step date tracking)) :
    ((loop.track runner signal step date tracking).append result).Tallied (step + 1) where
  entries d := by
    have hentries := h.entries d
    simp only [ReplayLoop.entriesOn, ReplayLoop.trades] at hentries
    simp only [ReplayLoop.entriesOn, ReplayLoop.trades, ReplayLoop.append,
      ReplayLoop.track_results, List.countP_append, List.filterMap_append, hentries]
    by_cases hd : date = d <;> simp [hexecuted, hdate, htrade, hd]
  closed d := by
    have htrades : ((loop.track runner signal step date tracking).append result).trades =
        loop.trades ++ [ReplayLoop.closureOf signal step date tracking] := by
      simp [ReplayLoop.trades, ReplayLoop.append, ReplayLoop.track_results, htrade]
    refine (ReplayLoop.track_daily d).trans ?_
    rw [h.closed d, htrades, List.countP_append, List.countP_singleton]
    have hdue : tracking.closeStep ≤ step ↔ tracking.closeStep < step + 1 := by omega
    by_cases hd : date = d <;> by_cases hnow : tracking.closeStep < step + 1 <;>
      simp [hd, hdue, hnow]

/-- The entries of a date are the closed trades of the date and those still open. -/
theorem entriesOn_eq (h : loop.Tallied (step + 1)) (hbooks : loop.Books runner step (step + 1)) :
    (loop.entriesOn date : Int) = loop.portfolio.dailyTrades date + loop.openOn date := by
  have hopen : loop.openOn date =
      (loop.trades.filter (step + 1 ≤ ·.closeStep)).countP (·.entryDate = date) := by
    have hcount := congrArg (List.countP fun key : String × Int =>
      (loop.scheduledClosures key.2).any fun c => c.symbol = key.1 ∧ c.entryDate = date)
      hbooks.positions
    rw [List.countP_map, List.countP_map] at hcount
    refine hcount.trans (List.countP_congr fun c hc => ?_)
    obtain ⟨hc, hdue⟩ := List.mem_filter.mp hc
    have hdue : step + 1 ≤ c.closeStep := of_decide_eq_true hdue
    rw [Function.comp_apply, decide_eq_true_eq, hbooks.waiting c.closeStep hdue, List.any_eq_true]
    constructor
    · intro ⟨d, hd, hsame⟩
      obtain ⟨hd, hclose⟩ := List.mem_filter.mp hd
      have hclose : d.closeStep = c.closeStep := of_decide_eq_true hclose
      obtain ⟨hsym, hdate⟩ := of_decide_eq_true hsame
      by_cases heq : d = c
      · rw [← heq]
        exact hdate
      · -- Two open trades of one symbol would overlap.
        have hpc := hbooks.past c hc
        have hpd := hbooks.past d hd
        obtain hapart | hapart := hbooks.apart_or hd hc heq
        · have hover := (hapart hsym).1
          omega
        · have hover := (hapart hsym.symm).1
          omega
    · intro hdate
      exact ⟨c, List.mem_filter.mpr ⟨hc, by simp⟩, by simp [hdate]⟩
  rw [h.entries date, h.closed date, hopen, List.countP_filter]
  induction loop.trades with
  | nil => rfl
  | cons c cs ih =>
    rw [List.countP_cons, List.countP_cons, List.countP_cons]
    push_cast
    rw [ih]
    by_cases hdate : c.entryDate = date
    · by_cases hdue : c.closeStep < step + 1
      · have hnot : ¬ step + 1 ≤ c.closeStep := by omega
        simp [hdate, hdue, hnot]
        omega
      · have hlate : step + 1 ≤ c.closeStep := by omega
        simp [hdate, hdue, hlate]
        omega
    · simp [hdate]

end ReplayLoop.Tallied

/-- A replay that goes on is sound before step `now`, and its counts are right. -/
def ReplayLoop.TalliedBefore (runner : HistoricalReplayRunner) (now : Int)
    (loop : ReplayLoop ε σ) : Prop :=
  ∃ before, loop.Sound runner before ∧ loop.Tallied before ∧ (loop.raised = none → before = now)

variable {input : Int × MarketSnapshot Rat} {loop loop' : ReplayLoop ε σ}

theorem Stepped.tallied (hstep : Stepped runner services request loop input loop')
    (h : loop.TalliedBefore runner input.1) : loop'.TalliedBefore runner (input.1 + 1) := by
  obtain ⟨before, hsound, htallied, hbefore⟩ := h
  cases hstep with
  | ended hsome =>
    refine ⟨before, hsound.ended _ _, htallied.ended _ _, fun hnone => ?_⟩
    dsimp only at hnone
    rw [hnone] at hsome
    cases hsome
  | idle hraised hcandle hidle =>
    obtain rfl := hbefore hraised
    exact ⟨input.1 + 1, (hsound.idle hcandle hidle).ended _ _,
      ((htallied.opened hsound.books).idle hidle).ended _ _, fun _ => rfl⟩
  | entered hentry =>
    obtain rfl := hbefore hentry.active
    exact ⟨input.1 + 1, (hsound.entered hentry).ended _ _,
      ((htallied.opened hsound.books).entered hentry.done hentry.date hentry.trade).ended _ _,
      fun _ => rfl⟩

theorem Entry.entriesOn {candle : MarketCandle Rat} {signal : StrategySignal Rat} {execution : ε}
    {tracking : Tracking} {s : σ}
    (h : Entry runner services request loop input candle signal execution tracking s)
    (date : Date) : (replayStep runner services request loop input).entriesOn date =
      loop.entriesOn date + if candle.date = date then 1 else 0 := by
  rw [h.step_eq]
  simp only [ReplayLoop.entriesOn, ReplayLoop.append, ReplayLoop.track_results,
    ReplayLoop.opened_results, List.countP_append, List.countP_singleton]
  by_cases hdate : candle.date = date <;> simp [h.done, h.date, hdate]

/-- A step keeps the cap exactly when its entry has room. -/
theorem dailyCapHeld_step (h : loop.TalliedBefore runner input.1)
    (hheld : DailyCapHeld runner loop) :
    DailyCapHeld runner (replayStep runner services request loop input) ↔
      RoomForEntry runner services request loop input := by
  obtain ⟨before, hsound, htallied, hbefore⟩ := h
  have hroom : ∀ candle signal execution tracking s,
      Entry runner services request loop input candle signal execution tracking s →
        (loop.opened runner input.1 candle.date).portfolio.dailyTrades candle.date +
          (loop.opened runner input.1 candle.date).openOn candle.date =
            loop.entriesOn candle.date := by
    intro candle signal execution tracking s hentry
    obtain rfl := hbefore hentry.active
    rw [← (htallied.opened hsound.books).entriesOn_eq hsound.books.opened]
    simp [ReplayLoop.entriesOn]
  constructor
  · intro hnext candle signal execution tracking s hentry
    have hcount := hnext candle.date
    rw [hentry.entriesOn, if_pos rfl] at hcount
    rw [hroom candle signal execution tracking s hentry]
    omega
  · intro hcond
    have hstep := replayStep_stepped runner services request loop input
    generalize hnext : replayStep runner services request loop input = loop' at hstep ⊢
    cases hstep with
    | ended hsome => exact hheld
    | idle hraised hcandle hidle =>
      intro date
      have hdate := hheld date
      simpa [ReplayLoop.entriesOn, ReplayLoop.append, hidle] using hdate
    | entered hentry =>
      intro date
      have hcount := hentry.entriesOn date
      rw [hnext] at hcount
      rw [hcount]
      have hdate := hheld date
      split_ifs with heq
      · subst heq
        have hlt := hcond _ _ _ _ _ hentry
        rw [hroom _ _ _ _ _ hentry] at hlt
        omega
      · exact hdate

/-- A replay keeps the cap exactly when each entry has room. -/
theorem always_iff_room {start : Int} {inputs : List (Int × MarketSnapshot Rat)}
    (hsteps : Consecutive start inputs) (h : loop.TalliedBefore runner start)
    (hheld : DailyCapHeld runner loop) :
    Runs.Always (replayStep runner services request) (DailyCapHeld runner) loop inputs ↔
      Runs.Meets (replayStep runner services request) (RoomForEntry runner services request)
        loop inputs := by
  induction inputs generalizing start loop with
  | nil => exact ⟨fun _ => trivial, fun _ => hheld⟩
  | cons input rest ih =>
    obtain ⟨rfl, hrest⟩ := hsteps
    have hnext := (replayStep_stepped runner services request loop input).tallied h
    have hstep : DailyCapHeld runner (replayStep runner services request loop input) ↔
        RoomForEntry runner services request loop input := dailyCapHeld_step h hheld
    constructor
    · intro ⟨_, halways⟩
      have hkept := halways.head
      exact ⟨hstep.mp hkept, (ih hrest hnext hkept).mp halways⟩
    · intro ⟨hroom, hmeets⟩
      have hkept := hstep.mpr hroom
      exact ⟨hheld, (ih hrest hnext hkept).mpr hmeets⟩

def ReplayMeets (runner : HistoricalReplayRunner) (services : ReplayServices ε σ)
    (request : HistoricalReplayRequest) (s : σ)
    (cond : HistoricalReplayRequest → ReplayLoop ε σ → Int × MarketSnapshot Rat → Prop) : Prop :=
  match replayInputs services request with
  | .error _ => True
  | .ok (normalized, steps) =>
    Runs.Meets (replayStep runner services normalized) (cond normalized) { services := s } steps

theorem dailyCapHeld_init (hcap : 0 ≤ runner.maxTradesPerDay) (s : σ) (r : Option PyError) :
    DailyCapHeld runner ({ services := s, raised := r } : ReplayLoop ε σ) := by
  intro date
  simpa [ReplayLoop.entriesOn] using hcap

/-- A replay enters at most `maxTradesPerDay` trades a day exactly when the trades of the day that
are still open leave room for every entry. -/
theorem replayDailyCap_iff (runner : HistoricalReplayRunner) (services : ReplayServices ε σ)
    (request : HistoricalReplayRequest) (s : σ) (hcap : 0 ≤ runner.maxTradesPerDay) :
    ReplayAlways runner services request s (DailyCapHeld runner) ↔
      ReplayMeets runner services request s (RoomForEntry runner services) := by
  unfold ReplayAlways ReplayMeets
  cases hinputs : replayInputs services request with
  | error e => exact ⟨fun _ => trivial, fun _ => dailyCapHeld_init hcap s _⟩
  | ok inputs =>
    obtain ⟨normalized, steps⟩ := inputs
    obtain ⟨start, hsteps⟩ := replayInputs_consecutive hinputs
    exact always_iff_room hsteps ⟨start, .init s none start, .init s none, fun _ => rfl⟩
      (dailyCapHeld_init hcap s none)

/-- With one position at a time every entry has room. -/
theorem roomForEntry_single (hsingle : runner.maxOpenPositions ≤ 1) :
    RoomForEntry runner services request loop input := by
  intro candle signal execution tracking s hentry
  obtain ⟨-, -, hopen, -, hdaily⟩ := ReplayLoop.Books.canExecute hentry.allowed
  have hnone : (loop.opened runner input.1 candle.date).portfolio.openPositions = [] := by
    rw [← List.length_eq_zero_iff]
    omega
  have hzero : (loop.opened runner input.1 candle.date).openOn candle.date = 0 := by
    unfold ReplayLoop.openOn
    rw [hnone, List.countP_nil]
  rw [hzero]
  omega

/-- With one position at a time a replay keeps the cap. -/
theorem replayDailyCap_single (runner : HistoricalReplayRunner) (services : ReplayServices ε σ)
    (request : HistoricalReplayRequest) (s : σ) (hcap : 0 ≤ runner.maxTradesPerDay)
    (hsingle : runner.maxOpenPositions ≤ 1) :
    ReplayAlways runner services request s (DailyCapHeld runner) := by
  unfold ReplayAlways
  split
  · exact dailyCapHeld_init hcap s _
  · rename_i normalized steps hinputs
    obtain ⟨start, hsteps⟩ := replayInputs_consecutive hinputs
    refine (always_iff_room hsteps ⟨start, .init s none start, .init s none, fun _ => rfl⟩
      (dailyCapHeld_init hcap s none)).mpr ?_
    exact (Runs.Meets.trivial _ _).mono fun _ _ _ => roomForEntry_single hsingle

end

/-- An execution that is held for some candles and reports nothing else. -/
structure HeldExecution where
  holdCandles : Int

instance : ExecutionMetrics HeldExecution where
  status _ := none
  closedAtStep _ := .ok none
  holdCandles execution := .ok (some execution.holdCandles)
  realizedPnl _ := .ok none
  feesPaid _ := .ok none
  entryPrice _ := .ok none

/-- A strategy that always buys, and executions that are held for five candles. -/
def alwaysBuying : ReplayServices HeldExecution Unit where
  requiredCandleCount := 1
  generateSignal snapshot s :=
    (.ok (some { symbol := snapshot.symbol, direction := "long", entry := 100, stop := 99,
                 target := 103 }), s)
  executeSignal := .inl fun _ s => (.ok ⟨5⟩, s)

def hourSnapshot (symbol : String) (hour : Int) : MarketSnapshot Rat where
  symbol := symbol
  interval := "60"
  candles := [⟨hour * 3600000000, 100, 101, 99, 100, 1⟩]

/-- Two hours of one day, with a symbol each. -/
def twoHours : HistoricalReplayRequest where
  symbol := "BTCUSDT"
  interval := "60"
  snapshots := some [hourSnapshot "BTCUSDT" 0, hourSnapshot "ETHUSDT" 1]

def twoPositions : HistoricalReplayRunner where
  maxOpenPositions := 2
  maxTradesPerDay := 1

theorem replayDailyCap_twoPositions : 0 ≤ twoPositions.maxTradesPerDay ∧
    (ReplayAlways twoPositions alwaysBuying twoHours () (DailyCapHeld twoPositions) ↔
      ReplayMeets twoPositions alwaysBuying twoHours () (RoomForEntry twoPositions alwaysBuying)) :=
  ⟨by decide, replayDailyCap_iff twoPositions alwaysBuying twoHours () (by decide)⟩

/-- Both hours enter a trade of the same day. -/
theorem replayDailyCap_fails : 1 ≤ twoPositions.maxOpenPositions ∧ 0 ≤ twoPositions.maxTradesPerDay ∧
    ¬ ReplayAlways twoPositions alwaysBuying twoHours () (DailyCapHeld twoPositions) := by
  refine ⟨by decide, by decide, fun halways => ?_⟩
  have hcount := halways.replay (Timestamp.date 0)
  revert hcount
  decide +kernel

end AmaExecutionCore
