import AmaExecutionCore.TradePrices

/-! The reason of an exit and the sign of its result, when no spread and no slippage moves the
prices. -/
namespace AmaExecutionCore
namespace SimulationExecutionService

/-- A target is no loss and a stop is no gain. -/
structure ReasonAgrees (result : SimulationExecutionResult) : Prop where
  target : result.exitReason = "tp_hit" → 0 ≤ result.realizedPnl
  stop : result.exitReason = "sl_hit" → result.realizedPnl ≤ 0

/-- The entry of the signal lies between its stop and its target. -/
def LevelsOrdered (signal : ExecuteSignalRequest Rat) : Prop :=
  match signal.direction with
  | .long => signal.stop < signal.entry ∧ signal.entry < signal.target
  | .short => signal.target < signal.entry ∧ signal.entry < signal.stop

/-- Open and close lie between low and high. -/
structure BarOrdered (candle : MarketCandle Rat) : Prop where
  low_open : candle.low ≤ candle.openPrice
  open_high : candle.openPrice ≤ candle.high
  low_close : candle.low ≤ candle.close
  close_high : candle.close ≤ candle.high

/-- The candle opens beyond the target, and does not come back to the stop. -/
def OpensPastTarget (signal : ExecuteSignalRequest Rat) (candle : MarketCandle Rat) : Prop :=
  match signal.direction with
  | .long => signal.target < candle.openPrice ∧ signal.stop < candle.low
  | .short => candle.openPrice < signal.target ∧ candle.high < signal.stop

/-- The context drops no digit of the prices at which an order can fill. The program's prices are
floats, which have 17 digits. -/
structure PricesHeld (decimals : DecimalContext) (signal : ExecuteSignalRequest Rat)
    (candles : List (MarketCandle Rat)) : Prop where
  entry : decimals.Holds signal.entry
  stop : decimals.Holds signal.stop
  target : decimals.Holds signal.target
  opens : ∀ candle ∈ candles, decimals.Holds candle.openPrice

theorem pricesHeld_exact (signal : ExecuteSignalRequest Rat) (candles : List (MarketCandle Rat)) :
    PricesHeld .exact signal candles := ⟨rfl, rfl, rfl, fun _ _ => rfl⟩

variable {service : SimulationExecutionService} {ρ : Type} {random : ρ → Rat × ρ}
  {signal : ExecuteSignalRequest Rat} {step : Int} {prepared : PreparedExecution} {rng : ρ}
  {index : Nat} {candle first : MarketCandle Rat} {candles rest before after : List (MarketCandle Rat)}

section Reasons
variable {result : SimulationExecutionResult}

theorem reasonAgrees_timeout (h : result.exitReason = "timeout") : ReasonAgrees result := by
  constructor <;>
  · intro hreason
    rw [h] at hreason
    exact absurd hreason (by decide)

theorem reasonAgrees_target (h : result.exitReason = "tp_hit") :
    ReasonAgrees result ↔ 0 ≤ result.realizedPnl := by
  constructor
  · intro hagrees
    exact hagrees.target h
  · intro hgain
    refine ⟨fun _ => hgain, ?_⟩
    intro hreason
    rw [h] at hreason
    exact absurd hreason (by decide)

theorem reasonAgrees_stop (h : result.exitReason = "sl_hit") :
    ReasonAgrees result ↔ result.realizedPnl ≤ 0 := by
  constructor
  · intro hagrees
    exact hagrees.stop h
  · intro hloss
    refine ⟨?_, fun _ => hloss⟩
    intro hreason
    rw [h] at hreason
    exact absurd hreason (by decide)

end Reasons

theorem levelsOrdered_iff : LevelsOrdered signal ↔
    worth signal.direction signal.stop < worth signal.direction signal.entry ∧
      worth signal.direction signal.entry < worth signal.direction signal.target := by
  unfold LevelsOrdered worth
  cases signal.direction
  · exact Iff.rfl
  · exact and_comm.trans (and_congr neg_lt_neg_iff.symm neg_lt_neg_iff.symm)

theorem opensPastTarget_iff : OpensPastTarget signal candle ↔
    worth signal.direction signal.target < worth signal.direction candle.openPrice ∧
      ¬ StopTouched signal candle := by
  rw [stopTouched_iff, not_le]
  unfold OpensPastTarget worth worst
  cases signal.direction
  · exact Iff.rfl
  · exact and_congr neg_lt_neg_iff.symm neg_lt_neg_iff.symm

theorem BarOrdered.worth_open (h : BarOrdered candle) (direction : SignalDirection) :
    worth direction (worst direction candle) ≤ worth direction candle.openPrice ∧
      worth direction candle.openPrice ≤ worth direction (best direction candle) := by
  unfold worth worst best
  cases direction
  · exact ⟨h.low_open, h.open_high⟩
  · exact ⟨neg_le_neg h.open_high, neg_le_neg h.low_open⟩

theorem fillTerms_noSpread (hspread : service.spreadBps = 0) (isMaker : Bool) :
    (service.fillTerms isMaker).2 = 0 := by
  cases isMaker <;> simp [fillTerms, hspread, DecimalContext.div]

theorem PricesHeld.stopExit (hheld : PricesHeld service.decimals signal candles)
    (hcandle : candle ∈ candles) : service.decimals.Holds
      (resolveStopExitPrice signal.stop candle.openPrice signal.direction) := by
  unfold resolveStopExitPrice
  split_ifs
  · exact hheld.opens candle hcandle
  · exact hheld.opens candle hcandle
  · exact hheld.stop

def exitPriceAt (signal : ExecuteSignalRequest Rat) (prepared : PreparedExecution)
    (candle : MarketCandle Rat) : Rat :=
  if prepared.stopHit signal.direction candle then
    resolveStopExitPrice signal.stop candle.openPrice signal.direction
  else signal.target

/-- An exit at a candle, without costs: at the worse of stop and open, or at the target. -/
theorem exitAt_realizedPnl (hslip : service.slippageBps = 0) (hspread : service.spreadBps = 0)
    (hheld : PricesHeld service.decimals signal candles) (hcandle : candle ∈ candles)
    (hprepared : Prepared service signal first prepared) :
    (service.exitAt random signal candle index step prepared rng).1.realizedPnl =
      service.calculateRealizedPnl signal.direction prepared.entryPrice
        (exitPriceAt signal prepared candle) prepared.qty := by
  unfold exitAt exitPriceAt
  dsimp only
  split_ifs with hstop
  · dsimp only [buildStopResult, buildResult]
    rw [hprepared.stop, applySlippage_free (hheld.stopExit hcandle) hslip]
  · dsimp only [buildTargetResult, buildResult]
    rw [fillTerms_noSpread hspread, hprepared.target, applySpread_free hheld.target]

theorem worth_exitPriceAt : worth signal.direction (exitPriceAt signal prepared candle) =
    if prepared.stopHit signal.direction candle then
      min (worth signal.direction candle.openPrice) (worth signal.direction signal.stop)
    else worth signal.direction signal.target := by
  unfold exitPriceAt
  split_ifs
  · exact worth_resolveStopExitPrice _ _ _
  · rfl

/-- Without a spread the entry is the open of the first candle, or the entry of the signal. -/
theorem Prepared.entryPrice_eq (hprepared : Prepared service signal first prepared)
    (hheld : PricesHeld service.decimals signal candles) (hfirst : first ∈ candles)
    (hspread : service.spreadBps = 0) :
    prepared.entryPrice =
      if service.oneBarExecutionDelay then first.openPrice else signal.entry := by
  obtain ⟨isMaker, hentry⟩ := hprepared.entry
  have hraw : service.decimals.Holds
      (if service.oneBarExecutionDelay then first.openPrice else signal.entry) := by
    split_ifs
    · exact hheld.opens first hfirst
    · exact hheld.entry
  rw [hentry, fillTerms_noSpread hspread, hprepared.raw]
  exact applySpread_free hraw _

/-- The first of the candles that a trade may stay open for is the first of all. -/
theorem head_takeSlice {count : Int} {c : MarketCandle Rat}
    (h : c ∈ (takeSlice count (first :: rest)).head?) : c = first := by
  obtain ⟨n, hn⟩ := takeSlice_eq_take count (first :: rest)
  rw [hn] at h
  cases n with
  | zero => cases h
  | succ n => exact (Option.some.inj h).symm

theorem first_touched (hsplit : candles = before ++ candle :: after) (hhead : first ∈ candles.head?)
    (hbefore : ∀ c ∈ before, prepared.touched signal.direction c = false)
    (hfirst : prepared.touched signal.direction first = true) : candle = first := by
  subst hsplit
  cases before with
  | nil => exact Option.some.inj hhead
  | cons c before =>
    obtain rfl : c = first := Option.some.inj hhead
    rw [hbefore c List.mem_cons_self] at hfirst
    cases hfirst

theorem OpensPastTarget.touched (hprepared : Prepared service signal first prepared)
    (hbar : BarOrdered candle) (h : OpensPastTarget signal candle) :
    prepared.touched signal.direction candle = true := by
  have hopen := (hbar.worth_open signal.direction).2
  have hpast := (opensPastTarget_iff.mp h).1
  exact hprepared.touched_iff.mpr (.inr (targetTouched_iff.mpr (hpast.le.trans hopen)))

/-- A stop is no gain: an entry below it is the open of the first candle, which is at the stop. -/
theorem stop_le_entry (hbar : BarOrdered first) (hlevels : LevelsOrdered signal)
    (hentry : prepared.entryPrice =
      if service.oneBarExecutionDelay then first.openPrice else signal.entry)
    (hprepared : Prepared service signal first prepared)
    (hfirst : prepared.touched signal.direction first = true → candle = first) :
    min (worth signal.direction candle.openPrice) (worth signal.direction signal.stop) ≤
      worth signal.direction prepared.entryPrice := by
  obtain ⟨hstop, -⟩ := levelsOrdered_iff.mp hlevels
  rw [hentry]
  split_ifs with hdelay
  · by_cases hgap : worth signal.direction first.openPrice ≤ worth signal.direction signal.stop
    · have htouched : StopTouched signal first :=
        stopTouched_iff.mpr ((hbar.worth_open signal.direction).1.trans hgap)
      rw [hfirst (hprepared.touched_iff.mpr (.inl htouched))]
      exact min_le_left _ _
    · exact (min_le_right _ _).trans (not_le.mp hgap).le
  · exact (min_le_right _ _).trans hstop.le

/-- A target is no loss, unless the entry is the open of a first candle beyond it. -/
theorem entry_le_target_iff (hbar : BarOrdered first) (hlevels : LevelsOrdered signal)
    (hentry : prepared.entryPrice =
      if service.oneBarExecutionDelay then first.openPrice else signal.entry)
    (hprepared : Prepared service signal first prepared)
    (hfirst : prepared.touched signal.direction first = true → candle = first)
    (hnot : ¬ StopTouched signal candle) :
    worth signal.direction prepared.entryPrice ≤ worth signal.direction signal.target ↔
      ¬ (service.oneBarExecutionDelay = true ∧ OpensPastTarget signal first) := by
  obtain ⟨-, htarget⟩ := levelsOrdered_iff.mp hlevels
  rw [hentry]
  split_ifs with hdelay
  · rw [opensPastTarget_iff, ← not_lt]
    refine not_congr ⟨?_, fun h => h.2.1⟩
    intro hpast
    have htouched : TargetTouched signal first :=
      targetTouched_iff.mpr (hpast.le.trans (hbar.worth_open signal.direction).2)
    have hsame := hfirst (hprepared.touched_iff.mpr (.inr htouched))
    exact ⟨hdelay, hpast, hsame ▸ hnot⟩
  · exact iff_of_true htarget.le fun h => hdelay h.1

theorem buildTimeoutResult_reason {result : SimulationExecutionResult}
    (h : service.buildTimeoutResult signal candles step prepared = .ok result) :
    result.exitReason = "timeout" := by
  unfold buildTimeoutResult at h
  dsimp only at h
  cases hcandle : candleAt candles (min service.maxHoldCandles candles.length - 1) with
  | none =>
    rw [hcandle] at h
    cases h
  | some candle =>
    rw [hcandle] at h
    obtain rfl := Except.ok.inj h
    rfl

/-- The exit of a prepared trade. -/
theorem exitOf_reasonAgrees_iff {result : SimulationExecutionResult}
    (hspread : service.spreadBps = 0) (hslip : service.slippageBps = 0)
    (hheld : PricesHeld service.decimals signal (first :: rest))
    (hlevels : LevelsOrdered signal) (hbar : BarOrdered first)
    (hprepared : Prepared service signal first prepared)
    (hrun : (service.exitOf random signal (first :: rest) step prepared rng).1 = .ok result) :
    ReasonAgrees result ↔ ¬ (service.oneBarExecutionDelay = true ∧
      ∃ first' ∈ (takeSlice service.maxHoldCandles (first :: rest)).head?,
        OpensPastTarget signal first') := by
  obtain hnone | ⟨before, candle, after, hsplit, hbefore, htouched⟩ := touched_cases prepared
    signal.direction (takeSlice service.maxHoldCandles (first :: rest))
  · rw [exitOf_untouched hnone] at hrun
    refine iff_of_true (reasonAgrees_timeout (buildTimeoutResult_reason hrun)) ?_
    intro ⟨_, first', hfirst, hpast⟩
    have huntouched := hnone first' (List.mem_of_mem_head? hfirst)
    obtain rfl := head_takeSlice hfirst
    rw [hpast.touched hprepared hbar] at huntouched
    cases huntouched
  · have hhead : first ∈ (takeSlice service.maxHoldCandles (first :: rest)).head? := by
      obtain ⟨c, hc⟩ : ∃ c, c ∈ (takeSlice service.maxHoldCandles (first :: rest)).head? := by
        rw [hsplit]
        cases before with
        | nil => exact ⟨candle, rfl⟩
        | cons c before => exact ⟨c, rfl⟩
      exact head_takeSlice hc ▸ hc
    have hfirst : prepared.touched signal.direction first = true → candle = first :=
      first_touched hsplit hhead hbefore
    have hexists : (∃ first' ∈ (takeSlice service.maxHoldCandles (first :: rest)).head?,
        OpensPastTarget signal first') ↔ OpensPastTarget signal first := by
      constructor
      · intro ⟨first', hfirst', hpast⟩
        exact head_takeSlice hfirst' ▸ hpast
      · intro hpast
        exact ⟨first, hhead, hpast⟩
    rw [exitOf_touched hsplit hbefore htouched] at hrun
    obtain rfl := Except.ok.inj hrun
    have hcandle : candle ∈ first :: rest := by
      obtain ⟨n, hn⟩ := takeSlice_eq_take service.maxHoldCandles (first :: rest)
      rw [hn] at hsplit
      exact List.mem_of_mem_take (hsplit ▸ List.mem_append_right before List.mem_cons_self)
    have hentry := hprepared.entryPrice_eq hheld List.mem_cons_self hspread
    have hpnl := @exitAt_realizedPnl service ρ random signal step prepared rng before.length candle
      first (first :: rest) hslip hspread hheld hcandle hprepared
    have hworth := @worth_exitPriceAt signal prepared candle
    rw [hexists]
    obtain ⟨hstop, hreason, -⟩ | ⟨hnot, -, hreason, -⟩ :=
      @Prepared.exitAt_reason service ρ random signal step prepared rng before.length candle first
        hprepared htouched
    · rw [if_pos (hprepared.stopHit_iff.mpr hstop)] at hworth
      have hle := stop_le_entry hbar hlevels hentry hprepared hfirst
      rw [reasonAgrees_stop hreason, hpnl, calculateRealizedPnl_nonpos_iff hprepared.qty, hworth]
      refine iff_of_true hle ?_
      intro ⟨_, hpast⟩
      have hsame := hfirst (hpast.touched hprepared hbar)
      exact (opensPastTarget_iff.mp hpast).2 (hsame ▸ hstop)
    · rw [if_neg (fun hhit => hnot (hprepared.stopHit_iff.mp hhit))] at hworth
      rw [← entry_le_target_iff hbar hlevels hentry hprepared hfirst hnot,
        reasonAgrees_target hreason, hpnl, calculateRealizedPnl_nonneg_iff hprepared.qty, hworth]

/-- The reason of an executed trade agrees with its sign, unless the trade enters at the open of a
candle beyond the target that does not come back to the stop. -/
theorem reasonAgrees_iff (service : SimulationExecutionService) (random : ρ → Rat × ρ)
    (signal : ExecuteSignalRequest Rat) (candles : List (MarketCandle Rat)) (step : Int) (rng : ρ)
    (result : SimulationExecutionResult) (hspread : service.spreadBps = 0)
    (hslip : service.slippageBps = 0) (hheld : PricesHeld service.decimals signal candles)
    (hlevels : LevelsOrdered signal)
    (hcandles : ∀ candle ∈ candles, BarOrdered candle)
    (hrun : (service.executeReplaySignal random signal candles step rng).1 = .ok result)
    (hexecuted : 0 < result.qty) :
    ReasonAgrees result ↔ ¬ (service.oneBarExecutionDelay = true ∧
      ∃ first ∈ (takeSlice service.maxHoldCandles candles).head?, OpensPastTarget signal first) := by
  cases candles with
  | nil =>
    unfold executeReplaySignal at hrun
    cases hskip : service.maybeSkipSpotShort signal step with
    | some skipped =>
      rw [hskip] at hrun
      obtain rfl := Except.ok.inj hrun
      rw [(Unexecuted.spotShort hskip).qty] at hexecuted
      exact absurd hexecuted (lt_irrefl 0)
    | none =>
      rw [hskip] at hrun
      obtain rfl := Except.ok.inj hrun
      exact absurd hexecuted (lt_irrefl 0)
  | cons first rest =>
    obtain ⟨result', rng', hresult, hunexecuted⟩ | ⟨prepared, rng', hprepared, hexit⟩ :=
      executeReplaySignal_cases service random signal first rest step rng
    · rw [hresult] at hrun
      obtain rfl := Except.ok.inj hrun
      rw [hunexecuted.qty] at hexecuted
      exact absurd hexecuted (lt_irrefl 0)
    · rw [hexit] at hrun
      exact exitOf_reasonAgrees_iff hspread hslip hheld hlevels (hcandles first List.mem_cons_self)
        hprepared hrun

/-- An entry at 112, closed at the target of 110. -/
def gapResult : SimulationExecutionResult where
  realizedPnl := -(1176470588235294117647058824 / 100000000000000000000000000)
  feesPaid := 0
  slippage := 0
  exitReason := "tp_hit"
  holdCandles := 1
  qty := 5882352941176470588235294118 / 1000000000000000000000000000
  closedAtStep := 1
  entryPrice := 112
  exitPrice := 110

/-- The next candle opens above the target of the long signal. -/
theorem reasonAgrees_gap : LevelsOrdered longSignal ∧ BarOrdered (bar 112 113 111 112) ∧
    (costFree.executeReplaySignal (fun rng : Nat => (1 / 2, rng + 1)) longSignal
      [bar 112 113 111 112] 0 0).1 = .ok gapResult ∧ ¬ ReasonAgrees gapResult := by
  refine ⟨by constructor <;> decide +kernel, by constructor <;> decide +kernel, by decide +kernel, ?_⟩
  intro hagrees
  exact absurd (hagrees.target rfl) (by decide +kernel)

/-- An entry at 100, closed at the target. -/
def targetResult : SimulationExecutionResult where
  realizedPnl := 200
  feesPaid := 0
  slippage := 0
  exitReason := "tp_hit"
  holdCandles := 1
  qty := 20
  closedAtStep := 1
  entryPrice := 100
  exitPrice := 110

/-- An entry between the levels that reaches its target. -/
theorem reasonAgrees_iff_demo : ReasonAgrees targetResult := by
  refine (reasonAgrees_iff costFree (fun rng : Nat => (1 / 2, rng + 1)) longSignal
    [bar 100 111 99 110] 0 0 targetResult rfl rfl ?_ (by constructor <;> decide +kernel) ?_
    (by decide +kernel) (by decide +kernel)).mpr ?_
  · refine ⟨by decide +kernel, by decide +kernel, by decide +kernel, ?_⟩
    intro candle hcandle
    obtain rfl := List.mem_singleton.mp hcandle
    decide +kernel
  · intro candle hcandle
    obtain rfl := List.mem_singleton.mp hcandle
    constructor <;> decide +kernel
  · intro ⟨_, first, hfirst, hpast⟩
    obtain rfl := head_takeSlice hfirst
    exact absurd hpast.1 (by decide +kernel)

end SimulationExecutionService

end AmaExecutionCore
