import AmaExecutionCore.TradePrices
import Mathlib.Tactic.Positivity

/-! The costs of a simulated trade: they move its fees and the price of its exit, and nothing else. -/
namespace AmaExecutionCore

/-- The fee rates and the slippage of a simulation. -/
structure TradeCosts where
  makerFeeRate : Rat
  takerFeeRate : Rat
  slippageBps : Rat

/-- Each cost is in its range, and none of the first is above that of the second. -/
structure TradeCosts.AtMost (cheap dear : TradeCosts) : Prop where
  maker_nonneg : 0 ≤ cheap.makerFeeRate
  maker_le : cheap.makerFeeRate ≤ dear.makerFeeRate
  maker_lt : dear.makerFeeRate < 1
  taker_nonneg : 0 ≤ cheap.takerFeeRate
  taker_le : cheap.takerFeeRate ≤ dear.takerFeeRate
  taker_lt : dear.takerFeeRate < 1
  slippage_nonneg : 0 ≤ cheap.slippageBps
  slippage_le : cheap.slippageBps ≤ dear.slippageBps
  slippage_most : dear.slippageBps ≤ 10000

def TradeCosts.feeRate (costs : TradeCosts) (isMaker : Bool) : Rat :=
  if isMaker then costs.makerFeeRate else costs.takerFeeRate

/-- `realized_pnl - fees_paid`. -/
def SimulationExecutionResult.netPnl (result : SimulationExecutionResult) : Rat :=
  result.realizedPnl - result.feesPaid

structure PositiveBar (candle : MarketCandle Rat) : Prop where
  opened : 0 < candle.openPrice
  high : 0 < candle.high
  low : 0 < candle.low
  close : 0 < candle.close

namespace TradeCosts.AtMost
variable {cheap dear : TradeCosts} (h : cheap.AtMost dear) (isMaker : Bool)
include h

theorem feeRate_nonneg : 0 ≤ cheap.feeRate isMaker := by
  cases isMaker
  · exact h.taker_nonneg
  · exact h.maker_nonneg

theorem feeRate_le : cheap.feeRate isMaker ≤ dear.feeRate isMaker := by
  cases isMaker
  · exact h.taker_le
  · exact h.maker_le

theorem feeRate_lt : dear.feeRate isMaker < 1 := by
  cases isMaker
  · exact h.taker_lt
  · exact h.maker_lt

end TradeCosts.AtMost

namespace SimulationExecutionService

def withCosts (service : SimulationExecutionService) (costs : TradeCosts) :
    SimulationExecutionService :=
  { service with
    makerFeeRate := costs.makerFeeRate
    takerFeeRate := costs.takerFeeRate
    slippageBps := costs.slippageBps }

def withEntryFee (prepared : PreparedExecution) (costs : TradeCosts) (isMaker : Bool) :
    PreparedExecution :=
  { prepared with entryFeeRate := costs.feeRate isMaker }

/-- The price and the fee of an exit at given costs: neither gets better when they grow, the price
in exact arithmetic. -/
structure ExitTerms (service : SimulationExecutionService) (direction : SignalDirection) where
  price : TradeCosts → Rat
  feeRate : TradeCosts → Rat
  price_nonneg {cheap dear : TradeCosts} :
    service.decimals = .exact → cheap.AtMost dear → 0 ≤ price dear
  price_le {cheap dear : TradeCosts} : service.decimals = .exact → cheap.AtMost dear →
    worth direction (price dear) ≤ worth direction (price cheap)
  feeRate_nonneg {cheap dear : TradeCosts} : cheap.AtMost dear → 0 ≤ feeRate cheap
  feeRate_le {cheap dear : TradeCosts} : cheap.AtMost dear → feeRate cheap ≤ feeRate dear
  feeRate_lt {cheap dear : TradeCosts} : cheap.AtMost dear → feeRate dear < 1

/-- A part of a price that does not exceed it leaves no negative price. -/
theorem part_le {price bps : Rat} (hprice : 0 ≤ price) (hbps : bps ≤ 10000) :
    price * bps / 10000 ≤ price := by
  have hpart := mul_le_mul_of_nonneg_left hbps hprice
  linarith

theorem applySpread_nonneg {service : SimulationExecutionService}
    (hexact : service.decimals = .exact) {price bps : Rat} (hprice : 0 ≤ price) (hbps : 0 ≤ bps)
    (hmost : bps ≤ 10000) (side : ExecutionSide) : 0 ≤ service.applySpread price side bps := by
  have hpart := part_le hprice hmost
  have hmove : 0 ≤ price * bps / 10000 := by positivity
  unfold applySpread
  rw [hexact]
  cases side
  · exact add_nonneg hprice hmove
  · exact sub_nonneg.mpr hpart

/-- An exit at the market slips, and pays the taker's fee. -/
def ExitTerms.market (service : SimulationExecutionService) (direction : SignalDirection)
    (rawExitPrice : Rat) (hraw : 0 ≤ rawExitPrice) : ExitTerms service direction where
  price costs := (service.withCosts costs).applySlippage rawExitPrice direction
  feeRate costs := costs.takerFeeRate
  price_nonneg {cheap dear} hexact h := by
    have hpart := part_le hraw h.slippage_most
    have hslip : 0 ≤ dear.slippageBps := h.slippage_nonneg.trans h.slippage_le
    have hmove : 0 ≤ rawExitPrice * dear.slippageBps / 10000 := by positivity
    have hexact' : (service.withCosts dear).decimals = .exact := hexact
    unfold applySlippage
    rw [hexact']
    cases direction
    · exact sub_nonneg.mpr hpart
    · exact add_nonneg hraw hmove
  price_le {cheap dear} hexact h := by
    rw [@worth_applySlippage (service.withCosts dear) hexact,
      @worth_applySlippage (service.withCosts cheap) hexact]
    have hmore : rawExitPrice * cheap.slippageBps ≤ rawExitPrice * dear.slippageBps :=
      mul_le_mul_of_nonneg_left h.slippage_le hraw
    have hcheap : (service.withCosts cheap).slippageBps = cheap.slippageBps := rfl
    have hdear : (service.withCosts dear).slippageBps = dear.slippageBps := rfl
    rw [hcheap, hdear]
    linarith
  feeRate_nonneg h := h.taker_nonneg
  feeRate_le h := h.taker_le
  feeRate_lt h := h.taker_lt

/-- An exit at the target pays a part of the spread, or fills as a maker. -/
def ExitTerms.limit (service : SimulationExecutionService) (direction : SignalDirection)
    (exitPrice : Rat) (hprice : service.decimals = .exact → 0 ≤ exitPrice) (isMaker : Bool) :
    ExitTerms service direction where
  price _ := exitPrice
  feeRate costs := costs.feeRate isMaker
  price_nonneg hexact _ := hprice hexact
  price_le _ _ := le_rfl
  feeRate_nonneg h := h.feeRate_nonneg isMaker
  feeRate_le h := h.feeRate_le isMaker
  feeRate_lt h := h.feeRate_lt isMaker

/-- The part of an exit in the net result is no better at the dearer costs. -/
theorem ExitTerms.value_le {service : SimulationExecutionService} {direction : SignalDirection}
    (terms : ExitTerms service direction) (hexact : service.decimals = .exact)
    {cheap dear : TradeCosts} (h : cheap.AtMost dear) :
    worth direction (terms.price dear) - terms.price dear * terms.feeRate dear ≤
      worth direction (terms.price cheap) - terms.price cheap * terms.feeRate cheap := by
  have hnonneg := terms.price_nonneg hexact h
  have hworse := terms.price_le hexact h
  have hrate := terms.feeRate_nonneg h
  have hless := terms.feeRate_lt h
  have hfees : terms.price dear * terms.feeRate cheap ≤ terms.price dear * terms.feeRate dear :=
    mul_le_mul_of_nonneg_left (terms.feeRate_le h) hnonneg
  unfold worth at hworse ⊢
  cases direction
  · have hbase : terms.price dear * (1 - terms.feeRate cheap) ≤
        terms.price cheap * (1 - terms.feeRate cheap) :=
      mul_le_mul_of_nonneg_right hworse (by linarith [terms.feeRate_le h])
    dsimp only
    linarith
  · have hbase : terms.price cheap * (1 + terms.feeRate cheap) ≤
        terms.price dear * (1 + terms.feeRate cheap) :=
      mul_le_mul_of_nonneg_right (neg_le_neg_iff.mp hworse) (by linarith)
    dsimp only
    linarith

variable {service : SimulationExecutionService} {ρ : Type} {random : ρ → Rat × ρ}
  {signal : ExecuteSignalRequest Rat} {step : Int} {prepared : PreparedExecution} {rng : ρ}
  {index : Nat} {candle first : MarketCandle Rat} {candles : List (MarketCandle Rat)}

/-- Whatever the costs, the run ends in the same exit, on terms that only they move. -/
def EndsOnTerms (service : SimulationExecutionService) {ρ : Type}
    (run : TradeCosts → Except PyError SimulationExecutionResult × ρ)
    (signal : ExecuteSignalRequest Rat) (prepared : PreparedExecution) (isMaker : Bool) : Prop :=
  ∃ (terms : ExitTerms service signal.direction) (rawExitPrice : Rat) (exitReason : String)
      (holdCandles closedAtStep : Int) (ambiguousCandle : Bool) (rng : ρ), ∀ costs,
    run costs = (.ok (service.buildResult signal (withEntryFee prepared costs isMaker) rawExitPrice
      (terms.price costs) (terms.feeRate costs) exitReason holdCandles closedAtStep
      ambiguousCandle), rng)

/-- In exact arithmetic the net result of a trade is what its exit is worth after fees, less what its entry costs. -/
theorem netPnl_buildResult {rawExitPrice exitPrice exitFeeRate : Rat} {exitReason : String}
    {holdCandles closedAtStep : Int} {ambiguousCandle : Bool} (hexact : service.decimals = .exact)
    (hqty : 0 < prepared.qty) :
    (service.buildResult signal prepared rawExitPrice exitPrice exitFeeRate exitReason holdCandles
      closedAtStep ambiguousCandle).netPnl =
    ((worth signal.direction exitPrice - exitPrice * exitFeeRate) -
      (worth signal.direction prepared.entryPrice + prepared.entryPrice * prepared.entryFeeRate)) *
        prepared.qty := by
  unfold SimulationExecutionResult.netPnl
  dsimp only [buildResult]
  unfold calculateFees
  rw [calculateRealizedPnl_worth _ _ _ hqty, if_neg (not_le.mpr hqty), hexact]
  simp only [DecimalContext.exact_add, DecimalContext.exact_sub, DecimalContext.exact_mul]
  ring

theorem makerFill_withCosts (costs : TradeCosts) :
    (service.withCosts costs).makerFill random rng = service.makerFill random rng := rfl

theorem resolveStopExitPrice_nonneg {stop candleOpen : Rat} (hstop : 0 ≤ stop) (hopen : 0 ≤ candleOpen)
    (direction : SignalDirection) : 0 ≤ resolveStopExitPrice stop candleOpen direction := by
  unfold resolveStopExitPrice
  split_ifs
  · exact hopen
  · exact hopen
  · exact hstop

/-- The part of the spread that an order pays is at most the spread. -/
theorem fillTerms_spread (hexact : service.decimals = .exact) (hspread : 0 ≤ service.spreadBps)
    (hmost : service.spreadBps ≤ 10000) (isMaker : Bool) :
    0 ≤ (service.fillTerms isMaker).2 ∧ (service.fillTerms isMaker).2 ≤ 10000 := by
  unfold fillTerms
  rw [hexact]
  cases isMaker
  · exact ⟨div_nonneg hspread (by norm_num), by simp; linarith⟩
  · exact ⟨le_rfl, by simp⟩

theorem exitAt_withCosts (hspread : 0 ≤ service.spreadBps) (hmost : service.spreadBps ≤ 10000)
    (hstop : 0 ≤ prepared.stop) (htarget : 0 ≤ prepared.target) (hopen : 0 ≤ candle.openPrice)
    (isMaker : Bool) :
    EndsOnTerms service (fun costs =>
      (.ok ((service.withCosts costs).exitAt random signal candle index step
        (withEntryFee prepared costs isMaker) rng).1,
      ((service.withCosts costs).exitAt random signal candle index step
        (withEntryFee prepared costs isMaker) rng).2)) signal prepared isMaker := by
  by_cases hhit : prepared.stopHit signal.direction candle = true
  · have hraw := resolveStopExitPrice_nonneg hstop hopen signal.direction
    refine ⟨.market service signal.direction _ hraw,
      resolveStopExitPrice prepared.stop candle.openPrice signal.direction, "sl_hit", index + 1,
      step + (index + 1), prepared.targetHit signal.direction candle, rng, ?_⟩
    intro costs
    have hhit' : (withEntryFee prepared costs isMaker).stopHit signal.direction candle = true := hhit
    unfold exitAt
    dsimp only
    rw [if_pos hhit']
    rfl
  · cases hfill : service.makerFill random rng with
    | mk isMaker' rng' =>
      have hprice (hexact : service.decimals = .exact) : 0 ≤ service.applySpread prepared.target
          (exitSide signal.direction) (service.fillTerms isMaker').2 := by
        obtain ⟨hbps, hbps'⟩ := fillTerms_spread hexact hspread hmost isMaker'
        exact applySpread_nonneg hexact htarget hbps hbps' (exitSide signal.direction)
      refine ⟨.limit service signal.direction _ hprice isMaker', prepared.target, "tp_hit", index + 1,
        step + (index + 1), false, rng', ?_⟩
      intro costs
      have hhit' : ¬ (withEntryFee prepared costs isMaker).stopHit signal.direction candle = true := hhit
      unfold exitAt
      dsimp only
      rw [if_neg hhit']
      unfold buildTargetResult
      rw [makerFill_withCosts, hfill]
      cases isMaker' <;> rfl

theorem mem_of_candleAt {i : Int} (h : candleAt candles i = some candle) : candle ∈ candles := by
  unfold candleAt at h
  dsimp only at h
  by_cases hposition : 0 ≤ if 0 ≤ i then i else candles.length + i
  · rw [if_pos hposition] at h
    exact List.mem_of_getElem? h
  · rw [if_neg hposition] at h
    cases h

theorem mem_of_takeSlice {count : Int} (h : candle ∈ takeSlice count candles) : candle ∈ candles := by
  obtain ⟨n, hn⟩ := takeSlice_eq_take count candles
  rw [hn] at h
  exact List.mem_of_mem_take h

theorem exitOf_withCosts (hspread : 0 ≤ service.spreadBps) (hmost : service.spreadBps ≤ 10000)
    (hstop : 0 ≤ prepared.stop) (htarget : 0 ≤ prepared.target)
    (hcandles : ∀ candle ∈ candles, PositiveBar candle) (isMaker : Bool) :
    (∃ e rng', ∀ costs, (service.withCosts costs).exitOf random signal candles step
      (withEntryFee prepared costs isMaker) rng = (.error e, rng')) ∨
    EndsOnTerms service (fun costs => (service.withCosts costs).exitOf random signal candles step
      (withEntryFee prepared costs isMaker) rng) signal prepared isMaker := by
  obtain hnone | ⟨before, candle, after, hsplit, hbefore, htouched⟩ := touched_cases prepared
    signal.direction (takeSlice service.maxHoldCandles candles)
  · have htimeout : ∀ costs, (service.withCosts costs).exitOf random signal candles step
        (withEntryFee prepared costs isMaker) rng =
        ((service.withCosts costs).buildTimeoutResult signal candles step
          (withEntryFee prepared costs isMaker), rng) := fun costs => exitOf_untouched hnone
    cases hcandle : candleAt candles (min service.maxHoldCandles candles.length - 1) with
    | none =>
      refine .inl ⟨.otherError, rng, ?_⟩
      intro costs
      rw [htimeout]
      unfold buildTimeoutResult
      dsimp only [withCosts]
      rw [hcandle]
    | some candle =>
      have hclose : 0 ≤ candle.close := (hcandles candle (mem_of_candleAt hcandle)).close.le
      refine .inr ⟨.market service signal.direction candle.close hclose, candle.close, "timeout",
        min service.maxHoldCandles candles.length,
        step + min service.maxHoldCandles candles.length, false, rng, ?_⟩
      intro costs
      refine (htimeout costs).trans ?_
      unfold buildTimeoutResult
      dsimp only [withCosts]
      rw [hcandle]
      rfl
  · have hmem : candle ∈ takeSlice service.maxHoldCandles candles := by
      rw [hsplit]
      exact List.mem_append_right before List.mem_cons_self
    have hopen : 0 ≤ candle.openPrice := (hcandles candle (mem_of_takeSlice hmem)).opened.le
    right
    obtain ⟨terms, raw, reason, hold, close, ambiguous, rng', hexit⟩ :=
      @exitAt_withCosts service ρ random signal step prepared rng before.length candle hspread hmost
        hstop htarget hopen isMaker
    refine ⟨terms, raw, reason, hold, close, ambiguous, rng', ?_⟩
    intro costs
    have hslice : takeSlice (service.withCosts costs).maxHoldCandles candles =
        before ++ candle :: after := hsplit
    have hbefore' : ∀ c ∈ before, (withEntryFee prepared costs isMaker).touched signal.direction c =
        false := hbefore
    have htouched' : (withEntryFee prepared costs isMaker).touched signal.direction candle = true :=
      htouched
    exact (exitOf_touched hslice hbefore' htouched').trans (hexit costs)

theorem prepareExecution_withCosts (service : SimulationExecutionService) (random : ρ → Rat × ρ)
    (signal : ExecuteSignalRequest Rat) (first : MarketCandle Rat) (step : Int) (rng : ρ) :
    (∃ result rng', ∀ costs, (service.withCosts costs).prepareExecution random signal first step rng =
      (.inr result, rng')) ∨
    ∃ prepared isMaker rng', Prepared service signal first prepared ∧ ∀ costs,
      (service.withCosts costs).prepareExecution random signal first step rng =
        (.inl (withEntryFee prepared costs isMaker), rng') := by
  obtain ⟨isMaker, hfill⟩ : ∃ isMaker, (service.makerFill random rng).1 = isMaker := ⟨_, rfl⟩
  have hprepare (costs : TradeCosts) :
      (service.withCosts costs).prepareExecution random signal first step rng =
        (service.prepareExecution random signal first step rng).map
          (Sum.map (withEntryFee · costs isMaker) id) id := by
    subst hfill
    unfold prepareExecution
    dsimp only
    rw [makerFill_withCosts]
    generalize service.makerFill random rng = fill
    obtain ⟨isMaker, rng'⟩ := fill
    have hterms : (service.withCosts costs).fillTerms isMaker =
        (costs.feeRate isMaker, (service.fillTerms isMaker).2) := by cases isMaker <;> rfl
    have hraw : (service.withCosts costs).resolveEntryPrice signal first =
        service.resolveEntryPrice signal first := rfl
    have hrisk : (service.withCosts costs).riskAmount = service.riskAmount := rfl
    have hskips : (service.withCosts costs).maybeSkipSpotConstraints signal step =
        service.maybeSkipSpotConstraints signal step := rfl
    have hspreads : (service.withCosts costs).applySpread = service.applySpread := rfl
    have hdecimals : (service.withCosts costs).decimals = service.decimals := rfl
    rw [hterms, hraw, hrisk, hskips, hspreads, hdecimals]
    dsimp only
    generalize service.applySpread (service.resolveEntryPrice signal first)
      (entrySide signal.direction) (service.fillTerms isMaker).2 = entryPrice
    generalize (if service.decimals.abs (service.decimals.sub entryPrice signal.stop) ≠ 0 then _
      else _) = qty
    by_cases hqty : qty ≤ 0
    · rw [if_pos hqty, if_pos hqty]
      rfl
    · rw [if_neg hqty, if_neg hqty]
      cases service.maybeSkipSpotConstraints signal step entryPrice qty with
      | some skipped => rfl
      | none => rfl
  obtain ⟨result, rng', hresult, -⟩ | ⟨prepared, rng', hresult, hprepared⟩ :=
    prepareExecution_cases service random signal first step rng
  · refine .inl ⟨result, rng', ?_⟩
    intro costs
    rw [hprepare, hresult]
    rfl
  · refine .inr ⟨prepared, isMaker, rng', hprepared, ?_⟩
    intro costs
    rw [hprepare, hresult]
    rfl

/-- The same trade: it leaves at the same candle, for the same reason, with the same quantity. -/
structure SameTrade (result result' : SimulationExecutionResult) : Prop where
  exitReason : result'.exitReason = result.exitReason
  closedAtStep : result'.closedAtStep = result.closedAtStep
  qty : result'.qty = result.qty

/-- A prepared trade enters at a price that is not negative, when its raw price is not. -/
theorem Prepared.entry_nonneg (hexact : service.decimals = .exact)
    (hprepared : Prepared service signal first prepared)
    (hspread : 0 ≤ service.spreadBps) (hmost : service.spreadBps ≤ 10000)
    (hraw : 0 ≤ service.resolveEntryPrice signal first) : 0 ≤ prepared.entryPrice := by
  obtain ⟨isMaker, hentry⟩ := hprepared.entry
  obtain ⟨hbps, hbps'⟩ := fillTerms_spread hexact hspread hmost isMaker
  rw [hentry, hprepared.raw]
  exact applySpread_nonneg hexact hraw hbps hbps' (entrySide signal.direction)

/-- The entry fee can only grow on a price that is not negative: the open of a candle, or the entry
of the signal. -/
def EntryCharged (service : SimulationExecutionService) (signal : ExecuteSignalRequest Rat)
    (cheap dear : TradeCosts) : Prop :=
  service.oneBarExecutionDelay = true ∨ 0 ≤ signal.entry ∨
    (cheap.makerFeeRate = dear.makerFeeRate ∧ cheap.takerFeeRate = dear.takerFeeRate)

/-- Both runs fail in the same way, or end in the same trade, with a net result that in exact
arithmetic is no better in the dearer run; and the draws that they leave are the same. -/
structure NoBetter (service : SimulationExecutionService) (signal : ExecuteSignalRequest Rat)
    (cheap dear : TradeCosts) {ρ : Type}
    (run : TradeCosts → Except PyError SimulationExecutionResult × ρ) : Prop where
  draws : (run cheap).2 = (run dear).2
  outcome : (∃ e, (run cheap).1 = .error e ∧ (run dear).1 = .error e) ∨
    ∃ result dearer, (run cheap).1 = .ok result ∧ (run dear).1 = .ok dearer ∧
      SameTrade result dearer ∧
      (service.decimals = .exact → EntryCharged service signal cheap dear →
        dearer.netPnl ≤ result.netPnl)

theorem NoBetter.fixed {run : TradeCosts → Except PyError SimulationExecutionResult × ρ}
    {outcome : Except PyError SimulationExecutionResult × ρ} (h : ∀ costs, run costs = outcome)
    (cheap dear : TradeCosts) : NoBetter service signal cheap dear run := by
  obtain ⟨outcome, rng⟩ := outcome
  cases outcome with
  | error e =>
    exact {
      draws := by rw [h cheap, h dear]
      outcome := .inl ⟨e, by rw [h cheap], by rw [h dear]⟩ }
  | ok result =>
    exact {
      draws := by rw [h cheap, h dear]
      outcome := .inr ⟨result, result, by rw [h cheap], by rw [h dear], ⟨rfl, rfl, rfl⟩,
        fun _ _ => le_rfl⟩ }

theorem Prepared.entryFee_le {cheap dear : TradeCosts} (hexact : service.decimals = .exact)
    (hprepared : Prepared service signal first prepared) (hcosts : cheap.AtMost dear)
    (hspread : 0 ≤ service.spreadBps) (hmost : service.spreadBps ≤ 10000) (hopen : 0 ≤ first.openPrice)
    (isMaker : Bool) (h : EntryCharged service signal cheap dear) :
    prepared.entryPrice * cheap.feeRate isMaker ≤ prepared.entryPrice * dear.feeRate isMaker := by
  have hcharged (hraw : 0 ≤ service.resolveEntryPrice signal first) :
      prepared.entryPrice * cheap.feeRate isMaker ≤ prepared.entryPrice * dear.feeRate isMaker :=
    mul_le_mul_of_nonneg_left (hcosts.feeRate_le isMaker)
      (hprepared.entry_nonneg hexact hspread hmost hraw)
  unfold resolveEntryPrice at hcharged
  obtain hdelay | hentry | ⟨hmaker, htaker⟩ := h
  · rw [if_pos hdelay] at hcharged
    exact hcharged hopen
  · split_ifs at hcharged
    · exact hcharged hopen
    · exact hcharged hentry
  · have hsame : cheap.feeRate isMaker = dear.feeRate isMaker := by
      cases isMaker
      · exact htaker
      · exact hmaker
    rw [hsame]

theorem EndsOnTerms.noBetter {run : TradeCosts → Except PyError SimulationExecutionResult × ρ}
    {isMaker : Bool} {cheap dear : TradeCosts} (h : EndsOnTerms service run signal prepared isMaker)
    (hprepared : Prepared service signal first prepared) (hcosts : cheap.AtMost dear)
    (hspread : 0 ≤ service.spreadBps) (hmost : service.spreadBps ≤ 10000)
    (hopen : 0 ≤ first.openPrice) : NoBetter service signal cheap dear run := by
  obtain ⟨terms, raw, reason, hold, close, ambiguous, rng, hrun⟩ := h
  refine ⟨by rw [hrun cheap, hrun dear], .inr ⟨_, _, congrArg Prod.fst (hrun cheap),
    congrArg Prod.fst (hrun dear), ⟨rfl, rfl, rfl⟩, ?_⟩⟩
  intro hexact hcharged
  have hfees := hprepared.entryFee_le hexact hcosts hspread hmost hopen isMaker hcharged
  have hexit := terms.value_le hexact hcosts
  have hqty (costs : TradeCosts) : (withEntryFee prepared costs isMaker).qty = prepared.qty := rfl
  rw [netPnl_buildResult hexact (hqty dear ▸ hprepared.qty),
    netPnl_buildResult hexact (hqty cheap ▸ hprepared.qty), hqty, hqty]
  apply mul_le_mul_of_nonneg_right _ hprepared.qty.le
  dsimp only [withEntryFee]
  linarith

/-- A signal is not executed, whatever the costs, or its trade ends on terms that they move. -/
theorem executeReplaySignal_withCosts (service : SimulationExecutionService) (random : ρ → Rat × ρ)
    (signal : ExecuteSignalRequest Rat) (candles : List (MarketCandle Rat)) (step : Int) (rng : ρ)
    (hspread : 0 ≤ service.spreadBps) (hmost : service.spreadBps ≤ 10000) (hstop : 0 ≤ signal.stop)
    (htarget : 0 ≤ signal.target) (hcandles : ∀ candle ∈ candles, PositiveBar candle) :
    (∃ outcome, ∀ costs,
      (service.withCosts costs).executeReplaySignal random signal candles step rng = outcome) ∨
    ∃ first ∈ candles, ∃ prepared isMaker, Prepared service signal first prepared ∧
      EndsOnTerms service (fun costs =>
        (service.withCosts costs).executeReplaySignal random signal candles step rng)
        signal prepared isMaker := by
  have hskips (costs : TradeCosts) : (service.withCosts costs).maybeSkipSpotShort signal step =
      service.maybeSkipSpotShort signal step := rfl
  unfold executeReplaySignal
  simp only [hskips]
  cases service.maybeSkipSpotShort signal step with
  | some skipped => exact .inl ⟨_, fun _ => rfl⟩
  | none =>
    cases candles with
    | nil => exact .inl ⟨_, fun _ => rfl⟩
    | cons first rest =>
      dsimp only
      obtain ⟨result, rng', hprepare⟩ | ⟨prepared, isMaker, rng', hprepared, hprepare⟩ :=
        prepareExecution_withCosts service random signal first step rng
      · simp only [hprepare]
        exact .inl ⟨_, fun _ => rfl⟩
      · simp only [hprepare]
        obtain ⟨e, rng'', herror⟩ | hends := @exitOf_withCosts service ρ random signal step prepared rng'
          (first :: rest) hspread hmost (hprepared.stop ▸ hstop) (hprepared.target ▸ htarget)
          hcandles isMaker
        · exact .inl ⟨_, herror⟩
        · exact .inr ⟨first, List.mem_cons_self, prepared, isMaker, hprepared, hends⟩

/-- Dearer costs leave the trade as it is, and in exact arithmetic never improve its net result. -/
theorem executeReplaySignal_dearer (service : SimulationExecutionService) (random : ρ → Rat × ρ)
    (signal : ExecuteSignalRequest Rat) (candles : List (MarketCandle Rat)) (step : Int) (rng : ρ)
    (cheap dear : TradeCosts) (hcosts : cheap.AtMost dear) (hspread : 0 ≤ service.spreadBps)
    (hmost : service.spreadBps ≤ 10000) (hstop : 0 < signal.stop) (htarget : 0 < signal.target)
    (hcandles : ∀ candle ∈ candles, PositiveBar candle) :
    NoBetter service signal cheap dear fun costs =>
      (service.withCosts costs).executeReplaySignal random signal candles step rng := by
  obtain ⟨outcome, hfixed⟩ | ⟨first, hfirst, prepared, isMaker, hprepared, hends⟩ :=
    executeReplaySignal_withCosts service random signal candles step rng hspread hmost hstop.le
      htarget.le hcandles
  · exact .fixed hfixed cheap dear
  · exact hends.noBetter hprepared hcosts hspread hmost (hcandles first hfirst).opened.le

/-- The service without costs, in exact arithmetic. -/
def exactlyCostFree : SimulationExecutionService := { costFree with decimals := .exact }

/-- Nothing but the fee of a maker. -/
def makerCosts (makerFeeRate : Rat) : TradeCosts := ⟨makerFeeRate, 0, 0⟩

theorem makerCosts_atMost : (makerCosts 0).AtMost (makerCosts (1 / 2)) := by
  constructor <;> decide +kernel

/-- The delayed long signal, on a candle that reaches its target. -/
theorem executeReplaySignal_dearer_demo :
    NoBetter exactlyCostFree longSignal (makerCosts 0) (makerCosts (1 / 2)) fun costs =>
      (exactlyCostFree.withCosts costs).executeReplaySignal (fun rng : Nat => (1 / 2, rng + 1)) longSignal
        [bar 100 111 99 110] 0 0 := by
  refine executeReplaySignal_dearer exactlyCostFree (fun rng : Nat => (1 / 2, rng + 1)) longSignal
    [bar 100 111 99 110] 0 0 _ _ makerCosts_atMost le_rfl (by decide) (by decide) (by decide) ?_
  intro candle hcandle
  obtain rfl := List.mem_singleton.mp hcandle
  constructor <;> decide +kernel

/-- A long signal below zero. -/
def negativeSignal : ExecuteSignalRequest Rat :=
  { symbol := "BTCUSDT", direction := .long, entry := -10, stop := 5, target := 10 }

/-- Executed at once, the negative signal nets more when its entry is charged a fee. -/
theorem executeReplaySignal_negative :
    let run (costs : TradeCosts) :=
      ((({ exactlyCostFree with oneBarExecutionDelay := false }).withCosts costs).executeReplaySignal
        (fun rng : Nat => (1 / 2, rng + 1)) negativeSignal [bar 6 7 6 6] 0 0).1
    (makerCosts 0).AtMost (makerCosts (1 / 2)) ∧ PositiveBar (bar 6 7 6 6) ∧
      0 < negativeSignal.stop ∧ 0 < negativeSignal.target ∧
      (run (makerCosts 0)).toOption.map SimulationExecutionResult.netPnl = some (320 / 3) ∧
      (run (makerCosts (1 / 2))).toOption.map SimulationExecutionResult.netPnl = some 140 := by
  refine ⟨makerCosts_atMost, ?_, by decide, by decide, by decide +kernel, by decide +kernel⟩
  constructor <;> decide

/-- In 28 digits a little more slippage can be worth a unit of the last one. -/
example :
    let signal : ExecuteSignalRequest Rat :=
      { symbol := "BTCUSDT", direction := .long, entry := 54.9, stop := 51, target := 60 }
    let run (slippageBps : Rat) :=
      ((costFree.withCosts ⟨0, 0.3, slippageBps⟩).executeReplaySignal
        (fun rng : Nat => (1 / 2, rng + 1)) signal [bar 54.9 55 50 51] 0 0).1
    (run 35).toOption.map SimulationExecutionResult.netPnl =
        some (-495.5115384615384615384615386) ∧
      (run 35.000000000000000000000001).toOption.map SimulationExecutionResult.netPnl =
        some (-495.5115384615384615384615385) := by
  decide +kernel

end SimulationExecutionService

end AmaExecutionCore
