import AmaExecutionCore.GridBacktester
import AmaExecutionCore.GridInventory
import AmaExecutionCore.Numbers

/-! `evaluate_grid_backtest`, and the accounts of the backtester that it reads: profit and fees
add up to what the cycles and the inventory of the slots say. -/
namespace AmaExecutionCore
open GridBacktester

/-- `f"{q:.{n}f}"`, the text of a number. -/
def fixedText (n : Nat) (q : Rat) : String :=
  let digits := (formatDecimals n q * 10 ^ n).num.natAbs
  let whole := toString (digits / 10 ^ n)
  let rest := String.ofList (List.leftpad n '0' (toString (digits % 10 ^ n)).toList)
  (if q < 0 then "-" else "") ++ whole ++ "." ++ rest

example : fixedText 2 (-7 / 8) = "-0.88" := by decide +kernel

namespace GridMetrics

/-- The whole result of an evaluation, in exact numbers. -/
structure GridBacktestResult where
  symbol : String
  backtestDays : Int
  configStepPct : Rat
  completedCycles : Nat
  grossProfitUsdt : Rat
  totalFeesUsdt : Rat
  netPnlUsdt : Rat
  feeCoverageRatio : Number
  annualizedYieldPct : Rat
  maxUnrealizedDrawdownPct : Rat
  capitalUtilizationPct : Rat
  avgCycleProfitPct : Rat
  daysToBreakeven : Number
  passRegression : Bool
  failReasons : List String

def numberText (n : Nat) : Number → String
  | .nan => "nan"
  | .value ⊥ => "-inf"
  | .value (some ⊤) => "inf"
  | .value (some (some q)) => fixedText n q

def safeRatio (numerator denominator : Rat) : Number :=
  if denominator = 0 then if 0 < numerator then .infinity else .ofRat 0
  else .ofRat (numerator / denominator)

def annualizedYieldPct (netPnl capitalUsdt : Rat) (backtestDays : Int) : Rat :=
  if capitalUsdt = 0 ∨ backtestDays ≤ 0 then 0
  else netPnl / capitalUsdt * (365 / backtestDays) * 100

def percentage (numerator denominator : Rat) : Rat :=
  if denominator = 0 then 0 else numerator / denominator * 100

def averageCycleProfitPct (state : GridState) (config : GridConfig) : Rat :=
  if state.completedCycles = 0 ∨ config.capitalPerLevel = 0 then 0
  else state.netPnl / state.completedCycles / config.capitalPerLevel * 100

def daysToBreakeven (maxUnrealizedLoss netPnl : Rat) (backtestDays : Int) : Number :=
  if maxUnrealizedLoss = 0 then .ofRat 0
  else if netPnl ≤ 0 ∨ backtestDays ≤ 0 then .infinity
  else .ofRat (maxUnrealizedLoss / (netPnl / backtestDays))

/-- `_max_snapshot_value` of the unrealized losses. -/
def maxUnrealizedLoss (state : GridState) : Rat :=
  ((state.candleSnapshots.map CandleSnapshot.unrealizedLossUsdt).max?).getD 0

def regressionFailReasons (completedCycles : Nat) (netPnl : Rat) (feeCoverageRatio : Number)
    (annualizedYieldPct maxUnrealizedDrawdownPct : Rat) : List String :=
  (if netPnl ≤ 0 then ["Net PnL " ++ fixedText 4 netPnl ++ " <= 0"] else []) ++
  (if feeCoverageRatio.lt (.ofRat 2) then
    ["Fee coverage ratio " ++ numberText 2 feeCoverageRatio ++ " < 2.0"] else []) ++
  (if annualizedYieldPct < 10 then
    ["Annualized yield " ++ fixedText 1 annualizedYieldPct ++ "% < 10%"] else []) ++
  (if 55 < maxUnrealizedDrawdownPct then
    ["Max unrealized drawdown " ++ fixedText 1 maxUnrealizedDrawdownPct ++ "% > 55%"] else []) ++
  (if completedCycles < 30 then ["Completed cycles " ++ toString completedCycles ++ " < 30"] else [])

def evaluateGridBacktest (state : GridState) (config : GridConfig) (backtestDays : Int) :
    GridMetrics.GridBacktestResult :=
  let maxLoss := maxUnrealizedLoss state
  let activeBuyCandles := state.candleSnapshots.countP fun snapshot => 1 ≤ snapshot.activeBuyOrders
  let feeCoverageRatio := safeRatio state.totalGrossProfit state.totalFeesPaid
  let yieldPct := annualizedYieldPct state.netPnl config.capitalUsdt backtestDays
  let drawdownPct := percentage maxLoss config.capitalUsdt
  let failReasons := regressionFailReasons state.completedCycles state.netPnl feeCoverageRatio
    yieldPct drawdownPct
  { symbol := config.symbol
    backtestDays := backtestDays
    configStepPct := config.stepPct
    completedCycles := state.completedCycles
    grossProfitUsdt := state.totalGrossProfit
    totalFeesUsdt := state.totalFeesPaid
    netPnlUsdt := state.netPnl
    feeCoverageRatio := feeCoverageRatio
    annualizedYieldPct := yieldPct
    maxUnrealizedDrawdownPct := drawdownPct
    capitalUtilizationPct := percentage activeBuyCandles state.candleSnapshots.length
    avgCycleProfitPct := averageCycleProfitPct state config
    daysToBreakeven := daysToBreakeven maxLoss state.netPnl backtestDays
    passRegression := failReasons.isEmpty
    failReasons := failReasons }

end GridMetrics

/-! The accounts -/

namespace GridSlot

def grossProfit (slot : GridSlot) : Rat :=
  slot.completedCycles * slot.units * (slot.sellPrice - slot.buyPrice)

def holding (slot : GridSlot) : Nat := if slot.status = .waitingSell then 1 else 0

def turnover (slot : GridSlot) : Rat :=
  slot.units * (slot.buyPrice * (slot.completedCycles + slot.holding) +
    slot.sellPrice * slot.completedCycles)

def saleTurnover (slot : GridSlot) : Rat := slot.units * (slot.sellPrice * slot.completedCycles)

end GridSlot

def stateAfter (config : GridConfig) (candles : List GridCandle) (i : Nat) : GridState :=
  (candles.take i).foldl processCandle (initializeState config candles)

/-- What the accumulators of a state say about its slots. -/
structure GridState.Balanced (state : GridState) : Prop where
  gross : state.totalGrossProfit = (state.slots.map GridSlot.grossProfit).sum
  fees : state.totalFeesPaid = state.config.makerFeePct * (state.slots.map GridSlot.turnover).sum
  realized : ∀ slot ∈ state.slots, slot.realizedPnlUsdt =
    slot.grossProfit - state.config.makerFeePct * slot.saleTurnover

theorem sum_map_moved {α : Type} (p : α → Bool) (f : α → α) (F gain : α → Rat) (l : List α)
    (h : ∀ x, F (f x) = F x + if p x then gain x else 0) :
    ((l.map f).map F).sum = (l.map F).sum + ((l.filter p).map gain).sum := by
  rw [sum_map_filter_eq, ← List.sum_map_add, List.map_map]
  exact congrArg List.sum (List.map_congr_left fun x _ => h x)

theorem sum_map_rate {α : Type} (rate : Rat) (f g : α → Rat) (l : List α)
    (h : ∀ x, f x = g x * rate) : (l.map f).sum = rate * (l.map g).sum := by
  rw [← List.sum_map_mul_left]
  exact congrArg List.sum (List.map_congr_left fun x _ => (h x).trans (mul_comm _ _))

/-! One candle -/

theorem turnover_buyFill (candle : GridCandle) (slot : GridSlot) :
    (buyFill candle slot).turnover =
      slot.turnover + if buys candle slot then slot.units * slot.buyPrice else 0 := by
  unfold buyFill
  split_ifs with hbuys
  · have hwaiting : slot.status = .waitingBuy := by
      simp only [buys, Bool.and_eq_true, decide_eq_true_eq] at hbuys
      exact hbuys.1
    simp only [GridSlot.turnover, GridSlot.holding, hwaiting]
    push_cast
    ring
  · rw [add_zero]

theorem buyFill_frame (candle : GridCandle) (slot : GridSlot) :
    (buyFill candle slot).completedCycles = slot.completedCycles ∧
      (buyFill candle slot).realizedPnlUsdt = slot.realizedPnlUsdt ∧
      (buyFill candle slot).grossProfit = slot.grossProfit ∧
      (buyFill candle slot).saleTurnover = slot.saleTurnover := by
  unfold buyFill
  split_ifs <;> exact ⟨rfl, rfl, rfl, rfl⟩

theorem turnover_sellFill (config : GridConfig) (candle : GridCandle) (slot : GridSlot) :
    (sellFill config candle slot).turnover =
      slot.turnover + if sells candle slot then slot.units * slot.sellPrice else 0 := by
  unfold sellFill
  split_ifs with hsells
  · have hholding : slot.status = .waitingSell := by
      simp only [sells, Bool.and_eq_true, decide_eq_true_eq] at hsells
      exact hsells.1
    simp only [GridSlot.turnover, GridSlot.holding, hholding]
    push_cast
    ring
  · rw [add_zero]

theorem grossProfit_sellFill (config : GridConfig) (candle : GridCandle) (slot : GridSlot) :
    (sellFill config candle slot).grossProfit =
      slot.grossProfit + if sells candle slot then GridBacktester.grossProfit slot else 0 := by
  unfold sellFill
  split_ifs
  · simp only [GridSlot.grossProfit, GridBacktester.grossProfit]
    push_cast
    ring
  · rw [add_zero]

theorem realized_sellFill (config : GridConfig) (candle : GridCandle) {slot : GridSlot}
    (h : slot.realizedPnlUsdt = slot.grossProfit - config.makerFeePct * slot.saleTurnover) :
    (sellFill config candle slot).realizedPnlUsdt = (sellFill config candle slot).grossProfit -
      config.makerFeePct * (sellFill config candle slot).saleTurnover := by
  unfold sellFill
  split_ifs
  · simp only [h, GridSlot.grossProfit, GridSlot.saleTurnover, GridBacktester.grossProfit, sellFee]
    push_cast
    ring
  · exact h

theorem GridState.Balanced.buyFills {state : GridState} (h : state.Balanced) (candle : GridCandle) :
    (processBuyFills state candle).Balanced := by
  refine ⟨?_, ?_, ?_⟩
  · simp only [processBuyFills, h.gross, List.map_map]
    congr 1
    exact List.map_congr_left fun slot _ => (buyFill_frame candle slot).2.2.1.symm
  · have hmoved := sum_map_moved (buys candle) (buyFill candle) GridSlot.turnover
      (fun slot => slot.units * slot.buyPrice) state.slots (turnover_buyFill candle)
    have hfees := sum_map_rate state.config.makerFeePct (buyFee state.config)
      (fun slot => slot.units * slot.buyPrice) (state.slots.filter (buys candle)) fun slot => rfl
    simp only [processBuyFills, h.fees, hmoved, hfees]
    ring
  · intro slot hslot
    obtain ⟨slot, hmem, rfl⟩ := List.mem_map.mp hslot
    obtain ⟨-, hrealized, hgross, hsale⟩ := buyFill_frame candle slot
    rw [hrealized, hgross, hsale]
    exact h.realized slot hmem

theorem GridState.Balanced.sellFills {state : GridState} (h : state.Balanced) (candle : GridCandle) :
    (processSellFills state candle).Balanced := by
  refine ⟨?_, ?_, ?_⟩
  · have hmoved := sum_map_moved (sells candle) (sellFill state.config candle) GridSlot.grossProfit
      GridBacktester.grossProfit state.slots (grossProfit_sellFill state.config candle)
    simp only [processSellFills, h.gross, hmoved]
  · have hmoved := sum_map_moved (sells candle) (sellFill state.config candle) GridSlot.turnover
      (fun slot => slot.units * slot.sellPrice) state.slots (turnover_sellFill state.config candle)
    have hfees := sum_map_rate state.config.makerFeePct (sellFee state.config)
      (fun slot => slot.units * slot.sellPrice) (state.slots.filter (sells candle)) fun slot => rfl
    simp only [processSellFills, h.fees, hmoved, hfees]
    ring
  · intro slot hslot
    obtain ⟨slot, hmem, rfl⟩ := List.mem_map.mp hslot
    exact realized_sellFill state.config candle (h.realized slot hmem)

theorem GridState.Balanced.candle {state : GridState} (h : state.Balanced) (candle : GridCandle) :
    (processCandle state candle).Balanced := by
  obtain ⟨hgross, hfees, hrealized⟩ := (h.buyFills candle).sellFills candle
  exact ⟨hgross, hfees, hrealized⟩

theorem initialSlot_frame (config : GridConfig) (price buyPrice : Rat) (level : Nat) :
    (initialSlot config price buyPrice level).completedCycles = 0 ∧
      (initialSlot config price buyPrice level).realizedPnlUsdt = 0 ∧
      (initialSlot config price buyPrice level).buyPrice = buyPrice ∧
      (initialSlot config price buyPrice level).holding = if price ≤ buyPrice then 1 else 0 := by
  unfold initialSlot
  by_cases habove : price ≤ buyPrice
  · simp [habove, GridSlot.holding]
  · simp [habove, GridSlot.holding]

theorem initializeState_balanced (config : GridConfig) (candles : List GridCandle) :
    (initializeState config candles).Balanced := by
  have hslot : ∀ slot ∈ (initializeState config candles).slots, slot.completedCycles = 0 ∧
      slot.realizedPnlUsdt = 0 ∧
      slot.holding = if startingPrice config candles ≤ slot.buyPrice then 1 else 0 := by
    intro slot hslot
    obtain ⟨⟨buyPrice, level⟩, -, rfl⟩ := List.mem_map.mp hslot
    obtain ⟨hcycles, hrealized, hbuy, hholding⟩ :=
      initialSlot_frame config (startingPrice config candles) buyPrice level
    exact ⟨hcycles, hrealized, by rw [hbuy]; exact hholding⟩
  refine ⟨?_, ?_, fun slot hmem => ?_⟩
  · refine (List.sum_eq_zero fun x hx => ?_).symm
    obtain ⟨slot, hmem, rfl⟩ := List.mem_map.mp hx
    rw [GridSlot.grossProfit, (hslot slot hmem).1, Nat.cast_zero, zero_mul, zero_mul]
  · have hfees : (((initializeState config candles).slots.filter fun slot =>
        startingPrice config candles ≤ slot.buyPrice).map (buyFee config)).sum =
        ((initializeState config candles).slots.map fun slot =>
          config.makerFeePct * slot.turnover).sum := by
      rw [sum_map_filter_eq]
      refine congrArg List.sum (List.map_congr_left fun slot hmem => ?_)
      obtain ⟨hcycles, -, hholding⟩ := hslot slot hmem
      rw [GridSlot.turnover, hcycles, hholding, buyFee]
      by_cases habove : startingPrice config candles ≤ slot.buyPrice
      · simp only [habove, decide_true, if_true]
        push_cast
        ring
      · simp [habove]
    exact hfees.trans (List.sum_map_mul_left _ _ _)
  · rw [(hslot slot hmem).2.1, GridSlot.grossProfit, GridSlot.saleTurnover, (hslot slot hmem).1]
    simp

/-! The whole run -/

theorem stateAfter_of_candle (P : GridState → Prop) (config : GridConfig) (candles : List GridCandle)
    (i : Nat) (hinit : P (initializeState config candles))
    (hcandle : ∀ state candle, P state → P (processCandle state candle)) :
    P (stateAfter config candles i) := by
  unfold stateAfter
  generalize initializeState config candles = state at hinit ⊢
  generalize candles.take i = rest
  induction rest generalizing state with
  | nil => exact hinit
  | cons candle rest ih => exact ih (processCandle state candle) (hcandle state candle hinit)

theorem stateAfter_config (config : GridConfig) (candles : List GridCandle) (i : Nat) :
    (stateAfter config candles i).config = config :=
  stateAfter_of_candle (fun state => state.config = config) config candles i rfl
    fun state candle h => (processCandle_config state candle).trans h

theorem stateAfter_balanced (config : GridConfig) (candles : List GridCandle) (i : Nat) :
    (stateAfter config candles i).Balanced :=
  stateAfter_of_candle GridState.Balanced config candles i (initializeState_balanced config candles)
    fun _ candle h => h.candle candle

/-- The run is the state after all of its candles. -/
theorem run_eq_stateAfter (config : GridConfig) (candles : List GridCandle) :
    run config candles = stateAfter config candles candles.length := by
  rw [stateAfter, List.take_length]
  rfl

theorem candle_cycles (config : GridConfig) (candle : GridCandle) (slot : GridSlot) :
    (sellFill config candle (buyFill candle slot)).completedCycles = slot.completedCycles ∨
      (sellFill config candle (buyFill candle slot)).completedCycles = slot.completedCycles + 1 := by
  have hbuy := (buyFill_frame candle slot).1
  generalize buyFill candle slot = bought at hbuy
  unfold sellFill
  split_ifs
  · exact .inr (congrArg (· + 1) hbuy)
  · exact .inl hbuy

theorem stateAfter_cycles (config : GridConfig) (candles : List GridCandle) {i : Nat}
    (hi : i < candles.length) :
    List.Forall₂ (fun slot slot' : GridSlot => slot'.completedCycles = slot.completedCycles ∨
      slot'.completedCycles = slot.completedCycles + 1)
      (stateAfter config candles i).slots (stateAfter config candles (i + 1)).slots := by
  have hstep : stateAfter config candles (i + 1) =
      processCandle (stateAfter config candles i) candles[i] := by
    rw [stateAfter, List.take_succ_eq_append_getElem hi, List.foldl_append]
    rfl
  rw [hstep, processCandle_slots, List.forall₂_map_right_iff, List.forall₂_same]
  exact fun slot _ => candle_cycles _ _ slot

/-- For every config, candle list and number of days: the accumulators of the final state are
those that the cycles and the inventory of its slots give, a candle completes at most one cycle of
a slot, and the evaluation reports these numbers. -/
theorem gridBacktest_accounts (config : GridConfig) (candles : List GridCandle) (backtestDays : Int) :
    let state := run config candles
    let gross := (state.slots.map GridSlot.grossProfit).sum
    let fees := config.makerFeePct * (state.slots.map GridSlot.turnover).sum
    let saleFees := config.makerFeePct * (state.slots.map GridSlot.saleTurnover).sum
    state.totalGrossProfit = gross ∧ state.totalFeesPaid = fees ∧
      (state.slots.map GridSlot.realizedPnlUsdt).sum = gross - saleFees ∧
      (∀ i < candles.length, List.Forall₂ (fun slot slot' : GridSlot =>
          slot'.completedCycles = slot.completedCycles ∨
            slot'.completedCycles = slot.completedCycles + 1)
        (stateAfter config candles i).slots (stateAfter config candles (i + 1)).slots) ∧
      state = stateAfter config candles candles.length ∧
      (GridMetrics.evaluateGridBacktest state config backtestDays).netPnlUsdt = gross - fees ∧
      (GridMetrics.evaluateGridBacktest state config backtestDays).completedCycles =
        (state.slots.map GridSlot.completedCycles).sum := by
  have hbalanced := stateAfter_balanced config candles candles.length
  have hconfig := stateAfter_config config candles candles.length
  rw [← run_eq_stateAfter] at hbalanced hconfig
  obtain ⟨hgross, hfees, hrealized⟩ := hbalanced
  rw [hconfig] at hfees hrealized
  intro state gross fees saleFees
  refine ⟨hgross, hfees, ?_, fun i hi => stateAfter_cycles config candles hi,
    run_eq_stateAfter config candles, ?_, rfl⟩
  · have hsum : (state.slots.map GridSlot.realizedPnlUsdt).sum +
        (state.slots.map fun slot => config.makerFeePct * slot.saleTurnover).sum = gross := by
      rw [← List.sum_map_add]
      refine congrArg List.sum (List.map_congr_left fun slot hmem => ?_)
      rw [hrealized slot hmem, sub_add_cancel]
    rw [List.sum_map_mul_left] at hsum
    exact eq_sub_of_add_eq hsum
  · change state.totalGrossProfit - state.totalFeesPaid = gross - fees
    rw [hgross, hfees]

end AmaExecutionCore
