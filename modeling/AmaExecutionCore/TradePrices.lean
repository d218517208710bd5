import AmaExecutionCore.FirstTouch
import Mathlib.Tactic.Ring

/-! The prices of a trade as its direction values them: a long is better off the higher its exit, a
short the lower, and both sides are one case. -/
namespace AmaExecutionCore

/-- What a price is worth to a direction. -/
def worth (direction : SignalDirection) (price : Rat) : Rat :=
  match direction with
  | .long => price
  | .short => -price

/-- The extreme of a candle that is near the stop. -/
def worst (direction : SignalDirection) (candle : MarketCandle Rat) : Rat :=
  match direction with
  | .long => candle.low
  | .short => candle.high

/-- The extreme of a candle that is near the target. -/
def best (direction : SignalDirection) (candle : MarketCandle Rat) : Rat :=
  match direction with
  | .long => candle.high
  | .short => candle.low

namespace SimulationExecutionService

variable {service : SimulationExecutionService} {signal : ExecuteSignalRequest Rat}
  {candle : MarketCandle Rat}

theorem stopTouched_iff : StopTouched signal candle ↔
    worth signal.direction (worst signal.direction candle) ≤ worth signal.direction signal.stop := by
  unfold StopTouched worth worst
  cases signal.direction
  · exact Iff.rfl
  · exact neg_le_neg_iff.symm

theorem targetTouched_iff : TargetTouched signal candle ↔
    worth signal.direction signal.target ≤ worth signal.direction (best signal.direction candle) := by
  unfold TargetTouched worth best
  cases signal.direction
  · exact Iff.rfl
  · exact neg_le_neg_iff.symm

/-- The result of a trade is the rounded product of what the prices are worth apart. -/
theorem calculateRealizedPnl_worth (direction : SignalDirection) (entryPrice exitPrice : Rat)
    {qty : Rat} (h : 0 < qty) : service.calculateRealizedPnl direction entryPrice exitPrice qty =
      service.decimals.mul
        (service.decimals.sub (worth direction exitPrice) (worth direction entryPrice)) qty := by
  unfold calculateRealizedPnl worth
  rw [if_neg (not_le.mpr h)]
  cases direction
  · rfl
  · simp only [reduceCtorEq, if_false, DecimalContext.sub]
    rw [show -exitPrice - -entryPrice = entryPrice - exitPrice by ring]

section Signs
variable {direction : SignalDirection} {entryPrice exitPrice qty : Rat}

/-- Rounding keeps the sign of a result. -/
theorem calculateRealizedPnl_nonneg_iff (h : 0 < qty) :
    0 ≤ service.calculateRealizedPnl direction entryPrice exitPrice qty ↔
      worth direction entryPrice ≤ worth direction exitPrice := by
  rw [calculateRealizedPnl_worth _ _ _ h, DecimalContext.mul, DecimalContext.round_nonneg_iff,
    mul_nonneg_iff_of_pos_right h, DecimalContext.sub, DecimalContext.round_nonneg_iff, sub_nonneg]

theorem calculateRealizedPnl_nonpos_iff (h : 0 < qty) :
    service.calculateRealizedPnl direction entryPrice exitPrice qty ≤ 0 ↔
      worth direction exitPrice ≤ worth direction entryPrice := by
  rw [calculateRealizedPnl_worth _ _ _ h, DecimalContext.mul, DecimalContext.round_nonpos_iff,
    ← not_lt, mul_pos_iff_of_pos_right h, not_lt, DecimalContext.sub,
    DecimalContext.round_nonpos_iff, sub_nonpos]

end Signs

theorem worth_resolveStopExitPrice (stop candleOpen : Rat) (direction : SignalDirection) :
    worth direction (resolveStopExitPrice stop candleOpen direction) =
      min (worth direction candleOpen) (worth direction stop) := by
  unfold resolveStopExitPrice worth
  cases direction
  · by_cases h : candleOpen < stop
    · simp [h, h.le]
    · simp [h, not_lt.mp h]
  · by_cases h : stop < candleOpen
    · simp [h, h.le]
    · simp [h, not_lt.mp h]

section Free
variable {price : Rat} (h : service.decimals.Holds price)
include h

theorem applySlippage_free (hslip : service.slippageBps = 0) (direction : SignalDirection) :
    service.applySlippage price direction = price := by
  unfold DecimalContext.Holds at h
  cases direction <;>
    simp [applySlippage, hslip, DecimalContext.mul, DecimalContext.div, DecimalContext.sub,
      DecimalContext.add, h]

theorem applySpread_free (side : ExecutionSide) : service.applySpread price side 0 = price := by
  unfold DecimalContext.Holds at h
  cases side <;>
    simp [applySpread, DecimalContext.mul, DecimalContext.div, DecimalContext.sub,
      DecimalContext.add, h]

end Free

/-- In exact arithmetic slippage costs the same part of the price in both directions. -/
theorem worth_applySlippage (h : service.decimals = .exact) (price : Rat)
    (direction : SignalDirection) : worth direction (service.applySlippage price direction) =
      worth direction price - price * service.slippageBps / 10000 := by
  unfold applySlippage worth
  cases direction
  · simp [h]
  · simp [h]
    ring

end SimulationExecutionService

end AmaExecutionCore
