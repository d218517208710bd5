import AmaExecutionCore.SimulationExits
import Mathlib.Algebra.Order.Field.Basic
import Mathlib.Tactic.Linarith

/-! The exit of a simulated trade is at the first candle that touches one of its levels. -/
namespace AmaExecutionCore

def PreparedExecution.touched (prepared : PreparedExecution) (direction : SignalDirection)
    (candle : MarketCandle Rat) : Bool :=
  prepared.stopHit direction candle || prepared.targetHit direction candle

namespace SimulationExecutionService

variable {service : SimulationExecutionService} {ρ : Type} {random : ρ → Rat × ρ}
  {signal : ExecuteSignalRequest Rat} {step : Int} {prepared : PreparedExecution} {rng : ρ}
  {index : Nat} {candle first : MarketCandle Rat} {candles rest before after : List (MarketCandle Rat)}

def exitAt (service : SimulationExecutionService) {ρ : Type} (random : ρ → Rat × ρ)
    (signal : ExecuteSignalRequest Rat) (candle : MarketCandle Rat) (index : Nat) (step : Int)
    (prepared : PreparedExecution) (rng : ρ) : SimulationExecutionResult × ρ :=
  let holdCandles : Int := index + 1
  if prepared.stopHit signal.direction candle then
    (service.buildStopResult signal candle.openPrice holdCandles (step + holdCandles) prepared
      (prepared.targetHit signal.direction candle), rng)
  else service.buildTargetResult random signal holdCandles (step + holdCandles) prepared rng

theorem evaluateCandleExit_eq :
    service.evaluateCandleExit random signal candle index step prepared rng =
      if prepared.touched signal.direction candle then
        some (service.exitAt random signal candle index step prepared rng) else none := by
  unfold evaluateCandleExit PreparedExecution.touched exitAt
  cases prepared.stopHit signal.direction candle <;>
    cases prepared.targetHit signal.direction candle <;> rfl

theorem firstExit_untouched (h : ∀ c ∈ candles, prepared.touched signal.direction c = false) :
    service.firstExit random signal step prepared rng index candles = none := by
  induction candles generalizing index with
  | nil => rfl
  | cons c candles ih =>
    unfold firstExit
    rw [evaluateCandleExit_eq, h c List.mem_cons_self]
    exact ih fun c' hc' => h c' (List.mem_cons_of_mem c hc')

theorem firstExit_touched (h : ∀ c ∈ before, prepared.touched signal.direction c = false)
    (hcandle : prepared.touched signal.direction candle = true) :
    service.firstExit random signal step prepared rng index (before ++ candle :: after) =
      some (service.exitAt random signal candle (index + before.length) step prepared rng) := by
  induction before generalizing index with
  | nil =>
    rw [List.nil_append, firstExit, evaluateCandleExit_eq, hcandle]
    rfl
  | cons c before ih =>
    rw [List.cons_append, firstExit, evaluateCandleExit_eq, h c List.mem_cons_self]
    have hindex : index + (c :: before).length = index + 1 + before.length := by
      rw [List.length_cons]
      omega
    rw [hindex]
    exact ih fun c' hc' => h c' (List.mem_cons_of_mem c hc')

/-- Of the candles that the trade may stay open for, none touches a level, or one is the first. -/
theorem touched_cases (prepared : PreparedExecution) (direction : SignalDirection)
    (candles : List (MarketCandle Rat)) :
    (∀ c ∈ candles, prepared.touched direction c = false) ∨
    ∃ before candle after, candles = before ++ candle :: after ∧
      (∀ c ∈ before, prepared.touched direction c = false) ∧
      prepared.touched direction candle = true := by
  cases hfind : candles.find? (prepared.touched direction) with
  | none =>
    left
    intro c hc
    simpa using List.find?_eq_none.mp hfind c hc
  | some candle =>
    obtain ⟨htouch, before, after, hsplit, hbefore⟩ := List.find?_eq_some_iff_append.mp hfind
    refine .inr ⟨before, candle, after, hsplit, ?_, htouch⟩
    intro c hc
    simpa using hbefore c hc

theorem exitOf_untouched (h : ∀ c ∈ takeSlice service.maxHoldCandles candles,
      prepared.touched signal.direction c = false) :
    service.exitOf random signal candles step prepared rng =
      (service.buildTimeoutResult signal candles step prepared, rng) := by
  unfold exitOf
  rw [firstExit_untouched h]

theorem exitOf_touched (hslice : takeSlice service.maxHoldCandles candles = before ++ candle :: after)
    (h : ∀ c ∈ before, prepared.touched signal.direction c = false)
    (hcandle : prepared.touched signal.direction candle = true) :
    service.exitOf random signal candles step prepared rng =
      (.ok (service.exitAt random signal candle before.length step prepared rng).1,
        (service.exitAt random signal candle before.length step prepared rng).2) := by
  unfold exitOf
  rw [hslice, firstExit_touched h hcandle, Nat.zero_add]

/-! From the signal to its execution -/

/-- What an execution takes from the signal and the first candle. -/
structure Prepared (service : SimulationExecutionService) (signal : ExecuteSignalRequest Rat)
    (first : MarketCandle Rat) (prepared : PreparedExecution) : Prop where
  stop : prepared.stop = signal.stop
  target : prepared.target = signal.target
  raw : prepared.rawEntryPrice = service.resolveEntryPrice signal first
  entry : ∃ isMaker, prepared.entryPrice = service.applySpread prepared.rawEntryPrice
    (entrySide signal.direction) (service.fillTerms isMaker).2
  qty : 0 < prepared.qty

structure Unexecuted (service : SimulationExecutionService) (signal : ExecuteSignalRequest Rat)
    (result : SimulationExecutionResult) : Prop where
  qty : result.qty = 0
  reason : result.status = "skipped" ∨ result.entryPrice = signal.stop ∨ service.riskAmount ≤ 0

theorem Unexecuted.spotShort {result : SimulationExecutionResult}
    (h : result ∈ service.maybeSkipSpotShort signal step) : Unexecuted service signal result := by
  unfold maybeSkipSpotShort at h
  split_ifs at h
  · cases h
  · obtain rfl := Option.some.inj h
    exact ⟨rfl, .inl rfl⟩

theorem Unexecuted.spotConstraints {entryPrice qty : Rat} {result : SimulationExecutionResult}
    (h : result ∈ service.maybeSkipSpotConstraints signal step entryPrice qty) :
    Unexecuted service signal result := by
  unfold maybeSkipSpotConstraints at h
  dsimp only at h
  split_ifs at h
  · cases h
  · obtain rfl := Option.some.inj h
    exact ⟨rfl, .inl rfl⟩
  · obtain rfl := Option.some.inj h
    exact ⟨rfl, .inl rfl⟩
  · cases h

def riskedQty (service : SimulationExecutionService) (entryPrice stop : Rat) : Rat :=
  if service.decimals.abs (service.decimals.sub entryPrice stop) ≠ 0 then
    service.decimals.div service.riskAmount
      (service.decimals.abs (service.decimals.sub entryPrice stop))
  else 0

/-- A quantity that is not positive comes from an entry at the stop, or from no risk. -/
theorem Unexecuted.empty {entryPrice : Rat} (h : ¬ 0 < service.riskedQty entryPrice signal.stop) :
    Unexecuted service signal (emptyResult entryPrice step) := by
  refine ⟨rfl, .inr ?_⟩
  unfold riskedQty at h
  by_cases hrisk : service.decimals.abs (service.decimals.sub entryPrice signal.stop) = 0
  · left
    rw [DecimalContext.abs, DecimalContext.round_eq_zero_iff, abs_eq_zero, DecimalContext.sub,
      DecimalContext.round_eq_zero_iff] at hrisk
    exact sub_eq_zero.mp hrisk
  · right
    rw [if_pos hrisk] at h
    have hnonneg : 0 ≤ service.decimals.abs (service.decimals.sub entryPrice signal.stop) :=
      DecimalContext.round_nonneg_iff.mpr (abs_nonneg _)
    by_contra hpos
    exact h (service.decimals.round_pos
      (div_pos (not_le.mp hpos) (lt_of_le_of_ne hnonneg (Ne.symm hrisk))))

theorem prepareExecution_cases (service : SimulationExecutionService) (random : ρ → Rat × ρ)
    (signal : ExecuteSignalRequest Rat) (first : MarketCandle Rat) (step : Int) (rng : ρ) :
    (∃ result rng', service.prepareExecution random signal first step rng = (.inr result, rng') ∧
      Unexecuted service signal result) ∨
    ∃ prepared rng', service.prepareExecution random signal first step rng = (.inl prepared, rng') ∧
      Prepared service signal first prepared := by
  unfold prepareExecution
  dsimp only
  generalize service.makerFill random rng = fill
  obtain ⟨isMaker, rng'⟩ := fill
  dsimp only
  generalize hentry : service.applySpread (service.resolveEntryPrice signal first)
    (entrySide signal.direction) (service.fillTerms isMaker).2 = entryPrice
  generalize hrisked : (if service.decimals.abs (service.decimals.sub entryPrice signal.stop) ≠ 0
    then service.decimals.div service.riskAmount
      (service.decimals.abs (service.decimals.sub entryPrice signal.stop))
    else 0) = qty
  change service.riskedQty entryPrice signal.stop = qty at hrisked
  by_cases hqty : qty ≤ 0
  · rw [if_pos hqty]
    exact .inl ⟨_, rng', rfl, .empty (hrisked ▸ not_lt.mpr hqty)⟩
  · rw [if_neg hqty]
    cases hskip : service.maybeSkipSpotConstraints signal step entryPrice qty with
    | some skipped => exact .inl ⟨skipped, rng', rfl, .spotConstraints hskip⟩
    | none =>
      exact .inr ⟨_, rng', rfl, {
        stop := rfl
        target := rfl
        raw := rfl
        entry := ⟨isMaker, hentry.symm⟩
        qty := not_le.mp hqty }⟩

/-- A signal with candles is not executed, or prepared and held to its exit. -/
theorem executeReplaySignal_cases (service : SimulationExecutionService) (random : ρ → Rat × ρ)
    (signal : ExecuteSignalRequest Rat) (first : MarketCandle Rat) (rest : List (MarketCandle Rat))
    (step : Int) (rng : ρ) :
    (∃ result rng', service.executeReplaySignal random signal (first :: rest) step rng =
      (.ok result, rng') ∧ Unexecuted service signal result) ∨
    ∃ prepared rng', Prepared service signal first prepared ∧
      service.executeReplaySignal random signal (first :: rest) step rng =
        service.exitOf random signal (first :: rest) step prepared rng' := by
  unfold executeReplaySignal
  cases hskip : service.maybeSkipSpotShort signal step with
  | some skipped => exact .inl ⟨skipped, rng, rfl, .spotShort hskip⟩
  | none =>
    dsimp only
    obtain ⟨result, rng', hprepare, hresult⟩ | ⟨prepared, rng', hprepare, hprepared⟩ :=
      prepareExecution_cases service random signal first step rng
    · rw [hprepare]
      exact .inl ⟨result, rng', rfl, hresult⟩
    · rw [hprepare]
      exact .inr ⟨prepared, rng', hprepared, rfl⟩

/-! The definition of the exit that the loop is compared with -/

def StopTouched (signal : ExecuteSignalRequest Rat) (candle : MarketCandle Rat) : Prop :=
  match signal.direction with
  | .long => candle.low ≤ signal.stop
  | .short => signal.stop ≤ candle.high

def TargetTouched (signal : ExecuteSignalRequest Rat) (candle : MarketCandle Rat) : Prop :=
  match signal.direction with
  | .long => signal.target ≤ candle.high
  | .short => candle.low ≤ signal.target

/-- The exit is at the first candle of the window that reaches a level, the stop before the
target. -/
def TouchExit (signal : ExecuteSignalRequest Rat) (window : List (MarketCandle Rat))
    (result : SimulationExecutionResult) : Prop :=
  ∃ before candle after, window = before ++ candle :: after ∧
    (∀ c ∈ before, ¬ (StopTouched signal c ∨ TargetTouched signal c)) ∧
    result.holdCandles = before.length + 1 ∧
    ((StopTouched signal candle ∧ result.exitReason = "sl_hit" ∧
        (result.ambiguousCandle = true ↔ TargetTouched signal candle)) ∨
      (¬ StopTouched signal candle ∧ TargetTouched signal candle ∧
        result.exitReason = "tp_hit" ∧ result.ambiguousCandle = false))

/-- No candle of the window reaches a level, and the exit is at the close of the last one. -/
def TimeoutExit (service : SimulationExecutionService) (signal : ExecuteSignalRequest Rat)
    (window : List (MarketCandle Rat)) (result : SimulationExecutionResult) : Prop :=
  (∀ c ∈ window, ¬ (StopTouched signal c ∨ TargetTouched signal c)) ∧
    result.exitReason = "timeout" ∧ result.ambiguousCandle = false ∧
    result.holdCandles = window.length ∧
    ∃ candle ∈ window.getLast?, result.exitPrice = service.applySlippage candle.close signal.direction

/-- The exit is the first touch, or the timeout, of the candles that the trade may stay open for. -/
structure FirstTouchExit (service : SimulationExecutionService) (signal : ExecuteSignalRequest Rat)
    (candles : List (MarketCandle Rat)) (step : Int) (result : SimulationExecutionResult) : Prop where
  exit : TouchExit signal (candles.take service.maxHoldCandles.toNat) result ∨
    TimeoutExit service signal (candles.take service.maxHoldCandles.toNat) result
  held : result.closedAtStep - step = result.holdCandles
  least : 1 ≤ result.holdCandles
  most : result.holdCandles ≤ min service.maxHoldCandles candles.length

namespace Prepared
variable (h : Prepared service signal first prepared)
include h

theorem stopHit_iff : prepared.stopHit signal.direction candle = true ↔ StopTouched signal candle := by
  unfold PreparedExecution.stopHit StopTouched
  cases signal.direction <;> simp [h.stop]

theorem targetHit_iff :
    prepared.targetHit signal.direction candle = true ↔ TargetTouched signal candle := by
  unfold PreparedExecution.targetHit TargetTouched
  cases signal.direction <;> simp [h.target]

theorem touched_iff : prepared.touched signal.direction candle = true ↔
    StopTouched signal candle ∨ TargetTouched signal candle := by
  unfold PreparedExecution.touched
  rw [Bool.or_eq_true, h.stopHit_iff, h.targetHit_iff]

theorem untouched_iff : prepared.touched signal.direction candle = false ↔
    ¬ (StopTouched signal candle ∨ TargetTouched signal candle) := by
  rw [← Bool.not_eq_true, h.touched_iff]

/-- The exit at a candle is its stop when it reaches that, and its target otherwise. -/
theorem exitAt_reason (htouched : prepared.touched signal.direction candle = true) :
    (StopTouched signal candle ∧
      (service.exitAt random signal candle index step prepared rng).1.exitReason = "sl_hit" ∧
      ((service.exitAt random signal candle index step prepared rng).1.ambiguousCandle = true ↔
        TargetTouched signal candle)) ∨
    (¬ StopTouched signal candle ∧ TargetTouched signal candle ∧
      (service.exitAt random signal candle index step prepared rng).1.exitReason = "tp_hit" ∧
      (service.exitAt random signal candle index step prepared rng).1.ambiguousCandle = false) := by
  unfold exitAt
  by_cases hstop : prepared.stopHit signal.direction candle = true
  · rw [if_pos hstop]
    exact .inl ⟨h.stopHit_iff.mp hstop, rfl, h.targetHit_iff⟩
  · rw [if_neg hstop]
    have hnot : ¬ StopTouched signal candle := fun hcandle => hstop (h.stopHit_iff.mpr hcandle)
    exact .inr ⟨hnot, (h.touched_iff.mp htouched).resolve_left hnot, rfl, rfl⟩

end Prepared

/-- The exit at a candle is as many steps later as candles are held. -/
theorem exitAt_held :
    (service.exitAt random signal candle index step prepared rng).1.holdCandles = index + 1 ∧
    (service.exitAt random signal candle index step prepared rng).1.closedAtStep =
      step + (index + 1) := by
  unfold exitAt
  dsimp only
  split_ifs
  · exact ⟨rfl, rfl⟩
  · exact ⟨rfl, rfl⟩

/-- A signal that is not skipped, and does not enter at its stop, exits at the first touch. -/
theorem executeReplaySignal_firstTouch (service : SimulationExecutionService) (random : ρ → Rat × ρ)
    (signal : ExecuteSignalRequest Rat) (candles : List (MarketCandle Rat)) (step : Int) (rng : ρ)
    (hhold : 1 ≤ service.maxHoldCandles) (hrisk : 0 < service.riskAmount) (hne : candles ≠ []) :
    ∃ result rng', service.executeReplaySignal random signal candles step rng = (.ok result, rng') ∧
      (result.status = "skipped" ∨ result.entryPrice = signal.stop ∨
        FirstTouchExit service signal candles step result) := by
  obtain ⟨first, rest, rfl⟩ := List.exists_cons_of_ne_nil hne
  obtain ⟨result, rng', hresult, hunexecuted⟩ | ⟨prepared, rng', hprepared, hexit⟩ :=
    executeReplaySignal_cases service random signal first rest step rng
  · obtain hskipped | hentry | hzero := hunexecuted.reason
    · exact ⟨result, rng', hresult, .inl hskipped⟩
    · exact ⟨result, rng', hresult, .inr (.inl hentry)⟩
    · exact absurd hrisk (not_lt.mpr hzero)
  · rw [hexit]
    generalize first :: rest = candles at *
    have hslice := @takeSlice_of_pos service candles hhold
    have hwindow : ((candles.take service.maxHoldCandles.toNat).length : Int) =
        min service.maxHoldCandles candles.length := by
      rw [List.length_take]
      omega
    have hpos : 0 < candles.length := List.length_pos_iff.mpr hne
    obtain hnone | ⟨before, candle, after, hsplit, hbefore, htouched⟩ := touched_cases prepared
      signal.direction (candles.take service.maxHoldCandles.toNat)
    · obtain ⟨candle, hlast, htimeout⟩ := @buildTimeoutResult_window service signal step prepared
        candles hhold hne
      rw [exitOf_untouched (hslice ▸ hnone), htimeout]
      refine ⟨_, rng', rfl, .inr (.inr ?_)⟩
      exact {
        exit := .inr ⟨fun c hc => hprepared.untouched_iff.mp (hnone c hc), rfl, rfl, hwindow.symm,
          candle, hlast, rfl⟩
        held := by dsimp only [buildResult]; omega
        least := by dsimp only [buildResult]; omega
        most := le_rfl }
    · rw [exitOf_touched (hslice.trans hsplit) hbefore htouched]
      obtain ⟨hhold', hclose⟩ := @exitAt_held service ρ random signal step prepared rng'
        before.length candle
      have hcount : before.length + 1 ≤ (candles.take service.maxHoldCandles.toNat).length := by
        rw [hsplit, List.length_append, List.length_cons]
        omega
      refine ⟨_, _, rfl, .inr (.inr ?_)⟩
      exact {
        exit := .inl ⟨before, candle, after, hsplit,
          fun c hc => hprepared.untouched_iff.mp (hbefore c hc), hhold',
          hprepared.exitAt_reason htouched⟩
        held := by omega
        least := by omega
        most := by omega }

/-- Orders without costs: each fills as a maker. -/
def costFree : SimulationExecutionService where
  decimals := pythonContext
  maxHoldCandles := 2
  riskAmount := 100
  marketMode := .derivatives
  virtualEquity := 10000
  defaultMinNotional := 5
  minNotionalBySymbol := defaultSpotMinNotionals
  makerFeeRate := 0
  takerFeeRate := 0
  makerFillProbability := 1
  spreadBps := 0
  slippageBps := 0
  oneBarExecutionDelay := true

def longSignal : ExecuteSignalRequest Rat :=
  { symbol := "BTCUSDT", direction := .long, entry := 100, stop := 95, target := 110 }

def bar (openPrice high low close : Rat) : MarketCandle Rat :=
  { openedAt := 0, openPrice := openPrice, high := high, low := low, close := close, volume := 1 }

/-- The second candle falls through both levels. -/
theorem executeReplaySignal_firstTouch_demo : ∃ result rng',
    costFree.executeReplaySignal (fun rng : Nat => (1 / 2, rng + 1)) longSignal
        [bar 100 101 99 100, bar 100 111 94 100] 7 0 = (.ok result, rng') ∧
      FirstTouchExit costFree longSignal [bar 100 101 99 100, bar 100 111 94 100] 7 result := by
  obtain ⟨result, rng', hrun, hexit⟩ := executeReplaySignal_firstTouch costFree
    (fun rng : Nat => (1 / 2, rng + 1)) longSignal [bar 100 101 99 100, bar 100 111 94 100] 7 0
    (by decide) (by decide) (List.cons_ne_nil _ _)
  have hclosed : (costFree.executeReplaySignal (fun rng : Nat => (1 / 2, rng + 1)) longSignal
      [bar 100 101 99 100, bar 100 111 94 100] 7 0).1.toOption.map
        (fun result => (result.status, result.entryPrice)) = some ("closed", 100) := by decide +kernel
  rw [hrun] at hclosed
  obtain ⟨hstatus, hentry⟩ := Prod.mk.inj (Option.some.inj hclosed)
  obtain hskipped | hstop | hfirst := hexit
  · rw [hstatus] at hskipped
    exact absurd hskipped (by decide)
  · rw [hentry] at hstop
    exact absurd hstop (by decide +kernel)
  · exact ⟨result, rng', hrun, hfirst⟩

end SimulationExecutionService

end AmaExecutionCore
