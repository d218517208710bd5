import AmaExecutionCore.DivergenceWindows
import Mathlib.Analysis.SpecialFunctions.Log.Basic

/-! The strategies of return, and with them every strategy that the builders know. -/
namespace AmaExecutionCore
open Fallible

variable {K : Type} [Field K] [LinearOrder K] {snapshot : MarketSnapshot K}

namespace RSIDivergenceStrategy

variable (strategy : RSIDivergenceStrategy K)

variable [IsStrictOrderedRing K] {strategy} {swings : Swings K}

theorem bullishSignal_valid (htarget : 0 < strategy.targetRrr)
    (hmin : strategy.minRrr ≤ strategy.targetRrr)
    (hindex : 0 ≤ strategy.fullIndex snapshot.closes swings ∧
      strategy.fullIndex snapshot.closes swings < snapshot.candles.length) :
    YieldsValid strategy.minRrr (strategy.bullishSignal snapshot swings) := by
  have hlows : snapshot.lows.length = snapshot.candles.length := List.length_map _
  have hcloses : snapshot.closes.length = snapshot.candles.length := List.length_map _
  unfold bullishSignal
  refine (item_yields (by omega) (by omega)).bind fun low _ => ?_
  refine (item_yields (by omega) (by omega)).bind fun entry _ => ?_
  refine ratioCheck_yields (fun hstop => (sub_pos.mpr (not_le.mp hstop)).ne') fun hstop rrr => ?_
  have hrisk := sub_pos.mpr (not_le.mp hstop)
  have hreward := mul_pos htarget hrisk
  refine .ofLong rfl (sub_pos.mp hrisk) ?_ ?_
  · dsimp only [signal]
    linarith
  · dsimp only [signal]
    linarith [mul_le_mul_of_nonneg_right hmin hrisk.le]

theorem bearishSignal_valid (htarget : 0 < strategy.targetRrr)
    (hmin : strategy.minRrr ≤ strategy.targetRrr)
    (hindex : 0 ≤ strategy.fullIndex snapshot.closes swings ∧
      strategy.fullIndex snapshot.closes swings < snapshot.candles.length) :
    YieldsValid strategy.minRrr (strategy.bearishSignal snapshot swings) := by
  have hhighs : snapshot.highs.length = snapshot.candles.length := List.length_map _
  have hcloses : snapshot.closes.length = snapshot.candles.length := List.length_map _
  unfold bearishSignal
  refine (item_yields (by omega) (by omega)).bind fun high _ => ?_
  refine (item_yields (by omega) (by omega)).bind fun entry _ => ?_
  refine ratioCheck_yields (fun hstop => (sub_pos.mpr (not_le.mp hstop)).ne') fun hstop rrr => ?_
  have hrisk := sub_pos.mpr (not_le.mp hstop)
  have hreward := mul_pos htarget hrisk
  refine .ofShort rfl (sub_pos.mp hrisk) ?_ ?_
  · dsimp only [signal]
    linarith
  · dsimp only [signal]
    linarith [mul_le_mul_of_nonneg_right hmin hrisk.le]

variable (strategy) in
theorem generateSignal_valid (hperiod : 1 ≤ strategy.rsiPeriod)
    (htarget : 0 < strategy.targetRrr) (hmin : strategy.minRrr ≤ strategy.targetRrr)
    (hlength : strategy.requiredCandleCount ≤ snapshot.candles.length) :
    YieldsValid strategy.minRrr (strategy.generateSignal snapshot) := by
  have hcloses : snapshot.closes.length = snapshot.candles.length := List.length_map _
  have hbounds : strategy.rsiPeriod + strategy.swingLookback + strategy.swingWing * 2 + 5 ≤
      snapshot.candles.length := hlength
  have hsearch : strategy.searchSize = strategy.swingLookback + strategy.swingWing * 2 := rfl
  unfold generateSignal
  refine (validateSnapshot_yields hlength).bind fun _ _ => ?_
  refine (calculateRsi_yields hperiod (by omega)).bind fun rsi hrsi => ?_
  have hcount := hrsi.1
  have hwindow : (slice snapshot.closes strategy.searchSize 0).length = strategy.searchSize := by
    rw [length_slice _ (by omega)]
    omega
  have hrsiWindow : (slice rsi strategy.searchSize 0).length = strategy.searchSize := by
    rw [length_slice _ (by omega)]
    omega
  dsimp only
  generalize slice snapshot.closes strategy.searchSize 0 = searchCloses at hwindow
  generalize slice rsi strategy.searchSize 0 = searchRsi at hrsiWindow
  have hlengths := hwindow.trans hrsiWindow.symm
  have hindex : ∀ swings swingIdxs, ReadsSwings searchCloses searchRsi swingIdxs swings →
      0 ≤ strategy.fullIndex snapshot.closes swings ∧
        strategy.fullIndex snapshot.closes swings < snapshot.candles.length := by
    intro swings swingIdxs hreads
    have hswings := (List.getElem?_eq_some_iff.mp hreads.price).1
    unfold fullIndex
    omega
  have hbullish : YieldsValid strategy.minRrr
      (strategy.checkBullishDivergence snapshot searchCloses searchRsi) :=
    strategy.checkSwings_yields (swings_inside hlengths) fun swings hreads =>
      bullishSignal_valid htarget hmin (hindex swings _ hreads)
  have hbearish : YieldsValid strategy.minRrr
      (strategy.checkBearishDivergence snapshot searchCloses searchRsi) :=
    strategy.checkSwings_yields (swings_inside hlengths) fun swings hreads =>
      bearishSignal_valid htarget hmin (hindex swings _ hreads)
  refine Yields.bind hbullish fun bullish hvalid => ?_
  cases bullish with
  | none => exact hbearish
  | some signal => exact YieldsValid.signal (hvalid signal rfl)

end RSIDivergenceStrategy

namespace VWAPReversionStrategy

variable [IsStrictOrderedRing K] {strategy : VWAPReversionStrategy K}

/-- A signal whose stop and VWAP are on the right sides is valid if its reward is enough. -/
theorem signal_valid {direction : String} {entry stop vwap rsi atr : K}
    (h : direction = "long" ∧ stop < entry ∧ entry < vwap ∨
      direction = "short" ∧ entry < stop ∧ vwap < entry) :
    YieldsValid strategy.minRrr
      (strategy.signal snapshot direction entry stop vwap rsi atr) := by
  have hne : entry - stop ≠ 0 := by
    obtain ⟨_, hstop, _⟩ | ⟨_, hstop, _⟩ := h
    · exact (sub_pos.mpr hstop).ne'
    · exact (sub_neg.mpr hstop).ne
  have hpos := abs_pos.mpr hne
  have hmeets : Yields (strategy.rrrMeetsMinimum entry stop vwap) fun meets =>
      meets = true → strategy.minRrr * |entry - stop| ≤ |vwap - entry| := by
    unfold rrrMeetsMinimum
    dsimp only
    rw [if_neg hpos.ne']
    refine (divide_yields hpos.ne').bind fun rrr hrrr => .ok fun hmeets => ?_
    exact covers_of_ratio hpos hrrr (by simpa using hmeets)
  unfold signal
  refine hmeets.bind fun meets hreward => ?_
  split
  · rename_i htrue
    have hreward := hreward htrue
    obtain ⟨hdirection, hstop, htarget⟩ | ⟨hdirection, hstop, htarget⟩ := h
    · refine YieldsValid.signal (.ofLong hdirection hstop htarget ?_)
      rwa [abs_of_pos (sub_pos.mpr hstop), abs_of_pos (sub_pos.mpr htarget)] at hreward
    · refine YieldsValid.signal (.ofShort hdirection hstop htarget ?_)
      rwa [abs_sub_comm, abs_sub_comm vwap, abs_of_pos (sub_pos.mpr hstop),
        abs_of_pos (sub_pos.mpr htarget)] at hreward
  · exact YieldsValid.nothing _

variable (strategy) in
/-- The reversal that a signal asks for has moved the close, and with it the stop. -/
theorem generateSignal_valid (hrsi : 1 ≤ strategy.rsiPeriod)
    (hrsiLength : strategy.rsiPeriod < requiredCandleCount) (hatr : 1 ≤ strategy.atrPeriod)
    (hatrLength : strategy.atrPeriod < requiredCandleCount)
    (hdeviation : 0 ≤ strategy.minDeviation) (hregular : snapshot.Regular)
    (hlength : requiredCandleCount ≤ snapshot.candles.length) :
    YieldsValid strategy.minRrr (strategy.generateSignal snapshot) := by
  have hcloses : snapshot.closes.length = snapshot.candles.length := List.length_map _
  have hfifty : requiredCandleCount = 50 := rfl
  obtain ⟨init, previous, last, hends⟩ := exists_last_candles snapshot (by omega)
  have hlast : last.WellFormed := hregular.wellFormed last (by rw [hends]; simp)
  unfold generateSignal
  rw [if_neg (by omega)]
  split
  · exact .nothing _
  · refine (calculateIntradayVwap_yields hregular.wellFormed hregular.volume
      (List.ne_nil_of_length_pos (by omega))).bind fun found hfound => ?_
    cases found with
    | none => exact YieldsValid.nothing _
    | some vwap =>
      have hvwap := hfound vwap rfl
      have hmargin := mul_nonneg hvwap.le hdeviation
      dsimp only
      unfold vwapSignal
      refine (calculateRsi_yields hrsi (by omega)).bind fun rsi hrsiCount => ?_
      refine (calculateAtr_last hends hatr (by omega)).bind fun atrValues hvalues => ?_
      obtain ⟨atr, hitem, _, hpos⟩ := hvalues
      have hmoved : last.close ≠ previous.close → 0 < atr := fun hne =>
        hpos (trueRange_pos hlast.low_le_close hlast.close_le_high hne)
      rw [hitem, MarketSnapshot.closes, item_map_last (·.close) hends,
        item_map_previous (·.close) hends]
      refine (item_yields (by omega) (by omega)).bind fun currentRsi _ => ?_
      refine (divide_yields hvwap.ne').bind fun deviation _ => ?_
      split
      · rename_i hlong
        have hrisk := hmoved hlong.2.1.ne'
        exact signal_valid (.inl ⟨rfl, by linarith, by linarith [hlong.1]⟩)
      · split
        · rename_i hshort
          have hrisk := hmoved hshort.2.1.ne
          exact signal_valid (.inr ⟨rfl, by linarith, by linarith [hshort.1]⟩)
        · exact YieldsValid.nothing _

end VWAPReversionStrategy

namespace VWAPReversionStrategyV2

variable [IsStrictOrderedRing K] (fn : RealFunctions K) {strategy : VWAPReversionStrategyV2 K}

/-- What a strategy needs of its settings for its levels to make sense. -/
structure Sensible (strategy : VWAPReversionStrategyV2 K) : Prop where
  rsiPeriod : 1 ≤ strategy.rsiPeriod ∧ strategy.rsiPeriod < strategy.requiredCandleCount
  atrPeriod : 1 ≤ strategy.atrPeriod ∧ strategy.atrPeriod < strategy.requiredCandleCount
  adxPeriod : 1 ≤ strategy.regimeAdxPeriod
  multiplier : 0 ≤ strategy.atrStopMultiplier
  minRrr : 0 < strategy.minRrr
  costs : 0 ≤ strategy.makerFeeRate + strategy.takerFeeRate + strategy.spreadBps / 10000

theorem buildTradeLevels_yields (hsensible : strategy.Sensible) {entry atr vwap : K}
    (hentry : 0 < entry) (hatr : 0 ≤ atr) (direction : SignalDirection) :
    Yields (strategy.buildTradeLevels direction entry atr vwap) fun result =>
      ∀ levels, result = some levels → ∀ signal : StrategySignal K,
        signal.direction = directionText direction → signal.entry = entry →
        signal.stop = levels.stop → signal.target = levels.target →
        signal.Valid strategy.minRrr := by
  have hdistance := mul_nonneg hsensible.multiplier hatr
  have hcosts := mul_nonneg hentry.le hsensible.costs
  unfold buildTradeLevels
  dsimp only
  split
  · exact .nothing
  · rename_i hrisk
    have hpos : 0 < |entry - strategy.stopOf direction entry atr| :=
      lt_of_le_of_ne (abs_nonneg _) (Ne.symm hrisk)
    have hreward := mul_pos hpos hsensible.minRrr
    have hne : entry ≠ strategy.stopOf direction entry atr := sub_ne_zero.mp (abs_pos.mp hpos)
    split
    · exact .nothing
    · refine (divide_yields hrisk).bind fun rrr hrrr => ?_
      split
      · exact .nothing
      · rename_i hmin
        have hcovers := covers_of_ratio hpos hrrr hmin
        refine .ok fun levels hlevels signal hdirection hsentry hstop htarget => ?_
        cases hlevels
        subst hsentry
        dsimp only at hstop htarget
        rw [← hstop] at hpos hreward hcovers hne htarget
        rw [← htarget] at hcovers
        cases direction with
        | long =>
          have hbelow : signal.stop < signal.entry :=
            lt_of_le_of_ne (hstop ▸ sub_le_self _ hdistance) hne.symm
          have habove : signal.entry < signal.target := by
            rw [htarget]
            simp only [targetOf]
            linarith
          refine .ofLong hdirection hbelow habove ?_
          rwa [abs_of_pos (sub_pos.mpr hbelow), abs_of_pos (sub_pos.mpr habove)] at hcovers
        | short =>
          have habove : signal.entry < signal.stop :=
            lt_of_le_of_ne (hstop ▸ le_add_of_nonneg_right hdistance) hne
          have hbelow : signal.target < signal.entry := by
            rw [htarget]
            simp only [targetOf]
            linarith
          refine .ofShort hdirection habove hbelow ?_
          rwa [abs_sub_comm, abs_sub_comm signal.target, abs_of_pos (sub_pos.mpr habove),
            abs_of_pos (sub_pos.mpr hbelow)] at hcovers

omit [IsStrictOrderedRing K] in
theorem direction_yields {entry previousClose currentRsi vwap : K} (hvwap : vwap ≠ 0) :
    Yields (strategy.direction entry previousClose currentRsi vwap) fun _ => True := by
  unfold direction
  refine (divide_yields hvwap).bind fun deviation _ => ?_
  dsimp only
  split_ifs <;> exact .ok trivial

variable (strategy) in
theorem generateSignal_valid (hsensible : strategy.Sensible) (hregular : snapshot.Regular)
    (hlength : strategy.requiredCandleCount ≤ snapshot.candles.length) :
    YieldsValid strategy.minRrr (strategy.generateSignal fn snapshot) := by
  have hcloses : snapshot.closes.length = snapshot.candles.length := List.length_map _
  have hvolumes : snapshot.volumes.length = snapshot.candles.length := List.length_map _
  have hbounds : max 50 (strategy.regimeAdxPeriod + 15 + 1) ≤ snapshot.candles.length := hlength
  obtain ⟨hrsi, hrsiLength⟩ := hsensible.rsiPeriod
  obtain ⟨hatr, hatrLength⟩ := hsensible.atrPeriod
  have hadx := hsensible.adxPeriod
  obtain ⟨init, previous, last, hends⟩ := exists_last_candles snapshot (by omega)
  have hlast : last.WellFormed := hregular.wellFormed last (by rw [hends]; simp)
  unfold generateSignal
  dsimp only
  rw [if_neg (by omega)]
  split
  · exact .nothing _
  · refine (realizedVolatility_yields fn _ hregular.wellFormed).bind fun volatility _ => ?_
    split
    · have hadxValue : Yields (strategy.adxValue snapshot) fun _ => True := by
        unfold adxValue
        refine (detectRegime_yields hadx ?_).bind fun regime _ => .ok trivial
        rw [length_slice _ (by omega)]
        omega
      refine hadxValue.bind fun adx _ => ?_
      split
      · refine (calculateIntradayVwap_yields hregular.wellFormed hregular.volume
          (List.ne_nil_of_length_pos (by omega))).bind fun found hfound => ?_
        cases found with
        | none => exact YieldsValid.nothing _
        | some vwap =>
          have hvwap := hfound vwap rfl
          dsimp only
          unfold vwapSignal
          refine (calculateRsi_yields hrsi (by omega)).bind fun rsi hrsiCount => ?_
          refine (item_yields (by omega) (by omega)).bind fun currentRsi _ => ?_
          refine (calculateAtr_last hends hatr (by omega)).bind fun atrValues hvalues => ?_
          obtain ⟨atr, hitem, hnonneg, _⟩ := hvalues
          rw [hitem, MarketSnapshot.closes, item_map_last (·.close) hends,
            item_map_previous (·.close) hends]
          refine (direction_yields hvwap.ne').bind fun direction _ => ?_
          cases direction with
          | none => exact YieldsValid.nothing _
          | some direction =>
            have hconfirms : Yields (strategy.volumeConfirms snapshot.volumes) fun _ => True := by
              unfold volumeConfirms
              rw [if_neg (by omega)]
              exact volumeReaches_yields (column_ne_nil _ (by omega))
                (slice_column_ne_nil _ (by omega) (by omega))
            refine hconfirms.bind fun confirmed _ => ?_
            dsimp only
            split
            · exact YieldsValid.nothing _
            · refine (buildTradeLevels_yields hsensible hlast.close hnonneg direction).bind
                fun levels hlevels => ?_
              cases levels with
              | none => exact YieldsValid.nothing _
              | some levels =>
                exact YieldsValid.signal (hlevels levels rfl _ rfl rfl rfl rfl)
      · exact YieldsValid.nothing _
    · exact YieldsValid.nothing _

end VWAPReversionStrategyV2

section Defaults

variable [IsStrictOrderedRing K] (minRrr : K)

/-! The periods and factors that the builders leave at their defaults -/

omit [LinearOrder K] [IsStrictOrderedRing K] in
theorem EMACrossoverStrategy.slow_default :
    1 ≤ ({ minRrr := minRrr } : EMACrossoverStrategy K).slow := by
  norm_num

omit [LinearOrder K] [IsStrictOrderedRing K] in
theorem RSIDivergenceStrategy.rsiPeriod_default (targetRrr : K) :
    1 ≤ ({ minRrr := minRrr, targetRrr := targetRrr } : RSIDivergenceStrategy K).rsiPeriod := by
  norm_num

theorem VWAPReversionStrategy.defaults :
    let strategy : VWAPReversionStrategy K := { minRrr := minRrr }
    1 ≤ strategy.rsiPeriod ∧ strategy.rsiPeriod < requiredCandleCount ∧
      1 ≤ strategy.atrPeriod ∧ strategy.atrPeriod < requiredCandleCount ∧
      0 ≤ strategy.minDeviation := by
  norm_num [requiredCandleCount]

theorem VWAPReversionStrategyV2.sensible (hrrr : 0 < minRrr) :
    ({ minRrr := minRrr } : VWAPReversionStrategyV2 K).Sensible where
  rsiPeriod := by norm_num [requiredCandleCount]
  atrPeriod := by norm_num [requiredCandleCount]
  adxPeriod := by norm_num
  multiplier := by norm_num
  minRrr := hrrr
  costs := by norm_num

theorem EMAPullbackStrategy.defaults :
    let strategy : EMAPullbackStrategy K := { minRrr := minRrr }
    1 ≤ strategy.rsiPeriod ∧ strategy.rsiPeriod < strategy.requiredCandleCount ∧
      1 ≤ strategy.atrPeriod ∧ 0 < strategy.targetRMultiple ∧
      strategy.minTrendStrengthCandles ≤ strategy.requiredCandleCount := by
  norm_num [requiredCandleCount]

theorem BreakoutStrategy.defaults :
    let strategy : BreakoutStrategy K := { minRrr := minRrr }
    1 ≤ strategy.atrPeriod ∧ 1 ≤ strategy.lookbackPeriod ∧
      0 ≤ strategy.atrStopMultiplier := by
  norm_num

omit [LinearOrder K] [IsStrictOrderedRing K] in
theorem TSMomentumStrategy.atrPeriod_default :
    1 ≤ ({ minRrr := minRrr } : TSMomentumStrategy K).atrPeriod := by
  norm_num

omit [LinearOrder K] [IsStrictOrderedRing K] in
theorem BBSqueezeStrategy.defaults :
    let strategy : BBSqueezeStrategy K := { minRrr := minRrr }
    1 ≤ strategy.bbPeriod ∧ 1 ≤ strategy.atrPeriod := by
  norm_num

end Defaults

section Builders

variable [IsStrictOrderedRing K] (fn : RealFunctions K)

/-- Each builder that knows the name returns a strategy with valid signals. -/
def SignalsValid (minRrr : K) (strategy : BaseStrategy K) : Prop :=
  ∀ snapshot : MarketSnapshot K, snapshot.Regular →
    strategy.requiredCandleCount ≤ snapshot.candles.length →
    YieldsValid minRrr (strategy.generateSignal snapshot)

theorem buildDayTradingStrategy_valid {strategyName : String} {minRrr : K}
    {strategy : BaseStrategy K}
    (h : buildDayTradingStrategy strategyName minRrr = .ok strategy) :
    SignalsValid minRrr strategy := by
  unfold buildDayTradingStrategy at h
  split at h
  · cases h
    intro snapshot _ hlength
    exact EMACrossoverStrategy.generateSignal_valid _ (EMACrossoverStrategy.slow_default minRrr)
      hlength
  · cases h

theorem buildScalpingStrategy_valid {strategyName : String} {minRrr : K} (hrrr : 0 < minRrr)
    {strategy : BaseStrategy K} (h : buildScalpingStrategy fn strategyName minRrr = .ok strategy) :
    SignalsValid minRrr strategy := by
  unfold buildScalpingStrategy at h
  dsimp only at h
  split at h
  · cases h
    intro snapshot _ hlength
    have htarget : (0 : K) < max (3 / 2) minRrr := lt_max_of_lt_right hrrr
    exact RSIDivergenceStrategy.generateSignal_valid _
      (RSIDivergenceStrategy.rsiPeriod_default minRrr (max (3 / 2) minRrr)) htarget
      (le_max_right _ _) hlength
  split at h
  · cases h
    intro snapshot hregular hlength
    obtain ⟨hrsi, hrsiLength, hatr, hatrLength, hdeviation⟩ :=
      VWAPReversionStrategy.defaults minRrr
    exact VWAPReversionStrategy.generateSignal_valid _ hrsi hrsiLength hatr hatrLength hdeviation
      hregular hlength
  split at h
  · cases h
    intro snapshot hregular hlength
    exact VWAPReversionStrategyV2.generateSignal_valid fn _
      (VWAPReversionStrategyV2.sensible minRrr hrrr) hregular hlength
  split at h
  · cases h
    intro snapshot _ hlength
    obtain ⟨hrsi, hrsiLength, hatr, htarget, hstrength⟩ := EMAPullbackStrategy.defaults minRrr
    exact EMAPullbackStrategy.generateSignal_valid _ hrsi hrsiLength hatr htarget hstrength hlength
  split at h
  · cases h
    intro snapshot hregular hlength
    obtain ⟨hatr, hlookback, hmultiplier⟩ := BreakoutStrategy.defaults minRrr
    exact BreakoutStrategy.generateSignal_valid fn _ hatr hlookback hmultiplier hrrr hregular
      hlength
  split at h
  · cases h
    intro snapshot hregular hlength
    exact TSMomentumStrategy.generateSignal_valid fn _ (TSMomentumStrategy.atrPeriod_default minRrr)
      hrrr hregular hlength
  split at h
  · cases h
    intro snapshot hregular hlength
    obtain ⟨hperiod, hatr⟩ := BBSqueezeStrategy.defaults minRrr
    exact BBSqueezeStrategy.generateSignal_valid fn _ hperiod hatr hrrr hregular hlength
  · cases h

end Builders

/-- On regular candles that were not traded backwards, every strategy that a builder returns
raises nothing, and its signals have stop and target on the right sides. -/
theorem generateSignal_geometry [IsStrictOrderedRing K] (fn : RealFunctions K)
    (strategyName : String) (minRrr : K) (strategy : BaseStrategy K) (snapshot : MarketSnapshot K)
    (hrrr : 0 < minRrr)
    (hbuilt : buildDayTradingStrategy strategyName minRrr = .ok strategy ∨
      buildScalpingStrategy fn strategyName minRrr = .ok strategy)
    (hregular : snapshot.Regular)
    (hlength : strategy.requiredCandleCount ≤ snapshot.candles.length) :
    YieldsValid minRrr (strategy.generateSignal snapshot) := by
  obtain hday | hscalping := hbuilt
  · exact buildDayTradingStrategy_valid hday snapshot hregular hlength
  · exact buildScalpingStrategy_valid fn hrrr hscalping snapshot hregular hlength

noncomputable def realFunctions : RealFunctions ℝ := ⟨Real.log, Real.sqrt⟩

def flatCandle (price volume : K) : MarketCandle K :=
  { openedAt := 0, openPrice := price, high := price, low := price, close := price
    volume := volume }

theorem flatCandle_wellFormed {price volume : K} (h : 0 < price) :
    (flatCandle price volume).WellFormed :=
  ⟨h, h, h, h, le_rfl, le_rfl, le_rfl, le_rfl⟩

/-- The last of 22 candles closes above the others. -/
def crossingSnapshot : MarketSnapshot ℝ :=
  { symbol := "BTCUSDT"
    interval := "15"
    candles := List.replicate 21 (flatCandle 100 1) ++
      [{ flatCandle 100 1 with high := 155, low := 99, close := 155 }] }

def crossingSignal : StrategySignal ℝ :=
  { symbol := "BTCUSDT", direction := "long", entry := 155, stop := 99, target := 267
    reason := some "ema_9_21_crossover"
    strategyVersion := some "ema-crossover-9-21"
    indicatorsSnapshot := some [("ema_fast", 111), ("ema_slow", 105), ("rrr", 2)] }

theorem generateSignal_geometry_crossing : ∃ strategy : BaseStrategy ℝ,
    buildDayTradingStrategy "ema_crossover" 2 = .ok strategy ∧
    strategy.generateSignal crossingSnapshot = .ok (some crossingSignal) ∧
    crossingSignal.Valid 2 := by
  have hcloses : crossingSnapshot.closes = List.replicate (20 + 1) (100 : ℝ) ++ [155] := rfl
  let strategy : EMACrossoverStrategy ℝ := { minRrr := 2 }
  have hsignal : strategy.generateSignal crossingSnapshot = .ok (some crossingSignal) := by
    have hvalid : validateSnapshot strategy.requiredCandleCount crossingSnapshot = .ok () := rfl
    have hlow : item crossingSnapshot.lows (-1) = .ok 99 := rfl
    have hprevious (ema : ℝ) : item (List.replicate (20 + 1) 100 ++ [ema]) (-2) = .ok 100 := rfl
    have hcurrent (ema : ℝ) : item (List.replicate (20 + 1) 100 ++ [ema]) (-1) = .ok ema := rfl
    simp only [EMACrossoverStrategy.generateSignal, hvalid, hcloses, calculateEma_flat, hprevious,
      hcurrent, hlow, Except.bind, bind]
    norm_num [EMACrossoverStrategy.signal, buildStrategySignal, divide, crossingSignal]
    have hreason : toString "ema_" ++ Nat.repr 9 ++ toString "_" ++ Nat.repr 21 ++
        toString "_crossover" = "ema_9_21_crossover" := by decide +kernel
    have hversion : toString "ema-crossover-" ++ Nat.repr 9 ++ toString "-" ++ Nat.repr 21 =
        "ema-crossover-9-21" := by decide +kernel
    rw [hreason, hversion]
    exact if_neg (lt_irrefl _)
  have hcandles : ∀ candle ∈ crossingSnapshot.candles,
      candle.WellFormed ∧ 0 ≤ candle.volume := by
    intro candle hcandle
    obtain hcandle | hcandle := List.mem_append.mp hcandle
    · rw [List.eq_of_mem_replicate hcandle]
      exact ⟨flatCandle_wellFormed (by norm_num), zero_le_one⟩
    · rw [List.mem_singleton.mp hcandle]
      exact ⟨by constructor <;> norm_num [flatCandle], zero_le_one⟩
  have hregular : crossingSnapshot.Regular :=
    ⟨fun candle hcandle => (hcandles candle hcandle).1,
      fun candle hcandle => (hcandles candle hcandle).2⟩
  obtain ⟨result, hresult, hvalid⟩ := generateSignal_geometry realFunctions "ema_crossover" 2 _
    crossingSnapshot two_pos (.inl rfl) hregular (Nat.le_of_ble_eq_true rfl)
  refine ⟨_, rfl, hsignal, hvalid _ ?_⟩
  exact Except.ok.inj (hresult.symm.trans hsignal)

theorem VWAPReversionStrategy.vwapSignal_zero (strategy : VWAPReversionStrategy K)
    (snapshot : MarketSnapshot K) (P : Option (StrategySignal K) → Prop) :
    ¬ Yields (strategy.vwapSignal snapshot 0) P := by
  intro hyields
  obtain ⟨result, h, _⟩ := hyields
  unfold vwapSignal at h
  obtain ⟨_, _, h⟩ := bind_ok h
  obtain ⟨_, _, h⟩ := bind_ok h
  obtain ⟨_, _, h⟩ := bind_ok h
  obtain ⟨_, _, h⟩ := bind_ok h
  obtain ⟨_, _, h⟩ := bind_ok h
  obtain ⟨_, _, h⟩ := bind_ok h
  obtain ⟨_, hdivide, _⟩ := bind_ok h
  rw [divide, if_pos rfl] at hdivide
  cases hdivide

/-- Two candles whose volumes, one of them negative, cancel in the VWAP. -/
def cancellingSnapshot : MarketSnapshot ℝ :=
  { symbol := "BTCUSDT"
    interval := "15"
    candles := List.replicate 48 (flatCandle 100 0) ++ [flatCandle 100 2, flatCandle 200 (-1)] }

theorem generateSignal_negativeVolume : ∃ strategy : BaseStrategy ℝ,
    buildScalpingStrategy realFunctions "vwap_reversion" 1 = .ok strategy ∧
    (∀ candle ∈ cancellingSnapshot.candles, candle.WellFormed) ∧
    strategy.requiredCandleCount ≤ cancellingSnapshot.candles.length ∧
    ¬ YieldsValid 1 (strategy.generateSignal cancellingSnapshot) := by
  have hvwap : calculateIntradayVwap cancellingSnapshot = .ok (some 0) := by
    simp only [calculateIntradayVwap, cancellingSnapshot, List.getLast?_append, List.filter_append,
      List.filter_replicate]
    norm_num [flatCandle, MarketCandle.date, typicalPrice, divide]
  have hcount : ¬ countCurrentUtcDayCandles cancellingSnapshot < 12 := by
    simp only [countCurrentUtcDayCandles, cancellingSnapshot, List.getLast?_append,
      List.countP_append, List.countP_replicate]
    norm_num [flatCandle, MarketCandle.date]
  refine ⟨_, rfl, ?_, ?_, ?_⟩
  · intro candle hcandle
    obtain hcandle | hcandle := List.mem_append.mp hcandle
    · rw [List.eq_of_mem_replicate hcandle]
      exact flatCandle_wellFormed (by norm_num)
    · obtain rfl | rfl : candle = flatCandle 100 2 ∨ candle = flatCandle 200 (-1) := by
        simpa using hcandle
      · exact flatCandle_wellFormed (by norm_num)
      · exact flatCandle_wellFormed (by norm_num)
  · exact Nat.le_of_ble_eq_true rfl
  · intro hvalid
    have hlength : ¬ cancellingSnapshot.candles.length <
        VWAPReversionStrategy.requiredCandleCount := by
      exact Nat.not_lt.mpr (Nat.le_of_ble_eq_true rfl)
    simp only [VWAPReversionStrategy.generateSignal, if_neg hlength, if_neg hcount, hvwap] at hvalid
    exact VWAPReversionStrategy.vwapSignal_zero _ _ _ hvalid

end AmaExecutionCore
