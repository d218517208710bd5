import AmaExecutionCore.IndicatorFacts
import AmaExecutionCore.ReversionStrategies

/-! Every strategy puts its stop and its target on the right sides of its entry. -/
namespace AmaExecutionCore
open Fallible

variable {K : Type} [Field K] [LinearOrder K]

/-- Stop, entry and target stand in the order of the direction, and the reward is large enough. -/
structure StrategySignal.Valid (minRrr : K) (signal : StrategySignal K) : Prop where
  direction : signal.direction = "long" ∨ signal.direction = "short"
  long : signal.direction = "long" → signal.stop < signal.entry ∧ signal.entry < signal.target
  short : signal.direction = "short" → signal.target < signal.entry ∧ signal.entry < signal.stop
  reward : minRrr * |signal.entry - signal.stop| ≤ |signal.target - signal.entry|

/-- The computation raises nothing, and a signal it yields is valid. -/
def YieldsValid (minRrr : K) (outcome : Except PyError (Option (StrategySignal K))) : Prop :=
  Yields outcome fun result => ∀ signal, result = some signal → signal.Valid minRrr

theorem YieldsValid.nothing (minRrr : K) : YieldsValid minRrr (.ok none) := Yields.nothing

theorem YieldsValid.signal {minRrr : K} {signal : StrategySignal K} (h : signal.Valid minRrr) :
    YieldsValid minRrr (.ok (some signal)) := Yields.found h

/-- What a check of the risk and of its ratio to the reward lets through has the property, if
every signal that is built has it. -/
theorem ratioCheck_yields {stopped : Prop} [Decidable stopped] {risk reward minimum : K}
    {signal : K → StrategySignal K} {P : StrategySignal K → Prop} (hrisk : ¬ stopped → risk ≠ 0)
    (h : ¬ stopped → ∀ rrr, P (signal rrr)) :
    Yields (if stopped then return none else do
      let rrr ← divide reward risk
      if rrr < minimum then return none else return some (signal rrr))
      fun result => ∀ found, result = some found → P found := by
  by_cases hstopped : stopped
  · rw [if_pos hstopped]
    exact .nothing
  · rw [if_neg hstopped]
    refine (divide_yields (hrisk hstopped)).bind fun rrr _ => ?_
    split
    · exact .nothing
    · exact .found (h hstopped rrr)

section Geometry

variable [IsStrictOrderedRing K] {minRrr : K} {signal : StrategySignal K}

theorem StrategySignal.Valid.ofLong (hdirection : signal.direction = "long")
    (hstop : signal.stop < signal.entry) (htarget : signal.entry < signal.target)
    (hreward : minRrr * (signal.entry - signal.stop) ≤ signal.target - signal.entry) :
    signal.Valid minRrr := by
  refine ⟨.inl hdirection, fun _ => ⟨hstop, htarget⟩, fun hshort => ?_, ?_⟩
  · exact absurd (hdirection.symm.trans hshort) (by decide)
  · rw [abs_of_pos (sub_pos.mpr hstop), abs_of_pos (sub_pos.mpr htarget)]
    exact hreward

theorem StrategySignal.Valid.ofShort (hdirection : signal.direction = "short")
    (hstop : signal.entry < signal.stop) (htarget : signal.target < signal.entry)
    (hreward : minRrr * (signal.stop - signal.entry) ≤ signal.entry - signal.target) :
    signal.Valid minRrr := by
  refine ⟨.inr hdirection, fun hlong => ?_, fun _ => ⟨htarget, hstop⟩, ?_⟩
  · exact absurd (hdirection.symm.trans hlong) (by decide)
  · rw [abs_sub_comm, abs_sub_comm signal.target, abs_of_pos (sub_pos.mpr hstop),
      abs_of_pos (sub_pos.mpr htarget)]
    exact hreward

/-- A reward that is not refused for its size covers the risk `minRrr` times. -/
theorem covers_of_ratio {risk reward rrr : K} (hrisk : 0 < risk) (hrrr : rrr = reward / risk)
    (hmin : ¬ rrr < minRrr) : minRrr * risk ≤ reward := by
  rw [hrrr, not_lt, le_div_iff₀ hrisk] at hmin
  exact hmin

/-- A signal whose stop and target are on the right sides is valid if it is built at all. -/
theorem buildStrategySignal_valid (indicators : K → List (String × K))
    (h : signal.entry ≠ signal.stop →
      signal.direction = "long" ∧ signal.stop < signal.entry ∧ signal.entry < signal.target ∨
      signal.direction = "short" ∧ signal.entry < signal.stop ∧ signal.target < signal.entry) :
    YieldsValid minRrr (buildStrategySignal minRrr signal indicators) := by
  unfold buildStrategySignal
  dsimp only
  split
  · exact .nothing minRrr
  · rename_i hrisk
    have hpos : 0 < |signal.entry - signal.stop| := lt_of_le_of_ne (abs_nonneg _) (Ne.symm hrisk)
    refine (divide_yields hrisk).bind fun rrr hrrr => ?_
    split
    · exact YieldsValid.nothing minRrr
    · rename_i hmin
      have hreward := covers_of_ratio hpos hrrr hmin
      apply YieldsValid.signal
      obtain ⟨hdirection, hstop, htarget⟩ | ⟨hdirection, hstop, htarget⟩ :=
        h (sub_ne_zero.mp (abs_pos.mp hpos))
      · refine .ofLong hdirection hstop htarget ?_
        rwa [abs_of_pos (sub_pos.mpr hstop), abs_of_pos (sub_pos.mpr htarget)] at hreward
      · refine .ofShort hdirection hstop htarget ?_
        rwa [abs_sub_comm, abs_sub_comm signal.target, abs_of_pos (sub_pos.mpr hstop),
          abs_of_pos (sub_pos.mpr htarget)] at hreward

end Geometry

/-- A snapshot of regular candles, none traded backwards. -/
structure MarketSnapshot.Regular (snapshot : MarketSnapshot K) : Prop where
  wellFormed : ∀ candle ∈ snapshot.candles, candle.WellFormed
  volume : ∀ candle ∈ snapshot.candles, 0 ≤ candle.volume

section LastCandles

variable {snapshot : MarketSnapshot K} {init : List (MarketCandle K)}
  {previous last : MarketCandle K}

omit [Field K] [LinearOrder K] in
theorem exists_last_candles (snapshot : MarketSnapshot K) (h : 2 ≤ snapshot.candles.length) :
    ∃ init previous last, snapshot.candles = init ++ [previous, last] := by
  obtain hnil | ⟨front, last, hlast⟩ := List.eq_nil_or_concat snapshot.candles
  · rw [hnil, List.length_nil] at h
    omega
  · obtain hnil | ⟨init, previous, hprevious⟩ := List.eq_nil_or_concat front
    · rw [hlast, hnil, List.length_concat, List.length_nil] at h
      omega
    · refine ⟨init, previous, last, ?_⟩
      rw [hlast, hprevious]
      simp

omit [Field K] [LinearOrder K] in
theorem item_map_last {α : Type} (f : MarketCandle K → α)
    (h : snapshot.candles = init ++ [previous, last]) :
    item (snapshot.candles.map f) (-1) = .ok (f last) := by
  apply item_last
  rw [h]
  simp

omit [Field K] [LinearOrder K] in
theorem item_map_previous {α : Type} (f : MarketCandle K → α)
    (h : snapshot.candles = init ++ [previous, last]) :
    item (snapshot.candles.map f) (-2) = .ok (f previous) := by
  rw [h, List.map_append]
  exact item_previous _ _ _

omit [Field K] [LinearOrder K] in
theorem validateSnapshot_yields {minimum : Nat} (h : minimum ≤ snapshot.candles.length) :
    Yields (validateSnapshot minimum snapshot) fun _ => True := by
  simp only [validateSnapshot, MarketSnapshot.closes, MarketSnapshot.highs, MarketSnapshot.lows,
    List.length_map]
  rw [if_neg (by omega), if_neg (by omega)]
  exact .ok trivial

theorem volumeReaches_yields {multiplier : K} {volumes recent : List K} (hvolumes : volumes ≠ [])
    (hrecent : recent ≠ []) : Yields (volumeReaches multiplier volumes recent) fun _ => True := by
  have hlength := List.length_pos_iff.mpr hvolumes
  refine (median_yields hrecent).bind fun _ _ => ?_
  exact (item_yields (by omega) (by omega)).bind fun _ _ => .ok trivial

omit [Field K] [LinearOrder K] in
theorem emaItem_yields {ema : List K} {i : Int} (hema : ema.length = snapshot.closes.length)
    (hlow : -(snapshot.candles.length : Int) ≤ i) (hhigh : i < snapshot.candles.length) :
    Yields (item ema i) fun _ => True := by
  have hcloses : snapshot.closes.length = snapshot.candles.length := List.length_map _
  exact (item_yields (by omega) (by omega)).mono fun _ _ => trivial

omit [Field K] [LinearOrder K] in
theorem column_ne_nil {α : Type} (f : MarketCandle K → α) (h : 1 ≤ snapshot.candles.length) :
    snapshot.candles.map f ≠ [] := by
  apply List.ne_nil_of_length_pos
  rw [List.length_map]
  omega

omit [Field K] [LinearOrder K] in
theorem slice_column_ne_nil {α : Type} (f : MarketCandle K → α) {a b : Nat} (hab : b < a)
    (hb : b < snapshot.candles.length) : slice (snapshot.candles.map f) a b ≠ [] :=
  slice_ne_nil hab (by rwa [List.length_map])

end LastCandles

section Strategies

variable [IsStrictOrderedRing K] {snapshot : MarketSnapshot K} (fn : RealFunctions K)

theorem EMACrossoverStrategy.signal_valid (strategy : EMACrossoverStrategy K) {direction : String}
    {entry stop target emaFast emaSlow : K}
    (h : direction = "long" ∧ stop < entry ∧ entry < target ∨
      direction = "short" ∧ entry < stop ∧ target < entry) :
    YieldsValid strategy.minRrr
      (strategy.signal snapshot direction entry stop target emaFast emaSlow) :=
  buildStrategySignal_valid _ fun _ => h

theorem EMACrossoverStrategy.generateSignal_valid (strategy : EMACrossoverStrategy K)
    (hslow : 1 ≤ strategy.slow)
    (hlength : strategy.requiredCandleCount ≤ snapshot.candles.length) :
    YieldsValid strategy.minRrr (strategy.generateSignal snapshot) := by
  have htwo : 2 ≤ snapshot.candles.length := by
    unfold requiredCandleCount at hlength
    omega
  obtain ⟨init, previous, last, hends⟩ := exists_last_candles snapshot htwo
  have hne : snapshot.closes ≠ [] := column_ne_nil _ (by omega)
  unfold generateSignal
  refine (validateSnapshot_yields hlength).bind fun _ _ => ?_
  refine (calculateEma_yields _ hne).bind fun emaFast hfast => ?_
  refine (calculateEma_yields _ hne).bind fun emaSlow hslow => ?_
  refine (emaItem_yields hfast (by omega) (by omega)).bind fun previousFast _ => ?_
  refine (emaItem_yields hslow (by omega) (by omega)).bind fun previousSlow _ => ?_
  refine (emaItem_yields hfast (by omega) (by omega)).bind fun currentFast _ => ?_
  refine (emaItem_yields hslow (by omega) (by omega)).bind fun currentSlow _ => ?_
  rw [MarketSnapshot.closes, MarketSnapshot.lows, MarketSnapshot.highs,
    item_map_last (·.close) hends, item_map_last (·.low) hends, item_map_last (·.high) hends]
  change YieldsValid _ (if _ then _ else _)
  split
  · change YieldsValid _ (if _ then _ else _)
    split
    · exact .nothing _
    · rename_i hstop
      have hbelow := not_le.mp hstop
      exact strategy.signal_valid (.inl ⟨rfl, hbelow, by linarith⟩)
  · split
    · change YieldsValid _ (if _ then _ else _)
      split
      · exact .nothing _
      · rename_i hstop
        have habove := not_le.mp hstop
        exact strategy.signal_valid (.inr ⟨rfl, habove, by linarith⟩)
    · exact .nothing _

omit [Field K] [LinearOrder K] [IsStrictOrderedRing K] in
theorem BreakoutStrategy.baselineVolumes_ne_nil (h : 1 ≤ snapshot.candles.length) :
    BreakoutStrategy.baselineVolumes snapshot.volumes ≠ [] := by
  have hlength : snapshot.volumes.length = snapshot.candles.length := List.length_map _
  unfold baselineVolumes
  split
  · exact slice_ne_nil (by omega) (by omega)
  · exact slice_ne_nil (by omega) (by omega)

theorem BreakoutStrategy.breakoutSignal_valid (strategy : BreakoutStrategy K)
    (hatr : 1 ≤ strategy.atrPeriod) (hlookback : 1 ≤ strategy.lookbackPeriod)
    (hmultiplier : 0 ≤ strategy.atrStopMultiplier) (hrrr : 0 < strategy.minRrr)
    (hlength : strategy.requiredCandleCount ≤ snapshot.candles.length) :
    YieldsValid strategy.minRrr (strategy.breakoutSignal snapshot) := by
  unfold requiredCandleCount at hlength
  obtain ⟨init, previous, last, hends⟩ := exists_last_candles snapshot (by omega)
  unfold breakoutSignal
  refine (calculateEma_yields _ (column_ne_nil _ (by omega))).bind fun ema hema => ?_
  refine (emaItem_yields hema (by omega) (by omega)).bind fun currentEma _ => ?_
  refine (calculateAtr_last hends hatr (by omega)).bind fun atrValues hatr => ?_
  obtain ⟨atr, hitem, hnonneg, _⟩ := hatr
  rw [hitem, MarketSnapshot.closes, item_map_last (·.close) hends]
  refine (maximum_yields (slice_column_ne_nil _ (by omega) (by omega))).bind
    fun rangeHigh _ => ?_
  refine (minimum_yields (slice_column_ne_nil _ (by omega) (by omega))).bind
    fun rangeLow _ => ?_
  refine (volumeReaches_yields (column_ne_nil _ (by omega))
    (baselineVolumes_ne_nil (by omega))).bind fun reached _ => ?_
  have hdistance : 0 ≤ strategy.atrStopMultiplier * atr := mul_nonneg hmultiplier hnonneg
  split
  · apply buildStrategySignal_valid
    intro hne
    have hpos : 0 < |last.close - (last.close - strategy.atrStopMultiplier * atr)| :=
      abs_pos.mpr (sub_ne_zero.mpr hne)
    have hreward := mul_pos hrrr hpos
    refine .inl ⟨rfl, lt_of_le_of_ne (sub_le_self _ hdistance) hne.symm, ?_⟩
    dsimp only
    linarith
  · split
    · apply buildStrategySignal_valid
      intro hne
      have hpos : 0 < |last.close - (last.close + strategy.atrStopMultiplier * atr)| :=
        abs_pos.mpr (sub_ne_zero.mpr hne)
      have hreward := mul_pos hrrr hpos
      refine .inr ⟨rfl, lt_of_le_of_ne (le_add_of_nonneg_right hdistance) hne, ?_⟩
      dsimp only
      linarith
    · exact YieldsValid.nothing _

theorem BreakoutStrategy.generateSignal_valid (strategy : BreakoutStrategy K)
    (hatr : 1 ≤ strategy.atrPeriod) (hlookback : 1 ≤ strategy.lookbackPeriod)
    (hmultiplier : 0 ≤ strategy.atrStopMultiplier) (hrrr : 0 < strategy.minRrr)
    (hregular : snapshot.Regular)
    (hlength : strategy.requiredCandleCount ≤ snapshot.candles.length) :
    YieldsValid strategy.minRrr (strategy.generateSignal fn snapshot) := by
  unfold generateSignal
  refine (validateSnapshot_yields hlength).bind fun _ _ => ?_
  refine (realizedVolatility_yields fn _ hregular.wellFormed).bind fun volatility _ => ?_
  split
  · exact YieldsValid.nothing _
  · exact strategy.breakoutSignal_valid hatr hlookback hmultiplier hrrr hlength

theorem TSMomentumStrategy.computeMomentumScore_yields (strategy : TSMomentumStrategy K)
    (hatr : 1 ≤ strategy.atrPeriod) (hregular : snapshot.Regular)
    (hlength : strategy.requiredCandleCount ≤ snapshot.candles.length) :
    Yields (strategy.computeMomentumScore fn snapshot) fun _ => True := by
  have hbounds := hlength
  unfold requiredCandleCount at hbounds
  obtain ⟨init, previous, last, hends⟩ := exists_last_candles snapshot (by omega)
  unfold computeMomentumScore
  refine (validateSnapshot_yields hlength).bind fun _ _ => ?_
  refine (calculateEma_yields _ (column_ne_nil _ (by omega))).bind fun emaFast hfast => ?_
  refine (calculateEma_yields _ (column_ne_nil _ (by omega))).bind fun emaSlow hslow => ?_
  have hallowed : Yields (regimeAllows snapshot.closes emaFast emaSlow) fun _ => True := by
    unfold regimeAllows
    refine (emaItem_yields rfl (by omega) (by omega)).bind fun close _ => ?_
    refine (emaItem_yields hfast (by omega) (by omega)).bind fun fast _ => ?_
    refine (emaItem_yields hslow (by omega) (by omega)).bind fun slow _ => ?_
    refine (emaItem_yields hfast (by omega) (by omega)).bind fun previousFast _ => ?_
    exact (emaItem_yields hslow (by omega) (by omega)).bind fun previousSlow _ => .ok trivial
  refine hallowed.bind fun allowed _ => ?_
  split
  · exact .ok trivial
  · refine (realizedVolatility_yields fn _ hregular.wellFormed).bind fun volatility _ => ?_
    split
    · exact .ok trivial
    · refine (calculateAtr_last hends hatr (by omega)).bind fun atrValues hatr => ?_
      obtain ⟨atr, hitem, _, _⟩ := hatr
      rw [hitem]
      change Yields (if _ then _ else _) _
      split
      · exact .ok trivial
      · rename_i hpos
        refine Yields.bind (P := fun _ => True) ?_ fun momentum _ => ?_
        · have hall : ∀ pair ∈ slice (pairwise snapshot.closes) strategy.momentumLookback 0,
              0 < pair.1 ∧ 0 < pair.2 := fun pair hpair =>
            pairwise_pos (closes_pos hregular.wellFormed) pair (mem_of_mem_slice hpair)
          exact (returns_yields fn fun pair hpair =>
            hall pair (List.mem_of_mem_filter hpair)).bind fun returns _ => .ok trivial
        · exact (divide_yields (not_le.mp hpos).ne').bind fun score _ => .ok trivial

theorem TSMomentumStrategy.generateSignal_valid (strategy : TSMomentumStrategy K)
    (hatr : 1 ≤ strategy.atrPeriod) (hrrr : 0 < strategy.minRrr) (hregular : snapshot.Regular)
    (hlength : strategy.requiredCandleCount ≤ snapshot.candles.length) :
    YieldsValid strategy.minRrr (strategy.generateSignal fn snapshot) := by
  have hbounds := hlength
  unfold requiredCandleCount at hbounds
  obtain ⟨init, previous, last, hends⟩ := exists_last_candles snapshot (by omega)
  unfold generateSignal
  refine (strategy.computeMomentumScore_yields fn hatr hregular hlength).bind fun score _ => ?_
  cases score with
  | none => exact YieldsValid.nothing _
  | some score =>
    dsimp only
    unfold momentumSignal
    rw [MarketSnapshot.closes, item_map_last (·.close) hends]
    refine (volumeReaches_yields (column_ne_nil _ (by omega))
      (slice_column_ne_nil _ (by omega) (by omega))).bind fun reached _ => ?_
    split
    · exact YieldsValid.nothing _
    · refine (calculateAtr_last hends hatr (by omega)).bind fun atrValues hatr => ?_
      obtain ⟨atr, hitem, _, _⟩ := hatr
      rw [hitem]
      change YieldsValid _ (if _ then _ else _)
      split
      · exact .nothing _
      · rename_i hstop
        have hbelow := not_le.mp hstop
        have hrisk := abs_of_pos (sub_pos.mpr hbelow)
        have hreward := mul_pos hrrr (sub_pos.mpr hbelow)
        refine YieldsValid.signal (.ofLong rfl hbelow ?_ ?_)
        · dsimp only
          rw [hrisk]
          linarith
        · dsimp only
          rw [hrisk]
          linarith

theorem BBSqueezeStrategy.calculateBollingerBands_yields {closes : List K} {period : Nat}
    (numStd : K) (hperiod : 1 ≤ period) :
    Yields (calculateBollingerBands fn closes period numStd) fun bands =>
      bands.length = closes.length + 1 - period := by
  have hzero : (period : K) ≠ 0 := by exact_mod_cast (by omega : period ≠ 0)
  have hband : ∀ window : List K,
      Yields (bollingerBand fn period numStd window) fun _ => True := by
    intro window
    refine (divide_yields hzero).bind fun mean _ => ?_
    exact (divide_yields hzero).bind fun variance _ => .ok trivial
  unfold calculateBollingerBands
  refine (Yields.mapM fun window _ => hband window).mono fun bands hbands => ?_
  rw [hbands.1, List.length_map, List.length_range]

omit [IsStrictOrderedRing K] in
theorem BBSqueezeStrategy.bandWidth_yields (band : BollingerBand K) :
    Yields (bandWidth band) fun _ => True := by
  unfold bandWidth
  split
  · rename_i hne
    exact (divide_yields hne).mono fun _ _ => trivial
  · exact .ok trivial

/-- A breakout close moved, so that the average true range puts the stop away from it. -/
theorem BBSqueezeStrategy.squeezeSignal_valid (strategy : BBSqueezeStrategy K)
    {init : List (MarketCandle K)} {previous last : MarketCandle K}
    {bands : List (BollingerBand K)} {bandWidths atrValues : List K} {atr : K}
    (hends : snapshot.candles = init ++ [previous, last]) (hlast : last.WellFormed)
    (hbands : bands ≠ []) (hwidths : bandWidths ≠ []) (hitem : item atrValues (-1) = .ok atr)
    (hatr : 0 < rangeOf (previous, last) → 0 < atr) (hrrr : 0 < strategy.minRrr) :
    YieldsValid strategy.minRrr
      (strategy.squeezeSignal snapshot bands bandWidths atrValues) := by
  have hbandsLength := List.length_pos_iff.mpr hbands
  have hwidthsLength := List.length_pos_iff.mpr hwidths
  have hmoved : last.close ≠ previous.close → 0 < atr := fun hne =>
    hatr (trueRange_pos hlast.low_le_close hlast.close_le_high hne)
  unfold squeezeSignal
  rw [MarketSnapshot.closes, item_map_last (·.close) hends, item_map_previous (·.close) hends,
    hitem]
  refine (item_yields (by omega) (by omega)).bind fun band _ => ?_
  refine (item_yields (by omega) (by omega)).bind fun width _ => ?_
  dsimp only
  split
  · rename_i hup
    have hpos := hmoved hup.2.ne'
    have hreward := mul_pos (mul_pos two_pos hpos) hrrr
    rw [if_neg (by linarith)]
    refine (divide_yields (ne_of_gt (by linarith))).bind fun rrr _ => ?_
    refine YieldsValid.signal (.ofLong rfl ?_ ?_ ?_)
    · dsimp only [signal]
      linarith
    · dsimp only [signal]
      linarith
    · dsimp only [signal]
      linarith
  · split
    · rename_i hdown
      have hpos := hmoved hdown.2.ne
      have hreward := mul_pos (mul_pos two_pos hpos) hrrr
      rw [if_neg (by linarith)]
      refine (divide_yields (ne_of_gt (by linarith))).bind fun rrr _ => ?_
      refine YieldsValid.signal (.ofShort rfl ?_ ?_ ?_)
      · dsimp only [signal]
        linarith
      · dsimp only [signal]
        linarith
      · dsimp only [signal]
        linarith
    · exact YieldsValid.nothing _

theorem BBSqueezeStrategy.generateSignal_valid (strategy : BBSqueezeStrategy K)
    (hperiod : 1 ≤ strategy.bbPeriod) (hatr : 1 ≤ strategy.atrPeriod) (hrrr : 0 < strategy.minRrr)
    (hregular : snapshot.Regular)
    (hlength : strategy.requiredCandleCount ≤ snapshot.candles.length) :
    YieldsValid strategy.minRrr (strategy.generateSignal fn snapshot) := by
  have hbounds := hlength
  unfold requiredCandleCount at hbounds
  have hcloses : snapshot.closes.length = snapshot.candles.length := List.length_map _
  obtain ⟨init, previous, last, hends⟩ := exists_last_candles snapshot (by omega)
  have hlast : last.WellFormed := hregular.wellFormed last (by rw [hends]; simp)
  unfold generateSignal
  refine (validateSnapshot_yields hlength).bind fun _ _ => ?_
  refine (calculateBollingerBands_yields fn _ hperiod).bind fun bands hbands => ?_
  refine (calculateAtr_last hends hatr (by omega)).bind fun atrValues hvalues => ?_
  obtain ⟨atr, hitem, _, hpos⟩ := hvalues
  refine (Yields.mapM fun band _ => bandWidth_yields band).bind fun bandWidths hwidths => ?_
  dsimp only
  split
  · exact YieldsValid.nothing _
  · rename_i hhistory
    refine (minimum_yields (mt List.isEmpty_iff.mpr hhistory)).bind fun threshold _ => ?_
    refine (item_yields (by omega) (by omega)).bind fun prevWidth _ => ?_
    split
    · exact strategy.squeezeSignal_valid hends hlast (List.ne_nil_of_length_pos (by omega))
        (List.ne_nil_of_length_pos (by omega)) hitem hpos hrrr
    · exact YieldsValid.nothing _

theorem EMAPullbackStrategy.buildLongSignal_valid (strategy : EMAPullbackStrategy K) {entry : K}
    {current : EMAPullbackStrategy.Reading K} (htarget : 0 < strategy.targetRMultiple)
    (hlength : 1 ≤ snapshot.candles.length) :
    YieldsValid strategy.minRrr (strategy.buildLongSignal snapshot entry current) := by
  unfold buildLongSignal
  split
  · exact .nothing _
  · split
    · exact .nothing _
    · refine (volumeReaches_yields (column_ne_nil _ hlength)
        (slice_column_ne_nil _ (by omega) (by omega))).bind fun confirmed _ => ?_
      split
      · exact YieldsValid.nothing _
      · refine (minimum_yields (slice_column_ne_nil _ (by omega) (by omega))).bind
          fun swingLow _ => ?_
        dsimp only
        split
        · exact YieldsValid.nothing _
        · rename_i hstop
          have hbelow := not_le.mp hstop
          have hreward := mul_pos htarget (sub_pos.mpr hbelow)
          refine buildStrategySignal_valid _ fun _ => .inl ⟨rfl, hbelow, ?_⟩
          dsimp only
          linarith

theorem EMAPullbackStrategy.buildShortSignal_valid (strategy : EMAPullbackStrategy K) {entry : K}
    {current : EMAPullbackStrategy.Reading K} (htarget : 0 < strategy.targetRMultiple)
    (hlength : 1 ≤ snapshot.candles.length) :
    YieldsValid strategy.minRrr (strategy.buildShortSignal snapshot entry current) := by
  unfold buildShortSignal
  split
  · exact .nothing _
  · split
    · exact .nothing _
    · refine (volumeReaches_yields (column_ne_nil _ hlength)
        (slice_column_ne_nil _ (by omega) (by omega))).bind fun confirmed _ => ?_
      split
      · exact YieldsValid.nothing _
      · refine (maximum_yields (slice_column_ne_nil _ (by omega) (by omega))).bind
          fun swingHigh _ => ?_
        dsimp only
        split
        · exact YieldsValid.nothing _
        · rename_i hstop
          have habove := not_le.mp hstop
          have hreward := mul_pos htarget (sub_pos.mpr habove)
          refine buildStrategySignal_valid _ fun _ => .inr ⟨rfl, habove, ?_⟩
          dsimp only
          linarith

theorem EMAPullbackStrategy.generateSignal_valid (strategy : EMAPullbackStrategy K)
    (hrsi : 1 ≤ strategy.rsiPeriod) (hrsiLength : strategy.rsiPeriod < strategy.requiredCandleCount)
    (hatr : 1 ≤ strategy.atrPeriod) (htarget : 0 < strategy.targetRMultiple)
    (hstrength : strategy.minTrendStrengthCandles ≤ strategy.requiredCandleCount)
    (hlength : strategy.requiredCandleCount ≤ snapshot.candles.length) :
    YieldsValid strategy.minRrr (strategy.generateSignal snapshot) := by
  have hcloses : snapshot.closes.length = snapshot.candles.length := List.length_map _
  have hbounds : max 60 (strategy.slowEmaPeriod + strategy.atrPeriod + 5) ≤
      snapshot.candles.length := hlength
  obtain ⟨init, previous, last, hends⟩ := exists_last_candles snapshot (by omega)
  unfold generateSignal
  refine (validateSnapshot_yields hlength).bind fun _ _ => ?_
  refine (calculateEma_yields _ (column_ne_nil _ (by omega))).bind fun fastEma hfast => ?_
  refine (calculateEma_yields _ (column_ne_nil _ (by omega))).bind fun slowEma hslow => ?_
  refine (calculateRsi_yields hrsi (by omega)).bind fun rsi hrsiCount => ?_
  refine (item_yields (by omega) (by omega)).bind fun currentRsi _ => ?_
  refine (calculateAtr_last hends hatr (by omega)).bind fun atrValues hvalues => ?_
  obtain ⟨atr, hitem, _, _⟩ := hvalues
  rw [hitem]
  refine (emaItem_yields hfast (by omega) (by omega)).bind fun currentFastEma _ => ?_
  refine (emaItem_yields hslow (by omega) (by omega)).bind fun currentSlowEma _ => ?_
  rw [MarketSnapshot.closes, item_map_last (·.close) hends]
  refine (emaItem_yields hfast (by omega) (by omega)).bind fun trendFastEma _ => ?_
  refine (emaItem_yields hslow (by omega) (by omega)).bind fun trendSlowEma _ => ?_
  dsimp only
  split
  · exact strategy.buildLongSignal_valid htarget (by omega)
  · split
    · exact strategy.buildShortSignal_valid htarget (by omega)
    · exact YieldsValid.nothing _

end Strategies

end AmaExecutionCore
