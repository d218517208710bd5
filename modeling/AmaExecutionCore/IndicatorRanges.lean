import AmaExecutionCore.DivergenceWindows
import AmaExecutionCore.Means
import Mathlib.Tactic.FieldSimp

/-! The ranges of the indicators: averages lie between what they average, and the relative and
directional indices between 0 and 100. -/
namespace AmaExecutionCore
open Fallible

variable {K : Type} [Field K] [LinearOrder K] [IsStrictOrderedRing K]

section Smoothing

theorem smooth_between {lo hi average value : K} {period : Nat} (hperiod : 1 ≤ period)
    (haverage : lo ≤ average ∧ average ≤ hi) (hvalue : lo ≤ value ∧ value ≤ hi) :
    lo ≤ smooth period average value ∧ smooth period average value ≤ hi := by
  have hone : (1 : K) ≤ period := by exact_mod_cast hperiod
  have hpos : (0 : K) < period := by linarith
  have hmoved : smooth period average value = (value - average) * (1 / period) + average := by
    unfold smooth
    field_simp
    ring
  rw [hmoved]
  refine Means.moved_between haverage hvalue (by positivity) ?_
  rw [div_le_iff₀ hpos]
  linarith

theorem foldl_smooth_between {lo hi first : K} {values : List K} {period : Nat}
    (hperiod : 1 ≤ period) (hfirst : lo ≤ first ∧ first ≤ hi)
    (hvalues : ∀ x ∈ values, lo ≤ x ∧ x ≤ hi) :
    lo ≤ values.foldl (smooth period) first ∧ values.foldl (smooth period) first ≤ hi := by
  induction values generalizing first with
  | nil => exact hfirst
  | cons x values ih =>
    obtain ⟨hx, hvalues⟩ := List.forall_mem_cons.mp hvalues
    exact ih (smooth_between hperiod hfirst hx) hvalues

/-- Each EMA value lies between the lowest and the highest of the prices so far. -/
theorem calculateEma_between {values : List K} {period : Nat} (hperiod : 1 ≤ period)
    (hne : values ≠ []) : Yields (calculateEma values period) fun emas =>
      ∀ k ema, emas[k]? = some ema → ∃ lowest highest,
        (values.take (k + 1)).min? = some lowest ∧ (values.take (k + 1)).max? = some highest ∧
          lowest ≤ ema ∧ ema ≤ highest := by
  obtain ⟨first, prices, rfl⟩ := List.exists_cons_of_ne_nil hne
  have hone : (1 : K) ≤ period := by exact_mod_cast hperiod
  have hpos : (0 : K) < period + 1 := by linarith
  refine .ok fun k ema hema => ?_
  obtain ⟨lowest, highest, hlowest, hhighest, hbounds⟩ :=
    @Means.exists_bounds K _ ((first :: prices).take (k + 1)) (by simp)
  refine ⟨lowest, highest, hlowest, hhighest, ?_⟩
  rw [List.take_succ_cons] at hbounds
  obtain ⟨hfirst, hprices⟩ := List.forall_mem_cons.mp hbounds
  have hmem : ema ∈ (prices.take k).scanl
      (fun ema price : K => (price - ema) * (2 / (period + 1)) + ema) first := by
    rw [← List.take_scanl]
    have htake := List.getElem?_take_of_lt (l := prices.scanl
      (fun ema price : K => (price - ema) * (2 / (period + 1)) + ema) first) (Nat.lt_succ_self k)
    exact List.mem_of_getElem? (htake.trans hema)
  refine forall_mem_scanl (P := fun x => lowest ≤ x ∧ x ≤ highest) hfirst
    (fun average price haverage hprice => ?_) ema hmem
  refine Means.moved_between haverage (hprices price hprice) (by positivity) ?_
  rw [div_le_iff₀ hpos]
  linarith

end Smoothing

section Ranges

variable {snapshot : MarketSnapshot K} {period : Nat}

omit [IsStrictOrderedRing K] in
theorem calculateAtr_take {values : List K} {n : Nat}
    (h : calculateAtr snapshot.highs snapshot.lows snapshot.closes period = .ok values)
    (hn : period ≤ n) (hlength : n < snapshot.candles.length) :
    calculateAtr ((snapshot.candles.take (n + 1)).map (·.high))
      ((snapshot.candles.take (n + 1)).map (·.low))
      ((snapshot.candles.take (n + 1)).map (·.close)) period =
        .ok (values.take (n + 1 - period)) := by
  have hcount : ((snapshot.candles.take (n + 1)).map (·.close)).length = n + 1 := by
    rw [List.length_map, List.length_take]
    omega
  unfold calculateAtr at h ⊢
  rw [MarketSnapshot.highs, MarketSnapshot.lows, MarketSnapshot.closes, List.length_map,
    if_neg (by omega)] at h
  rw [if_neg (by omega)]
  rw [trueRanges_eq] at h ⊢
  obtain ⟨first, hfirst, h⟩ := bind_ok h
  obtain rfl := Except.ok.inj h
  have htake : ((pairwise (snapshot.candles.take (n + 1))).map rangeOf).take period =
      ((pairwise snapshot.candles).map rangeOf).take period := by
    rw [pairwise_take, List.map_take, List.take_take, min_eq_left hn]
  have hcounts : n + 1 - period = n - period + 1 := by omega
  dsimp only at hfirst ⊢
  rw [htake, hfirst, hcounts, List.take_scanl, pairwise_take, List.map_take, List.drop_take]
  rfl

theorem calculateAtr_yields (hperiod : 1 ≤ period) (hlength : period < snapshot.candles.length) :
    Yields (calculateAtr snapshot.highs snapshot.lows snapshot.closes period) fun values =>
      values.length = snapshot.candles.length - period := by
  have hzero : (period : K) ≠ 0 := by exact_mod_cast (by omega : period ≠ 0)
  rw [calculateAtr, if_neg (by rw [MarketSnapshot.closes, List.length_map]; omega)]
  refine (divide_yields hzero).bind fun first _ => .ok ?_
  rw [MarketSnapshot.highs, MarketSnapshot.lows, MarketSnapshot.closes, trueRanges_eq,
    List.length_scanl, List.length_drop, List.length_map, length_pairwise]
  omega

/-- An average true range is not negative, and positive at a bar with a positive true range. -/
theorem calculateAtr_signs (hperiod : 1 ≤ period) (hlength : period < snapshot.candles.length) :
    Yields (calculateAtr snapshot.highs snapshot.lows snapshot.closes period) fun values =>
      ∀ k atr, values[k]? = some atr → ∃ previous current,
        snapshot.candles[period + k - 1]? = some previous ∧
        snapshot.candles[period + k]? = some current ∧
        0 ≤ atr ∧ (0 < rangeOf (previous, current) → 0 < atr) := by
  obtain ⟨values, hvalues, hcount⟩ := calculateAtr_yields hperiod hlength
  refine ⟨values, hvalues, fun k atr hatr => ?_⟩
  have hk : k < values.length := (List.getElem?_eq_some_iff.mp hatr).1
  have hprevious := List.getElem?_eq_getElem (l := snapshot.candles) (i := period + k - 1) (by omega)
  have hcurrent := List.getElem?_eq_getElem (l := snapshot.candles) (i := period + k) (by omega)
  refine ⟨_, _, hprevious, hcurrent, ?_⟩
  have hstart := calculateAtr_take hvalues (Nat.le_add_right period k) (by omega)
  have hends : snapshot.candles.take (period + k + 1) = snapshot.candles.take (period + k - 1) ++
      [snapshot.candles[period + k - 1], snapshot.candles[period + k]] := by
    have hsucc : period + k - 1 + 1 = period + k := by omega
    have hfirst := List.take_add_one (l := snapshot.candles) (i := period + k - 1)
    rw [hsucc, hprevious, Option.toList_some] at hfirst
    rw [List.take_add_one, hcurrent, Option.toList_some, hfirst, List.append_assoc]
    rfl
  obtain ⟨upTo, hupTo, last, hlast, hsigns⟩ := @calculateAtr_last K _ _ _
    { snapshot with candles := snapshot.candles.take (period + k + 1) } _ _ _ period hends hperiod
    (by dsimp only; rw [List.length_take]; omega)
  obtain rfl := Except.ok.inj (hstart.symm.trans hupTo)
  have hsame : (values.take (period + k + 1 - period)).getLast? = some atr := by
    have hindex : (values.take (period + k + 1 - period)).length - 1 = k := by
      rw [List.length_take]
      omega
    rw [List.getLast?_eq_getElem?, hindex, List.getElem?_take_of_lt (by omega), hatr]
  obtain rfl := Except.ok.inj ((item_last hsame).symm.trans hlast)
  exact hsigns

/-- A candle whose close lies between its low and its high. -/
structure MarketCandle.Quoted (candle : MarketCandle K) : Prop where
  low_le_close : candle.low ≤ candle.close
  close_le_high : candle.close ≤ candle.high
  volume : 0 ≤ candle.volume

theorem typicalPrice_between {candle : MarketCandle K} (h : candle.Quoted) :
    candle.low ≤ typicalPrice candle ∧ typicalPrice candle ≤ candle.high := by
  have hlow := h.low_le_close
  have hhigh := h.close_le_high
  unfold typicalPrice
  constructor
  · rw [le_div_iff₀ (by norm_num)]
    linarith
  · rw [div_le_iff₀ (by norm_num)]
    linarith

def tradedToday (snapshot : MarketSnapshot K) : List (MarketCandle K) :=
  match snapshot.candles.getLast? with
  | none => []
  | some last => snapshot.candles.filter fun candle =>
      candle.date = last.date && candle.volume ≠ 0

theorem calculateIntradayVwap_between (h : ∀ candle ∈ snapshot.candles, candle.Quoted)
    (hne : snapshot.candles ≠ []) :
    Yields (calculateIntradayVwap snapshot) fun vwap => ∀ x ∈ vwap, ∃ lowest highest,
      ((tradedToday snapshot).map (·.low)).min? = some lowest ∧
        ((tradedToday snapshot).map (·.high)).max? = some highest ∧ lowest ≤ x ∧ x ≤ highest := by
  unfold calculateIntradayVwap tradedToday
  rw [List.getLast?_eq_some_getLast hne]
  dsimp only
  generalize htraded : snapshot.candles.filter (fun candle =>
    candle.date = (snapshot.candles.getLast hne).date && candle.volume ≠ 0) = traded
  have hquoted : ∀ candle ∈ traded, candle.Quoted := by
    intro candle hcandle
    rw [← htraded] at hcandle
    exact h candle (List.mem_of_mem_filter hcandle)
  split
  · exact .ok fun _ hnone => nomatch hnone
  · rename_i hsum
    have htradedNe : traded ≠ [] := fun hnil => hsum (by rw [hnil]; rfl)
    obtain ⟨lowest, _, hlowest, -, hlows⟩ :=
      @Means.exists_bounds K _ (traded.map (·.low)) (by simpa using htradedNe)
    obtain ⟨_, highest, -, hhighest, hhighs⟩ :=
      @Means.exists_bounds K _ (traded.map (·.high)) (by simpa using htradedNe)
    have hprices : ∀ candle ∈ traded,
        lowest ≤ typicalPrice candle ∧ typicalPrice candle ≤ highest := by
      intro candle hcandle
      obtain ⟨hlow, hhigh⟩ := typicalPrice_between (hquoted candle hcandle)
      exact ⟨(hlows _ (List.mem_map_of_mem hcandle)).1.trans hlow,
        hhigh.trans (hhighs _ (List.mem_map_of_mem hcandle)).2⟩
    have hvolumes : ∀ candle ∈ traded, 0 ≤ candle.volume :=
      fun candle hcandle => (hquoted candle hcandle).volume
    obtain ⟨hleast, hmost⟩ := Means.weighted_between hprices hvolumes
    have hpos : 0 < (traded.map fun c => c.volume).sum := by
      refine lt_of_le_of_ne (List.sum_nonneg fun x hx => ?_) (Ne.symm hsum)
      obtain ⟨candle, hcandle, rfl⟩ := List.mem_map.mp hx
      exact hvolumes candle hcandle
    refine ⟨_, by rw [divide, if_neg hsum]; rfl, fun x hx => ?_⟩
    cases hx
    refine ⟨lowest, highest, hlowest, hhighest, ?_, ?_⟩
    · rw [le_div_iff₀ hpos]
      exact hleast
    · rw [div_le_iff₀ hpos]
      exact hmost

/-- The true range and the directional moves of a move, or their sums, are not negative. -/
structure DirectionalMove.Nonneg (move : DirectionalMove K) : Prop where
  trueRange : 0 ≤ move.trueRange
  positive : 0 ≤ move.positive
  negative : 0 ≤ move.negative

theorem directionalMove_nonneg (candles : MarketCandle K × MarketCandle K) :
    (directionalMove candles).Nonneg where
  trueRange := trueRange_nonneg _ _ _
  positive := by
    unfold directionalMove
    dsimp only
    split
    · rename_i hmove
      exact hmove.2.le
    · exact le_rfl
  negative := by
    unfold directionalMove
    dsimp only
    split
    · rename_i hmove
      exact hmove.2.le
    · exact le_rfl

theorem wilder_nonneg {total value : K} (hperiod : 1 ≤ period) (htotal : 0 ≤ total)
    (hvalue : 0 ≤ value) : 0 ≤ total - total / period + value := by
  have hone : (1 : K) ≤ period := by exact_mod_cast hperiod
  have hshare : total / period ≤ total := div_le_self htotal hone
  linarith

theorem accumulate_nonneg {sums move : DirectionalMove K} (hperiod : 1 ≤ period)
    (hsums : sums.Nonneg) (hmove : move.Nonneg) : (accumulate period sums move).Nonneg where
  trueRange := wilder_nonneg hperiod hsums.trueRange hmove.trueRange
  positive := wilder_nonneg hperiod hsums.positive hmove.positive
  negative := wilder_nonneg hperiod hsums.negative hmove.negative

theorem calculateDx_between {move : DirectionalMove K} (h : move.Nonneg) :
    Yields (calculateDx move) fun dx => 0 ≤ dx ∧ dx ≤ 100 := by
  have hnothing : (0 : K) ≤ 0 ∧ (0 : K) ≤ 100 := ⟨le_rfl, by norm_num⟩
  unfold calculateDx
  split
  · exact .ok hnothing
  · rename_i hrange
    have hpos := not_le.mp hrange
    refine (divide_yields hpos.ne').bind fun positive hpositive => ?_
    refine (divide_yields hpos.ne').bind fun negative hnegative => ?_
    have hplus : 0 ≤ positive * 100 :=
      mul_nonneg (hpositive ▸ div_nonneg h.positive hpos.le) (by norm_num)
    have hminus : 0 ≤ negative * 100 :=
      mul_nonneg (hnegative ▸ div_nonneg h.negative hpos.le) (by norm_num)
    dsimp only
    split
    · exact .ok hnothing
    · rename_i hdenominator
      have hsum := not_le.mp hdenominator
      refine (divide_yields hsum.ne').bind fun share hshare => .ok ?_
      have hshareLow : 0 ≤ share := hshare ▸ div_nonneg (abs_nonneg _) hsum.le
      have hshareHigh : share ≤ 1 := by
        rw [hshare, div_le_one hsum, abs_le]
        constructor <;> linarith
      constructor <;> linarith

theorem calculateAdx_between {candles : List (MarketCandle K)} (hperiod : 1 ≤ period) :
    Yields (calculateAdx candles period) fun adx => 0 ≤ adx ∧ adx ≤ 100 := by
  unfold calculateAdx
  dsimp only
  generalize hmoves : (pairwise candles).map directionalMove = moves
  have hnonneg : ∀ move ∈ moves, move.Nonneg := by
    intro move hmove
    rw [← hmoves] at hmove
    obtain ⟨pair, -, rfl⟩ := List.mem_map.mp hmove
    exact directionalMove_nonneg pair
  have hseed : ∀ column : DirectionalMove K → K, (∀ move ∈ moves, 0 ≤ column move) →
      0 ≤ ((moves.take period).map column).sum := by
    intro column hcolumn
    refine List.sum_nonneg fun x hx => ?_
    obtain ⟨move, hmove, rfl⟩ := List.mem_map.mp hx
    exact hcolumn move (List.mem_of_mem_take hmove)
  have hstart : DirectionalMove.Nonneg {
      trueRange := ((moves.take period).map (·.trueRange)).sum
      positive := ((moves.take period).map (·.positive)).sum
      negative := ((moves.take period).map (·.negative)).sum } :=
    ⟨hseed _ fun move hmove => (hnonneg move hmove).trueRange,
      hseed _ fun move hmove => (hnonneg move hmove).positive,
      hseed _ fun move hmove => (hnonneg move hmove).negative⟩
  have hsums := @forall_mem_scanl _ _ (accumulate period) DirectionalMove.Nonneg
    (moves.drop period) _ hstart fun sums move hs hmove =>
      accumulate_nonneg hperiod hs (hnonneg move (List.mem_of_mem_drop hmove))
  refine (Yields.mapM fun sums hs => calculateDx_between (hsums sums hs)).bind fun dxValues hdx => ?_
  obtain ⟨hcount, hrange⟩ := hdx
  rw [List.length_scanl] at hcount
  have hseedSize : ((min period dxValues.length : Nat) : K) ≠ 0 := by
    exact_mod_cast (by omega : min period dxValues.length ≠ 0)
  refine (divide_yields hseedSize).bind fun first hfirst => .ok ?_
  have htake : (dxValues.take (min period dxValues.length)).length = min period dxValues.length := by
    rw [List.length_take]
    omega
  have hmean := @Means.mean_between K _ _ _ 0 100 (dxValues.take (min period dxValues.length))
    (fun dx hdx => hrange dx (List.mem_of_mem_take hdx)) (by omega)
  rw [htake, ← hfirst] at hmean
  exact foldl_smooth_between hperiod hmean fun dx hdx => hrange dx (List.mem_of_mem_drop hdx)

/-- The indicators exist, and each lies in its range. `calculateRsi` is that of the pullback and
of the VWAP strategies. -/
structure IndicatorRanges (snapshot : MarketSnapshot K) (period : Nat) : Prop where
  rsi : Yields (calculateRsi snapshot.closes period) fun values => ∀ x ∈ values, 0 ≤ x ∧ x ≤ 100
  divergenceRsi : Yields (RSIDivergenceStrategy.calculateRsi snapshot.closes period) fun values =>
    ∀ x ∈ values, 0 ≤ x ∧ x ≤ 100
  atr : Yields (calculateAtr snapshot.highs snapshot.lows snapshot.closes period) fun values =>
    ∀ k atr, values[k]? = some atr → ∃ previous current,
      snapshot.candles[period + k - 1]? = some previous ∧
      snapshot.candles[period + k]? = some current ∧
      0 ≤ atr ∧ (0 < rangeOf (previous, current) → 0 < atr)
  ema : Yields (calculateEma snapshot.closes period) fun emas =>
    ∀ k ema, emas[k]? = some ema → ∃ lowest highest,
      (snapshot.closes.take (k + 1)).min? = some lowest ∧
      (snapshot.closes.take (k + 1)).max? = some highest ∧ lowest ≤ ema ∧ ema ≤ highest
  vwap : Yields (calculateIntradayVwap snapshot) fun vwap => ∀ x ∈ vwap, ∃ lowest highest,
    ((tradedToday snapshot).map (·.low)).min? = some lowest ∧
      ((tradedToday snapshot).map (·.high)).max? = some highest ∧ lowest ≤ x ∧ x ≤ highest
  adx : Yields (detectRegime snapshot.candles period) fun result =>
    0 ≤ result.adxValue ∧ result.adxValue ≤ 100

theorem detectRegime_between {candles : List (MarketCandle K)} (hperiod : 1 ≤ period)
    (hlength : period < candles.length) :
    Yields (detectRegime candles period) fun result =>
      0 ≤ result.adxValue ∧ result.adxValue ≤ 100 := by
  unfold detectRegime
  dsimp only
  rw [if_neg (by omega), if_neg (by omega)]
  refine (calculateAdx_between hperiod).bind fun adx hadx => ?_
  split
  · exact .ok hadx
  · exact .ok hadx

/-- No indicator of candles that are quoted in order divides by zero or leaves its range. -/
theorem indicatorRanges (snapshot : MarketSnapshot K) (period : Nat) (hperiod : 1 ≤ period)
    (hlength : period < snapshot.candles.length)
    (hquoted : ∀ candle ∈ snapshot.candles, candle.Quoted) : IndicatorRanges snapshot period := by
  have hcloses : snapshot.closes.length = snapshot.candles.length := List.length_map _
  have hne : snapshot.candles ≠ [] := List.ne_nil_of_length_pos (by omega)
  have hrsi : Yields (calculateRsi snapshot.closes period) fun values =>
      ∀ x ∈ values, 0 ≤ x ∧ x ≤ 100 := by
    rw [calculateRsi, if_neg (by omega)]
    exact (rsiValues_yields (fun _ => abs_nonneg _) hperiod (by omega)).mono fun _ h => h.2
  exact {
    rsi := hrsi
    divergenceRsi :=
      (RSIDivergenceStrategy.calculateRsi_yields hperiod (by omega)).mono fun _ h => h.2
    atr := calculateAtr_signs hperiod hlength
    ema := calculateEma_between hperiod (List.ne_nil_of_length_pos (by omega))
    vwap := calculateIntradayVwap_between hquoted hne
    adx := detectRegime_between hperiod hlength }

theorem indicatorRanges_diverging :
    IndicatorRanges RSIDivergenceStrategy.divergingSnapshot 2 := by
  refine indicatorRanges RSIDivergenceStrategy.divergingSnapshot 2 (by decide) (by decide) ?_
  intro candle hcandle
  obtain ⟨close, -, rfl⟩ := List.mem_map.mp hcandle
  exact ⟨sub_le_self _ zero_le_one, le_add_of_nonneg_right zero_le_one, zero_le_one⟩

end Ranges

end AmaExecutionCore
