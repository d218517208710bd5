import AmaExecutionCore.Indicators
import Mathlib.Algebra.Order.BigOperators.Group.List
import Mathlib.Tactic.Linarith
import Mathlib.Tactic.Positivity

/-! What the indicators yield: which of them exist, how long they are, and their signs. -/
namespace AmaExecutionCore
open Fallible

section Lists

variable {α β : Type}

theorem item_of_position {xs : List α} {x : α} {i : Int} {n : Nat}
    (hposition : (if i < 0 then (xs.length : Int) + i else i) = n) (hx : xs[n]? = some x) :
    item xs i = .ok x := by
  simp only [item, hposition, Int.toNat_natCast, hx, Option.elim_some]
  rw [if_neg (by omega)]

theorem item_yields {xs : List α} {i : Int} (hlow : -(xs.length : Int) ≤ i)
    (hhigh : i < xs.length) : Yields (item xs i) fun x => x ∈ xs := by
  have hposition : ∃ n : Nat, n < xs.length ∧ (if i < 0 then xs.length + i else i) = n := by
    by_cases hi : i < 0
    · rw [if_pos hi]
      exact ⟨(xs.length + i).toNat, by omega, by omega⟩
    · rw [if_neg hi]
      exact ⟨i.toNat, by omega, by omega⟩
  obtain ⟨n, hn, hposition⟩ := hposition
  exact ⟨xs[n], item_of_position hposition (List.getElem?_eq_getElem hn), List.getElem_mem hn⟩

theorem item_last {xs : List α} {x : α} (h : xs.getLast? = some x) : item xs (-1) = .ok x := by
  rw [List.getLast?_eq_getElem?] at h
  have hlength : 0 < xs.length := by
    by_contra hnone
    rw [List.getElem?_eq_none (by omega)] at h
    exact nomatch h
  refine item_of_position ?_ h
  rw [if_pos (by omega)]
  omega

theorem item_previous (xs : List α) (x y : α) : item (xs ++ [x, y]) (-2) = .ok x := by
  have hlength : (xs ++ [x, y]).length = xs.length + 2 := by
    rw [List.length_append]
    rfl
  refine @item_of_position _ _ _ _ xs.length ?_ ?_
  · rw [if_pos (by omega)]
    omega
  · rw [List.getElem?_append_right (le_refl _), Nat.sub_self]
    rfl

theorem length_slice (xs : List α) {a b : Nat} (h : b ≤ a) :
    (slice xs a b).length = min xs.length a - min xs.length b := by
  simp only [slice, List.length_drop, List.length_take]
  omega

theorem slice_ne_nil {xs : List α} {a b : Nat} (hab : b < a) (hb : b < xs.length) :
    slice xs a b ≠ [] := by
  apply List.ne_nil_of_length_pos
  rw [length_slice xs (by omega)]
  omega

theorem mem_of_mem_slice {xs : List α} {a b : Nat} {x : α} (h : x ∈ slice xs a b) : x ∈ xs :=
  List.mem_of_mem_take (List.mem_of_mem_drop h)

theorem length_pairwise (xs : List α) : (pairwise xs).length = xs.length - 1 := by
  simp only [pairwise, List.length_zip, List.length_tail]
  omega

theorem mem_of_mem_pairwise {xs : List α} {x y : α} (h : (x, y) ∈ pairwise xs) :
    x ∈ xs ∧ y ∈ xs := by
  obtain ⟨hx, hy⟩ := List.of_mem_zip h
  exact ⟨hx, List.mem_of_mem_tail hy⟩

theorem pairwise_concat (xs : List α) (x y : α) :
    pairwise (xs ++ [x, y]) = pairwise (xs ++ [x]) ++ [(x, y)] := by
  induction xs with
  | nil => rfl
  | cons z xs ih =>
    cases xs with
    | nil => rfl
    | cons w xs => exact congrArg ((z, w) :: ·) ih

theorem forall_mem_scanl {f : β → α → β} {P : β → Prop} {xs : List α} {b : β} (hb : P b)
    (hf : ∀ b x, P b → x ∈ xs → P (f b x)) : ∀ v ∈ xs.scanl f b, P v := by
  induction xs generalizing b with
  | nil =>
    intro v hv
    rw [List.scanl_nil, List.mem_singleton] at hv
    exact hv ▸ hb
  | cons x xs ih =>
    intro v hv
    rw [List.scanl_cons] at hv
    obtain rfl | hv := List.mem_cons.mp hv
    · exact hb
    · exact ih (hf b x hb List.mem_cons_self)
        (fun b' x' hb' hx' => hf b' x' hb' (List.mem_cons_of_mem _ hx')) v hv

theorem item_scanl_last (f : β → α → β) (b : β) (xs : List α) :
    item (xs.scanl f b) (-1) = .ok (xs.foldl f b) :=
  item_last List.getLast?_scanl

end Lists

section Numbers

variable {K : Type} [Field K] [LinearOrder K]

theorem divide_yields {x y : K} (h : y ≠ 0) : Yields (divide x y) fun z => z = x / y :=
  ⟨x / y, if_neg h, rfl⟩

omit [Field K] in
theorem maximum_yields {xs : List K} (h : xs ≠ []) : Yields (maximum xs) fun _ => True := by
  obtain ⟨m, hm⟩ := Option.ne_none_iff_exists'.mp (mt List.max?_eq_none_iff.mp h)
  exact ⟨m, by rw [maximum, hm]; rfl, trivial⟩

omit [Field K] in
theorem minimum_yields {xs : List K} (h : xs ≠ []) : Yields (minimum xs) fun _ => True := by
  obtain ⟨m, hm⟩ := Option.ne_none_iff_exists'.mp (mt List.min?_eq_none_iff.mp h)
  exact ⟨m, by rw [minimum, hm]; rfl, trivial⟩

theorem median_yields {xs : List K} (h : xs ≠ []) : Yields (median xs) fun _ => True := by
  have hlength : 0 < (xs.mergeSort fun x y => decide (x ≤ y)).length := by
    rw [List.length_mergeSort]
    exact List.length_pos_iff.mpr h
  simp only [median, List.isEmpty_iff, if_neg h]
  generalize xs.mergeSort (fun x y => decide (x ≤ y)) = sorted at hlength
  split
  · exact (item_yields (by omega) (by omega)).mono fun _ _ => trivial
  · refine (item_yields (by omega) (by omega)).bind fun x _ => ?_
    refine (item_yields (by omega) (by omega)).bind fun y _ => ?_
    exact .ok trivial

omit [LinearOrder K] in
theorem stdev_yields (fn : RealFunctions K) {xs : List K} (h : 2 ≤ xs.length) :
    Yields (stdev fn xs) fun _ => True := by
  simp only [stdev, if_neg (not_lt.mpr h)]
  exact .ok trivial

theorem logarithm_yields (fn : RealFunctions K) {x : K} (h : 0 < x) :
    Yields (logarithm fn x) fun _ => True := by
  simp only [logarithm, if_neg (not_le.mpr h)]
  exact .ok trivial

omit [LinearOrder K] in
theorem calculateEma_yields {values : List K} (period : Nat) (h : values ≠ []) :
    Yields (calculateEma values period) fun ema => ema.length = values.length := by
  cases values with
  | nil => exact absurd rfl h
  | cons first prices =>
    refine .ok ?_
    rw [List.length_scanl, List.length_cons]

omit [LinearOrder K] in
theorem calculateEma_flat (price last : K) (count period : Nat) :
    calculateEma (List.replicate (count + 1) price ++ [last]) period =
      .ok (List.replicate (count + 1) price ++ [(last - price) * (2 / (period + 1)) + price]) := by
  have hscan : (List.replicate count price ++ [last]).scanl
      (fun ema price => (price - ema) * (2 / ((period : K) + 1)) + ema) price =
        List.replicate (count + 1) price ++ [(last - price) * (2 / (period + 1)) + price] := by
    induction count with
    | zero => rfl
    | succ count ih =>
      rw [List.replicate_succ, List.cons_append, List.scanl_cons, sub_self, zero_mul, zero_add, ih]
      rfl
  rw [List.replicate_succ, List.cons_append, calculateEma, hscan]
  rfl

end Numbers

section Averages

variable {K : Type} [Field K] [LinearOrder K] [IsStrictOrderedRing K]

theorem smooth_nonneg {period : Nat} {average value : K} (hperiod : 1 ≤ period)
    (haverage : 0 ≤ average) (hvalue : 0 ≤ value) : 0 ≤ smooth period average value := by
  have hone : (1 : K) ≤ period := by exact_mod_cast hperiod
  have hrest : 0 ≤ average * (period - 1) := mul_nonneg haverage (by linarith)
  exact div_nonneg (by linarith) (by linarith)

theorem smooth_pos {period : Nat} {average value : K} (hperiod : 1 ≤ period)
    (haverage : 0 ≤ average) (hvalue : 0 < value) : 0 < smooth period average value := by
  have hone : (1 : K) ≤ period := by exact_mod_cast hperiod
  have hrest : 0 ≤ average * (period - 1) := mul_nonneg haverage (by linarith)
  exact div_pos (by linarith) (by linarith)

theorem trueRange_nonneg (high low previousClose : K) : 0 ≤ trueRange high low previousClose :=
  le_max_of_le_right (abs_nonneg _)

theorem trueRange_pos {high low close previousClose : K} (hlow : low ≤ close)
    (hhigh : close ≤ high) (h : close ≠ previousClose) :
    0 < trueRange high low previousClose := by
  obtain hless | hmore := lt_or_gt_of_ne h
  · have hfall : low - previousClose < 0 := by linarith
    exact lt_max_of_lt_right (abs_pos.mpr hfall.ne)
  · have hrise : 0 < high - previousClose := by linarith
    exact lt_max_of_lt_left (lt_max_of_lt_right (abs_pos.mpr hrise.ne'))

def rangeOf (candles : MarketCandle K × MarketCandle K) : K :=
  trueRange candles.2.high candles.2.low candles.1.close

omit [IsStrictOrderedRing K] in
theorem trueRanges_eq (candles : List (MarketCandle K)) :
    trueRanges (candles.map (·.high)) (candles.map (·.low)) (candles.map (·.close)) =
      (pairwise candles).map rangeOf := by
  cases candles with
  | nil => rfl
  | cons first rest =>
    simp only [trueRanges, pairwise, List.map_cons, List.tail_cons]
    induction rest generalizing first with
    | nil => rfl
    | cons second rest ih => exact congrArg (_ :: ·) (ih second)

theorem foldl_smooth_nonneg {period : Nat} {first : K} {values : List K} (hperiod : 1 ≤ period)
    (hfirst : 0 ≤ first) (hvalues : ∀ x ∈ values, 0 ≤ x) :
    0 ≤ values.foldl (smooth period) first := by
  induction values generalizing first with
  | nil => exact hfirst
  | cons x values ih =>
    obtain ⟨hx, hvalues⟩ := List.forall_mem_cons.mp hvalues
    exact ih (smooth_nonneg hperiod hfirst hx) hvalues

theorem calculateAtr_last {snapshot : MarketSnapshot K} {init : List (MarketCandle K)}
    {previous last : MarketCandle K} {period : Nat}
    (hends : snapshot.candles = init ++ [previous, last]) (hperiod : 1 ≤ period)
    (hlength : period < snapshot.candles.length) :
    Yields (calculateAtr snapshot.highs snapshot.lows snapshot.closes period) fun values =>
      ∃ atr, item values (-1) = .ok atr ∧ 0 ≤ atr ∧ (0 < rangeOf (previous, last) → 0 < atr) := by
  have hzero : (period : K) ≠ 0 := by exact_mod_cast (by omega : period ≠ 0)
  have hpos : (0 : K) < period := by exact_mod_cast hperiod
  have hranges : trueRanges snapshot.highs snapshot.lows snapshot.closes =
      (pairwise (init ++ [previous])).map rangeOf ++ [rangeOf (previous, last)] := by
    rw [MarketSnapshot.highs, MarketSnapshot.lows, MarketSnapshot.closes, trueRanges_eq, hends,
      pairwise_concat, List.map_append]
    rfl
  have hcount : ((pairwise (init ++ [previous])).map rangeOf).length + 2 =
      snapshot.candles.length := by
    rw [List.length_map, length_pairwise, hends]
    simp only [List.length_append, List.length_cons, List.length_nil]
    omega
  have hnonneg : ∀ x ∈ (pairwise (init ++ [previous])).map rangeOf, (0 : K) ≤ x := by
    intro x hx
    obtain ⟨_, _, rfl⟩ := List.mem_map.mp hx
    exact trueRange_nonneg _ _ _
  have hlast : 0 ≤ rangeOf (previous, last) := trueRange_nonneg _ _ _
  rw [calculateAtr, if_neg (by rw [MarketSnapshot.closes, List.length_map]; omega)]
  dsimp only
  rw [hranges]
  generalize (pairwise (init ++ [previous])).map rangeOf = ranges at hcount hnonneg
  refine (divide_yields hzero).bind fun first hfirst => .ok ⟨_, item_scanl_last _ _ _, ?_⟩
  have hsum : 0 ≤ first := by
    rw [hfirst]
    refine div_nonneg (List.sum_nonneg fun x hx => ?_) hpos.le
    obtain hx | hx := List.mem_append.mp (List.mem_of_mem_take hx)
    · exact hnonneg x hx
    · exact (List.mem_singleton.mp hx) ▸ hlast
  by_cases hall : ranges.length < period
  · -- all of the ranges went into the first average
    have hdrop : (ranges ++ [rangeOf (previous, last)]).drop period = [] := by
      apply List.drop_eq_nil_of_le
      rw [List.length_append, List.length_singleton]
      omega
    have htake : (ranges ++ [rangeOf (previous, last)]).take period =
        ranges ++ [rangeOf (previous, last)] := by
      apply List.take_of_length_le
      rw [List.length_append, List.length_singleton]
      omega
    rw [hdrop]
    refine ⟨hsum, fun hrange => ?_⟩
    rw [List.foldl_nil, hfirst, htake, List.sum_append, List.sum_singleton]
    exact div_pos (add_pos_of_nonneg_of_pos (List.sum_nonneg hnonneg) hrange) hpos
  · rw [List.drop_append_of_le_length (by omega), List.foldl_append]
    have hbefore : 0 ≤ (ranges.drop period).foldl (smooth period) first :=
      foldl_smooth_nonneg hperiod hsum fun x hx => hnonneg x (List.mem_of_mem_drop hx)
    exact ⟨smooth_nonneg hperiod hbefore hlast, smooth_pos hperiod hbefore⟩

/-- Averages of gains and of losses that are not negative have an index between 0 and 100. -/
theorem toRsi_yields {averageGain averageLoss : K} (hgain : 0 ≤ averageGain)
    (hloss : 0 ≤ averageLoss) :
    Yields (toRsi averageGain averageLoss) fun rsi => 0 ≤ rsi ∧ rsi ≤ 100 := by
  by_cases hzero : averageLoss = 0
  · rw [toRsi, if_pos hzero]
    exact .ok ⟨by positivity, le_rfl⟩
  · rw [toRsi, if_neg hzero]
    refine (divide_yields hzero).bind fun strength hstrength => ?_
    have hnonneg : 0 ≤ strength := hstrength ▸ div_nonneg hgain hloss
    have hpos : 0 < 1 + strength := by linarith
    refine (divide_yields hpos.ne').bind fun share hshare => .ok ?_
    have hlow : 0 ≤ share := hshare ▸ div_nonneg (by positivity) hpos.le
    have hhigh : share ≤ 100 := by
      rw [hshare, div_le_iff₀ hpos]
      linarith
    exact ⟨by linarith, by linarith⟩

theorem rsiValues_yields {loss : K → K} {values : List K} {period : Nat}
    (hloss : ∀ delta, 0 ≤ loss delta) (hperiod : 1 ≤ period) (hlength : period < values.length) :
    Yields (rsiValues loss values period) fun rsi =>
      rsi.length = values.length - period ∧ ∀ x ∈ rsi, 0 ≤ x ∧ x ≤ 100 := by
  have hzero : (period : K) ≠ 0 := by exact_mod_cast (by omega : period ≠ 0)
  have hpos : (0 : K) ≤ period := Nat.cast_nonneg _
  unfold rsiValues
  dsimp only
  generalize hmoves : (pairwise values).map _ = moves
  have hcount : moves.length = values.length - 1 := by
    rw [← hmoves, List.length_map, length_pairwise]
  have hgains : ∀ x ∈ moves.map (fun delta => max delta 0), (0 : K) ≤ x := by
    intro x hx
    obtain ⟨_, _, rfl⟩ := List.mem_map.mp hx
    exact le_max_right _ _
  have hlosses : ∀ x ∈ moves.map loss, (0 : K) ≤ x := by
    intro x hx
    obtain ⟨delta, _, rfl⟩ := List.mem_map.mp hx
    exact hloss delta
  have hseed : ∀ {xs : List K}, (∀ x ∈ xs, 0 ≤ x) → 0 ≤ (xs.take period).sum / (period : K) :=
    fun hxs => div_nonneg (List.sum_nonneg fun x hx => hxs x (List.mem_of_mem_take hx)) hpos
  refine (divide_yields hzero).bind fun averageGain hgain => ?_
  refine (divide_yields hzero).bind fun averageLoss hloss' => ?_
  have hall := @forall_mem_scanl _ _
    (fun average next : K × K => (smooth period average.1 next.1, smooth period average.2 next.2))
    (fun average => 0 ≤ average.1 ∧ 0 ≤ average.2)
    (((moves.map fun delta => max delta 0).drop period).zip ((moves.map loss).drop period))
    (averageGain, averageLoss) ⟨hgain ▸ hseed hgains, hloss' ▸ hseed hlosses⟩ ?_
  · refine (Yields.mapM fun average haverage =>
      toRsi_yields (hall average haverage).1 (hall average haverage).2).mono fun rsi hrsi => ?_
    refine ⟨?_, hrsi.2⟩
    rw [hrsi.1, List.length_scanl, List.length_zip, List.length_drop, List.length_drop,
      List.length_map, List.length_map]
    omega
  · rintro average ⟨gain, lost⟩ haverage hnext
    obtain ⟨hgain', hlost⟩ := List.of_mem_zip hnext
    exact ⟨smooth_nonneg hperiod haverage.1 (hgains _ (List.mem_of_mem_drop hgain')),
      smooth_nonneg hperiod haverage.2 (hlosses _ (List.mem_of_mem_drop hlost))⟩

theorem calculateRsi_yields {closes : List K} {period : Nat} (hperiod : 1 ≤ period)
    (hlength : period < closes.length) :
    Yields (calculateRsi closes period) fun rsi => rsi.length = closes.length - period := by
  rw [calculateRsi, if_neg (by omega)]
  exact (rsiValues_yields (fun _ => abs_nonneg _) hperiod hlength).mono fun _ h => h.1

end Averages

section Snapshots

variable {K : Type} [Field K] [LinearOrder K] [IsStrictOrderedRing K]

/-- A candle with positive prices around which its low and its high lie. -/
structure MarketCandle.WellFormed (candle : MarketCandle K) : Prop where
  openPrice : 0 < candle.openPrice
  high : 0 < candle.high
  low : 0 < candle.low
  close : 0 < candle.close
  low_le_open : candle.low ≤ candle.openPrice
  open_le_high : candle.openPrice ≤ candle.high
  low_le_close : candle.low ≤ candle.close
  close_le_high : candle.close ≤ candle.high

theorem returns_yields (fn : RealFunctions K) {pairs : List (K × K)}
    (h : ∀ pair ∈ pairs, 0 < pair.1 ∧ 0 < pair.2) :
    Yields (pairs.mapM fun (previous, current) => do
      logarithm fn (← divide current previous)) fun returns =>
        returns.length = pairs.length := by
  have heach : ∀ pair ∈ pairs, Yields (do
      logarithm fn (← divide pair.2 pair.1)) fun _ : K => True := by
    intro pair hpair
    obtain ⟨hprevious, hcurrent⟩ := h pair hpair
    refine (divide_yields hprevious.ne').bind fun ratio hratio => ?_
    exact logarithm_yields fn (hratio ▸ div_pos hcurrent hprevious)
  exact (Yields.mapM heach).mono fun returns hreturns => hreturns.1

omit [IsStrictOrderedRing K] in
theorem pairwise_pos {closes : List K} (h : ∀ x ∈ closes, 0 < x) :
    ∀ pair ∈ pairwise closes, 0 < pair.1 ∧ 0 < pair.2 := by
  intro pair hpair
  obtain ⟨hprevious, hcurrent⟩ := mem_of_mem_pairwise hpair
  exact ⟨h _ hprevious, h _ hcurrent⟩

variable {snapshot : MarketSnapshot K}

omit [IsStrictOrderedRing K] in
theorem closes_pos (h : ∀ candle ∈ snapshot.candles, candle.WellFormed) :
    ∀ x ∈ snapshot.closes, 0 < x := by
  intro x hx
  obtain ⟨candle, hcandle, rfl⟩ := List.mem_map.mp hx
  exact (h candle hcandle).close

theorem realizedVolatility_yields (fn : RealFunctions K) (keep : K × K → Bool)
    (h : ∀ candle ∈ snapshot.candles, candle.WellFormed) :
    Yields (realizedVolatility fn keep snapshot) fun _ => True := by
  unfold realizedVolatility
  dsimp only
  split
  · exact .ok trivial
  · have hpos : ∀ pair ∈ pairwise (slice snapshot.closes 20 0), 0 < pair.1 ∧ 0 < pair.2 :=
      pairwise_pos fun x hx => closes_pos h x (mem_of_mem_slice hx)
    refine (returns_yields fn fun pair hpair => hpos pair (List.mem_of_mem_filter hpair)).bind
      fun returns _ => ?_
    split
    · exact .ok trivial
    · exact stdev_yields fn (by omega)

theorem calculateIntradayVwap_yields (h : ∀ candle ∈ snapshot.candles, candle.WellFormed)
    (hvolume : ∀ candle ∈ snapshot.candles, 0 ≤ candle.volume) (hne : snapshot.candles ≠ []) :
    Yields (calculateIntradayVwap snapshot) fun vwap => ∀ x, vwap = some x → 0 < x := by
  rw [calculateIntradayVwap, List.getLast?_eq_getLast_of_ne_nil hne]
  dsimp only
  generalize htraded : snapshot.candles.filter (fun candle =>
    candle.date = (snapshot.candles.getLast hne).date && candle.volume ≠ 0) = traded
  have hpos : ∀ candle ∈ traded, candle.WellFormed ∧ 0 < candle.volume := by
    intro candle hcandle
    rw [← htraded] at hcandle
    obtain ⟨hmem, hkept⟩ := List.mem_filter.mp hcandle
    have hzero : candle.volume ≠ 0 := of_decide_eq_true (Bool.and_eq_true_iff.mp hkept).2
    exact ⟨h candle hmem, lt_of_le_of_ne (hvolume candle hmem) hzero.symm⟩
  split
  · exact .ok fun x hx => nomatch hx
  · rename_i hsum
    have hfirst : traded ≠ [] := fun hnil => hsum (by rw [hnil]; rfl)
    refine ⟨_, by rw [divide, if_neg hsum]; rfl, fun x hx => ?_⟩
    cases hx
    refine div_pos (List.sum_pos _ ?_ (by simpa using hfirst))
      (List.sum_pos _ ?_ (by simpa using hfirst))
    · intro y hy
      obtain ⟨candle, hcandle, rfl⟩ := List.mem_map.mp hy
      obtain ⟨hwell, hvol⟩ := hpos candle hcandle
      have hprice : 0 < typicalPrice candle := by
        have := hwell.high
        have := hwell.low
        have := hwell.close
        unfold typicalPrice
        positivity
      exact mul_pos hprice hvol
    · intro y hy
      obtain ⟨candle, hcandle, rfl⟩ := List.mem_map.mp hy
      exact (hpos candle hcandle).2

omit [IsStrictOrderedRing K] in
theorem calculateDx_yields (move : DirectionalMove K) :
    Yields (calculateDx move) fun _ => True := by
  unfold calculateDx
  split
  · exact .ok trivial
  · rename_i hrange
    have hne : move.trueRange ≠ 0 := (not_le.mp hrange).ne'
    refine (divide_yields hne).bind fun positive _ => ?_
    refine (divide_yields hne).bind fun negative _ => ?_
    dsimp only
    split
    · exact .ok trivial
    · rename_i hdenominator
      refine (divide_yields (not_le.mp hdenominator).ne').bind fun share _ => .ok trivial

theorem calculateAdx_yields {candles : List (MarketCandle K)} {period : Nat}
    (hperiod : 1 ≤ period) : Yields (calculateAdx candles period) fun _ => True := by
  unfold calculateAdx
  dsimp only
  refine (Yields.mapM fun move _ => calculateDx_yields move).bind fun dxValues hdx => ?_
  have hcount : 1 ≤ dxValues.length := by
    rw [hdx.1, List.length_scanl]
    omega
  have hseed : ((min period dxValues.length : Nat) : K) ≠ 0 := by
    exact_mod_cast (by omega : min period dxValues.length ≠ 0)
  exact (divide_yields hseed).bind fun first _ => .ok trivial

theorem detectRegime_yields {candles : List (MarketCandle K)} {period : Nat}
    (hperiod : 1 ≤ period) (hlength : period < candles.length) :
    Yields (detectRegime candles period) fun _ => True := by
  unfold detectRegime
  dsimp only
  rw [if_neg (by omega), if_neg (by omega)]
  refine (calculateAdx_yields hperiod).bind fun adx _ => ?_
  split
  · exact .ok trivial
  · exact .ok trivial

end Snapshots

end AmaExecutionCore
