import AmaExecutionCore.ReversionStrategies
import AmaExecutionCore.SignalGeometry

/-! The divergence strategy compares prices and relative strengths of the same candles: its two
windows are aligned, its swings are extrema inside them, and its stops are at their candles. -/
namespace AmaExecutionCore
open Fallible

section Prefixes

variable {α : Type}

theorem pairwise_take (xs : List α) (n : Nat) :
    pairwise (xs.take (n + 1)) = (pairwise xs).take n := by
  induction xs generalizing n with
  | nil => simp [pairwise]
  | cons x xs ih =>
    cases n with
    | zero => simp [pairwise]
    | succ n =>
      cases xs with
      | nil => simp [pairwise]
      | cons y xs => exact congrArg ((x, y) :: ·) (ih n)

theorem getElem?_slice (xs : List α) (a i : Nat) :
    (slice xs a 0)[i]? = xs[xs.length - a + i]? := by
  unfold slice
  rw [Nat.sub_zero, List.take_length, List.getElem?_drop]

variable {K : Type} [Field K] [LinearOrder K]

theorem rsiValues_take {loss : K → K} {values rsi : List K} {period n : Nat}
    (h : rsiValues loss values period = .ok rsi) (hn : period ≤ n) :
    rsiValues loss (values.take (n + 1)) period = .ok (rsi.take (n + 1 - period)) := by
  unfold rsiValues at h ⊢
  obtain ⟨averageGain, hgain, h⟩ := bind_ok h
  obtain ⟨averageLoss, hloss, h⟩ := bind_ok h
  dsimp only
  rw [pairwise_take]
  dsimp only at hgain hloss h
  simp only [List.map_take, List.take_take, min_eq_left hn, List.drop_take] at *
  rw [hgain, hloss]
  change (List.mapM _ _) = _
  have hzip : ∀ (xs ys : List K) (m : Nat), (xs.take m).zip (ys.take m) = (xs.zip ys).take m :=
    fun _ _ _ => List.take_zipWith.symm
  rw [hzip, ← List.take_scanl]
  have hcount : n - period + 1 = n + 1 - period := by omega
  rw [hcount]
  exact mapM_take h (n + 1 - period)

end Prefixes

namespace RSIDivergenceStrategy

variable {K : Type} [Field K] [LinearOrder K]

/-- The entry lies `wing` entries inside the list, and compares so with each neighbour. -/
def IsSwing (r : K → K → Prop) (values : List K) (wing i : Nat) : Prop :=
  wing ≤ i ∧ i + wing < values.length ∧ ∃ x, values[i]? = some x ∧
    ∀ k, 1 ≤ k → k ≤ wing → (∃ y, values[i - k]? = some y ∧ r x y) ∧
      ∃ y, values[i + k]? = some y ∧ r x y

omit [Field K] [LinearOrder K] in
theorem compareAt_iff {r : K → K → Prop} [DecidableRel r] {values : List K} {i j : Nat} {x : K}
    (hx : values[i]? = some x) :
    compareAt (fun x y => decide (r x y)) values i j = true ↔ ∃ y, values[j]? = some y ∧ r x y := by
  unfold compareAt
  rw [hx]
  cases values[j]? with
  | none => simp
  | some y => simp

omit [Field K] [LinearOrder K] in
/-- The swings are the entries that compare so with all of their neighbours. -/
theorem mem_findSwings_iff {r : K → K → Prop} [DecidableRel r] {values : List K} {wing i : Nat} :
    i ∈ findSwings (fun x y => decide (r x y)) values wing ↔ IsSwing r values wing i := by
  have hcandidate : i ∈ ((List.range (values.length - wing - wing)).map fun offset =>
      offset + wing) ↔ wing ≤ i ∧ i + wing < values.length := by
    rw [List.mem_map]
    constructor
    · rintro ⟨offset, hoffset, rfl⟩
      have hlt := List.mem_range.mp hoffset
      exact ⟨Nat.le_add_left _ _, by omega⟩
    · rintro ⟨hlow, hhigh⟩
      exact ⟨i - wing, List.mem_range.mpr (by omega), by omega⟩
  unfold findSwings IsSwing
  dsimp only
  rw [List.mem_filter, hcandidate, Bool.and_eq_true, List.all_eq_true, List.all_eq_true]
  constructor
  · rintro ⟨⟨hlow, hhigh⟩, hbefore, hafter⟩
    have hin : i < values.length := by omega
    have hx := List.getElem?_eq_getElem hin
    refine ⟨hlow, hhigh, values[i], hx, fun k hk hwing => ?_⟩
    have hmem : k - 1 ∈ List.range wing := List.mem_range.mpr (by omega)
    have hsucc : k - 1 + 1 = k := by omega
    have hleft := (compareAt_iff hx).mp (hbefore (k - 1) hmem)
    have hright := (compareAt_iff hx).mp (hafter (k - 1) hmem)
    rw [hsucc] at hleft hright
    exact ⟨hleft, hright⟩
  · rintro ⟨hlow, hhigh, x, hx, hneighbours⟩
    refine ⟨⟨hlow, hhigh⟩, fun k hk => ?_, fun k hk => ?_⟩
    · have hlt := List.mem_range.mp hk
      exact (compareAt_iff hx).mpr (hneighbours (k + 1) (by omega) (by omega)).1
    · have hlt := List.mem_range.mp hk
      exact (compareAt_iff hx).mpr (hneighbours (k + 1) (by omega) (by omega)).2

variable (strategy : RSIDivergenceStrategy K)

/-- The last two of the swings, each with its close and its relative strength. -/
structure ReadsSwings (searchCloses searchRsi : List K) (swingIdxs : List Nat)
    (swings : Swings K) : Prop where
  first : ∃ i1, swingIdxs[swingIdxs.length - 2]? = some i1 ∧
    searchCloses[i1]? = some swings.priceAtSwing1 ∧ searchRsi[i1]? = some swings.rsiAtSwing1
  latest : swingIdxs.getLast? = some swings.second
  price : searchCloses[swings.second]? = some swings.priceAtSwing2
  rsi : searchRsi[swings.second]? = some swings.rsiAtSwing2

omit [Field K] [LinearOrder K] in
theorem item_yields_at {xs : List K} {i : Nat} (h : i < xs.length) :
    Yields (item xs i) fun x => xs[i]? = some x := by
  refine ⟨xs[i], item_of_position ?_ (List.getElem?_eq_getElem h), List.getElem?_eq_getElem h⟩
  rw [if_neg (by omega)]

omit [LinearOrder K] in
theorem lastSwings_reads {searchCloses searchRsi : List K} {swingIdxs : List Nat}
    (h : ∀ i ∈ swingIdxs, i < searchCloses.length ∧ i < searchRsi.length) :
    Yields (strategy.lastSwings searchCloses searchRsi swingIdxs) fun result =>
      ∀ swings ∈ result, ReadsSwings searchCloses searchRsi swingIdxs swings := by
  unfold lastSwings
  split
  · exact .nothing
  · rename_i hcount
    have hne : swingIdxs ≠ [] := fun hnil => hcount (by rw [hnil]; decide)
    have hlast := List.getLast?_eq_some_getLast hne
    have hprevious : Yields (item swingIdxs (-2)) fun i1 =>
        swingIdxs[swingIdxs.length - 2]? = some i1 := by
      have hin : swingIdxs.length - 2 < swingIdxs.length := by omega
      refine ⟨_, item_of_position ?_ (List.getElem?_eq_getElem hin), List.getElem?_eq_getElem hin⟩
      rw [if_pos (by omega)]
      omega
    refine hprevious.bind fun i1 hi1 => ?_
    refine Yields.bind (P := fun i2 => swingIdxs.getLast? = some i2) ⟨_, item_last hlast, hlast⟩
      fun i2 hi2 => ?_
    obtain ⟨hclose1, hrsi1⟩ := h i1 (List.mem_of_getElem? hi1)
    obtain ⟨hclose2, hrsi2⟩ := h i2 (List.mem_of_getLast? hi2)
    split
    · exact .nothing
    · refine (item_yields_at hclose1).bind fun price1 hprice1 => ?_
      refine (item_yields_at hclose2).bind fun price2 hprice2 => ?_
      refine (item_yields_at hrsi1).bind fun rsi1 hrsi1 => ?_
      refine (item_yields_at hrsi2).bind fun rsi2 hrsi2 => ?_
      exact .found ⟨⟨i1, hi1, hprice1, hrsi1⟩, hi2, hprice2, hrsi2⟩

omit [LinearOrder K] in
/-- What a check yields has a property that the signals at all swings it may read have. -/
theorem checkSwings_yields {searchCloses searchRsi : List K} {swingIdxs : List Nat}
    {diverges : Swings K → Prop} [DecidablePred diverges]
    {signalAt : Swings K → Except PyError (Option (StrategySignal K))} {P : StrategySignal K → Prop}
    (hinside : ∀ i ∈ swingIdxs, i < searchCloses.length ∧ i < searchRsi.length)
    (h : ∀ swings, ReadsSwings searchCloses searchRsi swingIdxs swings →
      Yields (signalAt swings) fun result => ∀ signal, result = some signal → P signal) :
    Yields (strategy.lastSwings searchCloses searchRsi swingIdxs >>= fun found =>
      match found with
      | none => return none
      | some swings => if diverges swings then signalAt swings else return none)
      fun result => ∀ signal, result = some signal → P signal := by
  refine (strategy.lastSwings_reads hinside).bind fun found hfound => ?_
  cases found with
  | none => exact .nothing
  | some swings =>
    dsimp only
    split
    · exact h swings (hfound swings rfl)
    · exact .nothing

variable {strategy} [IsStrictOrderedRing K] {snapshot : MarketSnapshot K} {swings : Swings K}
  {candle : MarketCandle K} {n : Nat}

omit [Field K] [LinearOrder K] [IsStrictOrderedRing K] in
theorem item_column (column : MarketCandle K → K) (hcandle : snapshot.candles[n]? = some candle) :
    item (snapshot.candles.map column) n = .ok (column candle) := by
  refine item_of_position (n := n) ?_ ?_
  · rw [if_neg (by omega)]
  · rw [List.getElem?_map, hcandle]
    rfl

theorem bullishSignal_stop (hindex : strategy.fullIndex snapshot.closes swings = n)
    (hcandle : snapshot.candles[n]? = some candle) :
    Yields (strategy.bullishSignal snapshot swings) fun result => ∀ signal ∈ result,
      signal.direction = "long" ∧ signal.stop = candle.low * (999 / 1000) := by
  have hin : n < snapshot.candles.length := (List.getElem?_eq_some_iff.mp hcandle).1
  have hcloses : snapshot.closes.length = snapshot.candles.length := List.length_map _
  unfold bullishSignal
  rw [hindex, MarketSnapshot.lows, item_column (·.low) hcandle]
  refine Yields.bind (P := fun low => low = candle.low) (.ok rfl) fun low hlow => ?_
  refine (item_yields (by omega) (by omega)).bind fun entry _ => ?_
  subst hlow
  exact ratioCheck_yields (fun hstop => (sub_pos.mpr (not_le.mp hstop)).ne') fun _ _ => ⟨rfl, rfl⟩

theorem bearishSignal_stop (hindex : strategy.fullIndex snapshot.closes swings = n)
    (hcandle : snapshot.candles[n]? = some candle) :
    Yields (strategy.bearishSignal snapshot swings) fun result => ∀ signal ∈ result,
      signal.direction = "short" ∧ signal.stop = candle.high * (1001 / 1000) := by
  have hin : n < snapshot.candles.length := (List.getElem?_eq_some_iff.mp hcandle).1
  have hcloses : snapshot.closes.length = snapshot.candles.length := List.length_map _
  unfold bearishSignal
  rw [hindex, MarketSnapshot.highs, item_column (·.high) hcandle]
  refine Yields.bind (P := fun high => high = candle.high) (.ok rfl) fun high hhigh => ?_
  refine (item_yields (by omega) (by omega)).bind fun entry _ => ?_
  subst hhigh
  exact ratioCheck_yields (fun hstop => (sub_pos.mpr (not_le.mp hstop)).ne') fun _ _ => ⟨rfl, rfl⟩

/-- The index in the whole snapshot of the candle with the index in the search window. -/
def wholeIndex (strategy : RSIDivergenceStrategy K) (snapshot : MarketSnapshot K) (i : Nat) : Nat :=
  snapshot.candles.length - strategy.searchSize + i

/-- The second swing is at a candle of the snapshot: its close and the relative strength up to it
are those that are compared, and the full index is its index. -/
structure SwingAt (strategy : RSIDivergenceStrategy K) (snapshot : MarketSnapshot K)
    (swings : Swings K) (candle : MarketCandle K) : Prop where
  inside : snapshot.candles[strategy.wholeIndex snapshot swings.second]? = some candle
  price : swings.priceAtSwing2 = candle.close
  index : strategy.fullIndex snapshot.closes swings = strategy.wholeIndex snapshot swings.second
  low : item snapshot.lows (strategy.fullIndex snapshot.closes swings) = .ok candle.low
  high : item snapshot.highs (strategy.fullIndex snapshot.closes swings) = .ok candle.high

/-- What a signal takes from the second of its swings. -/
def TakesStop (strategy : RSIDivergenceStrategy K) (snapshot : MarketSnapshot K)
    (searchCloses searchRsi : List K) (signal : StrategySignal K) : Prop :=
  ∃ swings candle, SwingAt strategy snapshot swings candle ∧
    (ReadsSwings searchCloses searchRsi (findSwingLows searchCloses strategy.swingWing) swings ∧
        signal.direction = "long" ∧ signal.stop = candle.low * (999 / 1000) ∨
      ReadsSwings searchCloses searchRsi (findSwingHighs searchCloses strategy.swingWing) swings ∧
        signal.direction = "short" ∧ signal.stop = candle.high * (1001 / 1000))

/-- The strategy compares prices and relative strengths of the same candles. -/
structure ComparesSameCandles (strategy : RSIDivergenceStrategy K) (snapshot : MarketSnapshot K)
    (searchCloses searchRsi : List K) : Prop where
  lengths : searchCloses.length = searchRsi.length
  aligned : ∀ i < searchCloses.length, ∃ candle value upTo,
    snapshot.candles[strategy.wholeIndex snapshot i]? = some candle ∧
    searchCloses[i]? = some candle.close ∧ searchRsi[i]? = some value ∧
    calculateRsi ((snapshot.candles.take (strategy.wholeIndex snapshot i + 1)).map (·.close))
      strategy.rsiPeriod = .ok upTo ∧ upTo.getLast? = some value
  lows : ∀ i ∈ findSwingLows searchCloses strategy.swingWing,
    IsSwing (· < ·) searchCloses strategy.swingWing i
  highs : ∀ i ∈ findSwingHighs searchCloses strategy.swingWing,
    IsSwing (· > ·) searchCloses strategy.swingWing i
  read : ∀ swingIdxs ∈ [findSwingLows searchCloses strategy.swingWing,
      findSwingHighs searchCloses strategy.swingWing],
    Yields (strategy.lastSwings searchCloses searchRsi swingIdxs) fun result =>
      ∀ swings ∈ result, ReadsSwings searchCloses searchRsi swingIdxs swings ∧
        ∃ candle, SwingAt strategy snapshot swings candle
  stops : Yields (strategy.generateSignal snapshot) fun result => ∀ signal ∈ result,
    TakesStop strategy snapshot searchCloses searchRsi signal

omit [LinearOrder K] [IsStrictOrderedRing K] in
theorem SwingAt.of_reads (hsize : strategy.searchSize ≤ snapshot.candles.length)
    {searchRsi : List K} {swingIdxs : List Nat}
    (h : ReadsSwings (slice snapshot.closes strategy.searchSize 0) searchRsi swingIdxs swings) :
    ∃ candle, SwingAt strategy snapshot swings candle := by
  have hcloses : snapshot.closes.length = snapshot.candles.length := List.length_map _
  have hprice := h.price
  rw [getElem?_slice, hcloses, MarketSnapshot.closes, List.getElem?_map] at hprice
  obtain ⟨candle, hcandle, hclose⟩ := Option.map_eq_some_iff.mp hprice
  have hindex : strategy.fullIndex snapshot.closes swings =
      strategy.wholeIndex snapshot swings.second := by
    unfold fullIndex wholeIndex
    omega
  exact ⟨candle, {
    inside := hcandle
    price := hclose.symm
    index := hindex
    low := hindex ▸ item_column (·.low) hcandle
    high := hindex ▸ item_column (·.high) hcandle }⟩

omit [IsStrictOrderedRing K] in
theorem calculateRsi_take {values rsi : List K} {period n : Nat}
    (h : calculateRsi values period = .ok rsi) (hn : period ≤ n) (hlength : n < values.length) :
    calculateRsi (values.take (n + 1)) period = .ok (rsi.take (n + 1 - period)) := by
  have hcount : (values.take (n + 1)).length = n + 1 := by
    rw [List.length_take]
    omega
  unfold calculateRsi at h ⊢
  dsimp only at h ⊢
  rw [if_neg (by omega)] at h ⊢
  exact rsiValues_take h hn

theorem calculateRsi_yields {values : List K} {period : Nat} (hperiod : 1 ≤ period)
    (hlength : period < values.length) :
    Yields (calculateRsi values period) fun rsi =>
      rsi.length = values.length - period ∧ ∀ x ∈ rsi, 0 ≤ x ∧ x ≤ 100 := by
  unfold calculateRsi
  dsimp only
  rw [if_neg (by omega)]
  exact rsiValues_yields (fun _ => le_max_right _ _) hperiod hlength

omit [IsStrictOrderedRing K] in
/-- The relative strength in the window is the last one of the candles up to the close in it. -/
theorem windows_aligned {rsi : List K}
    (hrsi : calculateRsi snapshot.closes strategy.rsiPeriod = .ok rsi)
    (hcount : rsi.length = snapshot.candles.length - strategy.rsiPeriod)
    (hlength : strategy.requiredCandleCount ≤ snapshot.candles.length) {i : Nat}
    (hi : i < strategy.searchSize) : ∃ candle value upTo,
      snapshot.candles[strategy.wholeIndex snapshot i]? = some candle ∧
      (slice snapshot.closes strategy.searchSize 0)[i]? = some candle.close ∧
      (slice rsi strategy.searchSize 0)[i]? = some value ∧
      calculateRsi ((snapshot.candles.take (strategy.wholeIndex snapshot i + 1)).map (·.close))
        strategy.rsiPeriod = .ok upTo ∧ upTo.getLast? = some value := by
  have hcloses : snapshot.closes.length = snapshot.candles.length := List.length_map _
  have hbounds : strategy.rsiPeriod + strategy.searchSize + 5 ≤ snapshot.candles.length := by
    unfold requiredCandleCount at hlength
    unfold searchSize
    omega
  have hwhole : strategy.wholeIndex snapshot i = snapshot.candles.length - strategy.searchSize + i :=
    rfl
  have hin : strategy.wholeIndex snapshot i < snapshot.candles.length := by omega
  have hinRsi : strategy.wholeIndex snapshot i - strategy.rsiPeriod < rsi.length := by omega
  refine ⟨snapshot.candles[strategy.wholeIndex snapshot i],
    rsi[strategy.wholeIndex snapshot i - strategy.rsiPeriod],
    rsi.take (strategy.wholeIndex snapshot i + 1 - strategy.rsiPeriod),
    List.getElem?_eq_getElem hin, ?_, ?_, ?_, ?_⟩
  · rw [getElem?_slice, hcloses, MarketSnapshot.closes, List.getElem?_map, ← hwhole,
      List.getElem?_eq_getElem hin]
    rfl
  · have hposition : rsi.length - strategy.searchSize + i =
        strategy.wholeIndex snapshot i - strategy.rsiPeriod := by omega
    rw [getElem?_slice, hposition, List.getElem?_eq_getElem hinRsi]
  · rw [List.map_take]
    exact calculateRsi_take hrsi (by omega) (hcloses ▸ hin)
  · have hlast : (rsi.take (strategy.wholeIndex snapshot i + 1 - strategy.rsiPeriod)).length - 1 =
        strategy.wholeIndex snapshot i - strategy.rsiPeriod := by
      rw [List.length_take]
      omega
    rw [List.getLast?_eq_getElem?, hlast, List.getElem?_take_of_lt (by omega),
      List.getElem?_eq_getElem hinRsi]

variable {searchCloses searchRsi : List K}

omit [Field K] [LinearOrder K] [IsStrictOrderedRing K] in
theorem swings_inside {r : K → K → Prop} [DecidableRel r] {wing : Nat}
    (hlengths : searchCloses.length = searchRsi.length) :
    ∀ i ∈ findSwings (fun x y => decide (r x y)) searchCloses wing,
      i < searchCloses.length ∧ i < searchRsi.length := by
  intro i hi
  obtain ⟨-, hhigh, -⟩ := mem_findSwings_iff.mp hi
  omega

theorem checkBullishDivergence_stop (hlengths : searchCloses.length = searchRsi.length)
    (hat : ∀ swings swingIdxs, ReadsSwings searchCloses searchRsi swingIdxs swings →
      ∃ candle, SwingAt strategy snapshot swings candle) :
    Yields (strategy.checkBullishDivergence snapshot searchCloses searchRsi) fun result =>
      ∀ signal ∈ result, TakesStop strategy snapshot searchCloses searchRsi signal := by
  refine strategy.checkSwings_yields (swings_inside hlengths) fun swings hreads => ?_
  obtain ⟨candle, hswing⟩ := hat swings _ hreads
  refine (bullishSignal_stop hswing.index hswing.inside).mono fun result hresult => ?_
  intro signal hsignal
  exact ⟨swings, candle, hswing, .inl ⟨hreads, hresult signal hsignal⟩⟩

theorem checkBearishDivergence_stop (hlengths : searchCloses.length = searchRsi.length)
    (hat : ∀ swings swingIdxs, ReadsSwings searchCloses searchRsi swingIdxs swings →
      ∃ candle, SwingAt strategy snapshot swings candle) :
    Yields (strategy.checkBearishDivergence snapshot searchCloses searchRsi) fun result =>
      ∀ signal ∈ result, TakesStop strategy snapshot searchCloses searchRsi signal := by
  refine strategy.checkSwings_yields (swings_inside hlengths) fun swings hreads => ?_
  obtain ⟨candle, hswing⟩ := hat swings _ hreads
  refine (bearishSignal_stop hswing.index hswing.inside).mono fun result hresult => ?_
  intro signal hsignal
  exact ⟨swings, candle, hswing, .inr ⟨hreads, hresult signal hsignal⟩⟩

/-- For every snapshot with enough candles the windows are aligned, the swings are extrema inside
them, no index is out of range, and the stop is at the candle of the second swing. -/
theorem comparesSameCandles (strategy : RSIDivergenceStrategy K) (snapshot : MarketSnapshot K)
    (hperiod : 1 ≤ strategy.rsiPeriod)
    (hlength : strategy.requiredCandleCount ≤ snapshot.candles.length) :
    ∃ rsi, calculateRsi snapshot.closes strategy.rsiPeriod = .ok rsi ∧
      ComparesSameCandles strategy snapshot (slice snapshot.closes strategy.searchSize 0)
        (slice rsi strategy.searchSize 0) := by
  have hcloses : snapshot.closes.length = snapshot.candles.length := List.length_map _
  have hbounds : strategy.rsiPeriod + strategy.searchSize + 5 ≤ snapshot.candles.length := by
    unfold requiredCandleCount at hlength
    unfold searchSize
    omega
  obtain ⟨rsi, hrsi, hcount, -⟩ :=
    @calculateRsi_yields K _ _ _ snapshot.closes strategy.rsiPeriod hperiod (by omega)
  rw [hcloses] at hcount
  have hwindow : (slice snapshot.closes strategy.searchSize 0).length = strategy.searchSize := by
    rw [length_slice _ (Nat.zero_le _)]
    omega
  have hrsiWindow : (slice rsi strategy.searchSize 0).length = strategy.searchSize := by
    rw [length_slice _ (Nat.zero_le _)]
    omega
  have hlengths := hwindow.trans hrsiWindow.symm
  have hat : ∀ swings swingIdxs, ReadsSwings (slice snapshot.closes strategy.searchSize 0)
      (slice rsi strategy.searchSize 0) swingIdxs swings →
        ∃ candle, SwingAt strategy snapshot swings candle :=
    fun _ _ hreads => SwingAt.of_reads (by omega) hreads
  refine ⟨rsi, hrsi, {
    lengths := hlengths
    aligned := fun i hi => windows_aligned hrsi hcount hlength (hwindow ▸ hi)
    lows := fun _ hi => mem_findSwings_iff.mp hi
    highs := fun _ hi => mem_findSwings_iff.mp hi
    read := ?_
    stops := ?_ }⟩
  · intro swingIdxs hidxs
    have hinside : ∀ i ∈ swingIdxs, i < (slice snapshot.closes strategy.searchSize 0).length ∧
        i < (slice rsi strategy.searchSize 0).length := by
      obtain rfl | hidxs := List.mem_cons.mp hidxs
      · exact swings_inside hlengths
      · rw [List.mem_singleton.mp hidxs]
        exact swings_inside hlengths
    refine (strategy.lastSwings_reads hinside).mono fun result hresult swings hswings => ?_
    exact ⟨hresult swings hswings, hat swings _ (hresult swings hswings)⟩
  · unfold generateSignal
    refine (validateSnapshot_yields hlength).bind fun _ _ => ?_
    refine Yields.bind (P := fun found => found = rsi) ⟨rsi, hrsi, rfl⟩ fun found hfound => ?_
    subst hfound
    refine (checkBullishDivergence_stop hlengths hat).bind fun bullish hbullish => ?_
    cases bullish with
    | none => exact checkBearishDivergence_stop hlengths hat
    | some signal => exact .ok hbullish

def shortWindow : RSIDivergenceStrategy Rat where
  rsiPeriod := 2
  swingWing := 1
  swingLookback := 4

/-- A lower low at the last but one candle, with a higher relative strength. -/
def divergingSnapshot : MarketSnapshot Rat where
  symbol := "BTCUSDT"
  interval := "15"
  candles := [97, 100, 96, 104, 104, 101, 96, 104, 103, 98, 104, 96, 99].map fun close =>
    ⟨0, close, close + 1, close - 1, close, 1⟩

theorem comparesSameCandles_diverging :
    ∃ rsi, calculateRsi divergingSnapshot.closes shortWindow.rsiPeriod = .ok rsi ∧
      ComparesSameCandles shortWindow divergingSnapshot
        (slice divergingSnapshot.closes shortWindow.searchSize 0)
        (slice rsi shortWindow.searchSize 0) :=
  comparesSameCandles shortWindow divergingSnapshot (by decide) (by decide)

-- the stop is below the low of 95 of the second swing
example : (shortWindow.generateSignal divergingSnapshot).toOption.map
    (fun found => found.map (·.stop)) = some (some (95 * (999 / 1000))) := by decide +kernel

end RSIDivergenceStrategy

end AmaExecutionCore
