import AmaExecutionCore.Indicators
import AmaExecutionCore.Paging

/-! The two readers of long kline histories: `fetch_candles` of the backtest datasets and
`BybitSpotSnapshotProvider.get_snapshot`. -/
namespace AmaExecutionCore

open Paging

structure BybitKline (K : Type) where
  startTime : Timestamp
  openPrice : K
  highPrice : K
  lowPrice : K
  closePrice : K
  volume : K
  turnover : K

/-- The arguments of `get_klines`; `endAt` is `end`, in milliseconds. -/
structure KlineRequest where
  symbol : String
  interval : String
  limit : Int
  category : String
  endAt : Option Int

abbrev KlineClient (K : Type) := KlineRequest → List (BybitKline K)

structure MarketSnapshotRequest where
  symbol : String
  interval : String
  limit : Int

section Readers

variable {K : Type}

def BybitKline.toMarketCandle (kline : BybitKline K) : MarketCandle K where
  openedAt := kline.startTime
  openPrice := kline.openPrice
  high := kline.highPrice
  low := kline.lowPrice
  close := kline.closePrice
  volume := kline.volume

/-- `int(oldest_candle.start_time.timestamp() * 1000) - 1`, in milliseconds. -/
def BybitKline.endCursor (oldest : BybitKline K) : Int := Int.tdiv oldest.startTime 1000 - 1

/-- The `while` loop of `fetch_candles`. Only an empty batch leaves no oldest candle. -/
def fetchLoop (client : KlineClient K) (symbol interval : String) (total : Int)
    (candles : List (MarketCandle K)) (endCursor : Option Int) : List (MarketCandle K) :=
  if (candles.length : Int) < total then
    let batch := client {
      symbol := symbol, interval := interval, limit := min 1000 (total - candles.length)
      category := "spot", endAt := endCursor }
    match sortBy (·.startTime) batch with
    | [] => candles
    | oldest :: newer =>
      let extended := candles ++ (oldest :: newer).map BybitKline.toMarketCandle
      if (batch.length : Int) < min 1000 (total - extended.length) then extended
      else fetchLoop client symbol interval total extended (some oldest.endCursor)
  else candles
termination_by (total - candles.length).toNat
decreasing_by
  rw [List.length_append, List.length_map, List.length_cons]
  omega

def fetchCandles (client : KlineClient K) (symbol interval : String) (total : Int) :
    List (MarketCandle K) :=
  let candles := fetchLoop client symbol interval total [] none
  slice (sortBy (·.openedAt) (distinctBy (·.openedAt) candles)) total.toNat 0

/-- The `while` loop of `get_snapshot`. -/
def snapshotLoop (client : KlineClient K) (request : MarketSnapshotRequest)
    (klines : List (BybitKline K)) (endCursor : Option Int) : List (BybitKline K) :=
  if (klines.length : Int) < request.limit then
    let batchLimit := min 1000 (request.limit - klines.length)
    let batch := client {
      symbol := request.symbol, interval := request.interval, limit := batchLimit
      category := "spot", endAt := endCursor }
    match sortBy (·.startTime) batch with
    | [] => klines
    | oldest :: newer =>
      let extended := klines ++ (oldest :: newer)
      if (batch.length : Int) < batchLimit then extended
      else snapshotLoop client request extended (some oldest.endCursor)
  else klines
termination_by (request.limit - klines.length).toNat
decreasing_by
  rw [List.length_append, List.length_cons]
  omega

def getSnapshot (client : KlineClient K) (request : MarketSnapshotRequest) :
    Except PyError (MarketSnapshot K) :=
  if request.limit ≤ 0 then .error (.valueError "Snapshot request limit must be positive.")
  else
    let dedupedKlines := distinctBy (·.startTime) (snapshotLoop client request [] none)
    if (dedupedKlines.length : Int) < request.limit then
      .error (.valueError (s!"Bybit returned {dedupedKlines.length} candles for " ++
        s!"{request.symbol}; expected {request.limit}."))
    else
      let orderedKlines := slice (sortBy (·.startTime) dedupedKlines) request.limit.toNat 0
      .ok { symbol := request.symbol, interval := request.interval
            candles := orderedKlines.map BybitKline.toMarketCandle }

end Readers

section History

variable {K : Type}

/-- The candles of a history, the oldest first, are at least a second apart. -/
def SecondsApart (history : List (BybitKline K)) : Prop :=
  history.Pairwise fun older newer => older.startTime + 1000000 ≤ newer.startTime

/-- `endAt` counts milliseconds, a start time microseconds. -/
def startsBy (endAt : Option Int) (kline : BybitKline K) : Bool :=
  match endAt with
  | none => true
  | some e => decide (kline.startTime ≤ e * 1000)

/-- Every request for at most a thousand candles is answered with the newest of those that it
reaches, in some order. -/
def AnswersNewest (client : KlineClient K) (symbol interval : String)
    (history : List (BybitKline K)) : Prop :=
  ∀ (limit : Nat) (endAt : Option Int), limit ≤ 1000 →
    (client { symbol := symbol, interval := interval, limit := limit, category := "spot"
              endAt := endAt }).Perm ((history.filter (startsBy endAt)).rtake limit)

variable {history klines : List (BybitKline K)} {client : KlineClient K}
variable {symbol interval : String} {endCursor : Option Int}

theorem SecondsApart.ascending (h : SecondsApart history) : Ascending (·.startTime) history := by
  apply h.imp
  intro older newer hle
  exact lt_of_lt_of_le (Int.lt_add_of_pos_right older.startTime (by decide)) hle

theorem SecondsApart.apart_of_lt (h : SecondsApart history) {kline kline' : BybitKline K}
    (hkline : kline ∈ history) (hkline' : kline' ∈ history)
    (hlt : kline.startTime < kline'.startTime) :
    kline.startTime + 1000000 ≤ kline'.startTime := by
  have hself : ∀ x ∈ history,
      x.startTime < x.startTime → x.startTime + 1000000 ≤ x.startTime :=
    fun x _ hlt => absurd hlt (lt_irrefl _)
  have hlater : history.Pairwise fun x y =>
      x.startTime < y.startTime → x.startTime + 1000000 ≤ y.startTime := by
    apply h.imp
    intro x y hle _
    exact hle
  have hearlier : history.Pairwise fun x y =>
      y.startTime < x.startTime → y.startTime + 1000000 ≤ x.startTime :=
    h.ascending.imp fun hlt hgt => absurd hgt (lt_asymm hlt)
  exact hlater.forall_of_forall_of_flip hself hearlier hkline hkline' hlt

/-- Truncating to milliseconds moves a time by less than one of them, whatever its sign. -/
theorem le_cursor_iff {t t' : Int} (happart : t' < t → t' + 1000000 ≤ t) :
    t' ≤ (Int.tdiv t 1000 - 1) * 1000 ↔ t' < t := by
  have hsplit := Int.tmod_add_tdiv_mul t 1000
  have hupper := Int.tmod_lt_of_pos t (b := 1000) (by decide)
  have hlower := Int.lt_tmod_of_pos t (b := 1000) (by decide)
  constructor
  · intro hle
    omega
  · intro hlt
    have hle := happart hlt
    omega

theorem startsBy_endCursor (h : SecondsApart history) {oldest : BybitKline K}
    (holdest : oldest ∈ history) :
    ∀ kline ∈ history, startsBy (some oldest.endCursor) kline = true ↔
      kline.startTime < oldest.startTime := by
  intro kline hkline
  rw [startsBy, decide_eq_true_eq, BybitKline.endCursor]
  exact le_cursor_iff (h.apart_of_lt hkline holdest)

/-- One request of a reader that has collected `klines` and wants `total`: it comes back empty
when the history is exhausted, and else what is collected with it is again collected. -/
theorem collected_request (h : Collected history (startsBy endCursor) klines)
    (hspaced : SecondsApart history) (hanswers : AnswersNewest client symbol interval history)
    {total : Nat} (htotal : klines.length < total) {batch : List (BybitKline K)}
    (hbatch : batch = client {
      symbol := symbol, interval := interval, limit := min 1000 ((total : Int) - klines.length)
      category := "spot", endAt := endCursor }) :
    batch.length = min (min 1000 (total - klines.length)) (history.length - klines.length) ∧
      ∀ oldest newer, sortBy (·.startTime) batch = oldest :: newer →
        Collected history (startsBy (some oldest.endCursor)) (klines ++ (oldest :: newer)) := by
  have hlimit : min 1000 ((total : Int) - klines.length) =
      ((min 1000 (total - klines.length) : Nat) : Int) := by omega
  have hperm := hanswers (min 1000 (total - klines.length)) endCursor (Nat.min_le_left _ _)
  rw [← hlimit, ← hbatch] at hperm
  refine ⟨h.length_page hperm, fun oldest newer hsorted => ?_⟩
  have holdest : oldest ∈ history := by
    have hmem : oldest ∈ batch :=
      (sortBy_perm (·.startTime) batch).mem_iff.mp (hsorted ▸ List.mem_cons_self)
    exact List.mem_of_mem_filter (List.mem_of_mem_drop (hperm.mem_iff.mp hmem))
  exact h.page hspaced.ascending hperm hsorted (startsBy_endCursor hspaced holdest)

/-- A batch that is short of what is left after it exhausts the history, and so does an empty
one. -/
theorem fetchLoop_newest (hspaced : SecondsApart history)
    (hanswers : AnswersNewest client symbol interval history) {total : Nat}
    (h : Collected history (startsBy endCursor) klines) (hle : klines.length ≤ total) :
    ∃ all : List (BybitKline K), all.Perm (history.rtake total) ∧
      fetchLoop client symbol interval total (klines.map BybitKline.toMarketCandle) endCursor =
        all.map BybitKline.toMarketCandle := by
  induction hsize : total - klines.length using Nat.strong_induction_on
    generalizing klines endCursor with
  | h size ih =>
    have havailable := h.length_le
    rw [fetchLoop, List.length_map]
    by_cases hmore : (klines.length : Int) < total
    · have htotal : klines.length < total := by omega
      rw [if_pos hmore]
      dsimp only
      generalize hbatch : client _ = batch
      obtain ⟨hlength, hpage⟩ := collected_request h hspaced hanswers htotal hbatch.symm
      have hcount := length_sortBy (·.startTime) batch
      cases hsorted : sortBy (·.startTime) batch with
      | nil =>
        rw [hsorted, List.length_nil] at hcount
        exact ⟨klines, h.perm_newest hle (by omega), rfl⟩
      | cons oldest newer =>
        have hnext := hpage oldest newer hsorted
        have hextended : (klines ++ (oldest :: newer)).length = klines.length + batch.length := by
          rw [List.length_append, ← hsorted, hcount]
        have hpositive : 0 < batch.length := by rw [← hcount, hsorted]; exact Nat.succ_pos _
        dsimp only
        rw [← List.map_append, List.length_map, hextended]
        by_cases hshort : (batch.length : Int) <
            min 1000 ((total : Int) - ((klines.length + batch.length : Nat) : Int))
        · rw [if_pos hshort]
          exact ⟨_, hnext.perm_newest (by omega) (by omega), rfl⟩
        · rw [if_neg hshort]
          exact ih (total - (klines ++ (oldest :: newer)).length) (by omega) hnext (by omega) rfl
    · rw [if_neg hmore]
      exact ⟨klines, h.perm_newest hle (by omega), rfl⟩

theorem snapshotLoop_newest (hspaced : SecondsApart history) {request : MarketSnapshotRequest}
    (hanswers : AnswersNewest client request.symbol request.interval history) {total : Nat}
    (hlimit : request.limit = total) (h : Collected history (startsBy endCursor) klines)
    (hle : klines.length ≤ total) :
    (snapshotLoop client request klines endCursor).Perm (history.rtake total) := by
  induction hsize : total - klines.length using Nat.strong_induction_on
    generalizing klines endCursor with
  | h size ih =>
    have havailable := h.length_le
    rw [snapshotLoop, hlimit]
    by_cases hmore : (klines.length : Int) < total
    · have htotal : klines.length < total := by omega
      rw [if_pos hmore]
      dsimp only
      generalize hbatch : client _ = batch
      obtain ⟨hlength, hpage⟩ := collected_request h hspaced hanswers htotal hbatch.symm
      have hcount := length_sortBy (·.startTime) batch
      cases hsorted : sortBy (·.startTime) batch with
      | nil =>
        rw [hsorted, List.length_nil] at hcount
        exact h.perm_newest hle (by omega)
      | cons oldest newer =>
        have hnext := hpage oldest newer hsorted
        have hextended : (klines ++ (oldest :: newer)).length = klines.length + batch.length := by
          rw [List.length_append, ← hsorted, hcount]
        have hpositive : 0 < batch.length := by rw [← hcount, hsorted]; exact Nat.succ_pos _
        dsimp only
        by_cases hshort : (batch.length : Int) < min 1000 ((total : Int) - klines.length)
        · rw [if_pos hshort]
          exact hnext.perm_newest (by omega) (by omega)
        · rw [if_neg hshort]
          exact ih (total - (klines ++ (oldest :: newer)).length) (by omega) hnext (by omega) rfl
    · rw [if_neg hmore]
      exact h.perm_newest hle (by omega)

theorem slice_of_length_le {α : Type} {xs : List α} {n : Nat} (h : xs.length ≤ n) :
    slice xs n 0 = xs := by
  rw [slice, Nat.sub_zero, List.take_length, Nat.sub_eq_zero_of_le h, List.drop_zero]

theorem length_newest_le {α : Type} (xs : List α) (n : Nat) : (xs.rtake n).length ≤ n := by
  rw [List.rtake, List.length_drop]
  omega

theorem SecondsApart.ascending_newest (h : SecondsApart history) (n : Nat) :
    Ascending (·.startTime) (history.rtake n) := h.ascending.drop _

theorem SecondsApart.ascending_candles (h : SecondsApart history) (n : Nat) :
    Ascending (·.openedAt) ((history.rtake n).map BybitKline.toMarketCandle) :=
  List.pairwise_map.mpr (h.ascending_newest n)

theorem fetchCandles_eq (hspaced : SecondsApart history)
    (hanswers : AnswersNewest client symbol interval history) (n : Nat) :
    fetchCandles client symbol interval n =
      (history.rtake n).map BybitKline.toMarketCandle := by
  have hnone : Collected history (startsBy none) [] := Collected.nil history
  obtain ⟨all, hperm, hloop⟩ := fetchLoop_newest hspaced hanswers hnone (Nat.zero_le n)
  rw [List.map_nil] at hloop
  rw [fetchCandles, hloop, sortBy_distinctBy (hperm.map _) (hspaced.ascending_candles n)]
  apply slice_of_length_le
  rw [List.length_map]
  exact length_newest_le history n

theorem getSnapshot_eq {request : MarketSnapshotRequest} (hspaced : SecondsApart history)
    (hanswers : AnswersNewest client request.symbol request.interval history) {n : Nat}
    (hn : 1 ≤ n) (hlimit : request.limit = n) :
    getSnapshot client request =
      if history.length < n then
        .error (.valueError (s!"Bybit returned {history.length} candles for " ++
          s!"{request.symbol}; expected {request.limit}."))
      else .ok { symbol := request.symbol, interval := request.interval
                 candles := (history.rtake n).map BybitKline.toMarketCandle } := by
  have hnone : Collected history (startsBy none) [] := Collected.nil history
  have hperm := snapshotLoop_newest hspaced hanswers hlimit hnone (Nat.zero_le n)
  have hascending := hspaced.ascending_newest n
  have hdistinct := distinctBy_eq ((hperm.map (·.startTime)).nodup_iff.mpr hascending.nodup)
  have hlength : (history.rtake n).length = min n history.length := by
    rw [List.rtake, List.length_drop]
    omega
  rw [getSnapshot, if_neg (by omega), hdistinct]
  dsimp only
  rw [hperm.length_eq, hlength, sortBy_eq hperm hascending]
  by_cases hshort : history.length < n
  · rw [if_pos (by omega), if_pos hshort, min_eq_right (by omega)]
  · rw [if_neg (by omega), if_neg hshort, hlimit, Int.toNat_natCast,
      slice_of_length_le (length_newest_le history n)]

/-- A client that lists the newest candle first. -/
def listingClient (history : List (BybitKline K)) : KlineClient K := fun request =>
  ((history.filter (startsBy request.endAt)).rtake request.limit.toNat).reverse

theorem listingClient_answersNewest (history : List (BybitKline K)) :
    AnswersNewest (listingClient history) symbol interval history := by
  intro limit endAt _
  exact List.reverse_perm _

def minuteKline (index : Nat) : BybitKline Rat where
  startTime := 1704067200000000 + 60000000 * index
  openPrice := 100 + index
  highPrice := 101 + index
  lowPrice := 99 + index
  closePrice := 100 + index
  volume := 1000 + index
  turnover := 10000 + index

/-- One candle more than a page holds. -/
def minuteKlines : List (BybitKline Rat) := (List.range 1001).map minuteKline

theorem minuteKlines_secondsApart : SecondsApart minuteKlines := by
  apply List.pairwise_map.mpr
  apply List.pairwise_lt_range.imp
  intro i j hlt
  have hle : (i : Int) + 1 ≤ j := Int.ofNat_lt.mpr hlt
  have happart : (1704067200000000 : Int) + 60000000 * i + 1000000 ≤
    1704067200000000 + 60000000 * j := by omega
  exact happart

/-- What the two readers make of `n` requested candles of a history. -/
structure ReadsNewest (client client' : KlineClient K) (symbol interval : String)
    (history : List (BybitKline K)) (n : Nat) : Prop where
  fetched : fetchCandles client symbol interval n =
    (history.rtake n).map BybitKline.toMarketCandle
  count : (fetchCandles client symbol interval n).length = min n history.length
  ascending : Ascending (·.openedAt) (fetchCandles client symbol interval n)
  snapshot : n ≤ history.length → getSnapshot client' ⟨symbol, interval, n⟩ =
    .ok ⟨symbol, interval, (history.rtake n).map BybitKline.toMarketCandle⟩
  raises : history.length < n →
    ∃ message, getSnapshot client' ⟨symbol, interval, n⟩ = .error (.valueError message)
  agree : ∀ snapshot, getSnapshot client' ⟨symbol, interval, n⟩ = .ok snapshot →
    snapshot.candles = fetchCandles client symbol interval n

/-- The clients of the two readers may order the same candles differently. Both loops end
whatever their client answers. -/
theorem readsNewest {client client' : KlineClient K} (hspaced : SecondsApart history)
    (hanswers : AnswersNewest client symbol interval history)
    (hanswers' : AnswersNewest client' symbol interval history) {n : Nat} (hn : 1 ≤ n) :
    ReadsNewest client client' symbol interval history n := by
  have hfetched := fetchCandles_eq hspaced hanswers n
  have hsnapshot : getSnapshot client' ⟨symbol, interval, n⟩ = _ :=
    getSnapshot_eq hspaced hanswers' hn rfl
  refine ⟨hfetched, ?_, hfetched ▸ hspaced.ascending_candles n, ?_, ?_, ?_⟩
  · rw [hfetched, List.length_map, List.rtake, List.length_drop]
    omega
  · intro hle
    rw [hsnapshot, if_neg (Nat.not_lt.mpr hle)]
  · intro hlt
    rw [hsnapshot, if_pos hlt]
    exact ⟨_, rfl⟩
  · intro snapshot hok
    rw [hsnapshot] at hok
    split at hok
    · cases hok
    · cases hok
      exact hfetched.symm

theorem readsNewest_twoPages :
    ReadsNewest (listingClient minuteKlines)
      (fun request => (listingClient minuteKlines request).reverse) "BTCUSDT" "1" minuteKlines
      1001 :=
  readsNewest minuteKlines_secondsApart (listingClient_answersNewest minuteKlines)
    (fun limit endAt h => (List.reverse_perm _).trans
      (listingClient_answersNewest minuteKlines limit endAt h)) (by decide)

end History

end AmaExecutionCore
