import AmaExecutionCore.CandleFeed
import AmaExecutionCore.Runs
import Mathlib.Data.List.Chain

/-! When the candle windows of the feed are contiguous. -/
namespace AmaExecutionCore
namespace BybitCandleFeed

variable {K : Type} (feed : BybitCandleFeed)

def Follows (a b : MarketCandle K) : Prop :=
  a.openedAt < b.openedAt ∧ b.openedAt = a.openedAt + feed.intervalLength

instance (a b : MarketCandle K) : Decidable (feed.Follows a b) :=
  inferInstanceAs (Decidable (_ ∧ _))

/-- A window of full size whose candles follow each other. -/
def Contiguous (candles : List (MarketCandle K)) : Prop :=
  candles.length = feed.windowSize ∧ candles.IsChain feed.Follows

def ContiguousQueue (state : CandleFeedState K) : Prop :=
  ∀ snapshot ∈ state.queue, feed.Contiguous snapshot.snapshot.candles

/-- What the warm-up under way will still append to the window of a symbol. -/
def installingOf (symbol : String) (state : CandleFeedState K) : Option (List (MarketCandle K)) :=
  match state.installing with
  | some (installing, klines) => if installing = symbol then some klines else none
  | none => none

def ConsecutiveKlines (klines : List (MarketCandle K)) : Prop :=
  (sortKlines klines).IsChain feed.Follows

def AnswersConsecutive (_ : CandleFeedState K) : FeedAction K → Prop
  | .fetched _ (some klines) => feed.ConsecutiveKlines klines
  | _ => True

/-- A confirmed candle that is not behind a gap follows the last candle of the window, and comes
while no warm-up of its symbol is under way. -/
def Fits (state : CandleFeedState K) : FeedAction K → Prop
  | .kline topic item =>
    ∀ symbol ∈ (topicParts topic)[2]?, ∀ candle ∈ item.candle, item.confirm = true →
      symbol ∈ feed.symbols →
        (∃ last ∈ (state.windows symbol).getLast?, feed.isGap last candle = true) ∨
        (∀ last ∈ (state.windows symbol).getLast?,
          candle.openedAt = last.openedAt + feed.intervalLength) ∧
          installingOf symbol state = none
  | _ => True

theorem intervalToSeconds_pos {interval : String} {seconds : Int}
    (h : intervalToSeconds interval = .ok seconds) : 0 < seconds := by
  unfold intervalToSeconds at h
  split at h
  case h_10 => cases h
  all_goals
    obtain rfl := Except.ok.inj h
    decide

theorem follows_of_eq {a b : MarketCandle K} (h : b.openedAt = a.openedAt + feed.intervalLength) :
    feed.Follows a b := by
  have hseconds := intervalToSeconds_pos feed.interval_known
  have hpos : 0 < feed.intervalLength := by
    unfold intervalLength
    omega
  refine ⟨?_, h⟩
  rw [h]
  exact Int.lt_add_of_pos_right _ hpos

variable {feed} {window : List (MarketCandle K)} {candle : MarketCandle K}

@[simp] theorem appendCandle_length :
    (feed.appendCandle window candle).length = min (window.length + 1) feed.windowSize := by
  simp only [appendCandle, List.length_drop, List.length_append, List.length_singleton]
  omega

theorem appendCandle_chain {rest : List (MarketCandle K)}
    (h : (window ++ candle :: rest).IsChain feed.Follows) :
    (feed.appendCandle window candle ++ rest).IsChain feed.Follows := by
  have hdrop := h.drop (window.length + 1 - feed.windowSize)
  rw [List.append_cons, List.drop_append_of_le_length] at hdrop
  · exact hdrop
  · simp

/-- The window of a symbol is contiguous, or will be when its warm-up is done. -/
structure SoundWindow (feed : BybitCandleFeed) (window : List (MarketCandle K)) (warmedUp : Bool)
    (installing : Option (List (MarketCandle K))) : Prop where
  length_le : window.length ≤ feed.windowSize
  chain : (window ++ installing.getD []).IsChain feed.Follows
  full : warmedUp = true → installing = none → window.length = feed.windowSize

namespace SoundWindow

variable {warmedUp : Bool} {klines : List (MarketCandle K)}

theorem nil : SoundWindow feed ([] : List (MarketCandle K)) false none where
  length_le := Nat.zero_le _
  chain := .nil
  full h := nomatch h

theorem accept (h : SoundWindow feed window warmedUp none)
    (hfits : ∀ last ∈ window.getLast?, candle.openedAt = last.openedAt + feed.intervalLength) :
    SoundWindow feed (feed.appendCandle window candle)
      (warmedUp || decide ((feed.appendCandle window candle).length ≥ feed.windowSize)) none := by
  have hold : window.IsChain feed.Follows := by simpa using h.chain
  have hnew : (window ++ [candle]).IsChain feed.Follows := by
    refine hold.append (List.isChain_singleton _) fun last hlast next hnext => ?_
    obtain rfl := Option.some.inj hnext
    exact follows_of_eq feed (hfits last hlast)
  refine ⟨by simp, appendCandle_chain hnew, fun hwarm _ => ?_⟩
  rw [appendCandle_length] at hwarm ⊢
  obtain hwarm | hwarm := Bool.or_eq_true_iff.mp hwarm
  · have hfull := h.full hwarm rfl
    omega
  · have hge := of_decide_eq_true hwarm
    omega

theorem begin (hklines : klines.IsChain feed.Follows) :
    SoundWindow feed [] warmedUp (some klines) where
  length_le := Nat.zero_le _
  chain := hklines
  full _ h := nomatch h

theorem install (h : SoundWindow feed window warmedUp (some (candle :: klines))) :
    SoundWindow feed (feed.appendCandle window candle) warmedUp (some klines) where
  length_le := by simp
  chain := appendCandle_chain h.chain
  full _ h := nomatch h

theorem finish (h : SoundWindow feed window warmedUp (some [])) :
    SoundWindow feed window (decide (window.length ≥ feed.windowSize)) none where
  length_le := h.length_le
  chain := h.chain
  full hwarm _ := le_antisymm h.length_le (of_decide_eq_true hwarm)

theorem warmUp (h : SoundWindow feed window warmedUp (some klines)) :
    SoundWindow feed (klines.foldl feed.appendCandle window)
      (decide ((klines.foldl feed.appendCandle window).length ≥ feed.windowSize)) none := by
  induction klines generalizing window with
  | nil => exact h.finish
  | cons kline klines ih => exact ih h.install

end SoundWindow

structure SoundFeed (feed : BybitCandleFeed) (state : CandleFeedState K) : Prop where
  windows : ∀ symbol,
    SoundWindow feed (state.windows symbol) (state.warmedUp symbol) (installingOf symbol state)
  queue : feed.ContiguousQueue state

namespace SoundFeed

variable {symbol : String} {state : CandleFeedState K}

theorem enqueue (h : SoundFeed feed state) {gapRecovered : Bool}
    (hwarm : state.warmedUp symbol = true) (hnone : installingOf symbol state = none) :
    SoundFeed feed (feed.enqueueSnapshot symbol gapRecovered state) := by
  unfold enqueueSnapshot
  split_ifs
  · exact h
  · exact h
  · refine ⟨h.windows, fun snapshot hsnapshot => ?_⟩
    obtain hold | hnew := List.mem_append.mp hsnapshot
    · exact h.queue snapshot hold
    · rw [List.mem_singleton.mp hnew]
      have hchain := (h.windows symbol).chain
      rw [hnone, Option.getD_none, List.append_nil] at hchain
      exact ⟨(h.windows symbol).full hwarm hnone, hchain⟩

theorem accept (h : SoundFeed feed state)
    (hfits : ∀ last ∈ (state.windows symbol).getLast?,
      candle.openedAt = last.openedAt + feed.intervalLength)
    (hnone : installingOf symbol state = none) :
    SoundFeed feed (feed.acceptCandle symbol candle state) := by
  have hwindow := h.windows symbol
  rw [hnone] at hwindow
  have hsound : SoundFeed feed { state with
      windows := Function.update state.windows symbol
        (feed.appendCandle (state.windows symbol) candle)
      warmedUp := Function.update state.warmedUp symbol (state.warmedUp symbol ||
        decide ((feed.appendCandle (state.windows symbol) candle).length ≥ feed.windowSize)) } := by
    refine ⟨fun other => ?_, h.queue⟩
    by_cases hother : other = symbol
    · subst hother
      dsimp only
      rw [Function.update_self, Function.update_self]
      have hnew := hwindow.accept hfits
      rw [← hnone] at hnew
      exact hnew
    · dsimp only
      rw [Function.update_of_ne hother, Function.update_of_ne hother]
      exact h.windows other
  unfold acceptCandle
  dsimp only
  split_ifs with hwarm
  · exact hsound.enqueue hwarm hnone
  · exact hsound

theorem kline (h : SoundFeed feed state) {topic : String} {item : KlineItem K}
    (hfits : feed.Fits state (.kline topic item)) :
    SoundFeed feed (feed.onKlineMessage topic item state) := by
  unfold onKlineMessage
  split
  · rename_i symbol candle htopic hconfirm hcandle
    unfold handleConfirmedCandle
    split_ifs with hsymbol hgap
    · exact ⟨h.windows, h.queue⟩
    · exact h
    · obtain ⟨last, hlast, hbehind⟩ | ⟨hnext, hnone⟩ :=
        hfits symbol htopic candle hcandle hconfirm hsymbol
      · refine absurd ?_ hgap
        rw [Option.mem_def.mp hlast]
        exact hbehind
      · exact h.accept hnext hnone
    · exact h
  · exact h

theorem fetched (h : SoundFeed feed state) {klines : Option (List (MarketCandle K))}
    (hanswer : feed.AnswersConsecutive state (.fetched symbol klines)) :
    SoundFeed feed (recoveryFetched symbol klines state) := by
  unfold recoveryFetched
  split_ifs with hready
  · cases klines with
    | none => exact ⟨h.windows, h.queue⟩
    | some klines =>
      refine ⟨fun other => ?_, h.queue⟩
      have hold := h.windows other
      unfold installingOf at hold ⊢
      rw [hready.2] at hold
      dsimp only at hold ⊢
      by_cases hother : symbol = other
      · subst hother
        rw [Function.update_self, if_pos rfl]
        exact .begin hanswer
      · rw [Function.update_of_ne (Ne.symm hother), if_neg hother]
        exact hold
  · exact h

theorem installed (h : SoundFeed feed state) : SoundFeed feed (feed.recoveryInstalled state) := by
  unfold recoveryInstalled
  split
  · exact h
  · rename_i symbol kline klines hinstalling
    refine ⟨fun other => ?_, h.queue⟩
    have hold := h.windows other
    unfold installingOf at hold ⊢
    rw [hinstalling] at hold
    dsimp only at hold ⊢
    by_cases hother : symbol = other
    · subst hother
      rw [if_pos rfl] at hold ⊢
      rw [Function.update_self]
      exact hold.install
    · rw [if_neg hother] at hold ⊢
      rw [Function.update_of_ne (Ne.symm hother)]
      exact hold
  · rename_i symbol hinstalling
    have hsound : SoundFeed feed { state with
        warmedUp := Function.update state.warmedUp symbol
          (decide ((state.windows symbol).length ≥ feed.windowSize))
        installing := none } := by
      refine ⟨fun other => ?_, h.queue⟩
      have hold := h.windows other
      unfold installingOf at hold ⊢
      rw [hinstalling] at hold
      dsimp only at hold ⊢
      by_cases hother : symbol = other
      · subst hother
        rw [if_pos rfl] at hold
        rw [Function.update_self]
        exact hold.finish
      · rw [if_neg hother] at hold
        rw [Function.update_of_ne (Ne.symm hother)]
        exact hold
    dsimp only
    split_ifs with hwarm
    · exact hsound.enqueue (by simpa using hwarm) rfl
    · exact hsound

theorem step (h : SoundFeed feed state) (action : FeedAction K)
    (hanswer : feed.AnswersConsecutive state action) (hfits : feed.Fits state action) :
    SoundFeed feed (feed.step state action) := by
  cases action with
  | kline topic item => exact h.kline hfits
  | fetched symbol klines => exact h.fetched hanswer
  | installed => exact h.installed
  | taken => exact ⟨h.windows, fun snapshot hsnapshot => h.queue snapshot (List.mem_of_mem_tail hsnapshot)⟩
  | closed => exact ⟨h.windows, h.queue⟩

theorem start {answers : String → List (MarketCandle K)}
    (hanswers : ∀ symbol ∈ feed.symbols, feed.ConsecutiveKlines (answers symbol)) :
    SoundFeed feed (feed.start answers) := by
  have hwarm : ∀ symbols, symbols ⊆ feed.symbols → ∀ state : CandleFeedState K,
      SoundFeed feed state → state.installing = none → SoundFeed feed
        (symbols.foldl (fun state symbol => feed.warmUpSymbol (answers symbol) symbol state) state) := by
    intro symbols
    induction symbols with
    | nil => exact fun _ state h _ => h
    | cons symbol symbols ih =>
      intro hsub state h hnone
      have hsymbol := hanswers symbol (hsub List.mem_cons_self)
      refine ih (fun s hs => hsub (List.mem_cons_of_mem _ hs)) _ ⟨fun other => ?_, h.queue⟩ hnone
      have hold := h.windows other
      unfold warmUpSymbol
      dsimp only
      by_cases hother : other = symbol
      · subst hother
        have hidle : installingOf other state = none := by
          unfold installingOf
          rw [hnone]
        rw [Function.update_self, Function.update_self]
        have hnew : SoundWindow feed [] false (some (sortKlines (answers other))) := .begin hsymbol
        have hdone := hnew.warmUp
        rw [← hidle] at hdone
        exact hdone
      · rw [Function.update_of_ne hother, Function.update_of_ne hother]
        exact hold
  exact hwarm feed.symbols (List.Subset.refl _) {} ⟨fun _ => .nil, fun _ h => nomatch h⟩ rfl

end SoundFeed

/-- Consecutive klines fill the windows, and as long as the confirmed candles fit, every snapshot
in the queue is contiguous. -/
theorem contiguousQueue_run (feed : BybitCandleFeed) (answers : String → List (MarketCandle K))
    (actions : List (FeedAction K))
    (hanswers : ∀ symbol ∈ feed.symbols, feed.ConsecutiveKlines (answers symbol))
    (hconsecutive : Runs.Meets feed.step feed.AnswersConsecutive (feed.start answers) actions)
    (hfits : Runs.Meets feed.step feed.Fits (feed.start answers) actions) :
    Runs.Always feed.step feed.ContiguousQueue (feed.start answers) actions :=
  Runs.always_of_invariant (SoundFeed.start hanswers)
    (fun _ action h hboth => SoundFeed.step h action hboth.1 hboth.2) (fun _ h => h.queue)
    (hconsecutive.and hfits)

/-- Without a fit it is lost: a candle that does not follow the last one of a full window is
queued with it. -/
theorem misfit_queued {symbol : String} {state : CandleFeedState K} (h : SoundFeed feed state)
    (hsize : 2 ≤ feed.windowSize) (hwarm : state.warmedUp symbol = true)
    (hnone : installingOf symbol state = none) (hopen : state.loopOpen = true)
    (hroom : state.queue.length < feed.queueSize)
    {last : MarketCandle K} (hlast : last ∈ (state.windows symbol).getLast?)
    (hmisfit : candle.openedAt ≠ last.openedAt + feed.intervalLength) :
    ¬ feed.ContiguousQueue (feed.acceptCandle symbol candle state) := by
  have hlength := (h.windows symbol).full hwarm hnone
  intro hqueue
  have hqueued : ⟨⟨symbol, feed.interval, feed.appendCandle (state.windows symbol) candle⟩, false⟩ ∈
      (feed.acceptCandle symbol candle state).queue := by
    simp [acceptCandle, enqueueSnapshot, hwarm, hopen, not_le.mpr hroom]
  have hchain := (hqueue _ hqueued).2
  obtain ⟨before, hbefore⟩ := List.getLast?_eq_some_iff.mp hlast
  rw [hbefore, List.length_append, List.length_singleton] at hlength
  have hkept : feed.appendCandle (state.windows symbol) candle =
      (before ++ [last]).drop 1 ++ [candle] := by
    have hdropped : before.length + 1 + 1 - feed.windowSize = 1 := by omega
    unfold appendCandle
    rw [hbefore, List.length_append, List.length_singleton, hdropped,
      List.drop_append_of_le_length (by simp)]
  rw [hkept] at hchain
  have hfollows := (List.isChain_append.mp hchain).2.2 last ?_ candle rfl
  · exact hmisfit hfollows.2
  · rw [Option.mem_def, List.drop_append_of_le_length (by omega), List.getLast?_concat]

end BybitCandleFeed

def minuteFeed : BybitCandleFeed where
  symbols := ["BTCUSDT"]
  interval := "1"
  intervalSeconds := 60
  windowSize := 2
  symbols_ne := by decide
  interval_known := rfl

def minuteCandle (minute : Int) : MarketCandle Rat :=
  ⟨minute * 60000000, 100, 101, 99, 100, 10⟩

def confirmed (minute : Int) : FeedAction Rat :=
  .kline "kline.1.BTCUSDT" { confirm := true, candle := some (minuteCandle minute) }

/-- The newest kline of the warm-up is still in progress. -/
def warmUpKlines : String → List (MarketCandle Rat) := fun _ => [minuteCandle 1, minuteCandle 0]

theorem warmUpKlines_consecutive (symbol : String) :
    minuteFeed.ConsecutiveKlines (warmUpKlines symbol) := by
  unfold BybitCandleFeed.ConsecutiveKlines warmUpKlines BybitCandleFeed.sortKlines
  decide +kernel

theorem confirmed_fits {state : CandleFeedState Rat} {minute : Int}
    (hlast : (state.windows "BTCUSDT").getLast? = some (minuteCandle (minute - 1)))
    (hnone : state.installing = none) : minuteFeed.Fits state (confirmed minute) := by
  intro symbol hsymbol candle hcandle _ _
  have htopic : (BybitCandleFeed.topicParts "kline.1.BTCUSDT")[2]? = some "BTCUSDT" := by decide +kernel
  obtain rfl := Option.some.inj (htopic.symm.trans hsymbol)
  obtain rfl := Option.some.inj hcandle
  refine .inr ⟨fun last hmem => ?_, by unfold BybitCandleFeed.installingOf; rw [hnone]⟩
  obtain rfl := Option.some.inj (hlast.symm.trans hmem)
  change (minute * 60000000 : Int) = (minute - 1) * 60000000 + 60 * 1000000
  omega

theorem contiguousQueue_nextMinute :
    Runs.Always minuteFeed.step minuteFeed.ContiguousQueue (minuteFeed.start warmUpKlines)
      [confirmed 2] :=
  BybitCandleFeed.contiguousQueue_run minuteFeed warmUpKlines [confirmed 2]
    (fun symbol _ => warmUpKlines_consecutive symbol) ⟨trivial, trivial⟩
    ⟨confirmed_fits (by decide +kernel) rfl, trivial⟩

/-- The kline that was in progress is confirmed, and is in the window twice. -/
theorem contiguousQueue_fails :
    (∀ symbol ∈ minuteFeed.symbols, minuteFeed.ConsecutiveKlines (warmUpKlines symbol)) ∧
      ¬ Runs.Always minuteFeed.step minuteFeed.ContiguousQueue (minuteFeed.start warmUpKlines)
        [confirmed 1] := by
  refine ⟨fun symbol _ => warmUpKlines_consecutive symbol, fun halways => ?_⟩
  have hqueue := halways.last
  have hqueued : ⟨⟨"BTCUSDT", "1", [minuteCandle 1, minuteCandle 1]⟩, false⟩ ∈
      (Runs.run minuteFeed.step (minuteFeed.start warmUpKlines) [confirmed 1]).queue := by
    decide +kernel
  have hchain := (hqueue _ hqueued).2
  revert hchain
  decide +kernel

end AmaExecutionCore
