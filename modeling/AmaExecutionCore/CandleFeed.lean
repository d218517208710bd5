import AmaExecutionCore.MarketData
import AmaExecutionCore.Store
import Mathlib.Data.List.Sort
import Mathlib.Data.List.SplitOn

/-! `BybitCandleFeed`: the windows of candles, the confirmed candles of the WebSocket thread and
the gap recoveries of the event loop. -/
namespace AmaExecutionCore

def intervalToSeconds (interval : String) : Except PyError Int :=
  match interval with
  | "1" => .ok 60
  | "3" => .ok 180
  | "5" => .ok 300
  | "15" => .ok 900
  | "30" => .ok 1800
  | "60" => .ok 3600
  | "120" => .ok 7200
  | "240" => .ok 14400
  | "D" => .ok 86400
  | _ => .error (.valueError ("Unknown interval: " ++ interval))

structure BybitCandleFeed where
  symbols : List String
  interval : String
  intervalSeconds : Int
  windowSize : Nat
  queueSize : Nat := 500
  symbols_ne : symbols ≠ []
  interval_known : intervalToSeconds interval = .ok intervalSeconds

structure CandleFeedSnapshot (K : Type) where
  snapshot : MarketSnapshot K
  gapRecovered : Bool := false
  deriving DecidableEq

/-- One item of a kline message; an item without a candle is malformed. -/
structure KlineItem (K : Type) where
  confirm : Bool := false
  candle : Option (MarketCandle K)

/-- The recoveries whose candles are asked for are in `recovering`, and `installing` is what is
left of the warm-up the event loop is in. -/
structure CandleFeedState (K : Type) where
  windows : String → List (MarketCandle K) := fun _ => []
  warmedUp : String → Bool := fun _ => false
  recovering : List String := []
  installing : Option (String × List (MarketCandle K)) := none
  queue : List (CandleFeedSnapshot K) := []
  loopOpen : Bool := true

namespace BybitCandleFeed

/-- `__init__`. -/
def create (symbols : List String) (interval : String) (windowSize : Nat) :
    Except PyError BybitCandleFeed :=
  if h : symbols = [] then
    .error (.valueError "BybitCandleFeed requires at least one symbol.")
  else
    match hi : intervalToSeconds interval with
    | .error e => .error e
    | .ok seconds =>
      .ok { symbols := symbols, interval := interval, intervalSeconds := seconds
            windowSize := windowSize, symbols_ne := h, interval_known := hi }

variable {K : Type} (feed : BybitCandleFeed)

/-- One interval, in the microseconds of a `Timestamp`. -/
def intervalLength : Int := feed.intervalSeconds * 1000000

/-- `window.append`, of a deque that keeps its last `windowSize` candles. -/
def appendCandle (window : List (MarketCandle K)) (candle : MarketCandle K) :
    List (MarketCandle K) :=
  (window ++ [candle]).drop (window.length + 1 - feed.windowSize)

def isGap (lastCandle newCandle : MarketCandle K) : Bool :=
  newCandle.openedAt >
    lastCandle.openedAt + feed.intervalLength + feed.intervalSeconds * 3 / 2 * 1000000

def sortKlines (klines : List (MarketCandle K)) : List (MarketCandle K) :=
  klines.insertionSort fun a b => a.openedAt ≤ b.openedAt

/-- `_warm_up_symbol`, of a feed that has no WebSocket yet. -/
def warmUpSymbol (klines : List (MarketCandle K)) (symbol : String) (state : CandleFeedState K) :
    CandleFeedState K :=
  let window := (sortKlines klines).foldl feed.appendCandle []
  { state with
    windows := Function.update state.windows symbol window
    warmedUp := Function.update state.warmedUp symbol (decide (window.length ≥ feed.windowSize)) }

/-- `start`, where `answers` are the klines of each symbol. -/
def start (answers : String → List (MarketCandle K)) : CandleFeedState K :=
  feed.symbols.foldl (fun state symbol => feed.warmUpSymbol (answers symbol) symbol state) {}

/-- `_enqueue_snapshot`, with `_queue_snapshot_nowait`. -/
def enqueueSnapshot (symbol : String) (gapRecovered : Bool) (state : CandleFeedState K) :
    CandleFeedState K :=
  if !state.loopOpen then state
  else if 0 < feed.queueSize ∧ feed.queueSize ≤ state.queue.length then state
  else
    { state with
      queue := state.queue ++ [⟨⟨symbol, feed.interval, state.windows symbol⟩, gapRecovered⟩] }

/-- The end of `_handle_confirmed_candle`, for a candle that is not behind a gap. -/
def acceptCandle (symbol : String) (candle : MarketCandle K) (state : CandleFeedState K) :
    CandleFeedState K :=
  let window := feed.appendCandle (state.windows symbol) candle
  let state := { state with
    windows := Function.update state.windows symbol window
    warmedUp := Function.update state.warmedUp symbol
      (state.warmedUp symbol || decide (window.length ≥ feed.windowSize)) }
  if state.warmedUp symbol then feed.enqueueSnapshot symbol false state else state

def handleConfirmedCandle (symbol : String) (candle : MarketCandle K) (state : CandleFeedState K) :
    CandleFeedState K :=
  if symbol ∈ feed.symbols then
    if (state.windows symbol).getLast?.any fun last => feed.isGap last candle then
      if state.loopOpen then { state with recovering := state.recovering ++ [symbol] } else state
    else feed.acceptCandle symbol candle state
  else state

/-- `topic.split(".")`. -/
def topicParts (topic : String) : List String :=
  (topic.toList.splitOn '.').map String.ofList

/-- `_on_kline_message`, for one item of a message. -/
def onKlineMessage (topic : String) (item : KlineItem K) (state : CandleFeedState K) :
    CandleFeedState K :=
  match (topicParts topic)[2]?, item.confirm, item.candle with
  | some symbol, true, some candle => feed.handleConfirmedCandle symbol candle state
  | _, _, _ => state

/-- The klines of a recovery arrive, or the request for them fails. -/
def recoveryFetched (symbol : String) (klines : Option (List (MarketCandle K)))
    (state : CandleFeedState K) : CandleFeedState K :=
  if symbol ∈ state.recovering ∧ state.installing = none then
    let state := { state with recovering := state.recovering.erase symbol }
    match klines with
    | none => state
    | some klines =>
      { state with
        windows := Function.update state.windows symbol []
        installing := some (symbol, sortKlines klines) }
  else state

/-- The next step of the warm-up of a recovery. The window is not locked, so a candle can be
handled between two of them. -/
def recoveryInstalled (state : CandleFeedState K) : CandleFeedState K :=
  match state.installing with
  | none => state
  | some (symbol, kline :: klines) =>
    { state with
      windows := Function.update state.windows symbol
        (feed.appendCandle (state.windows symbol) kline)
      installing := some (symbol, klines) }
  | some (symbol, []) =>
    let warm := decide ((state.windows symbol).length ≥ feed.windowSize)
    let state := { state with
      warmedUp := Function.update state.warmedUp symbol warm
      installing := none }
    if warm then feed.enqueueSnapshot symbol true state else state

end BybitCandleFeed

inductive FeedAction (K : Type) where
  | kline (topic : String) (item : KlineItem K)
  | fetched (symbol : String) (klines : Option (List (MarketCandle K)))
  | installed
  | taken
  | closed

/-- One step of the WebSocket thread, of the event loop, or of the consumer of the queue. -/
def BybitCandleFeed.step {K : Type} (feed : BybitCandleFeed) (state : CandleFeedState K) :
    FeedAction K → CandleFeedState K
  | .kline topic item => feed.onKlineMessage topic item state
  | .fetched symbol klines => recoveryFetched symbol klines state
  | .installed => feed.recoveryInstalled state
  | .taken => { state with queue := state.queue.tail }
  | .closed => { state with loopOpen := false }

end AmaExecutionCore
