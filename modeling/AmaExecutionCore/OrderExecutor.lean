import Mathlib.Data.List.Infix
import AmaExecutionCore.SafetyGuard
import AmaExecutionCore.ExchangeSync

/-! `OrderExecutor` and the risk calculator it calls: from a signal to a submitted
entry order, with every way the submission can end. -/
namespace AmaExecutionCore

def calculatePositionRaw (equity entry stop riskPct : Rat) : Except PyError Rat :=
  if equity ≤ 0 then .error .invalidRiskInputError
  else if riskPct ≤ 0 then .error .invalidRiskInputError
  else if entry = stop then .error .zeroRiskDistanceError
  else .ok (equity * riskPct / |entry - stop|)

def checkRrr (entry stop target minRrr : Rat) : Except PyError Bool :=
  if |entry - stop| = 0 then .error .zeroRiskDistanceError
  else .ok (minRrr ≤ |target - entry| / |entry - stop|)

/-- `to_integral_value(rounding=ROUND_DOWN)`. -/
def truncate (q : Rat) : Rat := if 0 ≤ q then q.floor else q.ceil

def applyExchangeConstraints (qty entryPrice qtyStep minQty minNotional : Rat) :
    Except PyError Rat :=
  if qty ≤ 0 then .error .invalidRiskInputError
  else if qtyStep = 0 then .error .invalidOperation
  else
    let roundQty := truncate (qty / qtyStep) * qtyStep
    if roundQty < minQty then .error .belowMinQtyError
    else if roundQty * entryPrice < minNotional then .error .belowMinNotionalError
    else .ok roundQty

/-- Python's `round(q, 8)`: ties go to the even last digit. -/
def round8 (q : Rat) : Rat :=
  let scaled := q * 100000000
  let low := scaled.floor
  let rest := scaled - low
  let digit : Int :=
    if rest < 1 / 2 then low else if 1 / 2 < rest then low + 1
    else if low % 2 = 0 then low else low + 1
  digit / 100000000

/-- One entry of the wallet's coin list. -/
structure CoinItem where
  coin : Option String
  equity : Option RawNumber
  walletBalance : Option RawNumber

/-- The accounts of a wallet answer; `none` where the payload has another shape. -/
abbrev WalletPayload := List (Option (List (Option CoinItem)))

structure Instrument where
  qtyStep : Option Rat
  basePrecision : Option Rat
  minOrderQty : Option Rat
  minOrderAmt : Option Rat
  baseCoin : Option String
  quoteCoin : Option String

def extractCoins : List (Option CoinItem) → Except PyError (List (String × Rat))
  | [] => .ok []
  | none :: items => extractCoins items
  | some item :: items =>
    match item.coin with
    | none | some "" => extractCoins items
    | some coin =>
      match item.equity <|> item.walletBalance with
      | none => extractCoins items
      | some raw =>
        match raw.parse, extractCoins items with
        | .error e, _ => .error e
        | .ok _, .error e => .error e
        -- a later entry of the same coin overwrites this one
        | .ok amount, .ok rest =>
          .ok (if (rest.lookup coin).isSome then rest else (coin, amount) :: rest)

/-- `_extract_wallet_balances`: the coins of the first account. -/
def extractWalletBalances : WalletPayload → Except PyError (List (String × Rat))
  | some coins :: _ => extractCoins coins
  | _ => .ok []

structure NormalizedExecuteSignalRequest where
  symbol : String
  direction : SignalDirection
  entry : Rat
  stop : Rat
  target : Rat
  reason : Option String := none
  strategyVersion : Option String := none
  indicatorsSnapshot : Option String := none
  deriving DecidableEq, Repr

/-- What one `execute_signal` meets, in the order it meets it. `pendingLookup` is the answer
about an earlier trade in ORDER_PENDING_UNKNOWN, `lookup` the one about the order of an
uncertain submission. The transaction begins at `now`, which the guard and the breaker read
too; the new trade is counted after the answers of the exchange. -/
structure ExecuteIo where
  pendingLookup : StatusOutcome
  now : Timestamp
  wallet : Except PyError WalletPayload
  instrument : Except PyError Instrument
  countedAt : Timestamp
  entry : PlaceOutcome
  fallback : PlaceOutcome
  lookup : StatusOutcome

def effectiveRiskPerTradePct (s : Settings) : Rat :=
  if s.canaryMode ∧ s.tradingMode ≠ .shadow then s.riskPerTradePct * s.canaryRiskMultiplier
  else s.riskPerTradePct

def terminalStatuses : List TradeStatus :=
  [.orderRejected, .orderCancelled, .positionClosed, .positionCloseFailed, .pnlRecorded]

def isTradeTerminal (status : TradeStatus) : Bool := status ∈ terminalStatuses

def isOrderAlreadySubmitted (signalId : SignalId) (db : Db) : Bool :=
  db.trades.any fun t => t.signalId = some signalId && !isTradeTerminal t.status

/-- The equity, and the balances outside shadow mode. -/
def fetchEquity (s : Settings) (io : ExecuteIo) : Except PyError (Rat × List (String × Rat)) :=
  if s.tradingMode = .shadow then .ok (s.shadowEquity, [])
  else
    match io.wallet with
    | .error e => .error e
    | .ok payload => (extractWalletBalances payload).map fun balances =>
        ((balances.lookup "USDT").getD 0, balances)

def validateSpotBalances (direction : SignalDirection) (entry qty : Rat) (instrument : Instrument)
    (balances : List (String × Rat)) : Except PyError Unit :=
  match instrument.baseCoin, instrument.quoteCoin with
  | some baseCoin, some quoteCoin =>
    if baseCoin = "" ∨ quoteCoin = "" then
      .error (.riskManagerError "Spot instrument metadata missing baseCoin/quoteCoin")
    else
      match direction with
      | .long =>
        if (balances.lookup quoteCoin).getD 0 < qty * entry then
          .error .insufficientSpotBalanceError
        else .ok ()
      | .short =>
        if (balances.lookup baseCoin).getD 0 < qty then .error .insufficientSpotBalanceError
        else .ok ()
  | _, _ => .error (.riskManagerError "Spot instrument metadata missing baseCoin/quoteCoin")

/-- Step 6 of `execute`: the raw quantity under the exchange's filters. -/
def constrainQty (s : Settings) (category : MarketType) (req : NormalizedExecuteSignalRequest)
    (io : ExecuteIo) (balances : List (String × Rat)) (qtyRaw : Rat) : Except PyError Rat :=
  if s.tradingMode = .shadow then .ok (round8 qtyRaw)
  else
    match io.instrument with
    | .error e => .error e
    | .ok instrument =>
      let step := (instrument.qtyStep <|> instrument.basePrecision).getD (1 / 1000000)
      match instrument.minOrderQty with
      | none => .error .keyError
      | some minQty =>
        match applyExchangeConstraints qtyRaw req.entry step minQty
            (instrument.minOrderAmt.getD 0) with
        | .error e => .error e
        | .ok qty =>
          if category = .spot then
            (validateSpotBalances req.direction req.entry qty instrument balances).map fun _ => qty
          else .ok qty

/-- The statuses `_ensure_total_exposure_within_limit` sums over. -/
def exposureStatuses : List TradeStatus :=
  [.positionOpen, .positionClosePending, .orderPartiallyFilled]

/-- The risk a trade counts for: pro rata to the fill while partially filled. -/
def weightedRisk (t : Trade) : Rat :=
  let risk := t.riskAmountUsd.getD 0
  match t.qty, t.filledQty with
  | some qty, some filledQty =>
    if t.status = .orderPartiallyFilled ∧ qty ≠ 0 ∧ filledQty ≠ 0 then risk * (filledQty / qty)
    else risk
  | _, _ => risk

def openRisk (db : Db) : Rat := ((db.listTradesByStatus exposureStatuses).map weightedRisk).sum

/-- `_ensure_total_exposure_within_limit`. -/
def exposureWithinLimit (s : Settings) (equity : Rat) (db : Db) : Bool :=
  openRisk db + equity * effectiveRiskPerTradePct s ≤ equity * s.maxTotalRiskExposurePct

def openPositionCount (db : Db) : Nat := (db.listTradesByStatus [.positionOpen]).length

/-- What the checks of `execute` settle before the trade is created. -/
structure EntryPlan where
  equity : Rat
  riskPct : Rat
  qty : Rat
  deriving DecidableEq, Repr

/-- Steps 3 to 7 of `execute`. -/
def planEntry (s : Settings) (category : MarketType) (req : NormalizedExecuteSignalRequest)
    (io : ExecuteIo) (db : Db) : Except PyError EntryPlan :=
  match fetchEquity s io with
  | .error e => .error e
  | .ok (equity, balances) =>
    match calculatePositionRaw equity req.entry req.stop (effectiveRiskPerTradePct s) with
    | .error e => .error e
    | .ok qtyRaw =>
      match checkRrr req.entry req.stop req.target s.minRrr with
      | .error e => .error e
      | .ok false => .error (.riskManagerError "RRR below minimum")
      | .ok true =>
        match constrainQty s category req io balances qtyRaw with
        | .error e => .error e
        | .ok qty =>
          if s.maxOpenPositions ≤ openPositionCount db then
            .error (.riskManagerError "Max open positions already reached.")
          else if exposureWithinLimit s equity db = false then
            .error (.riskManagerError "Total risk exposure limit would be exceeded.")
          else .ok ⟨equity, effectiveRiskPerTradePct s, qty⟩

/-- All checks of `execute` after the kill switch, on the rows the session sees. -/
def checkEntry (s : Settings) (category : MarketType) (req : NormalizedExecuteSignalRequest)
    (io : ExecuteIo) (signalId : SignalId) (db : Db) :
    Except (PyError × Option Ledger) EntryPlan :=
  match circuitBreakerCheck s io.now db.ledger with
  | .error e => .error e
  | .ok _ =>
    if isOrderAlreadySubmitted signalId db then .error (.orderAlreadySubmittedError, none)
    else
      match planEntry s category req io db with
      | .error e => .error (e, none)
      | .ok plan => .ok plan

/-- Step 8 of `execute`: the new trade. -/
def buildTrade (s : Settings) (req : NormalizedExecuteSignalRequest) (plan : EntryPlan)
    (signalId : SignalId) (now : Timestamp) (nonce : Nat) : Trade :=
  { id := nonce
    signalId := some signalId
    orderLinkId := some (.generated (some signalId) (2 * nonce))
    symbol := req.symbol
    signalDirection := req.direction
    exchangeSide := if req.direction = .long then .buy else .sell
    marketType := .spot
    mode := s.tradingMode
    equityAtEntry := some plan.equity
    riskAmountUsd := some (storedAmount (plan.equity * plan.riskPct))
    riskPct := some plan.riskPct
    entryPrice := some req.entry
    stopPrice := some req.stop
    targetPrice := some req.target
    expectedRrr := some (|req.target - req.entry| / |req.entry - req.stop|)
    qty := some plan.qty
    status := .riskCalculated
    createdAt := now }

def orderExecutor : List (String × String) := [("source", "order_executor")]

/-- The trade with its `trade_created` event, as the session holds it. -/
def createTrade (trade : Trade) (w : World) : Work :=
  (w.work trade).appendTradeEvent .tradeCreated none (some trade.status) orderExecutor

def marketEntryRequest (category : MarketType) (req : NormalizedExecuteSignalRequest)
    (qty : Rat) (side : ExchangeSide) (link : OrderLinkId) : OrderRequest :=
  { category := category, symbol := req.symbol, side := side, orderType := .market, qty := qty
    orderLinkId := link
    slPrice := if category = .spot then none else some req.stop
    tpPrice := if category = .spot then none else some req.target
    marketUnit := marketUnit side }

def limitEntryRequest (category : MarketType) (req : NormalizedExecuteSignalRequest)
    (qty : Rat) (side : ExchangeSide) (link : OrderLinkId) : OrderRequest :=
  { category := category, symbol := req.symbol, side := side, orderType := .limit, qty := qty
    price := some req.entry, orderLinkId := link, isPostOnly := true
    slPrice := some req.stop, tpPrice := some req.target }

def looksLikePostOnlyRejection (retMsg : String) : Bool :=
  decide ("postonly".toList <:+: retMsg.toList.map Char.toLower) ||
    decide ("post only".toList <:+: retMsg.toList.map Char.toLower)

/-- What follows an accepted submission. -/
def noteSubmitted (orderType : OrderType) (isPostOnly : Bool) (orderId : Option String)
    (w : Work) : Work :=
  (w.onTrade fun t => { t with
    orderType := some orderType
    isPostOnly := isPostOnly
    exchangeOrderId := orderId }).transitionTradeStatus .orderSubmitted orderExecutor

/-- The submission of a market order under the trade's current id. -/
def submitMarket (category : MarketType) (req : NormalizedExecuteSignalRequest)
    (link : OrderLinkId) (outcome : PlaceOutcome) (w : Work) : Outcome Work Unit :=
  let w := w.placeOrder .entry (marketEntryRequest category req (w.trade.qty.getD 0)
    w.trade.exchangeSide link) outcome
  match outcome.result with
  | .error e => (.error e, w)
  | .ok orderId => (.ok (), noteSubmitted .market false orderId w)

/-- `_submit_order`. The order type is set only after the call returned. -/
def submitOrder (mode : OrderMode) (category : MarketType) (req : NormalizedExecuteSignalRequest)
    (io : ExecuteIo) (w : Work) : Outcome Work Unit :=
  let link := w.trade.orderLinkId.getD (.generated w.trade.signalId (2 * w.nonce))
  if mode = .takerAllowed then submitMarket category req link io.entry w
  else
    let w := w.placeOrder .entry (limitEntryRequest category req (w.trade.qty.getD 0)
      w.trade.exchangeSide link) io.entry
    match io.entry with
    | .accepted orderId => (.ok (), noteSubmitted .limit true orderId w)
    | .apiError msg =>
      if mode = .makerPreferred ∧ looksLikePostOnlyRejection msg = true then
        let link := OrderLinkId.generated w.trade.signalId (2 * w.nonce + 1)
        submitMarket category req link io.fallback
          (w.onTrade fun t => { t with orderLinkId := some link })
      else (.error (.bybitApiError msg), w)
    | outcome => (outcome.result.map fun _ => (), w)

def mapRemoteOrderStatus : OrderStatusText → TradeStatus
  | .filled => .orderConfirmed
  | .cancelled => .orderCancelled
  | .partiallyFilled => .orderPartiallyFilled
  | .rejected => .orderRejected
  | .other => .orderPendingUnknown

/-- `reconcile_pending_unknown`. Only connection errors and timeouts of the lookup
are caught. -/
def reconcilePendingUnknown (lookup : StatusOutcome) (w : Work) : Outcome Work Unit :=
  match w.trade.orderLinkId with
  | none => (.ok (), w)
  | some _ =>
    match lookup with
    | .error .bybitConnectionError | .error .timeoutError => (.ok (), w)
    | .error e => (.error e, w)
    | .ok none => (.ok (), w)
    | .ok (some remote) =>
      (.ok (), (w.onTrade fun t => { t with exchangeOrderId := remote.orderId }).transitionTradeStatus
        (mapRemoteOrderStatus remote.orderStatus) [("source", "pending_unknown_reconciliation")])

/-- How `execute` leaves the session once the trade is created: committed, possibly
raising afterwards, or raising with nothing committed. -/
inductive Settled where
  | committed (raised : Option PyError) (k : Work)
  | aborted (raised : PyError) (k : Work)

def Settled.work : Settled → Work
  | .committed _ k => k
  | .aborted _ k => k

def handleSubmitUncertainty (lookup : StatusOutcome) (k : Work) : Settled :=
  match reconcilePendingUnknown lookup (k.transitionTradeStatus .orderPendingUnknown
      (orderExecutor ++ [("reason", "submit_uncertain")])) with
  | (.error e, k) => .aborted e k
  | (.ok (), k) => .committed none k

/-- Steps 9 and 10 of `execute`. -/
def settleEntry (s : Settings) (category : MarketType) (req : NormalizedExecuteSignalRequest)
    (io : ExecuteIo) (k : Work) : Settled :=
  if s.tradingMode = .shadow then
    .committed none (k.transitionTradeStatus .orderSubmitted
      (orderExecutor ++ [("execution_mode", "shadow")]))
  else
    let k := k.transitionTradeStatus .safetyChecked orderExecutor
    match submitOrder s.orderMode category req io
        (k.onTrade fun t => { t with orderType := some .limit }) with
    | (.ok (), k) => .committed none k
    | (.error (.bybitApiError msg), k) =>
      .committed (some (.bybitApiError msg)) (k.transitionTradeStatus .orderRejected
        (orderExecutor ++ [("reason", "exchange_rejected")]))
    | (.error .bybitConnectionError, k) => handleSubmitUncertainty io.lookup k
    | (.error .timeoutError, k) => handleSubmitUncertainty io.lookup k
    | (.error e, k) => .aborted e k

end AmaExecutionCore
