import AmaExecutionCore.SignalExecution
import AmaExecutionCore.PositionManager

/-! The execution core as one state machine: requests, order and execution events,
closes, reconcile passes, the kill switch and the exchange itself, each handled to
its commit or rollback before the next. -/
namespace AmaExecutionCore

inductive Step where
  | executeSignal (req : NormalizedExecuteSignalRequest) (io : ExecuteIo)
  | processOrder (data : OrderData) (io : HandlerIo)
  | processExecution (data : ExecutionData)
  | closeTrade (tradeId : TradeId) (exitReason : ExitReason) (io : CloseIo)
  | reconcileEntryOrders (answer : TradeId → StatusOutcome) (io : TradeId → HandlerIo)
  | reconcileCloseOrders (answer : TradeId → StatusOutcome) (io : TradeId → HandlerIo)
  | reconcileMissingProtection (io : TradeId → HandlerIo)
  | activateKillSwitch (now : Timestamp)
  | resetKillSwitch (now : Timestamp)
  | killSwitchStatus (now : Timestamp)
  | settle (link : OrderLinkId) (state : OrderState)

def step (env : Env) (w : World) : Step → World
  | .executeSignal req io => (executeSignal env req io w).2
  | .processOrder data io => (processOrder env.restClient io data w).2
  | .processExecution data => (processExecution data w).2
  | .closeTrade tradeId exitReason io =>
    (closeTrade env.settings.tradingMode tradeId exitReason io w).2
  | .reconcileEntryOrders answer io => reconcileEntryOrders env.restClient answer io w
  | .reconcileCloseOrders answer io => reconcileCloseOrders env.restClient answer io w
  | .reconcileMissingProtection io => reconcileMissingProtectionOrders env.restClient io w
  | .activateKillSwitch now =>
    activateKillSwitch env.settings.tradingMode env.restClient now w
  | .resetKillSwitch now => resetKillSwitch now w
  | .killSwitchStatus now => killSwitchStatus now w
  | .settle link state => { w with exchange := w.exchange.settle link state }

/-- A demo deployment with a REST client. -/
def demoEnv (orderMode : OrderMode) : Env where
  settings := { tradingMode := .demo, orderMode := orderMode }
  restClient := true
  fingerprint := fun req => req.symbol

def demoRequest : NormalizedExecuteSignalRequest where
  symbol := "BTCUSDT"
  direction := .long
  entry := 100
  stop := 98
  target := 105

/-- A call whose checks pass: 1000 USDT of equity, a quantity of 5. -/
def demoExecute (entry : PlaceOutcome) (lookup : StatusOutcome) : ExecuteIo where
  pendingLookup := lookup
  now := 0
  wallet := .ok [some [some ⟨some "USDT", some (.decimal 1000), none⟩]]
  instrument := .ok ⟨some (1 / 1000), none, some (1 / 1000), some 5, some "BTC", some "USDT"⟩
  countedAt := 0
  entry := entry
  fallback := .apiError ""
  lookup := lookup

example : ((executeSignal (demoEnv .takerAllowed) demoRequest
    (demoExecute (.accepted (some "x1")) (.ok none)) {}).2.db.trades.map fun t =>
      (t.status, t.qty)) = [(.orderSubmitted, some 5)] := by decide +kernel

/-- Each order a handler sends is accepted. -/
def demoHandler (now : Timestamp) : HandlerIo where
  now := now
  stop := .accepted none
  takeProfit := .accepted none
  emergencyClose := .accepted none

/-- The complete fill of the first request's entry order. -/
def demoEntryFill : OrderData where
  orderLinkId := some (.generated (some 0) 2)
  orderStatus := .filled
  cumExecQty := some (.decimal 5)
  leavesQty := some "0"

/-- An entry order with this outcome, filled at once, and the fill handled. -/
def filledEntryRun (entry : PlaceOutcome) : List Step :=
  [.executeSignal demoRequest (demoExecute entry (.ok none)),
    .settle (.generated (some 0) 2) .filled,
    .processOrder demoEntryFill (demoHandler 1)]

end AmaExecutionCore
