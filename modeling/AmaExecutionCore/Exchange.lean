import AmaExecutionCore.Models

/-! What the exchange was sent and what it answers. The log of sent orders and the
state of each order are not seen by the program; they say what its orders can
still do. -/
namespace AmaExecutionCore

/-- A numeric field of a payload: `Decimal(str(...))` either reads it or raises. -/
inductive RawNumber where
  | decimal (value : Rat)
  | malformed
  deriving DecidableEq, Repr

def RawNumber.parse : RawNumber → Except PyError Rat
  | .decimal q => .ok q
  | .malformed => .error .invalidOperation

/-- `orderStatus` of a payload; every text outside the four mapped ones is `other`. -/
inductive OrderStatusText where
  | filled | rejected | cancelled | partiallyFilled | other
  deriving DecidableEq, Repr

/-- An order payload, from the order topic or from `get_order_status`. A missing and an
empty `orderLinkId` are both `none`: neither finds a trade. An answer to a lookup gets the id
that was asked for when its own is missing; an empty one, which would stay empty there, is
no report of that order and is not modelled. -/
structure OrderData where
  orderLinkId : Option OrderLinkId := none
  orderStatus : OrderStatusText
  orderId : Option String := none
  avgPrice : Option RawNumber := none
  cumExecQty : Option RawNumber := none
  leavesQty : Option String := none
  deriving DecidableEq, Repr

def OrderData.cumQty (data : OrderData) : Option Rat :=
  match data.cumExecQty with
  | some (.decimal q) => some q
  | _ => none

def OrderData.execWithin (data : OrderData) (qty : Rat) : Bool :=
  match data.cumExecQty with
  | some (.decimal q) => decide (0 ≤ q) && decide (q ≤ qty)
  | _ => true

structure ExecutionData where
  orderLinkId : Option OrderLinkId := none
  execFee : Option RawNumber := none
  execPrice : Option RawNumber := none
  deriving DecidableEq, Repr

/-- How one `place_order` call ends. An exception other than `BybitAPIError` leaves
open whether the order reached the exchange; `reached` is what really happened. -/
inductive PlaceOutcome where
  | accepted (orderId : Option String)
  | apiError (retMsg : String)
  | connectionError (reached : Bool)
  | timeoutError (reached : Bool)
  | otherError (reached : Bool)
  deriving DecidableEq, Repr

def PlaceOutcome.result : PlaceOutcome → Except PyError (Option String)
  | .accepted orderId => .ok orderId
  | .apiError msg => .error (.bybitApiError msg)
  | .connectionError _ => .error .bybitConnectionError
  | .timeoutError _ => .error .timeoutError
  | .otherError _ => .error .otherError

def PlaceOutcome.reached : PlaceOutcome → Bool
  | .accepted _ => true
  | .apiError _ => false
  | .connectionError r | .timeoutError r | .otherError r => r

def PlaceOutcome.raises (o : PlaceOutcome) : Bool := o.result.toOption.isNone

/-- Only an answer of the exchange rules out that it took the order. -/
def PlaceOutcome.mayBeAccepted : PlaceOutcome → Bool
  | .apiError _ => false
  | _ => true

abbrev StatusOutcome := Except PyError (Option OrderData)

inductive OrderState where
  | refused
  | live (executed : Bool)
  | filled
  | cancelled (executed : Bool)
  | rejected
  deriving DecidableEq, Repr

def OrderState.isLive : OrderState → Bool
  | .live _ => true
  | _ => false

/-- The steps of an order's life at the exchange. -/
def OrderState.canMove : OrderState → OrderState → Bool
  | .live _, .live true => true
  | .live _, .filled => true
  | .live executed, .cancelled executed' => executed == executed'
  | .live false, .rejected => true
  | _, _ => false

/-- A status is reported only for an order that has been in it. -/
def OrderState.hasReported : OrderState → OrderStatusText → Bool
  | .filled, .filled => true
  | .rejected, .rejected => true
  | .cancelled _, .cancelled => true
  | .live true, .partiallyFilled => true
  | .filled, .partiallyFilled => true
  | .cancelled true, .partiallyFilled => true
  | _, .other => true
  | _, _ => false

theorem OrderState.live_of_canMove {s s' : OrderState} (h : s.canMove s' = true) :
    s.isLive = true := by
  cases s <;> simp_all [OrderState.canMove, OrderState.isLive]

/-- What an order was sent for. -/
inductive OrderRole where
  | entry | close | emergencyClose | stop | takeProfit
  deriving DecidableEq, Repr

def OrderRole.isExit : OrderRole → Bool
  | .entry => false
  | _ => true

def OrderRole.isClose : OrderRole → Bool
  | .close | .emergencyClose => true
  | _ => false

/-- The arguments of `place_order`. -/
structure OrderRequest where
  category : MarketType
  symbol : String
  side : ExchangeSide
  orderType : OrderType
  qty : Rat
  price : Option Rat := none
  orderLinkId : OrderLinkId
  isPostOnly : Bool := false
  slPrice : Option Rat := none
  tpPrice : Option Rat := none
  marketUnit : Option String := none
  triggerPrice : Option Rat := none
  orderFilter : Option String := none
  reduceOnly : Option Bool := none
  deriving DecidableEq, Repr

structure SentOrder where
  trade : TradeId
  role : OrderRole
  request : OrderRequest
  state : OrderState
  deriving DecidableEq, Repr

def SentOrder.linkId (o : SentOrder) : OrderLinkId := o.request.orderLinkId

def SentOrder.isLive (o : SentOrder) : Bool := o.state.isLive

def SentOrder.settle (link : OrderLinkId) (state : OrderState) (o : SentOrder) : SentOrder :=
  if o.linkId = link ∧ o.state.canMove state = true then { o with state := state } else o

structure Exchange where
  orders : List SentOrder := []
  cancelRequests : List OrderLinkId := []
  deriving DecidableEq, Repr

def SentOrder.ofCall (trade : TradeId) (role : OrderRole) (request : OrderRequest)
    (outcome : PlaceOutcome) : SentOrder :=
  ⟨trade, role, request, if outcome.reached then .live false else .refused⟩

namespace Exchange

def place (trade : TradeId) (role : OrderRole) (request : OrderRequest)
    (outcome : PlaceOutcome) (x : Exchange) : Exchange :=
  { x with orders := x.orders ++ [.ofCall trade role request outcome] }

def requestCancel (link : OrderLinkId) (x : Exchange) : Exchange :=
  { x with cancelRequests := x.cancelRequests ++ [link] }

/-- The exchange moves the order named `link` on to `state`. -/
def settle (link : OrderLinkId) (state : OrderState) (x : Exchange) : Exchange :=
  { x with orders := x.orders.map (SentOrder.settle link state) }

/-- A truthful payload: about an order that was sent, with a status the order has
been in and no more executed than was ordered. -/
def reports (x : Exchange) (data : OrderData) : Bool :=
  x.orders.any fun o => decide (data.orderLinkId = some o.linkId) &&
    o.state.hasReported data.orderStatus && data.execWithin o.request.qty

@[simp] theorem place_orders (trade : TradeId) (role : OrderRole) (request : OrderRequest)
    (outcome : PlaceOutcome) (x : Exchange) :
    (x.place trade role request outcome).orders =
      x.orders ++ [.ofCall trade role request outcome] := rfl

@[simp] theorem place_cancelRequests (trade : TradeId) (role : OrderRole)
    (request : OrderRequest) (outcome : PlaceOutcome) (x : Exchange) :
    (x.place trade role request outcome).cancelRequests = x.cancelRequests := rfl

end Exchange
end AmaExecutionCore
