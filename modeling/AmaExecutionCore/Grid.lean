import AmaExecutionCore.Store

/-! The grid engine: a session of slots, each waiting for a buy or a sell order at the
exchange, the runner that starts and stops it and the handler of order fills. -/
namespace AmaExecutionCore

inductive GridSessionStatus where
  | active | paused | stopped | waitingReentry
  deriving DecidableEq, Repr

inductive GridSlotRecordStatus where
  | waitingBuy | waitingSell
  deriving DecidableEq, Repr

/-- `GridConfig`, which refuses an empty price range. -/
structure GridConfig where
  symbol : String
  pMin : Rat
  pMax : Rat
  nLevels : Nat
  capitalUsdt : Rat
  makerFeePct : Rat := 1 / 1000
  minLotSize : Rat := 0
  ordered : pMin < pMax
  deriving DecidableEq, Repr

namespace GridConfig

def step (c : GridConfig) : Rat := (c.pMax - c.pMin) / c.nLevels

def stepPct (c : GridConfig) : Rat := c.step / c.pMin

def capitalPerLevel (c : GridConfig) : Rat := c.capitalUsdt / c.nLevels

def buyPrices (c : GridConfig) : List Rat := (List.range c.nLevels).map fun i => c.pMin + i * c.step

def sellPrice (c : GridConfig) (buyPrice : Rat) : Rat := buyPrice + c.step

theorem mem_buyPrices {c : GridConfig} {buyPrice : Rat} :
    buyPrice ∈ c.buyPrices ↔ ∃ i < c.nLevels, buyPrice = c.pMin + i * c.step := by
  simp [buyPrices, eq_comm]

end GridConfig

/-- A validated request to create a session. -/
structure GridCreateRequest where
  symbol : String
  pMin : Rat
  pMax : Rat
  nLevels : Nat
  capitalUsdt : Rat
  pMin_pos : 0 < pMin
  ordered : pMin < pMax
  levels : 1 ≤ nLevels
  capital_pos : 0 < capitalUsdt

abbrev GridOrderId := Nat

structure GridSlotRecord where
  id : Nat
  level : Nat
  buyPrice : Rat
  sellPrice : Rat
  status : GridSlotRecordStatus := .waitingBuy
  completedCycles : Nat := 0
  realizedPnl : Rat := 0
  units : Option Rat := none
  buyOrderId : Option GridOrderId := none
  sellOrderId : Option GridOrderId := none
  deriving DecidableEq, Repr

/-- The column of the orders of one side. -/
def GridSlotRecord.orderOn (side : ExchangeSide) (slot : GridSlotRecord) : Option GridOrderId :=
  match side with
  | .buy => slot.buyOrderId
  | .sell => slot.sellOrderId

structure GridSession where
  id : Nat
  symbol : String
  config : GridConfig
  status : GridSessionStatus := .paused
  slots : List GridSlotRecord
  deriving DecidableEq, Repr

/-- Where an order is at the exchange, and whether its fill was reported. -/
inductive GridOrderState where
  | live
  | filled (reported : Bool)
  | cancelled
  deriving DecidableEq, Repr

/-- An order the exchange accepted. `session` and `slot` say what it was placed for, which
the exchange does not know. -/
structure GridOrder where
  id : GridOrderId
  session : Nat
  slot : Nat
  symbol : String
  side : ExchangeSide
  price : Rat
  qty : Rat
  state : GridOrderState := .live
  deriving DecidableEq, Repr

/-- The rows of the grid tables, and the exchange. Row ids and order ids are drawn from
one counter. -/
structure GridWorld where
  sessions : List GridSession := []
  orders : List GridOrder := []
  issued : Nat := 0

inductive GridError where
  | sessionNotFound (sessionId : Nat)
  | sessionAlreadyActive (sessionId : Nat)
  | bybit
  | missingOrderId
  | multipleResultsFound
  deriving DecidableEq, Repr

abbrev GridOutcome (α : Type) := Except GridError α × GridWorld

/-! `GridOrderManager` -/

/-- How a `place_order` call ends. A call that raises may have reached the exchange. -/
inductive GridPlaceOutcome where
  | accepted
  | missingOrderId
  | raised (reached : Bool)
  deriving DecidableEq, Repr

def GridPlaceOutcome.reached : GridPlaceOutcome → Bool
  | accepted | missingOrderId => true
  | raised r => r

/-- `f"{q:.{n}f}"`: ties go to the even last digit. -/
def formatDecimals (n : Nat) (q : Rat) : Rat :=
  let scaled := q * 10 ^ n
  let low := scaled.floor
  let rest := scaled - low
  let digit : Int :=
    if rest < 1 / 2 then low else if 1 / 2 < rest then low + 1
    else if low % 2 = 0 then low else low + 1
  digit / 10 ^ n

def priceDecimals (price : Rat) : Nat := if 10 ≤ price then 2 else if 1 ≤ price then 4 else 5

def formatPrice (price : Rat) : Rat := formatDecimals (priceDecimals price) price

def qtyDecimals (price : Rat) : Nat :=
  if 1000 ≤ price then 6 else if 100 ≤ price then 4 else if 10 ≤ price then 3
  else if 1 ≤ price then 1 else 0

def formatQty (qty price : Rat) : Rat := formatDecimals (qtyDecimals price) qty

structure GridTarget where
  session : Nat
  slot : Nat

/-- The order of a `place_order` call, with the id the exchange gives it. -/
def limitOrder (target : GridTarget) (symbol : String) (side : ExchangeSide) (price qty : Rat)
    (id : GridOrderId) : GridOrder :=
  { id := id, session := target.session, slot := target.slot, symbol := symbol, side := side
    price := formatPrice price, qty := formatQty qty price }

def placeLimit (target : GridTarget) (symbol : String) (side : ExchangeSide) (price qty : Rat)
    (outcome : GridPlaceOutcome) (w : GridWorld) : GridOutcome GridOrderId :=
  let order := limitOrder target symbol side price qty w.issued
  let w' := { w with
    orders := if outcome.reached then w.orders ++ [order] else w.orders
    issued := w.issued + 1 }
  match outcome with
  | .accepted => (.ok w.issued, w')
  | .missingOrderId => (.error .missingOrderId, w')
  | .raised _ => (.error .bybit, w')

def GridOrder.isLive (o : GridOrder) : Bool := o.state = .live

def cancelGridOrder (id : GridOrderId) (w : GridWorld) : GridWorld :=
  { w with orders := w.orders.map fun o =>
      if o.id = id ∧ o.state = .live then { o with state := .cancelled } else o }

/-- How a `cancel_order` call ends. A call that raises may have reached the exchange. -/
inductive GridCancelOutcome where
  | returned
  | raised (reached : Bool)
  deriving DecidableEq, Repr

/-- What `stop` meets: whether the list of open orders comes, and how the cancel calls end. -/
structure GridStopIo where
  listed : Bool
  cancel : GridOrderId → GridCancelOutcome

/-- The loop of `cancel_all_orders`; a call that raises ends it. -/
def cancelOrders (cancel : GridOrderId → GridCancelOutcome) :
    List GridOrderId → GridWorld → GridOutcome Unit
  | [], w => (.ok (), w)
  | id :: ids, w =>
    match cancel id with
    | .returned => cancelOrders cancel ids (cancelGridOrder id w)
    | .raised reached => (.error .bybit, if reached then cancelGridOrder id w else w)

def openGridOrders (symbol : String) (w : GridWorld) : List GridOrderId :=
  (w.orders.filter fun o => o.symbol = symbol && o.isLive).map GridOrder.id

def cancelAllOrders (symbol : String) (io : GridStopIo) (w : GridWorld) : GridOutcome Unit :=
  if io.listed then cancelOrders io.cancel (openGridOrders symbol w) w else (.error .bybit, w)

/-! `GridRunner` -/

namespace GridWorld

def loadSession (id : Nat) (w : GridWorld) : Option GridSession := w.sessions.find? fun s => s.id = id

def saveSession (s : GridSession) (w : GridWorld) : GridWorld :=
  { w with sessions := w.sessions.map fun row => if row.id = s.id then s else row }

def setStatus (id : Nat) (status : GridSessionStatus) (w : GridWorld) : GridWorld :=
  { w with sessions := w.sessions.map fun row =>
      if row.id = id then { row with status := status } else row }

def saveSlot (slot : GridSlotRecord) (w : GridWorld) : GridWorld :=
  { w with sessions := w.sessions.map fun s =>
      { s with slots := s.slots.map fun row => if row.id = slot.id then slot else row } }

/-- The slot rows, each with the session it belongs to. -/
def slotRows (w : GridWorld) : List (Nat × GridSlotRecord) :=
  w.sessions.flatMap fun s => s.slots.map fun slot => (s.id, slot)

end GridWorld

/-- The slots of a new session. -/
def newSlots (config : GridConfig) (firstId : Nat) : List GridSlotRecord :=
  config.buyPrices.zipIdx.map fun (buyPrice, level) =>
    { id := firstId + level, level := level, buyPrice := buyPrice
      sellPrice := config.sellPrice buyPrice }

def GridCreateRequest.config (req : GridCreateRequest) : GridConfig :=
  { symbol := symbolKey req.symbol, pMin := req.pMin, pMax := req.pMax, nLevels := req.nLevels
    capitalUsdt := req.capitalUsdt, ordered := req.ordered }

def createGridSession (req : GridCreateRequest) (w : GridWorld) : GridWorld :=
  let slots := newSlots req.config (w.issued + 1)
  { w with
    sessions := w.sessions ++ [{ id := w.issued, symbol := req.config.symbol, config := req.config
                                 slots := slots }]
    issued := w.issued + 1 + slots.length }

/-- What `start` meets: the ticker price, and how the calls for the slots end. -/
structure GridStartIo where
  price : Except GridError Rat
  place : Nat → GridPlaceOutcome

namespace GridRunner

/-- The units a slot gets at every start. -/
def slotUnits (config : GridConfig) (slot : GridSlotRecord) : Rat := config.capitalPerLevel / slot.buyPrice

/-- The slots `start` places a buy order for. -/
def isDue (price : Rat) (slot : GridSlotRecord) : Bool :=
  !decide (price ≤ slot.buyPrice) && decide (slot.status = .waitingBuy) && slot.buyOrderId.isNone

/-- The body of the loop of `start`. -/
def startSlot (s : GridSession) (price : Rat) (outcome : GridPlaceOutcome) (slot : GridSlotRecord)
    (w : GridWorld) : GridOutcome GridSlotRecord :=
  let units := slotUnits s.config slot
  let slot := { slot with units := some units }
  if price ≤ slot.buyPrice then (.ok { slot with status := .waitingSell }, w)
  else if slot.status = .waitingBuy ∧ slot.buyOrderId = none then
    match placeLimit ⟨s.id, slot.id⟩ s.symbol .buy slot.buyPrice units outcome w with
    | (.ok orderId, w) => (.ok { slot with buyOrderId := some orderId }, w)
    | (.error e, w) => (.error e, w)
  else (.ok slot, w)

/-- The loop of `start`, up to the first call that raises. -/
def startSlots (s : GridSession) (price : Rat) (place : Nat → GridPlaceOutcome) :
    List GridSlotRecord → GridWorld → GridOutcome (List GridSlotRecord)
  | [], w => (.ok [], w)
  | slot :: slots, w =>
    match startSlot s price (place slot.id) slot w with
    | (.error e, w) => (.error e, w)
    | (.ok slot', w) =>
      match startSlots s price place slots w with
      | (.error e, w) => (.error e, w)
      | (.ok slots', w) => (.ok (slot' :: slots'), w)

/-- `start`. When it raises, the rows are rolled back and the orders stay. -/
def start (id : Nat) (io : GridStartIo) (w : GridWorld) : GridOutcome Unit :=
  match w.loadSession id with
  | none => (.error (.sessionNotFound id), w)
  | some s =>
    if s.status = .active then (.error (.sessionAlreadyActive id), w)
    else
      match io.price with
      | .error e => (.error e, w)
      | .ok price =>
        match startSlots s price io.place s.slots w with
        | (.error e, w) => (.error e, w)
        | (.ok slots, w) => (.ok (), w.saveSession { s with slots := slots, status := .active })

def stop (id : Nat) (io : GridStopIo) (w : GridWorld) : GridOutcome Unit :=
  match w.loadSession id with
  | none => (.error (.sessionNotFound id), w)
  | some s =>
    match cancelAllOrders s.symbol io w with
    | (.error e, w) => (.error e, w)
    | (.ok _, w) => (.ok (), w.setStatus id .stopped)

def pause (id : Nat) (w : GridWorld) : GridOutcome Unit :=
  match w.loadSession id with
  | none => (.error (.sessionNotFound id), w)
  | some _ => (.ok (), w.setStatus id .paused)

/-- The units the slots count as held: those of the slots that wait to sell. -/
def heldSlots (s : GridSession) : List GridSlotRecord := s.slots.filter fun slot => slot.status = .waitingSell

def unrealizedPositionValue (s : GridSession) (currentPrice : Rat) : Rat :=
  ((heldSlots s).map fun slot => currentPrice * slot.units.getD 0).sum

def unrealizedDrawdownPct (s : GridSession) (currentPrice : Rat) : Rat :=
  let cost := ((heldSlots s).map fun slot => slot.buyPrice * slot.units.getD 0).sum
  let marketValue := ((heldSlots s).map fun slot => currentPrice * slot.units.getD 0).sum
  if s.config.capitalUsdt = 0 then 0
  else max 0 (cost - marketValue) / s.config.capitalUsdt * 100

/-- `evaluate_risk`, with the default limit on the drawdown. -/
def evaluateRisk (id : Nat) (currentPrice : Rat) (io : GridStopIo) (w : GridWorld) : GridOutcome Unit :=
  match w.loadSession id with
  | none => (.error (.sessionNotFound id), w)
  | some s =>
    if 35 < unrealizedDrawdownPct s currentPrice then pause id w
    else if currentPrice < s.config.pMin * (95 / 100) then stop id io w
    else (.ok (), w)

end GridRunner

/-! `GridWebSocketHandler` -/

/-- A side other than the two texts the handler compares with is `none`. -/
structure GridOrderFillEvent where
  orderId : GridOrderId
  side : Option ExchangeSide
  symbol : String

/-- `_slot_for_order_id`, with the session the slot belongs to. -/
def slotForOrderId (orderId : GridOrderId) (w : GridWorld) :
    Except GridError (Option (Nat × GridSlotRecord)) :=
  match w.slotRows.filter fun row =>
      row.2.buyOrderId = some orderId || row.2.sellOrderId = some orderId with
  | [] => .ok none
  | [row] => .ok (some row)
  | _ => .error .multipleResultsFound

def advanceSlot (side : ExchangeSide) (orderId : GridOrderId) (slot : GridSlotRecord) : GridSlotRecord :=
  match side with
  | .buy => { slot with status := .waitingSell, buyOrderId := none, sellOrderId := some orderId }
  | .sell =>
    { slot with
      status := .waitingBuy, sellOrderId := none, buyOrderId := some orderId
      completedCycles := slot.completedCycles + 1
      realizedPnl := slot.realizedPnl + (slot.sellPrice - slot.buyPrice) * slot.units.getD 0 }

/-- Places the order that replaces a filled one: a sell after a buy, a buy after a sell. -/
def placeReplacement (session : Nat) (side : ExchangeSide) (symbol : String) (slot : GridSlotRecord)
    (outcome : GridPlaceOutcome) (w : GridWorld) : GridOutcome GridOrderId :=
  match side with
  | .buy => placeLimit ⟨session, slot.id⟩ symbol .sell slot.sellPrice (slot.units.getD 0) outcome w
  | .sell => placeLimit ⟨session, slot.id⟩ symbol .buy slot.buyPrice (slot.units.getD 0) outcome w

def handleOrderFill (event : GridOrderFillEvent) (outcome : GridPlaceOutcome) (w : GridWorld) :
    GridOutcome Unit :=
  match slotForOrderId event.orderId w with
  | .error e => (.error e, w)
  | .ok none => (.ok (), w)
  | .ok (some (session, slot)) =>
    match event.side with
    | none => (.ok (), w)
    | some side =>
      match placeReplacement session side event.symbol slot outcome w with
      | (.error e, w) => (.error e, w)
      | (.ok orderId, w) => (.ok (), w.saveSlot (advanceSlot side orderId slot))

/-- The events `_grid_on_order` makes of a message about the order: only a fill is handled. -/
def gridOnOrder (o : GridOrder) : List GridOrderFillEvent :=
  match o.state with
  | .filled _ => [{ orderId := o.id, side := some o.side, symbol := o.symbol }]
  | _ => []

/-! One session after the other -/

inductive GridStep where
  | create (req : GridCreateRequest)
  | start (id : Nat) (io : GridStartIo)
  | stop (id : Nat) (io : GridStopIo)
  | pause (id : Nat)
  | fill (orderId : GridOrderId)
  | report (orderId : GridOrderId) (outcome : GridPlaceOutcome)

def fillGridOrder (id : GridOrderId) (w : GridWorld) : GridWorld :=
  { w with orders := w.orders.map fun o =>
      if o.id = id ∧ o.state = .live then { o with state := .filled false } else o }

def markReported (id : GridOrderId) (w : GridWorld) : GridWorld :=
  { w with orders := w.orders.map fun o =>
      if o.id = id ∧ o.state = .filled false then { o with state := .filled true } else o }

/-- A message about the order arrives; whatever the handler does, it does not come again
by itself. -/
def reportGridOrder (id : GridOrderId) (outcome : GridPlaceOutcome) (w : GridWorld) : GridWorld :=
  match w.orders.find? fun o => o.id = id with
  | none => w
  | some o =>
    (gridOnOrder o).foldl (fun w event => (handleOrderFill event outcome (markReported id w)).2) w

def gridStep (w : GridWorld) : GridStep → GridWorld
  | .create req => createGridSession req w
  | .start id io => (GridRunner.start id io w).2
  | .stop id io => (GridRunner.stop id io w).2
  | .pause id => (GridRunner.pause id w).2
  | .fill id => fillGridOrder id w
  | .report id outcome => reportGridOrder id outcome w

def demoGridRequest : GridCreateRequest where
  symbol := "XRPUSDT"
  pMin := 1
  pMax := 2
  nLevels := 1
  capitalUsdt := 10
  pMin_pos := by decide
  ordered := by decide
  levels := by decide
  capital_pos := by decide

def demoGridStart (price : Rat) : GridStartIo := ⟨.ok price, fun _ => .accepted⟩

example : ((GridRunner.start 0 (demoGridStart 2) (createGridSession demoGridRequest {})).2.sessions.map
    fun s => (s.status, s.slots.map fun slot => (slot.units, slot.buyOrderId))) =
      [(.active, [(some 10, some 2)])] := by decide +kernel

end AmaExecutionCore
