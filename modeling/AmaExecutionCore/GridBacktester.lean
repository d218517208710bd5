import AmaExecutionCore.Grid

/-! The backtester of the grid: slots that buy when a candle's low reaches their price and sell
when its high does. -/
namespace AmaExecutionCore

structure GridCandle where
  openTimeMs : Int
  openPrice : Rat
  high : Rat
  low : Rat
  close : Rat
  volume : Rat := 0
  deriving DecidableEq, Repr

inductive SlotStatus where
  | waitingBuy | holding | waitingSell
  deriving DecidableEq, Repr

structure GridSlot where
  level : Nat
  buyPrice : Rat
  sellPrice : Rat
  units : Rat
  status : SlotStatus := .waitingBuy
  buyFillPrice : Rat := 0
  sellFillPrice : Rat := 0
  completedCycles : Nat := 0
  realizedPnlUsdt : Rat := 0
  deriving DecidableEq, Repr

structure CandleSnapshot where
  openTimeMs : Int
  close : Rat
  unrealizedInventoryUsdt : Rat
  unrealizedLossUsdt : Rat
  activeBuyOrders : Nat
  deriving DecidableEq, Repr

structure GridState where
  config : GridConfig
  slots : List GridSlot := []
  totalFeesPaid : Rat := 0
  totalGrossProfit : Rat := 0
  unrealizedInventoryUsdt : Rat := 0
  candleSnapshots : List CandleSnapshot := []

def GridState.netPnl (state : GridState) : Rat := state.totalGrossProfit - state.totalFeesPaid

def GridState.completedCycles (state : GridState) : Nat :=
  (state.slots.map GridSlot.completedCycles).sum

namespace GridBacktester

def unitsForLevel (config : GridConfig) (buyPrice : Rat) : Rat :=
  let rawUnits := config.capitalPerLevel / buyPrice
  if config.minLotSize = 0 then rawUnits
  else (rawUnits / config.minLotSize).floor * config.minLotSize

def buyFee (config : GridConfig) (slot : GridSlot) : Rat :=
  slot.units * slot.buyPrice * config.makerFeePct

/-- A new slot; one at or above the starting price has bought already. -/
def initialSlot (config : GridConfig) (startingPrice buyPrice : Rat) (level : Nat) : GridSlot :=
  let slot : GridSlot :=
    { level := level, buyPrice := buyPrice, sellPrice := config.sellPrice buyPrice
      units := unitsForLevel config buyPrice }
  if startingPrice ≤ buyPrice then { slot with status := .waitingSell, buyFillPrice := buyPrice }
  else slot

def startingPrice (config : GridConfig) (candles : List GridCandle) : Rat :=
  match candles with
  | candle :: _ => candle.openPrice
  | [] => config.pMin

def initializeState (config : GridConfig) (candles : List GridCandle) : GridState :=
  let price := startingPrice config candles
  let slots := config.buyPrices.zipIdx.map fun (buyPrice, level) =>
    initialSlot config price buyPrice level
  { config := config
    slots := slots
    totalFeesPaid := ((slots.filter fun slot => price ≤ slot.buyPrice).map (buyFee config)).sum }

/-- The slots whose buy order the candle reaches. -/
def buys (candle : GridCandle) (slot : GridSlot) : Bool :=
  slot.status = .waitingBuy && !decide (slot.buyPrice < candle.low)

def buyFill (candle : GridCandle) (slot : GridSlot) : GridSlot :=
  if buys candle slot then { slot with status := .waitingSell, buyFillPrice := slot.buyPrice } else slot

def processBuyFills (state : GridState) (candle : GridCandle) : GridState :=
  { state with
    slots := state.slots.map (buyFill candle)
    totalFeesPaid := state.totalFeesPaid +
      ((state.slots.filter (buys candle)).map (buyFee state.config)).sum }

def sells (candle : GridCandle) (slot : GridSlot) : Bool :=
  slot.status = .waitingSell && !decide (candle.high < slot.sellPrice)

def grossProfit (slot : GridSlot) : Rat := slot.units * (slot.sellPrice - slot.buyPrice)

def sellFee (config : GridConfig) (slot : GridSlot) : Rat :=
  slot.units * slot.sellPrice * config.makerFeePct

def sellFill (config : GridConfig) (candle : GridCandle) (slot : GridSlot) : GridSlot :=
  if sells candle slot then
    { slot with
      status := .waitingBuy
      sellFillPrice := slot.sellPrice
      completedCycles := slot.completedCycles + 1
      realizedPnlUsdt := slot.realizedPnlUsdt + (grossProfit slot - sellFee config slot) }
  else slot

def processSellFills (state : GridState) (candle : GridCandle) : GridState :=
  let sold := state.slots.filter (sells candle)
  { state with
    slots := state.slots.map (sellFill state.config candle)
    totalGrossProfit := state.totalGrossProfit + (sold.map grossProfit).sum
    totalFeesPaid := state.totalFeesPaid + (sold.map (sellFee state.config)).sum }

def recordSnapshot (state : GridState) (candle : GridCandle) : GridState :=
  let held := state.slots.filter fun slot => slot.status = .waitingSell
  let inventoryCost := (held.map fun slot => slot.buyPrice * slot.units).sum
  let inventoryValue := (held.map fun slot => candle.close * slot.units).sum
  { state with
    unrealizedInventoryUsdt := inventoryCost
    candleSnapshots := state.candleSnapshots ++
      [{ openTimeMs := candle.openTimeMs
         close := candle.close
         unrealizedInventoryUsdt := inventoryCost
         unrealizedLossUsdt := max 0 (inventoryCost - inventoryValue)
         activeBuyOrders := state.slots.countP fun slot => slot.status = .waitingBuy }] }

def processCandle (state : GridState) (candle : GridCandle) : GridState :=
  recordSnapshot (processSellFills (processBuyFills state candle) candle) candle

/-- `GridBacktester.run`. -/
def run (config : GridConfig) (candles : List GridCandle) : GridState :=
  candles.foldl processCandle (initializeState config candles)

/-! Slot by slot -/

theorem processCandle_slots (state : GridState) (candle : GridCandle) :
    (processCandle state candle).slots =
      state.slots.map fun slot => sellFill state.config candle (buyFill candle slot) := by
  simp [processCandle, recordSnapshot, processSellFills, processBuyFills]

theorem processCandle_config (state : GridState) (candle : GridCandle) :
    (processCandle state candle).config = state.config := rfl

end GridBacktester
end AmaExecutionCore
