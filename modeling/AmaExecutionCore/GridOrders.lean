import AmaExecutionCore.GridRuns
import AmaExecutionCore.Rounding
import Mathlib.Tactic.Ring
import Mathlib.Tactic.Linarith

/-! The orders of a slot as they are formatted for the exchange: prices and quantities lose their
last digits, at a precision that each order takes from its own price. -/
namespace AmaExecutionCore
open GridRunner

/-- The order of a slot on a side, as `_place_limit` sends it. -/
def slotOrder (config : GridConfig) (slot : GridSlotRecord) (side : ExchangeSide) : GridOrder :=
  limitOrder ⟨0, slot.id⟩ config.symbol side (slot.priceOn side) (slotUnits config slot) 0

/-- The slot sells no more than it buys, at a higher price, and both orders have a size. -/
structure OrdersSound (config : GridConfig) (slot : GridSlotRecord) : Prop where
  sellable : (slotOrder config slot .sell).qty ≤ (slotOrder config slot .buy).qty
  profitable : (slotOrder config slot .buy).price < (slotOrder config slot .sell).price
  placed : ∀ side, (slotOrder config slot side).qty ≠ 0

instance (config : GridConfig) (slot : GridSlotRecord) : Decidable (OrdersSound config slot) :=
  decidable_of_iff ((slotOrder config slot .sell).qty ≤ (slotOrder config slot .buy).qty ∧
      (slotOrder config slot .buy).price < (slotOrder config slot .sell).price ∧
      (slotOrder config slot .buy).qty ≠ 0 ∧ (slotOrder config slot .sell).qty ≠ 0)
    ⟨fun h => ⟨h.1, h.2.1, fun side => by cases side; exacts [h.2.2.1, h.2.2.2]⟩,
      fun h => ⟨h.sellable, h.profitable, h.placed .buy, h.placed .sell⟩⟩

/-- Both sides have the same precision; or the units exceed a step of the buy side by at most half a
step of the sell side, or by so much that they are rounded up. -/
def QtyFits (units buyPrice sellPrice : Rat) : Prop :=
  let scaled := units * 10 ^ qtyDecimals buyPrice
  qtyDecimals sellPrice = qtyDecimals buyPrice ∨
    Int.fract scaled * 10 ^ (qtyDecimals sellPrice - qtyDecimals buyPrice) ≤ 1 / 2 ∨
    1 / 2 < Int.fract scaled ∨ (Int.fract scaled = 1 / 2 ∧ ⌊scaled⌋ % 2 = 1)

/-- Some tick of the sell side's precision lies between the prices: the sell price is above the
middle under that tick, and the buy price below the middle under it at its own precision (a price
in the middle goes to the even side). -/
def PricesApart (buyPrice sellPrice : Rat) : Prop :=
  ∃ tick : Int, ¬ Rounding.AtMostMiddle (tick - 1) (sellPrice * 10 ^ priceDecimals sellPrice) ∧
    Rounding.AtMostMiddle (tick * 10 ^ (priceDecimals buyPrice - priceDecimals sellPrice) - 1)
      (buyPrice * 10 ^ priceDecimals buyPrice)

/-- The units are more than half a step of the buy side. -/
def QtySized (units buyPrice : Rat) : Prop := 1 / 2 < units * 10 ^ qtyDecimals buyPrice

/-! The formats are the rounding to the nearest digit -/

theorem formatDecimals_eq (n : Nat) (q : Rat) :
    formatDecimals n q = Rounding.halfEven (q * 10 ^ n) / 10 ^ n := rfl

theorem qtyDecimals_mono {low high : Rat} (h : low ≤ high) : qtyDecimals low ≤ qtyDecimals high := by
  unfold qtyDecimals
  split_ifs <;> first | omega | linarith

theorem priceDecimals_anti {low high : Rat} (h : low ≤ high) :
    priceDecimals high ≤ priceDecimals low := by
  unfold priceDecimals
  split_ifs <;> first | omega | linarith

theorem formatQty_le_iff {units buyPrice sellPrice : Rat} (h : buyPrice ≤ sellPrice) :
    formatQty units sellPrice ≤ formatQty units buyPrice ↔ QtyFits units buyPrice sellPrice := by
  obtain ⟨k, hk⟩ := Nat.exists_eq_add_of_le (qtyDecimals_mono h)
  unfold formatQty QtyFits
  dsimp only
  rw [formatDecimals_eq, formatDecimals_eq, hk, Nat.add_sub_cancel_left]
  generalize qtyDecimals buyPrice = d
  have hd : (0 : Rat) < 10 ^ d := by positivity
  have hdk : (0 : Rat) < 10 ^ (d + k) := by positivity
  cases k with
  | zero => simp
  | succ k =>
    have heven : 10 ^ (k + 1) % 2 = 0 := by rw [pow_succ]; omega
    have hscale := @Rounding.halfEven_mul_le_iff Rat _ _ _ _ (units * 10 ^ d) (10 ^ (k + 1))
      (by positivity) heven
    push_cast at hscale
    have hfine : units * 10 ^ (d + (k + 1)) = units * 10 ^ d * 10 ^ (k + 1) := by ring
    have hcoarse (n : Rat) : n * 10 ^ (d + (k + 1)) = n * 10 ^ (k + 1) * 10 ^ d := by ring
    rw [div_le_div_iff₀ hdk hd, or_iff_right (by omega), ← hscale, hfine, hcoarse,
      mul_le_mul_iff_of_pos_right hd]
    exact_mod_cast Iff.rfl

theorem formatPrice_lt_iff {buyPrice sellPrice : Rat} (h : buyPrice ≤ sellPrice) :
    formatPrice buyPrice < formatPrice sellPrice ↔ PricesApart buyPrice sellPrice := by
  obtain ⟨k, hk⟩ := Nat.exists_eq_add_of_le (priceDecimals_anti h)
  unfold formatPrice PricesApart
  rw [formatDecimals_eq, formatDecimals_eq, hk, Nat.add_sub_cancel_left]
  generalize priceDecimals sellPrice = d
  have hd : (0 : Rat) < 10 ^ d := by positivity
  have hdk : (0 : Rat) < 10 ^ (d + k) := by positivity
  simp only [← Rounding.halfEven_le_iff]
  have hcoarse (n : Rat) : n * 10 ^ (d + k) = n * 10 ^ k * 10 ^ d := by ring
  generalize Rounding.halfEven (sellPrice * 10 ^ d) = sold
  generalize Rounding.halfEven (buyPrice * 10 ^ (d + k)) = bought
  rw [div_lt_div_iff₀ hdk hd, hcoarse, mul_lt_mul_iff_of_pos_right hd]
  have hcast : (bought : Rat) < sold * 10 ^ k ↔ bought < sold * 10 ^ k := by exact_mod_cast Iff.rfl
  rw [hcast]
  constructor
  · intro h
    exact ⟨sold, by omega, by omega⟩
  · intro ⟨tick, htick, hbelow⟩
    have hmono : tick * (10 : Int) ^ k ≤ sold * 10 ^ k :=
      mul_le_mul_of_nonneg_right (by omega) (by positivity)
    omega

theorem formatQty_eq_zero_iff {units price : Rat} (hunits : 0 < units) :
    formatQty units price = 0 ↔ ¬ QtySized units price := by
  have hscale : (0 : Rat) < 10 ^ qtyDecimals price := by positivity
  unfold formatQty QtySized
  rw [formatDecimals_eq, div_eq_zero_iff, or_iff_left hscale.ne', Int.cast_eq_zero,
    Rounding.halfEven_eq_zero_iff (mul_pos hunits hscale), not_lt]

/-- The sell side is at least as precise, so that it has a size when the buy side has one. -/
theorem QtySized.mono {units buyPrice sellPrice : Rat} (hunits : 0 < units)
    (hle : buyPrice ≤ sellPrice) (h : QtySized units buyPrice) : QtySized units sellPrice := by
  have hpow : (10 : Rat) ^ qtyDecimals buyPrice ≤ 10 ^ qtyDecimals sellPrice :=
    pow_le_pow_right₀ (by norm_num) (qtyDecimals_mono hle)
  exact lt_of_lt_of_le h (mul_le_mul_of_nonneg_left hpow hunits.le)

/-! The slots of a created session -/

namespace GridCreateRequest
variable (req : GridCreateRequest)

theorem levels_pos : (0 : Rat) < req.config.nLevels := Nat.cast_pos.mpr req.levels

theorem step_pos : 0 < req.config.step := div_pos (sub_pos.mpr req.ordered) req.levels_pos

/-- A slot of the request buys above zero, sells a step higher and has units. -/
theorem slot_prices {firstId : Nat} {slot : GridSlotRecord} (h : slot ∈ newSlots req.config firstId) :
    0 < slot.buyPrice ∧ slot.buyPrice < slot.sellPrice ∧ 0 < slotUnits req.config slot := by
  obtain ⟨⟨buyPrice, level⟩, hmem, rfl⟩ := List.mem_map.mp h
  have hbuy : buyPrice ∈ req.config.buyPrices := List.fst_mem_of_mem_zipIdx hmem
  obtain ⟨i, -, hprice⟩ := GridConfig.mem_buyPrices.mp hbuy
  have hstep := req.step_pos
  have hmin : (0 : Rat) < req.config.pMin := req.pMin_pos
  have hpos : 0 < buyPrice := by
    rw [hprice]
    positivity
  have hunits : 0 < req.config.capitalPerLevel / buyPrice :=
    div_pos (div_pos req.capital_pos req.levels_pos) hpos
  exact ⟨hpos, lt_add_of_pos_right buyPrice hstep, hunits⟩

end GridCreateRequest

/-- The orders of a slot are sound when its units and its prices survive the formats. -/
theorem ordersSound_iff (req : GridCreateRequest) (firstId : Nat) (slot : GridSlotRecord)
    (h : slot ∈ newSlots req.config firstId) :
    OrdersSound req.config slot ↔
      QtyFits (slotUnits req.config slot) slot.buyPrice slot.sellPrice ∧
        PricesApart slot.buyPrice slot.sellPrice ∧
        QtySized (slotUnits req.config slot) slot.buyPrice := by
  obtain ⟨-, hprices, hunits⟩ := req.slot_prices h
  have hsell : (slotOrder req.config slot .sell).qty ≤ (slotOrder req.config slot .buy).qty ↔
      QtyFits (slotUnits req.config slot) slot.buyPrice slot.sellPrice := formatQty_le_iff hprices.le
  have hprice : (slotOrder req.config slot .buy).price < (slotOrder req.config slot .sell).price ↔
      PricesApart slot.buyPrice slot.sellPrice := formatPrice_lt_iff hprices.le
  have hbuy : (slotOrder req.config slot .buy).qty ≠ 0 ↔
      QtySized (slotUnits req.config slot) slot.buyPrice :=
    (not_congr (formatQty_eq_zero_iff hunits)).trans not_not
  constructor
  · intro hsound
    exact ⟨hsell.mp hsound.sellable, hprice.mp hsound.profitable, hbuy.mp (hsound.placed .buy)⟩
  · intro ⟨hfits, hapart, hsized⟩
    have hsized' : (slotOrder req.config slot .sell).qty ≠ 0 :=
      fun hzero => (formatQty_eq_zero_iff hunits).mp hzero (hsized.mono hunits hprices.le)
    refine ⟨hsell.mpr hfits, hprice.mpr hapart, ?_⟩
    intro side
    cases side
    · exact hbuy.mpr hsized
    · exact hsized'

/-- One level from 9.5 to 10.5: the buy order is below 10, the sell order above. -/
def straddlingRequest : GridCreateRequest where
  symbol := "XRPUSDT"
  pMin := 19 / 2
  pMax := 21 / 2
  nLevels := 1
  capitalUsdt := 20
  pMin_pos := by decide +kernel
  ordered := by decide +kernel
  levels := le_rfl
  capital_pos := by decide

/-- Twenty dollars at 9.5 are 2.1 coins at one decimal, and 2.105 at three. -/
theorem ordersSound_straddling : ∃ slot, newSlots straddlingRequest.config 1 = [slot] ∧
    (slotOrder straddlingRequest.config slot .buy).qty = 21 / 10 ∧
    (slotOrder straddlingRequest.config slot .sell).qty = 2105 / 1000 ∧
    ¬ OrdersSound straddlingRequest.config slot :=
  ⟨_, rfl, by decide +kernel, by decide +kernel, by decide +kernel⟩

/-- Ten coins bought at 1 and sold at 2 keep their digits. -/
theorem ordersSound_iff_demo : ∃ slot ∈ newSlots demoGridRequest.config 1,
    QtyFits (slotUnits demoGridRequest.config slot) slot.buyPrice slot.sellPrice ∧
      PricesApart slot.buyPrice slot.sellPrice ∧
      QtySized (slotUnits demoGridRequest.config slot) slot.buyPrice :=
  ⟨_, List.mem_singleton_self _,
    (ordersSound_iff demoGridRequest 1 _ (List.mem_singleton_self _)).mp (by decide +kernel)⟩

end AmaExecutionCore
