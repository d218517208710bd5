import AmaExecutionCore.Grid
import AmaExecutionCore.Rows
import AmaExecutionCore.Runs

/-! What each step of the grid does to the slots and to the orders, and what holds in every
run of it: ids are unique, and a slot names only orders that were placed for it. -/
namespace AmaExecutionCore
open GridRunner

structure GridOrder.PlacedFor (s : GridSession) (slot : GridSlotRecord) (side : ExchangeSide)
    (o : GridOrder) : Prop where
  session : o.session = s.id
  slot : o.slot = slot.id
  symbol : o.symbol = s.symbol
  side : o.side = side

def GridOrder.Same (o o' : GridOrder) : Prop := o' = { o with state := o'.state }

theorem GridOrder.Same.refl (o : GridOrder) : o.Same o := rfl

theorem GridOrder.Same.id {o o' : GridOrder} (h : o.Same o') : o'.id = o.id := by rw [h]

theorem GridOrder.Same.placedFor {o o' : GridOrder} {s : GridSession} {slot : GridSlotRecord}
    {side : ExchangeSide} (h : o.Same o') (hp : o.PlacedFor s slot side) : o'.PlacedFor s slot side := by
  rw [h]
  exact ⟨hp.session, hp.slot, hp.symbol, hp.side⟩

structure GridWorld.WellFormed (w : GridWorld) : Prop where
  sessionIds : (w.sessions.map GridSession.id).Nodup
  slotIds : (w.slotRows.map fun row => row.2.id).Nodup
  orderIds : (w.orders.map GridOrder.id).Nodup
  sessionFresh : ∀ s ∈ w.sessions, s.id < w.issued
  slotFresh : ∀ row ∈ w.slotRows, row.2.id < w.issued
  orderFresh : ∀ o ∈ w.orders, o.id < w.issued
  recorded : ∀ s ∈ w.sessions, ∀ slot ∈ s.slots, ∀ side x, slot.orderOn side = some x →
    ∃ o ∈ w.orders, o.id = x ∧ o.PlacedFor s slot side

/-- A version of the slot that names at most newly placed orders besides the old ones. -/
structure SlotEvolves (orders : List GridOrder) (s : GridSession) (slot slot' : GridSlotRecord) :
    Prop where
  id : slot'.id = slot.id
  buyPrice : slot'.buyPrice = slot.buyPrice
  sellPrice : slot'.sellPrice = slot.sellPrice
  names : ∀ side x, slot'.orderOn side = some x → slot.orderOn side = some x ∨
    ∃ o ∈ orders, o.id = x ∧ o.PlacedFor s slot side

structure SessionEvolves (orders : List GridOrder) (s s' : GridSession) : Prop where
  id : s'.id = s.id
  symbol : s'.symbol = s.symbol
  config : s'.config = s.config
  slots : List.Forall₂ (SlotEvolves orders s) s.slots s'.slots

/-- What every step but a creation does. -/
structure GridWorld.Evolves (w w' : GridWorld) : Prop where
  issued : w.issued ≤ w'.issued
  orders : ∃ old new, w'.orders = old ++ new ∧ List.Forall₂ GridOrder.Same w.orders old ∧
    (new.map GridOrder.id).Nodup ∧ ∀ o ∈ new, w.issued ≤ o.id ∧ o.id < w'.issued
  sessions : List.Forall₂ (SessionEvolves w'.orders) w.sessions w'.sessions

theorem SlotEvolves.refl (orders : List GridOrder) (s : GridSession) (slot : GridSlotRecord) :
    SlotEvolves orders s slot slot := ⟨rfl, rfl, rfl, fun _ _ h => .inl h⟩

theorem SessionEvolves.refl (orders : List GridOrder) (s : GridSession) :
    SessionEvolves orders s s :=
  ⟨rfl, rfl, rfl, List.forall₂_same.mpr fun slot _ => .refl orders s slot⟩

theorem GridWorld.mem_slotRows {w : GridWorld} {row : Nat × GridSlotRecord} :
    row ∈ w.slotRows ↔ ∃ s ∈ w.sessions, s.id = row.1 ∧ row.2 ∈ s.slots := by
  obtain ⟨id, slot⟩ := row
  constructor
  · intro h
    obtain ⟨s, hs, hrow⟩ := List.mem_flatMap.mp h
    obtain ⟨slot', hslot, heq⟩ := List.mem_map.mp hrow
    obtain ⟨rfl, rfl⟩ := Prod.mk.inj heq
    exact ⟨s, hs, rfl, hslot⟩
  · rintro ⟨s, hs, rfl, hslot⟩
    exact List.mem_flatMap.mpr ⟨s, hs, List.mem_map.mpr ⟨slot, hslot, rfl⟩⟩

theorem slotIds_of_sessions {orders : List GridOrder} {a b : List GridSession}
    (h : List.Forall₂ (SessionEvolves orders) a b) :
    ((b.flatMap fun s => s.slots.map fun slot => (s.id, slot)).map fun row => row.2.id) =
      (a.flatMap fun s => s.slots.map fun slot => (s.id, slot)).map fun row => row.2.id := by
  induction h with
  | nil => rfl
  | cons hs _ ih =>
    have hhead := @Rows.map_key_eq _ _ GridSlotRecord.id _ _ _ hs.slots fun _ _ h => h.id
    simp only [List.flatMap_cons, List.map_append, List.map_map, ih]
    congr 1

namespace GridWorld

theorem Evolves.order {w w' : GridWorld} (h : w.Evolves w') {o : GridOrder} (ho : o ∈ w.orders) :
    ∃ o' ∈ w'.orders, o.Same o' := by
  obtain ⟨old, new, horders, hsame, -⟩ := h.orders
  obtain ⟨o', ho', hs⟩ := Rows.exists_right hsame ho
  exact ⟨o', horders ▸ List.mem_append_left _ ho', hs⟩

theorem WellFormed.evolves {w w' : GridWorld} (hw : w.WellFormed) (h : w.Evolves w') :
    w'.WellFormed := by
  have hslotIds := slotIds_of_sessions h.sessions
  obtain ⟨old, new, horders, hsame, hnodup, hnew⟩ := h.orders
  have hold := @Rows.map_key_eq _ _ GridOrder.id _ _ _ hsame fun _ _ h => h.id
  refine ⟨?_, ?_, ?_, ?_, ?_, ?_, ?_⟩
  · rw [Rows.map_key_eq h.sessions fun _ _ h => h.id]
    exact hw.sessionIds
  · exact hslotIds ▸ hw.slotIds
  · rw [horders, List.map_append, hold, List.nodup_append]
    refine ⟨hw.orderIds, hnodup, ?_⟩
    intro x hx y hy heq
    obtain ⟨o, ho, rfl⟩ := List.mem_map.mp hx
    obtain ⟨o', ho', rfl⟩ := List.mem_map.mp hy
    have hlt := hw.orderFresh o ho
    rw [heq] at hlt
    exact absurd hlt (not_lt.mpr (hnew o' ho').1)
  · intro s' hs'
    obtain ⟨s, hs, hev⟩ := Rows.exists_left h.sessions hs'
    rw [hev.id]
    exact (hw.sessionFresh s hs).trans_le h.issued
  · intro row hrow
    have hid : row.2.id ∈ w'.slotRows.map fun row => row.2.id := List.mem_map_of_mem hrow
    rw [show (w'.slotRows.map fun row => row.2.id) = _ from hslotIds] at hid
    obtain ⟨row₀, hrow₀, heq⟩ := List.mem_map.mp hid
    rw [← heq]
    exact (hw.slotFresh row₀ hrow₀).trans_le h.issued
  · intro o ho
    rw [horders] at ho
    obtain ho | ho := List.mem_append.mp ho
    · obtain ⟨o₀, ho₀, hs⟩ := Rows.exists_left hsame ho
      rw [hs.id]
      exact (hw.orderFresh o₀ ho₀).trans_le h.issued
    · exact (hnew o ho).2
  · intro s' hs' slot' hslot' side x hx
    obtain ⟨s, hs, hev⟩ := Rows.exists_left h.sessions hs'
    obtain ⟨slot, hslot, hsl⟩ := Rows.exists_left hev.slots hslot'
    have hplaced : ∀ o : GridOrder, o.PlacedFor s slot side → o.PlacedFor s' slot' side := by
      intro o hp
      exact ⟨hp.session.trans hev.id.symm, hp.slot.trans hsl.id.symm, hp.symbol.trans hev.symbol.symm,
        hp.side⟩
    obtain hold | ⟨o, ho, hid, hp⟩ := hsl.names side x hx
    · obtain ⟨o, ho, hid, hp⟩ := hw.recorded s hs slot hslot side x hold
      obtain ⟨o', ho', hsame'⟩ := h.order ho
      exact ⟨o', ho', hsame'.id.trans hid, hplaced o' (hsame'.placedFor hp)⟩
    · exact ⟨o, ho, hid, hplaced o hp⟩

end GridWorld

/-- The two ends of a `place_order` call: the order was taken and has its id, or the call
raised. -/
theorem placeLimit_cases (target : GridTarget) (symbol : String) (side : ExchangeSide) (price qty : Rat)
    (outcome : GridPlaceOutcome) (w : GridWorld) :
    (outcome = .accepted ∧ placeLimit target symbol side price qty outcome w =
      (.ok w.issued, { w with
        orders := w.orders ++ [limitOrder target symbol side price qty w.issued]
        issued := w.issued + 1 })) ∨
    (outcome ≠ .accepted ∧ ∃ e, placeLimit target symbol side price qty outcome w =
      (.error e, { w with
        orders := w.orders ++ if outcome.reached then
          [limitOrder target symbol side price qty w.issued] else []
        issued := w.issued + 1 })) := by
  cases outcome with
  | accepted => exact .inl ⟨rfl, rfl⟩
  | missingOrderId => exact .inr ⟨by simp, .missingOrderId, rfl⟩
  | raised reached =>
    refine .inr ⟨by simp, .bybit, ?_⟩
    cases reached
    · simp [placeLimit, GridPlaceOutcome.reached]
    · rfl

/-- What a start makes of a slot when its calls return. -/
inductive SlotStarted (s : GridSession) (price : Rat) (orders : List GridOrder)
    (slot : GridSlotRecord) : GridSlotRecord → Prop
  | above (h : price ≤ slot.buyPrice) : SlotStarted s price orders slot
      { slot with units := some (slotUnits s.config slot), status := .waitingSell }
  | placed {x} (hdue : isDue price slot = true)
      (ho : limitOrder ⟨s.id, slot.id⟩ s.symbol .buy slot.buyPrice (slotUnits s.config slot) x ∈ orders) :
      SlotStarted s price orders slot
        { slot with units := some (slotUnits s.config slot), buyOrderId := some x }
  | kept (h : ¬ price ≤ slot.buyPrice) (hdue : isDue price slot = false) :
      SlotStarted s price orders slot { slot with units := some (slotUnits s.config slot) }

theorem SlotStarted.mono {s : GridSession} {price : Rat} {orders orders' : List GridOrder}
    {slot slot' : GridSlotRecord} (h : SlotStarted s price orders slot slot')
    (hsub : ∀ o ∈ orders, o ∈ orders') : SlotStarted s price orders' slot slot' := by
  cases h with
  | above h => exact .above h
  | placed hdue ho => exact .placed hdue (hsub _ ho)
  | kept h hdue => exact .kept h hdue

/-- The orders the loop of `start` placed for the slots. -/
structure Placing (s : GridSession) (price : Rat) (place : Nat → GridPlaceOutcome)
    (slots : List GridSlotRecord) (w : GridWorld) (new : List GridOrder) (w' : GridWorld) : Prop where
  sessions : w'.sessions = w.sessions
  orders : w'.orders = w.orders ++ new
  issued : w.issued ≤ w'.issued
  fresh : (new.map GridOrder.id).Nodup
  range : ∀ o ∈ new, w.issued ≤ o.id ∧ o.id < w'.issued
  due : ∀ o ∈ new, ∃ slot ∈ slots, isDue price slot = true ∧ (place slot.id).reached = true ∧
    o = limitOrder ⟨s.id, slot.id⟩ s.symbol .buy slot.buyPrice (slotUnits s.config slot) o.id

theorem Placing.nil (s : GridSession) (price : Rat) (place : Nat → GridPlaceOutcome)
    (slots : List GridSlotRecord) (w : GridWorld) : Placing s price place slots w [] w :=
  ⟨rfl, by simp, le_refl _, by simp, by simp, by simp⟩

theorem isDue_iff {price : Rat} {slot : GridSlotRecord} : isDue price slot = true ↔
    ¬ price ≤ slot.buyPrice ∧ slot.status = .waitingBuy ∧ slot.buyOrderId = none := by
  simp [isDue, and_assoc]

/-- One turn of the loop. -/
theorem startSlot_spec (s : GridSession) (price : Rat) (place : Nat → GridPlaceOutcome)
    (slot : GridSlotRecord) (w : GridWorld) :
    ∃ new, Placing s price place [slot] w new (startSlot s price (place slot.id) slot w).2 ∧
      ∀ slot', (startSlot s price (place slot.id) slot w).1 = .ok slot' →
        SlotStarted s price new slot slot' := by
  unfold startSlot
  dsimp only
  by_cases habove : price ≤ slot.buyPrice
  · rw [if_pos habove]
    refine ⟨[], .nil _ _ _ _ _, fun slot' h => ?_⟩
    obtain rfl := Except.ok.inj h
    exact .above habove
  · rw [if_neg habove]
    by_cases hwait : slot.status = .waitingBuy ∧ slot.buyOrderId = none
    · rw [if_pos hwait]
      have hdue : isDue price slot = true := isDue_iff.mpr ⟨habove, hwait⟩
      have hone : ∀ o : GridOrder, o = limitOrder ⟨s.id, slot.id⟩ s.symbol .buy slot.buyPrice
          (slotUnits s.config slot) w.issued → (place slot.id).reached = true →
          Placing s price place [slot] w [o]
            { w with orders := w.orders ++ [o], issued := w.issued + 1 } := by
        rintro o rfl hreached
        exact ⟨rfl, rfl, Nat.le_succ _, List.nodup_singleton _,
          by simp [limitOrder], by simp [hdue, hreached, limitOrder]⟩
      obtain ⟨hout, hrun⟩ | ⟨hout, e, hrun⟩ := placeLimit_cases ⟨s.id, slot.id⟩ s.symbol .buy
        slot.buyPrice (slotUnits s.config slot) (place slot.id) w
      · rw [hrun]
        refine ⟨_, hone _ rfl (by rw [hout]; rfl), fun slot' h => ?_⟩
        obtain rfl := Except.ok.inj h
        exact .placed hdue List.mem_cons_self
      · rw [hrun]
        by_cases hreached : (place slot.id).reached = true
        · rw [if_pos hreached]
          exact ⟨_, hone _ rfl hreached, fun slot' h => by cases h⟩
        · rw [if_neg hreached]
          exact ⟨[], ⟨rfl, rfl, Nat.le_succ _, by simp, by simp, by simp⟩, fun slot' h => by cases h⟩
    · rw [if_neg hwait]
      refine ⟨[], .nil _ _ _ _ _, fun slot' h => ?_⟩
      obtain rfl := Except.ok.inj h
      refine .kept habove ?_
      rw [Bool.eq_false_iff]
      exact fun hdue => hwait (isDue_iff.mp hdue).2

/-- The loop: what it placed so far, and the slots when no call raised. -/
theorem startSlots_spec (s : GridSession) (price : Rat) (place : Nat → GridPlaceOutcome)
    (slots : List GridSlotRecord) (w : GridWorld) :
    ∃ new, Placing s price place slots w new (startSlots s price place slots w).2 ∧
      ∀ slots', (startSlots s price place slots w).1 = .ok slots' →
        List.Forall₂ (SlotStarted s price new) slots slots' := by
  induction slots generalizing w with
  | nil =>
    refine ⟨[], .nil _ _ _ _ _, fun slots' h => ?_⟩
    obtain rfl := Except.ok.inj h
    exact .nil
  | cons slot slots ih =>
    obtain ⟨new, hplaced, hslot⟩ := startSlot_spec s price place slot w
    rw [startSlots]
    cases hrun : startSlot s price (place slot.id) slot w with
    | mk result w₁ =>
      rw [hrun] at hplaced hslot
      cases result with
      | error e =>
        refine ⟨new, ⟨hplaced.sessions, hplaced.orders, hplaced.issued, hplaced.fresh,
          hplaced.range, fun o ho => ?_⟩, fun slots' h => by cases h⟩
        obtain ⟨r, hr, hrest⟩ := hplaced.due o ho
        obtain rfl := List.mem_singleton.mp hr
        exact ⟨r, List.mem_cons_self, hrest⟩
      | ok slot' =>
        obtain ⟨new', hplaced', hslots⟩ := ih w₁
        have hboth : Placing s price place (slot :: slots) w (new ++ new')
            (startSlots s price place slots w₁).2 := by
          refine ⟨hplaced'.sessions.trans hplaced.sessions, ?_, hplaced.issued.trans hplaced'.issued,
            ?_, fun o ho => ?_, fun o ho => ?_⟩
          · rw [hplaced'.orders, hplaced.orders, List.append_assoc]
          · rw [List.map_append, List.nodup_append]
            refine ⟨hplaced.fresh, hplaced'.fresh, ?_⟩
            intro x hx y hy heq
            obtain ⟨o, ho, rfl⟩ := List.mem_map.mp hx
            obtain ⟨o', ho', rfl⟩ := List.mem_map.mp hy
            have hlt := (hplaced.range o ho).2
            rw [heq] at hlt
            exact absurd hlt (not_lt.mpr (hplaced'.range o' ho').1)
          · obtain ho | ho := List.mem_append.mp ho
            · exact ⟨(hplaced.range o ho).1, (hplaced.range o ho).2.trans_le hplaced'.issued⟩
            · exact ⟨hplaced.issued.trans (hplaced'.range o ho).1, (hplaced'.range o ho).2⟩
          · obtain ho | ho := List.mem_append.mp ho
            · obtain ⟨r, hr, hrest⟩ := hplaced.due o ho
              obtain rfl := List.mem_singleton.mp hr
              exact ⟨r, List.mem_cons_self, hrest⟩
            · obtain ⟨r, hr, hrest⟩ := hplaced'.due o ho
              exact ⟨r, List.mem_cons_of_mem _ hr, hrest⟩
        dsimp only
        cases hrest : startSlots s price place slots w₁ with
        | mk result' w₂ =>
          rw [hrest] at hboth hslots
          cases result' with
          | error e => exact ⟨_, hboth, fun slots' h => by cases h⟩
          | ok slots' =>
            refine ⟨_, hboth, fun slots'' h => ?_⟩
            obtain rfl := Except.ok.inj h
            refine .cons ((hslot slot' rfl).mono fun o ho => List.mem_append_left _ ho) ?_
            exact (hslots slots' rfl).imp fun _ _ h => h.mono fun o ho => List.mem_append_right _ ho

theorem startSlot_ok {s : GridSession} {price : Rat} {outcome : GridPlaceOutcome}
    {slot : GridSlotRecord} {w : GridWorld} :
    (∃ slot', (startSlot s price outcome slot w).1 = .ok slot') ↔
      (isDue price slot = true → outcome = .accepted) := by
  unfold startSlot
  dsimp only
  by_cases habove : price ≤ slot.buyPrice
  · simp [habove, isDue_iff]
  · by_cases hwait : slot.status = .waitingBuy ∧ slot.buyOrderId = none
    · rw [if_neg habove, if_pos hwait]
      have hdue : isDue price slot = true := isDue_iff.mpr ⟨habove, hwait⟩
      obtain ⟨hout, hrun⟩ | ⟨hout, e, hrun⟩ := placeLimit_cases ⟨s.id, slot.id⟩ s.symbol .buy
        slot.buyPrice (slotUnits s.config slot) outcome w
      · rw [hrun]
        simp [hout]
      · rw [hrun]
        simp [hdue, hout]
    · have hdue : ¬ isDue price slot = true := fun h => hwait (isDue_iff.mp h).2
      simp [habove, hwait, hdue]

theorem startSlots_ok {s : GridSession} {price : Rat} {place : Nat → GridPlaceOutcome}
    {slots : List GridSlotRecord} {w : GridWorld} :
    (∃ slots', (startSlots s price place slots w).1 = .ok slots') ↔
      ∀ slot ∈ slots, isDue price slot = true → place slot.id = .accepted := by
  induction slots generalizing w with
  | nil => simp [startSlots]
  | cons slot slots ih =>
    rw [List.forall_mem_cons, ← startSlot_ok (s := s) (w := w), startSlots]
    cases hrun : startSlot s price (place slot.id) slot w with
    | mk result w₁ =>
      cases result with
      | error e => simp
      | ok slot' =>
        rw [← ih (w := w₁)]
        cases hrest : startSlots s price place slots w₁ with
        | mk result' w₂ =>
          dsimp only
          rw [hrest]
          cases result' <;> simp

def ExchangeSide.opposite : ExchangeSide → ExchangeSide
  | .buy => .sell
  | .sell => .buy

def GridSlotRecordStatus.side : GridSlotRecordStatus → ExchangeSide
  | .waitingBuy => .buy
  | .waitingSell => .sell

def GridSlotRecord.priceOn (side : ExchangeSide) (slot : GridSlotRecord) : Rat :=
  match side with
  | .buy => slot.buyPrice
  | .sell => slot.sellPrice

theorem advanceSlot_orderOn (side side' : ExchangeSide) (x : GridOrderId) (slot : GridSlotRecord) :
    (advanceSlot side x slot).orderOn side' = if side' = side.opposite then some x else none := by
  cases side <;> cases side' <;> rfl

/-! An event keeps what the slot trades: its id, its units and its prices. -/

theorem advanceSlot_id (side : ExchangeSide) (x : GridOrderId) (slot : GridSlotRecord) :
    (advanceSlot side x slot).id = slot.id := by
  cases side <;> rfl

theorem advanceSlot_units (side : ExchangeSide) (x : GridOrderId) (slot : GridSlotRecord) :
    (advanceSlot side x slot).units = slot.units := by
  cases side <;> rfl

theorem advanceSlot_priceOn (side side' : ExchangeSide) (x : GridOrderId) (slot : GridSlotRecord) :
    (advanceSlot side x slot).priceOn side' = slot.priceOn side' := by
  cases side <;> rfl

def replacementOrder (session : Nat) (side : ExchangeSide) (symbol : String) (slot : GridSlotRecord)
    (id : GridOrderId) : GridOrder :=
  limitOrder ⟨session, slot.id⟩ symbol side.opposite (slot.priceOn side.opposite) (slot.units.getD 0) id

theorem placeReplacement_eq (session : Nat) (side : ExchangeSide) (symbol : String)
    (slot : GridSlotRecord) (outcome : GridPlaceOutcome) (w : GridWorld) :
    placeReplacement session side symbol slot outcome w = placeLimit ⟨session, slot.id⟩ symbol
      side.opposite (slot.priceOn side.opposite) (slot.units.getD 0) outcome w := by
  cases side <;> rfl

def cancelAll (ids : List GridOrderId) (orders : List GridOrder) : List GridOrder :=
  orders.map fun o => if o.id ∈ ids ∧ o.state = .live then { o with state := .cancelled } else o

theorem cancelAll_cons (id : GridOrderId) (ids : List GridOrderId) (orders : List GridOrder) :
    cancelAll ids (cancelAll [id] orders) = cancelAll (id :: ids) orders := by
  simp only [cancelAll, List.map_map]
  refine List.map_congr_left fun o _ => ?_
  dsimp only [Function.comp]
  by_cases hlive : o.state = .live
  · by_cases hid : o.id = id
    · simp [hid, hlive]
    · simp [hid, hlive]
  · simp [hlive]

/-- The orders the loop gets cancelled, up to the first call that raises. -/
def cancelledOrders (cancel : GridOrderId → GridCancelOutcome) : List GridOrderId → List GridOrderId
  | [] => []
  | id :: ids =>
    match cancel id with
    | .returned => id :: cancelledOrders cancel ids
    | .raised reached => if reached then [id] else []

theorem cancelGridOrder_eq (id : GridOrderId) (w : GridWorld) :
    cancelGridOrder id w = { w with orders := cancelAll [id] w.orders } := by
  simp [cancelGridOrder, cancelAll]

/-- The cancel loop returns when every call does. -/
theorem cancelOrders_spec (cancel : GridOrderId → GridCancelOutcome) (ids : List GridOrderId)
    (w : GridWorld) :
    (cancelOrders cancel ids w).2 =
        { w with orders := cancelAll (cancelledOrders cancel ids) w.orders } ∧
      ((cancelOrders cancel ids w).1 = .ok () ↔ ∀ x ∈ ids, cancel x = .returned) := by
  induction ids generalizing w with
  | nil => exact ⟨by simp [cancelOrders, cancelledOrders, cancelAll], by simp [cancelOrders]⟩
  | cons id ids ih =>
    rw [cancelOrders, cancelledOrders]
    cases hid : cancel id with
    | returned =>
      obtain ⟨hrun, hok⟩ := ih (cancelGridOrder id w)
      dsimp only
      constructor
      · rw [hrun, cancelGridOrder_eq, cancelAll_cons]
      · rw [hok, List.forall_mem_cons, hid]
        simp
    | raised reached =>
      refine ⟨?_, by simp [hid]⟩
      cases reached
      · simp [cancelAll]
      · simp [cancelGridOrder_eq]

def GridStopIo.cancelled (io : GridStopIo) (s : GridSession) (w : GridWorld) : List GridOrderId :=
  cancelledOrders io.cancel (openGridOrders s.symbol w)

inductive GridEffect (w : GridWorld) : GridStep → GridWorld → Prop
  | nothing {st} : GridEffect w st w
  | created {req} : GridEffect w (.create req) (createGridSession req w)
  | startFailed {id io s price new w'} (hs : w.loadSession id = some s) (hst : s.status ≠ .active)
      (hprice : io.price = .ok price) (h : Placing s price io.place s.slots w new w')
      (hraised : ¬ ∀ slot ∈ s.slots, isDue price slot = true → io.place slot.id = .accepted) :
      GridEffect w (.start id io) w'
  | started {id io s price new w' slots} (hs : w.loadSession id = some s) (hst : s.status ≠ .active)
      (hprice : io.price = .ok price) (h : Placing s price io.place s.slots w new w')
      (hall : ∀ slot ∈ s.slots, isDue price slot = true → io.place slot.id = .accepted)
      (hslots : List.Forall₂ (SlotStarted s price new) s.slots slots) :
      GridEffect w (.start id io) (w'.saveSession { s with slots := slots, status := .active })
  | stopFailed {id io s} (hs : w.loadSession id = some s) (hlisted : io.listed = true)
      (hraised : ¬ ∀ x ∈ openGridOrders s.symbol w, io.cancel x = .returned) :
      GridEffect w (.stop id io) { w with orders := cancelAll (io.cancelled s w) w.orders }
  | stopped {id io s} (hs : w.loadSession id = some s) (hlisted : io.listed = true)
      (hall : ∀ x ∈ openGridOrders s.symbol w, io.cancel x = .returned) :
      GridEffect w (.stop id io)
        (GridWorld.setStatus id .stopped { w with orders := cancelAll (io.cancelled s w) w.orders })
  | paused {id} : GridEffect w (.pause id) (w.setStatus id .paused)
  | filled {id} : GridEffect w (.fill id) (fillGridOrder id w)
  | unhandled {id outcome o b} (ho : o ∈ w.orders) (hid : o.id = id) (hfilled : o.state = .filled b)
      (hnone : slotForOrderId id w = .ok none ∨ ∃ e, slotForOrderId id w = .error e) :
      GridEffect w (.report id outcome) (markReported id w)
  | failed {id outcome o b row} (ho : o ∈ w.orders) (hid : o.id = id) (hfilled : o.state = .filled b)
      (hfound : slotForOrderId id w = .ok (some row)) (hout : outcome ≠ .accepted) :
      GridEffect w (.report id outcome) { markReported id w with
        orders := (markReported id w).orders ++ if outcome.reached then
          [replacementOrder row.1 o.side o.symbol row.2 w.issued] else []
        issued := w.issued + 1 }
  | advanced {id outcome o b row} (ho : o ∈ w.orders) (hid : o.id = id) (hfilled : o.state = .filled b)
      (hfound : slotForOrderId id w = .ok (some row)) (hout : outcome = .accepted) :
      GridEffect w (.report id outcome) (GridWorld.saveSlot (advanceSlot o.side w.issued row.2)
        { markReported id w with
          orders := (markReported id w).orders ++
            [replacementOrder row.1 o.side o.symbol row.2 w.issued]
          issued := w.issued + 1 })

theorem gridStep_effect (w : GridWorld) (st : GridStep) : GridEffect w st (gridStep w st) := by
  cases st with
  | create req => exact .created
  | fill id => exact .filled
  | start id io =>
    simp only [gridStep, GridRunner.start]
    cases hs : w.loadSession id with
    | none => exact .nothing
    | some s =>
      dsimp only
      split_ifs with hst
      · exact .nothing
      · cases hprice : io.price with
        | error e => exact .nothing
        | ok price =>
          dsimp only
          obtain ⟨new, hplaced, hslots⟩ := startSlots_spec s price io.place s.slots w
          have hok : (∃ slots', (startSlots s price io.place s.slots w).1 = .ok slots') ↔ _ := startSlots_ok
          cases hrun : startSlots s price io.place s.slots w with
          | mk result w' =>
            rw [hrun] at hplaced hslots hok
            cases result with
            | error e => exact .startFailed hs hst hprice hplaced fun hall => by simpa using hok.mpr hall
            | ok slots =>
              exact .started hs hst hprice hplaced (hok.mp ⟨slots, rfl⟩) (hslots slots rfl)
  | stop id io =>
    simp only [gridStep, GridRunner.stop]
    cases hs : w.loadSession id with
    | none => exact .nothing
    | some s =>
      dsimp only [cancelAllOrders]
      by_cases hlisted : io.listed = true
      · rw [if_pos hlisted]
        obtain ⟨hrun, hok⟩ := cancelOrders_spec io.cancel (openGridOrders s.symbol w) w
        cases hres : cancelOrders io.cancel (openGridOrders s.symbol w) w with
        | mk result w' =>
          rw [hres] at hrun hok
          obtain rfl : w' = _ := hrun
          cases result with
          | error e => exact .stopFailed hs hlisted fun hall => by cases hok.mpr hall
          | ok _ => exact .stopped hs hlisted (hok.mp rfl)
      · rw [if_neg hlisted]
        exact .nothing
  | pause id =>
    simp only [gridStep, GridRunner.pause]
    cases w.loadSession id with
    | none => exact .nothing
    | some s => exact .paused
  | report id outcome =>
    simp only [gridStep, reportGridOrder]
    cases ho : w.orders.find? fun o => o.id = id with
    | none => exact .nothing
    | some o =>
      have hmem := List.mem_of_find?_eq_some ho
      have hid : o.id = id := by simpa using List.find?_some ho
      dsimp only
      cases hstate : o.state with
      | live => simpa [gridOnOrder, hstate] using .nothing
      | cancelled => simpa [gridOnOrder, hstate] using .nothing
      | filled b =>
        simp only [gridOnOrder, hstate, List.foldl_cons, List.foldl_nil, handleOrderFill]
        have hlookup : slotForOrderId o.id (markReported id w) = slotForOrderId id w := by
          rw [hid]
          rfl
        rw [hlookup]
        cases hfound : slotForOrderId id w with
        | error e => exact .unhandled hmem hid hstate (.inr ⟨e, hfound⟩)
        | ok found =>
          cases found with
          | none => exact .unhandled hmem hid hstate (.inl hfound)
          | some row =>
            obtain ⟨session, slot⟩ := row
            dsimp only
            rw [placeReplacement_eq]
            obtain ⟨hout, hrun⟩ | ⟨hout, e, hrun⟩ := placeLimit_cases ⟨session, slot.id⟩ o.symbol
              o.side.opposite (slot.priceOn o.side.opposite) (slot.units.getD 0) outcome
              (markReported id w) <;> rw [hrun]
            · exact .advanced hmem hid hstate hfound hout
            · exact .failed hmem hid hstate hfound hout

/-! Rows and orders by their keys -/

namespace GridWorld

theorem eq_of_key {α : Type} {l : List α} {key : α → Nat} (hn : (l.map key).Nodup) {a b : α}
    (ha : a ∈ l) (hb : b ∈ l) (h : key a = key b) : a = b :=
  List.inj_on_of_nodup_map hn ha hb h

variable {w : GridWorld}

theorem WellFormed.session_eq (hw : w.WellFormed) {s t : GridSession} (hs : s ∈ w.sessions)
    (ht : t ∈ w.sessions) (h : s.id = t.id) : s = t := eq_of_key hw.sessionIds hs ht h

theorem WellFormed.order_eq (hw : w.WellFormed) {o o' : GridOrder} (ho : o ∈ w.orders)
    (ho' : o' ∈ w.orders) (h : o.id = o'.id) : o = o' := eq_of_key hw.orderIds ho ho' h

theorem WellFormed.slot_eq (hw : w.WellFormed) {s t : GridSession} (hs : s ∈ w.sessions)
    (ht : t ∈ w.sessions) {slot slot' : GridSlotRecord} (hslot : slot ∈ s.slots)
    (hslot' : slot' ∈ t.slots) (h : slot.id = slot'.id) : s = t ∧ slot = slot' := by
  have hrow := eq_of_key (a := (s.id, slot)) (b := (t.id, slot')) hw.slotIds
    (mem_slotRows.mpr ⟨s, hs, rfl, hslot⟩) (mem_slotRows.mpr ⟨t, ht, rfl, hslot'⟩) h
  obtain ⟨hid, rfl⟩ := Prod.mk.inj hrow
  exact ⟨hw.session_eq hs ht hid, rfl⟩

theorem WellFormed.slots_nodup (hw : w.WellFormed) {s : GridSession} (hs : s ∈ w.sessions) :
    (s.slots.map GridSlotRecord.id).Nodup := by
  have hids := hw.slotIds
  rw [slotRows, List.map_flatMap] at hids
  have hrow := (List.nodup_flatMap.mp hids).1 s hs
  rwa [List.map_map] at hrow

theorem mem_of_loadSession {id : Nat} {s : GridSession} (h : w.loadSession id = some s) :
    s ∈ w.sessions ∧ s.id = id :=
  ⟨List.mem_of_find?_eq_some h, by simpa using List.find?_some h⟩

end GridWorld

def GridSlotRecord.Names (x : GridOrderId) (slot : GridSlotRecord) : Prop :=
  ∃ side, slot.orderOn side = some x

theorem names_iff {x : GridOrderId} {slot : GridSlotRecord} :
    slot.Names x ↔ slot.buyOrderId = some x ∨ slot.sellOrderId = some x := by
  constructor
  · rintro ⟨side, h⟩
    cases side
    · exact .inl h
    · exact .inr h
  · rintro (h | h)
    · exact ⟨.buy, h⟩
    · exact ⟨.sell, h⟩

theorem names_congr {a b : GridSlotRecord} {x : GridOrderId} (hbuy : a.buyOrderId = b.buyOrderId)
    (hsell : a.sellOrderId = b.sellOrderId) : a.Names x ↔ b.Names x := by
  rw [names_iff, names_iff, hbuy, hsell]

/-- A slot names an order on its own side, and no other slot names it. -/
theorem GridWorld.WellFormed.named_by {w : GridWorld} (hw : w.WellFormed) {s : GridSession}
    (hs : s ∈ w.sessions) {slot : GridSlotRecord} (hslot : slot ∈ s.slots) {o : GridOrder}
    (ho : o ∈ w.orders) {side : ExchangeSide} (h : slot.orderOn side = some o.id) :
    o.PlacedFor s slot side := by
  obtain ⟨o', ho', hid, hp⟩ := hw.recorded s hs slot hslot side o.id h
  rwa [hw.order_eq ho' ho hid] at hp

theorem GridWorld.WellFormed.slot_eq_of_names {w : GridWorld} (hw : w.WellFormed) {s t : GridSession}
    (hs : s ∈ w.sessions) (ht : t ∈ w.sessions) {slot row : GridSlotRecord} (hslot : slot ∈ s.slots)
    (hrow : row ∈ t.slots) {x : GridOrderId} (h : slot.Names x) (h' : row.Names x) :
    s = t ∧ slot = row := by
  obtain ⟨side, h⟩ := h
  obtain ⟨side', h'⟩ := h'
  obtain ⟨o, ho, rfl, hp⟩ := hw.recorded s hs slot hslot side x h
  have hp' := hw.named_by ht hrow ho h'
  exact hw.slot_eq hs ht hslot hrow (hp.slot.symm.trans hp'.slot)

theorem slotForOrderId_eq {w : GridWorld} (hw : w.WellFormed) {x : GridOrderId} :
    (∃ row ∈ w.slotRows, row.2.Names x ∧ slotForOrderId x w = .ok (some row)) ∨
      ((∀ row ∈ w.slotRows, ¬ row.2.Names x) ∧ slotForOrderId x w = .ok none) := by
  have hmem : ∀ row, row ∈ (w.slotRows.filter fun row =>
      row.2.buyOrderId = some x || row.2.sellOrderId = some x) ↔
        row ∈ w.slotRows ∧ row.2.Names x := by
    intro row
    rw [List.mem_filter, names_iff]
    simp
  have hnodup : (w.slotRows.filter fun row =>
      row.2.buyOrderId = some x || row.2.sellOrderId = some x).Nodup :=
    (List.Nodup.of_map _ hw.slotIds).filter _
  have hone : ∀ row row', row ∈ w.slotRows → row' ∈ w.slotRows → row.2.Names x → row'.2.Names x →
      row = row' := by
    intro row row' hrow hrow' h h'
    obtain ⟨s, hs, hid, hslot⟩ := GridWorld.mem_slotRows.mp hrow
    obtain ⟨s', hs', hid', hslot'⟩ := GridWorld.mem_slotRows.mp hrow'
    obtain ⟨rfl, heq⟩ := hw.slot_eq_of_names hs hs' hslot hslot' h h'
    exact Prod.ext (hid.symm.trans hid') heq
  unfold slotForOrderId
  generalize (w.slotRows.filter fun row =>
    row.2.buyOrderId = some x || row.2.sellOrderId = some x) = found at hmem hnodup ⊢
  match found with
  | [] => exact .inr ⟨fun row hrow hnames => by simpa using (hmem row).mpr ⟨hrow, hnames⟩, rfl⟩
  | [row] =>
    obtain ⟨hrow, hnames⟩ := (hmem row).mp List.mem_cons_self
    exact .inl ⟨row, hrow, hnames, rfl⟩
  | row :: row' :: rest =>
    obtain ⟨hrow, hnames⟩ := (hmem row).mp List.mem_cons_self
    obtain ⟨hrow', hnames'⟩ := (hmem row').mp (List.mem_cons_of_mem _ List.mem_cons_self)
    have heq := hone row row' hrow hrow' hnames hnames'
    subst heq
    simp at hnodup

/-! Every step but a creation lets the rows and the orders evolve -/

theorem SlotEvolves.of_started {s : GridSession} {price : Rat} {new orders : List GridOrder}
    {slot slot' : GridSlotRecord} (h : SlotStarted s price new slot slot')
    (hsub : ∀ o ∈ new, o ∈ orders) : SlotEvolves orders s slot slot' := by
  cases h with
  | above h => exact ⟨rfl, rfl, rfl, fun _ _ h => .inl h⟩
  | kept h hdue => exact ⟨rfl, rfl, rfl, fun _ _ h => .inl h⟩
  | @placed x hdue ho =>
    refine ⟨rfl, rfl, rfl, fun side y hy => ?_⟩
    cases side with
    | buy =>
      obtain rfl : x = y := Option.some.inj hy
      exact .inr ⟨_, hsub _ ho, rfl, ⟨rfl, rfl, rfl, rfl⟩⟩
    | sell => exact .inl hy

namespace GridWorld

variable {w : GridWorld}

theorem evolves_of {w' : GridWorld} (f : GridOrder → GridOrder) (hf : ∀ o : GridOrder, o.Same (f o))
    (new : List GridOrder) (horders : w'.orders = w.orders.map f ++ new)
    (hissued : w.issued ≤ w'.issued) (hnodup : (new.map GridOrder.id).Nodup)
    (hrange : ∀ o ∈ new, w.issued ≤ o.id ∧ o.id < w'.issued)
    (hsessions : List.Forall₂ (SessionEvolves w'.orders) w.sessions w'.sessions) : w.Evolves w' where
  issued := hissued
  orders := by
    refine ⟨_, new, horders, ?_, hnodup, hrange⟩
    rw [List.forall₂_map_right_iff, List.forall₂_same]
    exact fun o _ => hf o
  sessions := hsessions

theorem sessions_refl (orders : List GridOrder) (sessions : List GridSession) :
    List.Forall₂ (SessionEvolves orders) sessions sessions :=
  List.forall₂_same.mpr fun s _ => .refl orders s

theorem setStatus_evolves {w' : GridWorld} (hsame : w'.sessions = w.sessions)
    (orders : List GridOrder) (id : Nat) (status : GridSessionStatus) :
    List.Forall₂ (SessionEvolves orders) w.sessions (w'.setStatus id status).sessions := by
  simp only [setStatus, hsame, List.forall₂_map_right_iff, List.forall₂_same]
  intro row _
  split_ifs
  · exact ⟨rfl, rfl, rfl, List.forall₂_same.mpr fun slot _ => .refl orders row slot⟩
  · exact .refl orders row

theorem WellFormed.saveSession_evolves (hw : w.WellFormed) {w' : GridWorld}
    (hsame : w'.sessions = w.sessions) {orders : List GridOrder} {s s' : GridSession}
    (hs : s ∈ w.sessions) (h : SessionEvolves orders s s') :
    List.Forall₂ (SessionEvolves orders) w.sessions (w'.saveSession s').sessions := by
  simp only [saveSession, hsame, List.forall₂_map_right_iff, List.forall₂_same]
  intro row hrow
  split_ifs with hid
  · obtain rfl := hw.session_eq hrow hs (hid.trans h.id)
    exact h
  · exact .refl orders row

theorem WellFormed.saveSlot_evolves (hw : w.WellFormed) {w' : GridWorld}
    (hsame : w'.sessions = w.sessions) {orders : List GridOrder} {s : GridSession}
    {slot slot' : GridSlotRecord} (hs : s ∈ w.sessions) (hslot : slot ∈ s.slots)
    (h : SlotEvolves orders s slot slot') :
    List.Forall₂ (SessionEvolves orders) w.sessions (w'.saveSlot slot').sessions := by
  simp only [saveSlot, hsame, List.forall₂_map_right_iff, List.forall₂_same]
  intro t ht
  refine ⟨rfl, rfl, rfl, ?_⟩
  simp only [List.forall₂_map_right_iff, List.forall₂_same]
  intro row hrow
  split_ifs with hid
  · obtain ⟨rfl, rfl⟩ := hw.slot_eq ht hs hrow hslot (hid.trans h.id)
    exact h
  · exact .refl orders t row

/-- A row after one slot was saved: the new slot in place of the old, or a row of another slot. -/
theorem WellFormed.mem_saveSlot (hw : w.WellFormed) {w' : GridWorld} (hsame : w'.sessions = w.sessions)
    {s : GridSession} {slot slot' : GridSlotRecord} (hs : s ∈ w.sessions) (hslot : slot ∈ s.slots)
    (hid : slot'.id = slot.id) {t' : GridSession} (ht' : t' ∈ (w'.saveSlot slot').sessions)
    {row' : GridSlotRecord} (hrow' : row' ∈ t'.slots) : ∃ t ∈ w.sessions,
      (t'.id = t.id ∧ t'.symbol = t.symbol ∧ t'.config = t.config ∧ t'.status = t.status) ∧
      ∃ row ∈ t.slots, (row = slot ∧ t = s ∧ row' = slot') ∨ (row.id ≠ slot.id ∧ row' = row) := by
  obtain ⟨t, ht, rfl⟩ := List.mem_map.mp ht'
  obtain ⟨row, hrow, rfl⟩ := List.mem_map.mp hrow'
  rw [hsame] at ht
  refine ⟨t, ht, ⟨rfl, rfl, rfl, rfl⟩, row, hrow, ?_⟩
  rw [hid]
  split_ifs with hsame
  · obtain ⟨rfl, rfl⟩ := hw.slot_eq ht hs hrow hslot hsame
    exact .inl ⟨rfl, rfl, rfl⟩
  · exact .inr ⟨hsame, rfl⟩

end GridWorld

theorem Placing.evolves {s : GridSession} {price : Rat} {place : Nat → GridPlaceOutcome}
    {slots : List GridSlotRecord} {w w' : GridWorld} {new : List GridOrder}
    (h : Placing s price place slots w new w') : w.Evolves w' := by
  refine GridWorld.evolves_of id .refl _ (by rw [h.orders, List.map_id]) h.issued h.fresh h.range ?_
  rw [h.sessions]
  exact GridWorld.sessions_refl _ _

theorem GridOrder.Same.ite {o : GridOrder} {p : Prop} [Decidable p] (state : GridOrderState) :
    o.Same (if p then { o with state := state } else o) := by
  split_ifs
  · rfl
  · rfl

/-- The slot after its order was filled names the replacement on the other side. -/
theorem SlotEvolves.of_advance {orders : List GridOrder} {s : GridSession} {slot : GridSlotRecord}
    {side : ExchangeSide} {symbol : String} {x : GridOrderId}
    (ho : replacementOrder s.id side symbol slot x ∈ orders) (hsymbol : symbol = s.symbol) :
    SlotEvolves orders s slot (advanceSlot side x slot) := by
  have hnew : ∀ y, x = y → ∃ o ∈ orders, o.id = y ∧ o.PlacedFor s slot side.opposite := by
    rintro y rfl
    exact ⟨_, ho, rfl, ⟨rfl, rfl, hsymbol, rfl⟩⟩
  cases side with
  | buy =>
    refine ⟨rfl, rfl, rfl, fun side' y hy => ?_⟩
    cases side' with
    | buy => cases hy
    | sell => exact .inr (hnew y (Option.some.inj hy))
  | sell =>
    refine ⟨rfl, rfl, rfl, fun side' y hy => ?_⟩
    cases side' with
    | buy => exact .inr (hnew y (Option.some.inj hy))
    | sell => cases hy

/-- What the lookup of a report found: a slot that names the reported order. -/
theorem lookup_named {w : GridWorld} (hw : w.WellFormed) {o : GridOrder} (ho : o ∈ w.orders)
    {row : Nat × GridSlotRecord} (hfound : slotForOrderId o.id w = .ok (some row)) :
    ∃ s ∈ w.sessions, s.id = row.1 ∧ row.2 ∈ s.slots ∧ row.2.orderOn o.side = some o.id ∧
      o.PlacedFor s row.2 o.side := by
  obtain ⟨row', hrow, ⟨side, hnames⟩, heq⟩ | ⟨-, heq⟩ := slotForOrderId_eq hw (x := o.id)
  · rw [heq] at hfound
    obtain rfl := Option.some.inj (Except.ok.inj hfound)
    obtain ⟨s, hs, hid, hslot⟩ := GridWorld.mem_slotRows.mp hrow
    have hp := hw.named_by hs hslot ho hnames
    obtain rfl := hp.side
    exact ⟨s, hs, hid, hslot, hnames, hp⟩
  · rw [heq] at hfound
    cases hfound

theorem cancelAll_same (ids : List GridOrderId) (o : GridOrder) :
    o.Same (if o.id ∈ ids ∧ o.state = .live then { o with state := .cancelled } else o) := .ite _

theorem GridEffect.evolves {w w' : GridWorld} {st : GridStep} (hw : w.WellFormed)
    (h : GridEffect w st w') (hst : ∀ req, st ≠ .create req) : w.Evolves w' := by
  have hkeep : ∀ orders, List.Forall₂ (SessionEvolves orders) w.sessions w.sessions := fun orders =>
    GridWorld.sessions_refl orders w.sessions
  have hmoved : ∀ (f : GridOrder → GridOrder) (_ : ∀ o : GridOrder, o.Same (f o)) (w' : GridWorld),
      w'.orders = w.orders.map f → w'.issued = w.issued →
      List.Forall₂ (SessionEvolves w'.orders) w.sessions w'.sessions → w.Evolves w' := by
    intro f hf w' horders hissued hsessions
    exact GridWorld.evolves_of f hf [] (by rw [horders, List.append_nil]) hissued.ge (by simp)
      (by simp) hsessions
  cases h with
  | nothing => exact hmoved id .refl _ (by simp) rfl (hkeep _)
  | created => exact absurd rfl (hst _)
  | startFailed hs hst' hprice hp hraised => exact hp.evolves
  | started hs hactive hprice hp hall hslots =>
    refine GridWorld.evolves_of id .refl _ (by rw [List.map_id]; exact hp.orders) hp.issued hp.fresh
      hp.range ?_
    refine hw.saveSession_evolves hp.sessions (GridWorld.mem_of_loadSession hs).1 ⟨rfl, rfl, rfl, ?_⟩
    refine hslots.imp fun _ _ h => .of_started h fun o ho => ?_
    show o ∈ (GridWorld.saveSession _ _).orders
    simp only [GridWorld.saveSession, hp.orders]
    exact List.mem_append_right _ ho
  | stopFailed hs hlisted hraised => exact hmoved _ (cancelAll_same _) _ rfl rfl (hkeep _)
  | stopped hs hlisted hall =>
    exact hmoved _ (cancelAll_same _) _ rfl rfl (GridWorld.setStatus_evolves rfl _ _ _)
  | paused => exact hmoved id .refl _ (by simp [GridWorld.setStatus]) rfl (GridWorld.setStatus_evolves rfl _ _ _)
  | filled => exact hmoved _ (fun o => .ite _) _ rfl rfl (hkeep _)
  | unhandled ho hid hfilled hnone => exact hmoved _ (fun o => .ite _) _ rfl rfl (hkeep _)
  | @failed _ outcome o _ row ho hid hfilled hfound hout =>
    refine GridWorld.evolves_of _ (fun o => .ite _) _ rfl (Nat.le_succ _) ?_ ?_ (hkeep _)
    · split_ifs <;> simp
    · split_ifs <;> simp [replacementOrder, limitOrder]
  | @advanced _ outcome o _ row ho hid hfilled hfound hout =>
    refine GridWorld.evolves_of _ (fun o => .ite _) _ rfl (Nat.le_succ _) (List.nodup_singleton _) ?_ ?_
    · intro o' ho'
      obtain rfl := List.mem_singleton.mp ho'
      exact ⟨le_refl _, Nat.lt_succ_self _⟩
    · subst hid
      obtain ⟨s, hs, hsid, hslot, -, hp⟩ := lookup_named hw ho hfound
      refine hw.saveSlot_evolves rfl hs hslot (.of_advance ?_ hp.symbol)
      rw [hsid]
      exact List.mem_append_right _ List.mem_cons_self

/-! A new session -/

/-- The slots of a new session wait to buy and name no order. -/
structure GridSlotRecord.Fresh (slot : GridSlotRecord) : Prop where
  status : slot.status = .waitingBuy
  units : slot.units = none
  buy : slot.buyOrderId = none
  sell : slot.sellOrderId = none

theorem GridSlotRecord.Fresh.orderOn {slot : GridSlotRecord} (h : slot.Fresh) (side : ExchangeSide) :
    slot.orderOn side = none := by
  cases side
  · exact h.buy
  · exact h.sell

theorem newSlots_fresh {config : GridConfig} {firstId : Nat} {slot : GridSlotRecord}
    (h : slot ∈ newSlots config firstId) : slot.Fresh := by
  obtain ⟨⟨price, level⟩, -, rfl⟩ := List.mem_map.mp h
  exact ⟨rfl, rfl, rfl, rfl⟩

theorem newSlots_ids (config : GridConfig) (firstId : Nat) :
    (newSlots config firstId).map GridSlotRecord.id =
      (List.range' 0 (newSlots config firstId).length).map (firstId + ·) := by
  have hlevels : (newSlots config firstId).map GridSlotRecord.id =
      (config.buyPrices.zipIdx.map Prod.snd).map (firstId + ·) := by
    simp only [newSlots, List.map_map]
    rfl
  rw [hlevels, List.zipIdx_map_snd, newSlots, List.length_map, List.length_zipIdx]

def openGrid (config : GridConfig) (w : GridWorld) : GridWorld :=
  let slots := newSlots config (w.issued + 1)
  { w with
    sessions := w.sessions ++ [{ id := w.issued, symbol := config.symbol, config := config, slots := slots }]
    issued := w.issued + 1 + slots.length }

theorem createGridSession_eq (req : GridCreateRequest) (w : GridWorld) :
    createGridSession req w = openGrid req.config w := rfl

theorem openGrid_wellFormed {w : GridWorld} (hw : w.WellFormed) (config : GridConfig) :
    (openGrid config w).WellFormed := by
  have hissued : w.issued < (openGrid config w).issued := by
    simp only [openGrid]
    omega
  have hids := newSlots_ids config (w.issued + 1)
  have hslotIds : ((openGrid config w).slotRows.map fun row => row.2.id) =
      (w.slotRows.map fun row => row.2.id) ++
        (newSlots config (w.issued + 1)).map GridSlotRecord.id := by
    simp only [openGrid, GridWorld.slotRows, List.flatMap_append, List.map_append,
      List.flatMap_cons, List.flatMap_nil, List.append_nil, List.map_map]
    rfl
  have hrange : ∀ x ∈ (newSlots config (w.issued + 1)).map GridSlotRecord.id,
      w.issued < x ∧ x < (openGrid config w).issued := by
    intro x hx
    rw [hids] at hx
    obtain ⟨i, hi, rfl⟩ := List.mem_map.mp hx
    have hi' := (List.mem_range'_1.mp hi).2
    simp only [openGrid]
    omega
  refine ⟨?_, ?_, hw.orderIds, ?_, ?_, ?_, ?_⟩
  · simp only [openGrid, List.map_append, List.map_cons, List.map_nil, List.nodup_append]
    refine ⟨hw.sessionIds, List.nodup_singleton _, ?_⟩
    intro x hx y hy heq
    obtain ⟨s, hs, rfl⟩ := List.mem_map.mp hx
    obtain rfl := List.mem_singleton.mp hy
    exact absurd (hw.sessionFresh s hs) (by rw [heq]; exact lt_irrefl _)
  · rw [hslotIds, List.nodup_append]
    refine ⟨hw.slotIds, ?_, ?_⟩
    · rw [hids]
      exact (List.nodup_range' 1).map fun a b h => Nat.add_left_cancel h
    · intro x hx y hy heq
      obtain ⟨row, hrow, rfl⟩ := List.mem_map.mp hx
      have hlt := hw.slotFresh row hrow
      rw [heq] at hlt
      exact absurd hlt (not_lt.mpr (hrange y hy).1.le)
  · intro s hs
    obtain hs | hs := List.mem_append.mp hs
    · exact (hw.sessionFresh s hs).trans hissued
    · obtain rfl := List.mem_singleton.mp hs
      exact hissued
  · intro row hrow
    have hid : row.2.id ∈ (openGrid config w).slotRows.map fun row => row.2.id :=
      List.mem_map_of_mem hrow
    rw [hslotIds] at hid
    obtain hid | hid := List.mem_append.mp hid
    · obtain ⟨row', hrow', heq⟩ := List.mem_map.mp hid
      rw [← heq]
      exact (hw.slotFresh row' hrow').trans hissued
    · exact (hrange _ hid).2
  · exact fun o ho => (hw.orderFresh o ho).trans hissued
  · intro s hs slot hslot side x hx
    obtain hs | hs := List.mem_append.mp hs
    · exact hw.recorded s hs slot hslot side x hx
    · obtain rfl := List.mem_singleton.mp hs
      rw [(newSlots_fresh hslot).orderOn side] at hx
      cases hx

theorem createGridSession_wellFormed {w : GridWorld} (hw : w.WellFormed) (req : GridCreateRequest) :
    (createGridSession req w).WellFormed := openGrid_wellFormed hw req.config

theorem gridStep_wellFormed {w : GridWorld} (hw : w.WellFormed) (st : GridStep) :
    (gridStep w st).WellFormed := by
  by_cases hst : ∀ req, st ≠ .create req
  · exact hw.evolves ((gridStep_effect w st).evolves hw hst)
  · obtain ⟨req, hreq⟩ := not_forall.mp hst
    obtain rfl := not_not.mp hreq
    exact createGridSession_wellFormed hw req

theorem gridWellFormed_init : GridWorld.WellFormed {} where
  sessionIds := List.nodup_nil
  slotIds := List.nodup_nil
  orderIds := List.nodup_nil
  sessionFresh := by simp
  slotFresh := by simp [GridWorld.slotRows]
  orderFresh := by simp
  recorded := by simp

/-- In every run, ids are unique and a slot names only orders placed for it. -/
theorem gridRun_wellFormed (steps : List GridStep) : (Runs.run gridStep {} steps).WellFormed :=
  Runs.run_invariant steps gridWellFormed_init fun _ st hw => gridStep_wellFormed hw st

end AmaExecutionCore
