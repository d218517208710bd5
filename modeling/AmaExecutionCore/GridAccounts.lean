import AmaExecutionCore.GridFills
import Mathlib.Data.List.Dedup
import Mathlib.Tactic.Ring

/-! The accounts of the slots over the fills of their orders: events come one at a time, twice or
for orders nobody placed, and each order counts once. -/
namespace AmaExecutionCore
open GridRunner

/-- A fill that the handler acted on, with what it sent for it. -/
structure ActedFill where
  orderId : GridOrderId
  side : ExchangeSide
  session : Nat
  slot : Nat
  sent : List GridOrder

/-- The grid with the fills that were acted on, and the orders of which an event reported a fill. -/
structure FillBook where
  world : GridWorld := {}
  acted : List ActedFill := []
  reported : List GridOrder := []

/-- A session is created, stopped or paused, an order is filled, a session is started, or a fill
event is handled. -/
inductive FillStep where
  | grid (e : GridEvent)
  | start (id : Nat) (io : GridStartIo)
  | event (e : GridOrderFillEvent)

namespace FillBook

/-- The slot on which the handler acts, and the side. -/
def target (e : GridOrderFillEvent) (w : GridWorld) : Option (Nat × GridSlotRecord × ExchangeSide) :=
  match slotForOrderId e.orderId w, e.side with
  | .ok (some (session, slot)), some side => some (session, slot, side)
  | _, _ => none

/-- The event is handled without failure. -/
def handle (e : GridOrderFillEvent) (b : FillBook) : FillBook :=
  let w := (handleOrderFill e .accepted b.world).2
  { world := w
    acted := b.acted ++ ((target e b.world).map fun row =>
      { orderId := e.orderId, side := row.2.2, session := row.1, slot := row.2.1.id
        sent := w.orders.drop b.world.orders.length }).toList
    reported := b.reported ++ b.world.orders.filter fun o => o.id = e.orderId }

def step (b : FillBook) : FillStep → FillBook
  | .grid e => { b with world := gridStep b.world e.toStep }
  | .start id io => { b with world := gridStep b.world (.start id io) }
  | .event e => b.handle e

/-- An event about an order carries the order's side and symbol. -/
def CarriesOrder (b : FillBook) : FillStep → Prop
  | .event e => ∀ o ∈ b.world.orders, o.id = e.orderId → e.side = some o.side ∧ e.symbol = o.symbol
  | _ => True

instance (b : FillBook) (st : FillStep) : Decidable (b.CarriesOrder st) := by
  cases st <;> unfold CarriesOrder <;> infer_instance

def filledSells (slot : Nat) (b : FillBook) : List GridOrderId :=
  ((b.reported.filter fun o => o.slot = slot && o.side = .sell).map GridOrder.id).dedup

def soldCycles (slot : Nat) (b : FillBook) : Nat :=
  b.acted.countP fun a => a.slot = slot && a.side = .sell

end FillBook

/-- The slot's session replaced the filled order by one of the other side, at the slot's price
there and for its units. -/
def ActedFill.Replaced (w : GridWorld) (a : ActedFill) : Prop :=
  ∃ s ∈ w.sessions, ∃ slot ∈ s.slots, s.id = a.session ∧ slot.id = a.slot ∧
    ∃ units id, slot.units = some units ∧ a.sent =
      [limitOrder ⟨s.id, slot.id⟩ s.symbol a.side.opposite (slot.priceOn a.side.opposite) units id]

/-- What the fills leave in the accounts of the slots. -/
structure FillsAccounted (b : FillBook) : Prop where
  once : (b.acted.map ActedFill.orderId).Nodup
  replaced : ∀ a ∈ b.acted, a.Replaced b.world
  cycles : ∀ s ∈ b.world.sessions, ∀ slot ∈ s.slots,
    slot.completedCycles = (b.filledSells slot.id).length
  pnl : ∀ s ∈ b.world.sessions, ∀ slot ∈ s.slots, slot.realizedPnl =
    (b.filledSells slot.id).length * ((slot.sellPrice - slot.buyPrice) * slot.units.getD 0)

/-! What the steps besides the events keep of a slot -/

/-- The accounts of the slot stay, and a start at most gives it units, marks it as bought or
places its buy order. -/
structure SlotKept (issued : Nat) (s : GridSession) (slot slot' : GridSlotRecord) : Prop where
  id : slot'.id = slot.id
  buyPrice : slot'.buyPrice = slot.buyPrice
  sellPrice : slot'.sellPrice = slot.sellPrice
  cycles : slot'.completedCycles = slot.completedCycles
  pnl : slot'.realizedPnl = slot.realizedPnl
  sell : slot'.sellOrderId = slot.sellOrderId
  status : slot'.status = slot.status ∨ slot'.status = .waitingSell
  units : slot'.units = slot.units ∨ slot'.units = some (slotUnits s.config slot)
  buy : slot'.buyOrderId = slot.buyOrderId ∨ (slot.status = .waitingBuy ∧
    slot'.units = some (slotUnits s.config slot) ∧ ∃ x, issued ≤ x ∧ slot'.buyOrderId = some x)

theorem SlotKept.refl (issued : Nat) (s : GridSession) (slot : GridSlotRecord) :
    SlotKept issued s slot slot :=
  ⟨rfl, rfl, rfl, rfl, rfl, rfl, .inl rfl, .inl rfl, .inl rfl⟩

theorem SlotKept.of_started {issued : Nat} {s : GridSession} {price : Rat} {new : List GridOrder}
    {slot slot' : GridSlotRecord} (h : SlotStarted s price new slot slot')
    (hnew : ∀ o ∈ new, issued ≤ o.id) : SlotKept issued s slot slot' := by
  cases h with
  | above h => exact ⟨rfl, rfl, rfl, rfl, rfl, rfl, .inr rfl, .inr rfl, .inl rfl⟩
  | kept h hdue => exact ⟨rfl, rfl, rfl, rfl, rfl, rfl, .inl rfl, .inr rfl, .inl rfl⟩
  | @placed x hdue ho =>
    exact ⟨rfl, rfl, rfl, rfl, rfl, rfl, .inl rfl, .inr rfl,
      .inr ⟨(isDue_iff.mp hdue).2.1, rfl, x, hnew _ ho, rfl⟩⟩

structure SessionKept (issued : Nat) (s s' : GridSession) : Prop where
  id : s'.id = s.id
  symbol : s'.symbol = s.symbol
  config : s'.config = s.config
  slots : List.Forall₂ (SlotKept issued s) s.slots s'.slots

theorem SessionKept.refl (issued : Nat) (s : GridSession) : SessionKept issued s s :=
  ⟨rfl, rfl, rfl, List.forall₂_same.mpr fun slot _ => .refl issued s slot⟩

/-- A step besides the events: the sessions are kept and at most one is opened, and what it sends
are buy orders. -/
structure WorldKept (w w' : GridWorld) : Prop where
  issued : w.issued ≤ w'.issued
  sessions : ∃ kept new, w'.sessions = kept ++ new ∧
    List.Forall₂ (SessionKept w.issued) w.sessions kept ∧
    ∀ s ∈ new, ∀ slot ∈ s.slots, slot.Fresh ∧ slot.completedCycles = 0 ∧ slot.realizedPnl = 0 ∧
      w.issued ≤ slot.id
  orders : ∀ o' ∈ w'.orders, o'.side = .sell → ∃ o ∈ w.orders, o.Same o'
  stay : ∀ o ∈ w.orders, ∃ o' ∈ w'.orders, o.Same o'

theorem sessionKept_setStatus {w w₁ : GridWorld} (hrows : w₁.sessions = w.sessions) (issued id : Nat)
    (status : GridSessionStatus) :
    List.Forall₂ (SessionKept issued) w.sessions (w₁.setStatus id status).sessions := by
  simp only [GridWorld.setStatus, hrows, List.forall₂_map_right_iff, List.forall₂_same]
  intro row _
  split_ifs
  · exact ⟨rfl, rfl, rfl, List.forall₂_same.mpr fun slot _ => .refl issued row slot⟩
  · exact .refl issued row

theorem WorldKept.of_moved {w w' : GridWorld} {f : GridOrder → GridOrder}
    (hf : ∀ o : GridOrder, o.Same (f o)) (horders : w'.orders = w.orders.map f)
    (hissued : w'.issued = w.issued)
    (hsessions : List.Forall₂ (SessionKept w.issued) w.sessions w'.sessions) : WorldKept w w' where
  issued := hissued.ge
  sessions := ⟨_, [], (List.append_nil _).symm, hsessions, by simp⟩
  orders := by
    intro o' ho' _
    rw [horders] at ho'
    obtain ⟨o, ho, rfl⟩ := List.mem_map.mp ho'
    exact ⟨o, ho, hf o⟩
  stay := fun o ho => ⟨f o, horders ▸ List.mem_map_of_mem ho, hf o⟩

theorem Placing.buys {s : GridSession} {price : Rat} {place : Nat → GridPlaceOutcome}
    {slots : List GridSlotRecord} {w w' : GridWorld} {new : List GridOrder}
    (h : Placing s price place slots w new w') : ∀ o ∈ new, o.side = .buy := by
  intro o ho
  obtain ⟨slot, -, -, -, heq⟩ := h.due o ho
  rw [heq]
  rfl

theorem WorldKept.of_placing {s : GridSession} {price : Rat} {place : Nat → GridPlaceOutcome}
    {slots : List GridSlotRecord} {w w₁ w' : GridWorld} {new : List GridOrder}
    (h : Placing s price place slots w new w₁) (horders : w'.orders = w₁.orders)
    (hissued : w'.issued = w₁.issued)
    (hsessions : List.Forall₂ (SessionKept w.issued) w.sessions w'.sessions) : WorldKept w w' where
  issued := hissued ▸ h.issued
  sessions := ⟨_, [], (List.append_nil _).symm, hsessions, by simp⟩
  orders := by
    intro o' ho' hside
    rw [horders, h.orders] at ho'
    obtain ho' | ho' := List.mem_append.mp ho'
    · exact ⟨o', ho', .refl o'⟩
    · rw [h.buys o' ho'] at hside
      cases hside
  stay := by
    intro o ho
    refine ⟨o, ?_, .refl o⟩
    rw [horders, h.orders]
    exact List.mem_append_left _ ho

theorem sessionsKept_refl (issued : Nat) (sessions : List GridSession) :
    List.Forall₂ (SessionKept issued) sessions sessions :=
  List.forall₂_same.mpr fun s _ => .refl issued s

theorem gridStep_kept {w : GridWorld} (hw : w.WellFormed) {st : GridStep}
    (hst : ∀ id outcome, st ≠ .report id outcome) : WorldKept w (gridStep w st) := by
  have heff := gridStep_effect w st
  generalize gridStep w st = w' at heff ⊢
  have hsame : w.orders = w.orders.map id := (List.map_id _).symm
  cases heff with
  | nothing => exact .of_moved .refl hsame rfl (sessionsKept_refl _ _)
  | @created req =>
    refine ⟨by simp only [createGridSession]; omega, ⟨w.sessions, _, rfl, sessionsKept_refl _ _, ?_⟩,
      fun o ho _ => ⟨o, ho, .refl o⟩, fun o ho => ⟨o, ho, .refl o⟩⟩
    intro s hs slot hslot
    obtain rfl := List.mem_singleton.mp hs
    refine ⟨newSlots_fresh hslot, ?_⟩
    obtain ⟨⟨price, level⟩, -, rfl⟩ := List.mem_map.mp hslot
    exact ⟨rfl, rfl, by dsimp only; omega⟩
  | startFailed hs hactive hprice hp hraised =>
    refine .of_placing hp rfl rfl ?_
    rw [hp.sessions]
    exact sessionsKept_refl _ _
  | @started id io s price new w₁ slots hs hactive hprice hp hall hslots =>
    refine .of_placing hp rfl rfl ?_
    simp only [GridWorld.saveSession, hp.sessions, List.forall₂_map_right_iff, List.forall₂_same]
    intro row hrow
    split_ifs with hid
    · obtain rfl := hw.session_eq hrow (GridWorld.mem_of_loadSession hs).1 hid
      exact ⟨rfl, rfl, rfl, hslots.imp fun _ _ h => .of_started h fun o ho => (hp.range o ho).1⟩
    · exact .refl _ row
  | stopFailed hs hlisted hraised =>
    exact .of_moved (cancelAll_same _) rfl rfl (sessionsKept_refl _ _)
  | stopped hs hlisted hall =>
    exact .of_moved (cancelAll_same _) rfl rfl (sessionKept_setStatus rfl _ _ _)
  | paused => exact .of_moved .refl hsame rfl (sessionKept_setStatus rfl _ _ _)
  | filled => exact .of_moved (fun o => .ite _) rfl rfl (sessionsKept_refl _ _)
  | unhandled => exact absurd rfl (hst _ _)
  | failed => exact absurd rfl (hst _ _)
  | advanced => exact absurd rfl (hst _ _)

/-! What an event does -/

/-- The event is ignored, or it moves on the slot that names its order and sends one order of the
other side. -/
inductive FillHandled (e : GridOrderFillEvent) (w w' : GridWorld) : Prop where
  | ignored (htarget : FillBook.target e w = none) (h : w' = w)
      (hnone : ∀ o ∈ w.orders, o.id = e.orderId → ∀ row ∈ w.slotRows, ¬ row.2.Names o.id)
  | moved {s slot o} (hs : s ∈ w.sessions) (hslot : slot ∈ s.slots) (ho : o ∈ w.orders)
      (hid : o.id = e.orderId) (hnames : slot.orderOn o.side = some o.id)
      (hplaced : o.PlacedFor s slot o.side)
      (htarget : FillBook.target e w = some (s.id, slot, o.side))
      (h : w' = GridWorld.saveSlot (advanceSlot o.side w.issued slot)
        { w with
          orders := w.orders ++ [replacementOrder s.id o.side s.symbol slot w.issued]
          issued := w.issued + 1 })

theorem handleOrderFill_handled {e : GridOrderFillEvent} {w : GridWorld} (hw : w.WellFormed)
    (hcarries : ∀ o ∈ w.orders, o.id = e.orderId → e.side = some o.side ∧ e.symbol = o.symbol) :
    FillHandled e w (handleOrderFill e .accepted w).2 := by
  obtain ⟨row, hrow, ⟨side, hnames⟩, hfound⟩ | ⟨hno, hfound⟩ := slotForOrderId_eq hw (x := e.orderId)
  · obtain ⟨session, slot⟩ := row
    obtain ⟨s, hs, rfl, hslot⟩ := GridWorld.mem_slotRows.mp hrow
    obtain ⟨o, ho, hid, hplaced⟩ := hw.recorded s hs slot hslot side e.orderId hnames
    obtain ⟨hside, hsymbol⟩ := hcarries o ho hid
    obtain rfl : o.side = side := hplaced.side
    refine .moved hs hslot ho hid (hid ▸ hnames) hplaced ?_ ?_
    · simp only [FillBook.target, hfound, hside]
    · simp only [handleOrderFill, hfound, hside, placeReplacement_eq, hsymbol, hplaced.symbol]
      rfl
  · refine .ignored ?_ ?_ fun o _ hid row hrow => hid ▸ hno row hrow
    · simp only [FillBook.target, hfound]
    · simp only [handleOrderFill, hfound]

theorem FillHandled.wellFormed {e : GridOrderFillEvent} {w w' : GridWorld} (hw : w.WellFormed)
    (h : FillHandled e w w') : w'.WellFormed := by
  cases h with
  | ignored _ h => exact h ▸ hw
  | @moved s slot o hs hslot ho hid hnames hplaced _ h =>
    subst h
    refine hw.evolves (GridWorld.evolves_of id .refl
      [replacementOrder s.id o.side s.symbol slot w.issued] (by rw [List.map_id]; rfl)
      (Nat.le_succ _) (List.nodup_singleton _) ?_
      (hw.saveSlot_evolves rfl hs hslot (.of_advance ?_ rfl)))
    · intro o' ho'
      obtain rfl := List.mem_singleton.mp ho'
      exact ⟨le_refl _, Nat.lt_succ_self _⟩
    · exact List.mem_append_right _ List.mem_cons_self

/-! The accounts -/

/-- The accounts of a slot against the fills that were acted on. -/
structure SlotAccounted (b : FillBook) (s : GridSession) (slot : GridSlotRecord) : Prop where
  cycles : slot.completedCycles = b.soldCycles slot.id
  pnl : slot.realizedPnl =
    b.soldCycles slot.id * ((slot.sellPrice - slot.buyPrice) * slot.units.getD 0)
  units : slot.units = some (slotUnits s.config slot) ∨
    (slot.units = none ∧ b.soldCycles slot.id = 0 ∧ ∀ side, slot.orderOn side = none)
  selling : slot.sellOrderId ≠ none → slot.status = .waitingSell ∧ slot.buyOrderId = none
  ahead : ∀ a ∈ b.acted, ¬ slot.Names a.orderId

structure BookSound (b : FillBook) : Prop where
  wellFormed : b.world.WellFormed
  once : (b.acted.map ActedFill.orderId).Nodup
  past : ∀ a ∈ b.acted, a.orderId < b.world.issued ∧ a.slot < b.world.issued
  replaced : ∀ a ∈ b.acted, a.Replaced b.world
  slots : ∀ s ∈ b.world.sessions, ∀ slot ∈ s.slots, SlotAccounted b s slot
  sells : ∀ o ∈ b.world.orders, o.side = .sell →
    (∃ row ∈ b.world.slotRows, row.2.Names o.id) ∨
      ∃ a ∈ b.acted, a.orderId = o.id ∧ a.side = .sell ∧ a.slot = o.slot
  heard : ∀ o ∈ b.reported, o.side = .sell →
    ∃ a ∈ b.acted, a.orderId = o.id ∧ a.side = .sell ∧ a.slot = o.slot
  told : ∀ a ∈ b.acted, ∃ o ∈ b.reported, o.id = a.orderId ∧ o.side = a.side ∧ o.slot = a.slot

theorem BookSound.filledSells_length {b : FillBook} (h : BookSound b) (slot : Nat) :
    (b.filledSells slot).length = b.soldCycles slot := by
  have hids : ((b.acted.filter fun a => a.slot = slot && a.side = .sell).map ActedFill.orderId).Nodup :=
    h.once.sublist (List.filter_sublist.map _)
  have hperm : (b.filledSells slot).Perm
      ((b.acted.filter fun a => a.slot = slot && a.side = .sell).map ActedFill.orderId) := by
    rw [FillBook.filledSells, List.perm_ext_iff_of_nodup (List.nodup_dedup _) hids]
    intro x
    simp only [List.mem_dedup, List.mem_map, List.mem_filter, Bool.and_eq_true, decide_eq_true_eq]
    constructor
    · intro hx
      obtain ⟨o, ⟨ho, hslot, hside⟩, rfl⟩ := hx
      obtain ⟨a, ha, hid, hsell, hsame⟩ := h.heard o ho hside
      exact ⟨a, ⟨ha, hsame.trans hslot, hsell⟩, hid⟩
    · intro hx
      obtain ⟨a, ⟨ha, hslot, hside⟩, rfl⟩ := hx
      obtain ⟨o, ho, hid, hsell, hsame⟩ := h.told a ha
      exact ⟨o, ⟨ho, hsame.trans hslot, hsell.trans hside⟩, hid⟩
  rw [hperm.length_eq, List.length_map, FillBook.soldCycles, List.countP_eq_length_filter]

theorem BookSound.accounted {b : FillBook} (h : BookSound b) : FillsAccounted b where
  once := h.once
  replaced := h.replaced
  cycles := by
    intro s hs slot hslot
    rw [h.filledSells_length]
    exact (h.slots s hs slot hslot).cycles
  pnl := by
    intro s hs slot hslot
    rw [h.filledSells_length]
    exact (h.slots s hs slot hslot).pnl

theorem SlotAccounted.units_of_named {b : FillBook} {s : GridSession} {slot : GridSlotRecord}
    (h : SlotAccounted b s slot) {side : ExchangeSide} {x : GridOrderId}
    (hnames : slot.orderOn side = some x) : slot.units = some (slotUnits s.config slot) := by
  obtain hset | ⟨-, -, hfree⟩ := h.units
  · exact hset
  · rw [hfree] at hnames
    cases hnames

/-! Steps besides the events -/

theorem SlotKept.units_of_set {issued : Nat} {s : GridSession} {slot slot' : GridSlotRecord}
    (h : SlotKept issued s slot slot') (hset : slot.units = some (slotUnits s.config slot)) :
    slot'.units = slot.units := by
  obtain hsame | hnew := h.units
  · exact hsame
  · exact hnew.trans hset.symm

theorem SlotAccounted.kept {b : FillBook} {s s' : GridSession} {slot slot' : GridSlotRecord}
    (h : SlotAccounted b s slot) (hconfig : s'.config = s.config)
    (hpast : ∀ a ∈ b.acted, a.orderId < b.world.issued)
    (hkept : SlotKept b.world.issued s slot slot') (world : GridWorld) :
    SlotAccounted { b with world := world } s' slot' := by
  have hunits : slotUnits s'.config slot' = slotUnits s.config slot := by
    rw [slotUnits, slotUnits, hconfig, hkept.buyPrice]
  have hsold : FillBook.soldCycles slot'.id { b with world := world } = b.soldCycles slot.id := by
    rw [hkept.id]
    rfl
  -- the units only change from none to those of the session
  have hstay : b.soldCycles slot.id = 0 ∨ slot'.units = slot.units := by
    obtain hset | ⟨-, hzero, -⟩ := h.units
    · exact .inr (hkept.units_of_set hset)
    · exact .inl hzero
  constructor
  · rw [hkept.cycles, hsold, h.cycles]
  · rw [hkept.pnl, hsold, h.pnl, hkept.sellPrice, hkept.buyPrice]
    obtain hzero | hsame := hstay
    · rw [hzero, Nat.cast_zero, zero_mul, zero_mul]
    · rw [hsame]
  · rw [hunits, hsold]
    obtain hsame | hnew := hkept.units
    · obtain hset | ⟨hnone, hzero, hfree⟩ := h.units
      · exact .inl (hsame.trans hset)
      · refine .inr ⟨hsame.trans hnone, hzero, fun side => ?_⟩
        cases side with
        | buy =>
          obtain hbuy | ⟨-, hset, -⟩ := hkept.buy
          · exact hbuy.trans (hfree .buy)
          · rw [hsame, hnone] at hset
            cases hset
        | sell => exact hkept.sell.trans (hfree .sell)
    · exact .inl hnew
  · intro hsell
    rw [hkept.sell] at hsell
    obtain ⟨hstatus, hbuy⟩ := h.selling hsell
    constructor
    · obtain hsame | hnew := hkept.status
      · exact hsame.trans hstatus
      · exact hnew
    · obtain hsame | ⟨hwaiting, -⟩ := hkept.buy
      · exact hsame.trans hbuy
      · rw [hstatus] at hwaiting
        cases hwaiting
  · intro a ha hnames
    refine h.ahead a ha (names_iff.mpr ?_)
    obtain hnamed | hnamed := names_iff.mp hnames
    · obtain hsame | ⟨-, -, x, hx, hnew⟩ := hkept.buy
      · exact .inl (hsame ▸ hnamed)
      · rw [hnew] at hnamed
        obtain rfl := Option.some.inj hnamed
        exact absurd (hpast a ha) (not_lt.mpr hx)
    · exact .inr (hkept.sell ▸ hnamed)

theorem SlotAccounted.fresh {b : FillBook} (hpast : ∀ a ∈ b.acted, a.slot < b.world.issued)
    {s : GridSession} {slot : GridSlotRecord} (hfresh : slot.Fresh) (hcycles : slot.completedCycles = 0)
    (hpnl : slot.realizedPnl = 0) (hid : b.world.issued ≤ slot.id) (world : GridWorld) :
    SlotAccounted { b with world := world } s slot := by
  have hsold : FillBook.soldCycles slot.id { b with world := world } = 0 := by
    refine List.countP_eq_zero.mpr fun a ha => ?_
    have hlt := (hpast a ha).trans_le hid
    simp [hlt.ne]
  refine ⟨by rw [hcycles, hsold], by rw [hpnl, hsold, Nat.cast_zero, zero_mul],
    .inr ⟨hfresh.units, hsold, hfresh.orderOn⟩, fun hsell => absurd hfresh.sell hsell, ?_⟩
  intro a _ hnames
  obtain ⟨side, hside⟩ := hnames
  rw [hfresh.orderOn side] at hside
  cases hside

theorem ActedFill.Replaced.kept {b : FillBook} {a : ActedFill} (h : a.Replaced b.world)
    (hslots : ∀ s ∈ b.world.sessions, ∀ slot ∈ s.slots, SlotAccounted b s slot) {w' : GridWorld}
    (hkept : WorldKept b.world w') : a.Replaced w' := by
  obtain ⟨s, hs, slot, hslot, hsid, hid, units, x, hunits, hsent⟩ := h
  obtain ⟨kept, new, hrows, hsessions, -⟩ := hkept.sessions
  obtain ⟨s', hs', hsame⟩ := Rows.exists_right hsessions hs
  obtain ⟨slot', hslot', hk⟩ := Rows.exists_right hsame.slots hslot
  have hstay : slot'.units = slot.units := by
    obtain hset | ⟨hnone, -⟩ := (hslots s hs slot hslot).units
    · exact hk.units_of_set hset
    · rw [hunits] at hnone
      cases hnone
  refine ⟨s', hrows ▸ List.mem_append_left _ hs', slot', hslot', hsame.id.trans hsid, hk.id.trans hid,
    units, x, hstay.trans hunits, ?_⟩
  have hprice : slot'.priceOn a.side.opposite = slot.priceOn a.side.opposite := by
    cases a.side.opposite
    · exact hk.buyPrice
    · exact hk.sellPrice
  rw [hsent, hsame.id, hk.id, hsame.symbol, hprice]

theorem BookSound.kept {b : FillBook} (h : BookSound b) {w' : GridWorld} (hw' : w'.WellFormed)
    (hkept : WorldKept b.world w') : BookSound { b with world := w' } where
  wellFormed := hw'
  once := h.once
  past := fun a ha => ⟨(h.past a ha).1.trans_le hkept.issued, (h.past a ha).2.trans_le hkept.issued⟩
  replaced := fun a ha => (h.replaced a ha).kept h.slots hkept
  slots := by
    intro s' hs' slot' hslot'
    obtain ⟨kept, new, hrows, hsessions, hnew⟩ := hkept.sessions
    rw [show ({ b with world := w' } : FillBook).world.sessions = kept ++ new from hrows] at hs'
    obtain hs' | hs' := List.mem_append.mp hs'
    · obtain ⟨s, hs, hsame⟩ := Rows.exists_left hsessions hs'
      obtain ⟨slot, hslot, hk⟩ := Rows.exists_left hsame.slots hslot'
      exact (h.slots s hs slot hslot).kept hsame.config (fun a ha => (h.past a ha).1) hk w'
    · obtain ⟨hfresh, hcycles, hpnl, hid⟩ := hnew s' hs' slot' hslot'
      exact .fresh (fun a ha => (h.past a ha).2) hfresh hcycles hpnl hid w'
  sells := by
    intro o' ho' hside
    obtain ⟨o, ho, hsame⟩ := hkept.orders o' ho' hside
    have hsell : o.side = .sell := by rw [← hside, hsame]
    obtain ⟨row, hrow, side, hnames⟩ | ⟨a, ha, hid, hrest⟩ := h.sells o ho hsell
    · obtain ⟨s, hs, hsid, hslot⟩ := GridWorld.mem_slotRows.mp hrow
      have hplaced := h.wellFormed.named_by hs hslot ho hnames
      rw [← hplaced.side, hsell] at hnames
      obtain ⟨kept, new, hrows, hsessions, -⟩ := hkept.sessions
      obtain ⟨s', hs', hsk⟩ := Rows.exists_right hsessions hs
      obtain ⟨slot', hslot', hk⟩ := Rows.exists_right hsk.slots hslot
      refine .inl ⟨(s'.id, slot'), GridWorld.mem_slotRows.mpr
        ⟨s', hrows ▸ List.mem_append_left _ hs', rfl, hslot'⟩, .sell, ?_⟩
      rw [hsame.id]
      exact hk.sell.trans hnames
    · refine .inr ⟨a, ha, hid.trans hsame.id.symm, hrest.1, hrest.2.trans ?_⟩
      rw [hsame]
  heard := h.heard
  told := h.told

/-! Events -/

def movedBook (b : FillBook) (s : GridSession) (slot : GridSlotRecord) (o : GridOrder) : FillBook where
  world := GridWorld.saveSlot (advanceSlot o.side b.world.issued slot)
    { b.world with
      orders := b.world.orders ++ [replacementOrder s.id o.side s.symbol slot b.world.issued]
      issued := b.world.issued + 1 }
  acted := b.acted ++ [{ orderId := o.id, side := o.side, session := s.id, slot := slot.id
                         sent := [replacementOrder s.id o.side s.symbol slot b.world.issued] }]
  reported := b.reported ++ b.world.orders.filter fun o' => o'.id = o.id

theorem handle_moved {b : FillBook} {e : GridOrderFillEvent} {s : GridSession} {slot : GridSlotRecord}
    {o : GridOrder} (hid : o.id = e.orderId)
    (htarget : FillBook.target e b.world = some (s.id, slot, o.side))
    (h : (handleOrderFill e .accepted b.world).2 =
      GridWorld.saveSlot (advanceSlot o.side b.world.issued slot)
        { b.world with
          orders := b.world.orders ++ [replacementOrder s.id o.side s.symbol slot b.world.issued]
          issued := b.world.issued + 1 }) : b.handle e = movedBook b s slot o := by
  have hdrop : (handleOrderFill e .accepted b.world).2.orders.drop b.world.orders.length =
      [replacementOrder s.id o.side s.symbol slot b.world.issued] := by
    rw [h]
    exact List.drop_left
  simp only [FillBook.handle, movedBook, htarget, Option.map_some, Option.toList_some, hdrop, ← hid]
  rw [h]

section moved
variable {b : FillBook} {s : GridSession} {slot : GridSlotRecord} {o : GridOrder}

theorem soldCycles_moved (id : Nat) : (movedBook b s slot o).soldCycles id =
    b.soldCycles id + if slot.id = id ∧ o.side = .sell then 1 else 0 := by
  unfold FillBook.soldCycles movedBook
  rw [List.countP_append, List.countP_singleton]
  congr 1
  simp

theorem movedBook_mem {t : GridSession} (ht : t ∈ b.world.sessions) {row : GridSlotRecord}
    (hrow : row ∈ t.slots) : ∃ t' ∈ (movedBook b s slot o).world.sessions, t'.id = t.id ∧
      t'.symbol = t.symbol ∧
      (if row.id = slot.id then advanceSlot o.side b.world.issued slot else row) ∈ t'.slots := by
  have hid := advanceSlot_id o.side b.world.issued slot
  refine ⟨_, List.mem_map_of_mem ht, rfl, rfl, ?_⟩
  refine List.mem_map.mpr ⟨row, hrow, ?_⟩
  rw [hid]

theorem SlotAccounted.moved (h : SlotAccounted b s slot)
    (hpast : ∀ a ∈ b.acted, a.orderId < b.world.issued) (hlt : o.id < b.world.issued)
    (hnames : slot.orderOn o.side = some o.id) {t : GridSession} (hconfig : t.config = s.config) :
    SlotAccounted (movedBook b s slot o) t (advanceSlot o.side b.world.issued slot) := by
  have hset := h.units_of_named hnames
  obtain ⟨hid, -, hbuy, hsell⟩ := advanceSlot_frame o.side b.world.issued slot
  have hunits := advanceSlot_units o.side b.world.issued slot
  have hahead : ∀ x, x < b.world.issued →
      ¬ (advanceSlot o.side b.world.issued slot).Names x := by
    intro x hx hn
    obtain ⟨side, hside⟩ := hn
    rw [advanceSlot_orderOn] at hside
    split_ifs at hside
    obtain rfl := Option.some.inj hside
    exact lt_irrefl _ hx
  refine ⟨?_, ?_, .inl ?_, ?_, ?_⟩
  · rw [hid, soldCycles_moved, ← h.cycles]
    cases o.side <;> simp [advanceSlot]
  · rw [hid, soldCycles_moved, hunits, hbuy, hsell]
    cases o.side
    · simpa [advanceSlot] using h.pnl
    · simp only [advanceSlot, h.pnl, and_self, if_true]
      push_cast
      ring
  · rw [hunits, hset, slotUnits, slotUnits, hconfig, hbuy]
  · intro hselling
    cases hside : o.side with
    | buy => exact ⟨rfl, rfl⟩
    | sell =>
      rw [hside] at hselling
      exact absurd rfl hselling
  · intro a ha
    obtain ha | ha := List.mem_append.mp ha
    · exact hahead _ (hpast a ha)
    · obtain rfl := List.mem_singleton.mp ha
      exact hahead _ hlt

theorem SlotAccounted.other {t t' : GridSession} {row : GridSlotRecord} (h : SlotAccounted b t row)
    (hconfig : t'.config = t.config) (hne : row.id ≠ slot.id) (hfree : ¬ row.Names o.id) :
    SlotAccounted (movedBook b s slot o) t' row := by
  have hsold : (movedBook b s slot o).soldCycles row.id = b.soldCycles row.id := by
    rw [soldCycles_moved, if_neg fun hc => hne hc.1.symm, add_zero]
  refine ⟨by rw [hsold, h.cycles], by rw [hsold, h.pnl], ?_, h.selling, ?_⟩
  · rw [hsold, slotUnits, hconfig]
    exact h.units
  · intro a ha
    obtain ha | ha := List.mem_append.mp ha
    · exact h.ahead a ha
    · obtain rfl := List.mem_singleton.mp ha
      exact hfree

theorem ActedFill.Replaced.moved {a : ActedFill} (hw : b.world.WellFormed)
    (hs : s ∈ b.world.sessions) (hslot : slot ∈ s.slots) (h : a.Replaced b.world) :
    a.Replaced (movedBook b s slot o).world := by
  obtain ⟨t, ht, row, hrow, htid, hrid, units, x, hunits, hsent⟩ := h
  obtain ⟨t', ht', hid', hsymbol', hrow'⟩ := @movedBook_mem b s slot o t ht row hrow
  refine ⟨t', ht', _, hrow', hid'.trans htid, ?_⟩
  have hid := advanceSlot_id o.side b.world.issued slot
  split_ifs with hsame
  · obtain ⟨rfl, rfl⟩ := hw.slot_eq ht hs hrow hslot hsame
    refine ⟨hid.trans hrid, units, x, ?_, ?_⟩
    · exact (advanceSlot_units o.side b.world.issued row).trans hunits
    · rw [hsent, hid', hid, hsymbol', advanceSlot_priceOn]
  · exact ⟨hrid, units, x, hunits, by rw [hsent, hid', hsymbol']⟩

/-- A slot that names a sell order has moved it, and a slot that is filled on names the new one. -/
theorem BookSound.sells_moved (h : BookSound b) (hs : s ∈ b.world.sessions) (hslot : slot ∈ s.slots)
    (ho : o ∈ b.world.orders) (hnames : slot.orderOn o.side = some o.id)
    (hplaced : o.PlacedFor s slot o.side) {o' : GridOrder}
    (ho' : o' ∈ (movedBook b s slot o).world.orders) (hside : o'.side = .sell) :
    (∃ row ∈ (movedBook b s slot o).world.slotRows, row.2.Names o'.id) ∨
      ∃ a ∈ (movedBook b s slot o).acted,
        a.orderId = o'.id ∧ a.side = .sell ∧ a.slot = o'.slot := by
  obtain hold | hnew := List.mem_append.mp ho'
  · obtain ⟨row, hrow, hn⟩ | ⟨a, ha, hrest⟩ := h.sells o' hold hside
    · obtain ⟨t, ht, -, hmem⟩ := GridWorld.mem_slotRows.mp hrow
      obtain ⟨t', ht', -, -, hmem'⟩ := @movedBook_mem b s slot o t ht row.2 hmem
      by_cases hsame : row.2.id = slot.id
      · -- the order is the one that was filled
        obtain ⟨rfl, hrow2⟩ := h.wellFormed.slot_eq ht hs hmem hslot hsame
        obtain ⟨side, hn⟩ := hn
        have hp := h.wellFormed.named_by ht hmem hold hn
        rw [hrow2, ← hp.side, hside] at hn
        have hselling := (h.slots t ht slot hslot).selling (by
          rw [show slot.sellOrderId = some o'.id from hn]
          exact Option.some_ne_none _)
        have hsell : o.side = .sell := by
          cases hcase : o.side with
          | sell => rfl
          | buy =>
            rw [hcase] at hnames
            rw [show slot.buyOrderId = some o.id from hnames] at hselling
            cases hselling.2
        rw [hsell] at hnames
        have hids : o'.id = o.id := Option.some.inj (hn.symm.trans hnames)
        obtain rfl := h.wellFormed.order_eq hold ho hids
        exact .inr ⟨_, List.mem_append_right _ List.mem_cons_self, rfl, hsell, hplaced.slot.symm⟩
      · rw [if_neg hsame] at hmem'
        exact .inl ⟨(t'.id, row.2), GridWorld.mem_slotRows.mpr ⟨t', ht', rfl, hmem'⟩, hn⟩
    · exact .inr ⟨a, List.mem_append_left _ ha, hrest⟩
  · obtain rfl := List.mem_singleton.mp hnew
    obtain ⟨t', ht', -, -, hmem'⟩ := @movedBook_mem b s slot o s hs slot hslot
    rw [if_pos rfl] at hmem'
    refine .inl ⟨(t'.id, advanceSlot o.side b.world.issued slot),
      GridWorld.mem_slotRows.mpr ⟨t', ht', rfl, hmem'⟩, o.side.opposite, ?_⟩
    rw [advanceSlot_orderOn, if_pos rfl]
    rfl

theorem BookSound.moved (h : BookSound b) (hw' : (movedBook b s slot o).world.WellFormed)
    (hs : s ∈ b.world.sessions) (hslot : slot ∈ s.slots) (ho : o ∈ b.world.orders)
    (hnames : slot.orderOn o.side = some o.id) (hplaced : o.PlacedFor s slot o.side) :
    BookSound (movedBook b s slot o) where
  wellFormed := hw'
  once := by
    simp only [movedBook, List.map_append, List.map_cons, List.map_nil, List.nodup_append]
    refine ⟨h.once, List.nodup_singleton _, ?_⟩
    intro x hx y hy heq
    obtain ⟨a, ha, rfl⟩ := List.mem_map.mp hx
    obtain rfl := List.mem_singleton.mp hy
    exact (h.slots s hs slot hslot).ahead a ha ⟨o.side, heq ▸ hnames⟩
  past := by
    intro a ha
    have hlt : b.world.issued < b.world.issued + 1 := Nat.lt_succ_self _
    obtain ha | ha := List.mem_append.mp ha
    · exact ⟨(h.past a ha).1.trans hlt, (h.past a ha).2.trans hlt⟩
    · obtain rfl := List.mem_singleton.mp ha
      exact ⟨(h.wellFormed.orderFresh o ho).trans hlt, (h.wellFormed.slotFresh (s.id, slot)
        (GridWorld.mem_slotRows.mpr ⟨s, hs, rfl, hslot⟩)).trans hlt⟩
  replaced := by
    intro a ha
    obtain ha | ha := List.mem_append.mp ha
    · exact (h.replaced a ha).moved h.wellFormed hs hslot
    · obtain rfl := List.mem_singleton.mp ha
      have hset := (h.slots s hs slot hslot).units_of_named hnames
      refine ActedFill.Replaced.moved h.wellFormed hs hslot
        ⟨s, hs, slot, hslot, rfl, rfl, _, b.world.issued, hset, ?_⟩
      rw [replacementOrder, hset]
      rfl
  slots := by
    intro t' ht' row' hrow'
    obtain ⟨t, ht, ⟨-, -, hconfig, -⟩, row, hrow, ⟨rfl, rfl, rfl⟩ | ⟨hne, rfl⟩⟩ :=
      h.wellFormed.mem_saveSlot rfl hs hslot (advanceSlot_id o.side b.world.issued slot) ht' hrow'
    · exact (h.slots t ht row hrow).moved (fun a ha => (h.past a ha).1)
        (h.wellFormed.orderFresh o ho) hnames hconfig
    · refine (h.slots t ht row' hrow).other hconfig hne ?_
      intro hn
      exact hne (congrArg _ (h.wellFormed.slot_eq_of_names ht hs hrow hslot hn ⟨_, hnames⟩).2)
  sells := fun o' ho' hside => h.sells_moved hs hslot ho hnames hplaced ho' hside
  heard := by
    intro o' ho' hside
    obtain ho' | ho' := List.mem_append.mp ho'
    · obtain ⟨a, ha, hrest⟩ := h.heard o' ho' hside
      exact ⟨a, List.mem_append_left _ ha, hrest⟩
    · obtain ⟨hmem, hid⟩ := List.mem_filter.mp ho'
      obtain rfl := h.wellFormed.order_eq hmem ho (by simpa using hid)
      exact ⟨_, List.mem_append_right _ List.mem_cons_self, rfl, hside, hplaced.slot.symm⟩
  told := by
    intro a ha
    obtain ha | ha := List.mem_append.mp ha
    · obtain ⟨o', ho', hrest⟩ := h.told a ha
      exact ⟨o', List.mem_append_left _ ho', hrest⟩
    · obtain rfl := List.mem_singleton.mp ha
      exact ⟨o, List.mem_append_right _ (List.mem_filter.mpr ⟨ho, by simp⟩), rfl, rfl, hplaced.slot⟩

end moved

theorem BookSound.handle {b : FillBook} (h : BookSound b) (e : GridOrderFillEvent)
    (hcarries : b.CarriesOrder (.event e)) : BookSound (b.handle e) := by
  have hhandled := handleOrderFill_handled h.wellFormed hcarries
  have hw' := hhandled.wellFormed h.wellFormed
  cases hhandled with
  | @moved s slot o hs hslot ho hid hnames hplaced htarget hrun =>
    rw [handle_moved hid htarget hrun]
    rw [hrun] at hw'
    exact h.moved hw' hs hslot ho hnames hplaced
  | ignored htarget hrun hnone =>
    have hsame : b.handle e = { b with
        reported := b.reported ++ b.world.orders.filter fun o => o.id = e.orderId } := by
      simp only [FillBook.handle, htarget, hrun, Option.map_none, Option.toList_none, List.append_nil]
    rw [hsame]
    refine ⟨h.wellFormed, h.once, h.past, h.replaced,
      fun s hs slot hslot => ?_, h.sells, fun o ho hside => ?_, fun a ha => ?_⟩
    · obtain ⟨hcycles, hpnl, hunits, hselling, hahead⟩ := h.slots s hs slot hslot
      exact ⟨hcycles, hpnl, hunits, hselling, hahead⟩
    · obtain ho | ho := List.mem_append.mp ho
      · exact h.heard o ho hside
      · obtain ⟨hmem, hid⟩ := List.mem_filter.mp ho
        obtain ⟨row, hrow, hn⟩ | hacted := h.sells o hmem hside
        · exact absurd hn (hnone o hmem (by simpa using hid) row hrow)
        · exact hacted
    · obtain ⟨o, ho, hrest⟩ := h.told a ha
      exact ⟨o, List.mem_append_left _ ho, hrest⟩

/-! Runs -/

theorem bookSound_init : BookSound {} where
  wellFormed := gridWellFormed_init
  once := List.nodup_nil
  past := by simp
  replaced := by simp
  slots := by simp
  sells := by simp
  heard := by simp
  told := by simp

theorem bookSound_step {b : FillBook} (h : BookSound b) (st : FillStep) (hcarries : b.CarriesOrder st) :
    BookSound (b.step st) := by
  cases st with
  | grid e =>
    refine h.kept (gridStep_wellFormed h.wellFormed _) (gridStep_kept h.wellFormed ?_)
    cases e <;> exact fun _ _ => GridStep.noConfusion
  | start id io =>
    exact h.kept (gridStep_wellFormed h.wellFormed _)
      (gridStep_kept h.wellFormed fun _ _ => GridStep.noConfusion)
  | event e => exact h.handle e hcarries

/-- In every run of creations, starts, stops, pauses and fills of the exchange with fill events in
between, each event handled without failure: an order is acted on at most once, each time with one
replacement, and the accounts of a slot are those of its distinct filled sell orders. -/
theorem fillsAccounted_run (steps : List FillStep)
    (h : Runs.Meets FillBook.step FillBook.CarriesOrder {} steps) :
    FillsAccounted (Runs.run FillBook.step {} steps) :=
  (Runs.always_of_invariant (P := BookSound) bookSound_init
    (fun _ st hb hcarries => bookSound_step hb st hcarries) (fun _ hb => hb) h).last.accounted

/-- A cycle of one slot whose buy fill is reported twice, with an event for an unknown order. -/
theorem fillsAccounted_cycle : FillsAccounted (Runs.run FillBook.step {}
    [.grid (.created demoGridRequest), .start 0 (demoGridStart 2), .event ⟨2, some .buy, "XRPUSDT"⟩,
      .event ⟨2, some .buy, "XRPUSDT"⟩, .event ⟨99, some .sell, "XRPUSDT"⟩,
      .event ⟨3, some .sell, "XRPUSDT"⟩]) :=
  fillsAccounted_run _ (by decide +kernel)

end AmaExecutionCore
