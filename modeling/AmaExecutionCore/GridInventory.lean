import AmaExecutionCore.GridRuns
import Mathlib.Algebra.BigOperators.Ring.List
import Mathlib.Tactic.Ring
import Mathlib.Tactic.Linarith

/-! The inventory that the grid infers from its slots against the orders reported filled: the
two agree as long as no start marks a slot as bought and the handler of each fill moves the
slot of the order on. -/
namespace AmaExecutionCore
open GridRunner

def heldUnits (s : GridSession) : Rat := ((heldSlots s).map fun slot => slot.units.getD 0).sum

theorem unrealizedPositionValue_eq (s : GridSession) (currentPrice : Rat) :
    unrealizedPositionValue s currentPrice = currentPrice * heldUnits s := by
  rw [unrealizedPositionValue, heldUnits, ← List.sum_map_mul_left]

/-- The drawdown is that of the units held, against what the slots say they cost. -/
theorem unrealizedDrawdownPct_eq (s : GridSession) (currentPrice : Rat) :
    unrealizedDrawdownPct s currentPrice = if s.config.capitalUsdt = 0 then 0
      else max 0 (((heldSlots s).map fun slot => slot.buyPrice * slot.units.getD 0).sum -
        currentPrice * heldUnits s) / s.config.capitalUsdt * 100 := by
  rw [← unrealizedPositionValue_eq]
  rfl

def reportedUnits (side : ExchangeSide) (id : Nat) (w : GridWorld) : Rat :=
  ((w.orders.filter fun o => o.session = id && o.side = side && o.state = .filled true).map
    GridOrder.qty).sum

/-- What the sessions count as held is what they bought and did not sell. -/
def InventoryExact (w : GridWorld) : Prop :=
  ∀ s ∈ w.sessions, heldUnits s = reportedUnits .buy s.id w - reportedUnits .sell s.id w

instance : DecidablePred InventoryExact := fun w => inferInstanceAs (Decidable (∀ s ∈ w.sessions, _))

/-- A start that succeeds finds the slots at or above the price waiting to sell. -/
def StartHolds (w : GridWorld) (id : Nat) (io : GridStartIo) : Prop :=
  match w.loadSession id, io.price with
  | some s, .ok price =>
    s.status ≠ .active → (∀ slot ∈ s.slots, isDue price slot = true → io.place slot.id = .accepted) →
      ∀ slot ∈ s.slots, price ≤ slot.buyPrice → slot.status = .waitingSell
  | _, _ => True

instance (w : GridWorld) (id : Nat) (io : GridStartIo) : Decidable (StartHolds w id io) := by
  unfold StartHolds
  split <;> infer_instance

/-- The first report of a filled order finds a slot that names it, with the units of the
order, and its replacement is accepted. -/
def ReportHolds (w : GridWorld) (id : GridOrderId) (outcome : GridPlaceOutcome) : Prop :=
  ∀ o ∈ w.orders, o.id = id → o.state = .filled false → outcome = .accepted ∧
    ∃ row ∈ w.slotRows, row.2.Names id ∧ row.2.units = some o.qty

instance (w : GridWorld) (id : GridOrderId) (outcome : GridPlaceOutcome) :
    Decidable (ReportHolds w id outcome) := by
  have (slot : GridSlotRecord) : Decidable (slot.Names id) := decidable_of_iff _ names_iff.symm
  exact inferInstanceAs (Decidable (∀ o ∈ w.orders, _))

/-- The step buys and sells what the slots say. -/
def KeepsHoldings (w : GridWorld) : GridStep → Prop
  | .start id io => StartHolds w id io
  | .report id outcome => ReportHolds w id outcome
  | _ => True

instance (w : GridWorld) (st : GridStep) : Decidable (KeepsHoldings w st) := by
  cases st <;> unfold KeepsHoldings <;> infer_instance

/-! The two sides as sums over all slots and over all orders -/

def GridSlotRecord.held (slot : GridSlotRecord) : Rat :=
  if slot.status = .waitingSell then slot.units.getD 0 else 0

def GridOrder.moved (id : Nat) (o : GridOrder) : Rat :=
  if o.session = id ∧ o.state = .filled true then
    match o.side with
    | .buy => o.qty
    | .sell => -o.qty
  else 0

theorem sum_map_filter_eq {α : Type} (p : α → Bool) (f : α → Rat) (l : List α) :
    ((l.filter p).map f).sum = (l.map fun x => if p x = true then f x else 0).sum := by
  induction l with
  | nil => rfl
  | cons x l ih =>
    by_cases hp : p x = true
    · simp [hp, ih]
    · simp [hp, ih]

theorem heldUnits_eq (s : GridSession) : heldUnits s = (s.slots.map GridSlotRecord.held).sum := by
  rw [heldUnits, heldSlots, sum_map_filter_eq]
  congr 1
  exact List.map_congr_left fun slot _ => by simp [GridSlotRecord.held]

theorem moved_eq (id : Nat) (o : GridOrder) : o.moved id =
    (if (o.session = id && o.side = .buy && o.state = .filled true) = true then o.qty else 0) -
      if (o.session = id && o.side = .sell && o.state = .filled true) = true then o.qty else 0 := by
  unfold GridOrder.moved
  by_cases hreported : o.session = id ∧ o.state = .filled true
  · cases hside : o.side with
    | buy => simp [hreported]
    | sell => simp [hreported]
  · have hnone : ∀ side, ¬ (o.session = id && o.side = side && o.state = .filled true) = true := by
      intro side h
      simp only [Bool.and_eq_true, decide_eq_true_eq] at h
      exact hreported ⟨h.1.1, h.2⟩
    rw [if_neg hreported, if_neg (hnone _), if_neg (hnone _), sub_zero]

theorem reportedUnits_sub (id : Nat) (w : GridWorld) :
    reportedUnits .buy id w - reportedUnits .sell id w = (w.orders.map (GridOrder.moved id)).sum := by
  simp only [reportedUnits, sum_map_filter_eq]
  induction w.orders with
  | nil => simp
  | cons o orders ih =>
    simp only [List.map_cons, List.sum_cons, ← ih, moved_eq]
    ring

/-! What carries the inventory along a run -/

/-- The units of a slot are those its session gives it, and it names, on the side it waits on,
no order that was reported. -/
structure SlotSound (w : GridWorld) (s : GridSession) (slot : GridSlotRecord) : Prop where
  units : ∀ u, slot.units = some u → u = slotUnits s.config slot
  unset : slot.units = none → slot.status = .waitingBuy
  side : ∀ side x, slot.orderOn side = some x → slot.status.side = side
  unreported : ∀ o ∈ w.orders, slot.Names o.id → o.state ≠ .filled true

structure InventorySound (w : GridWorld) : Prop where
  wellFormed : w.WellFormed
  slots : ∀ s ∈ w.sessions, ∀ slot ∈ s.slots, SlotSound w s slot
  sessions : ∀ o ∈ w.orders, o.session < w.issued
  exact : ∀ s ∈ w.sessions, heldUnits s = (w.orders.map (GridOrder.moved s.id)).sum

theorem InventorySound.init : InventorySound {} where
  wellFormed := gridWellFormed_init
  slots := by simp
  sessions := by simp
  exact := by simp

theorem SlotSound.kept {w w' : GridWorld} {s s' : GridSession} {slot : GridSlotRecord}
    (h : SlotSound w s slot) (hconfig : s'.config = s.config)
    (hnew : ∀ o ∈ w'.orders, slot.Names o.id → o.state = .filled true →
      ∃ o₀ ∈ w.orders, o₀.id = o.id ∧ o₀.state = .filled true) : SlotSound w' s' slot where
  units := by
    rw [slotUnits, hconfig]
    exact h.units
  unset := h.unset
  side := h.side
  unreported := by
    intro o ho hnames hstate
    obtain ⟨o₀, ho₀, hid, hstate₀⟩ := hnew o ho hnames hstate
    exact h.unreported o₀ ho₀ (hid ▸ hnames) hstate₀

theorem moved_of_same {o o' : GridOrder} (h : o.Same o')
    (hstate : o'.state = .filled true ↔ o.state = .filled true) (id : Nat) : o'.moved id = o.moved id := by
  rw [h]
  simp only [GridOrder.moved, hstate]

theorem sum_moved_append (id : Nat) (orders new : List GridOrder)
    (hnew : ∀ o ∈ new, o.state ≠ .filled true) :
    ((orders ++ new).map (GridOrder.moved id)).sum = (orders.map (GridOrder.moved id)).sum := by
  have hzero : (new.map (GridOrder.moved id)).sum = 0 := by
    refine List.sum_eq_zero fun x hx => ?_
    obtain ⟨o, ho, rfl⟩ := List.mem_map.mp hx
    simp [GridOrder.moved, hnew o ho]
  rw [List.map_append, List.sum_append, hzero, add_zero]

theorem Placing.unreported {s : GridSession} {price : Rat} {place : Nat → GridPlaceOutcome}
    {slots : List GridSlotRecord} {w w' : GridWorld} {new : List GridOrder}
    (h : Placing s price place slots w new w') : ∀ o ∈ new, o.state ≠ .filled true ∧ o.session = s.id := by
  intro o ho
  obtain ⟨slot, -, -, -, heq⟩ := h.due o ho
  rw [heq]
  exact ⟨by simp [limitOrder], rfl⟩

/-- A start whose slots at or above the price wait to sell changes no inventory. -/
theorem SlotSound.started {w w' : GridWorld} {s s' : GridSession} {price : Rat} {new : List GridOrder}
    {slot slot' : GridSlotRecord} (h : SlotSound w s slot) (hw' : w'.WellFormed)
    (hconfig : s'.config = s.config) (hstarted : SlotStarted s price new slot slot')
    (hsells : price ≤ slot.buyPrice → slot.status = .waitingSell)
    (horders : w'.orders = w.orders ++ new) (hfresh : ∀ o ∈ new, o.state ≠ .filled true) :
    slot'.held = slot.held ∧ SlotSound w' s' slot' := by
  have hreported : ∀ o ∈ w'.orders, slot.Names o.id → o.state ≠ .filled true := by
    intro o ho hnames
    rw [horders] at ho
    obtain ho | ho := List.mem_append.mp ho
    · exact h.unreported o ho hnames
    · exact hfresh o ho
  have hunits : slot.status = .waitingSell → slot.units.getD 0 = slotUnits s.config slot := by
    intro hst
    cases hu : slot.units with
    | none =>
      rw [h.unset hu] at hst
      cases hst
    | some u => exact h.units u hu
  have hset : ∀ u, some (slotUnits s.config slot) = some u → u = slotUnits s'.config slot := by
    intro u hu
    rw [slotUnits, hconfig]
    exact (Option.some.inj hu).symm
  cases hstarted with
  | above habove =>
    have hst := hsells habove
    refine ⟨?_, hset, fun hu => (by cases hu), fun side x hx => ?_, hreported⟩
    · simp [GridSlotRecord.held, hst, hunits hst]
    · rw [← h.side side x hx, hst]
  | @placed x hdue ho =>
    obtain ⟨hbelow, hst, hnone⟩ := isDue_iff.mp hdue
    refine ⟨by simp [GridSlotRecord.held, hst], hset, fun hu => (by cases hu), fun side y hy => ?_, ?_⟩
    · cases side with
      | buy => simp [hst, GridSlotRecordStatus.side]
      | sell => exact h.side .sell y hy
    · rintro o ho' ⟨side, hside⟩
      cases side with
      | buy =>
        have hid : x = o.id := Option.some.inj hside
        have hin := horders ▸ List.mem_append_right _ ho
        rw [← hw'.order_eq hin ho' hid]
        exact hfresh _ ho
      | sell => exact hreported o ho' ⟨.sell, hside⟩
  | kept hbelow hdue =>
    refine ⟨?_, hset, fun hu => (by cases hu), h.side, hreported⟩
    by_cases hst : slot.status = .waitingSell
    · simp [GridSlotRecord.held, hst, hunits hst]
    · simp [GridSlotRecord.held, hst]

theorem SlotSound.advanced {w w' : GridWorld} {s s' : GridSession} {slot : GridSlotRecord}
    {o : GridOrder} {x : GridOrderId} (h : SlotSound w s slot) (hconfig : s'.config = s.config)
    (hnames : slot.orderOn o.side = some o.id)
    (hunits : slot.units = some o.qty) (hnew : ∀ o' ∈ w'.orders, o'.id = x → o'.state ≠ .filled true) :
    SlotSound w' s' (advanceSlot o.side x slot) ∧
      (advanceSlot o.side x slot).held = slot.held + match o.side with
        | .buy => o.qty
        | .sell => -o.qty := by
  have hst := h.side o.side o.id hnames
  have hset : ∀ u, slot.units = some u → u = slotUnits s'.config slot := by
    rw [slotUnits, hconfig]
    exact h.units
  cases hside : o.side with
  | buy =>
    rw [hside] at hst
    have hwait : slot.status = .waitingBuy := by
      cases hs : slot.status
      · rfl
      · rw [hs] at hst
        cases hst
    refine ⟨⟨hset, fun hu => ?_, fun side y hy => ?_, ?_⟩, ?_⟩
    · rw [show (advanceSlot .buy x slot).units = slot.units from rfl, hunits] at hu
      cases hu
    · cases side with
      | buy => cases hy
      | sell => rfl
    · rintro o' ho' ⟨side, hy⟩
      cases side with
      | buy => cases hy
      | sell => exact hnew o' ho' (Option.some.inj hy).symm
    · simp [GridSlotRecord.held, advanceSlot, hwait, hunits]
  | sell =>
    rw [hside] at hst
    have hwait : slot.status = .waitingSell := by
      cases hs : slot.status
      · rw [hs] at hst
        cases hst
      · rfl
    refine ⟨⟨hset, fun hu => ?_, fun side y hy => ?_, ?_⟩, ?_⟩
    · rw [show (advanceSlot .sell x slot).units = slot.units from rfl, hunits] at hu
      cases hu
    · cases side with
      | buy => rfl
      | sell => cases hy
    · rintro o' ho' ⟨side, hy⟩
      cases side with
      | buy => exact hnew o' ho' (Option.some.inj hy).symm
      | sell => cases hy
    · simp [GridSlotRecord.held, advanceSlot, hwait, hunits]

theorem sum_moved_map {f : GridOrder → GridOrder} (hf : ∀ o : GridOrder, o.Same (f o))
    {orders : List GridOrder}
    (hstate : ∀ o ∈ orders, (f o).state = .filled true ↔ o.state = .filled true) (id : Nat) :
    ((orders.map f).map (GridOrder.moved id)).sum = (orders.map (GridOrder.moved id)).sum := by
  rw [List.map_map]
  congr 1
  exact List.map_congr_left fun o ho => moved_of_same (hf o) (hstate o ho) id

theorem InventorySound.kept {w w' : GridWorld} (h : InventorySound w) (hw' : w'.WellFormed)
    (hissued : w.issued ≤ w'.issued) {f : GridOrder → GridOrder} (hf : ∀ o : GridOrder, o.Same (f o))
    (hstate : ∀ o ∈ w.orders, (f o).state = .filled true ↔ o.state = .filled true)
    (new : List GridOrder) (horders : w'.orders = w.orders.map f ++ new)
    (hnew : ∀ o ∈ new, o.state ≠ .filled true ∧ o.session < w'.issued)
    (hrows : ∀ s' ∈ w'.sessions, ∃ s ∈ w.sessions, s'.id = s.id ∧ s'.config = s.config ∧
      s'.slots = s.slots) : InventorySound w' where
  wellFormed := hw'
  slots := by
    intro s' hs' slot hslot
    obtain ⟨s, hs, -, hconfig, hslots⟩ := hrows s' hs'
    rw [hslots] at hslot
    refine (h.slots s hs slot hslot).kept hconfig fun o ho _ hrep => ?_
    rw [horders] at ho
    obtain ho | ho := List.mem_append.mp ho
    · obtain ⟨o₀, ho₀, rfl⟩ := List.mem_map.mp ho
      exact ⟨o₀, ho₀, (hf o₀).id.symm, (hstate o₀ ho₀).mp hrep⟩
    · exact absurd hrep (hnew o ho).1
  sessions := by
    intro o ho
    rw [horders] at ho
    obtain ho | ho := List.mem_append.mp ho
    · obtain ⟨o₀, ho₀, rfl⟩ := List.mem_map.mp ho
      rw [hf o₀]
      exact (h.sessions o₀ ho₀).trans_le hissued
    · exact (hnew o ho).2
  exact := by
    intro s' hs'
    obtain ⟨s, hs, hid, -, hslots⟩ := hrows s' hs'
    rw [heldUnits_eq, hslots, ← heldUnits_eq, h.exact s hs, horders,
      sum_moved_append _ _ _ fun o ho => (hnew o ho).1, sum_moved_map hf hstate, hid]

theorem InventorySound.created {w : GridWorld} (h : InventorySound w) (req : GridCreateRequest) :
    InventorySound (createGridSession req w) where
  wellFormed := createGridSession_wellFormed h.wellFormed req
  slots := by
    intro s hs slot hslot
    obtain hs | hs := List.mem_append.mp hs
    · exact (h.slots s hs slot hslot).kept rfl fun o ho _ hrep => ⟨o, ho, rfl, hrep⟩
    · obtain rfl := List.mem_singleton.mp hs
      have hfresh := newSlots_fresh hslot
      refine ⟨fun u hu => ?_, fun _ => hfresh.status, fun side x hx => ?_, ?_⟩
      · rw [hfresh.units] at hu
        cases hu
      · rw [hfresh.orderOn side] at hx
        cases hx
      · rintro o - ⟨side, hx⟩
        rw [hfresh.orderOn side] at hx
        cases hx
  sessions := by
    intro o ho
    refine (h.sessions o ho).trans_le ?_
    simp only [createGridSession]
    omega
  exact := by
    intro s hs
    obtain hs | hs := List.mem_append.mp hs
    · exact h.exact s hs
    · obtain rfl := List.mem_singleton.mp hs
      have hheld : ∀ slot ∈ newSlots req.config (w.issued + 1), slot.held = 0 := fun slot hslot => by
        simp [GridSlotRecord.held, (newSlots_fresh hslot).status]
      have hmoved : ∀ o ∈ w.orders, o.moved w.issued = 0 := fun o ho => by
        simp [GridOrder.moved, (h.sessions o ho).ne]
      rw [heldUnits_eq, List.sum_eq_zero, List.sum_eq_zero]
      · intro x hx
        obtain ⟨o, ho, rfl⟩ := List.mem_map.mp hx
        exact hmoved o ho
      · intro x hx
        obtain ⟨slot, hslot, rfl⟩ := List.mem_map.mp hx
        exact hheld slot hslot

theorem InventorySound.started {w w' : GridWorld} {s : GridSession} {price : Rat}
    {place : Nat → GridPlaceOutcome} {new : List GridOrder} {slots : List GridSlotRecord}
    (h : InventorySound w) (hs : s ∈ w.sessions) (hp : Placing s price place s.slots w new w')
    (hslots : List.Forall₂ (SlotStarted s price new) s.slots slots)
    (hsells : ∀ slot ∈ s.slots, price ≤ slot.buyPrice → slot.status = .waitingSell)
    (hw' : (w'.saveSession { s with slots := slots, status := .active }).WellFormed) :
    InventorySound (w'.saveSession { s with slots := slots, status := .active }) := by
  have hfresh : ∀ o ∈ new, o.state ≠ .filled true := fun o ho => (hp.unreported o ho).1
  have hrow : ∀ slot slot', slot ∈ s.slots → SlotStarted s price new slot slot' →
      slot'.held = slot.held ∧ SlotSound (w'.saveSession { s with slots := slots, status := .active })
        { s with slots := slots, status := .active } slot' := fun slot slot' hslot hst =>
    (h.slots s hs slot hslot).started hw' rfl hst (hsells slot hslot) hp.orders hfresh
  have hkept : ∀ row ∈ w.sessions, ∀ slot ∈ row.slots,
      SlotSound (w'.saveSession { s with slots := slots, status := .active }) row slot := by
    intro row hrow slot hslot
    refine (h.slots row hrow slot hslot).kept rfl fun o ho _ hrep => ?_
    obtain ho | ho := List.mem_append.mp (hp.orders ▸ ho)
    · exact ⟨o, ho, rfl, hrep⟩
    · exact absurd hrep (hfresh o ho)
  refine ⟨hw', ?_, ?_, ?_⟩
  · intro t ht slot' hslot'
    obtain ⟨row, hrow', rfl⟩ := List.mem_map.mp ht
    rw [hp.sessions] at hrow'
    by_cases hid : row.id = s.id
    · simp only [if_pos hid] at hslot' ⊢
      obtain ⟨slot, hslot, hst⟩ := Rows.exists_left hslots hslot'
      exact (hrow slot slot' hslot hst).2
    · simp only [if_neg hid] at hslot' ⊢
      exact hkept row hrow' slot' hslot'
  · intro o ho
    obtain ho | ho := List.mem_append.mp (hp.orders ▸ ho)
    · exact (h.sessions o ho).trans_le hp.issued
    · rw [(hp.unreported o ho).2]
      exact (h.wellFormed.sessionFresh s hs).trans_le hp.issued
  · intro t ht
    obtain ⟨row, hrow', rfl⟩ := List.mem_map.mp ht
    rw [hp.sessions] at hrow'
    have hsum : ∀ id, (w'.orders.map (GridOrder.moved id)).sum = (w.orders.map (GridOrder.moved id)).sum := by
      intro id
      rw [hp.orders]
      exact sum_moved_append id w.orders new hfresh
    by_cases hid : row.id = s.id
    · have hheld : slots.map GridSlotRecord.held = s.slots.map GridSlotRecord.held :=
        Rows.map_key_eq (List.forall₂_and_left _ _ |>.mpr ⟨fun slot hslot => hslot, hslots⟩)
          fun slot slot' hst => (hrow slot slot' hst.1 hst.2).1
      simp only [if_pos hid]
      rw [heldUnits_eq]
      show (slots.map GridSlotRecord.held).sum = (w'.orders.map (GridOrder.moved s.id)).sum
      rw [hheld, ← heldUnits_eq, h.exact s hs, hsum]
    · simp only [if_neg hid]
      rw [h.exact row hrow']
      exact (hsum row.id).symm

/-- The world once the fill of the order is reported and its replacement is accepted. -/
def GridWorld.replace (o : GridOrder) (row : Nat × GridSlotRecord) (w : GridWorld) : GridWorld :=
  GridWorld.saveSlot (advanceSlot o.side w.issued row.2)
    { markReported o.id w with
      orders := (markReported o.id w).orders ++ [replacementOrder row.1 o.side o.symbol row.2 w.issued]
      issued := w.issued + 1 }

theorem replace_reported {w : GridWorld} {o o' : GridOrder} {row : Nat × GridSlotRecord}
    (ho' : o' ∈ (w.replace o row).orders) (hrep : o'.state = .filled true) (hne : o'.id ≠ o.id) :
    ∃ o₀ ∈ w.orders, o₀.id = o'.id ∧ o₀.state = .filled true := by
  obtain ho' | ho' := List.mem_append.mp ho'
  · obtain ⟨o₀, ho₀, rfl⟩ := List.mem_map.mp ho'
    by_cases hid : o₀.id = o.id
    · split_ifs at hne with hcond <;> exact absurd hid hne
    · rw [if_neg fun hcond => hid hcond.1] at hrep ⊢
      exact ⟨o₀, ho₀, rfl, hrep⟩
  · obtain rfl := List.mem_singleton.mp ho'
    cases hrep

/-- The report moves the quantity of the order into or out of its session. -/
theorem sum_moved_replace {w : GridWorld} {o : GridOrder} {row : Nat × GridSlotRecord}
    (hw : w.WellFormed) (ho : o ∈ w.orders) (hfilled : o.state = .filled false) (id : Nat) :
    ((w.replace o row).orders.map (GridOrder.moved id)).sum =
      (w.orders.map (GridOrder.moved id)).sum + if o.session = id then
        match o.side with
        | .buy => o.qty
        | .sell => -o.qty else 0 := by
  have hlive : ∀ o' ∈ [replacementOrder row.1 o.side o.symbol row.2 w.issued],
      o'.state ≠ .filled true := by
    simp [replacementOrder, limitOrder]
  have hchanged := Rows.sum_map_changed (GridOrder.moved id) (fun o' =>
      if o'.id = o.id ∧ o'.state = .filled false then { o' with state := .filled true } else o')
    hw.orderIds ho fun o' _ hne => if_neg fun hcond => hne hcond.1
  have hbefore : o.moved id = 0 := by simp [GridOrder.moved, hfilled]
  rw [hbefore, add_zero, if_pos ⟨rfl, hfilled⟩] at hchanged
  refine (sum_moved_append id (markReported o.id w).orders _ hlive).trans (hchanged.trans ?_)
  simp only [GridOrder.moved, and_true]

/-- The report of a fill whose slot names the order and gets its replacement. -/
theorem InventorySound.advanced {w : GridWorld} {o : GridOrder} {row : Nat × GridSlotRecord}
    (h : InventorySound w) (ho : o ∈ w.orders) (hfilled : o.state = .filled false)
    (hfound : slotForOrderId o.id w = .ok (some row)) (hunits : row.2.units = some o.qty)
    (hw' : (w.replace o row).WellFormed) : InventorySound (w.replace o row) := by
  obtain ⟨s, hs, hsid, hslot, hnames, hp⟩ := lookup_named h.wellFormed ho hfound
  have hid := advanceSlot_id o.side w.issued row.2
  have hadvanced : ∀ s' : GridSession, s'.config = s.config →
      SlotSound (w.replace o row) s' (advanceSlot o.side w.issued row.2) ∧ _ := fun s' hconfig =>
    (h.slots s hs row.2 hslot).advanced hconfig hnames hunits fun o' ho' hid => by
      rw [hw'.order_eq ho' (List.mem_append_right _ List.mem_cons_self) hid]
      simp [replacementOrder, limitOrder]
  refine ⟨hw', ?_, ?_, ?_⟩
  · intro t' ht' slot' hslot'
    obtain ⟨t, ht, ⟨-, -, hconfig, -⟩, slot, hmem, ⟨rfl, rfl, rfl⟩ | ⟨hne, rfl⟩⟩ :=
      h.wellFormed.mem_saveSlot rfl hs hslot hid ht' hslot'
    · exact (hadvanced t' hconfig).1
    · refine (h.slots t ht slot' hmem).kept hconfig fun o' ho' hnamed hrep => ?_
      refine replace_reported ho' hrep fun heqid => ?_
      rw [heqid] at hnamed
      exact hne (congrArg _ (h.wellFormed.slot_eq_of_names ht hs hmem hslot hnamed ⟨_, hnames⟩).2)
  · intro o' ho'
    obtain ho' | ho' := List.mem_append.mp ho'
    · obtain ⟨o₀, ho₀, rfl⟩ := List.mem_map.mp ho'
      have hlt := Nat.lt_succ_of_lt (h.sessions o₀ ho₀)
      split_ifs
      · exact hlt
      · exact hlt
    · obtain rfl := List.mem_singleton.mp ho'
      rw [show (replacementOrder row.1 o.side o.symbol row.2 w.issued).session = row.1 from rfl, ← hsid]
      exact (h.wellFormed.sessionFresh s hs).trans (Nat.lt_succ_self _)
  · intro t' ht'
    obtain ⟨t, ht, rfl⟩ := List.mem_map.mp ht'
    rw [sum_moved_replace h.wellFormed ho hfilled, heldUnits_eq, hp.session, hid]
    dsimp only
    by_cases hts : s.id = t.id
    · obtain rfl := h.wellFormed.session_eq hs ht hts
      have hchanged := Rows.sum_map_changed GridSlotRecord.held
        (fun slot => if slot.id = row.2.id then advanceSlot o.side w.issued row.2 else slot)
        (h.wellFormed.slots_nodup hs) hslot fun slot _ hne => if_neg hne
      rw [if_pos rfl, (hadvanced s rfl).2] at hchanged
      rw [if_pos rfl, ← h.exact s hs, heldUnits_eq]
      linarith
    · have hsame : t.slots.map (fun slot =>
          if slot.id = row.2.id then advanceSlot o.side w.issued row.2 else slot) = t.slots := by
        refine (List.map_congr_left fun slot hmem => if_neg fun hid => ?_).trans (List.map_id _)
        exact hts (congrArg GridSession.id (h.wellFormed.slot_eq ht hs hmem hslot hid).1.symm)
      rw [if_neg hts, add_zero, hsame, ← heldUnits_eq, h.exact t ht]

/-- No slot names an order that was reported, so a report that comes again changes nothing. -/
theorem InventorySound.repeated {w w' : GridWorld} {id : GridOrderId} {outcome : GridPlaceOutcome}
    {o : GridOrder} (h : InventorySound w) (heff : GridEffect w (.report id outcome) w')
    (ho : o ∈ w.orders) (hid : o.id = id) (hrep : o.state = .filled true) (hw' : w'.WellFormed) :
    InventorySound w' := by
  have hnotFound : ∀ row, slotForOrderId o.id w ≠ .ok (some row) := by
    intro row hfound
    obtain ⟨s, hs, -, hslot, hnames, -⟩ := lookup_named h.wellFormed ho hfound
    exact (h.slots s hs row.2 hslot).unreported o ho ⟨_, hnames⟩ hrep
  subst hid
  cases heff with
  | nothing => exact h
  | unhandled ho' hid' hfilled hnone =>
    refine h.kept hw' (le_refl _) (fun _ => .ite _) (fun o' ho' => ?_) []
      (by rw [List.append_nil]; rfl) (by simp) fun s hs => ⟨s, hs, rfl, rfl, rfl⟩
    rw [if_neg]
    rintro ⟨hid, hstate⟩
    rw [h.wellFormed.order_eq ho' ho hid, hrep] at hstate
    cases hstate
  | failed ho' hid' hfilled hfound hout => exact absurd hfound (hnotFound _)
  | advanced ho' hid' hfilled hfound hout => exact absurd hfound (hnotFound _)

/-- While the slots stay and no order becomes or ceases to be reported, so does the inventory. -/
theorem InventorySound.orders {w w' : GridWorld} (h : InventorySound w) (hw' : w'.WellFormed)
    {f : GridOrder → GridOrder} (hf : ∀ o : GridOrder, o.Same (f o))
    (hstate : ∀ o : GridOrder, (f o).state = .filled true ↔ o.state = .filled true)
    (horders : w'.orders = w.orders.map f) (hissued : w'.issued = w.issued)
    (hrows : ∀ s' ∈ w'.sessions, ∃ s ∈ w.sessions, s'.id = s.id ∧ s'.config = s.config ∧
      s'.slots = s.slots) : InventorySound w' :=
  h.kept hw' hissued.ge hf (fun o _ => hstate o) [] (by rw [horders, List.append_nil]) (by simp) hrows

theorem cancelAll_state (ids : List GridOrderId) (o : GridOrder) :
    (if o.id ∈ ids ∧ o.state = .live then { o with state := .cancelled } else o).state =
      .filled true ↔ o.state = .filled true := by
  split_ifs with hcond
  · simp [hcond.2]
  · rfl

theorem setStatus_rows {w w' : GridWorld} (hsame : w'.sessions = w.sessions) (id : Nat)
    (status : GridSessionStatus) : ∀ s' ∈ (w'.setStatus id status).sessions,
      ∃ s ∈ w.sessions, s'.id = s.id ∧ s'.config = s.config ∧ s'.slots = s.slots := by
  intro s' hs'
  obtain ⟨s, hs, rfl⟩ := List.mem_map.mp hs'
  refine ⟨s, hsame ▸ hs, ?_⟩
  split_ifs
  · exact ⟨rfl, rfl, rfl⟩
  · exact ⟨rfl, rfl, rfl⟩

/-- A report that finds the slot of its order, the first time or again. -/
theorem InventorySound.reported {w w' : GridWorld} {id : GridOrderId} {outcome : GridPlaceOutcome}
    (h : InventorySound w) (heff : GridEffect w (.report id outcome) w')
    (hkeeps : ReportHolds w id outcome) (hw' : w'.WellFormed) : InventorySound w' := by
  by_cases hrep : ∃ o ∈ w.orders, o.id = id ∧ o.state = .filled true
  · obtain ⟨o, ho, hid, hrep⟩ := hrep
    exact h.repeated heff ho hid hrep hw'
  · have hnew : ∀ o ∈ w.orders, o.id = id → ∀ b, o.state = .filled b → o.state = .filled false := by
      intro o ho hid b hfilled
      cases b
      · exact hfilled
      · exact absurd ⟨o, ho, hid, hfilled⟩ hrep
    cases heff with
    | nothing => exact h
    | unhandled ho hid hfilled hnone =>
      obtain ⟨-, row, hrow, hnames, -⟩ := hkeeps _ ho hid (hnew _ ho hid _ hfilled)
      obtain ⟨row', -, -, heq⟩ | ⟨hno, -⟩ := slotForOrderId_eq h.wellFormed (x := id)
      · obtain hnone | ⟨e, hnone⟩ := hnone <;> rw [heq] at hnone <;> cases hnone
      · exact absurd hnames (hno row hrow)
    | failed ho hid hfilled hfound hout =>
      exact absurd (hkeeps _ ho hid (hnew _ ho hid _ hfilled)).1 hout
    | @advanced _ _ o _ row ho hid hfilled hfound hout =>
      have hfilled' := hnew o ho hid _ hfilled
      obtain ⟨-, row', hrow', hnames', hunits⟩ := hkeeps o ho hid hfilled'
      subst hid
      obtain ⟨s, hs, hsid, hslot, hnames, -⟩ := lookup_named h.wellFormed ho hfound
      obtain ⟨s', hs', hsid', hslot'⟩ := GridWorld.mem_slotRows.mp hrow'
      obtain ⟨-, hsame⟩ :=
        h.wellFormed.slot_eq_of_names hs' hs hslot' hslot hnames' ⟨_, hnames⟩
      exact h.advanced ho hfilled' hfound (hsame ▸ hunits) hw'

theorem inventorySound_step {w : GridWorld} (h : InventorySound w) (st : GridStep)
    (hkeeps : KeepsHoldings w st) : InventorySound (gridStep w st) := by
  have hw' := gridStep_wellFormed h.wellFormed st
  have heff := gridStep_effect w st
  generalize gridStep w st = w' at hw' heff ⊢
  cases st with
  | report id outcome => exact h.reported heff hkeeps hw'
  | create req =>
    cases heff with
    | nothing => exact h
    | created => exact h.created req
  | start id io =>
    cases heff with
    | nothing => exact h
    | @startFailed _ _ s _ _ _ hs hst hprice hp hraised =>
      refine h.kept hw' hp.issued (f := fun o => o) .refl (fun o _ => Iff.rfl) _
        (by rw [hp.orders, List.map_id']) (fun o ho => ?_) fun s' hs' => ?_
      · refine ⟨(hp.unreported o ho).1, ?_⟩
        rw [(hp.unreported o ho).2]
        exact (h.wellFormed.sessionFresh s (GridWorld.mem_of_loadSession hs).1).trans_le hp.issued
      · exact ⟨s', hp.sessions ▸ hs', rfl, rfl, rfl⟩
    | started hs hst hprice hp hall hslots =>
      simp only [KeepsHoldings, StartHolds, hs, hprice] at hkeeps
      exact h.started (GridWorld.mem_of_loadSession hs).1 hp hslots (hkeeps hst hall) hw'
  | stop id io =>
    cases heff with
    | nothing => exact h
    | stopFailed hs hlisted hraised =>
      exact h.orders hw' (cancelAll_same _) (cancelAll_state _) rfl rfl
        fun s hs => ⟨s, hs, rfl, rfl, rfl⟩
    | stopped hs hlisted hall =>
      exact h.orders hw' (cancelAll_same _) (cancelAll_state _) rfl rfl (setStatus_rows rfl _ _)
  | pause id =>
    cases heff with
    | nothing => exact h
    | paused =>
      exact h.orders hw' (f := fun o => o) .refl (fun o => Iff.rfl) (List.map_id' _).symm rfl
        (setStatus_rows rfl _ _)
  | fill id =>
    cases heff with
    | nothing => exact h
    | filled =>
      refine h.orders hw' (fun o => .ite _) (fun o => ?_) rfl rfl fun s hs => ⟨s, hs, rfl, rfl, rfl⟩
      split_ifs with hcond
      · simp [hcond.2]
      · rfl

/-- In every run whose starts find the slots at or above the price waiting to sell, and whose
reports each find the slot of their order, the inventory is what was bought and not sold. -/
theorem inventoryExact_run (steps : List GridStep) (h : Runs.Meets gridStep KeepsHoldings {} steps) :
    Runs.Always gridStep InventoryExact {} steps := by
  refine Runs.always_of_invariant InventorySound.init (fun _ st hs hk => inventorySound_step hs st hk)
    (fun w hs s hs' => ?_) h
  rw [hs.exact s hs', reportedUnits_sub]

/-- Bought, paused, restarted and sold. -/
theorem inventoryExact_cycle : Runs.Always gridStep InventoryExact {}
    [.create demoGridRequest, .start 0 (demoGridStart 2), .fill 2, .report 2 .accepted, .pause 0,
      .start 0 (demoGridStart 1), .fill 3, .report 3 .accepted, .stop 0 ⟨true, fun _ => .returned⟩] :=
  inventoryExact_run _ (by decide +kernel)

/-- A slot at the ticker price counts as held, and nothing was bought. -/
theorem inventoryExact_fails : ¬ Runs.Always gridStep InventoryExact {}
    [.create demoGridRequest, .start 0 (demoGridStart 1)] := by
  decide +kernel

end AmaExecutionCore
