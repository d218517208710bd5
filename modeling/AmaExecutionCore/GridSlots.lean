import AmaExecutionCore.GridRuns

/-! The slots of an active grid against the orders at the exchange: a slot names one working
order, on the side it waits on, as long as no start takes a slot whose order is missing and
no order that a slot waits on is lost. -/
namespace AmaExecutionCore
open GridRunner

/-- The order is live, or it is filled and the fill was not reported yet. -/
def GridOrder.isWorking (o : GridOrder) : Bool := o.state = .live || o.state = .filled false

def Works (w : GridWorld) (x : GridOrderId) : Prop := ∃ o ∈ w.orders, o.id = x ∧ o.isWorking = true

instance (w : GridWorld) (x : GridOrderId) : Decidable (Works w x) :=
  inferInstanceAs (Decidable (∃ o ∈ w.orders, _))

/-- The slot names a working order on the side it waits on, and none on the other. -/
def SlotMatched (w : GridWorld) (slot : GridSlotRecord) : Prop :=
  (∃ x ∈ slot.orderOn slot.status.side, Works w x) ∧ slot.orderOn slot.status.side.opposite = none

instance (w : GridWorld) (slot : GridSlotRecord) : Decidable (SlotMatched w slot) :=
  inferInstanceAs (Decidable (_ ∧ _))

/-- Every slot of an active session is matched. -/
def GridMatched (w : GridWorld) : Prop :=
  ∀ s ∈ w.sessions, s.status = .active → ∀ slot ∈ s.slots, SlotMatched w slot

instance : DecidablePred GridMatched := fun w => inferInstanceAs (Decidable (∀ s ∈ w.sessions, _))

instance (x : GridOrderId) (slot : GridSlotRecord) : Decidable (slot.Names x) :=
  decidable_of_iff' _ names_iff

/-- A start at the price can take the slot: it is matched already and, at or above the price,
waits to sell; below the price it may also wait to buy and name no order. -/
def SlotReady (price : Rat) (w : GridWorld) (slot : GridSlotRecord) : Prop :=
  if price ≤ slot.buyPrice then slot.status = .waitingSell ∧ SlotMatched w slot
  else SlotMatched w slot ∨
    slot.status = .waitingBuy ∧ slot.buyOrderId = none ∧ slot.sellOrderId = none

instance (price : Rat) (w : GridWorld) (slot : GridSlotRecord) : Decidable (SlotReady price w slot) := by
  unfold SlotReady
  infer_instance

/-- A start that succeeds can take every slot. -/
def StartReady (w : GridWorld) (id : Nat) (io : GridStartIo) : Prop :=
  match w.loadSession id, io.price with
  | some s, .ok price =>
    s.status ≠ .active → (∀ slot ∈ s.slots, isDue price slot = true → io.place slot.id = .accepted) →
      ∀ slot ∈ s.slots, SlotReady price w slot
  | _, _ => True

instance (w : GridWorld) (id : Nat) (io : GridStartIo) : Decidable (StartReady w id io) := by
  unfold StartReady
  exact match w.loadSession id, io.price with
    | some _, .ok _ | some _, .error _ | none, _ => inferInstance

/-- Where a stop gets an order cancelled that an active session names, that session is the
stopped one, and no call raises. -/
def StopReady (w : GridWorld) (id : Nat) (io : GridStopIo) : Prop :=
  match w.loadSession id with
  | some s =>
    io.listed = true → ∀ s' ∈ w.sessions, s'.status = .active →
      (∃ slot ∈ s'.slots, ∃ x ∈ io.cancelled s w, slot.Names x) →
      s'.id = id ∧ ∀ x ∈ openGridOrders s.symbol w, io.cancel x = .returned
  | none => True

instance (w : GridWorld) (id : Nat) (io : GridStopIo) : Decidable (StopReady w id io) := by
  unfold StopReady
  exact match w.loadSession id with
    | some _ | none => inferInstance

/-- The first report of a filled order that an active session names gets its replacement
accepted. -/
def ReportReady (w : GridWorld) (id : GridOrderId) (outcome : GridPlaceOutcome) : Prop :=
  (∃ o ∈ w.orders, o.id = id ∧ o.state = .filled false) →
    (∃ s ∈ w.sessions, s.status = .active ∧ ∃ slot ∈ s.slots, slot.Names id) → outcome = .accepted

instance (w : GridWorld) (id : GridOrderId) (outcome : GridPlaceOutcome) :
    Decidable (ReportReady w id outcome) := inferInstanceAs (Decidable (_ → _))

/-- The step keeps the orders that the active sessions wait on. -/
def KeepsOrders (w : GridWorld) : GridStep → Prop
  | .start id io => StartReady w id io
  | .stop id io => StopReady w id io
  | .report id outcome => ReportReady w id outcome
  | _ => True

instance (w : GridWorld) (st : GridStep) : Decidable (KeepsOrders w st) :=
  match st with
  | .create _ | .start .. | .stop .. | .pause _ | .fill _ | .report .. => by
    unfold KeepsOrders; infer_instance

/-! What working orders become -/

theorem Works.append {w w' : GridWorld} {new : List GridOrder} {x : GridOrderId} (h : Works w x)
    (horders : w'.orders = w.orders ++ new) : Works w' x := by
  obtain ⟨o, ho, hid, hwork⟩ := h
  exact ⟨o, horders ▸ List.mem_append_left _ ho, hid, hwork⟩

theorem Works.moved {w w' : GridWorld} {f : GridOrder → GridOrder} {x : GridOrderId} (h : Works w x)
    (horders : w'.orders = w.orders.map f) (hf : ∀ o : GridOrder, o.Same (f o))
    (hkept : ∀ o : GridOrder, o.id = x → o.isWorking = true → (f o).isWorking = true) : Works w' x := by
  obtain ⟨o, ho, hid, hwork⟩ := h
  exact ⟨f o, horders ▸ List.mem_map_of_mem ho, (hf o).id.trans hid, hkept o hid hwork⟩

theorem Works.cancelAll {w w' : GridWorld} {ids : List GridOrderId} {x : GridOrderId} (h : Works w x)
    (horders : w'.orders = cancelAll ids w.orders) (hx : x ∉ ids) : Works w' x := by
  refine h.moved horders (cancelAll_same ids) fun o hid hwork => ?_
  rw [if_neg fun hin => hx (hid ▸ hin.1)]
  exact hwork

theorem Works.markReported {w w' : GridWorld} {id x : GridOrderId} (h : Works w x)
    (horders : w'.orders = (markReported id w).orders) (hx : x ≠ id) : Works w' x := by
  refine h.moved horders (fun o => .ite _) fun o hid hwork => ?_
  rw [if_neg fun hin => hx (hid.symm.trans hin.1)]
  exact hwork

theorem Works.fill {w : GridWorld} {id x : GridOrderId} (h : Works w x) :
    Works (fillGridOrder id w) x := by
  refine h.moved rfl (fun o => .ite _) fun o hid hwork => ?_
  split_ifs
  · rfl
  · exact hwork

theorem SlotMatched.works {w : GridWorld} {slot : GridSlotRecord} (h : SlotMatched w slot)
    {x : GridOrderId} (hx : slot.Names x) : Works w x := by
  obtain ⟨⟨y, hy, hwork⟩, hnone⟩ := h
  obtain ⟨side, hside⟩ := hx
  by_cases heq : side = slot.status.side
  · rw [heq, Option.mem_def.mp hy] at hside
    obtain rfl := Option.some.inj hside
    exact hwork
  · have hopp : side = slot.status.side.opposite := by
      cases side <;> cases hs : slot.status.side <;> simp_all [ExchangeSide.opposite]
    rw [hopp, hnone] at hside
    cases hside

theorem SlotMatched.kept {w w' : GridWorld} {slot : GridSlotRecord} (h : SlotMatched w slot)
    (hworks : ∀ x, slot.Names x → Works w x → Works w' x) : SlotMatched w' slot := by
  obtain ⟨⟨x, hx, hwork⟩, hnone⟩ := h
  exact ⟨⟨x, hx, hworks x ⟨_, hx⟩ hwork⟩, hnone⟩

theorem GridMatched.kept {w w' : GridWorld} (h : GridMatched w)
    (hrows : ∀ s' ∈ w'.sessions, s'.status = .active →
      ∃ s ∈ w.sessions, s.status = .active ∧ s.slots = s'.slots ∧
        ∀ slot ∈ s.slots, ∀ x, slot.Names x → Works w x → Works w' x) : GridMatched w' := by
  intro s' hs' hactive slot hslot
  obtain ⟨s, hs, hst, hslots, hworks⟩ := hrows s' hs' hactive
  rw [← hslots] at hslot
  exact (h s hs hst slot hslot).kept (hworks slot hslot)

theorem SlotReady.started {w w' : GridWorld} {s : GridSession} {price : Rat} {new : List GridOrder}
    {slot slot' : GridSlotRecord} (h : SlotReady price w slot) (hstarted : SlotStarted s price new slot slot')
    (horders : w'.orders = w.orders ++ new) : SlotMatched w' slot' := by
  have hkept : ∀ x, slot.Names x → Works w x → Works w' x := fun x _ hx => hx.append horders
  unfold SlotReady at h
  cases hstarted with
  | above habove =>
    rw [if_pos habove] at h
    obtain ⟨hst, hmatched⟩ := h
    simpa [SlotMatched, GridSlotRecord.orderOn, hst] using hmatched.kept hkept
  | @placed x hdue ho =>
    obtain ⟨hbelow, hst, hnone⟩ := isDue_iff.mp hdue
    rw [if_neg hbelow] at h
    obtain hmatched | ⟨-, -, hsell⟩ := h
    · obtain ⟨y, hy, -⟩ := hmatched.1
      simp [hst, GridSlotRecordStatus.side, GridSlotRecord.orderOn, hnone] at hy
    · have hwork : Works w' x := ⟨_, horders ▸ List.mem_append_right _ ho, rfl, rfl⟩
      simpa [SlotMatched, GridSlotRecord.orderOn, hst, GridSlotRecordStatus.side,
        ExchangeSide.opposite, hsell] using hwork
  | kept hbelow hdue =>
    rw [if_neg hbelow] at h
    obtain hmatched | ⟨hst, hnone, -⟩ := h
    · simpa [SlotMatched, GridSlotRecord.orderOn] using hmatched.kept hkept
    · rw [isDue_iff.mpr ⟨hbelow, hst, hnone⟩] at hdue
      cases hdue

theorem slotMatched_advance {w : GridWorld} {session : Nat} {side : ExchangeSide} {symbol : String}
    {slot : GridSlotRecord} {x : GridOrderId}
    (ho : replacementOrder session side symbol slot x ∈ w.orders) :
    SlotMatched w (advanceSlot side x slot) := by
  have hwork : Works w x := ⟨_, ho, rfl, rfl⟩
  cases side with
  | buy => exact ⟨⟨x, rfl, hwork⟩, rfl⟩
  | sell => exact ⟨⟨x, rfl, hwork⟩, rfl⟩

theorem active_of_setStatus {w : GridWorld} {id : Nat} {status : GridSessionStatus}
    (hne : status ≠ .active) {s' : GridSession} (hs' : s' ∈ (w.setStatus id status).sessions)
    (hactive : s'.status = .active) : s' ∈ w.sessions ∧ s'.id ≠ id := by
  obtain ⟨s, hs, rfl⟩ := List.mem_map.mp hs'
  by_cases hid : s.id = id
  · rw [if_pos hid] at hactive
    exact absurd hactive hne
  · rw [if_neg hid]
    exact ⟨hs, hid⟩

theorem GridMatched.reported {w w' : GridWorld} {id : GridOrderId} (new : List GridOrder)
    (h : GridMatched w) (hsessions : w'.sessions = w.sessions)
    (horders : w'.orders = (markReported id w).orders ++ new)
    (hnone : ∀ s ∈ w.sessions, s.status = .active → ∀ slot ∈ s.slots, ¬ slot.Names id) :
    GridMatched w' := by
  refine h.kept fun s' hs' hactive => ?_
  rw [hsessions] at hs'
  refine ⟨s', hs', hactive, rfl, fun slot hslot x hx hwork => ?_⟩
  have hne : x ≠ id := by
    rintro rfl
    exact hnone s' hs' hactive slot hslot hx
  exact (hwork.markReported (rfl : (markReported id w).orders = _) hne).append horders

theorem GridMatched.advanced {w : GridWorld} {o : GridOrder} {row : Nat × GridSlotRecord}
    (hw : w.WellFormed) (h : GridMatched w) (ho : o ∈ w.orders)
    (hfound : slotForOrderId o.id w = .ok (some row)) :
    GridMatched (GridWorld.saveSlot (advanceSlot o.side w.issued row.2)
      { markReported o.id w with
        orders := (markReported o.id w).orders ++ [replacementOrder row.1 o.side o.symbol row.2 w.issued]
        issued := w.issued + 1 }) := by
  obtain ⟨s, hs, hid, hslot, hnames, hp⟩ := lookup_named hw ho hfound
  intro t' ht' hactive slot' hslot'
  obtain ⟨t, ht, ⟨-, -, -, hst⟩, slot, hmem, ⟨-, -, rfl⟩ | ⟨hne, rfl⟩⟩ :=
    hw.mem_saveSlot rfl hs hslot (advanceSlot_id o.side w.issued row.2) ht' hslot'
  · exact slotMatched_advance (List.mem_append_right _ List.mem_cons_self)
  · refine (h t ht (hst.symm.trans hactive) slot' hmem).kept fun x hx hwork => ?_
    have hne : x ≠ o.id := by
      rintro rfl
      exact hne (congrArg _ (hw.slot_eq_of_names ht hs hmem hslot hx ⟨_, hnames⟩).2)
    exact (hwork.markReported (rfl : (markReported o.id w).orders = _) hne).append rfl

/-- A step that keeps the orders the active sessions wait on keeps the slots matched. -/
theorem GridEffect.matched {w w' : GridWorld} {st : GridStep} (heff : GridEffect w st w')
    (hw : w.WellFormed) (h : GridMatched w) (hkeeps : KeepsOrders w st) : GridMatched w' := by
  have hactive : ∀ s ∈ w.sessions, s.status = .active → ∀ slot ∈ s.slots, ∀ x, slot.Names x → Works w x :=
    fun s hs hst slot hslot x hx => (h s hs hst slot hslot).works hx
  cases heff with
  | nothing => exact h
  | created =>
    intro s hs hst slot hslot
    obtain hs | hs := List.mem_append.mp hs
    · exact (h s hs hst slot hslot).kept fun x _ hwork => hwork
    · obtain rfl := List.mem_singleton.mp hs
      cases hst
  | startFailed hs hst hprice hp hraised =>
    refine h.kept fun s' hs' hst => ?_
    rw [hp.sessions] at hs'
    exact ⟨s', hs', hst, rfl, fun slot _ x _ hwork => hwork.append hp.orders⟩
  | @started id io s price new w₁ slots hs hst hprice hp hall hslots =>
    obtain ⟨hmem, rfl⟩ := GridWorld.mem_of_loadSession hs
    simp only [KeepsOrders, StartReady, hs, hprice] at hkeeps
    have hready := hkeeps hst hall
    intro s' hs' hst' slot' hslot'
    obtain ⟨row, hrow, rfl⟩ := List.mem_map.mp hs'
    rw [hp.sessions] at hrow
    by_cases hid : row.id = s.id
    · simp only [if_pos hid] at hslot'
      obtain ⟨slot, hslot, hstarted⟩ := Rows.exists_left hslots hslot'
      exact (hready slot hslot).started hstarted hp.orders
    · simp only [if_neg hid] at hslot' hst'
      exact (h row hrow hst' slot' hslot').kept fun x _ hwork => hwork.append hp.orders
  | @stopFailed id io s hs hlisted hraised =>
    simp only [KeepsOrders, StopReady, hs] at hkeeps
    refine h.kept fun s' hs' hst => ⟨s', hs', hst, rfl, fun slot hslot x hx hwork => ?_⟩
    refine hwork.cancelAll rfl fun hin => ?_
    exact hraised (hkeeps hlisted s' hs' hst ⟨slot, hslot, x, hin, hx⟩).2
  | @stopped id io s hs hlisted hall =>
    simp only [KeepsOrders, StopReady, hs] at hkeeps
    refine h.kept fun s' hs' hst => ?_
    obtain ⟨hs', hne⟩ := active_of_setStatus (by decide) hs' hst
    refine ⟨s', hs', hst, rfl, fun slot hslot x hx hwork => ?_⟩
    refine hwork.cancelAll rfl fun hin => ?_
    exact hne (hkeeps hlisted s' hs' hst ⟨slot, hslot, x, hin, hx⟩).1
  | paused =>
    refine h.kept fun s' hs' hst => ?_
    obtain ⟨hs', -⟩ := active_of_setStatus (by decide) hs' hst
    exact ⟨s', hs', hst, rfl, fun slot _ x _ hwork => hwork⟩
  | filled => exact h.kept fun s' hs' hst => ⟨s', hs', hst, rfl, fun slot _ x _ hwork => hwork.fill⟩
  | @unhandled id outcome o b ho hid hfilled hnone =>
    refine h.reported [] rfl (by rw [List.append_nil]) fun s hs hst slot hslot hx => ?_
    obtain ⟨row, -, -, heq⟩ | ⟨hno, -⟩ := slotForOrderId_eq hw (x := id)
    · obtain hnone | ⟨e, hnone⟩ := hnone <;> rw [heq] at hnone <;> cases hnone
    · exact hno (s.id, slot) (GridWorld.mem_slotRows.mpr ⟨s, hs, rfl, hslot⟩) hx
  | @failed id outcome o b row ho hid hfilled hfound hout =>
    refine h.reported _ rfl rfl fun s hs hst slot hslot hx => ?_
    -- the order an active session names is working, so its fill is new
    obtain ⟨o', ho', hid', hwork⟩ := hactive s hs hst slot hslot id hx
    obtain rfl := hw.order_eq ho' ho (hid'.trans hid.symm)
    have hnew : o'.state = .filled false := by simpa [GridOrder.isWorking, hfilled] using hwork
    exact hout (hkeeps ⟨o', ho, hid, hnew⟩ ⟨s, hs, hst, slot, hslot, hx⟩)
  | @advanced id outcome o b row ho hid hfilled hfound hout =>
    subst hid
    exact h.advanced hw ho hfound

/-- In every run whose starts take no slot that misses its order, whose stops and reports lose
no order of an active session, the slots of the active sessions are matched. -/
theorem gridMatched_run (steps : List GridStep) (h : Runs.Meets gridStep KeepsOrders {} steps) :
    Runs.Always gridStep GridMatched {} steps :=
  Runs.always_of_invariant (I := fun w => w.WellFormed ∧ GridMatched w)
    ⟨gridWellFormed_init, by simp [GridMatched]⟩
    (fun w st hw hkeeps => ⟨gridStep_wellFormed hw.1 st,
      (gridStep_effect w st).matched hw.1 hw.2 hkeeps⟩)
    (fun _ hw => hw.2) h

/-- A cycle of buying and selling, a pause, a restart and a stop. -/
theorem gridMatched_cycle : Runs.Always gridStep GridMatched {}
    [.create demoGridRequest, .start 0 (demoGridStart 2), .fill 2, .report 2 .accepted, .fill 3,
      .report 3 .accepted, .pause 0, .start 0 (demoGridStart 2), .stop 0 ⟨true, fun _ => .returned⟩] :=
  gridMatched_run _ (by decide +kernel)

/-- A slot at the ticker price waits to sell, and no order was placed for it. -/
theorem gridMatched_fails : ¬ Runs.Always gridStep GridMatched {}
    [.create demoGridRequest, .start 0 (demoGridStart 1)] := by
  decide +kernel

/-- After a stop, the slot still names the cancelled order, and a restart places no other. -/
example : ¬ Runs.Always gridStep GridMatched {}
    [.create demoGridRequest, .start 0 (demoGridStart 2), .stop 0 ⟨true, fun _ => .returned⟩,
      .start 0 (demoGridStart 2)] := by
  decide +kernel

end AmaExecutionCore
