import AmaExecutionCore.Columns
import AmaExecutionCore.GridRuns
import AmaExecutionCore.Sessions

/-! Starts and fill handlers of the grid taking turns, each with its own database session: a
start places its orders one by one and commits their ids at its end, a handler looks up the
slot of its order, places the replacement and commits the slot. -/
namespace AmaExecutionCore
open GridRunner

/-- The row after a session wrote `new` over what it had loaded. -/
def GridSlotRecord.overwrite (loaded new row : GridSlotRecord) : GridSlotRecord :=
  { row with
    status := written loaded.status new.status row.status
    completedCycles := written loaded.completedCycles new.completedCycles row.completedCycles
    realizedPnl := written loaded.realizedPnl new.realizedPnl row.realizedPnl
    units := written loaded.units new.units row.units
    buyOrderId := written loaded.buyOrderId new.buyOrderId row.buyOrderId
    sellOrderId := written loaded.sellOrderId new.sellOrderId row.sellOrderId }

/-- Slots as a session loaded them, each with what the session made of it. -/
abbrev SlotWrites := List (GridSlotRecord × GridSlotRecord)

def SlotWrites.apply (writes : SlotWrites) (row : GridSlotRecord) : GridSlotRecord :=
  match writes.find? fun p => p.1.id = row.id with
  | some p => p.1.overwrite p.2 row
  | none => row

def GridWorld.commitSlots (writes : SlotWrites) (w : GridWorld) : GridWorld :=
  { w with sessions := w.sessions.map fun s => { s with slots := s.slots.map writes.apply } }

/-- The buy order ids a start writes. -/
def SlotWrites.newIds (writes : SlotWrites) : List GridOrderId :=
  writes.filterMap fun p => if p.2.buyOrderId = p.1.buyOrderId then none else p.2.buyOrderId

/-- The tables and the exchange, and what happened to which order: its id was committed to a
slot, a replacement was sent for it, its slot was moved on. -/
structure GridStore where
  world : GridWorld := {}
  recorded : List GridOrderId := []
  sent : List GridOrderId := []
  advanced : List GridOrderId := []

namespace GridStore

def commitStart (s : GridSession) (writes : SlotWrites) (st : GridStore) : GridStore :=
  let world := st.world.commitSlots writes
  { st with
    world := { world with sessions := world.sessions.map fun row =>
        if row.id = s.id then { row with status := written s.status .active row.status } else row }
    recorded := st.recorded ++ writes.newIds }

/-- The commit of `handle_order_fill` for the order. -/
def commitFill (orderId : GridOrderId) (side : ExchangeSide) (slot : GridSlotRecord)
    (replacement : GridOrderId) (st : GridStore) : GridStore :=
  { st with
    world := st.world.commitSlots [(slot, advanceSlot side replacement slot)]
    recorded := st.recorded ++ [replacement]
    advanced := st.advanced ++ [orderId] }

end GridStore

/-- A start or the handler of a message under way. A handler of a fill goes from `handling`
over `found` and `replaced` to `finished`. -/
inductive GridTask where
  | starting (id : Nat) (io : GridStartIo)
  | placing (s : GridSession) (price : Rat) (place : Nat → GridPlaceOutcome) (done : SlotWrites)
      (pending : List GridSlotRecord)
  | notified (orderId : GridOrderId) (outcome : GridPlaceOutcome)
  | handling (event : GridOrderFillEvent) (outcome : GridPlaceOutcome)
  | found (event : GridOrderFillEvent) (outcome : GridPlaceOutcome) (session : Nat)
      (slot : GridSlotRecord)
  | replaced (orderId : GridOrderId) (side : ExchangeSide) (slot : GridSlotRecord)
      (replacement : GridOrderId)
  | finished (orderId : GridOrderId)
  | ended

namespace GridTask

def next (c : GridTask) (st : GridStore) : GridStore × GridTask :=
  match c with
  | starting id io =>
    match st.world.loadSession id with
    | none => (st, ended)
    | some s =>
      if s.status = .active then (st, ended)
      else
        match io.price with
        | .error _ => (st, ended)
        | .ok price => (st, placing s price io.place [] s.slots)
  | placing s price place done (slot :: pending) =>
    match startSlot s price (place slot.id) slot st.world with
    | (.error _, w) => ({ st with world := w }, ended)
    | (.ok slot', w) => ({ st with world := w }, placing s price place (done ++ [(slot, slot')]) pending)
  | placing s _ _ done [] => (st.commitStart s done, ended)
  | notified orderId outcome =>
    match (st.world.orders.filter fun o => o.id = orderId).flatMap gridOnOrder with
    | [] => (st, ended)
    | event :: _ => (st, handling event outcome)
  | handling event outcome =>
    match slotForOrderId event.orderId st.world with
    | .ok (some (session, slot)) => (st, found event outcome session slot)
    | _ => (st, finished event.orderId)
  | found event outcome session slot =>
    match event.side with
    | none => (st, finished event.orderId)
    | some side =>
      let sent := if outcome.reached then st.sent ++ [event.orderId] else st.sent
      match placeReplacement session side event.symbol slot outcome st.world with
      | (.error _, w) => ({ st with world := w, sent := sent }, finished event.orderId)
      | (.ok replacement, w) =>
        ({ st with world := w, sent := sent }, replaced event.orderId side slot replacement)
  | replaced orderId side slot replacement =>
    (st.commitFill orderId side slot replacement, finished orderId)
  | c => (st, c)

def runAlone : Nat → GridTask → GridStore → GridStore × GridTask
  | 0, c, st => (st, c)
  | n + 1, c, st => runAlone n (c.next st).2 (c.next st).1

end GridTask

inductive GridCall where
  | start (id : Nat) (io : GridStartIo)
  | message (orderId : GridOrderId) (outcome : GridPlaceOutcome)

/-- What happens in one step: a session is created, stopped or paused, the exchange fills an
order. -/
inductive GridEvent where
  | created (req : GridCreateRequest)
  | stopped (id : Nat) (io : GridStopIo)
  | paused (id : Nat)
  | filled (orderId : GridOrderId)

def GridEvent.toStep : GridEvent → GridStep
  | created req => .create req
  | stopped id io => .stop id io
  | paused id => .pause id
  | filled orderId => .fill orderId

def gridSystem : Sessions.System GridStore GridTask GridCall GridEvent where
  start
    | .start id io => .starting id io
    | .message orderId outcome => .notified orderId outcome
  next := GridTask.next
  handle := fun st e => { st with world := gridStep st.world e.toStep }

/-! With nobody in between, the pieces make up the functions -/

theorem overwrite_self (loaded new : GridSlotRecord) (hid : new.id = loaded.id)
    (hlevel : new.level = loaded.level) (hbuy : new.buyPrice = loaded.buyPrice)
    (hsell : new.sellPrice = loaded.sellPrice) : loaded.overwrite new loaded = new := by
  cases new
  simp only at hid hlevel hbuy hsell
  simp [GridSlotRecord.overwrite, written_self, hid, hlevel, hbuy, hsell]

theorem advanceSlot_frame (side : ExchangeSide) (x : GridOrderId) (slot : GridSlotRecord) :
    (advanceSlot side x slot).id = slot.id ∧ (advanceSlot side x slot).level = slot.level ∧
      (advanceSlot side x slot).buyPrice = slot.buyPrice ∧
      (advanceSlot side x slot).sellPrice = slot.sellPrice := by
  cases side <;> exact ⟨rfl, rfl, rfl, rfl⟩

theorem commitSlots_single {w w' : GridWorld} (hw : w.WellFormed) (hrows : w'.sessions = w.sessions)
    {s : GridSession} (hs : s ∈ w.sessions) {slot new : GridSlotRecord} (hslot : slot ∈ s.slots)
    (h : slot.overwrite new slot = new) (hid : new.id = slot.id) :
    w'.commitSlots [(slot, new)] = w'.saveSlot new := by
  unfold GridWorld.commitSlots GridWorld.saveSlot
  rw [hrows]
  congr 1
  refine List.map_congr_left fun t ht => ?_
  congr 1
  refine List.map_congr_left fun row hrow => ?_
  rw [hid]
  by_cases hsame : row.id = slot.id
  · obtain ⟨-, rfl⟩ := hw.slot_eq ht hs hrow hslot hsame
    simp [SlotWrites.apply, h]
  · simp [SlotWrites.apply, hsame, Ne.symm hsame]

/-- The handler of a fill with nobody in between is `handle_order_fill`. -/
theorem handler_alone {st : GridStore} (hw : st.world.WellFormed) (event : GridOrderFillEvent)
    (outcome : GridPlaceOutcome) :
    (GridTask.runAlone 3 (.handling event outcome) st).1.world =
      (handleOrderFill event outcome st.world).2 := by
  simp only [GridTask.runAlone, GridTask.next, handleOrderFill]
  obtain ⟨row, hrow, -, hfound⟩ | ⟨-, hfound⟩ := slotForOrderId_eq hw (x := event.orderId)
  · obtain ⟨session, slot⟩ := row
    obtain ⟨s, hs, -, hslot⟩ := GridWorld.mem_slotRows.mp hrow
    rw [hfound]
    dsimp only
    cases hside : event.side with
    | none => rfl
    | some side =>
      dsimp only
      rw [placeReplacement_eq]
      obtain ⟨-, hrun⟩ | ⟨-, e, hrun⟩ := placeLimit_cases ⟨session, slot.id⟩ event.symbol side.opposite
        (slot.priceOn side.opposite) (slot.units.getD 0) outcome st.world
      · rw [hrun]
        obtain ⟨hid, hlevel, hbuy, hsell⟩ := advanceSlot_frame side st.world.issued slot
        dsimp only [GridStore.commitFill]
        apply commitSlots_single hw _ hs hslot (overwrite_self _ _ hid hlevel hbuy hsell) hid
        rfl
      · rw [hrun]
  · rw [hfound]

theorem runAlone_add (m n : Nat) (c : GridTask) (st : GridStore) :
    c.runAlone (m + n) st = (c.runAlone m st).2.runAlone n (c.runAlone m st).1 := by
  induction m generalizing c st with
  | zero => rw [Nat.zero_add]; rfl
  | succ m ih => rw [Nat.succ_add]; exact ih _ _

/-- The loop of a start with nobody in between. -/
theorem placing_alone (s : GridSession) (price : Rat) (place : Nat → GridPlaceOutcome)
    (done : SlotWrites) (slots : List GridSlotRecord) (st : GridStore) :
    ∃ n, GridTask.runAlone n (.placing s price place done slots) st =
      match startSlots s price place slots st.world with
      | (.error _, w) => ({ st with world := w }, .ended)
      | (.ok slots', w) => ({ st with world := w }, .placing s price place (done ++ slots.zip slots') []) := by
  induction slots generalizing done st with
  | nil => exact ⟨0, by simp [GridTask.runAlone, startSlots]⟩
  | cons slot slots ih =>
    rw [startSlots]
    cases hrun : startSlot s price (place slot.id) slot st.world with
    | mk result w =>
      cases result with
      | error e => exact ⟨1, by simp [GridTask.runAlone, GridTask.next, hrun]⟩
      | ok slot' =>
        obtain ⟨n, halone⟩ := ih (done ++ [(slot, slot')]) { st with world := w }
        refine ⟨n + 1, ?_⟩
        simp only [GridTask.runAlone, GridTask.next, hrun, halone]
        cases startSlots s price place slots w with
        | mk result' w' => cases result' <;> simp

theorem SlotWrites.apply_of_not_mem {writes : SlotWrites} {row : GridSlotRecord}
    (h : ∀ p ∈ writes, p.1.id ≠ row.id) : writes.apply row = row := by
  unfold SlotWrites.apply
  rw [List.find?_eq_none.mpr]
  simpa using h

theorem SlotStarted.overwrite {s : GridSession} {price : Rat} {new : List GridOrder}
    {slot slot' : GridSlotRecord} (h : SlotStarted s price new slot slot') :
    slot'.id = slot.id ∧ slot.overwrite slot' slot = slot' := by
  cases h <;> exact ⟨rfl, overwrite_self _ _ rfl rfl rfl rfl⟩

theorem SlotWrites.apply_zip {loaded new : List GridSlotRecord}
    (h : List.Forall₂ (fun l n => n.id = l.id ∧ l.overwrite n l = n) loaded new)
    (hnodup : (loaded.map GridSlotRecord.id).Nodup) :
    loaded.map (SlotWrites.apply (loaded.zip new)) = new := by
  induction h with
  | nil => rfl
  | @cons l n loaded new hln _ ih =>
    obtain ⟨hl, hrest⟩ := List.nodup_cons.mp hnodup
    have htail : ∀ row ∈ loaded, SlotWrites.apply ((l, n) :: loaded.zip new) row =
        SlotWrites.apply (loaded.zip new) row := by
      intro row hrow
      have hne : l.id ≠ row.id := fun heq => hl (heq ▸ List.mem_map_of_mem hrow)
      simp [SlotWrites.apply, hne]
    rw [List.zip_cons_cons, List.map_cons, List.map_congr_left htail, ih hrest]
    congr 1
    simp [SlotWrites.apply, hln.2]

/-- The commit of a start over the rows it loaded. -/
theorem commitStart_alone {w w' : GridWorld} (hw : w.WellFormed) (hrows : w'.sessions = w.sessions)
    {s : GridSession} (hs : s ∈ w.sessions) {price : Rat} {new : List GridOrder}
    {slots : List GridSlotRecord} (hslots : List.Forall₂ (SlotStarted s price new) s.slots slots)
    (st : GridStore) :
    (GridStore.commitStart s (s.slots.zip slots) { st with world := w' }).world =
      w'.saveSession { s with slots := slots, status := .active } := by
  simp only [GridStore.commitStart, GridWorld.commitSlots, GridWorld.saveSession, List.map_map]
  congr 1
  rw [hrows]
  refine List.map_congr_left fun t ht => ?_
  dsimp only [Function.comp]
  by_cases hid : t.id = s.id
  · obtain rfl := hw.session_eq ht hs hid
    rw [if_pos rfl, if_pos rfl, written_self,
      SlotWrites.apply_zip (hslots.imp fun _ _ h => h.overwrite) (hw.slots_nodup ht)]
  · rw [if_neg hid, if_neg hid]
    congr 1
    refine (List.map_congr_left fun row hrow => ?_).trans (List.map_id _)
    refine SlotWrites.apply_of_not_mem fun p hp hsame => hid ?_
    obtain ⟨rfl, -⟩ := hw.slot_eq hs ht (List.of_mem_zip hp).1 hrow hsame
    rfl

/-- A start with nobody in between is `start`. -/
theorem start_alone {st : GridStore} (hw : st.world.WellFormed) (id : Nat) (io : GridStartIo) :
    ∃ n, (GridTask.runAlone n (.starting id io) st).1.world = (start id io st.world).2 := by
  cases hs : st.world.loadSession id with
  | none => exact ⟨1, by simp [GridTask.runAlone, GridTask.next, start, hs]⟩
  | some s =>
    by_cases hst : s.status = .active
    · exact ⟨1, by simp [GridTask.runAlone, GridTask.next, start, hs, hst]⟩
    · cases hprice : io.price with
      | error e => exact ⟨1, by simp [GridTask.runAlone, GridTask.next, start, hs, hst, hprice]⟩
      | ok price =>
        obtain ⟨n, hloop⟩ := placing_alone s price io.place [] s.slots st
        have hfirst : GridTask.runAlone 1 (.starting id io) st =
            (st, .placing s price io.place [] s.slots) := by
          simp [GridTask.runAlone, GridTask.next, hs, hst, hprice]
        obtain ⟨new, hp, hslots⟩ := startSlots_spec s price io.place s.slots st.world
        refine ⟨1 + (n + 1), ?_⟩
        rw [runAlone_add, hfirst, runAlone_add, hloop]
        simp only [start, hs, if_neg hst, hprice]
        cases hrun : startSlots s price io.place s.slots st.world with
        | mk result w =>
          rw [hrun] at hp hslots
          cases result with
          | error e => rfl
          | ok slots =>
            exact commitStart_alone hw hp.sessions (GridWorld.mem_of_loadSession hs).1
              (hslots slots rfl) st

/-- What the functions of the source make of the world, called as a whole. -/
def GridCall.whole (w : GridWorld) : GridCall → GridWorld
  | .start id io => (GridRunner.start id io w).2
  | .message orderId outcome =>
    match (w.orders.filter fun o => o.id = orderId).flatMap gridOnOrder with
    | [] => w
    | event :: _ => (handleOrderFill event outcome w).2

theorem GridCall.alone {st : GridStore} (hw : st.world.WellFormed) (call : GridCall) :
    ∃ n, (GridTask.runAlone n (gridSystem.start call) st).1.world = call.whole st.world := by
  cases call with
  | start id io => exact start_alone hw id io
  | message orderId outcome =>
    cases hevents : (st.world.orders.filter fun o => o.id = orderId).flatMap gridOnOrder with
    | nil =>
      refine ⟨1, ?_⟩
      simp only [gridSystem, GridTask.runAlone, GridTask.next, GridCall.whole, hevents]
    | cons event events =>
      have hfirst : GridTask.runAlone 1 (.notified orderId outcome) st =
          (st, .handling event outcome) := by
        simp only [GridTask.runAlone, GridTask.next, hevents]
      refine ⟨1 + 3, ?_⟩
      simp only [gridSystem, GridCall.whole, hevents]
      rw [runAlone_add, hfirst]
      exact handler_alone hw event outcome

end AmaExecutionCore
