import AmaExecutionCore.GridFills

/-! What halts a grid, in turns with its starts and the handlers of its fills: pause, stop, the
risk check and the upside breakout. A halted session gets no buy order until it is started
again, as long as no fill of a sell order is handled for it. -/
namespace AmaExecutionCore
open GridRunner

/-- The statuses that end the trading of a session. -/
inductive GridHalt where
  | paused | stopped | waitingReentry
  deriving DecidableEq, Repr

def GridHalt.status : GridHalt → GridSessionStatus
  | paused => .paused
  | stopped => .stopped
  | waitingReentry => .waitingReentry

theorem GridHalt.status_ne (halt : GridHalt) : halt.status ≠ .active := by cases halt <;> decide

namespace GridRunner

/-- What `evaluate_risk` does about a session. -/
inductive RiskReaction where
  | nothing | pauses | stops
  deriving DecidableEq, Repr

def riskReaction (configMaxDdPct currentPrice : Rat) (s : GridSession) : RiskReaction :=
  if configMaxDdPct < unrealizedDrawdownPct s currentPrice then .pauses
  else if currentPrice < s.config.pMin * (95 / 100) then .stops
  else .nothing

/-- `handle_upside_breakout` finds slots, and all of them waiting to buy. -/
def isExhausted (s : GridSession) : Bool :=
  !s.slots.isEmpty && s.slots.all fun slot => slot.status = .waitingBuy

def handleUpsideBreakout (id : Nat) (w : GridWorld) : GridOutcome Bool :=
  match w.loadSession id with
  | none => (.error (.sessionNotFound id), w)
  | some s =>
    if isExhausted s then (.ok true, w.setStatus id .waitingReentry) else (.ok false, w)

/-- `evaluate_risk` with its limit. -/
def evaluateRiskWithin (configMaxDdPct : Rat) (id : Nat) (currentPrice : Rat) (io : GridStopIo)
    (w : GridWorld) : GridOutcome Unit :=
  match w.loadSession id with
  | none => (.error (.sessionNotFound id), w)
  | some s =>
    if configMaxDdPct < unrealizedDrawdownPct s currentPrice then pause id w
    else if currentPrice < s.config.pMin * (95 / 100) then stop id io w
    else (.ok (), w)

theorem evaluateRiskWithin_default (id : Nat) (currentPrice : Rat) (io : GridStopIo) (w : GridWorld) :
    evaluateRiskWithin 35 id currentPrice io w = evaluateRisk id currentPrice io w := rfl

end GridRunner

/-- The commit of a session that loaded the row and set its status. -/
def GridWorld.commitHalt (s : GridSession) (halt : GridHalt) (w : GridWorld) : GridWorld :=
  { w with sessions := w.sessions.map fun row =>
      if row.id = s.id then { row with status := written s.status halt.status row.status } else row }

/-- A task under way: one of a start or a fill, or one that may halt a session. -/
inductive ControlTask where
  | grid (c : GridTask)
  | evaluating (id : Nat) (currentPrice configMaxDdPct : Rat) (io : GridStopIo)
  | breakout (id : Nat)
  | pausing (id : Nat)
  | stopping (id : Nat) (io : GridStopIo)
  | halting (s : GridSession) (halt : GridHalt)
  | ended

namespace ControlTask

/-- The next piece of the task. What a piece asks of the exchange it asks without a pause. -/
def next (c : ControlTask) (st : GridStore) : GridStore × ControlTask :=
  match c with
  | grid c => ((c.next st).1, grid (c.next st).2)
  | evaluating id currentPrice configMaxDdPct io =>
    match st.world.loadSession id with
    | none => (st, ended)
    | some s =>
      match riskReaction configMaxDdPct currentPrice s with
      | .pauses => (st, pausing id)
      | .stops => (st, stopping id io)
      | .nothing => (st, ended)
  | breakout id =>
    match st.world.loadSession id with
    | none => (st, ended)
    | some s => if isExhausted s then (st, halting s .waitingReentry) else (st, ended)
  | pausing id =>
    match st.world.loadSession id with
    | none => (st, ended)
    | some s => (st, halting s .paused)
  | stopping id io =>
    match st.world.loadSession id with
    | none => (st, ended)
    | some s =>
      match cancelAllOrders s.symbol io st.world with
      | (.error _, w) => ({ st with world := w }, ended)
      | (.ok _, w) => ({ st with world := w }, halting s .stopped)
  | halting s halt => ({ st with world := st.world.commitHalt s halt }, ended)
  | ended => (st, ended)

def runAlone : Nat → ControlTask → GridStore → GridStore
  | 0, _, st => st
  | n + 1, c, st => runAlone n (c.next st).2 (c.next st).1

end ControlTask

inductive ControlCall where
  | grid (call : GridCall)
  | evaluateRisk (id : Nat) (currentPrice configMaxDdPct : Rat) (io : GridStopIo)
  | handleUpsideBreakout (id : Nat)
  | pause (id : Nat)
  | stop (id : Nat) (io : GridStopIo)

/-- A session is created, or the exchange fills an order. -/
inductive ControlEvent where
  | created (req : GridCreateRequest)
  | filled (orderId : GridOrderId)

def ControlEvent.toStep : ControlEvent → GridStep
  | created req => .create req
  | filled orderId => .fill orderId

/-- Starts, handlers of fills and whatever halts a session, taking turns. -/
def controlSystem : Sessions.System GridStore ControlTask ControlCall ControlEvent where
  start
    | .grid call => .grid (gridSystem.start call)
    | .evaluateRisk id currentPrice configMaxDdPct io => .evaluating id currentPrice configMaxDdPct io
    | .handleUpsideBreakout id => .breakout id
    | .pause id => .pausing id
    | .stop id io => .stopping id io
  next := ControlTask.next
  handle := fun st e => { st with world := gridStep st.world e.toStep }

abbrev ControlState := Sessions.State GridStore ControlTask
abbrev ControlAct := Sessions.Act ControlCall ControlEvent

/-! With nobody in between, the pieces make up the functions -/

theorem commitHalt_alone {w w' : GridWorld} (hw : w.WellFormed) (hrows : w'.sessions = w.sessions)
    {id : Nat} {s : GridSession} (hs : w.loadSession id = some s) (halt : GridHalt) :
    w'.commitHalt s halt = w'.setStatus id halt.status := by
  obtain ⟨hmem, rfl⟩ := GridWorld.mem_of_loadSession hs
  simp only [GridWorld.commitHalt, GridWorld.setStatus, hrows]
  congr 1
  refine List.map_congr_left fun row hrow => ?_
  by_cases hid : row.id = s.id
  · obtain rfl := hw.session_eq hrow hmem hid
    rw [if_pos rfl, if_pos rfl, written_self]
  · rw [if_neg hid, if_neg hid]

theorem pause_alone {st : GridStore} (hw : st.world.WellFormed) (id : Nat) :
    (ControlTask.runAlone 2 (.pausing id) st).world = (pause id st.world).2 := by
  simp only [ControlTask.runAlone, ControlTask.next, pause]
  cases hs : st.world.loadSession id with
  | none => rfl
  | some s => exact commitHalt_alone hw rfl hs .paused

theorem stop_alone {st : GridStore} (hw : st.world.WellFormed) (id : Nat) (io : GridStopIo) :
    (ControlTask.runAlone 2 (.stopping id io) st).world = (stop id io st.world).2 := by
  simp only [ControlTask.runAlone, ControlTask.next, stop]
  cases hs : st.world.loadSession id with
  | none => rfl
  | some s =>
    dsimp only
    have hrows : (cancelAllOrders s.symbol io st.world).2.sessions = st.world.sessions := by
      unfold cancelAllOrders
      split_ifs
      · rw [(cancelOrders_spec io.cancel _ _).1]
      · rfl
    cases hrun : cancelAllOrders s.symbol io st.world with
    | mk result w' =>
      rw [hrun] at hrows
      cases result with
      | error e => rfl
      | ok _ => exact commitHalt_alone hw hrows hs .stopped

theorem evaluateRisk_alone {st : GridStore} (hw : st.world.WellFormed) (id : Nat)
    (currentPrice configMaxDdPct : Rat) (io : GridStopIo) :
    (ControlTask.runAlone 3 (.evaluating id currentPrice configMaxDdPct io) st).world =
      (evaluateRiskWithin configMaxDdPct id currentPrice io st.world).2 := by
  rw [ControlTask.runAlone, evaluateRiskWithin]
  simp only [ControlTask.next]
  cases hs : st.world.loadSession id with
  | none => rfl
  | some s =>
    dsimp only [riskReaction]
    split_ifs
    · exact pause_alone hw id
    · exact stop_alone hw id io
    · rfl

theorem breakout_alone {st : GridStore} (hw : st.world.WellFormed) (id : Nat) :
    (ControlTask.runAlone 2 (.breakout id) st).world = (handleUpsideBreakout id st.world).2 := by
  simp only [ControlTask.runAlone, ControlTask.next, handleUpsideBreakout]
  cases hs : st.world.loadSession id with
  | none => rfl
  | some s =>
    dsimp only
    split_ifs
    · exact commitHalt_alone hw rfl hs .waitingReentry
    · rfl

theorem runAlone_grid (n : Nat) (c : GridTask) (st : GridStore) :
    ControlTask.runAlone n (.grid c) st = (c.runAlone n st).1 := by
  induction n generalizing c st with
  | zero => rfl
  | succ n ih => exact ih _ _

/-- What the functions of the source make of the world, called as a whole. -/
def ControlCall.whole (w : GridWorld) : ControlCall → GridWorld
  | .grid call => call.whole w
  | .evaluateRisk id currentPrice configMaxDdPct io =>
    (evaluateRiskWithin configMaxDdPct id currentPrice io w).2
  | .handleUpsideBreakout id => (GridRunner.handleUpsideBreakout id w).2
  | .pause id => (GridRunner.pause id w).2
  | .stop id io => (GridRunner.stop id io w).2

theorem ControlCall.alone {st : GridStore} (hw : st.world.WellFormed) (call : ControlCall) :
    ∃ n, (ControlTask.runAlone n (controlSystem.start call) st).world = call.whole st.world := by
  cases call with
  | grid call =>
    obtain ⟨n, halone⟩ := call.alone hw
    exact ⟨n, (congrArg GridStore.world (runAlone_grid n _ st)).trans halone⟩
  | evaluateRisk id currentPrice configMaxDdPct io =>
    exact ⟨3, evaluateRisk_alone hw id currentPrice configMaxDdPct io⟩
  | handleUpsideBreakout id => exact ⟨2, breakout_alone hw id⟩
  | pause id => exact ⟨2, pause_alone hw id⟩
  | stop id io => exact ⟨2, stop_alone hw id io⟩

/-! Buy orders of a halted session -/

def buysOf (id : Nat) (w : GridWorld) : List GridOrderId :=
  (w.orders.filter fun o => o.session = id && o.side = .buy).map GridOrder.id

def Halted (id : Nat) (w : GridWorld) : Prop := ∃ t ∈ w.loadSession id, t.status ≠ .active

instance (id : Nat) (w : GridWorld) : Decidable (Halted id w) :=
  inferInstanceAs (Decidable (∃ t ∈ w.loadSession id, t.status ≠ .active))

def ControlTask.isStartOf (id : Nat) : ControlTask → Bool
  | grid (.placing t _ _ _ _) => t.id = id
  | _ => false

def Starts (id : Nat) (s : ControlState) : ControlAct → Prop
  | .advance i => ∃ c ∈ s.sessions[i]?, c.isStartOf id = true
  | _ => False

instance (id : Nat) (s : ControlState) (act : ControlAct) : Decidable (Starts id s act) := by
  cases act <;> unfold Starts <;> infer_instance

/-- Only a start sends buy orders for a session that is not active. -/
def HaltedSendsNone (s : ControlState) (act : ControlAct) : Prop :=
  ∀ id, Halted id s.store.world → ¬ Starts id s act →
    buysOf id (Sessions.step controlSystem s act).store.world = buysOf id s.store.world

/-- Each act sends buy orders for active sessions only, and a session that is halted gets none
until it is started again. -/
structure HaltsKept (s : ControlState) (acts : List ControlAct) : Prop where
  each : Runs.Meets (Sessions.step controlSystem) HaltedSendsNone s acts
  after : ∀ id before rest, acts = before ++ rest →
    Halted id (Runs.run (Sessions.step controlSystem) s before).store.world →
    Runs.Meets (Sessions.step controlSystem) (fun s act => ¬ Starts id s act)
      (Runs.run (Sessions.step controlSystem) s before) rest →
    buysOf id (Runs.run (Sessions.step controlSystem) s acts).store.world =
      buysOf id (Runs.run (Sessions.step controlSystem) s before).store.world

/-- The handler is about to replace a sell order of a halted session, and the call will reach
the exchange. -/
def ControlTask.replacesHaltedSell (w : GridWorld) : ControlTask → Prop
  | grid (.found event outcome session _) =>
    event.side = some .sell ∧ outcome.reached = true ∧ Halted session w
  | _ => False

instance (w : GridWorld) (c : ControlTask) : Decidable (c.replacesHaltedSell w) := by
  unfold ControlTask.replacesHaltedSell
  split <;> infer_instance

/-- No fill of a sell order is handled while the session is halted. -/
def SellFillsActive (s : ControlState) : ControlAct → Prop
  | .advance i => ∀ c ∈ s.sessions[i]?, ¬ c.replacesHaltedSell s.store.world
  | _ => True

instance (s : ControlState) (act : ControlAct) : Decidable (SellFillsActive s act) := by
  cases act <;> unfold SellFillsActive <;> infer_instance

/-! What a piece does to the buy orders and to the status of a session -/

section

variable {w w' : GridWorld} {id : Nat}

theorem buysOf_append {new : List GridOrder} (h : w'.orders = w.orders ++ new) :
    buysOf id w' = buysOf id w ++
      (new.filter fun o => o.session = id && o.side = .buy).map GridOrder.id := by
  rw [buysOf, h, List.filter_append, List.map_append, buysOf]

theorem buysOf_map {f : GridOrder → GridOrder} (hf : ∀ o : GridOrder, o.Same (f o))
    (h : w'.orders = w.orders.map f) : buysOf id w' = buysOf id w := by
  rw [buysOf, h, List.filter_map, List.map_map, buysOf]
  have hcond : ((fun o : GridOrder => o.session = id && o.side = .buy) ∘ f) =
      fun o => o.session = id && o.side = .buy := by
    funext o
    rw [Function.comp, hf o]
  rw [hcond]
  refine List.map_congr_left fun o _ => ?_
  rw [Function.comp, hf o]

theorem buysOf_others {new : List GridOrder} (h : w'.orders = w.orders ++ new)
    (hnew : ∀ o ∈ new, o.session = id → o.side ≠ .buy) : buysOf id w' = buysOf id w := by
  have hnone : (new.filter fun o => o.session = id && o.side = .buy) = [] := by
    rw [List.filter_eq_nil_iff]
    intro o ho
    simpa using hnew o ho
  rw [buysOf_append h, hnone, List.map_nil, List.append_nil]

theorem Halted.map {f : GridSession → GridSession} (h : Halted id w) (hid : ∀ s, (f s).id = s.id)
    (hstatus : ∀ s, s.id = id → s.status ≠ .active → (f s).status ≠ .active)
    (hrows : w'.sessions = w.sessions.map f) : Halted id w' := by
  obtain ⟨t, ht, hst⟩ := h
  have hkey : ((fun s : GridSession => decide (s.id = id)) ∘ f) = fun s => decide (s.id = id) := by
    funext s
    rw [Function.comp, hid]
  refine ⟨f t, ?_, hstatus t (GridWorld.mem_of_loadSession ht).2 hst⟩
  rw [GridWorld.loadSession, hrows, List.find?_map, hkey]
  exact congrArg (Option.map f) ht

theorem Halted.same (h : Halted id w) (hrows : w'.sessions = w.sessions) : Halted id w' :=
  h.map (fun _ => rfl) (fun _ _ hst => hst) (by rw [hrows, List.map_id'])

theorem Halted.created {new : List GridSession} (h : Halted id w)
    (hrows : w'.sessions = w.sessions ++ new) : Halted id w' := by
  obtain ⟨t, ht, hst⟩ := h
  refine ⟨t, ?_, hst⟩
  rw [GridWorld.loadSession] at ht
  rw [GridWorld.loadSession, hrows, List.find?_append, ht]
  rfl

end

/-- What a piece leaves of a halted session, unless it is one of its starts. -/
structure KeepsHalt (id : Nat) (w w' : GridWorld) : Prop where
  halted : Halted id w → Halted id w'
  buys : buysOf id w' = buysOf id w

theorem KeepsHalt.refl (id : Nat) (w : GridWorld) : KeepsHalt id w w := ⟨fun h => h, rfl⟩

theorem KeepsHalt.commitSlots (id : Nat) (writes : SlotWrites) (w : GridWorld) :
    KeepsHalt id w (w.commitSlots writes) where
  halted := fun h => h.map (f := fun s => { s with slots := s.slots.map writes.apply })
    (fun _ => rfl) (fun _ _ hst => hst) rfl
  buys := rfl

theorem keepsHalt_placeLimit (id : Nat) (target : GridTarget) (symbol : String) (side : ExchangeSide)
    (price qty : Rat) (outcome : GridPlaceOutcome) (w : GridWorld)
    (h : target.session = id → side = .buy → outcome.reached = false) :
    KeepsHalt id w (placeLimit target symbol side price qty outcome w).2 := by
  obtain ⟨hout, hrun⟩ | ⟨hout, e, hrun⟩ := placeLimit_cases target symbol side price qty outcome w
  · rw [hrun]
    refine ⟨fun hhalt => hhalt.same rfl, buysOf_others rfl fun o ho hsession hbuy => ?_⟩
    obtain rfl := List.mem_singleton.mp ho
    have hnot := h hsession hbuy
    rw [hout] at hnot
    cases hnot
  · rw [hrun]
    refine ⟨fun hhalt => hhalt.same rfl, buysOf_others rfl fun o ho hsession hbuy => ?_⟩
    split_ifs at ho with hreached
    · obtain rfl := List.mem_singleton.mp ho
      rw [h hsession hbuy] at hreached
      cases hreached
    · cases ho

theorem keepsHalt_startSlot {id : Nat} {t : GridSession} (hid : t.id ≠ id) (price : Rat)
    (outcome : GridPlaceOutcome) (slot : GridSlotRecord) (w : GridWorld) :
    KeepsHalt id w (startSlot t price outcome slot w).2 := by
  unfold startSlot
  dsimp only
  by_cases habove : price ≤ slot.buyPrice
  · rw [if_pos habove]
    exact .refl id w
  · rw [if_neg habove]
    by_cases hwait : slot.status = .waitingBuy ∧ slot.buyOrderId = none
    · rw [if_pos hwait]
      have hkeeps := keepsHalt_placeLimit id ⟨t.id, slot.id⟩ t.symbol .buy slot.buyPrice
        (slotUnits t.config slot) outcome w fun h => absurd h hid
      split
      · next heq =>
        rw [heq] at hkeeps
        exact hkeeps
      · next heq =>
        rw [heq] at hkeeps
        exact hkeeps
    · rw [if_neg hwait]
      exact .refl id w

theorem KeepsHalt.commitStart {id : Nat} {t : GridSession} (hid : t.id ≠ id) (done : SlotWrites)
    (st : GridStore) : KeepsHalt id st.world (st.commitStart t done).world where
  halted := by
    intro h
    have hslots := (KeepsHalt.commitSlots id done st.world).halted h
    refine hslots.map (f := fun row => if row.id = t.id then
      { row with status := written t.status .active row.status } else row) ?_ ?_ rfl
    · intro row
      split_ifs <;> rfl
    · intro row hrow hst
      rw [if_neg fun hsame => hid (hsame.symm.trans hrow)]
      exact hst
  buys := rfl

theorem keepsHalt_cancelAllOrders (id : Nat) (symbol : String) (io : GridStopIo) (w : GridWorld) :
    KeepsHalt id w (cancelAllOrders symbol io w).2 := by
  unfold cancelAllOrders
  split_ifs
  · rw [(cancelOrders_spec io.cancel _ w).1]
    exact ⟨fun h => h.same rfl, buysOf_map (fun _ => .ite _) rfl⟩
  · exact .refl id w

theorem ControlEvent.keepsHalt (id : Nat) (w : GridWorld) (e : ControlEvent) :
    KeepsHalt id w (gridStep w e.toStep) := by
  cases e with
  | created req => exact ⟨fun h => h.created rfl, rfl⟩
  | filled orderId => exact ⟨fun h => h.same rfl, buysOf_map (fun _ => .ite _) rfl⟩

theorem GridTask.keepsHalt {c : GridTask} {st : GridStore} {id : Nat}
    (hstart : (ControlTask.grid c).isStartOf id = false) (hhalt : Halted id st.world)
    (hbefore : ¬ (ControlTask.grid c).replacesHaltedSell st.world) :
    KeepsHalt id st.world (c.next st).1.world := by
  cases c with
  | placing t price place done pending =>
    have hid : t.id ≠ id := by simpa [ControlTask.isStartOf] using hstart
    cases pending with
    | nil => exact .commitStart hid done st
    | cons slot pending =>
      have hslot := keepsHalt_startSlot hid price (place slot.id) slot st.world
      simp only [next]
      split <;>
      · next heq =>
        rw [heq] at hslot
        exact hslot
  | found event outcome session slot =>
    simp only [next]
    cases hside : event.side with
    | none => exact .refl id st.world
    | some side =>
      have hplace := keepsHalt_placeLimit id ⟨session, slot.id⟩ event.symbol side.opposite
        (slot.priceOn side.opposite) (slot.units.getD 0) outcome st.world (by
          rintro rfl hbuy
          obtain rfl : side = .sell := by cases side <;> trivial
          by_contra hreached
          exact hbefore ⟨hside, by simpa using hreached, hhalt⟩)
      rw [← placeReplacement_eq] at hplace
      dsimp only
      split <;>
      · next heq =>
        rw [heq] at hplace
        exact hplace
  | replaced orderId side slot replacement => exact .commitSlots id _ st.world
  | starting id' io =>
    have hsame : (next (.starting id' io) st).1 = st := by
      simp only [next]
      split
      · rfl
      · split_ifs
        · rfl
        · split <;> rfl
    rw [hsame]
    exact .refl id st.world
  | notified orderId outcome =>
    have hsame : (next (.notified orderId outcome) st).1 = st := by
      simp only [next]
      split <;> rfl
    rw [hsame]
    exact .refl id st.world
  | handling event outcome =>
    have hsame : (next (.handling event outcome) st).1 = st := by
      simp only [next]
      split <;> rfl
    rw [hsame]
    exact .refl id st.world
  | finished | ended => exact .refl id st.world

/-- The other pieces leave a halted session halted, and send no buy order for it. -/
theorem ControlTask.keepsHalt {c : ControlTask} {st : GridStore} {id : Nat}
    (hstart : c.isStartOf id = false) (h : Halted id st.world → ¬ c.replacesHaltedSell st.world) :
    Halted id st.world → KeepsHalt id st.world (c.next st).1.world := by
  intro hhalt
  cases c with
  | grid c =>
    exact GridTask.keepsHalt hstart hhalt (h hhalt)
  | evaluating id' price limit io =>
    simp only [next]
    split
    · exact .refl id st.world
    · split <;> exact .refl id st.world
  | breakout id' =>
    simp only [next]
    split
    · exact .refl id st.world
    · split_ifs <;> exact .refl id st.world
  | pausing id' =>
    simp only [next]
    split <;> exact .refl id st.world
  | stopping id' io =>
    simp only [next]
    split
    · exact .refl id st.world
    · next s _ =>
      have hcancel := keepsHalt_cancelAllOrders id s.symbol io st.world
      split <;>
      · next heq =>
        rw [heq] at hcancel
        exact hcancel
  | halting s halt =>
    refine ⟨fun hh => hh.map (f := fun row => if row.id = s.id then
      { row with status := written s.status halt.status row.status } else row) ?_ ?_ rfl, rfl⟩
    · intro row
      split_ifs <;> rfl
    · intro row _ hst
      split_ifs
      · unfold written
        split_ifs
        · exact hst
        · exact halt.status_ne
      · exact hst
  | ended => exact .refl id st.world

/-- The replacement of a sell order that reaches the exchange is a new buy order. -/
theorem ControlTask.replaced_buys {event : GridOrderFillEvent} {outcome : GridPlaceOutcome}
    {session : Nat} {slot : GridSlotRecord} (st : GridStore) (hside : event.side = some .sell)
    (hreached : outcome.reached = true) :
    buysOf session (next (.grid (.found event outcome session slot)) st).1.world =
      buysOf session st.world ++ [st.world.issued] := by
  have hsent : ∀ w' : GridWorld, w'.orders = st.world.orders ++
      [limitOrder ⟨session, slot.id⟩ event.symbol .buy slot.buyPrice (slot.units.getD 0) st.world.issued] →
      buysOf session w' = buysOf session st.world ++ [st.world.issued] := by
    intro w' h
    rw [buysOf_append h]
    simp [limitOrder]
  simp only [next, GridTask.next, hside, placeReplacement]
  obtain ⟨-, hrun⟩ | ⟨-, e, hrun⟩ := placeLimit_cases ⟨session, slot.id⟩ event.symbol .buy
    slot.buyPrice (slot.units.getD 0) outcome st.world
  · rw [hrun]
    exact hsent _ rfl
  · rw [hrun, if_pos hreached]
    exact hsent _ rfl

/-- An act that is no piece of a start, and none of a handler that replaces a sell order. -/
theorem keepsHalt_step {s : ControlState} {act : ControlAct} {id : Nat} (hhalt : Halted id s.store.world)
    (hstart : ¬ Starts id s act) (h : SellFillsActive s act) :
    KeepsHalt id s.store.world (Sessions.step controlSystem s act).store.world := by
  cases act with
  | start call => exact .refl id _
  | event e => exact e.keepsHalt id _
  | advance i =>
    cases hc : s.sessions[i]? with
    | none =>
      simp only [Sessions.step, hc]
      exact .refl id _
    | some c =>
      have hnot : c.isStartOf id = false := by
        by_contra hyes
        exact hstart ⟨c, hc, by simpa using hyes⟩
      simp only [Sessions.step, hc]
      exact ControlTask.keepsHalt hnot (fun _ => h c hc) hhalt

theorem haltedSendsNone_iff (s : ControlState) (act : ControlAct) :
    HaltedSendsNone s act ↔ SellFillsActive s act := by
  constructor
  · intro h
    cases act with
    | start | event => trivial
    | advance i =>
      intro c hc hbad
      cases c with
      | grid c =>
        cases c with
        | found event outcome session slot =>
          obtain ⟨hside, hreached, hhalt⟩ := hbad
          have hnew := @ControlTask.replaced_buys event outcome session slot s.store hside hreached
          have hsame := h session hhalt (by
            rintro ⟨c', hc', hstarts⟩
            obtain rfl := Option.some.inj (hc.symm.trans hc')
            cases hstarts)
          have hstep : (Sessions.step controlSystem s (.advance i)).store = (ControlTask.next
              (.grid (.found event outcome session slot)) s.store).1 := by
            rw [Option.mem_def] at hc
            simp only [Sessions.step, hc]
            rfl
          rw [hstep, hnew] at hsame
          simp at hsame
        | _ => exact hbad
      | _ => exact hbad
  · intro h id hhalt hstart
    exact (keepsHalt_step hhalt hstart h).buys

/-- Until it is started again, a halted session gets no buy order. -/
theorem buysOf_run {id : Nat} {s : ControlState} {acts : List ControlAct}
    (hhalt : Halted id s.store.world)
    (h : Runs.Meets (Sessions.step controlSystem) SellFillsActive s acts)
    (hstart : Runs.Meets (Sessions.step controlSystem) (fun s act => ¬ Starts id s act) s acts) :
    buysOf id (Runs.run (Sessions.step controlSystem) s acts).store.world = buysOf id s.store.world := by
  induction acts generalizing s with
  | nil => rfl
  | cons act acts ih =>
    have hkeeps := keepsHalt_step hhalt hstart.1 h.1
    exact (ih (hkeeps.halted hhalt) h.2 hstart.2).trans hkeeps.buys

/-- In turns with its starts and with the handlers of its fills, a halted grid places no buy
order if and only if no handler replaces a sell order of it. Alone, each call does what its
function does (`ControlCall.alone`). -/
theorem haltsKept_iff (s : ControlState) (acts : List ControlAct) :
    HaltsKept s acts ↔ Runs.Meets (Sessions.step controlSystem) SellFillsActive s acts := by
  constructor
  · intro h
    exact h.each.mono fun s act => (haltedSendsNone_iff s act).mp
  · intro h
    refine ⟨h.mono fun s act => (haltedSendsNone_iff s act).mpr, ?_⟩
    rintro id before rest rfl hhalt hstart
    have hrest := h.of_append
    rw [Runs.run_append]
    exact buysOf_run hhalt hrest.2 hstart

/-- A session of one level is started, its buy order fills, and the fill is handled: it waits
for its sell order. -/
def cycleStarted : List ControlAct :=
  [.event (.created demoGridRequest), .start (.grid (.start 0 (demoGridStart 2))), .advance 0,
    .advance 0, .advance 0, .event (.filled 2), .start (.grid (.message 2 .accepted)), .advance 1,
    .advance 1, .advance 1, .advance 1]

/-- The risk check pauses the session at a price of half the capital, the sell order fills, and
its handler sends a buy order. -/
theorem haltsKept_fails : ¬ HaltsKept ⟨{}, []⟩ (cycleStarted ++
    [.start (.evaluateRisk 0 (1 / 2) 35 ⟨true, fun _ => .returned⟩), .advance 2, .advance 2, .advance 2] ++
    [.event (.filled 3), .start (.grid (.message 3 .accepted)), .advance 3, .advance 3, .advance 3]) := by
  intro h
  have hsame := h.after 0 _ _ rfl (by decide +kernel) (by decide +kernel)
  exact absurd hsame (by decide +kernel)

/-- A stop cancels the sell order, so nothing is handled afterwards. -/
example : Runs.Meets (Sessions.step controlSystem) SellFillsActive ⟨{}, []⟩ (cycleStarted ++
    [.start (.stop 0 ⟨true, fun _ => .returned⟩), .advance 2, .advance 2, .event (.filled 3),
      .start (.grid (.message 3 .accepted)), .advance 3]) := by
  decide +kernel

end AmaExecutionCore
