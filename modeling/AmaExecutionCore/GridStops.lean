import AmaExecutionCore.System
import AmaExecutionCore.GridRuns

/-! A grid and the spot trades on one exchange account: what the stop of a session leaves
alone, when the open orders of its symbol are of several owners. -/
namespace AmaExecutionCore
open GridRunner

/-- The grid and the trades of one account. -/
structure Account where
  grid : GridWorld
  world : World

/-- An order of the account, by its owner. -/
inductive AccountOrderId where
  | grid (id : GridOrderId)
  | trade (link : OrderLinkId)
  deriving DecidableEq, Repr

def SentOrder.cancelled (o : SentOrder) : SentOrder :=
  match o.state with
  | .live executed => { o with state := .cancelled executed }
  | _ => o

/-- What `stop` meets: the list of open orders, and how the cancel calls end. The exchange
shows open orders only; which of them, and in which order, is its own business. -/
structure AccountStopIo where
  answer : Option (List AccountOrderId)
  cancel : AccountOrderId → GridCancelOutcome

namespace Account

def openOrders (symbol : String) (a : Account) : List AccountOrderId :=
  (openGridOrders symbol a.grid).map .grid ++
    (a.world.exchange.orders.filter fun o =>
      o.request.category = .spot && o.request.symbol = symbol && o.isLive).map fun o => .trade o.linkId

/-- The exchange takes these orders off its book. -/
def cancelAll (ids : List AccountOrderId) (a : Account) : Account where
  grid := { a.grid with orders := a.grid.orders.map fun o =>
    if AccountOrderId.grid o.id ∈ ids ∧ o.state = .live then { o with state := .cancelled } else o }
  world := { a.world with exchange := { a.world.exchange with
    orders := a.world.exchange.orders.map fun o => if AccountOrderId.trade o.linkId ∈ ids then o.cancelled else o } }

/-- The loop of `cancel_all_orders`; a call that raises ends it. -/
def cancelOrders (cancel : AccountOrderId → GridCancelOutcome) :
    List AccountOrderId → Account → Except GridError Unit × Account
  | [], a => (.ok (), a)
  | id :: ids, a =>
    match cancel id with
    | .returned => cancelOrders cancel ids (a.cancelAll [id])
    | .raised reached => (.error .bybit, if reached then a.cancelAll [id] else a)

/-- The answer of `get_open_orders`. -/
def listed (symbol : String) (ids : List AccountOrderId) (a : Account) : List AccountOrderId :=
  ids.filter fun id => id ∈ a.openOrders symbol

def cancelAllOrders (symbol : String) (io : AccountStopIo) (a : Account) :
    Except GridError Unit × Account :=
  match io.answer with
  | none => (.error .bybit, a)
  | some ids => cancelOrders io.cancel (a.listed symbol ids) a

/-- `GridRunner.stop`. -/
def stop (id : Nat) (io : AccountStopIo) (a : Account) : Except GridError Unit × Account :=
  match a.grid.loadSession id with
  | none => (.error (.sessionNotFound id), a)
  | some s =>
    match cancelAllOrders s.symbol io a with
    | (.error e, a) => (.error e, a)
    | (.ok _, a) => (.ok (), { a with grid := a.grid.setStatus id .stopped })

def Records (id : Nat) (w : GridWorld) (x : GridOrderId) : Prop :=
  ∃ s ∈ w.loadSession id, ∃ slot ∈ s.slots, slot.Names x

instance (id : Nat) (w : GridWorld) (x : GridOrderId) : Decidable (Records id w x) :=
  decidable_of_iff (∃ s ∈ w.loadSession id, ∃ slot ∈ s.slots,
    slot.buyOrderId = some x ∨ slot.sellOrderId = some x) (by simp only [Records, names_iff])

/-- Only orders of the session are cancelled, and only its row changes. -/
structure StopsOwn (id : Nat) (a a' : Account) : Prop where
  orders : List.Forall₂ (fun o o' => o' = o ∨ Records id a.grid o.id) a.grid.orders a'.grid.orders
  sessions : List.Forall₂ (fun s s' => s' = s ∨ s.id = id) a.grid.sessions a'.grid.sessions
  world : a'.world = a.world

def cancelledOrders (cancel : AccountOrderId → GridCancelOutcome) :
    List AccountOrderId → List AccountOrderId
  | [] => []
  | id :: ids =>
    match cancel id with
    | .returned => id :: cancelledOrders cancel ids
    | .raised reached => if reached then [id] else []

def stopCancels (id : Nat) (io : AccountStopIo) (a : Account) : List AccountOrderId :=
  match a.grid.loadSession id, io.answer with
  | some s, some ids => cancelledOrders io.cancel (a.listed s.symbol ids)
  | _, _ => []

/-- The open orders of the symbol that the exchange shows are the session's own, up to a cancel
call that raises. -/
def OwnOrders (id : Nat) (io : AccountStopIo) (a : Account) : Prop :=
  ∀ x ∈ a.stopCancels id io, ∃ g, x = .grid g ∧ Records id a.grid g

/-! What a stop does -/

theorem cancelled_cancelled (o : SentOrder) : o.cancelled.cancelled = o.cancelled := by
  unfold SentOrder.cancelled
  cases h : o.state <;> simp [h]

theorem cancelled_linkId (o : SentOrder) : o.cancelled.linkId = o.linkId := by
  unfold SentOrder.cancelled
  split <;> rfl

theorem cancelAll_nil (a : Account) : a.cancelAll [] = a := by
  simp [cancelAll]

theorem cancelAll_cons (id : AccountOrderId) (ids : List AccountOrderId) (a : Account) :
    (a.cancelAll [id]).cancelAll ids = a.cancelAll (id :: ids) := by
  simp only [cancelAll, List.map_map]
  congr 3
  · funext o
    dsimp only [Function.comp]
    by_cases hlive : o.state = .live
    · by_cases hid : AccountOrderId.grid o.id = id
      · simp [hid, hlive]
      · simp [hid, hlive]
    · simp [hlive]
  · refine List.map_congr_left fun o _ => ?_
    dsimp only [Function.comp]
    by_cases hid : AccountOrderId.trade o.linkId = id
    · simp [hid, cancelled_linkId, cancelled_cancelled]
    · simp [hid]

theorem cancelOrders_spec (cancel : AccountOrderId → GridCancelOutcome) (ids : List AccountOrderId)
    (a : Account) : (cancelOrders cancel ids a).2 = a.cancelAll (cancelledOrders cancel ids) := by
  induction ids generalizing a with
  | nil => exact (cancelAll_nil a).symm
  | cons id ids ih =>
    rw [cancelOrders, cancelledOrders]
    cases cancel id with
    | returned => rw [ih, cancelAll_cons]
    | raised reached =>
      cases reached
      · exact (cancelAll_nil a).symm
      · rfl

theorem cancelledOrders_subset (cancel : AccountOrderId → GridCancelOutcome)
    (ids : List AccountOrderId) : ∀ x ∈ cancelledOrders cancel ids, x ∈ ids := by
  induction ids with
  | nil => simp [cancelledOrders]
  | cons id ids ih =>
    intro x hx
    rw [cancelledOrders] at hx
    split at hx
    · obtain rfl | hx := List.mem_cons.mp hx
      · exact List.mem_cons_self
      · exact List.mem_cons_of_mem _ (ih x hx)
    · split_ifs at hx
      · obtain rfl := List.mem_singleton.mp hx
        exact List.mem_cons_self
      · cases hx

/-- A stop cancels orders, and may set the status of its session. -/
theorem stop_spec (id : Nat) (io : AccountStopIo) (a : Account) :
    (stop id io a).2.world = (a.cancelAll (a.stopCancels id io)).world ∧
      (stop id io a).2.grid.orders = (a.cancelAll (a.stopCancels id io)).grid.orders ∧
      ((stop id io a).2.grid.sessions = a.grid.sessions ∨
        (stop id io a).2.grid.sessions = (a.grid.setStatus id .stopped).sessions) := by
  unfold stop stopCancels
  cases hs : a.grid.loadSession id with
  | none => simp [cancelAll_nil]
  | some s =>
    dsimp only [cancelAllOrders]
    cases io.answer with
    | none => simp [cancelAll_nil]
    | some ids =>
      dsimp only
      have hspec := cancelOrders_spec io.cancel (a.listed s.symbol ids) a
      cases hrun : cancelOrders io.cancel (a.listed s.symbol ids) a with
      | mk result a' =>
        rw [hrun] at hspec
        obtain rfl := hspec
        cases result with
        | error e => exact ⟨rfl, rfl, .inl rfl⟩
        | ok u => exact ⟨rfl, rfl, .inr rfl⟩

theorem stopCancels_open {id : Nat} {io : AccountStopIo} {a : Account} {x : AccountOrderId}
    (h : x ∈ a.stopCancels id io) : ∃ symbol, x ∈ a.openOrders symbol := by
  unfold stopCancels at h
  split at h
  · next s ids _ _ =>
    have hlisted := cancelledOrders_subset _ _ x h
    exact ⟨s.symbol, by simpa using (List.mem_filter.mp hlisted).2⟩
  · cases h

theorem live_of_open {symbol : String} {a : Account} {x : AccountOrderId} (h : x ∈ a.openOrders symbol) :
    (∃ o ∈ a.grid.orders, x = .grid o.id ∧ o.state = .live) ∨
      ∃ o ∈ a.world.exchange.orders, x = .trade o.linkId ∧ o.cancelled ≠ o := by
  obtain h | h := List.mem_append.mp h
  · obtain ⟨g, hg, rfl⟩ := List.mem_map.mp h
    obtain ⟨o, ho, rfl⟩ := List.mem_map.mp hg
    obtain ⟨ho, hlive⟩ := List.mem_filter.mp ho
    simp only [Bool.and_eq_true, GridOrder.isLive, decide_eq_true_eq] at hlive
    exact .inl ⟨o, ho, rfl, hlive.2⟩
  · obtain ⟨o, ho, rfl⟩ := List.mem_map.mp h
    obtain ⟨ho, hlive⟩ := List.mem_filter.mp ho
    simp only [Bool.and_eq_true] at hlive
    refine .inr ⟨o, ho, rfl, fun hsame => ?_⟩
    have hstate := congrArg SentOrder.state hsame
    unfold SentOrder.cancelled at hstate
    split at hstate
    · next executed hst =>
      rw [hst] at hstate
      cases hstate
    · next hst =>
      have hlive := hlive.2
      unfold SentOrder.isLive OrderState.isLive at hlive
      split at hlive
      · next executed hst' => exact hst executed hst'
      · cases hlive

/-- The stop of a session leaves everything else alone if and only if the open orders it cancels
are the session's own. -/
theorem stopsOwn_iff (id : Nat) (io : AccountStopIo) (a : Account) :
    StopsOwn id a (stop id io a).2 ↔ OwnOrders id io a := by
  obtain ⟨hworld, horders, hsessions⟩ := stop_spec id io a
  constructor
  · intro h x hx
    obtain ⟨symbol, hopen⟩ := stopCancels_open hx
    obtain ⟨o, ho, rfl, hlive⟩ | ⟨o, ho, rfl, hmoves⟩ := live_of_open hopen
    · have hall := h.orders
      rw [horders, cancelAll, List.forall₂_map_right_iff, List.forall₂_same] at hall
      obtain hsame | hown := hall o ho
      · rw [if_pos ⟨hx, hlive⟩] at hsame
        have hstate := congrArg GridOrder.state hsame
        rw [hlive] at hstate
        cases hstate
      · exact ⟨o.id, rfl, hown⟩
    · have hsame := congrArg (fun w : World => w.exchange.orders) (hworld.symm.trans h.world)
      dsimp only [cancelAll] at hsame
      have ho' := List.map_inj_left.mp (hsame.trans (List.map_id _).symm) o ho
      rw [if_pos hx] at ho'
      exact absurd ho' hmoves
  · intro h
    have hgrid : ∀ o : GridOrder, AccountOrderId.grid o.id ∈ a.stopCancels id io →
        Records id a.grid o.id := by
      intro o ho
      obtain ⟨g, hg, hown⟩ := h _ ho
      obtain rfl := AccountOrderId.grid.inj hg
      exact hown
    have htrade : ∀ o : SentOrder, AccountOrderId.trade o.linkId ∉ a.stopCancels id io := by
      intro o ho
      obtain ⟨g, hg, -⟩ := h _ ho
      cases hg
    refine ⟨?_, ?_, ?_⟩
    · rw [horders, cancelAll, List.forall₂_map_right_iff, List.forall₂_same]
      intro o _
      by_cases ho : AccountOrderId.grid o.id ∈ a.stopCancels id io
      · exact .inr (hgrid o ho)
      · exact .inl (if_neg fun hc => ho hc.1)
    · obtain hsame | hset := hsessions
      · rw [hsame]
        exact List.forall₂_same.mpr fun s _ => .inl rfl
      · rw [hset, GridWorld.setStatus, List.forall₂_map_right_iff, List.forall₂_same]
        intro s _
        by_cases hs : s.id = id
        · exact .inr hs
        · exact .inl (if_neg hs)
    · rw [hworld, cancelAll]
      simp [htrade]

/-- When only the session's grid has orders on the account, this is `GridRunner.stop`. -/
theorem stop_grid (id : Nat) (cancel : AccountOrderId → GridCancelOutcome) (a : Account)
    {s : GridSession} (hs : a.grid.loadSession id = some s) :
    (stop id ⟨some ((openGridOrders s.symbol a.grid).map .grid), cancel⟩ a).2.grid =
      (GridRunner.stop id ⟨true, fun x => cancel (.grid x)⟩ a.grid).2 := by
  have hloop : ∀ (ids : List GridOrderId) (a : Account),
      (cancelOrders cancel (ids.map .grid) a).1 =
        (AmaExecutionCore.cancelOrders (fun x => cancel (.grid x)) ids a.grid).1 ∧
      (cancelOrders cancel (ids.map .grid) a).2.grid =
        (AmaExecutionCore.cancelOrders (fun x => cancel (.grid x)) ids a.grid).2 := by
    intro ids
    induction ids with
    | nil => exact fun a => ⟨rfl, rfl⟩
    | cons x ids ih =>
      intro a
      have hone : (a.cancelAll [.grid x]).grid = cancelGridOrder x a.grid := by
        simp [cancelAll, cancelGridOrder]
      rw [List.map_cons, cancelOrders, AmaExecutionCore.cancelOrders]
      cases cancel (.grid x) with
      | returned =>
        rw [← hone]
        exact ih _
      | raised reached => cases reached <;> simp [hone]
  have hall : a.listed s.symbol ((openGridOrders s.symbol a.grid).map .grid) =
      (openGridOrders s.symbol a.grid).map .grid := by
    refine List.filter_eq_self.mpr fun x hx => ?_
    exact decide_eq_true (List.mem_append_left _ hx)
  obtain ⟨hresult, hrun⟩ := hloop (openGridOrders s.symbol a.grid) a
  simp only [stop, GridRunner.stop, hs, cancelAllOrders, AmaExecutionCore.cancelAllOrders, hall, if_true]
  generalize cancelOrders cancel _ a = p at hresult hrun ⊢
  generalize AmaExecutionCore.cancelOrders _ _ a.grid = q at hresult hrun ⊢
  obtain ⟨result, a'⟩ := p
  obtain ⟨result', w'⟩ := q
  obtain rfl : result = result' := hresult
  obtain rfl : a'.grid = w' := hrun
  cases result <;> rfl

/-- Two sessions of one level on XRPUSDT, both started. -/
def twoGrids : GridWorld :=
  Runs.run gridStep {} [.create demoGridRequest, .create demoGridRequest, .start 0 (demoGridStart 2),
    .start 2 (demoGridStart 2)]

def allReturn (ids : List AccountOrderId) : AccountStopIo := ⟨some ids, fun _ => .returned⟩

/-- The stop of the first session cancels the order of the second. -/
theorem stopsOwn_fails : ¬ StopsOwn 0 ⟨twoGrids, {}⟩
    (stop 0 (allReturn [.grid 4, .grid 5]) ⟨twoGrids, {}⟩).2 := by
  intro h
  exact absurd h.orders (by decide +kernel)

/-- A spot position in XRPUSDT with its stop and take-profit orders. -/
def spotPosition : World :=
  Runs.run (step (demoEnv .takerAllowed)) {}
    [.executeSignal { demoRequest with symbol := "XRPUSDT" } (demoExecute (.accepted none) (.ok none)),
      .settle (.generated (some 0) 2) .filled, .processOrder demoEntryFill (demoHandler 1)]

/-- The stop of a grid takes the protection of a spot position off the book. -/
example : let a : Account := ⟨Runs.run gridStep {} [.create demoGridRequest, .start 0 (demoGridStart 2)],
      spotPosition⟩
    (a.openOrders "XRPUSDT").length = 3 ∧
      ((stop 0 (allReturn (a.openOrders "XRPUSDT")) a).2.openOrders "XRPUSDT") = [] := by
  decide +kernel

end Account
end AmaExecutionCore
