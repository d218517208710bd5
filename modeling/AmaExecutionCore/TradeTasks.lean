import AmaExecutionCore.Sessions
import AmaExecutionCore.Columns
import AmaExecutionCore.Commits

/-! The handlers of one trade as database sessions that take turns. An order event locks the
row when it loads it; the others load it without a lock, may find it changed when they write,
and hold it from their first write to their commit. -/
namespace AmaExecutionCore
open TradeStatus

/-- A handler of the trade, with the answers it will get. -/
inductive TradeTask where
  | reconcile (answer : StatusOutcome) (io : HandlerIo)
  | protect (io : HandlerIo)
  | event (data : OrderData) (io : HandlerIo)
  | close (exitReason : ExitReason) (io : CloseIo)

/-- `loaded` is the row as the session read it, `flushed` what it made of it; a session that
raised is not committed. -/
inductive TaskStage where
  | called
  | loaded (row : Trade)
  | flushed (row : Trade) (commits : Bool) (k : Work)
  | finished

structure TaskSession where
  task : TradeTask
  stage : TaskStage := .called

/-- The world, and whether a session holds the row of the trade. -/
structure TradeStore where
  world : World
  locked : Bool := false

namespace TradeTask

/-- The committed row the handler goes on with. An event about another trade, and a pass or
a close that leaves the trade out, have nothing to do. -/
def find (env : Env) (id : TradeId) (w : World) : TradeTask → Option Trade
  | .reconcile _ _ => (w.db.getTrade id).filter fun t =>
      env.restClient && t.trackedOrderLinkId.isSome
  | .protect _ => (w.db.getTrade id).filter fun t =>
      env.restClient && Db.missingProtection t && t.orderLinkId.isSome
  | .event data _ =>
    match data.orderLinkId, orderStatusMap data.orderStatus with
    | some link, some _ => (w.db.getTradeByOrderLinkId link).toOption.join.filter fun t => t.id = id
    | _, _ => none
  | .close _ _ => (w.db.getTrade id).filter fun t => t.status ∈ closeRetryableStatuses

/-- `for_update`. -/
def locks : TradeTask → Bool
  | .event _ _ => true
  | _ => false

/-- What the handler makes of the row it loaded, and whether it commits that. A pass logs an
exception and commits what is left; an answer without a mapped status changes nothing. -/
def act (env : Env) (k : Work) : TradeTask → Option (Bool × Work)
  | .reconcile answer io =>
    match answered k.trade.trackedOrderLinkId answer with
    | none => none
    | some data =>
      if orderStatusMap data.orderStatus = none then none
      else some (true, (applyOrderUpdate env.restClient io data k).2)
  | .protect io => some (true, (ensureSpotMarketProtection env.restClient io k).2)
  | .event data io =>
    some ((applyOrderUpdate env.restClient io data k).1.isOk,
      (applyOrderUpdate env.restClient io data k).2)
  | .close exitReason io =>
    some ((submitClose env.settings.tradingMode exitReason io k).1.isOk,
      (submitClose env.settings.tradingMode exitReason io k).2)

end TradeTask

namespace TaskSession

def atStage (c : TaskSession) (stage : TaskStage) : TaskSession := { c with stage := stage }

/-- One turn. What a session sends is at the exchange before it commits; one that needs the
row while another holds it waits. -/
def next (env : Env) (id : TradeId) (c : TaskSession) (s : TradeStore) : TradeStore × TaskSession :=
  match c.stage with
  | .called =>
    match c.task.find env id s.world with
    | none => (s, c.atStage .finished)
    | some row =>
      if c.task.locks = true ∧ s.locked = true then (s, c)
      else ({ s with locked := s.locked || c.task.locks }, c.atStage (.loaded row))
  | .loaded row =>
    match c.task.act env (s.world.work row) with
    | none => (s, c.atStage .finished)
    | some (commits, k) =>
      if c.task.locks = false ∧ s.locked = true then (s, c)
      else (⟨{ s.world with exchange := k.exchange }, true⟩, c.atStage (.flushed row commits k))
  | .flushed row commits k =>
    let w := if commits then s.world.commitLoaded row k else s.world.rollback k
    (⟨{ w with exchange := s.world.exchange }, false⟩, c.atStage .finished)
  | .finished => (s, c)

def holding (c : TaskSession) : Bool :=
  match c.stage with
  | .loaded _ => c.task.locks
  | .flushed _ _ _ => true
  | _ => false

def isFinished (c : TaskSession) : Bool :=
  match c.stage with
  | .finished => true
  | _ => false

inductive Turn (env : Env) (id : TradeId) (c : TaskSession) (s : TradeStore) :
    TradeStore × TaskSession → Prop
  | waits : Turn env id c s (s, c)
  | misses (hstage : c.stage = .called) (hfind : c.task.find env id s.world = none) :
      Turn env id c s (s, c.atStage .finished)
  | loads {row} (hstage : c.stage = .called) (hfind : c.task.find env id s.world = some row)
      (hfree : c.task.locks = true → s.locked = false) :
      Turn env id c s ({ s with locked := s.locked || c.task.locks }, c.atStage (.loaded row))
  | idles {row} (hstage : c.stage = .loaded row) (hact : c.task.act env (s.world.work row) = none) :
      Turn env id c s (s, c.atStage .finished)
  | writes {row commits k} (hstage : c.stage = .loaded row)
      (hact : c.task.act env (s.world.work row) = some (commits, k))
      (hfree : c.task.locks = false → s.locked = false) :
      Turn env id c s (⟨{ s.world with exchange := k.exchange }, true⟩,
        c.atStage (.flushed row commits k))
  | leaves {row commits k} (hstage : c.stage = .flushed row commits k) :
      Turn env id c s (⟨{ (if commits then s.world.commitLoaded row k else s.world.rollback k) with
        exchange := s.world.exchange }, false⟩, c.atStage .finished)

theorem next_turn (env : Env) (id : TradeId) (c : TaskSession) (s : TradeStore) :
    Turn env id c s (c.next env id s) := by
  unfold next
  split
  · next hstage =>
    split
    · next hfind => exact .misses hstage hfind
    · next row hfind =>
      split_ifs with hwait
      · exact .waits
      · refine .loads hstage hfind fun hlocks => ?_
        simpa [hlocks] using hwait
  · next row hstage =>
    split
    · next hact => exact .idles hstage hact
    · next commits k hact =>
      split_ifs with hwait
      · exact .waits
      · refine .writes hstage hact fun hlocks => ?_
        simpa [hlocks] using hwait
  · next row commits k hstage => exact .leaves hstage
  · exact .waits

end TaskSession

/-- The handlers of the trade `id`, next to events that change the store on their own. -/
def taskSystem {E : Type} (handle : TradeStore → E → TradeStore) (env : Env) (id : TradeId) :
    Sessions.System TradeStore TaskSession TradeTask E where
  start := fun task => { task := task }
  next := TaskSession.next env id
  handle := handle

namespace TradeTask

/-- The handler with nobody in between. -/
def alone (env : Env) (id : TradeId) (w : World) (task : TradeTask) : World :=
  let first := TaskSession.next env id ⟨task, .called⟩ ⟨w, false⟩
  let second := first.2.next env id first.1
  (second.2.next env id second.1).1.world

/-- It acts on the row it finds, and commits that or is rolled back. -/
theorem alone_eq (env : Env) (id : TradeId) (w : World) (task : TradeTask) :
    task.alone env id w = match (task.find env id w).bind fun row =>
        (task.act env (w.work row)).map fun done => (row, done) with
      | none => w
      | some (row, true, k) => w.commitLoaded row k
      | some (_, false, k) => w.rollback k := by
  simp only [alone, TaskSession.next]
  cases hfind : task.find env id w with
  | none => simp [TaskSession.atStage]
  | some row =>
    simp only [TaskSession.atStage, Bool.false_eq_true, and_false, if_false, Bool.false_or,
      Option.bind_some]
    cases hact : task.act env (w.work row) with
    | none => rfl
    | some done =>
      obtain ⟨commits, k⟩ := done
      simp only [Option.map_some]
      rw [if_neg (by cases task.locks <;> simp)]
      cases commits <;> rfl

/-- The step of the system that handles the row in the same way. -/
def toStep (row : Trade) : TradeTask → Step
  | .reconcile answer io =>
    if row.status ∈ closeReconciliationStatuses then
      .reconcileCloseOrders (fun _ => answer) fun _ => io
    else .reconcileEntryOrders (fun _ => answer) fun _ => io
  | .protect io => .reconcileMissingProtection fun _ => io
  | .event data io => .processOrder data io
  | .close exitReason io => .closeTrade row.id exitReason io

/-- How a handler that acts on its row ends: it commits, or it raised before or after it sent
an order. -/
inductive Done (env : Env) (w : World) (row : Trade) (s : Step) : Bool → Work → Prop
  | committed {k} (hframe : (w.work row).Frame k) (hmove : Move env s (w.work row) k)
      (hhandled : Handled env w s (w.work row) k) : Done env w row s true k
  | raised {k} (hkept : k.exchange = w.exchange) : Done env w row s false k
  | lost {k} (hframe : (w.work row).Frame k) (hmove : Move env s (w.work row) { k with trade := row }) :
      Done env w row s false k

variable {env : Env} {id : TradeId} {w : World} {row : Trade} {task : TradeTask}

theorem find_congr {w' : World} (h : w'.db = w.db) (task : TradeTask) :
    task.find env id w' = task.find env id w := by
  cases task <;> simp only [find, h]

theorem find_mem (h : task.find env id w = some row) : row ∈ w.db.trades ∧ row.id = id := by
  cases task with
  | event data io =>
    simp only [find] at h
    split at h
    · next link _ _ _ =>
      obtain ⟨hget, hid⟩ := Option.filter_eq_some_iff.mp h
      refine ⟨?_, by simpa using hid⟩
      cases hl : w.db.getTradeByOrderLinkId link with
      | error e => simp [hl, Except.toOption] at hget
      | ok found =>
        obtain rfl : found = some row := by simpa [hl, Except.toOption] using hget
        exact (Db.getTradeByOrderLinkId_mem hl).1
    · cases h
  | _ => exact Db.getTrade_mem (Option.filter_eq_some_iff.mp h).1

theorem answered_some {tracked : Option OrderLinkId} {answer : StatusOutcome} {data : OrderData}
    (h : answered tracked answer = some data) : ∃ link remote, tracked = some link ∧
      answer = .ok (some remote) ∧ data = reconciledData link remote := by
  unfold answered at h
  split at h
  · next link remote => exact ⟨link, remote, rfl, rfl, (Option.some.inj h).symm⟩
  · cases h

theorem reconcile_update {answer : StatusOutcome} (io : HandlerIo) {data : OrderData}
    (hrest : env.restClient = true) (h : answered row.trackedOrderLinkId answer = some data) :
    ((TradeTask.reconcile answer io).toStep row).update env row = some (data, io) ∧
      ¬ ∃ data' io', (TradeTask.reconcile answer io).toStep row = .processOrder data' io' := by
  obtain ⟨link, remote, htracked, hanswer, rfl⟩ := answered_some h
  have hst : row.status ∈ closeReconciliationStatuses ∨
      row.status ∉ closeReconciliationStatuses ∧ row.status ∈ entryReconciliationStatuses := by
    unfold Trade.trackedOrderLinkId at htracked
    split_ifs at htracked with hclose hentry
    · exact .inl hclose
    · exact .inr ⟨hclose, hentry⟩
  obtain hclose | ⟨hclose, hentry⟩ := hst
  · rw [toStep, if_pos hclose]
    exact ⟨reconcileClose_update row link remote hrest hclose htracked hanswer, by simp⟩
  · rw [toStep, if_neg hclose]
    exact ⟨reconcileEntry_update row link remote hrest hentry htracked hanswer, by simp⟩

theorem getTradeByOrderLinkId_of_find {data : OrderData} {io : HandlerIo}
    (h : (TradeTask.event data io).find env id w = some row) : ∃ link, data.orderLinkId = some link ∧
      orderStatusMap data.orderStatus ≠ none ∧ w.db.getTradeByOrderLinkId link = .ok (some row) := by
  simp only [find] at h
  split at h
  · next link _ hlink hstatus =>
    refine ⟨link, hlink, by rw [hstatus]; exact Option.some_ne_none _, ?_⟩
    have hget := (Option.filter_eq_some_iff.mp h).1
    cases hl : w.db.getTradeByOrderLinkId link with
    | error e => simp [hl, Except.toOption] at hget
    | ok found => simpa [hl, Except.toOption] using hget
  · cases h

theorem act_done {commits : Bool} {k : Work} (hfind : task.find env id w = some row)
    (hact : task.act env (w.work row) = some (commits, k)) :
    Done env w row (task.toStep row) commits k := by
  cases task with
  | reconcile answer io =>
    have hrest : env.restClient = true ∧ row.trackedOrderLinkId.isSome = true := by
      simpa using (Option.filter_eq_some_iff.mp hfind).2
    simp only [act, World.work_trade] at hact
    cases hans : answered row.trackedOrderLinkId answer with
    | none => simp [hans] at hact
    | some data =>
      rw [hans] at hact
      dsimp only at hact
      split_ifs at hact
      obtain ⟨rfl, rfl⟩ := Prod.mk.inj (Option.some.inj hact)
      obtain ⟨hupdate, hpass⟩ := reconcile_update io hrest.1 hans
      exact .committed (applyOrderUpdate_frame _ _ _ _)
        (.update hupdate (applyOrderUpdate_updated _ _ _ _) (applyOrderUpdate_filledQty _ _ _ _)
          fun hevent => (hpass hevent).elim)
        (.update hupdate rfl fun hevent => (hpass hevent).elim)
  | protect io =>
    obtain ⟨rfl, rfl⟩ := Prod.mk.inj (Option.some.inj hact)
    have hrest : (env.restClient = true ∧ Db.missingProtection row = true) ∧
        row.orderLinkId.isSome = true := by
      simpa using (Option.filter_eq_some_iff.mp hfind).2
    exact .committed (ensureSpotMarketProtection_frame _ _ _)
      (.protect hrest.1.1 hrest.1.2 (ensureSpotMarketProtection_protection _ _ _)
        (ensureSpotMarketProtection_filledQty _ _ _)) (.protect hrest.1.1 hrest.1.2)
  | event data io =>
    obtain ⟨link, hlink, -, hget⟩ := getTradeByOrderLinkId_of_find hfind
    have hown := (Db.getTradeByOrderLinkId_mem hget).2
    have hupdate : (Step.processOrder data io).update env row = some (data, io) := by
      simp [Step.update, hlink, hown]
    obtain ⟨hok, rfl⟩ := Prod.mk.inj (Option.some.inj hact)
    have hframe := applyOrderUpdate_frame env.restClient io data (w.work row)
    have hup := applyOrderUpdate_updated env.restClient io data (w.work row)
    have hq := applyOrderUpdate_filledQty env.restClient io data (w.work row)
    cases hrun : applyOrderUpdate env.restClient io data (w.work row) with
    | mk result k =>
      rw [hrun] at hok hframe hup hq
      cases result with
      | error e =>
        obtain rfl : false = commits := hok
        exact .raised (applyOrderUpdate_error hrun)
      | ok b =>
        obtain rfl : true = commits := hok
        exact .committed hframe (.update hupdate hup hq fun _ => ⟨b, rfl⟩)
          (.update hupdate hrun fun _ => ⟨b, rfl⟩)
  | close exitReason io =>
    have hst : row.status ∈ closeRetryableStatuses := by
      simpa using (Option.filter_eq_some_iff.mp hfind).2
    obtain ⟨hok, rfl⟩ := Prod.mk.inj (Option.some.inj hact)
    have hframe := submitClose_frame env.settings.tradingMode exitReason io (w.work row)
    have hcl := submitClose_closing env.settings.tradingMode exitReason io (w.work row)
    have hq := submitClose_filledQty env.settings.tradingMode exitReason io (w.work row)
    cases hrun : submitClose env.settings.tradingMode exitReason io (w.work row) with
    | mk result k =>
      rw [hrun] at hok hframe hcl hq
      cases result with
      | error e =>
        obtain rfl : false = commits := hok
        exact .lost hframe (.closeLost hst hcl)
      | ok u =>
        obtain rfl : true = commits := hok
        exact .committed hframe (.closed hst hcl hq) (.closed hst hrun)

/-- Alone, a handler commits its work on the row it found, or sends orders at most. -/
theorem alone_cases (hw : w.WellFormed) (task : TradeTask) : task.alone env id w = w ∨
    ∃ row commits k, task.find env id w = some row ∧
      task.act env (w.work row) = some (commits, k) ∧
      Done env w row (task.toStep row) commits k ∧
      task.alone env id w = if commits then w.commit k else w.rollback k := by
  rw [alone_eq]
  cases hfind : task.find env id w with
  | none => exact .inl rfl
  | some row =>
    cases hact : task.act env (w.work row) with
    | none => exact .inl (by simp [hact])
    | some done =>
      obtain ⟨commits, k⟩ := done
      have hdone := act_done hfind hact
      refine .inr ⟨row, commits, k, rfl, hact, hdone, ?_⟩
      cases hdone with
      | committed hframe =>
        simp only [Option.bind_some, hact, Option.map_some, if_true]
        exact hw.commitLoaded_eq (find_mem hfind).1 hframe.entry.id
      | raised => simp [hact]
      | lost => simp [hact]

/-- The handler has something to write to the row. -/
def writes (row : Trade) : TradeTask → Bool
  | .reconcile answer _ =>
    ((answered row.trackedOrderLinkId answer).bind fun data => orderStatusMap data.orderStatus).isSome
  | _ => true

theorem act_isSome (env : Env) (task : TradeTask) (k : Work) :
    (task.act env k).isSome = task.writes k.trade := by
  cases task with
  | reconcile answer io =>
    simp only [act, writes]
    cases answered k.trade.trackedOrderLinkId answer with
    | none => rfl
    | some data =>
      rw [Option.bind_some]
      dsimp only
      cases orderStatusMap data.orderStatus <;> rfl
  | _ => rfl

theorem writes_of_act {done : Bool × Work} (h : task.act env (w.work row) = some done) :
    task.writes row = true := by
  rw [← World.work_trade row w, ← act_isSome env task, h]
  rfl

theorem locks_of_idle (h : task.writes row = false) : task.locks = false := by
  cases task with
  | reconcile => rfl
  | _ => cases h

/-- An unlocked handler finds the row again as long as it is there. -/
theorem find_again {w' : World} (hfind : task.find env id w = some row) (hlocks : task.locks = false)
    (hget : w'.db.getTrade id = some row) : task.find env id w' = some row := by
  cases task with
  | event data io => cases hlocks
  | _ =>
    simp only [find] at hfind ⊢
    exact Option.filter_eq_some_iff.mpr ⟨hget, (Option.filter_eq_some_iff.mp hfind).2⟩

theorem alone_of_idle (hfind : task.find env id w = some row) (hidle : task.writes row = false)
    (w' : World) : task.alone env id w' = w' := by
  have hact : ∀ k, task.act env k = none := by
    intro k
    rw [← Option.not_isSome_iff_eq_none, act_isSome env task]
    cases task with
    | reconcile answer io =>
      have htracked : row.trackedOrderLinkId.isSome = true := by
        have := (Option.filter_eq_some_iff.mp hfind).2
        simp only [Bool.and_eq_true] at this
        exact this.2
      obtain ⟨link, hlink⟩ := Option.isSome_iff_exists.mp htracked
      simp only [writes, hlink] at hidle ⊢
      cases k.trade.trackedOrderLinkId with
      | none => simp [answered]
      | some link' =>
        cases answer with
        | error e => simp [answered]
        | ok remote =>
          cases remote with
          | none => simp [answered]
          | some remote => simpa [answered, reconciledData] using hidle
    | _ => cases hidle
  rw [alone_eq]
  cases hrow : task.find env id w' with
  | none => rfl
  | some row' => simp [hact]

theorem act_frame {commits : Bool} {k k' : Work} (h : task.act env k = some (commits, k')) :
    k.Frame k' := by
  cases task with
  | reconcile answer io =>
    simp only [act] at h
    split at h
    · cases h
    · split_ifs at h
      obtain ⟨-, rfl⟩ := Prod.mk.inj (Option.some.inj h)
      exact applyOrderUpdate_frame _ _ _ _
  | protect io =>
    obtain ⟨-, rfl⟩ := Prod.mk.inj (Option.some.inj h)
    exact ensureSpotMarketProtection_frame _ _ _
  | event data io =>
    obtain ⟨-, rfl⟩ := Prod.mk.inj (Option.some.inj h)
    exact applyOrderUpdate_frame _ _ _ _
  | close exitReason io =>
    obtain ⟨-, rfl⟩ := Prod.mk.inj (Option.some.inj h)
    exact submitClose_frame _ _ _ _

/-! With nobody in between, the turns make up the functions -/

theorem alone_event (hw : w.WellFormed) {data : OrderData} {io : HandlerIo}
    (hfind : (TradeTask.event data io).find env id w = some row) :
    (TradeTask.event data io).alone env id w = (processOrder env.restClient io data w).2 := by
  obtain ⟨link, hlink, hmapped, hget⟩ := getTradeByOrderLinkId_of_find hfind
  obtain ⟨status, hstatus⟩ := Option.ne_none_iff_exists'.mp hmapped
  have hframe := applyOrderUpdate_frame env.restClient io data (w.work row)
  rw [alone_eq, hfind]
  simp only [Option.bind_some, act, Option.map_some, processOrder, hlink, hstatus, hget]
  cases hrun : applyOrderUpdate env.restClient io data (w.work row) with
  | mk result k =>
    rw [hrun] at hframe
    cases result with
    | error e => rfl
    | ok b => exact hw.commitLoaded_eq (find_mem hfind).1 hframe.entry.id

theorem alone_close (hw : w.WellFormed) (exitReason : ExitReason) (io : CloseIo) :
    (TradeTask.close exitReason io).alone env id w =
      (closeTrade env.settings.tradingMode id exitReason io w).2 := by
  simp only [alone_eq, find, closeTrade]
  cases hget : w.db.getTrade id with
  | none => rfl
  | some row =>
    by_cases hst : row.status ∈ closeRetryableStatuses
    · have hframe := submitClose_frame env.settings.tradingMode exitReason io (w.work row)
      rw [Option.filter_some_pos (by simpa using hst)]
      simp only [Option.bind_some, act, Option.map_some, if_neg (not_not_intro hst)]
      cases hrun : submitClose env.settings.tradingMode exitReason io (w.work row) with
      | mk result k =>
        rw [hrun] at hframe
        cases result with
        | error e => rfl
        | ok u => exact hw.commitLoaded_eq (Db.getTrade_mem hget).1 hframe.entry.id
    · rw [Option.filter_some_neg (by simpa using hst)]
      simp only [Option.bind_none, if_pos hst]

theorem act_reconcile {answer : StatusOutcome} {io : HandlerIo} {commits : Bool} {k k' : Work}
    (hrest : env.restClient = true)
    (h : (TradeTask.reconcile answer io).act env k = some (commits, k')) :
    commits = true ∧ k' = (reconcileTrade env.restClient answer io k).2 := by
  simp only [act] at h
  cases hans : answered k.trade.trackedOrderLinkId answer with
  | none => simp [hans] at h
  | some data =>
    obtain ⟨link, remote, htracked, rfl, rfl⟩ := answered_some hans
    rw [hans] at h
    dsimp only at h
    split_ifs at h
    obtain ⟨rfl, rfl⟩ := Prod.mk.inj (Option.some.inj h)
    simp [reconcileTrade, hrest, htracked, reconciledData]

/-- What the functions of the source make of the row, called as a whole. -/
def whole (env : Env) (id : TradeId) (w : World) (row : Trade) (task : TradeTask) : World :=
  match task with
  | .reconcile answer io =>
    if task.writes row then w.commit (reconcileTrade env.restClient answer io (w.work row)).2
    else w
  | .protect io => w.commit (ensureSpotMarketProtection env.restClient io (w.work row)).2
  | .event data io => (processOrder env.restClient io data w).2
  | .close exitReason io => (closeTrade env.settings.tradingMode id exitReason io w).2

theorem alone_whole (hw : w.WellFormed) (hrest : env.restClient = true)
    (hfind : task.find env id w = some row) : task.alone env id w = task.whole env id w row := by
  have hcommit {k : Work} (hframe : (w.work row).Frame k) : w.commitLoaded row k = w.commit k :=
    hw.commitLoaded_eq (find_mem hfind).1 hframe.entry.id
  cases task with
  | reconcile answer io =>
    dsimp only [whole]
    split_ifs with hwrites
    · obtain ⟨⟨commits, k⟩, hact⟩ := Option.isSome_iff_exists.mp
        ((act_isSome env (.reconcile answer io) (w.work row)).trans hwrites)
      obtain ⟨rfl, rfl⟩ := act_reconcile hrest hact
      rw [alone_eq, hfind, Option.bind_some, hact, Option.map_some]
      exact hcommit (act_frame hact)
    · exact alone_of_idle hfind (Bool.eq_false_of_not_eq_true hwrites) w
  | protect io =>
    rw [alone_eq, hfind]
    exact hcommit (ensureSpotMarketProtection_frame _ _ _)
  | event data io => exact alone_event hw hfind
  | close exitReason io => exact alone_close hw exitReason io

end TradeTask

namespace TaskSession

/-- The row the session writes in its next turn, as it loaded it. -/
def actsOn (c : TaskSession) (locked : Bool) : Option Trade :=
  match c.stage with
  | .loaded row => if c.task.writes row && (c.task.locks || !locked) then some row else none
  | _ => none

/-- What holds of a session with the row: `P` of the row it locked, `F` of what it made of it.
The others have found the row they loaded at some time. -/
def Stands (env : Env) (id : TradeId) (P : Trade → Prop) (F : Trade → Bool → Work → Prop)
    (c : TaskSession) : Prop :=
  match c.stage with
  | .called | .finished => True
  | .loaded row => (∃ w, c.task.find env id w = some row) ∧ (c.task.locks = true → P row)
  | .flushed row commits k => F row commits k

def Apart (c d : TaskSession) : Prop := ¬ (c.holding = true ∧ d.holding = true)

theorem Apart.of_free {c d : TaskSession} (h : c.holding = false ∨ d.holding = false) : c.Apart d := by
  rintro ⟨hc, hd⟩
  obtain h | h := h
  · rw [h] at hc
    cases hc
  · rw [h] at hd
    cases hd

variable {env : Env} {id : TradeId} {P P' : Trade → Prop} {F F' : Trade → Bool → Work → Prop}
  {c : TaskSession} {row : Trade}

namespace Stands

theorem of_called (h : c.stage = .called) : c.Stands env id P F := by
  simp only [Stands, h]

theorem of_finished (h : c.stage = .finished) : c.Stands env id P F := by
  simp only [Stands, h]

theorem loaded (h : c.Stands env id P F) (hstage : c.stage = .loaded row) :
    (∃ w, c.task.find env id w = some row) ∧ (c.task.locks = true → P row) := by
  simpa only [Stands, hstage] using h

theorem flushed {commits : Bool} {k : Work} (h : c.Stands env id P F)
    (hstage : c.stage = .flushed row commits k) : F row commits k := by
  simpa only [Stands, hstage] using h

theorem of_not_holding (h : c.Stands env id P F) (hfree : c.holding = false) :
    c.Stands env id P' F' := by
  unfold holding at hfree
  cases hstage : c.stage with
  | called => exact .of_called hstage
  | finished => exact .of_finished hstage
  | loaded row =>
    rw [hstage] at hfree
    simp only [Stands, hstage]
    exact ⟨(h.loaded hstage).1, fun hlocks => by simp [hlocks] at hfree⟩
  | flushed row commits k =>
    rw [hstage] at hfree
    cases hfree

theorem not_holding (h : c.Stands env id P F) (hP : ∀ row, ¬ P row) (hF : ∀ row commits k, ¬ F row commits k) :
    c.holding = false := by
  unfold holding
  cases hstage : c.stage with
  | called => rfl
  | finished => rfl
  | loaded row =>
    by_contra hlocks
    exact hP row ((h.loaded hstage).2 (by simpa using hlocks))
  | flushed row commits k => exact (hF row commits k (h.flushed hstage)).elim

end Stands
end TaskSession

end AmaExecutionCore
