import AmaExecutionCore.Columns
import AmaExecutionCore.Sessions
import AmaExecutionCore.Steps

/-! `execute_signal` piece by piece: requests that take turns at every read, commit and
exchange call, with the handlers of events in between. -/
namespace AmaExecutionCore
open TradeStatus

/-- What a request has done so far. The rows flushed before a commit are visible to nobody
and hold their locks until it, so they count as written by the commit. -/
inductive Stage where
  | arrived
  | submissionRead (submission : SignalSubmission)
  | statusAsked (submission : SignalSubmission) (existing : Trade)
  | unregistered (loaded : Option SignalSubmission)
  | guarded (signalId : SignalId)
  | breakerPassed (signalId : SignalId)
  | unsubmitted (signalId : SignalId)
  | planned (signalId : SignalId) (plan : EntryPlan)
  | sent (signalId : SignalId) (settled : Settled)
  | recorded (signalId : SignalId) (trade : Trade)
  | finished (result : Except PyError ExecutionResult)

/-- `created` is the trade the request made, once it made one. -/
structure Request where
  req : NormalizedExecuteSignalRequest
  io : ExecuteIo
  stage : Stage := .arrived
  created : Option TradeId := none

namespace Request

def atStage (stage : Stage) (r : Request) : Request := { r with stage := stage }

/-- After `get_trade_for_submission`. -/
def resolved (submission : SignalSubmission) (found : Option Trade) (w : World) : Stage :=
  match found with
  | none => .unregistered (some submission)
  | some existing =>
    if isTradeTerminal existing.status then .unregistered (some submission)
    else if existing.status = orderPendingUnknown then .statusAsked submission existing
    else .finished (replayResult submission existing w).1

/-- The answer about a pending order, flushed and committed. -/
def answered (r : Request) (submission : SignalSubmission) (existing : Trade) (w : World) :
    World × Request :=
  match reconcilePendingUnknown r.io.pendingLookup (w.work existing) with
  | (.error e, k) => (w.rollback k, r.atStage (.finished (.error e)))
  | (.ok (), k) =>
    if isTradeTerminal k.trade.status then
      (w.commitLoaded existing k, r.atStage (.unregistered (some submission)))
    else
      (w.commitLoaded existing k, r.atStage (.finished
        (replayResult submission k.trade (w.commitLoaded existing k)).1))

/-- Submission, signal and the commit of the kill switch's guard. -/
def registered (env : Env) (r : Request) (loaded : Option SignalSubmission) (w : World) :
    World × Request :=
  match registerSignal (env.fingerprint r.req) loaded r.req w with
  | .error e => (w, r.atStage (.finished (.error e)))
  | .ok registered =>
    match killSwitchGuard r.io.now registered with
    | (.error e, w') => (w', r.atStage (.finished (.error e)))
    | (.ok (), w') => (w', r.atStage (.guarded w.issued))

/-- The trade is flushed and its entry orders go out. -/
def submitted (env : Env) (r : Request) (signalId : SignalId) (plan : EntryPlan) (w : World) :
    World × Request :=
  let settled := settleEntry env.settings .spot r.req r.io (entryWork env r.req r.io (w, signalId, plan))
  ({ w with exchange := settled.work.exchange, issued := w.issued + 1 },
    { r with stage := .sent signalId settled, created := some w.issued })

/-- The commit of the new trade, or none. -/
def committed (r : Request) (signalId : SignalId) (settled : Settled) (w : World) :
    World × Request :=
  match settled with
  | .aborted e _ => (w, r.atStage (.finished (.error e)))
  | .committed (some e) k =>
    ({ w with db := recordEntry r.io k w.db }, r.atStage (.finished (.error e)))
  | .committed none k => ({ w with db := recordEntry r.io k w.db }, r.atStage (.recorded signalId k.trade))

def next (env : Env) (r : Request) (w : World) : World × Request :=
  match r.stage with
  | .arrived =>
    match w.db.getSignalSubmission (env.fingerprint r.req) with
    | none => (w, r.atStage (.unregistered none))
    | some submission => (w, r.atStage (.submissionRead submission))
  | .submissionRead submission =>
    (w, r.atStage (resolved submission (w.db.getTradeForSubmission submission) w))
  | .statusAsked submission existing => r.answered submission existing w
  | .unregistered loaded => r.registered env loaded w
  | .guarded signalId =>
    match circuitBreakerCheck env.settings r.io.now w.db.ledger with
    | .error (e, l) => (w.adoptLedger l, r.atStage (.finished (.error e)))
    | .ok _ => (w, r.atStage (.breakerPassed signalId))
  | .breakerPassed signalId =>
    if isOrderAlreadySubmitted signalId w.db then
      (w, r.atStage (.finished (.error .orderAlreadySubmittedError)))
    else (w, r.atStage (.unsubmitted signalId))
  | .unsubmitted signalId =>
    match planEntry env.settings .spot r.req r.io w.db with
    | .error e => (w, r.atStage (.finished (.error e)))
    | .ok plan => (w, r.atStage (.planned signalId plan))
  | .planned signalId plan => r.submitted env signalId plan w
  | .sent signalId settled => r.committed signalId settled w
  | .recorded signalId trade =>
    (w.linkTrade (env.fingerprint r.req) trade.id,
      r.atStage (.finished (.ok (buildResult signalId trade false))))
  | .finished _ => (w, r)

def runAlone (env : Env) : Nat → Request → World → World × Request
  | 0, r, w => (w, r)
  | n + 1, r, w => runAlone env n (r.next env w).2 (r.next env w).1

theorem runAlone_finished (env : Env) (result : Except PyError ExecutionResult) (n : Nat)
    (r : Request) (w : World) (h : r.stage = .finished result) :
    (runAlone env n r w).1 = w ∧ (runAlone env n r w).2.stage = .finished result := by
  induction n with
  | zero => exact ⟨rfl, h⟩
  | succ n ih =>
    have hnext : r.next env w = (w, r) := by simp only [next, h]
    rw [runAlone, hnext]
    exact ih

/-- From the registration on, a request with nobody in between is `executeFresh`. -/
theorem runAlone_unregistered (env : Env) (r : Request) (loaded : Option SignalSubmission)
    (w : World) (h : r.stage = .unregistered loaded) (n : Nat) :
    (runAlone env (n + 7) r w).1 = (executeFresh env r.req r.io loaded w).2 ∧
      (runAlone env (n + 7) r w).2.stage =
        .finished (executeFresh env r.req r.io loaded w).1 := by
  rw [runAlone]
  simp only [next, h, registered, executeFresh]
  cases hreg : registerSignal (env.fingerprint r.req) loaded r.req w with
  | error e => exact runAlone_finished _ _ _ _ _ rfl
  | ok w₁ =>
    dsimp only
    cases hguard : killSwitchGuard r.io.now w₁ with
    | mk res w₂ =>
      cases res with
      | error e => exact runAlone_finished _ _ _ _ _ rfl
      | ok _ =>
        dsimp only
        rw [runAlone]
        simp only [next, atStage, checkEntry]
        cases hbreaker : circuitBreakerCheck env.settings r.io.now w₂.db.ledger with
        | error e => exact runAlone_finished _ _ _ _ _ rfl
        | ok _ =>
          dsimp only
          rw [runAlone]
          simp only [next]
          by_cases hsubmitted : isOrderAlreadySubmitted w.issued w₂.db = true
          · rw [if_pos hsubmitted, if_pos hsubmitted]
            exact runAlone_finished _ _ _ _ _ rfl
          · rw [if_neg hsubmitted, if_neg hsubmitted, runAlone]
            simp only [next, atStage]
            cases hplan : planEntry env.settings .spot r.req r.io w₂.db with
            | error e => exact runAlone_finished _ _ _ _ _ rfl
            | ok plan =>
              dsimp only
              rw [runAlone, runAlone]
              simp only [next, submitted, committed, submitEntry, entryWork, atStage]
              cases hsettled : settleEntry env.settings .spot r.req r.io (createTrade
                  (buildTrade env.settings r.req plan w.issued r.io.now w₂.issued) w₂) with
              | aborted e k => exact runAlone_finished _ _ _ _ _ rfl
              | committed raised k =>
                cases raised with
                | some e => exact runAlone_finished _ _ _ _ _ rfl
                | none =>
                  dsimp only
                  rw [runAlone]
                  simp only [next, atStage]
                  exact runAlone_finished _ _ _ _ _ rfl

/-- A request with nobody in between is `execute_signal`. -/
theorem runAlone_eq (env : Env) (req : NormalizedExecuteSignalRequest) (io : ExecuteIo) {w : World}
    (hw : w.WellFormed) :
    (runAlone env 10 { req := req, io := io } w).1 = (executeSignal env req io w).2 ∧
      (runAlone env 10 { req := req, io := io } w).2.stage =
        .finished (executeSignal env req io w).1 := by
  rw [runAlone]
  simp only [next, executeSignal]
  cases hsub : w.db.getSignalSubmission (env.fingerprint req) with
  | none => exact runAlone_unregistered env _ none w rfl 2
  | some submission =>
    dsimp only
    rw [runAlone]
    simp only [next, atStage, resolved]
    cases hfound : w.db.getTradeForSubmission submission with
    | none => exact runAlone_unregistered env _ (some submission) w rfl 1
    | some existing =>
      dsimp only
      split_ifs with hterm hpend
      · exact runAlone_unregistered env _ (some submission) w rfl 1
      · rw [runAlone]
        simp only [next, answered, atStage]
        have hframe := reconcilePendingUnknown_frame io.pendingLookup (w.work existing)
        cases hlookup : reconcilePendingUnknown io.pendingLookup (w.work existing) with
        | mk res k =>
          rw [hlookup] at hframe
          cases res with
          | error e => exact runAlone_finished _ _ _ _ _ rfl
          | ok _ =>
            have hcommit := hw.commitLoaded_eq (Db.getTradeForSubmission_mem hfound)
              (show k.trade.id = existing.id from hframe.entry.id)
            dsimp only
            rw [hcommit]
            split_ifs with hterm'
            · exact runAlone_unregistered env _ (some submission) _ rfl 0
            · rw [replayResult_world]
              exact runAlone_finished _ _ _ _ _ rfl
      · rw [replayResult_world]
        exact runAlone_finished _ _ _ _ _ rfl

end Request

/-- Requests, and the handlers of everything else in one piece. -/
def requestSystem (env : Env) :
    Sessions.System World Request (NormalizedExecuteSignalRequest × ExecuteIo) Step where
  start := fun (req, io) => { req := req, io := io }
  next := fun r w => r.next env w
  handle := fun w s =>
    match s with
    | .executeSignal _ _ => w
    | s => step env w s

end AmaExecutionCore
