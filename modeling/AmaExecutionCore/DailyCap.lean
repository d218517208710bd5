import AmaExecutionCore.CreationDates
import AmaExecutionCore.DayAccounts
import AmaExecutionCore.OpenLimit

/-! The cap on the trades of a day: the check of `execute` reads the counter that is raised
when the trade is committed, so it bounds the trades as long as the requests between the
two are counted in. -/
namespace AmaExecutionCore
open TradeStatus

/-- No more trades are created on the day than the settings allow. -/
def DailyCapKept (env : Env) (date : Date) (s : Sessions.State World Request) : Prop :=
  s.store.createdOn date ≤ env.settings.maxTradesPerDay

instance (env : Env) (date : Date) : DecidablePred (DailyCapKept env date) := fun s =>
  inferInstanceAs (Decidable (s.store.createdOn date ≤ env.settings.maxTradesPerDay))

namespace Request

/-- The request of the day has passed the circuit breaker, and its trade is not committed. -/
def pastCheck (date : Date) (r : Request) : Bool :=
  match r.stage with
  | .breakerPassed _ | .unsubmitted _ | .planned _ _ | .sent _ _ => r.io.now.date = date
  | _ => false

/-- The request's next piece is a check that lets it pass. -/
def passesCheck (env : Env) (r : Request) (w : World) : Bool :=
  match r.stage with
  | .guarded _ => (circuitBreakerCheck env.settings r.io.now w.db.ledger).toBool
  | _ => false

/-- The request keeps to one day, and its trade was created at the request's time. -/
def Dated (r : Request) : Prop := r.io.OneDay ∧ ∀ t ∈ r.pending, t.createdAt = r.io.now

end Request

/-- The counter of the day and the requests on their way to raise it are below the cap. -/
def CapLeft (env : Env) (date : Date) (s : Sessions.State World Request) : Prop :=
  (s.store.db.ledger.dailyStat date).totalTrades + s.sessions.countP (Request.pastCheck date) <
    env.settings.maxTradesPerDay

/-- Each request keeps to one day, and the check lets it pass only while the cap has a trade
left for it. -/
def ChecksWithinCap (env : Env) (s : Sessions.State World Request) :
    Sessions.Act (NormalizedExecuteSignalRequest × ExecuteIo) Step → Prop
  | .start request => request.2.OneDay
  | .advance i => ∀ r ∈ s.sessions[i]?, r.passesCheck env s.store = true →
      CapLeft env r.io.now.date s
  | .event _ => True

instance (env : Env) (date : Date) (s : Sessions.State World Request) :
    Decidable (CapLeft env date s) := by
  unfold CapLeft
  infer_instance

instance (env : Env) (s : Sessions.State World Request)
    (act : Sessions.Act (NormalizedExecuteSignalRequest × ExecuteIo) Step) :
    Decidable (ChecksWithinCap env s act) :=
  match act with
  | .start _ | .advance _ | .event _ => by unfold ChecksWithinCap; infer_instance

def TradesCounted (date : Date) (w : World) : Prop :=
  ∃ log, DayBook log date w ∧ log.counted date = w.createdOn date

theorem TradesCounted.le {date : Date} {w : World} (h : TradesCounted date w) :
    w.createdOn date ≤ (w.db.ledger.dailyStat date).totalTrades := by
  obtain ⟨log, hbook, hcount⟩ := h
  rw [← hcount]
  exact hbook.counted

theorem TradesCounted.accounts {date : Date} {w w' : World} {log : DayLog}
    (h : TradesCounted date w) (ha : Accounts w log w')
    (hcount : w'.createdOn date = w.createdOn date + log.counted date) : TradesCounted date w' := by
  obtain ⟨before, hbook, hbefore⟩ := h
  refine ⟨before ++ log, ha before date hbook, ?_⟩
  rw [DayLog.counted_append, hbefore, hcount]

/-- What a piece of a request means to the cap. -/
inductive CapPiece (env : Env) (r : Request) (w : World) : World × Request → Prop
  | kept {log w' r'} (ha : Accounts w log w') (hlog : ∀ date, DayLog.counted date log = 0)
      (htimes : w'.creationTimes = w.creationTimes)
      (hpast : ∀ date, r'.pastCheck date = true → r.pastCheck date = true)
      (hnow : r.Dated → r'.Dated) : CapPiece env r w (w', r')
  | passed {signalId} (hst : r.stage = .guarded signalId) (hpass : r.passesCheck env w = true) :
      CapPiece env r w (w, r.atStage (.breakerPassed signalId))
  | recorded {signalId raised k stage} (hst : r.stage = .sent signalId (.committed raised k))
      (hstage : stage = .recorded signalId k.trade ∨ ∃ e, stage = .finished (.error e)) :
      CapPiece env r w ({ w with db := recordEntry r.io k w.db }, r.atStage stage)

namespace CapPiece

variable {env : Env} {r : Request} {w : World}

theorem aside {log : DayLog} {w' : World} {stage : Stage} (ha : Accounts w log w')
    (hlog : ∀ date, DayLog.counted date log = 0) (htimes : w'.creationTimes = w.creationTimes)
    (hpast : ∀ date, (r.atStage stage).pastCheck date = false)
    (hpend : (r.atStage stage).pending = none) : CapPiece env r w (w', r.atStage stage) := by
  refine .kept ha hlog htimes ?_ ?_
  · intro date h
    rw [hpast date] at h
    cases h
  · rintro ⟨hday, -⟩
    refine ⟨hday, fun t ht => ?_⟩
    rw [hpend] at ht
    cases ht

theorem quiet {w' : World} {stage : Stage} (hdb : w'.db.trades = w.db.trades)
    (hledger : w'.db.ledger = w.db.ledger) (hpast : ∀ date, (r.atStage stage).pastCheck date = false)
    (hpend : (r.atStage stage).pending = none) : CapPiece env r w (w', r.atStage stage) :=
  .aside (.of_rows fun date => by rw [hledger]) (fun _ => rfl)
    (congrArg (List.map Trade.createdAt) hdb) hpast hpend

end CapPiece

theorem registered_capPiece (env : Env) {r : Request} {loaded : Option SignalSubmission} {w : World} :
    CapPiece env r w (r.registered env loaded w) := by
  unfold Request.registered
  split
  · exact .quiet rfl rfl (fun _ => rfl) rfl
  · next registered hreg =>
    obtain ⟨htrades, -, -⟩ := registerSignal_same hreg
    obtain ⟨-, hledger⟩ := registerSignal_rows hreg
    have hguard := killSwitchGuard_world r.io.now registered
    have hcleared : Accounts w (clearedStreak r.io.now w) (killSwitchStatus r.io.now registered) := by
      refine clearedStreak_accounts r.io.now fun date => ?_
      rw [← hledger]
      rfl
    have htimes : (killSwitchStatus r.io.now registered).creationTimes = w.creationTimes :=
      congrArg (List.map Trade.createdAt) htrades
    have hlog := fun date => clearedStreak_counted r.io.now date w
    split <;>
    · next hrun =>
      rw [hrun] at hguard
      obtain rfl := hguard
      exact .aside hcleared hlog htimes (fun _ => rfl) rfl

/-- The answer about a pending order changes no row of a day, and no creation time. -/
theorem answered_capPiece (env : Env) {r : Request} {submission : SignalSubmission}
    {existing : Trade} {w : World} : CapPiece env r w (r.answered submission existing w) := by
  have hcreated := reconcilePendingUnknown_createdAt r.io.pendingLookup (w.work existing)
  have hledger : (reconcilePendingUnknown r.io.pendingLookup (w.work existing)).2.ledger = w.db.ledger :=
    reconcilePendingUnknown_ledger r.io.pendingLookup (w.work existing)
  unfold Request.answered
  cases hk : reconcilePendingUnknown r.io.pendingLookup (w.work existing) with
  | mk result k =>
    rw [hk] at hcreated hledger
    cases result with
    | error e => exact .quiet rfl rfl (fun _ => rfl) rfl
    | ok _ =>
      have ha : Accounts w [] (w.commitLoaded existing k) :=
        .of_rows fun date => congrArg (Ledger.dailyStat date) hledger
      have htimes : (w.commitLoaded existing k).creationTimes = w.creationTimes := by
        rw [World.creationTimes, World.creationTimes, World.commitLoaded, List.map_map]
        refine List.map_congr_left fun row _ => ?_
        have hsame : k.trade.createdAt = existing.createdAt := hcreated
        dsimp only [Function.comp]
        split_ifs
        · simp [Trade.overwrite, written, hsame]
        · rfl
      dsimp only
      split_ifs
      · exact .aside ha (fun _ => rfl) htimes (fun _ => rfl) rfl
      · exact .aside ha (fun _ => rfl) htimes (fun _ => rfl) rfl

theorem next_capPiece (env : Env) (r : Request) (w : World) : CapPiece env r w (r.next env w) := by
  have hself : Accounts w [] w := .refl w
  cases hst : r.stage with
  | arrived =>
    simp only [Request.next, hst]
    split
    · exact .quiet rfl rfl (fun _ => rfl) rfl
    · exact .quiet rfl rfl (fun _ => rfl) rfl
  | submissionRead submission =>
    simp only [Request.next, hst, Request.resolved]
    split
    · exact .quiet rfl rfl (fun _ => rfl) rfl
    · split_ifs
      · exact .quiet rfl rfl (fun _ => rfl) rfl
      · exact .quiet rfl rfl (fun _ => rfl) rfl
      · exact .quiet rfl rfl (fun _ => rfl) rfl
  | statusAsked submission existing =>
    simp only [Request.next, hst]
    exact answered_capPiece env
  | unregistered loaded =>
    simp only [Request.next, hst]
    exact registered_capPiece env
  | guarded signalId =>
    have hcheck := circuitBreakerCheck_checked env.settings r.io.now w.db.ledger
    simp only [Request.next, hst]
    split
    · next e l hrun =>
      rw [hrun] at hcheck
      cases hcheck with
      | refused => exact .quiet rfl rfl (fun _ => rfl) rfl
      | tripped h =>
        exact .aside (tripped_accounts h) (fun date => clearedStreak_counted r.io.now date w) rfl
          (fun _ => rfl) rfl
    · next hrun =>
      refine .passed hst ?_
      simp only [Request.passesCheck, hst, hrun]
      rfl
  | breakerPassed signalId =>
    simp only [Request.next, hst]
    split_ifs
    · exact .quiet rfl rfl (fun _ => rfl) rfl
    · refine .kept hself (fun _ => rfl) rfl (fun date h => ?_) fun hdated =>
        ⟨hdated.1, fun t ht => by cases ht⟩
      simp only [Request.pastCheck, hst]
      exact h
  | unsubmitted signalId =>
    simp only [Request.next, hst]
    split
    · exact .quiet rfl rfl (fun _ => rfl) rfl
    · refine .kept hself (fun _ => rfl) rfl (fun date h => ?_) fun hdated =>
        ⟨hdated.1, fun t ht => by cases ht⟩
      simp only [Request.pastCheck, hst]
      exact h
  | planned signalId plan =>
    simp only [Request.next, hst]
    refine .kept (.of_rows fun _ => rfl) (fun _ => rfl) rfl (fun date h => ?_) ?_
    · simp only [Request.pastCheck, hst]
      exact h
    · intro hdated
      refine ⟨hdated.1, fun t ht => ?_⟩
      obtain rfl := Option.some.inj ht
      exact settleEntry_createdAt _ _ _ _ _
  | sent signalId settled =>
    simp only [Request.next, hst, Request.committed]
    cases settled with
    | aborted e k => exact .quiet rfl rfl (fun _ => rfl) rfl
    | committed raised k =>
      cases raised with
      | none => exact .recorded hst (.inl rfl)
      | some e => exact .recorded hst (.inr ⟨e, rfl⟩)
  | recorded signalId trade =>
    simp only [Request.next, hst]
    exact .quiet rfl rfl (fun _ => rfl) rfl
  | finished result =>
    simp only [Request.next, hst]
    refine .kept hself (fun _ => rfl) rfl (fun date h => h) id

/-- What holds in every interleaving: the counter of the day counts its trades, and each
request creates its trade at its own time, on its one day. -/
structure CapSound (date : Date) (s : Sessions.State World Request) : Prop where
  sound : RequestsSound s
  counted : TradesCounted date s.store
  now : ∀ r ∈ s.sessions, r.Dated

/-- The trades of the day, and the requests that may still add one. -/
def capTaken (date : Date) (s : Sessions.State World Request) : Nat :=
  s.store.createdOn date + s.sessions.countP (Request.pastCheck date)

theorem createdOn_of_times {w w' : World} (date : Date) (h : w'.creationTimes = w.creationTimes) :
    w'.createdOn date = w.createdOn date := by
  rw [World.createdOn, World.createdOn, h]

theorem recordEntry_times {w : World} {io : ExecuteIo} {k : Work} (h : Reserved w k.trade) :
    World.creationTimes { w with db := recordEntry io k w.db } =
      w.creationTimes ++ [k.trade.createdAt] := by
  have hput : Db.saveTrade k.trade w.db.trades = w.db.trades ++ [k.trade] :=
    Rows.put_of_fresh h.fresh
  simp only [World.creationTimes, recordEntry, hput, List.map_append, List.map_cons, List.map_nil]

namespace CapPiece

variable {env : Env} {date : Date} {s : Sessions.State World Request} {i : Nat} {r : Request}
  {p : World × Request}

theorem counted (h : CapSound date s) (hr : s.sessions[i]? = some r)
    (hp : CapPiece env r s.store p) : TradesCounted date p.1 := by
  cases hp with
  | kept ha hlog htimes _ _ =>
    refine h.counted.accounts ha ?_
    rw [createdOn_of_times date htimes, hlog, Nat.add_zero]
  | passed _ _ => exact h.counted
  | @recorded signalId raised k stage hst hstage =>
    have hpend : k.trade ∈ r.pending := by simp [Request.pending, hst, Settled.work]
    obtain ⟨hday, hdated⟩ := h.now r (List.mem_of_getElem? hr)
    have hnow : k.trade.createdAt = r.io.now := hdated _ hpend
    have htimes := @recordEntry_times s.store r.io k (h.sound.own i r hr _ hpend)
    refine h.counted.accounts (recordEntry_accounts r.io fun _ => rfl) ?_
    rw [ExecuteIo.OneDay] at hday
    rw [DayLog.counted_append, clearedStreak_counted, World.createdOn, htimes, List.countP_append, hnow]
    by_cases hd : r.io.now.date = date
    · simp [World.createdOn, DayLog.counted, hday, hd]
    · simp [World.createdOn, DayLog.counted, hday, hd]

/-- A piece takes from the cap only when the check lets the request pass. -/
theorem taken (h : CapSound date s) (hr : s.sessions[i]? = some r) (hp : CapPiece env r s.store p) :
    p.1.createdOn date + (p.2.pastCheck date).toNat ≤
        s.store.createdOn date + (r.pastCheck date).toNat ∨
      (p.1 = s.store ∧ r.passesCheck env s.store = true ∧ r.io.now.date = date) := by
  cases hp with
  | @kept _ w' r' _ _ htimes hpast _ =>
    left
    have hle : (r'.pastCheck date).toNat ≤ (r.pastCheck date).toNat := by
      cases hr' : r'.pastCheck date with
      | false => exact Nat.zero_le _
      | true => rw [hpast date hr']
    dsimp only
    rw [createdOn_of_times date htimes]
    omega
  | passed hst hpass =>
    by_cases hd : r.io.now.date = date
    · exact .inr ⟨rfl, hpass, hd⟩
    · left
      simp [Request.pastCheck, Request.atStage, hd]
  | @recorded signalId raised k stage hst hstage =>
    left
    have hpend : k.trade ∈ r.pending := by simp [Request.pending, hst, Settled.work]
    have hnow : k.trade.createdAt = r.io.now := (h.now r (List.mem_of_getElem? hr)).2 _ hpend
    have htimes := @recordEntry_times s.store r.io k (h.sound.own i r hr _ hpend)
    have hout : (r.atStage stage).pastCheck date = false := by
      obtain rfl | ⟨e, rfl⟩ := hstage <;> rfl
    have hin : r.pastCheck date = decide (r.io.now.date = date) := by
      simp only [Request.pastCheck, hst]
    rw [hout, hin, World.createdOn, htimes, List.countP_append, hnow]
    by_cases hd : r.io.now.date = date
    · simp [World.createdOn, hd]
    · simp [World.createdOn, hd]

theorem dated (h : CapSound date s) (hr : s.sessions[i]? = some r)
    (hp : CapPiece env r s.store p) : p.2.Dated := by
  cases hp with
  | kept _ _ _ _ hnow => exact hnow (h.now r (List.mem_of_getElem? hr))
  | passed _ _ => exact ⟨(h.now r (List.mem_of_getElem? hr)).1, fun t ht => by cases ht⟩
  | recorded _ hstage =>
    refine ⟨(h.now r (List.mem_of_getElem? hr)).1, fun t ht => ?_⟩
    obtain rfl | ⟨e, rfl⟩ := hstage <;> cases ht

end CapPiece

theorem event_createdOn {env : Env} {e : Step} {w : World} (date : Date) (hw : w.WellFormed) :
    ((requestSystem env).handle w e).createdOn date = w.createdOn date := by
  obtain ⟨-, hsame | ⟨hs, hstep, -⟩⟩ := handle_effect env e hw
  · rw [hsame]
  · rw [hstep]
    exact createdOn_of_times date ((step_commits env e hw).creationTimes hs)

/-- Whatever takes its turn, the trades stay counted. -/
theorem capSound_step (env : Env) (date : Date) {s : Sessions.State World Request}
    (h : CapSound date s)
    {act : Sessions.Act (NormalizedExecuteSignalRequest × ExecuteIo) Step}
    (hcond : ChecksWithinCap env s act) :
    CapSound date (Sessions.step (requestSystem env) s act) := by
  have hsound := requestsSound_step env h.sound act
  cases act with
  | start a =>
    refine ⟨hsound, h.counted, fun r hr => ?_⟩
    obtain hr | hr := List.mem_append.mp hr
    · exact h.now r hr
    · obtain rfl := List.mem_singleton.mp hr
      exact ⟨hcond, fun t ht => by cases ht⟩
  | event e =>
    refine ⟨hsound, ?_, h.now⟩
    have hcount := @event_createdOn env e _ date h.sound.store
    obtain ⟨-, hsame | ⟨hs, hstep, -⟩⟩ := handle_effect env e h.sound.store
    · simpa only [Sessions.step, hsame] using h.counted
    · refine @TradesCounted.accounts _ _ _ (e.dayLog env s.store) h.counted ?_ ?_
      · simp only [Sessions.step, hstep]
        exact step_accounts e h.sound.store
      · rw [Step.dayLog_counted env _ date hs]
        exact hcount
  | advance i =>
    simp only [Sessions.step] at hsound ⊢
    cases hr : s.sessions[i]? with
    | none => exact h
    | some r =>
      have hp := next_capPiece env r s.store
      simp only [hr] at hsound
      refine ⟨hsound, hp.counted h hr, fun d hd => ?_⟩
      obtain hd | rfl := List.mem_or_eq_of_mem_set hd
      · exact h.now d hd
      · exact hp.dated h hr

/-- Every turn keeps within the cap what is taken from it. -/
theorem capTaken_step {env : Env} {date : Date} {s : Sessions.State World Request}
    (h : CapSound date s) {act : Sessions.Act (NormalizedExecuteSignalRequest × ExecuteIo) Step}
    (hcond : ChecksWithinCap env s act) (hle : capTaken date s ≤ env.settings.maxTradesPerDay) :
    capTaken date (Sessions.step (requestSystem env) s act) ≤ env.settings.maxTradesPerDay := by
  cases act with
  | start a =>
    simp only [capTaken, Sessions.step, List.countP_append] at hle ⊢
    exact hle
  | event e =>
    simp only [capTaken, Sessions.step, event_createdOn date h.sound.store] at hle ⊢
    exact hle
  | advance i =>
    simp only [Sessions.step]
    cases hr : s.sessions[i]? with
    | none => exact hle
    | some r =>
      have hcount := Sessions.countP_set (p := Request.pastCheck date) hr (r.next env s.store).2
      simp only [capTaken, requestSystem] at hle ⊢
      obtain htaken | ⟨hstore, hpass, hday⟩ := (next_capPiece env r s.store).taken h hr
      · omega
      · have hleft : CapLeft env r.io.now.date s := hcond r hr hpass
        have htotal := h.counted.le
        have hone := Bool.toNat_le ((r.next env s.store).2.pastCheck date)
        rw [hday] at hleft
        simp only [CapLeft] at hleft
        rw [hstore]
        omega

/-- In a run whose requests keep each to one day, and in which each check that lets one pass
still had a trade left for it, the cap of each day is kept. -/
theorem dailyCap_run (env : Env) (date : Date)
    (acts : List (Sessions.Act (NormalizedExecuteSignalRequest × ExecuteIo) Step))
    (h : Runs.Meets (Sessions.step (requestSystem env)) (ChecksWithinCap env) ⟨{}, []⟩ acts) :
    Runs.Always (Sessions.step (requestSystem env)) (DailyCapKept env date) ⟨{}, []⟩ acts := by
  have hinit : CapSound date ⟨{}, []⟩ :=
    ⟨.init wellFormed_init, ⟨[], ⟨.new date, Nat.zero_le _, rfl⟩, rfl⟩, by simp⟩
  refine Runs.always_of_invariant
    (I := fun s => CapSound date s ∧ capTaken date s ≤ env.settings.maxTradesPerDay)
    ⟨hinit, Nat.zero_le _⟩ ?_ ?_ h
  · rintro s act ⟨hs, hle⟩ hcond
    exact ⟨capSound_step env date hs hcond, capTaken_step hs hcond hle⟩
  · rintro s ⟨-, hle⟩
    simp only [capTaken] at hle
    show s.store.createdOn date ≤ env.settings.maxTradesPerDay
    omega

def twoTradesEnv : Env :=
  { demoEnv .takerAllowed with settings := { (demoEnv .takerAllowed).settings with maxTradesPerDay := 2 } }

def acceptedRequest (i : Nat) (symbol : String) :
    List (Sessions.Act (NormalizedExecuteSignalRequest × ExecuteIo) Step) :=
  wholeRequest i { demoRequest with symbol := symbol } (demoExecute (.accepted none) (.ok none))

/-- Three requests, one after the other: the third is refused. -/
theorem dailyCap_serial : Runs.Always (Sessions.step (requestSystem twoTradesEnv))
    (DailyCapKept twoTradesEnv 0) ⟨{}, []⟩
    (acceptedRequest 0 "BTCUSDT" ++ acceptedRequest 1 "ETHUSDT" ++ acceptedRequest 2 "SOLUSDT") :=
  dailyCap_run _ _ _ (by decide +kernel)

/-- After the first trade of the day two requests pass the check before either is counted. -/
theorem dailyCap_fails : ¬ Runs.Always (Sessions.step (requestSystem twoTradesEnv))
    (DailyCapKept twoTradesEnv 0) ⟨{}, []⟩
    (acceptedRequest 0 "BTCUSDT" ++ (acceptedRequest 1 "ETHUSDT").take 4 ++
      acceptedRequest 2 "SOLUSDT" ++ (acceptedRequest 1 "ETHUSDT").drop 4) := by
  decide +kernel

end AmaExecutionCore
