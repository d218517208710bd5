import AmaExecutionCore.Days
import AmaExecutionCore.Steps
import AmaExecutionCore.Traces

/-! One step of the system as a chain of commits: each is one handler's work on one
committed row, the creation of a trade, or a change that concerns no trade. -/
namespace AmaExecutionCore
open TradeStatus

/-- The fee of one execution is added to what the row holds. -/
def Trade.addFee (fee : Option Rat) (t : Trade) : Trade :=
  match fee with
  | some q => { t with feePaid := some (t.feePaid.getD 0 + q) }
  | none => t

/-- The trade whose unknown submission a request resolves before it is answered. -/
def replayed (env : Env) (req : NormalizedExecuteSignalRequest) (w : World) : Option Trade :=
  ((w.db.getSignalSubmission (env.fingerprint req)).bind w.db.getTradeForSubmission).filter
    fun t => t.status = orderPendingUnknown

/-- The work on one committed row that a step from `w` commits, by the handler that
did it. -/
inductive Handled (env : Env) (w : World) : Step → Work → Work → Prop
  | unanswered {s k} : Handled env w s k k
  | update {s data io r k k'} (hdata : s.update env k.trade = some (data, io))
      (h : applyOrderUpdate env.restClient io data k = (r, k'))
      -- an event that raised is rolled back, a reconcile pass commits what is left
      (hr : (∃ data io, s = .processOrder data io) → ∃ b, r = .ok b) : Handled env w s k k'
  | execution {data link fee k t'} (hlink : data.orderLinkId = some link)
      (hown : k.trade.ownsOrderLinkId link = true) (hfee : parseOptional data.execFee = .ok fee)
      (h : noteSlippage link data.execPrice (k.trade.addFee fee) = .ok t') :
      Handled env w (.processExecution data) k { k with trade := t' }
  | closed {reason io k k'} (hst : k.trade.status ∈ closeRetryableStatuses)
      (h : submitClose env.settings.tradingMode reason io k = (.ok (), k')) :
      Handled env w (.closeTrade k.trade.id reason io) k k'
  | protect {io k} (hrest : env.restClient = true) (hst : Db.missingProtection k.trade = true) :
      Handled env w (.reconcileMissingProtection io) k
        (ensureSpotMarketProtection env.restClient (io k.trade.id) k).2
  | resolved {req io k k'} (hfound : replayed env req w = some k.trade)
      (h : reconcilePendingUnknown io.pendingLookup k = (.ok (), k')) :
      Handled env w (.executeSignal req io) k k'

theorem Trade.addFee_eq (fee : Option Rat) (t : Trade) :
    ∃ paid, t.addFee fee = { t with feePaid := paid } := by
  cases fee with
  | none => exact ⟨t.feePaid, rfl⟩
  | some q => exact ⟨_, rfl⟩

theorem replayed_status {env : Env} {req : NormalizedExecuteSignalRequest} {w : World} {t : Trade}
    (h : replayed env req w = some t) : t.status = orderPendingUnknown := by
  simpa using (Option.filter_eq_some_iff.mp h).2

theorem Handled.frame {env : Env} {w : World} {s : Step} {k k' : Work}
    (h : Handled env w s k k') : k.Frame k' := by
  cases h with
  | unanswered => exact .refl k
  | @update _ data io _ _ _ _ h =>
    have := applyOrderUpdate_frame env.restClient io data k
    rwa [h] at this
  | execution _ _ _ h =>
    obtain ⟨q, rfl⟩ := noteSlippage_same h
    obtain ⟨paid, hfee⟩ := k.trade.addFee_eq _
    rw [hfee]
    exact .onTrade (fun t => { t with feePaid := paid, slippage := q }) k
      ⟨by constructor <;> rfl, rfl, rfl⟩ (by constructor <;> rfl)
  | @closed reason io _ _ _ h =>
    have := submitClose_frame env.settings.tradingMode reason io k
    rwa [h] at this
  | protect => exact ensureSpotMarketProtection_frame _ _ _
  | @resolved _ io _ _ _ h =>
    have := reconcilePendingUnknown_frame io.pendingLookup k
    rwa [h] at this

/-- A handler logs what it does to the status, and books a trade when it closes it;
an execution event only touches the fee and the slippage. -/
theorem Handled.writes {env : Env} {w : World} {s : Step} {k k' : Work}
    (h : Handled env w s k k') :
    k.Writes k' ∨ ∃ data fee slippage, s = .processExecution data ∧
      parseOptional data.execFee = .ok fee ∧ (∃ link ∈ data.orderLinkId,
        k.trade.ownsOrderLinkId link = true) ∧
      k' = { k with trade := { k.trade.addFee fee with slippage := slippage } } := by
  cases h with
  | unanswered => exact .inl (.kept (.refl k) (fun _ => .refl _) Iff.rfl)
  | @update _ data io _ _ _ _ h =>
    have := applyOrderUpdate_writes env.restClient io data k
    rw [h] at this
    exact .inl this
  | execution hlink hown hfee h =>
    obtain ⟨q, rfl⟩ := noteSlippage_same h
    exact .inr ⟨_, _, q, rfl, hfee, ⟨_, hlink, hown⟩, rfl⟩
  | closed hst h =>
    refine .inl (submitClose_writes _ _ _ k ?_ h)
    intro hp
    rw [hp] at hst
    exact absurd hst (by decide)
  | protect _ hst =>
    have hopen : k.trade.status ≠ pnlRecorded := by
      intro hp
      simp [Db.missingProtection, hp] at hst
    refine .inl (.of_status (ensureSpotMarketProtection_traced _ _ k) hopen ?_)
    obtain h | ⟨-, h | h⟩ := (ensureSpotMarketProtection_protection env.restClient _ k).status
    · rwa [h]
    · rw [h]
      decide
    · rw [h]
      decide
  | resolved hfound h =>
    have hopen : k.trade.status ≠ pnlRecorded := by
      rw [replayed_status hfound]
      decide
    obtain rfl | ⟨remote, -, rfl⟩ := reconcilePendingUnknown_ok h
    · exact .inl (.of_status (.refl k) hopen hopen)
    · refine .inl (.of_status (noteRemoteStatus_traced remote k) hopen ?_)
      rw [(noteRemoteStatus_settles remote k).status]
      cases remote.orderStatus <;> decide

theorem World.commit_trades {w : World} {t : Trade} {k' : Work} (ht : t ∈ w.db.trades)
    (hid : k'.trade.id = t.id) : (w.commit k').db.trades =
      w.db.trades.map fun r => if r.id = t.id then k'.trade else r := by
  have hput : Db.saveTrade k'.trade w.db.trades =
      w.db.trades.map fun r => if r.id = k'.trade.id then k'.trade else r :=
    Rows.put_of_mem ⟨t, ht, hid.symm⟩
  rw [hid] at hput
  exact hput

theorem World.WellFormed.commit_rows {w : World} {t : Trade} {k' : Work} {before after : List Trade}
    (hw : w.WellFormed) (hsplit : w.db.trades = before ++ t :: after) (hid : k'.trade.id = t.id) :
    (w.commit k').db.trades = before ++ k'.trade :: after := by
  have ht : t ∈ w.db.trades := by
    rw [hsplit]
    exact List.mem_append_right _ List.mem_cons_self
  have hids := hw.ids
  rw [World.commit_trades ht hid]
  rw [hsplit] at hids ⊢
  have hkeep : ∀ r, r ∈ before ∨ r ∈ after → r.id ≠ t.id := by
    intro r hr hkey
    rw [List.map_append, List.map_cons, List.nodup_append, List.nodup_cons] at hids
    obtain ⟨-, ⟨hnotin, -⟩, hdis⟩ := hids
    obtain hr | hr := hr
    · exact hdis r.id (List.mem_map_of_mem hr) t.id List.mem_cons_self hkey
    · exact hnotin (hkey ▸ List.mem_map_of_mem hr)
  rw [List.map_append, List.map_cons, if_pos rfl]
  congr 1
  · exact (List.map_congr_left fun r hr => if_neg (hkeep r (.inl hr))).trans (List.map_id' before)
  · congr 1
    exact (List.map_congr_left fun r hr => if_neg (hkeep r (.inr hr))).trans (List.map_id' after)

theorem World.WellFormed.commit_split {w : World} {t : Trade} {k' : Work} (hw : w.WellFormed)
    (ht : t ∈ w.db.trades) (hid : k'.trade.id = t.id) : ∃ before after,
      w.db.trades = before ++ t :: after ∧
        (w.commit k').db.trades = before ++ k'.trade :: after := by
  obtain ⟨before, after, hsplit⟩ := List.append_of_mem ht
  exact ⟨before, after, hsplit, hw.commit_rows hsplit hid⟩

theorem World.mem_commit {w : World} {t r : Trade} {k' : Work} (ht : t ∈ w.db.trades)
    (hid : k'.trade.id = t.id) (hr : r ∈ w.db.trades) (hne : r.id ≠ t.id) :
    r ∈ (w.commit k').db.trades := by
  rw [World.commit_trades ht hid]
  exact List.mem_map.mpr ⟨r, hr, if_neg hne⟩

/-- Nothing that belongs to a trade changed, and no outcome of a day. -/
structure Quiet (w w' : World) : Prop where
  trades : w'.db.trades = w.db.trades
  events : w'.db.tradeEvents = w.db.tradeEvents
  days : w.db.ledger.SameDays w'.db.ledger

theorem Quiet.refl (w : World) : Quiet w w := ⟨rfl, rfl, .refl _⟩

theorem Quiet.trans {w w' w'' : World} (h : Quiet w w') (h' : Quiet w' w'') : Quiet w w'' :=
  ⟨h'.trades.trans h.trades, h'.events.trans h.events, h.days.trans h'.days⟩

theorem Quiet.mapLedger {f : Ledger → Ledger} {w : World} (h : w.db.ledger.SameDays (f w.db.ledger)) :
    Quiet w (w.mapLedger f) := ⟨rfl, rfl, h⟩

/-- A stretch of one step: what has been committed since the world `w`. -/
inductive Commits (env : Env) (s : Step) (w : World) : World → Prop
  | start : Commits env s w w
  | commit {w₁ t k'} (h : Commits env s w w₁) (hw₁ : w₁.WellFormed) (ht : t ∈ w.db.trades)
      (ht₁ : t ∈ w₁.db.trades) (hk : Handled env w s (w₁.work t) k') : Commits env s w (w₁.commit k')
  | quiet {w₁ w₂} (h : Commits env s w w₁) (hq : Quiet w₁ w₂) : Commits env s w w₂
  | created {w₁ w₂ req io signalId plan raised k} (h : Commits env s w w₁) (hw₁ : w₁.WellFormed)
      (hs : s = .executeSignal req io)
      (hstart : entryStart env req io w = some (w₁, signalId, plan))
      (hk : settleEntry env.settings .spot req io (entryWork env req io (w₁, signalId, plan)) =
        .committed raised k)
      (htrades : w₂.db.trades = w₁.db.trades ++ [k.trade])
      (hevents : w₂.db.tradeEvents = w₁.db.tradeEvents ++ k.events)
      (hdays : w₁.db.ledger.SameDays w₂.db.ledger) : Commits env s w w₂

namespace Commits

variable {env : Env} {s : Step} {w w₁ : World}

/-- The loop of a reconcile pass: each listed trade is handled once, in its own session. -/
theorem foldl (f : Trade → Work → Work) (ts : List Trade)
    (hf : ∀ t ∈ ts, ∀ w₁ : World, Handled env w s (w₁.work t) (f t (w₁.work t)))
    (hnodup : (ts.map Trade.id).Nodup) (h : Commits env s w w₁) (hw₁ : w₁.WellFormed)
    (hmem : ∀ t ∈ ts, t ∈ w.db.trades) (hmem₁ : ∀ t ∈ ts, t ∈ w₁.db.trades) :
    Commits env s w (ts.foldl (fun w t => w.commit (f t (w.work t))) w₁) := by
  induction ts generalizing w₁ with
  | nil => exact h
  | cons t ts ih =>
    have ht := hmem₁ t List.mem_cons_self
    have hk := hf t List.mem_cons_self w₁
    have hnotin : t.id ∉ ts.map Trade.id := (List.nodup_cons.mp hnodup).1
    refine ih (fun r hr => hf r (List.mem_cons_of_mem _ hr)) (List.nodup_cons.mp hnodup).2
      (h.commit hw₁ (hmem t List.mem_cons_self) ht hk) (hw₁.commit ht hk.frame)
      (fun r hr => hmem r (List.mem_cons_of_mem _ hr)) ?_
    intro r hr
    exact World.mem_commit ht hk.frame.entry.id (hmem₁ r (List.mem_cons_of_mem _ hr))
      fun hid => hnotin (hid ▸ List.mem_map_of_mem hr)

theorem session (hw : w.WellFormed) {t : Trade} {k' : Work} (ht : t ∈ w.db.trades)
    (hk : Handled env w s (w.work t) k') : Commits env s w (w.commit k') :=
  Commits.start.commit hw ht ht hk

theorem of_quiet {w' : World} (h : Quiet w w') : Commits env s w w' := Commits.start.quiet h

theorem of_rollback (k' : Work) : Commits env s w (w.rollback k') :=
  .of_quiet ⟨rfl, rfl, .refl _⟩

end Commits

variable {env : Env} {w : World}

theorem processOrder_commits {data : OrderData} {io : HandlerIo} (hw : w.WellFormed) :
    Commits env (.processOrder data io) w (processOrder env.restClient io data w).2 := by
  unfold processOrder
  split
  · next link _ hlink _ =>
    split
    · exact .start
    · exact .start
    · next t hget =>
      obtain ⟨ht, hown⟩ := Db.getTradeByOrderLinkId_mem hget
      split
      · exact .of_rollback _
      · next b k' happ =>
        refine .session hw ht (.update ?_ happ fun _ => ⟨b, rfl⟩)
        simp [Step.update, hlink, hown]
  · exact .start

theorem processOrder_row {env : Env} {w : World} {data : OrderData} {io : HandlerIo} {t : Trade}
    {link : OrderLinkId} {b : Bool} {k' : Work} (hw : w.WellFormed) (ht : t ∈ w.db.trades)
    (hlink : data.orderLinkId = some link) (hown : t.ownsOrderLinkId link = true)
    (hmapped : orderStatusMap data.orderStatus ≠ none)
    (h : applyOrderUpdate env.restClient io data (w.work t) = (.ok b, k')) :
    (processOrder env.restClient io data w).2 = w.commit k' := by
  obtain ⟨s, hs⟩ := Option.ne_none_iff_exists'.mp hmapped
  simp only [processOrder, hlink, hs, hw.getTradeByOrderLinkId ht hown, h]

theorem World.WellFormed.getTrade {w : World} (hw : w.WellFormed) {t : Trade}
    (ht : t ∈ w.db.trades) : w.db.getTrade t.id = some t := by
  cases hget : w.db.getTrade t.id with
  | none => exact absurd (List.find?_eq_none.mp hget t ht) (by simp)
  | some r =>
    obtain ⟨hr, hid⟩ := Db.getTrade_mem hget
    rw [hw.eq_of_id hr ht hid]

theorem processExecution_commits {data : ExecutionData} (hw : w.WellFormed) :
    Commits env (.processExecution data) w (processExecution data w).2 := by
  unfold processExecution
  split
  · exact .start
  · next link hlink =>
    split_ifs
    · exact .start
    · split
      · exact .start
      · exact .start
      · exact .start
      · next fee t hfee hget =>
        obtain ⟨ht, hown⟩ := Db.getTradeByOrderLinkId_mem hget
        dsimp only
        split
        · exact .start
        · next t' hslip =>
          have hadd : noteSlippage link data.execPrice (t.addFee fee) = .ok t' := by
            cases fee <;> exact hslip
          exact .session hw ht (.execution hlink hown hfee hadd)

theorem closeTrade_commits {id : TradeId} {reason : ExitReason} {io : CloseIo}
    (hw : w.WellFormed) : Commits env (.closeTrade id reason io) w
      (closeTrade env.settings.tradingMode id reason io w).2 := by
  unfold closeTrade
  split
  · exact .start
  · next t hget =>
    obtain ⟨ht, rfl⟩ := Db.getTrade_mem hget
    split_ifs with hst
    · split
      · exact .of_rollback _
      · next k' hclose => exact .session hw ht (.closed hst hclose)
    · exact .start

theorem reconcileStatusGroup_commits {statuses : List TradeStatus}
    {answer : TradeId → StatusOutcome} {io : TradeId → HandlerIo} {s : Step} (hw : w.WellFormed)
    (hdata : ∀ (t : Trade) tracked remote, env.restClient = true →
      t.status ∈ statuses → t.trackedOrderLinkId = some tracked →
      answer t.id = .ok (some remote) →
      s.update env t = some (reconciledData tracked remote, io t.id))
    (hs : ¬ ∃ data io, s = .processOrder data io) :
    Commits env s w (reconcileStatusGroup env.restClient statuses answer io w) := by
  unfold reconcileStatusGroup
  split_ifs
  · exact .start
  · refine Commits.foldl
      (fun t k => (reconcileTrade env.restClient (answer t.id) (io t.id) k).2) _ ?_
      (hw.nodup_filter _) .start hw (fun t ht => (List.mem_filter.mp ht).1)
      fun t ht => (List.mem_filter.mp ht).1
    intro t ht w₁
    have hst : t.status ∈ statuses := by simpa using (List.mem_filter.mp ht).2
    obtain h | ⟨tracked, remote, hrest, htracked, hans, h⟩ :=
      reconcileTrade_cases env.restClient (answer t.id) (io t.id) (w₁.work t)
    · rw [h]
      exact .unanswered
    · rw [h]
      exact .update (hdata t tracked remote hrest hst htracked hans) rfl
        fun hevent => (hs hevent).elim

theorem protectListed_commits (hrest : env.restClient = true) (io : TradeId → HandlerIo)
    (ts : List Trade) (hts : ∀ t ∈ ts, Db.missingProtection t = true)
    (hnodup : (ts.map Trade.id).Nodup) {w₁ : World}
    (h : Commits env (.reconcileMissingProtection io) w w₁) (hw₁ : w₁.WellFormed)
    (hmem : ∀ t ∈ ts, t ∈ w.db.trades) (hmem₁ : ∀ t ∈ ts, t ∈ w₁.db.trades) :
    ∃ w', protectListed env.restClient io ts w₁ = (.ok (), w') ∧
      Commits env (.reconcileMissingProtection io) w w' := by
  induction ts generalizing w₁ with
  | nil => exact ⟨w₁, rfl, h⟩
  | cons t ts ih =>
    have hnotin : t.id ∉ ts.map Trade.id := (List.nodup_cons.mp hnodup).1
    have ht := hmem₁ t List.mem_cons_self
    have hmemRest : ∀ r ∈ ts, r ∈ w.db.trades := fun r hr => hmem r (List.mem_cons_of_mem _ hr)
    have ih := @ih (fun r hr => hts r (List.mem_cons_of_mem _ hr)) (List.nodup_cons.mp hnodup).2
    simp only [protectListed]
    cases hlink : t.orderLinkId with
    | none => exact ih h hw₁ hmemRest fun r hr => hmem₁ r (List.mem_cons_of_mem _ hr)
    | some link =>
      have hown : t.ownsOrderLinkId link = true := by
        rw [Trade.owns_iff]
        exact .inl hlink
      have hk : Handled env w (.reconcileMissingProtection io) (w₁.work t)
          (ensureSpotMarketProtection env.restClient (io t.id) (w₁.work t)).2 :=
        .protect hrest (hts t List.mem_cons_self)
      simp only [hw₁.getTradeByOrderLinkId ht hown]
      refine ih (h.commit hw₁ (hmem t List.mem_cons_self) ht hk) (hw₁.commit ht hk.frame) hmemRest ?_
      intro r hr
      exact World.mem_commit ht hk.frame.entry.id (hmem₁ r (List.mem_cons_of_mem _ hr))
        fun hid => hnotin (hid ▸ List.mem_map_of_mem hr)

theorem reconcileMissingProtection_commits {io : TradeId → HandlerIo} (hw : w.WellFormed) :
    Commits env (.reconcileMissingProtection io) w
      (reconcileMissingProtectionOrders env.restClient io w) := by
  unfold reconcileMissingProtectionOrders
  split_ifs with hrest
  · exact .start
  · obtain ⟨w', hrun, h⟩ := protectListed_commits (by simpa using hrest) io
      w.db.listSpotMarketTradesMissingProtection (fun t ht => (List.mem_filter.mp ht).2)
      (hw.nodup_filter _) .start hw (fun t ht => (List.mem_filter.mp ht).1)
      fun t ht => (List.mem_filter.mp ht).1
    rw [hrun]
    exact h

theorem killSwitchStatus_quiet (now : Timestamp) (w : World) : Quiet w (killSwitchStatus now w) :=
  .mapLedger (.clearPauseIfExpired now _)

theorem activateKillSwitch_quiet (mode : TradingMode) (restClient : Bool) (now : Timestamp)
    (w : World) : Quiet w (activateKillSwitch mode restClient now w) := by
  have hstatus := killSwitchStatus_quiet now w
  simp only [activateKillSwitch]
  split_ifs
  · exact hstatus
  · exact hstatus.trans ⟨rfl, rfl, .of_dailyStats rfl⟩
  · exact hstatus.trans ⟨rfl, rfl, .of_dailyStats rfl⟩

theorem resetKillSwitch_quiet (now : Timestamp) (w : World) : Quiet w (resetKillSwitch now w) :=
  .mapLedger (.trans (.resetSafetyState _ now _) (.of_dailyStats rfl))

theorem circuitBreaker_of_checkEntry {s : Settings} {req : NormalizedExecuteSignalRequest}
    {io : ExecuteIo} {signalId : SignalId} {db : Db} {e : PyError} {l : Ledger}
    (h : checkEntry s .spot req io signalId db = .error (e, some l)) :
    circuitBreakerCheck s io.now db.ledger = .error (e, some l) := by
  unfold checkEntry at h
  split at h
  · next e' hcheck =>
    rw [hcheck, Except.error.inj h]
  · split_ifs at h
    · simp at h
    · split at h <;> simp at h

theorem submitEntry_commits {req : NormalizedExecuteSignalRequest} {io : ExecuteIo}
    {signalId : SignalId} {plan : EntryPlan} {w₁ : World}
    (h : Commits env (.executeSignal req io) w w₁) (hw₁ : w₁.WellFormed)
    (hstart : entryStart env req io w = some (w₁, signalId, plan)) :
    Commits env (.executeSignal req io) w (submitEntry env req io signalId plan w₁).2 := by
  have hent := settleEntry_entered env.settings .spot req io
    (entryWork env req io (w₁, signalId, plan)) (entryWork_link _ _ _ _)
  obtain ⟨status, link, ty, new, henters, -, -⟩ := hent.enters (entryWork_link _ _ _ _)
  have hcreated : ∀ (raised : Option PyError) (k : Work) (w' : World),
      settleEntry env.settings .spot req io (entryWork env req io (w₁, signalId, plan)) =
        .committed raised k →
      w'.db.trades = Db.saveTrade k.trade w₁.db.trades →
      w'.db.tradeEvents = w₁.db.tradeEvents ++ k.events →
      w₁.db.ledger.SameDays w'.db.ledger → Commits env (.executeSignal req io) w w' := by
    intro raised k w' hres htrades hevents hdays
    rw [hres] at henters
    have hid : k.trade.id = w₁.issued := henters.same.id
    refine h.created hw₁ rfl hstart hres ?_ hevents hdays
    rw [htrades]
    exact Rows.put_of_fresh fun r hr => by
      rw [hid]
      exact (hw₁.fresh r hr).ne
  have hdays : w₁.db.ledger.SameDays (((w₁.db.ledger.ensureDailyStat io.now.date).clearPauseIfExpired
      io.now).incrementDailyTradeCount io.countedAt.date) :=
    .trans (.ensure io.now.date _) (.trans (.clearPauseIfExpired io.now _)
      (.incrementDailyTradeCount io.countedAt.date _))
  simp only [submitEntry]
  split
  · exact h.quiet ⟨rfl, rfl, .refl _⟩
  · next e k hres => exact hcreated (some e) k _ hres rfl rfl hdays
  · next k hres => exact hcreated none k _ hres rfl rfl hdays

theorem registerSignal_quiet {fingerprint : String} {loaded : Option SignalSubmission}
    {req : NormalizedExecuteSignalRequest} {w₁ : World}
    (h : registerSignal fingerprint loaded req w = .ok w₁) : Quiet w w₁ := by
  obtain ⟨rows, -, rfl⟩ := registerSignal_ok h
  exact ⟨rfl, rfl, .refl _⟩

theorem executeFresh_commits {req : NormalizedExecuteSignalRequest} {io : ExecuteIo}
    {loaded : Option SignalSubmission} {w₁ : World}
    (h : Commits env (.executeSignal req io) w w₁) (hw₁ : w₁.WellFormed)
    (hstart : entryStart env req io w =
      (freshStart env req io loaded w₁).map fun p => (p.1, w₁.issued, p.2)) :
    Commits env (.executeSignal req io) w (executeFresh env req io loaded w₁).2 := by
  unfold executeFresh
  split
  · exact h
  · next registered hreg =>
    obtain ⟨htrades, hexchange, hissued⟩ := registerSignal_same hreg
    have hguard := killSwitchGuard_world io.now registered
    have hseen := (registerSignal_quiet hreg).trans (killSwitchStatus_quiet io.now registered)
    split
    · next e w₂ hg =>
      rw [hg] at hguard
      obtain rfl : w₂ = killSwitchStatus io.now registered := hguard
      exact h.quiet hseen
    · next w₂ hg =>
      rw [hg] at hguard
      obtain rfl : w₂ = killSwitchStatus io.now registered := hguard
      split
      · next e l hcheck =>
        refine h.quiet (hseen.trans (.mapLedger ?_))
        cases l with
        | none => exact .refl _
        | some l => exact .circuitBreakerCheck (circuitBreaker_of_checkEntry hcheck)
      · next plan hcheck =>
        have hfresh : freshStart env req io loaded w₁ =
            some (killSwitchStatus io.now registered, plan) := by
          simp only [freshStart, hreg, hg, hcheck]
        refine submitEntry_commits (h.quiet hseen) ?_ (by rw [hstart, hfresh]; rfl)
        have hpass : Pass env (.executeSignal req io) [] w₁ (killSwitchStatus io.now registered) :=
          .of_eq hw₁ htrades (congrArg Exchange.orders hexchange)
            (hissued ▸ Nat.le_succ _ : w₁.issued ≤ registered.issued)
        exact hpass.wellFormed

theorem executeSignal_commits {req : NormalizedExecuteSignalRequest} {io : ExecuteIo}
    (hw : w.WellFormed) : Commits env (.executeSignal req io) w (executeSignal env req io w).2 := by
  unfold executeSignal
  split
  · next hnone => exact executeFresh_commits .start hw (by simp only [entryStart, hnone])
  · next submission hsub =>
    split
    · next hnone => exact executeFresh_commits .start hw (by simp only [entryStart, hsub, hnone])
    · next t hfound =>
      have ht := Db.getTradeForSubmission_mem hfound
      split_ifs with hterm hpend
      · exact executeFresh_commits .start hw (by simp only [entryStart, hsub, hfound, hterm, if_true])
      · split
        · exact .of_rollback _
        · next k hrun =>
          have hreplayed : replayed env req w = some t := by
            simp [replayed, hsub, hfound, hpend]
          have hk : Handled env w (.executeSignal req io) (w.work t) k := .resolved hreplayed hrun
          have hcommit : Commits env (.executeSignal req io) w (w.commit k) := .session hw ht hk
          split_ifs with hended
          · refine executeFresh_commits hcommit (hw.commit ht hk.frame) ?_
            simp only [entryStart, hsub, hfound]
            rw [if_neg hterm, if_pos hpend]
            simp only [hrun]
            rw [if_pos hended]
          · rw [replayResult_world]
            exact hcommit
      · rw [replayResult_world]
        exact .start

/-- Each step of the system is a chain of commits. -/
theorem step_commits (env : Env) (s : Step) {w : World} (hw : w.WellFormed) :
    Commits env s w (step env w s) := by
  cases s with
  | executeSignal req io => exact executeSignal_commits hw
  | processOrder data io => exact processOrder_commits hw
  | processExecution data => exact processExecution_commits hw
  | closeTrade id reason io => exact closeTrade_commits hw
  | reconcileEntryOrders answer io =>
    exact reconcileStatusGroup_commits hw reconcileEntry_update (by simp)
  | reconcileCloseOrders answer io =>
    exact reconcileStatusGroup_commits hw reconcileClose_update (by simp)
  | reconcileMissingProtection io => exact reconcileMissingProtection_commits hw
  | activateKillSwitch now => exact .of_quiet (activateKillSwitch_quiet _ _ now w)
  | resetKillSwitch now => exact .of_quiet (resetKillSwitch_quiet now w)
  | killSwitchStatus now => exact .of_quiet (killSwitchStatus_quiet now w)
  | settle link state => exact .of_quiet ⟨rfl, rfl, .refl _⟩

theorem Commits.each {P : Trade → Prop} {s : Step} {w' : World} (hc : Commits env s w w')
    (hkept : ∀ (w₁ : World) t k', w₁.WellFormed → t ∈ w₁.db.trades →
      Handled env w s (w₁.work t) k' → P t → P k'.trade)
    (hnew : ∀ req io p raised k,
      settleEntry env.settings .spot req io (entryWork env req io p) = .committed raised k →
        P k.trade)
    (h : ∀ t ∈ w.db.trades, P t) : ∀ t ∈ w'.db.trades, P t := by
  induction hc with
  | start => exact h
  | @commit w₁ t k' _ hw₁ _ ht₁ hk ih =>
    rw [World.commit_trades ht₁ hk.frame.entry.id]
    intro r' hr'
    obtain ⟨r, hr, rfl⟩ := List.mem_map.mp hr'
    split_ifs
    · exact hkept w₁ t k' hw₁ ht₁ hk (ih t ht₁)
    · exact ih r hr
  | quiet _ hq ih => exact hq.trades ▸ ih
  | created _ _ _ _ hk htrades _ _ ih =>
    rw [htrades]
    intro t ht
    obtain ht | ht := List.mem_append.mp ht
    · exact ih t ht
    · obtain rfl := List.mem_singleton.mp ht
      exact hnew _ _ _ _ _ hk

/-- What every commit of a step keeps, a whole run keeps. -/
theorem run_of_commits {env : Env} {I : World → Prop} (ss : List Step) (hinit : I {})
    (hstep : ∀ s w w', w.WellFormed → Commits env s w w' → I w → I w') :
    I (Runs.run (step env) {} ss) := by
  have h := Runs.run_invariant (I := fun w : World => w.WellFormed ∧ I w) ss
    ⟨wellFormed_init, hinit⟩ fun w s ⟨hw, hi⟩ =>
      ⟨(step_effect env s hw).2, hstep s w _ hw (step_commits env s hw) hi⟩
  exact h.2

end AmaExecutionCore
