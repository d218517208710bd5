import AmaExecutionCore.Activations
import AmaExecutionCore.EntryRecord
import AmaExecutionCore.DayAccounts

/-! The kill switch against requests under way: the guard is read once, and the orders are
cancelled for the trades committed by then, so it stops the entries as long as no request
is between its guard and its commit while an activation is at work. -/
namespace AmaExecutionCore
open TradeStatus

namespace Request

/-- Past the guard of the kill switch, with its trade not committed. -/
def inFlight (r : Request) : Bool :=
  match r.stage with
  | .guarded _ | .breakerPassed _ | .unsubmitted _ | .planned _ _ | .sent _ _ => true
  | _ => false

def passesGuard (env : Env) (r : Request) (w : World) : Bool :=
  match r.stage with
  | .unregistered loaded =>
    match (r.registered env loaded w).2.stage with
    | .guarded _ => true
    | _ => false
  | _ => false

end Request

def finalOutcome (mode : OrderMode) (io : ExecuteIo) : PlaceOutcome :=
  if mode = .takerAllowed then io.entry
  else
    match io.entry with
    | .apiError msg =>
      if mode = .makerPreferred ∧ looksLikePostOnlyRejection msg = true then io.fallback
      else io.entry
    | _ => io.entry

def reportsOver (lookup : StatusOutcome) : Bool :=
  match lookup with
  | .ok (some remote) => mapRemoteOrderStatus remote.orderStatus ∉ cancellableStatuses
  | _ => false

/-- The call ends in an outcome that leaves its trade among those the kill switch cancels. -/
def LeftCancellable (mode : OrderMode) (io : ExecuteIo) : Prop :=
  match finalOutcome mode io with
  | .accepted _ | .apiError _ => True
  | .connectionError _ | .timeoutError _ =>
    lookupCaught io.lookup = true ∧ reportsOver io.lookup = false
  | .otherError _ => False

instance (mode : OrderMode) (io : ExecuteIo) : Decidable (LeftCancellable mode io) := by
  unfold LeftCancellable
  split <;> infer_instance

/-- While an entry order of the trade works, the request loses sight neither of it nor of
that it works. -/
def Request.KeepsTrack (env : Env) (r : Request) (w : World) : Prop :=
  match r.stage with
  | .sent _ settled =>
    (∃ o ∈ w.exchange.entryOrders, o.trade = settled.work.trade.id ∧ o.isLive = true) →
      LeftCancellable env.settings.orderMode r.io
  | .statusAsked _ existing =>
    (∃ o ∈ w.exchange.entryOrders, o.trade = existing.id ∧ o.isLive = true) →
      reportsOver r.io.pendingLookup = false
  | _ => True

instance (env : Env) (r : Request) (w : World) : Decidable (r.KeepsTrack env w) := by
  unfold Request.KeepsTrack
  exact match r.stage with
    | .arrived | .submissionRead _ | .statusAsked .. | .unregistered _ | .guarded _
    | .breakerPassed _ | .unsubmitted _ | .planned .. | .sent .. | .recorded ..
    | .finished _ => inferInstance

namespace Party

def inFlight : Party → Bool
  | request r => r.inFlight
  | activation _ => false

def isCancelling : Party → Bool
  | activation (.cancelling _ _ _) => true
  | _ => false

def pastListing : Party → Bool
  | activation (.cancelling _ _ _) | activation (.activated _ _) => true
  | _ => false

def Stopped (s : Sessions.State World Party) : Party → Prop
  | activation (.activated asked sent) =>
    s.store.exchange.entryOrders.length = sent ∧
      ((∀ d ∈ s.sessions, d.ended = true) → ∀ o ∈ s.store.exchange.entryOrders,
        o.isLive = true → o.linkId ∈ asked)
  | _ => True

instance (s : Sessions.State World Party) (c : Party) : Decidable (c.Stopped s) := by
  unfold Stopped
  split <;> infer_instance

/-- What the party's next piece is free of. -/
def Clear (env : Env) (s : Sessions.State World Party) : Party → Prop
  | request r => (r.passesGuard env s.store = true → ∀ d ∈ s.sessions, d.isCancelling = false) ∧
      r.KeepsTrack env s.store
  | activation (.checked _) => ∀ d ∈ s.sessions, d.inFlight = false
  | activation _ => True

instance (env : Env) (s : Sessions.State World Party) (c : Party) : Decidable (c.Clear env s) := by
  unfold Clear
  split <;> infer_instance

end Party

/-- No entry order was sent since an activation committed, and when all have finished each
one that works was sent a cancel request by it. -/
def KillSwitchStops (s : Sessions.State World Party) : Prop := ∀ c ∈ s.sessions, c.Stopped s

instance : DecidablePred KillSwitchStops := fun s =>
  inferInstanceAs (Decidable (∀ c ∈ s.sessions, c.Stopped s))

/-- No request is between its guard and the commit of its trade when an activation lists the
trades, none passes the guard from there to the activation's commit, and each request keeps
track of its order. -/
def NoneInFlight (env : Env) (s : Sessions.State World Party) :
    Sessions.Act Call (OrderLinkId × OrderState) → Prop
  | .advance i => ∀ c ∈ s.sessions[i]?, c.Clear env s
  | _ => True

instance (env : Env) (s : Sessions.State World Party)
    (act : Sessions.Act Call (OrderLinkId × OrderState)) : Decidable (NoneInFlight env s act) := by
  cases act <;> unfold NoneInFlight <;> infer_instance

/-- The order's trade is committed and among those the kill switch cancels. -/
def Listed (w : World) (o : SentOrder) : Prop :=
  ∃ t ∈ w.db.trades, t.id = o.trade ∧ t.orderLinkId = some o.linkId ∧ t.status ∈ cancellableStatuses

/-- Each entry order that works belongs to such a trade. -/
def EntriesListed (w : World) : Prop :=
  ∀ o ∈ w.exchange.entryOrders, o.isLive = true → Listed w o

theorem finalAttempt_outcome (mode : OrderMode) (io : ExecuteIo) (k : Work) :
    (finalAttempt mode io k).outcome = finalOutcome mode io := by
  unfold finalAttempt finalOutcome
  by_cases hmode : mode = .takerAllowed
  · rw [if_pos hmode, if_pos hmode]
  · rw [if_neg hmode, if_neg hmode]
    cases io.entry with
    | apiError msg =>
      dsimp only
      split_ifs <;> rfl
    | accepted orderId => rfl
    | connectionError reached => rfl
    | timeoutError reached => rfl
    | otherError reached => rfl

/-- How the session of a new trade was left, when its order may work. -/
theorem Entered.working {s : Settings} {category : MarketType}
    {req : NormalizedExecuteSignalRequest} {io : ExecuteIo} {k : Work} {r : Settled}
    (h : Entered s category req io k r) (hmode : s.tradingMode ≠ .shadow)
    (hreached : (finalOutcome s.orderMode io).reached = true)
    (hleft : LeftCancellable s.orderMode io) :
    ∃ raised k', r = .committed raised k' ∧ k'.trade.status ∈ cancellableStatuses := by
  unfold LeftCancellable at hleft
  rw [← finalAttempt_outcome s.orderMode io k] at hreached hleft
  cases h with
  | shadow h => exact absurd h hmode
  | accepted _ ha _ ho h =>
    refine ⟨none, _, rfl, ?_⟩
    rw [h.status]
    decide
  | refused _ ha _ ho h =>
    subst ha
    rw [ho] at hreached
    cases hreached
  | uncertain _ ha _ ho _ hl h =>
    subst ha
    have hover : reportsOver io.lookup = false := by
      obtain ho | ho := ho <;> rw [ho] at hleft <;> exact hleft.2
    refine ⟨none, _, rfl, ?_⟩
    rw [h.status]
    obtain rfl | ⟨remote, hl, rfl⟩ := hl
    · decide
    · simpa [reportsOver, hl] using hover
  | unknown _ ha _ ho hcaught h =>
    subst ha
    obtain ho | ho := ho <;> rw [ho] at hleft <;> rw [hcaught] at hleft <;> cases hleft.1
  | broken _ ha _ ho h =>
    subst ha
    rw [ho] at hleft
    exact hleft.elim

theorem Entered.finalLink {s : Settings} {category : MarketType}
    {req : NormalizedExecuteSignalRequest} {io : ExecuteIo} {k : Work} {r : Settled}
    (h : Entered s category req io k r) (hmode : s.tradingMode ≠ .shadow) :
    r.work.trade.orderLinkId = some (finalAttempt s.orderMode io k).link := by
  cases h with
  | shadow h => exact absurd h hmode
  | accepted _ ha _ _ h => exact ha ▸ h.link
  | refused _ ha _ _ h => exact ha ▸ h.link
  | uncertain _ ha _ _ _ _ h => exact ha ▸ h.link
  | unknown _ ha _ _ _ h => exact ha ▸ h.link
  | broken _ ha _ _ h => exact ha ▸ h.link

def World.halted (w : World) : Bool := w.db.ledger.safety.killSwitchActive

theorem Ledger.checked_halted (now : Timestamp) (l : Ledger) :
    (l.checked now).safety.killSwitchActive = l.safety.killSwitchActive := by
  rw [checked_safety]
  split_ifs <;> rfl

theorem Ledger.clear_halted (now : Timestamp) (l : Ledger) :
    (l.clearPauseIfExpired now).safety.killSwitchActive = l.safety.killSwitchActive := by
  rw [clearPauseIfExpired_safety]
  split_ifs <;> rfl

theorem killSwitchStatus_halted (now : Timestamp) (w : World) :
    (killSwitchStatus now w).halted = w.halted := Ledger.clear_halted now _

theorem registered_halted (env : Env) (r : Request) (loaded : Option SignalSubmission) (w : World) :
    (r.registered env loaded w).1.halted = w.halted ∧
      ((r.registered env loaded w).2.inFlight = true → w.halted = false) := by
  unfold Request.registered
  split
  · exact ⟨rfl, fun h => by cases h⟩
  · next registered hreg =>
    have hkept : (killSwitchStatus r.io.now registered).halted = w.halted := by
      rw [killSwitchStatus_halted, World.halted, (registerSignal_rows hreg).2, World.halted]
    have hguard := killSwitchGuard_world r.io.now registered
    split
    · next e w' hrun =>
      rw [hrun] at hguard
      obtain rfl := hguard
      exact ⟨hkept, fun h => by cases h⟩
    · next w' hrun =>
      rw [hrun] at hguard
      obtain rfl := hguard
      refine ⟨hkept, fun _ => ?_⟩
      rw [← hkept]
      simp only [killSwitchGuard] at hrun
      split_ifs at hrun with hactive
      · cases hrun
      · simpa [World.halted] using hactive

/-- No piece of a request sets the flag or clears it. -/
theorem next_halted (env : Env) (r : Request) (w : World) : (r.next env w).1.halted = w.halted := by
  cases hst : r.stage with
  | arrived =>
    simp only [Request.next, hst]
    split <;> rfl
  | submissionRead submission => simp only [Request.next, hst]
  | statusAsked submission existing =>
    simp only [Request.next, hst, Request.answered]
    have hledger : (reconcilePendingUnknown r.io.pendingLookup (w.work existing)).2.ledger = w.db.ledger :=
      reconcilePendingUnknown_ledger r.io.pendingLookup (w.work existing)
    cases hk : reconcilePendingUnknown r.io.pendingLookup (w.work existing) with
    | mk result k =>
      rw [hk] at hledger
      have hcommit : (w.commitLoaded existing k).halted = w.halted :=
        congrArg (fun l => l.safety.killSwitchActive) hledger
      cases result with
      | error e => rfl
      | ok _ =>
        dsimp only
        split_ifs
        · exact hcommit
        · exact hcommit
  | unregistered loaded =>
    simp only [Request.next, hst]
    exact (registered_halted env r loaded w).1
  | guarded signalId =>
    have hcheck := circuitBreakerCheck_checked env.settings r.io.now w.db.ledger
    simp only [Request.next, hst]
    split
    · next e l hrun =>
      rw [hrun] at hcheck
      cases hcheck with
      | refused => rfl
      | tripped h =>
        obtain ⟨reason, hsafety⟩ := h.safety
        simp only [World.halted, World.adoptLedger, World.mapLedger, Option.getD_some, hsafety]
        exact Ledger.checked_halted _ _
    · rfl
  | breakerPassed signalId =>
    simp only [Request.next, hst]
    split_ifs <;> rfl
  | unsubmitted signalId =>
    simp only [Request.next, hst]
    split <;> rfl
  | planned signalId plan => simp only [Request.next, hst, Request.submitted, World.halted]
  | sent signalId settled =>
    have hrecorded : ∀ k : Work, World.halted { w with db := recordEntry r.io k w.db } = w.halted := by
      intro k
      simp only [World.halted, recordEntry, Ledger.incrementDailyTradeCount, Ledger.updateDailyStat,
        Ledger.ensureDailyStat_safety]
      exact Ledger.checked_halted _ _
    simp only [Request.next, hst, Request.committed]
    split
    · rfl
    · exact hrecorded _
    · exact hrecorded _
  | recorded signalId trade => simp only [Request.next, hst, World.linkTrade, World.halted, linkTrade]
  | finished result => simp only [Request.next, hst]

/-- A request comes in flight by passing the guard. -/
theorem next_inFlight {env : Env} {r : Request} {w : World} (h : (r.next env w).2.inFlight = true) :
    r.inFlight = true ∨ (r.passesGuard env w = true ∧ w.halted = false) := by
  cases hst : r.stage with
  | arrived =>
    simp only [Request.next, hst] at h
    split at h <;> cases h
  | submissionRead submission =>
    simp only [Request.next, hst, Request.resolved] at h
    split at h
    · cases h
    · split_ifs at h <;> cases h
  | statusAsked submission existing =>
    simp only [Request.next, hst, Request.answered] at h
    split at h
    · cases h
    · split_ifs at h <;> cases h
  | unregistered loaded =>
    simp only [Request.next, hst] at h
    refine .inr ⟨?_, (registered_halted env r loaded w).2 h⟩
    have hstage : ∃ signalId, (r.registered env loaded w).2.stage = .guarded signalId := by
      unfold Request.registered at h ⊢
      split at h
      · cases h
      · split at h
        · cases h
        · exact ⟨_, rfl⟩
    obtain ⟨signalId, hstage⟩ := hstage
    simp only [Request.passesGuard, hst, hstage]
  | recorded signalId trade =>
    simp only [Request.next, hst] at h
    cases h
  | finished result =>
    simp only [Request.next, hst, Request.inFlight] at h
    cases h
  | guarded _ | breakerPassed _ | unsubmitted _ | planned _ _ | sent _ _ =>
    left
    simp only [Request.inFlight, hst]

theorem mem_entryOrders {x : Exchange} {o : SentOrder} :
    o ∈ x.entryOrders ↔ o ∈ x.orders ∧ o.role = .entry := by
  simp [Exchange.entryOrders]

/-- A request that has sent its entry order: the session of its trade, and the one order of
the trade that can work. -/
def SentEntry (env : Env) (w : World) (r : Request) : Prop :=
  match r.stage with
  | .sent _ settled => (∃ k, Entered env.settings .spot r.req r.io k settled) ∧
      ∀ o ∈ w.exchange.entryOrders, o.trade = settled.work.trade.id → o.isLive = true →
        settled.work.trade.orderLinkId = some o.linkId ∧
          (finalOutcome env.settings.orderMode r.io).reached = true
  | _ => True

def Request.sends (r : Request) (o : SentOrder) : Prop := ∃ t ∈ r.pending, t.id = o.trade

theorem submitted_orders (env : Env) (r : Request) (signalId : SignalId) (plan : EntryPlan) (w : World) :
    ∃ new, (r.submitted env signalId plan w).1.exchange.orders = w.exchange.orders ++ new ∧
      ∀ o ∈ new, o.trade = w.issued := by
  have hent := settleEntry_entered env.settings .spot r.req r.io
    (entryWork env r.req r.io (w, signalId, plan)) (entryWork_link _ _ _ _)
  refine ⟨_, hent.orders, ?_⟩
  intro o ho
  split_ifs at ho
  · cases ho
  · obtain ⟨a, -, rfl⟩ := List.mem_map.mp ho
    rfl

theorem Piece.orders {env : Env} {r : Request} {w : World} {p : World × Request}
    (hp : Piece env r w p) : p.1.exchange.orders = w.exchange.orders ∨ (∃ signalId plan,
      r.stage = .planned signalId plan ∧ p = r.submitted env signalId plan w) := by
  cases hp with
  | unread | read | renewed | asked | replayed | breaker | idempotent | planned | committed | linked
  | ended => exact .inl rfl
  | told _ hk _ =>
    obtain ⟨-, -, hsent⟩ := told_rows hk
    exact .inl hsent
  | registered _ _ _ _ _ hexchange _ _ => exact .inl (congrArg Exchange.orders hexchange)
  | submitted hst => exact .inr ⟨_, _, hst, rfl⟩
  | raised hsame => exact .inl hsame.orders

theorem submitted_id (env : Env) (r : Request) (signalId : SignalId) (plan : EntryPlan) (w : World) :
    (settleEntry env.settings .spot r.req r.io
      (entryWork env r.req r.io (w, signalId, plan))).work.trade.id = w.issued := by
  obtain ⟨status, link, ty, new, henters, -, -⟩ :=
    (settleEntry_entered env.settings .spot r.req r.io (entryWork env r.req r.io (w, signalId, plan))
      (entryWork_link _ _ _ _)).enters (entryWork_link _ _ _ _)
  exact henters.same.id

theorem submitted_sent {env : Env} {r : Request} {signalId : SignalId} {plan : EntryPlan} {w : World}
    (hw : w.WellFormed) (hmode : env.settings.tradingMode ≠ .shadow) :
    SentEntry env (r.submitted env signalId plan w).1 (r.submitted env signalId plan w).2 := by
  have hent := settleEntry_entered env.settings .spot r.req r.io
    (entryWork env r.req r.io (w, signalId, plan)) (entryWork_link _ _ _ _)
  refine ⟨⟨_, hent⟩, fun o ho htrade hlive => ?_⟩
  have horders := hent.orders
  rw [if_neg hmode] at horders
  have ho' := (mem_entryOrders.mp ho).1
  simp only [Request.submitted, horders] at ho'
  obtain ho' | ho' := List.mem_append.mp ho'
  · have hlt := hw.sent o ho'
    rw [htrade, submitted_id] at hlt
    exact absurd hlt (lt_irrefl _)
  · obtain ⟨a, ha, rfl⟩ := List.mem_map.mp ho'
    have hreached : a.outcome.reached = true := by
      by_contra hnot
      have hrefused := (attemptOrder_refused .spot r.req
        (entryWork env r.req r.io (w, signalId, plan)).trade a).mpr (by simpa using hnot)
      simp [SentOrder.isLive, hrefused, OrderState.isLive] at hlive
    have hfinal := eq_finalAttempt_of_reached ha hreached
    rw [hfinal, finalAttempt_outcome] at hreached
    refine ⟨?_, hreached⟩
    rw [hent.finalLink hmode, attemptOrder_link, hfinal]

theorem Listed.told {r : Request} {existing : Trade} {k : Work} {w : World} {o : SentOrder}
    (hk : reconcilePendingUnknown r.io.pendingLookup (w.work existing) = (.ok (), k))
    (hover : existing.id = o.trade → reportsOver r.io.pendingLookup = false) (h : Listed w o) :
    Listed (w.commitLoaded existing k) o := by
  obtain ⟨t, ht, hid, hlink, hst⟩ := h
  by_cases hex : t.id = existing.id
  · refine ⟨existing.overwrite k.trade t, ?_, hid, ?_, ?_⟩
    · exact List.mem_map.mpr ⟨t, ht, if_pos hex⟩
    · have hsame : k.trade.orderLinkId = existing.orderLinkId := (told_rows hk).1.orderLinkId
      simp [Trade.overwrite, written, hsame, hlink]
    · simp only [Trade.overwrite, written]
      split_ifs with hwritten
      · exact hst
      · obtain hsame | ⟨remote, hl, htold⟩ := told_status hk
        · exact absurd hsame hwritten
        · rw [htold]
          simpa [reportsOver, hl] using hover (hex.symm.trans hid)
  · exact ⟨t, List.mem_map.mpr ⟨t, ht, if_neg hex⟩, hid, hlink, hst⟩

theorem Listed.of_trades {w w' : World} {o : SentOrder} (h : Listed w o)
    (htrades : w'.db.trades = w.db.trades) : Listed w' o := by
  obtain ⟨t, ht, hrest⟩ := h
  exact ⟨t, htrades ▸ ht, hrest⟩

theorem Piece.listed {env : Env} {r : Request} {w : World} {p : World × Request} {o : SentOrder}
    (hp : Piece env r w p) (hown : OwnTrade w r) (hkeep : r.KeepsTrack env w)
    (ho : o ∈ w.exchange.entryOrders) (hlive : o.isLive = true) (h : Listed w o) : Listed p.1 o := by
  cases hp with
  | unread | read | renewed | asked | replayed | breaker | idempotent | planned | submitted | linked
  | ended => exact h.of_trades rfl
  | @told submission existing k stage hst hk _ =>
    refine h.told hk fun hid => ?_
    simp only [Request.KeepsTrack, hst] at hkeep
    exact hkeep ⟨o, ho, hid.symm, hlive⟩
  | registered _ _ _ _ htrades _ _ _ => exact h.of_trades htrades
  | @committed signalId raised k stage hst _ =>
    have hput : Db.saveTrade k.trade w.db.trades = w.db.trades ++ [k.trade] :=
      Rows.put_of_fresh (hown k.trade (by simp [Request.pending, hst, Settled.work])).fresh
    obtain ⟨t, ht, hrest⟩ := h
    refine ⟨t, ?_, hrest⟩
    simp only [recordEntry, hput]
    exact List.mem_append_left _ ht
  | raised hsame => exact h.of_trades hsame.trades

/-- An order on its way to the database stays so, or is listed there. -/
theorem sends_next {env : Env} {r : Request} {w : World} {o : SentOrder}
    (hmode : env.settings.tradingMode ≠ .shadow) (hsent : SentEntry env w r)
    (hkeep : r.KeepsTrack env w) (ho : o ∈ w.exchange.entryOrders) (hlive : o.isLive = true)
    (h : r.sends o) : Listed (r.next env w).1 o := by
  obtain ⟨t, ht, hid⟩ := h
  cases hst : r.stage with
  | sent signalId settled =>
    obtain rfl : settled.work.trade = t := by simpa [Request.pending, hst] using ht
    simp only [SentEntry, hst] at hsent
    simp only [Request.KeepsTrack, hst] at hkeep
    obtain ⟨⟨k₀, hent⟩, horders⟩ := hsent
    obtain ⟨hlink, hreached⟩ := horders o ho hid.symm hlive
    obtain ⟨raised, k, rfl, hstatus⟩ :=
      hent.working hmode hreached (hkeep ⟨o, ho, hid.symm, hlive⟩)
    have hlisted : Listed { w with db := recordEntry r.io k w.db } o :=
      ⟨k.trade, Rows.mem_put _ _, hid, hlink, hstatus⟩
    simp only [Request.next, hst]
    cases raised with
    | none => exact hlisted
    | some e => exact hlisted
  | _ => simp [Request.pending, hst] at ht

namespace Party

def Sends (o : SentOrder) : Party → Prop
  | request r => r.sends o
  | activation _ => False

/-- The activation has asked for the order's cancellation, or will. -/
def Covers (o : SentOrder) : Party → Prop
  | activation (.cancelling _ pending asked) =>
    o.linkId ∈ asked ∨ ∃ t ∈ pending, t.orderLinkId = some o.linkId
  | activation (.activated asked _) => o.linkId ∈ asked
  | _ => True

/-- Since the activation's commit the flag is set, and no entry order was sent. -/
def Committed (w : World) : Party → Prop
  | activation (.activated _ sent) => w.halted = true ∧ w.exchange.entryOrders.length = sent
  | _ => True

/-- What a request has to itself, and what it knows of its order. -/
def Own (env : Env) (w : World) : Party → Prop
  | request r => OwnTrade w r ∧ SentEntry env w r
  | activation _ => True

/-- What holds of each party whatever the interleaving. -/
structure Sound (env : Env) (w : World) (c : Party) : Prop where
  own : c.Own env w
  covered : ∀ o ∈ w.exchange.entryOrders, o.isLive = true → c.Covers o
  committed : c.Committed w

/-- What holds between two parties: while an activation is past its listing no request is
in flight. -/
structure Apart (c d : Party) : Prop where
  trades : ∀ r, c = request r → ∀ r', d = request r' → OtherTrade r r'
  quiet : c.pastListing = true → d.inFlight = false

theorem covers_of_not_pastListing {c : Party} (h : c.pastListing = false) (o : SentOrder) :
    c.Covers o := by
  cases c with
  | request r => trivial
  | activation a => cases a <;> trivial

theorem committed_of_not_pastListing {c : Party} (h : c.pastListing = false) (w : World) :
    c.Committed w := by
  cases c with
  | request r => trivial
  | activation a => cases a <;> trivial

theorem Committed.kept {c : Party} {w w' : World} (h : c.Committed w)
    (horders : w'.exchange.entryOrders.length = w.exchange.entryOrders.length)
    (hhalted : w.halted = true → w'.halted = true) : c.Committed w' := by
  cases c with
  | request r => trivial
  | activation a =>
    cases a with
    | activated asked sent => exact ⟨hhalted h.1, horders.trans h.2⟩
    | _ => trivial

/-- A world with the same trades and orders is as good for a party. -/
theorem Sound.kept {env : Env} {c : Party} {w w' : World} (h : c.Sound env w)
    (htrades : w'.db.trades = w.db.trades) (horders : w'.exchange.orders = w.exchange.orders)
    (hissued : w.issued ≤ w'.issued) (hhalted : w.halted = true → w'.halted = true) :
    c.Sound env w' := by
  have hentries : w'.exchange.entryOrders = w.exchange.entryOrders := by
    rw [Exchange.entryOrders, horders, Exchange.entryOrders]
  refine ⟨?_, hentries ▸ h.covered, h.committed.kept (congrArg List.length hentries) hhalted⟩
  have hown := h.own
  cases c with
  | activation a => trivial
  | request r =>
    obtain ⟨hres, hsent⟩ := hown
    refine ⟨fun t ht => (hres t ht).keepsIds (.of_trades htrades hissued), ?_⟩
    unfold SentEntry at hsent ⊢
    rwa [hentries]

end Party

theorem entryOrders_settle (link : OrderLinkId) (state : OrderState) (x : Exchange) :
    (x.settle link state).entryOrders = x.entryOrders.map (SentOrder.settle link state) := by
  simp only [Exchange.entryOrders, Exchange.settle, List.filter_map]
  congr 1
  refine List.filter_congr fun o _ => ?_
  simp [settle_role]

/-- The exchange only ends orders, so a party that knew what works still does. -/
theorem Party.Sound.settle {env : Env} {c : Party} {w : World} (h : c.Sound env w)
    (link : OrderLinkId) (state : OrderState) :
    c.Sound env { w with exchange := w.exchange.settle link state } := by
  have hback : ∀ o ∈ (w.exchange.settle link state).entryOrders, o.isLive = true →
      ∃ o₀ ∈ w.exchange.entryOrders, o₀.isLive = true ∧ o.trade = o₀.trade ∧ o.linkId = o₀.linkId := by
    intro o ho hlive
    rw [entryOrders_settle] at ho
    obtain ⟨o₀, ho₀, rfl⟩ := List.mem_map.mp ho
    exact ⟨o₀, ho₀, live_of_settle hlive, settle_trade _ _ _, settle_linkId _ _ _⟩
  refine ⟨?_, ?_, h.committed.kept ?_ id⟩
  · have hown := h.own
    cases c with
    | activation a => trivial
    | request r =>
      obtain ⟨hres, hsent⟩ := hown
      refine ⟨fun t ht => (hres t ht).keepsIds (.of_trades rfl (le_refl _)), ?_⟩
      unfold SentEntry at hsent ⊢
      split at hsent
      · refine ⟨hsent.1, fun o ho htrade hlive => ?_⟩
        obtain ⟨o₀, ho₀, hlive₀, htrade₀, hlink⟩ := hback o ho hlive
        rw [hlink]
        exact hsent.2 o₀ ho₀ (htrade₀.symm.trans htrade) hlive₀
      · trivial
  · intro o ho hlive
    obtain ⟨o₀, ho₀, hlive₀, -, hlink⟩ := hback o ho hlive
    have hcovers := h.covered o₀ ho₀ hlive₀
    cases c with
    | request r => trivial
    | activation a => cases a <;> simp only [Party.Covers, hlink] at hcovers ⊢ <;> exact hcovers
  · simp only [entryOrders_settle, List.length_map]

/-- An order that works is listed in the database, or on its way there. -/
def EntriesTracked (s : Sessions.State World Party) : Prop :=
  ∀ o ∈ s.store.exchange.entryOrders, o.isLive = true →
    Listed s.store o ∨ ∃ c ∈ s.sessions, c.Sends o

/-- What holds in every interleaving that meets the condition. -/
structure HaltSound (env : Env) (s : Sessions.State World Party) : Prop where
  holds : Sessions.Holds World.WellFormed (Party.Sound env) Party.Apart s
  tracked : EntriesTracked s

theorem HaltSound.quiet {env : Env} {s : Sessions.State World Party} (h : HaltSound env s) {i : Nat}
    {a : Activation} (hi : s.sessions[i]? = some (.activation a))
    (hpast : (Party.activation a).pastListing = true) : ∀ d ∈ s.sessions, d.inFlight = false := by
  intro d hd
  obtain ⟨j, hj⟩ := List.getElem?_of_mem hd
  by_cases hij : i = j
  · subst hij
    rw [hi] at hj
    obtain rfl := Option.some.inj hj
    rfl
  · exact (h.holds.apart i j _ d hi hj hij).quiet hpast

theorem haltSound_start {env : Env} {s : Sessions.State World Party} (h : HaltSound env s)
    (call : Call) : HaltSound env (Sessions.step (haltSystem env) s (.start call)) := by
  refine ⟨h.holds.start ?_ fun c _ => ⟨⟨?_, ?_⟩, ⟨?_, ?_⟩⟩, fun o ho hlive => ?_⟩
  · cases call with
    | executeSignal req io =>
      exact ⟨⟨fun t ht => (by cases ht), trivial⟩, fun _ _ _ => trivial, trivial⟩
    | activate now => exact ⟨trivial, fun _ _ _ => trivial, trivial⟩
  · intro r _ r' hr' t _ t' ht'
    cases call with
    | executeSignal req io =>
      cases hr'
      cases ht'
    | activate now => cases hr'
  · intro _
    cases call <;> rfl
  · intro r hr r' _ t ht
    cases call with
    | executeSignal req io =>
      cases hr
      cases ht
    | activate now => cases hr
  · intro hpast
    cases call <;> cases hpast
  · obtain hlisted | ⟨c, hc, hsends⟩ := h.tracked o ho hlive
    · exact .inl hlisted
    · exact .inr ⟨c, List.mem_append_left _ hc, hsends⟩

theorem haltSound_settle {env : Env} {s : Sessions.State World Party} (h : HaltSound env s)
    (e : OrderLinkId × OrderState) : HaltSound env (Sessions.step (haltSystem env) s (.event e)) := by
  obtain ⟨link, state⟩ := e
  refine ⟨h.holds.event ?_ fun c _ hc => hc.settle link state, fun o ho hlive => ?_⟩
  · exact (step_effect env (.settle link state) h.holds.store).2
  · simp only [Sessions.step, haltSystem, entryOrders_settle] at ho ⊢
    obtain ⟨o₀, ho₀, rfl⟩ := List.mem_map.mp ho
    obtain ⟨t, ht, hid, hlink, hst⟩ | ⟨c, hc, hsends⟩ := h.tracked o₀ ho₀ (live_of_settle hlive)
    · refine .inl ⟨t, ht, ?_, ?_, hst⟩
      · rw [settle_trade, hid]
      · rw [settle_linkId, hlink]
    · refine .inr ⟨c, hc, ?_⟩
      cases c with
      | activation a => exact hsends
      | request r =>
        obtain ⟨t, ht, hid⟩ := hsends
        exact ⟨t, ht, hid.trans (settle_trade _ _ _).symm⟩

/-- The piece of a request leaves it knowing of its order what it has to. -/
theorem sentEntry_next {env : Env} {r : Request} {w : World} (hw : w.WellFormed)
    (hmode : env.settings.tradingMode ≠ .shadow) :
    SentEntry env (r.next env w).1 (r.next env w).2 := by
  have hp := next_piece env r w
  generalize r.next env w = p at hp
  cases hp with
  | unread | read | renewed | asked | replayed | breaker | idempotent | planned | linked | raised =>
    trivial
  | told _ _ hstage =>
    obtain rfl | rfl := hstage <;> trivial
  | registered _ _ _ _ _ _ _ hstage =>
    obtain rfl | ⟨e, rfl⟩ := hstage <;> trivial
  | submitted hst => exact submitted_sent hw hmode
  | committed _ hstage =>
    obtain rfl | ⟨e, rfl⟩ := hstage <;> trivial
  | ended hst =>
    unfold SentEntry
    rw [hst]
    trivial

theorem entryOrders_append {x x' : Exchange} {new : List SentOrder}
    (h : x'.orders = x.orders ++ new) : x'.entryOrders =
      x.entryOrders ++ new.filter fun o => o.role = .entry := by
  rw [Exchange.entryOrders, h, List.filter_append, Exchange.entryOrders]

theorem Party.Sound.next {env : Env} {w : World} {r : Request} {d : Party} (hw : w.WellFormed)
    (hr : OwnTrade w r) (h : d.Sound env w) (hapart : Apart (request r) d)
    (hquiet : d.pastListing = true → r.inFlight = false) : d.Sound env (r.next env w).1 := by
  have hp := next_piece env r w
  have hhalted := next_halted env r w
  have howner : ∀ r', d = request r' → OwnTrade (r.next env w).1 r' := by
    rintro r' rfl
    exact ((hp.sound hw hr).2.2 r' h.own.1 (hapart.trades r rfl r' rfl)).1
  obtain ⟨new, horders, hnew⟩ : ∃ new, (r.next env w).1.exchange.orders =
      w.exchange.orders ++ new ∧ (∀ o ∈ new, o.trade = w.issued) ∧
        (r.inFlight = false → new = []) := by
    obtain hsame | ⟨signalId, plan, hst, hsub⟩ := hp.orders
    · exact ⟨[], by rw [hsame, List.append_nil], by simp, fun _ => rfl⟩
    · obtain ⟨new, horders, htrade⟩ := submitted_orders env r signalId plan w
      refine ⟨new, by rw [hsub, horders], htrade, fun hout => ?_⟩
      simp [Request.inFlight, hst] at hout
  obtain ⟨htrade, hnone⟩ := hnew
  have hentries := entryOrders_append horders
  by_cases hpast : d.pastListing = true
  · rw [hnone (hquiet hpast), List.filter_nil, List.append_nil] at hentries
    refine ⟨?_, hentries ▸ h.covered, h.committed.kept (congrArg List.length hentries) ?_⟩
    · cases d with
      | request r' => cases hpast
      | activation a => trivial
    · exact fun hon => hhalted.trans hon
  · refine ⟨?_, fun o _ _ => covers_of_not_pastListing (by simpa using hpast) o,
      committed_of_not_pastListing (by simpa using hpast) _⟩
    have hown := h.own
    cases d with
    | activation a => trivial
    | request r' =>
      refine ⟨howner r' rfl, ?_⟩
      obtain ⟨hres, hsent⟩ := hown
      unfold SentEntry at hsent ⊢
      split at hsent
      · next signalId settled hst =>
        refine ⟨hsent.1, fun o ho hid hlive => ?_⟩
        rw [hentries] at ho
        obtain ho | ho := List.mem_append.mp ho
        · exact hsent.2 o ho hid hlive
        · -- an order sent now is for another trade
          have hdrawn := (hres settled.work.trade (by simp [Request.pending, hst])).drawn
          rw [← hid, htrade o (List.mem_filter.mp ho).1] at hdrawn
          exact absurd hdrawn (lt_irrefl _)
      · trivial

/-- A request's piece keeps the orders tracked. -/
theorem tracked_next {env : Env} {s : Sessions.State World Party} {i : Nat} {r : Request}
    (h : HaltSound env s) (hi : s.sessions[i]? = some (.request r))
    (hmode : env.settings.tradingMode ≠ .shadow) (hkeep : r.KeepsTrack env s.store) :
    EntriesTracked ⟨(r.next env s.store).1, s.sessions.set i (.request (r.next env s.store).2)⟩ := by
  obtain ⟨⟨hres, hsent⟩, -, -⟩ := h.holds.own i _ hi
  have hp := next_piece env r s.store
  have hold : ∀ o ∈ s.store.exchange.entryOrders, o.isLive = true →
      Listed (r.next env s.store).1 o ∨
        ∃ c ∈ s.sessions.set i (.request (r.next env s.store).2), c.Sends o := by
    intro o ho hlive
    obtain hlisted | ⟨c, hc, hsends⟩ := h.tracked o ho hlive
    · exact .inl (hp.listed hres hkeep ho hlive hlisted)
    · obtain ⟨j, hj⟩ := List.getElem?_of_mem hc
      by_cases hij : i = j
      · subst hij
        rw [hi] at hj
        obtain rfl := Option.some.inj hj
        exact .inl (sends_next hmode hsent hkeep ho hlive hsends)
      · refine .inr ⟨c, List.mem_of_getElem? (i := j) ?_, hsends⟩
        rw [List.getElem?_set_ne hij, hj]
  intro o ho hlive
  obtain hsame | ⟨signalId, plan, hst, hsub⟩ := hp.orders
  · refine hold o ?_ hlive
    rw [mem_entryOrders] at ho ⊢
    rwa [hsame] at ho
  · obtain ⟨new, horders, htrade⟩ := submitted_orders env r signalId plan s.store
    rw [mem_entryOrders, hsub, horders, List.mem_append] at ho
    obtain ⟨ho | ho, hrole⟩ := ho
    · exact hold o (mem_entryOrders.mpr ⟨ho, hrole⟩) hlive
    · obtain ⟨hlt, -⟩ := List.getElem?_eq_some_iff.mp hi
      refine .inr ⟨.request (r.next env s.store).2, List.mem_set hlt _, ?_⟩
      rw [hsub]
      exact ⟨_, rfl, (submitted_id env r signalId plan s.store).trans (htrade o ho).symm⟩

theorem haltSound_request {env : Env} {s : Sessions.State World Party} {i : Nat} {r : Request}
    (h : HaltSound env s) (hi : s.sessions[i]? = some (.request r))
    (hmode : env.settings.tradingMode ≠ .shadow) (hclear : (Party.request r).Clear env s) :
    HaltSound env (Sessions.step (haltSystem env) s (.advance i)) := by
  obtain ⟨hguard, hkeep⟩ := hclear
  have hrest := tracked_next h hi hmode hkeep
  obtain ⟨⟨hres, hsent⟩, -, -⟩ := h.holds.own i _ hi
  have hp := next_piece env r s.store
  obtain ⟨hw', hown', hothers⟩ := hp.sound h.holds.store hres
  refine ⟨h.holds.advance fun c hc => ?_, ?_⟩
  · obtain rfl : Party.request r = c := Option.some.inj (hi.symm.trans hc)
    refine ⟨hw', ⟨⟨hown', sentEntry_next h.holds.store hmode⟩, fun _ _ _ => trivial, trivial⟩, ?_⟩
    intro j d hd hj
    have hd' := h.holds.own j d hd
    have hrd := h.holds.apart i j _ d hi hd hj.symm
    have hdr := h.holds.apart j i d _ hd hi hj
    refine ⟨hd'.next h.holds.store hres hrd hdr.quiet, ⟨?_, ?_⟩, ⟨?_, ?_⟩⟩
    · rintro r₁ hr₁ r' rfl
      obtain rfl := Party.request.inj hr₁
      exact (hothers r' hd'.own.1 (hrd.trades r rfl r' rfl)).2.1
    · intro hpast
      cases hpast
    · rintro r' rfl r₁ hr₁
      obtain rfl := Party.request.inj hr₁
      exact (hothers r' hd'.own.1 (hrd.trades r rfl r' rfl)).2.2
    · intro hpast
      by_contra hin
      have hnext : (r.next env s.store).2.inFlight = true := Bool.eq_true_of_not_eq_false hin
      obtain hflight | ⟨hpass, hoff⟩ := next_inFlight hnext
      · have hout := hdr.quiet hpast
        simp only [Party.inFlight, hflight] at hout
        cases hout
      · -- an activation that has committed set the flag, one at work was excluded
        have hcancel := hguard hpass d (List.mem_of_getElem? hd)
        have hcommitted := hd'.committed
        cases d with
        | request r' => cases hpast
        | activation a =>
          cases a with
          | activated asked sent =>
            rw [hcommitted.1] at hoff
            cases hoff
          | cancelling => cases hcancel
          | called | checked | ignored => cases hpast
  · simp only [Sessions.step, hi]
    exact hrest

theorem tracked_kept {w w' : World} {o : SentOrder} {c : Party} {s : List Party}
    (h : Listed w o ∨ ∃ c ∈ s, c.Sends o) (htrades : w'.db.trades = w.db.trades) {i : Nat}
    {a : Activation} (hi : s[i]? = some (.activation a)) :
    Listed w' o ∨ ∃ d ∈ s.set i c, d.Sends o := by
  obtain hlisted | ⟨d, hd, hsends⟩ := h
  · exact .inl (hlisted.of_trades htrades)
  · obtain ⟨j, hj⟩ := List.getElem?_of_mem hd
    refine .inr ⟨d, List.mem_of_getElem? (i := j) ?_, hsends⟩
    rw [List.getElem?_set_ne, hj]
    rintro rfl
    rw [hi] at hj
    obtain rfl := Option.some.inj hj
    exact hsends

/-- What a piece of an activation does: the trades and the orders stay, the flag is at most
set, and what is listed or committed holds by then. -/
theorem activation_next {env : Env} {s : Sessions.State World Party} {i : Nat} {a : Activation}
    (h : HaltSound env s) (hi : s.sessions[i]? = some (.activation a)) (hrest : env.restClient = true)
    (hmode : env.settings.tradingMode ≠ .shadow) (hclear : (Party.activation a).Clear env s) :
    (a.next env s.store).1.db.trades = s.store.db.trades ∧
      (a.next env s.store).1.exchange.orders = s.store.exchange.orders ∧
      (a.next env s.store).1.issued = s.store.issued ∧
      (s.store.halted = true → (a.next env s.store).1.halted = true) ∧
      (Party.activation (a.next env s.store).2).Sound env (a.next env s.store).1 ∧
      ((Party.activation (a.next env s.store).2).pastListing = true →
        ∀ d ∈ s.sessions, d.inFlight = false) := by
  have hsound := h.holds.own i _ hi
  cases a with
  | called now =>
    have hstatus : s.store.halted = true → (killSwitchStatus now s.store).halted = true := fun hon =>
      (killSwitchStatus_halted now s.store).trans hon
    simp only [Activation.next]
    split_ifs
    · exact ⟨rfl, rfl, rfl, hstatus, ⟨trivial, fun _ _ _ => trivial, trivial⟩, fun hp => by cases hp⟩
    · exact ⟨rfl, rfl, rfl, hstatus, ⟨trivial, fun _ _ _ => trivial, trivial⟩, fun hp => by cases hp⟩
  | checked now =>
    refine ⟨rfl, rfl, rfl, id, ⟨trivial, fun o ho hlive => ?_, trivial⟩, fun _ => hclear⟩
    obtain ⟨t, ht, -, hlink, hst⟩ | ⟨c, hc, hsends⟩ := h.tracked o ho hlive
    · refine .inr ⟨t, ?_, hlink⟩
      rw [Activation.listed, if_pos ⟨hrest, hmode⟩]
      exact List.mem_filter.mpr ⟨ht, by simpa using hst⟩
    · -- its request would be in flight
      have hout := hclear c hc
      cases c with
      | activation a => exact hsends.elim
      | request r =>
        obtain ⟨t, ht, -⟩ := hsends
        unfold Request.pending at ht
        split at ht
        · next hst => simp [Party.inFlight, Request.inFlight, hst] at hout
        · cases ht
  | cancelling now pending asked =>
    have hquiet := h.quiet hi rfl
    cases pending with
    | nil =>
      refine ⟨rfl, rfl, rfl, fun _ => rfl, ⟨trivial, fun o ho hlive => ?_, rfl, rfl⟩, fun _ => hquiet⟩
      obtain hasked | ⟨t, ht, -⟩ := hsound.covered o ho hlive
      · exact hasked
      · cases ht
    | cons t ts =>
      have hsame : (cancelEntryOrder s.store.exchange t).orders = s.store.exchange.orders := by
        unfold cancelEntryOrder
        split <;> rfl
      refine ⟨rfl, hsame, rfl, id, ⟨trivial, fun o ho hlive => ?_, trivial⟩, fun _ => hquiet⟩
      have ho' : o ∈ s.store.exchange.entryOrders := by
        rw [mem_entryOrders] at ho ⊢
        exact ⟨hsame ▸ ho.1, ho.2⟩
      obtain hasked | ⟨t', ht', hlink⟩ := hsound.covered o ho' hlive
      · exact .inl (List.mem_append_left _ hasked)
      · obtain rfl | ht' := List.mem_cons.mp ht'
        · refine .inl (List.mem_append_right _ ?_)
          simp [hlink]
        · exact .inr ⟨t', ht', hlink⟩
  | activated asked sent =>
    have hquiet := h.quiet hi rfl
    exact ⟨rfl, rfl, rfl, id, hsound, fun _ => hquiet⟩
  | ignored => exact ⟨rfl, rfl, rfl, id, hsound, fun hp => by cases hp⟩

theorem haltSound_activation {env : Env} {s : Sessions.State World Party} {i : Nat} {a : Activation}
    (h : HaltSound env s) (hi : s.sessions[i]? = some (.activation a)) (hrest : env.restClient = true)
    (hmode : env.settings.tradingMode ≠ .shadow) (hclear : (Party.activation a).Clear env s) :
    HaltSound env (Sessions.step (haltSystem env) s (.advance i)) := by
  obtain ⟨htrades, horders, hissued, hhalted, hown, hquiet⟩ := activation_next h hi hrest hmode hclear
  refine ⟨h.holds.advance fun c hc => ?_, ?_⟩
  · obtain rfl : Party.activation a = c := Option.some.inj (hi.symm.trans hc)
    refine ⟨h.holds.store.untouched htrades horders hissued.ge, hown, ?_⟩
    intro j d hd hj
    refine ⟨(h.holds.own j d hd).kept htrades horders hissued.ge hhalted, ⟨?_, ?_⟩, ⟨?_, ?_⟩⟩
    · intro r hr
      cases hr
    · exact fun hpast => hquiet hpast d (List.mem_of_getElem? hd)
    · intro r _ r' hr'
      cases hr'
    · exact fun _ => rfl
  · simp only [Sessions.step, hi]
    intro o ho hlive
    refine tracked_kept (h.tracked o ?_ hlive) htrades hi
    rw [mem_entryOrders] at ho ⊢
    exact ⟨horders ▸ ho.1, ho.2⟩

theorem haltSound_step {env : Env} {s : Sessions.State World Party} (hrest : env.restClient = true)
    (hmode : env.settings.tradingMode ≠ .shadow) (h : HaltSound env s)
    (act : Sessions.Act Call (OrderLinkId × OrderState)) (hclear : NoneInFlight env s act) :
    HaltSound env (Sessions.step (haltSystem env) s act) := by
  cases act with
  | start call => exact haltSound_start h call
  | event e => exact haltSound_settle h e
  | advance i =>
    cases hi : s.sessions[i]? with
    | none =>
      simp only [Sessions.step, hi]
      exact h
    | some c =>
      have hc := hclear c hi
      cases c with
      | request r => exact haltSound_request h hi hmode hc
      | activation a => exact haltSound_activation h hi hrest hmode hc

theorem HaltSound.stops {env : Env} {s : Sessions.State World Party} (h : HaltSound env s) :
    KillSwitchStops s := by
  intro c hc
  obtain ⟨i, hi⟩ := List.getElem?_of_mem hc
  have hsound := h.holds.own i c hi
  cases c with
  | request r => trivial
  | activation a =>
    cases a with
    | activated asked sent =>
      exact ⟨hsound.committed.2, fun _ o ho hlive => hsound.covered o ho hlive⟩
    | _ => trivial

/-- From a world in which every working entry order is listed, in a run in which no request
is in flight past the guard while an activation is at work, the kill switch stops the
entries. Alone, an activation is `activate` (`Activation.runAlone_eq`). -/
theorem killSwitchStops_run (env : Env) (hrest : env.restClient = true)
    (hmode : env.settings.tradingMode ≠ .shadow) (w : World) (hw : w.WellFormed)
    (hlisted : EntriesListed w) (acts : List (Sessions.Act Call (OrderLinkId × OrderState)))
    (h : Runs.Meets (Sessions.step (haltSystem env)) (NoneInFlight env) ⟨w, []⟩ acts) :
    Runs.Always (Sessions.step (haltSystem env)) KillSwitchStops ⟨w, []⟩ acts :=
  Runs.always_of_invariant (I := HaltSound env)
    ⟨.init hw, fun o ho hlive => .inl (hlisted o ho hlive)⟩
    (fun _ act hs hclear => haltSound_step hrest hmode hs act hclear) (fun _ hs => hs.stops) h

/-- A request whose entry order is accepted. -/
def acceptedCall : Call := .executeSignal demoRequest (demoExecute (.accepted none) (.ok none))

/-- A request from its start to its end, and then an activation. -/
theorem killSwitchStops_serial : Runs.Always (Sessions.step (haltSystem (demoEnv .takerAllowed)))
    KillSwitchStops ⟨{}, []⟩ (.start acceptedCall :: List.replicate 8 (.advance 0) ++
      .start (.activate 1) :: List.replicate 4 (.advance 1)) :=
  killSwitchStops_run _ rfl (by decide) _ wellFormed_init
    (by simp [EntriesListed, Exchange.entryOrders]) _ (by decide +kernel)

/-- An activation while a request is past its guard: the entry order is sent afterwards, and
nothing cancels it. -/
theorem killSwitchStops_fails :
    ¬ Runs.Always (Sessions.step (haltSystem (demoEnv .takerAllowed))) KillSwitchStops ⟨{}, []⟩
      (.start acceptedCall :: List.replicate 2 (.advance 0) ++
        .start (.activate 1) :: List.replicate 3 (.advance 1) ++ List.replicate 6 (.advance 0)) := by
  decide +kernel

end AmaExecutionCore
