import AmaExecutionCore.RequestBook
import AmaExecutionCore.Revival

/-! Deduplication of interleaved requests: the fingerprint's row is committed before any trade
exists, so only one request at a time may be between its registration and its commit. -/
namespace AmaExecutionCore
open TradeStatus

/-- The request's next piece creates its trade and sends the entry order. -/
def Request.submits (r : Request) : Bool :=
  match r.stage with
  | .planned _ _ => true
  | _ => false

/-- A request sends its entry order only when every other trade of its fingerprint, committed
or flushed, is terminal, and of the orders it sends the exchange takes at most one. -/
def OneEntry (env : Env) (s : Sessions.State World Request) :
    Sessions.Act (NormalizedExecuteSignalRequest × ExecuteIo) Step → Prop
  | .advance i => ∀ r ∈ s.sessions[i]?, r.submits = true →
      (∀ t ∈ s.store.db.trades, s.store.Answers (env.fingerprint r.req) t →
        isTradeTerminal t.status = true) ∧
      (∀ r' ∈ s.sessions, env.fingerprint r'.req = env.fingerprint r.req →
        ∀ t ∈ r'.pending, isTradeTerminal t.status = true) ∧
      ((r.next env s.store).1.exchange.orders.drop s.store.exchange.orders.length).countP
        (fun o => o.state ≠ .refused) ≤ 1
  | _ => True

instance (env : Env) (s : Sessions.State World Request)
    (act : Sessions.Act (NormalizedExecuteSignalRequest × ExecuteIo) Step) :
    Decidable (OneEntry env s act) :=
  match act with
  | .start _ | .advance _ | .event _ => by unfold OneEntry; infer_instance

/-- A request that ended well returns the trade it made itself, or replays a committed trade
of its fingerprint and made none. -/
def Answered (env : Env) (s : Sessions.State World Request) : Prop :=
  ∀ r ∈ s.sessions, ∀ result, r.stage = .finished (.ok result) →
    if result.replayed then
      r.created = none ∧ s.store.HasTrade (env.fingerprint r.req) result.tradeId
    else r.created = some result.tradeId

/-- The request is between its registration and the commit of its trade. -/
def Request.inWindow (r : Request) : Bool :=
  match r.stage with
  | .guarded _ | .breakerPassed _ | .unsubmitted _ | .planned _ _ | .sent _ _ => true
  | _ => false

/-- The request is about to register again under a row it has read. -/
def Request.renews (r : Request) : Bool :=
  match r.stage with
  | .unregistered (some _) => true
  | _ => false

/-- The update takes a terminal trade out of the terminal statuses. -/
def ReopenedBy (data : OrderData) (t : Trade) : Prop :=
  isTradeTerminal t.status = true ∧ t.status ≠ pnlRecorded ∧ ∃ link ∈ data.orderLinkId,
    if t.isProtectiveClose link = true then data.orderStatus = .partiallyFilled
    else t.status ∈ [orderRejected, orderCancelled] ∧
      data.orderStatus ∈ [.filled, .partiallyFilled]

instance (data : OrderData) (t : Trade) : Decidable (ReopenedBy data t) :=
  inferInstanceAs (Decidable (isTradeTerminal t.status = true ∧ t.status ≠ pnlRecorded ∧
    ∃ link ∈ data.orderLinkId, if t.isProtectiveClose link = true then
      data.orderStatus = .partiallyFilled
    else t.status ∈ [orderRejected, orderCancelled] ∧
      data.orderStatus ∈ [.filled, .partiallyFilled]))

/-- The step takes a terminal trade out of the terminal statuses. -/
def Step.Reopens (env : Env) (t : Trade) : Step → Prop
  | .closeTrade id _ _ => id = t.id ∧ t.status = positionCloseFailed
  | s => ∃ u ∈ s.update env t, ReopenedBy u.1 t

instance (env : Env) (t : Trade) (s : Step) : Decidable (s.Reopens env t) :=
  match s with
  | .executeSignal .. | .processOrder .. | .processExecution .. | .closeTrade ..
  | .reconcileEntryOrders .. | .reconcileCloseOrders .. | .reconcileMissingProtection ..
  | .activateKillSwitch .. | .resetKillSwitch .. | .killSwitchStatus .. | .settle .. => by
    unfold Step.Reopens; infer_instance

/-- The answer about a pending order takes a trade that ended meanwhile out of the terminal
statuses. -/
def Request.reopens (t : Trade) (r : Request) : Prop :=
  match r.stage, r.io.pendingLookup with
  | .statusAsked _ existing, .ok (some remote) =>
    t.id = existing.id ∧ isTradeTerminal t.status = true ∧
      mapRemoteOrderStatus remote.orderStatus ≠ existing.status ∧
      isTradeTerminal (mapRemoteOrderStatus remote.orderStatus) = false
  | _, _ => False

instance (t : Trade) (r : Request) : Decidable (r.reopens t) := by
  unfold Request.reopens
  exact match r.stage with
    | .statusAsked .. => match r.io.pendingLookup with
      | .ok (some _) | .ok none | .error _ => inferInstance
    | .arrived | .submissionRead _ | .unregistered _ | .guarded _ | .breakerPassed _
    | .unsubmitted _ | .planned .. | .sent .. | .recorded .. | .finished _ => inferInstance

def ActReopens (env : Env) (s : Sessions.State World Request) (t : Trade) :
    Sessions.Act (NormalizedExecuteSignalRequest × ExecuteIo) Step → Prop
  | .start _ => False
  | .advance i => ∃ r ∈ s.sessions[i]?, r.reopens t
  | .event e => e.Reopens env t

instance (env : Env) (s : Sessions.State World Request) (t : Trade)
    (act : Sessions.Act (NormalizedExecuteSignalRequest × ExecuteIo) Step) :
    Decidable (ActReopens env s t act) :=
  match act with
  | .start _ | .advance _ | .event _ => by unfold ActReopens; infer_instance

/-- No other request of the fingerprint is on its way, and all its trades are terminal. -/
def Unrivalled (env : Env) (s : Sessions.State World Request) (f : String) : Prop :=
  (∀ r ∈ s.sessions, env.fingerprint r.req = f → r.inWindow = false) ∧
    ∀ t ∈ s.store.db.trades, s.store.Answers f t → isTradeTerminal t.status = true

instance (env : Env) (s : Sessions.State World Request) (f : String) :
    Decidable (Unrivalled env s f) :=
  inferInstanceAs (Decidable ((∀ r ∈ s.sessions, env.fingerprint r.req = f → r.inWindow = false) ∧
    ∀ t ∈ s.store.db.trades, s.store.Answers f t → isTradeTerminal t.status = true))

/-- A request that has read a row registers again only unrivalled, and while a request is on
its way no terminal trade of its fingerprint is taken out of the terminal statuses. -/
def Serialized (env : Env) (s : Sessions.State World Request)
    (act : Sessions.Act (NormalizedExecuteSignalRequest × ExecuteIo) Step) : Prop :=
  (match act with
    | .advance i => ∀ r ∈ s.sessions[i]?, r.renews = true → Unrivalled env s (env.fingerprint r.req)
    | _ => True) ∧
  ∀ r ∈ s.sessions, r.inWindow = true → ∀ t ∈ s.store.db.trades,
    s.store.Answers (env.fingerprint r.req) t → ¬ ActReopens env s t act

instance (env : Env) (s : Sessions.State World Request)
    (act : Sessions.Act (NormalizedExecuteSignalRequest × ExecuteIo) Step) :
    Decidable (Serialized env s act) :=
  match act with
  | .start _ | .advance _ | .event _ => by unfold Serialized; infer_instance

theorem unlisted_of_terminal {t : Trade} (h : isTradeTerminal t.status = true) : Unlisted t := by
  constructor <;> intro hmem <;>
    simp only [isTradeTerminal, terminalStatuses, entryReconciliationStatuses,
      closeReconciliationStatuses, List.mem_cons, decide_eq_true_eq] at h hmem <;> grind

theorem Updated.reopens {io : HandlerIo} {data : OrderData} {k k' : Work} {r : Except PyError Bool}
    (h : Updated io data k (r, k')) (hr : ∃ b, r = .ok b)
    (hterm : isTradeTerminal k.trade.status = true) :
    isTradeTerminal k'.trade.status = true ∨ ReopenedBy data k.trade := by
  have hentry : ∀ s b, shouldIgnoreEntryUpdate k.trade s b = false →
      k.trade.status ≠ pnlRecorded ∧ k.trade.status ∈ [orderRejected, orderCancelled] := by
    intro s b hkeep
    cases hst : k.trade.status <;>
      simp_all [shouldIgnoreEntryUpdate, isTradeTerminal, terminalStatuses]
  cases h with
  | unmoved he => exact .inl (he.status ▸ hterm)
  | entryMoved hlink hrole hs hne hkeep he =>
    obtain ⟨hpnl, hst⟩ := hentry _ _ hkeep
    obtain ⟨-, rfl⟩ | ⟨-, rfl⟩ | ⟨-, rfl⟩ | ⟨hpart, rfl⟩ := orderStatusMap_eq hs
    · exact absurd rfl hne
    · exact .inl (by rw [he.status]; rfl)
    · exact .inl (by rw [he.status]; rfl)
    · exact .inr ⟨hterm, hpnl, _, hlink, by simpa [hrole, hpart] using hst⟩
  | entryFilled hlink hrole hs hkeep =>
    obtain ⟨hpnl, hst⟩ := hentry _ _ hkeep
    exact .inr ⟨hterm, hpnl, _, hlink, by simpa [hrole, hs] using hst⟩
  | entryDone hlink hrole hs _ hkeep =>
    obtain ⟨hpnl, hst⟩ := hentry _ _ hkeep
    exact .inr ⟨hterm, hpnl, _, hlink, by simpa [hrole, hs] using hst⟩
  | exitBroken =>
    obtain ⟨b, hb⟩ := hr
    cases hb
  | exitFilled _ _ _ _ _ he => exact .inl (by rw [he.status]; rfl)
  | exitFailed _ _ _ _ he => exact .inl (by rw [he.status]; rfl)
  | exitPartly hlink hrole hs hkeep =>
    exact .inr ⟨hterm, hkeep, _, hlink, by simp [hrole, hs]⟩

/-- Nothing but a step that reopens it takes a trade out of the terminal statuses. -/
theorem Move.reopens {env : Env} {s : Step} {k k' : Work} (h : Move env s k k')
    (hterm : isTradeTerminal k.trade.status = true) :
    isTradeTerminal k'.trade.status = true ∨ s.Reopens env k.trade := by
  cases h with
  | idle => exact .inl hterm
  | settle => exact .inl hterm
  | update hdata hu _ hr =>
    obtain ⟨link, rfl, -⟩ := Step.update_unlisted hdata (unlisted_of_terminal hterm)
    obtain h | h := hu.reopens (hr ⟨_, _, rfl⟩) hterm
    · exact .inl h
    · exact .inr ⟨_, hdata, h⟩
  | execution he => exact .inl (he.status ▸ hterm)
  | closed hst =>
    refine .inr ⟨rfl, ?_⟩
    cases hstatus : k.trade.status <;>
      simp_all [closeRetryableStatuses, isTradeTerminal, terminalStatuses]
  | closeLost => exact .inl hterm
  | protect _ hst =>
    exfalso
    cases hstatus : k.trade.status <;>
      simp_all [Db.missingProtection, isTradeTerminal, terminalStatuses]
  | replay hst =>
    rw [hst] at hterm
    cases hterm

/-- While a request is on its way, the trades of its fingerprint are terminal. -/
def ClearFor (env : Env) (w : World) (r : Request) : Prop :=
  r.inWindow = true → ∀ t ∈ w.db.trades, w.Answers (env.fingerprint r.req) t →
    isTradeTerminal t.status = true

/-- Two requests of one fingerprint are not on their way together. -/
def Alone (env : Env) (r r' : Request) : Prop :=
  r.inWindow = true → r'.inWindow = true → env.fingerprint r.req ≠ env.fingerprint r'.req

/-- Whoever is on its way finds the trades of its fingerprint ended, and nobody else of its
fingerprint on its way. -/
abbrev WindowClear (env : Env) (s : Sessions.State World Request) : Prop :=
  Sessions.Holds (fun _ => True) (ClearFor env) (Alone env) s

theorem ClearFor.of_out {env : Env} {w : World} {r : Request} (h : r.inWindow = false) :
    ClearFor env w r := by
  intro hin
  rw [h] at hin
  cases hin

theorem Alone.of_out {env : Env} {r r' : Request} (h : r.inWindow = false) :
    Alone env r r' ∧ Alone env r' r := by
  constructor
  · intro hin
    rw [h] at hin
    cases hin
  · intro _ hin
    rw [h] at hin
    cases hin

theorem ClearFor.rows {env : Env} {R : Trade → Trade → Prop} {w w' : World} {r : Request}
    (h : ClearFor env w r) (horigin : w'.origin = w.origin)
    (hrows : List.Forall₂ R w.db.trades w'.db.trades)
    (hR : r.inWindow = true → ∀ t ∈ w.db.trades, w.Answers (env.fingerprint r.req) t →
      isTradeTerminal t.status = true → ∀ t', R t t' → isTradeTerminal t'.status = true)
    (hsignal : ∀ t t', R t t' → t'.signalId = t.signalId) : ClearFor env w' r := by
  intro hin t' ht' hanswers
  obtain ⟨t, ⟨ht, hRt⟩⟩ := Rows.exists_left hrows ht'
  have hanswers' : w.Answers (env.fingerprint r.req) t := by
    obtain ⟨id, hid, hmem⟩ := hanswers
    exact ⟨id, hsignal t t' hRt ▸ hid, horigin ▸ hmem⟩
  exact hR hin t ht hanswers' (h hin t ht hanswers') t' hRt

theorem Request.OfPrint.signed {f : String} {w : World} {r : Request} (h : r.OfPrint f w)
    (hin : r.inWindow = true) : ∃ id, (id, f) ∈ w.origin := by
  simp only [Request.inWindow] at hin
  simp only [Request.OfPrint] at h
  cases hst : r.stage with
  | guarded id =>
    simp only [hst] at h
    exact ⟨id, h.2⟩
  | breakerPassed id =>
    simp only [hst] at h
    exact ⟨id, h.2⟩
  | unsubmitted id =>
    simp only [hst] at h
    exact ⟨id, h.2⟩
  | planned id plan =>
    simp only [hst] at h
    exact ⟨id, h.2⟩
  | sent id settled =>
    simp only [hst] at h
    exact ⟨id, h.2.2⟩
  | _ => simp [hst] at hin

theorem unrivalled_of_unread {env : Env} {s : Sessions.State World Request} {f : String}
    {rows : List SignalSubmission} (hb : BookKept env s)
    (hrows : submissionRows f none s.store.issued s.store.db = .ok rows) : Unrivalled env s f := by
  have hnone : ¬ s.store.HasRow f := by
    rintro ⟨row, hrow, hf⟩
    have hsome : (s.store.db.getSignalSubmission f).isSome = true := by
      simpa [Db.getSignalSubmission] using ⟨row, hrow, hf⟩
    simp only [submissionRows, hsome, if_true] at hrows
    cases hrows
  constructor
  · intro r hr hf
    by_contra hin
    obtain ⟨i, hi⟩ := List.getElem?_of_mem hr
    obtain ⟨id, horigin⟩ := (hf ▸ hb.own i r hi).signed (by simpa using hin)
    exact hnone (hb.store.stored _ horigin)
  · rintro t - ⟨id, -, horigin⟩
    exact absurd (hb.store.stored _ horigin) hnone

/-- The ways are clear once the session `i` has left the world `w` and is the request `r`. -/
def ClearAfter (env : Env) (s : Sessions.State World Request) (i : Nat) (w : World) (r : Request) :
    Prop :=
  ClearFor env w r ∧ ∀ (j : Nat) d, s.sessions[j]? = some d → j ≠ i →
    ClearFor env w d ∧ Alone env r d ∧ Alone env d r

theorem ClearAfter.of_out {env : Env} {s : Sessions.State World Request} {i : Nat} {w : World}
    {r : Request} (hout : r.inWindow = false)
    (hothers : ∀ (j : Nat) d, s.sessions[j]? = some d → j ≠ i → ClearFor env w d) :
    ClearAfter env s i w r :=
  ⟨.of_out hout, fun j d hd hj => ⟨hothers j d hd hj, Alone.of_out hout⟩⟩

theorem ClearAfter.of_in {env : Env} {s : Sessions.State World Request} {i : Nat} {w : World}
    {r r' : Request} (h : WindowClear env s) (hr : s.sessions[i]? = some r) (hin : r.inWindow = true)
    (hreq : r'.req = r.req) (htrades : w.db.trades = s.store.db.trades)
    (horigin : w.origin = s.store.origin) : ClearAfter env s i w r' := by
  have hanswers : ∀ f t, w.Answers f t → s.store.Answers f t := fun f t ha => by
    simpa only [World.Answers, horigin] using ha
  refine ⟨?_, fun j d hd hj => ⟨?_, ?_, ?_⟩⟩
  · intro _ t ht ha
    rw [hreq] at ha
    exact h.own i r hr hin t (htrades ▸ ht) (hanswers _ t ha)
  · exact fun hin' t ht ha => h.own j d hd hin' t (htrades ▸ ht) (hanswers _ t ha)
  · intro _ hd'
    rw [hreq]
    exact h.apart i j r d hr hd hj.symm hin hd'
  · intro hd' _
    rw [hreq]
    exact h.apart j i d r hd hr hj hd' hin

/-- The answer about a pending order reopens no trade of a request on its way. -/
theorem told_clear {env : Env} {s : Sessions.State World Request} {i : Nat} {r : Request}
    (hr : s.sessions[i]? = some r) (hcond : Serialized env s (.advance i))
    {submission : SignalSubmission} {existing : Trade} {k : Work}
    (hst : r.stage = .statusAsked submission existing)
    (hk : reconcilePendingUnknown r.io.pendingLookup (s.store.work existing) = (.ok (), k))
    {d : Request} (hd : d ∈ s.sessions) (hclear : ClearFor env s.store d) :
    ClearFor env (s.store.commitLoaded existing k) d := by
  obtain ⟨hentry, hexits, -⟩ := told_rows hk
  refine hclear.rows rfl (commitLoaded_rows (w := s.store) hentry hexits) ?_ fun _ _ h => h.1.1.signalId
  rintro hin t ht hanswers hterm t' ⟨-, rfl | ⟨hid, hstatus | ⟨hne, hstatus⟩⟩⟩
  · exact hterm
  · rw [hstatus]
    exact hterm
  · rw [hstatus]
    by_contra hopen
    apply hcond.2 d hd hin t ht hanswers
    refine ⟨r, hr, ?_⟩
    obtain hsame | ⟨remote, hl, htold⟩ := told_status hk
    · exact absurd hsame hne
    · rw [htold] at hne hopen
      simp only [Request.reopens, hst, hl]
      exact ⟨hid, hterm, hne, by simpa using hopen⟩

theorem registered_clear {env : Env} {s : Sessions.State World Request} {i : Nat} {w' : World}
    {r r' : Request} (hb : BookKept env s) (h : WindowClear env s)
    (hfree : Unrivalled env s (env.fingerprint r.req)) (hreq : r'.req = r.req)
    (horigin : w'.origin = s.store.origin ++ [(s.store.issued, env.fingerprint r.req)])
    (htrades : w'.db.trades = s.store.db.trades) : ClearAfter env s i w' r' := by
  have hanswers : ∀ f t, t ∈ s.store.db.trades → w'.Answers f t → s.store.Answers f t := by
    rintro f t ht ⟨id, hid, hmem⟩
    rw [horigin] at hmem
    obtain hmem | hmem := List.mem_append.mp hmem
    · exact ⟨id, hid, hmem⟩
    · obtain ⟨f', hf'⟩ := hb.store.signed t ht id hid
      have hlt := hb.store.bound _ hf'
      rw [(Prod.ext_iff.mp (List.mem_singleton.mp hmem)).1] at hlt
      exact absurd hlt (lt_irrefl _)
  refine ⟨fun _ t ht ha => ?_, fun j d hd hj => ⟨fun hin t ht ha => ?_, ?_, ?_⟩⟩
  · rw [htrades] at ht
    rw [hreq] at ha
    exact hfree.2 t ht (hanswers _ t ht ha)
  · rw [htrades] at ht
    exact h.own j d hd hin t ht (hanswers _ t ht ha)
  · intro _ hin heq
    rw [hreq] at heq
    have hfalse := hfree.1 d (List.mem_of_getElem? hd) heq.symm
    rw [hin] at hfalse
    cases hfalse
  · intro hin _ heq
    rw [hreq] at heq
    have hfalse := hfree.1 d (List.mem_of_getElem? hd) heq
    rw [hin] at hfalse
    cases hfalse

theorem committed_clear {env : Env} {s : Sessions.State World Request} {i : Nat} {r : Request}
    (hs : RequestsSound s) (hb : BookKept env s) (h : WindowClear env s)
    (hr : s.sessions[i]? = some r) {id : SignalId} {raised : Option PyError} {k : Work}
    (hst : r.stage = .sent id (.committed raised k)) {j : Nat} {d : Request}
    (hd : s.sessions[j]? = some d) (hj : j ≠ i) :
    ClearFor env { s.store with db := recordEntry r.io k s.store.db } d := by
  have hput : Db.saveTrade k.trade s.store.db.trades = s.store.db.trades ++ [k.trade] :=
    Rows.put_of_fresh (hs.own i r hr k.trade (by simp [Request.pending, hst, Settled.work])).fresh
  have hprint := hb.own i r hr
  simp only [Request.OfPrint, hst] at hprint
  intro hin t ht hanswers
  have hmem : t ∈ s.store.db.trades ++ [k.trade] := hput ▸ ht
  obtain ht | ht := List.mem_append.mp hmem
  · exact h.own j d hd hin t ht hanswers
  · obtain ⟨id', hid', horigin⟩ := hanswers
    rw [List.mem_singleton.mp ht, show k.trade.signalId = some id from hprint.2.1] at hid'
    obtain rfl := Option.mem_some.mp hid'
    have heq := hb.store.unique _ hprint.2.2 _ horigin rfl
    exact absurd (Prod.ext_iff.mp heq).2
      (h.apart i j r d hr hd hj.symm (by simp [Request.inWindow, hst]) hin)

theorem Piece.windowClear {env : Env} {s : Sessions.State World Request} {i : Nat} {r : Request}
    (hs : RequestsSound s) (hb : BookKept env s) (h : WindowClear env s)
    (hr : s.sessions[i]? = some r) (hcond : Serialized env s (.advance i)) {p : World × Request}
    (hp : Piece env r s.store p) : ClearAfter env s i p.1 p.2 := by
  have hquiet : ∀ (j : Nat) d, s.sessions[j]? = some d → j ≠ i → ClearFor env s.store d :=
    fun j d hd _ => h.own j d hd
  cases hp with
  | unread => exact .of_out rfl hquiet
  | read => exact .of_out rfl hquiet
  | renewed => exact .of_out rfl hquiet
  | asked => exact .of_out rfl hquiet
  | replayed => exact .of_out rfl hquiet
  | @told submission existing k stage hst hk hstage =>
    have hout : (r.atStage stage).inWindow = false := by
      obtain rfl | rfl := hstage <;> rfl
    exact .of_out hout fun j d hd _ =>
      told_clear hr hcond hst hk (List.mem_of_getElem? hd) (h.own j d hd)
  | @registered loaded rows w' stage hst hrows hsub horigin htrades hexchange hissued hstage =>
    have hfree : Unrivalled env s (env.fingerprint r.req) := by
      cases loaded with
      | none => exact unrivalled_of_unread hb hrows
      | some row => exact hcond.1 r hr (by simp [Request.renews, hst])
    exact registered_clear hb h hfree rfl horigin htrades
  | breaker hst => exact .of_in h hr (by simp [Request.inWindow, hst]) rfl rfl rfl
  | idempotent hst => exact .of_in h hr (by simp [Request.inWindow, hst]) rfl rfl rfl
  | planned hst => exact .of_in h hr (by simp [Request.inWindow, hst]) rfl rfl rfl
  | submitted hst => exact .of_in h hr (by simp [Request.inWindow, hst]) rfl rfl rfl
  | @committed id raised k stage hst hstage =>
    have hout : (r.atStage stage).inWindow = false := by
      obtain rfl | ⟨e, rfl⟩ := hstage <;> rfl
    exact .of_out hout fun j d hd hj => committed_clear hs hb h hr hst hd hj
  | linked => exact .of_out rfl hquiet
  | raised hsame =>
    refine .of_out rfl fun j d hd hj hin t ht hanswers => ?_
    exact h.own j d hd hin t (hsame.trades ▸ ht)
      (by simpa only [World.Answers, hsame.origin] using hanswers)
  | ended hst => exact .of_out (by simp [Request.inWindow, hst]) hquiet

theorem windowClear_step {env : Env} {s : Sessions.State World Request} (hs : RequestsSound s)
    (hb : BookKept env s) (h : WindowClear env s)
    {act : Sessions.Act (NormalizedExecuteSignalRequest × ExecuteIo) Step}
    (hcond : Serialized env s act) :
    WindowClear env (Sessions.step (requestSystem env) s act) := by
  cases act with
  | start a => exact h.start (.of_out rfl) fun _ _ => (Alone.of_out rfl).symm
  | advance i =>
    exact h.advance fun r hr => ⟨trivial, (next_piece env r s.store).windowClear hs hb h hr hcond⟩
  | event e =>
    refine h.event trivial fun r hr hclear => ?_
    obtain ⟨-, hsame | ⟨hne, heq, heff⟩⟩ := handle_effect env e hs.store
    · rw [hsame]
      exact hclear
    · rw [heq] at heff ⊢
      refine hclear.rows (step_sameBook env s.store hne).origin (heff.moved_trades hne) ?_ ?_
      · rintro hin t ht hanswers hterm t' ⟨k, k', hmove, rfl, rfl, -⟩
        exact (hmove.reopens hterm).resolve_right (hcond.2 r hr hin _ ht hanswers)
      · rintro t t' ⟨k, k', hmove, rfl, rfl, -⟩
        exact hmove.entry.signalId

theorem submitted_takes (env : Env) (r : Request) (signalId : SignalId) (plan : EntryPlan)
    (w : World) : ((r.submitted env signalId plan w).1.exchange.orders.drop
      w.exchange.orders.length).countP (fun o => o.state ≠ .refused) ≤ 1 := by
  have horders := (settleEntry_entered env.settings .spot r.req r.io
    (entryWork env r.req r.io (w, signalId, plan)) (entryWork_link _ _ _ _)).orders
  have hrefused : ((refusedAttempts env.settings.orderMode r.io
      (entryWork env r.req r.io (w, signalId, plan))).map
        (attemptOrder .spot r.req (entryWork env r.req r.io (w, signalId, plan)).trade)).countP
      (fun o => o.state ≠ .refused) = 0 := by
    rw [List.countP_eq_zero]
    intro o ho
    obtain ⟨a, ha, rfl⟩ := List.mem_map.mp ho
    have hreached : a.outcome.reached = false := by
      by_contra hr
      have hmay := PlaceOutcome.mayBeAccepted_of_reached (by simpa using hr)
      rw [refusedAttempts_outcome ha] at hmay
      cases hmay
    simpa using (attemptOrder_refused _ _ _ _).mpr hreached
  show (List.drop _ (settleEntry env.settings .spot r.req r.io
    (entryWork env r.req r.io (w, signalId, plan))).work.exchange.orders).countP _ ≤ 1
  rw [horders, show (entryWork env r.req r.io (w, signalId, plan)).exchange.orders =
    w.exchange.orders from rfl, List.drop_left]
  by_cases hmode : env.settings.tradingMode = .shadow
  · rw [if_pos hmode]
    exact Nat.zero_le _
  · rw [if_neg hmode, attempts, List.map_append, List.countP_append, hrefused, Nat.zero_add]
    exact List.countP_le_length

theorem oneEntry_step {env : Env} {s : Sessions.State World Request} (h : WindowClear env s)
    (act : Sessions.Act (NormalizedExecuteSignalRequest × ExecuteIo) Step) : OneEntry env s act := by
  cases act with
  | advance i =>
    intro r hr hsubmits
    have hst : ∃ id plan, r.stage = .planned id plan := by
      simp only [Request.submits] at hsubmits
      cases hst : r.stage with
      | planned id plan => exact ⟨id, plan, rfl⟩
      | _ => simp [hst] at hsubmits
    obtain ⟨id, plan, hst⟩ := hst
    have hin : r.inWindow = true := by simp [Request.inWindow, hst]
    refine ⟨h.own i r hr hin, fun r' hr' hf t ht => ?_, ?_⟩
    · -- another request with a flushed trade would be on its way too
      exfalso
      obtain ⟨j, hj⟩ := List.getElem?_of_mem hr'
      have hin' : r'.inWindow = true ∧ r'.pending ≠ none := by
        simp only [Request.pending] at ht
        cases hst' : r'.stage with
        | sent id' settled => simp [Request.inWindow, Request.pending, hst']
        | _ => simp [hst'] at ht
      by_cases hij : j = i
      · rw [hij, Option.mem_def.mp hr] at hj
        obtain rfl := Option.some.inj hj
        simp [Request.pending, hst] at ht
      · exact h.apart j i r' r hj hr hij hin'.1 hin hf
    · simpa only [Request.next, hst] using submitted_takes env r id plan s.store
  | start a => trivial
  | event e => trivial

theorem answered_of_book {env : Env} {s : Sessions.State World Request} (h : BookKept env s) :
    Answered env s := by
  intro r hr result hst
  obtain ⟨i, hi⟩ := List.getElem?_of_mem hr
  simpa only [Request.OfPrint, hst] using h.own i r hi

/-- In a run in which requests of one fingerprint do not overtake each other, each sends its
order only while every other trade of the fingerprint is terminal; and in the end it returns
its own trade, or replays one of the fingerprint. Alone, a request is `execute_signal`
(`Request.runAlone_eq`). -/
theorem deduplicated_run (env : Env)
    (acts : List (Sessions.Act (NormalizedExecuteSignalRequest × ExecuteIo) Step))
    (h : Runs.Meets (Sessions.step (requestSystem env)) (Serialized env) ⟨{}, []⟩ acts) :
    Runs.Meets (Sessions.step (requestSystem env)) (OneEntry env) ⟨{}, []⟩ acts ∧
      Runs.Always (Sessions.step (requestSystem env)) (Answered env) ⟨{}, []⟩ acts := by
  have hinit : RequestsSound ⟨{}, []⟩ ∧ BookKept env ⟨{}, []⟩ ∧ WindowClear env ⟨{}, []⟩ :=
    ⟨.init wellFormed_init, .init .init, .init trivial⟩
  have hstep : ∀ s act, RequestsSound s ∧ BookKept env s ∧ WindowClear env s →
      Serialized env s act → RequestsSound (Sessions.step (requestSystem env) s act) ∧
        BookKept env (Sessions.step (requestSystem env) s act) ∧
        WindowClear env (Sessions.step (requestSystem env) s act) := by
    rintro s act ⟨hs, hb, hw⟩ hcond
    exact ⟨requestsSound_step env hs act, bookKept_step env hs hb act,
      windowClear_step hs hb hw hcond⟩
  exact ⟨Runs.meets_of_invariant hinit hstep (fun _ act hi _ => oneEntry_step hi.2.2 act) h,
    Runs.always_of_invariant hinit hstep (fun _ hi => answered_of_book hi.2.1) h⟩

/-- Two equal requests, in this order of turns. -/
def twinRequestsRun (turns : List Nat) :
    List (Sessions.Act (NormalizedExecuteSignalRequest × ExecuteIo) Step) :=
  .start (demoRequest, demoExecute (.accepted none) (.ok none)) ::
    .start (demoRequest, demoExecute (.accepted none) (.ok none)) :: turns.map .advance

/-- The second request comes after the first has committed its trade. -/
theorem deduplicated_replay :
    Runs.Meets (Sessions.step (requestSystem (demoEnv .takerAllowed)))
      (OneEntry (demoEnv .takerAllowed)) ⟨{}, []⟩ (twinRequestsRun [0, 0, 0, 0, 0, 0, 0, 0, 1, 1]) ∧
    Runs.Always (Sessions.step (requestSystem (demoEnv .takerAllowed)))
      (Answered (demoEnv .takerAllowed)) ⟨{}, []⟩ (twinRequestsRun [0, 0, 0, 0, 0, 0, 0, 0, 1, 1]) :=
  deduplicated_run _ _ (by decide +kernel)

/-- The second request reads the row the first has committed, which has no trade yet. -/
theorem deduplicated_fails :
    ¬ Runs.Meets (Sessions.step (requestSystem (demoEnv .takerAllowed)))
      (OneEntry (demoEnv .takerAllowed)) ⟨{}, []⟩
      (twinRequestsRun [0, 0, 1, 1, 0, 0, 0, 0, 0, 0, 1, 1, 1, 1, 1]) := by
  decide +kernel

end AmaExecutionCore
