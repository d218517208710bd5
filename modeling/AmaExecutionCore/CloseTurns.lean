import AmaExecutionCore.TradeTasks
import AmaExecutionCore.ExitRecord

/-! The close orders of one trade while its handlers take turns: at most one works at the
exchange, as long as nobody acts on an outdated status, no close order is lost on its way, and
no report takes a trade out of its closing while its close order works. -/
namespace AmaExecutionCore
open TradeStatus

def liveCloses (own : List SentOrder) : Nat := own.countP fun o => o.role.isClose && o.isLive

def closingStatuses : List TradeStatus := [positionClosePending, pnlRecorded]

def OneLiveClose (id : TradeId) (s : Sessions.State TradeStore TaskSession) : Prop :=
  liveCloses (s.store.world.exchange.ordersOf id) ≤ 1

instance (id : TradeId) : DecidablePred (OneLiveClose id) := fun s =>
  inferInstanceAs (Decidable (liveCloses (s.store.world.exchange.ordersOf id) ≤ 1))

/-- An emergency close that raises did not reach the exchange. -/
def EmergencyAnswered (io : HandlerIo) (t : Trade) : Prop :=
  t.marketType = .spot → t.orderType = some .market → t.stopOrderLinkId = none →
    io.stop.raises = true → io.emergencyClose.raises = true → io.emergencyClose.reached = false

instance (io : HandlerIo) (t : Trade) : Decidable (EmergencyAnswered io t) :=
  inferInstanceAs (Decidable (t.marketType = .spot → t.orderType = some .market →
    t.stopOrderLinkId = none → io.stop.raises = true → io.emergencyClose.raises = true →
    io.emergencyClose.reached = false))

/-- The report of an exit order that takes the trade out of its closing. -/
def LeavesClosing (data : OrderData) (t : Trade) : Prop :=
  t.status ≠ pnlRecorded ∧ (∃ link ∈ data.orderLinkId, t.isProtectiveClose link = true) ∧
    data.orderStatus ∈ [.rejected, .cancelled, .partiallyFilled]

instance (data : OrderData) (t : Trade) : Decidable (LeavesClosing data t) :=
  inferInstanceAs (Decidable (t.status ≠ pnlRecorded ∧
    (∃ link ∈ data.orderLinkId, t.isProtectiveClose link = true) ∧
    data.orderStatus ∈ [.rejected, .cancelled, .partiallyFilled]))

/-- The fill of an exit order whose price cannot be read. -/
def BreaksExit (data : OrderData) (t : Trade) : Prop :=
  t.status ≠ pnlRecorded ∧ (∃ link ∈ data.orderLinkId, t.isProtectiveClose link = true) ∧
    data.orderStatus = .filled ∧ data.avgPrice = some .malformed

instance (data : OrderData) (t : Trade) : Decidable (BreaksExit data t) :=
  inferInstanceAs (Decidable (t.status ≠ pnlRecorded ∧
    (∃ link ∈ data.orderLinkId, t.isProtectiveClose link = true) ∧
    data.orderStatus = .filled ∧ data.avgPrice = some .malformed))

/-- No close order the handler sends for the row is lost on its way. -/
def TradeTask.ClosesAnswered (row : Trade) : TradeTask → Prop
  | .reconcile answer io => ∀ data ∈ answered row.trackedOrderLinkId answer,
      ConfirmsEntry data row → EmergencyAnswered io row
  | .protect io => EmergencyAnswered io row
  | .event data io => ConfirmsEntry data row → EmergencyAnswered io row
  | .close _ io => io.close.raises = true → io.close.reached = false

instance (row : Trade) (task : TradeTask) : Decidable (task.ClosesAnswered row) := by
  cases task <;> unfold TradeTask.ClosesAnswered <;> infer_instance

/-- What the handler is told leaves a closing trade closing. A pass commits what a report that
raises has done to the status. -/
def TradeTask.KeepsClosing (row : Trade) : TradeTask → Prop
  | .reconcile answer _ => ∀ data ∈ answered row.trackedOrderLinkId answer,
      ¬ LeavesClosing data row ∧ ¬ BreaksExit data row
  | .event data _ => ¬ LeavesClosing data row
  | _ => True

instance (row : Trade) (task : TradeTask) : Decidable (task.KeepsClosing row) := by
  cases task <;> unfold TradeTask.KeepsClosing <;> infer_instance

/-- At most one close order works, and only while the trade is closing or closed. -/
def Guard (own : List SentOrder) (status : TradeStatus) : Prop :=
  liveCloses own ≤ 1 ∧ (0 < liveCloses own → status ∈ closingStatuses)

theorem liveCloses_append (own new : List SentOrder) :
    liveCloses (own ++ new) = liveCloses own + liveCloses new := List.countP_append

theorem liveCloses_eq_zero {own : List SentOrder}
    (h : ∀ o ∈ own, o.role.isClose = true → o.isLive = false) : liveCloses own = 0 := by
  rw [liveCloses, List.countP_eq_zero]
  intro o ho
  simpa using h o ho

theorem liveCloses_singleton_le (o : SentOrder) : liveCloses [o] ≤ 1 := List.countP_le_length

theorem liveCloses_settle_le (link : OrderLinkId) (state : OrderState) (own : List SentOrder) :
    liveCloses (own.map (SentOrder.settle link state)) ≤ liveCloses own := by
  rw [liveCloses, List.countP_map, liveCloses]
  refine List.countP_mono_left fun o _ h => ?_
  simp only [Function.comp, settle_role, Bool.and_eq_true] at h ⊢
  exact ⟨h.1, live_of_settle h.2⟩

namespace Guard

variable {k k' : Work} {s : TradeStatus} {c st tp : Option OrderLinkId} {new : List SentOrder}

theorem keeps (h : Guard k.own k.trade.status) (he : k.Ends k' s c st tp new)
    (hnew : ∀ o ∈ new, o.role.isClose = true → o.isLive = false)
    (hs : k.trade.status ∈ closingStatuses → 0 < liveCloses k.own → s ∈ closingStatuses) :
    Guard k'.own k'.trade.status := by
  unfold Guard
  rw [he.own, he.status, liveCloses_append, liveCloses_eq_zero hnew, add_zero]
  exact ⟨h.1, fun hlive => hs (h.2 hlive) hlive⟩

/-- With no close order at work, one may be sent, if the trade is closing then. -/
theorem sends (hnone : liveCloses k.own = 0) (he : k.Ends k' s c st tp new)
    (hnew : liveCloses new ≤ 1) (hs : 0 < liveCloses new → s ∈ closingStatuses) :
    Guard k'.own k'.trade.status := by
  unfold Guard
  rw [he.own, he.status, liveCloses_append, hnone, zero_add]
  exact ⟨hnew, hs⟩

theorem none_live (h : Guard k.own k.trade.status) (hst : k.trade.status ∉ closingStatuses) :
    liveCloses k.own = 0 := by
  by_contra hlive
  exact hst (h.2 (Nat.pos_of_ne_zero hlive))

end Guard

theorem not_closing_of_kept {t : Trade} {s : TradeStatus} {b : Bool}
    (h : shouldIgnoreEntryUpdate t s b = false) : t.status ∉ closingStatuses := by
  intro hst
  have hmem : t.status ∈ [positionOpen, positionClosePending, positionClosed, positionCloseFailed,
      pnlRecorded] := by
    simp only [closingStatuses, List.mem_cons, List.not_mem_nil, or_false] at hst
    obtain hst | hst := hst <;> simp [hst]
  rw [shouldIgnoreEntryUpdate, if_pos hmem] at h
  cases h

theorem liveCloses_settles {k k' : Work} {s : TradeStatus} (he : k.Settles k' s) :
    liveCloses k'.own = liveCloses k.own := by
  rw [he.own, List.append_nil]

theorem Guard.givenUp {io : HandlerIo} {k k' : Work} (hnone : liveCloses k.own = 0)
    (hanswered : io.emergencyClose.raises = true → io.emergencyClose.reached = false)
    (hg : GivenUp io k k') : Guard k'.own k'.trade.status := by
  cases hg with
  | unsent he => exact .sends hnone he (by simp [liveCloses]) (by simp [liveCloses])
  | sent he =>
    exact .sends hnone he (liveCloses_singleton_le _) fun _ => by simp [closingStatuses]
  | failed he hbad =>
    have hdead : liveCloses [emergencyOrder io k] = 0 := by
      refine liveCloses_eq_zero fun o ho _ => ?_
      rw [List.mem_singleton.mp ho]
      exact not_live_ofCall (hanswered hbad)
    exact .sends hnone he (by omega) fun hlive => by omega

theorem Guard.protection {io : HandlerIo} {k : Work} {p : Bool × Work}
    (hnone : liveCloses k.own = 0) (hanswered : EmergencyAnswered io k.trade)
    (hp : Protection io k p) : Guard p.2.own p.2.trade.status ∧
      (p.1 = true → liveCloses p.2.own = 0) := by
  have htake : ∀ {tp new}, TakeProfitArmed io k tp new → liveCloses new = 0 := by
    intro tp new htp
    cases htp <;> rfl
  have hkept : ∀ {k' c st tp new}, k.Ends k' k.trade.status c st tp new → liveCloses new = 0 →
      Guard k'.own k'.trade.status ∧ liveCloses k'.own = 0 := by
    intro k' c st tp new he hnew
    refine ⟨.sends hnone he (by omega) (by omega), ?_⟩
    rw [he.own, liveCloses_append, hnone, hnew]
  cases hp with
  | idle => exact ⟨⟨by simp only [hnone]; omega, fun hlive => by simp [hnone] at hlive⟩, fun _ => hnone⟩
  | stopKept _ _ he htp => exact ⟨(hkept he (htake htp)).1, fun _ => (hkept he (htake htp)).2⟩
  | stopArmed _ _ _ he htp =>
    have hnew := htake htp
    have hstop := hkept he (by rw [← List.singleton_append, liveCloses_append, hnew]; rfl)
    exact ⟨hstop.1, fun _ => hstop.2⟩
  | @stopLost k' qty stopPrice hmarket hstop hbad hg =>
    refine ⟨.givenUp ?_ (hanswered hmarket.1 hmarket.2 hstop hbad) hg, by simp⟩
    rw [(sendStop_ends io qty stopPrice k).own, liveCloses_append, hnone]
    rfl

theorem EmergencyAnswered.settles {io : HandlerIo} {k k' : Work} {s : TradeStatus}
    (h : EmergencyAnswered io k.trade) (he : k.Settles k' s) : EmergencyAnswered io k'.trade := by
  unfold EmergencyAnswered
  rw [he.frame.entry.marketType, he.frame.entry.orderType, he.stop]
  exact h

/-- What an update does to a guarded trade; one that raises may leave it unguarded. -/
theorem Guard.updated {restClient : Bool} {io : HandlerIo} {data : OrderData} {k k' : Work}
    {r : Except PyError Bool} (h : Guard k.own k.trade.status)
    (hanswered : ConfirmsEntry data k.trade → EmergencyAnswered io k.trade)
    (hkeeps : 0 < liveCloses k.own → ¬ LeavesClosing data k.trade)
    (hreads : (∃ e, r = .error e) → 0 < liveCloses k.own → ¬ BreaksExit data k.trade)
    (happ : applyOrderUpdate restClient io data k = (r, k')) : Guard k'.own k'.trade.status := by
  have hu := applyOrderUpdate_updated restClient io data k
  rw [happ] at hu
  cases hu with
  | unmoved he => exact h.keeps he (by simp) fun hst _ => hst
  | entryMoved _ _ _ _ hkeep he =>
    have hnone := h.none_live (not_closing_of_kept hkeep)
    exact h.keeps he (by simp) fun _ hlive => by omega
  | entryFilled _ _ _ hkeep he =>
    have hnone := h.none_live (not_closing_of_kept hkeep)
    exact h.keeps he (by simp) fun _ hlive => by omega
  | @entryDone k₁ k₂ p link hlink hrole hs hleaves hkeep he hp hend =>
    have hnone := h.none_live (not_closing_of_kept hkeep)
    have harm := hanswered ⟨hs, hleaves, hkeep, _, hlink, hrole⟩
    obtain ⟨hguard, hopen⟩ := Guard.protection (by rw [liveCloses_settles he, hnone])
      (harm.settles he) hp
    refine hguard.keeps hend (by simp) fun hst hlive => ?_
    cases hb : p.1 with
    | true =>
      rw [hopen hb] at hlive
      exact absurd hlive (lt_irrefl 0)
    | false => simpa [hb] using hst
  | exitBroken hlink hrole hs hne he =>
    refine h.keeps he (by simp) fun _ hlive => ?_
    obtain ⟨link', hlink', -, ⟨-, -, hprice, -⟩ | ⟨hrole', -⟩⟩ := applyOrderUpdate_raised happ
    · exact absurd ⟨hne, ⟨_, hlink, hrole⟩, hs, hprice⟩ (hreads ⟨_, rfl⟩ hlive)
    · obtain rfl := Option.some.inj (hlink.symm.trans hlink')
      rw [hrole] at hrole'
      cases hrole'
  | exitFilled _ _ _ _ _ he => exact h.keeps he (by simp) fun _ _ => by simp [closingStatuses]
  | exitFailed hlink hrole hs hne he =>
    refine h.keeps he (by simp) fun _ hlive => ?_
    refine absurd ⟨hne, ⟨_, hlink, hrole⟩, ?_⟩ (hkeeps hlive)
    obtain hs | hs := hs <;> simp [hs]
  | exitPartly hlink hrole hs hne he =>
    refine h.keeps he (by simp) fun _ hlive => ?_
    exact absurd ⟨hne, ⟨_, hlink, hrole⟩, by simp [hs]⟩ (hkeeps hlive)

/-- A close of a trade with no close order at work; one that raised leaves the row alone. -/
theorem Guard.closing {mode : TradingMode} {io : CloseIo} {k : Work} {r : Outcome Work Unit}
    (hnone : liveCloses k.own = 0) (hanswered : io.close.raises = true → io.close.reached = false)
    (hc : Closing mode io k r) : liveCloses r.2.own ≤ 1 ∧ (0 < liveCloses r.2.own →
      r.1.isOk = true ∧ r.2.trade.status ∈ closingStatuses) := by
  cases hc with
  | shadow _ he =>
    dsimp only
    rw [he.own, List.append_nil, hnone]
    exact ⟨by omega, by omega⟩
  | sent _ he =>
    dsimp only
    rw [he.own, liveCloses_append, hnone, zero_add, he.status]
    exact ⟨liveCloses_singleton_le _, fun _ => ⟨rfl, by simp [closingStatuses]⟩⟩
  | lost hbad he =>
    have hdead : liveCloses [closeOrder io k] = 0 := by
      refine liveCloses_eq_zero fun o ho _ => ?_
      rw [List.mem_singleton.mp ho]
      exact not_live_ofCall (hanswered hbad)
    dsimp only
    rw [he.own, liveCloses_append, hnone, hdead]
    exact ⟨by omega, by omega⟩

/-- What a handler that acts on a row of a guarded trade sends, and what it leaves of the
status when it commits or is rolled back. -/
theorem TradeTask.act_guarded {env : Env} {id : TradeId} {task : TradeTask} {w₁ : World} {row : Trade}
    {commits : Bool} {k k' : Work} (hfind : task.find env id w₁ = some row) (hrow : k.trade = row)
    (h : Guard k.own row.status) (hanswered : task.ClosesAnswered row)
    (hkeeps : 0 < liveCloses k.own → task.KeepsClosing row)
    (hact : task.act env k = some (commits, k')) :
    liveCloses k'.own ≤ 1 ∧ (0 < liveCloses k'.own →
      (if commits then k'.trade.status else row.status) ∈ closingStatuses) := by
  subst hrow
  cases task with
  | reconcile answer io =>
    simp only [act] at hact
    cases hans : answered k.trade.trackedOrderLinkId answer with
    | none => simp [hans] at hact
    | some data =>
      rw [hans] at hact
      dsimp only at hact
      split_ifs at hact
      obtain ⟨rfl, rfl⟩ := Prod.mk.inj (Option.some.inj hact)
      exact h.updated (hanswered data hans) (fun hlive => (hkeeps hlive data hans).1)
        (fun _ hlive => (hkeeps hlive data hans).2) rfl
  | protect io =>
    obtain ⟨rfl, rfl⟩ := Prod.mk.inj (Option.some.inj hact)
    have hst : k.trade.status ∉ closingStatuses := by
      have hmissing := (Option.filter_eq_some_iff.mp hfind).2
      intro hclosing
      simp only [closingStatuses, List.mem_cons, List.not_mem_nil, or_false] at hclosing
      obtain hclosing | hclosing := hclosing <;> simp [Db.missingProtection, hclosing] at hmissing
    exact (Guard.protection (h.none_live hst) hanswered
      (ensureSpotMarketProtection_protection env.restClient io k)).1
  | event data io =>
    obtain ⟨hok, rfl⟩ := Prod.mk.inj (Option.some.inj hact)
    cases hrun : applyOrderUpdate env.restClient io data k with
    | mk result k₁ =>
      rw [hrun] at hok
      cases result with
      | error e =>
        obtain rfl : false = commits := hok
        have hsame : k₁.own = k.own := by
          have hentry := (applyOrderUpdate_frame env.restClient io data k).entry.id
          rw [hrun] at hentry
          rw [Work.own, applyOrderUpdate_error hrun, hentry, Work.own]
        rw [hsame]
        exact h
      | ok b =>
        obtain rfl : true = commits := hok
        exact h.updated hanswered hkeeps (by simp) hrun
  | close exitReason io =>
    have hst : k.trade.status ∉ closingStatuses := by
      have hretry : k.trade.status ∈ closeRetryableStatuses := by
        simpa using (Option.filter_eq_some_iff.mp hfind).2
      intro hclosing
      simp only [closingStatuses, List.mem_cons, List.not_mem_nil, or_false] at hclosing
      obtain hclosing | hclosing := hclosing <;> simp [closeRetryableStatuses, hclosing] at hretry
    obtain ⟨hok, rfl⟩ := Prod.mk.inj (Option.some.inj hact)
    obtain ⟨hone, hclosing⟩ := Guard.closing (h.none_live hst) hanswered
      (submitClose_closing env.settings.tradingMode exitReason io k)
    refine ⟨hone, fun hlive => ?_⟩
    obtain ⟨hcommits, hst'⟩ := hclosing hlive
    rw [← hok, hcommits]
    exact hst'

/-! In turns -/

def settleOrder (st : TradeStore) (e : OrderLinkId × OrderState) : TradeStore :=
  { st with world := { st.world with exchange := st.world.exchange.settle e.1 e.2 } }

/-- The handlers of one trade, next to the life of its orders. -/
abbrev closeSystem (env : Env) (id : TradeId) :
    Sessions.System TradeStore TaskSession TradeTask (OrderLinkId × OrderState) :=
  taskSystem settleOrder env id

/-- Whoever writes the row in this turn loaded the status it has, loses no close order on its
way, and is told nothing that reopens the trade while its close order works. -/
def ClosesKept (id : TradeId) (s : Sessions.State TradeStore TaskSession) :
    Sessions.Act TradeTask (OrderLinkId × OrderState) → Prop
  | .advance i => ∀ c ∈ s.sessions[i]?, ∀ row ∈ c.actsOn s.store.locked,
      (s.store.world.db.getTrade id).map Trade.status = some row.status ∧
        c.task.ClosesAnswered row ∧
        (0 < liveCloses (s.store.world.exchange.ordersOf id) → c.task.KeepsClosing row)
  | _ => True

instance (id : TradeId) (s : Sessions.State TradeStore TaskSession)
    (act : Sessions.Act TradeTask (OrderLinkId × OrderState)) : Decidable (ClosesKept id s act) := by
  cases act <;> unfold ClosesKept <;> infer_instance

/-- While a close order works, the committed row is in a closing status, once `f` has been
written to it. -/
def RowGuarded (id : TradeId) (w : World) (f : TradeStatus → TradeStatus) : Prop :=
  0 < liveCloses (w.exchange.ordersOf id) → ∀ r ∈ w.db.getTrade id, f r.status ∈ closingStatuses

structure StoreGuarded (id : TradeId) (st : TradeStore) : Prop where
  one : liveCloses (st.world.exchange.ordersOf id) ≤ 1
  free : st.locked = false → RowGuarded id st.world fun status => status

/-- The session that holds the row has it guarded, and leaves it guarded. -/
def TaskSession.Guards (env : Env) (id : TradeId) (st : TradeStore) (c : TaskSession) : Prop :=
  c.Stands env id (fun _ => st.locked = true ∧ RowGuarded id st.world fun status => status)
    fun row commits k => st.locked = true ∧ row.id = id ∧ RowGuarded id st.world fun status =>
      if commits then written row.status k.trade.status status else status

abbrev ClosesGuarded (env : Env) (id : TradeId) (s : Sessions.State TradeStore TaskSession) : Prop :=
  Sessions.Holds (StoreGuarded id) (TaskSession.Guards env id) TaskSession.Apart s

theorem RowGuarded.mono {id : TradeId} {w w' : World} {f : TradeStatus → TradeStatus}
    (h : RowGuarded id w f) (hdb : w'.db = w.db)
    (hlive : liveCloses (w'.exchange.ordersOf id) ≤ liveCloses (w.exchange.ordersOf id)) :
    RowGuarded id w' f := by
  intro hpos r hr
  rw [hdb] at hr
  exact h (by omega) r hr

theorem World.getTrade_commitLoaded (w : World) (loaded : Trade) (k : Work) :
    (w.commitLoaded loaded k).db.getTrade loaded.id =
      (w.db.getTrade loaded.id).map (loaded.overwrite k.trade) := by
  have hkeep : ∀ rows : List Trade, (rows.map fun row =>
      if row.id = loaded.id then loaded.overwrite k.trade row else row).find?
        (fun t => t.id = loaded.id) =
      (rows.find? fun t => t.id = loaded.id).map (loaded.overwrite k.trade) := by
    intro rows
    induction rows with
    | nil => rfl
    | cons row rows ih =>
      rw [List.map_cons, List.find?_cons, List.find?_cons]
      by_cases hid : row.id = loaded.id
      · have hover : (loaded.overwrite k.trade row).id = loaded.id := hid
        simp [hid, hover]
      · simp [hid, ih]
  exact hkeep w.db.trades

/-- What the session has made of the row is committed or not; either way the row is guarded. -/
theorem RowGuarded.leave {w : World} {row : Trade} {commits : Bool} {k : Work}
    (h : RowGuarded row.id w fun status =>
      if commits then written row.status k.trade.status status else status) :
    RowGuarded row.id { (if commits then w.commitLoaded row k else w.rollback k) with
      exchange := w.exchange } fun status => status := by
  cases commits with
  | false => exact h
  | true =>
    intro hpos r hr
    simp only [if_true] at hr
    change (w.commitLoaded row k).db.getTrade row.id = some r at hr
    rw [World.getTrade_commitLoaded] at hr
    obtain ⟨r₀, hr₀, rfl⟩ := Option.map_eq_some_iff.mp hr
    exact h hpos r₀ hr₀

namespace ClosesGuarded

variable {env : Env} {id : TradeId} {s : Sessions.State TradeStore TaskSession} {i : Nat}
  {c : TaskSession} {row : Trade} {commits : Bool} {k : Work}

theorem free (h : ClosesGuarded env id s) (hfree : s.store.locked = false) :
    ∀ (j : Nat) d, s.sessions[j]? = some d → d.holding = false :=
  fun j d hd => (h.own j d hd).not_holding (fun _ hP => by simp [hfree] at hP)
    fun _ _ _ hF => by simp [hfree] at hF

theorem others (h : ClosesGuarded env id s) (hc : s.sessions[i]? = some c) (hhold : c.holding = true) :
    ∀ (j : Nat) d, s.sessions[j]? = some d → j ≠ i → d.holding = false := by
  intro j d hd hj
  by_contra hboth
  exact h.apart i j c d hc hd (Ne.symm hj) ⟨hhold, by simpa using hboth⟩

/-- The next turn of a session, which either leaves the store as it is or leaves everybody
else without the row. -/
theorem turn (h : ClosesGuarded env id s) {p : TradeStore × TaskSession} (hc : s.sessions[i]? = some c)
    (hp : c.next env id s.store = p) (hstore : StoreGuarded id p.1) (hown : p.2.Guards env id p.1)
    (hothers : p.1 = s.store ∧ p.2.holding = false ∨
      ∀ (j : Nat) d, s.sessions[j]? = some d → j ≠ i → d.holding = false) :
    ClosesGuarded env id (Sessions.step (closeSystem env id) s (.advance i)) := by
  have hnext : (closeSystem env id).next c s.store = p := hp
  refine h.advance_to hc ?_ ?_ ?_ <;> rw [hnext]
  · exact hstore
  · exact hown
  · intro j d hd hj
    obtain ⟨hsame, hidle⟩ | hfree := hothers
    · rw [hsame]
      exact ⟨h.own j d hd, .of_free (.inl hidle), .of_free (.inr hidle)⟩
    · have hidle := hfree j d hd hj
      exact ⟨(h.own j d hd).of_not_holding hidle, .of_free (.inr hidle), .of_free (.inl hidle)⟩

theorem loads (h : ClosesGuarded env id s) (hc : s.sessions[i]? = some c)
    (hfind : c.task.find env id s.store.world = some row)
    (hwait : c.task.locks = true → s.store.locked = false)
    (hp : c.next env id s.store =
      ({ s.store with locked := s.store.locked || c.task.locks }, c.atStage (.loaded row))) :
    ClosesGuarded env id (Sessions.step (closeSystem env id) s (.advance i)) := by
  have hstore := h.store
  by_cases hlocks : c.task.locks = true
  · have hfree := hwait hlocks
    refine h.turn hc hp ⟨hstore.one, fun hlocked => by simp [hlocks] at hlocked⟩ ?_
      (.inr fun j d hd _ => h.free hfree j d hd)
    exact ⟨⟨_, hfind⟩, fun _ => ⟨by simp [hlocks], hstore.free hfree⟩⟩
  · have hhold : (c.atStage (.loaded row)).holding = false := by
      simpa [TaskSession.holding, TaskSession.atStage] using hlocks
    rw [show (s.store.locked || c.task.locks) = s.store.locked by simp [hlocks]] at hp
    exact h.turn hc hp hstore ⟨⟨_, hfind⟩, fun hl => (hlocks hl).elim⟩ (.inl ⟨rfl, hhold⟩)

/-- A session that writes the row loaded the status it has, so what it sends keeps to one
close order. -/
theorem writes (h : ClosesGuarded env id s) (hc : s.sessions[i]? = some c)
    (hstage : c.stage = .loaded row) (hact : c.task.act env (s.store.world.work row) = some (commits, k))
    (hwait : c.task.locks = false → s.store.locked = false)
    (hstatus : (s.store.world.db.getTrade id).map Trade.status = some row.status)
    (hanswered : c.task.ClosesAnswered row)
    (hkeeps : 0 < liveCloses (s.store.world.exchange.ordersOf id) → c.task.KeepsClosing row)
    (hp : c.next env id s.store = (⟨{ s.store.world with exchange := k.exchange }, true⟩,
      c.atStage (.flushed row commits k))) :
    ClosesGuarded env id (Sessions.step (closeSystem env id) s (.advance i)) := by
  obtain ⟨⟨w, hfind⟩, hlocked⟩ := (h.own i c hc).loaded hstage
  obtain rfl := (TradeTask.find_mem hfind).2
  obtain ⟨hguarded, hothers⟩ : (RowGuarded row.id s.store.world fun status => status) ∧
      ∀ (j : Nat) d, s.sessions[j]? = some d → j ≠ i → d.holding = false := by
    by_cases hlocks : c.task.locks = true
    · exact ⟨(hlocked hlocks).2, h.others hc (by simpa [TaskSession.holding, hstage] using hlocks)⟩
    · have hfree := hwait (by simpa using hlocks)
      exact ⟨h.store.free hfree, fun j d hd _ => h.free hfree j d hd⟩
  obtain ⟨r, hr, hst⟩ := Option.map_eq_some_iff.mp hstatus
  have hguard : Guard (s.store.world.work row).own row.status :=
    ⟨h.store.one, fun hlive => hst ▸ hguarded hlive r hr⟩
  have hid : k.trade.id = row.id := (TradeTask.act_frame hact).entry.id
  obtain ⟨hone, hclosing⟩ := TradeTask.act_guarded hfind rfl hguard hanswered hkeeps hact
  rw [Work.own, hid] at hone hclosing
  refine h.turn hc hp ⟨hone, fun hlocked => by cases hlocked⟩ ⟨rfl, rfl, ?_⟩ (.inr hothers)
  intro hlive r' hr'
  obtain rfl := Option.some.inj (hr.symm.trans hr')
  dsimp only
  rw [hst, written_self]
  exact hclosing hlive

theorem leaves (h : ClosesGuarded env id s) (hc : s.sessions[i]? = some c)
    (hstage : c.stage = .flushed row commits k)
    (hp : c.next env id s.store = (⟨{ (if commits then s.store.world.commitLoaded row k
      else s.store.world.rollback k) with exchange := s.store.world.exchange }, false⟩,
        c.atStage .finished)) :
    ClosesGuarded env id (Sessions.step (closeSystem env id) s (.advance i)) := by
  obtain ⟨-, rfl, hguarded⟩ := (h.own i c hc).flushed hstage
  exact h.turn hc hp ⟨h.store.one, fun _ => hguarded.leave⟩ (.of_finished rfl)
    (.inr (h.others hc (by simp [TaskSession.holding, hstage])))

theorem advance (h : ClosesGuarded env id s) (hcond : ClosesKept id s (.advance i)) :
    ClosesGuarded env id (Sessions.step (closeSystem env id) s (.advance i)) := by
  cases hc : s.sessions[i]? with
  | none =>
    simp only [Sessions.step, hc]
    exact h
  | some c =>
    have hturn := c.next_turn env id s.store
    generalize hp : c.next env id s.store = p at hturn
    cases hturn with
    | waits =>
      rw [Sessions.step_of_waiting]
      · exact h
      · intro c' hc'
        rw [hc] at hc'
        obtain rfl := Option.some.inj hc'
        exact hp
    | misses => exact h.turn hc hp h.store (.of_finished rfl) (.inl ⟨rfl, rfl⟩)
    | idles => exact h.turn hc hp h.store (.of_finished rfl) (.inl ⟨rfl, rfl⟩)
    | loads _ hfind hwait => exact h.loads hc hfind hwait hp
    | @writes row commits k hstage hact hwait =>
      have hacts : row ∈ c.actsOn s.store.locked := by
        simpa [TaskSession.actsOn, hstage, TradeTask.writes_of_act hact] using hwait
      obtain ⟨hstatus, hanswered, hkeeps⟩ := hcond c hc row hacts
      exact h.writes hc hstage hact hwait hstatus hanswered hkeeps hp
    | leaves hstage => exact h.leaves hc hstage hp

/-- An order that moves on at the exchange can only end a close order. -/
theorem settles (h : ClosesGuarded env id s) (e : OrderLinkId × OrderState) :
    ClosesGuarded env id (Sessions.step (closeSystem env id) s (.event e)) := by
  have hfewer : ∀ id', liveCloses ((s.store.world.exchange.settle e.1 e.2).ordersOf id') ≤
      liveCloses (s.store.world.exchange.ordersOf id') := by
    intro id'
    rw [Exchange.ordersOf_settle]
    exact liveCloses_settle_le _ _ _
  refine h.event ?_ ?_
  · exact ⟨(hfewer id).trans h.store.one, fun hfree => (h.store.free hfree).mono rfl (hfewer id)⟩
  · intro c _ hown
    cases hstage : c.stage with
    | called => exact .of_called hstage
    | finished => exact .of_finished hstage
    | loaded row =>
      obtain ⟨hfind, hlocked⟩ := hown.loaded hstage
      simp only [TaskSession.Guards, TaskSession.Stands, hstage]
      exact ⟨hfind, fun hlocks => ⟨(hlocked hlocks).1, (hlocked hlocks).2.mono rfl (hfewer id)⟩⟩
    | flushed row commits k =>
      obtain ⟨hlocked, hid, hguarded⟩ := hown.flushed hstage
      simp only [TaskSession.Guards, TaskSession.Stands, hstage]
      exact ⟨hlocked, hid, hguarded.mono rfl (hfewer id)⟩

end ClosesGuarded

/-- Passes, events and closes of a trade in turns, next to the life of its orders, keep it to one
close order at work. -/
theorem oneLiveClose_run (env : Env) (ss : List Step) (id : TradeId)
    (hnone : liveCloses ((Runs.run (step env) {} ss).exchange.ordersOf id) = 0)
    (acts : List (Sessions.Act TradeTask (OrderLinkId × OrderState)))
    (h : Runs.Meets (Sessions.step (closeSystem env id)) (ClosesKept id)
      ⟨⟨Runs.run (step env) {} ss, false⟩, []⟩ acts) :
    Runs.Always (Sessions.step (closeSystem env id)) (OneLiveClose id)
      ⟨⟨Runs.run (step env) {} ss, false⟩, []⟩ acts := by
  generalize Runs.run (step env) {} ss = w₀ at *
  refine Runs.always_of_invariant (I := ClosesGuarded env id) (.init ⟨?_, ?_⟩) ?_
    (fun s hs => hs.store.one) h
  · dsimp only
    omega
  · intro _ hlive
    dsimp only at hlive
    omega
  · intro s act hs hcond
    cases act with
    | start task =>
      exact hs.start (.of_called rfl) fun _ _ => ⟨.of_free (.inr rfl), .of_free (.inl rfl)⟩
    | advance i => exact hs.advance hcond
    | event e => exact hs.settles e

/-- The handlers of the open position of `filledEntryRun`. -/
def positionStart : Sessions.State TradeStore TaskSession :=
  ⟨⟨Runs.run (step (demoEnv .takerAllowed)) {} (filledEntryRun (.accepted none)), false⟩, []⟩

def manualClose (now : Timestamp) : TradeTask := .close .manual { now := now, close := .accepted none }

def manualCloseFill : OrderData where
  orderLinkId := some (.close 3)
  orderStatus := .filled
  avgPrice := some (.decimal 99)

/-- A second close that starts while the first one works finds the trade closing, and the fill
of the first one ends it. -/
def closedPosition : List (Sessions.Act TradeTask (OrderLinkId × OrderState)) :=
  [.start (manualClose 2), .advance 0, .advance 0, .start (manualClose 3), .advance 0, .advance 1,
    .event (.close 3, .filled),
    .start (.event manualCloseFill (demoHandler 4)), .advance 2, .advance 2, .advance 2]

theorem oneLiveClose_closed : Runs.Always (Sessions.step (closeSystem (demoEnv .takerAllowed) 1))
    (OneLiveClose 1) positionStart closedPosition :=
  oneLiveClose_run (demoEnv .takerAllowed) _ 1 (by decide +kernel) _ (by decide +kernel)

/-- Two closes that both load the open position send a close order each. -/
theorem oneLiveClose_fails : ¬ Runs.Always (Sessions.step (closeSystem (demoEnv .takerAllowed) 1))
    (OneLiveClose 1) positionStart
    [.start (manualClose 2), .start (manualClose 3), .advance 0, .advance 1, .advance 0, .advance 0,
      .advance 1] := by
  decide +kernel

end AmaExecutionCore
