import AmaExecutionCore.Runs
import AmaExecutionCore.System
import AmaExecutionCore.Submission

/-! What one step of the system can do to each committed trade. What holds in every run is
proved from this inversion, not from the step function. -/
namespace AmaExecutionCore
open TradeStatus

/-- The orders that were sent for one trade. -/
def Exchange.ordersOf (id : TradeId) (x : Exchange) : List SentOrder :=
  x.orders.filter fun o => o.trade = id

theorem Exchange.mem_ordersOf {id : TradeId} {x : Exchange} {o : SentOrder} :
    o ∈ x.ordersOf id ↔ o ∈ x.orders ∧ o.trade = id := by
  simp [Exchange.ordersOf]

/-- The session's view of the orders of its own trade. -/
def Work.own (k : Work) : List SentOrder := k.exchange.ordersOf k.trade.id

def OrderLinkId.drawnBefore (n : Nat) (link : OrderLinkId) : Prop := ∃ k < n, link.drawnAt k

theorem OrderLinkId.drawnAt_unique {link : OrderLinkId} {m n : Nat} (hm : link.drawnAt m)
    (hn : link.drawnAt n) : m = n := by
  cases link <;> simp_all [OrderLinkId.drawnAt]

/-- What every reachable world satisfies: ids are not reused and no two trades share
an order id. -/
structure World.WellFormed (w : World) : Prop where
  ids : (w.db.trades.map Trade.id).Nodup
  fresh : ∀ t ∈ w.db.trades, t.id < w.issued
  sent : ∀ o ∈ w.exchange.orders, o.trade < w.issued
  links : ∀ t ∈ w.db.trades, ∀ link, t.ownsOrderLinkId link = true → link.drawnBefore w.issued
  owner : ∀ t ∈ w.db.trades, ∀ t' ∈ w.db.trades, ∀ link, t.ownsOrderLinkId link = true →
    t'.ownsOrderLinkId link = true → t.id = t'.id

theorem World.WellFormed.eq_of_id {w : World} (hw : w.WellFormed) {t t' : Trade}
    (ht : t ∈ w.db.trades) (ht' : t' ∈ w.db.trades) (h : t.id = t'.id) : t = t' :=
  List.inj_on_of_nodup_map hw.ids ht ht' h

theorem Db.getTrade_mem {db : Db} {id : TradeId} {t : Trade} (h : db.getTrade id = some t) :
    t ∈ db.trades ∧ t.id = id := by
  have hid := List.find?_some h
  exact ⟨List.mem_of_find?_eq_some h, by simpa using hid⟩

theorem Db.getTradeByOrderLinkId_mem {db : Db} {link : OrderLinkId} {t : Trade}
    (h : db.getTradeByOrderLinkId link = .ok (some t)) :
    t ∈ db.trades ∧ t.ownsOrderLinkId link = true := by
  unfold Db.getTradeByOrderLinkId at h
  split at h
  · cases h
  · next t' hfilter =>
    obtain rfl : t' = t := by simpa using h
    have : t' ∈ db.trades.filter (Trade.ownsOrderLinkId link) := by simp [hfilter]
    simpa using this
  · cases h

/-- The payload a reconcile pass hands on, when the exchange knows the tracked order. -/
def answered (tracked : Option OrderLinkId) (answer : StatusOutcome) : Option OrderData :=
  match tracked, answer with
  | some tracked, .ok (some remote) => some (reconciledData tracked remote)
  | _, _ => none

/-- The payload a step applies to the trade by `_apply_order_update`, and what it meets. -/
def Step.update (env : Env) (t : Trade) : Step → Option (OrderData × HandlerIo)
  | .processOrder data io =>
    if ∃ link ∈ data.orderLinkId, t.ownsOrderLinkId link = true then some (data, io) else none
  | .reconcileEntryOrders answer io =>
    if env.restClient = true ∧ t.status ∈ entryReconciliationStatuses then
      (answered t.orderLinkId (answer t.id)).map fun data => (data, io t.id)
    else none
  | .reconcileCloseOrders answer io =>
    if env.restClient = true ∧ t.status ∈ closeReconciliationStatuses then
      (answered t.closeOrderLinkId (answer t.id)).map fun data => (data, io t.id)
    else none
  | _ => none

/-- A session on one trade, and what it leaves committed for that trade. -/
inductive Move (env : Env) : Step → Work → Work → Prop
  | idle {s k} : Move env s k k
  | settle {link state k} : Move env (.settle link state) k
      { k with exchange := k.exchange.settle link state }
  | update {s data io r k k'} (hdata : s.update env k.trade = some (data, io))
      (h : Updated io data k (r, k')) (hq : FilledFrom data k.trade k'.trade)
      -- an event that raised is rolled back, a reconcile pass commits what is left
      (hr : (∃ data io, s = .processOrder data io) → ∃ b, r = .ok b) : Move env s k k'
  | execution {data k k'} (h : k.Settles k' k.trade.status)
      (hq : k'.trade.filledQty = k.trade.filledQty) : Move env (.processExecution data) k k'
  | closed {reason io k k'} (hst : k.trade.status ∈ closeRetryableStatuses)
      (h : Closing env.settings.tradingMode io k (.ok (), k'))
      (hq : k'.trade.filledQty = k.trade.filledQty) :
      Move env (.closeTrade k.trade.id reason io) k k'
  | closeLost {reason io e k k'} (hst : k.trade.status ∈ closeRetryableStatuses)
      (h : Closing env.settings.tradingMode io k (.error e, k')) :
      Move env (.closeTrade k.trade.id reason io) k { k' with trade := k.trade }
  | protect {io b k k'} (hrest : env.restClient = true)
      (hst : Db.missingProtection k.trade = true)
      (h : Protection (io k.trade.id) k (b, k')) (hq : k'.trade.filledQty = k.trade.filledQty) :
      Move env (.reconcileMissingProtection io) k k'
  | replay {req io remote k k'} (hst : k.trade.status = orderPendingUnknown)
      (hl : io.pendingLookup = .ok (some remote))
      (h : k.Settles k' (mapRemoteOrderStatus remote.orderStatus))
      (hq : k'.trade.filledQty = k.trade.filledQty) : Move env (.executeSignal req io) k k'

theorem Move.entry {env : Env} {s : Step} {k k' : Work} (h : Move env s k k') :
    k.trade.SameEntry k'.trade := by
  cases h with
  | idle => exact .refl _
  | settle => exact .refl _
  | update _ h => exact h.frame.entry
  | execution h => exact h.frame.entry
  | closed _ h => exact h.frame.entry
  | closeLost => exact .refl _
  | protect _ _ h => exact h.frame.entry
  | replay _ _ h => exact h.frame.entry

/-- What a step did to one committed trade and its orders, as a move of some session. -/
def Moved (env : Env) (s : Step) (w w' : World) (t t' : Trade) : Prop :=
  ∃ k k', Move env s k k' ∧ k.trade = t ∧ k'.trade = t' ∧
    k.own = w.exchange.ordersOf t.id ∧ k'.own = w'.exchange.ordersOf t.id ∧
    w.issued ≤ k.nonce ∧ ∀ link, t'.ownsOrderLinkId link = true →
      t.ownsOrderLinkId link = true ∨ (link.drawnAt k.nonce ∧ k.nonce < w'.issued)

theorem Moved.id {env : Env} {s : Step} {w w' : World} {t t' : Trade} (h : Moved env s w w' t t') :
    t'.id = t.id := by
  obtain ⟨k, k', hmove, rfl, rfl, -⟩ := h
  exact hmove.entry.id

theorem Moved.idle {env : Env} {s : Step} {w w' : World} (t : Trade)
    (hown : w'.exchange.ordersOf t.id = w.exchange.ordersOf t.id) : Moved env s w w' t t :=
  ⟨w.work t, w.work t, .idle, rfl, rfl, rfl, hown.symm, le_refl _, fun _ h => .inl h⟩

theorem Moved.extend {env : Env} {s : Step} {w w₁ w' : World} {t t' : Trade}
    (h : Moved env s w w₁ t t')
    (hown : w'.exchange.ordersOf t.id = w₁.exchange.ordersOf t.id)
    (hissued : w₁.issued ≤ w'.issued) : Moved env s w w' t t' := by
  obtain ⟨k, k', hmove, hk, hk', hown₀, hown₁, hnonce, hlinks⟩ := h
  refine ⟨k, k', hmove, hk, hk', hown₀, hown₁.trans hown.symm, hnonce, ?_⟩
  intro link hl
  rcases hlinks link hl with hl | ⟨hd, hlt⟩
  · exact .inl hl
  · exact .inr ⟨hd, hlt.trans_le hissued⟩

/-- The world in which `execute` passes its checks, when it does. -/
def freshStart (env : Env) (req : NormalizedExecuteSignalRequest) (io : ExecuteIo)
    (loaded : Option SignalSubmission) (w : World) : Option (World × EntryPlan) :=
  match registerSignal (env.fingerprint req) loaded req w with
  | .error _ => none
  | .ok registered =>
    match killSwitchGuard io.now registered with
    | (.error _, _) => none
    | (.ok (), w₁) =>
      match checkEntry env.settings .spot req io w.issued w₁.db with
      | .error _ => none
      | .ok plan => some (w₁, plan)

/-- Where `execute_signal` creates a trade, when it comes that far. -/
def entryStart (env : Env) (req : NormalizedExecuteSignalRequest) (io : ExecuteIo) (w : World) :
    Option (World × SignalId × EntryPlan) :=
  let start (loaded : Option SignalSubmission) (w : World) :=
    (freshStart env req io loaded w).map fun p => (p.1, w.issued, p.2)
  match w.db.getSignalSubmission (env.fingerprint req) with
  | none => start none w
  | some submission =>
    match w.db.getTradeForSubmission submission with
    | none => start (some submission) w
    | some existing =>
      if isTradeTerminal existing.status then start (some submission) w
      else if existing.status = orderPendingUnknown then
        match reconcilePendingUnknown io.pendingLookup (w.work existing) with
        | (.error _, _) => none
        | (.ok (), k) =>
          if isTradeTerminal k.trade.status then start (some submission) (w.commit k) else none
      else none

/-- The new trade as the session holds it when its entry order is sent. -/
def entryWork (env : Env) (req : NormalizedExecuteSignalRequest) (io : ExecuteIo)
    (start : World × SignalId × EntryPlan) : Work :=
  createTrade (buildTrade env.settings req start.2.2 start.2.1 io.now start.1.issued) start.1

theorem entryWork_link (env : Env) (req : NormalizedExecuteSignalRequest) (io : ExecuteIo)
    (start : World × SignalId × EntryPlan) :
    (entryWork env req io start).trade.orderLinkId = some (entryLink (entryWork env req io start)) :=
  rfl

/-- The trade `execute` committed, from where it started it. -/
def Created (env : Env) (s : Step) (w w' : World) (moved : List Trade) (t : Trade) : Prop :=
  ∃ req io w₁ signalId plan raised k, s = .executeSignal req io ∧
    entryStart env req io w = some (w₁, signalId, plan) ∧ w₁.db.trades = moved ∧
    checkEntry env.settings .spot req io signalId w₁.db = .ok plan ∧
    w.issued ≤ w₁.issued ∧ w₁.issued < w'.issued ∧ w₁.WellFormed ∧
    w₁.exchange.orders = w.exchange.orders ∧
    Entered env.settings .spot req io (entryWork env req io (w₁, signalId, plan))
      (.committed raised k) ∧ k.trade = t ∧ k.own = w'.exchange.ordersOf t.id

/-- What one step does: each committed trade makes a move, at most one is added, and
a new order belongs to a committed trade or to a new one. -/
structure Effect (env : Env) (s : Step) (w w' : World) : Prop where
  issued : w.issued ≤ w'.issued
  trades : ∃ moved new, w'.db.trades = moved ++ new ∧
    List.Forall₂ (Moved env s w w') w.db.trades moved ∧
    (new = [] ∨ ∃ t, new = [t] ∧ Created env s w w' moved t)
  orders : ∀ o' ∈ w'.exchange.orders,
    (∃ o ∈ w.exchange.orders, o'.trade = o.trade ∧ o'.role = o.role ∧ o'.request = o.request) ∨
    (o'.role.isExit = true ∧ ∃ t ∈ w.db.trades, t.id = o'.trade) ∨
    (o'.role = .entry ∧ w.issued ≤ o'.trade ∧ o'.trade < w'.issued)

theorem Work.Frame.ordersOf_ne {k k' : Work} (h : k.Frame k') {id : TradeId} (hid : id ≠ k.trade.id) :
    k'.exchange.ordersOf id = k.exchange.ordersOf id := by
  obtain ⟨new, hnew, hr⟩ := h.orders
  have hnone : new.filter (fun o => o.trade = id) = [] := by
    rw [List.filter_eq_nil_iff]
    intro o ho
    simpa [(hr o ho).1] using fun h => hid h.symm
  simp [Exchange.ordersOf, hnew, hnone]

/-- A stretch of work that touches only the trades `ids` and adds none. -/
structure Pass (env : Env) (s : Step) (ids : List TradeId) (w w' : World) : Prop where
  issued : w.issued ≤ w'.issued
  wellFormed : w'.WellFormed
  trades : List.Forall₂ (fun t t' => Moved env s w w' t t' ∧ (t.id ∉ ids →
    t' = t ∧ w'.exchange.ordersOf t.id = w.exchange.ordersOf t.id)) w.db.trades w'.db.trades
  orders : ∀ o' ∈ w'.exchange.orders,
    (∃ o ∈ w.exchange.orders, o'.trade = o.trade ∧ o'.role = o.role ∧ o'.request = o.request) ∨
    (o'.role.isExit = true ∧ ∃ t ∈ w.db.trades, t.id = o'.trade)

namespace Pass

variable {env : Env} {s : Step} {w w₁ w' : World}

theorem effect {ids : List TradeId} (h : Pass env s ids w w') : Effect env s w w' where
  issued := h.issued
  trades := ⟨w'.db.trades, [], by simp, h.trades.imp fun _ _ hm => hm.1, .inl rfl⟩
  orders := by
    intro o ho
    rcases h.orders o ho with ho | ho
    · exact .inl ho
    · exact .inr (.inl ho)

theorem of_eq (hw : w.WellFormed) (htrades : w'.db.trades = w.db.trades)
    (horders : w'.exchange.orders = w.exchange.orders) (hissued : w.issued ≤ w'.issued) :
    Pass env s [] w w' where
  issued := hissued
  wellFormed := by
    refine ⟨by rw [htrades]; exact hw.ids, ?_, ?_, ?_, by rw [htrades]; exact hw.owner⟩
    · intro t ht
      exact (hw.fresh t (htrades ▸ ht)).trans_le hissued
    · intro o ho
      exact (hw.sent o (horders ▸ ho)).trans_le hissued
    · intro t ht link hl
      obtain ⟨n, hn, hd⟩ := hw.links t (htrades ▸ ht) link hl
      exact ⟨n, hn.trans_le hissued, hd⟩
  trades := by
    rw [htrades, List.forall₂_same]
    intro t _
    have hown : w'.exchange.ordersOf t.id = w.exchange.ordersOf t.id := by
      simp [Exchange.ordersOf, horders]
    exact ⟨.idle t hown, fun _ => ⟨rfl, hown⟩⟩
  orders := by
    intro o ho
    exact .inl ⟨o, horders ▸ ho, rfl, rfl, rfl⟩

theorem refl (hw : w.WellFormed) : Pass env s [] w w := of_eq hw rfl rfl (le_refl _)

theorem mono {ids ids' : List TradeId} (h : Pass env s ids w w') (hsub : ∀ i ∈ ids, i ∈ ids') :
    Pass env s ids' w w' where
  issued := h.issued
  wellFormed := h.wellFormed
  trades := h.trades.imp fun _ _ hm => ⟨hm.1, fun hn => hm.2 fun hi => hn (hsub _ hi)⟩
  orders := h.orders

theorem trans {ids ids' : List TradeId} (h : Pass env s ids w w₁) (h' : Pass env s ids' w₁ w')
    (hdis : ∀ i ∈ ids, i ∉ ids') : Pass env s (ids ++ ids') w w' where
  issued := h.issued.trans h'.issued
  wellFormed := h'.wellFormed
  trades := by
    refine Rows.forall₂_trans h.trades h'.trades ?_
    rintro t t₁ t' ⟨hm, hsame⟩ ⟨hm', hsame'⟩
    have hid : t₁.id = t.id := hm.id
    by_cases hin : t.id ∈ ids
    · -- the first stretch moved the trade, the second left it
      obtain ⟨rfl, hown⟩ := hsame' (hid ▸ hdis _ hin)
      rw [hid] at hown
      exact ⟨hm.extend hown h'.issued, fun hn => (hn (List.mem_append_left _ hin)).elim⟩
    · obtain ⟨rfl, hown⟩ := hsame hin
      constructor
      · obtain ⟨k, k', hmove, hk, hk', hown₀, hown₁, hnonce, hlinks⟩ := hm'
        exact ⟨k, k', hmove, hk, hk', hown₀.trans hown, hown₁, h.issued.trans hnonce, hlinks⟩
      · intro hn
        obtain ⟨rfl, hown'⟩ := hsame' fun hi => hn (List.mem_append_right _ hi)
        exact ⟨rfl, hown'.trans hown⟩
  orders := by
    intro o ho
    rcases h'.orders o ho with ⟨o₁, ho₁, htrade, hrole, hreq⟩ | ⟨hexit, t₁, ht₁, hid₁⟩
    · rcases h.orders o₁ ho₁ with ⟨o₀, ho₀, htrade₀, hrole₀, hreq₀⟩ | ⟨hexit, t, ht, hid⟩
      · exact .inl ⟨o₀, ho₀, htrade.trans htrade₀, hrole.trans hrole₀, hreq.trans hreq₀⟩
      · exact .inr ⟨hrole ▸ hexit, t, ht, hid.trans htrade.symm⟩
    · obtain ⟨t, ht, hm⟩ := Rows.exists_left h.trades ht₁
      exact .inr ⟨hexit, t, ht, hm.1.id.symm.trans hid₁⟩

end Pass

theorem World.WellFormed.commit {w : World} {t : Trade} {k' : Work} (hw : w.WellFormed)
    (ht : t ∈ w.db.trades) (hframe : (w.work t).Frame k') : (w.commit k').WellFormed := by
  have hid : k'.trade.id = t.id := hframe.entry.id
  have hrows : List.Forall₂ (fun r r' => r'.id = r.id ∧ ∀ link, r'.ownsOrderLinkId link = true →
      r.ownsOrderLinkId link = true ∨ (r.id = t.id ∧ link.drawnAt w.issued))
      w.db.trades (w.commit k').db.trades := by
    refine Rows.forall₂_put ⟨t, ht, hid.symm⟩ ?_ fun r _ _ => ⟨rfl, fun _ hl => .inl hl⟩
    intro r hr hkey
    obtain rfl : r = t := hw.eq_of_id hr ht (hkey.trans hid)
    refine ⟨hid, fun link hl => ?_⟩
    rcases hframe.links link hl with hl | hl
    · exact .inl hl
    · exact .inr ⟨rfl, hl⟩
  refine ⟨?_, ?_, ?_, ?_, ?_⟩
  · rw [Rows.map_key_eq hrows fun _ _ h => h.1]
    exact hw.ids
  · intro r' hr'
    obtain ⟨r, hr, hm⟩ := Rows.exists_left hrows hr'
    rw [hm.1]
    exact (hw.fresh r hr).trans (Nat.lt_succ_self _)
  · intro o ho
    obtain ⟨new, hnew, hnr⟩ := hframe.orders
    have ho : o ∈ w.exchange.orders ++ new := by
      have : o ∈ k'.exchange.orders := ho
      rwa [hnew] at this
    simp only [World.commit]
    rcases List.mem_append.mp ho with ho | ho
    · exact (hw.sent o ho).trans (Nat.lt_succ_self _)
    · rw [(hnr o ho).1]
      exact (hw.fresh t ht).trans (Nat.lt_succ_self _)
  · intro r' hr' link hl
    obtain ⟨r, hr, hm⟩ := Rows.exists_left hrows hr'
    rcases hm.2 link hl with hl | ⟨-, hd⟩
    · obtain ⟨n, hn, hd⟩ := hw.links r hr link hl
      exact ⟨n, hn.trans (Nat.lt_succ_self _), hd⟩
    · exact ⟨w.issued, Nat.lt_succ_self _, hd⟩
  · intro r' hr' q' hq' link hl hl'
    obtain ⟨r, hr, hm⟩ := Rows.exists_left hrows hr'
    obtain ⟨q, hq, hm'⟩ := Rows.exists_left hrows hq'
    rw [hm.1, hm'.1]
    have hold : ∀ x ∈ w.db.trades, x.ownsOrderLinkId link = true → ¬ link.drawnAt w.issued := by
      intro x hx hlx hd
      obtain ⟨n, hn, hd'⟩ := hw.links x hx link hlx
      exact absurd (OrderLinkId.drawnAt_unique hd hd') (by omega)
    rcases hm.2 link hl with hlr | ⟨hidr, hd⟩ <;> rcases hm'.2 link hl' with hlq | ⟨hidq, hd'⟩
    · exact hw.owner r hr q hq link hlr hlq
    · exact (hold r hr hlr hd').elim
    · exact (hold q hq hlq hd).elim
    · exact hidr.trans hidq.symm

theorem Pass.commit {env : Env} {s : Step} {w : World} {t : Trade} {k' : Work}
    (hw : w.WellFormed) (ht : t ∈ w.db.trades) (hmove : Move env s (w.work t) k')
    (hframe : (w.work t).Frame k') : Pass env s [t.id] w (w.commit k') where
  issued := by simp [World.commit]
  wellFormed := hw.commit ht hframe
  trades := by
    have hid : k'.trade.id = t.id := hframe.entry.id
    refine Rows.forall₂_put ⟨t, ht, hid.symm⟩ ?_ ?_
    · intro r hr hkey
      obtain rfl : r = t := hw.eq_of_id hr ht (hkey.trans hid)
      refine ⟨⟨w.work r, k', hmove, rfl, rfl, rfl, ?_, le_refl _, ?_⟩, fun hn => by simp at hn⟩
      · simp [Work.own, World.commit, hid]
      · intro link hl
        rcases hframe.links link hl with hl | hl
        · exact .inl hl
        · exact .inr ⟨hl, by simp [World.commit]⟩
    · intro r _ hkey
      have hown : (w.commit k').exchange.ordersOf r.id = w.exchange.ordersOf r.id :=
        hframe.ordersOf_ne fun h => hkey (h.trans hid.symm)
      exact ⟨.idle r hown, fun _ => ⟨rfl, hown⟩⟩
  orders := by
    intro o ho
    obtain ho | ⟨htrade, hexit⟩ := hframe.order_cases ho
    · exact .inl ⟨o, ho, rfl, rfl, rfl⟩
    · exact .inr ⟨hexit, t, ht, htrade.symm⟩

/-- The loop of a reconcile pass: each listed trade is handled once, in its own session. -/
theorem Pass.foldl {env : Env} {s : Step} (f : Trade → Work → Work) (ts : List Trade)
    (hf : ∀ t ∈ ts, ∀ w : World, Move env s (w.work t) (f t (w.work t)) ∧
      (w.work t).Frame (f t (w.work t)))
    (hnodup : (ts.map Trade.id).Nodup) (w : World) (hw : w.WellFormed)
    (hmem : ∀ t ∈ ts, t ∈ w.db.trades) :
    Pass env s (ts.map Trade.id) w (ts.foldl (fun w t => w.commit (f t (w.work t))) w) := by
  induction ts generalizing w with
  | nil => exact .refl hw
  | cons t ts ih =>
    have hfirst := hf t List.mem_cons_self w
    have hcommit := Pass.commit hw (hmem t List.mem_cons_self) hfirst.1 hfirst.2
    have hnotin : t.id ∉ ts.map Trade.id := (List.nodup_cons.mp hnodup).1
    have hrest : ∀ r ∈ ts, r ∈ (w.commit (f t (w.work t))).db.trades := by
      intro r hr
      obtain ⟨r', hr', -, hsame⟩ := Rows.exists_right hcommit.trades
        (hmem r (List.mem_cons_of_mem _ hr))
      obtain ⟨rfl, -⟩ := hsame (by
        simp only [List.mem_singleton]
        exact fun h => hnotin (h ▸ List.mem_map_of_mem hr))
      exact hr'
    have := ih (fun r hr => hf r (List.mem_cons_of_mem _ hr)) (List.nodup_cons.mp hnodup).2
      (w.commit (f t (w.work t))) hcommit.wellFormed hrest
    refine hcommit.trans this ?_
    intro i hi
    rw [List.mem_singleton.mp hi]
    exact hnotin

theorem Pass.rollback {env : Env} {s : Step} {w : World} {t : Trade} {k' : Work}
    (hw : w.WellFormed) (ht : t ∈ w.db.trades)
    (hmove : Move env s (w.work t) { k' with trade := t }) (hframe : (w.work t).Frame k') :
    Pass env s [t.id] w (w.rollback k') where
  issued := by simp [World.rollback]
  wellFormed := by
    refine ⟨hw.ids, fun r hr => (hw.fresh r hr).trans (Nat.lt_succ_self _), ?_, ?_, hw.owner⟩
    · intro o ho
      obtain ho | ⟨htrade, -⟩ := hframe.order_cases ho
      · exact (hw.sent o ho).trans (Nat.lt_succ_self _)
      · rw [htrade]
        exact (hw.fresh t ht).trans (Nat.lt_succ_self _)
    · intro r hr link hl
      obtain ⟨n, hn, hd⟩ := hw.links r hr link hl
      exact ⟨n, hn.trans (Nat.lt_succ_self _), hd⟩
  trades := by
    refine List.forall₂_same.mpr fun r hr => ?_
    by_cases hkey : r.id = t.id
    · obtain rfl := hw.eq_of_id hr ht hkey
      refine ⟨⟨w.work r, { k' with trade := r }, hmove, rfl, rfl, rfl, rfl, le_refl _,
        fun _ hl => .inl hl⟩, fun hn => by simp at hn⟩
    · have hown : (w.rollback k').exchange.ordersOf r.id = w.exchange.ordersOf r.id :=
        hframe.ordersOf_ne hkey
      exact ⟨.idle r hown, fun _ => ⟨rfl, hown⟩⟩
  orders := by
    intro o ho
    obtain ho | ⟨htrade, hexit⟩ := hframe.order_cases ho
    · exact .inl ⟨o, ho, rfl, rfl, rfl⟩
    · exact .inr ⟨hexit, t, ht, htrade.symm⟩

end AmaExecutionCore
