import AmaExecutionCore.Armings

/-! What is left at the exchange of a closed trade: the fill of one exit order books the
trade, and no handler cancels the others. -/
namespace AmaExecutionCore
open TradeStatus

/-- The update reports the fill of this exit order, and the engine books it. -/
def BooksExit (data : OrderData) (link : OrderLinkId) (t : Trade) : Prop :=
  data.orderLinkId = some link ∧ t.isProtectiveClose link = true ∧ data.orderStatus = .filled ∧
    t.status ≠ pnlRecorded ∧ data.avgPrice ≠ some .malformed

instance (data : OrderData) (link : OrderLinkId) (t : Trade) : Decidable (BooksExit data link t) :=
  inferInstanceAs (Decidable (data.orderLinkId = some link ∧ t.isProtectiveClose link = true ∧
    data.orderStatus = .filled ∧ t.status ≠ pnlRecorded ∧ data.avgPrice ≠ some .malformed))

/-- Each exit order of the trade but the one named `link` is final, or has been sent a
cancel request. -/
def OthersCleared (x : Exchange) (id : TradeId) (link : OrderLinkId) : Prop :=
  ∀ o ∈ x.orders, o.trade = id → o.role.isExit = true → o.linkId ≠ link →
    o.isLive = false ∨ o.linkId ∈ x.cancelRequests

instance (x : Exchange) (id : TradeId) (link : OrderLinkId) : Decidable (OthersCleared x id link) :=
  inferInstanceAs (Decidable (∀ o ∈ x.orders, o.trade = id → o.role.isExit = true →
    o.linkId ≠ link → o.isLive = false ∨ o.linkId ∈ x.cancelRequests))

/-- A trade that this step closes is closed by the fill of one of its exit orders, and its
other exit orders are cleared. -/
def NoOrphans (env : Env) (w : World) (s : Step) : Prop :=
  env.settings.tradingMode ≠ .shadow → ∀ t ∈ w.db.trades, t.status ≠ pnlRecorded →
    ∀ t' ∈ (step env w s).db.trades, t'.id = t.id → t'.status = pnlRecorded →
    ∃ u ∈ s.update env t, ∃ link ∈ u.1.orderLinkId, BooksExit u.1 link t ∧
      OthersCleared (step env w s).exchange t.id link

instance (env : Env) (w : World) (s : Step) : Decidable (NoOrphans env w s) :=
  inferInstanceAs (Decidable (env.settings.tradingMode ≠ .shadow → ∀ t ∈ w.db.trades,
    t.status ≠ pnlRecorded → ∀ t' ∈ (step env w s).db.trades, t'.id = t.id →
    t'.status = pnlRecorded → ∃ u ∈ s.update env t, ∃ link ∈ u.1.orderLinkId,
      BooksExit u.1 link t ∧ OthersCleared (step env w s).exchange t.id link))

/-- How many exit orders of the trade work at the exchange, or have filled there. -/
def standing (own : List SentOrder) : Nat :=
  own.countP fun o => o.role.isExit && (o.isLive || o.state == .filled)

/-- How many take-profit orders the exchange takes when protection is armed. -/
def takeProfitTaken (io : HandlerIo) (t : Trade) : Nat :=
  if t.takeProfitOrderLinkId = none then io.takeProfit.reached.toNat else 0

/-- How many exit orders the exchange takes when protection is armed. -/
def armingTaken (io : HandlerIo) (t : Trade) : Nat :=
  if t.marketType = .spot ∧ t.orderType = some .market then
    if t.stopOrderLinkId = none then
      io.stop.reached.toNat +
        if io.stop.raises then io.emergencyClose.reached.toNat else takeProfitTaken io t
    else takeProfitTaken io t
  else 0

/-- What a `close_trade` call meets at the trade, if it sends an order for it. -/
def Step.closes (env : Env) (t : Trade) : Step → Option CloseIo
  | .closeTrade id _ io =>
    if env.settings.tradingMode ≠ .shadow ∧ t.id = id ∧ t.status ∈ closeRetryableStatuses then
      some io
    else none
  | _ => none

/-- Of the exit orders the step sends for the trade one at most is taken, and only while no
other of them works or has filled. -/
def SentApart (env : Env) (own : List SentOrder) (t : Trade) (s : Step) : Prop :=
  (∀ io ∈ s.protects t, standing own + armingTaken io t ≤ 1) ∧
    (∀ u ∈ s.update env t, ConfirmsEntry u.1 t → standing own + armingTaken u.2 t ≤ 1) ∧
    ∀ io ∈ s.closes env t, standing own + io.close.reached.toNat ≤ 1

instance (env : Env) (own : List SentOrder) (t : Trade) (s : Step) :
    Decidable (SentApart env own t s) :=
  inferInstanceAs (Decidable ((∀ io ∈ s.protects t, standing own + armingTaken io t ≤ 1) ∧
    (∀ u ∈ s.update env t, ConfirmsEntry u.1 t → standing own + armingTaken u.2 t ≤ 1) ∧
    ∀ io ∈ s.closes env t, standing own + io.close.reached.toNat ≤ 1))

/-- An exit fill that is booked is that of an exit order which has filled. -/
def FillReported (env : Env) (own : List SentOrder) (t : Trade) (s : Step) : Prop :=
  ∀ u ∈ s.update env t, ∀ link ∈ u.1.orderLinkId, BooksExit u.1 link t →
    ∃ o ∈ own, o.role.isExit = true ∧ o.linkId = link ∧ o.state = .filled

instance (env : Env) (own : List SentOrder) (t : Trade) (s : Step) :
    Decidable (FillReported env own t s) :=
  inferInstanceAs (Decidable (∀ u ∈ s.update env t, ∀ link ∈ u.1.orderLinkId,
    BooksExit u.1 link t → ∃ o ∈ own, o.role.isExit = true ∧ o.linkId = link ∧ o.state = .filled))

/-- No exit order joins another, and the exchange reports what has happened there. -/
def ExitsApart (env : Env) (w : World) (s : Step) : Prop :=
  ∀ t ∈ w.db.trades, SentApart env (w.exchange.ordersOf t.id) t s ∧
    FillReported env (w.exchange.ordersOf t.id) t s

instance (env : Env) (w : World) (s : Step) : Decidable (ExitsApart env w s) :=
  inferInstanceAs (Decidable (∀ t ∈ w.db.trades, SentApart env (w.exchange.ordersOf t.id) t s ∧
    FillReported env (w.exchange.ordersOf t.id) t s))

theorem standing_append (own new : List SentOrder) :
    standing (own ++ new) = standing own + standing new := List.countP_append

theorem standing_cons (o : SentOrder) (own : List SentOrder) :
    standing (o :: own) = standing [o] + standing own := standing_append [o] own

theorem standing_entries {own : List SentOrder} (h : ∀ o ∈ own, o.role.isExit = false) :
    standing own = 0 := by
  rw [standing, List.countP_eq_zero]
  intro o ho
  simp [h o ho]

theorem standing_ofCall (id : TradeId) (role : OrderRole) (q : OrderRequest) (o : PlaceOutcome) :
    standing [.ofCall id role q o] ≤ o.reached.toNat := by
  cases h : o.reached
  · have hrefused : (SentOrder.ofCall id role q o).state = .refused := ofCall_refused h
    simp [standing, SentOrder.isLive, OrderState.isLive, hrefused]
  · exact List.countP_le_length

theorem standing_settle (link : OrderLinkId) (state : OrderState) (own : List SentOrder) :
    standing (own.map (SentOrder.settle link state)) ≤ standing own := by
  rw [standing, List.countP_map]
  refine List.countP_mono_left ?_
  intro o _ ho
  simp only [Function.comp_apply, settle_role, Bool.and_eq_true, Bool.or_eq_true,
    beq_iff_eq] at ho ⊢
  obtain ⟨hexit, hlive | hfilled⟩ := ho
  · exact ⟨hexit, .inl (live_of_settle hlive)⟩
  · unfold SentOrder.settle at hfilled
    split_ifs at hfilled with hmove
    · exact ⟨hexit, .inl (OrderState.live_of_canMove hmove.2)⟩
    · exact ⟨hexit, .inr hfilled⟩

theorem not_live_of_standing {own : List SentOrder} (h : standing own ≤ 1) {o o' : SentOrder}
    (ho : o ∈ own) (hexit : o.role.isExit = true) (hfilled : o.state = .filled) (ho' : o' ∈ own)
    (hexit' : o'.role.isExit = true) (hne : o'.linkId ≠ o.linkId) : o'.isLive = false := by
  rw [standing, List.countP_eq_length_filter] at h
  by_contra hlive
  have hmem : o ∈ own.filter fun o => o.role.isExit && (o.isLive || o.state == .filled) :=
    List.mem_filter.mpr ⟨ho, by simp [hexit, hfilled]⟩
  have hmem' : o' ∈ own.filter fun o => o.role.isExit && (o.isLive || o.state == .filled) :=
    List.mem_filter.mpr ⟨ho', by simp_all⟩
  obtain ⟨a, ha⟩ := List.length_eq_one_iff.mp (h.antisymm (List.length_pos_of_mem hmem))
  rw [ha, List.mem_singleton] at hmem hmem'
  exact hne (hmem' ▸ hmem ▸ rfl)

theorem TakeProfitArmed.standing_le {io : HandlerIo} {k : Work} {tp : Option OrderLinkId}
    {new : List SentOrder} (h : TakeProfitArmed io k tp new) :
    standing new ≤ takeProfitTaken io k.trade := by
  cases h with
  | kept => exact Nat.zero_le _
  | placed htp =>
    rw [takeProfitTaken, if_pos htp]
    exact standing_ofCall _ _ _ _
  | lost htp =>
    rw [takeProfitTaken, if_pos htp]
    exact standing_ofCall _ _ _ _

theorem GivenUp.standing_le {io : HandlerIo} {k k' : Work} (h : GivenUp io k k') :
    standing k'.own ≤ standing k.own + io.emergencyClose.reached.toNat := by
  cases h with
  | unsent he => simp [he.own]
  | sent he =>
    rw [he.own, standing_append]
    exact Nat.add_le_add_left (standing_ofCall _ _ _ _) _
  | failed he =>
    rw [he.own, standing_append]
    exact Nat.add_le_add_left (standing_ofCall _ _ _ _) _

theorem Protection.standing_le {io : HandlerIo} {k : Work} {p : Bool × Work}
    (h : Protection io k p) : standing p.2.own ≤ standing k.own + armingTaken io k.trade := by
  cases h with
  | idle => exact Nat.le_add_right _ _
  | stopKept hmarket hstop he htp =>
    rw [he.own, standing_append, armingTaken, if_pos hmarket, if_neg (by simp [hstop])]
    exact Nat.add_le_add_left htp.standing_le _
  | @stopArmed k' qty stopPrice tp new hmarket hstop hok he htp =>
    rw [he.own, standing_append, standing_cons, armingTaken, if_pos hmarket, if_pos hstop, hok]
    have hsent := standing_ofCall k.trade.id .stop
      (protectiveRequest k.trade qty (.stop k.nonce) stopPrice) io.stop
    exact Nat.add_le_add_left (Nat.add_le_add hsent htp.standing_le) _
  | @stopLost k' qty stopPrice hmarket hstop hbad hg =>
    have hsent := standing_ofCall k.trade.id .stop
      (protectiveRequest k.trade qty (.stop k.nonce) stopPrice) io.stop
    have hown := (sendStop_ends io qty stopPrice k).own
    calc standing k'.own
        ≤ standing (k.sendStop io qty stopPrice).own + io.emergencyClose.reached.toNat :=
          hg.standing_le
      _ = standing k.own + (standing [stopOrder io qty stopPrice k] +
          io.emergencyClose.reached.toNat) := by rw [hown, standing_append, Nat.add_assoc]
      _ ≤ standing k.own + armingTaken io k.trade := by
          rw [armingTaken, if_pos hmarket, if_pos hstop, hbad]
          exact Nat.add_le_add_left (Nat.add_le_add_right hsent _) _

/-- A handler that keeps the exit columns has its arming take the same orders. -/
theorem Work.Ends.armingTaken {io : HandlerIo} {k k' : Work} {s : TradeStatus}
    (h : k.Settles k' s) : armingTaken io k'.trade = armingTaken io k.trade := by
  simp only [AmaExecutionCore.armingTaken, takeProfitTaken, h.frame.entry.marketType,
    h.frame.entry.orderType, h.stop, h.takeProfit]

theorem Work.Ends.standing {k k' : Work} {s : TradeStatus} {c st tp : Option OrderLinkId}
    (h : k.Ends k' s c st tp []) : standing k'.own = standing k.own := by
  rw [h.own, List.append_nil]

theorem Updated.standing_le {io : HandlerIo} {data : OrderData} {k k' : Work}
    {r : Except PyError Bool} (h : Updated io data k (r, k')) (hone : standing k.own ≤ 1)
    (hapart : ConfirmsEntry data k.trade → standing k.own + armingTaken io k.trade ≤ 1) :
    standing k'.own ≤ 1 := by
  cases h with
  | unmoved he => rwa [he.standing]
  | entryMoved _ _ _ _ _ he => rwa [he.standing]
  | entryFilled _ _ _ _ he => rwa [he.standing]
  | entryDone hlink hrole hs hleaves hkeep he hp hend =>
    have hsent := hp.standing_le
    rw [he.standing, he.armingTaken] at hsent
    rw [hend.standing]
    exact hsent.trans (hapart ⟨hs, hleaves, hkeep, _, hlink, hrole⟩)
  | exitBroken _ _ _ _ he => rwa [he.standing]
  | exitFilled _ _ _ _ _ he => rwa [he.standing]
  | exitFailed _ _ _ _ he => rwa [he.standing]
  | exitPartly _ _ _ _ he => rwa [he.standing]

theorem Move.standing_le {env : Env} {s : Step} {k k' : Work} (h : Move env s k k')
    (hmode : env.settings.tradingMode ≠ .shadow) (hone : standing k.own ≤ 1)
    (hapart : SentApart env k.own k.trade s) : standing k'.own ≤ 1 := by
  cases h with
  | idle => exact hone
  | settle =>
    rw [Work.own, Exchange.ordersOf_settle]
    exact (standing_settle _ _ _).trans hone
  | update hdata hu => exact hu.standing_le hone (hapart.2.1 _ hdata)
  | execution he => rwa [he.standing]
  | @closed _ io _ _ hst hc =>
    cases hc with
    | shadow _ he => rwa [he.standing]
    | sent hok he =>
      rw [he.own, standing_append]
      exact (Nat.add_le_add_left (standing_ofCall _ _ _ _) _).trans
        (hapart.2.2 io (by simp [Step.closes, hmode, hst]))
  | @closeLost _ io _ _ _ hst hc =>
    rw [hc.own_lost, standing_append]
    exact (Nat.add_le_add_left (standing_ofCall _ _ _ _) _).trans
      (hapart.2.2 io (by simp [Step.closes, hmode, hst]))
  | protect _ hst hp => exact hp.standing_le.trans (hapart.1 _ (by simp [Step.protects, hst]))
  | replay _ _ he => rwa [he.standing]

theorem Created.standing_le {env : Env} {s : Step} {w w' : World} {moved : List Trade} {t : Trade}
    (h : Created env s w w' moved t) : standing (w'.exchange.ordersOf t.id) ≤ 1 := by
  obtain ⟨req, io, w₁, signalId, plan, raised, k, rfl, -, -, -, -, -, hw₁, -, hent, rfl, hown⟩ := h
  rw [← hown, hent.own hw₁, standing_entries]
  · exact Nat.zero_le 1
  · intro o ho
    split_ifs at ho
    · cases ho
    · obtain ⟨a, -, rfl⟩ := List.mem_map.mp ho
      rfl

/-- An update that books the trade is the fill of an exit order, and sends nothing. -/
theorem Updated.books {io : HandlerIo} {data : OrderData} {k k' : Work} {r : Except PyError Bool}
    (h : Updated io data k (r, k')) (hbefore : k.trade.status ≠ pnlRecorded)
    (hafter : k'.trade.status = pnlRecorded) :
    ∃ link ∈ data.orderLinkId, BooksExit data link k.trade ∧ k'.own = k.own := by
  cases h with
  | unmoved he => exact absurd (he.status.symm.trans hafter) hbefore
  | entryMoved _ _ hs _ _ he =>
    rw [he.status] at hafter
    obtain ⟨-, rfl⟩ | ⟨-, rfl⟩ | ⟨-, rfl⟩ | ⟨-, rfl⟩ := orderStatusMap_eq hs <;> cases hafter
  | entryFilled _ _ _ _ he =>
    rw [he.status] at hafter
    cases hafter
  | entryDone _ _ _ _ _ he hp hend =>
    rw [hend.status] at hafter
    split_ifs at hafter
    obtain hstatus | ⟨-, hstatus | hstatus⟩ := hp.status
    · rw [hstatus, he.status] at hafter
      cases hafter
    · rw [hstatus] at hafter
      cases hafter
    · rw [hstatus] at hafter
      cases hafter
  | exitBroken _ _ _ _ he =>
    rw [he.status] at hafter
    cases hafter
  | exitFilled hlink hrole hs hkeep hprice he =>
    refine ⟨_, hlink, ⟨hlink, hrole, hs, hkeep, hprice⟩, ?_⟩
    rw [he.own, List.append_nil]
  | exitFailed _ _ _ _ he =>
    rw [he.status] at hafter
    cases hafter
  | exitPartly _ _ _ _ he =>
    rw [he.status] at hafter
    cases hafter

theorem Move.books {env : Env} {s : Step} {k k' : Work} (h : Move env s k k')
    (hmode : env.settings.tradingMode ≠ .shadow) (hbefore : k.trade.status ≠ pnlRecorded)
    (hafter : k'.trade.status = pnlRecorded) :
    ∃ u ∈ s.update env k.trade, ∃ link ∈ u.1.orderLinkId, BooksExit u.1 link k.trade ∧
      k'.own = k.own := by
  cases h with
  | idle => exact absurd hafter hbefore
  | settle => exact absurd hafter hbefore
  | update hdata hu => exact ⟨_, hdata, hu.books hbefore hafter⟩
  | execution he => exact absurd (he.status.symm.trans hafter) hbefore
  | closed _ hc =>
    cases hc with
    | shadow h => exact absurd h hmode
    | sent _ he =>
      rw [he.status] at hafter
      cases hafter
  | closeLost => exact absurd hafter hbefore
  | protect _ _ hp =>
    obtain hstatus | ⟨-, hstatus | hstatus⟩ := hp.status <;> rw [hstatus] at hafter
    · exact absurd hafter hbefore
    · cases hafter
    · cases hafter
  | @replay _ _ remote _ _ _ _ he =>
    rw [he.status] at hafter
    cases hr : remote.orderStatus <;> simp [hr, mapRemoteOrderStatus] at hafter

theorem noOrphans_step {env : Env} {w : World} {s : Step} (hw : w.WellFormed)
    (hone : env.settings.tradingMode ≠ .shadow → w.Each fun own _ => standing own ≤ 1)
    (hcond : ExitsApart env w s) : NoOrphans env w s := by
  obtain ⟨heff, hw'⟩ := step_effect env s hw
  obtain ⟨moved, new, htrades, hmoved, -⟩ := heff.trades
  intro hmode t ht hbefore t' ht' hid hafter
  obtain ⟨t₁, ht₁, hm⟩ := Rows.exists_right hmoved ht
  -- the row with the id of `t` is the one `t` moved to
  obtain rfl : t' = t₁ :=
    hw'.eq_of_id ht' (htrades ▸ List.mem_append_left _ ht₁) (hid.trans hm.id.symm)
  obtain ⟨k, k', hmove, rfl, rfl, hown, hown', -⟩ := hm
  obtain ⟨u, hu, link, hlink, hbooks, hsame⟩ := hmove.books hmode hbefore hafter
  refine ⟨u, hu, link, hlink, hbooks, ?_⟩
  -- the booked order stood before the step, so no other exit order works
  obtain ⟨filled, hfilled, hrole, rfl, hstate⟩ := (hcond _ ht).2 u hu link hlink hbooks
  intro o ho htrade hexit hne
  have hmem : o ∈ w.exchange.ordersOf k.trade.id := by
    rw [← hown, ← hsame, hown']
    exact Exchange.mem_ordersOf.mpr ⟨ho, htrade⟩
  exact .inl (not_live_of_standing (hone hmode _ ht) hfilled hrole hstate hmem hexit hne)

/-- In a run in which an exit order is taken only while no other of its trade works or has
filled, no closed trade leaves an exit order behind. -/
theorem noOrphans_run (env : Env) (ss : List Step)
    (h : Runs.Meets (step env) (ExitsApart env) {} ss) :
    Runs.Meets (step env) (NoOrphans env) {} ss := by
  refine Runs.meets_of_invariant
    (I := fun w => w.WellFormed ∧
      (env.settings.tradingMode ≠ .shadow → w.Each fun own _ => standing own ≤ 1))
    ⟨wellFormed_init, by simp [World.Each]⟩ ?_ ?_ h
  · rintro w s ⟨hw, hone⟩ hcond
    obtain ⟨heff, hw'⟩ := step_effect env s hw
    refine ⟨hw', fun hmode => (hone hmode).step heff ?_ fun _ _ hc => hc.standing_le⟩
    intro k k' hm ht hown hk
    exact hm.standing_le hmode hk (hown ▸ (hcond _ ht).1)
  · rintro w s ⟨hw, hone⟩ hcond
    exact noOrphans_step hw hone hcond

/-- A market position whose take-profit call ends so, closed by its stop order. -/
def stoppedOutRun (takeProfit : PlaceOutcome) : List Step :=
  [.executeSignal demoRequest (demoExecute (.accepted none) (.ok none)),
    .settle (.generated (some 0) 2) .filled,
    .processOrder demoEntryFill { demoHandler 1 with takeProfit := takeProfit },
    .settle (.stop 2) .filled,
    .processOrder { orderLinkId := some (.stop 2), orderStatus := .filled } (demoHandler 2)]

theorem noOrphans_refused : Runs.Meets (step (demoEnv .takerAllowed))
    (NoOrphans (demoEnv .takerAllowed)) {} (stoppedOutRun (.apiError "")) :=
  noOrphans_run _ _ (by decide +kernel)

/-- The stop fills, the trade is booked, and the take-profit order stays at the exchange. -/
theorem noOrphans_fails : ¬ Runs.Meets (step (demoEnv .takerAllowed))
    (NoOrphans (demoEnv .takerAllowed)) {} (stoppedOutRun (.accepted none)) := by
  decide +kernel

end AmaExecutionCore
