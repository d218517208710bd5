import AmaExecutionCore.Steps

/-! The durable record of exit orders: when a close, stop or take-profit order that can
still fill is found by its id in the committed database. -/
namespace AmaExecutionCore
open TradeStatus

/-- Every exit order that is live at the exchange is found under its id. -/
def ExitsRecorded (w : World) : Prop :=
  ∀ o ∈ w.exchange.orders, o.role.isExit = true → o.isLive = true →
    ∃ t, w.db.getTradeByOrderLinkId o.linkId = .ok (some t) ∧ t.id = o.trade

instance : DecidablePred ExitsRecorded := fun w =>
  decidable_of_iff (∀ o ∈ w.exchange.orders, o.role.isExit = true → o.isLive = true →
      ∃ t ∈ (w.db.getTradeByOrderLinkId o.linkId).toOption.join, t.id = o.trade) (by
    refine forall₂_congr fun o _ => imp_congr_right fun _ => imp_congr_right fun _ => ?_
    cases w.db.getTradeByOrderLinkId o.linkId with
    | error e => simp [Except.toOption]
    | ok found => simp [Except.toOption])

/-- No order that is live stands in the close column. -/
def CloseFinal (own : List SentOrder) (t : Trade) : Prop :=
  ∀ o ∈ own, o.isLive = true → t.closeOrderLinkId ≠ some o.linkId

instance (own : List SentOrder) (t : Trade) : Decidable (CloseFinal own t) :=
  inferInstanceAs (Decidable (∀ o ∈ own, o.isLive = true → t.closeOrderLinkId ≠ some o.linkId))

/-- The update reports the entry order of the trade as completely filled, and is not ignored. -/
def ConfirmsEntry (data : OrderData) (t : Trade) : Prop :=
  data.orderStatus = .filled ∧ data.leavesQty = some "0" ∧
    shouldIgnoreEntryUpdate t .orderConfirmed true = false ∧
    ∃ link ∈ data.orderLinkId, t.isProtectiveClose link = false

instance (data : OrderData) (t : Trade) : Decidable (ConfirmsEntry data t) :=
  inferInstanceAs (Decidable (data.orderStatus = .filled ∧ data.leavesQty = some "0" ∧
    shouldIgnoreEntryUpdate t .orderConfirmed true = false ∧
    ∃ link ∈ data.orderLinkId, t.isProtectiveClose link = false))

/-- The outcomes of arming protection lose no order: a stop or take-profit call that raises
did not reach the exchange, and an emergency close replaces no live close order. -/
def ArmingSafe (io : HandlerIo) (own : List SentOrder) (t : Trade) : Prop :=
  t.marketType = .spot → t.orderType = some .market →
    (t.stopOrderLinkId = none → io.stop.raises = true →
      io.stop.reached = false ∧ CloseFinal own t) ∧
    (t.stopOrderLinkId ≠ none ∨ io.stop.raises = false → t.takeProfitOrderLinkId = none →
      io.takeProfit.raises = true → io.takeProfit.reached = false)

instance (io : HandlerIo) (own : List SentOrder) (t : Trade) : Decidable (ArmingSafe io own t) :=
  inferInstanceAs (Decidable (t.marketType = .spot → t.orderType = some .market →
    (t.stopOrderLinkId = none → io.stop.raises = true →
      io.stop.reached = false ∧ CloseFinal own t) ∧
    (t.stopOrderLinkId ≠ none ∨ io.stop.raises = false → t.takeProfitOrderLinkId = none →
      io.takeProfit.raises = true → io.takeProfit.reached = false)))

/-- A close call that raises did not reach the exchange, and one that is accepted, or
assumed in shadow mode, replaces no live close order. -/
def ClosingSafe (mode : TradingMode) (io : CloseIo) (own : List SentOrder) (t : Trade) : Prop :=
  (io.close.raises = true → io.close.reached = false) ∧
    (mode = .shadow ∨ io.close.raises = false → CloseFinal own t)

instance (mode : TradingMode) (io : CloseIo) (own : List SentOrder) (t : Trade) :
    Decidable (ClosingSafe mode io own t) :=
  inferInstanceAs (Decidable ((io.close.raises = true → io.close.reached = false) ∧
    (mode = .shadow ∨ io.close.raises = false → CloseFinal own t)))

/-- A close or a protection pass loses nothing it sends, and replaces no live close order. -/
def SendingSafe (env : Env) (w : World) : Step → Prop
  | .reconcileMissingProtection io => env.restClient = true → ∀ t ∈ w.db.trades,
      Db.missingProtection t = true → ArmingSafe (io t.id) (w.exchange.ordersOf t.id) t
  | .closeTrade id _ io => ∀ t ∈ w.db.trades, t.id = id → t.status ∈ closeRetryableStatuses →
      ClosingSafe env.settings.tradingMode io (w.exchange.ordersOf t.id) t
  | _ => True

instance (env : Env) (w : World) (s : Step) : Decidable (SendingSafe env w s) := by
  cases s <;> unfold SendingSafe <;> infer_instance

/-- Nothing the step sends is lost, and no live close order is replaced. -/
def ExitAnswersKept (env : Env) (w : World) (s : Step) : Prop :=
  SendingSafe env w s ∧ ∀ t ∈ w.db.trades, ∀ u ∈ s.update env t, ConfirmsEntry u.1 t →
    ArmingSafe u.2 (w.exchange.ordersOf t.id) t

instance (env : Env) (w : World) (s : Step) : Decidable (ExitAnswersKept env w s) :=
  inferInstanceAs (Decidable (SendingSafe env w s ∧ ∀ t ∈ w.db.trades, ∀ u ∈ s.update env t,
    ConfirmsEntry u.1 t → ArmingSafe u.2 (w.exchange.ordersOf t.id) t))

/-- The trade owns each of its live exit orders. -/
def OwnsLiveExits (own : List SentOrder) (t : Trade) : Prop :=
  ∀ o ∈ own, o.role.isExit = true → o.isLive = true → t.ownsOrderLinkId o.linkId = true

/-- A column that is not lost, and new orders that are refused or recorded. -/
theorem OwnsLiveExits.ends {k k' : Work} {s : TradeStatus} {c st tp : Option OrderLinkId}
    {new : List SentOrder} (h : OwnsLiveExits k.own k.trade) (he : k.Ends k' s c st tp new)
    (hc : c = k.trade.closeOrderLinkId ∨ CloseFinal k.own k.trade)
    (hst : st = k.trade.stopOrderLinkId ∨ k.trade.stopOrderLinkId = none)
    (htp : tp = k.trade.takeProfitOrderLinkId ∨ k.trade.takeProfitOrderLinkId = none)
    (hnew : ∀ o ∈ new, o.isLive = true →
      c = some o.linkId ∨ st = some o.linkId ∨ tp = some o.linkId) :
    OwnsLiveExits k'.own k'.trade := by
  intro o ho hexit hlive
  rw [Trade.owns_iff, he.close, he.stop, he.takeProfit, he.frame.entry.orderLinkId]
  rw [he.own] at ho
  rcases List.mem_append.mp ho with ho | ho
  · have hown := h o ho hexit hlive
    rw [Trade.owns_iff] at hown
    rcases hown with hl | hl | hl | hl
    · exact .inl hl
    · rcases hc with rfl | hfinal
      · exact .inr (.inl hl)
      · exact absurd hl (hfinal o ho hlive)
    · rcases hst with rfl | hnone
      · exact .inr (.inr (.inl hl))
      · rw [hnone] at hl
        cases hl
    · rcases htp with rfl | hnone
      · exact .inr (.inr (.inr hl))
      · rw [hnone] at hl
        cases hl
  · exact .inr (hnew o ho hlive)

theorem OwnsLiveExits.settles {k k' : Work} {s : TradeStatus} (h : OwnsLiveExits k.own k.trade)
    (he : k.Settles k' s) : OwnsLiveExits k'.own k'.trade :=
  h.ends he (.inl rfl) (.inl rfl) (.inl rfl) (by simp)

theorem CloseFinal.settles {k k' : Work} {s : TradeStatus} (h : CloseFinal k.own k.trade)
    (he : k.Settles k' s) : CloseFinal k'.own k'.trade := by
  intro o ho hlive
  rw [he.own, List.append_nil] at ho
  rw [he.close]
  exact h o ho hlive

theorem ArmingSafe.settles {io : HandlerIo} {k k' : Work} {s : TradeStatus}
    (h : ArmingSafe io k.own k.trade) (he : k.Settles k' s) : ArmingSafe io k'.own k'.trade := by
  unfold ArmingSafe
  rw [he.frame.entry.marketType, he.frame.entry.orderType, he.stop, he.takeProfit]
  intro hspot hmarket
  obtain ⟨hstop, htp⟩ := h hspot hmarket
  exact ⟨fun hnone hbad => ⟨(hstop hnone hbad).1, (hstop hnone hbad).2.settles he⟩, htp⟩

theorem not_live_ofCall {id : TradeId} {role : OrderRole} {q : OrderRequest} {o : PlaceOutcome}
    (h : o.reached = false) : (SentOrder.ofCall id role q o).isLive = false := by
  simp [SentOrder.ofCall, h, SentOrder.isLive, OrderState.isLive]

theorem OwnsLiveExits.givenUp {io : HandlerIo} {k k' : Work} (h : OwnsLiveExits k.own k.trade)
    (hfinal : CloseFinal k.own k.trade) (hg : GivenUp io k k') : OwnsLiveExits k'.own k'.trade := by
  have hlink : (emergencyOrder io k).linkId = .generated k.trade.signalId (2 * k.nonce) := rfl
  cases hg with
  | unsent he => exact h.settles he
  | sent he => exact h.ends he (.inr hfinal) (.inl rfl) (.inl rfl) (by simp [hlink])
  | failed he => exact h.ends he (.inr hfinal) (.inl rfl) (.inl rfl) (by simp [hlink])

theorem TakeProfitArmed.recorded {io : HandlerIo} {k : Work} {tp : Option OrderLinkId}
    {new : List SentOrder} (h : TakeProfitArmed io k tp new)
    (hsafe : k.trade.takeProfitOrderLinkId = none → io.takeProfit.raises = true →
      io.takeProfit.reached = false) :
    (tp = k.trade.takeProfitOrderLinkId ∨ k.trade.takeProfitOrderLinkId = none) ∧
      ∀ o ∈ new, o.isLive = true → tp = some o.linkId := by
  cases h with
  | kept => exact ⟨.inl rfl, by simp⟩
  | placed htp =>
    refine ⟨.inr htp, ?_⟩
    intro o ho _
    rw [List.mem_singleton.mp ho]
    rfl
  | lost htp hbad =>
    refine ⟨.inr htp, ?_⟩
    intro o ho hlive
    rw [List.mem_singleton.mp ho, takeProfitOrder, not_live_ofCall (hsafe htp hbad)] at hlive
    cases hlive

theorem OwnsLiveExits.protection {io : HandlerIo} {k : Work} {p : Bool × Work}
    (h : OwnsLiveExits k.own k.trade) (hsafe : ArmingSafe io k.own k.trade)
    (hp : Protection io k p) : OwnsLiveExits p.2.own p.2.trade := by
  cases hp with
  | idle => exact h
  | stopKept hmarket hstop he htp =>
    obtain ⟨hkeep, hnew⟩ := htp.recorded ((hsafe hmarket.1 hmarket.2).2 (.inl (by simp [hstop])))
    exact h.ends he (.inl rfl) (.inl hstop.symm) hkeep fun o ho hlive => .inr (.inr (hnew o ho hlive))
  | stopArmed hmarket hstop hok he htp =>
    obtain ⟨hkeep, hnew⟩ := htp.recorded ((hsafe hmarket.1 hmarket.2).2 (.inr hok))
    refine h.ends he (.inl rfl) (.inr hstop) hkeep fun o ho hlive => ?_
    rcases List.mem_cons.mp ho with rfl | ho
    · exact .inr (.inl rfl)
    · exact .inr (.inr (hnew o ho hlive))
  | @stopLost k' qty stopPrice hmarket hstop hbad hg =>
    obtain ⟨hlost, hfinal⟩ := (hsafe hmarket.1 hmarket.2).1 hstop hbad
    have hsent := sendStop_ends io qty stopPrice k
    have hdead : (stopOrder io qty stopPrice k).isLive = false := not_live_ofCall hlost
    refine OwnsLiveExits.givenUp ?_ ?_ hg
    · exact h.ends hsent (.inl rfl) (.inl rfl) (.inl rfl) (by simp [hdead])
    · intro o ho hlive
      rw [hsent.own] at ho
      rcases List.mem_append.mp ho with ho | ho
      · exact hfinal o ho hlive
      · rw [List.mem_singleton.mp ho, hdead] at hlive
        cases hlive

theorem OwnsLiveExits.updated {io : HandlerIo} {data : OrderData} {k k' : Work}
    {r : Except PyError Bool} (h : OwnsLiveExits k.own k.trade)
    (hsafe : ConfirmsEntry data k.trade → ArmingSafe io k.own k.trade)
    (hu : Updated io data k (r, k')) : OwnsLiveExits k'.own k'.trade := by
  cases hu with
  | unmoved he => exact h.settles he
  | entryMoved _ _ _ _ _ he => exact h.settles he
  | entryFilled _ _ _ _ he => exact h.settles he
  | entryDone hlink hrole hs hleaves hkeep he hp hend =>
    have harm := hsafe ⟨hs, hleaves, hkeep, _, hlink, hrole⟩
    exact ((h.settles he).protection (harm.settles he) hp).settles hend
  | exitBroken _ _ _ _ he => exact h.settles he
  | exitFilled _ _ _ _ _ he => exact h.settles he
  | exitFailed _ _ _ _ he => exact h.settles he
  | exitPartly _ _ _ _ he => exact h.settles he

theorem OwnsLiveExits.settle {own : List SentOrder} {t : Trade} (h : OwnsLiveExits own t)
    (link : OrderLinkId) (state : OrderState) :
    OwnsLiveExits (own.map (SentOrder.settle link state)) t := by
  intro o ho hexit hlive
  obtain ⟨o₀, ho₀, rfl⟩ := List.mem_map.mp ho
  rw [settle_linkId]
  exact h o₀ ho₀ (settle_role link state o₀ ▸ hexit) (live_of_settle hlive)

theorem OwnsLiveExits.closing {mode : TradingMode} {io : CloseIo} {k k' : Work}
    (h : OwnsLiveExits k.own k.trade) (hsafe : ClosingSafe mode io k.own k.trade)
    (hc : Closing mode io k (.ok (), k')) : OwnsLiveExits k'.own k'.trade := by
  cases hc with
  | shadow hmode he =>
    exact h.ends he (.inr (hsafe.2 (.inl hmode))) (.inl rfl) (.inl rfl) (by simp)
  | sent hok he =>
    refine h.ends he (.inr (hsafe.2 (.inr hok))) (.inl rfl) (.inl rfl) fun o ho _ => ?_
    rw [List.mem_singleton.mp ho]
    exact .inl rfl

/-- The row keeps its columns; the order whose call raised never reached the exchange. -/
theorem OwnsLiveExits.closeLost {mode : TradingMode} {io : CloseIo} {e : PyError} {k k' : Work}
    (h : OwnsLiveExits k.own k.trade) (hsafe : ClosingSafe mode io k.own k.trade)
    (hc : Closing mode io k (.error e, k')) :
    OwnsLiveExits ({ k' with trade := k.trade } : Work).own k.trade := by
  rw [hc.own_lost]
  cases hc with
  | lost hbad =>
    intro o ho hexit hlive
    rcases List.mem_append.mp ho with ho | ho
    · exact h o ho hexit hlive
    · rw [List.mem_singleton.mp ho, closeOrder, not_live_ofCall (hsafe.1 hbad)] at hlive
      cases hlive

theorem OwnsLiveExits.move {env : Env} {s : Step} {w : World} {k k' : Work}
    (hcond : ExitAnswersKept env w s) (hm : Move env s k k') (ht : k.trade ∈ w.db.trades)
    (hown : k.own = w.exchange.ordersOf k.trade.id) (h : OwnsLiveExits k.own k.trade) :
    OwnsLiveExits k'.own k'.trade := by
  cases hm with
  | idle => exact h
  | settle =>
    rw [Work.own, Exchange.ordersOf_settle]
    exact h.settle _ _
  | update hdata hu => exact h.updated (fun hc => hown ▸ hcond.2 _ ht _ hdata hc) hu
  | execution he => exact h.settles he
  | closed hst hc => exact h.closing (hown ▸ hcond.1 _ ht rfl hst) hc
  | closeLost hst hc => exact h.closeLost (hown ▸ hcond.1 _ ht rfl hst) hc
  | protect hrest hst hp => exact h.protection (hown ▸ hcond.1 hrest _ ht hst) hp
  | replay _ _ he => exact h.settles he

theorem OwnsLiveExits.created {env : Env} {s : Step} {w w' : World} {moved : List Trade}
    {t : Trade} (hc : Created env s w w' moved t) : OwnsLiveExits (w'.exchange.ordersOf t.id) t := by
  obtain ⟨req, io, w₁, signalId, plan, raised, k, rfl, -, -, -, -, -, hw₁, -, hent, rfl, hown⟩ := hc
  rw [← hown, hent.own hw₁]
  intro o ho hexit
  split_ifs at ho
  · cases ho
  · obtain ⟨a, -, rfl⟩ := List.mem_map.mp ho
    cases hexit

/-- Every exit order was sent for a committed trade. -/
def ExitsHaveTrade (w : World) : Prop :=
  ∀ o ∈ w.exchange.orders, o.role.isExit = true → ∃ t ∈ w.db.trades, t.id = o.trade

theorem ExitsHaveTrade.step {env : Env} {s : Step} {w w' : World} (h : ExitsHaveTrade w)
    (heff : Effect env s w w') : ExitsHaveTrade w' := by
  obtain ⟨moved, new, htrades, hmoved, -⟩ := heff.trades
  have hkept : ∀ id, (∃ t ∈ w.db.trades, t.id = id) → ∃ t ∈ w'.db.trades, t.id = id := by
    rintro id ⟨t, ht, rfl⟩
    obtain ⟨t', ht', hm⟩ := Rows.exists_right hmoved ht
    exact ⟨t', htrades ▸ List.mem_append_left _ ht', hm.id⟩
  intro o ho hexit
  rcases heff.orders o ho with ⟨o₀, ho₀, htrade, hrole, -⟩ | ⟨-, hsent⟩ | ⟨hrole, -⟩
  · rw [htrade]
    exact hkept _ (h o₀ ho₀ (hrole ▸ hexit))
  · exact hkept _ hsent
  · rw [hrole] at hexit
    cases hexit

theorem exitsRecorded_of_owns {w : World} (hw : w.WellFormed) (htrade : ExitsHaveTrade w)
    (h : w.Each OwnsLiveExits) : ExitsRecorded w := by
  intro o ho hexit hlive
  obtain ⟨t, ht, hid⟩ := htrade o ho hexit
  have hown := h t ht o (Exchange.mem_ordersOf.mpr ⟨ho, hid.symm⟩) hexit hlive
  exact ⟨t, hw.getTradeByOrderLinkId ht hown, hid⟩

/-- In a run in which no exit order is lost on its way and no live close order is replaced,
the fill of an exit order is never dropped as unknown. -/
theorem exitsRecorded_run (env : Env) (ss : List Step)
    (h : Runs.Meets (step env) (ExitAnswersKept env) {} ss) :
    Runs.Always (step env) ExitsRecorded {} ss := by
  refine Runs.always_of_invariant
    (I := fun w => w.WellFormed ∧ ExitsHaveTrade w ∧ w.Each OwnsLiveExits)
    ⟨wellFormed_init, by simp [ExitsHaveTrade], by simp [World.Each]⟩ ?_ ?_ h
  · rintro w s ⟨hw, htrade, howns⟩ hcond
    obtain ⟨heff, hw'⟩ := step_effect env s hw
    exact ⟨hw', htrade.step heff, howns.step heff
      (fun k k' hm ht hown hk => hk.move hcond hm ht hown) fun moved t hc => .created hc⟩
  · rintro w ⟨hw, htrade, howns⟩
    exact exitsRecorded_of_owns hw htrade howns

/-- A market position, and a close whose call ends so. -/
def closedMarketRun (close : PlaceOutcome) : List Step :=
  filledEntryRun (.accepted none) ++ [.closeTrade 1 .manual { now := 2, close := close }]

theorem exitsRecorded_accepted : Runs.Always (step (demoEnv .takerAllowed)) ExitsRecorded {}
    (closedMarketRun (.accepted none)) :=
  exitsRecorded_run _ _ (by decide +kernel)

/-- The timed out close reached the exchange, and its id was rolled back. -/
theorem exitsRecorded_fails : ¬ Runs.Always (step (demoEnv .takerAllowed)) ExitsRecorded {}
    (closedMarketRun (.timeoutError true)) := by
  decide +kernel

end AmaExecutionCore
