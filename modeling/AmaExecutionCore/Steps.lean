import AmaExecutionCore.Moves

/-! The effect of each step, by the sessions it opens. -/
namespace AmaExecutionCore
open TradeStatus

theorem World.WellFormed.nodup_filter {w : World} (hw : w.WellFormed) (p : Trade → Bool) :
    ((w.db.trades.filter p).map Trade.id).Nodup :=
  hw.ids.sublist (List.filter_sublist.map _)

theorem processOrder_pass {env : Env} {data : OrderData} {io : HandlerIo} {w : World}
    (hw : w.WellFormed) : ∃ ids, Pass env (.processOrder data io) ids w
      (processOrder env.restClient io data w).2 := by
  unfold processOrder
  split
  · next link _ hlink _ =>
    split
    · exact ⟨[], .refl hw⟩
    · exact ⟨[], .refl hw⟩
    · next t hget =>
      obtain ⟨ht, hown⟩ := Db.getTradeByOrderLinkId_mem hget
      have hframe := applyOrderUpdate_frame env.restClient io data (w.work t)
      split
      · next e k' happ =>
        have hx : k'.exchange = w.exchange := applyOrderUpdate_error happ
        exact ⟨[], .of_eq hw rfl (by simp [World.rollback, hx]) (by simp [World.rollback])⟩
      · next b k' happ =>
        rw [happ] at hframe
        have hup := applyOrderUpdate_updated env.restClient io data (w.work t)
        have hq := applyOrderUpdate_filledQty env.restClient io data (w.work t)
        rw [happ] at hup hq
        refine ⟨[t.id], .commit hw ht (.update ?_ hup hq fun _ => ⟨b, rfl⟩) hframe⟩
        simp [Step.update, hlink, hown]
  · exact ⟨[], .refl hw⟩

theorem reconcileStatusGroup_pass {env : Env} {statuses : List TradeStatus}
    {answer : TradeId → StatusOutcome} {io : TradeId → HandlerIo} {s : Step} {w : World}
    (hw : w.WellFormed) (hdata : ∀ (t : Trade) tracked remote, env.restClient = true →
      t.status ∈ statuses → t.trackedOrderLinkId = some tracked →
      answer t.id = .ok (some remote) →
      s.update env t = some (reconciledData tracked remote, io t.id))
    (hs : ¬ ∃ data io, s = .processOrder data io) :
    ∃ ids, Pass env s ids w (reconcileStatusGroup env.restClient statuses answer io w) := by
  unfold reconcileStatusGroup
  split_ifs
  · exact ⟨[], .refl hw⟩
  · refine ⟨_, Pass.foldl
      (fun t k => (reconcileTrade env.restClient (answer t.id) (io t.id) k).2) _ ?_
      (hw.nodup_filter _) w hw fun t ht => (List.mem_filter.mp ht).1⟩
    intro t ht w
    have hst : t.status ∈ statuses := by simpa using (List.mem_filter.mp ht).2
    refine ⟨?_, reconcileTrade_frame _ _ _ _⟩
    rcases reconcileTrade_cases env.restClient (answer t.id) (io t.id) (w.work t) with
      h | ⟨tracked, remote, hrest, htracked, hans, h⟩
    · rw [h]
      exact .idle
    · rw [h]
      exact .update (hdata t tracked remote hrest hst htracked hans)
        (applyOrderUpdate_updated _ _ _ _) (applyOrderUpdate_filledQty _ _ _ _)
        fun hevent => (hs hevent).elim

theorem reconcileEntry_update {env : Env} {answer : TradeId → StatusOutcome}
    {io : TradeId → HandlerIo} (t : Trade) (tracked : OrderLinkId) (remote : OrderData)
    (hrest : env.restClient = true) (hst : t.status ∈ entryReconciliationStatuses)
    (htracked : t.trackedOrderLinkId = some tracked) (hans : answer t.id = .ok (some remote)) :
    (Step.reconcileEntryOrders answer io).update env t =
      some (reconciledData tracked remote, io t.id) := by
  have hne : t.status ∉ closeReconciliationStatuses := by
    simp only [entryReconciliationStatuses, List.mem_cons, List.not_mem_nil, or_false] at hst
    obtain hst | hst := hst <;> simp [hst, closeReconciliationStatuses]
  unfold Trade.trackedOrderLinkId at htracked
  rw [if_neg hne, if_pos hst] at htracked
  simp [Step.update, hrest, hst, htracked, hans, answered]

theorem reconcileClose_update {env : Env} {answer : TradeId → StatusOutcome}
    {io : TradeId → HandlerIo} (t : Trade) (tracked : OrderLinkId) (remote : OrderData)
    (hrest : env.restClient = true) (hst : t.status ∈ closeReconciliationStatuses)
    (htracked : t.trackedOrderLinkId = some tracked) (hans : answer t.id = .ok (some remote)) :
    (Step.reconcileCloseOrders answer io).update env t =
      some (reconciledData tracked remote, io t.id) := by
  unfold Trade.trackedOrderLinkId at htracked
  rw [if_pos hst] at htracked
  simp [Step.update, hrest, hst, htracked, hans, answered]

theorem World.WellFormed.getTradeByOrderLinkId {w : World} (hw : w.WellFormed) {t : Trade}
    {link : OrderLinkId} (ht : t ∈ w.db.trades) (hown : t.ownsOrderLinkId link = true) :
    w.db.getTradeByOrderLinkId link = .ok (some t) := by
  have hall : ∀ r ∈ w.db.trades.filter (Trade.ownsOrderLinkId link), r = t := by
    intro r hr
    obtain ⟨hr, hl⟩ := List.mem_filter.mp hr
    exact hw.eq_of_id hr ht (hw.owner r hr t ht link hl hown)
  have hnodup : (w.db.trades.filter (Trade.ownsOrderLinkId link)).Nodup :=
    (List.Nodup.of_map _ hw.ids).filter _
  have hmem : t ∈ w.db.trades.filter (Trade.ownsOrderLinkId link) := List.mem_filter.mpr ⟨ht, hown⟩
  unfold Db.getTradeByOrderLinkId
  match hf : w.db.trades.filter (Trade.ownsOrderLinkId link) with
  | [] => simp [hf] at hmem
  | [a] =>
    rw [hf] at hmem
    rw [List.mem_singleton.mp hmem]
  | a :: b :: l =>
    rw [hf] at hall hnodup
    have hab : a = b := (hall a (by simp)).trans (hall b (by simp)).symm
    simp [hab] at hnodup

theorem protectListed_pass (env : Env) (hrest : env.restClient = true)
    (io : TradeId → HandlerIo) (ts : List Trade)
    (hts : ∀ t ∈ ts, Db.missingProtection t = true) (hnodup : (ts.map Trade.id).Nodup) (w : World)
    (hw : w.WellFormed) (hmem : ∀ t ∈ ts, t ∈ w.db.trades) :
    ∃ w', protectListed env.restClient io ts w = (.ok (), w') ∧
      Pass env (.reconcileMissingProtection io) (ts.map Trade.id) w w' := by
  induction ts generalizing w with
  | nil => exact ⟨w, rfl, .refl hw⟩
  | cons t ts ih =>
    have hnotin : t.id ∉ ts.map Trade.id := (List.nodup_cons.mp hnodup).1
    have ih := ih (fun r hr => hts r (List.mem_cons_of_mem _ hr)) (List.nodup_cons.mp hnodup).2
    simp only [protectListed]
    cases hlink : t.orderLinkId with
    | none =>
      obtain ⟨w', hrun, hpass⟩ := ih w hw fun r hr => hmem r (List.mem_cons_of_mem _ hr)
      exact ⟨w', hrun, hpass.mono fun i hi => List.mem_cons_of_mem _ hi⟩
    | some link =>
      have ht := hmem t List.mem_cons_self
      have hown : t.ownsOrderLinkId link = true := by
        rw [Trade.owns_iff]
        exact .inl hlink
      have hget := hw.getTradeByOrderLinkId ht hown
      have hcommit : Pass env (.reconcileMissingProtection io) [t.id] w (w.commit
          (ensureSpotMarketProtection env.restClient (io t.id) (w.work t)).2) :=
        .commit hw ht (.protect hrest (hts t List.mem_cons_self)
          (ensureSpotMarketProtection_protection env.restClient (io t.id) (w.work t))
          (ensureSpotMarketProtection_filledQty env.restClient (io t.id) (w.work t)))
          (ensureSpotMarketProtection_frame env.restClient (io t.id) (w.work t))
      have hrest : ∀ r ∈ ts, r ∈ (w.commit (ensureSpotMarketProtection env.restClient (io t.id)
          (w.work t)).2).db.trades := by
        intro r hr
        obtain ⟨r', hr', -, hsame⟩ := Rows.exists_right hcommit.trades
          (hmem r (List.mem_cons_of_mem _ hr))
        obtain ⟨rfl, -⟩ := hsame (by
          simp only [List.mem_singleton]
          exact fun h => hnotin (h ▸ List.mem_map_of_mem hr))
        exact hr'
      obtain ⟨w', hrun, hpass⟩ := ih _ hcommit.wellFormed hrest
      refine ⟨w', by simp only [hget]; exact hrun, hcommit.trans hpass ?_⟩
      intro i hi
      rw [List.mem_singleton.mp hi]
      exact hnotin

theorem reconcileMissingProtection_pass {env : Env} {io : TradeId → HandlerIo} {w : World}
    (hw : w.WellFormed) : ∃ ids, Pass env (.reconcileMissingProtection io) ids w
      (reconcileMissingProtectionOrders env.restClient io w) := by
  unfold reconcileMissingProtectionOrders
  split_ifs with hrest
  · exact ⟨[], .refl hw⟩
  · obtain ⟨w', hrun, hpass⟩ := protectListed_pass env (by simpa using hrest) io w.db.listSpotMarketTradesMissingProtection
      (fun t ht => (List.mem_filter.mp ht).2) (hw.nodup_filter _) w hw
      (fun t ht => (List.mem_filter.mp ht).1)
    rw [hrun]
    exact ⟨_, hpass⟩

theorem noteSlippage_same {link : OrderLinkId} {price : Option RawNumber} {t t' : Trade}
    (h : noteSlippage link price t = .ok t') : ∃ q, t' = { t with slippage := q } := by
  unfold noteSlippage at h
  split at h
  · next price entryPrice _ =>
    split_ifs at h
    · cases hp : price.parse with
      | error e => simp [hp, Except.map] at h
      | ok q =>
        simp only [hp, Except.map, Except.ok.injEq] at h
        exact ⟨_, h.symm⟩
    · exact ⟨t.slippage, (Except.ok.inj h).symm⟩
  · exact ⟨t.slippage, (Except.ok.inj h).symm⟩

theorem processExecution_pass {env : Env} {data : ExecutionData} {w : World}
    (hw : w.WellFormed) : ∃ ids, Pass env (.processExecution data) ids w
      (processExecution data w).2 := by
  unfold processExecution
  split
  · exact ⟨[], .refl hw⟩
  · split_ifs
    · exact ⟨[], .refl hw⟩
    · split
      · exact ⟨[], .refl hw⟩
      · exact ⟨[], .refl hw⟩
      · exact ⟨[], .refl hw⟩
      · next fee t _ hget =>
        obtain ⟨ht, -⟩ := Db.getTradeByOrderLinkId_mem hget
        dsimp only
        split
        · exact ⟨[], .refl hw⟩
        · next t' hslip =>
          obtain ⟨q, rfl⟩ := noteSlippage_same hslip
          have hkeep : ∀ f : Trade → Trade, t.SameEntry (f t) → t.SameExits (f t) →
              (w.work t).Settles ((w.work t).onTrade f) (f t).status := by
            intro f h hx
            exact .onTrade f (w.work t) h hx
          refine ⟨[t.id], ?_⟩
          cases fee with
          | none =>
            have hset := hkeep (fun t => { t with slippage := q })
              ⟨by constructor <;> rfl, rfl, rfl⟩ (by constructor <;> rfl)
            exact .commit hw ht (.execution hset rfl) hset.frame
          | some p =>
            have hset := hkeep (fun t => { t with
              feePaid := some (t.feePaid.getD 0 + p), slippage := q })
              ⟨by constructor <;> rfl, rfl, rfl⟩ (by constructor <;> rfl)
            exact .commit hw ht (.execution hset rfl) hset.frame

theorem closeTrade_pass {env : Env} {id : TradeId} {reason : ExitReason} {io : CloseIo} {w : World}
    (hw : w.WellFormed) : ∃ ids, Pass env (.closeTrade id reason io) ids w
      (closeTrade env.settings.tradingMode id reason io w).2 := by
  unfold closeTrade
  split
  · exact ⟨[], .refl hw⟩
  · next t hget =>
    obtain ⟨ht, rfl⟩ := Db.getTrade_mem hget
    split_ifs with hst
    · have hframe := submitClose_frame env.settings.tradingMode reason io (w.work t)
      split
      · next e k' hclose =>
        rw [hclose] at hframe
        have hcl := submitClose_closing env.settings.tradingMode reason io (w.work t)
        rw [hclose] at hcl
        exact ⟨[t.id], .rollback hw ht (.closeLost hst hcl) hframe⟩
      · next k' hclose =>
        rw [hclose] at hframe
        have hcl := submitClose_closing env.settings.tradingMode reason io (w.work t)
        have hq := submitClose_filledQty env.settings.tradingMode reason io (w.work t)
        rw [hclose] at hcl hq
        exact ⟨[t.id], .commit hw ht (.closed hst hcl hq) hframe⟩
    · exact ⟨[], .refl hw⟩

theorem settle_trade (link : OrderLinkId) (state : OrderState) (o : SentOrder) :
    (o.settle link state).trade = o.trade := by
  unfold SentOrder.settle
  split_ifs <;> rfl

theorem settle_role (link : OrderLinkId) (state : OrderState) (o : SentOrder) :
    (o.settle link state).role = o.role := by
  unfold SentOrder.settle
  split_ifs <;> rfl

theorem settle_request (link : OrderLinkId) (state : OrderState) (o : SentOrder) :
    (o.settle link state).request = o.request := by
  unfold SentOrder.settle
  split_ifs <;> rfl

theorem settle_refused (link : OrderLinkId) (state : OrderState) (o : SentOrder) :
    (o.settle link state).state = .refused ↔ o.state = .refused := by
  unfold SentOrder.settle
  split_ifs with h
  · obtain ⟨-, h⟩ := h
    cases hs : o.state <;> cases state <;> simp_all [OrderState.canMove]
  · rfl

theorem live_of_settle {link : OrderLinkId} {state : OrderState} {o : SentOrder}
    (h : (o.settle link state).isLive = true) : o.isLive = true := by
  unfold SentOrder.settle at h
  split_ifs at h with hmove
  · exact OrderState.live_of_canMove hmove.2
  · exact h

theorem settle_linkId (link : OrderLinkId) (state : OrderState) (o : SentOrder) :
    (o.settle link state).linkId = o.linkId := by
  rw [SentOrder.linkId, settle_request, SentOrder.linkId]

theorem Exchange.ordersOf_settle (link : OrderLinkId) (state : OrderState) (id : TradeId)
    (x : Exchange) : (x.settle link state).ordersOf id =
      (x.ordersOf id).map (SentOrder.settle link state) := by
  simp [Exchange.ordersOf, Exchange.settle, List.filter_map, Function.comp_def, settle_trade]

theorem settle_pass {env : Env} {link : OrderLinkId} {state : OrderState} {w : World}
    (hw : w.WellFormed) : Pass env (.settle link state) (w.db.trades.map Trade.id) w
      { w with exchange := w.exchange.settle link state } where
  issued := le_refl _
  wellFormed := by
    refine ⟨hw.ids, hw.fresh, ?_, hw.links, hw.owner⟩
    intro o ho
    obtain ⟨o₀, ho₀, rfl⟩ := List.mem_map.mp ho
    rw [settle_trade]
    exact hw.sent o₀ ho₀
  trades := by
    refine List.forall₂_same.mpr fun r hr => ⟨?_, fun hn => (hn (List.mem_map_of_mem hr)).elim⟩
    exact ⟨w.work r, { w.work r with exchange := w.exchange.settle link state }, .settle, rfl, rfl,
      rfl, rfl, le_refl _, fun _ hl => .inl hl⟩
  orders := by
    intro o ho
    obtain ⟨o₀, ho₀, rfl⟩ := List.mem_map.mp ho
    exact .inl ⟨o₀, ho₀, settle_trade _ _ _, settle_role _ _ _, settle_request _ _ _⟩

theorem cancelPendingOrders_orders (w : World) :
    (cancelPendingOrders w).exchange.orders = w.exchange.orders := by
  have hfold : ∀ (ts : List Trade) (x : Exchange),
      (ts.foldl cancelEntryOrder x).orders = x.orders := by
    intro ts
    induction ts with
    | nil => exact fun _ => rfl
    | cons t ts ih =>
      intro x
      rw [List.foldl_cons, ih]
      unfold cancelEntryOrder
      split <;> rfl
  exact hfold _ _

theorem activateKillSwitch_pass {env : Env} {s : Step} {now : Timestamp} {w : World}
    (hw : w.WellFormed) : Pass env s [] w
      (activateKillSwitch env.settings.tradingMode env.restClient now w) := by
  simp only [activateKillSwitch]
  split_ifs
  · exact .of_eq hw rfl rfl (le_refl _)
  · exact .of_eq hw rfl (cancelPendingOrders_orders _) (le_refl _)
  · exact .of_eq hw rfl rfl (le_refl _)

theorem killSwitchGuard_world (now : Timestamp) (w : World) :
    (killSwitchGuard now w).2 = killSwitchStatus now w := by
  simp only [killSwitchGuard]
  split_ifs <;> rfl

theorem registerSignal_ok {fingerprint : String} {loaded : Option SignalSubmission}
    {req : NormalizedExecuteSignalRequest} {w w₁ : World}
    (h : registerSignal fingerprint loaded req w = .ok w₁) : ∃ rows,
      submissionRows fingerprint loaded w.issued w.db = .ok rows ∧ w₁ = { w with
        db := { w.db with
          submissions := rows, signals := w.db.signals ++ [buildSignal w.issued req] }
        issued := w.issued + 1
        origin := w.origin ++ [(w.issued, fingerprint)] } := by
  unfold registerSignal at h
  cases hrows : submissionRows fingerprint loaded w.issued w.db with
  | error e => simp [hrows, Except.map] at h
  | ok rows =>
    simp only [hrows, Except.map, Except.ok.injEq] at h
    exact ⟨rows, rfl, h.symm⟩

theorem registerSignal_same {fingerprint : String} {loaded : Option SignalSubmission}
    {req : NormalizedExecuteSignalRequest} {w w₁ : World}
    (h : registerSignal fingerprint loaded req w = .ok w₁) : w₁.db.trades = w.db.trades ∧
      w₁.exchange = w.exchange ∧ w₁.issued = w.issued + 1 := by
  obtain ⟨rows, -, rfl⟩ := registerSignal_ok h
  exact ⟨rfl, rfl, rfl⟩

theorem freshStart_some {env : Env} {req : NormalizedExecuteSignalRequest} {io : ExecuteIo}
    {loaded : Option SignalSubmission} {w w₁ : World} {plan : EntryPlan}
    (h : freshStart env req io loaded w = some (w₁, plan)) :
    executeFresh env req io loaded w = submitEntry env req io w.issued plan w₁ ∧
      w₁.db.trades = w.db.trades ∧ w₁.exchange = w.exchange ∧ w₁.issued = w.issued + 1 ∧
      checkEntry env.settings .spot req io w.issued w₁.db = .ok plan := by
  unfold freshStart at h
  split at h
  · cases h
  · next registered hreg =>
    obtain ⟨htrades, hexchange, hissued⟩ := registerSignal_same hreg
    split at h
    · cases h
    · next w₂ hguard =>
      have hw₂ : w₂ = killSwitchStatus io.now registered := by
        have := killSwitchGuard_world io.now registered
        rw [hguard] at this
        exact this
      split at h
      · cases h
      · next plan' hcheck =>
        simp only [Option.some.injEq, Prod.mk.injEq] at h
        obtain ⟨rfl, rfl⟩ := h
        refine ⟨?_, ?_, ?_, ?_, hcheck⟩
        · simp only [executeFresh, hreg, hguard, hcheck]
        · rw [hw₂]
          exact htrades
        · rw [hw₂]
          exact hexchange
        · rw [hw₂]
          exact hissued

theorem freshStart_none {env : Env} {req : NormalizedExecuteSignalRequest} {io : ExecuteIo}
    {loaded : Option SignalSubmission} {w : World} (h : freshStart env req io loaded w = none) :
    (executeFresh env req io loaded w).2.db.trades = w.db.trades ∧
      (executeFresh env req io loaded w).2.exchange = w.exchange ∧
      w.issued ≤ (executeFresh env req io loaded w).2.issued := by
  unfold freshStart at h
  split at h
  · next e hreg =>
    have hrun : executeFresh env req io loaded w = (.error e, w) := by
      simp only [executeFresh, hreg]
    rw [hrun]
    exact ⟨rfl, rfl, le_refl _⟩
  · next registered hreg =>
    obtain ⟨htrades, hexchange, hissued⟩ := registerSignal_same hreg
    have hle : w.issued ≤ registered.issued := by omega
    have hguard := killSwitchGuard_world io.now registered
    split at h
    · next e w₂ hg =>
      rw [hg] at hguard
      simp only [executeFresh, hreg, hg]
      subst hguard
      exact ⟨htrades, hexchange, hle⟩
    · next w₂ hg =>
      rw [hg] at hguard
      subst hguard
      split at h
      · next e hcheck =>
        simp only [executeFresh, hreg, hg, hcheck]
        exact ⟨htrades, hexchange, hle⟩
      · cases h

theorem drawnAt_entryLink {req : NormalizedExecuteSignalRequest} {plan : EntryPlan}
    {signalId : SignalId} {now : Timestamp} {s : Settings} {w : World} {link : OrderLinkId}
    (h : link = entryLink (createTrade (buildTrade s req plan signalId now w.issued) w) ∨
      link = fallbackLink (createTrade (buildTrade s req plan signalId now w.issued) w)) :
    link.drawnAt w.issued := by
  have hentry : entryLink (createTrade (buildTrade s req plan signalId now w.issued) w) =
    .generated (some signalId) (2 * w.issued) := rfl
  have hfall : fallbackLink (createTrade (buildTrade s req plan signalId now w.issued) w) =
    .generated (some signalId) (2 * w.issued + 1) := rfl
  rcases h with rfl | rfl
  · rw [hentry]
    simp [OrderLinkId.drawnAt]
  · rw [hfall]
    simp only [OrderLinkId.drawnAt]
    omega

theorem World.WellFormed.extend {w w' : World} {added : List Trade} {new : List SentOrder}
    (hw : w.WellFormed) (hissued : w'.issued = w.issued + 1)
    (htrades : w'.db.trades = w.db.trades ++ added)
    (hadded : added = [] ∨ ∃ t, added = [t] ∧ t.id = w.issued ∧
      ∀ link, t.ownsOrderLinkId link = true → link.drawnAt w.issued)
    (horders : w'.exchange.orders = w.exchange.orders ++ new)
    (hnew : ∀ o ∈ new, o.trade = w.issued) : w'.WellFormed := by
  have hmem : ∀ t ∈ w'.db.trades, t ∈ w.db.trades ∨ (t.id = w.issued ∧ added = [t] ∧
      ∀ link, t.ownsOrderLinkId link = true → link.drawnAt w.issued) := by
    intro t ht
    rw [htrades] at ht
    rcases List.mem_append.mp ht with ht | ht
    · exact .inl ht
    · rcases hadded with rfl | ⟨r, rfl, hid, hlinks⟩
      · cases ht
      · obtain rfl := List.mem_singleton.mp ht
        exact .inr ⟨hid, rfl, hlinks⟩
  have hold : ∀ t ∈ w.db.trades, ∀ link, t.ownsOrderLinkId link = true →
      ¬ link.drawnAt w.issued := by
    intro t ht link hl hd
    obtain ⟨n, hn, hd'⟩ := hw.links t ht link hl
    exact absurd (OrderLinkId.drawnAt_unique hd hd') (by omega)
  refine ⟨?_, ?_, ?_, ?_, ?_⟩
  · rw [htrades, List.map_append, List.nodup_append]
    refine ⟨hw.ids, ?_, ?_⟩
    · rcases hadded with rfl | ⟨t, rfl, -⟩ <;> simp
    · rintro i hi j hj rfl
      obtain ⟨t, ht, rfl⟩ := List.mem_map.mp hi
      rcases hadded with rfl | ⟨r, rfl, hid, -⟩
      · cases hj
      · rw [List.map_singleton, List.mem_singleton, hid] at hj
        exact absurd (hw.fresh t ht) (hj ▸ lt_irrefl _)
  · intro t ht
    rw [hissued]
    rcases hmem t ht with ht | ⟨hid, -⟩
    · exact (hw.fresh t ht).trans (Nat.lt_succ_self _)
    · rw [hid]
      exact Nat.lt_succ_self _
  · intro o ho
    rw [hissued]
    rw [horders] at ho
    rcases List.mem_append.mp ho with ho | ho
    · exact (hw.sent o ho).trans (Nat.lt_succ_self _)
    · rw [hnew o ho]
      exact Nat.lt_succ_self _
  · intro t ht link hl
    rw [hissued]
    rcases hmem t ht with ht | ⟨-, -, hlinks⟩
    · obtain ⟨n, hn, hd⟩ := hw.links t ht link hl
      exact ⟨n, hn.trans (Nat.lt_succ_self _), hd⟩
    · exact ⟨w.issued, Nat.lt_succ_self _, hlinks link hl⟩
  · intro t ht t' ht' link hl hl'
    rcases hmem t ht with ht | ⟨hid, -, hlinks⟩ <;> rcases hmem t' ht' with ht' | ⟨hid', -, hlinks'⟩
    · exact hw.owner t ht t' ht' link hl hl'
    · exact (hold t ht link hl (hlinks' link hl')).elim
    · exact (hold t' ht' link hl' (hlinks link hl)).elim
    · exact hid.trans hid'.symm

/-- The rows a pass left stay while the orders of a new trade are sent. -/
theorem Pass.moved_new {env : Env} {s : Step} {ids : List TradeId} {w w₁ w' : World}
    {new : List SentOrder} (hpass : Pass env s ids w w₁) (hw : w.WellFormed)
    (hnew : ∀ o ∈ new, o.trade = w₁.issued)
    (horders : w'.exchange.orders = w₁.exchange.orders ++ new) (hissued : w'.issued = w₁.issued + 1) :
    List.Forall₂ (Moved env s w w') w.db.trades w₁.db.trades := by
  have hmem := (List.forall₂_and_left _ _).mpr ⟨fun t (ht : t ∈ w.db.trades) => ht, hpass.trades⟩
  refine hmem.imp fun t t' ⟨ht, hm, _⟩ => hm.extend ?_ (by omega)
  have hlt : t.id < w₁.issued := (hw.fresh t ht).trans_le hpass.issued
  have hnone : new.filter (fun o => o.trade = t.id) = [] := by
    rw [List.filter_eq_nil_iff]
    intro o ho
    rw [hnew o ho]
    simpa using hlt.ne'
  simp [Exchange.ordersOf, horders, hnone]

theorem Pass.orders_new {env : Env} {s : Step} {ids : List TradeId} {w w₁ w' : World}
    {new : List SentOrder} (hpass : Pass env s ids w w₁)
    (hnew : ∀ o ∈ new, o.trade = w₁.issued ∧ o.role = .entry)
    (horders : w'.exchange.orders = w₁.exchange.orders ++ new) (hissued : w'.issued = w₁.issued + 1) :
    ∀ o' ∈ w'.exchange.orders,
      (∃ o ∈ w.exchange.orders, o'.trade = o.trade ∧ o'.role = o.role ∧ o'.request = o.request) ∨
      (o'.role.isExit = true ∧ ∃ t ∈ w.db.trades, t.id = o'.trade) ∨
      (o'.role = .entry ∧ w.issued ≤ o'.trade ∧ o'.trade < w'.issued) := by
  intro o ho
  rw [horders] at ho
  rcases List.mem_append.mp ho with ho | ho
  · rcases hpass.orders o ho with ho | ho
    · exact .inl ho
    · exact .inr (.inl ho)
  · obtain ⟨hid, hrole⟩ := hnew o ho
    exact .inr (.inr ⟨hrole, hid ▸ hpass.issued, by rw [hid, hissued]; exact Nat.lt_succ_self _⟩)

theorem submitEntry_effect {env : Env} {req : NormalizedExecuteSignalRequest} {io : ExecuteIo}
    {signalId : SignalId} {plan : EntryPlan} {ids : List TradeId} {w w₁ : World}
    (hw : w.WellFormed) (hstart : entryStart env req io w = some (w₁, signalId, plan))
    (hpass : Pass env (.executeSignal req io) ids w w₁)
    (hcheck : checkEntry env.settings .spot req io signalId w₁.db = .ok plan)
    (horders : w₁.exchange.orders = w.exchange.orders) :
    Effect env (.executeSignal req io) w (submitEntry env req io signalId plan w₁).2 ∧
      (submitEntry env req io signalId plan w₁).2.WellFormed := by
  have hw₁ := hpass.wellFormed
  have hent := settleEntry_entered env.settings .spot req io
    (entryWork env req io (w₁, signalId, plan)) (entryWork_link _ _ _ _)
  obtain ⟨status, link, ty, new, henters, hlink, hnew⟩ := hent.enters (entryWork_link _ _ _ _)
  have hdrawn := drawnAt_entryLink hlink
  have hlinks : ∀ l, (settleEntry env.settings .spot req io
      (entryWork env req io (w₁, signalId, plan))).work.trade.ownsOrderLinkId l = true →
      l.drawnAt w₁.issued := by
    intro l hl
    rw [Trade.owns_iff, henters.link, henters.exits.close, henters.exits.stop,
      henters.exits.takeProfit] at hl
    rcases hl with hl | hl | hl | hl
    · exact Option.some.inj hl ▸ hdrawn
    · cases hl
    · cases hl
    · cases hl
  have hnew' : ∀ o ∈ new, o.trade = w₁.issued := fun o ho => (hnew o ho).1
  have hcommitted : ∀ (raised : Option PyError) (k : Work) (w' : World),
      settleEntry env.settings .spot req io (entryWork env req io (w₁, signalId, plan)) =
        .committed raised k →
      w'.db.trades = Db.saveTrade k.trade w₁.db.trades → w'.exchange = k.exchange →
      w'.issued = w₁.issued + 1 →
      Effect env (.executeSignal req io) w w' ∧ w'.WellFormed := by
    intro raised k w' hres htrades hexchange hissued
    rw [hres] at henters hlinks hent
    have hid : k.trade.id = w₁.issued := henters.same.id
    have hord : w'.exchange.orders = w₁.exchange.orders ++ new := by
      rw [hexchange]
      exact henters.orders
    have hput : w'.db.trades = w₁.db.trades ++ [k.trade] := by
      rw [htrades]
      exact Rows.put_of_fresh fun r hr => by
        rw [hid]
        exact (hw₁.fresh r hr).ne
    refine ⟨⟨hissued ▸ hpass.issued.trans (Nat.le_succ _), ⟨w₁.db.trades, [k.trade], hput,
      hpass.moved_new hw hnew' hord hissued,
      .inr ⟨k.trade, rfl, req, io, w₁, signalId, plan, raised, k, rfl, hstart, rfl, hcheck,
        hpass.issued, by omega, hw₁, horders, hent, rfl, by rw [hexchange]; rfl⟩⟩,
      hpass.orders_new hnew hord hissued⟩, ?_⟩
    exact hw₁.extend hissued hput (.inr ⟨k.trade, rfl, hid, hlinks⟩) hord hnew'
  simp only [submitEntry]
  split
  · next e k hres =>
    have haborted : settleEntry env.settings .spot req io (entryWork env req io
      (w₁, signalId, plan)) = .aborted e k := hres
    rw [haborted] at henters
    have hord : (w₁.rollback k).exchange.orders = w₁.exchange.orders ++ new := henters.orders
    refine ⟨⟨hpass.issued.trans (Nat.le_succ _), ⟨w₁.db.trades, [], by simp [World.rollback],
      hpass.moved_new hw hnew' hord rfl, .inl rfl⟩, hpass.orders_new hnew hord rfl⟩, ?_⟩
    exact hw₁.extend rfl (by simp [World.rollback]) (.inl rfl) hord hnew'
  · next e k hres => exact hcommitted (some e) k _ hres rfl rfl rfl
  · next k hres => exact hcommitted none k _ hres rfl rfl rfl

theorem replayResult_world (submission : SignalSubmission) (t : Trade) (w : World) :
    (replayResult submission t w).2 = w := by
  unfold replayResult
  split <;> rfl

theorem Db.getTradeForSubmission_mem {db : Db} {submission : SignalSubmission} {t : Trade}
    (h : db.getTradeForSubmission submission = some t) : t ∈ db.trades := by
  unfold Db.getTradeForSubmission at h
  split at h
  · next t' hlinked =>
    obtain rfl : t' = t := by simpa using h
    obtain ⟨id, -, hget⟩ := Option.bind_eq_some_iff.mp hlinked
    exact (Db.getTrade_mem hget).1
  · split at h
    · cases h
    · exact (List.mem_filter.mp (List.mem_of_getLast? h)).1

theorem Pass.reconciled (env : Env) (req : NormalizedExecuteSignalRequest) {io : ExecuteIo} {w : World}
    {t : Trade} {k : Work} (hw : w.WellFormed) (ht : t ∈ w.db.trades)
    (hpend : t.status = orderPendingUnknown)
    (hk : reconcilePendingUnknown io.pendingLookup (w.work t) = (.ok (), k)) :
    Pass env (.executeSignal req io) [t.id] w (w.commit k) := by
  have hframe := reconcilePendingUnknown_frame io.pendingLookup (w.work t)
  rw [hk] at hframe
  refine .commit hw ht ?_ hframe
  obtain rfl | ⟨remote, hlookup, rfl⟩ := reconcilePendingUnknown_ok hk
  · exact .idle
  · exact .replay hpend hlookup (noteRemoteStatus_settles remote _) (by simp [noteRemoteStatus])

/-- `execute_signal` either creates no trade, or submits one from its start. -/
theorem entryStart_cases (env : Env) (req : NormalizedExecuteSignalRequest) (io : ExecuteIo)
    {w : World} (hw : w.WellFormed) :
    (entryStart env req io w = none ∧
      (executeSignal env req io w).2.exchange.orders = w.exchange.orders ∧
      ∃ ids, Pass env (.executeSignal req io) ids w (executeSignal env req io w).2) ∨
    ∃ w₁ signalId plan ids, entryStart env req io w = some (w₁, signalId, plan) ∧
      executeSignal env req io w = submitEntry env req io signalId plan w₁ ∧
      checkEntry env.settings .spot req io signalId w₁.db = .ok plan ∧
      w₁.exchange.orders = w.exchange.orders ∧ Pass env (.executeSignal req io) ids w w₁ := by
  have hfresh : ∀ (loaded : Option SignalSubmission) (w₀ : World) (ids : List TradeId),
      Pass env (.executeSignal req io) ids w w₀ → w₀.exchange.orders = w.exchange.orders →
      ((freshStart env req io loaded w₀).map (fun p => (p.1, w₀.issued, p.2)) = none ∧
        (executeFresh env req io loaded w₀).2.exchange.orders = w.exchange.orders ∧
        ∃ ids, Pass env (.executeSignal req io) ids w (executeFresh env req io loaded w₀).2) ∨
      ∃ w₁ signalId plan ids,
        (freshStart env req io loaded w₀).map (fun p => (p.1, w₀.issued, p.2)) =
          some (w₁, signalId, plan) ∧
        executeFresh env req io loaded w₀ = submitEntry env req io signalId plan w₁ ∧
        checkEntry env.settings .spot req io signalId w₁.db = .ok plan ∧
        w₁.exchange.orders = w.exchange.orders ∧ Pass env (.executeSignal req io) ids w w₁ := by
    intro loaded w₀ ids hpass hord
    cases hstart : freshStart env req io loaded w₀ with
    | none =>
      obtain ⟨htrades, hexchange, hissued⟩ := freshStart_none hstart
      exact .inl ⟨rfl, by rw [hexchange, hord], _, hpass.trans
        (.of_eq hpass.wellFormed htrades (by rw [hexchange]) hissued) (by simp)⟩
    | some start =>
      obtain ⟨w₁, plan⟩ := start
      obtain ⟨heq, htrades, hexchange, hissued, hcheck⟩ := freshStart_some hstart
      exact .inr ⟨w₁, _, plan, _, rfl, heq, hcheck, by rw [hexchange, hord], hpass.trans
        (.of_eq hpass.wellFormed htrades (by rw [hexchange]) (by omega)) (by simp)⟩
  have hidle : Pass env (.executeSignal req io) [] w w := .refl hw
  simp only [entryStart, executeSignal]
  cases w.db.getSignalSubmission (env.fingerprint req) with
  | none => exact hfresh none w [] hidle rfl
  | some submission =>
    dsimp only
    cases hfound : w.db.getTradeForSubmission submission with
    | none => exact hfresh _ w [] hidle rfl
    | some t =>
      have ht := Db.getTradeForSubmission_mem hfound
      dsimp only
      split_ifs with hterm hpend
      · exact hfresh _ w [] hidle rfl
      · have hsent := reconcilePendingUnknown_orders io.pendingLookup (w.work t)
        cases hk : reconcilePendingUnknown io.pendingLookup (w.work t) with
        | mk result k =>
          rw [hk] at hsent
          cases result with
          | error e => exact .inl ⟨rfl, hsent, [], .of_eq hw rfl hsent (Nat.le_succ _)⟩
          | ok _ =>
            have hpass := Pass.reconciled env req hw ht hpend hk
            dsimp only
            split_ifs
            · exact hfresh _ _ _ hpass hsent
            · refine .inl ⟨rfl, ?_, [t.id], ?_⟩
              · rw [replayResult_world]
                exact hsent
              · rw [replayResult_world]
                exact hpass
      · exact .inl ⟨rfl, by rw [replayResult_world], [], by rw [replayResult_world]; exact hidle⟩

theorem executeSignal_effect {env : Env} {req : NormalizedExecuteSignalRequest} {io : ExecuteIo}
    {w : World} (hw : w.WellFormed) :
    Effect env (.executeSignal req io) w (executeSignal env req io w).2 ∧
      (executeSignal env req io w).2.WellFormed := by
  rcases entryStart_cases env req io hw with
    ⟨-, -, ids, hpass⟩ | ⟨w₁, signalId, plan, ids, hstart, heq, hcheck, hord, hpass⟩
  · exact ⟨hpass.effect, hpass.wellFormed⟩
  · rw [heq]
    exact submitEntry_effect hw hstart hpass hcheck hord

/-- Each step of the system has an effect, and keeps the world well formed. -/
theorem step_effect (env : Env) (s : Step) {w : World} (hw : w.WellFormed) :
    Effect env s w (step env w s) ∧ (step env w s).WellFormed := by
  have hpassed : ∀ {w'}, (∃ ids, Pass env s ids w w') → Effect env s w w' ∧ w'.WellFormed :=
    fun ⟨_, h⟩ => ⟨h.effect, h.wellFormed⟩
  cases s with
  | executeSignal req io => exact executeSignal_effect hw
  | processOrder data io => exact hpassed (processOrder_pass hw)
  | processExecution data => exact hpassed (processExecution_pass hw)
  | closeTrade id reason io => exact hpassed (closeTrade_pass hw)
  | reconcileEntryOrders answer io =>
    exact hpassed (reconcileStatusGroup_pass hw reconcileEntry_update (by simp))
  | reconcileCloseOrders answer io =>
    exact hpassed (reconcileStatusGroup_pass hw reconcileClose_update (by simp))
  | reconcileMissingProtection io => exact hpassed (reconcileMissingProtection_pass hw)
  | activateKillSwitch now => exact hpassed ⟨[], activateKillSwitch_pass hw⟩
  | resetKillSwitch now => exact hpassed ⟨[], .of_eq hw rfl rfl (le_refl _)⟩
  | killSwitchStatus now => exact hpassed ⟨[], .of_eq hw rfl rfl (le_refl _)⟩
  | settle link state => exact hpassed ⟨_, settle_pass hw⟩

theorem Effect.moved_trades {env : Env} {s : Step} {w w' : World} (h : Effect env s w w')
    (hs : ∀ req io, s ≠ .executeSignal req io) :
    List.Forall₂ (Moved env s w w') w.db.trades w'.db.trades := by
  obtain ⟨moved, new, htrades, hmoved, hnew⟩ := h.trades
  obtain rfl | ⟨t, rfl, req, io, -, -, -, -, -, heq, -⟩ := hnew
  · rw [htrades, List.append_nil]
    exact hmoved
  · exact absurd heq (hs req io)

theorem wellFormed_init : ({} : World).WellFormed := by
  constructor <;> simp

theorem wellFormed_run (env : Env) (ss : List Step) : (Runs.run (step env) {} ss).WellFormed :=
  Runs.run_invariant ss wellFormed_init fun _ s hw => (step_effect env s hw).2

theorem Exchange.ordersOf_append {x x' : Exchange} {id : TradeId} {new : List SentOrder}
    (h : x'.orders = x.orders ++ new) (hnew : ∀ o ∈ new, o.trade = id) :
    x'.ordersOf id = x.ordersOf id ++ new := by
  have hall : new.filter (fun o => o.trade = id) = new := by
    rw [List.filter_eq_self]
    exact fun o ho => by simpa using hnew o ho
  simp [Exchange.ordersOf, h, hall]

theorem Work.Ends.new_own {k k' : Work} {s : TradeStatus} {c st tp : Option OrderLinkId}
    {new : List SentOrder} (h : k.Ends k' s c st tp new) :
    ∀ o ∈ new, o.trade = k.trade.id ∧ o.role.isExit = true := by
  obtain ⟨new', hnew', hr⟩ := h.frame.orders
  have : new = new' := List.append_cancel_left (h.orders.symm.trans hnew')
  exact this ▸ hr

theorem Work.Ends.own {k k' : Work} {s : TradeStatus} {c st tp : Option OrderLinkId}
    {new : List SentOrder} (h : k.Ends k' s c st tp new) : k'.own = k.own ++ new := by
  unfold Work.own
  rw [show k'.trade.id = k.trade.id from h.frame.entry.id]
  exact Exchange.ordersOf_append h.orders fun o ho => (h.new_own o ho).1

theorem Closing.own_lost {mode : TradingMode} {io : CloseIo} {k k' : Work} {e : PyError}
    (h : Closing mode io k (.error e, k')) :
    ({ k' with trade := k.trade } : Work).own = k.own ++ [closeOrder io k] := by
  cases h with
  | lost _ h => exact Exchange.ordersOf_append h.orders fun o ho => (h.new_own o ho).1

theorem Work.Frame.own {k k' : Work} (h : k.Frame k') :
    ∃ new, k'.own = k.own ++ new ∧ ∀ o ∈ new, o.role.isExit = true := by
  obtain ⟨new, hnew, hr⟩ := h.orders
  refine ⟨new, ?_, fun o ho => (hr o ho).2⟩
  unfold Work.own
  rw [show k'.trade.id = k.trade.id from h.entry.id]
  exact Exchange.ordersOf_append hnew fun o ho => (hr o ho).1

theorem Move.own {env : Env} {s : Step} {k k' : Work} (h : Move env s k k') :
    (∃ new, k'.own = k.own ++ new ∧ ∀ o ∈ new, o.role.isExit = true) ∨
      ∃ link state, k'.own = k.own.map (SentOrder.settle link state) := by
  cases h with
  | idle => exact .inl ⟨[], by simp, by simp⟩
  | settle => exact .inr ⟨_, _, Exchange.ordersOf_settle _ _ _ _⟩
  | update _ hu => exact .inl hu.frame.own
  | execution he => exact .inl he.frame.own
  | closed _ hc => exact .inl hc.frame.own
  | closeLost _ hc => exact .inl ⟨_, hc.own_lost, by simp [closeOrder, SentOrder.ofCall,
      OrderRole.isExit]⟩
  | protect _ _ hp => exact .inl hp.frame.own
  | replay _ _ he => exact .inl he.frame.own

theorem entryWork_own {env : Env} {req : NormalizedExecuteSignalRequest} {io : ExecuteIo}
    {w : World} {signalId : SignalId} {plan : EntryPlan} (hw : w.WellFormed) :
    (entryWork env req io (w, signalId, plan)).own = [] := by
  have hid : (entryWork env req io (w, signalId, plan)).trade.id = w.issued := rfl
  refine List.filter_eq_nil_iff.mpr fun o ho => ?_
  rw [hid]
  simpa using (hw.sent o ho).ne

theorem Entered.own {env : Env} {req : NormalizedExecuteSignalRequest} {io : ExecuteIo} {w : World}
    {signalId : SignalId} {plan : EntryPlan} {raised : Option PyError} {k : Work}
    (hw : w.WellFormed) (h : Entered env.settings .spot req io
      (entryWork env req io (w, signalId, plan)) (.committed raised k)) :
    k.own = if env.settings.tradingMode = .shadow then []
      else (attempts env.settings.orderMode io (entryWork env req io (w, signalId, plan))).map
        (attemptOrder .spot req (entryWork env req io (w, signalId, plan)).trade) := by
  obtain ⟨status, link, ty, new, henters, -, -⟩ := h.enters (entryWork_link _ _ _ _)
  have hid : k.trade.id = (entryWork env req io (w, signalId, plan)).trade.id := henters.same.id
  have hord : k.exchange.orders = _ := h.orders
  unfold Work.own
  rw [hid, Exchange.ordersOf_append hord]
  · rw [show (entryWork env req io (w, signalId, plan)).exchange.ordersOf
      (entryWork env req io (w, signalId, plan)).trade.id = [] from entryWork_own hw]
    rfl
  · intro o ho
    split_ifs at ho
    · cases ho
    · obtain ⟨a, -, rfl⟩ := List.mem_map.mp ho
      rfl

/-- The property holds of every committed trade with the orders sent for it. -/
def World.Each (Q : List SentOrder → Trade → Prop) (w : World) : Prop :=
  ∀ t ∈ w.db.trades, Q (w.exchange.ordersOf t.id) t

theorem World.Each.step {Q : List SentOrder → Trade → Prop} {env : Env} {s : Step} {w w' : World}
    (h : w.Each Q) (heff : Effect env s w w')
    (hmove : ∀ k k', Move env s k k' → k.trade ∈ w.db.trades →
      k.own = w.exchange.ordersOf k.trade.id → Q k.own k.trade → Q k'.own k'.trade)
    (hnew : ∀ moved t, Created env s w w' moved t → Q (w'.exchange.ordersOf t.id) t) : w'.Each Q := by
  obtain ⟨moved, new, htrades, hmoved, hcreated⟩ := heff.trades
  intro t' ht'
  rw [htrades] at ht'
  rcases List.mem_append.mp ht' with ht' | ht'
  · obtain ⟨t, ht, hm⟩ := Rows.exists_left
      ((List.forall₂_and_left _ _).mpr ⟨fun t (ht : t ∈ w.db.trades) => ht, hmoved⟩) ht'
    obtain ⟨hmem, k, k', hmv, rfl, rfl, hown, hown', -⟩ := hm
    rw [show k'.trade.id = k.trade.id from hmv.entry.id, ← hown']
    exact hmove k k' hmv hmem hown (hown ▸ h _ hmem)
  · rcases hcreated with rfl | ⟨t, rfl, hc⟩
    · cases ht'
    · rw [List.mem_singleton.mp ht']
      exact hnew moved t hc

end AmaExecutionCore
