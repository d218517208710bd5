import AmaExecutionCore.Steps

/-! The protection of open spot positions: a position opened by a market entry order
has a stop order at the exchange, as long as every market entry is known to be one. -/
namespace AmaExecutionCore
open TradeStatus

/-- Every open spot position whose entry order at the exchange is a market order has a
stop order that was placed. -/
def PositionsProtected (w : World) : Prop :=
  ∀ t ∈ w.db.trades, t.marketType = .spot → t.status = positionOpen →
    ∀ o ∈ w.exchange.orders, o.trade = t.id → o.role = .entry → t.orderLinkId = some o.linkId →
      o.request.orderType = .market → o.state ≠ .refused →
      ∃ p ∈ w.exchange.orders, t.stopOrderLinkId = some p.linkId ∧ p.trade = t.id ∧
        p.role = .stop ∧ p.state ≠ .refused

instance : DecidablePred PositionsProtected := fun w =>
  inferInstanceAs (Decidable (∀ t ∈ w.db.trades, t.marketType = .spot → t.status = positionOpen →
    ∀ o ∈ w.exchange.orders, o.trade = t.id → o.role = .entry → t.orderLinkId = some o.linkId →
      o.request.orderType = .market → o.state ≠ .refused →
      ∃ p ∈ w.exchange.orders, t.stopOrderLinkId = some p.linkId ∧ p.trade = t.id ∧
        p.role = .stop ∧ p.state ≠ .refused))

/-- The outcome leaves the caller uncertain although the exchange took the order. -/
def PlaceOutcome.lostAnswer : PlaceOutcome → Bool
  | .connectionError r | .timeoutError r => r
  | _ => false

/-- No market entry order is taken by the exchange with its answer lost on the way. -/
def MarketEntryAnswered (env : Env) (w : World) : Step → Prop
  | .executeSignal req io => ∀ start ∈ entryStart env req io w,
      env.settings.tradingMode ≠ .shadow →
      (finalAttempt env.settings.orderMode io (entryWork env req io start)).orderType = .market →
      (finalAttempt env.settings.orderMode io (entryWork env req io start)).outcome.lostAnswer = true →
      lookupCaught io.lookup = false
  | _ => True

instance (env : Env) (w : World) (s : Step) : Decidable (MarketEntryAnswered env w s) :=
  match s with
  | .executeSignal req io => inferInstanceAs (Decidable (∀ start ∈ entryStart env req io w,
      env.settings.tradingMode ≠ .shadow →
      (finalAttempt env.settings.orderMode io (entryWork env req io start)).orderType = .market →
      (finalAttempt env.settings.orderMode io (entryWork env req io start)).outcome.lostAnswer = true →
      lookupCaught io.lookup = false))
  | .processOrder _ _ | .processExecution _ | .closeTrade _ _ _ | .reconcileEntryOrders _ _
  | .reconcileCloseOrders _ _ | .reconcileMissingProtection _ | .activateKillSwitch _
  | .resetKillSwitch _ | .killSwitchStatus _ | .settle _ _ => inferInstanceAs (Decidable True)

/-- The trade knows the type of its entry order, an open market position has a stop id, and a
stop id names an order that was placed. -/
structure Guarded (own : List SentOrder) (t : Trade) : Prop where
  typed : ∀ o ∈ own, o.role = .entry → t.orderLinkId = some o.linkId →
    o.request.orderType = .market → o.state ≠ .refused → t.orderType = some .market
  armed : t.status = positionOpen → t.marketType = .spot → t.orderType = some .market →
    t.stopOrderLinkId ≠ none
  placed : ∀ link, t.stopOrderLinkId = some link →
    ∃ p ∈ own, p.linkId = link ∧ p.role = .stop ∧ p.state ≠ .refused

theorem Guarded.ends {k k' : Work} {s : TradeStatus} {c st tp : Option OrderLinkId}
    {new : List SentOrder} (h : Guarded k.own k.trade) (he : k.Ends k' s c st tp new)
    (hstop : st = k.trade.stopOrderLinkId ∨
      ∃ p ∈ new, st = some p.linkId ∧ p.role = .stop ∧ p.state ≠ .refused)
    (hopen : s = positionOpen → k.trade.status = positionOpen ∨ st ≠ none ∨
      k.trade.marketType ≠ .spot ∨ k.trade.orderType ≠ some .market) :
    Guarded k'.own k'.trade where
  typed := by
    rw [he.own, he.frame.entry.orderLinkId, he.frame.entry.orderType]
    intro o ho hrole
    rcases List.mem_append.mp ho with ho | ho
    · exact h.typed o ho hrole
    · have hexit := (he.new_own o ho).2
      rw [hrole] at hexit
      cases hexit
  armed := by
    rw [he.status, he.stop, he.frame.entry.marketType, he.frame.entry.orderType]
    intro hs hspot hmarket
    rcases hopen hs with ho | ho | ho | ho
    · rcases hstop with rfl | ⟨p, -, rfl, -⟩
      · exact h.armed ho hspot hmarket
      · exact Option.some_ne_none _
    · exact ho
    · exact absurd hspot ho
    · exact absurd hmarket ho
  placed := by
    rw [he.own, he.stop]
    intro link hl
    rcases hstop with rfl | ⟨p, hp, rfl, hrole, hstate⟩
    · obtain ⟨p, hp, hrest⟩ := h.placed link hl
      exact ⟨p, List.mem_append_left _ hp, hrest⟩
    · exact ⟨p, List.mem_append_right _ hp, Option.some.inj hl, hrole, hstate⟩

theorem Guarded.keeps {k k' : Work} {s : TradeStatus} {c tp : Option OrderLinkId}
    {new : List SentOrder} (h : Guarded k.own k.trade)
    (he : k.Ends k' s c k.trade.stopOrderLinkId tp new) (hs : s ≠ positionOpen) :
    Guarded k'.own k'.trade :=
  h.ends he (.inl rfl) fun ho => absurd ho hs

theorem Guarded.givenUp {io : HandlerIo} {k k' : Work} (h : Guarded k.own k.trade)
    (hg : GivenUp io k k') : Guarded k'.own k'.trade := by
  cases hg with
  | unsent he => exact h.keeps he (by simp)
  | sent he => exact h.keeps he (by simp)
  | failed he => exact h.keeps he (by simp)

theorem Guarded.protection {io : HandlerIo} {k : Work} {p : Bool × Work}
    (h : Guarded k.own k.trade) (hp : Protection io k p) :
    Guarded p.2.own p.2.trade ∧ (p.1 = true → p.2.trade.marketType = .spot →
      p.2.trade.orderType = some .market → p.2.trade.stopOrderLinkId ≠ none) := by
  cases hp with
  | idle hno =>
    refine ⟨h, fun hb hspot hmarket => ?_⟩
    rcases hno hb with hno | hno
    · exact absurd hspot hno
    · exact absurd hmarket hno
  | stopKept _ hstop he htp =>
    exact ⟨h.ends he (.inl hstop.symm) .inl, fun _ _ _ => by simp [he.stop]⟩
  | stopArmed _ hstop hok he htp =>
    refine ⟨h.ends he (.inr ⟨_, List.mem_cons_self, rfl, rfl, ?_⟩) .inl,
      fun _ _ _ => by simp [he.stop]⟩
    simp [stopOrder, SentOrder.ofCall, PlaceOutcome.reached_of_not_raises hok]
  | stopLost _ hstop hbad hg =>
    refine ⟨?_, by simp⟩
    refine Guarded.givenUp ?_ hg
    exact h.ends (sendStop_ends io _ _ k) (.inl rfl) .inl

theorem Guarded.updated {io : HandlerIo} {data : OrderData} {k k' : Work}
    {r : Except PyError Bool} (h : Guarded k.own k.trade) (hu : Updated io data k (r, k')) :
    Guarded k'.own k'.trade := by
  cases hu with
  | unmoved he => exact h.ends he (.inl rfl) .inl
  | entryMoved _ _ hs hne _ he =>
    refine h.keeps he ?_
    rcases orderStatusMap_eq hs with ⟨-, rfl⟩ | ⟨-, rfl⟩ | ⟨-, rfl⟩ | ⟨-, rfl⟩ <;> simp
  | entryFilled _ _ _ _ he => exact h.keeps he (by simp)
  | entryDone _ _ _ _ _ he hp hend =>
    obtain ⟨hg, harmed⟩ := (h.keeps he (by simp)).protection hp
    refine hg.ends hend (.inl rfl) fun ho => ?_
    split_ifs at ho with hb
    · by_contra hno
      push Not at hno
      exact harmed hb hno.2.2.1 hno.2.2.2 hno.2.1
    · exact .inl ho
  | exitBroken _ _ _ _ he => exact h.keeps he (by simp)
  | exitFilled _ _ _ _ _ he => exact h.keeps he (by simp)
  | exitFailed _ _ _ _ he => exact h.keeps he (by simp)
  | exitPartly _ _ _ _ he => exact h.keeps he (by simp)

theorem Guarded.settle {own : List SentOrder} {t : Trade} (h : Guarded own t)
    (link : OrderLinkId) (state : OrderState) :
    Guarded (own.map (SentOrder.settle link state)) t where
  typed := by
    intro o ho
    obtain ⟨o₀, ho₀, rfl⟩ := List.mem_map.mp ho
    rw [settle_role, settle_linkId, settle_request, ne_eq, settle_refused]
    exact h.typed o₀ ho₀
  armed := h.armed
  placed := by
    intro l hl
    obtain ⟨p, hp, hlink, hrole, hstate⟩ := h.placed l hl
    refine ⟨p.settle link state, List.mem_map_of_mem hp, ?_, ?_, ?_⟩
    · rw [settle_linkId, hlink]
    · rw [settle_role, hrole]
    · rwa [ne_eq, settle_refused]

theorem Guarded.append {own new : List SentOrder} {t : Trade} (h : Guarded own t)
    (hnew : ∀ o ∈ new, o.role.isExit = true) : Guarded (own ++ new) t where
  typed := by
    intro o ho hrole
    rcases List.mem_append.mp ho with ho | ho
    · exact h.typed o ho hrole
    · have hexit := hnew o ho
      rw [hrole] at hexit
      cases hexit
  armed := h.armed
  placed := by
    intro link hl
    obtain ⟨p, hp, hrest⟩ := h.placed link hl
    exact ⟨p, List.mem_append_left _ hp, hrest⟩

theorem Guarded.move {env : Env} {s : Step} {k k' : Work} (h : Guarded k.own k.trade)
    (hm : Move env s k k') : Guarded k'.own k'.trade := by
  cases hm with
  | idle => exact h
  | settle =>
    rw [Work.own, Exchange.ordersOf_settle]
    exact h.settle _ _
  | update _ hu => exact h.updated hu
  | execution he => exact h.ends he (.inl rfl) .inl
  | closed _ hc =>
    cases hc with
    | shadow _ he => exact h.keeps he (by simp)
    | sent _ he => exact h.keeps he (by simp)
  | closeLost _ hc =>
    rw [hc.own_lost]
    exact h.append (by simp [closeOrder, SentOrder.ofCall, OrderRole.isExit])
  | protect _ _ hp => exact (h.protection hp).1
  | @replay _ _ remote _ _ _ _ he =>
    refine h.keeps he ?_
    cases remote.orderStatus <;> simp [mapRemoteOrderStatus]

/-- A trade is created without exit orders, and knows that its entry is a market order
unless that order was refused or its answer lost. -/
theorem Guarded.created {env : Env} {s : Step} {w w' : World} {moved : List Trade} {t : Trade}
    (hcond : MarketEntryAnswered env w s) (hc : Created env s w w' moved t) :
    Guarded (w'.exchange.ordersOf t.id) t := by
  obtain ⟨req, io, w₁, signalId, plan, raised, k, rfl, hstart, -, -, -, -, hw₁, -, hent, rfl, hown⟩ := hc
  rw [← hown, hent.own hw₁]
  obtain ⟨status, link, ty, new, henters, -, -⟩ := hent.enters (entryWork_link _ _ _ _)
  have hstop : k.trade.stopOrderLinkId = none := henters.exits.stop
  refine ⟨?_, ?_, by simp [hstop]⟩
  · intro o ho _ _ hmarket hstate
    split_ifs at ho with hmode
    · cases ho
    · obtain ⟨a, ha, rfl⟩ := List.mem_map.mp ho
      rw [ne_eq, attemptOrder_refused, Bool.not_eq_false] at hstate
      have hfinal := eq_finalAttempt_of_reached ha hstate
      rw [attemptOrder_type, hfinal] at hmarket
      rw [hfinal] at hstate
      cases hent with
      | shadow h => exact absurd h hmode
      | accepted _ ha _ ho h => rw [h.orderType, ha, hmarket]
      | refused _ ha _ ho h =>
        subst ha
        rw [ho] at hstate
        cases hstate
      | uncertain _ ha _ ho hcaught _ h =>
        subst ha
        have hlost := hcond _ hstart hmode hmarket (by
          rcases ho with ho | ho <;> rw [ho] at hstate ⊢ <;> exact hstate)
        rw [hcaught] at hlost
        cases hlost
  · intro hopen
    exfalso
    cases hent with
    | shadow _ h => simp [h.status] at hopen
    | accepted _ _ _ _ h => simp [h.status] at hopen
    | refused _ _ _ _ h => simp [h.status] at hopen
    | uncertain _ _ _ _ _ hl h =>
      rw [h.status] at hopen
      rcases hl with hl | ⟨remote, -, hl⟩
      · simp [hl] at hopen
      · rw [hl] at hopen
        cases hr : remote.orderStatus <;> simp [hr, mapRemoteOrderStatus] at hopen

theorem positionsProtected_of_guarded {w : World} (h : w.Each Guarded) : PositionsProtected w := by
  intro t ht hspot hopen o ho htrade hrole hlink hmarket hstate
  have hg := h t ht
  have htype := hg.typed o (Exchange.mem_ordersOf.mpr ⟨ho, htrade⟩) hrole hlink hmarket hstate
  obtain ⟨stop, hstop⟩ := Option.ne_none_iff_exists'.mp (hg.armed hopen hspot htype)
  obtain ⟨p, hp, rfl, hprole, hpstate⟩ := hg.placed stop hstop
  obtain ⟨hp, hptrade⟩ := Exchange.mem_ordersOf.mp hp
  exact ⟨p, hp, hstop, hptrade, hprole, hpstate⟩

/-- In a run in which no market entry is taken with its answer lost, every open spot
position with a market entry is protected at every moment. -/
theorem positionsProtected_run (env : Env) (ss : List Step)
    (h : Runs.Meets (step env) (MarketEntryAnswered env) {} ss) :
    Runs.Always (step env) PositionsProtected {} ss := by
  refine Runs.always_of_invariant (I := fun w => w.WellFormed ∧ w.Each Guarded)
    ⟨wellFormed_init, by simp [World.Each]⟩ ?_ ?_ h
  · rintro w s ⟨hw, hg⟩ hcond
    obtain ⟨heff, hw'⟩ := step_effect env s hw
    refine ⟨hw', hg.step heff (fun k k' hm _ _ hk => hk.move hm) fun moved t hc => ?_⟩
    exact .created hcond hc
  · rintro w ⟨-, hg⟩
    exact positionsProtected_of_guarded hg

theorem positionsProtected_accepted : Runs.Always (step (demoEnv .takerAllowed)) PositionsProtected
    {} (filledEntryRun (.accepted none)) :=
  positionsProtected_run _ _ (by decide +kernel)

/-- The timed out market order fills: the position is open and has no stop. -/
theorem positionsProtected_fails : ¬ Runs.Always (step (demoEnv .takerAllowed)) PositionsProtected
    {} (filledEntryRun (.timeoutError true)) := by
  decide +kernel

end AmaExecutionCore
