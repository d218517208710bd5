import AmaExecutionCore.Steps
import Mathlib.Tactic.Linarith

/-! The total risk at the exchange over a run: the check at submission sums the trades in
three statuses, and bounds the risk as long as no other trade is exposed. -/
namespace AmaExecutionCore
open TradeStatus

/-- The order is working, or something of it was executed. -/
def OrderState.holds : OrderState → Bool
  | .live _ | .filled => true
  | .cancelled executed => executed
  | .refused | .rejected => false

/-- The trade has an entry order live or filled at the exchange and is not closed. -/
def exposed (own : List SentOrder) (t : Trade) : Bool :=
  t.status ≠ pnlRecorded && own.any fun o => o.role = .entry && o.state.holds

/-- The risk of all exposed trades, a partial fill counted pro rata. -/
def World.exposure (w : World) : Rat :=
  ((w.db.trades.filter fun t => exposed (w.exchange.ordersOf t.id) t).map weightedRisk).sum

def ExposureBounded (env : Env) (equity : Rat) (w : World) : Prop :=
  w.exposure ≤ equity * env.settings.maxTotalRiskExposurePct

instance (env : Env) (equity : Rat) : DecidablePred (ExposureBounded env equity) := fun w =>
  inferInstanceAs (Decidable (w.exposure ≤ equity * env.settings.maxTotalRiskExposurePct))

def EquityIs (env : Env) (equity : Rat) : Step → Prop
  | .executeSignal _ io => ∀ found ∈ (fetchEquity env.settings io).toOption, found.1 = equity
  | _ => True

instance (env : Env) (equity : Rat) (s : Step) : Decidable (EquityIs env equity s) :=
  match s with
  | .executeSignal .. | .processOrder .. | .processExecution .. | .closeTrade ..
  | .reconcileEntryOrders .. | .reconcileCloseOrders .. | .reconcileMissingProtection ..
  | .activateKillSwitch .. | .resetKillSwitch .. | .killSwitchStatus .. | .settle .. => by
    unfold EquityIs; infer_instance

/-- The executed quantity, as the column keeps it, is one of an order of this size. -/
def OrderData.storedWithin (data : OrderData) (qty : Rat) : Bool :=
  data.cumQty.all fun q => decide (0 ≤ storedAmount q) && decide (storedAmount q ≤ qty)

def Trade.risk (t : Trade) : Rat := t.riskAmountUsd.getD 0

/-- The check at submission counts the trade with its full risk. -/
def CountedInFull (t : Trade) : Prop := t.status ∈ exposureStatuses ∧ t.risk ≤ weightedRisk t

instance (t : Trade) : Decidable (CountedInFull t) :=
  inferInstanceAs (Decidable (t.status ∈ exposureStatuses ∧ t.risk ≤ weightedRisk t))

/-- When the exchange takes an entry order, each exposed trade was counted in full, and the
new risk still fits as the column keeps it. -/
def ExposureCounted (env : Env) (w : World) : Step → Prop
  | .executeSignal req io => ∀ start ∈ entryStart env req io w,
      env.settings.tradingMode ≠ .shadow →
      (finalAttempt env.settings.orderMode io (entryWork env req io start)).outcome.reached = true →
      (∀ t ∈ start.1.db.trades, exposed (start.1.exchange.ordersOf t.id) t = true →
        CountedInFull t) ∧
      openRisk start.1.db + storedAmount (start.2.2.equity * start.2.2.riskPct) ≤
        start.2.2.equity * env.settings.maxTotalRiskExposurePct
  | _ => True

instance (env : Env) (w : World) (s : Step) : Decidable (ExposureCounted env w s) :=
  match s with
  | .executeSignal .. | .processOrder .. | .processExecution .. | .closeTrade ..
  | .reconcileEntryOrders .. | .reconcileCloseOrders .. | .reconcileMissingProtection ..
  | .activateKillSwitch .. | .resetKillSwitch .. | .killSwitchStatus .. | .settle .. => by
    unfold ExposureCounted; infer_instance

/-- No update reports a quantity that the column keeps as more than was ordered. -/
def FillsTruthful (env : Env) (w : World) (s : Step) : Prop :=
  ∀ t ∈ w.db.trades, ∀ u ∈ s.update env t, u.1.storedWithin (t.qty.getD 0) = true

instance (env : Env) (w : World) (s : Step) : Decidable (FillsTruthful env w s) :=
  inferInstanceAs (Decidable (∀ t ∈ w.db.trades, ∀ u ∈ s.update env t,
    u.1.storedWithin (t.qty.getD 0) = true))

/-- A risk that is not negative, and a fill within the ordered quantity. -/
structure SoundRisk (t : Trade) : Prop where
  risk : 0 ≤ t.risk
  filled : ∀ q ∈ t.filledQty, 0 ≤ q ∧ q ≤ t.qty.getD 0

theorem SoundRisk.weightedRisk_nonneg {t : Trade} (h : SoundRisk t) : 0 ≤ weightedRisk t := by
  have hrisk : 0 ≤ t.riskAmountUsd.getD 0 := h.risk
  unfold weightedRisk
  split
  · next qty filledQty hqty hfilled =>
    dsimp only
    split_ifs
    · have hq := h.filled filledQty hfilled
      rw [hqty] at hq
      exact mul_nonneg hrisk (div_nonneg hq.1 (hq.1.trans hq.2))
    · exact hrisk
  · exact hrisk

theorem SoundRisk.weightedRisk_le {t : Trade} (h : SoundRisk t) : weightedRisk t ≤ t.risk := by
  have hrisk : 0 ≤ t.riskAmountUsd.getD 0 := h.risk
  unfold weightedRisk Trade.risk
  split
  · next qty filledQty hqty hfilled =>
    dsimp only
    split_ifs
    · have hq := h.filled filledQty hfilled
      rw [hqty] at hq
      exact mul_le_of_le_one_right hrisk (div_le_one_of_le₀ hq.2 (hq.1.trans hq.2))
    · exact le_refl _
  · exact le_refl _

theorem SoundRisk.move {env : Env} {s : Step} {w : World} {k k' : Work}
    (hcond : FillsTruthful env w s) (hm : Move env s k k') (ht : k.trade ∈ w.db.trades)
    (h : SoundRisk k.trade) : SoundRisk k'.trade := by
  have hsame := hm.entry
  have hkept : k'.trade.filledQty = k.trade.filledQty → SoundRisk k'.trade := by
    intro hq
    refine ⟨?_, ?_⟩
    · rw [Trade.risk, hsame.riskAmountUsd]
      exact h.risk
    · rw [hq, hsame.qty]
      exact h.filled
  cases hm with
  | idle => exact h
  | settle => exact h
  | @update _ data io r k k' hdata hu hq =>
    obtain hq | ⟨q, hcum, hq⟩ := hq
    · exact hkept hq
    · refine ⟨?_, ?_⟩
      · rw [Trade.risk, hsame.riskAmountUsd]
        exact h.risk
      · have hwithin := hcond _ ht _ hdata
        rw [OrderData.storedWithin, OrderData.cumQty, hcum] at hwithin
        intro p hp
        rw [hq] at hp
        obtain rfl := Option.mem_some.mp hp
        rw [hsame.qty]
        simpa using hwithin
  | execution _ hq => exact hkept hq
  | closed _ _ hq => exact hkept hq
  | closeLost => exact h
  | protect _ _ _ hq => exact hkept hq
  | replay _ _ _ hq => exact hkept hq

theorem Updated.booked {io : HandlerIo} {data : OrderData} {k k' : Work} {r : Except PyError Bool}
    (h : Updated io data k (r, k')) (hbooked : k.trade.status = pnlRecorded) :
    k'.trade.status = pnlRecorded := by
  have hignored : ∀ s b, shouldIgnoreEntryUpdate k.trade s b = true := by
    intro s b
    simp [shouldIgnoreEntryUpdate, hbooked]
  cases h with
  | unmoved he => exact he.status.trans hbooked
  | entryMoved _ _ _ _ hkeep => simp [hignored] at hkeep
  | entryFilled _ _ _ hkeep => simp [hignored] at hkeep
  | entryDone _ _ _ _ hkeep => simp [hignored] at hkeep
  | exitBroken _ _ _ hkeep => exact absurd hbooked hkeep
  | exitFilled _ _ _ hkeep => exact absurd hbooked hkeep
  | exitFailed _ _ _ hkeep => exact absurd hbooked hkeep
  | exitPartly _ _ _ hkeep => exact absurd hbooked hkeep

theorem Move.booked {env : Env} {s : Step} {k k' : Work} (h : Move env s k k')
    (hbooked : k.trade.status = pnlRecorded) : k'.trade.status = pnlRecorded := by
  cases h with
  | idle => exact hbooked
  | settle => exact hbooked
  | update _ hu => exact hu.booked hbooked
  | execution he => exact he.status.trans hbooked
  | closed hst => simp [hbooked, closeRetryableStatuses] at hst
  | closeLost => exact hbooked
  | protect _ hst => simp [Db.missingProtection, hbooked] at hst
  | replay hst => rw [hbooked] at hst; cases hst

theorem Move.exposed {env : Env} {s : Step} {k k' : Work} (h : Move env s k k')
    (hexp : exposed k'.own k'.trade = true) : exposed k.own k.trade = true := by
  simp only [AmaExecutionCore.exposed, Bool.and_eq_true, decide_eq_true_eq, List.any_eq_true] at hexp ⊢
  obtain ⟨hlive, o, ho, hrole, hholds⟩ := hexp
  refine ⟨fun hbooked => hlive (h.booked hbooked), ?_⟩
  obtain ⟨new, hown, hnew⟩ | ⟨link, state, hown⟩ := h.own <;> rw [hown] at ho
  · obtain ho | ho := List.mem_append.mp ho
    · exact ⟨o, ho, hrole, hholds⟩
    · have hexit := hnew o ho
      rw [hrole] at hexit
      cases hexit
  · obtain ⟨o₀, ho₀, rfl⟩ := List.mem_map.mp ho
    refine ⟨o₀, ho₀, settle_role link state o₀ ▸ hrole, ?_⟩
    unfold SentOrder.settle at hholds
    split_ifs at hholds with hmove
    · have hlive := OrderState.live_of_canMove hmove.2
      cases hs : o₀.state <;> simp_all [OrderState.isLive, OrderState.holds]
    · exact hholds

/-- The full risk of all exposed trades bounds the risk that is exposed. -/
def World.fullExposure (w : World) : Rat :=
  ((w.db.trades.filter fun t => exposed (w.exchange.ordersOf t.id) t).map Trade.risk).sum

def RisksSound (w : World) : Prop := ∀ t ∈ w.db.trades, SoundRisk t

theorem exposure_le_fullExposure {w : World} (h : RisksSound w) : w.exposure ≤ w.fullExposure := by
  have hrows : List.Forall₂ (fun t t' => t' = t ∧ SoundRisk t) w.db.trades w.db.trades :=
    List.forall₂_same.mpr fun t ht => ⟨rfl, h t ht⟩
  refine Rows.sum_filter_le hrows (fun t t' hm => hm.2.risk) ?_
  rintro t t' ⟨rfl, hsound⟩ hexp
  exact ⟨hexp, hsound.weightedRisk_le⟩

theorem fullExposure_moved {env : Env} {s : Step} {w w' : World} {moved : List Trade}
    (hsound : RisksSound w) (hmoved : List.Forall₂ (Moved env s w w') w.db.trades moved) :
    ((moved.filter fun t => exposed (w'.exchange.ordersOf t.id) t).map Trade.risk).sum ≤
      w.fullExposure := by
  have hrows := (List.forall₂_and_left _ _).mpr ⟨fun t (ht : t ∈ w.db.trades) => hsound t ht, hmoved⟩
  refine Rows.sum_filter_le hrows (fun t t' hm => hm.1.risk) ?_
  rintro t t' ⟨-, k, k', hmove, rfl, rfl, hown, hown', -⟩ hexp
  rw [show k'.trade.id = k.trade.id from hmove.entry.id, ← hown'] at hexp
  refine ⟨hown ▸ hmove.exposed hexp, ?_⟩
  rw [Trade.risk, Trade.risk, hmove.entry.riskAmountUsd]

theorem Moved.executeSignal_own {env : Env} {req : NormalizedExecuteSignalRequest} {io : ExecuteIo}
    {w w' : World} {t t' : Trade} (h : Moved env (.executeSignal req io) w w' t t') :
    w'.exchange.ordersOf t'.id = w.exchange.ordersOf t.id := by
  obtain ⟨k, k', hmove, rfl, rfl, hown, hown', -⟩ := h
  rw [show k'.trade.id = k.trade.id from hmove.entry.id, ← hown', ← hown]
  cases hmove with
  | idle => rfl
  | update hdata => cases hdata
  | replay _ _ he => rw [he.own, List.append_nil]

/-- The risk of a new trade that the exchange took passed the check, with every other
exposed trade counted in full. -/
theorem fullExposure_created {env : Env} {s : Step} {equity : Rat} {w w' : World}
    {moved : List Trade} {t : Trade} (hequity : EquityIs env equity s)
    (hcond : ExposureCounted env w s) (hmoved : List.Forall₂ (Moved env s w w') w.db.trades moved)
    (hsound : ∀ r ∈ moved, SoundRisk r) (hc : Created env s w w' moved t)
    (hexp : exposed (w'.exchange.ordersOf t.id) t = true) :
    ((moved.filter fun r => exposed (w'.exchange.ordersOf r.id) r).map Trade.risk).sum + t.risk ≤
      equity * env.settings.maxTotalRiskExposurePct := by
  obtain ⟨req, io, w₁, signalId, plan, raised, k, rfl, hstart, rfl, hcheck, -, -, hw₁, hord, hent,
    rfl, hown⟩ := hc
  obtain ⟨⟨balances, hfetch⟩, -⟩ := planEntry_ok (checkEntry_ok hcheck)
  have hplan : plan.equity = equity := hequity _ (by rw [hfetch]; rfl)
  obtain ⟨status, link, ty, new, henters, -, -⟩ := hent.enters (entryWork_link _ _ _ _)
  have hrisk : k.trade.risk = storedAmount (plan.equity * plan.riskPct) := by
    have hamount : k.trade.riskAmountUsd = some (storedAmount (plan.equity * plan.riskPct)) :=
      henters.same.riskAmountUsd
    rw [Trade.risk, hamount, Option.getD_some]
  -- the order that exposes the trade is the final attempt, and the exchange took it
  have htaken : env.settings.tradingMode ≠ .shadow ∧ (finalAttempt env.settings.orderMode io
      (entryWork env req io (w₁, signalId, plan))).outcome.reached = true := by
    simp only [exposed, Bool.and_eq_true, List.any_eq_true] at hexp
    obtain ⟨-, o, ho, -, hholds⟩ := hexp
    rw [← hown, hent.own hw₁] at ho
    split_ifs at ho with hmode
    · cases ho
    · obtain ⟨a, ha, rfl⟩ := List.mem_map.mp ho
      have hreached : a.outcome.reached = true := by
        by_contra hnot
        have hrefused := (attemptOrder_refused .spot req
          (entryWork env req io (w₁, signalId, plan)).trade a).mpr (by simpa using hnot)
        simp [hrefused, OrderState.holds] at hholds
      exact ⟨hmode, eq_finalAttempt_of_reached ha hreached ▸ hreached⟩
  obtain ⟨hcounted, hfits⟩ := hcond _ hstart htaken.1 htaken.2
  have hsum : ((w₁.db.trades.filter fun r => exposed (w'.exchange.ordersOf r.id) r).map
      Trade.risk).sum ≤ openRisk w₁.db := by
    have hrows : List.Forall₂ (fun r r' => r' = r ∧ r ∈ w₁.db.trades) w₁.db.trades w₁.db.trades :=
      List.forall₂_same.mpr fun r hr => ⟨rfl, hr⟩
    refine Rows.sum_filter_le hrows (fun r r' hm => (hsound r hm.2).weightedRisk_nonneg) ?_
    rintro r r' ⟨rfl, hr⟩ hexp
    obtain ⟨r₀, -, hm⟩ := Rows.exists_left hmoved hr
    have hsame : w'.exchange.ordersOf r'.id = w₁.exchange.ordersOf r'.id := by
      rw [hm.executeSignal_own, hm.id]
      simp [Exchange.ordersOf, hord]
    obtain ⟨hstatus, hfull⟩ := hcounted r' hr (hsame ▸ hexp)
    exact ⟨by simpa using hstatus, hfull⟩
  rw [hplan] at hfits
  rw [hrisk, hplan]
  linarith

theorem SoundRisk.created {env : Env} {s : Step} {w w' : World} {moved : List Trade} {t : Trade}
    (hc : Created env s w w' moved t) : SoundRisk t := by
  obtain ⟨req, io, w₁, signalId, plan, raised, k, rfl, -, -, hcheck, -, -, -, -, hent, rfl, -⟩ := hc
  obtain ⟨-, hequity, -, hpct, -, -⟩ := planEntry_ok (checkEntry_ok hcheck)
  obtain ⟨status, link, ty, new, henters, -, -⟩ := hent.enters (entryWork_link _ _ _ _)
  have hamount : k.trade.riskAmountUsd = some (storedAmount (plan.equity * plan.riskPct)) :=
    henters.same.riskAmountUsd
  have hfilled : k.trade.filledQty = none := henters.filledQty
  refine ⟨?_, by simp [hfilled]⟩
  rw [Trade.risk, hamount]
  exact storedAmount_nonneg (mul_pos hequity hpct).le

theorem fullExposure_step {env : Env} {s : Step} {equity : Rat} {w w' : World}
    (heff : Effect env s w w') (hsound : RisksSound w) (hsound' : RisksSound w')
    (hequity : EquityIs env equity s) (hcond : ExposureCounted env w s)
    (h : w.fullExposure ≤ equity * env.settings.maxTotalRiskExposurePct) :
    w'.fullExposure ≤ equity * env.settings.maxTotalRiskExposurePct := by
  obtain ⟨moved, new, htrades, hmoved, hnew⟩ := heff.trades
  have hold := (fullExposure_moved hsound hmoved).trans h
  unfold World.fullExposure
  rw [htrades]
  obtain rfl | ⟨t, rfl, hc⟩ := hnew
  · rwa [List.append_nil]
  · rw [List.filter_append, List.map_append, List.sum_append]
    by_cases hexp : exposed (w'.exchange.ordersOf t.id) t = true
    · have hbound := fullExposure_created hequity hcond hmoved
        (fun r hr => hsound' r (htrades ▸ List.mem_append_left _ hr)) hc hexp
      simpa [hexp] using hbound
    · simpa [hexp] using hold

/-- With constant equity, in a run in which every exposed trade is counted in full and the new
risk fits as stored whenever the exchange takes another entry, and no update reports more
executed than was ordered, the risk at the exchange stays within the limit. -/
theorem exposureBounded_run (env : Env) (equity : Rat) (ss : List Step)
    (hlimit : 0 ≤ equity * env.settings.maxTotalRiskExposurePct)
    (h : Runs.Meets (step env)
      (fun w s => EquityIs env equity s ∧ ExposureCounted env w s ∧ FillsTruthful env w s) {} ss) :
    Runs.Always (step env) (ExposureBounded env equity) {} ss := by
  refine Runs.always_of_invariant (I := fun w => w.WellFormed ∧ RisksSound w ∧
    w.fullExposure ≤ equity * env.settings.maxTotalRiskExposurePct)
    ⟨wellFormed_init, by simp [RisksSound], hlimit⟩ ?_ ?_ h
  · rintro w s ⟨hw, hsound, hbound⟩ ⟨hequity, hcond, hfills⟩
    obtain ⟨heff, hw'⟩ := step_effect env s hw
    have hsound' : RisksSound (step env w s) :=
      World.Each.step (Q := fun _ t => SoundRisk t) hsound heff
        (fun k k' hm ht _ hk => hk.move hfills hm ht) fun _ _ hc => .created hc
    exact ⟨hw', hsound', fullExposure_step heff hsound hsound' hequity hcond hbound⟩
  · rintro w ⟨-, hsound, hbound⟩
    exact (exposure_le_fullExposure hsound).trans hbound

/-- Requests for different symbols, each accepted and not yet filled. -/
def workingEntriesRun (symbols : List String) : List Step :=
  symbols.map fun symbol => .executeSignal { demoRequest with symbol := symbol }
    (demoExecute (.accepted none) (.ok none))

theorem exposureBounded_filled : Runs.Always (step (demoEnv .takerAllowed))
    (ExposureBounded (demoEnv .takerAllowed) 1000) {} (filledEntryRun (.accepted none)) :=
  exposureBounded_run _ 1000 _ (by decide +kernel) (by decide +kernel)

/-- Four working entries risk 40 of an equity of 1000, over the limit of 30. -/
theorem exposureBounded_fails : ¬ Runs.Always (step (demoEnv .takerAllowed))
    (ExposureBounded (demoEnv .takerAllowed) 1000) {}
    (workingEntriesRun ["A", "B", "C", "D"]) := by
  decide +kernel

end AmaExecutionCore
