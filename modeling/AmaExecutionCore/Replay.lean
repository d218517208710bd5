import AmaExecutionCore.Revival
import AmaExecutionCore.Submissions

/-! Deduplication over a run: when the submission of a fingerprint still leads to its
latest trade, and a request is replayed instead of traded again. -/
namespace AmaExecutionCore
open TradeStatus

namespace World

/-- The newest trade created for a signal of the fingerprint. -/
def latestTrade (fingerprint : String) (w : World) : Option Trade :=
  (w.db.trades.filter fun t => t.signalId.any fun id => (id, fingerprint) ∈ w.origin).getLast?

/-- The trade the fingerprint's submission leads to. -/
def resolvedTrade (fingerprint : String) (w : World) : Option Trade :=
  (w.db.getSignalSubmission fingerprint).bind fun s => w.db.getTradeForSubmission s

end World

/-- A request whose fingerprint's latest trade is an open position creates no trade. -/
def NoSecondExposure (env : Env) (w : World) : Step → Prop
  | .executeSignal req io => ∀ t ∈ w.latestTrade (env.fingerprint req),
      t.status ∈ openPositionStatuses →
      (executeSignal env req io w).2.db.trades.map Trade.id = w.db.trades.map Trade.id
  | _ => True

instance (env : Env) (w : World) (s : Step) : Decidable (NoSecondExposure env w s) :=
  match s with
  | .executeSignal .. | .processOrder .. | .processExecution .. | .closeTrade ..
  | .reconcileEntryOrders .. | .reconcileCloseOrders .. | .reconcileMissingProtection ..
  | .activateKillSwitch .. | .resetKillSwitch .. | .killSwitchStatus .. | .settle .. => by
    unfold NoSecondExposure; infer_instance

/-- No request comes in for a fingerprint whose latest trade failed to close. -/
def NotCloseFailed (env : Env) (w : World) : Step → Prop
  | .executeSignal req _ => ∀ t ∈ w.latestTrade (env.fingerprint req),
      t.status ≠ positionCloseFailed
  | _ => True

instance (env : Env) (w : World) (s : Step) : Decidable (NotCloseFailed env w s) :=
  match s with
  | .executeSignal .. | .processOrder .. | .processExecution .. | .closeTrade ..
  | .reconcileEntryOrders .. | .reconcileCloseOrders .. | .reconcileMissingProtection ..
  | .activateKillSwitch .. | .resetKillSwitch .. | .killSwitchStatus .. | .settle .. => by
    unfold NotCloseFailed; infer_instance

/-- No request for a failed close, and no update revives a latest trade that its submission
does not lead to any more. -/
def ReplaySafe (env : Env) (w : World) (s : Step) : Prop :=
  NotCloseFailed env w s ∧ ∀ p ∈ w.origin, ∀ t ∈ w.latestTrade p.2,
    w.resolvedTrade p.2 ≠ some t → ∀ u ∈ s.update env t, ¬ Revives u.1 t

instance (env : Env) (w : World) (s : Step) : Decidable (ReplaySafe env w s) :=
  inferInstanceAs (Decidable (NotCloseFailed env w s ∧ ∀ p ∈ w.origin, ∀ t ∈ w.latestTrade p.2,
    w.resolvedTrade p.2 ≠ some t → ∀ u ∈ s.update env t, ¬ Revives u.1 t))

/-- A submission leads to the latest trade of its fingerprint as long as that trade is alive. -/
def World.Tracked (fingerprint : String) (w : World) : Prop :=
  ∀ t ∈ w.latestTrade fingerprint, t.status ∉ deadStatuses → w.resolvedTrade fingerprint = some t

theorem latestTrade_origin {f : String} {w : World} {t : Trade} (h : w.latestTrade f = some t) :
    t ∈ w.db.trades ∧ ∃ id, t.signalId = some id ∧ (id, f) ∈ w.origin := by
  obtain ⟨ht, hsignal⟩ := List.mem_filter.mp (List.mem_of_getLast? h)
  exact ⟨ht, by simpa [Option.any_eq_true] using hsignal⟩

section Moved

variable {R : Trade → Trade → Prop} {w w' : World} (hbook : w.SameBook w')
  (hrows : List.Forall₂ R w.db.trades w'.db.trades)
  (hkey : ∀ t t', R t t' → t'.id = t.id ∧ t'.signalId = t.signalId)
include hbook hrows hkey

theorem latestTrade_rel (f : String) : Option.Rel R (w.latestTrade f) (w'.latestTrade f) := by
  unfold World.latestTrade
  rw [hbook.origin]
  exact Rows.last_rel hrows fun t t' h => by rw [(hkey t t' h).2]

theorem resolvedTrade_rel (f : String) : Option.Rel R (w.resolvedTrade f) (w'.resolvedTrade f) := by
  unfold World.resolvedTrade Db.getSignalSubmission
  rw [hbook.submissions]
  cases w.db.submissions.find? fun s => s.fingerprint = f with
  | none => exact .none
  | some s =>
    have hlinked : Option.Rel R (s.tradeId.bind w.db.getTrade) (s.tradeId.bind w'.db.getTrade) := by
      cases s.tradeId with
      | none => exact .none
      | some id => exact Rows.find?_rel hrows fun t t' h => by rw [(hkey t t' h).1]
    simp only [Option.bind_some, Db.getTradeForSubmission]
    generalize s.tradeId.bind w.db.getTrade = linked at hlinked ⊢
    generalize s.tradeId.bind w'.db.getTrade = linked' at hlinked ⊢
    cases hlinked with
    | some h => exact .some h
    | none =>
      cases s.signalId with
      | none => exact .none
      | some signalId => exact Rows.last_rel hrows fun t t' h => by rw [(hkey t t' h).2]

theorem World.Tracked.moved {f : String} (h : w.Tracked f) (hw' : w'.WellFormed)
    (halive : ∀ t t', R t t' → w.latestTrade f = some t → t.status ∈ deadStatuses →
      t'.status ∈ deadStatuses ∨ w.resolvedTrade f = some t) : w'.Tracked f := by
  have hlatest := latestTrade_rel hbook hrows hkey f
  have hresolved := resolvedTrade_rel hbook hrows hkey f
  intro t' ht' hlive
  rw [Option.mem_def.mp ht'] at hlatest
  generalize hx : w.latestTrade f = found at hlatest
  cases hlatest with
  | @some t _ hR =>
    have hto : w.resolvedTrade f = some t := by
      by_cases hdead : t.status ∈ deadStatuses
      · obtain hdead' | hto := halive t t' hR hx hdead
        · exact absurd hdead' hlive
        · exact hto
      · exact h t hx hdead
    rw [hto] at hresolved
    generalize hy : w'.resolvedTrade f = led at hresolved
    cases hresolved with
    | @some _ t'' hR' =>
      have hmem' : t' ∈ w'.db.trades := (latestTrade_origin ht').1
      have hmem'' : t'' ∈ w'.db.trades := by
        obtain ⟨s, -, hs⟩ := Option.bind_eq_some_iff.mp hy
        exact Db.getTradeForSubmission_mem hs
      rw [hw'.eq_of_id hmem'' hmem' ((hkey t t'' hR').1.trans (hkey t t' hR).1.symm)]

end Moved

theorem latestTrade_extend {f f' : String} {w : World} {n : SignalId} (hb : w.Booked)
    (hn : n = w.issued) :
    (w.db.trades.filter fun t => t.signalId.any fun id =>
      (id, f') ∈ w.origin ++ [(n, f)]).getLast? = w.latestTrade f' := by
  unfold World.latestTrade
  congr 1
  apply List.filter_congr
  intro t ht
  cases hsignal : t.signalId with
  | none => rfl
  | some id =>
    have hlt : id < w.issued := hb.traded t ht id hsignal
    have hne : id ≠ n := hn ▸ hlt.ne
    simp [hne]

theorem linked_fingerprint (id : TradeId) (s : SignalSubmission) :
    ({ s with tradeId := some id } : SignalSubmission).fingerprint = s.fingerprint := rfl

section Traded

variable {f f' : String} {w w' : World} {rows : List SignalSubmission} {t : Trade}
  (hrows : submissionRows f (w.db.getSignalSubmission f) w.issued w.db = .ok rows)
  (hsubmissions : w'.db.submissions = rows ∨ w'.db.submissions =
    mapSubmission f (fun s => { s with tradeId := some t.id }) rows)
  (horigin : w'.origin = w.origin ++ [(w.issued, f)]) (hsignal : t.signalId = some w.issued)
  (hid : w.issued ≤ t.id) (htrades : w'.db.trades = w.db.trades ++ [t])
include hrows hsubmissions horigin hsignal hid htrades

/-- The submission leads to the trade that was made for it, linked or not. -/
theorem World.Tracked.traded_own (hw : w.WellFormed) : w'.Tracked f := by
  obtain ⟨s, hs, hssignal, hstrade⟩ := (submissionRows_find hrows).1
  have hlatest : w'.latestTrade f = some t := by
    rw [World.latestTrade, horigin, htrades, List.filter_append]
    simp [hsignal]
  have hunlinked : w'.db.getTradeForSubmission s = some t := by
    simp [Db.getTradeForSubmission, hstrade, hssignal, htrades, hsignal]
  have hlinked : w'.db.getTradeForSubmission { s with tradeId := some t.id } = some t := by
    have hfresh : w.db.trades.find? (fun r => r.id = t.id) = none := by
      rw [List.find?_eq_none]
      intro r hr
      simpa using ((hw.fresh r hr).trans_le hid).ne
    simp [Db.getTradeForSubmission, Db.getTrade, htrades, List.find?_append, hfresh]
  intro r hr _
  rw [hlatest] at hr
  obtain rfl := Option.some.inj hr
  obtain hsub | hsub := hsubmissions
  · simp only [World.resolvedTrade, Db.getSignalSubmission, hsub, hs, Option.bind_some]
    exact hunlinked
  · simp only [World.resolvedTrade, Db.getSignalSubmission, hsub,
      find_mapSubmission (linked_fingerprint t.id), hs, Option.map_some, Option.bind_some]
    exact hlinked

theorem World.Tracked.traded_other (hb : w.Booked) (h : w.Tracked f') (hf : f' ≠ f) :
    w'.Tracked f' := by
  have hlatest : w'.latestTrade f' = w.latestTrade f' := by
    have hissuing : (w.issued, f') ∉ w.origin :=
      fun hmem => absurd (hb.origin _ hmem) (lt_irrefl _)
    rw [← latestTrade_extend (f := f) hb rfl, World.latestTrade, horigin, htrades,
      List.filter_append]
    simp [hsignal, hissuing, hf]
  have hfind : w'.db.submissions.find? (fun s => s.fingerprint = f') =
      w.db.submissions.find? fun s => s.fingerprint = f' := by
    obtain hsub | hsub := hsubmissions
    · rw [hsub, (submissionRows_find hrows).2 f' hf]
    · rw [hsub, find_mapSubmission_ne (linked_fingerprint t.id) hf, (submissionRows_find hrows).2 f' hf]
  intro r hr hlive
  rw [hlatest] at hr
  rw [← h r hr hlive]
  simp only [World.resolvedTrade, Db.getSignalSubmission, hfind]
  cases hs : w.db.submissions.find? fun s => s.fingerprint = f' with
  | none => rfl
  | some s =>
    have hmem := List.mem_of_find?_eq_some hs
    have hget : s.tradeId.bind w'.db.getTrade = s.tradeId.bind w.db.getTrade := by
      cases hlink : s.tradeId with
      | none => rfl
      | some id =>
        have hne : t.id ≠ id := ((hb.linked s hmem id hlink).trans_le hid).ne'
        simp [Db.getTrade, htrades, List.find?_append, hne]
    have hlast : ∀ id ∈ s.signalId, w'.db.trades.filter (fun t => t.signalId = some id) =
        w.db.trades.filter fun t => t.signalId = some id := by
      intro id hid'
      have hne : w.issued ≠ id := (hb.signals s hmem id hid').ne'
      simp [htrades, hsignal, hne]
    simp only [Option.bind_some, Db.getTradeForSubmission, hget]
    split
    · rfl
    · split
      · rfl
      · next id hid' => rw [hlast id hid']

end Traded

theorem World.Tracked.attempted {f f' : String} {w w' : World} (hw : w.WellFormed)
    (hb : w.Booked) (ha : Attempted f (w.db.getSignalSubmission f) w w')
    (h : w.Tracked f') (hdead : ∀ t ∈ w.latestTrade f, t.status ∈ deadStatuses) :
    w'.Tracked f' := by
  cases ha with
  | failed _ hsame =>
    rw [hsame]
    exact h
  | registered hrows hsubmissions horigin hissued htrades =>
    have hlatest : w'.latestTrade f' = w.latestTrade f' := by
      rw [World.latestTrade, horigin, htrades]
      exact latestTrade_extend hb rfl
    intro t ht hlive
    rw [hlatest] at ht
    by_cases hf : f' = f
    · exact absurd (hdead t (hf ▸ ht)) hlive
    · rw [← h t ht hlive]
      have hfind := (submissionRows_find hrows).2 f' hf
      simp only [World.resolvedTrade, Db.getSignalSubmission, hsubmissions, hfind,
        Db.getTradeForSubmission, Db.getTrade, htrades]
  | traded hrows hsubmissions horigin hsignal hid hissued htrades =>
    by_cases hf : f' = f
    · rw [hf]
      exact .traded_own hrows hsubmissions horigin hsignal hid htrades hw
    · exact .traded_other hrows hsubmissions horigin hsignal hid htrades hb h hf

theorem World.Tracked.of_moves {env : Env} {s : Step} {f : String} {w w' : World}
    (h : w.Tracked f) (hw' : w'.WellFormed) (hbook : w.SameBook w')
    (hrows : List.Forall₂ (Moved env s w w') w.db.trades w'.db.trades)
    (hsafe : ∀ t ∈ w.latestTrade f, w.resolvedTrade f ≠ some t →
      ∀ u ∈ s.update env t, ¬ Revives u.1 t) : w'.Tracked f := by
  refine h.moved hbook hrows ?_ hw' ?_
  · rintro t t' ⟨k, k', hmove, rfl, rfl, -⟩
    exact ⟨hmove.entry.id, hmove.entry.signalId⟩
  · rintro t t' ⟨k, k', hmove, rfl, rfl, -⟩ hlatest hdead
    by_cases hto : w.resolvedTrade f = some k.trade
    · exact .inr hto
    · obtain hdead' | ⟨u, hu, hrev⟩ := hmove.revives hdead
      · exact .inl hdead'
      · exact absurd hrev (hsafe _ hlatest hto u hu)

theorem executeFresh_tracked {env : Env} {req : NormalizedExecuteSignalRequest} {io : ExecuteIo}
    {w : World} {loaded : Option SignalSubmission} (hw : w.WellFormed) (hb : w.Booked)
    (hloaded : loaded = w.db.getSignalSubmission (env.fingerprint req)) (h : ∀ f, w.Tracked f)
    (hdead : ∀ t ∈ w.latestTrade (env.fingerprint req), t.status ∈ deadStatuses) :
    (executeFresh env req io loaded w).2.Booked ∧
      ∀ f, (executeFresh env req io loaded w).2.Tracked f := by
  have ha := @executeFresh_attempted env req io loaded w hw
  rw [hloaded] at ha ⊢
  exact ⟨hb.attempted ha, fun f => (h f).attempted hw hb ha hdead⟩

theorem dead_of_terminal {s : TradeStatus} (h : isTradeTerminal s = true)
    (hne : s ≠ positionCloseFailed) : s ∈ deadStatuses := by
  cases s <;> simp_all [isTradeTerminal, terminalStatuses, deadStatuses]

/-- A request whose submission led to a pending trade, after the answer about it. -/
theorem executeReconciled_tracked {env : Env} {req : NormalizedExecuteSignalRequest} {io : ExecuteIo}
    {w : World} {sub : SignalSubmission} {existing : Trade} {k : Work} (hw : w.WellFormed)
    (hb : w.Booked) (h : ∀ f, w.Tracked f)
    (hsub : w.db.getSignalSubmission (env.fingerprint req) = some sub)
    (hfound : w.db.getTradeForSubmission sub = some existing)
    (hpend : existing.status = orderPendingUnknown)
    (hk : reconcilePendingUnknown io.pendingLookup (w.work existing) = (.ok (), k)) :
    let p := if isTradeTerminal k.trade.status = true then executeFresh env req io (some sub) (w.commit k)
      else replayResult sub k.trade (w.commit k)
    p.2.Booked ∧ ∀ f, p.2.Tracked f := by
  have hframe := reconcilePendingUnknown_frame io.pendingLookup (w.work existing)
  rw [hk] at hframe
  have hpass := Pass.reconciled env req hw (Db.getTradeForSubmission_mem hfound)
    hpend hk
  have hrows := hpass.trades.imp fun _ _ hm => hm.1
  have hb₁ := hb.moved (.commit _ w) hpass.issued hrows (by
    rintro t t' ⟨k, k', hmove, rfl, rfl, -⟩
    exact hmove.entry.signalId)
  have h₁ : ∀ f, (w.commit k).Tracked f := fun f =>
    (h f).of_moves hpass.wellFormed (.commit _ w) hrows (by simp [Step.update])
  have hresolved : w.resolvedTrade (env.fingerprint req) = some existing := by
    rw [World.resolvedTrade, hsub]
    exact hfound
  dsimp only
  split_ifs with hterm
  · refine executeFresh_tracked hpass.wellFormed hb₁ hsub.symm h₁ fun t ht => ?_
    by_contra hlive
    have hto := h₁ _ t ht hlive
    have hrel := resolvedTrade_rel (.commit _ w) hrows (R := Moved _ _ _ _) (by
      rintro t t' ⟨k, k', hmove, rfl, rfl, -⟩
      exact ⟨hmove.entry.id, hmove.entry.signalId⟩) (env.fingerprint req)
    rw [hresolved, hto] at hrel
    cases hrel with
    | some hm =>
      obtain rfl := hpass.wellFormed.eq_of_id (latestTrade_origin ht).1
        (Rows.mem_put _ _) (hm.id.trans hframe.entry.id.symm)
      refine hlive (dead_of_terminal hterm ?_)
      obtain rfl | ⟨remote, -, rfl⟩ := reconcilePendingUnknown_ok hk
      · exact fun hclosed => by cases hpend.symm.trans hclosed
      · rw [(noteRemoteStatus_settles remote _).status]
        cases remote.orderStatus <;> simp [mapRemoteOrderStatus]
  · rw [replayResult_world]
    exact ⟨hb₁, h₁⟩

theorem executeSignal_tracked {env : Env} {req : NormalizedExecuteSignalRequest} {io : ExecuteIo}
    {w : World} (hw : w.WellFormed) (hb : w.Booked) (h : ∀ f, w.Tracked f)
    (hcond : ∀ t ∈ w.latestTrade (env.fingerprint req), t.status ≠ positionCloseFailed) :
    (executeSignal env req io w).2.Booked ∧ ∀ f, (executeSignal env req io w).2.Tracked f := by
  have hlost : w.resolvedTrade (env.fingerprint req) = none →
      ∀ t ∈ w.latestTrade (env.fingerprint req), t.status ∈ deadStatuses := by
    intro hnone t ht
    by_contra hlive
    have hto := h _ t ht hlive
    rw [hnone] at hto
    cases hto
  have hrolled : ∀ k : Work, (w.rollback k).Booked ∧ ∀ f, (w.rollback k).Tracked f := by
    intro k
    refine ⟨?_, h⟩
    exact hb.moved (R := Eq) (.rollback k w) (Nat.le_succ _) (List.forall₂_refl _)
      fun _ _ heq => by rw [heq]
  unfold executeSignal
  cases hsub : w.db.getSignalSubmission (env.fingerprint req) with
  | none =>
    refine executeFresh_tracked hw hb hsub.symm h (hlost ?_)
    rw [World.resolvedTrade, hsub]
    rfl
  | some sub =>
    dsimp only
    have hresolved : w.resolvedTrade (env.fingerprint req) = w.db.getTradeForSubmission sub := by
      rw [World.resolvedTrade, hsub]
      rfl
    cases hfound : w.db.getTradeForSubmission sub with
    | none => exact executeFresh_tracked hw hb hsub.symm h (hlost (hresolved.trans hfound))
    | some existing =>
      dsimp only
      have hexisting : existing ∈ w.db.trades := Db.getTradeForSubmission_mem hfound
      rw [hfound] at hresolved
      split_ifs with hterm hpend
      · refine executeFresh_tracked hw hb hsub.symm h fun t ht => ?_
        by_contra hlive
        have hto := h _ t ht hlive
        obtain rfl := Option.some.inj (hresolved.symm.trans hto)
        exact hlive (dead_of_terminal hterm (hcond _ ht))
      · cases hk : reconcilePendingUnknown io.pendingLookup (w.work existing) with
        | mk result k =>
          cases result with
          | error e => exact hrolled k
          | ok _ => exact executeReconciled_tracked hw hb h hsub hfound hpend hk
      · rw [replayResult_world]
        exact ⟨hb, h⟩

theorem step_tracked {env : Env} {s : Step} {w : World} (hw : w.WellFormed) (hb : w.Booked)
    (h : ∀ f, w.Tracked f) (hcond : ReplaySafe env w s) :
    (step env w s).Booked ∧ ∀ f, (step env w s).Tracked f := by
  by_cases hs : ∀ req io, s ≠ .executeSignal req io
  · obtain ⟨heff, hw'⟩ := step_effect env s hw
    have hrows := heff.moved_trades hs
    have hbook := step_sameBook env w hs
    constructor
    · apply hb.moved hbook heff.issued hrows
      rintro t t' ⟨k, k', hmove, rfl, rfl, -⟩
      exact hmove.entry.signalId
    · intro f
      refine (h f).of_moves hw' hbook hrows fun t ht => ?_
      obtain ⟨-, id, -, horigin⟩ := latestTrade_origin ht
      exact hcond.2 (id, f) horigin t ht
  · push Not at hs
    obtain ⟨req, io, rfl⟩ := hs
    exact executeSignal_tracked hw hb h hcond.1

/-- A request for an open latest trade that its submission leads to is replayed. -/
theorem noSecondExposure_step {env : Env} {s : Step} {w : World} (h : ∀ f, w.Tracked f)
    (hcond : ReplaySafe env w s) : NoSecondExposure env w s := by
  cases s with
  | executeSignal req io =>
    intro t ht hopen
    have hne : t.status ≠ positionCloseFailed := hcond.1 t ht
    have hlive : t.status ∉ deadStatuses := by
      simp [openPositionStatuses] at hopen
      grind [deadStatuses]
    have hto := h _ t ht hlive
    obtain ⟨sub, hsub, hfound⟩ := Option.bind_eq_some_iff.mp hto
    have hterm : isTradeTerminal t.status = false := by
      by_contra hterm
      exact hlive (dead_of_terminal (by simpa using hterm) hne)
    have hpend : t.status ≠ orderPendingUnknown := by
      intro hpend
      simp [hpend, openPositionStatuses] at hopen
    simp only [executeSignal, hsub, hfound, hterm, hpend, if_false, replayResult_world,
      Bool.false_eq_true]
  | _ => trivial

/-- In a run without a request for a failed close, and without an update that revives a
trade its submission has lost, no request trades an open position's signal again. -/
theorem noSecondExposure_run (env : Env) (ss : List Step)
    (h : Runs.Meets (step env) (ReplaySafe env) {} ss) :
    Runs.Meets (step env) (NoSecondExposure env) {} ss := by
  refine Runs.meets_of_invariant (I := fun w => w.WellFormed ∧ w.Booked ∧ ∀ f, w.Tracked f)
    ⟨wellFormed_init, .init, by simp [World.Tracked, World.latestTrade]⟩ ?_ ?_ h
  · rintro w s ⟨hw, hb, ht⟩ hcond
    exact ⟨(step_effect env s hw).2, step_tracked hw hb ht hcond⟩
  · rintro w s ⟨-, -, ht⟩ hcond
    exact noSecondExposure_step ht hcond

/-- A position whose close order ends in this status, and the same request again. -/
def repeatedRequestRun (close : OrderData) : List Step :=
  filledEntryRun (.accepted none) ++
  [.closeTrade 1 .manual { now := 2, close := .accepted none },
    .processOrder close (demoHandler 3),
    .executeSignal demoRequest (demoExecute (.accepted none) (.ok none))]

/-- A filled close ends the trade, and the request opens the next one. -/
theorem noSecondExposure_closed : Runs.Meets (step (demoEnv .takerAllowed))
    (NoSecondExposure (demoEnv .takerAllowed)) {}
    (repeatedRequestRun { orderLinkId := some (.close 3), orderStatus := .filled }) :=
  noSecondExposure_run _ _ (by decide +kernel)

/-- After a cancelled close the position is still open, and the request opens a second one. -/
theorem noSecondExposure_fails : ¬ Runs.Meets (step (demoEnv .takerAllowed))
    (NoSecondExposure (demoEnv .takerAllowed)) {}
    (repeatedRequestRun { orderLinkId := some (.close 3), orderStatus := .cancelled }) := by
  decide +kernel

end AmaExecutionCore
