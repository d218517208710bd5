import AmaExecutionCore.Commits
import Mathlib.Algebra.BigOperators.Group.List.Basic
import Mathlib.Algebra.Group.Prod
import Mathlib.Tactic.Abel

/-! The outcome of a closed trade: recorded once on its row, booked once in the row of
the day it was closed on, and final from then on. -/
namespace AmaExecutionCore
open TradeStatus

/-- Wins, losses, gross profit and loss percentage. -/
abbrev DayTotal := Nat × Nat × Rat × Rat

def DayOutcome.total (o : DayOutcome) : DayTotal :=
  (o.winningTrades, o.losingTrades, o.grossPnl.getD 0, o.dailyLossPct.getD 0)

/-- What one closed trade adds to the day it was closed on. -/
def Trade.result (t : Trade) : DayTotal :=
  if t.realizedPnl.getD 0 < 0 then (0, 1, t.realizedPnl.getD 0, |t.pnlPct.getD 0|)
  else (1, 0, t.realizedPnl.getD 0, 0)

/-- What the trade adds to the day `date`. -/
def Trade.share (date : Date) (t : Trade) : DayTotal :=
  if t.status = pnlRecorded ∧ t.closedAt.map Timestamp.date = some date then t.result else 0

/-- Each closed trade has its outcome, and there is one row a day, which adds up the
trades closed on that day, each of them once. -/
structure DaysBooked (w : World) : Prop where
  recorded : ∀ t ∈ w.db.trades, t.status = pnlRecorded → t.realizedPnl ≠ none ∧ t.closedAt ≠ none
  oneRow : w.db.ledger.OneRowPerDay
  total : ∀ date, (w.db.ledger.outcome date).total = (w.db.trades.map (Trade.share date)).sum

/-- A trade that has ended keeps its status and its outcome. -/
def ResultsKept (w w' : World) : Prop :=
  ∀ t ∈ w.db.trades, t.status = pnlRecorded →
    ∃ t' ∈ w'.db.trades, t'.id = t.id ∧ t'.status = pnlRecorded ∧ t.SameResult t'

theorem Trade.share_of_open {t : Trade} (h : t.status ≠ pnlRecorded) (date : Date) :
    t.share date = 0 := by
  unfold Trade.share
  rw [if_neg fun hp => h hp.1]

theorem Trade.share_congr {t t' : Trade} (hst : t'.status = pnlRecorded ↔ t.status = pnlRecorded)
    (hres : t.status = pnlRecorded → t.SameResult t') (date : Date) :
    t'.share date = t.share date := by
  by_cases hp : t.status = pnlRecorded
  · have hsame := hres hp
    have hresult : t'.result = t.result := by
      simp only [Trade.result, hsame.realizedPnl, hsame.pnlPct]
    simp only [Trade.share, hst, hsame.closedAt, hresult]
  · rw [Trade.share_of_open hp, Trade.share_of_open fun h => hp (hst.mp h)]

theorem bookOutcome_total {t : Trade} {pnl : Rat} (h : t.realizedPnl = some pnl)
    (stat : DailyStat) : (bookOutcome t pnl stat).outcome.total = stat.outcome.total + t.result := by
  simp only [bookOutcome, updateSymbolStats, Trade.result, h, Option.getD_some]
  split_ifs <;> cases t.pnlPct <;> simp [DailyStat.outcome, DayOutcome.total]

theorem Handled.results {env : Env} {w : World} {s : Step} {k k' : Work}
    (h : Handled env w s k k')
    (hrec : k.trade.status = pnlRecorded) :
    k'.trade.status = pnlRecorded ∧ k.trade.SameResult k'.trade := by
  obtain hw | ⟨data, fee, slippage, -, -, -, rfl⟩ := h.writes
  · cases hw with
    | kept _ hres hst => exact ⟨hst.mpr hrec, hres hrec⟩
    | booked _ hopen => exact (hopen hrec).elim
  · obtain ⟨paid, hfee⟩ := k.trade.addFee_eq fee
    rw [hfee]
    exact ⟨hrec, by constructor <;> rfl⟩

/-- A handler changes the row of a day by what it changes the share of its trade by. -/
theorem Handled.shares {env : Env} {w : World} {s : Step} {k k' : Work}
    (h : Handled env w s k k') (date : Date) :
    ∃ added, (k'.ledger.outcome date).total = (k.ledger.outcome date).total + added ∧
      k'.trade.share date = k.trade.share date + added := by
  obtain hw | ⟨data, fee, slippage, -, -, -, rfl⟩ := h.writes
  · cases hw with
    | kept htraced hres hst =>
      refine ⟨0, ?_, ?_⟩
      · rw [add_zero, (Ledger.SameDays.of_dailyStats htraced.days).outcome]
      · rw [add_zero, Trade.share_congr hst hres]
    | @booked k₁ now pnl htraced hopen hst hpnl hclosed =>
      refine ⟨k₁.trade.share date, ?_, by rw [Trade.share_of_open hopen, zero_add]; rfl⟩
      have hrow : (Ledger.updateDailyStat now.date (bookOutcome k₁.trade pnl) k₁.ledger).dailyStat
          date = _ := Ledger.dailyStat_update _ date _ (Ledger.bookOutcome_statDate _ _) _
      have hdays := (Ledger.SameDays.of_dailyStats htraced.days).outcome date
      have hsame : k₁.ledger.dailyStat date = k.ledger.dailyStat date := by
        simp only [Ledger.dailyStat, htraced.days]
      simp only [Ledger.outcome, Work.onLedger, hrow, Trade.share, hst, hclosed, Option.map_some,
        Option.some.injEq, true_and]
      by_cases hd : date = now.date
      · subst hd
        rw [if_pos rfl, if_pos rfl, bookOutcome_total hpnl, hsame]
      · rw [if_neg hd, if_neg fun h => hd h.symm, add_zero, hsame]
  · obtain ⟨paid, hfee⟩ := k.trade.addFee_eq fee
    refine ⟨0, by rw [add_zero], ?_⟩
    rw [hfee, add_zero]
    rfl

theorem Handled.oneRow {env : Env} {w : World} {s : Step} {k k' : Work}
    (h : Handled env w s k k')
    (hone : k.ledger.OneRowPerDay) : k'.ledger.OneRowPerDay := by
  obtain hw | ⟨data, fee, slippage, -, -, -, rfl⟩ := h.writes
  · cases hw with
    | kept htraced => exact (Ledger.SameDays.of_dailyStats htraced.days).oneRow hone
    | booked htraced =>
      exact Ledger.oneRow_update (Ledger.bookOutcome_statDate _ _)
        ((Ledger.SameDays.of_dailyStats htraced.days).oneRow hone)
  · exact hone

theorem Handled.recorded {env : Env} {w : World} {s : Step} {k k' : Work}
    (h : Handled env w s k k')
    (hk : k.trade.status = pnlRecorded → k.trade.realizedPnl ≠ none ∧ k.trade.closedAt ≠ none)
    (hrec : k'.trade.status = pnlRecorded) :
    k'.trade.realizedPnl ≠ none ∧ k'.trade.closedAt ≠ none := by
  obtain hw | ⟨data, fee, slippage, -, -, -, rfl⟩ := h.writes
  · cases hw with
    | kept _ hres hst =>
      have hp := hst.mp hrec
      rw [(hres hp).realizedPnl, (hres hp).closedAt]
      exact hk hp
    | booked _ _ _ hpnl hclosed => simp [Work.onLedger, hpnl, hclosed]
  · obtain ⟨paid, hfee⟩ := k.trade.addFee_eq fee
    rw [hfee] at hrec ⊢
    exact hk hrec

theorem Entered.not_recorded {s : Settings} {category : MarketType}
    {req : NormalizedExecuteSignalRequest} {io : ExecuteIo} {k k' : Work}
    {raised : Option PyError} (h : Entered s category req io k (.committed raised k')) :
    k'.trade.status ≠ pnlRecorded := by
  cases h with
  | shadow _ h => simp [h.status]
  | accepted _ _ _ _ h => simp [h.status]
  | refused _ _ _ _ h => simp [h.status]
  | uncertain _ _ _ _ _ hl h =>
    rw [h.status]
    obtain rfl | ⟨remote, -, rfl⟩ := hl
    · decide
    · cases remote.orderStatus <;> decide

theorem DaysBooked.commit {env : Env} {s : Step} {w₀ w : World} {t : Trade} {k' : Work}
    (h : DaysBooked w) (hw : w.WellFormed) (ht : t ∈ w.db.trades)
    (hk : Handled env w₀ s (w.work t) k') : DaysBooked (w.commit k') := by
  obtain ⟨before, after, hsplit, hrows⟩ := hw.commit_split ht hk.frame.entry.id
  have hmem : ∀ r ∈ before ++ after, r ∈ w.db.trades := by
    intro r hr
    rw [hsplit]
    obtain hr | hr := List.mem_append.mp hr
    · exact List.mem_append_left _ hr
    · exact List.mem_append_right _ (List.mem_cons_of_mem _ hr)
  refine ⟨?_, hk.oneRow h.oneRow, ?_⟩
  · intro r hr hrec
    rw [hrows, List.mem_append, List.mem_cons] at hr
    obtain hr | rfl | hr := hr
    · exact h.recorded r (hmem r (List.mem_append_left _ hr)) hrec
    · exact hk.recorded (h.recorded t ht) hrec
    · exact h.recorded r (hmem r (List.mem_append_right _ hr)) hrec
  · intro date
    obtain ⟨added, hadded, hshare⟩ := hk.shares date
    have hold := h.total date
    rw [hsplit] at hold
    rw [hrows]
    simp only [List.map_append, List.map_cons, List.sum_append, List.sum_cons] at hold ⊢
    have hledger : ((w.commit k').db.ledger.outcome date).total = _ := hadded
    rw [hledger, World.work_trade] at *
    rw [hshare, show ((w.work t).ledger.outcome date).total = _ from hold]
    abel

theorem DaysBooked.commits {env : Env} {s : Step} {w w' : World} (h : DaysBooked w)
    (hc : Commits env s w w') : DaysBooked w' := by
  induction hc with
  | start => exact h
  | commit _ hw₁ _ ht₁ hk ih => exact ih.commit hw₁ ht₁ hk
  | quiet _ hq ih =>
    refine ⟨?_, hq.days.oneRow ih.oneRow, ?_⟩
    · rw [hq.trades]
      exact ih.recorded
    · intro date
      rw [hq.trades, hq.days.outcome]
      exact ih.total date
  | @created w₁ w₂ req io signalId plan raised k _ hw₁ _ _ hk htrades _ hdays ih =>
    have hent := settleEntry_entered env.settings .spot req io
      (entryWork env req io (w₁, signalId, plan)) (entryWork_link _ _ _ _)
    rw [hk] at hent
    have hopen := hent.not_recorded
    refine ⟨?_, hdays.oneRow ih.oneRow, ?_⟩
    · intro r hr hrec
      rw [htrades] at hr
      obtain hr | hr := List.mem_append.mp hr
      · exact ih.recorded r hr hrec
      · exact (hopen (List.mem_singleton.mp hr ▸ hrec)).elim
    · intro date
      rw [htrades, hdays.outcome, ih.total]
      simp [Trade.share_of_open hopen]

theorem daysBooked_run (env : Env) (ss : List Step) : DaysBooked (Runs.run (step env) {} ss) := by
  have hinit : ({} : World).WellFormed ∧ DaysBooked {} :=
    ⟨wellFormed_init, by simp, List.nodup_nil, fun date => rfl⟩
  have hstep : ∀ w s, (w.WellFormed ∧ DaysBooked w) →
      ((step env w s).WellFormed ∧ DaysBooked (step env w s)) := fun w s ⟨hw, hb⟩ =>
    ⟨(step_effect env s hw).2, hb.commits (step_commits env s hw)⟩
  exact (Runs.run_invariant (I := fun w => w.WellFormed ∧ DaysBooked w) ss hinit hstep).2

theorem ResultsKept.trans {w w' w'' : World} (h : ResultsKept w w') (h' : ResultsKept w' w'') :
    ResultsKept w w'' := by
  intro t ht hrec
  obtain ⟨t', ht', hid, hrec', hres⟩ := h t ht hrec
  obtain ⟨t'', ht'', hid', hrec'', hres'⟩ := h' t' ht' hrec'
  exact ⟨t'', ht'', hid'.trans hid, hrec'', hres.trans hres'⟩

theorem ResultsKept.of_mem {w w' : World} (h : ∀ t ∈ w.db.trades, t ∈ w'.db.trades) :
    ResultsKept w w' := fun t ht hrec => ⟨t, h t ht, rfl, hrec, .refl t⟩

theorem ResultsKept.commit {env : Env} {s : Step} {w₀ w : World} {t : Trade} {k' : Work}
    (hw : w.WellFormed) (ht : t ∈ w.db.trades) (hk : Handled env w₀ s (w.work t) k') :
    ResultsKept w (w.commit k') := by
  have hid : k'.trade.id = t.id := hk.frame.entry.id
  intro r hr hrec
  by_cases hkey : r.id = t.id
  · obtain rfl := hw.eq_of_id hr ht hkey
    refine ⟨k'.trade, ?_, hid, hk.results hrec⟩
    rw [World.commit_trades ht hid]
    exact List.mem_map.mpr ⟨r, hr, if_pos rfl⟩
  · exact ⟨r, World.mem_commit ht hid hr hkey, rfl, hrec, .refl r⟩

theorem ResultsKept.commits {env : Env} {s : Step} {w w' : World} (hc : Commits env s w w') :
    ResultsKept w w' := by
  induction hc with
  | start => exact .of_mem fun _ h => h
  | commit _ hw₁ _ ht₁ hk ih => exact ih.trans (.commit hw₁ ht₁ hk)
  | quiet _ hq ih => exact ih.trans (.of_mem fun t ht => hq.trades ▸ ht)
  | created _ _ _ _ _ htrades _ _ ih =>
    exact ih.trans (.of_mem fun t ht => htrades ▸ List.mem_append_left _ ht)

/-- In every run each closed trade stays closed with the outcome it was given, and each
day adds up the outcomes of the trades closed on it, each of them once. -/
theorem outcomesBooked_run (env : Env) (ss : List Step) :
    Runs.Always (step env) DaysBooked {} ss ∧
      Runs.Meets (step env) (fun w s => ResultsKept w (step env w s)) {} ss := by
  have htrue : Runs.Meets (step env) (fun _ _ => True) {} ss := .trivial _ ss
  have hstep : ∀ w s, (w.WellFormed ∧ DaysBooked w) → True →
      ((step env w s).WellFormed ∧ DaysBooked (step env w s)) := fun w s ⟨hw, hb⟩ _ =>
    ⟨(step_effect env s hw).2, hb.commits (step_commits env s hw)⟩
  have hinit : ({} : World).WellFormed ∧ DaysBooked {} :=
    ⟨wellFormed_init, by simp, List.nodup_nil, fun date => rfl⟩
  exact ⟨Runs.always_of_invariant hinit hstep (fun _ h => h.2) htrue,
    Runs.meets_of_invariant hinit hstep (fun w s ⟨hw, _⟩ _ => .commits (step_commits env s hw)) htrue⟩

end AmaExecutionCore
