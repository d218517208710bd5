import AmaExecutionCore.CreationDates
import AmaExecutionCore.Outcomes
import AmaExecutionCore.Passes
import AmaExecutionCore.SafetyRuns
import Mathlib.Tactic.Linarith

/-! The row of a day as the account of what happened on it: trades counted, trades
closed, and loss streaks that were cleared. A trade is created when its transaction begins;
`increment_trade_count` counts it on the day the clock shows by then. -/
namespace AmaExecutionCore
open TradeStatus

/-- The columns of a row that agree among themselves. -/
structure DailyStat.Sound (stat : DailyStat) : Prop where
  net : stat.netPnl.getD 0 = stat.grossPnl.getD 0 - stat.totalFees.getD 0
  closes : stat.winningTrades + stat.losingTrades ≤ stat.totalTrades
  symbols : (stat.symbolStats.map Prod.fst).Nodup
  symbolWins : (stat.symbolStats.map fun e => e.2.wins).sum = stat.winningTrades
  symbolLosses : (stat.symbolStats.map fun e => e.2.losses).sum = stat.losingTrades

theorem sum_lookup (f : SymbolStats → Nat) (hf : f {} = 0) (key : String)
    {stats : List (String × SymbolStats)} (h : (stats.map Prod.fst).Nodup) :
    (stats.map fun e => f e.2).sum = f ((stats.lookup key).getD {}) +
      ((stats.filter fun e => e.1 ≠ key).map fun e => f e.2).sum := by
  induction stats with
  | nil => simp [hf]
  | cons e stats ih =>
    obtain ⟨name, counts⟩ := e
    obtain ⟨hnotin, hnodup⟩ := List.nodup_cons.mp h
    by_cases hkey : name = key
    · subst hkey
      have hrest : stats.filter (fun e => e.1 ≠ name) = stats := by
        rw [List.filter_eq_self]
        intro r hr
        have hne : r.1 ≠ name := fun he => hnotin (List.mem_map.mpr ⟨r, hr, he⟩)
        simpa using hne
      rw [List.filter_cons_of_neg (by simp), hrest, List.map_cons, List.sum_cons]
      simp
    · have hlookup : List.lookup key ((name, counts) :: stats) = stats.lookup key := by
        have hne : (key == name) = false := by simpa using Ne.symm hkey
        rw [List.lookup_cons, hne]
      rw [List.filter_cons_of_pos (by simpa using hkey), hlookup]
      simp only [List.map_cons, List.sum_cons, ih hnodup]
      omega

/-- One close adds one to the wins or to the losses of all symbols. -/
theorem updateSymbolStats_sums (symbol : String) (isWin : Bool) {stat : DailyStat}
    (h : (stat.symbolStats.map Prod.fst).Nodup) :
    ((updateSymbolStats symbol isWin stat).symbolStats.map fun e => e.2.wins).sum =
        (stat.symbolStats.map fun e => e.2.wins).sum + (if isWin then 1 else 0) ∧
      ((updateSymbolStats symbol isWin stat).symbolStats.map fun e => e.2.losses).sum =
        (stat.symbolStats.map fun e => e.2.losses).sum + (if isWin then 0 else 1) := by
  have hwins := sum_lookup SymbolStats.wins rfl (symbolKey symbol) h
  have hlosses := sum_lookup SymbolStats.losses rfl (symbolKey symbol) h
  cases isWin <;>
  · simp only [updateSymbolStats, List.map_cons, List.sum_cons, Bool.false_eq_true, if_true, if_false]
    constructor <;> omega

theorem updateSymbolStats_nodup (symbol : String) (isWin : Bool) {stat : DailyStat}
    (h : (stat.symbolStats.map Prod.fst).Nodup) :
    ((updateSymbolStats symbol isWin stat).symbolStats.map Prod.fst).Nodup := by
  simp only [updateSymbolStats, List.map_cons, List.nodup_cons]
  refine ⟨?_, h.sublist (List.filter_sublist.map _)⟩
  intro hmem
  obtain ⟨e, he, hkey⟩ := List.mem_map.mp hmem
  simpa [hkey] using (List.mem_filter.mp he).2

namespace DailyStat.Sound

theorem new (date : Date) : ({ statDate := date } : DailyStat).Sound :=
  ⟨by simp, by simp, by simp, by simp, by simp⟩

/-- Booking a close keeps the columns in agreement; it counts the trade itself when no
creation was counted for it. -/
theorem bookOutcome {stat : DailyStat} (h : stat.Sound) (trade : Trade) (pnl : Rat) :
    (bookOutcome trade pnl stat).Sound := by
  have hcloses := h.closes
  have hnet := h.net
  by_cases hloss : pnl < 0
  · obtain ⟨hwins, hlosses⟩ := updateSymbolStats_sums trade.symbol false h.symbols
    simp only [AmaExecutionCore.bookOutcome, if_pos hloss]
    refine ⟨?_, ?_, updateSymbolStats_nodup _ _ ?_, ?_, ?_⟩
    · simp only [updateSymbolStats, Option.getD_some]
      split_ifs <;> linarith
    · simp only [updateSymbolStats]
      split_ifs
      · dsimp only
        omega
      · omega
    · split_ifs <;> exact h.symbols
    · split_ifs <;> exact hwins.trans h.symbolWins
    · split_ifs <;> exact hlosses.trans (congrArg (· + 1) h.symbolLosses)
  · obtain ⟨hwins, hlosses⟩ := updateSymbolStats_sums trade.symbol true h.symbols
    simp only [AmaExecutionCore.bookOutcome, if_neg hloss]
    refine ⟨?_, ?_, updateSymbolStats_nodup _ _ ?_, ?_, ?_⟩
    · simp only [updateSymbolStats, Option.getD_some]
      split_ifs <;> linarith
    · simp only [updateSymbolStats]
      split_ifs
      · dsimp only
        omega
      · omega
    · split_ifs <;> exact h.symbols
    · split_ifs <;> exact hwins.trans (congrArg (· + 1) h.symbolWins)
    · split_ifs <;> exact hlosses.trans h.symbolLosses

end DailyStat.Sound

/-- What happens on a day. A streak is cleared when a cooldown of the day expires, or
when it or a hard loss-streak pause is reset. -/
inductive DayEvent where
  | counted
  | closed (lost : Bool)
  | reset
  deriving DecidableEq, Repr

abbrev DayLog := List (Date × DayEvent)

namespace DayLog

def counted (date : Date) (log : DayLog) : Nat := log.countP fun e => e = (date, .counted)

/-- The losing closes of a day since its last winning close or reset. -/
def lossStreak (date : Date) (log : DayLog) : Nat :=
  ((log.filter fun e => e.1 = date ∧ e.2 ≠ .counted).reverse.takeWhile
    fun e => e.2 = .closed true).length

theorem counted_append (date : Date) (log log' : DayLog) :
    counted date (log ++ log') = counted date log + counted date log' :=
  List.countP_append

theorem counted_other (date : Date) (log : DayLog) {e : Date × DayEvent} (h : e.2 ≠ .counted) :
    counted date (log ++ [e]) = counted date log := by
  have hne : e ≠ (date, .counted) := fun he => h (congrArg Prod.snd he)
  rw [counted_append]
  simp [counted, hne]

theorem counted_none {log : DayLog} (date : Date) (h : ∀ e ∈ log, e.2 ≠ .counted) :
    log.counted date = 0 := by
  rw [counted, List.countP_eq_zero]
  intro e he
  have hne : e ≠ (date, .counted) := fun heq => h e he (congrArg Prod.snd heq)
  simpa using hne

theorem lossStreak_append (date : Date) (log : DayLog) (e : Date × DayEvent) :
    lossStreak date (log ++ [e]) =
      if e.1 = date ∧ e.2 ≠ .counted then
        if e.2 = .closed true then lossStreak date log + 1 else 0
      else lossStreak date log := by
  unfold lossStreak
  rw [List.filter_append]
  by_cases hday : e.1 = date ∧ e.2 ≠ .counted
  · rw [if_pos hday, List.filter_cons_of_pos (by simpa using hday), List.filter_nil,
      List.reverse_append, List.reverse_singleton, List.singleton_append, List.takeWhile_cons]
    by_cases hlost : e.2 = .closed true
    · simp [hlost]
    · simp [hlost]
  · rw [if_neg hday, List.filter_cons_of_neg (by simpa using hday), List.filter_nil,
      List.append_nil]

end DayLog

/-- The row of the day after this log. -/
structure DayBook (log : DayLog) (date : Date) (w : World) : Prop where
  sound : (w.db.ledger.dailyStat date).Sound
  counted : log.counted date ≤ (w.db.ledger.dailyStat date).totalTrades
  streak : (w.db.ledger.dailyStat date).consecutiveLosses = log.lossStreak date

/-- The log says what happened to the days between the two worlds. -/
def Accounts (w : World) (log : DayLog) (w' : World) : Prop :=
  ∀ before date, DayBook before date w → DayBook (before ++ log) date w'

namespace Accounts

variable {w w' w'' : World} {log log' : DayLog}

theorem trans (h : Accounts w log w') (h' : Accounts w' log' w'') :
    Accounts w (log ++ log') w'' := by
  intro before date hb
  have hb' := h' (before ++ log) date (h before date hb)
  rwa [List.append_assoc] at hb'

theorem kept (h : Accounts w log w') (h' : Accounts w' [] w'') : Accounts w log w'' := by
  have htrans := h.trans h'
  rwa [List.append_nil] at htrans

theorem same (h : ∀ date, ∃ mark, w'.db.ledger.dailyStat date =
    { w.db.ledger.dailyStat date with circuitBreakerTriggered := mark }) : Accounts w [] w' := by
  intro before date hb
  obtain ⟨mark, hrow⟩ := h date
  rw [List.append_nil]
  refine ⟨?_, ?_, ?_⟩ <;> rw [hrow]
  · exact ⟨hb.sound.net, hb.sound.closes, hb.sound.symbols, hb.sound.symbolWins,
      hb.sound.symbolLosses⟩
  · exact hb.counted
  · exact hb.streak

theorem of_rows (h : ∀ date, w'.db.ledger.dailyStat date = w.db.ledger.dailyStat date) :
    Accounts w [] w' := .same fun date => ⟨_, h date⟩

theorem refl (w : World) : Accounts w [] w := .of_rows fun _ => rfl

theorem reset {day : Date} (h : ∀ date, w'.db.ledger.dailyStat date =
    if date = day then { w.db.ledger.dailyStat date with consecutiveLosses := 0 }
    else w.db.ledger.dailyStat date) : Accounts w [(day, .reset)] w' := by
  intro before date hb
  have hrow := h date
  by_cases hd : date = day
  · rw [if_pos hd] at hrow
    refine ⟨?_, ?_, ?_⟩
    · rw [hrow]
      exact ⟨hb.sound.net, hb.sound.closes, hb.sound.symbols, hb.sound.symbolWins,
        hb.sound.symbolLosses⟩
    · rw [hrow, DayLog.counted_other _ _ (by simp)]
      exact hb.counted
    · rw [hrow, DayLog.lossStreak_append]
      simp [hd]
  · rw [if_neg hd] at hrow
    refine ⟨hrow ▸ hb.sound, ?_, ?_⟩
    · rw [hrow, DayLog.counted_other _ _ (by simp)]
      exact hb.counted
    · rw [hrow, DayLog.lossStreak_append]
      simpa [Ne.symm hd] using hb.streak

theorem counted {day : Date} (h : ∀ date, w'.db.ledger.dailyStat date =
    if date = day then
      { w.db.ledger.dailyStat date with
        totalTrades := (w.db.ledger.dailyStat date).totalTrades + 1 }
    else w.db.ledger.dailyStat date) : Accounts w [(day, .counted)] w' := by
  intro before date hb
  have hrow := h date
  have hstreak : DayLog.lossStreak date (before ++ [(day, .counted)]) = before.lossStreak date := by
    rw [DayLog.lossStreak_append]
    simp
  by_cases hd : date = day
  · rw [if_pos hd] at hrow
    have hcounted := hb.counted
    have hcloses := hb.sound.closes
    refine ⟨?_, ?_, ?_⟩
    · rw [hrow]
      exact ⟨hb.sound.net, by dsimp only; omega, hb.sound.symbols, hb.sound.symbolWins,
        hb.sound.symbolLosses⟩
    · rw [hrow, DayLog.counted_append]
      simp only [DayLog.counted, hd, List.countP_singleton, decide_true, if_true] at hcounted ⊢
      omega
    · rw [hrow, hstreak]
      exact hb.streak
  · rw [if_neg hd] at hrow
    refine ⟨hrow ▸ hb.sound, ?_, ?_⟩
    · rw [hrow, DayLog.counted_append]
      simpa [DayLog.counted, List.countP_singleton, Ne.symm hd] using hb.counted
    · rw [hrow, hstreak]
      exact hb.streak

theorem booked {day : Date} {trade : Trade} {pnl : Rat} (h : ∀ date, w'.db.ledger.dailyStat date =
    if date = day then bookOutcome trade pnl (w.db.ledger.dailyStat date)
    else w.db.ledger.dailyStat date) : Accounts w [(day, .closed (pnl < 0))] w' := by
  intro before date hb
  have hrow := h date
  have hcounted : DayLog.counted date (before ++ [(day, .closed (pnl < 0))]) = before.counted date :=
    DayLog.counted_other _ _ (by simp)
  by_cases hd : date = day
  · rw [if_pos hd] at hrow
    have hcount := hb.counted
    refine ⟨hrow ▸ hb.sound.bookOutcome trade pnl, ?_, ?_⟩
    · rw [hrow, hcounted]
      refine hcount.trans ?_
      simp only [bookOutcome, updateSymbolStats]
      split_ifs <;> simp
    · have hstreak := hb.streak
      rw [hrow, DayLog.lossStreak_append, ← hstreak, Ledger.bookOutcome_consecutiveLosses]
      by_cases hloss : pnl < 0
      · simp [hd, hloss]
      · simp [hd, hloss]
  · rw [if_neg hd] at hrow
    refine ⟨hrow ▸ hb.sound, hrow ▸ hcounted ▸ hb.counted, ?_⟩
    rw [hrow, DayLog.lossStreak_append]
    simpa [Ne.symm hd] using hb.streak

end Accounts

/-- The close booked between two states of one trade. -/
def closeEvent (t t' : Trade) : Option (Date × DayEvent) :=
  if t.status ≠ pnlRecorded ∧ t'.status = pnlRecorded then
    t'.closedAt.map fun closedAt => (closedAt.date, .closed (t'.realizedPnl.getD 0 < 0))
  else none

/-- The closes booked between two worlds, in the order of the rows. -/
def closesOf (w w' : World) : DayLog :=
  w.db.trades.filterMap fun t => (w'.db.getTrade t.id).bind (closeEvent t)

/-- The streak cleared with a cooldown that is found expired at `now`. -/
def clearedStreak (now : Timestamp) (w : World) : DayLog :=
  (w.db.ledger.expiredStreak now).toList.map fun day => (day, .reset)

/-- What a step does to the days. A request that starts a new attempt registers a
signal, and looks for an expired cooldown first. -/
def Step.dayLog (env : Env) (w : World) (s : Step) : DayLog :=
  let w' := step env w s
  match s with
  | .executeSignal _ io =>
    (if w'.db.signals.length = w.db.signals.length then [] else clearedStreak io.now w) ++
      (if w'.db.trades.length = w.db.trades.length then [] else [(io.countedAt.date, .counted)])
  | .activateKillSwitch now | .killSwitchStatus now => clearedStreak now w
  | .resetKillSwitch now =>
    if w.db.ledger.safety.pauseReason = some .cooldown ∨
        w.db.ledger.safety.pauseReason = some .hardLossStreak then
      [(Ledger.lossStreakStatDate w.db.ledger.safety now, .reset)]
    else []
  | _ => closesOf w w'

def dayLog (env : Env) : World → List Step → DayLog
  | _, [] => []
  | w, s :: ss => s.dayLog env w ++ dayLog env (step env w s) ss

theorem closeEvent_none {t t' : Trade} (h : t'.status = pnlRecorded ↔ t.status = pnlRecorded) :
    closeEvent t t' = none := if_neg fun hc => hc.1 (h.mp hc.2)

theorem filterMap_of_sublist {α β : Type*} {f : α → Option β} {l ts : List α} (h : ts.Sublist l)
    (hnodup : l.Nodup) (hf : ∀ x ∈ l, x ∉ ts → f x = none) : l.filterMap f = ts.filterMap f := by
  induction h with
  | slnil => rfl
  | @cons ts l a hsub ih =>
    obtain ⟨hnotin, hnodup⟩ := List.nodup_cons.mp hnodup
    have ha : f a = none := hf a List.mem_cons_self fun hmem => hnotin (hsub.subset hmem)
    rw [List.filterMap_cons_none ha]
    exact ih hnodup fun x hx => hf x (List.mem_cons_of_mem _ hx)
  | @cons_cons ts l a hsub ih =>
    obtain ⟨hnotin, hnodup⟩ := List.nodup_cons.mp hnodup
    have hrest := ih hnodup fun x hx hxts => hf x (List.mem_cons_of_mem _ hx) fun hmem => by
      obtain rfl | hmem := List.mem_cons.mp hmem
      · exact hnotin hx
      · exact hxts hmem
    rw [List.filterMap_cons, List.filterMap_cons, hrest]

theorem World.WellFormed.nodup {w : World} (hw : w.WellFormed) : w.db.trades.Nodup :=
  List.Nodup.of_map _ hw.ids

theorem closesOf_eq {w w' : World} {ts : List Trade} (hw : w.WellFormed) (hw' : w'.WellFormed)
    (hsub : ts.Sublist w.db.trades) (hkept : ∀ t ∈ w.db.trades, t ∉ ts → t ∈ w'.db.trades) :
    closesOf w w' = ts.filterMap fun t => (w'.db.getTrade t.id).bind (closeEvent t) := by
  refine filterMap_of_sublist hsub hw.nodup fun t ht hts => ?_
  rw [hw'.getTrade (hkept t ht hts)]
  exact closeEvent_none Iff.rfl

theorem closesOf_same {w w' : World} (hw : w.WellFormed) (hw' : w'.WellFormed)
    (h : w'.db.trades = w.db.trades) : closesOf w w' = [] :=
  closesOf_eq hw hw' (List.nil_sublist _) fun _ ht _ => h ▸ ht

theorem closesOf_commit {w : World} {t : Trade} {k' : Work} (hw : w.WellFormed)
    (ht : t ∈ w.db.trades) (hk : (w.work t).Frame k') :
    closesOf w (w.commit k') = (closeEvent t k'.trade).toList := by
  have hw' := hw.commit ht hk
  have hid : k'.trade.id = t.id := hk.entry.id
  rw [closesOf_eq hw hw' (List.singleton_sublist.mpr ht)]
  · have hrow : (w.commit k').db.getTrade t.id = some k'.trade :=
      hid ▸ hw'.getTrade (World.commit_row ht hid)
    simp only [List.filterMap_cons, List.filterMap_nil, hrow, Option.bind_some]
    cases closeEvent t k'.trade <;> rfl
  · intro r hr hne
    refine World.mem_commit ht hid hr fun hkey => hne ?_
    rw [hw.eq_of_id hr ht hkey]
    exact List.mem_cons_self

namespace Accounts

variable {w : World}

theorem writes {t : Trade} {k' : Work} (hk : (w.work t).Writes k') :
    Accounts w (closeEvent t k'.trade).toList (w.commit k') := by
  cases hk with
  | kept htraced _ hst =>
    rw [closeEvent_none (show k'.trade.status = pnlRecorded ↔ t.status = pnlRecorded from hst)]
    exact .of_rows fun date => by simp only [World.commit, Db.record, Ledger.dailyStat, htraced.days]; rfl
  | @booked k₁ now pnl htraced hopen hst hpnl hclosed =>
    have hevent : closeEvent t k₁.trade = some (now.date, .closed (pnl < 0)) := by
      simp only [closeEvent, hst, hclosed, hpnl]
      exact if_pos ⟨hopen, trivial⟩
    have hlog : (closeEvent t (k₁.onLedger (Ledger.updateDailyStat now.date
        (bookOutcome k₁.trade pnl))).trade).toList = [(now.date, .closed (pnl < 0))] := by
      rw [show (k₁.onLedger (Ledger.updateDailyStat now.date
        (bookOutcome k₁.trade pnl))).trade = k₁.trade from rfl, hevent]
      rfl
    rw [hlog]
    refine @Accounts.booked _ _ now.date k₁.trade pnl fun date => ?_
    have hsame : ∀ day, k₁.ledger.dailyStat day = w.db.ledger.dailyStat day := fun day => by
      simp only [Ledger.dailyStat, htraced.days]
      rfl
    have hrow := Ledger.dailyStat_update now.date date (bookOutcome k₁.trade pnl)
      (Ledger.bookOutcome_statDate _ _) k₁.ledger
    refine hrow.trans ?_
    split_ifs with hd
    · rw [hsame, hd]
    · exact hsame date

theorem session {env : Env} {w₀ : World} {s : Step} {t : Trade} {k' : Work} (hw : w.WellFormed)
    (ht : t ∈ w.db.trades) (hk : Handled env w₀ s (w.work t) k') :
    Accounts w (closesOf w (w.commit k')) (w.commit k') := by
  rw [closesOf_commit hw ht hk.frame]
  obtain hwrites | ⟨data, fee, slippage, -, -, -, rfl⟩ := hk.writes
  · exact writes hwrites
  · obtain ⟨paid, hfee⟩ := t.addFee_eq fee
    have hrows : Accounts w [] (w.commit { w.work t with
        trade := { t.addFee fee with slippage := slippage } }) := .of_rows fun _ => rfl
    rw [hfee] at hrows
    simp only [World.work_trade, hfee]
    rwa [closeEvent_none (by exact Iff.rfl)]

end Accounts

theorem handle_writes {env : Env} {w w₁ : World} {s : Step} {t : Trade}
    (ht : t ∈ s.listed env w.db) : (w₁.work t).Writes (s.handle env t (w₁.work t)).2 := by
  cases s with
  | reconcileEntryOrders answer io => exact reconcileTrade_writes _ _ _ _
  | reconcileCloseOrders answer io => exact reconcileTrade_writes _ _ _ _
  | reconcileMissingProtection io =>
    simp only [Step.listed] at ht
    split_ifs at ht with hrest
    · have hst : Db.missingProtection t = true := (List.mem_filter.mp (List.mem_filter.mp ht).1).2
      have hk : Handled env w (.reconcileMissingProtection io) (w₁.work t) _ := .protect hrest hst
      obtain hwrites | ⟨_, _, _, hs, -⟩ := hk.writes
      · exact hwrites
      · cases hs
    · cases ht
  | _ => exact .kept (.refl _) (fun _ => .refl _) Iff.rfl

theorem passOver_wellFormed {env : Env} {s : Step} {ts : List Trade} {w : World}
    (hw : w.WellFormed) (hmem : ∀ t ∈ ts, t ∈ w.db.trades) (hnodup : (ts.map Trade.id).Nodup) :
    (passOver env s ts w).WellFormed := by
  induction ts generalizing w with
  | nil => exact hw
  | cons t ts ih =>
    have ht := hmem t List.mem_cons_self
    have hframe := s.handle_frame env t (w.work t)
    refine ih (hw.commit ht hframe) ?_ (List.nodup_cons.mp hnodup).2
    exact fun r hr => World.mem_commit ht hframe.entry.id (hmem r (List.mem_cons_of_mem _ hr))
      fun hid => (List.nodup_cons.mp hnodup).1 (hid ▸ List.mem_map_of_mem hr)

theorem passOver_accounts {env : Env} {s : Step} {ts : List Trade} {w : World}
    (hwrites : ∀ t ∈ ts, ∀ w₁ : World, (w₁.work t).Writes (s.handle env t (w₁.work t)).2)
    (hw : w.WellFormed) (hmem : ∀ t ∈ ts, t ∈ w.db.trades) (hnodup : (ts.map Trade.id).Nodup) :
    Accounts w (ts.filterMap fun t =>
      ((passOver env s ts w).db.getTrade t.id).bind (closeEvent t)) (passOver env s ts w) := by
  induction ts generalizing w with
  | nil => exact .refl w
  | cons t ts ih =>
    have ht := hmem t List.mem_cons_self
    have hframe := s.handle_frame env t (w.work t)
    have hid : (s.handle env t (w.work t)).2.trade.id = t.id := hframe.entry.id
    obtain ⟨hnotin, hrest⟩ := List.nodup_cons.mp hnodup
    have hmem' : ∀ r ∈ ts, r ∈ (w.commit (s.handle env t (w.work t)).2).db.trades :=
      fun r hr => World.mem_commit ht hid (hmem r (List.mem_cons_of_mem _ hr))
        fun hkey => hnotin (hkey ▸ List.mem_map_of_mem hr)
    have hw' := hw.commit ht hframe
    have hrow : (passOver env s (t :: ts) w).db.getTrade t.id =
        some (s.handle env t (w.work t)).2.trade := by
      have hkept := (@passOver_other env s ts _ hmem' hrest _ (World.commit_row ht hid)
        (hid ▸ hnotin)).1
      have hget := (passOver_wellFormed hw' hmem' hrest).getTrade hkept
      rwa [hid] at hget
    have hfirst := Accounts.writes (hwrites t List.mem_cons_self w)
    have hlater := ih (fun r hr => hwrites r (List.mem_cons_of_mem _ hr)) hw' hmem' hrest
    have hsplit : ∀ f : Trade → Option (Date × DayEvent),
        (t :: ts).filterMap f = (f t).toList ++ ts.filterMap f := by
      intro f
      rw [List.filterMap_cons]
      cases f t <;> rfl
    rw [hsplit]
    simp only [hrow, Option.bind_some]
    exact hfirst.trans hlater

theorem Step.listed_sublist (env : Env) (db : Db) (s : Step) :
    (s.listed env db).Sublist db.trades := by
  cases s <;> simp only [Step.listed, List.nil_sublist]
  all_goals split_ifs
  all_goals first
    | exact List.nil_sublist _
    | exact List.filter_sublist.trans List.filter_sublist
    | exact List.filter_sublist

variable {env : Env} {w : World}

theorem pass_accounts {s : Step} (hw : w.WellFormed) (hs : s.isPass = true) :
    Accounts w (closesOf w (step env w s)) (step env w s) := by
  have hmem : ∀ t ∈ s.listed env w.db, t ∈ w.db.trades := fun t ht => Step.listed_mem ht
  have hnodup := @Step.listed_nodup env w hw s
  have hpass := @passOver_accounts env s _ w (fun t ht w₁ => @handle_writes env w w₁ s t ht) hw hmem hnodup
  rw [step_passOver hw hs]
  rw [closesOf_eq hw (passOver_wellFormed hw hmem hnodup) (s.listed_sublist env w.db)]
  · exact hpass
  · intro t ht hnot
    refine (passOver_other hmem hnodup ht fun hid => hnot ?_).1
    obtain ⟨r, hr, hkey⟩ := List.mem_map.mp hid
    rwa [← hw.eq_of_id (hmem r hr) ht hkey]

/-- A step that commits at most one session on a trade. -/
def OneSession (env : Env) (w : World) (s : Step) : Prop :=
  (step env w s).db = w.db ∨ ∃ t k', t ∈ w.db.trades ∧ Handled env w s (w.work t) k' ∧
    step env w s = w.commit k'

theorem OneSession.accounts {s : Step} (h : OneSession env w s) (hw : w.WellFormed) :
    Accounts w (closesOf w (step env w s)) (step env w s) := by
  obtain hkept | ⟨t, k', ht, hk, hstep⟩ := h
  · rw [closesOf_same hw (step_effect env s hw).2 (congrArg Db.trades hkept)]
    exact .of_rows fun date => by rw [hkept]
  · rw [hstep]
    exact .session hw ht hk

theorem processOrder_session (data : OrderData) (io : HandlerIo) :
    OneSession env w (.processOrder data io) := by
  unfold OneSession
  simp only [step, processOrder]
  split
  · next link _ hlink _ =>
    split
    · exact .inl rfl
    · exact .inl rfl
    · next t hget =>
      obtain ⟨ht, hown⟩ := Db.getTradeByOrderLinkId_mem hget
      split
      · exact .inl rfl
      · next b k' happ =>
        refine .inr ⟨t, k', ht, .update ?_ happ fun _ => ⟨b, rfl⟩, rfl⟩
        simp [Step.update, hlink, hown]
  · exact .inl rfl

theorem processExecution_session (data : ExecutionData) :
    OneSession env w (.processExecution data) := by
  unfold OneSession
  simp only [step, processExecution]
  split
  · exact .inl rfl
  · next link hlink =>
    split_ifs
    · exact .inl rfl
    · split
      · exact .inl rfl
      · exact .inl rfl
      · exact .inl rfl
      · next fee t hfee hget =>
        obtain ⟨ht, hown⟩ := Db.getTradeByOrderLinkId_mem hget
        split
        · exact .inl rfl
        · next t' hslip =>
          have hadd : noteSlippage link data.execPrice (t.addFee fee) = .ok t' := by
            cases fee <;> exact hslip
          exact .inr ⟨t, _, ht, .execution hlink hown hfee hadd, rfl⟩

theorem closeTrade_session (id : TradeId) (reason : ExitReason) (io : CloseIo) :
    OneSession env w (.closeTrade id reason io) := by
  unfold OneSession
  simp only [step, closeTrade]
  split
  · exact .inl rfl
  · next t hget =>
    obtain ⟨ht, rfl⟩ := Db.getTrade_mem hget
    split_ifs with hst
    · split
      · exact .inl rfl
      · next k' hclose => exact .inr ⟨t, k', ht, .closed hst hclose, rfl⟩
    · exact .inl rfl

theorem clearedStreak_accounts {w' : World} (now : Timestamp) (h : ∀ date,
    w'.db.ledger.dailyStat date = (w.db.ledger.clearPauseIfExpired now).dailyStat date) :
    Accounts w (clearedStreak now w) w' := by
  unfold clearedStreak
  cases hexp : w.db.ledger.expiredStreak now with
  | none =>
    refine .of_rows fun date => ?_
    rw [h, Ledger.dailyStat_clear, hexp, if_neg (by simp)]
  | some day =>
    refine .reset fun date => ?_
    rw [h, Ledger.dailyStat_clear, hexp]
    by_cases hd : date = day
    · rw [if_pos (by rw [hd]), if_pos hd]
    · rw [if_neg fun he => hd (Option.some.inj he).symm, if_neg hd]

theorem killSwitch_accounts {s : Step} (hs : (∃ now, s = .activateKillSwitch now) ∨
    (∃ now, s = .killSwitchStatus now) ∨ ∃ now, s = .resetKillSwitch now) :
    Accounts w (s.dayLog env w) (step env w s) := by
  obtain ⟨now, rfl⟩ | ⟨now, rfl⟩ | ⟨now, rfl⟩ := hs
  · refine clearedStreak_accounts now fun date => ?_
    simp only [step, activateKillSwitch]
    split_ifs <;> rfl
  · exact clearedStreak_accounts now fun date => rfl
  · simp only [Step.dayLog, step, resetKillSwitch]
    split_ifs with hpause
    · refine .reset fun date => ?_
      have hflag : (decide (w.db.ledger.safety.pauseReason = some .cooldown) ||
          decide (w.db.ledger.safety.pauseReason = some .hardLossStreak)) = true := by simpa using hpause
      refine Eq.trans ?_ ((Ledger.dailyStat_reset
        (Ledger.lossStreakStatDate w.db.ledger.safety now) date w.db.ledger).trans ?_)
      · simp only [World.mapLedger, Ledger.resetSafetyState, hflag, if_true]
        rfl
      · split_ifs with hd
        · rw [hd]
        · rfl
    · refine .of_rows fun date => ?_
      have hflag : (decide (w.db.ledger.safety.pauseReason = some .cooldown) ||
          decide (w.db.ledger.safety.pauseReason = some .hardLossStreak)) = false := by
        simpa using hpause
      simp only [World.mapLedger, Ledger.resetSafetyState, hflag]
      rfl

theorem Ledger.expiredStreak_clear (now : Timestamp) (l : Ledger) :
    (l.clearPauseIfExpired now).expiredStreak now = none := by
  cases h : l.expiredStreak now with
  | none => rw [clearPauseIfExpired_of_none h, h]
  | some day => rw [clearPauseIfExpired_of_some h]; rfl

theorem checked_accounts (now : Timestamp) {w' : World} (h : ∀ date,
    w'.db.ledger.dailyStat date = (w.db.ledger.checked now).dailyStat date) :
    Accounts w (clearedStreak now w) w' := by
  refine clearedStreak_accounts now fun date => (h date).trans ?_
  rw [Ledger.dailyStat_checked, Ledger.dailyStat_clear]

theorem tripped_accounts {s : Settings} {now : Timestamp} {l : Ledger}
    (h : Tripped s now (w.db.ledger.checked now) l) :
    Accounts w (clearedStreak now w) (w.adoptLedger (some l)) := by
  have hmarked : Accounts (w.mapLedger (Ledger.checked now)) [] (w.adoptLedger (some l)) :=
    .same h.rows
  exact (checked_accounts now fun _ => rfl).kept hmarked

/-- The commit of a new trade raises the counter of the day the clock showed then. -/
theorem recordEntry_accounts (io : ExecuteIo) {w' : World} (h : ∀ date,
    w'.db.ledger.dailyStat date =
      ((w.db.ledger.checked io.now).incrementDailyTradeCount io.countedAt.date).dailyStat date) :
    Accounts w (clearedStreak io.now w ++ [(io.countedAt.date, .counted)]) w' := by
  have hcounted : Accounts (w.mapLedger (Ledger.checked io.now))
      [(io.countedAt.date, .counted)] w' := by
    refine .counted fun date => ?_
    have hinc := Ledger.dailyStat_update io.countedAt.date date
      (fun stat => { stat with totalTrades := stat.totalTrades + 1 }) (fun _ => rfl)
      (w.db.ledger.checked io.now)
    refine (h date).trans (hinc.trans ?_)
    split_ifs with hd
    · rw [hd]
      rfl
    · rfl
  exact (checked_accounts io.now fun _ => rfl).trans hcounted

theorem registerSignal_rows {fingerprint : String} {loaded : Option SignalSubmission}
    {req : NormalizedExecuteSignalRequest} {w₁ : World}
    (h : registerSignal fingerprint loaded req w = .ok w₁) :
    w₁.db.signals.length = w.db.signals.length + 1 ∧ w₁.db.ledger = w.db.ledger := by
  obtain ⟨rows, -, rfl⟩ := registerSignal_ok h
  exact ⟨by simp, rfl⟩

/-- What a new attempt does to the days: it may clear an expired streak, and counts the
trade if it creates one. -/
inductive FreshBooked (io : ExecuteIo) (w w' : World) : Prop
  | untouched (h : w' = w)
  | refused (hsignals : w'.db.signals.length = w.db.signals.length + 1)
      (htrades : w'.db.trades = w.db.trades) (h : Accounts w (clearedStreak io.now w) w')
  | entered (hsignals : w'.db.signals.length = w.db.signals.length + 1)
      (htrades : w'.db.trades.length = w.db.trades.length + 1)
      (h : Accounts w (clearedStreak io.now w ++ [(io.countedAt.date, .counted)]) w')

/-- The signal is registered and an expired streak cleared; no trade exists yet. -/
structure Registered (io : ExecuteIo) (w w₁ : World) : Prop where
  signals : w₁.db.signals.length = w.db.signals.length + 1
  trades : w₁.db.trades = w.db.trades
  issued : w₁.issued = w.issued + 1
  accounts : Accounts w (clearedStreak io.now w) w₁
  cleared : clearedStreak io.now w₁ = []

theorem registerSignal_registered {fingerprint : String} {loaded : Option SignalSubmission}
    {req : NormalizedExecuteSignalRequest} {registered : World} (io : ExecuteIo)
    (h : registerSignal fingerprint loaded req w = .ok registered) :
    Registered io w (killSwitchStatus io.now registered) := by
  obtain ⟨htrades, -, hissued⟩ := registerSignal_same h
  obtain ⟨hsignals, hledger⟩ := registerSignal_rows h
  refine ⟨hsignals, htrades, hissued, clearedStreak_accounts io.now fun date => ?_, ?_⟩
  · rw [← hledger]
    rfl
  · have hexp : (killSwitchStatus io.now registered).db.ledger.expiredStreak io.now = none :=
      Ledger.expiredStreak_clear _ _
    rw [clearedStreak, hexp]
    rfl

theorem Registered.refused {w₁ : World} {req : NormalizedExecuteSignalRequest} {io : ExecuteIo}
    {signalId : SignalId} {e : PyError} {l : Option Ledger} (h : Registered io w w₁)
    (hcheck : checkEntry env.settings .spot req io signalId w₁.db = .error (e, l)) :
    FreshBooked io w (w₁.adoptLedger l) := by
  refine .refused h.signals h.trades ?_
  cases l with
  | none => exact h.accounts.kept (.of_rows fun _ => rfl)
  | some l =>
    have htrip := circuitBreakerCheck_checked env.settings io.now w₁.db.ledger
    rw [circuitBreaker_of_checkEntry hcheck] at htrip
    cases htrip with
    | tripped htripped =>
      have hmarked := tripped_accounts htripped
      rw [h.cleared] at hmarked
      exact h.accounts.kept hmarked

theorem Registered.submitted {w₁ : World} (req : NormalizedExecuteSignalRequest) {io : ExecuteIo}
    (signalId : SignalId) (plan : EntryPlan) (h : Registered io w w₁) (hw : w.WellFormed) :
    FreshBooked io w (submitEntry env req io signalId plan w₁).2 := by
  have hent := settleEntry_entered env.settings .spot req io
    (entryWork env req io (w₁, signalId, plan)) (entryWork_link _ _ _ _)
  obtain ⟨status, link, ty, new, henters, -, -⟩ := hent.enters (entryWork_link _ _ _ _)
  have hcounted : ∀ w' : World, (∀ date, w'.db.ledger.dailyStat date =
      ((w₁.db.ledger.checked io.now).incrementDailyTradeCount io.countedAt.date).dailyStat date) →
      Accounts w₁ [(io.countedAt.date, .counted)] w' := by
    intro w' hrows
    have hrecorded := recordEntry_accounts io hrows
    rwa [h.cleared] at hrecorded
  have hadded : ∀ raised k, settleEntry env.settings .spot req io
      (entryWork env req io (w₁, signalId, plan)) = .committed raised k →
      (Db.saveTrade k.trade w₁.db.trades).length = w.db.trades.length + 1 := by
    intro raised k hres
    rw [hres] at henters
    have hid : k.trade.id = w₁.issued := henters.same.id
    have hfresh : ∀ r ∈ w₁.db.trades, r.id ≠ k.trade.id := by
      intro r hr
      rw [hid, h.issued]
      exact (Nat.lt_succ_of_lt (hw.fresh r (h.trades ▸ hr))).ne
    rw [show Db.saveTrade k.trade w₁.db.trades = w₁.db.trades ++ [k.trade] from
      Rows.put_of_fresh hfresh, List.length_append, h.trades]
    rfl
  simp only [submitEntry]
  split
  · exact .refused h.signals h.trades (h.accounts.kept (.of_rows fun _ => rfl))
  · next e k hres =>
    exact .entered h.signals (hadded (some e) k hres) (h.accounts.trans (hcounted _ fun _ => rfl))
  · next k hres =>
    exact .entered h.signals (hadded none k hres) (h.accounts.trans (hcounted _ fun _ => rfl))

theorem executeFresh_booked (req : NormalizedExecuteSignalRequest) (io : ExecuteIo)
    (loaded : Option SignalSubmission) (hw : w.WellFormed) :
    FreshBooked io w (executeFresh env req io loaded w).2 := by
  unfold executeFresh
  split
  · exact .untouched rfl
  · next registered hreg =>
    have hregistered := registerSignal_registered io hreg
    have hguard := killSwitchGuard_world io.now registered
    generalize killSwitchStatus io.now registered = w₁ at hregistered hguard
    split
    · next e w' hg =>
      obtain rfl : w' = w₁ := by rw [hg] at hguard; exact hguard
      exact .refused hregistered.signals hregistered.trades hregistered.accounts
    · next w' hg =>
      obtain rfl : w' = w₁ := by rw [hg] at hguard; exact hguard
      split
      · next hcheck => exact hregistered.refused hcheck
      · next plan _ => exact hregistered.submitted req w.issued plan hw

/-- A request may first settle an unknown submission, which shows in no day. -/
structure Replayed (w w₁ : World) : Prop where
  signals : w₁.db.signals = w.db.signals
  trades : w₁.db.trades.length = w.db.trades.length
  safety : w₁.db.ledger.safety = w.db.ledger.safety
  days : Accounts w [] w₁

theorem Replayed.commit {req : NormalizedExecuteSignalRequest} {io : ExecuteIo} {t : Trade}
    {k : Work} (ht : t ∈ w.db.trades)
    (h : reconcilePendingUnknown io.pendingLookup (w.work t) = (.ok (), k))
    (hk : Handled env w (.executeSignal req io) (w.work t) k) : Replayed w (w.commit k) := by
  have hledger : k.ledger = w.db.ledger := by
    have hsame := reconcilePendingUnknown_ledger io.pendingLookup (w.work t)
    rw [h] at hsame
    exact hsame
  have hid : k.trade.id = t.id := hk.frame.entry.id
  refine ⟨rfl, ?_, congrArg Ledger.safety hledger, ?_⟩
  · rw [World.commit_trades ht hid, List.length_map]
  · exact .of_rows fun date => congrArg (Ledger.dailyStat date) hledger

/-- A request replays a trade, or starts a new attempt. -/
theorem executeSignal_cases (req : NormalizedExecuteSignalRequest) (io : ExecuteIo)
    (hw : w.WellFormed) : ∃ w₁, Replayed w w₁ ∧ (step env w (.executeSignal req io) = w₁ ∨
      w₁.WellFormed ∧ ∃ loaded,
        step env w (.executeSignal req io) = (executeFresh env req io loaded w₁).2) := by
  have hself : Replayed w w := ⟨rfl, rfl, rfl, .refl w⟩
  have hrollback : ∀ k : Work, Replayed w (w.rollback k) := fun k =>
    ⟨rfl, rfl, rfl, .of_rows fun _ => rfl⟩
  simp only [step, executeSignal]
  split
  · exact ⟨w, hself, .inr ⟨hw, _, rfl⟩⟩
  · next submission hsub =>
    split
    · exact ⟨w, hself, .inr ⟨hw, _, rfl⟩⟩
    · next t hfound =>
      have ht := Db.getTradeForSubmission_mem hfound
      split_ifs with hterm hpend
      · exact ⟨w, hself, .inr ⟨hw, _, rfl⟩⟩
      · split
        · next e k _ => exact ⟨_, hrollback k, .inl rfl⟩
        · next k hrun =>
          have hreplayed : replayed env req w = some t := by
            simp [replayed, hsub, hfound, hpend]
          have hk : Handled env w (.executeSignal req io) (w.work t) k := .resolved hreplayed hrun
          have hcommit := Replayed.commit ht hrun hk
          split_ifs with hended
          · exact ⟨_, hcommit, .inr ⟨hw.commit ht hk.frame, _, rfl⟩⟩
          · exact ⟨_, hcommit, .inl (replayResult_world _ _ _)⟩
      · exact ⟨w, hself, .inl (replayResult_world _ _ _)⟩

theorem executeSignal_booked (req : NormalizedExecuteSignalRequest) (io : ExecuteIo)
    (hw : w.WellFormed) :
    ∃ w₁, Replayed w w₁ ∧ FreshBooked io w₁ (step env w (.executeSignal req io)) := by
  obtain ⟨w₁, hre, h | ⟨hw₁, loaded, h⟩⟩ := @executeSignal_cases env w req io hw
  · exact ⟨w₁, hre, .untouched h⟩
  · exact ⟨w₁, hre, h ▸ executeFresh_booked req io loaded hw₁⟩

/-- A request books no close, and clears a streak only when it starts a new attempt. -/
theorem executeSignal_accounts (req : NormalizedExecuteSignalRequest) (io : ExecuteIo)
    (hw : w.WellFormed) : Accounts w ((Step.executeSignal req io).dayLog env w)
      (step env w (.executeSignal req io)) := by
  obtain ⟨w₁, hre, hfresh⟩ := @executeSignal_booked env w req io hw
  have hstreak : clearedStreak io.now w₁ = clearedStreak io.now w := by
    simp only [clearedStreak, Ledger.expiredStreak, hre.safety]
  simp only [Step.dayLog]
  cases hfresh with
  | untouched h => simpa [h, hre.signals, hre.trades] using hre.days
  | refused hsignals htrades h =>
    have hall := hre.days.trans h
    rw [hstreak, List.nil_append] at hall
    rw [if_neg (by rw [hsignals, hre.signals]; simp), if_pos (by rw [htrades, hre.trades]),
      List.append_nil]
    exact hall
  | entered hsignals htrades h =>
    have hall := hre.days.trans h
    rw [hstreak, List.nil_append] at hall
    rw [if_neg (by rw [hsignals, hre.signals]; simp), if_neg (by rw [htrades, hre.trades]; simp)]
    exact hall

/-- Each step changes the rows of the days by what its log says. -/
theorem step_accounts (s : Step) (hw : w.WellFormed) :
    Accounts w (s.dayLog env w) (step env w s) := by
  cases s with
  | executeSignal req io => exact executeSignal_accounts req io hw
  | processOrder data io => exact (processOrder_session data io).accounts hw
  | processExecution data => exact (processExecution_session data).accounts hw
  | closeTrade id reason io => exact (closeTrade_session id reason io).accounts hw
  | reconcileEntryOrders answer io => exact pass_accounts hw rfl
  | reconcileCloseOrders answer io => exact pass_accounts hw rfl
  | reconcileMissingProtection io => exact pass_accounts hw rfl
  | activateKillSwitch now => exact killSwitch_accounts (.inl ⟨now, rfl⟩)
  | resetKillSwitch now => exact killSwitch_accounts (.inr (.inr ⟨now, rfl⟩))
  | killSwitchStatus now => exact killSwitch_accounts (.inr (.inl ⟨now, rfl⟩))
  | settle link state =>
    have hsame : OneSession env w (.settle link state) := .inl rfl
    exact hsame.accounts hw

/-- The log of a run says what its rows hold. -/
theorem run_accounts (ss : List Step) (hw : w.WellFormed) :
    Accounts w (dayLog env w ss) (Runs.run (step env) w ss) := by
  induction ss generalizing w with
  | nil => exact .refl w
  | cons s ss ih => exact (step_accounts s hw).trans (ih (step_effect env s hw).2)

def closedOn (date : Date) (db : Db) : List Trade :=
  db.trades.filter fun t => t.status = pnlRecorded ∧ t.closedAt.map Timestamp.date = some date

/-- The row of a day and what happened on it. -/
structure DayAccounts (log : DayLog) (date : Date) (db : Db) (stat : DailyStat) : Prop where
  netPnl : stat.netPnl.getD 0 = stat.grossPnl.getD 0 - stat.totalFees.getD 0
  closes : stat.winningTrades + stat.losingTrades = (closedOn date db).length
  totalCloses : stat.winningTrades + stat.losingTrades ≤ stat.totalTrades
  totalCreated : (db.trades.countP fun t => t.createdAt.date = date) ≤ stat.totalTrades
  dailyLossPct : stat.dailyLossPct.getD 0 = ((((closedOn date db).filter fun t =>
    t.realizedPnl.getD 0 < 0).filterMap Trade.pnlPct).map fun pct => |pct|).sum
  consecutiveLosses : stat.consecutiveLosses = log.lossStreak date
  symbolWins : (stat.symbolStats.map fun e => e.2.wins).sum = stat.winningTrades
  symbolLosses : (stat.symbolStats.map fun e => e.2.losses).sum = stat.losingTrades

/-- The shares of the trades count the closes of the day and sum up its losses. -/
theorem shares_sum (date : Date) (trades : List Trade) :
    ((trades.map (Trade.share date)).sum.1 + (trades.map (Trade.share date)).sum.2.1 =
        (trades.filter fun t => t.status = pnlRecorded ∧
          t.closedAt.map Timestamp.date = some date).length) ∧
      (trades.map (Trade.share date)).sum.2.2.2 =
        ((((trades.filter fun t => t.status = pnlRecorded ∧
          t.closedAt.map Timestamp.date = some date).filter fun t =>
            t.realizedPnl.getD 0 < 0).filterMap Trade.pnlPct).map fun pct => |pct|).sum := by
  induction trades with
  | nil => exact ⟨rfl, rfl⟩
  | cons t trades ih =>
    obtain ⟨hcount, hsum⟩ := ih
    rw [List.map_cons, List.sum_cons]
    by_cases hclosed : t.status = pnlRecorded ∧ t.closedAt.map Timestamp.date = some date
    · rw [List.filter_cons_of_pos (by simpa using hclosed)]
      by_cases hloss : t.realizedPnl.getD 0 < 0
      · rw [List.filter_cons_of_pos (by simpa using hloss), Trade.share, if_pos hclosed,
          Trade.result, if_pos hloss]
        refine ⟨?_, ?_⟩
        · simp only [Prod.fst_add, Prod.snd_add, List.length_cons]
          omega
        · rw [List.filterMap_cons]
          simp only [Prod.snd_add, hsum]
          cases t.pnlPct with
          | none => simp
          | some pct => rfl
      · rw [List.filter_cons_of_neg (by simpa using hloss), Trade.share, if_pos hclosed,
          Trade.result, if_neg hloss]
        refine ⟨?_, ?_⟩
        · simp only [Prod.fst_add, Prod.snd_add, List.length_cons]
          omega
        · simp only [Prod.snd_add, hsum, zero_add]
    · rw [List.filter_cons_of_neg (by simpa using hclosed), Trade.share, if_neg hclosed, zero_add]
      exact ⟨hcount, hsum⟩

theorem clearedStreak_counted (now : Timestamp) (date : Date) (w : World) :
    DayLog.counted date (clearedStreak now w) = 0 := by
  refine DayLog.counted_none date fun e he => ?_
  obtain ⟨day, -, rfl⟩ := List.mem_map.mp he
  simp

theorem closesOf_counted (date : Date) (w w' : World) :
    DayLog.counted date (closesOf w w') = 0 := by
  refine DayLog.counted_none date fun e he => ?_
  obtain ⟨t, -, ht⟩ := List.mem_filterMap.mp he
  obtain ⟨t', -, ht'⟩ := Option.bind_eq_some_iff.mp ht
  unfold closeEvent at ht'
  split_ifs at ht'
  obtain ⟨closedAt, -, rfl⟩ := Option.map_eq_some_iff.mp ht'
  simp

theorem Step.dayLog_counted (env : Env) (w : World) (date : Date) {s : Step}
    (hs : ∀ req io, s ≠ .executeSignal req io) : DayLog.counted date (s.dayLog env w) = 0 := by
  cases s with
  | executeSignal req io => exact absurd rfl (hs req io)
  | activateKillSwitch now => exact clearedStreak_counted now date w
  | killSwitchStatus now => exact clearedStreak_counted now date w
  | resetKillSwitch now =>
    simp only [Step.dayLog]
    split_ifs
    · simp [DayLog.counted]
    · rfl
  | _ => exact closesOf_counted date w _

/-- The clock shows the day the transaction began still when the trade is counted. -/
def ExecuteIo.OneDay (io : ExecuteIo) : Prop := io.countedAt.date = io.now.date

instance (io : ExecuteIo) : Decidable io.OneDay :=
  inferInstanceAs (Decidable (io.countedAt.date = io.now.date))

/-- A call that gets as far as creating a trade counts it on the day its transaction began. -/
def CountsOnItsDay (env : Env) (w : World) : Step → Prop
  | .executeSignal req io => entryStart env req io w ≠ none → io.OneDay
  | _ => True

instance (env : Env) (w : World) (s : Step) : Decidable (CountsOnItsDay env w s) :=
  match s with
  | .executeSignal req io => inferInstanceAs (Decidable
      (entryStart env req io w ≠ none → io.OneDay))
  | .processOrder _ _ | .processExecution _ | .closeTrade _ _ _ | .reconcileEntryOrders _ _
  | .reconcileCloseOrders _ _ | .reconcileMissingProtection _ | .activateKillSwitch _
  | .resetKillSwitch _ | .killSwitchStatus _ | .settle _ _ => inferInstanceAs (Decidable True)

theorem executeSignal_length (req : NormalizedExecuteSignalRequest) (io : ExecuteIo)
    (hw : w.WellFormed) :
    (step env w (.executeSignal req io)).db.trades.length ≤ w.db.trades.length + 1 := by
  obtain ⟨w₁, hre, hfresh⟩ := @executeSignal_booked env w req io hw
  rw [← hre.trades]
  cases hfresh with
  | untouched h => simp [h]
  | refused _ htrades _ => simp [htrades]
  | entered _ htrades _ => exact htrades.le

/-- A step that counts its trade on its day counts as many trades as it creates. -/
theorem Step.createdOn (s : Step) (date : Date) (hw : w.WellFormed)
    (h : CountsOnItsDay env w s) :
    (step env w s).createdOn date = w.createdOn date + (s.dayLog env w).counted date := by
  obtain ⟨times, htimes, hnow⟩ := (step_commits env s hw).creationTimes_append
  have hcount : (step env w s).createdOn date =
      w.createdOn date + times.countP fun created => created.date = date := by
    rw [World.createdOn, htimes, List.countP_append]
    rfl
  rw [hcount]
  congr 1
  by_cases hs : ∀ req io, s ≠ .executeSignal req io
  · rw [dayLog_counted env w date hs, List.countP_eq_zero]
    intro created hcreated
    obtain ⟨req, io, hreq, -⟩ := hnow created hcreated
    exact absurd hreq (hs req io)
  · push Not at hs
    obtain ⟨req, io, rfl⟩ := hs
    have hone := @executeSignal_length env w req io hw
    have hlength : (step env w (.executeSignal req io)).db.trades.length =
        w.db.trades.length + times.length := by
      have hlen := congrArg List.length htimes
      simpa only [World.creationTimes, List.length_map, List.length_append] using hlen
    simp only [Step.dayLog, DayLog.counted_append]
    have hstreak : DayLog.counted date (if (step env w (.executeSignal req io)).db.signals.length =
        w.db.signals.length then [] else clearedStreak io.now w) = 0 := by
      split_ifs
      · rfl
      · exact clearedStreak_counted io.now date w
    rw [hstreak, Nat.zero_add]
    split_ifs with hsame
    · obtain rfl : times = [] := List.length_eq_zero_iff.mp (by omega)
      rfl
    · obtain ⟨created, rfl⟩ := List.length_eq_one_iff.mp (show times.length = 1 by omega)
      obtain ⟨req', io', hreq, rfl⟩ := hnow created (List.mem_singleton_self _)
      obtain ⟨rfl, rfl⟩ := Step.executeSignal.inj hreq
      have hday : io.countedAt.date = io.now.date := by
        refine h fun hnone => ?_
        obtain ⟨-, -, ids, hpass⟩ | ⟨w₁, signalId, plan, ids, hstart, -⟩ :=
          entryStart_cases env req io hw
        · exact hsame hpass.trades.length_eq.symm
        · rw [hnone] at hstart
          cases hstart
      by_cases hd : io.now.date = date
      · simp [DayLog.counted, hday, hd]
      · simp [DayLog.counted, hday, hd]

/-- In a run whose trades are all counted on their days, each day counts what it created. -/
theorem run_createdOn (ss : List Step) (date : Date) (hw : w.WellFormed)
    (h : Runs.Meets (step env) (CountsOnItsDay env) w ss) :
    (Runs.run (step env) w ss).createdOn date =
      w.createdOn date + (dayLog env w ss).counted date := by
  induction ss generalizing w with
  | nil => rfl
  | cons s ss ih =>
    have hrest := ih (step_effect env s hw).2 h.2
    rw [s.createdOn date hw h.1, Nat.add_assoc, ← DayLog.counted_append] at hrest
    exact hrest

/-- The row of each day accounts for what happened on that day, in every run whose calls
count their trades on the days their transactions began. -/
theorem dayAccounts_run (env : Env) (ss : List Step) (date : Date)
    (h : Runs.Meets (step env) (CountsOnItsDay env) {} ss) :
    DayAccounts (dayLog env {} ss) date (Runs.run (step env) {} ss).db
      ((Runs.run (step env) {} ss).db.ledger.dailyStat date) := by
  have hinit : DayBook [] date {} := ⟨.new date, Nat.zero_le _, rfl⟩
  have hbook := @run_accounts env {} ss wellFormed_init [] date hinit
  have htotal := (daysBooked_run env ss).total date
  rw [List.nil_append] at hbook
  obtain ⟨hcount, hsum⟩ := shares_sum date (Runs.run (step env) {} ss).db.trades
  rw [← htotal] at hcount hsum
  have hcreated : (Runs.run (step env) {} ss).createdOn date ≤
      ((Runs.run (step env) {} ss).db.ledger.dailyStat date).totalTrades := by
    rw [run_createdOn ss date wellFormed_init h]
    simpa [World.createdOn, World.creationTimes] using hbook.counted
  rw [World.createdOn, World.creationTimes, List.countP_map] at hcreated
  exact ⟨hbook.sound.net, hcount, hbook.sound.closes, hcreated, hsum, hbook.streak,
    hbook.sound.symbolWins, hbook.sound.symbolLosses⟩

/-- A trade of the first day, counted on it. -/
theorem dayAccounts_filled : DayAccounts
    (dayLog (demoEnv .takerAllowed) {} (filledEntryRun (.accepted none))) 0
    (Runs.run (step (demoEnv .takerAllowed)) {} (filledEntryRun (.accepted none))).db
    ((Runs.run (step (demoEnv .takerAllowed)) {} (filledEntryRun (.accepted none))).db.ledger.dailyStat
      0) :=
  dayAccounts_run _ _ _ (by decide +kernel)

/-- The transaction begins in the last microsecond of the first day, the trade is counted in
the first one of the next. -/
def midnightExecute : ExecuteIo :=
  { demoExecute (.accepted none) (.ok none) with now := 86399999999, countedAt := 86400000000 }

/-- The trade of the first day is counted on the second. -/
theorem dayAccounts_fails : ¬ DayAccounts
    (dayLog (demoEnv .takerAllowed) {} [.executeSignal demoRequest midnightExecute]) 0
    (Runs.run (step (demoEnv .takerAllowed)) {} [.executeSignal demoRequest midnightExecute]).db
    ((Runs.run (step (demoEnv .takerAllowed)) {}
      [.executeSignal demoRequest midnightExecute]).db.ledger.dailyStat 0) := by
  intro h
  exact absurd h.totalCreated (by decide +kernel)

end AmaExecutionCore
