import AmaExecutionCore.RowSessions
import AmaExecutionCore.Columns
import AmaExecutionCore.Days

/-! Two database sessions on the row of one day: each closes a trade or creates one. -/
namespace AmaExecutionCore

/-- The row after the session wrote `new` over what it had loaded. -/
def DailyStat.overwrite (loaded new row : DailyStat) : DailyStat where
  statDate := row.statDate
  totalTrades := written loaded.totalTrades new.totalTrades row.totalTrades
  winningTrades := written loaded.winningTrades new.winningTrades row.winningTrades
  losingTrades := written loaded.losingTrades new.losingTrades row.losingTrades
  consecutiveLosses := written loaded.consecutiveLosses new.consecutiveLosses row.consecutiveLosses
  grossPnl := written loaded.grossPnl new.grossPnl row.grossPnl
  totalFees := written loaded.totalFees new.totalFees row.totalFees
  netPnl := written loaded.netPnl new.netPnl row.netPnl
  dailyLossPct := written loaded.dailyLossPct new.dailyLossPct row.dailyLossPct
  symbolStats := written loaded.symbolStats new.symbolStats row.symbolStats
  circuitBreakerTriggered :=
    written loaded.circuitBreakerTriggered new.circuitBreakerTriggered row.circuitBreakerTriggered

def DailyStat.countTrade (stat : DailyStat) : DailyStat :=
  { stat with totalTrades := stat.totalTrades + 1 }

/-- What a session does to the row of the day before it commits. -/
inductive DayTask where
  | close (trade : Trade) (realizedPnl : Rat)
  | create

open RowSessions in
/-- `apply_trade_outcome_analytics` and `increment_daily_trade_count`, statement by
statement. -/
def DayTask.ops : DayTask → List (Op DailyStat)
  | close trade realizedPnl =>
    [.ensure, .select,
      .flush fun loaded row => loaded.overwrite (bookOutcome trade realizedPnl loaded) row, .commit]
  | create => [.ensure, .update DailyStat.countTrade, .ensure, .select, .commit]

/-- What the task makes of the row when nothing else happens. -/
def DayTask.effect : DayTask → DailyStat → DailyStat
  | close trade realizedPnl => bookOutcome trade realizedPnl
  | create => DailyStat.countTrade

/-- The columns of the day. -/
def DailyStat.figures (stat : DailyStat) : DayOutcome × Nat := (stat.outcome, stat.totalTrades)

def daySessions (start : Option DailyStat) (tasks : Bool → DayTask) : RowSessions.State DailyStat where
  committed := start
  sessions := fun who => { ops := (tasks who).ops }

def runDay (date : Date) (start : Option DailyStat) (tasks : Bool → DayTask) (turns : List Bool) :
    RowSessions.State DailyStat :=
  Runs.run (RowSessions.step { statDate := date }) (daySessions start tasks) turns

/-- One session from its first statement to its commit, then the other. -/
def oneByOne (tasks : Bool → DayTask) (first : Bool) : List Bool :=
  List.replicate (tasks first).ops.length first ++
    List.replicate (tasks !first).ops.length (!first)

/-- The committed row has the figures of one of the two sequential orders. -/
def OutcomesReflected (date : Date) (start : Option DailyStat) (tasks : Bool → DayTask)
    (turns : List Bool) : Prop :=
  ∃ first, (runDay date start tasks turns).committed.map DailyStat.figures =
    (runDay date start tasks (oneByOne tasks first)).committed.map DailyStat.figures

/-- When a session writes back its copy of the row, the row is still as it was loaded, or
one creation was counted meanwhile and the copy had at least as many trades as closed ones. -/
def CopyUpToDate (s : RowSessions.State DailyStat) (who : Bool) : Prop :=
  match (s.sessions who).ops with
  | .flush _ :: _ => ¬ s.Locked who → ∀ copy ∈ (s.sessions who).loaded, ∀ row ∈ s.visible who,
    row = copy ∨ (row = copy.countTrade ∧
      copy.winningTrades + copy.losingTrades ≤ copy.totalTrades)
  | _ => True

instance (s : RowSessions.State DailyStat) (who : Bool) : Decidable (CopyUpToDate s who) := by
  unfold CopyUpToDate
  split <;> infer_instance

theorem bookOutcome_alone (trade : Trade) (pnl : Rat) (stat : DailyStat) :
    stat.overwrite (bookOutcome trade pnl stat) stat = bookOutcome trade pnl stat := by
  have hdate : (bookOutcome trade pnl stat).statDate = stat.statDate :=
    Ledger.bookOutcome_statDate trade pnl stat
  simp only [DailyStat.overwrite, written_self, ← hdate]

theorem DayTask.effect_ledger (date : Date) (l : Ledger) : (∀ trade pnl,
    (l.updateDailyStat date (bookOutcome trade pnl)).dailyStat date =
      (DayTask.close trade pnl).effect (l.dailyStat date)) ∧
    (l.incrementDailyTradeCount date).dailyStat date = DayTask.create.effect (l.dailyStat date) := by
  refine ⟨fun trade pnl => ?_, ?_⟩
  · rw [Ledger.dailyStat_update date date _ (Ledger.bookOutcome_statDate trade pnl), if_pos rfl]
    rfl
  · have hrow := Ledger.dailyStat_update date date DailyStat.countTrade (fun _ => rfl) l
    rw [if_pos rfl] at hrow
    exact hrow

/-- A session that runs alone makes its change of the committed row. -/
theorem runDay_alone (date : Date) (task : DayTask) (who : Bool)
    (s : RowSessions.State DailyStat) (hfree : s.draft = none)
    (hops : s.sessions who = { ops := task.ops }) :
    ∃ c, c.ops = [] ∧ Runs.run (RowSessions.step { statDate := date }) s
      (List.replicate task.ops.length who) = { s.withSession who c with
        committed := some (task.effect (s.committed.getD { statDate := date })), draft := none } := by
  obtain ⟨committed, draft, sessions⟩ := s
  obtain rfl : draft = none := hfree
  dsimp only at hops
  refine ⟨⟨[], ?_⟩, rfl, ?_⟩
  · exact match task with
      | .close _ _ => some (committed.getD { statDate := date })
      | .create => some (committed.getD { statDate := date }).countTrade
  · cases task <;> cases committed <;>
      simp [Runs.run, RowSessions.step, hops, DayTask.ops, DayTask.effect, bookOutcome_alone,
        RowSessions.State.visible, RowSessions.State.Locked, RowSessions.State.goOn,
        RowSessions.State.withSession]
    all_goals
      funext w
      by_cases hw : w = who <;> simp [hw]

theorem runDay_oneByOne (date : Date) (start : Option DailyStat) (tasks : Bool → DayTask)
    (first : Bool) : (runDay date start tasks (oneByOne tasks first)).committed =
      some (RowSessions.serialValue (fun who => (tasks who).effect)
        (start.getD { statDate := date }) [first, !first]) := by
  have hne : (!first) ≠ first := by simp
  obtain ⟨c, hc, hrun⟩ := runDay_alone date (tasks first) first (daySessions start tasks) rfl rfl
  unfold runDay oneByOne
  rw [Runs.run, List.foldl_append]
  rw [Runs.run] at hrun
  rw [hrun]
  obtain ⟨c', hc', hrun'⟩ := runDay_alone date (tasks !first) (!first)
    { (daySessions start tasks).withSession first c with
      committed := some ((tasks first).effect ((daySessions start tasks).committed.getD
        { statDate := date })), draft := none } rfl
    (by simp [RowSessions.State.withSession, daySessions])
  rw [Runs.run] at hrun'
  rw [hrun']
  rfl

theorem DayTask.unwritten (task : DayTask) :
    RowSessions.Unwritten task.effect false task.ops ∧
      ∃ ops, task.ops = RowSessions.Op.ensure :: ops := by
  cases task with
  | close trade pnl =>
    exact ⟨.ensure (.select (.flush rfl (bookOutcome_alone trade pnl) .commit)), _, rfl⟩
  | create => exact ⟨.ensure (.update (.ensure (.select .commit))), _, rfl⟩

/-- How often a symbol's closed trades were counted. -/
def DailyStat.closedOf (key : String) (stat : DailyStat) : Nat :=
  ((stat.symbolStats.lookup key).getD {}).wins + ((stat.symbolStats.lookup key).getD {}).losses

theorem lookup_filter_ne {key key' : String} (h : key' ≠ key) (l : List (String × SymbolStats)) :
    (l.filter fun e => e.1 ≠ key).lookup key' = l.lookup key' := by
  induction l with
  | nil => rfl
  | cons e l ih =>
    obtain ⟨k, v⟩ := e
    by_cases hk : k = key
    · subst hk
      rw [List.filter_cons_of_neg (by simp), ih, List.lookup_cons, beq_eq_false_iff_ne.mpr h]
    · rw [List.filter_cons_of_pos (by simpa using hk), List.lookup_cons, List.lookup_cons, ih]

theorem bookOutcome_closedOf (trade : Trade) (pnl : Rat) (stat : DailyStat) (key : String) :
    (bookOutcome trade pnl stat).closedOf key =
      stat.closedOf key + if key = symbolKey trade.symbol then 1 else 0 := by
  have hupdate : ∀ (isWin : Bool) (s : DailyStat), s.symbolStats = stat.symbolStats →
      (updateSymbolStats trade.symbol isWin s).closedOf key =
        stat.closedOf key + if key = symbolKey trade.symbol then 1 else 0 := by
    intro isWin s hs
    simp only [DailyStat.closedOf, updateSymbolStats, hs]
    by_cases hk : key = symbolKey trade.symbol
    · subst hk
      rw [List.lookup_cons, beq_self_eq_true, if_pos rfl]
      cases isWin <;> simp only [Option.getD_some, if_true, Bool.false_eq_true, if_false] <;> omega
    · rw [List.lookup_cons, beq_eq_false_iff_ne.mpr hk, if_neg hk]
      simp only [lookup_filter_ne hk]
      rfl
  have hbook : ∃ isWin s, s.symbolStats = stat.symbolStats ∧
      bookOutcome trade pnl stat = updateSymbolStats trade.symbol isWin s := by
    simp only [bookOutcome]
    split_ifs <;> (refine ⟨_, _, ?_, rfl⟩; rfl)
  obtain ⟨isWin, s, hs, heq⟩ := hbook
  rw [heq, hupdate isWin s hs]

theorem DailyStat.closedOf_figures {stat stat' : DailyStat} (h : stat'.figures = stat.figures)
    (key : String) : stat'.closedOf key = stat.closedOf key := by
  have hsymbols : stat'.symbolStats = stat.symbolStats := congrArg (fun f => f.1.symbolStats) h
  simp only [closedOf, hsymbols]

/-- Booking over a change of the other session loses it, unless that change was one
creation and the copy had at least as many trades as closed ones. -/
theorem overwrite_figures {trade : Trade} {pnl : Rat} {task : DayTask} {stat : DailyStat}
    (h : ¬ (task.effect stat = stat.countTrade ∧
      stat.winningTrades + stat.losingTrades ≤ stat.totalTrades)) :
    (stat.overwrite (bookOutcome trade pnl stat) (task.effect stat)).figures ≠
        (task.effect (bookOutcome trade pnl stat)).figures ∧
      (stat.overwrite (bookOutcome trade pnl stat) (task.effect stat)).figures ≠
        (bookOutcome trade pnl (task.effect stat)).figures := by
  cases task with
  | close trade' pnl' =>
    -- the symbol of the other trade is counted once less than one after the other
    have hcount := fun key => bookOutcome_closedOf trade pnl stat key
    have hcount' := fun stat => bookOutcome_closedOf trade' pnl' stat (symbolKey trade'.symbol)
    have hsymbols : (stat.overwrite (bookOutcome trade pnl stat)
        (bookOutcome trade' pnl' stat)).symbolStats = (bookOutcome trade pnl stat).symbolStats := by
      refine if_neg fun hsame => ?_
      have hone := hcount (symbolKey trade.symbol)
      rw [if_pos rfl] at hone
      simp only [DailyStat.closedOf, hsame] at hone
      omega
    have hlost : (stat.overwrite (bookOutcome trade pnl stat)
        (bookOutcome trade' pnl' stat)).closedOf (symbolKey trade'.symbol) =
          (bookOutcome trade pnl stat).closedOf (symbolKey trade'.symbol) := by
      simp only [DailyStat.closedOf, hsymbols]
    refine ⟨fun heq => ?_, fun heq => ?_⟩
    · have hsame := DailyStat.closedOf_figures heq (symbolKey trade'.symbol)
      dsimp only [DayTask.effect] at hsame
      rw [hlost, hcount', if_pos rfl] at hsame
      omega
    · have hsame := DailyStat.closedOf_figures heq (symbolKey trade'.symbol)
      dsimp only [DayTask.effect] at hsame
      rw [hlost, bookOutcome_closedOf, bookOutcome_closedOf, hcount', if_pos rfl] at hsame
      omega
  | create =>
    have hfew : stat.totalTrades < stat.winningTrades + stat.losingTrades := by
      by_contra hle
      exact h ⟨rfl, Nat.not_lt.mp hle⟩
    have htotal : ∀ s : DailyStat, s.totalTrades ≤ s.winningTrades + s.losingTrades →
        (bookOutcome trade pnl s).totalTrades = s.totalTrades + 1 := by
      intro s hs
      simp only [bookOutcome, if_pos hs]
      split_ifs <;> rfl
    have hlost : (stat.overwrite (bookOutcome trade pnl stat) stat.countTrade).totalTrades =
        stat.totalTrades + 1 := by
      simp only [DailyStat.overwrite, htotal stat hfew.le, written]
      rw [if_neg (Nat.succ_ne_self _)]
    refine ⟨fun heq => ?_, fun heq => ?_⟩
    · have hsame := congrArg Prod.snd heq
      simp only [DailyStat.figures, DayTask.effect, hlost] at hsame
      simp only [DailyStat.countTrade, htotal stat hfew.le] at hsame
      omega
    · have hsame := congrArg Prod.snd heq
      simp only [DailyStat.figures, DayTask.effect, hlost] at hsame
      rw [htotal stat.countTrade hfew] at hsame
      simp only [DailyStat.countTrade] at hsame
      omega

/-- A copy that is up to date is written back as if it had just been loaded. -/
theorem overwrite_clean {trade : Trade} {pnl : Rat} {copy row : DailyStat}
    (h : row = copy ∨ (row = copy.countTrade ∧
      copy.winningTrades + copy.losingTrades ≤ copy.totalTrades)) :
    copy.overwrite (bookOutcome trade pnl copy) row = row.overwrite (bookOutcome trade pnl row) row := by
  obtain rfl | ⟨rfl, hmany⟩ := h
  · rfl
  · rw [bookOutcome_alone]
    have hopen : ¬ copy.totalTrades + 1 ≤ copy.winningTrades + copy.losingTrades := by omega
    have hbook : bookOutcome trade pnl copy.countTrade =
        { bookOutcome trade pnl copy with totalTrades := copy.totalTrades + 1 } := by
      simp only [bookOutcome, DailyStat.countTrade, hopen, if_false]
      split_ifs <;> rfl
    have htotal : written copy.totalTrades (bookOutcome trade pnl copy).totalTrades
        copy.countTrade.totalTrades = copy.totalTrades + 1 := by
      have hnew : (bookOutcome trade pnl copy).totalTrades = copy.totalTrades ∨
          (bookOutcome trade pnl copy).totalTrades = copy.totalTrades + 1 := by
        simp only [bookOutcome]
        split_ifs <;> simp [updateSymbolStats]
      obtain hnew | hnew := hnew
      · rw [hnew, written_same]
        rfl
      · rw [hnew]
        exact if_neg (Nat.succ_ne_self _)
    have hdate : (bookOutcome trade pnl copy).statDate = copy.statDate :=
      Ledger.bookOutcome_statDate trade pnl copy
    rw [hbook]
    simp only [DailyStat.overwrite, htotal, hdate]
    simp only [DailyStat.countTrade, written_self]

theorem DayTask.flush_of_suffix {task : DayTask} {write : DailyStat → DailyStat → DailyStat}
    {ops : List (RowSessions.Op DailyStat)} (h : .flush write :: ops <:+ task.ops) :
    ∃ trade pnl, task = .close trade pnl ∧
      write = fun loaded row => loaded.overwrite (bookOutcome trade pnl loaded) row := by
  cases task with
  | close trade pnl =>
    simp only [DayTask.ops, List.suffix_cons_iff, List.cons.injEq, reduceCtorEq, false_and, false_or,
      RowSessions.Op.flush.injEq, List.suffix_nil, or_false] at h
    exact ⟨trade, pnl, rfl, h.1⟩
  | create =>
    simp [DayTask.ops, List.suffix_cons_iff] at h

theorem CopyUpToDate.clean {tasks : Bool → DayTask} {s : RowSessions.State DailyStat} {who : Bool}
    (h : CopyUpToDate s who) (hops : ∀ w, (s.sessions w).ops <:+ (tasks w).ops) :
    RowSessions.Clean s who := by
  intro write ops heq hlock copy row hcopy hrow
  obtain ⟨trade, pnl, -, rfl⟩ := DayTask.flush_of_suffix (heq ▸ hops who)
  unfold CopyUpToDate at h
  rw [heq] at h
  exact overwrite_clean (h hlock copy hcopy row hrow)

/-- From a serial state on, the two changes end up in the row exactly when every copy that
is written back is up to date. -/
theorem reflected_of_serial {fresh : DailyStat} {start : Option DailyStat}
    {tasks : Bool → DayTask} {done : List Bool} {s : RowSessions.State DailyStat}
    (h : RowSessions.Serial fresh start (fun who => (tasks who).effect) done s)
    (hops : ∀ w, (s.sessions w).ops <:+ (tasks w).ops) {turns : List Bool}
    (hfin : (Runs.run (RowSessions.step fresh) s turns).Finished) :
    (∃ first, (Runs.run (RowSessions.step fresh) s turns).committed.map DailyStat.figures =
      some (RowSessions.serialValue (fun who => (tasks who).effect) (start.getD fresh)
        [first, !first]).figures) ↔
    Runs.Meets (RowSessions.step fresh) CopyUpToDate s turns := by
  induction turns generalizing s done with
  | nil =>
    obtain ⟨first, hcom⟩ := h.finished hfin
    exact iff_of_true ⟨first, by rw [Runs.run, List.foldl_nil, hcom]; rfl⟩ True.intro
  | cons who turns ih =>
    by_cases hup : CopyUpToDate s who
    · obtain ⟨done', h'⟩ := h.step who (hup.clean hops)
      have hops' : ∀ w, ((RowSessions.step fresh s who).sessions w).ops <:+ (tasks w).ops :=
        fun w => (RowSessions.step_suffix fresh s who w).trans (hops w)
      rw [show Runs.run (RowSessions.step fresh) s (who :: turns) =
        Runs.run (RowSessions.step fresh) (RowSessions.step fresh s who) turns from rfl, ih h' hops' hfin]
      exact ⟨fun hm => ⟨hup, hm⟩, fun hm => hm.2⟩
    · refine iff_of_false ?_ fun hm => hup hm.1
      have hbad : ∃ write ops, (s.sessions who).ops = .flush write :: ops ∧ ¬ s.Locked who ∧
          ∃ copy, (s.sessions who).loaded = some copy ∧ ∃ row, s.visible who = some row ∧
            ¬ (row = copy ∨ (row = copy.countTrade ∧
              copy.winningTrades + copy.losingTrades ≤ copy.totalTrades)) := by
        unfold CopyUpToDate at hup
        split at hup
        · next write ops heq =>
          push Not at hup
          obtain ⟨hlock, copy, hcopy, row, hrow, hne, hmany⟩ := hup
          exact ⟨write, ops, heq, hlock, copy, hcopy, row, hrow, by
            rintro (rfl | ⟨heq, hle⟩)
            · exact hne rfl
            · exact absurd (hmany heq) (by omega)⟩
        · exact absurd True.intro hup
      obtain ⟨write, ops, heq, hlock, copy, hcopy, row, hrow, hold⟩ := hbad
      obtain ⟨trade, pnl, htask, rfl⟩ := DayTask.flush_of_suffix (heq ▸ hops who)
      obtain ⟨rfl, rfl, hheld⟩ := h.outdated heq hlock hcopy hrow fun hsame => hold (.inl hsame)
      have hcom := (hheld.run turns).finished hfin
      obtain ⟨hfirst, hsecond⟩ := @overwrite_figures trade pnl (tasks !who) (start.getD fresh)
        fun hb => hold (.inr hb)
      rintro ⟨first, hsame⟩
      rw [show Runs.run (RowSessions.step fresh) s (who :: turns) =
        Runs.run (RowSessions.step fresh) (RowSessions.step fresh s who) turns from rfl, hcom] at hsame
      have hsame := Option.some.inj hsame
      by_cases hf : first = who
      · subst hf
        refine hfirst (hsame.trans ?_)
        simp only [RowSessions.serialValue, List.foldl_cons, List.foldl_nil, htask, DayTask.effect]
      · obtain rfl := Bool.eq_not.mpr hf
        refine hsecond (hsame.trans ?_)
        simp only [RowSessions.serialValue, List.foldl_cons, List.foldl_nil, Bool.not_not, htask,
          DayTask.effect]

/-- The committed row has both changes, as the functions of the ledger make them
(`DayTask.effect_ledger`), exactly when every copy that is written back is up to date. -/
theorem outcomesReflected_iff (date : Date) (start : Option DailyStat) (tasks : Bool → DayTask)
    (turns : List Bool) (hfin : (runDay date start tasks turns).Finished) :
    OutcomesReflected date start tasks turns ↔
      Runs.Meets (RowSessions.step { statDate := date }) CopyUpToDate (daySessions start tasks)
        turns := by
  have hinit : RowSessions.Serial { statDate := date } start (fun who => (tasks who).effect) []
      (daySessions start tasks) := .init fun who => ⟨rfl, (tasks who).unwritten⟩
  rw [← reflected_of_serial hinit (fun w => List.suffix_refl _) hfin]
  unfold OutcomesReflected
  simp only [runDay_oneByOne, Option.map_some]
  rfl

/-- A losing trade of a day with two open trades. -/
def losingTrade (id : TradeId) : Trade where
  id := id
  symbol := "BTCUSDT"
  signalDirection := .long
  exchangeSide := .buy
  marketType := .spot
  mode := .demo
  createdAt := 0
  status := .pnlRecorded
  realizedPnl := some (-10)
  pnlPct := some (-1 / 100)
  closedAt := some 0

def twoOpen : DailyStat where
  statDate := 0
  totalTrades := 2

/-- A trade is created while another is being closed. -/
theorem outcomesReflected_created : OutcomesReflected 0 (some twoOpen)
    (fun who => if who then .create else .close (losingTrade 1) (-10))
    [false, false, true, true, true, true, true, false, false] :=
  (outcomesReflected_iff 0 (some twoOpen) _ _ (by unfold RowSessions.State.Finished; decide +kernel)).mpr
    (by decide +kernel)

/-- Two trades are closed at once: one of the losses is gone. -/
theorem outcomesReflected_fails :
    (runDay 0 (some twoOpen) (fun who => .close (losingTrade (if who then 1 else 2)) (-10))
      [false, false, true, true, false, false, true, true]).Finished ∧
    ¬ OutcomesReflected 0 (some twoOpen)
      (fun who => .close (losingTrade (if who then 1 else 2)) (-10))
      [false, false, true, true, false, false, true, true] := by
  refine ⟨by unfold RowSessions.State.Finished; decide +kernel, ?_⟩
  rintro ⟨first, h⟩
  cases first <;> exact absurd h (by decide +kernel)

end AmaExecutionCore
