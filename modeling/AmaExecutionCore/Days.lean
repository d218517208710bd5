import AmaExecutionCore.SafetyGuard

/-! The rows of the days: one row a day, and the columns of it that closed trades
add up to. -/
namespace AmaExecutionCore

structure DayOutcome where
  winningTrades : Nat
  losingTrades : Nat
  grossPnl : Option Rat
  totalFees : Option Rat
  netPnl : Option Rat
  dailyLossPct : Option Rat
  symbolStats : List (String × SymbolStats)
  deriving DecidableEq, Repr

def DailyStat.outcome (stat : DailyStat) : DayOutcome :=
  ⟨stat.winningTrades, stat.losingTrades, stat.grossPnl, stat.totalFees, stat.netPnl,
    stat.dailyLossPct, stat.symbolStats⟩

namespace Ledger

def outcome (date : Date) (l : Ledger) : DayOutcome := (l.dailyStat date).outcome

/-- `stat_date` is unique. -/
def OneRowPerDay (l : Ledger) : Prop := (l.dailyStats.map DailyStat.statDate).Nodup

theorem dailyStat_ensure (date date' : Date) (l : Ledger) :
    (l.ensureDailyStat date).dailyStat date' = l.dailyStat date' := by
  unfold ensureDailyStat
  split_ifs with h
  · rfl
  · unfold dailyStat
    rw [List.find?_append]
    cases hfind : l.dailyStats.find? (fun stat => stat.statDate = date') with
    | some stat => rfl
    | none =>
      by_cases hd : date = date'
      · simp [hd]
      · simp [hd]

theorem dailyStat_update (date date' : Date) (f : DailyStat → DailyStat)
    (hf : ∀ stat, (f stat).statDate = stat.statDate) (l : Ledger) :
    (l.updateDailyStat date f).dailyStat date' =
      if date' = date then f (l.dailyStat date) else l.dailyStat date' := by
  have hmem : ∃ stat ∈ (l.ensureDailyStat date).dailyStats, stat.statDate = date := by
    unfold ensureDailyStat
    split_ifs with h
    · simpa using h
    · exact ⟨{ statDate := date }, by simp, rfl⟩
  rw [← dailyStat_ensure date date l, ← dailyStat_ensure date date' l]
  unfold updateDailyStat dailyStat
  generalize (l.ensureDailyStat date).dailyStats = rows at hmem
  have hkeep : (fun stat : DailyStat => decide (stat.statDate = date')) ∘
      (fun stat => if stat.statDate = date then f stat else stat) =
        fun stat => decide (stat.statDate = date') := by
    funext stat
    dsimp only [Function.comp]
    split_ifs <;> simp [hf]
  dsimp only
  rw [List.find?_map, hkeep]
  by_cases hd : date' = date
  · subst hd
    obtain ⟨stat, hfind⟩ : ∃ stat, rows.find? (fun stat => stat.statDate = date') = some stat := by
      obtain ⟨stat, hstat, hdate⟩ := hmem
      cases hfind : rows.find? (fun stat => stat.statDate = date') with
      | some found => exact ⟨found, rfl⟩
      | none => exact absurd hdate (by simpa using List.find?_eq_none.mp hfind stat hstat)
    have hdate : stat.statDate = date' := by simpa using List.find?_some hfind
    simp [hfind, hdate]
  · cases hfind : rows.find? (fun stat => stat.statDate = date') with
    | none => simp [hd]
    | some stat =>
      have hdate : stat.statDate = date' := by simpa using List.find?_some hfind
      simp [hdate, hd]

theorem oneRow_ensure {date : Date} {l : Ledger} (h : l.OneRowPerDay) :
    (l.ensureDailyStat date).OneRowPerDay := by
  unfold ensureDailyStat
  split_ifs with hany
  · exact h
  · unfold OneRowPerDay
    rw [List.map_append, List.nodup_append]
    refine ⟨h, by simp, ?_⟩
    intro a ha b hb
    obtain ⟨stat, hstat, rfl⟩ := List.mem_map.mp ha
    obtain rfl : b = date := by simpa using hb
    intro hd
    exact hany (List.any_eq_true.mpr ⟨stat, hstat, by simpa using hd⟩)

theorem oneRow_update {date : Date} {f : DailyStat → DailyStat}
    (hf : ∀ stat, (f stat).statDate = stat.statDate) {l : Ledger} (h : l.OneRowPerDay) :
    (l.updateDailyStat date f).OneRowPerDay := by
  have hkeep : ((l.updateDailyStat date f).dailyStats.map DailyStat.statDate) =
      (l.ensureDailyStat date).dailyStats.map DailyStat.statDate := by
    unfold updateDailyStat
    rw [List.map_map]
    refine List.map_congr_left fun stat _ => ?_
    dsimp only [Function.comp]
    split_ifs
    · exact hf stat
    · rfl
  unfold OneRowPerDay
  rw [hkeep]
  exact oneRow_ensure h

/-- No outcome of a day changed. -/
structure SameDays (l l' : Ledger) : Prop where
  outcome : ∀ date, l'.outcome date = l.outcome date
  oneRow : l.OneRowPerDay → l'.OneRowPerDay

namespace SameDays

theorem refl (l : Ledger) : l.SameDays l := ⟨fun _ => rfl, id⟩

theorem trans {l l' l'' : Ledger} (h : l.SameDays l') (h' : l'.SameDays l'') : l.SameDays l'' :=
  ⟨fun date => (h'.outcome date).trans (h.outcome date), fun ho => h'.oneRow (h.oneRow ho)⟩

theorem of_dailyStats {l l' : Ledger} (h : l'.dailyStats = l.dailyStats) : l.SameDays l' :=
  ⟨fun date => by simp [Ledger.outcome, dailyStat, h], fun ho => by rw [OneRowPerDay, h]; exact ho⟩

theorem ensure (date : Date) (l : Ledger) : l.SameDays (l.ensureDailyStat date) :=
  ⟨fun date' => by rw [Ledger.outcome, dailyStat_ensure, Ledger.outcome], oneRow_ensure⟩

theorem update (date : Date) (f : DailyStat → DailyStat) (l : Ledger)
    (hf : ∀ stat, (f stat).statDate = stat.statDate) (ho : ∀ stat, (f stat).outcome = stat.outcome) :
    l.SameDays (l.updateDailyStat date f) := by
  refine ⟨fun date' => ?_, oneRow_update hf⟩
  rw [Ledger.outcome, dailyStat_update date date' f hf]
  split_ifs with hd
  · rw [ho, hd, Ledger.outcome]
  · rfl

theorem resetConsecutiveLosses (date : Date) (l : Ledger) :
    l.SameDays (l.resetConsecutiveLosses date) :=
  update date (fun stat => { stat with consecutiveLosses := 0 }) l (fun _ => rfl) fun _ => rfl

theorem incrementDailyTradeCount (date : Date) (l : Ledger) :
    l.SameDays (l.incrementDailyTradeCount date) :=
  update date (fun stat => { stat with totalTrades := stat.totalTrades + 1 }) l (fun _ => rfl)
    fun _ => rfl

theorem clearPauseIfExpired (now : Timestamp) (l : Ledger) :
    l.SameDays (l.clearPauseIfExpired now) := by
  unfold Ledger.clearPauseIfExpired
  split
  · split_ifs
    · exact (resetConsecutiveLosses _ l).trans (of_dailyStats rfl)
    · exact refl l
  · exact refl l

theorem resetSafetyState (resetLosses : Bool) (now : Timestamp) (l : Ledger) :
    l.SameDays (l.resetSafetyState resetLosses now) := by
  simp only [Ledger.resetSafetyState]
  split_ifs
  · exact (resetConsecutiveLosses _ l).trans (of_dailyStats rfl)
  · exact of_dailyStats rfl

theorem trip {reason : PauseReason} {manual : Bool} {cooldownUntil : Option Timestamp}
    {description : String} {now : Timestamp} {l l' : Ledger} {e : PyError}
    (h : AmaExecutionCore.trip reason manual cooldownUntil description now l = .error (e, some l')) :
    l.SameDays l' := by
  simp only [AmaExecutionCore.trip, Except.error.injEq, Prod.mk.injEq, Option.some.injEq] at h
  rw [← h.2]
  exact of_dailyStats rfl

theorem circuitBreakerCheck {s : Settings} {now : Timestamp} {l l' : Ledger} {e : PyError}
    (h : AmaExecutionCore.circuitBreakerCheck s now l = .error (e, some l')) : l.SameDays l' := by
  have hseen : l.SameDays ((l.ensureDailyStat now.date).clearPauseIfExpired now) :=
    (ensure now.date l).trans (clearPauseIfExpired now _)
  simp only [AmaExecutionCore.circuitBreakerCheck] at h
  split at h
  · simp at h
  · split_ifs at h
    · simp at h
    · have hmark := update now.date (fun stat => { stat with circuitBreakerTriggered := true })
        ((l.ensureDailyStat now.date).clearPauseIfExpired now) (fun _ => rfl) fun _ => rfl
      exact hseen.trans (hmark.trans (trip h))
    · exact hseen.trans (trip h)
    · exact hseen.trans (trip h)
    · exact hseen.trans (trip h)

end SameDays

theorem bookOutcome_statDate (trade : Trade) (pnl : Rat) (stat : DailyStat) :
    (bookOutcome trade pnl stat).statDate = stat.statDate := by
  simp only [bookOutcome, updateSymbolStats]
  split_ifs <;> rfl

theorem bookOutcome_consecutiveLosses (trade : Trade) (pnl : Rat) (stat : DailyStat) :
    (bookOutcome trade pnl stat).consecutiveLosses =
      if pnl < 0 then stat.consecutiveLosses + 1 else 0 := by
  simp only [bookOutcome, updateSymbolStats]
  split_ifs <;> rfl

end Ledger
end AmaExecutionCore
