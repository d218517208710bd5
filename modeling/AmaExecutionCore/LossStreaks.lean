import AmaExecutionCore.SafetyRuns

/-! The losses of a day that are booked in a row, and the hard pause they lead to. -/
namespace AmaExecutionCore

/-- The losing closes of a day in a row, and whether there were enough for the hard
pause since the last reset. -/
structure Streak where
  losses : Nat := 0
  reached : Bool := false
  deriving DecidableEq, Repr

namespace Streak

def isHard (s : Settings) (g : Streak) : Prop :=
  g.reached = true ∨ s.hardPauseConsecutiveLosses ≤ g.losses

instance (s : Settings) (g : Streak) : Decidable (g.isHard s) :=
  inferInstanceAs (Decidable (g.reached = true ∨ s.hardPauseConsecutiveLosses ≤ g.losses))

/-- The next loss is the first of a new streak. -/
def broken (s : Settings) (g : Streak) : Streak := ⟨0, g.isHard s⟩

/-- The closes booked on `date` and the resets, and nothing else. -/
def book (s : Settings) (date : Date) (g : Streak) : SafetyAction → Streak
  | .close now trade =>
    match trade.realizedPnl with
    | none => g
    | some pnl =>
      if (trade.closedAt.getD now).date ≠ date then g
      else if pnl < 0 then { g with losses := g.losses + 1 } else g.broken s
  | .reset _ => {}
  | _ => g

end Streak

/-- The actions that clear an expired cooldown before they do anything else. -/
def SafetyAction.clears : SafetyAction → Bool
  | check _ _ | status _ | activate _ => true
  | _ => false

/-- The action finds the cooldown expired whose streak is the one of `date`. -/
def ExpiresStreak (date : Date) (w : World) (a : SafetyAction) : Prop :=
  a.clears = true ∧ w.db.ledger.expiredStreak a.time = some date

instance (date : Date) (w : World) (a : SafetyAction) : Decidable (ExpiresStreak date w a) :=
  inferInstanceAs (Decidable (a.clears = true ∧ w.db.ledger.expiredStreak a.time = some date))

/-- A cooldown that expires ends the streak as well. -/
def Streak.next (s : Settings) (date : Date) (w : World) (g : Streak) (a : SafetyAction) : Streak :=
  if ExpiresStreak date w a then g.broken s else g.book s date a

/-- Wins of the day are the closes that do not lose. -/
def SafetyAction.wins (date : Date) : SafetyAction → Prop
  | .close now trade =>
    ∃ pnl ∈ trade.realizedPnl, 0 ≤ pnl ∧ (trade.closedAt.getD now).date = date
  | _ => False

instance (date : Date) : (a : SafetyAction) → Decidable (a.wins date)
  | .close now trade => inferInstanceAs
      (Decidable (∃ pnl ∈ trade.realizedPnl, 0 ≤ pnl ∧ (trade.closedAt.getD now).date = date))
  | .check _ _ | .status _ | .activate _ | .reset _ => inferInstanceAs (Decidable False)

def ManuallyPaused (w : World) : Prop :=
  ∃ reason ∈ w.db.ledger.safety.pauseReason, reason.isManual = true

instance (w : World) : Decidable (ManuallyPaused w) :=
  inferInstanceAs (Decidable (∃ reason ∈ w.db.ledger.safety.pauseReason, reason.isManual = true))

def lossCount (date : Date) (w : World) : Nat := (w.db.ledger.dailyStat date).consecutiveLosses

/-- While the streak of the day is long enough for the hard pause and no check has set
a manual pause, no winning close is booked and no cooldown expires. -/
def KeepsStreak (s : Settings) (date : Date) (w : World) (a : SafetyAction) : Prop :=
  s.hardPauseConsecutiveLosses ≤ lossCount date w → ¬ ManuallyPaused w →
    ¬ a.wins date ∧ ¬ ExpiresStreak date w a

instance (s : Settings) (date : Date) (w : World) (a : SafetyAction) :
    Decidable (KeepsStreak s date w a) :=
  inferInstanceAs (Decidable (s.hardPauseConsecutiveLosses ≤ lossCount date w →
    ¬ ManuallyPaused w → ¬ a.wins date ∧ ¬ ExpiresStreak date w a))

/-- A check on `date` raises once the streak was long enough. -/
def CheckRaises (s : Settings) (date : Date) (w : World) (g : Streak) : SafetyAction → Prop
  | .check now _ => now.date = date → g.isHard s →
      (circuitBreakerCheck s now w.db.ledger).toOption.isNone = true
  | _ => True

instance (s : Settings) (date : Date) (w : World) (g : Streak) :
    (a : SafetyAction) → Decidable (CheckRaises s date w g a)
  | .check now _ => inferInstanceAs (Decidable (now.date = date → g.isHard s →
      (circuitBreakerCheck s now w.db.ledger).toOption.isNone = true))
  | .status _ | .activate _ | .reset _ | .close _ _ => inferInstanceAs (Decidable True)

/-- The safety rows with the streak of `date` beside them; `follow` says how an action
changes the streak. -/
def streakStep (env : Env) (follow : World → Streak → SafetyAction → Streak) (p : World × Streak)
    (a : SafetyAction) : World × Streak :=
  (safetyStep env p.1 a, follow p.1 p.2 a)

theorem lossCount_close (env : Env) (date : Date) (w : World) (now : Timestamp) (trade : Trade) :
    lossCount date (safetyStep env w (.close now trade)) =
      match trade.realizedPnl with
      | none => lossCount date w
      | some pnl =>
        if (trade.closedAt.getD now).date ≠ date then lossCount date w
        else if pnl < 0 then lossCount date w + 1 else 0 := by
  cases hpnl : trade.realizedPnl with
  | none => simp only [safetyStep, Work.applyTradeOutcomeAnalytics, World.work, hpnl]; rfl
  | some pnl =>
    have hrow := Ledger.dailyStat_update (trade.closedAt.getD now).date date
      (bookOutcome trade pnl) (Ledger.bookOutcome_statDate trade pnl) w.db.ledger
    have hcount : lossCount date (safetyStep env w (.close now trade)) =
        ((w.db.ledger.updateDailyStat (trade.closedAt.getD now).date
          (bookOutcome trade pnl)).dailyStat date).consecutiveLosses := by
      simp only [safetyStep, Work.applyTradeOutcomeAnalytics, World.work, hpnl]
      rfl
    rw [hcount, hrow]
    dsimp only
    by_cases hd : (trade.closedAt.getD now).date = date
    · rw [if_pos hd.symm, if_neg (not_not.mpr hd), Ledger.bookOutcome_consecutiveLosses, hd]
      rfl
    · rw [if_neg fun h => hd h.symm, if_pos hd]
      rfl

theorem lossCount_clear {date : Date} {now : Timestamp} {w : World} {l : Ledger}
    (h : w.db.ledger.expiredStreak now ≠ some date)
    (hl : (l.dailyStat date).consecutiveLosses =
      ((w.db.ledger.clearPauseIfExpired now).dailyStat date).consecutiveLosses) :
    (l.dailyStat date).consecutiveLosses = lossCount date w := by
  rw [hl, Ledger.dailyStat_clear, if_neg h]
  rfl

/-- No other action counts losses, and only an expired cooldown of the day forgets them. -/
theorem lossCount_kept {env : Env} {date : Date} {w : World} {a : SafetyAction}
    (hclears : a.clears = true) (h : ¬ ExpiresStreak date w a) :
    lossCount date (safetyStep env w a) = lossCount date w := by
  have hexp : w.db.ledger.expiredStreak a.time ≠ some date := fun hs => h ⟨hclears, hs⟩
  cases a with
  | check now committed =>
    have hseen : ((w.db.ledger.checked now).dailyStat date).consecutiveLosses =
        lossCount date w := by
      have hday : w.db.ledger.expiredStreak now ≠ some date := hexp
      rw [Ledger.dailyStat_checked, if_neg hday]
      rfl
    have hcheck := circuitBreakerCheck_checked env.settings now w.db.ledger
    simp only [safetyStep]
    generalize circuitBreakerCheck env.settings now w.db.ledger = r at hcheck ⊢
    cases hcheck with
    | refused => rfl
    | tripped h =>
      obtain ⟨mark, hrow⟩ := h.rows date
      exact (congrArg DailyStat.consecutiveLosses hrow).trans hseen
    | passed =>
      cases committed with
      | false => rfl
      | true => exact hseen
  | status now => exact lossCount_clear hexp rfl
  | activate now =>
    simp only [safetyStep, activateKillSwitch]
    split_ifs
    · exact lossCount_clear hexp rfl
    · exact lossCount_clear hexp rfl
    · exact lossCount_clear hexp rfl
  | reset now => cases hclears
  | close now trade => cases hclears

/-- The counter of the day covers its streak; once that was long enough for the hard
pause, the counter still is, or a manual pause is in force. -/
structure StreakCounted (s : Settings) (date : Date) (w : World) (g : Streak) : Prop where
  losses : g.losses ≤ lossCount date w
  reached : g.isHard s → s.hardPauseConsecutiveLosses ≤ lossCount date w ∨ ManuallyPaused w

theorem ManuallyPaused.kept {env : Env} {w : World} {a : SafetyAction} (h : ManuallyPaused w)
    (ha : a.isReset = false) : ManuallyPaused (safetyStep env w a) := by
  obtain ⟨reason, hreason, hmanual⟩ := h
  obtain hreset | hkept := (safetyStep_paused env w a).kept.manual reason hmanual hreason
  · simp [ha] at hreset
  · exact ⟨reason, hkept, hmanual⟩

namespace StreakCounted

variable {env : Env} {date : Date} {w : World} {g : Streak} {a : SafetyAction}

/-- A streak that is broken leaves what it reached, if a manual pause holds that. -/
theorem broken (h : StreakCounted env.settings date w g) (ha : a.isReset = false)
    (hpaused : env.settings.hardPauseConsecutiveLosses ≤ lossCount date w → ManuallyPaused w) :
    StreakCounted env.settings date (safetyStep env w a) (g.broken env.settings) := by
  refine ⟨Nat.zero_le _, fun hhard => ?_⟩
  obtain hreached | hzero := hhard
  · have hold : g.isHard env.settings := of_decide_eq_true hreached
    obtain hcount | hmanual := h.reached hold
    · exact .inr ((hpaused hcount).kept ha)
    · exact .inr (hmanual.kept ha)
  · exact .inl (hzero.trans (Nat.zero_le _))

theorem kept (h : StreakCounted env.settings date w g) (ha : a.isReset = false)
    (hcount : lossCount date (safetyStep env w a) = lossCount date w) :
    StreakCounted env.settings date (safetyStep env w a) g := by
  refine ⟨hcount ▸ h.losses, fun hhard => ?_⟩
  obtain hlong | hmanual := h.reached hhard
  · exact .inl (hcount ▸ hlong)
  · exact .inr (hmanual.kept ha)

theorem close {now : Timestamp} {trade : Trade} (h : StreakCounted env.settings date w g)
    (hkeeps : KeepsStreak env.settings date w (.close now trade)) :
    StreakCounted env.settings date (safetyStep env w (.close now trade))
      (g.book env.settings date (.close now trade)) := by
  have hcount := lossCount_close env date w now trade
  cases hpnl : trade.realizedPnl with
  | none =>
    rw [hpnl] at hcount
    simp only [Streak.book, hpnl]
    exact h.kept rfl hcount
  | some pnl =>
    rw [hpnl] at hcount
    simp only [Streak.book, hpnl]
    split_ifs with hday hloss
    · exact h.kept rfl (hcount.trans (if_pos hday))
    · have hnext : lossCount date (safetyStep env w (.close now trade)) = lossCount date w + 1 := by
        rw [hcount]
        dsimp only
        rw [if_neg hday, if_pos hloss]
      have hle := h.losses
      refine ⟨by rw [hnext]; dsimp only; omega, fun hhard => ?_⟩
      obtain hreached | hlong := hhard
      · obtain hold | hmanual := h.reached (.inl hreached)
        · exact .inl (by omega)
        · exact .inr (hmanual.kept rfl)
      · dsimp only at hlong
        exact .inl (by omega)
    · refine h.broken rfl fun hlong => ?_
      by_contra hmanual
      exact (hkeeps hlong hmanual).1 ⟨pnl, hpnl, not_lt.mp hloss, not_not.mp hday⟩

theorem step (h : StreakCounted env.settings date w g)
    (hkeeps : KeepsStreak env.settings date w a) : StreakCounted env.settings date
      (safetyStep env w a) (g.next env.settings date w a) := by
  unfold Streak.next
  split_ifs with hexp
  · refine h.broken ?_ fun hlong => ?_
    · cases a <;> simp [ExpiresStreak, SafetyAction.clears] at hexp <;> rfl
    · by_contra hmanual
      exact (hkeeps hlong hmanual).2 hexp
  · cases a with
    | check now committed => exact h.kept rfl (lossCount_kept rfl hexp)
    | status now => exact h.kept rfl (lossCount_kept rfl hexp)
    | activate now => exact h.kept rfl (lossCount_kept rfl hexp)
    | reset now =>
      refine ⟨Nat.zero_le _, fun hhard => ?_⟩
      obtain hreached | hzero := hhard
      · cases hreached
      · exact .inl (hzero.trans (Nat.zero_le _))
    | close now trade => exact h.close hkeeps

theorem raises (h : StreakCounted env.settings date w g)
    (hkeeps : KeepsStreak env.settings date w a) : CheckRaises env.settings date w g a := by
  cases a with
  | check now committed =>
    intro hday hhard
    have hcheck := circuitBreakerCheck_checked env.settings now w.db.ledger
    generalize circuitBreakerCheck env.settings now w.db.ledger = r at hcheck ⊢
    cases hcheck with
    | refused => rfl
    | tripped => rfl
    | passed hlimits =>
      -- nothing but an expired cooldown can have been in force
      have hpaused : ¬ ManuallyPaused w := by
        intro ⟨reason, hreason, hmanual⟩
        obtain hnone | ⟨u, hcool, -, -⟩ := Ledger.checked_unpaused hlimits.unpaused
        · cases hnone.symm.trans hreason
        · obtain rfl := Option.some.inj (hcool.symm.trans hreason)
          cases hmanual
      have hlong := (h.reached hhard).resolve_right hpaused
      have hexp : w.db.ledger.expiredStreak now ≠ some date :=
        fun he => (hkeeps hlong hpaused).2 ⟨rfl, he⟩
      have hshort := hlimits.hardStreak
      rw [Ledger.dailyStat_checked, hday, if_neg hexp] at hshort
      exact absurd hlong (not_le.mpr hshort)
  | _ => trivial

end StreakCounted

/-- The safety rows with the streak that a cooldown's expiry breaks. -/
abbrev followStreak (env : Env) (date : Date) : World × Streak → SafetyAction → World × Streak :=
  streakStep env fun w g a => g.next env.settings date w a

/-- In every run in which no winning close and no expiry ends a streak that is long
enough for the hard pause before a check has set a manual pause, each later check of
the day raises until a reset. -/
theorem hardPause_run (env : Env) (date : Date) (as : List SafetyAction)
    (h : Runs.Meets (followStreak env date)
      (fun p a => KeepsStreak env.settings date p.1 a) ({}, {}) as) :
    Runs.Meets (followStreak env date)
      (fun p a => CheckRaises env.settings date p.1 p.2 a) ({}, {}) as := by
  refine Runs.meets_of_invariant (I := fun p => StreakCounted env.settings date p.1 p.2) ?_
    (fun _ _ hp hkeeps => hp.step hkeeps) (fun _ _ hp hkeeps => hp.raises hkeeps) h
  refine ⟨Nat.zero_le _, fun hhard => ?_⟩
  obtain hreached | hzero := hhard
  · cases hreached
  · exact .inl (hzero.trans (Nat.zero_le _))

def demoClose (pnl : Rat) : SafetyAction :=
  .close 1 { id := 0, symbol := "BTCUSDT", signalDirection := .long, exchangeSide := .buy,
             marketType := .spot, mode := .demo, createdAt := 0, realizedPnl := some pnl }

/-- Losses until the hard limit, a check that sets the pause, and a check much later. -/
def hardPauseRun : List SafetyAction :=
  List.replicate 5 (demoClose (-1)) ++ [.check 2 true, .check 80000000000 true]

theorem hardPause_five : Runs.Meets (followStreak (demoEnv .takerAllowed) 0)
    (fun p a => CheckRaises (demoEnv .takerAllowed).settings 0 p.1 p.2 a) ({}, {}) hardPauseRun :=
  hardPause_run _ _ _ (by decide +kernel)

/-- With the closes and resets alone counted, a check of the day raises after enough
losses in a row. -/
def HardPauseHolds (env : Env) (date : Date) (as : List SafetyAction) : Prop :=
  Runs.Meets (streakStep env fun _ g a => g.book env.settings date a)
    (fun p a => CheckRaises env.settings date p.1 p.2 a) ({}, {}) as

instance (env : Env) (date : Date) (as : List SafetyAction) :
    Decidable (HardPauseHolds env date as) :=
  inferInstanceAs (Decidable (Runs.Meets (streakStep env fun _ g a => g.book env.settings date a)
    (fun p a => CheckRaises env.settings date p.1 p.2 a) ({}, {}) as))

/-- Three losses set a cooldown of four hours, and two more follow it. -/
def expiredRun : List SafetyAction :=
  List.replicate 3 (demoClose (-1)) ++ [.check 2 true, .status 14400000002] ++
    List.replicate 2 (demoClose (-1)) ++ [.check 14400000003 true]

/-- Two more losses are booked while the cooldown is in force. -/
def heldRun : List SafetyAction :=
  List.replicate 3 (demoClose (-1)) ++ [.check 2 true] ++
    List.replicate 2 (demoClose (-1)) ++ [.check 14400000002 true]

/-- Five losses and a win, and no check between them. -/
def wonRun : List SafetyAction :=
  List.replicate 5 (demoClose (-1)) ++ [demoClose 1, .check 2 true]

/-- A check passes after five losses in a row, without a reset: an expired cooldown and
a win take the counter of the day to zero. -/
theorem hardPause_skipped : ¬ HardPauseHolds (demoEnv .takerAllowed) 0 expiredRun ∧
    ¬ HardPauseHolds (demoEnv .takerAllowed) 0 heldRun ∧
      ¬ HardPauseHolds (demoEnv .takerAllowed) 0 wonRun := by
  decide +kernel

end AmaExecutionCore
