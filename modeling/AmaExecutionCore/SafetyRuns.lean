import AmaExecutionCore.Days
import AmaExecutionCore.Runs
import AmaExecutionCore.System

/-! The safety rows over whole runs: checks of the circuit breaker, calls of the kill
switch and booked closes, in any order. -/
namespace AmaExecutionCore

/-- `committed` says whether the caller of a check that does not raise commits. -/
inductive SafetyAction where
  | check (now : Timestamp) (committed : Bool)
  | status (now : Timestamp)
  | activate (now : Timestamp)
  | reset (now : Timestamp)
  | close (now : Timestamp) (trade : Trade)

namespace SafetyAction

def time : SafetyAction → Timestamp
  | check now _ | status now | activate now | reset now | close now _ => now

def isReset : SafetyAction → Bool
  | reset _ => true
  | _ => false

end SafetyAction

/-- One session on the safety rows. A close is `apply_trade_outcome_analytics`. -/
def safetyStep (env : Env) (w : World) : SafetyAction → World
  | .check now committed =>
    match circuitBreakerCheck env.settings now w.db.ledger with
    | .error (_, l) => w.adoptLedger l
    | .ok l => if committed then w.adoptLedger (some l) else w
  | .status now => killSwitchStatus now w
  | .activate now => activateKillSwitch env.settings.tradingMode env.restClient now w
  | .reset now => resetKillSwitch now w
  | .close now trade =>
    w.mapLedger fun _ => ((w.work trade).applyTradeOutcomeAnalytics now).2.ledger

/-- The pauses only a reset ends. -/
def PauseReason.isManual : PauseReason → Bool
  | .dailyLoss | .weeklyLoss | .hardLossStreak => true
  | .cooldown => false

namespace Ledger

/-- The day whose loss streak is cleared when the cooldown is found expired at `now`. -/
def expiredStreak (now : Timestamp) (l : Ledger) : Option Date :=
  match l.safety.pauseReason, l.safety.cooldownUntil with
  | some .cooldown, some cooldownUntil =>
    if cooldownUntil ≤ now then some (lossStreakStatDate l.safety now) else none
  | _, _ => none

/-- The rows a check decides on. -/
def checked (now : Timestamp) (l : Ledger) : Ledger :=
  (l.ensureDailyStat now.date).clearPauseIfExpired now

theorem dailyStat_reset (day date : Date) (l : Ledger) :
    (l.resetConsecutiveLosses day).dailyStat date =
      if date = day then { l.dailyStat day with consecutiveLosses := 0 } else l.dailyStat date :=
  dailyStat_update day date (fun stat => { stat with consecutiveLosses := 0 }) (fun _ => rfl) l

theorem resetConsecutiveLosses_safety (date : Date) (l : Ledger) :
    (l.resetConsecutiveLosses date).safety = l.safety := by
  simp only [resetConsecutiveLosses, updateDailyStat, ensureDailyStat]
  split_ifs <;> rfl

theorem ensureDailyStat_safety (date : Date) (l : Ledger) :
    (l.ensureDailyStat date).safety = l.safety := by
  simp only [ensureDailyStat]
  split_ifs <;> rfl

theorem clearPauseIfExpired_of_none {now : Timestamp} {l : Ledger}
    (h : l.expiredStreak now = none) : l.clearPauseIfExpired now = l := by
  unfold expiredStreak at h
  unfold clearPauseIfExpired
  split
  · next u hreason huntil =>
    simp only [hreason, huntil] at h
    split_ifs at h with hle
    rw [if_neg hle]
  · rfl

theorem expiredStreak_some {now : Timestamp} {l : Ledger} {date : Date}
    (h : l.expiredStreak now = some date) : l.safety.pauseReason = some .cooldown ∧
      (∃ cooldownUntil, l.safety.cooldownUntil = some cooldownUntil ∧ cooldownUntil ≤ now) ∧
      lossStreakStatDate l.safety now = date := by
  unfold expiredStreak at h
  split at h
  · next u hreason huntil =>
    split_ifs at h with hle
    exact ⟨hreason, ⟨u, huntil, hle⟩, Option.some.inj h⟩
  · cases h

theorem clearPauseIfExpired_of_some {now : Timestamp} {l : Ledger} {date : Date}
    (h : l.expiredStreak now = some date) :
    l.clearPauseIfExpired now = { l.resetConsecutiveLosses date with
      safety := { l.safety with
        pauseReason := none, cooldownUntil := none, manualResetRequired := false } } := by
  obtain ⟨hreason, ⟨u, huntil, hle⟩, hdate⟩ := expiredStreak_some h
  simp only [clearPauseIfExpired, hreason, huntil, if_pos hle, hdate,
    resetConsecutiveLosses_safety]

theorem expiredStreak_ensure (now : Timestamp) (date : Date) (l : Ledger) :
    (l.ensureDailyStat date).expiredStreak now = l.expiredStreak now := by
  simp only [expiredStreak, ensureDailyStat_safety]

theorem dailyStat_clear (now : Timestamp) (date : Date) (l : Ledger) :
    (l.clearPauseIfExpired now).dailyStat date =
      if l.expiredStreak now = some date then { l.dailyStat date with consecutiveLosses := 0 }
      else l.dailyStat date := by
  cases h : l.expiredStreak now with
  | none => rw [clearPauseIfExpired_of_none h, if_neg (by simp)]
  | some day =>
    have hrow : (l.clearPauseIfExpired now).dailyStat date =
        (l.resetConsecutiveLosses day).dailyStat date := by
      rw [clearPauseIfExpired_of_some h]
      rfl
    rw [hrow, dailyStat_reset]
    by_cases hd : date = day
    · rw [if_pos hd, if_pos (by rw [hd]), hd]
    · rw [if_neg hd, if_neg fun h => hd (Option.some.inj h).symm]

theorem dailyStat_checked (now : Timestamp) (date : Date) (l : Ledger) :
    (l.checked now).dailyStat date =
      if l.expiredStreak now = some date then { l.dailyStat date with consecutiveLosses := 0 }
      else l.dailyStat date := by
  rw [checked, dailyStat_clear, expiredStreak_ensure, dailyStat_ensure]

theorem clearPauseIfExpired_safety (now : Timestamp) (l : Ledger) :
    (l.clearPauseIfExpired now).safety = if l.expiredStreak now = none then l.safety else
      { l.safety with pauseReason := none, cooldownUntil := none, manualResetRequired := false } := by
  cases h : l.expiredStreak now with
  | none => rw [clearPauseIfExpired_of_none h, if_pos rfl]
  | some day => rw [clearPauseIfExpired_of_some h, if_neg (by simp)]

theorem checked_safety (now : Timestamp) (l : Ledger) :
    (l.checked now).safety = if l.expiredStreak now = none then l.safety else
      { l.safety with pauseReason := none, cooldownUntil := none, manualResetRequired := false } := by
  rw [checked, clearPauseIfExpired_safety, expiredStreak_ensure, ensureDailyStat_safety]

end Ledger

/-- No pause is in force and no limit is reached. -/
structure WithinLimits (s : Settings) (now : Timestamp) (l : Ledger) : Prop where
  unpaused : l.safety.pauseReason = none
  trades : (l.dailyStat now.date).totalTrades < s.maxTradesPerDay
  dailyLoss : ∀ pct ∈ (l.dailyStat now.date).dailyLossPct, pct < s.maxDailyLossPct
  weeklyLoss : calculateWeeklyLossPct now l < s.maxWeeklyLossPct
  streak : (l.dailyStat now.date).consecutiveLosses < s.maxConsecutiveLosses
  hardStreak : (l.dailyStat now.date).consecutiveLosses < s.hardPauseConsecutiveLosses

/-- What a tripped check has committed: the pause, and at most the mark of the day. -/
structure Tripped (s : Settings) (now : Timestamp) (l l' : Ledger) : Prop where
  unpaused : l.safety.pauseReason = none
  safety : ∃ reason, l'.safety = { l.safety with
    pauseReason := some reason
    manualResetRequired := reason.isManual
    cooldownUntil := if reason.isManual then none else some (now + s.cooldownHours * 3600000000)
    lastTriggeredAt := some now }
  rows : ∀ date, ∃ mark, l'.dailyStat date =
    { l.dailyStat date with circuitBreakerTriggered := mark }

/-- The three ways a check ends. -/
inductive Checked (s : Settings) (now : Timestamp) (l : Ledger) :
    Except (PyError × Option Ledger) Ledger → Prop
  | refused {e} : Checked s now l (.error (e, none))
  | tripped {e l'} (h : Tripped s now (l.checked now) l') : Checked s now l (.error (e, some l'))
  | passed (h : WithinLimits s now (l.checked now)) : Checked s now l (.ok (l.checked now))

theorem Tripped.trip {s : Settings} {now : Timestamp} {l l₁ : Ledger} {reason : PauseReason}
    {description : String} (hunpaused : l.safety.pauseReason = none)
    (hsafety : l₁.safety = l.safety)
    (hrows : ∀ date, ∃ mark, l₁.dailyStat date =
      { l.dailyStat date with circuitBreakerTriggered := mark }) :
    Tripped s now l ((l₁.setPause reason reason.isManual
      (if reason.isManual then none else some (now + s.cooldownHours * 3600000000)) now).appendSystemEvent
        .circuitBreaker description none) where
  unpaused := hunpaused
  safety := ⟨reason, by simp only [Ledger.setPause, Ledger.appendSystemEvent, hsafety]⟩
  rows := hrows

theorem circuitBreakerCheck_checked (s : Settings) (now : Timestamp) (l : Ledger) :
    Checked s now l (circuitBreakerCheck s now l) := by
  have hchecked : (l.ensureDailyStat now.date).clearPauseIfExpired now = l.checked now := rfl
  simp only [circuitBreakerCheck, hchecked]
  split
  · exact .refused
  · next hnone =>
    split_ifs with htrades hdaily hweekly hhard hstreak
    · exact .refused
    · refine .tripped (@Tripped.trip s now _ _ .dailyLoss _ hnone ?_ ?_)
      · simp only [Ledger.updateDailyStat, Ledger.ensureDailyStat_safety]
      · intro date
        have hmark := Ledger.dailyStat_update now.date date
          (fun stat => { stat with circuitBreakerTriggered := true }) (fun _ => rfl) (l.checked now)
        by_cases hd : date = now.date
        · exact ⟨true, by rw [hd] at hmark ⊢; exact hmark.trans (if_pos rfl)⟩
        · exact ⟨_, hmark.trans (if_neg hd)⟩
    · exact .tripped (@Tripped.trip s now _ _ .weeklyLoss _ hnone rfl fun _ => ⟨_, rfl⟩)
    · exact .tripped (@Tripped.trip s now _ _ .hardLossStreak _ hnone rfl fun _ => ⟨_, rfl⟩)
    · exact .tripped (@Tripped.trip s now _ _ .cooldown _ hnone rfl fun _ => ⟨_, rfl⟩)
    · refine .passed ⟨hnone, lt_of_not_ge htrades, ?_, lt_of_not_ge hweekly,
        lt_of_not_ge hstreak, lt_of_not_ge hhard⟩
      intro pct hpct
      by_contra hle
      exact hdaily ((Option.any_eq_true _ _).mpr ⟨pct, hpct, by simpa using hle⟩)

/-- The flags of the pause say what the reason says. -/
structure PauseConsistent (s : SafetyState) : Prop where
  manual : s.manualResetRequired = true ↔ ∃ reason ∈ s.pauseReason, reason.isManual = true
  cooldown : s.cooldownUntil ≠ none ↔ s.pauseReason = some .cooldown

/-- A manual pause ends only by a reset, a cooldown also once it is over. -/
structure PauseKept (s s' : SafetyState) (a : SafetyAction) : Prop where
  manual : ∀ reason, reason.isManual = true → s.pauseReason = some reason →
    a.isReset = true ∨ s'.pauseReason = some reason
  cooldown : ∀ cooldownUntil, s.pauseReason = some .cooldown →
    s.cooldownUntil = some cooldownUntil → a.isReset = true ∨ cooldownUntil ≤ a.time ∨
      s'.pauseReason = some .cooldown ∧ s'.cooldownUntil = some cooldownUntil

/-- What one action does to the pause. -/
inductive Paused (s s' : SafetyState) (a : SafetyAction) : Prop
  | same (hreason : s'.pauseReason = s.pauseReason) (huntil : s'.cooldownUntil = s.cooldownUntil)
      (hmanual : s'.manualResetRequired = s.manualResetRequired)
  | cleared (hend : a.isReset = true ∨ ∃ cooldownUntil, s.pauseReason = some .cooldown ∧
        s.cooldownUntil = some cooldownUntil ∧ cooldownUntil ≤ a.time)
      (hreason : s'.pauseReason = none) (huntil : s'.cooldownUntil = none)
      (hmanual : s'.manualResetRequired = false)
  | set (reason : PauseReason) (hend : s.pauseReason = none ∨ ∃ cooldownUntil,
        s.pauseReason = some .cooldown ∧ s.cooldownUntil = some cooldownUntil ∧
          cooldownUntil ≤ a.time)
      (hreason : s'.pauseReason = some reason)
      (huntil : s'.cooldownUntil = none ↔ reason.isManual = true)
      (hmanual : s'.manualResetRequired = reason.isManual)

namespace Paused

variable {s s' : SafetyState} {a : SafetyAction}

theorem clear {l : Ledger} (hreason : s'.pauseReason = (l.clearPauseIfExpired a.time).safety.pauseReason)
    (huntil : s'.cooldownUntil = (l.clearPauseIfExpired a.time).safety.cooldownUntil)
    (hmanual : s'.manualResetRequired =
      (l.clearPauseIfExpired a.time).safety.manualResetRequired) : Paused l.safety s' a := by
  rw [Ledger.clearPauseIfExpired_safety] at hreason huntil hmanual
  cases hexp : l.expiredStreak a.time with
  | none =>
    rw [hexp, if_pos rfl] at hreason huntil hmanual
    exact .same hreason huntil hmanual
  | some date =>
    obtain ⟨hcool, ⟨u, hend, hle⟩, -⟩ := Ledger.expiredStreak_some hexp
    rw [hexp, if_neg (by simp)] at hreason huntil hmanual
    exact .cleared (.inr ⟨u, hcool, hend, hle⟩) hreason huntil hmanual

theorem consistent (h : Paused s s' a) (hs : PauseConsistent s) : PauseConsistent s' := by
  cases h with
  | same hreason huntil hmanual =>
    exact ⟨by rw [hmanual, hreason]; exact hs.manual, by rw [huntil, hreason]; exact hs.cooldown⟩
  | cleared _ hreason huntil hmanual =>
    exact ⟨by simp [hmanual, hreason], by simp [huntil, hreason]⟩
  | set reason _ hreason huntil hmanual =>
    refine ⟨by simp [hmanual, hreason], ?_⟩
    rw [hreason, ne_eq, huntil]
    cases reason <;> simp [PauseReason.isManual]

theorem kept (h : Paused s s' a) : PauseKept s s' a := by
  constructor
  · intro reason hreason hs
    cases h with
    | same hsame => exact .inr (hsame.trans hs)
    | cleared hend =>
      obtain hend | ⟨u, hcool, -⟩ := hend
      · exact .inl hend
      · obtain rfl := Option.some.inj (hs.symm.trans hcool)
        cases hreason
    | set _ hend =>
      obtain hnone | ⟨u, hcool, -⟩ := hend
      · cases hs.symm.trans hnone
      · obtain rfl := Option.some.inj (hs.symm.trans hcool)
        cases hreason
  · intro u hs huntil
    cases h with
    | same hsame hsame' => exact .inr (.inr ⟨hsame.trans hs, hsame'.trans huntil⟩)
    | cleared hend =>
      obtain hend | ⟨u', -, huntil', hle⟩ := hend
      · exact .inl hend
      · obtain rfl := Option.some.inj (huntil.symm.trans huntil')
        exact .inr (.inl hle)
    | set _ hend =>
      obtain hnone | ⟨u', -, huntil', hle⟩ := hend
      · cases hs.symm.trans hnone
      · obtain rfl := Option.some.inj (huntil.symm.trans huntil')
        exact .inr (.inl hle)

end Paused

theorem Ledger.checked_unpaused {now : Timestamp} {l : Ledger}
    (h : (l.checked now).safety.pauseReason = none) : l.safety.pauseReason = none ∨
      ∃ cooldownUntil, l.safety.pauseReason = some .cooldown ∧
        l.safety.cooldownUntil = some cooldownUntil ∧ cooldownUntil ≤ now := by
  rw [checked_safety] at h
  cases hexp : l.expiredStreak now with
  | none =>
    rw [hexp, if_pos rfl] at h
    exact .inl h
  | some date =>
    obtain ⟨hreason, ⟨u, huntil, hle⟩, -⟩ := expiredStreak_some hexp
    exact .inr ⟨u, hreason, huntil, hle⟩

theorem safetyStep_paused (env : Env) (w : World) (a : SafetyAction) :
    Paused w.db.ledger.safety (safetyStep env w a).db.ledger.safety a := by
  cases a with
  | check now committed =>
    have hcheck := circuitBreakerCheck_checked env.settings now w.db.ledger
    simp only [safetyStep]
    generalize circuitBreakerCheck env.settings now w.db.ledger = r at hcheck ⊢
    cases hcheck with
    | refused => exact .same rfl rfl rfl
    | @tripped e l' h =>
      obtain ⟨reason, hsafety⟩ := h.safety
      have hl' : (w.adoptLedger (some l')).db.ledger.safety = _ := hsafety
      simp only
      rw [hl']
      refine .set reason (Ledger.checked_unpaused h.unpaused) rfl ?_ rfl
      cases reason <;> simp [PauseReason.isManual]
    | passed h =>
      cases committed with
      | false => exact .same rfl rfl rfl
      | true =>
        have hsafety : (w.db.ledger.checked now).safety =
            (w.db.ledger.clearPauseIfExpired now).safety := by
          rw [Ledger.checked_safety, Ledger.clearPauseIfExpired_safety]
        exact .clear (congrArg _ hsafety) (congrArg _ hsafety) (congrArg _ hsafety)
  | status now => exact .clear rfl rfl rfl
  | activate now =>
    simp only [safetyStep, activateKillSwitch]
    split_ifs
    · exact .clear rfl rfl rfl
    · exact .clear rfl rfl rfl
    · exact .clear rfl rfl rfl
  | reset now => exact .cleared (.inl rfl) rfl rfl rfl
  | close now trade =>
    refine .same ?_ ?_ ?_
    all_goals
      simp only [safetyStep, World.mapLedger, Work.applyTradeOutcomeAnalytics]
      split
      · rfl
      · simp [Work.onLedger, Ledger.updateDailyStat, Ledger.ensureDailyStat_safety, World.work]

/-- In every run the flags of the pause agree, each pause lasts until it may end, and
a check passes only when no pause is in force and no limit is reached. -/
theorem safetyPauses_run (env : Env) (as : List SafetyAction) :
    Runs.Always (safetyStep env) (fun w => PauseConsistent w.db.ledger.safety ∧
        ∀ now l, circuitBreakerCheck env.settings now w.db.ledger = .ok l →
          l = w.db.ledger.checked now ∧ WithinLimits env.settings now l) {} as ∧
      Runs.Meets (safetyStep env) (fun w a => PauseKept w.db.ledger.safety
        (safetyStep env w a).db.ledger.safety a) {} as := by
  have htrue : Runs.Meets (safetyStep env) (fun _ _ => True) {} as := .trivial _ as
  have hinit : PauseConsistent ({} : World).db.ledger.safety :=
    ⟨iff_of_false (by decide) (by simp), iff_of_false (by decide) (by decide)⟩
  have hstep : ∀ w a, PauseConsistent w.db.ledger.safety → True →
      PauseConsistent (safetyStep env w a).db.ledger.safety :=
    fun w a h _ => (safetyStep_paused env w a).consistent h
  refine ⟨Runs.always_of_invariant hinit hstep ?_ htrue,
    Runs.meets_of_invariant hinit hstep (fun w a _ _ => (safetyStep_paused env w a).kept) htrue⟩
  intro w h
  refine ⟨h, fun now l hpass => ?_⟩
  have hcheck := circuitBreakerCheck_checked env.settings now w.db.ledger
  rw [hpass] at hcheck
  cases hcheck with
  | passed hlimits => exact ⟨rfl, hlimits⟩

end AmaExecutionCore
