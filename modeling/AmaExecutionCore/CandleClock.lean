import AmaExecutionCore.SignalLoopRuns
import Mathlib.Tactic.LinearCombination

/-! The clock of the polling runner: it wakes up in the third second after a candle has closed,
and between two of its ticks a candle closes. -/
namespace AmaExecutionCore

def nextClose (period now : Int) : Int := (now / period + 1) * period

theorem nextClose_mono {period : Int} (h : 0 < period) {a b : Int} (hle : a ≤ b) :
    nextClose period a ≤ nextClose period b := by
  have hdiv : a / period ≤ b / period := Int.ediv_le_ediv h hle
  exact mul_le_mul_of_nonneg_right (Int.add_le_add_right hdiv 1) h.le

theorem nextClose_emod (period now : Int) : nextClose period now % period = 0 :=
  Int.mul_emod_left _ _

theorem Intervals.divides_day {interval : String} {seconds : Int}
    (h : Intervals.intervalToSeconds interval = .ok seconds) :
    ∃ minutes, seconds = minutes * 60 ∧ 0 < minutes ∧ minutes ∣ 1440 := by
  have hknown : AmaExecutionCore.intervalToSeconds (String.ofList (strip interval.toList)) =
      .ok seconds := by
    rw [Intervals.intervalToSeconds] at h
    cases hvalue : AmaExecutionCore.intervalToSeconds (String.ofList (strip interval.toList)) with
    | error e =>
      rw [hvalue] at h
      cases h
    | ok value =>
      rw [hvalue] at h
      exact h
  generalize String.ofList (strip interval.toList) = text at hknown
  simp only [AmaExecutionCore.intervalToSeconds] at hknown
  split at hknown
  case h_10 => cases hknown
  all_goals
    obtain rfl := Except.ok.inj hknown
  · exact ⟨1, by decide, by decide, by decide⟩
  · exact ⟨3, by decide, by decide, by decide⟩
  · exact ⟨5, by decide, by decide, by decide⟩
  · exact ⟨15, by decide, by decide, by decide⟩
  · exact ⟨30, by decide, by decide, by decide⟩
  · exact ⟨60, by decide, by decide, by decide⟩
  · exact ⟨120, by decide, by decide, by decide⟩
  · exact ⟨240, by decide, by decide, by decide⟩
  · exact ⟨1440, by decide, by decide, by decide⟩

section Wait

variable {minutes now : Int}

/-- The wait is never replaced: the seconds of a minute are fewer than sixty. -/
theorem waitSeconds_eq (hpos : 0 < minutes) (hdvd : minutes ∣ 1440) :
    waitSeconds minutes now =
      (minutes - now / 60000000 % minutes) * 60 - now / 1000000 % 60 + 2 := by
  have helapsed : now / 60000000 % 1440 % minutes = now / 60000000 % minutes :=
    Int.emod_emod_of_dvd _ hdvd
  have hlt : now / 60000000 % minutes < minutes := Int.emod_lt_of_pos _ hpos
  have hseconds : now / 1000000 % 60 < 60 := Int.emod_lt_of_pos _ (by decide)
  simp only [waitSeconds, helapsed]
  rw [if_neg]
  omega

/-- The wake-up, two seconds and the fraction of a second of `now` after the next close. -/
theorem wakeAt_eq (hpos : 0 < minutes) (hdvd : minutes ∣ 1440) :
    now + secondsLength (waitSeconds minutes now) =
      nextClose (secondsLength (minutes * 60)) now + secondsLength 2 + now % 1000000 := by
  have hperiod : now / secondsLength (minutes * 60) = now / 60000000 / minutes := by
    rw [secondsLength, Int.ediv_ediv_of_nonneg (by decide)]
    congr 1
    omega
  have hminute : minutes * (now / 60000000 / minutes) + now / 60000000 % minutes =
      now / 60000000 := Int.mul_ediv_add_emod _ _
  have hsecond : now / 1000000 = 60 * (now / 60000000) + now / 1000000 % 60 := by omega
  have hfraction : now = 1000000 * (now / 1000000) + now % 1000000 :=
    (Int.mul_ediv_add_emod _ _).symm
  rw [waitSeconds_eq hpos hdvd, nextClose, hperiod, secondsLength, secondsLength, secondsLength]
  linear_combination (-60000000) * hminute + 1000000 * hsecond + hfraction

end Wait

namespace SignalLoopRunner

variable {K : Type} {runner : SignalLoopRunner K} {s t : LoopState K} {seconds : Int}

/-- Every tick so far lies two seconds and a close before the given time. -/
def ClosedSince (period : Int) (history : RunnerHistory K) (now : Timestamp) : Prop :=
  ∀ at_, (at_, .began) ∈ history → nextClose period at_ + secondsLength 2 ≤ now

/-- Between two ticks a candle has closed, at least two seconds before the second. -/
def TicksApart (period : Int) (history : RunnerHistory K) : Prop :=
  history.Pairwise fun earlier later => earlier.2 = .began → later.2 = .began →
    nextClose period earlier.1 + secondsLength 2 ≤ later.1

def InThirdSecond (period now : Int) : Prop :=
  secondsLength 2 ≤ now % period ∧ now % period < secondsLength 3

structure FollowsCloses (runner : SignalLoopRunner K) (period : Int) (s : LoopState K) : Prop where
  kept : runner.CooldownKept s
  apart : TicksApart period s.history
  asleep : ∀ wakeAt, s.phase = .sleeping wakeAt →
    InThirdSecond period wakeAt ∧ ClosedSince period s.history wakeAt
  awake : s.phase = .looping → s.stopped = true ∨ ClosedSince period s.history s.clock

theorem ClosedSince.later {period : Int} {history : RunnerHistory K} {now later : Timestamp}
    (h : ClosedSince period history now) (hle : now ≤ later) : ClosedSince period history later :=
  fun at_ hbegan => (h at_ hbegan).trans hle

theorem ClosedSince.append {period : Int} {history : RunnerHistory K} {now at_ : Timestamp}
    (h : ClosedSince period history now) {event : RunnerEvent K} (hevent : event ≠ .began) :
    ClosedSince period (history ++ [(at_, event)]) now := by
  intro began hbegan
  obtain hold | hlast := List.mem_append.mp hbegan
  · exact h began hold
  · rw [List.mem_singleton, Prod.mk.injEq] at hlast
    exact absurd hlast.2.symm hevent

theorem TicksApart.append {period : Int} {history : RunnerHistory K} {now : Timestamp}
    (h : TicksApart period history) {event : RunnerEvent K}
    (hevent : event = .began → ClosedSince period history now) :
    TicksApart period (history ++ [(now, event)]) := by
  apply List.pairwise_append.mpr
  refine ⟨h, List.pairwise_singleton _ _, ?_⟩
  intro earlier hearlier later hlater hbegan hbegan'
  obtain rfl := List.mem_singleton.mp hlater
  exact hevent hbegan' earlier.1 (hbegan ▸ hearlier)

namespace FollowsCloses

variable {period : Int}

theorem initial (clock : Timestamp) : FollowsCloses runner period (runner.initialState clock) where
  kept := .initial clock
  apart := List.Pairwise.nil
  asleep := fun _ hphase => absurd hphase (by simp [initialState])
  awake := fun _ => .inr fun _ hbegan => absurd hbegan List.not_mem_nil

theorem happens (h : FollowsCloses runner period s) {event : RunnerEvent K}
    (hkept : runner.CooldownKept t) (hevent : event ≠ .began)
    (hhistory : t.history = s.history ++ [(s.clock, event)]) (hclock : t.clock = s.clock)
    (hphase : t.phase = s.phase) (hstopped : t.stopped = s.stopped) :
    FollowsCloses runner period t where
  kept := hkept
  apart := by
    rw [hhistory]
    exact h.apart.append fun hbegan => absurd hbegan hevent
  asleep := by
    rw [hphase, hhistory]
    intro wakeAt hasleep
    obtain ⟨hthird, hsince⟩ := h.asleep wakeAt hasleep
    exact ⟨hthird, hsince.append hevent⟩
  awake := by
    rw [hphase, hhistory, hclock, hstopped]
    exact fun hlooping => (h.awake hlooping).imp_right fun hsince => hsince.append hevent

theorem slept {minutes : Int} (h : FollowsCloses runner (secondsLength (minutes * 60)) s)
    (hpos : 0 < minutes) (hdvd : minutes ∣ 1440) :
    FollowsCloses runner (secondsLength (minutes * 60))
      { s with phase := .sleeping (s.clock + secondsLength (waitSeconds minutes s.clock)) } where
  kept := h.kept.loops _ s.stopped
  apart := h.apart
  awake := fun hlooping => absurd hlooping (by simp)
  asleep := by
    intro wakeAt hasleep
    have hwake : s.clock + secondsLength (waitSeconds minutes s.clock) = _ := wakeAt_eq hpos hdvd
    rw [LoopPhase.sleeping.inj hasleep] at hwake
    have hperiod : 60000000 ≤ secondsLength (minutes * 60) := by
      rw [secondsLength]
      omega
    have hnonneg : 0 ≤ s.clock % 1000000 := Int.emod_nonneg _ (by decide)
    have hlt : s.clock % 1000000 < 1000000 := Int.emod_lt_of_pos _ (by decide)
    generalize hsize : secondsLength (minutes * 60) = period at hwake hperiod h ⊢
    refine ⟨?_, fun at_ hbegan => ?_⟩
    · have hmod : wakeAt % period = secondsLength 2 + s.clock % 1000000 := by
        rw [hwake, add_assoc, Int.add_emod, nextClose_emod, zero_add, Int.emod_emod]
        apply Int.emod_eq_of_lt
        · exact Int.add_nonneg (by decide) hnonneg
        · simp only [secondsLength]
          omega
      rw [InThirdSecond, hmod]
      simp only [secondsLength]
      omega
    · have hpast : at_ ≤ s.clock := h.kept.entries.past _ hbegan
      have hclose := nextClose_mono (by omega : 0 < period) hpast
      rw [hwake]
      omega

theorem step (h : FollowsCloses runner (secondsLength seconds) s)
    (hseconds : Intervals.intervalToSeconds runner.interval = .ok seconds)
    (hstep : Stepped runner s t) : FollowsCloses runner (secondsLength seconds) t := by
  have hkept := h.kept.step hstep
  cases hstep with
  | kept => exact h
  | elapsed microseconds =>
    refine ⟨hkept, h.apart, h.asleep, fun hlooping => (h.awake hlooping).imp_right fun hsince => ?_⟩
    exact hsince.later (Int.le_add_of_nonneg_right (Int.natCast_nonneg _))
  | stopped => exact ⟨hkept, h.apart, h.asleep, fun _ => .inl rfl⟩
  | ended => exact ⟨hkept, h.apart, fun _ hasleep => absurd hasleep (by simp),
      fun hlooping => absurd hlooping (by simp)⟩
  | began hphase hstopped =>
    have hsince : ClosedSince (secondsLength seconds) s.history s.clock :=
      (h.awake hphase).resolve_left (by rw [hstopped]; exact Bool.false_ne_true)
    exact ⟨hkept, h.apart.append fun _ => hsince,
      fun _ hasleep => absurd hasleep (by simp [beginTick]),
      fun hlooping => absurd hlooping (by simp [beginTick])⟩
  | entered | checked | finished => exact ⟨hkept, h.apart, h.asleep, h.awake⟩
  | halted symbol => exact ⟨hkept, h.apart, h.asleep, fun _ => .inl rfl⟩
  | called hstage snapshot request => exact h.happens hkept (by simp) rfl rfl rfl rfl
  | recorded hstage => exact h.happens hkept (by simp) rfl rfl rfl rfl
  | slept hphase hfinished hminutes =>
    obtain ⟨minutes, rfl, hpos, hdvd⟩ := Intervals.divides_day hseconds
    rw [Intervals.intervalToMinutes, hseconds] at hminutes
    obtain rfl := Except.ok.inj hminutes
    have hcancel : minutes * 60 / 60 = minutes := Int.mul_ediv_cancel _ (by decide)
    rw [hcancel]
    exact h.slept hpos hdvd
  | @woke wakeAt hphase hwake =>
    refine ⟨hkept, h.apart, fun _ hasleep => absurd hasleep (by simp), fun _ => ?_⟩
    exact hwake.imp_right fun hle => (h.asleep wakeAt hphase).2.later hle

end FollowsCloses

/-- In every run with a known interval, a candle closes between any two ticks, at least two
seconds before the second of them, and what the runner sleeps for is always the third second after
a close. -/
theorem ticks_follow_closes (runner : SignalLoopRunner K) (clock : Timestamp) (seconds : Int)
    (hseconds : Intervals.intervalToSeconds runner.interval = .ok seconds)
    (actions : List (LoopAction K)) :
    let s := Runs.run runner.step (runner.initialState clock) actions
    TicksApart (secondsLength seconds) s.history ∧
      ∀ wakeAt, s.phase = .sleeping wakeAt → InThirdSecond (secondsLength seconds) wakeAt := by
  intro s
  have hfollows : FollowsCloses runner (secondsLength seconds) s :=
    Runs.run_invariant (I := FollowsCloses runner (secondsLength seconds)) actions
      (.initial clock) fun u action h => h.step hseconds (runner.stepped u action)
  exact ⟨hfollows.apart, fun wakeAt hasleep => (hfollows.asleep wakeAt hasleep).1⟩

/-- A runner of one symbol on candles of a quarter of an hour, with a strategy that waits. -/
def quarterHourRunner : SignalLoopRunner Rat where
  strategy := ⟨1, fun _ => .ok none⟩
  symbols := ["ETHUSDT"]
  interval := "15"
  cooldownSeconds := 300
  maxSymbolsConcurrent := 5
  hasSessionFactory := false
  symbols_ne := List.cons_ne_nil _ _

/-- A tick at 00:07:30 and the next one, two seconds after the close of 00:15. -/
def quarterHourTicks : List (LoopAction Rat) :=
  [.elapse 450000000, .loop, .enter "ETHUSDT", .evaluated "ETHUSDT" fun _ => .error .timeoutError,
    .sleep, .elapse 452000000, .wake, .loop]

theorem ticks_follow_closes_quarterHour :
    let s := Runs.run quarterHourRunner.step (quarterHourRunner.initialState 0) quarterHourTicks
    begun s.history = 2 ∧ TicksApart (secondsLength 900) s.history ∧
      ∀ wakeAt, s.phase = .sleeping wakeAt → InThirdSecond (secondsLength 900) wakeAt :=
  ⟨by decide +kernel, ticks_follow_closes quarterHourRunner 0 900 rfl quarterHourTicks⟩

end SignalLoopRunner
end AmaExecutionCore
