import Mathlib.Data.List.Induction
import AmaExecutionCore.ReplayBooks

/-! The losses a replay has recorded on a day, and the pause they cause. -/
namespace AmaExecutionCore

def lostTrade (pnl : Option Rat) : Bool := pnl.any (· < 0)

def wonTrade (pnl : Option Rat) : Bool := pnl.any (0 < ·)

/-- Somewhere among the closures the losses reach the limit with no win in between. -/
def LossStretch (limit : Int) (pnls : List (Option Rat)) : Prop :=
  ∃ before stretch rest, pnls = before ++ stretch ++ rest ∧
    (∀ pnl ∈ stretch, wonTrade pnl = false) ∧ 0 < stretch.countP lostTrade ∧
    limit ≤ stretch.countP lostTrade

/-- The losses after the last win. -/
def lossesSinceWin (pnls : List (Option Rat)) : Nat :=
  pnls.foldl (fun losses pnl =>
    if lostTrade pnl then losses + 1 else if wonTrade pnl then 0 else losses) 0

theorem lossesSinceWin_concat (pnls : List (Option Rat)) (pnl : Option Rat) :
    lossesSinceWin (pnls ++ [pnl]) =
      if lostTrade pnl then lossesSinceWin pnls + 1
      else if wonTrade pnl then 0 else lossesSinceWin pnls := by
  simp [lossesSinceWin]

/-- All losses of a last stretch without a win are since the last win. -/
theorem countP_le_lossesSinceWin (before stretch : List (Option Rat))
    (h : ∀ pnl ∈ stretch, wonTrade pnl = false) :
    stretch.countP lostTrade ≤ lossesSinceWin (before ++ stretch) := by
  induction stretch using List.reverseRecOn with
  | nil => exact Nat.zero_le _
  | append_singleton stretch pnl ih =>
    have hrest := ih fun p hp => h p (List.mem_append_left _ hp)
    have hpnl := h pnl (List.mem_append_right _ (List.mem_singleton_self _))
    rw [← List.append_assoc, lossesSinceWin_concat, List.countP_append, List.countP_singleton]
    by_cases hlost : lostTrade pnl
    · rw [if_pos hlost, if_pos hlost]
      omega
    · rw [if_neg hlost, if_neg hlost, hpnl, if_neg (by simp)]
      omega

theorem LossStretch.of_concat {limit : Int} {pnls : List (Option Rat)} {pnl : Option Rat}
    (h : LossStretch limit (pnls ++ [pnl])) :
    LossStretch limit pnls ∨
      lostTrade pnl ∧ limit ≤ lossesSinceWin pnls + 1 := by
  obtain ⟨before, stretch, rest, heq, hwon, hpos, hlimit⟩ := h
  induction rest using List.reverseRecOn with
  | append_singleton rest last ih =>
    left
    rw [← List.append_assoc] at heq
    obtain ⟨heq, -⟩ := List.append_inj' heq rfl
    exact ⟨before, stretch, rest, heq, hwon, hpos, hlimit⟩
  | nil =>
    rw [List.append_nil] at heq
    induction stretch using List.reverseRecOn with
    | nil => simp at hpos
    | append_singleton stretch last ih =>
      rw [← List.append_assoc] at heq
      obtain ⟨hpnls, hlast⟩ := List.append_inj' heq rfl
      obtain rfl := List.singleton_injective hlast
      have hstretch : ∀ p ∈ stretch, wonTrade p = false :=
        fun p hp => hwon p (List.mem_append_left _ hp)
      rw [List.countP_append, List.countP_singleton] at hpos hlimit
      by_cases hlost : lostTrade pnl
      · right
        refine ⟨hlost, ?_⟩
        have hcount := countP_le_lossesSinceWin before stretch hstretch
        rw [← hpnls] at hcount
        rw [if_pos hlost] at hlimit
        omega
      · left
        rw [if_neg hlost] at hpos hlimit
        exact ⟨before, stretch, [], by simpa using hpnls, hstretch, hpos, hlimit⟩

theorem not_lossStretch_nil {limit : Int} : ¬ LossStretch limit [] := by
  intro h
  obtain ⟨before, stretch, rest, heq, -, hpos, -⟩ := h
  have hnil : stretch = [] := by
    simp only [List.nil_eq, List.append_eq_nil_iff] at heq
    exact heq.1.2
  rw [hnil] at hpos
  simp at hpos

/-- The circuit breaker has counted the losses since the last win, and halted after a stretch. -/
def Counted (limit : Int) (pnls : List (Option Rat)) (state : ReplayPortfolioState) : Prop :=
  (lossesSinceWin pnls : Int) ≤ state.consecutiveLosses ∧
    (LossStretch limit pnls → state.sessionHalted = true)

namespace Counted

variable {runner : HistoricalReplayRunner} {state : ReplayPortfolioState}
  {pnls : List (Option Rat)}

theorem nil {limit : Int} (h : 0 ≤ state.consecutiveLosses) : Counted limit [] state :=
  ⟨h, fun hstretch => absurd hstretch not_lossStretch_nil⟩

theorem nonneg {limit : Int} (h : Counted limit pnls state) : 0 ≤ state.consecutiveLosses :=
  (Int.natCast_nonneg _).trans h.1

theorem record (h : Counted runner.hardPauseConsecutiveLosses pnls state)
    (c : ReplayScheduledClosure) :
    Counted runner.hardPauseConsecutiveLosses (pnls ++ [c.netTradePnl])
      (state.recordClosedTrade runner c) := by
  obtain ⟨hcount, hhalt⟩ := h
  unfold Counted
  rw [lossesSinceWin_concat]
  unfold ReplayPortfolioState.recordClosedTrade
  dsimp only
  cases hpnl : c.netTradePnl with
  | none =>
    refine ⟨hcount, fun hstretch => ?_⟩
    obtain hstretch | ⟨hlost, -⟩ := hstretch.of_concat
    · exact hhalt hstretch
    · simp [lostTrade] at hlost
  | some pnl =>
    dsimp only
    by_cases hneg : pnl < 0
    · have hlost : lostTrade (some pnl) := by simpa [lostTrade] using hneg
      rw [if_pos hneg, if_pos hlost]
      refine ⟨by push_cast; omega, fun hstretch => ?_⟩
      rw [Bool.or_eq_true, decide_eq_true_eq]
      obtain hstretch | ⟨-, hlimit⟩ := hstretch.of_concat
      · exact .inl (hhalt hstretch)
      · exact .inr (by omega)
    · have hlost : lostTrade (some pnl) = false := by simpa [lostTrade] using hneg
      have hsame : LossStretch runner.hardPauseConsecutiveLosses (pnls ++ [some pnl]) →
          state.sessionHalted = true := by
        intro hstretch
        obtain hstretch | ⟨hlost', -⟩ := hstretch.of_concat
        · exact hhalt hstretch
        · rw [hlost] at hlost'
          cases hlost'
      rw [if_neg hneg, hlost, if_neg (by simp)]
      by_cases hpos : pnl > 0
      · have hwon : wonTrade (some pnl) := by simpa [wonTrade] using hpos
        rw [if_pos hpos, if_pos hwon]
        exact ⟨le_refl _, hsame⟩
      · have hwon : wonTrade (some pnl) = false := by simpa [wonTrade] using hpos
        rw [if_neg hpos, hwon, if_neg (by simp)]
        exact ⟨hcount, hsame⟩

theorem closeAll {ε σ : Type} {step : Int} (cs : List ReplayScheduledClosure)
    {loop : ReplayLoop ε σ} (h : Counted runner.hardPauseConsecutiveLosses pnls loop.portfolio) :
    Counted runner.hardPauseConsecutiveLosses (pnls ++ cs.map (·.netTradePnl))
      (loop.closeAll runner step cs).portfolio := by
  induction cs generalizing loop pnls with
  | nil => simpa [ReplayLoop.closeAll] using h
  | cons c cs ih =>
    have hrest := @ih (pnls ++ [c.netTradePnl]) (loop.record runner step c) (h.record c)
    rw [List.map_cons, List.append_cons]
    exact hrest

theorem track {ε σ : Type} {step : Int} {date : Date} {signal : StrategySignal Rat}
    {tracking : Tracking} {loop : ReplayLoop ε σ}
    (h : Counted runner.hardPauseConsecutiveLosses pnls loop.portfolio) :
    Counted runner.hardPauseConsecutiveLosses
      (pnls ++ if tracking.closeStep ≤ step then [tracking.netTradePnl] else [])
      (loop.track runner signal step date tracking).portfolio := by
  have hopen : Counted runner.hardPauseConsecutiveLosses pnls
      (loop.portfolio.openPosition (ReplayLoop.positionOf signal step tracking)) := h
  by_cases hnow : tracking.closeStep ≤ step
  · rw [if_pos hnow, ReplayLoop.track_now hnow]
    exact hopen.record (ReplayLoop.closureOf signal step date tracking)
  · rw [if_neg hnow, List.append_nil, ReplayLoop.track_later hnow]
    exact hopen

end Counted

section
variable {ε σ : Type}

/-- The results of the closures recorded from step `first` on. -/
def ReplayLoop.pnlsSince (first : Int) (loop : ReplayLoop ε σ) : List (Option Rat) :=
  (loop.recorded.filter fun r => first ≤ r.1).map (·.2.netTradePnl)

/-- The results of the closures recorded from step `first` on, before the entry of `step`. -/
def ReplayLoop.pnlsBetween (first step : Int) (loop : ReplayLoop ε σ) : List (Option Rat) :=
  (loop.recorded.filter fun r =>
    first ≤ r.1 ∧ r.1 ≤ step ∧ r.2.openedAtStep < step).map (·.2.netTradePnl)

/-- Every step from `first` to `step` has a candle of this date. -/
def ReplayLoop.SameDay (first step : Int) (date : Option Date) (loop : ReplayLoop ε σ) : Prop :=
  ∀ result ∈ loop.results, first ≤ result.stepIndex → result.stepIndex ≤ step →
    result.date = date

/-- No step enters a trade after enough losses of its day. -/
def ReplayLoop.PausesAfterLosses [ExecutionMetrics ε] (runner : HistoricalReplayRunner)
    (loop : ReplayLoop ε σ) : Prop :=
  ∀ result ∈ loop.results, ∀ first, loop.SameDay first result.stepIndex result.date →
    LossStretch runner.hardPauseConsecutiveLosses (loop.pnlsBetween first result.stepIndex) →
      result.trade = none

namespace ReplayLoop

variable {loop loop' : ReplayLoop ε σ} {now step : Int}

theorem pnlsSince_append {new : List ReplayScheduledClosure}
    (hrecorded : loop'.recorded = loop.recorded ++ new.map fun c => (step, c)) (first : Int) :
    loop'.pnlsSince first =
      loop.pnlsSince first ++ if first ≤ step then new.map (·.netTradePnl) else [] := by
  unfold pnlsSince
  rw [hrecorded, List.filter_append, List.map_append]
  congr 1
  by_cases hfirst : first ≤ step
  · rw [if_pos hfirst, List.filter_eq_self.mpr, List.map_map]
    · rfl
    · intro r hr
      obtain ⟨c, -, rfl⟩ := List.mem_map.mp hr
      exact decide_eq_true hfirst
  · rw [if_neg hfirst, List.filter_eq_nil_iff.mpr, List.map_nil]
    intro r hr hle
    obtain ⟨c, -, rfl⟩ := List.mem_map.mp hr
    exact hfirst (of_decide_eq_true hle)

theorem pnlsSince_nil (h : ∀ r ∈ loop.recorded, r.1 < now) {first : Int} (hfirst : now ≤ first) :
    loop.pnlsSince first = [] := by
  unfold pnlsSince
  rw [List.filter_eq_nil_iff.mpr, List.map_nil]
  intro r hr hle
  have hlt := h r hr
  have hge := of_decide_eq_true hle
  omega

/-- What is recorded at a later step is not among the closures before an entry. -/
theorem pnlsBetween_later {new : List ReplayScheduledClosure}
    (hrecorded : loop'.recorded = loop.recorded ++ new.map fun c => (step, c)) {k : Int}
    (hk : k < step) (first : Int) : loop'.pnlsBetween first k = loop.pnlsBetween first k := by
  have hlate : (new.map fun c => (step, c)).filter
      (fun r => first ≤ r.1 ∧ r.1 ≤ k ∧ r.2.openedAtStep < k) = [] := by
    rw [List.filter_eq_nil_iff]
    intro r hr hbetween
    obtain ⟨c, -, rfl⟩ := List.mem_map.mp hr
    have hle := (of_decide_eq_true hbetween).2.1
    dsimp only at hle
    omega
  unfold pnlsBetween
  rw [hrecorded, List.filter_append, hlate, List.append_nil]

theorem pnlsBetween_own {new : List ReplayScheduledClosure}
    (hrecorded : loop'.recorded = loop.recorded ++ new.map fun c => (step, c))
    (hold : ∀ r ∈ loop.recorded, r.1 ≤ step ∧ r.2.openedAtStep < step)
    (hnew : ∀ c ∈ new, c.openedAtStep = step) (first : Int) :
    loop'.pnlsBetween first step = loop.pnlsSince first := by
  have hown : (new.map fun c => (step, c)).filter (fun r =>
      first ≤ r.1 ∧ r.1 ≤ step ∧ r.2.openedAtStep < step) = [] := by
    rw [List.filter_eq_nil_iff]
    intro r hr hbetween
    obtain ⟨c, hc, rfl⟩ := List.mem_map.mp hr
    have hlt := (of_decide_eq_true hbetween).2.2
    have hat := hnew c hc
    dsimp only at hlt
    omega
  unfold pnlsBetween pnlsSince
  rw [hrecorded, List.filter_append, hown, List.append_nil]
  congr 1
  refine List.filter_congr fun r hr => ?_
  obtain ⟨hle, hlt⟩ := hold r hr
  simp [hle, hlt]

end ReplayLoop

/-- The circuit breaker of a replay before step `now`. -/
structure ReplayLoop.Breaker [ExecutionMetrics ε] (runner : HistoricalReplayRunner) (now : Int)
    (loop : ReplayLoop ε σ) : Prop where
  earlier : ∀ result ∈ loop.results, result.stepIndex < now
  latest : loop.results ≠ [] → ∃ result ∈ loop.results, result.stepIndex + 1 = now ∧
    result.date = loop.portfolio.currentDate
  fresh : loop.results = [] → loop.recorded = []
  logged : ∀ r ∈ loop.recorded, r.1 < now ∧ r.2.openedAtStep < now
  counted : ∀ first, loop.SameDay first now loop.portfolio.currentDate →
    Counted runner.hardPauseConsecutiveLosses (loop.pnlsSince first) loop.portfolio
  paused : loop.PausesAfterLosses runner

namespace ReplayLoop.Breaker

variable [ExecutionMetrics ε] {runner : HistoricalReplayRunner} {now step : Int}
  {loop loop' : ReplayLoop ε σ} {date : Date}

theorem init (s : σ) : ({ services := s } : ReplayLoop ε σ).Breaker runner now where
  earlier _ h := nomatch h
  latest h := absurd rfl h
  fresh _ := rfl
  logged _ h := nomatch h
  counted _ _ := .nil (le_refl _)
  paused _ h := nomatch h

theorem ended (h : loop.Breaker runner now) (s : σ) (r : Option PyError) :
    ({ loop with services := s, raised := r } : ReplayLoop ε σ).Breaker runner now where
  earlier := h.earlier
  latest := h.latest
  fresh := h.fresh
  logged := h.logged
  counted := h.counted
  paused := h.paused

/-- The counts of a new day start at zero, and the closures of the step are counted. -/
theorem counted_opened (h : loop.Breaker runner step) {first : Int} (hfirst : first ≤ step)
    (hday : loop.SameDay first step (some date)) :
    Counted runner.hardPauseConsecutiveLosses ((loop.opened runner step date).pnlsSince first)
      (loop.opened runner step date).portfolio := by
  rw [ReplayLoop.pnlsSince_append ReplayLoop.opened_recorded first, if_pos hfirst, ReplayLoop.opened_eq]
  apply Counted.closeAll
  dsimp only
  unfold ReplayPortfolioState.resetDailyCircuitBreaker
  by_cases hdate : loop.portfolio.currentDate = some date
  · rw [if_pos hdate]
    rw [← hdate] at hday
    exact h.counted first hday
  · rw [if_neg hdate]
    have hnil : loop.pnlsSince first = [] := by
      unfold ReplayLoop.pnlsSince
      rw [List.filter_eq_nil_iff.mpr, List.map_nil]
      intro r hr hle
      have hge : first ≤ r.1 := of_decide_eq_true hle
      have hresults : loop.results ≠ [] := by
        intro hempty
        rw [h.fresh hempty] at hr
        cases hr
      obtain ⟨last, hlast, hstep, hcurrent⟩ := h.latest hresults
      have hlt := (h.logged r hr).1
      have hsame := hday last hlast (by omega) (by omega)
      exact hdate (hcurrent.symm.trans hsame)
    rw [hnil]
    exact .nil (le_refl _)

theorem logged_opened (h : loop.Breaker runner step)
    (hwaiting : ∀ c ∈ loop.scheduledClosures step, c.openedAtStep < step)
    {r : Int × ReplayScheduledClosure} (hr : r ∈ (loop.opened runner step date).recorded) :
    r.1 ≤ step ∧ r.2.openedAtStep < step := by
  rw [ReplayLoop.opened_recorded] at hr
  obtain hr | hr := List.mem_append.mp hr
  · have hlog := h.logged r hr
    exact ⟨by omega, hlog.2⟩
  · obtain ⟨c, hc, rfl⟩ := List.mem_map.mp hr
    exact ⟨le_refl _, hwaiting c hc⟩

theorem halted_opened (h : loop.Breaker runner step)
    (hwaiting : ∀ c ∈ loop.scheduledClosures step, c.openedAtStep < step) {first : Int}
    (hday : loop.SameDay first step (some date))
    (hstretch : LossStretch runner.hardPauseConsecutiveLosses
      ((loop.opened runner step date).pnlsSince first)) :
    (loop.opened runner step date).portfolio.sessionHalted = true := by
  by_cases hfirst : first ≤ step
  · exact (h.counted_opened hfirst hday).2 hstretch
  · have hbound : ∀ r ∈ (loop.opened runner step date).recorded, r.1 < step + 1 := by
      intro r hr
      have hle := (h.logged_opened hwaiting hr).1
      omega
    rw [ReplayLoop.pnlsSince_nil hbound (by omega)] at hstretch
    exact absurd hstretch not_lossStretch_nil

/-- A step keeps the circuit breaker when it only appends its result and the closure of its own
trade, and enters nothing while the session is halted. -/
theorem next (h : loop.Breaker runner step)
    (hwaiting : ∀ c ∈ loop.scheduledClosures step, c.openedAtStep < step)
    {result : HistoricalReplayStep ε} (hstep : result.stepIndex = step)
    (hresult : result.date = some date) (hresults : loop'.results = loop.results ++ [result])
    {new : List ReplayScheduledClosure} (hnew : ∀ c ∈ new, c.openedAtStep = step)
    (hrecorded : loop'.recorded =
      (loop.opened runner step date).recorded ++ new.map fun c => (step, c))
    (hdate : loop'.portfolio.currentDate = some date)
    (hcounted : ∀ pnls, Counted runner.hardPauseConsecutiveLosses pnls
        (loop.opened runner step date).portfolio →
      Counted runner.hardPauseConsecutiveLosses (pnls ++ new.map (·.netTradePnl)) loop'.portfolio)
    (hpause : (loop.opened runner step date).portfolio.sessionHalted = true → result.trade = none) :
    loop'.Breaker runner (step + 1) := by
  have hlogged : ∀ r ∈ loop'.recorded, r.1 < step + 1 ∧ r.2.openedAtStep < step + 1 := by
    intro r hr
    rw [hrecorded] at hr
    obtain hr | hr := List.mem_append.mp hr
    · have hlog := h.logged_opened hwaiting hr
      omega
    · obtain ⟨c, hc, rfl⟩ := List.mem_map.mp hr
      have hat := hnew c hc
      dsimp only
      omega
  have hmem : ∀ q ∈ loop.results, q ∈ loop'.results := by
    intro q hq
    rw [hresults]
    exact List.mem_append_left _ hq
  have hself : result ∈ loop'.results := by
    rw [hresults]
    exact List.mem_append_right _ (List.mem_singleton_self _)
  have hday : ∀ first d, loop'.SameDay first step d → loop.SameDay first step d :=
    fun first d hsame q hq => hsame q (hmem q hq)
  refine
    { earlier := ?_
      latest := fun _ => ⟨result, hself, by omega, hresult.trans hdate.symm⟩
      fresh := ?_
      logged := hlogged
      counted := ?_
      paused := ?_ }
  · intro q hq
    rw [hresults] at hq
    obtain hq | hq := List.mem_append.mp hq
    · have hlt := h.earlier q hq
      omega
    · rw [List.mem_singleton.mp hq]
      omega
  · intro hempty
    rw [hempty] at hself
    cases hself
  · intro first hsame
    rw [hdate] at hsame
    by_cases hfirst : first ≤ step
    · have hstart := hday first (some date) fun q hq hge hle => hsame q hq hge (by omega)
      have hcount := hcounted _ (h.counted_opened hfirst hstart)
      rw [ReplayLoop.pnlsSince_append hrecorded first, if_pos hfirst]
      exact hcount
    · have hstart : loop.SameDay step step (some date) := by
        intro q hq hge hle
        have hlt := h.earlier q hq
        omega
      have hcount := hcounted _ (h.counted_opened (le_refl _) hstart)
      rw [ReplayLoop.pnlsSince_nil (fun r hr => (hlogged r hr).1) (by omega)]
      exact .nil hcount.nonneg
  · intro q hq first hsame hstretch
    rw [hresults] at hq
    obtain hq | hq := List.mem_append.mp hq
    · have hlt := h.earlier q hq
      refine h.paused q hq first (fun p hp => hsame p (hmem p hp)) ?_
      rw [ReplayLoop.pnlsBetween_later hrecorded hlt,
        ReplayLoop.pnlsBetween_later ReplayLoop.opened_recorded hlt] at hstretch
      exact hstretch
    · rw [List.mem_singleton.mp hq] at hsame hstretch ⊢
      rw [hstep, hresult] at hsame
      rw [hstep, ReplayLoop.pnlsBetween_own hrecorded (fun r hr => h.logged_opened hwaiting hr) hnew]
        at hstretch
      exact hpause (h.halted_opened hwaiting (hday first _ hsame) hstretch)

theorem idle (h : loop.Breaker runner step)
    (hwaiting : ∀ c ∈ loop.scheduledClosures step, c.openedAtStep < step)
    {result : HistoricalReplayStep ε} (hstep : result.stepIndex = step)
    (hresult : result.date = some date) (hnone : result.trade = none) :
    ((loop.opened runner step date).append result).Breaker runner (step + 1) := by
  apply h.next hwaiting hstep hresult
  · simp [ReplayLoop.append]
  · exact List.forall_mem_nil _
  · simp [ReplayLoop.append]
  · exact ReplayLoop.opened_date
  · intro pnls hpnls
    simpa [ReplayLoop.append] using hpnls
  · exact fun _ => hnone

theorem entered (h : loop.Breaker runner step)
    (hwaiting : ∀ c ∈ loop.scheduledClosures step, c.openedAtStep < step)
    {result : HistoricalReplayStep ε} (hstep : result.stepIndex = step)
    (hresult : result.date = some date) (signal : StrategySignal Rat) (tracking : Tracking)
    (hactive : (loop.opened runner step date).portfolio.sessionHalted = false) :
    (((loop.opened runner step date).track runner signal step date tracking).append
      result).Breaker runner (step + 1) := by
  have hnew : ∀ c ∈ if tracking.closeStep ≤ step then
      [ReplayLoop.closureOf signal step date tracking] else [], c.openedAtStep = step := by
    intro c hc
    split_ifs at hc
    · rw [List.mem_singleton.mp hc]
      rfl
    · cases hc
  apply h.next hwaiting hstep hresult _ hnew
  · refine ReplayLoop.track_recorded.trans ?_
    split_ifs <;> rfl
  · exact ReplayLoop.track_date.trans ReplayLoop.opened_date
  · intro pnls hpnls
    have hpnl : (if tracking.closeStep ≤ step then
        [ReplayLoop.closureOf signal step date tracking] else []).map (·.netTradePnl) =
        if tracking.closeStep ≤ step then [tracking.netTradePnl] else [] := by
      split_ifs <;> rfl
    rw [hpnl]
    exact hpnls.track
  · intro hhalted
    rw [hactive] at hhalted
    cases hhalted
  · simp [ReplayLoop.append, ReplayLoop.track_results]

end ReplayLoop.Breaker

end

end AmaExecutionCore
