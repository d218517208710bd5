import AmaExecutionCore.ReplayRuns

/-! How the open positions, the scheduled closures, the cooldowns and the log of a replay follow
from the trades it executed. -/
namespace AmaExecutionCore

/-- The later trade of a symbol starts when the earlier one is over, and has cooled down. -/
def ReplayScheduledClosure.Apart (runner : HistoricalReplayRunner)
    (a b : ReplayScheduledClosure) : Prop :=
  a.symbol = b.symbol → a.closeStep ≤ b.openedAtStep ∧
    a.closeStep + runner.cooldownCandles < b.openedAtStep

theorem filter_place {α : Type} {f : α → Int} {l : List α} (h : l.Pairwise fun a b => f a < f b)
    {x : α} (hx : x ∈ l) : (l.filter fun a => f a = f x) = [x] := by
  induction l with
  | nil => cases hx
  | cons a l ih =>
    obtain ⟨hlt, h⟩ := List.pairwise_cons.mp h
    obtain rfl | hx := List.mem_cons.mp hx
    · rw [List.filter_cons_of_pos (by simp)]
      have hrest : (l.filter fun b => f b = f x) = [] := by
        rw [List.filter_eq_nil_iff]
        intro b hb heq
        have hne := hlt b hb
        simp only [decide_eq_true_eq] at heq
        omega
      rw [hrest]
    · have hne := hlt x hx
      rw [List.filter_cons_of_neg (by simp; omega)]
      exact ih h hx

section
variable {ε σ : Type} [ExecutionMetrics ε]

/-- The books of a replay that made its entries before step `now` and recorded what closes
before step `due`. -/
structure ReplayLoop.Books (runner : HistoricalReplayRunner) (now due : Int)
    (loop : ReplayLoop ε σ) : Prop where
  past : ∀ c ∈ loop.trades, c.openedAtStep < now
  ordered : loop.trades.Pairwise fun a b => a.openedAtStep < b.openedAtStep
  apart : loop.trades.Pairwise (ReplayScheduledClosure.Apart runner)
  waiting : ∀ k, due ≤ k → loop.scheduledClosures k = loop.trades.filter (·.closeStep = k)
  positions : loop.portfolio.openPositions.map (fun p => (p.symbol, p.plannedCloseStep)) =
    (loop.trades.filter (due ≤ ·.closeStep)).map fun c => (c.symbol, c.closeStep)
  open_le : (loop.portfolio.openPositions.length : Int) ≤ max 0 runner.maxOpenPositions
  cooled : ∀ c ∈ loop.trades, c.closeStep < due → c.closeStep + runner.cooldownCandles < now ∨
    ∃ u, loop.portfolio.cooldownUntil c.symbol = some u ∧
      c.closeStep + runner.cooldownCandles ≤ u
  recorded : ∀ c ∈ loop.trades, (loop.recorded.filter fun r => r.2.openedAtStep = c.openedAtStep) =
    if c.closeStep < due then [(max c.openedAtStep c.closeStep, c)] else []
  logged : ∀ r ∈ loop.recorded, r.2 ∈ loop.trades ∧ r.1 < due

namespace ReplayLoop.Books

variable {runner : HistoricalReplayRunner} {now due step : Int} {loop : ReplayLoop ε σ} {date : Date}

theorem init (s : σ) : ({ services := s } : ReplayLoop ε σ).Books runner now due where
  past _ h := nomatch h
  ordered := .nil
  apart := .nil
  waiting _ _ := rfl
  positions := rfl
  open_le := le_max_left _ _
  cooled _ h := nomatch h
  recorded _ h := nomatch h
  logged _ h := nomatch h

theorem apart_or (h : loop.Books runner now due) {a b : ReplayScheduledClosure}
    (ha : a ∈ loop.trades) (hb : b ∈ loop.trades) (hne : a ≠ b) :
    a.Apart runner b ∨ b.Apart runner a := by
  obtain ⟨i, hi, rfl⟩ := List.getElem_of_mem ha
  obtain ⟨j, hj, rfl⟩ := List.getElem_of_mem hb
  have hpair := List.pairwise_iff_getElem.mp h.apart
  obtain hlt | heq | hgt := lt_trichotomy i j
  · exact .inl (hpair i j hi hj hlt)
  · subst heq
    exact absurd rfl hne
  · exact .inr (hpair j i hj hi hgt)

theorem closed_of_due (h : loop.Books runner step step) {c d : ReplayScheduledClosure}
    (hc : c ∈ loop.trades) (hd : d ∈ loop.trades) (hdue : d.closeStep = step)
    (hsym : c.symbol = d.symbol) (hne : c ≠ d) : c.closeStep < step ∧
      c.closeStep + runner.cooldownCandles < step := by
  have hpc := h.past c hc
  have hpd := h.past d hd
  obtain hapart | hapart := h.apart_or hc hd hne
  · obtain ⟨hover, hcool⟩ := hapart hsym
    omega
  · obtain ⟨hover, -⟩ := hapart hsym.symm
    omega

theorem trades_opened : (loop.opened runner step date).trades = loop.trades := by
  simp [ReplayLoop.trades]

theorem mem_due (h : loop.Books runner step step) {c : ReplayScheduledClosure} :
    c ∈ loop.scheduledClosures step ↔ c ∈ loop.trades ∧ c.closeStep = step := by
  simp [h.waiting step (le_refl _)]

theorem symbol_due (h : loop.Books runner step step) {symbol : String} :
    symbol ∈ (loop.scheduledClosures step).map (·.symbol) ↔
      ∃ d ∈ loop.trades, d.closeStep = step ∧ d.symbol = symbol := by
  simp [h.mem_due, and_assoc]

/-- The positions of the symbols that close are those of the trades that are due. -/
theorem positions_opened (h : loop.Books runner step step) :
    (loop.opened runner step date).portfolio.openPositions.map
        (fun p => (p.symbol, p.plannedCloseStep)) =
      (loop.trades.filter (step + 1 ≤ ·.closeStep)).map fun c => (c.symbol, c.closeStep) := by
  have hfilter : (loop.trades.filter (step ≤ ·.closeStep)).filter
      (fun c => c.symbol ∉ (loop.scheduledClosures step).map (·.symbol)) =
      loop.trades.filter (step + 1 ≤ ·.closeStep) := by
    rw [List.filter_filter]
    refine List.filter_congr fun c hc => ?_
    rw [Bool.eq_iff_iff, Bool.and_eq_true, decide_eq_true_eq, decide_eq_true_eq,
      decide_eq_true_eq, h.symbol_due]
    constructor
    · intro ⟨hnot, hle⟩
      by_contra hlt
      exact hnot ⟨c, hc, by omega, rfl⟩
    · intro hlt
      refine ⟨fun ⟨d, hd, hdue', hds⟩ => ?_, by omega⟩
      have hne : c ≠ d := by
        rintro rfl
        omega
      have hclosed := (h.closed_of_due hc hd hdue' hds.symm hne).1
      omega
  have hopen := congrArg (List.filter fun q : String × Int =>
    q.1 ∉ (loop.scheduledClosures step).map (·.symbol)) h.positions
  rw [List.filter_map, List.filter_map] at hopen
  rw [ReplayLoop.opened_open, ← hfilter]
  exact hopen

/-- A trade that closed cools its symbol down, or it did so before a later one closes. -/
theorem cooled_opened (h : loop.Books runner step step) {c : ReplayScheduledClosure}
    (hc : c ∈ loop.trades) (hlt : c.closeStep < step + 1) :
    c.closeStep + runner.cooldownCandles < step ∨
      ∃ u, (loop.opened runner step date).portfolio.cooldownUntil c.symbol = some u ∧
        c.closeStep + runner.cooldownCandles ≤ u := by
  rw [ReplayLoop.opened_cooldown fun d hd => (h.mem_due.mp hd).2]
  by_cases hin : c.symbol ∈ (loop.scheduledClosures step).map (·.symbol)
  · rw [if_pos hin]
    obtain ⟨d, hd, hds, hdsym⟩ := h.symbol_due.mp hin
    by_cases heq : c = d
    · refine .inr ⟨_, rfl, ?_⟩
      rw [heq, hds]
    · exact .inl (h.closed_of_due hc hd hds hdsym.symm heq).2
  · rw [if_neg hin]
    refine h.cooled c hc ?_
    by_contra hge
    exact hin (h.symbol_due.mpr ⟨c, hc, by omega, rfl⟩)

theorem due_place (h : loop.Books runner step step) {c : ReplayScheduledClosure}
    (hc : c ∈ loop.trades) :
    ((loop.scheduledClosures step).map fun d => (step, d)).filter
      (fun r => r.2.openedAtStep = c.openedAtStep) =
      if c.closeStep = step then [(step, c)] else [] := by
  rw [List.filter_map, h.waiting step (le_refl _), List.filter_filter]
  have hswap : (loop.trades.filter fun d =>
      ((fun r : Int × ReplayScheduledClosure => decide (r.2.openedAtStep = c.openedAtStep)) ∘
        fun d => (step, d)) d && decide (d.closeStep = step)) =
      (loop.trades.filter fun d => d.openedAtStep = c.openedAtStep).filter
        fun d => d.closeStep = step := by
    rw [List.filter_filter]
    exact List.filter_congr fun d _ => Bool.and_comm _ _
  rw [hswap, filter_place h.ordered hc]
  split_ifs with hcs <;> simp [hcs]

theorem recorded_opened (h : loop.Books runner step step) {c : ReplayScheduledClosure}
    (hc : c ∈ loop.trades) :
    ((loop.opened runner step date).recorded.filter fun r => r.2.openedAtStep = c.openedAtStep) =
      if c.closeStep < step + 1 then [(max c.openedAtStep c.closeStep, c)] else [] := by
  rw [ReplayLoop.opened_recorded, List.filter_append, h.recorded c hc, h.due_place hc]
  have hpast := h.past c hc
  obtain hlt | heq | hgt := lt_trichotomy c.closeStep step
  · rw [if_pos hlt, if_neg (by omega), if_pos (by omega), List.append_nil]
  · rw [if_neg (by omega), if_pos heq, if_pos (by omega), heq, max_eq_right hpast.le]
    rfl
  · rw [if_neg (by omega), if_neg (by omega), if_neg (by omega)]
    rfl

theorem opened (h : loop.Books runner step step) :
    (loop.opened runner step date).Books runner step (step + 1) where
  past := by
    rw [trades_opened]
    exact h.past
  ordered := by
    rw [trades_opened]
    exact h.ordered
  apart := by
    rw [trades_opened]
    exact h.apart
  waiting := by
    intro k hk
    rw [ReplayLoop.opened_scheduled, Function.update_of_ne (by omega), trades_opened]
    exact h.waiting k (by omega)
  positions := by
    rw [trades_opened]
    exact h.positions_opened
  open_le := by
    rw [ReplayLoop.opened_open]
    have hle := List.length_filter_le (fun p : ReplayOpenPosition =>
      decide (p.symbol ∉ (loop.scheduledClosures step).map (·.symbol))) loop.portfolio.openPositions
    have hopen := h.open_le
    omega
  cooled := by
    rw [trades_opened]
    exact fun c hc hlt => h.cooled_opened hc hlt
  recorded := by
    rw [trades_opened]
    exact fun c hc => h.recorded_opened hc
  logged := by
    rw [trades_opened, ReplayLoop.opened_recorded]
    intro r hr
    obtain hr | hr := List.mem_append.mp hr
    · have hlog := h.logged r hr
      exact ⟨hlog.1, by omega⟩
    · obtain ⟨c, hc, rfl⟩ := List.mem_map.mp hr
      exact ⟨(h.mem_due.mp hc).1, by omega⟩

theorem ended (h : loop.Books runner now due) (s : σ) (r : Option PyError) :
    ({ loop with services := s, raised := r } : ReplayLoop ε σ).Books runner now due where
  past := h.past
  ordered := h.ordered
  apart := h.apart
  waiting := h.waiting
  positions := h.positions
  open_le := h.open_le
  cooled := h.cooled
  recorded := h.recorded
  logged := h.logged

theorem idle (h : loop.Books runner step (step + 1)) {result : HistoricalReplayStep ε}
    (hnone : result.trade = none) :
    (loop.append result).Books runner (step + 1) (step + 1) := by
  have htrades : (loop.append result).trades = loop.trades := by
    simp [ReplayLoop.trades, ReplayLoop.append, hnone]
  refine
    { past := ?_
      ordered := htrades ▸ h.ordered
      apart := htrades ▸ h.apart
      waiting := htrades ▸ h.waiting
      positions := htrades ▸ h.positions
      open_le := h.open_le
      cooled := ?_
      recorded := htrades ▸ h.recorded
      logged := htrades ▸ h.logged }
  · rw [htrades]
    intro c hc
    have hpast := h.past c hc
    omega
  · rw [htrades]
    intro c hc hlt
    obtain hcool | hcool := h.cooled c hc hlt
    · exact .inl (by omega)
    · exact .inr hcool

theorem canExecute {state : ReplayPortfolioState} {symbol : String}
    (h : state.canExecuteSignal runner symbol step date = true) :
    state.sessionHalted = false ∧ (∀ p ∈ state.openPositions, p.symbol ≠ symbol) ∧
      (state.openPositions.length : Int) < runner.maxOpenPositions ∧
      (state.cooldownUntil symbol).getD (-1) < step ∧
      state.dailyTrades date < runner.maxTradesPerDay := by
  unfold ReplayPortfolioState.canExecuteSignal at h
  split_ifs at h with hhalt hopen hcap hcool
  simp only [Bool.not_eq_true] at hhalt
  simp only [List.any_eq_true, decide_eq_true_eq, not_exists, not_and] at hopen
  simp only [decide_eq_true_eq] at h
  exact ⟨hhalt, hopen, by omega, by omega, h⟩

theorem apart_entry (h : loop.Books runner step (step + 1)) {symbol : String}
    (hcan : loop.portfolio.canExecuteSignal runner symbol step date = true)
    {c : ReplayScheduledClosure} (hc : c ∈ loop.trades) (hsym : c.symbol = symbol) :
    c.closeStep ≤ step ∧ c.closeStep + runner.cooldownCandles < step := by
  obtain ⟨-, hopen, -, hcool, -⟩ := canExecute hcan
  have hle : c.closeStep ≤ step := by
    by_contra hlt
    have hin : (c.symbol, c.closeStep) ∈
        loop.portfolio.openPositions.map fun p => (p.symbol, p.plannedCloseStep) := by
      rw [h.positions]
      exact List.mem_map.mpr ⟨c, List.mem_filter.mpr ⟨hc, by simp; omega⟩, rfl⟩
    obtain ⟨p, hp, heq⟩ := List.mem_map.mp hin
    have hps : p.symbol = c.symbol := (Prod.mk.inj heq).1
    exact hopen p hp (hps.trans hsym)
  refine ⟨hle, ?_⟩
  obtain hdone | ⟨u, hu, hcu⟩ := h.cooled c hc (by omega)
  · exact hdone
  · rw [← hsym, hu] at hcool
    simp only [Option.getD_some] at hcool
    omega

variable {signal : StrategySignal Rat} {tracking : Tracking}

theorem trades_entered {result : HistoricalReplayStep ε}
    (htrade : result.trade = some (ReplayLoop.closureOf signal step date tracking)) :
    ((loop.track runner signal step date tracking).append result).trades =
      loop.trades ++ [ReplayLoop.closureOf signal step date tracking] := by
  simp [ReplayLoop.trades, ReplayLoop.append, ReplayLoop.track_results, htrade]

theorem past_or_new (h : loop.Books runner step (step + 1)) {c : ReplayScheduledClosure}
    (hc : c ∈ loop.trades ++ [ReplayLoop.closureOf signal step date tracking]) :
    c ∈ loop.trades ∧ c.openedAtStep < step ∨ c = ReplayLoop.closureOf signal step date tracking := by
  obtain hc | hc := List.mem_append.mp hc
  · exact .inl ⟨hc, h.past c hc⟩
  · exact .inr (List.mem_singleton.mp hc)

theorem positions_entered (h : loop.Books runner step (step + 1))
    (hopen : ∀ p ∈ loop.portfolio.openPositions, p.symbol ≠ signal.symbol) :
    (loop.track runner signal step date tracking).portfolio.openPositions.map
        (fun p => (p.symbol, p.plannedCloseStep)) =
      ((loop.trades ++ [ReplayLoop.closureOf signal step date tracking]).filter
        (step + 1 ≤ ·.closeStep)).map fun c => (c.symbol, c.closeStep) := by
  rw [ReplayLoop.track_open hopen, List.map_append, h.positions, List.filter_append,
    List.map_append, List.filter_singleton]
  congr 1
  by_cases hnow : tracking.closeStep ≤ step
  · have hdone : decide (step + 1 ≤ tracking.closeStep) = false := decide_eq_false (by omega)
    rw [if_pos hnow, ReplayLoop.closureOf_closeStep, hdone]
    rfl
  · have hopen' : decide (step + 1 ≤ tracking.closeStep) = true := decide_eq_true (by omega)
    rw [if_neg hnow, ReplayLoop.closureOf_closeStep, hopen']
    rfl

theorem cooled_entered (h : loop.Books runner step (step + 1))
    (hcan : loop.portfolio.canExecuteSignal runner signal.symbol step date = true)
    {c : ReplayScheduledClosure}
    (hc : c ∈ loop.trades ++ [ReplayLoop.closureOf signal step date tracking])
    (hlt : c.closeStep < step + 1) : c.closeStep + runner.cooldownCandles < step + 1 ∨
      ∃ u, (loop.track runner signal step date tracking).portfolio.cooldownUntil c.symbol = some u ∧
        c.closeStep + runner.cooldownCandles ≤ u := by
  rw [ReplayLoop.track_cooldown]
  obtain ⟨hc, -⟩ | rfl := h.past_or_new hc
  · by_cases hsym : c.symbol = signal.symbol
    · have hapart := (h.apart_entry hcan hc hsym).2
      exact .inl (by omega)
    · rw [if_neg (fun hboth => hsym hboth.2)]
      obtain hdone | hcooling := h.cooled c hc hlt
      · exact .inl (by omega)
      · exact .inr hcooling
  · rw [ReplayLoop.closureOf_closeStep] at hlt
    exact .inr ⟨_, if_pos ⟨by omega, rfl⟩, le_refl _⟩

/-- The new trade has no closure yet, and no other trade gets one from it. -/
theorem recorded_entered (h : loop.Books runner step (step + 1)) {c : ReplayScheduledClosure}
    (hc : c ∈ loop.trades ++ [ReplayLoop.closureOf signal step date tracking]) :
    ((loop.track runner signal step date tracking).recorded.filter fun r =>
        r.2.openedAtStep = c.openedAtStep) =
      if c.closeStep < step + 1 then [(max c.openedAtStep c.closeStep, c)] else [] := by
  rw [ReplayLoop.track_recorded, List.filter_append]
  obtain ⟨hc, hlt⟩ | rfl := h.past_or_new hc
  · rw [h.recorded c hc]
    have hother : ((if tracking.closeStep ≤ step then
        [(step, ReplayLoop.closureOf signal step date tracking)] else []).filter
        fun r => r.2.openedAtStep = c.openedAtStep) = [] := by
      split_ifs
      · rw [List.filter_eq_nil_iff]
        intro r hr heq
        rw [List.mem_singleton.mp hr] at heq
        have hat : step = c.openedAtStep := of_decide_eq_true heq
        omega
      · rfl
    rw [hother, List.append_nil]
  · have hnew : (loop.recorded.filter fun r => r.2.openedAtStep =
        (ReplayLoop.closureOf signal step date tracking).openedAtStep) = [] := by
      rw [List.filter_eq_nil_iff]
      intro r hr heq
      have hbefore := h.past r.2 (h.logged r hr).1
      have hat : r.2.openedAtStep = step := of_decide_eq_true heq
      omega
    rw [hnew, List.nil_append]
    by_cases hnow : tracking.closeStep ≤ step
    · rw [if_pos hnow, if_pos (by rw [ReplayLoop.closureOf_closeStep]; omega),
        List.filter_cons_of_pos (by simp), List.filter_nil, ReplayLoop.closureOf_openedAtStep,
        ReplayLoop.closureOf_closeStep, max_eq_left hnow]
    · rw [if_neg hnow, if_neg (by rw [ReplayLoop.closureOf_closeStep]; omega)]
      rfl

/-- A step with a trade enters it, and a trade without a later close is over at once. -/
theorem entered (h : loop.Books runner step (step + 1))
    (hcan : loop.portfolio.canExecuteSignal runner signal.symbol step date = true)
    {result : HistoricalReplayStep ε}
    (htrade : result.trade = some (ReplayLoop.closureOf signal step date tracking)) :
    ((loop.track runner signal step date tracking).append result).Books runner
      (step + 1) (step + 1) where
  past := by
    rw [trades_entered htrade]
    intro c hc
    obtain ⟨-, hlt⟩ | rfl := h.past_or_new hc
    · omega
    · rw [ReplayLoop.closureOf_openedAtStep]
      omega
  ordered := by
    rw [trades_entered htrade]
    refine List.pairwise_append.mpr ⟨h.ordered, List.pairwise_singleton _ _, ?_⟩
    intro c hc d hd
    rw [List.mem_singleton.mp hd]
    exact h.past c hc
  apart := by
    rw [trades_entered htrade]
    refine List.pairwise_append.mpr ⟨h.apart, List.pairwise_singleton _ _, ?_⟩
    intro c hc d hd hsym
    rw [List.mem_singleton.mp hd] at hsym ⊢
    exact h.apart_entry hcan hc hsym
  waiting := by
    rw [trades_entered htrade]
    intro k hk
    have hlater : step < k := by omega
    refine (ReplayLoop.track_scheduled hlater).trans ?_
    rw [h.waiting k hk, List.filter_append, List.filter_singleton]
    congr 1
    by_cases hclose : tracking.closeStep = k <;> simp [hclose]
  positions := by
    rw [trades_entered htrade]
    exact h.positions_entered (canExecute hcan).2.1
  open_le := by
    obtain ⟨-, hopen, hcap, -, -⟩ := canExecute hcan
    have hlength := congrArg List.length
      (@ReplayLoop.track_open _ _ runner step loop date signal tracking hopen)
    rw [List.length_append] at hlength
    have hone : (if tracking.closeStep ≤ step then []
        else [ReplayLoop.positionOf signal step tracking]).length ≤ 1 := by
      split_ifs <;> simp
    dsimp only [ReplayLoop.append]
    omega
  cooled := by
    rw [trades_entered htrade]
    exact fun c hc hlt => h.cooled_entered hcan hc hlt
  recorded := by
    rw [trades_entered htrade]
    exact fun c hc => h.recorded_entered hc
  logged := by
    rw [trades_entered htrade]
    intro r hr
    have hr : r ∈ (loop.track runner signal step date tracking).recorded := hr
    rw [ReplayLoop.track_recorded] at hr
    obtain hr | hr := List.mem_append.mp hr
    · have hold := h.logged r hr
      exact ⟨List.mem_append_left _ hold.1, hold.2⟩
    · split_ifs at hr
      · rw [List.mem_singleton.mp hr]
        exact ⟨List.mem_append_right _ (List.mem_singleton_self _), by omega⟩
      · cases hr

end ReplayLoop.Books

end

end AmaExecutionCore
