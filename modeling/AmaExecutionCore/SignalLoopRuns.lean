import AmaExecutionCore.SignalLoop

/-! What the polling runner keeps over every order in which the tasks of its ticks take their
steps: the cooldown between two entries of a symbol, the bound of the semaphore, and one call for
each symbol and tick. -/
namespace AmaExecutionCore
namespace SignalLoopRunner

variable {K : Type} {runner : SignalLoopRunner K} {s t : LoopState K}

section Steps

/-- The state in which every evaluation of a new tick waits for the semaphore. -/
def beginTick (runner : SignalLoopRunner K) (s : LoopState K) : LoopState K :=
  { s.happens .began with
    phase := .ticking
    stages := fun symbol => if symbol ∈ runner.keys then .waiting else .finished }

inductive Stepped (runner : SignalLoopRunner K) (s : LoopState K) : LoopState K → Prop
  | kept : Stepped runner s s
  | elapsed (microseconds : Nat) : Stepped runner s { s with clock := s.clock + microseconds }
  | stopped : Stepped runner s s.stop
  | ended : Stepped runner s { s with phase := .ended }
  | began (hphase : s.phase = .looping) (hstopped : s.stopped = false) :
    Stepped runner s (runner.beginTick s)
  | entered {symbol : String} {stage : EvaluationStage} (hstage : s.stages symbol = .waiting)
    (hroom : runner.holders s < runner.maxSymbolsConcurrent)
    (hrested : (s.states symbol).Rested s.clock)
    (hnext : stage = .blacklist ∨ stage = .strategy) : Stepped runner s (s.moveTo symbol stage)
  | checked {symbol : String} (hstage : s.stages symbol = .blacklist) :
    Stepped runner s (s.moveTo symbol .strategy)
  | finished (symbol : String) : Stepped runner s (s.moveTo symbol .finished)
  | halted (symbol : String) : Stepped runner s (s.stop.moveTo symbol .finished)
  | called {symbol : String} (hstage : s.stages symbol = .strategy) (snapshot : MarketSnapshot K)
    (request : ExecuteSignalRequest K) : Stepped runner s
      ((s.moveTo symbol .execution).happens (.called symbol snapshot request))
  | recorded {symbol : String} (hstage : s.stages symbol = .execution) : Stepped runner s
      (((s.recordEntry symbol).happens (.recorded symbol)).moveTo symbol .finished)
  | slept {minutes : Int} (hphase : s.phase = .ticking)
    (hfinished : ∀ symbol ∈ runner.keys, s.stages symbol = .finished)
    (hminutes : Intervals.intervalToMinutes runner.interval = .ok minutes) : Stepped runner s
      { s with phase := .sleeping (s.clock + secondsLength (waitSeconds minutes s.clock)) }
  | woke {wakeAt : Timestamp} (hphase : s.phase = .sleeping wakeAt)
    (hwake : s.stopped = true ∨ wakeAt ≤ s.clock) : Stepped runner s { s with phase := .looping }

namespace Stepped

variable {symbol : String}

theorem loop : Stepped runner s (runner.loop s) := by
  rw [SignalLoopRunner.loop]
  split
  · exact .kept
  · split
    · exact .ended
    · rename_i hphase hstopped
      exact .began (not_not.mp hphase) (Bool.eq_false_of_not_eq_true hstopped)

theorem enter : Stepped runner s (runner.enter symbol s) := by
  rw [SignalLoopRunner.enter]
  split
  · rename_i hready
    split
    · exact .finished symbol
    · rename_i hcooldown
      refine .entered hready.1 hready.2 ?_ ?_
      · exact SymbolState.rested_of_isInCooldown (Bool.eq_false_of_not_eq_true hcooldown)
      · split
        · exact .inl rfl
        · exact .inr rfl
  · exact .kept

theorem checkBlacklist (row : Except PyError DailyStat) :
    Stepped runner s (s.checkBlacklist symbol row) := by
  rw [LoopState.checkBlacklist.eq_def]
  split
  · rename_i hstage
    split
    · exact .finished symbol
    · split
      · exact .finished symbol
      · exact .checked hstage
  · exact .kept

/-- What was raised finishes the evaluation, and stops the runner if a guard raised it. -/
theorem raised (e : PyError) : Stepped runner s ((s.raised e).moveTo symbol .finished) := by
  rw [LoopState.raised]
  split
  · exact .halted symbol
  · exact .finished symbol

theorem dispatch (hstage : s.stages symbol = .strategy) (result : StrategyExecutionResult K) :
    Stepped runner s (runner.dispatch symbol result s) := by
  rw [SignalLoopRunner.dispatch.eq_def]
  split
  · split
    · exact .finished symbol
    · exact .called hstage _ _
  · exact .finished symbol

theorem evaluated (getSnapshot : MarketSnapshotRequest → Except PyError (MarketSnapshot K)) :
    Stepped runner s (runner.evaluated symbol getSnapshot s) := by
  rw [SignalLoopRunner.evaluated.eq_def]
  split
  · rename_i hstage
    split
    · exact raised _
    · exact dispatch hstage _
  · exact .kept

theorem executed (outcome : Except PyError Unit) :
    Stepped runner s (s.executed symbol outcome) := by
  rw [LoopState.executed.eq_def]
  split
  · rename_i hstage
    split
    · exact .recorded hstage
    · exact raised _
  · exact .kept

theorem sleep : Stepped runner s (runner.sleep s) := by
  rw [SignalLoopRunner.sleep.eq_def]
  split
  · rename_i hready
    split
    · exact .ended
    · rename_i hminutes
      exact .slept hready.1 hready.2 hminutes
  · exact .kept

theorem wake : Stepped runner s s.wake := by
  rw [LoopState.wake.eq_def]
  split
  · rename_i hphase
    split
    · rename_i hwake
      exact .woke hphase hwake
    · exact .kept
  · exact .kept

end Stepped

theorem stepped (runner : SignalLoopRunner K) (s : LoopState K) (action : LoopAction K) :
    Stepped runner s (runner.step s action) := by
  cases action with
  | elapse microseconds => exact .elapsed microseconds
  | loop => exact .loop
  | enter symbol => exact .enter
  | checkBlacklist symbol row => exact .checkBlacklist row
  | evaluated symbol getSnapshot => exact .evaluated getSnapshot
  | executed symbol outcome => exact .executed outcome
  | sleep => exact .sleep
  | wake => exact .wake
  | stop => exact .stopped

end Steps

section Cooldown

/-- A symbol that is past the check of its cooldown stays rested until its entry is recorded. -/
structure CooldownKept (runner : SignalLoopRunner K) (s : LoopState K) : Prop where
  entries : EntriesKept runner.cooldownSeconds s.clock s.states s.history
  rested : ∀ symbol, (s.stages symbol).holdsSemaphore = true → (s.states symbol).Rested s.clock

namespace CooldownKept

variable {symbol : String} {stage : EvaluationStage}

theorem initial (clock : Timestamp) : runner.CooldownKept (runner.initialState clock) :=
  ⟨.nil fun _ => rfl, fun _ hstage => absurd hstage Bool.false_ne_true⟩

theorem elapse (h : runner.CooldownKept s) (microseconds : Nat) :
    runner.CooldownKept { s with clock := s.clock + microseconds } := by
  have hlater : s.clock ≤ s.clock + microseconds :=
    Int.le_add_of_nonneg_right (Int.natCast_nonneg _)
  exact ⟨h.entries.elapse hlater, fun symbol hstage => (h.rested symbol hstage).later hlater⟩

theorem loops (h : runner.CooldownKept s) (phase : LoopPhase) (stopped : Bool) :
    runner.CooldownKept { s with phase := phase, stopped := stopped } :=
  ⟨h.entries, h.rested⟩

theorem moveTo (h : runner.CooldownKept s)
    (hstage : stage.holdsSemaphore = true → (s.states symbol).Rested s.clock) :
    runner.CooldownKept (s.moveTo symbol stage) where
  entries := h.entries
  rested := by
    intro other hother
    simp only [LoopState.moveTo] at hother ⊢
    by_cases heq : other = symbol
    · subst heq
      rw [Function.update_self] at hother
      exact hstage hother
    · rw [Function.update_of_ne heq] at hother
      exact h.rested other hother

theorem finish (h : runner.CooldownKept s) (symbol : String) :
    runner.CooldownKept (s.moveTo symbol .finished) :=
  h.moveTo fun hfinished => absurd hfinished Bool.false_ne_true

theorem record (h : runner.CooldownKept s) (symbol : String) : runner.CooldownKept
    (((s.recordEntry symbol).happens (.recorded symbol)).moveTo symbol .finished) where
  entries := h.entries.record symbol
  rested := by
    intro other hother
    simp only [LoopState.moveTo, LoopState.happens, LoopState.recordEntry] at hother ⊢
    by_cases heq : other = symbol
    · subst heq
      rw [Function.update_self] at hother
      exact absurd hother Bool.false_ne_true
    · rw [Function.update_of_ne heq] at hother ⊢
      exact h.rested other hother

theorem begins (h : runner.CooldownKept s) : runner.CooldownKept (runner.beginTick s) := by
  refine ⟨h.entries.append (by simp) (by simp), fun symbol hstage => ?_⟩
  simp only [beginTick] at hstage
  split at hstage <;> exact absurd hstage Bool.false_ne_true

theorem step (h : runner.CooldownKept s) (hstep : Stepped runner s t) : runner.CooldownKept t := by
  cases hstep with
  | kept => exact h
  | elapsed microseconds => exact h.elapse microseconds
  | stopped => exact h.loops s.phase true
  | ended => exact h.loops .ended s.stopped
  | began hphase hstopped => exact h.begins
  | entered hstage hroom hrested hnext => exact h.moveTo fun _ => hrested
  | checked hstage => exact h.moveTo fun _ => h.rested _ (by rw [hstage]; rfl)
  | finished symbol => exact h.finish symbol
  | halted symbol => exact (h.loops s.phase true).finish symbol
  | called hstage snapshot request =>
    have hrested := h.rested _ (by rw [hstage]; rfl)
    have hmoved : runner.CooldownKept (s.moveTo _ .execution) := h.moveTo fun _ => hrested
    exact ⟨h.entries.call hrested snapshot request, hmoved.rested⟩
  | recorded hstage => exact h.record _
  | slept hphase hfinished hminutes => exact h.loops _ s.stopped
  | woke hphase hwake => exact h.loops .looping s.stopped

end CooldownKept

/-- In every run, the call for a symbol comes no earlier than the cooldown after every entry of
the symbol that was recorded before. -/
theorem calls_spaced (runner : SignalLoopRunner K) (clock : Timestamp)
    (actions : List (LoopAction K)) : Spaced runner.cooldownSeconds
      (Runs.run runner.step (runner.initialState clock) actions).history :=
  (Runs.run_invariant (I := runner.CooldownKept) actions (.initial clock) fun s action h =>
    h.step (runner.stepped s action)).entries.spaced

end Cooldown

section Concurrency

/-- One value of a function changes, and so at most one element counts that did not. -/
theorem countP_update_le {α β : Type*} [DecidableEq α] {f : α → β} {p : β → Bool} {xs : List α}
    (h : xs.Nodup) (a : α) (b : β) :
    xs.countP (fun x => p (Function.update f a b x)) ≤ xs.countP (fun x => p (f x)) + 1 := by
  induction xs with
  | nil => exact Nat.zero_le _
  | cons x xs ih =>
    obtain ⟨hnotin, hnodup⟩ := List.nodup_cons.mp h
    rw [List.countP_cons, List.countP_cons]
    by_cases hx : x = a
    · subst hx
      have hrest : xs.countP (fun y => p (Function.update f x b y)) =
          xs.countP (fun y => p (f y)) := by
        apply List.countP_congr
        intro y hy
        rw [Function.update_of_ne fun heq : y = x => hnotin (heq ▸ hy)]
      rw [hrest]
      split <;> split <;> omega
    · have htail := ih hnodup
      rw [Function.update_of_ne hx]
      omega

variable {symbol : String} {stage : EvaluationStage}

theorem holders_moveTo_le
    (h : stage.holdsSemaphore = true → (s.stages symbol).holdsSemaphore = true) :
    runner.holders (s.moveTo symbol stage) ≤ runner.holders s := by
  apply List.countP_mono_left
  intro other _ hother
  simp only [LoopState.moveTo] at hother
  by_cases heq : other = symbol
  · subst heq
    rw [Function.update_self] at hother
    exact h hother
  · rwa [Function.update_of_ne heq] at hother

theorem holders_finish_le : runner.holders (s.moveTo symbol .finished) ≤ runner.holders s :=
  holders_moveTo_le fun hfinished => absurd hfinished Bool.false_ne_true

theorem holders_beginTick : runner.holders (runner.beginTick s) = 0 := by
  apply List.countP_eq_zero.mpr
  intro symbol _
  simp only [beginTick]
  split <;> exact Bool.false_ne_true

theorem holders_step (h : runner.holders s ≤ runner.maxSymbolsConcurrent)
    (hstep : Stepped runner s t) : runner.holders t ≤ runner.maxSymbolsConcurrent := by
  cases hstep with
  | kept | elapsed | stopped | ended | slept | woke => exact h
  | began hphase hstopped => exact holders_beginTick.le.trans (Nat.zero_le _)
  | entered hstage hroom hrested hnext =>
    exact (countP_update_le (List.nodup_dedup _) _ _).trans hroom
  | checked hstage => exact (holders_moveTo_le fun _ => by rw [hstage]; rfl).trans h
  | finished symbol => exact holders_finish_le.trans h
  | halted symbol => exact (holders_finish_le (s := s.stop)).trans h
  | called hstage snapshot request =>
    exact (holders_moveTo_le (s := s) fun _ => by rw [hstage]; rfl).trans h
  | recorded hstage => exact (holders_finish_le (s := s)).trans h

end Concurrency

section Calls

variable {symbol : String} {stage : EvaluationStage}

def begun (history : RunnerHistory K) : Nat :=
  history.countP fun entry => entry.2.isBegan

def callsOf (symbol : String) (history : RunnerHistory K) : Nat :=
  history.countP fun entry => entry.2.isCallOf symbol

/-- The call that the evaluation of the symbol can still make. -/
def pendingCall (symbol : String) (s : LoopState K) : Nat := (s.stages symbol).isPending.toNat

theorem begun_append {history : RunnerHistory K} {now : Timestamp} {event : RunnerEvent K} :
    begun (history ++ [(now, event)]) = begun history + event.isBegan.toNat := by
  rw [begun, begun, List.countP_append, List.countP_singleton]
  cases event.isBegan <;> rfl

theorem callsOf_append {history : RunnerHistory K} {now : Timestamp} {event : RunnerEvent K} :
    callsOf symbol (history ++ [(now, event)]) =
      callsOf symbol history + (event.isCallOf symbol).toNat := by
  rw [callsOf, callsOf, List.countP_append, List.countP_singleton]
  cases event.isCallOf symbol <;> rfl

theorem pendingCall_moveTo_le
    (h : stage.isPending = true → (s.stages symbol).isPending = true) (other : String) :
    pendingCall other (s.moveTo symbol stage) ≤ pendingCall other s := by
  simp only [pendingCall, LoopState.moveTo]
  by_cases heq : other = symbol
  · subst heq
    rw [Function.update_self]
    exact Bool.toNat_le_toNat h
  · rw [Function.update_of_ne heq]

theorem pendingCall_finish_le (symbol other : String) :
    pendingCall other (s.moveTo symbol .finished) ≤ pendingCall other s := by
  apply pendingCall_moveTo_le
  exact fun hfinished => absurd hfinished Bool.false_ne_true

/-- A step begins a tick, with at most one call for each symbol to come, or makes no more calls
than were still to come. -/
theorem calls_step (hstep : Stepped runner s t) :
    (begun t.history = begun s.history ∧ ∀ symbol, callsOf symbol t.history + pendingCall symbol t ≤
      callsOf symbol s.history + pendingCall symbol s) ∨
    (s.stopped = false ∧ begun t.history = begun s.history + 1 ∧
      ∀ symbol, callsOf symbol t.history = callsOf symbol s.history) := by
  cases hstep with
  | kept | elapsed | stopped | ended | slept | woke => exact .inl ⟨rfl, fun _ => le_rfl⟩
  | began hphase hstopped => exact .inr ⟨hstopped, begun_append, fun symbol => callsOf_append⟩
  | entered hstage hroom hrested hnext =>
    exact .inl ⟨rfl, fun other => Nat.add_le_add_left
      (pendingCall_moveTo_le (fun _ => by rw [hstage]; rfl) other) _⟩
  | checked hstage =>
    exact .inl ⟨rfl, fun other => Nat.add_le_add_left
      (pendingCall_moveTo_le (fun _ => by rw [hstage]; rfl) other) _⟩
  | finished symbol =>
    exact .inl ⟨rfl, fun other => Nat.add_le_add_left (pendingCall_finish_le symbol other) _⟩
  | halted symbol =>
    exact .inl ⟨rfl, fun other => Nat.add_le_add_left
      (pendingCall_finish_le (s := s.stop) symbol other) _⟩
  | @called symbol hstage snapshot request =>
    refine .inl ⟨begun_append, fun other => ?_⟩
    simp only [LoopState.happens, callsOf_append, pendingCall, LoopState.moveTo,
      RunnerEvent.isCallOf]
    by_cases heq : symbol = other
    · subst heq
      simp [hstage, EvaluationStage.isPending]
    · simp [heq, Function.update_of_ne (Ne.symm heq)]
  | @recorded symbol hstage =>
    refine .inl ⟨begun_append, fun other => ?_⟩
    have hcalls : callsOf other (s.history ++ [(s.clock, .recorded symbol)]) =
        callsOf other s.history := callsOf_append
    exact (Nat.add_le_add_right hcalls.le _).trans
      (Nat.add_le_add_left (pendingCall_finish_le (s := s) symbol other) _)

theorem stopped_step (hstep : Stepped runner s t) (h : s.stopped = true) : t.stopped = true := by
  cases hstep with
  | stopped | halted => rfl
  | began hphase hstopped =>
    rw [hstopped] at h
    exact absurd h Bool.false_ne_true
  | _ => exact h

/-- Each tick calls at most once for each symbol. -/
structure CallsBounded (runner : SignalLoopRunner K) (s : LoopState K) : Prop where
  holders : runner.holders s ≤ runner.maxSymbolsConcurrent
  calls : ∀ symbol, callsOf symbol s.history + pendingCall symbol s ≤ begun s.history

theorem CallsBounded.step (h : runner.CallsBounded s) (hstep : Stepped runner s t) :
    runner.CallsBounded t where
  holders := holders_step h.holders hstep
  calls := by
    intro symbol
    have hbefore := h.calls symbol
    obtain ⟨hbegun, hcalls⟩ | ⟨-, hbegun, hcalls⟩ := calls_step hstep
    · rw [hbegun]
      exact (hcalls symbol).trans hbefore
    · have hpending : pendingCall symbol t ≤ 1 := Bool.toNat_le _
      rw [hbegun, hcalls]
      omega

/-- A tick has begun, or the calls that were to come are the only ones that do. -/
def CallsLeft (s t : LoopState K) : Prop :=
  begun s.history < begun t.history ∨ begun t.history = begun s.history ∧
    ∀ symbol, callsOf symbol t.history + pendingCall symbol t ≤
      callsOf symbol s.history + pendingCall symbol s

theorem CallsLeft.step {u : LoopState K} (h : CallsLeft s t) (hstep : Stepped runner t u) :
    CallsLeft s u := by
  obtain ⟨hbegun, hcalls⟩ | ⟨-, hbegun, -⟩ := calls_step hstep
  · obtain hlater | ⟨hsame, hleft⟩ := h
    · exact .inl (hbegun ▸ hlater)
    · exact .inr ⟨hbegun.trans hsame, fun symbol => (hcalls symbol).trans (hleft symbol)⟩
  · left
    obtain hlater | ⟨hsame, -⟩ := h <;> omega

/-- The stop event is set, and no tick has begun. -/
structure NoTickBegun (s t : LoopState K) : Prop where
  stopped : t.stopped = true
  begun : begun t.history = begun s.history

theorem NoTickBegun.step {u : LoopState K} (h : NoTickBegun s t) (hstep : Stepped runner t u) :
    NoTickBegun s u := by
  obtain ⟨hbegun, -⟩ | ⟨hstopped, -, -⟩ := calls_step hstep
  · exact ⟨stopped_step hstep h.stopped, hbegun.trans h.begun⟩
  · rw [h.stopped] at hstopped
    exact absurd hstopped Bool.true_eq_false.mp

/-- In every run the semaphore bounds the evaluations at work, and as long as no tick begins a
symbol has at most one call. After a stop no tick begins. -/
theorem run_bounded (runner : SignalLoopRunner K) (clock : Timestamp)
    (before after : List (LoopAction K)) :
    let s := Runs.run runner.step (runner.initialState clock) before
    let t := Runs.run runner.step s after
    runner.holders t ≤ runner.maxSymbolsConcurrent ∧
      (∀ symbol, callsOf symbol t.history ≤ begun t.history) ∧
      (begun t.history = begun s.history →
        ∀ symbol, callsOf symbol t.history ≤ callsOf symbol s.history + 1) ∧
      (s.stopped = true → begun t.history = begun s.history ∧
        ∀ symbol, callsOf symbol t.history ≤ callsOf symbol s.history + 1) := by
  intro s t
  have hinitial : runner.CallsBounded (runner.initialState clock) := by
    refine ⟨?_, fun symbol => Nat.zero_le _⟩
    have hnone : runner.holders (runner.initialState clock) = 0 :=
      List.countP_eq_zero.mpr fun _ _ => Bool.false_ne_true
    exact hnone.le.trans (Nat.zero_le _)
  have hreached : runner.CallsBounded t :=
    Runs.run_invariant (I := runner.CallsBounded) after
      (Runs.run_invariant (I := runner.CallsBounded) before hinitial fun u action h =>
        h.step (runner.stepped u action)) fun u action h => h.step (runner.stepped u action)
  have hleft : CallsLeft s t :=
    Runs.run_invariant (I := CallsLeft s) after (.inr ⟨rfl, fun _ => le_rfl⟩)
      fun u action h => h.step (runner.stepped u action)
  have hone (hsame : begun t.history = begun s.history) (symbol : String) :
      callsOf symbol t.history ≤ callsOf symbol s.history + 1 := by
    obtain hlater | ⟨-, hcalls⟩ := hleft
    · omega
    · have hpending : pendingCall symbol s ≤ 1 := Bool.toNat_le _
      have hcalls := hcalls symbol
      omega
  refine ⟨hreached.holders, fun symbol => ?_, hone, fun hstopped => ?_⟩
  · exact (Nat.le_add_right _ _).trans (hreached.calls symbol)
  · have hnone : NoTickBegun s t :=
      Runs.run_invariant (I := NoTickBegun s) after ⟨hstopped, rfl⟩
        fun u action h => h.step (runner.stepped u action)
    exact ⟨hnone.begun, hone hnone.begun⟩

end Calls

end SignalLoopRunner
end AmaExecutionCore
