import AmaExecutionCore.WebSocketRunner

/-! What the WebSocket runner keeps while the feed goes on: every call is for the snapshot that it
has just taken, which was current and no recovery, and no earlier than the cooldown. -/
namespace AmaExecutionCore
namespace WebSocketSignalRunner

variable {K : Type} {runner : WebSocketSignalRunner K} {s t : WebSocketState K}

/-- The snapshot was taken as it came from a candle, and was not stale then. -/
def TookCurrent (runner : WebSocketSignalRunner K) (snapshot : MarketSnapshot K)
    (entry : Timestamp × RunnerEvent K) : Prop :=
  ∃ feedSnapshot, entry.2 = .taken feedSnapshot ∧ feedSnapshot.snapshot = snapshot ∧
    feedSnapshot.gapRecovered = false ∧ runner.isStale snapshot entry.1 = .ok false

/-- A call is for the symbol of a snapshot, with the signal that the strategy has for it, right
after the snapshot was taken. -/
def CallsFollow (runner : WebSocketSignalRunner K) (history : RunnerHistory K) : Prop :=
  ∀ before at_ symbol snapshot request after,
    history = before ++ (at_, .called symbol snapshot request) :: after →
      symbol = snapshot.symbol ∧ runner.requestOf snapshot = some request ∧
        ∃ entry ∈ before.getLast?, runner.TookCurrent snapshot entry

inductive Stepped (runner : WebSocketSignalRunner K) (s : WebSocketState K)
    (action : WebSocketAction K) : WebSocketState K → Prop
  | kept : Stepped runner s action s
  | elapsed (microseconds : Nat) : Stepped runner s action { s with clock := s.clock + microseconds }
  | fed {feedAction : FeedAction K} (haction : action = .feed feedAction) :
    Stepped runner s action { s with feed := runner.feed.step s.feed feedAction }
  | stopped : Stepped runner s action s.stop
  /-- the loop goes on, or the task ends -/
  | left {stage : WebSocketStage K}
    (hstage : stage = .looping ∨ stage = .ended ∨
      (stage = .getting ∧ s.stage = .looping ∧ s.stopped = false)) :
    Stepped runner s action (s.goTo stage)
  | skipped {feedSnapshot : CandleFeedSnapshot K} {rest : List (CandleFeedSnapshot K)}
    {stage : WebSocketStage K} (hgetting : s.stage = .getting)
    (hqueue : s.feed.queue = feedSnapshot :: rest) (hstage : stage = .looping ∨ stage = .ended) :
    Stepped runner s action (({ s with feed := runner.feed.step s.feed .taken }.happens
      (.taken feedSnapshot)).goTo stage)
  | took {feedSnapshot : CandleFeedSnapshot K} {rest : List (CandleFeedSnapshot K)}
    {stage : WebSocketStage K} (hgetting : s.stage = .getting)
    (hqueue : s.feed.queue = feedSnapshot :: rest)
    (hcurrent : runner.TookCurrent feedSnapshot.snapshot (s.clock, .taken feedSnapshot))
    (hrested : (s.states feedSnapshot.snapshot.symbol).Rested s.clock)
    (hstage : stage = .blacklist feedSnapshot.snapshot ∨ stage = .strategy feedSnapshot.snapshot) :
    Stepped runner s action (({ s with feed := runner.feed.step s.feed .taken }.happens
      (.taken feedSnapshot)).goTo stage)
  | checked {snapshot : MarketSnapshot K} (hstage : s.stage = .blacklist snapshot) :
    Stepped runner s action (s.goTo (.strategy snapshot))
  | called {snapshot : MarketSnapshot K} {request : ExecuteSignalRequest K}
    (hstage : s.stage = .strategy snapshot) (hrequest : runner.requestOf snapshot = some request) :
    Stepped runner s action ((s.happens (.called snapshot.symbol snapshot request)).goTo
      (.execution snapshot.symbol))
  | recorded {symbol : String} (hstage : s.stage = .execution symbol) :
    Stepped runner s action (((s.recordEntry symbol).happens (.recorded symbol)).goTo .looping)
  | halted : Stepped runner s action (s.stop.goTo .looping)

namespace Stepped

variable {action : WebSocketAction K}

theorem loop : Stepped runner s action s.loop := by
  rw [WebSocketState.loop.eq_def]
  split
  · rename_i hstage
    split
    · exact .left (.inr (.inl rfl))
    · rename_i hstopped
      exact .left (.inr (.inr ⟨rfl, hstage, Bool.eq_false_of_not_eq_true hstopped⟩))
  · exact .kept

theorem timeout : Stepped runner s action s.timeout := by
  rw [WebSocketState.timeout.eq_def]
  split
  · exact .left (.inl rfl)
  · exact .kept

theorem take : Stepped runner s action (runner.take s) := by
  rw [WebSocketSignalRunner.take.eq_def]
  split
  · rename_i feedSnapshot rest hgetting hqueue
    rw [WebSocketSignalRunner.check.eq_def]
    dsimp only
    split
    · exact .skipped hgetting hqueue (.inl rfl)
    · rename_i hgap
      split
      · exact .skipped hgetting hqueue (.inr rfl)
      · exact .skipped hgetting hqueue (.inl rfl)
      · rename_i hcurrent
        have htook : runner.TookCurrent feedSnapshot.snapshot (s.clock, .taken feedSnapshot) :=
          ⟨feedSnapshot, rfl, rfl, Bool.eq_false_of_not_eq_true hgap, hcurrent⟩
        split
        · exact .skipped hgetting hqueue (.inl rfl)
        · rename_i hcooldown
          have hrested : (s.states feedSnapshot.snapshot.symbol).Rested s.clock :=
            SymbolState.rested_of_isInCooldown (Bool.eq_false_of_not_eq_true hcooldown)
          split
          · exact .took hgetting hqueue htook hrested (.inl rfl)
          · exact .took hgetting hqueue htook hrested (.inr rfl)
  · exact .kept

theorem checkBlacklist (row : Except PyError DailyStat) :
    Stepped runner s action (s.checkBlacklist row) := by
  rw [WebSocketState.checkBlacklist.eq_def]
  split
  · rename_i hstage
    split
    · exact .left (.inr (.inl rfl))
    · split
      · exact .left (.inl rfl)
      · exact .checked hstage
  · exact .kept

theorem evaluated : Stepped runner s action (runner.evaluated s) := by
  rw [WebSocketSignalRunner.evaluated.eq_def]
  split
  · rename_i hstage
    split
    · exact .left (.inl rfl)
    · rename_i hrequest
      exact .called hstage hrequest
  · exact .kept

theorem executed (outcome : Except PyError Unit) : Stepped runner s action (s.executed outcome) := by
  rw [WebSocketState.executed.eq_def]
  split
  · rename_i hstage
    split
    · exact .recorded hstage
    · split
      · exact .halted
      · exact .left (.inl rfl)
  · exact .kept

end Stepped

theorem stepped (runner : WebSocketSignalRunner K) (s : WebSocketState K)
    (action : WebSocketAction K) : Stepped runner s action (runner.step s action) := by
  cases action with
  | elapse microseconds => exact .elapsed microseconds
  | feed feedAction =>
    cases feedAction with
    | taken => exact .kept
    | _ => exact .fed rfl
  | loop => exact .loop
  | timeout => exact .timeout
  | take => exact .take
  | checkBlacklist row => exact .checkBlacklist row
  | evaluated => exact .evaluated
  | executed outcome => exact .executed outcome
  | stop => exact .stopped

section Calls

theorem CallsFollow.append {history : RunnerHistory K} {now : Timestamp} {event : RunnerEvent K}
    (h : runner.CallsFollow history)
    (hcall : ∀ symbol snapshot request, event = .called symbol snapshot request →
      symbol = snapshot.symbol ∧ runner.requestOf snapshot = some request ∧
        ∃ entry ∈ history.getLast?, runner.TookCurrent snapshot entry) :
    runner.CallsFollow (history ++ [(now, event)]) := by
  intro before at_ symbol snapshot request after heq
  obtain rfl | ⟨middle, last, rfl⟩ := List.eq_nil_or_concat after
  · obtain ⟨rfl, hlast⟩ := List.append_inj' heq rfl
    rw [List.singleton_inj, Prod.mk.injEq] at hlast
    exact hcall symbol snapshot request hlast.2
  · have hsplit : history ++ [(now, event)] =
        (before ++ (at_, .called symbol snapshot request) :: middle) ++ [last] := by
      simpa using heq
    exact h before at_ symbol snapshot request middle (List.append_inj' hsplit rfl).1

/-- The runner, with what it knows of the snapshot that it looks at. -/
structure Sound (runner : WebSocketSignalRunner K) (s : WebSocketState K) : Prop where
  entries : EntriesKept runner.cooldownSeconds s.clock s.states s.history
  rested : ∀ symbol ∈ s.stage.symbol, (s.states symbol).Rested s.clock
  took : ∀ snapshot ∈ s.stage.snapshot,
    ∃ entry ∈ s.history.getLast?, runner.TookCurrent snapshot entry
  follow : runner.CallsFollow s.history

namespace Sound

theorem initial (clock : Timestamp) (answers : String → List (MarketCandle K)) :
    runner.Sound (runner.initialState clock answers) where
  entries := .nil fun _ => rfl
  rested := fun _ hsymbol => absurd hsymbol (by simp [initialState, WebSocketStage.symbol])
  took := fun _ hsnapshot => absurd hsnapshot (by simp [initialState, WebSocketStage.snapshot])
  follow := fun before _ _ _ _ _ heq => absurd heq (by simp [initialState])

theorem goTo (h : runner.Sound s) {stage : WebSocketStage K} (hsymbol : stage.symbol = none)
    (hsnapshot : stage.snapshot = none) : runner.Sound (s.goTo stage) where
  entries := h.entries
  rested := by simp [WebSocketState.goTo, hsymbol]
  took := by simp [WebSocketState.goTo, hsnapshot]
  follow := h.follow

theorem stop (h : runner.Sound s) : runner.Sound s.stop :=
  ⟨h.entries, h.rested, h.took, h.follow⟩

/-- A snapshot that is taken and left, or looked at if it is current and its symbol rested. -/
theorem taken (h : runner.Sound s) (feed : CandleFeedState K)
    {feedSnapshot : CandleFeedSnapshot K} {stage : WebSocketStage K}
    (hrested : ∀ symbol ∈ stage.symbol, (s.states symbol).Rested s.clock)
    (htook : ∀ snapshot ∈ stage.snapshot,
      runner.TookCurrent snapshot (s.clock, .taken feedSnapshot)) :
    runner.Sound (({ s with feed := feed }.happens (.taken feedSnapshot)).goTo stage) where
  entries := h.entries.append (by simp) (by simp)
  rested := hrested
  took := by
    intro snapshot hsnapshot
    exact ⟨_, List.getLast?_concat, htook snapshot hsnapshot⟩
  follow := h.follow.append fun _ _ _ hcalled => absurd hcalled (by simp)

theorem step (h : runner.Sound s) {action : WebSocketAction K} (hstep : Stepped runner s action t) :
    runner.Sound t := by
  cases hstep with
  | kept => exact h
  | elapsed microseconds =>
    have hlater : s.clock ≤ s.clock + microseconds :=
      Int.le_add_of_nonneg_right (Int.natCast_nonneg _)
    exact ⟨h.entries.elapse hlater, fun symbol hsymbol => (h.rested symbol hsymbol).later hlater,
      h.took, h.follow⟩
  | fed haction => exact ⟨h.entries, h.rested, h.took, h.follow⟩
  | stopped => exact h.stop
  | left hstage => obtain rfl | rfl | ⟨rfl, -⟩ := hstage <;> exact h.goTo rfl rfl
  | skipped hgetting hqueue hstage =>
    obtain rfl | rfl := hstage <;>
      exact h.taken _ (by simp [WebSocketStage.symbol]) (by simp [WebSocketStage.snapshot])
  | took hgetting hqueue hcurrent hrested hstage =>
    obtain rfl | rfl := hstage <;>
      exact h.taken _ (fun symbol hsymbol => Option.some.inj hsymbol ▸ hrested)
        (fun snapshot hsnapshot => Option.some.inj hsnapshot ▸ hcurrent)
  | checked hstage =>
    exact ⟨h.entries, fun symbol hsymbol => h.rested symbol (by rw [hstage]; exact hsymbol),
      fun snapshot hsnapshot => h.took snapshot (by rw [hstage]; exact hsnapshot), h.follow⟩
  | @called snapshot request hstage hrequest =>
    have hrested : (s.states snapshot.symbol).Rested s.clock :=
      h.rested snapshot.symbol (by rw [hstage]; rfl)
    have htook := h.took snapshot (by rw [hstage]; rfl)
    refine ⟨h.entries.call hrested snapshot request, ?_, ?_, h.follow.append ?_⟩
    · exact fun symbol hsymbol => Option.some.inj hsymbol ▸ hrested
    · simp [WebSocketState.goTo, WebSocketStage.snapshot]
    · intro symbol snapshot' request' hcalled
      obtain ⟨rfl, rfl, rfl⟩ := RunnerEvent.called.inj hcalled
      exact ⟨rfl, hrequest, htook⟩
  | recorded hstage =>
    refine ⟨h.entries.record _, ?_, ?_, h.follow.append fun _ _ _ hcalled => absurd hcalled (by simp)⟩
    · simp [WebSocketState.goTo, WebSocketStage.symbol]
    · simp [WebSocketState.goTo, WebSocketStage.snapshot]
  | halted => exact h.stop.goTo rfl rfl

end Sound

def takes (history : RunnerHistory K) : Nat := history.countP fun entry => entry.2.isTaken

theorem takes_append {history : RunnerHistory K} {now : Timestamp} {event : RunnerEvent K} :
    takes (history ++ [(now, event)]) = takes history + event.isTaken.toNat := by
  rw [takes, takes, List.countP_append, List.countP_singleton]
  cases event.isTaken <;> rfl

/-- The stop event is set, and no snapshot is taken but the one that the runner waits for. -/
structure Stopping (n : Nat) (s : WebSocketState K) : Prop where
  stopped : s.stopped = true
  bounded : takes s.history + s.stage.isGetting.toNat ≤ n

theorem Stopping.step {n : Nat} (h : Stopping n s) {action : WebSocketAction K}
    (hstep : Stepped runner s action t) : Stopping n t := by
  have hbound := h.bounded
  have hfewer : takes s.history ≤ n := (Nat.le_add_right _ _).trans hbound
  cases hstep with
  | kept | elapsed | fed => exact ⟨h.stopped, hbound⟩
  | stopped => exact ⟨rfl, hbound⟩
  | left hstage =>
    obtain rfl | rfl | ⟨-, -, hrunning⟩ := hstage
    · exact ⟨h.stopped, hfewer⟩
    · exact ⟨h.stopped, hfewer⟩
    · rw [h.stopped] at hrunning
      exact absurd hrunning Bool.true_eq_false.mp
  | skipped hgetting hqueue hstage =>
    rw [hgetting] at hbound
    refine ⟨h.stopped, ?_⟩
    simp only [WebSocketState.goTo, WebSocketState.happens, takes_append]
    obtain rfl | rfl := hstage <;> exact hbound
  | took hgetting hqueue hcurrent hrested hstage =>
    rw [hgetting] at hbound
    refine ⟨h.stopped, ?_⟩
    simp only [WebSocketState.goTo, WebSocketState.happens, takes_append]
    obtain rfl | rfl := hstage <;> exact hbound
  | checked hstage => exact ⟨h.stopped, hfewer⟩
  | called hstage hrequest =>
    refine ⟨h.stopped, ?_⟩
    simp only [WebSocketState.goTo, WebSocketState.happens, takes_append]
    exact hfewer
  | recorded hstage =>
    refine ⟨h.stopped, ?_⟩
    simp only [WebSocketState.goTo, WebSocketState.happens, takes_append]
    exact hfewer
  | halted => exact ⟨rfl, hfewer⟩

/-- In every run, with whatever the feed does meanwhile, a call comes no earlier than the cooldown
after every entry of its symbol, and is for the snapshot that was taken just before: one that came
from a candle and was current, with the signal that the strategy has for it. Once the stop event is
set at most one more snapshot is taken. -/
theorem calls_current (runner : WebSocketSignalRunner K) (clock : Timestamp)
    (answers : String → List (MarketCandle K)) (before after : List (WebSocketAction K)) :
    let s := Runs.run runner.step (runner.initialState clock answers) before
    let t := Runs.run runner.step s after
    Spaced runner.cooldownSeconds t.history ∧ runner.CallsFollow t.history ∧
      (s.stopped = true → takes t.history ≤ takes s.history + 1) := by
  intro s t
  have hsound : runner.Sound t :=
    Runs.run_invariant (I := runner.Sound) after
      (Runs.run_invariant (I := runner.Sound) before (.initial clock answers) fun u action h =>
        h.step (runner.stepped u action)) fun u action h => h.step (runner.stepped u action)
  refine ⟨hsound.entries.spaced, hsound.follow, fun hstopped => ?_⟩
  have hstopping : Stopping (takes s.history + 1) t :=
    Runs.run_invariant (I := Stopping (takes s.history + 1)) after
      ⟨hstopped, Nat.add_le_add_left (Bool.toNat_le _) _⟩
      fun u action h => h.step (runner.stepped u action)
  exact (Nat.le_add_right _ _).trans hstopping.bounded

end Calls

section Windows

/-- The candles that come and the answers of the recoveries are as the feed expects them. -/
def FeedRegular (runner : WebSocketSignalRunner K) (s : WebSocketState K) :
    WebSocketAction K → Prop
  | .feed action =>
    runner.feed.AnswersConsecutive s.feed action ∧ runner.feed.Fits s.feed action
  | _ => True

/-- The windows are sound, and so is every snapshot that was taken from the queue. -/
structure WindowsSound (runner : WebSocketSignalRunner K) (s : WebSocketState K) : Prop where
  sound : runner.Sound s
  feed : BybitCandleFeed.SoundFeed runner.feed s.feed
  taken : ∀ at_ feedSnapshot, (at_, .taken feedSnapshot) ∈ s.history →
    runner.feed.Contiguous feedSnapshot.snapshot.candles

namespace WindowsSound

theorem happens (h : runner.WindowsSound s) {event : RunnerEvent K}
    (hevent : ∀ feedSnapshot, event = .taken feedSnapshot →
      runner.feed.Contiguous feedSnapshot.snapshot.candles) :
    ∀ at_ feedSnapshot, (at_, .taken feedSnapshot) ∈ s.history ++ [(s.clock, event)] →
      runner.feed.Contiguous feedSnapshot.snapshot.candles := by
  intro at_ feedSnapshot hmem
  obtain hold | hlast := List.mem_append.mp hmem
  · exact h.taken at_ feedSnapshot hold
  · rw [List.mem_singleton, Prod.mk.injEq] at hlast
    exact hevent feedSnapshot hlast.2.symm

theorem take (h : runner.WindowsSound s) {feedSnapshot : CandleFeedSnapshot K}
    {rest : List (CandleFeedSnapshot K)} (hqueue : s.feed.queue = feedSnapshot :: rest) :
    runner.feed.Contiguous feedSnapshot.snapshot.candles :=
  h.feed.queue feedSnapshot (by rw [hqueue]; exact List.mem_cons_self)

theorem step (h : runner.WindowsSound s) {action : WebSocketAction K}
    (hregular : runner.FeedRegular s action) (hstep : Stepped runner s action t) :
    runner.WindowsSound t := by
  have hsound := h.sound.step hstep
  have hpopped : BybitCandleFeed.SoundFeed runner.feed (runner.feed.step s.feed .taken) :=
    h.feed.step .taken trivial trivial
  cases hstep with
  | kept | elapsed | stopped | left | checked | halted => exact ⟨hsound, h.feed, h.taken⟩
  | @fed feedAction haction =>
    subst haction
    exact ⟨hsound, h.feed.step feedAction hregular.1 hregular.2, h.taken⟩
  | skipped hgetting hqueue hstage =>
    refine ⟨hsound, hpopped, h.happens fun _ heq => ?_⟩
    obtain rfl := RunnerEvent.taken.inj heq
    exact h.take hqueue
  | took hgetting hqueue hcurrent hrested hstage =>
    refine ⟨hsound, hpopped, h.happens fun _ heq => ?_⟩
    obtain rfl := RunnerEvent.taken.inj heq
    exact h.take hqueue
  | called hstage hrequest => exact ⟨hsound, h.feed, h.happens (by simp)⟩
  | recorded hstage => exact ⟨hsound, h.feed, h.happens (by simp)⟩

end WindowsSound

/-- A feed that starts with consecutive klines, is answered with consecutive klines and gets
candles that follow the last one or lie behind a gap: every call is for a full window without a
gap. -/
theorem calls_contiguous (runner : WebSocketSignalRunner K) (clock : Timestamp)
    (answers : String → List (MarketCandle K)) (actions : List (WebSocketAction K))
    (hanswers : ∀ symbol ∈ runner.feed.symbols, runner.feed.ConsecutiveKlines (answers symbol))
    (hregular : Runs.Meets runner.step runner.FeedRegular (runner.initialState clock answers)
      actions) :
    ∀ at_ symbol snapshot request,
      (at_, .called symbol snapshot request) ∈
          (Runs.run runner.step (runner.initialState clock answers) actions).history →
        runner.feed.Contiguous snapshot.candles := by
  have hinitial : runner.WindowsSound (runner.initialState clock answers) :=
    ⟨.initial clock answers, .start hanswers, fun _ _ hmem => absurd hmem List.not_mem_nil⟩
  have hwindows : runner.WindowsSound
      (Runs.run runner.step (runner.initialState clock answers) actions) :=
    Runs.run_of_meets (I := runner.WindowsSound) hinitial
      (fun u action h hcond => h.step hcond (runner.stepped u action)) hregular
  intro at_ symbol snapshot request hmem
  obtain ⟨before, after, hsplit⟩ := List.mem_iff_append.mp hmem
  obtain ⟨-, -, entry, hentry, feedSnapshot, htaken, rfl, -⟩ :=
    hwindows.sound.follow before at_ symbol snapshot request after hsplit
  apply hwindows.taken entry.1 feedSnapshot
  rw [hsplit, ← htaken]
  exact List.mem_append_left _ (List.mem_of_getLast? hentry)

/-- The scalping runner on the feed of one minute, with a strategy that always buys. -/
def minuteRunner : WebSocketSignalRunner Rat where
  strategy := ⟨2, fun snapshot => .ok (some
    { symbol := snapshot.symbol, direction := "long", entry := 100, stop := 98, target := 105 })⟩
  feed := minuteFeed
  cooldownSeconds := 120
  hasSessionFactory := false

/-- The candle of the next minute is confirmed and bought on. -/
def minuteActions : List (WebSocketAction Rat) :=
  [.loop, .feed (confirmed 2), .take, .evaluated, .executed (.ok ())]

theorem calls_contiguous_nextMinute : ∃ at_ snapshot request,
    (at_, .called "BTCUSDT" snapshot request) ∈ (Runs.run minuteRunner.step
        (minuteRunner.initialState 180000000 warmUpKlines) minuteActions).history ∧
      minuteFeed.Contiguous snapshot.candles := by
  have hcalled : (180000000, .called "BTCUSDT" ⟨"BTCUSDT", "1", [minuteCandle 1, minuteCandle 2]⟩
      { symbol := "BTCUSDT", direction := .long, entry := 100, stop := 98, target := 105 }) ∈
      (Runs.run minuteRunner.step (minuteRunner.initialState 180000000 warmUpKlines)
        minuteActions).history := by decide +kernel
  have hregular : Runs.Meets minuteRunner.step minuteRunner.FeedRegular
      (minuteRunner.initialState 180000000 warmUpKlines) minuteActions :=
    ⟨trivial, ⟨trivial, confirmed_fits (by decide +kernel) rfl⟩, trivial, trivial, trivial, trivial⟩
  exact ⟨_, _, _, hcalled, calls_contiguous minuteRunner 180000000 warmUpKlines minuteActions
    (fun symbol _ => warmUpKlines_consecutive symbol) hregular _ _ _ _ hcalled⟩

end Windows

end WebSocketSignalRunner
end AmaExecutionCore
