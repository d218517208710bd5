import AmaExecutionCore.CandleFeed
import AmaExecutionCore.Paginators
import AmaExecutionCore.TrendStrategies

/-! What the two signal runners share: the cooldown of a symbol, the age of a snapshot, the
symbols with too many losses, and the evaluation of a strategy. -/
namespace AmaExecutionCore

/-- So many seconds, in the microseconds of a `Timestamp`. -/
def secondsLength (seconds : Int) : Int := seconds * 1000000

namespace Intervals

/-- `interval_to_seconds` of `intervals.py`, which takes the interval without its blanks. -/
def intervalToSeconds (interval : String) : Except PyError Int :=
  (AmaExecutionCore.intervalToSeconds (String.ofList (strip interval.toList))).mapError fun _ =>
    .valueError ("Unknown interval: " ++ interval)

def intervalToMinutes (interval : String) : Except PyError Int := do
  return (← intervalToSeconds interval) / 60

end Intervals

section Staleness

variable {K : Type}

/-- `snapshot_age_seconds`, in microseconds; a snapshot without candles has no last one. -/
def snapshotAge (snapshot : MarketSnapshot K) (now : Timestamp) : Except PyError Int :=
  match snapshot.candles.getLast? with
  | some last => .ok (now - last.openedAt)
  | none => .error .otherError

def allowedSnapshotStalenessSeconds (snapshot : MarketSnapshot K) (maxStalenessIntervals
    graceSeconds : Int) : Except PyError Int := do
  return (← Intervals.intervalToSeconds snapshot.interval) * maxStalenessIntervals + graceSeconds

def isSnapshotStale (snapshot : MarketSnapshot K) (maxStalenessIntervals graceSeconds : Int)
    (now : Timestamp) : Except PyError Bool := do
  let age ← snapshotAge snapshot now
  let allowed ← allowedSnapshotStalenessSeconds snapshot maxStalenessIntervals graceSeconds
  return decide (secondsLength allowed < age)

end Staleness

def symbolConsecutiveLosses (stat : DailyStat) (symbol : String) : Nat :=
  ((stat.symbolStats.lookup symbol).getD {}).consecutiveLosses

/-- `_is_symbol_blacklisted`, of the row of today. -/
def isSymbolBlacklisted (stat : DailyStat) (symbol : String) : Bool :=
  decide (5 ≤ symbolConsecutiveLosses stat symbol)

/-- `isinstance(exc, SafetyGuardError)`. -/
def PyError.isSafetyGuardError : PyError → Bool
  | .killSwitchActiveError | .dailyLossLimitError | .weeklyLossLimitError
  | .cooldownActiveError | .hardLossStreakPauseError => true
  | _ => false

structure SymbolState where
  symbol : String
  cooldownSeconds : Int
  lastEntryAt : Option Timestamp := none

namespace SymbolState

def isInCooldown (now : Timestamp) (state : SymbolState) : Bool :=
  state.lastEntryAt.any fun last => now - last < secondsLength state.cooldownSeconds

def recordEntry (at_ : Timestamp) (state : SymbolState) : SymbolState :=
  { state with lastEntryAt := some at_ }

end SymbolState

structure StrategyExecutionRequest where
  symbol : String
  interval : String

structure StrategyExecutionResult (K : Type) where
  request : StrategyExecutionRequest
  snapshot : MarketSnapshot K
  signal : Option (StrategySignal K)

/-- `_normalize_request` of `service.py`. -/
def StrategyExecutionRequest.normalize (request : StrategyExecutionRequest) :
    Except PyError StrategyExecutionRequest :=
  let symbol := symbolKey request.symbol
  let interval := String.ofList (strip request.interval.toList)
  if symbol = "" then .error (.valueError "Strategy execution symbol must not be empty.")
  else if interval = "" then .error (.valueError "Strategy execution interval must not be empty.")
  else .ok ⟨symbol, interval⟩

/-- `StrategyExecutionService.run`, where `getSnapshot` is the provider. -/
def StrategyExecutionRequest.run {K : Type} (strategy : BaseStrategy K)
    (getSnapshot : MarketSnapshotRequest → Except PyError (MarketSnapshot K))
    (request : StrategyExecutionRequest) : Except PyError (StrategyExecutionResult K) := do
  let normalized ← request.normalize
  let snapshot ← getSnapshot ⟨normalized.symbol, normalized.interval, strategy.requiredCandleCount⟩
  let signal ← strategy.generateSignal snapshot
  return ⟨normalized, snapshot, signal⟩

/-- What a runner does that others see: it begins a tick or takes a snapshot, it calls
`execute_signal`, and it records the entry when the call returns. -/
inductive RunnerEvent (K : Type) where
  | began
  | taken (feedSnapshot : CandleFeedSnapshot K)
  | called (symbol : String) (snapshot : MarketSnapshot K) (request : ExecuteSignalRequest K)
  | recorded (symbol : String)
  deriving DecidableEq

namespace RunnerEvent

variable {K : Type}

def isBegan : RunnerEvent K → Bool
  | .began => true
  | _ => false

def isTaken : RunnerEvent K → Bool
  | .taken _ => true
  | _ => false

def isCallOf (symbol : String) : RunnerEvent K → Bool
  | .called other _ _ => other = symbol
  | _ => false

end RunnerEvent

abbrev RunnerHistory (K : Type) := List (Timestamp × RunnerEvent K)

section Spacing

variable {K : Type} {history : RunnerHistory K} {cooldownSeconds : Int} {now : Timestamp}
variable {event : RunnerEvent K} {symbol : String} {state : SymbolState}

/-- Between the record of an entry and the next call for its symbol lies the cooldown. -/
def Spaced (cooldownSeconds : Int) (history : RunnerHistory K) : Prop :=
  history.Pairwise fun earlier later => ∀ symbol snapshot request,
    earlier.2 = .recorded symbol → later.2 = .called symbol snapshot request →
      earlier.1 + secondsLength cooldownSeconds ≤ later.1

/-- Every entry of the symbol was recorded by the time that its state holds. -/
def RecordedBy (history : RunnerHistory K) (symbol : String) (state : SymbolState) : Prop :=
  ∀ at_, (at_, .recorded symbol) ∈ history → ∃ last ∈ state.lastEntryAt, at_ ≤ last

/-- The cooldown after the last entry is over. -/
def SymbolState.Rested (now : Timestamp) (state : SymbolState) : Prop :=
  ∀ last ∈ state.lastEntryAt, last + secondsLength state.cooldownSeconds ≤ now

theorem SymbolState.rested_of_isInCooldown (h : state.isInCooldown now = false) :
    state.Rested now := by
  intro last hlast
  rw [isInCooldown, Option.mem_def.mp hlast, Option.any_some] at h
  exact Int.add_le_of_le_sub_left (not_lt.mp (of_decide_eq_false h))

theorem SymbolState.Rested.later {later : Timestamp} (h : state.Rested now) (hle : now ≤ later) :
    state.Rested later :=
  fun last hlast => (h last hlast).trans hle

theorem RecordedBy.append (h : RecordedBy history symbol state) (hnew : event ≠ .recorded symbol) :
    RecordedBy (history ++ [(now, event)]) symbol state := by
  intro at_ hmem
  obtain hold | hlast := List.mem_append.mp hmem
  · exact h at_ hold
  · rw [List.mem_singleton, Prod.mk.injEq] at hlast
    exact absurd hlast.2.symm hnew

theorem RecordedBy.recordEntry (hpast : ∀ entry ∈ history, entry.1 ≤ now) :
    RecordedBy (history ++ [(now, .recorded symbol)]) symbol (state.recordEntry now) := by
  intro at_ hmem
  refine ⟨now, rfl, ?_⟩
  obtain hold | hlast := List.mem_append.mp hmem
  · exact hpast _ hold
  · rw [List.mem_singleton, Prod.mk.injEq] at hlast
    exact hlast.1.le

theorem Spaced.append (h : Spaced cooldownSeconds history)
    (hnew : ∀ symbol snapshot request, event = .called symbol snapshot request →
      ∀ at_, (at_, .recorded symbol) ∈ history → at_ + secondsLength cooldownSeconds ≤ now) :
    Spaced cooldownSeconds (history ++ [(now, event)]) := by
  apply List.pairwise_append.mpr
  refine ⟨h, List.pairwise_singleton _ _, ?_⟩
  intro earlier hearlier later hlater symbol snapshot request hrecorded hcalled
  obtain rfl := List.mem_singleton.mp hlater
  exact hnew symbol snapshot request hcalled earlier.1 (hrecorded ▸ hearlier)

theorem Spaced.call (h : Spaced cooldownSeconds history)
    (hrecorded : RecordedBy history symbol state) (hrested : state.Rested now)
    (hcooldown : state.cooldownSeconds = cooldownSeconds)
    {snapshot : MarketSnapshot K} {request : ExecuteSignalRequest K} :
    Spaced cooldownSeconds (history ++ [(now, .called symbol snapshot request)]) := by
  apply h.append
  intro other snapshot' request' hcalled at_ hmem
  obtain ⟨rfl, -, -⟩ := RunnerEvent.called.inj hcalled
  obtain ⟨last, hlast, hle⟩ := hrecorded at_ hmem
  have hrest := hrested last hlast
  rw [hcooldown] at hrest
  exact (Int.add_le_add_right hle _).trans hrest

/-- The entries of a runner so far: their states hold the last of each symbol, and no call came
within the cooldown of one. -/
structure EntriesKept (cooldownSeconds : Int) (clock : Timestamp) (states : String → SymbolState)
    (history : RunnerHistory K) : Prop where
  spaced : Spaced cooldownSeconds history
  past : ∀ entry ∈ history, entry.1 ≤ clock
  cooldown : ∀ symbol, (states symbol).cooldownSeconds = cooldownSeconds
  recorded : ∀ symbol, RecordedBy history symbol (states symbol)

namespace EntriesKept

variable {clock later : Timestamp} {states : String → SymbolState}

theorem nil (hcooldown : ∀ symbol, (states symbol).cooldownSeconds = cooldownSeconds) :
    EntriesKept (K := K) cooldownSeconds clock states [] where
  spaced := List.Pairwise.nil
  past := fun _ hentry => absurd hentry List.not_mem_nil
  cooldown := hcooldown
  recorded := fun _ _ hentry => absurd hentry List.not_mem_nil

theorem elapse (h : EntriesKept cooldownSeconds clock states history) (hle : clock ≤ later) :
    EntriesKept cooldownSeconds later states history :=
  ⟨h.spaced, fun entry hentry => (h.past entry hentry).trans hle, h.cooldown, h.recorded⟩

theorem past_append (h : EntriesKept cooldownSeconds clock states history) :
    ∀ entry ∈ history ++ [(clock, event)], entry.1 ≤ clock := by
  intro entry hentry
  obtain hold | hlast := List.mem_append.mp hentry
  · exact h.past entry hold
  · exact (congrArg Prod.fst (List.mem_singleton.mp hlast)).le

theorem append (h : EntriesKept cooldownSeconds clock states history)
    (hcall : ∀ symbol snapshot request, event ≠ .called symbol snapshot request)
    (hrecord : ∀ symbol, event ≠ .recorded symbol) :
    EntriesKept cooldownSeconds clock states (history ++ [(clock, event)]) where
  spaced := h.spaced.append fun symbol snapshot request hcalled =>
    absurd hcalled (hcall symbol snapshot request)
  past := h.past_append
  cooldown := h.cooldown
  recorded := fun symbol => (h.recorded symbol).append (hrecord symbol)

theorem call (h : EntriesKept cooldownSeconds clock states history)
    (hrested : (states symbol).Rested clock) (snapshot : MarketSnapshot K)
    (request : ExecuteSignalRequest K) : EntriesKept cooldownSeconds clock states
      (history ++ [(clock, .called symbol snapshot request)]) where
  spaced := h.spaced.call (h.recorded symbol) hrested (h.cooldown symbol)
  past := h.past_append
  cooldown := h.cooldown
  recorded := fun other => (h.recorded other).append (by simp)

theorem record (h : EntriesKept cooldownSeconds clock states history) (symbol : String) :
    EntriesKept cooldownSeconds clock
      (Function.update states symbol ((states symbol).recordEntry clock))
      (history ++ [(clock, .recorded symbol)]) where
  spaced := h.spaced.append fun _ _ _ hcalled => absurd hcalled (by simp)
  past := h.past_append
  cooldown := by
    intro other
    by_cases heq : other = symbol
    · subst heq
      rw [Function.update_self]
      exact h.cooldown other
    · rw [Function.update_of_ne heq]
      exact h.cooldown other
  recorded := by
    intro other
    by_cases heq : other = symbol
    · subst heq
      rw [Function.update_self]
      exact RecordedBy.recordEntry h.past
    · rw [Function.update_of_ne heq]
      exact (h.recorded other).append fun hrecorded => heq (RunnerEvent.recorded.inj hrecorded).symm

end EntriesKept

end Spacing

end AmaExecutionCore
