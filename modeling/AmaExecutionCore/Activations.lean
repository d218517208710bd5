import AmaExecutionCore.RequestRuns

/-! `KillSwitch.activate` piece by piece, taking turns with requests: it looks at the flag,
lists the committed trades, cancels their entry orders one call after the other, and
commits the flag at its end. -/
namespace AmaExecutionCore

/-- What an activation has done so far. `asked` are the orders it sent a cancel request
for, `sent` counts the entry orders that had been sent when it committed. -/
inductive Activation where
  | called (now : Timestamp)
  | checked (now : Timestamp)
  | cancelling (now : Timestamp) (pending : List Trade) (asked : List OrderLinkId)
  | activated (asked : List OrderLinkId) (sent : Nat)
  | ignored

def Exchange.entryOrders (x : Exchange) : List SentOrder := x.orders.filter fun o => o.role = .entry

/-- The last commit of `activate`: the flag and its `SystemEvent`. -/
def commitActivation (now : Timestamp) (w : World) : World :=
  (w.mapLedger (Ledger.activateKillSwitch now)).mapLedger
    (Ledger.appendSystemEvent .killSwitch "Kill switch activated." none)

namespace Activation

/-- The trades `_cancel_pending_orders` goes through. -/
def listed (env : Env) (w : World) : List Trade :=
  if env.restClient = true ∧ env.settings.tradingMode ≠ .shadow then
    w.db.listTradesByStatus cancellableStatuses
  else []

/-- The next piece of the activation. -/
def next (env : Env) (a : Activation) (w : World) : World × Activation :=
  match a with
  | called now =>
    let w := killSwitchStatus now w
    if w.db.ledger.safety.killSwitchActive then (w, ignored) else (w, checked now)
  | checked now => (w, cancelling now (listed env w) [])
  | cancelling now (t :: ts) asked =>
    ({ w with exchange := cancelEntryOrder w.exchange t },
      cancelling now ts (asked ++ t.orderLinkId.toList))
  | cancelling now [] asked =>
    (commitActivation now w, activated asked w.exchange.entryOrders.length)
  | a => (w, a)

def ended : Activation → Bool
  | activated _ _ | ignored => true
  | _ => false

def runAlone (env : Env) : Nat → Activation → World → World × Activation
  | 0, a, w => (w, a)
  | n + 1, a, w => runAlone env n (a.next env w).2 (a.next env w).1

theorem runAlone_cancelling (env : Env) (now : Timestamp) (ts : List Trade)
    (asked : List OrderLinkId) (w : World) :
    (runAlone env (ts.length + 1) (cancelling now ts asked) w).1 =
      commitActivation now { w with exchange := ts.foldl cancelEntryOrder w.exchange } := by
  induction ts generalizing w asked with
  | nil => rfl
  | cons t ts ih => exact ih _ _

/-- An activation with nobody in between is `activate`. -/
theorem runAlone_eq (env : Env) (now : Timestamp) (w : World) :
    ∃ n, (runAlone env n (called now) w).1 =
      activateKillSwitch env.settings.tradingMode env.restClient now w := by
  obtain ⟨w₁, hw₁⟩ : ∃ w₁, w₁ = killSwitchStatus now w := ⟨_, rfl⟩
  simp only [activateKillSwitch, ← hw₁]
  by_cases hactive : w₁.db.ledger.safety.killSwitchActive = true
  · refine ⟨1, ?_⟩
    simp only [runAlone, next, ← hw₁, if_pos hactive]
  · refine ⟨(listed env w₁).length + 1 + 1 + 1, ?_⟩
    have halone := runAlone_cancelling env now (listed env w₁) [] w₁
    simp only [runAlone, next, ← hw₁, if_neg hactive] at halone ⊢
    refine halone.trans ?_
    unfold listed
    split_ifs
    · rfl
    · rfl

end Activation

/-- A call of `execute_signal` or of `activate` under way. -/
inductive Party where
  | request (r : Request)
  | activation (a : Activation)

inductive Call where
  | executeSignal (req : NormalizedExecuteSignalRequest) (io : ExecuteIo)
  | activate (now : Timestamp)

namespace Party

def begin : Call → Party
  | .executeSignal req io => .request { req := req, io := io }
  | .activate now => .activation (.called now)

def next (env : Env) (c : Party) (w : World) : World × Party :=
  match c with
  | request r => ((r.next env w).1, request (r.next env w).2)
  | activation a => ((a.next env w).1, activation (a.next env w).2)

def ended : Party → Bool
  | request r => match r.stage with
    | .finished _ => true
    | _ => false
  | activation a => a.ended

end Party

/-- Requests and activations, while the exchange moves the orders on. -/
def haltSystem (env : Env) : Sessions.System World Party Call (OrderLinkId × OrderState) where
  start := Party.begin
  next := fun c w => c.next env w
  handle := fun w (link, state) => { w with exchange := w.exchange.settle link state }

end AmaExecutionCore
