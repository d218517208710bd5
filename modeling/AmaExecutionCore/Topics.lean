import AmaExecutionCore.Likeness
import AmaExecutionCore.Outcomes

/-! The order topic and the execution topic of one trade, in any order of delivery. Two
deliveries draw their fresh ids from different numbers, so the messages name the orders
sent meanwhile by the update that sent them. -/
namespace AmaExecutionCore
open TradeStatus

/-- An order of the trade: one it had before, or one sent while an update was handled. -/
inductive OrderRef where
  | known (link : OrderLinkId)
  | stop (update : Nat)
  | takeProfit (update : Nat)
  | emergencyClose (signal : Option SignalId) (update : Nat)
  deriving DecidableEq, Repr

/-- The id of the order, given the numbers the updates so far drew their ids from. -/
def OrderRef.resolve (drawn : List Nat) : OrderRef → Option OrderLinkId
  | known link => some link
  | stop i => drawn[i]?.map .stop
  | takeProfit i => drawn[i]?.map .tp
  | emergencyClose signal i => drawn[i]?.map fun n => .generated signal (2 * n)

/-- An order the trade had before is one it names. -/
def OrderRef.Of (t : Trade) : OrderRef → Prop
  | known link => t.ownsOrderLinkId link = true
  | _ => True

inductive Message where
  | order (ref : OrderRef) (data : OrderData) (io : HandlerIo)
  | execution (ref : OrderRef) (data : ExecutionData)

namespace Message

def ref : Message → OrderRef
  | order ref _ _ => ref
  | execution ref _ => ref

def isOrder : Message → Bool
  | order _ _ _ => true
  | execution _ _ => false

def step (drawn : List Nat) : Message → Step
  | order ref data io => .processOrder { data with orderLinkId := ref.resolve drawn } io
  | execution ref data => .processExecution { data with orderLinkId := ref.resolve drawn }

end Message

/-- The system in the middle of a delivery, and the numbers the updates so far drew from. -/
@[ext]
structure Delivery where
  world : World
  drawn : List Nat := []

def handleMessage (env : Env) (d : Delivery) (m : Message) : Delivery where
  world := step env d.world (m.step d.drawn)
  drawn :=
    if m.isOrder ∧ (step env d.world (m.step d.drawn)).issued ≠ d.world.issued then
      d.drawn ++ [d.world.issued]
    else d.drawn

/-- The trade's orders are its own: those it names, and those sent from the number on. -/
structure Apart (t : Trade) (base : Nat) (before after : List Trade) : Prop where
  old : ∀ link, t.ownsOrderLinkId link = true → link.drawnBefore base
  alone : ∀ q, q ∈ before ∨ q ∈ after → ∀ link,
    (t.ownsOrderLinkId link = true ∨ ∃ n, base ≤ n ∧ link.drawnAt n) →
    q.ownsOrderLinkId link = false

def deliver (env : Env) (d : Delivery) (ms : List Message) : Delivery :=
  Runs.run (handleMessage env) d ms

/-- The row of the trade among the others, some messages after it was `t`. -/
structure Tracked (t : Trade) (base : Nat) (before after : List Trade) (d : Delivery) (r : Trade) :
    Prop where
  wellFormed : d.world.WellFormed
  rows : d.world.db.trades = before ++ r :: after
  entry : t.SameEntry r
  reached : base ≤ d.world.issued
  numbers : ∀ n ∈ d.drawn, base ≤ n ∧ n < d.world.issued

/-- What an update about an order of the trade comes to, if it is handled at all. -/
def updateOf (restClient : Bool) (data : OrderData) (io : HandlerIo) (w : World) (r : Trade) :
    Option (Outcome Work Bool) :=
  if (∃ link ∈ data.orderLinkId, r.ownsOrderLinkId link = true) ∧
      orderStatusMap data.orderStatus ≠ none then
    some (applyOrderUpdate restClient io data (w.work r))
  else none

/-- The session it commits; an update that raises is rolled back. -/
def Outcome.committed (o : Outcome Work Bool) : Option Work :=
  match o with
  | (.ok _, k') => some k'
  | (.error _, _) => none

/-- The row an execution message leaves. -/
def executedRow (data : ExecutionData) (r : Trade) : Trade :=
  match data.orderLinkId with
  | none => r
  | some link =>
    if r.ownsOrderLinkId link = true ∧ ¬ (data.execFee = none ∧ data.execPrice = none) then
      match parseOptional data.execFee with
      | .error _ => r
      | .ok fee =>
        match noteSlippage link data.execPrice (r.addFee fee) with
        | .error _ => r
        | .ok r' => r'
    else r

/-- An execution message writes the fee and the slippage of the row at most. -/
theorem executedRow_eq (data : ExecutionData) (r : Trade) :
    ∃ fee slip, executedRow data r = { r with feePaid := fee, slippage := slip } := by
  unfold executedRow
  split
  · exact ⟨_, _, rfl⟩
  · split_ifs
    · split
      · exact ⟨_, _, rfl⟩
      · next fee _ =>
        split
        · exact ⟨_, _, rfl⟩
        · next hslip =>
          obtain ⟨slip, rfl⟩ := noteSlippage_same hslip
          obtain ⟨paid, hpaid⟩ := r.addFee_eq fee
          exact ⟨paid, slip, by rw [hpaid]⟩
    · exact ⟨_, _, rfl⟩

def World.after (w : World) (o : Outcome Work Bool) : World :=
  match o.committed with
  | some k' => w.commit k'
  | none => w.rollback o.2

theorem World.after_issued (w : World) (o : Outcome Work Bool) : (w.after o).issued = w.issued + 1 := by
  unfold World.after
  split <;> rfl

theorem processOrder_updateOf {restClient : Bool} {data : OrderData} {io : HandlerIo} {w : World}
    {r : Trade} (h : ∀ link ∈ data.orderLinkId, w.db.getTradeByOrderLinkId link =
      .ok (if r.ownsOrderLinkId link = true then some r else none)) :
    (processOrder restClient io data w).2 =
      ((updateOf restClient data io w r).map w.after).getD w := by
  unfold processOrder updateOf
  cases hlink : data.orderLinkId with
  | none => simp
  | some link =>
    cases hst : orderStatusMap data.orderStatus with
    | none => simp
    | some s =>
      by_cases hown : r.ownsOrderLinkId link = true
      · simp only [h link hlink, hown, if_true]
        rw [if_pos ⟨⟨link, rfl, hown⟩, by simp⟩]
        split
        · next heq => simp [World.after, Outcome.committed, heq]
        · next heq => simp [World.after, Outcome.committed, heq]
      · simp [h link hlink, hown]

theorem processExecution_found {data : ExecutionData} {w : World} {link : OrderLinkId} {r : Trade}
    {fee : Option Rat} (hlink : data.orderLinkId = some link)
    (hany : ¬ (data.execFee = none ∧ data.execPrice = none))
    (hfee : parseOptional data.execFee = .ok fee)
    (hfind : w.db.getTradeByOrderLinkId link = .ok (some r)) :
    processExecution data w = match noteSlippage link data.execPrice (r.addFee fee) with
      | .error e => (.error e, w)
      | .ok t => (.ok (), w.commit (w.work t)) := by
  simp only [processExecution, hlink, if_neg hany, hfee, hfind]
  cases fee <;> rfl

/-- The order is one the trade named before, or was sent by one of the updates. -/
theorem OrderRef.Of.resolved {t : Trade} {ref : OrderRef} {drawn : List Nat} {link : OrderLinkId}
    (href : ref.Of t) (hlink : ref.resolve drawn = some link) :
    t.ownsOrderLinkId link = true ∨ ∃ n, n ∈ drawn ∧ link.drawnAt n := by
  cases ref with
  | known link' =>
    obtain rfl := Option.some.inj hlink
    exact .inl href
  | stop i =>
    obtain ⟨n, hn, rfl⟩ := Option.map_eq_some_iff.mp hlink
    exact .inr ⟨n, List.mem_of_getElem? hn, rfl⟩
  | takeProfit i =>
    obtain ⟨n, hn, rfl⟩ := Option.map_eq_some_iff.mp hlink
    exact .inr ⟨n, List.mem_of_getElem? hn, rfl⟩
  | emergencyClose signal i =>
    obtain ⟨n, hn, rfl⟩ := Option.map_eq_some_iff.mp hlink
    exact .inr ⟨n, List.mem_of_getElem? hn, by simp [OrderLinkId.drawnAt]⟩

namespace Tracked

variable {t : Trade} {base : Nat} {before after : List Trade} {d : Delivery} {r : Trade}

theorem mem (h : Tracked t base before after d r) : r ∈ d.world.db.trades := by
  rw [h.rows]
  exact List.mem_append_right _ List.mem_cons_self

theorem getTrade (h : Tracked t base before after d r) : d.world.db.getTrade t.id = some r := by
  rw [← h.entry.id]
  exact h.wellFormed.getTrade h.mem

/-- An order a message is about is an order of this trade or of none. -/
theorem lookup (h : Tracked t base before after d r) (hapart : Apart t base before after)
    {ref : OrderRef} {link : OrderLinkId} (href : ref.Of t)
    (hlink : ref.resolve d.drawn = some link) :
    d.world.db.getTradeByOrderLinkId link =
      .ok (if r.ownsOrderLinkId link = true then some r else none) := by
  have hmine : t.ownsOrderLinkId link = true ∨ ∃ n, base ≤ n ∧ link.drawnAt n := by
    obtain hown | ⟨n, hn, hd⟩ := href.resolved hlink
    · exact .inl hown
    · exact .inr ⟨n, (h.numbers n hn).1, hd⟩
  split_ifs with hown
  · exact h.wellFormed.getTradeByOrderLinkId h.mem hown
  · have hnone : d.world.db.trades.filter (Trade.ownsOrderLinkId link) = [] := by
      rw [List.filter_eq_nil_iff]
      intro q hq
      rw [h.rows, List.mem_append, List.mem_cons] at hq
      obtain hq | rfl | hq := hq
      · simp [hapart.alone q (.inl hq) link hmine]
      · exact hown
      · simp [hapart.alone q (.inr hq) link hmine]
    simp only [Db.getTradeByOrderLinkId, hnone]

theorem numbers_next (h : Tracked t base before after d r) {n : Nat}
    (hn : n ∈ d.drawn ∨ n = d.world.issued) : base ≤ n ∧ n < d.world.issued + 1 := by
  obtain hn | rfl := hn
  · exact ⟨(h.numbers n hn).1, (h.numbers n hn).2.trans (Nat.lt_succ_self _)⟩
  · exact ⟨h.reached, Nat.lt_succ_self _⟩

theorem commit (h : Tracked t base before after d r) {k' : Work}
    (hframe : (d.world.work r).Frame k') {d' : Delivery} (hworld : d'.world = d.world.commit k')
    (hdrawn : ∀ n ∈ d'.drawn, n ∈ d.drawn ∨ n = d.world.issued) :
    Tracked t base before after d' k'.trade where
  wellFormed := by
    rw [hworld]
    exact h.wellFormed.commit h.mem hframe
  rows := by
    rw [hworld]
    exact h.wellFormed.commit_rows h.rows hframe.entry.id
  entry := h.entry.trans hframe.entry
  reached := by
    rw [hworld]
    exact h.reached.trans (Nat.le_succ _)
  numbers := by
    intro n hn
    rw [hworld]
    exact h.numbers_next (hdrawn n hn)

theorem rollback (h : Tracked t base before after d r) {d' : Delivery} (hwell : d'.world.WellFormed)
    {k' : Work} (hworld : d'.world = d.world.rollback k')
    (hdrawn : ∀ n ∈ d'.drawn, n ∈ d.drawn ∨ n = d.world.issued) :
    Tracked t base before after d' r where
  wellFormed := hwell
  rows := by
    rw [hworld]
    exact h.rows
  entry := h.entry
  reached := by
    rw [hworld]
    exact h.reached.trans (Nat.le_succ _)
  numbers := by
    intro n hn
    rw [hworld]
    exact h.numbers_next (hdrawn n hn)

theorem order (h : Tracked t base before after d r) (env : Env)
    (hapart : Apart t base before after) {ref : OrderRef} (href : ref.Of t) (data : OrderData) (io : HandlerIo) :
    match updateOf env.restClient { data with orderLinkId := ref.resolve d.drawn } io d.world r with
    | some o => (handleMessage env d (.order ref data io)).drawn = d.drawn ++ [d.world.issued] ∧
        (handleMessage env d (.order ref data io)).world.db.ledger =
          (o.committed.map Work.ledger).getD d.world.db.ledger ∧
        Tracked t base before after (handleMessage env d (.order ref data io))
          ((o.committed.map Work.trade).getD r)
    | none => handleMessage env d (.order ref data io) = d := by
  have hworld : (handleMessage env d (.order ref data io)).world = (processOrder env.restClient io
      { data with orderLinkId := ref.resolve d.drawn } d.world).2 := rfl
  rw [processOrder_updateOf fun link hlink => h.lookup hapart href hlink] at hworld
  have hwell : (handleMessage env d (.order ref data io)).world.WellFormed :=
    (step_effect env (Message.step d.drawn (.order ref data io)) h.wellFormed).2
  have hnumbers : (handleMessage env d (.order ref data io)).drawn =
      if (handleMessage env d (.order ref data io)).world.issued ≠ d.world.issued then
        d.drawn ++ [d.world.issued] else d.drawn := by
    simp [handleMessage, Message.isOrder]
  have hframe := applyOrderUpdate_frame env.restClient io
    { data with orderLinkId := ref.resolve d.drawn } (d.world.work r)
  cases hupdate : updateOf env.restClient { data with orderLinkId := ref.resolve d.drawn } io
      d.world r with
  | none =>
    rw [hupdate] at hworld
    rw [hworld] at hnumbers
    have hsame : (handleMessage env d (.order ref data io)).drawn = d.drawn := by
      simpa using hnumbers
    exact Delivery.ext hworld hsame
  | some o =>
    rw [hupdate] at hworld
    simp only [Option.map_some, Option.getD_some] at hworld
    rw [hworld, World.after_issued, if_pos (Nat.succ_ne_self _)] at hnumbers
    refine ⟨hnumbers, ?_⟩
    have hdrawn : ∀ n ∈ (handleMessage env d (.order ref data io)).drawn,
        n ∈ d.drawn ∨ n = d.world.issued := by
      intro n hn
      rw [hnumbers] at hn
      simpa using hn
    have ho : o = applyOrderUpdate env.restClient io
        { data with orderLinkId := ref.resolve d.drawn } (d.world.work r) := by
      unfold updateOf at hupdate
      split_ifs at hupdate
      exact (Option.some.inj hupdate).symm
    obtain ⟨result, k'⟩ := o
    rw [← ho] at hframe
    cases result with
    | ok b =>
      have hcommit : (handleMessage env d (.order ref data io)).world = d.world.commit k' := hworld
      refine ⟨?_, h.commit hframe hcommit hdrawn⟩
      rw [hcommit]
      rfl
    | error e =>
      have hback : (handleMessage env d (.order ref data io)).world = d.world.rollback k' := hworld
      refine ⟨?_, h.rollback hwell hback hdrawn⟩
      rw [hback]
      rfl

theorem execution (h : Tracked t base before after d r) (env : Env)
    (hapart : Apart t base before after) {ref : OrderRef} (href : ref.Of t) (data : ExecutionData) :
    (handleMessage env d (.execution ref data)).drawn = d.drawn ∧
      (handleMessage env d (.execution ref data)).world.db.ledger = d.world.db.ledger ∧
      Tracked t base before after (handleMessage env d (.execution ref data))
        (executedRow { data with orderLinkId := ref.resolve d.drawn } r) := by
  have hdrawn : (handleMessage env d (.execution ref data)).drawn = d.drawn := by
    simp [handleMessage, Message.isOrder]
  refine ⟨hdrawn, ?_⟩
  have hworld : (handleMessage env d (.execution ref data)).world =
      (processExecution { data with orderLinkId := ref.resolve d.drawn } d.world).2 := rfl
  have hfind := fun link (hlink : ref.resolve d.drawn = some link) => h.lookup hapart href hlink
  generalize hdata : { data with orderLinkId := ref.resolve d.drawn } = data' at hworld ⊢
  have hlinks : ref.resolve d.drawn = data'.orderLinkId := by rw [← hdata]
  rw [hlinks] at hfind
  have hidle : executedRow data' r = r → (processExecution data' d.world).2 = d.world →
      (handleMessage env d (.execution ref data)).world.db.ledger = d.world.db.ledger ∧
        Tracked t base before after (handleMessage env d (.execution ref data))
          (executedRow data' r) := by
    intro hrow hsame
    have hall : handleMessage env d (.execution ref data) = d :=
      Delivery.ext (hworld.trans hsame) hdrawn
    rw [hrow, hall]
    exact ⟨rfl, h⟩
  cases hlink : data'.orderLinkId with
  | none =>
    exact hidle (by simp only [executedRow, hlink]) (by simp only [processExecution, hlink])
  | some link =>
    by_cases hgo : r.ownsOrderLinkId link = true ∧ ¬ (data'.execFee = none ∧ data'.execPrice = none)
    · obtain ⟨hown, hany⟩ := hgo
      cases hfee : parseOptional data'.execFee with
      | error e =>
        refine hidle (by simp [executedRow, hlink, hown, hany, hfee]) ?_
        simp only [processExecution, hlink, if_neg hany, hfee]
      | ok fee =>
        have hfound := hfind link hlink
        rw [if_pos hown] at hfound
        have hdone := processExecution_found hlink hany hfee hfound
        cases hslip : noteSlippage link data'.execPrice (r.addFee fee) with
        | error e =>
          rw [hslip] at hdone
          exact hidle (by simp [executedRow, hlink, hown, hany, hfee, hslip]) (by rw [hdone])
        | ok r' =>
          rw [hslip] at hdone
          have hrow : executedRow data' r = r' := by
            simp [executedRow, hlink, hown, hany, hfee, hslip]
          have hexec : Handled env d.world (.processExecution data') (d.world.work r)
              { d.world.work r with trade := r' } := .execution hlink hown hfee hslip
          have hcommit : (handleMessage env d (.execution ref data)).world =
              d.world.commit { d.world.work r with trade := r' } := hworld.trans (congrArg Prod.snd hdone)
          rw [hrow]
          refine ⟨by rw [hcommit]; rfl, h.commit hexec.frame hcommit ?_⟩
          intro n hn
          exact .inl (hdrawn ▸ hn)
    · refine hidle (by simp only [executedRow, hlink]; rw [if_neg hgo]) ?_
      by_cases hany : data'.execFee = none ∧ data'.execPrice = none
      · simp only [processExecution, hlink, if_pos hany]
      · have hown : ¬ r.ownsOrderLinkId link = true := fun hown => hgo ⟨hown, hany⟩
        simp only [processExecution, hlink, if_neg hany, hfind link hlink, if_neg hown]
        cases parseOptional data'.execFee <;> rfl

end Tracked

end AmaExecutionCore
