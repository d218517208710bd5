import AmaExecutionCore.Holdings

/-! The spot exit monitor: for positions that no order on the exchange protects, it asks the
ticker for the price and closes those whose price has crossed the stop or the target. A pass
waits for the ticker and for each close, and whatever else the core handles may come between. -/
namespace AmaExecutionCore
open TradeStatus

def resolveSpotExitReason (t : Trade) (lastPrice : Rat) : Option ExitReason :=
  match t.signalDirection with
  | .long =>
    if t.stopPrice.any (lastPrice ≤ ·) then some .slHit
    else if t.targetPrice.any (· ≤ lastPrice) then some .tpHit
    else none
  | .short =>
    if t.stopPrice.any (· ≤ lastPrice) then some .slHit
    else if t.targetPrice.any (lastPrice ≤ ·) then some .tpHit
    else none

/-- The trades a pass lists: positions that neither a stop nor a take-profit order protects. -/
def spotExitCandidates (db : Db) : List Trade :=
  db.listSpotMarketTradesMissingProtection.filter fun t =>
    t.stopOrderLinkId = none ∧ t.takeProfitOrderLinkId = none

structure ExitDecision where
  tradeId : TradeId
  exitReason : ExitReason
  deriving DecidableEq, Repr

/-- The two local variables of a pass. -/
structure ExitPass where
  decisions : List ExitDecision := []
  priceCache : List (String × Rat) := []
  deriving DecidableEq, Repr

namespace ExitPass

def decide (t : Trade) (lastPrice : Rat) (p : ExitPass) : ExitPass :=
  match resolveSpotExitReason t lastPrice with
  | none => p
  | some exitReason => { p with decisions := p.decisions ++ [⟨t.id, exitReason⟩] }

/-- One turn of the loop over the listed trades; the ticker is asked once for each symbol. -/
def look (t : Trade) (answer : Except PyError Rat) (p : ExitPass) : Except PyError ExitPass :=
  match p.priceCache.lookup t.symbol with
  | some lastPrice => .ok (p.decide t lastPrice)
  | none =>
    match answer with
    | .error e => .error e
    | .ok lastPrice =>
      .ok ({ p with priceCache := (t.symbol, lastPrice) :: p.priceCache }.decide t lastPrice)

def lookAll (ticker : String → Except PyError Rat) :
    List Trade → ExitPass → Except PyError ExitPass
  | [], p => .ok p
  | t :: ts, p =>
    match p.look t (ticker t.symbol) with
    | .error e => .error e
    | .ok p => lookAll ticker ts p

end ExitPass

/-- The loop over the decisions: a close that raises is logged and skipped. -/
def closeDecided (mode : TradingMode) (io : TradeId → CloseIo) :
    List ExitDecision → World → Nat × World
  | [], w => (0, w)
  | d :: ds, w =>
    match closeTrade mode d.tradeId d.exitReason (io d.tradeId) w with
    | (.error _, w) => closeDecided mode io ds w
    | (.ok (), w) => ((closeDecided mode io ds w).1 + 1, (closeDecided mode io ds w).2)

/-- `monitor_spot_exit_candidates_once`, when nothing comes between. -/
def monitorSpotExitCandidatesOnce (mode : TradingMode) (ticker : String → Except PyError Rat)
    (io : TradeId → CloseIo) (w : World) : Outcome World Nat :=
  match ExitPass.lookAll ticker (spotExitCandidates w.db) {} with
  | .error e => (.error e, w)
  | .ok p => (.ok (closeDecided mode io p.decisions w).1, (closeDecided mode io p.decisions w).2)

/-- The row that `close_trade` commits for a trade it closes. -/
def Trade.closeSubmitted (exitReason : ExitReason) (nonce : Nat) (orderId : Option String)
    (t : Trade) : Trade :=
  Trade.noteCloseExchangeId orderId
    { prepareCloseSubmission exitReason nonce t with status := positionClosePending }

/-- What is left of the row: the call of the exchange may raise, and the session is rolled back. -/
def Trade.afterClose (exitReason : ExitReason) (nonce : Nat) (outcome : PlaceOutcome)
    (t : Trade) : Trade :=
  match outcome.result with
  | .error _ => t
  | .ok orderId => t.closeSubmitted exitReason nonce orderId

section Close
variable {w : World} {t : Trade} {io : CloseIo}

theorem submitClose_result {mode : TradingMode} (hmode : mode ≠ .shadow) (reason : ExitReason)
    (io : CloseIo) (k : Work) :
    (submitClose mode reason io k).1 = io.close.result.map fun _ => () := by
  simp only [submitClose, hmode, if_false]
  split <;> next h => rw [h]; rfl

theorem submitClose_row {mode : TradingMode} (hmode : mode ≠ .shadow) (reason : ExitReason)
    {k : Work} (hst : k.trade.status ∈ closeRetryableStatuses) {orderId : Option String}
    (h : io.close.result = .ok orderId) : (submitClose mode reason io k).2.trade =
      k.trade.closeSubmitted reason k.nonce orderId := by
  have hne : k.trade.status ≠ positionClosePending := by
    intro heq
    rw [heq] at hst
    exact absurd hst (by decide)
  simp only [submitClose, hmode, if_false, h]
  simp [Work.transitionTradeStatus, Work.onTrade, Work.placeOrder, Work.appendTradeEvent,
    prepareCloseSubmission, Trade.closeSubmitted, hne]

/-- What one `close_trade` call does to the trade that it finds closable. -/
structure ClosedOnce (reason : ExitReason) (io : CloseIo) (t : Trade) (w w' : World) : Prop where
  wellFormed : w'.WellFormed
  issued : w'.issued = w.issued + 1
  orders : w'.exchange.orders = w.exchange.orders ++ [closeOrder io (w.work t)]
  row : t.afterClose reason w.issued io.close ∈ w'.db.trades
  others : ∀ r ∈ w.db.trades, r.id ≠ t.id → r ∈ w'.db.trades
  ids : w'.db.trades.map Trade.id = w.db.trades.map Trade.id

theorem World.commit_ids {k' : Work} (ht : t ∈ w.db.trades) (hid : k'.trade.id = t.id) :
    (w.commit k').db.trades.map Trade.id = w.db.trades.map Trade.id := by
  rw [World.commit_trades ht hid, List.map_map]
  apply List.map_congr_left
  intro r _
  simp only [Function.comp_apply]
  split_ifs with h
  · rw [hid, h]
  · rfl

theorem closeTrade_closable {env : Env} (hmode : env.settings.tradingMode ≠ .shadow)
    (reason : ExitReason) (hw : w.WellFormed) (ht : t ∈ w.db.trades)
    (hst : t.status ∈ closeRetryableStatuses) :
    (closeTrade env.settings.tradingMode t.id reason io w).1 = io.close.result.map (fun _ => ()) ∧
      ClosedOnce reason io t w (closeTrade env.settings.tradingMode t.id reason io w).2 := by
  have hwell := (step_effect env (.closeTrade t.id reason io) hw).2
  have hframe := submitClose_frame env.settings.tradingMode reason io (w.work t)
  have hresult := submitClose_result hmode reason io (w.work t)
  have horders := submitClose_orders hmode reason io (w.work t)
  have hrow : ∀ {orderId}, io.close.result = .ok orderId → _ :=
    fun h => submitClose_row (k := w.work t) hmode reason hst h
  simp only [step, closeTrade, hw.getTrade ht, hst, if_false, not_true] at hwell ⊢
  generalize submitClose env.settings.tradingMode reason io (w.work t) = r at *
  obtain ⟨result, k'⟩ := r
  dsimp only at hresult horders hrow
  subst hresult
  have hid : k'.trade.id = t.id := hframe.entry.id
  cases hout : io.close.result with
  | error e =>
    rw [hout] at hwell
    refine ⟨rfl, hwell, rfl, horders, ?_, fun r hr _ => hr, rfl⟩
    simp only [Trade.afterClose, hout]
    exact ht
  | ok orderId =>
    rw [hout] at hwell
    have hafter := World.commit_row ht hid
    rw [hrow hout] at hafter
    refine ⟨rfl, hwell, rfl, horders, ?_, fun r hr hne => World.mem_commit ht hid hr hne,
      World.commit_ids ht hid⟩
    simp only [Trade.afterClose, hout]
    exact hafter

theorem closeTrade_untouched {mode : TradingMode} {reason : ExitReason} (hw : w.WellFormed)
    (ht : t ∈ w.db.trades) (hst : t.status ∉ closeRetryableStatuses) :
    closeTrade mode t.id reason io w = (.error (.valueError "is not open"), w) := by
  simp only [closeTrade, hw.getTrade ht, hst, not_false_eq_true, if_true]

end Close

/-- A trade whose price has crossed one of its levels, with the reason that follows. -/
abbrev Crossed := Trade × ExitReason

def Crossed.decision (c : Crossed) : ExitDecision := ⟨c.1.id, c.2⟩

/-- The trades of a pass that `close_trade` does not refuse. -/
def closables (cs : List Crossed) : List Crossed :=
  cs.filter fun c => c.1.status ∈ closeRetryableStatuses

/-- The order that closes a trade, with the number its id is made from. -/
def exitOrder (io : TradeId → CloseIo) (nonce : TradeId → Nat) (c : Crossed) : SentOrder :=
  .ofCall c.1.id .close (closeRequest c.1 (nonce c.1.id)) (io c.1.id).close

/-- What the loop over the decisions leaves: one order for each closable trade, in the order of
the list, and in the row of each the close that the exchange accepted. -/
structure ClosedAll (io : TradeId → CloseIo) (cs : List Crossed) (nonce : TradeId → Nat)
    (n : Nat) (w w' : World) : Prop where
  wellFormed : w'.WellFormed
  closed : n = (closables cs).countP fun c => !(io c.1.id).close.raises
  nonces : (closables cs).map (fun c => nonce c.1.id) = List.range' w.issued (closables cs).length
  orders : w'.exchange.orders = w.exchange.orders ++ (closables cs).map (exitOrder io nonce)
  rows : ∀ c ∈ closables cs,
    c.1.afterClose c.2 (nonce c.1.id) (io c.1.id).close ∈ w'.db.trades
  others : ∀ r ∈ w.db.trades, r.id ∉ (closables cs).map (fun c => c.1.id) → r ∈ w'.db.trades
  ids : w'.db.trades.map Trade.id = w.db.trades.map Trade.id

theorem Trade.afterClose_id (reason : ExitReason) (nonce : Nat) (outcome : PlaceOutcome)
    (t : Trade) : (t.afterClose reason nonce outcome).id = t.id := by
  unfold Trade.afterClose
  split <;> rfl

theorem closables_cons {c : Crossed} (hst : c.1.status ∈ closeRetryableStatuses)
    (cs : List Crossed) : closables (c :: cs) = c :: closables cs :=
  List.filter_cons_of_pos (by simpa using hst)

theorem closables_skip {c : Crossed} (hst : c.1.status ∉ closeRetryableStatuses)
    (cs : List Crossed) : closables (c :: cs) = closables cs :=
  List.filter_cons_of_neg (by simpa using hst)

/-- One close, and then the others: the trade draws the first number and keeps its row. -/
theorem ClosedOnce.cons {io : TradeId → CloseIo} {c : Crossed} {cs : List Crossed}
    {nonce : TradeId → Nat} {n : Nat} {w w₁ w' : World}
    (hone : ClosedOnce c.2 (io c.1.id) c.1 w w₁) (hst : c.1.status ∈ closeRetryableStatuses)
    (hother : ∀ d ∈ cs, d.1.id ≠ c.1.id) (hall : ClosedAll io cs nonce n w₁ w') :
    ClosedAll io (c :: cs) (Function.update nonce c.1.id w.issued)
      (n + (!(io c.1.id).close.raises).toNat) w w' := by
  have hkept : ∀ d ∈ closables cs, Function.update nonce c.1.id w.issued d.1.id = nonce d.1.id :=
    fun d hd => Function.update_of_ne (hother d (List.mem_filter.mp hd).1) _ _
  have hfirst : Function.update nonce c.1.id w.issued c.1.id = w.issued :=
    Function.update_self _ _ _
  refine ⟨hall.wellFormed, ?_, ?_, ?_, ?_, ?_, hall.ids.trans hone.ids⟩
  · rw [closables_cons hst, List.countP_cons, hall.closed]
    cases (io c.1.id).close.raises <;> rfl
  · rw [closables_cons hst, List.map_cons, hfirst, List.map_congr_left hkept, hall.nonces,
      hone.issued]
    rfl
  · have horders : (closables cs).map (exitOrder io (Function.update nonce c.1.id w.issued)) =
        (closables cs).map (exitOrder io nonce) :=
      List.map_congr_left fun d hd => by simp only [exitOrder, hkept d hd]
    rw [closables_cons hst, List.map_cons, horders, hall.orders, hone.orders, List.append_assoc]
    simp only [exitOrder, hfirst]
    rfl
  · rw [closables_cons hst]
    intro d hd
    obtain rfl | hd := List.mem_cons.mp hd
    · rw [hfirst]
      apply hall.others _ hone.row
      rw [Trade.afterClose_id]
      intro hin
      obtain ⟨e, he, heq⟩ := List.mem_map.mp hin
      exact hother e (List.mem_filter.mp he).1 heq
    · rw [hkept d hd]
      exact hall.rows d hd
  · rw [closables_cons hst]
    intro r hr hnot
    rw [List.map_cons, List.mem_cons, not_or] at hnot
    exact hall.others r (hone.others r hr hnot.1) hnot.2

theorem closeDecided_closes {env : Env} (hmode : env.settings.tradingMode ≠ .shadow)
    (io : TradeId → CloseIo) {cs : List Crossed} {w : World} (hw : w.WellFormed)
    (hmem : ∀ c ∈ cs, c.1 ∈ w.db.trades) (hnodup : (cs.map fun c => c.1.id).Nodup) :
    ∃ nonce, ClosedAll io cs nonce
      (closeDecided env.settings.tradingMode io (cs.map Crossed.decision) w).1 w
      (closeDecided env.settings.tradingMode io (cs.map Crossed.decision) w).2 := by
  induction cs generalizing w with
  | nil =>
    exact ⟨fun _ => 0, hw, rfl, rfl, (List.append_nil _).symm,
      fun _ h => absurd h List.not_mem_nil, fun r hr _ => hr, rfl⟩
  | cons c cs ih =>
    have ht := hmem c List.mem_cons_self
    have hrest : ∀ d ∈ cs, d.1 ∈ w.db.trades := fun d hd => hmem d (List.mem_cons_of_mem _ hd)
    obtain ⟨hnotin, hnodup⟩ := List.nodup_cons.mp hnodup
    simp only [List.map_cons, closeDecided, Crossed.decision]
    by_cases hst : c.1.status ∈ closeRetryableStatuses
    · have hone := @closeTrade_closable _ _ (io c.1.id) env hmode c.2 hw ht hst
      have hother : ∀ d ∈ cs, d.1.id ≠ c.1.id := fun d hd heq =>
        hnotin (List.mem_map.mpr ⟨d, hd, heq⟩)
      generalize closeTrade env.settings.tradingMode c.1.id c.2 (io c.1.id) w = r at hone ⊢
      obtain ⟨result, w₁⟩ := r
      obtain ⟨hresult, hone⟩ := hone
      obtain ⟨nonce, hall⟩ := ih hone.wellFormed
        (fun d hd => hone.others _ (hrest d hd) (hother d hd)) hnodup
      have hboth := hone.cons hst hother hall
      refine ⟨Function.update nonce c.1.id w.issued, ?_⟩
      dsimp only at hresult
      subst hresult
      cases hout : (io c.1.id).close.result with
      | error e => simpa [PlaceOutcome.raises, hout, Except.map, Except.toOption] using hboth
      | ok orderId => simpa [PlaceOutcome.raises, hout, Except.map, Except.toOption] using hboth
    · obtain ⟨nonce, hall⟩ := ih hw hrest hnodup
      have hskip := closables_skip hst cs
      rw [closeTrade_untouched hw ht hst]
      exact ⟨nonce, hall.wellFormed, hskip ▸ hall.closed, hskip ▸ hall.nonces,
        hskip ▸ hall.orders, hskip ▸ hall.rows, hskip ▸ hall.others, hall.ids⟩

/-- The exit that the answers of the ticker call for. -/
def exitReasonAt (ticker : String → Except PyError Rat) (t : Trade) : Option ExitReason :=
  (ticker t.symbol).toOption.bind (resolveSpotExitReason t)

/-- The trades among `ts` whose price has crossed a level, in their order. -/
def crossedAt (ticker : String → Except PyError Rat) (ts : List Trade) : List Crossed :=
  ts.filterMap fun t => (exitReasonAt ticker t).map fun reason => (t, reason)

namespace ExitPass
variable {ticker : String → Except PyError Rat}

/-- The cache holds answers of the ticker. -/
def Cached (ticker : String → Except PyError Rat) (p : ExitPass) : Prop :=
  ∀ symbol lastPrice, p.priceCache.lookup symbol = some lastPrice → ticker symbol = .ok lastPrice

@[simp] theorem decide_priceCache (t : Trade) (lastPrice : Rat) (p : ExitPass) :
    (p.decide t lastPrice).priceCache = p.priceCache := by
  unfold decide
  split <;> rfl

theorem decide_decisions {t : Trade} {lastPrice : Rat} (h : ticker t.symbol = .ok lastPrice)
    (p : ExitPass) : (p.decide t lastPrice).decisions =
      p.decisions ++ (crossedAt ticker [t]).map Crossed.decision := by
  simp only [decide, crossedAt, exitReasonAt, h, List.filterMap_cons, List.filterMap_nil,
    Except.toOption, Option.bind_some]
  cases resolveSpotExitReason t lastPrice with
  | none => simp
  | some reason => rfl

/-- One turn of the loop raises with the ticker, or decides by its answer. -/
theorem look_cases {t : Trade} {p : ExitPass} (hp : p.Cached ticker) :
    (∃ e, ticker t.symbol = .error e ∧ p.look t (ticker t.symbol) = .error e) ∨
    ∃ lastPrice p', ticker t.symbol = .ok lastPrice ∧ p.look t (ticker t.symbol) = .ok p' ∧
      p'.Cached ticker ∧
      p'.decisions = p.decisions ++ (crossedAt ticker [t]).map Crossed.decision := by
  cases hlookup : p.priceCache.lookup t.symbol with
  | some lastPrice =>
    have hticker := hp t.symbol lastPrice hlookup
    refine .inr ⟨lastPrice, p.decide t lastPrice, hticker, ?_, ?_, decide_decisions hticker p⟩
    · simp only [look, hlookup]
    · simpa [Cached] using hp
  | none =>
    cases hticker : ticker t.symbol with
    | error e => exact .inl ⟨e, rfl, by simp only [look, hlookup]⟩
    | ok lastPrice =>
      refine .inr ⟨lastPrice,
        { p with priceCache := (t.symbol, lastPrice) :: p.priceCache }.decide t lastPrice, rfl,
        by simp only [look, hlookup], ?_, decide_decisions hticker _⟩
      intro symbol q hq
      rw [decide_priceCache, List.lookup_cons] at hq
      split at hq
      · next heq =>
        rw [eq_of_beq heq, hticker, Option.some.inj hq]
      · exact hp symbol q hq

theorem lookAll_cases (ts : List Trade) {p : ExitPass} (hp : p.Cached ticker) :
    (∃ e, ∃ t ∈ ts, ticker t.symbol = .error e ∧ lookAll ticker ts p = .error e) ∨
    ∃ p', lookAll ticker ts p = .ok p' ∧ (∀ t ∈ ts, ∃ q, ticker t.symbol = .ok q) ∧
      p'.decisions = p.decisions ++ (crossedAt ticker ts).map Crossed.decision := by
  induction ts generalizing p with
  | nil => exact .inr ⟨p, rfl, by simp, by simp [crossedAt]⟩
  | cons t ts ih =>
    obtain ⟨e, hticker, hlook⟩ | ⟨q, p₁, hticker, hlook, hp₁, hdecisions⟩ := look_cases (t := t) hp
    · exact .inl ⟨e, t, List.mem_cons_self, hticker, by simp only [lookAll, hlook]⟩
    · obtain ⟨e, r, hr, hticker', hrest⟩ | ⟨p', hrest, hanswered, hdecisions'⟩ := ih hp₁
      · exact .inl ⟨e, r, List.mem_cons_of_mem _ hr, hticker', by simp only [lookAll, hlook, hrest]⟩
      · refine .inr ⟨p', by simp only [lookAll, hlook, hrest], ?_, ?_⟩
        · exact List.forall_mem_cons.mpr ⟨⟨q, hticker⟩, hanswered⟩
        · have happend : crossedAt ticker ([t] ++ ts) =
              crossedAt ticker [t] ++ crossedAt ticker ts := List.filterMap_append
          rw [List.singleton_append] at happend
          rw [hdecisions', hdecisions, happend, List.map_append, List.append_assoc]

end ExitPass

theorem crossedAt_sublist (ticker : String → Except PyError Rat) (ts : List Trade) :
    ((crossedAt ticker ts).map fun c => c.1.id).Sublist (ts.map Trade.id) := by
  induction ts with
  | nil => exact .slnil
  | cons t ts ih =>
    rw [crossedAt, List.filterMap_cons]
    cases exitReasonAt ticker t with
    | none => exact ih.cons _
    | some reason => exact ih.cons_cons _

theorem mem_crossedAt {ticker : String → Except PyError Rat} {ts : List Trade} {c : Crossed}
    (h : c ∈ crossedAt ticker ts) : c.1 ∈ ts ∧ exitReasonAt ticker c.1 = some c.2 := by
  obtain ⟨t, ht, hreason⟩ := List.mem_filterMap.mp h
  obtain ⟨reason, hat, rfl⟩ := Option.map_eq_some_iff.mp hreason
  exact ⟨ht, hat⟩

/-- A pass that nothing comes between: without an answer for each symbol it changes nothing;
otherwise it sends one market order for each open position whose price has crossed a level and
for nothing else, and the rows of those alone change. -/
theorem pass_closes_crossed (env : Env) (hmode : env.settings.tradingMode ≠ .shadow) {w : World}
    (hw : w.WellFormed) (ticker : String → Except PyError Rat) (io : TradeId → CloseIo) :
    let pass := monitorSpotExitCandidatesOnce env.settings.tradingMode ticker io w
    (∃ e, ∃ t ∈ spotExitCandidates w.db, ticker t.symbol = .error e ∧ pass = (.error e, w)) ∨
    ∃ n nonce, pass.1 = .ok n ∧
      (∀ t ∈ spotExitCandidates w.db, ∃ q, ticker t.symbol = .ok q) ∧
      ClosedAll io (crossedAt ticker (spotExitCandidates w.db)) nonce n w pass.2 := by
  intro pass
  have hcached : ({} : ExitPass).Cached ticker := fun _ _ h => by simp at h
  have hsub : (spotExitCandidates w.db).Sublist w.db.trades :=
    List.filter_sublist.trans List.filter_sublist
  obtain ⟨e, t, ht, hticker, hlook⟩ | ⟨p, hlook, hanswered, hdecisions⟩ :=
    ExitPass.lookAll_cases (spotExitCandidates w.db) hcached
  · refine .inl ⟨e, t, ht, hticker, ?_⟩
    simp only [pass, monitorSpotExitCandidatesOnce, hlook]
  · have hcrossed : ((crossedAt ticker (spotExitCandidates w.db)).map fun c => c.1.id).Nodup :=
      (hw.ids.sublist (hsub.map _)).sublist (crossedAt_sublist ticker _)
    obtain ⟨nonce, hall⟩ := closeDecided_closes hmode io hw
      (fun c hc => hsub.subset (mem_crossedAt hc).1) hcrossed
    rw [List.nil_append] at hdecisions
    have hpass : pass = (.ok (closeDecided env.settings.tradingMode io p.decisions w).1,
        (closeDecided env.settings.tradingMode io p.decisions w).2) := by
      simp only [pass, monitorSpotExitCandidatesOnce, hlook]
    rw [← hdecisions] at hall
    exact .inr ⟨_, nonce, congrArg Prod.fst hpass, hanswered, hpass ▸ hall⟩

/-- An open position without a protective order, bought at 100. -/
def unguardedTrade : Trade where
  id := 0
  symbol := "BTCUSDT"
  signalDirection := .long
  exchangeSide := .buy
  marketType := .spot
  mode := .demo
  entryPrice := some 100
  stopPrice := some 95
  targetPrice := some 110
  qty := some 2
  filledQty := some 2
  orderType := some .market
  status := positionOpen
  createdAt := 0

def unguardedWorld : World := { db := { trades := [unguardedTrade] }, issued := 1 }

theorem unguardedWorld_wellFormed : unguardedWorld.WellFormed := by
  constructor <;> simp [unguardedWorld, unguardedTrade, Trade.ownsOrderLinkId]

/-- The price falls to 94, and the position is sold at the stop. -/
theorem pass_closes_crossed_stopHit : ∃ nonce,
    (monitorSpotExitCandidatesOnce .demo (fun _ => .ok 94) (fun _ => ⟨5, .accepted none⟩)
      unguardedWorld).1 = .ok 1 ∧
    ClosedAll (fun _ => ⟨5, .accepted none⟩) [(unguardedTrade, .slHit)] nonce 1 unguardedWorld
      (monitorSpotExitCandidatesOnce .demo (fun _ => .ok 94) (fun _ => ⟨5, .accepted none⟩)
        unguardedWorld).2 := by
  obtain ⟨e, t, -, hticker, -⟩ | ⟨n, nonce, hclosed, -, hall⟩ :=
    pass_closes_crossed (demoEnv .takerAllowed) (by decide) unguardedWorld_wellFormed
      (fun _ => .ok 94) (fun _ => ⟨5, .accepted none⟩)
  · cases hticker
  · have hcrossed : crossedAt (fun _ => .ok 94) (spotExitCandidates unguardedWorld.db) =
        [(unguardedTrade, .slHit)] := by decide +kernel
    rw [hcrossed] at hall
    obtain rfl : n = 1 := hall.closed
    exact ⟨nonce, hclosed, hall⟩

end AmaExecutionCore
