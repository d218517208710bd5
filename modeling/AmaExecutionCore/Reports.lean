import AmaExecutionCore.Lifecycle
import AmaExecutionCore.Outcomes
import Mathlib.Data.List.Sort

/-! The trade reports of the admin pages, and what they show of a journal the
execution core wrote. -/
namespace AmaExecutionCore
open TradeStatus

structure TradeSummary where
  totalTrades : Nat
  winRate : Rat
  profitFactor : Option Rat
  totalPnl : Rat
  avgTrade : Rat
  deriving DecidableEq, Repr

/-- `get_trades_summary`; an infinite profit factor is `none`. -/
def getTradesSummary (db : Db) : TradeSummary :=
  let pnls := (db.trades.filter fun t => t.status = positionClosed).filterMap Trade.realizedPnl
  if pnls = [] then ⟨0, 0, some 0, 0, 0⟩
  else
    let total := pnls.length
    let wins := pnls.filter (0 < ·)
    let losses := pnls.filter (· < 0)
    let grossProfit := wins.sum
    let grossLoss := |losses.sum|
    { totalTrades := total
      winRate := wins.length / total
      profitFactor :=
        if 0 < grossLoss then some (grossProfit / grossLoss)
        else if 0 < grossProfit then none else some 0
      totalPnl := pnls.sum
      avgTrade := pnls.sum / total }

structure TradeItem where
  id : TradeId
  symbol : String
  signalDirection : SignalDirection
  exchangeSide : ExchangeSide
  marketType : MarketType
  mode : TradingMode
  status : TradeStatus
  entryPrice : Option Rat
  stopPrice : Option Rat
  targetPrice : Option Rat
  qty : Option Rat
  expectedRrr : Option Rat
  riskAmountUsd : Option Rat
  riskPct : Option Rat
  realizedPnl : Option Rat
  openedAt : Option Timestamp
  closedAt : Option Timestamp
  createdAt : Timestamp
  deriving DecidableEq, Repr

def tradeToDict (t : Trade) : TradeItem where
  id := t.id
  symbol := t.symbol
  signalDirection := t.signalDirection
  exchangeSide := t.exchangeSide
  marketType := t.marketType
  mode := t.mode
  status := t.status
  entryPrice := t.entryPrice
  stopPrice := t.stopPrice
  targetPrice := t.targetPrice
  qty := t.qty
  expectedRrr := t.expectedRrr
  riskAmountUsd := t.riskAmountUsd
  riskPct := t.riskPct
  realizedPnl := t.realizedPnl
  openedAt := t.openedAt
  closedAt := t.closedAt
  createdAt := t.createdAt

/-- The query parameters of the trade list. -/
structure TradeFilters where
  symbol : Option String := none
  fromDate : Option Date := none
  toDate : Option Date := none

def startOfDay (date : Date) : Timestamp := date * 86400000000

/-- The `where` clauses; a column that is null satisfies no comparison. -/
def TradeFilters.selects (filters : TradeFilters) (t : Trade) : Bool :=
  t.status = positionClosed &&
    (match filters.symbol with
      | none | some "" => true
      | some symbol => t.symbol = symbol) &&
    (match filters.fromDate with
      | none => true
      | some date => t.closedAt.any (startOfDay date ≤ ·)) &&
    (match filters.toDate with
      | none => true
      | some date => t.closedAt.any (· < startOfDay (date + 1)))

/-- `closed_at DESC`: rows without a closing time come first. -/
def closedLater (a b : Trade) : Bool :=
  match a.closedAt, b.closedAt with
  | none, _ => true
  | some _, none => false
  | some s, some t => t ≤ s

structure TradesPage where
  total : Nat
  page : Nat
  pages : Nat
  items : List TradeItem
  deriving DecidableEq, Repr

def tradesList (filters : TradeFilters) (page limit : Nat) (db : Db) : TradesPage :=
  let selected := db.trades.filter filters.selects
  let offset := (page - 1) * limit
  { total := selected.length
    page := page
    pages := max 1 ((selected.length + limit - 1) / limit)
    items := (((selected.mergeSort closedLater).drop offset).take limit).map tradeToDict }

/-- The list without filters, page after page. -/
def allPages (limit : Nat) (db : Db) : List TradeItem :=
  (List.range (tradesList {} 1 limit db).pages).flatMap fun i =>
    (tradesList {} (i + 1) limit db).items

/-- The trades whose close was booked. -/
def bookedTrades (db : Db) : List Trade := db.trades.filter fun t => t.realizedPnl.isSome

/-- The reports show each trade whose close was booked, each once, and no other. -/
structure ReportsAgree (db : Db) : Prop where
  totalTrades : (getTradesSummary db).totalTrades = (bookedTrades db).length
  totalPnl : (getTradesSummary db).totalPnl = ((bookedTrades db).filterMap Trade.realizedPnl).sum
  listed : ∀ limit, 1 ≤ limit → limit ≤ 200 →
    (allPages limit db).Perm ((bookedTrades db).map tradeToDict)

theorem flatMap_pages {α : Type*} (l : List α) (limit pages : Nat) :
    ((List.range pages).flatMap fun i => (l.drop (i * limit)).take limit) =
      l.take (pages * limit) := by
  induction pages with
  | zero => simp
  | succ n ih =>
    have hlast : l.take ((n + 1) * limit) =
        l.take (n * limit) ++ (l.drop (n * limit)).take limit := by
      rw [Nat.add_one_mul, List.take_add]
    rw [hlast, ← ih]
    simp [List.range_succ]

/-- The pages of the list show the trades in status `positionClosed`, each once. -/
theorem allPages_perm (db : Db) {limit : Nat} (h : 1 ≤ limit) : (allPages limit db).Perm
    ((db.trades.filter (TradeFilters.selects {})).map tradeToDict) := by
  have hpages : ∀ n : Nat, n ≤ max 1 ((n + limit - 1) / limit) * limit := by
    intro n
    have hdiv := Nat.lt_div_mul_add (b := limit) (a := n + limit - 1) (by omega)
    have hmax := Nat.mul_le_mul_right limit (Nat.le_max_right 1 ((n + limit - 1) / limit))
    omega
  have hall : allPages limit db =
      ((db.trades.filter (TradeFilters.selects {})).mergeSort closedLater).map tradeToDict := by
    have hlen : ((db.trades.filter (TradeFilters.selects {})).mergeSort closedLater).length =
        (db.trades.filter (TradeFilters.selects {})).length := List.length_mergeSort _
    simp only [allPages, tradesList, Nat.add_sub_cancel]
    rw [← List.map_flatMap, flatMap_pages, List.take_of_length_le]
    rw [hlen]
    exact hpages _
  rw [hall]
  exact (List.mergeSort_perm _ _).map tradeToDict

theorem Handled.notClosed {env : Env} {w : World} {s : Step} {k k' : Work}
    (h : Handled env w s k k') (hk : k.trade.status ≠ positionClosed) :
    k'.trade.status ≠ positionClosed := by
  cases h with
  | unanswered => exact hk
  | @update _ data io _ _ _ _ h =>
    have hup := applyOrderUpdate_updated env.restClient io data k
    rw [h] at hup
    cases hup with
    | unmoved h => exact h.status ▸ hk
    | entryMoved _ _ hs _ _ h =>
      rw [h.status]
      obtain ⟨-, rfl⟩ | ⟨-, rfl⟩ | ⟨-, rfl⟩ | ⟨-, rfl⟩ := orderStatusMap_eq hs <;> decide
    | entryFilled _ _ _ _ h => simp [h.status]
    | entryDone _ _ _ _ _ hconf hp hend =>
      rw [hend.status]
      split_ifs
      · decide
      · obtain hkept | ⟨-, hkept | hkept⟩ := hp.status
        · simp [hkept, hconf.status]
        · simp [hkept]
        · simp [hkept]
    | exitBroken _ _ _ _ h => simp [h.status]
    | exitFilled _ _ _ _ _ h => simp [h.status]
    | exitFailed _ _ _ _ h => simp [h.status]
    | exitPartly _ _ _ _ h => simp [h.status]
  | execution _ _ _ h =>
    obtain ⟨q, rfl⟩ := noteSlippage_same h
    obtain ⟨paid, hfee⟩ := k.trade.addFee_eq _
    rw [hfee]
    exact hk
  | @closed reason io _ _ _ h =>
    have hcl := submitClose_closing env.settings.tradingMode reason io k
    rw [h] at hcl
    cases hcl with
    | shadow _ h => simp [h.status]
    | sent _ h => simp [h.status]
  | @protect io =>
    obtain h | ⟨-, h | h⟩ := (ensureSpotMarketProtection_protection env.restClient
      (io k.trade.id) k).status
    · exact h ▸ hk
    · simp [h]
    · simp [h]
  | @resolved _ io _ _ _ h =>
    obtain rfl | ⟨remote, -, rfl⟩ := reconcilePendingUnknown_ok h
    · exact hk
    · rw [(noteRemoteStatus_settles remote k).status]
      cases remote.orderStatus <;> decide

theorem Entered.notClosed {s : Settings} {category : MarketType}
    {req : NormalizedExecuteSignalRequest} {io : ExecuteIo} {k k' : Work}
    {raised : Option PyError} (h : Entered s category req io k (.committed raised k')) :
    k'.trade.status ≠ positionClosed := by
  cases h with
  | shadow _ h => simp [h.status]
  | accepted _ _ _ _ h => simp [h.status]
  | refused _ _ _ _ h => simp [h.status]
  | uncertain _ _ _ _ _ hl h =>
    rw [h.status]
    obtain rfl | ⟨remote, -, rfl⟩ := hl
    · decide
    · cases remote.orderStatus <;> decide

/-- A close passes through `positionClosed` inside its transaction or not at all: no
committed trade has that status. -/
theorem notClosed_run (env : Env) (ss : List Step) :
    ∀ t ∈ (Runs.run (step env) {} ss).db.trades, t.status ≠ positionClosed := by
  refine run_of_commits (I := fun w => ∀ t ∈ w.db.trades, t.status ≠ positionClosed) ss
    (fun _ ht => nomatch ht) ?_
  intro s w w' _ hc
  refine hc.each (fun _ _ _ _ _ hk => hk.notClosed) ?_
  intro req io p raised k hk
  have hent := settleEntry_entered env.settings .spot req io (entryWork env req io p)
    (entryWork_link _ _ _ _)
  rw [hk] at hent
  exact hent.notClosed

/-- The reports select by a status no committed trade has, so they agree with the
journal exactly as long as no close was booked. -/
theorem reportsAgree_iff (env : Env) (ss : List Step) :
    ReportsAgree (Runs.run (step env) {} ss).db ↔
      ∀ t ∈ (Runs.run (step env) {} ss).db.trades, t.realizedPnl = none := by
  have hnone := notClosed_run env ss
  generalize (Runs.run (step env) {} ss).db = db at hnone
  have hselected : db.trades.filter (TradeFilters.selects {}) = [] := by
    simpa [TradeFilters.selects] using hnone
  have hsummary : getTradesSummary db = ⟨0, 0, some 0, 0, 0⟩ := by
    have hclosed : (db.trades.filter fun t => t.status = positionClosed) = [] := by
      simpa using hnone
    simp [getTradesSummary, hclosed]
  have hbooked : bookedTrades db = [] ↔ ∀ t ∈ db.trades, t.realizedPnl = none := by
    simp [bookedTrades]
  rw [← hbooked]
  constructor
  · intro h
    have htotal := h.totalTrades
    rw [hsummary] at htotal
    exact List.length_eq_zero_iff.mp htotal.symm
  · intro h
    refine ⟨by simp [hsummary, h], by simp [hsummary, h], ?_⟩
    intro limit hlimit _
    have hpages := allPages_perm db hlimit
    rwa [hselected, ← h] at hpages

/-- After a close is booked the summary shows no trade. -/
theorem reportsAgree_fails : ¬ ReportsAgree
    (Runs.run (step (demoEnv .takerAllowed)) {} (closedRun .filled .filled)).db := by
  intro h
  exact absurd h.totalTrades (by decide +kernel)

end AmaExecutionCore
