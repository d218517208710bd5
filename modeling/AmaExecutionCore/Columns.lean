import AmaExecutionCore.Moves

/-! What a session writes of a row it loaded earlier: the columns it changed, over the row
as it stands when the session writes. -/
namespace AmaExecutionCore

/-- A column is written when the session holds another value than it loaded. -/
def written {α : Type} [DecidableEq α] (loaded new row : α) : α := if new = loaded then row else new

theorem written_self {α : Type} [DecidableEq α] (loaded new : α) : written loaded new loaded = new := by
  unfold written
  split_ifs with h
  · exact h.symm
  · rfl

theorem written_same {α : Type} [DecidableEq α] (loaded row : α) : written loaded loaded row = row :=
  if_pos rfl

/-- The row after the session wrote `new` over what it had loaded. -/
def Trade.overwrite (loaded new row : Trade) : Trade where
  id := row.id
  signalId := written loaded.signalId new.signalId row.signalId
  orderLinkId := written loaded.orderLinkId new.orderLinkId row.orderLinkId
  exchangeOrderId := written loaded.exchangeOrderId new.exchangeOrderId row.exchangeOrderId
  closeOrderLinkId := written loaded.closeOrderLinkId new.closeOrderLinkId row.closeOrderLinkId
  closeExchangeOrderId := written loaded.closeExchangeOrderId new.closeExchangeOrderId row.closeExchangeOrderId
  stopOrderLinkId := written loaded.stopOrderLinkId new.stopOrderLinkId row.stopOrderLinkId
  stopExchangeOrderId := written loaded.stopExchangeOrderId new.stopExchangeOrderId row.stopExchangeOrderId
  takeProfitOrderLinkId := written loaded.takeProfitOrderLinkId new.takeProfitOrderLinkId row.takeProfitOrderLinkId
  takeProfitExchangeOrderId := written loaded.takeProfitExchangeOrderId new.takeProfitExchangeOrderId row.takeProfitExchangeOrderId
  symbol := written loaded.symbol new.symbol row.symbol
  signalDirection := written loaded.signalDirection new.signalDirection row.signalDirection
  exchangeSide := written loaded.exchangeSide new.exchangeSide row.exchangeSide
  marketType := written loaded.marketType new.marketType row.marketType
  mode := written loaded.mode new.mode row.mode
  equityAtEntry := written loaded.equityAtEntry new.equityAtEntry row.equityAtEntry
  riskAmountUsd := written loaded.riskAmountUsd new.riskAmountUsd row.riskAmountUsd
  riskPct := written loaded.riskPct new.riskPct row.riskPct
  entryPrice := written loaded.entryPrice new.entryPrice row.entryPrice
  stopPrice := written loaded.stopPrice new.stopPrice row.stopPrice
  targetPrice := written loaded.targetPrice new.targetPrice row.targetPrice
  expectedRrr := written loaded.expectedRrr new.expectedRrr row.expectedRrr
  qty := written loaded.qty new.qty row.qty
  orderType := written loaded.orderType new.orderType row.orderType
  isPostOnly := written loaded.isPostOnly new.isPostOnly row.isPostOnly
  avgFillPrice := written loaded.avgFillPrice new.avgFillPrice row.avgFillPrice
  filledQty := written loaded.filledQty new.filledQty row.filledQty
  feePaid := written loaded.feePaid new.feePaid row.feePaid
  slippage := written loaded.slippage new.slippage row.slippage
  avgExitPrice := written loaded.avgExitPrice new.avgExitPrice row.avgExitPrice
  status := written loaded.status new.status row.status
  exitReason := written loaded.exitReason new.exitReason row.exitReason
  realizedPnl := written loaded.realizedPnl new.realizedPnl row.realizedPnl
  pnlPct := written loaded.pnlPct new.pnlPct row.pnlPct
  pnlInR := written loaded.pnlInR new.pnlInR row.pnlInR
  holdTimeSeconds := written loaded.holdTimeSeconds new.holdTimeSeconds row.holdTimeSeconds
  openedAt := written loaded.openedAt new.openedAt row.openedAt
  closedAt := written loaded.closedAt new.closedAt row.closedAt
  createdAt := written loaded.createdAt new.createdAt row.createdAt

theorem Trade.overwrite_self {loaded new : Trade} (h : new.id = loaded.id) :
    loaded.overwrite new loaded = new := by
  simp only [Trade.overwrite, written_self, ← h]

namespace World

/-- The flush and commit of a session that loaded its trade earlier. -/
def commitLoaded (loaded : Trade) (k : Work) (w : World) : World :=
  { w with
    db := { w.db with
      trades := w.db.trades.map fun row =>
        if row.id = loaded.id then loaded.overwrite k.trade row else row
      tradeEvents := w.db.tradeEvents ++ k.events
      ledger := k.ledger }
    exchange := k.exchange
    issued := w.issued + 1 }

theorem WellFormed.commitLoaded_eq {w : World} {t : Trade} {k : Work} (hw : w.WellFormed)
    (ht : t ∈ w.db.trades) (hid : k.trade.id = t.id) : w.commitLoaded t k = w.commit k := by
  have hrows : (w.db.trades.map fun row =>
      if row.id = t.id then t.overwrite k.trade row else row) = Db.saveTrade k.trade w.db.trades := by
    rw [Db.saveTrade, Rows.put_of_mem ⟨t, ht, hid.symm⟩]
    apply List.map_congr_left
    intro r hr
    rw [hid]
    by_cases hr' : r.id = t.id
    · obtain rfl := hw.eq_of_id hr ht hr'
      rw [if_pos rfl, if_pos rfl, Trade.overwrite_self hid]
    · rw [if_neg hr', if_neg hr']
  simp only [commitLoaded, hrows]
  rfl

end World
end AmaExecutionCore
