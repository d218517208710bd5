import AmaExecutionCore.Effects
import AmaExecutionCore.Runs
import AmaExecutionCore.System

/-! The two resolvers of an unknown submission: `reconcile_pending_unknown` of the order
executor and `_reconcile_trade` of the sync engine, on one answer about the entry order. -/
namespace AmaExecutionCore
open TradeStatus

/-- What a resolver leaves of the trade, and the orders sent by then. -/
structure Resolution where
  status : TradeStatus
  avgFillPrice : Option Rat
  filledQty : Option Rat
  opened : Bool
  stop : Option OrderLinkId
  takeProfit : Option OrderLinkId
  sent : List SentOrder
  deriving DecidableEq

def Work.resolution (k : Work) : Resolution where
  status := k.trade.status
  avgFillPrice := k.trade.avgFillPrice
  filledQty := k.trade.filledQty
  opened := k.trade.openedAt.isSome
  stop := k.trade.stopOrderLinkId
  takeProfit := k.trade.takeProfitOrderLinkId
  sent := k.exchange.orders

/-- Both resolvers make the same of the answer. -/
def ResolversAgree (io : HandlerIo) (remote : OrderData) (k : Work) : Prop :=
  (reconcilePendingUnknown (.ok (some remote)) k).2.resolution =
    (reconcileTrade true (.ok (some remote)) io k).2.resolution

instance (io : HandlerIo) (remote : OrderData) (k : Work) : Decidable (ResolversAgree io remote k) :=
  inferInstanceAs (Decidable (_ = _))

/-- The field of the answer is absent, or the column holds what it keeps of its value. -/
def FieldKnown (keep : Rat → Rat) (field : Option RawNumber) (column : Option Rat) : Prop :=
  field = none ∨ ∃ q, field = some (.decimal q) ∧ column = some (keep q)

/-- A filled spot market trade for which no protective order can be sent. -/
def Unarmable (t : Trade) : Prop :=
  t.marketType = .spot ∧ t.orderType = some .market ∧
    (t.stopPrice = none ∨ (pyOr t.filledQty t.qty).getD 0 = 0)

/-- The fill in the answer changes nothing but the status. -/
def FillKnown (remote : OrderData) (t : Trade) : Prop :=
  t.openedAt.isSome = true ∧ FieldKnown id remote.avgPrice t.avgFillPrice ∧
    FieldKnown storedAmount remote.cumExecQty t.filledQty ∧
    (remote.leavesQty = some "0" → Unarmable (t.noteFilledQty remote.cumQty))

/-- The answer tells both resolvers the same. -/
def ResolvedAlike (remote : OrderData) (link : OrderLinkId) (t : Trade) : Prop :=
  match remote.orderStatus with
  | .partiallyFilled | .other => True
  | .rejected | .cancelled => t.isProtectiveClose link = false
  | .filled =>
    if t.isProtectiveClose link = true then remote.avgPrice = some .malformed
    else FillKnown remote t

theorem noteRemoteStatus_resolution (remote : OrderData) (k : Work) :
    (noteRemoteStatus remote k).resolution =
      { k.resolution with status := mapRemoteOrderStatus remote.orderStatus } := by
  simp [noteRemoteStatus, Work.resolution]

theorem noteExchangeOrderId_resolution (link : OrderLinkId) (orderId : Option String) (k : Work) :
    (k.onTrade (Trade.noteExchangeOrderId link orderId)).resolution = k.resolution := by
  simp only [Work.resolution, Work.onTrade_trade, Work.onTrade_exchange, Trade.noteExchangeOrderId]
  split
  · rfl
  · split_ifs <;> rfl

theorem transition_resolution (s : TradeStatus) (m : List (String × String)) (k : Work) :
    (k.transitionTradeStatus s m).resolution = { k.resolution with status := s } := by
  simp [Work.resolution]

theorem confirmEntryFill_resolution (now : Timestamp) (avg cum : Option Rat) (k : Work) :
    (confirmEntryFill now avg cum k).resolution =
      { k.resolution with
        status := orderConfirmed
        avgFillPrice := avg <|> k.trade.avgFillPrice
        filledQty := cum <|> k.trade.filledQty
        opened := true } := by
  simp [confirmEntryFill, Work.resolution, Trade.noteFillPrice, Trade.noteFilledQty]

theorem storeFilledQty_resolution (cum : Option Rat) (k : Work) :
    (k.onTrade (Trade.storeFilledQty cum)).resolution =
      { k.resolution with filledQty := cum.map storedAmount <|> k.trade.filledQty } := rfl

/-- Parsing a field leaves the column as it was exactly when its value is known. -/
theorem parseOptional_known {keep : Rat → Rat} {field : Option RawNumber} {q column : Option Rat}
    (h : parseOptional field = .ok q) :
    (q.map keep <|> column) = column ↔ FieldKnown keep field column := by
  match field, h with
  | none, h =>
    obtain rfl := Except.ok.inj h
    simp [FieldKnown]
  | some (.decimal p), h =>
    obtain rfl := Except.ok.inj h
    simp [FieldKnown, eq_comm]
  | some .malformed, h => cases h

theorem not_fieldKnown {keep : Rat → Rat} {field : Option RawNumber} {e : PyError}
    (h : parseOptional field = .error e) (column : Option Rat) : ¬ FieldKnown keep field column := by
  rintro (rfl | ⟨q, rfl, -⟩) <;> cases h

theorem ensureSpotMarketProtection_unarmable (io : HandlerIo) {k : Work} (h : Unarmable k.trade) :
    ensureSpotMarketProtection true io k = (false, k) := by
  obtain ⟨hmarket, htype, hnone⟩ := h
  unfold ensureSpotMarketProtection
  rw [if_neg (by simp), if_neg (by simp [hmarket, htype])]
  split
  · next qty stopPrice hqty hstop =>
    rw [if_pos]
    simpa [hqty, hstop] using hnone
  · rfl

theorem armStopLoss_moves (restClient : Bool) (io : HandlerIo) (qty stopPrice : Rat) (k : Work) :
    (armStopLoss restClient io qty stopPrice k).1 = true ∨
      (armStopLoss restClient io qty stopPrice k).2.trade.status ∈
        [positionClosePending, positionCloseFailed] := by
  unfold armStopLoss
  split
  · exact .inl rfl
  · dsimp only
    split
    · rw [List.mem_pair]
      cases handleStopLossSubmissionFailure_givenUp restClient io
        (k.sendStop io qty stopPrice) with
      | unsent h => exact .inr (.inr h.status)
      | sent h => exact .inr (.inl h.status)
      | failed h => exact .inr (.inr h.status)
    · exact .inl rfl

theorem ensureSpotMarketProtection_moves (io : HandlerIo) {k : Work} (h : ¬ Unarmable k.trade) :
    (ensureSpotMarketProtection true io k).1 = true ∨
      (ensureSpotMarketProtection true io k).2.trade.status ∈
        [positionClosePending, positionCloseFailed] := by
  unfold ensureSpotMarketProtection
  rw [if_neg (by simp)]
  split_ifs with hspot
  · exact .inl rfl
  · obtain ⟨hmarket, htype⟩ : k.trade.marketType = .spot ∧ k.trade.orderType = some .market := by
      simpa [not_or] using hspot
    split
    · next qty stopPrice hqty hstop =>
      have hne : qty ≠ 0 := by
        rintro rfl
        exact h ⟨hmarket, htype, .inr (by simp [hqty])⟩
      rw [if_neg hne]
      have harm := armStopLoss_moves true io qty stopPrice k
      split
      · next hfalse =>
        rw [hfalse] at harm
        exact .inr (harm.resolve_left (by simp))
      · exact .inl rfl
    · next hnone =>
      refine (h ⟨hmarket, htype, ?_⟩).elim
      cases hstop : k.trade.stopPrice with
      | none => exact .inl rfl
      | some stopPrice =>
        refine .inr ?_
        cases hqty : pyOr k.trade.filledQty k.trade.qty with
        | none => rfl
        | some qty => exact (hnone qty stopPrice hqty hstop).elim

theorem confirmEntryFill_unarmable (now : Timestamp) (avg cum : Option Rat) (k : Work) :
    Unarmable (confirmEntryFill now avg cum k).trade ↔ Unarmable (k.trade.noteFilledQty cum) := by
  simp [Unarmable, confirmEntryFill, Trade.noteFillPrice, Trade.noteFilledQty]

theorem OrderData.cumQty_of_parse {data : OrderData} {cum : Option Rat}
    (h : parseOptional data.cumExecQty = .ok cum) : data.cumQty = cum := by
  unfold cumQty
  match hfield : data.cumExecQty, h with
  | none, h => exact Except.ok.inj h
  | some (.decimal q), h => exact Except.ok.inj h
  | some .malformed, h => cases h

/-- A fill of the entry order leaves what the executor leaves exactly when its data is
known. -/
theorem applyEntryFill_resolution (io : HandlerIo) (data : OrderData) {k : Work}
    (hst : k.trade.status ≠ orderConfirmed) :
    (applyEntryFill true io data k).2.resolution = { k.resolution with status := orderConfirmed } ↔
      FillKnown data k.trade := by
  unfold applyEntryFill
  split
  · next e havg =>
    refine iff_of_false ?_ fun h => not_fieldKnown havg _ h.2.1
    exact fun h => hst (congrArg Resolution.status h)
  · next avg havg =>
    split
    · next e hcum =>
      refine iff_of_false ?_ fun h => not_fieldKnown hcum _ h.2.2.1
      exact fun h => hst (congrArg Resolution.status h)
    · next cum hcum =>
      obtain rfl := OrderData.cumQty_of_parse hcum
      have hconf := confirmEntryFill_resolution io.now avg data.cumQty k
      have hcolumns : ((confirmEntryFill io.now avg data.cumQty k).onTrade
          (Trade.storeFilledQty data.cumQty)).resolution =
          { k.resolution with status := orderConfirmed } ↔ k.trade.openedAt.isSome = true ∧
            FieldKnown id data.avgPrice k.trade.avgFillPrice ∧
            FieldKnown storedAmount data.cumExecQty k.trade.filledQty := by
        have hstored : (data.cumQty.map storedAmount <|>
            (confirmEntryFill io.now avg data.cumQty k).trade.filledQty) =
            (data.cumQty.map storedAmount <|> k.trade.filledQty) := by
          cases hcum : data.cumQty <;>
            simp [confirmEntryFill, Trade.noteFilledQty, Trade.noteFillPrice]
        rw [storeFilledQty_resolution, hstored, hconf, ← parseOptional_known havg,
          ← parseOptional_known hcum]
        simp only [Work.resolution, Resolution.mk.injEq, true_and, and_true, eq_comm (a := true),
          Option.map_id, id]
        tauto
      have harmable := confirmEntryFill_unarmable io.now avg data.cumQty k
      dsimp only
      by_cases hleaves : data.leavesQty = some "0"
      · rw [if_pos hleaves]
        by_cases harm : Unarmable (confirmEntryFill io.now avg data.cumQty k).trade
        · rw [ensureSpotMarketProtection_unarmable io harm]
          refine hcolumns.trans ⟨fun hk => ⟨hk.1, hk.2.1, hk.2.2, fun _ => ?_⟩,
            fun h => ⟨h.1, h.2.1, h.2.2.1⟩⟩
          exact harmable.mp harm
        · refine iff_of_false ?_ fun h => harm (harmable.mpr (h.2.2.2 hleaves))
          intro h
          have hmoved := ensureSpotMarketProtection_moves io harm
          have hstatus := congrArg Resolution.status h
          rw [storeFilledQty_resolution] at hstatus
          split at hstatus
          · simp [Work.resolution] at hstatus
          · next hens =>
            rw [hens] at hmoved
            have hin := hmoved.resolve_left (by simp)
            simp [Work.resolution] at hstatus
            simp [hstatus] at hin
      · rw [if_neg hleaves]
        exact hcolumns.trans ⟨fun hk => ⟨hk.1, hk.2.1, hk.2.2, fun h => (hleaves h).elim⟩,
          fun h => ⟨h.1, h.2.1, h.2.2.1⟩⟩

theorem applyExitFill_resolution (io : HandlerIo) (link : OrderLinkId) (data : OrderData) (k : Work) :
    (applyExitFill io link data k).2.resolution = { k.resolution with status := orderConfirmed } ↔
      data.avgPrice = some .malformed := by
  unfold applyExitFill
  dsimp only
  split
  · next e hprice =>
    exact iff_of_true (transition_resolution _ _ _) (parse_getD_error hprice)
  · next exitPrice hprice =>
    obtain ⟨k', hbook, hend⟩ := recordExit_booked io.now link exitPrice
      (k.transitionTradeStatus .orderConfirmed exchangeSync)
    rw [hbook]
    refine iff_of_false (fun h => ?_) (parse_getD_ok hprice)
    have hstatus : k'.trade.status = orderConfirmed := congrArg Resolution.status h
    rw [hend.status] at hstatus
    cases hstatus

theorem fillKnown_noteExchangeOrderId (data : OrderData) (link : OrderLinkId)
    (orderId : Option String) (t : Trade) :
    FillKnown data (t.noteExchangeOrderId link orderId) ↔ FillKnown data t := by
  simp only [Trade.noteExchangeOrderId]
  split
  · rfl
  · split_ifs <;> rfl

/-- The two resolvers agree on a trade whose submission is unknown exactly when the answer
tells them the same: it is no fill, or a fill that changes nothing but the status. -/
theorem resolversAgree_iff (io : HandlerIo) (remote : OrderData) (link : OrderLinkId) (k : Work)
    (hst : k.trade.status = orderPendingUnknown) (hlink : k.trade.orderLinkId = some link)
    (hremote : remote.orderLinkId = none ∨ remote.orderLinkId = some link) :
    ResolversAgree io remote k ↔ ResolvedAlike remote link k.trade := by
  have htracked : k.trade.trackedOrderLinkId = some link := by
    simp [Trade.trackedOrderLinkId, hst, hlink, closeReconciliationStatuses,
      entryReconciliationStatuses]
  have hdata : (reconciledData link remote).orderLinkId = some link := by
    obtain h | h := hremote <;> simp [reconciledData, h]
  have hexec : (reconcilePendingUnknown (.ok (some remote)) k).2.resolution =
      { k.resolution with status := mapRemoteOrderStatus remote.orderStatus } := by
    simp only [reconcilePendingUnknown, hlink]
    exact noteRemoteStatus_resolution remote k
  have hsync : reconcileTrade true (.ok (some remote)) io k =
      applyOrderUpdate true io (reconciledData link remote) k := by
    simp only [reconcileTrade, htracked, reconciledData]
    rfl
  have hnote := noteExchangeOrderId_resolution link remote.orderId k
  have hknown := fillKnown_noteExchangeOrderId remote link remote.orderId k.trade
  have hnoteSt : (Trade.noteExchangeOrderId link remote.orderId k.trade).status =
      orderPendingUnknown := (noteExchangeOrderId_settles link remote.orderId k).status.trans hst
  have hentry : ∀ s b, shouldIgnoreEntryUpdate (Trade.noteExchangeOrderId link remote.orderId
      k.trade) s b = false := by
    simp [shouldIgnoreEntryUpdate, hnoteSt]
  have hexit : shouldIgnoreCloseUpdate (Trade.noteExchangeOrderId link remote.orderId k.trade) =
      false := by
    simp [shouldIgnoreCloseUpdate, hnoteSt]
  have hstatus : (reconciledData link remote).orderStatus = remote.orderStatus := rfl
  have horder : (reconciledData link remote).orderId = remote.orderId := rfl
  rw [ResolversAgree, hexec, hsync, eq_comm, ResolvedAlike]
  simp only [applyOrderUpdate, hdata, hstatus, horder]
  cases hs : remote.orderStatus with
  | filled =>
    cases hrole : k.trade.isProtectiveClose link with
    | true =>
      have happ : _ ↔ remote.avgPrice = some .malformed := applyExitFill_resolution io link
        (reconciledData link remote) (k.onTrade (Trade.noteExchangeOrderId link remote.orderId))
      rw [hnote] at happ
      simpa [orderStatusMap, mapRemoteOrderStatus, hexit, hrole] using happ
    | false =>
      have happ : _ ↔ FillKnown remote _ := @applyEntryFill_resolution io (reconciledData link remote)
        (k.onTrade (Trade.noteExchangeOrderId link remote.orderId)) (by simp [hnoteSt])
      rw [hnote] at happ
      simpa [orderStatusMap, mapRemoteOrderStatus, hentry, hrole] using happ.trans hknown
  | partiallyFilled =>
    simp [orderStatusMap, mapRemoteOrderStatus, hentry, hexit, transition_resolution, hnote]
  | rejected =>
    cases hrole : k.trade.isProtectiveClose link with
    | true =>
      simp [orderStatusMap, mapRemoteOrderStatus, hexit, hrole, applyExitFailure, Work.resolution]
    | false =>
      simp [orderStatusMap, mapRemoteOrderStatus, hentry, hrole, transition_resolution, hnote]
  | cancelled =>
    cases hrole : k.trade.isProtectiveClose link with
    | true =>
      simp [orderStatusMap, mapRemoteOrderStatus, hexit, hrole, applyExitFailure, Work.resolution]
    | false =>
      simp [orderStatusMap, mapRemoteOrderStatus, hentry, hrole, transition_resolution, hnote]
  | other => simp [orderStatusMap, mapRemoteOrderStatus, Work.resolution, hst]

/-- A submission that timed out and whose lookup failed. -/
def unknownEntryRun : List Step :=
  [.executeSignal demoRequest (demoExecute (.timeoutError true) (.error .timeoutError))]

theorem resolversAgree_cancelled : ∃ t ∈ (Runs.run (step (demoEnv .takerAllowed)) {}
    unknownEntryRun).db.trades, ResolversAgree (demoHandler 1)
      { orderLinkId := some (.generated (some 0) 2), orderStatus := .cancelled }
      ((Runs.run (step (demoEnv .takerAllowed)) {} unknownEntryRun).work t) := by
  have hunknown : ∃ t ∈ (Runs.run (step (demoEnv .takerAllowed)) {} unknownEntryRun).db.trades,
      t.status = orderPendingUnknown ∧ t.orderLinkId = some (.generated (some 0) 2) ∧
        t.isProtectiveClose (.generated (some 0) 2) = false := by decide +kernel
  obtain ⟨t, ht, hst, hlink, hrole⟩ := hunknown
  exact ⟨t, ht, (resolversAgree_iff _ _ _ _ hst hlink (.inr rfl)).mpr hrole⟩

/-- A complete fill: the executor leaves the trade confirmed, without its fill, and without
protection; the sync engine opens the position. -/
theorem resolversAgree_fails : ∃ t ∈ (Runs.run (step (demoEnv .takerAllowed)) {}
    unknownEntryRun).db.trades, t.status = orderPendingUnknown ∧
      t.orderLinkId = demoEntryFill.orderLinkId ∧ ¬ ResolversAgree (demoHandler 1) demoEntryFill
        ((Runs.run (step (demoEnv .takerAllowed)) {} unknownEntryRun).work t) := by
  decide +kernel

end AmaExecutionCore
