import AmaExecutionCore.Commits

/-! When a trade was created: no handler changes it. -/
namespace AmaExecutionCore

theorem submitEmergencyClose_createdAt (io : HandlerIo) (k : Work) :
    (submitEmergencyClose io k).trade.createdAt = k.trade.createdAt := by
  simp only [submitEmergencyClose]
  split <;> simp [Trade.noteEmergencyClose, Trade.noteCloseExchangeId]

theorem handleStopLossSubmissionFailure_createdAt (restClient : Bool) (io : HandlerIo) (k : Work) :
    (handleStopLossSubmissionFailure restClient io k).trade.createdAt = k.trade.createdAt := by
  simp only [handleStopLossSubmissionFailure]
  split_ifs <;> simp [submitEmergencyClose_createdAt]

theorem armStopLoss_createdAt (restClient : Bool) (io : HandlerIo) (qty stopPrice : Rat)
    (k : Work) : (armStopLoss restClient io qty stopPrice k).2.trade.createdAt =
      k.trade.createdAt := by
  simp only [armStopLoss]
  split
  · rfl
  · split
    · simp [handleStopLossSubmissionFailure_createdAt]
    · rfl

theorem armTakeProfit_createdAt (io : HandlerIo) (qty : Rat) (k : Work) :
    (armTakeProfit io qty k).trade.createdAt = k.trade.createdAt := by
  simp only [armTakeProfit]
  split
  · split <;> rfl
  · rfl

theorem ensureSpotMarketProtection_createdAt (restClient : Bool) (io : HandlerIo) (k : Work) :
    (ensureSpotMarketProtection restClient io k).2.trade.createdAt = k.trade.createdAt := by
  unfold ensureSpotMarketProtection
  split_ifs
  · rfl
  · rfl
  · split
    · next qty stopPrice _ _ =>
      split_ifs
      · rfl
      · have hstop := armStopLoss_createdAt restClient io qty stopPrice k
        split
        · next k' h => rwa [h] at hstop
        · next k' h =>
          rw [h] at hstop
          exact (armTakeProfit_createdAt io qty k').trans hstop
    · rfl

theorem Trade.noteExchangeOrderId_createdAt (link : OrderLinkId) (orderId : Option String)
    (t : Trade) : (t.noteExchangeOrderId link orderId).createdAt = t.createdAt := by
  unfold Trade.noteExchangeOrderId
  split
  · rfl
  · split_ifs <;> rfl

theorem applyEntryFill_createdAt (restClient : Bool) (io : HandlerIo) (data : OrderData)
    (k : Work) : (applyEntryFill restClient io data k).2.trade.createdAt = k.trade.createdAt := by
  obtain ⟨e, avg, heq⟩ | ⟨avg, cum, -, heq⟩ := applyEntryFill_cases restClient io data k
  · rw [heq]
    rfl
  · have hconf : (confirmEntryFill io.now avg cum k).trade.createdAt = k.trade.createdAt := by
      simp [confirmEntryFill, Trade.noteFillPrice, Trade.noteFilledQty]
    have harm := ensureSpotMarketProtection_createdAt restClient io (confirmEntryFill io.now avg cum k)
    rw [heq]
    simp only [Work.onTrade_trade, Trade.storeFilledQty]
    split_ifs
    · split <;>
      · next h =>
        rw [h] at harm
        simpa using harm.trans hconf
    · exact hconf

theorem Work.applyTradeOutcomeAnalytics_trade (now : Timestamp) (k : Work) :
    (k.applyTradeOutcomeAnalytics now).2.trade = k.trade := by
  unfold Work.applyTradeOutcomeAnalytics
  split <;> rfl

theorem applyExitFill_createdAt (io : HandlerIo) (link : OrderLinkId) (data : OrderData)
    (k : Work) : (applyExitFill io link data k).2.trade.createdAt = k.trade.createdAt := by
  simp only [applyExitFill]
  split
  · simp
  · next exitPrice _ =>
    have hbook := Work.applyTradeOutcomeAnalytics_trade io.now (recordExit io.now link exitPrice
      (k.transitionTradeStatus .orderConfirmed exchangeSync))
    have hexit : (recordExit io.now link exitPrice
        (k.transitionTradeStatus .orderConfirmed exchangeSync)).trade.createdAt =
          k.trade.createdAt := by
      simp [recordExit, Trade.noteExit, Trade.recordPnl]
    split <;>
    · next h =>
      rw [h] at hbook
      exact (congrArg Trade.createdAt hbook).trans hexit

theorem applyOrderUpdate_createdAt (restClient : Bool) (io : HandlerIo) (data : OrderData)
    (k : Work) : (applyOrderUpdate restClient io data k).2.trade.createdAt = k.trade.createdAt := by
  unfold applyOrderUpdate
  split
  · next link s _ _ =>
    have hnote : (k.onTrade (Trade.noteExchangeOrderId link data.orderId)).trade.createdAt =
        k.trade.createdAt := k.trade.noteExchangeOrderId_createdAt link data.orderId
    rw [← hnote]
    generalize k.onTrade (Trade.noteExchangeOrderId link data.orderId) = k₁
    dsimp only
    split_ifs
    · rfl
    · rfl
    · exact applyEntryFill_createdAt restClient io data k₁
    · exact applyExitFill_createdAt io link data k₁
    · simp [applyExitFailure]
    · simp
  · rfl

theorem submitClose_createdAt (mode : TradingMode) (reason : ExitReason) (io : CloseIo)
    (k : Work) : (submitClose mode reason io k).2.trade.createdAt = k.trade.createdAt := by
  simp only [submitClose]
  split_ifs
  · simp only [recordShadowClose]
    rw [Work.applyTradeOutcomeAnalytics_trade]
    simp [Trade.recordPnl, prepareCloseSubmission]
  · split <;> simp [prepareCloseSubmission, Trade.noteCloseExchangeId]

theorem reconcilePendingUnknown_createdAt (lookup : StatusOutcome) (k : Work) :
    (reconcilePendingUnknown lookup k).2.trade.createdAt = k.trade.createdAt := by
  obtain ⟨e, hrun, -⟩ | ⟨hrun, -⟩ | ⟨remote, -, hrun⟩ := reconcilePendingUnknown_cases lookup k
  · rw [hrun]
  · rw [hrun]
  · rw [hrun]
    simp [noteRemoteStatus]

theorem Handled.createdAt {env : Env} {w : World} {s : Step} {k k' : Work}
    (h : Handled env w s k k') : k'.trade.createdAt = k.trade.createdAt := by
  cases h with
  | unanswered => rfl
  | @update _ data io _ _ _ _ h =>
    have hup := applyOrderUpdate_createdAt env.restClient io data k
    rwa [h] at hup
  | execution _ _ _ h =>
    obtain ⟨q, rfl⟩ := noteSlippage_same h
    obtain ⟨paid, hfee⟩ := k.trade.addFee_eq _
    rw [hfee]
  | @closed reason io _ _ _ h =>
    have hclose := submitClose_createdAt env.settings.tradingMode reason io k
    rwa [h] at hclose
  | protect => exact ensureSpotMarketProtection_createdAt _ _ _
  | @resolved _ io _ _ _ h =>
    have hsettled := reconcilePendingUnknown_createdAt io.pendingLookup k
    rwa [h] at hsettled

/-- The creation times of the trades, in the order of the rows. -/
def World.creationTimes (w : World) : List Timestamp := w.db.trades.map Trade.createdAt

def World.createdOn (date : Date) (w : World) : Nat :=
  w.creationTimes.countP fun created => created.date = date

theorem submitOrder_createdAt (mode : OrderMode) (category : MarketType)
    (req : NormalizedExecuteSignalRequest) (io : ExecuteIo) (k : Work) :
    (submitOrder mode category req io k).2.trade.createdAt = k.trade.createdAt := by
  have hmarket : ∀ link outcome (k₁ : Work),
      (submitMarket category req link outcome k₁).2.trade.createdAt = k₁.trade.createdAt := by
    intro link outcome k₁
    simp only [submitMarket]
    split <;> simp [noteSubmitted]
  simp only [submitOrder]
  split_ifs
  · exact hmarket _ _ _
  · split
    · simp [noteSubmitted]
    · split_ifs
      · exact hmarket _ _ _
      · rfl
    · rfl

theorem settleEntry_createdAt (s : Settings) (category : MarketType)
    (req : NormalizedExecuteSignalRequest) (io : ExecuteIo) (k : Work) :
    (settleEntry s category req io k).work.trade.createdAt = k.trade.createdAt := by
  unfold settleEntry
  split_ifs
  · simp [Settled.work]
  · have hsubmit := submitOrder_createdAt s.orderMode category req io
      ((k.transitionTradeStatus .safetyChecked orderExecutor).onTrade
        fun t => { t with orderType := some .limit })
    have hunsure : ∀ k₁ : Work, (handleSubmitUncertainty io.lookup k₁).work.trade.createdAt =
        k₁.trade.createdAt := by
      intro k₁
      have hsettled := reconcilePendingUnknown_createdAt io.lookup
        (k₁.transitionTradeStatus .orderPendingUnknown
          (orderExecutor ++ [("reason", "submit_uncertain")]))
      simp only [Work.transition_trade] at hsettled
      simp only [handleSubmitUncertainty]
      split <;>
      · next h =>
        rw [h] at hsettled
        exact hsettled
    simp only [Work.onTrade_trade, Work.transition_trade] at hsubmit
    dsimp only
    split <;> rename_i h <;> rw [h] at hsubmit <;> first
      | exact hsubmit
      | exact (hunsure _).trans hsubmit
      | simpa [Settled.work] using hsubmit

/-- A step keeps the times, and a request adds those at which it began. -/
theorem Commits.creationTimes_append {env : Env} {s : Step} {w w' : World} (hc : Commits env s w w') :
    ∃ times, w'.creationTimes = w.creationTimes ++ times ∧
      ∀ created ∈ times, ∃ req io, s = .executeSignal req io ∧ created = io.now := by
  induction hc with
  | start => exact ⟨[], by simp, by simp⟩
  | @commit w₁ t k' _ hw₁ _ ht₁ hk ih =>
    have hid : k'.trade.id = t.id := hk.frame.entry.id
    have hsame : (w₁.commit k').creationTimes = w₁.creationTimes := by
      rw [World.creationTimes, World.commit_trades ht₁ hid, World.creationTimes, List.map_map]
      refine List.map_congr_left fun r hr => ?_
      dsimp only [Function.comp]
      split_ifs with hkey
      · rw [hw₁.eq_of_id hr ht₁ hkey]
        exact hk.createdAt
      · rfl
    rwa [hsame]
  | quiet _ hq ih => rwa [World.creationTimes, hq.trades]
  | @created w₁ w₂ req io signalId plan raised k _ _ hs hstart hk htrades _ _ ih =>
    obtain ⟨times, htimes, hnow⟩ := ih
    have hcreated : k.trade.createdAt = io.now := by
      have hsettled := settleEntry_createdAt env.settings .spot req io
        (entryWork env req io (w₁, signalId, plan))
      rw [hk] at hsettled
      exact hsettled
    refine ⟨times ++ [io.now], ?_, ?_⟩
    · rw [World.creationTimes, htrades, List.map_append, List.map_singleton, hcreated,
        ← List.append_assoc, ← htimes]
      rfl
    · intro created hmem
      obtain hmem | hmem := List.mem_append.mp hmem
      · exact hnow created hmem
      · exact ⟨req, io, hs, List.mem_singleton.mp hmem⟩

theorem Commits.creationTimes {env : Env} {s : Step} {w w' : World} (hc : Commits env s w w')
    (hs : ∀ req io, s ≠ .executeSignal req io) : w'.creationTimes = w.creationTimes := by
  obtain ⟨times, htimes, hnow⟩ := hc.creationTimes_append
  obtain rfl : times = [] := by
    refine List.eq_nil_iff_forall_not_mem.mpr fun created hmem => ?_
    obtain ⟨req, io, hreq, -⟩ := hnow created hmem
    exact hs req io hreq
  rw [htimes, List.append_nil]

end AmaExecutionCore
