import AmaExecutionCore.Entries
import AmaExecutionCore.Passes
import AmaExecutionCore.Resolvers

/-! `reconcile_once` after missed events: the status it gives a trade, next to the one the
order's events would have given. -/
namespace AmaExecutionCore
open TradeStatus

def waitingStatuses : List TradeStatus :=
  [orderSubmitted, orderPendingUnknown, orderConfirmed, orderPartiallyFilled, positionOpen,
    positionClosePending, positionCloseFailed]

/-- A payload whose numbers can be read. -/
structure OrderData.Readable (data : OrderData) : Prop where
  avgPrice : data.avgPrice ≠ some .malformed
  cumExecQty : data.cumExecQty ≠ some .malformed

def OrderStatusText.isFinal : OrderStatusText → Bool
  | .filled | .rejected | .cancelled => true
  | .partiallyFilled | .other => false

instance (t : Trade) : Decidable (Unarmable t) := inferInstanceAs (Decidable (_ ∧ _ ∧ (_ ∨ _)))

/-- The status of a trade once a report about one of its orders is handled, when the stop
order of a fill is accepted. -/
def Trade.statusAfter (link : OrderLinkId) (data : OrderData) (t : Trade) : TradeStatus :=
  match orderStatusMap data.orderStatus with
  | none => t.status
  | some newStatus =>
    if t.isProtectiveClose link = true then
      if t.status = pnlRecorded then t.status
      else if newStatus = orderConfirmed then pnlRecorded
      else if newStatus = orderPartiallyFilled then orderPartiallyFilled
      else positionCloseFailed
    else if shouldIgnoreEntryUpdate t newStatus (data.leavesQty = some "0") then t.status
    else if newStatus = orderConfirmed then
      if data.leavesQty = some "0" ∧ ¬ Unarmable (t.noteFilledQty data.cumQty) then positionOpen
      else orderConfirmed
    else newStatus

theorem OrderData.Readable.cum {data : OrderData} (h : data.Readable) :
    parseOptional data.cumExecQty = .ok data.cumQty := by
  obtain hcum := h.cumExecQty
  simp only [OrderData.cumQty]
  cases hc : data.cumExecQty with
  | none => rfl
  | some n =>
    cases n with
    | decimal q => rfl
    | malformed => exact absurd hc hcum

theorem OrderData.Readable.avg {data : OrderData} (h : data.Readable) :
    ∃ avg, parseOptional data.avgPrice = .ok avg := by
  cases ha : data.avgPrice with
  | none => exact ⟨none, rfl⟩
  | some n =>
    cases n with
    | decimal q => exact ⟨some q, rfl⟩
    | malformed => exact absurd ha h.avgPrice

theorem Protection.kept {io : HandlerIo} {k : Work} {p : Bool × Work} (h : Protection io k p)
    (hstop : io.stop.raises = false) : p.2.trade.status = k.trade.status := by
  cases h with
  | idle => rfl
  | stopKept _ _ h => exact h.status
  | stopArmed _ _ _ h => exact h.status
  | stopLost _ _ hbad => exact absurd hbad (by simp [hstop])

/-- With an accepted stop order a fill is protected unless nothing can be armed. -/
theorem ensureSpotMarketProtection_armed {io : HandlerIo} {k : Work} (hstop : io.stop.raises = false)
    (hopen : k.trade.status ∉ [positionClosePending, positionCloseFailed]) :
    (ensureSpotMarketProtection true io k).1 = true ↔ ¬ Unarmable k.trade := by
  constructor
  · intro h harm
    rw [ensureSpotMarketProtection_unarmable io harm] at h
    cases h
  · intro harm
    have hkept := (ensureSpotMarketProtection_protection true io k).kept hstop
    obtain h | h := ensureSpotMarketProtection_moves io harm
    · exact h
    · rw [hkept] at h
      exact absurd h hopen

theorem applyEntryFill_statusAfter {io : HandlerIo} {data : OrderData} (k : Work)
    (hread : data.Readable) (hstop : io.stop.raises = false) :
    ∃ b k', applyEntryFill true io data k = (.ok b, k') ∧ k'.trade.status =
      if data.leavesQty = some "0" ∧ ¬ Unarmable (k.trade.noteFilledQty data.cumQty) then
        positionOpen
      else orderConfirmed := by
  obtain ⟨avg, havg⟩ := hread.avg
  have hconf := (confirmEntryFill_settles io.now avg data.cumQty k).status
  have harm := @ensureSpotMarketProtection_armed io (confirmEntryFill io.now avg data.cumQty k)
    hstop (by simp [hconf])
  have hkept := (ensureSpotMarketProtection_protection true io
    (confirmEntryFill io.now avg data.cumQty k)).kept hstop
  have hsame : Unarmable (confirmEntryFill io.now avg data.cumQty k).trade ↔
      Unarmable (k.trade.noteFilledQty data.cumQty) := by
    simp [Unarmable, confirmEntryFill, Trade.noteFillPrice, Trade.noteFilledQty]
  rw [hsame] at harm
  simp only [applyEntryFill, havg, hread.cum]
  refine ⟨true, _, rfl, ?_⟩
  simp only [Work.onTrade_trade, Trade.storeFilledQty]
  by_cases hleaves : data.leavesQty = some "0"
  · simp only [hleaves, if_true, true_and]
    by_cases hun : Unarmable (k.trade.noteFilledQty data.cumQty)
    · have hfalse : (ensureSpotMarketProtection true io
          (confirmEntryFill io.now avg data.cumQty k)).1 = false := by
        simpa [hun] using harm
      split
      · next hens => simp [hens] at hfalse
      · next k' hens =>
        have hstatus : k'.trade.status = orderConfirmed := by
          rw [hens] at hkept
          exact hkept.trans hconf
        simp [hun, hstatus]
    · have htrue := harm.mpr hun
      split
      · simp [hun]
      · next hens => simp [hens] at htrue
  · simp only [hleaves, if_false, false_and]
    exact hconf

theorem applyExitFill_statusAfter (io : HandlerIo) (link : OrderLinkId) {data : OrderData} (k : Work)
    (hread : data.Readable) :
    ∃ b k', applyExitFill io link data k = (.ok b, k') ∧ k'.trade.status = pnlRecorded := by
  unfold applyExitFill
  dsimp only
  split
  · next e hprice =>
    exact absurd (parse_getD_error hprice) hread.avgPrice
  · next exitPrice _ =>
    obtain ⟨k', hbook, hend⟩ := recordExit_booked io.now link exitPrice
      (k.transitionTradeStatus .orderConfirmed exchangeSync)
    rw [hbook]
    exact ⟨true, k', rfl, hend.status⟩

theorem unarmable_noteExchangeOrderId (link : OrderLinkId) (orderId : Option String) (q : Option Rat)
    (t : Trade) : Unarmable ((t.noteExchangeOrderId link orderId).noteFilledQty q) ↔
      Unarmable (t.noteFilledQty q) := by
  simp only [Trade.noteExchangeOrderId]
  split
  · rfl
  · split_ifs <;> rfl

theorem applyOrderUpdate_statusAfter {io : HandlerIo} {data : OrderData} {link : OrderLinkId}
    (k : Work) (hlink : data.orderLinkId = some link) (hread : data.Readable)
    (hstop : io.stop.raises = false) : ∃ b k', applyOrderUpdate true io data k = (.ok b, k') ∧
      k'.trade.status = k.trade.statusAfter link data := by
  obtain ⟨k₁, hk₁⟩ : ∃ k₁, k₁ = k.onTrade (Trade.noteExchangeOrderId link data.orderId) := ⟨_, rfl⟩
  have hnote : k₁.trade.status = k.trade.status :=
    hk₁ ▸ (noteExchangeOrderId_settles link data.orderId k).status
  have hun : Unarmable (k₁.trade.noteFilledQty data.cumQty) ↔
      Unarmable (k.trade.noteFilledQty data.cumQty) :=
    hk₁ ▸ unarmable_noteExchangeOrderId link data.orderId data.cumQty k.trade
  have hignore : ∀ s b, shouldIgnoreEntryUpdate k₁.trade s b = shouldIgnoreEntryUpdate k.trade s b :=
    fun s b => shouldIgnoreEntryUpdate_congr hnote s b
  have hbooked : shouldIgnoreCloseUpdate k₁.trade = decide (k.trade.status = pnlRecorded) := by
    rw [shouldIgnoreCloseUpdate, hnote]
  cases hs : orderStatusMap data.orderStatus with
  | none =>
    refine ⟨false, k, ?_, ?_⟩
    · simp only [applyOrderUpdate, hlink, hs]
    · simp only [Trade.statusAfter, hs]
  | some newStatus =>
    by_cases hrole : k.trade.isProtectiveClose link = true
    · by_cases hst : k.trade.status = pnlRecorded
      · refine ⟨false, k₁, ?_, ?_⟩
        · simp [applyOrderUpdate, hlink, hs, hrole, ← hk₁, hbooked, hst]
        · simp [Trade.statusAfter, hs, hrole, hnote, hst]
      · by_cases hfill : newStatus = orderConfirmed
        · obtain ⟨b, k', happ, hend⟩ := applyExitFill_statusAfter io link k₁ hread
          refine ⟨b, k', ?_, ?_⟩
          · simp [applyOrderUpdate, hlink, hs, hrole, ← hk₁, hbooked, hst, hfill, happ]
          · simp [Trade.statusAfter, hs, hrole, hst, hfill, hend]
        · by_cases hpart : newStatus = orderPartiallyFilled
          · refine ⟨true, k₁.transitionTradeStatus newStatus exchangeSync, ?_, ?_⟩
            · simp [applyOrderUpdate, hlink, hs, hrole, ← hk₁, hbooked, hst, hpart]
            · simp [Trade.statusAfter, hs, hrole, hst, hpart]
          · have hfail : newStatus = orderRejected ∨ newStatus = orderCancelled := by
              obtain ⟨-, h⟩ | ⟨-, h⟩ | ⟨-, h⟩ | ⟨-, h⟩ := orderStatusMap_eq hs
              · exact absurd h hfill
              · exact .inl h
              · exact .inr h
              · exact absurd h hpart
            refine ⟨true, applyExitFailure newStatus k₁, ?_, ?_⟩
            · simp [applyOrderUpdate, hlink, hs, hrole, ← hk₁, hbooked, hst, hfill, hfail]
            · simp [Trade.statusAfter, hs, hrole, hst, hfill, hpart,
                (applyExitFailure_settles newStatus k₁).status]
    · rw [Bool.not_eq_true] at hrole
      by_cases hold : shouldIgnoreEntryUpdate k.trade newStatus (data.leavesQty = some "0") = true
      · refine ⟨false, k₁, ?_, ?_⟩
        · simp [applyOrderUpdate, hlink, hs, hrole, ← hk₁, hignore, hold]
        · simp [Trade.statusAfter, hs, hrole, hnote, hold]
      · by_cases hfill : newStatus = orderConfirmed
        · subst hfill
          obtain ⟨b, k', happ, hend⟩ := applyEntryFill_statusAfter k₁ hread hstop
          refine ⟨b, k', ?_, ?_⟩
          · simp [applyOrderUpdate, hlink, hs, hrole, ← hk₁, hignore, hold, happ]
          · simp [Trade.statusAfter, hs, hrole, hold, hend, hun]
        · refine ⟨true, k₁.transitionTradeStatus newStatus exchangeSync, ?_, ?_⟩
          · simp [applyOrderUpdate, hlink, hs, hrole, ← hk₁, hignore, hold, hfill]
          · simp [Trade.statusAfter, hs, hrole, hold, hfill]

theorem OrderStatusText.isFinal_map {text : OrderStatusText} (h : text.isFinal = true) :
    ∃ s, orderStatusMap text = some s ∧ s ≠ orderPartiallyFilled := by
  cases text with
  | filled => exact ⟨_, rfl, by decide⟩
  | rejected => exact ⟨_, rfl, by decide⟩
  | cancelled => exact ⟨_, rfl, by decide⟩
  | partiallyFilled => cases h
  | other => cases h

/-- A trade that only became partially filled is moved by the last report as before. -/
theorem Work.Ends.statusAfter {link : OrderLinkId} {data : OrderData} {k k' : Work} {s' : TradeStatus}
    (h : k.Settles k' s') (hqty : k'.trade.filledQty = k.trade.filledQty)
    (hfinal : data.orderStatus.isFinal = true)
    (hst : s' = k.trade.status ∨ s' = orderPartiallyFilled ∧ k.trade.status ≠ pnlRecorded ∧
      (k.trade.isProtectiveClose link = false →
        shouldIgnoreEntryUpdate k.trade orderPartiallyFilled false = false)) :
    k'.trade.statusAfter link data = k.trade.statusAfter link data := by
  have hrole := Trade.SameExits.isProtectiveClose ⟨h.close, h.stop, h.takeProfit⟩ link
  have hun : Unarmable (k'.trade.noteFilledQty data.cumQty) ↔
      Unarmable (k.trade.noteFilledQty data.cumQty) := by
    simp only [Unarmable, Trade.noteFilledQty, h.frame.entry.marketType, h.frame.entry.orderType,
      h.frame.entry.stopPrice, h.frame.entry.qty, hqty]
  obtain ⟨s, hs, hpart⟩ := OrderStatusText.isFinal_map hfinal
  obtain hst | ⟨hst, hopen, hkeep⟩ := hst
  · have hsame := h.status.trans hst
    simp only [Trade.statusAfter, hrole, hun, hsame, shouldIgnoreEntryUpdate_congr hsame]
  · have hstatus := h.status.trans hst
    simp only [Trade.statusAfter, hs, hrole, hun, hstatus]
    by_cases hexit : k.trade.isProtectiveClose link = true
    · simp [hexit, hopen]
    · have hignored := hkeep (by simpa using hexit)
      have hold : shouldIgnoreEntryUpdate k.trade s (data.leavesQty = some "0") = false := by
        simp only [shouldIgnoreEntryUpdate] at hignored ⊢
        split_ifs at hignored with h₁ h₂
        rw [if_neg h₁, if_neg (by simp [hpart])]
        simp only [List.mem_cons, not_or] at h₁
        simp [h₁.1]
      have hnew : shouldIgnoreEntryUpdate k'.trade s (data.leavesQty = some "0") = false := by
        simp [shouldIgnoreEntryUpdate, hstatus]
      simp [hexit, hold, hnew]

structure Awaits (link : OrderLinkId) (final : OrderData) (t r : Trade) : Prop where
  id : r.id = t.id
  owns : r.ownsOrderLinkId link = true
  unbooked : r.status ≠ pnlRecorded
  status : r.statusAfter link final = t.statusAfter link final

theorem applyOrderUpdate_early {io : HandlerIo} {data final : OrderData} {link : OrderLinkId}
    {k : Work} (hlink : data.orderLinkId = some link) (hs : data.orderStatus = .partiallyFilled)
    (hfinal : final.orderStatus.isFinal = true) (hown : k.trade.ownsOrderLinkId link = true)
    (hopen : k.trade.status ≠ pnlRecorded) :
    ∃ b k', applyOrderUpdate true io data k = (.ok b, k') ∧ Awaits link final k.trade k'.trade := by
  obtain ⟨k₁, hk₁⟩ : ∃ k₁, k₁ = k.onTrade (Trade.noteExchangeOrderId link data.orderId) := ⟨_, rfl⟩
  have hnote : k.Settles k₁ k.trade.status :=
    hk₁ ▸ noteExchangeOrderId_settles link data.orderId k
  have hqty : k₁.trade.filledQty = k.trade.filledQty :=
    hk₁ ▸ noteExchangeOrderId_filledQty link data.orderId k
  have hawaits : ∀ k' s', k.Settles k' s' → k'.trade.filledQty = k.trade.filledQty →
      s' ≠ pnlRecorded → (s' = k.trade.status ∨ s' = orderPartiallyFilled ∧
        k.trade.status ≠ pnlRecorded ∧ (k.trade.isProtectiveClose link = false →
          shouldIgnoreEntryUpdate k.trade orderPartiallyFilled false = false)) →
      Awaits link final k.trade k'.trade := fun k' s' h hq hne hst =>
    ⟨h.frame.entry.id, (h.frame.entry.owns ⟨h.close, h.stop, h.takeProfit⟩ link).trans hown,
      h.status ▸ hne, h.statusAfter hq hfinal hst⟩
  have hbooked : shouldIgnoreCloseUpdate k₁.trade = false := by
    simp [shouldIgnoreCloseUpdate, hnote.status, hopen]
  have hignore : ∀ b, shouldIgnoreEntryUpdate k₁.trade orderPartiallyFilled b =
      shouldIgnoreEntryUpdate k.trade orderPartiallyFilled false := by
    intro b
    simp [shouldIgnoreEntryUpdate, hnote.status]
  by_cases hold : k.trade.isProtectiveClose link = false ∧
      shouldIgnoreEntryUpdate k.trade orderPartiallyFilled false = true
  · refine ⟨false, k₁, ?_, hawaits k₁ _ hnote hqty hopen (.inl rfl)⟩
    simp [applyOrderUpdate, hlink, hs, orderStatusMap, ← hk₁, hold.1, hignore, hold.2]
  · have hkeep : k.trade.isProtectiveClose link = false →
        shouldIgnoreEntryUpdate k.trade orderPartiallyFilled false = false :=
      fun h => by simpa [h] using hold
    refine ⟨true, k₁.transitionTradeStatus orderPartiallyFilled exchangeSync, ?_,
      hawaits _ _ (hnote.settles (.transition _ _ _)) (by simpa using hqty) (by simp)
        (.inr ⟨rfl, hopen, hkeep⟩)⟩
    cases hrole : k.trade.isProtectiveClose link with
    | true => simp [applyOrderUpdate, hlink, hs, orderStatusMap, ← hk₁, hrole, hbooked]
    | false => simp [applyOrderUpdate, hlink, hs, orderStatusMap, ← hk₁, hrole, hignore, hkeep hrole]

def handleEvents (restClient : Bool) (news : List (OrderData × HandlerIo)) (w : World) : World :=
  news.foldl (fun w e => (processOrder restClient e.2 e.1 w).2) w

theorem processOrder_early {env : Env} {w : World} {t : Trade} {io : HandlerIo}
    {data final : OrderData} {link : OrderLinkId} (hrest : env.restClient = true)
    (hw : w.WellFormed) (ht : t ∈ w.db.trades) (hlink : data.orderLinkId = some link)
    (hearly : data.orderStatus.isFinal = false) (hfinal : final.orderStatus.isFinal = true)
    (hown : t.ownsOrderLinkId link = true) (hopen : t.status ≠ pnlRecorded) :
    (processOrder env.restClient io data w).2.WellFormed ∧
      ∃ r ∈ (processOrder env.restClient io data w).2.db.trades, Awaits link final t r := by
  cases hs : data.orderStatus with
  | other =>
    have hsame : (processOrder env.restClient io data w).2 = w := by
      simp [processOrder, hlink, hs, orderStatusMap]
    rw [hsame]
    exact ⟨hw, t, ht, rfl, hown, hopen, rfl⟩
  | partiallyFilled =>
    obtain ⟨b, k', happ, hawaits⟩ := @applyOrderUpdate_early io data final link (w.work t)
      hlink hs hfinal hown hopen
    have hframe : (w.work t).Frame k' := by
      have := applyOrderUpdate_frame true io data (w.work t)
      rwa [happ] at this
    rw [← hrest] at happ
    rw [processOrder_row hw ht hlink hown (by simp [hs, orderStatusMap]) happ]
    exact ⟨hw.commit ht hframe, k'.trade, World.commit_row ht hframe.entry.id, hawaits⟩
  | filled => simp [hs, OrderStatusText.isFinal] at hearly
  | rejected => simp [hs, OrderStatusText.isFinal] at hearly
  | cancelled => simp [hs, OrderStatusText.isFinal] at hearly

theorem Awaits.trans {link : OrderLinkId} {final : OrderData} {t r q : Trade}
    (h : Awaits link final t r) (h' : Awaits link final r q) : Awaits link final t q :=
  ⟨h'.id.trans h.id, h'.owns, h'.unbooked, h'.status.trans h.status⟩

/-- A well-formed world holds the trade with this status. -/
def World.Holds (w : World) (id : TradeId) (status : TradeStatus) : Prop :=
  w.WellFormed ∧ ∃ r ∈ w.db.trades, r.id = id ∧ r.status = status

theorem handleEvents_early {env : Env} {w : World} {t : Trade} {final : OrderData}
    {link : OrderLinkId} {early : List (OrderData × HandlerIo)} (hrest : env.restClient = true)
    (hw : w.WellFormed) (ht : t ∈ w.db.trades) (hown : t.ownsOrderLinkId link = true)
    (hopen : t.status ≠ pnlRecorded) (hfinal : final.orderStatus.isFinal = true)
    (hearly : ∀ e ∈ early, e.1.orderLinkId = some link ∧ e.1.orderStatus.isFinal = false) :
    (handleEvents env.restClient early w).WellFormed ∧
      ∃ r ∈ (handleEvents env.restClient early w).db.trades, Awaits link final t r := by
  induction early generalizing w t with
  | nil => exact ⟨hw, t, ht, rfl, hown, hopen, rfl⟩
  | cons e early ih =>
    obtain ⟨hlink, hpart⟩ := hearly e List.mem_cons_self
    obtain ⟨hw', r, hr, hstep⟩ := @processOrder_early env w t e.2 e.1 final link hrest hw ht hlink
      hpart hfinal hown hopen
    obtain ⟨hw'', q, hq, hrun⟩ := ih hw' hr hstep.owns hstep.unbooked
      fun e' he' => hearly e' (List.mem_cons_of_mem _ he')
    exact ⟨hw'', q, hq, hstep.trans hrun⟩

/-- The events of an order up to its last give the trade the status the last one calls for. -/
theorem handleEvents_status {env : Env} {w : World} {t : Trade} {final : OrderData} {io : HandlerIo}
    {link : OrderLinkId} {early : List (OrderData × HandlerIo)} (hrest : env.restClient = true)
    (hw : w.WellFormed) (ht : t ∈ w.db.trades) (hown : t.ownsOrderLinkId link = true)
    (hopen : t.status ≠ pnlRecorded) (hfinal : final.orderStatus.isFinal = true)
    (hlink : final.orderLinkId = some link) (hread : final.Readable) (hstop : io.stop.raises = false)
    (hearly : ∀ e ∈ early, e.1.orderLinkId = some link ∧ e.1.orderStatus.isFinal = false) :
    (handleEvents env.restClient (early ++ [(final, io)]) w).Holds t.id (t.statusAfter link final) := by
  obtain ⟨hw₁, r, hr, hawaits⟩ := handleEvents_early hrest hw ht hown hopen hfinal hearly
  have hsplit : handleEvents env.restClient (early ++ [(final, io)]) w =
      (processOrder env.restClient io final (handleEvents env.restClient early w)).2 := by
    simp [handleEvents]
  generalize handleEvents env.restClient early w = w₁ at hw₁ hr hsplit
  obtain ⟨b, k', happ, hend⟩ := applyOrderUpdate_statusAfter (w₁.work r) hlink hread hstop
  have hframe : (w₁.work r).Frame k' := by
    have := applyOrderUpdate_frame true io final (w₁.work r)
    rwa [happ] at this
  obtain ⟨s, hs, -⟩ := OrderStatusText.isFinal_map hfinal
  rw [← hrest] at happ
  rw [hsplit, processOrder_row hw₁ hr hlink hawaits.owns (by simp [hs]) happ]
  exact ⟨hw₁.commit hr hframe, k'.trade, World.commit_row hr hframe.entry.id,
    hframe.entry.id.trans hawaits.id, hend.trans hawaits.status⟩

theorem listed_row {env : Env} {s : Step} {w : World} {t : Trade} (hw : w.WellFormed)
    (hs : s.isPass = true) (ht : t ∈ s.listed env w.db) :
    ∃ w₁ : World, (s.handle env t (w₁.work t)).2.trade ∈ (step env w s).db.trades := by
  rw [step_passOver hw hs]
  obtain ⟨w₁, -, -, hrow, -⟩ := @passOver_row env s _ w (fun r hr => Step.listed_mem hr)
    (s.listed_nodup hw) t ht
  exact ⟨w₁, hrow⟩

theorem unlisted_row {env : Env} {s : Step} {w : World} {t : Trade} (hw : w.WellFormed)
    (hs : s.isPass = true) (ht : t ∈ w.db.trades) (hnot : t ∉ s.listed env w.db) :
    t ∈ (step env w s).db.trades := by
  rw [step_passOver hw hs]
  refine (@passOver_other env s _ w (fun r hr => Step.listed_mem hr) (s.listed_nodup hw) t ht
    fun hid => ?_).1
  obtain ⟨r, hr, hrid⟩ := List.mem_map.mp hid
  exact hnot (hw.eq_of_id (Step.listed_mem hr) ht hrid ▸ hr)

def reportOf (getOrderStatus : OrderLinkId → StatusOutcome) (link : OrderLinkId) :
    Option OrderData :=
  match getOrderStatus link with
  | .ok report => report
  | .error _ => none

/-- Every payload is about the order that was asked for and can be read. -/
def PayloadsReadable (getOrderStatus : OrderLinkId → StatusOutcome) : Prop :=
  ∀ link, ∀ remote ∈ reportOf getOrderStatus link,
    (remote.orderLinkId = none ∨ remote.orderLinkId = some link) ∧ remote.Readable

/-- The status of a trade once the report about the order it waits for is handled. -/
def Trade.reconciledStatus (getOrderStatus : OrderLinkId → StatusOutcome) (t : Trade) : TradeStatus :=
  match t.trackedOrderLinkId with
  | none => t.status
  | some link =>
    match reportOf getOrderStatus link with
    | none => t.status
    | some remote => t.statusAfter link (reconciledData link remote)

theorem reconciledData_link {link : OrderLinkId} {remote : OrderData}
    (h : remote.orderLinkId = none ∨ remote.orderLinkId = some link) :
    (reconciledData link remote).orderLinkId = some link := by
  obtain h | h := h <;> simp [reconciledData, h]

section
variable {env : Env} {getOrderStatus : OrderLinkId → StatusOutcome}

theorem reconcileTrade_status {w w₁ : World} {t : Trade} {io : HandlerIo} (hw : w.WellFormed)
    (ht : t ∈ w.db.trades) (hpayload : PayloadsReadable getOrderStatus) (hstop : io.stop.raises = false) :
    (reconcileTrade true (answersOf getOrderStatus w.db t.id) io (w₁.work t)).2.trade.status =
      t.reconciledStatus getOrderStatus := by
  simp only [reconcileTrade, answersOf, hw.getTrade ht, Option.bind_some, World.work_trade,
    Trade.reconciledStatus, Bool.true_eq_false, if_false]
  cases htracked : t.trackedOrderLinkId with
  | none => rfl
  | some link =>
    simp only [reportOf]
    cases hans : getOrderStatus link with
    | error e => rfl
    | ok report =>
      cases report with
      | none => rfl
      | some remote =>
        obtain ⟨habout, hread⟩ := hpayload link remote (by simp [reportOf, hans])
        obtain ⟨b, k', happ, hend⟩ := @applyOrderUpdate_statusAfter io (reconciledData link remote)
          link (w₁.work t) (reconciledData_link habout) ⟨hread.avgPrice, hread.cumExecQty⟩ hstop
        have happ' : applyOrderUpdate true io { remote with
            orderLinkId := remote.orderLinkId <|> some link } (w₁.work t) = (.ok b, k') := happ
        simp only [happ']
        exact hend

theorem statusPass_row {s : Step} {w : World} {t : Trade} {statuses : List TradeStatus}
    {io : HandlerIo} (hrest : env.restClient = true) (hs : s.isPass = true)
    (hlisted : s.listed env w.db = w.db.listTradesByStatus statuses)
    (hhandle : ∀ k, s.handle env t k =
      reconcileTrade env.restClient (answersOf getOrderStatus w.db t.id) io k)
    (hw : w.WellFormed) (ht : t ∈ w.db.trades) (hpayload : PayloadsReadable getOrderStatus)
    (hstop : io.stop.raises = false) : ∃ r ∈ (step env w s).db.trades, r.id = t.id ∧
      if t.status ∈ statuses then r.status = t.reconciledStatus getOrderStatus else r = t := by
  have hmem : t ∈ s.listed env w.db ↔ t.status ∈ statuses := by
    rw [hlisted, Db.listTradesByStatus, List.mem_filter]
    simp [ht]
  by_cases hst : t.status ∈ statuses
  · obtain ⟨w₁, hrow⟩ := listed_row hw hs (hmem.mpr hst)
    rw [hhandle] at hrow
    refine ⟨_, hrow, (reconcileTrade_frame _ _ _ _).entry.id, ?_⟩
    rw [if_pos hst, hrest]
    exact reconcileTrade_status hw ht hpayload hstop
  · have hrow := unlisted_row hw hs ht (fun h => hst (hmem.mp h))
    exact ⟨t, hrow, rfl, by rw [if_neg hst]⟩

/-- The protection pass arms orders; with an accepted stop order it moves no status. -/
theorem protectionPass_row {w : World} {t : Trade} {io : TradeId → HandlerIo} (hw : w.WellFormed)
    (ht : t ∈ w.db.trades) (hstop : (io t.id).stop.raises = false) :
    ∃ r ∈ (step env w (.reconcileMissingProtection io)).db.trades, r.id = t.id ∧
      r.status = t.status := by
  by_cases hlisted : t ∈ Step.listed env w.db (.reconcileMissingProtection io)
  · obtain ⟨w₁, hrow⟩ := listed_row hw rfl hlisted
    exact ⟨_, hrow, (ensureSpotMarketProtection_frame _ _ _).entry.id,
      (ensureSpotMarketProtection_protection _ _ _).kept hstop⟩
  · exact ⟨t, unlisted_row hw rfl ht hlisted, rfl, rfl⟩

theorem Trade.statusAfter_notPending {link : OrderLinkId} {data : OrderData} {t : Trade}
    (h : t.status ≠ positionClosePending) : t.statusAfter link data ≠ positionClosePending := by
  unfold Trade.statusAfter
  split
  · exact h
  · next s hs =>
    split_ifs
    all_goals first
      | exact h
      | decide
      | (obtain ⟨-, h⟩ | ⟨-, h⟩ | ⟨-, h⟩ | ⟨-, h⟩ := orderStatusMap_eq hs <;> rw [h] <;> decide)

theorem Trade.reconciledStatus_notPending {t : Trade} (h : t.status ≠ positionClosePending) :
    t.reconciledStatus getOrderStatus ≠ positionClosePending := by
  unfold Trade.reconciledStatus
  split
  · exact h
  · split
    · exact h
    · exact Trade.statusAfter_notPending h

/-- One uninterrupted `reconcile_once` tells each trade what the exchange reports about the
order it waits for. -/
theorem reconcileOnce_status {w : World} {t : Trade} {io : ReconcileIo}
    (hrest : env.restClient = true) (hw : w.WellFormed) (ht : t ∈ w.db.trades)
    (hpayload : PayloadsReadable getOrderStatus) (hentry : (io.entries t.id).stop.raises = false)
    (hclose : (io.closes t.id).stop.raises = false)
    (hprotect : (io.protections t.id).stop.raises = false) :
    (reconcileOnce env.restClient getOrderStatus io w).Holds t.id (t.reconciledStatus getOrderStatus) := by
  obtain ⟨w₁, hw₁⟩ : ∃ w₁, w₁ = step env w
    (.reconcileEntryOrders (answersOf getOrderStatus w.db) io.entries) := ⟨_, rfl⟩
  obtain ⟨w₂, hw₂⟩ : ∃ w₂, w₂ = step env w₁
    (.reconcileCloseOrders (answersOf getOrderStatus w₁.db) io.closes) := ⟨_, rfl⟩
  have hwf₁ : w₁.WellFormed := hw₁ ▸ (step_effect env _ hw).2
  have hwf₂ : w₂.WellFormed := hw₂ ▸ (step_effect env _ hwf₁).2
  have honce : reconcileOnce env.restClient getOrderStatus io w =
      step env w₂ (.reconcileMissingProtection io.protections) := by
    rw [hw₂, hw₁]
    simp only [reconcileOnce, hrest, step, Bool.true_eq_false, if_false]
  obtain ⟨r₁, hr₁, hid₁, hst₁⟩ := @statusPass_row env getOrderStatus
    (.reconcileEntryOrders (answersOf getOrderStatus w.db) io.entries) w t
    entryReconciliationStatuses (io.entries t.id) hrest rfl (by simp only [Step.listed, hrest, if_true])
    (fun _ => rfl) hw ht hpayload hentry
  rw [← hw₁] at hr₁
  obtain ⟨r₂, hr₂, hid₂, hst₂⟩ := @statusPass_row env getOrderStatus
    (.reconcileCloseOrders (answersOf getOrderStatus w₁.db) io.closes) w₁ r₁
    closeReconciliationStatuses (io.closes t.id) hrest rfl (by simp only [Step.listed, hrest, if_true])
    (fun _ => by simp only [Step.handle, hid₁]) hwf₁ hr₁ hpayload hclose
  rw [← hw₂] at hr₂
  obtain ⟨r₃, hr₃, hid₃, hst₃⟩ := @protectionPass_row env w₂ r₂ io.protections hwf₂ hr₂
    (by rw [hid₂, hid₁]; exact hprotect)
  have hstatus : r₂.status = t.reconciledStatus getOrderStatus := by
    by_cases hwaits : t.status ∈ entryReconciliationStatuses
    · -- told in the first pass, and left alone by the second
      rw [if_pos hwaits] at hst₁
      have hne : t.status ≠ positionClosePending := by
        intro h
        simp [h, entryReconciliationStatuses] at hwaits
      have hskip : r₁.status ∉ closeReconciliationStatuses := by
        rw [hst₁, closeReconciliationStatuses, List.mem_singleton]
        exact Trade.reconciledStatus_notPending hne
      rw [if_neg hskip] at hst₂
      rw [hst₂, hst₁]
    · rw [if_neg hwaits] at hst₁
      subst hst₁
      split_ifs at hst₂ with hpending
      · exact hst₂
      · rw [hst₂]
        simp only [Trade.reconciledStatus, Trade.trackedOrderLinkId, if_neg hpending, if_neg hwaits]
  rw [honce]
  exact ⟨(step_effect env _ hwf₂).2, r₃, hr₃, (hid₃.trans hid₂).trans hid₁, hst₃.trans hstatus⟩

end

def OrderState.reported : OrderState → Option OrderStatusText
  | .refused => none
  | .live false => some .other
  | .live true => some .partiallyFilled
  | .filled => some .filled
  | .cancelled _ => some .cancelled
  | .rejected => some .rejected

def OrderState.isFinal (s : OrderState) : Bool := s.reported.any OrderStatusText.isFinal

/-- A REST client that tells the state of every order. -/
structure Truthful (x : Exchange) (getOrderStatus : OrderLinkId → StatusOutcome) : Prop where
  state : ∀ o ∈ x.orders,
    (reportOf getOrderStatus o.linkId).map OrderData.orderStatus = o.state.reported
  readable : PayloadsReadable getOrderStatus

/-- The events of an order its trade was not told of: none, or the last one with what was
lost before it. -/
inductive Missed (getOrderStatus : OrderLinkId → StatusOutcome) (link : OrderLinkId) :
    Option OrderData → List (OrderData × HandlerIo) → Prop
  | nothing : Missed getOrderStatus link none []
  | lost {remote early io} (hremote : reportOf getOrderStatus link = some remote)
      (hearly : ∀ e ∈ early, e.1.orderLinkId = some link ∧ e.1.orderStatus.isFinal = false)
      (hstop : io.stop.raises = false) : Missed getOrderStatus link (some remote)
        (early ++ [(reconciledData link remote, io)])

/-- No stop order of the pass fails. -/
def ReconcileIo.Accepts (io : ReconcileIo) (id : TradeId) : Prop :=
  (io.entries id).stop.raises = false ∧ (io.closes id).stop.raises = false ∧
    (io.protections id).stop.raises = false

/-- One pass gives the trade the status the missed events would have given it. -/
def Converges (env : Env) (getOrderStatus : OrderLinkId → StatusOutcome) (io : ReconcileIo)
    (news : List (OrderData × HandlerIo)) (w : World) (id : TradeId) : Prop :=
  ((reconcileOnce env.restClient getOrderStatus io w).db.getTrade id).map Trade.status =
    ((handleEvents env.restClient news w).db.getTrade id).map Trade.status

instance (env : Env) (getOrderStatus : OrderLinkId → StatusOutcome) (io : ReconcileIo)
    (news : List (OrderData × HandlerIo)) (w : World) (id : TradeId) :
    Decidable (Converges env getOrderStatus io news w id) := inferInstanceAs (Decidable (_ = _))

def Trade.awaited (getOrderStatus : OrderLinkId → StatusOutcome) (t : Trade) :
    Option OrderStatusText :=
  (t.trackedOrderLinkId.bind (reportOf getOrderStatus)).map OrderData.orderStatus

/-- The pass follows the order of the missed events, or an order that says the same. -/
def Converging (getOrderStatus : OrderLinkId → StatusOutcome) (link : OrderLinkId)
    (lost : Option OrderData) (t : Trade) : Prop :=
  match lost with
  | none => t.awaited getOrderStatus = none ∨ t.awaited getOrderStatus = some .other
  | some final =>
    match t.status with
    | .orderConfirmed => t.isProtectiveClose link = false ∧ final.orderStatus = .filled ∧
        (final.leavesQty = some "0" → Unarmable (t.noteFilledQty final.cumQty))
    | .orderPartiallyFilled => False
    | .positionOpen => t.isProtectiveClose link = false
    | .positionClosePending =>
      if t.isProtectiveClose link = false then
        t.awaited getOrderStatus = none ∨ t.awaited getOrderStatus = some .other
      else if final.orderStatus = .filled then t.awaited getOrderStatus = some .filled
      else t.awaited getOrderStatus = some .rejected ∨ t.awaited getOrderStatus = some .cancelled
    | .positionCloseFailed => t.isProtectiveClose link = false ∨ final.orderStatus ≠ .filled
    | _ => True

theorem World.Holds.status {w : World} {id : TradeId} {s : TradeStatus} (h : w.Holds id s) :
    (w.db.getTrade id).map Trade.status = some s := by
  obtain ⟨hw, r, hr, rfl, rfl⟩ := h
  rw [hw.getTrade hr]
  rfl

theorem Trade.statusAfter_exit {link : OrderLinkId} {data : OrderData} {t : Trade}
    (hrole : t.isProtectiveClose link = true) (hopen : t.status ≠ pnlRecorded)
    (hfinal : data.orderStatus.isFinal = true) : t.statusAfter link data =
      if data.orderStatus = .filled then pnlRecorded else positionCloseFailed := by
  cases hs : data.orderStatus <;> simp [OrderStatusText.isFinal, hs] at hfinal <;>
    simp [Trade.statusAfter, hs, orderStatusMap, hrole, hopen]

/-- The entry order's last report on a trade that was told of a fill. -/
theorem Trade.statusAfter_entry {link : OrderLinkId} {data : OrderData} {t : Trade}
    (hrole : t.isProtectiveClose link = false) (hst : t.status = orderConfirmed)
    (hfinal : data.orderStatus.isFinal = true) : t.statusAfter link data = orderConfirmed ↔
      data.orderStatus = .filled ∧
        (data.leavesQty = some "0" → Unarmable (t.noteFilledQty data.cumQty)) := by
  have hkeep : ∀ s b, s ≠ orderPartiallyFilled → shouldIgnoreEntryUpdate t s b = false := by
    intro s b hne
    simp [shouldIgnoreEntryUpdate, hst, hne]
  cases hs : data.orderStatus with
  | filled =>
    simp only [Trade.statusAfter, hs, orderStatusMap, hrole, hkeep orderConfirmed _ (by decide),
      Bool.false_eq_true, if_false, if_true, true_and]
    split_ifs with harm
    · simpa using harm
    · exact iff_of_true rfl (by simpa using harm)
  | rejected =>
    simp [Trade.statusAfter, hs, orderStatusMap, hrole, hkeep orderRejected _ (by decide)]
  | cancelled =>
    simp [Trade.statusAfter, hs, orderStatusMap, hrole, hkeep orderCancelled _ (by decide)]
  | partiallyFilled => simp [hs, OrderStatusText.isFinal] at hfinal
  | other => simp [hs, OrderStatusText.isFinal] at hfinal

theorem Trade.statusAfter_moved {link : OrderLinkId} {data : OrderData} {t : Trade}
    (hrole : t.isProtectiveClose link = false) (hst : t.status = orderPartiallyFilled)
    (hfinal : data.orderStatus.isFinal = true) : t.statusAfter link data ≠ orderPartiallyFilled := by
  obtain ⟨s, hs, hpart⟩ := OrderStatusText.isFinal_map hfinal
  have hkeep : ∀ b, shouldIgnoreEntryUpdate t s b = false := by
    simp [shouldIgnoreEntryUpdate, hst]
  simp only [Trade.statusAfter, hs, hrole, hkeep, Bool.false_eq_true, if_false]
  split_ifs
  · decide
  · decide
  · exact hpart

theorem Trade.statusAfter_ignored {link : OrderLinkId} {data : OrderData} {t : Trade}
    (hrole : t.isProtectiveClose link = false)
    (hst : t.status ∈ [positionOpen, positionClosePending, positionCloseFailed]) :
    t.statusAfter link data = t.status := by
  have hignore : ∀ s b, shouldIgnoreEntryUpdate t s b = true := by
    intro s b
    have hmem : t.status ∈ [positionOpen, positionClosePending, positionClosed, positionCloseFailed,
        pnlRecorded] := by
      simp only [List.mem_cons, List.not_mem_nil, or_false] at hst ⊢
      tauto
    rw [shouldIgnoreEntryUpdate, if_pos hmem]
  unfold Trade.statusAfter
  split
  · rfl
  · simp [hrole, hignore]

section
variable {getOrderStatus : OrderLinkId → StatusOutcome} {t : Trade}

theorem Trade.reconciledStatus_pending (hst : t.status = positionClosePending) :
    t.reconciledStatus getOrderStatus = match t.awaited getOrderStatus with
      | some .filled => pnlRecorded
      | some .rejected | some .cancelled => positionCloseFailed
      | some .partiallyFilled => orderPartiallyFilled
      | some .other | none => positionClosePending := by
  have htracked : t.trackedOrderLinkId = t.closeOrderLinkId := by
    simp [Trade.trackedOrderLinkId, hst, closeReconciliationStatuses]
  simp only [Trade.reconciledStatus, Trade.awaited, htracked]
  cases hclose : t.closeOrderLinkId with
  | none => simp [hst]
  | some link =>
    have hrole : t.isProtectiveClose link = true := by
      rw [Trade.isProtectiveClose_iff]
      exact .inl hclose
    simp only [Option.bind_some]
    cases reportOf getOrderStatus link with
    | none => simp [hst]
    | some remote =>
      have hstatus : (reconciledData link remote).orderStatus = remote.orderStatus := rfl
      simp only [Trade.statusAfter, hstatus, hrole, hst, Option.map_some]
      cases remote.orderStatus <;> simp [orderStatusMap]

/-- The pass leaves a trade alone exactly when the exchange says nothing new of the order it
asks about. -/
theorem Trade.reconciledStatus_eq_iff (hunsold : t.Unsold) : t.reconciledStatus getOrderStatus = t.status ↔
    t.awaited getOrderStatus = none ∨ t.awaited getOrderStatus = some .other := by
  by_cases hpending : t.status = positionClosePending
  · rw [Trade.reconciledStatus_pending hpending, hpending]
    cases t.awaited getOrderStatus with
    | none => simp
    | some text => cases text <;> simp
  · by_cases hentry : t.status ∈ entryReconciliationStatuses
    · have hclose : t.status ∉ closeReconciliationStatuses := by
        simpa [closeReconciliationStatuses] using hpending
      simp only [Trade.reconciledStatus, Trade.awaited, Trade.trackedOrderLinkId, if_neg hclose,
        if_pos hentry]
      cases hlink : t.orderLinkId with
      | none => simp
      | some link =>
        simp only [Option.bind_some]
        cases reportOf getOrderStatus link with
        | none => simp
        | some remote =>
          have hstatus : (reconciledData link remote).orderStatus = remote.orderStatus := rfl
          simp only [Trade.statusAfter, hstatus, hunsold hentry link, Option.map_some]
          simp only [entryReconciliationStatuses, List.mem_cons, List.not_mem_nil, or_false] at hentry
          cases remote.orderStatus <;> obtain hentry | hentry := hentry <;>
            simp [orderStatusMap, shouldIgnoreEntryUpdate, hentry] <;> split_ifs <;> simp
    · have htracked : t.trackedOrderLinkId = none := by
        simp [Trade.trackedOrderLinkId, closeReconciliationStatuses, hpending, hentry]
      simp [Trade.reconciledStatus, Trade.awaited, htracked]

theorem Trade.reconciledStatus_open {link : OrderLinkId} {remote : OrderData}
    (hopen : t.status ∈ entryReconciliationStatuses) (hunsold : t.Unsold)
    (hown : t.ownsOrderLinkId link = true) (hremote : reportOf getOrderStatus link = some remote) :
    t.reconciledStatus getOrderStatus = t.statusAfter link (reconciledData link remote) := by
  have hlink : t.orderLinkId = some link := by
    obtain h | h := (Trade.owns_iff t link).mp hown
    · exact h
    · rw [← Trade.isProtectiveClose_iff, hunsold hopen link] at h
      cases h
  have htracked : t.trackedOrderLinkId = some link := by
    have hclose : t.status ∉ closeReconciliationStatuses := by
      intro h
      simp only [closeReconciliationStatuses, List.mem_singleton] at h
      simp [h, entryReconciliationStatuses] at hopen
    rw [Trade.trackedOrderLinkId, if_neg hclose, if_pos hopen, hlink]
  simp only [Trade.reconciledStatus, htracked, hremote]

theorem Trade.reconciledStatus_final_iff {link : OrderLinkId} {remote : OrderData}
    (hst : t.status ∈ waitingStatuses) (hunsold : t.Unsold) (hown : t.ownsOrderLinkId link = true)
    (hremote : reportOf getOrderStatus link = some remote)
    (hfinal : remote.orderStatus.isFinal = true) :
    t.reconciledStatus getOrderStatus = t.statusAfter link (reconciledData link remote) ↔
      Converging getOrderStatus link (some remote) t := by
  have hdata : (reconciledData link remote).orderStatus = remote.orderStatus := rfl
  have hidle : t.status ∉ entryReconciliationStatuses → t.status ≠ positionClosePending →
      t.reconciledStatus getOrderStatus = t.status := by
    intro hentry hpending
    have htracked : t.trackedOrderLinkId = none := by
      simp [Trade.trackedOrderLinkId, closeReconciliationStatuses, hpending, hentry]
    simp only [Trade.reconciledStatus, htracked]
  have hexit : t.isProtectiveClose link = true → t.status ≠ pnlRecorded →
      t.statusAfter link (reconciledData link remote) =
        if remote.orderStatus = .filled then pnlRecorded else positionCloseFailed :=
    fun hrole hopen => Trade.statusAfter_exit hrole hopen hfinal
  simp only [Converging]
  cases hs : t.status with
  | orderSubmitted | orderPendingUnknown =>
    simp only [iff_true]
    exact Trade.reconciledStatus_open (by simp [hs, entryReconciliationStatuses]) hunsold hown hremote
  | orderConfirmed =>
    rw [hidle (by simp [hs, entryReconciliationStatuses]) (by simp [hs]), hs]
    cases hrole : t.isProtectiveClose link with
    | true =>
      rw [hexit hrole (by simp [hs])]
      split_ifs <;> simp
    | false =>
      have hentry := @Trade.statusAfter_entry link (reconciledData link remote) t hrole hs hfinal
      exact eq_comm.trans (hentry.trans ⟨fun h => ⟨rfl, h⟩, fun h => h.2⟩)
  | orderPartiallyFilled =>
    rw [hidle (by simp [hs, entryReconciliationStatuses]) (by simp [hs]), hs]
    cases hrole : t.isProtectiveClose link with
    | true =>
      rw [hexit hrole (by simp [hs])]
      split_ifs <;> simp
    | false =>
      exact iff_of_false (Trade.statusAfter_moved hrole hs hfinal).symm not_false
  | positionOpen =>
    rw [hidle (by simp [hs, entryReconciliationStatuses]) (by simp [hs]), hs]
    cases hrole : t.isProtectiveClose link with
    | true =>
      rw [hexit hrole (by simp [hs])]
      split_ifs <;> simp
    | false => simp [Trade.statusAfter_ignored hrole, hs]
  | positionClosePending =>
    rw [Trade.reconciledStatus_pending hs]
    cases hrole : t.isProtectiveClose link with
    | true =>
      rw [hexit hrole (by simp [hs])]
      cases t.awaited getOrderStatus with
      | none => split_ifs <;> simp_all
      | some text => cases text <;> split_ifs <;> simp_all
    | false =>
      rw [Trade.statusAfter_ignored hrole (by simp [hs]), hs]
      cases t.awaited getOrderStatus with
      | none => simp
      | some text => cases text <;> simp
  | positionCloseFailed =>
    rw [hidle (by simp [hs, entryReconciliationStatuses]) (by simp [hs]), hs]
    cases hrole : t.isProtectiveClose link with
    | true =>
      rw [hexit hrole (by simp [hs])]
      split_ifs <;> simp_all
    | false => simp [Trade.statusAfter_ignored hrole, hs]
  | _ => simp [waitingStatuses, hs] at hst

end

/-- One uninterrupted pass brings a waiting trade where the missed events of one of its
orders would have brought it exactly when the pass asks about that order, or the missed
events change nothing. -/
theorem converges_iff {env : Env} (hrest : env.restClient = true) (ss : List Step) {t : Trade}
    (ht : t ∈ (Runs.run (step env) {} ss).db.trades) (hst : t.status ∈ waitingStatuses)
    {o : SentOrder} (ho : o ∈ (Runs.run (step env) {} ss).exchange.orders)
    (hfinal : o.state.isFinal = true) (hown : t.ownsOrderLinkId o.linkId = true)
    {getOrderStatus : OrderLinkId → StatusOutcome}
    (htruth : Truthful (Runs.run (step env) {} ss).exchange getOrderStatus)
    {lost : Option OrderData} {news : List (OrderData × HandlerIo)}
    (hmissed : Missed getOrderStatus o.linkId lost news) {io : ReconcileIo} (hio : io.Accepts t.id) :
    Converges env getOrderStatus io news (Runs.run (step env) {} ss) t.id ↔
      Converging getOrderStatus o.linkId lost t := by
  have hw := wellFormed_run env ss
  have hunsold := unsold_run env ss t ht
  have hstate := htruth.state o ho
  generalize Runs.run (step env) {} ss = w at ht hw htruth
  have honce := (@reconcileOnce_status env getOrderStatus w t io hrest hw ht htruth.readable
    hio.1 hio.2.1 hio.2.2).status
  have hopen : t.status ≠ pnlRecorded := by
    intro h
    simp [h, waitingStatuses] at hst
  rw [Converges, honce]
  cases hmissed with
  | nothing =>
    have hsame : ((handleEvents env.restClient [] w).db.getTrade t.id).map Trade.status =
        some t.status := by
      rw [handleEvents, List.foldl_nil, hw.getTrade ht, Option.map_some]
    rw [hsame, Option.some_inj]
    exact Trade.reconciledStatus_eq_iff hunsold
  | @lost remote early last hremote hearly hstop =>
    have hreported : remote.orderStatus.isFinal = true := by
      rw [hremote, Option.map_some] at hstate
      rw [OrderState.isFinal, ← hstate] at hfinal
      exact hfinal
    obtain ⟨habout, hread⟩ := htruth.readable o.linkId remote hremote
    have hnews := (@handleEvents_status env w t (reconciledData o.linkId remote) last o.linkId early
      hrest hw ht hown hopen hreported (reconciledData_link habout)
      ⟨hread.avgPrice, hread.cumExecQty⟩ hstop hearly).status
    rw [hnews, Option.some_inj]
    exact Trade.reconciledStatus_final_iff hst hunsold hown hremote hreported

def SentOrder.payload (o : SentOrder) : Option OrderData :=
  o.state.reported.map fun text =>
    { orderLinkId := some o.linkId, orderStatus := text, avgPrice := some (.decimal 100)
      leavesQty := if text = .filled then some "0" else none }

/-- `get_order_status` of an exchange that answers every call. -/
def Exchange.answer (x : Exchange) (link : OrderLinkId) : StatusOutcome :=
  .ok ((x.orders.find? fun o => o.linkId = link).bind SentOrder.payload)

theorem Exchange.answer_truthful {x : Exchange}
    (h : ∀ o ∈ x.orders, (x.orders.find? fun p => p.linkId = o.linkId) = some o) :
    Truthful x x.answer where
  state := by
    intro o ho
    simp only [reportOf, Exchange.answer, h o ho, Option.bind_some, SentOrder.payload]
    cases o.state.reported <;> rfl
  readable := by
    intro link remote hremote
    simp only [reportOf, Exchange.answer, Option.mem_def, Option.bind_eq_some_iff,
      SentOrder.payload, Option.map_eq_some_iff] at hremote
    obtain ⟨o, ho, text, -, rfl⟩ := hremote
    have hlink : o.linkId = link := by simpa using List.find?_some ho
    exact ⟨.inr (by rw [hlink]), by simp, by simp⟩

def demoReconcile : ReconcileIo where
  entries _ := demoHandler 5
  closes _ := demoHandler 5
  protections _ := demoHandler 5

abbrev demoWorld (ss : List Step) : World := Runs.run (step (demoEnv .takerAllowed)) {} ss

/-- The filled entry is closed, and the close order fills without an event. -/
def missedCloseRun : List Step :=
  filledEntryRun (.accepted none) ++
    [.closeTrade 1 .manual ⟨3, .accepted none⟩, .settle (.close 3) .filled]

/-- The entry is filled, and its stop order fills without an event. -/
def missedStopRun : List Step :=
  filledEntryRun (.accepted none) ++ [.settle (.stop 2) .filled]

def filledReport (link : OrderLinkId) : OrderData where
  orderLinkId := some link
  orderStatus := .filled
  avgPrice := some (.decimal 100)
  leavesQty := some "0"

theorem converges_missedClose : ∃ t ∈ (demoWorld missedCloseRun).db.trades,
    ∃ o ∈ (demoWorld missedCloseRun).exchange.orders, t.status = positionClosePending ∧
      t.closeOrderLinkId = some o.linkId ∧
      Converges (demoEnv .takerAllowed) (demoWorld missedCloseRun).exchange.answer demoReconcile
        [(filledReport o.linkId, demoHandler 4)] (demoWorld missedCloseRun) t.id := by
  have hpending : ∃ t ∈ (demoWorld missedCloseRun).db.trades,
      t.status = positionClosePending ∧ t.closeOrderLinkId = some (.close 3) ∧
        t.ownsOrderLinkId (.close 3) = true ∧ t.isProtectiveClose (.close 3) = true := by
    decide +kernel
  have horder : ∃ o ∈ (demoWorld missedCloseRun).exchange.orders,
      o.linkId = .close 3 ∧ o.state.isFinal = true := by decide +kernel
  have hreport : reportOf (demoWorld missedCloseRun).exchange.answer (.close 3) =
      some (filledReport (.close 3)) := by decide +kernel
  have htruth : Truthful (demoWorld missedCloseRun).exchange
      (demoWorld missedCloseRun).exchange.answer := Exchange.answer_truthful (by decide +kernel)
  obtain ⟨t, ht, hst, hclose, hown, hrole⟩ := hpending
  obtain ⟨o, ho, hlink, hfinal⟩ := horder
  rw [← hlink] at hown hreport hrole hclose
  have hmissed : Missed (demoWorld missedCloseRun).exchange.answer o.linkId
      (some (filledReport o.linkId)) [(filledReport o.linkId, demoHandler 4)] :=
    @Missed.lost _ o.linkId _ [] (demoHandler 4) hreport (by simp) rfl
  have hwaiting : t.status ∈ waitingStatuses := by simp [waitingStatuses, hst]
  have hawaited : t.awaited (demoWorld missedCloseRun).exchange.answer = some .filled := by
    simp only [Trade.awaited, Trade.trackedOrderLinkId, hst, closeReconciliationStatuses,
      List.mem_singleton, if_true, hclose, Option.bind_some, hreport, Option.map_some, filledReport]
  refine ⟨t, ht, o, ho, hst, hclose, (converges_iff rfl missedCloseRun ht hwaiting ho hfinal hown
    htruth hmissed ⟨rfl, rfl, rfl⟩).mpr ?_⟩
  simp only [Converging, hst, hrole, hawaited, filledReport, Bool.true_eq_false, if_false, if_true]

/-- The position was sold by its stop order, and no pass ever asks about that order. -/
theorem converges_fails : ∃ t ∈ (demoWorld missedStopRun).db.trades,
    ∃ o ∈ (demoWorld missedStopRun).exchange.orders, t.status ∈ waitingStatuses ∧
      t.stopOrderLinkId = some o.linkId ∧ o.state = .filled ∧
      Truthful (demoWorld missedStopRun).exchange (demoWorld missedStopRun).exchange.answer ∧
      ¬ Converges (demoEnv .takerAllowed) (demoWorld missedStopRun).exchange.answer demoReconcile
        [(filledReport o.linkId, demoHandler 4)] (demoWorld missedStopRun) t.id := by
  have hsold : ∃ t ∈ (demoWorld missedStopRun).db.trades,
      ∃ o ∈ (demoWorld missedStopRun).exchange.orders, t.status ∈ waitingStatuses ∧
        t.stopOrderLinkId = some o.linkId ∧ o.state = .filled ∧
        ¬ Converges (demoEnv .takerAllowed) (demoWorld missedStopRun).exchange.answer demoReconcile
          [(filledReport o.linkId, demoHandler 4)] (demoWorld missedStopRun) t.id := by
    decide +kernel
  obtain ⟨t, ht, o, ho, hst, hstop, hfilled, hnot⟩ := hsold
  exact ⟨t, ht, o, ho, hst, hstop, hfilled, Exchange.answer_truthful (by decide +kernel), hnot⟩

end AmaExecutionCore
