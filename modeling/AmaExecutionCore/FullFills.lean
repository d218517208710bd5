import AmaExecutionCore.Convergence
import AmaExecutionCore.Lifecycle

/-! The full fill of an entry order, however the zero in `leavesQty` is written: where it
leaves the trade, and whether a later report sends the trade back to `orderConfirmed`. -/
namespace AmaExecutionCore
open TradeStatus

/-- A decimal literal without its sign. -/
def unsigned : List Char → List Char
  | '+' :: text => text
  | '-' :: text => text
  | text => text

/-- `Decimal(text)` is zero: zeros with at most one point, and maybe an exponent. -/
def spellsZero (text : String) : Bool :=
  let mantissa := (unsigned text.toList).takeWhile fun c => c ≠ 'e' && c ≠ 'E'
  let exponent := (unsigned text.toList).dropWhile fun c => c ≠ 'e' && c ≠ 'E'
  mantissa.all (fun c => c = '0' || c = '.') && mantissa.contains '0' &&
    mantissa.count '.' ≤ 1 &&
    (exponent = [] ||
      (unsigned exponent.tail ≠ [] && (unsigned exponent.tail).all Char.isDigit))

example : ["0", "0.0", "0.000", "-0.0", ".0", "0E-8"].all spellsZero = true ∧
    ["", "0.5", "0.0.0", ".", "0e", "5"].all (fun text => !spellsZero text) = true := by
  decide +kernel

/-- The statuses a trade has while its entry order is handled. -/
def entryPhaseStatuses : List TradeStatus :=
  [orderSubmitted, orderPendingUnknown, orderPartiallyFilled, orderConfirmed]

/-- The statuses of a trade that holds a position. -/
def positionStatuses : List TradeStatus := [positionOpen, positionClosePending, positionCloseFailed]

/-- The statuses of a trade once its entry is over. -/
def pastEntryStatuses : List TradeStatus :=
  [orderPartiallyFilled, orderRejected, orderCancelled, pnlRecorded] ++ positionStatuses

/-- The step tells the trade that its entry order was filled: something was executed, and
nothing is left. -/
structure EntryFilled (env : Env) (t : Trade) (s : Step) (data : OrderData) : Prop where
  rest : env.restClient = true
  live : t.mode ≠ .shadow
  phase : t.status ∈ entryPhaseStatuses
  told : (s.update env t).map Prod.fst = some data
  entry : ∃ link ∈ t.orderLinkId, data.orderLinkId = some link
  filled : data.orderStatus = .filled
  nothingLeft : data.leavesQty.any spellsZero = true
  executed : 0 < data.cumQty.getD 0

instance (env : Env) (t : Trade) (s : Step) (data : OrderData) :
    Decidable (EntryFilled env t s data) :=
  decidable_of_iff (env.restClient = true ∧ t.mode ≠ .shadow ∧ t.status ∈ entryPhaseStatuses ∧
    (s.update env t).map Prod.fst = some data ∧
    (∃ link ∈ t.orderLinkId, data.orderLinkId = some link) ∧ data.orderStatus = .filled ∧
    data.leavesQty.any spellsZero = true ∧ 0 < data.cumQty.getD 0)
    ⟨fun ⟨h, h', h'', ht, he, hf, hn, hx⟩ => ⟨h, h', h'', ht, he, hf, hn, hx⟩,
      fun h => ⟨h.rest, h.live, h.phase, h.told, h.entry, h.filled, h.nothingLeft, h.executed⟩⟩

def HoldsPosition (id : TradeId) (w : World) : Prop :=
  ∃ t ∈ w.db.trades, t.id = id ∧ t.status ∈ positionStatuses

instance (id : TradeId) (w : World) : Decidable (HoldsPosition id w) :=
  inferInstanceAs (Decidable (∃ t ∈ w.db.trades, t.id = id ∧ t.status ∈ positionStatuses))

def NotConfirmed (id : TradeId) (w : World) : Prop :=
  ∀ t ∈ w.db.trades, t.id = id → t.status ≠ orderConfirmed

instance (id : TradeId) : DecidablePred (NotConfirmed id) := fun w =>
  inferInstanceAs (Decidable (∀ t ∈ w.db.trades, t.id = id → t.status ≠ orderConfirmed))

/-- The step `s` gives the trade a position, and no step of `later` leaves it in
`orderConfirmed`. -/
def FillOpens (env : Env) (id : TradeId) (w : World) (s : Step) (later : List Step) : Prop :=
  HoldsPosition id (step env w s) ∧ Runs.Always (step env) (NotConfirmed id) (step env w s) later

instance (env : Env) (id : TradeId) (w : World) (s : Step) (later : List Step) :
    Decidable (FillOpens env id w s later) :=
  inferInstanceAs (Decidable (HoldsPosition id (step env w s) ∧
    Runs.Always (step env) (NotConfirmed id) (step env w s) later))

/-- The fill is written the one way the program takes for complete, and its price can be
read. -/
def ReadAsFull (data : OrderData) : Prop :=
  data.leavesQty = some "0" ∧ data.avgPrice ≠ some .malformed

instance (data : OrderData) : Decidable data.Readable :=
  decidable_of_iff (data.avgPrice ≠ some .malformed ∧ data.cumExecQty ≠ some .malformed)
    ⟨fun h => ⟨h.1, h.2⟩, fun h => ⟨h.avgPrice, h.cumExecQty⟩⟩

/-- The update leaves the trade in `orderConfirmed`: the fill of an exit order whose price
cannot be read, which only a pass commits, or a fill of the entry order that does not
open the position. -/
def Confirms (s : Step) (data : OrderData) (t : Trade) : Prop :=
  data.orderStatus = .filled ∧ ∃ link ∈ data.orderLinkId,
    if t.isProtectiveClose link = true then
      t.status ≠ pnlRecorded ∧ data.avgPrice = some .malformed ∧ s.isEvent = false
    else t.status ∉ positionClosed :: pnlRecorded :: positionStatuses ∧ data.Readable ∧
      (data.leavesQty ≠ some "0" ∨ Unarmable (t.noteFilledQty data.cumQty))

instance (s : Step) (data : OrderData) (t : Trade) : Decidable (Confirms s data t) :=
  inferInstanceAs (Decidable (data.orderStatus = .filled ∧ ∃ link ∈ data.orderLinkId,
    if t.isProtectiveClose link = true then
      t.status ≠ pnlRecorded ∧ data.avgPrice = some .malformed ∧ s.isEvent = false
    else t.status ∉ positionClosed :: pnlRecorded :: positionStatuses ∧ data.Readable ∧
      (data.leavesQty ≠ some "0" ∨ Unarmable (t.noteFilledQty data.cumQty))))

/-- No update of the step leaves the trade in `orderConfirmed`. -/
def StaysUnconfirmed (env : Env) (id : TradeId) (w : World) (s : Step) : Prop :=
  ∀ t ∈ w.db.trades, t.id = id → ∀ u ∈ s.update env t, ¬ Confirms s u.1 t

instance (env : Env) (id : TradeId) (w : World) (s : Step) :
    Decidable (StaysUnconfirmed env id w s) :=
  inferInstanceAs (Decidable (∀ t ∈ w.db.trades, t.id = id →
    ∀ u ∈ s.update env t, ¬ Confirms s u.1 t))

/-- An executed trade keeps the stop price it was created with. -/
theorem stopPrice_run (env : Env) (ss : List Step) :
    ∀ t ∈ (Runs.run (step env) {} ss).db.trades, t.stopPrice ≠ none := by
  refine run_of_commits (I := fun w => ∀ t ∈ w.db.trades, t.stopPrice ≠ none) ss
    (fun _ ht => nomatch ht) fun s w w' _ hc h => ?_
  refine hc.each (fun w₁ t k' _ _ hk hstop => ?_) ?_ h
  · rw [hk.frame.entry.stopPrice]
    exact hstop
  · intro req io p raised k hk
    have hent := settleEntry_entered env.settings .spot req io (entryWork env req io p)
      (entryWork_link _ _ _ _)
    obtain ⟨status, link, ty, new, henters, -, -⟩ := hent.enters (entryWork_link _ _ _ _)
    rw [hk] at henters
    have hterms : Trade.SameTerms _ k.trade := henters.same
    rw [hterms.stopPrice]
    exact Option.some_ne_none req.stop

/-- The fill of the entry order of a trade that holds no position is applied. -/
theorem applyOrderUpdate_entryFill (io : HandlerIo) {data : OrderData} {k : Work}
    {link : OrderLinkId} (hlink : data.orderLinkId = some link) (hs : data.orderStatus = .filled)
    (hrole : k.trade.isProtectiveClose link = false)
    (hst : k.trade.status ∉ positionClosed :: pnlRecorded :: positionStatuses) :
    applyOrderUpdate true io data k =
      applyEntryFill true io data (k.onTrade (Trade.noteExchangeOrderId link data.orderId)) := by
  have hnote : (k.trade.noteExchangeOrderId link data.orderId).status = k.trade.status :=
    (noteExchangeOrderId_settles link data.orderId k).status
  have hkeep : shouldIgnoreEntryUpdate (k.trade.noteExchangeOrderId link data.orderId)
      orderConfirmed (data.leavesQty = some "0") = false := by
    rw [shouldIgnoreEntryUpdate_congr hnote]
    cases hstatus : k.trade.status <;>
      simp [hstatus, positionStatuses, shouldIgnoreEntryUpdate] at hst ⊢
  simp [applyOrderUpdate, hlink, hs, orderStatusMap, hrole, hkeep]

/-- The fill of an exit order of a trade that is not booked is applied. -/
theorem applyOrderUpdate_exitFill (io : HandlerIo) {data : OrderData} {k : Work}
    {link : OrderLinkId} (hlink : data.orderLinkId = some link) (hs : data.orderStatus = .filled)
    (hrole : k.trade.isProtectiveClose link = true) (hst : k.trade.status ≠ pnlRecorded) :
    applyOrderUpdate true io data k =
      applyExitFill io link data (k.onTrade (Trade.noteExchangeOrderId link data.orderId)) := by
  have hnote : (k.trade.noteExchangeOrderId link data.orderId).status = k.trade.status :=
    (noteExchangeOrderId_settles link data.orderId k).status
  have hkeep : shouldIgnoreCloseUpdate (k.trade.noteExchangeOrderId link data.orderId) = false := by
    simpa [shouldIgnoreCloseUpdate, hnote] using hst
  simp [applyOrderUpdate, hlink, hs, orderStatusMap, hrole, hkeep]

theorem applyEntryFill_opens (io : HandlerIo) {data : OrderData} (k : Work) (hread : data.Readable) :
    (∃ b, (applyEntryFill true io data k).1 = .ok b) ∧
      if data.leavesQty ≠ some "0" ∨ Unarmable (k.trade.noteFilledQty data.cumQty) then
        (applyEntryFill true io data k).2.trade.status = orderConfirmed
      else (applyEntryFill true io data k).2.trade.status ∈ positionStatuses := by
  obtain ⟨avg, havg⟩ := hread.avg
  have hconf := (confirmEntryFill_settles io.now avg data.cumQty k).status
  have hsame : Unarmable (confirmEntryFill io.now avg data.cumQty k).trade ↔
      Unarmable (k.trade.noteFilledQty data.cumQty) := by
    simp [Unarmable, confirmEntryFill, Trade.noteFillPrice, Trade.noteFilledQty]
  simp only [applyEntryFill, havg, hread.cum]
  refine ⟨⟨true, rfl⟩, ?_⟩
  simp only [Work.onTrade_trade, Trade.storeFilledQty]
  by_cases hleaves : data.leavesQty = some "0"
  · by_cases hun : Unarmable (k.trade.noteFilledQty data.cumQty)
    · have harm := ensureSpotMarketProtection_unarmable io (hsame.mpr hun)
      simpa [hleaves, hun, harm] using hconf
    · have hmoves := ensureSpotMarketProtection_moves io (fun h => hun (hsame.mp h))
      simp only [hleaves, if_true, ne_eq, not_true, false_or, if_neg hun]
      split
      · simp [positionStatuses]
      · next hens =>
        rw [hens] at hmoves
        obtain h | h := hmoves
        · cases h
        · exact List.mem_cons_of_mem _ h
  · simpa [hleaves] using hconf

theorem applyEntryFill_unreadable (io : HandlerIo) {data : OrderData} (k : Work)
    (hread : ¬ data.Readable) : (∃ e, (applyEntryFill true io data k).1 = .error e) ∧
      (applyEntryFill true io data k).2.trade.status = k.trade.status := by
  obtain ⟨e, avg, h⟩ | ⟨avg, cum, hcum, h⟩ := applyEntryFill_cases true io data k
  · rw [h]
    exact ⟨⟨e, rfl⟩, rfl⟩
  · refine absurd ⟨?_, parseOptional_ok hcum⟩ hread
    intro hbad
    simp [applyEntryFill, hbad, parseOptional, RawNumber.parse, Except.map] at h

/-- The fill of an exit order books the trade, or raises over its price. -/
theorem applyExitFill_closes (io : HandlerIo) (link : OrderLinkId) (data : OrderData) (k : Work) :
    if data.avgPrice = some .malformed then
      (∃ e, (applyExitFill io link data k).1 = .error e) ∧
        (applyExitFill io link data k).2.trade.status = orderConfirmed
    else (applyExitFill io link data k).2.trade.status = pnlRecorded := by
  by_cases hprice : data.avgPrice = some .malformed
  · simp [applyExitFill, hprice, RawNumber.parse]
  · simp only [if_neg hprice, applyExitFill]
    split
    · next e hparse =>
      exact absurd (parse_getD_error hparse) hprice
    · next exitPrice _ =>
      obtain ⟨k', hbook, hend⟩ := recordExit_booked io.now link exitPrice
        (k.transitionTradeStatus .orderConfirmed exchangeSync)
      rw [hbook]
      exact hend.status

/-- The row a step commits of an update: an event that raises is rolled back, a pass commits
what the update left. -/
def Step.committedRow (s : Step) (t : Trade) (o : Outcome Work Bool) : Trade :=
  if s.isEvent = true ∧ o.1.toOption = none then t else o.2.trade

theorem committedRow_id (s : Step) (t : Trade) {o : Outcome Work Bool} (h : o.2.trade.id = t.id) :
    (s.committedRow t o).id = t.id := by
  unfold Step.committedRow
  split
  · rfl
  · exact h

theorem reconcileTrade_told {tracked : Option OrderLinkId} {answer : StatusOutcome}
    {data : OrderData} (io : HandlerIo) {k : Work} (htracked : k.trade.trackedOrderLinkId = tracked)
    (h : answered tracked answer = some data) :
    reconcileTrade true answer io k = applyOrderUpdate true io data k := by
  unfold answered at h
  split at h
  · next link remote =>
    obtain rfl := Option.some.inj h
    simp only [reconcileTrade, htracked, Bool.true_eq_false, if_false]
    rfl
  · cases h

theorem passUpdate_row {env : Env} {s : Step} {w : World} {t : Trade} {data : OrderData}
    {io : HandlerIo} (hw : w.WellFormed) (hs : s.isPass = true) (ht : t ∈ s.listed env w.db)
    (hhandle : ∀ w₁ : World, s.handle env t (w₁.work t) =
      applyOrderUpdate env.restClient io data (w₁.work t)) : ∃ w₁ : World,
      s.committedRow t (applyOrderUpdate env.restClient io data (w₁.work t)) ∈
        (step env w s).db.trades := by
  obtain ⟨w₁, hrow⟩ := listed_row hw hs ht
  refine ⟨w₁, ?_⟩
  have hevent : s.isEvent = false := by
    cases s <;> first | rfl | simp [Step.isPass] at hs
  rw [hhandle] at hrow
  simpa [Step.committedRow, hevent] using hrow

theorem update_row {env : Env} {s : Step} {w : World} {t : Trade} {data : OrderData}
    {io : HandlerIo} (hw : w.WellFormed) (ht : t ∈ w.db.trades)
    (hu : s.update env t = some (data, io)) : ∃ w₁ : World,
      s.committedRow t (applyOrderUpdate env.restClient io data (w₁.work t)) ∈
        (step env w s).db.trades := by
  cases s with
  | processOrder data' io' =>
    simp only [Step.update] at hu
    split_ifs at hu with hown
    obtain ⟨rfl, rfl⟩ := Prod.mk.inj (Option.some.inj hu)
    obtain ⟨link, hlink, hown⟩ := hown
    have hlink : data'.orderLinkId = some link := hlink
    have hfound := hw.getTradeByOrderLinkId ht hown
    have hid := (applyOrderUpdate_frame env.restClient io' data' (w.work t)).entry.id
    refine ⟨w, ?_⟩
    simp only [step, processOrder, hlink, Step.committedRow, Step.isEvent, true_and]
    cases hs : orderStatusMap data'.orderStatus with
    | none => simpa [applyOrderUpdate, hlink, hs] using ht
    | some newStatus =>
      rcases happ : applyOrderUpdate env.restClient io' data' (w.work t) with ⟨result, k⟩
      cases result with
      | error e => simpa [hfound, happ, Except.toOption, World.rollback] using ht
      | ok b =>
        rw [happ] at hid
        simpa [hfound, happ, Except.toOption] using World.commit_row ht hid
  | reconcileEntryOrders answer io' =>
    simp only [Step.update] at hu
    split_ifs at hu with hlisted
    obtain ⟨hrest, hst⟩ := hlisted
    obtain ⟨data', hans, hdata⟩ := Option.map_eq_some_iff.mp hu
    obtain ⟨rfl, rfl⟩ := Prod.mk.inj hdata
    have hne : t.status ∉ closeReconciliationStatuses := by
      simp only [entryReconciliationStatuses, List.mem_cons, List.not_mem_nil, or_false] at hst
      obtain hst | hst := hst <;> simp [hst, closeReconciliationStatuses]
    have htracked : t.trackedOrderLinkId = t.orderLinkId := by
      rw [Trade.trackedOrderLinkId, if_neg hne, if_pos hst]
    refine passUpdate_row hw rfl ?_ fun w₁ => ?_
    · simpa [Step.listed, hrest, Db.listTradesByStatus] using ⟨ht, hst⟩
    · rw [hrest]
      simpa [Step.handle, hrest] using reconcileTrade_told (io' t.id) (k := w₁.work t) htracked hans
  | reconcileCloseOrders answer io' =>
    simp only [Step.update] at hu
    split_ifs at hu with hlisted
    obtain ⟨hrest, hst⟩ := hlisted
    obtain ⟨data', hans, hdata⟩ := Option.map_eq_some_iff.mp hu
    obtain ⟨rfl, rfl⟩ := Prod.mk.inj hdata
    have htracked : t.trackedOrderLinkId = t.closeOrderLinkId := by
      rw [Trade.trackedOrderLinkId, if_pos hst]
    refine passUpdate_row hw rfl ?_ fun w₁ => ?_
    · simpa [Step.listed, hrest, Db.listTradesByStatus] using ⟨ht, hst⟩
    · rw [hrest]
      simpa [Step.handle, hrest] using reconcileTrade_told (io' t.id) (k := w₁.work t) htracked hans
  | _ => simp [Step.update] at hu

theorem Updated.past {io : HandlerIo} {data : OrderData} {k : Work} {o : Outcome Work Bool}
    (h : Updated io data k o) (hs : data.orderStatus ≠ .filled)
    (hst : k.trade.status ∈ pastEntryStatuses) : o.2.trade.status ∈ pastEntryStatuses := by
  cases h with
  | unmoved h => exact h.status ▸ hst
  | entryMoved _ _ hmap _ _ h =>
    rw [h.status]
    obtain ⟨h, -⟩ | ⟨-, rfl⟩ | ⟨-, rfl⟩ | ⟨-, rfl⟩ := orderStatusMap_eq hmap
    · exact absurd h hs
    · decide
    · decide
    · decide
  | entryFilled _ _ h => exact absurd h hs
  | entryDone _ _ h => exact absurd h hs
  | exitBroken _ _ h => exact absurd h hs
  | exitFilled _ _ h => exact absurd h hs
  | exitFailed _ _ _ _ h =>
    rw [h.status]
    decide
  | exitPartly _ _ _ _ h =>
    rw [h.status]
    decide

theorem committedRow_past {s : Step} {t : Trade} {o : Outcome Work Bool}
    (ht : t.status ∈ pastEntryStatuses) (ho : o.2.trade.status ∈ pastEntryStatuses) :
    (s.committedRow t o).status ∈ pastEntryStatuses := by
  unfold Step.committedRow
  split
  · exact ht
  · exact ho

/-- A report about a booked trade, or about the entry of an open one, moves nothing. -/
theorem applyOrderUpdate_ignored (io : HandlerIo) {data : OrderData} {k : Work}
    {link : OrderLinkId} (hlink : data.orderLinkId = some link) (h : k.trade.status = pnlRecorded ∨
      k.trade.isProtectiveClose link = false ∧
        k.trade.status ∈ positionClosed :: pnlRecorded :: positionStatuses) :
    (applyOrderUpdate true io data k).2.trade.status = k.trade.status := by
  have hup := applyOrderUpdate_updated true io data k
  have hentry : ∀ s b, shouldIgnoreEntryUpdate k.trade s b = true := by
    intro s b
    have hst : k.trade.status ∈ positionClosed :: pnlRecorded :: positionStatuses := by
      obtain h | ⟨-, h⟩ := h
      · simp [h]
      · exact h
    simp only [positionStatuses, List.mem_cons, List.not_mem_nil, or_false] at hst
    obtain hst | hst | hst | hst | hst := hst <;> simp [shouldIgnoreEntryUpdate, hst]
  have hexit : ∀ {link'}, data.orderLinkId = some link' → k.trade.isProtectiveClose link' = true →
      k.trade.status ≠ pnlRecorded → False := by
    intro link' hlink' hrole hst
    obtain rfl := Option.some.inj (hlink.symm.trans hlink')
    obtain h | ⟨h, -⟩ := h
    · exact hst h
    · simp [h] at hrole
  generalize applyOrderUpdate true io data k = o at hup
  cases hup with
  | unmoved h => exact h.status
  | entryMoved _ _ _ _ hkeep => simp [hentry] at hkeep
  | entryFilled _ _ _ hkeep => simp [hentry] at hkeep
  | entryDone _ _ _ _ hkeep => simp [hentry] at hkeep
  | exitBroken hl hr _ hkeep => exact (hexit hl hr hkeep).elim
  | exitFilled hl hr _ hkeep => exact (hexit hl hr hkeep).elim
  | exitFailed hl hr _ hkeep => exact (hexit hl hr hkeep).elim
  | exitPartly hl hr _ hkeep => exact (hexit hl hr hkeep).elim

/-- The fill of an exit order ends the trade, unless a pass commits what is left of one that
raised. -/
theorem committedRow_exitFill {s : Step} (io : HandlerIo) {data : OrderData} {k : Work}
    {link : OrderLinkId} (hlink : data.orderLinkId = some link) (hs : data.orderStatus = .filled)
    (hrole : k.trade.isProtectiveClose link = true) (hst : k.trade.status ∈ pastEntryStatuses)
    (hopen : k.trade.status ≠ pnlRecorded) :
    if data.avgPrice = some .malformed ∧ s.isEvent = false then
      (s.committedRow k.trade (applyOrderUpdate true io data k)).status = orderConfirmed
    else (s.committedRow k.trade (applyOrderUpdate true io data k)).status ∈ pastEntryStatuses := by
  have hcloses := applyExitFill_closes io link data
    (k.onTrade (Trade.noteExchangeOrderId link data.orderId))
  rw [applyOrderUpdate_exitFill io hlink hs hrole hopen]
  by_cases hprice : data.avgPrice = some .malformed
  · rw [if_pos hprice] at hcloses
    obtain ⟨⟨e, herror⟩, hend⟩ := hcloses
    by_cases hevent : s.isEvent = false
    · simpa [hprice, hevent, Step.committedRow] using hend
    · simpa [hprice, hevent, Step.committedRow, herror, Except.toOption] using hst
  · rw [if_neg hprice] at hcloses
    rw [if_neg fun h => hprice h.1]
    exact committedRow_past hst (by simp [hcloses, pastEntryStatuses])

/-- The fill of the entry order of a trade without a position opens it, stays
`orderConfirmed`, or raises and is rolled back with its status unchanged. -/
theorem committedRow_entryFill {s : Step} (io : HandlerIo) {data : OrderData} {k : Work}
    {link : OrderLinkId} (hlink : data.orderLinkId = some link) (hs : data.orderStatus = .filled)
    (hrole : k.trade.isProtectiveClose link = false)
    (hst : k.trade.status ∉ positionClosed :: pnlRecorded :: positionStatuses) :
    if data.Readable then
      if data.leavesQty ≠ some "0" ∨ Unarmable (k.trade.noteFilledQty data.cumQty) then
        (s.committedRow k.trade (applyOrderUpdate true io data k)).status = orderConfirmed
      else (s.committedRow k.trade (applyOrderUpdate true io data k)).status ∈ positionStatuses
    else (s.committedRow k.trade (applyOrderUpdate true io data k)).status = k.trade.status := by
  have hun : Unarmable ((k.onTrade (Trade.noteExchangeOrderId link data.orderId)).trade.noteFilledQty
      data.cumQty) ↔ Unarmable (k.trade.noteFilledQty data.cumQty) :=
    unarmable_noteExchangeOrderId link data.orderId data.cumQty k.trade
  have hnote := (noteExchangeOrderId_settles link data.orderId k).status
  rw [applyOrderUpdate_entryFill io hlink hs hrole hst]
  by_cases hread : data.Readable
  · obtain ⟨⟨b, hok⟩, hend⟩ := applyEntryFill_opens io
      (k.onTrade (Trade.noteExchangeOrderId link data.orderId)) hread
    simp only [hun] at hend
    simpa only [hread, if_true, Step.committedRow, hok, Except.toOption, reduceCtorEq, and_false,
      if_false] using hend
  · obtain ⟨⟨e, herror⟩, hend⟩ := applyEntryFill_unreadable io
      (k.onTrade (Trade.noteExchangeOrderId link data.orderId)) hread
    rw [if_neg hread, Step.committedRow]
    split
    · rfl
    · exact hend.trans hnote

/-- An update keeps a trade past its entry, but for those that send it back. -/
theorem committedRow_confirmed (s : Step) (io : HandlerIo) (data : OrderData) {k : Work}
    (hst : k.trade.status ∈ pastEntryStatuses) :
    if Confirms s data k.trade then
      (s.committedRow k.trade (applyOrderUpdate true io data k)).status = orderConfirmed
    else (s.committedRow k.trade (applyOrderUpdate true io data k)).status ∈ pastEntryStatuses := by
  have hignored : (applyOrderUpdate true io data k).2.trade.status = k.trade.status →
      (s.committedRow k.trade (applyOrderUpdate true io data k)).status ∈ pastEntryStatuses := by
    intro hsame
    exact committedRow_past hst (hsame ▸ hst)
  cases hlink : data.orderLinkId with
  | none =>
    have hsame : applyOrderUpdate true io data k = (.ok false, k) := by
      simp [applyOrderUpdate, hlink]
    rw [if_neg (by simp [Confirms, hlink])]
    exact hignored (by rw [hsame])
  | some link =>
    by_cases hs : data.orderStatus = .filled
    · cases hrole : k.trade.isProtectiveClose link with
      | true =>
        have hconf : Confirms s data k.trade ↔ k.trade.status ≠ pnlRecorded ∧
            data.avgPrice = some .malformed ∧ s.isEvent = false := by
          simp [Confirms, hs, hlink, hrole]
        by_cases hbooked : k.trade.status = pnlRecorded
        · rw [if_neg fun h => (hconf.mp h).1 hbooked]
          exact hignored (applyOrderUpdate_ignored io hlink (.inl hbooked))
        · have hexit := @committedRow_exitFill s io data k link hlink hs hrole hst hbooked
          simpa only [hconf, ne_eq, hbooked, not_false_iff, true_and] using hexit
      | false =>
        have hconf : Confirms s data k.trade ↔
            k.trade.status ∉ positionClosed :: pnlRecorded :: positionStatuses ∧ data.Readable ∧
              (data.leavesQty ≠ some "0" ∨ Unarmable (k.trade.noteFilledQty data.cumQty)) := by
          simp [Confirms, hs, hlink, hrole]
        by_cases hopen : k.trade.status ∈ positionClosed :: pnlRecorded :: positionStatuses
        · rw [if_neg fun h => (hconf.mp h).1 hopen]
          exact hignored (applyOrderUpdate_ignored io hlink (.inr ⟨hrole, hopen⟩))
        · have hentry := @committedRow_entryFill s io data k link hlink hs hrole hopen
          by_cases hread : data.Readable
          · simp only [hread, if_true] at hentry
            simp only [hconf, hopen, not_false_iff, hread, true_and]
            split_ifs at hentry ⊢
            · exact hentry
            · exact List.mem_append_right _ hentry
          · rw [if_neg hread] at hentry
            rw [if_neg fun h => hread (hconf.mp h).2.1, hentry]
            exact hst
    · have hup := applyOrderUpdate_updated true io data k
      rw [if_neg fun h => hs h.1]
      exact committedRow_past hst (hup.past hs hst)

/-- A handler that is told nothing about the orders of the trade keeps it past its entry. -/
theorem Handled.past {env : Env} {w : World} {s : Step} {k k' : Work} (h : Handled env w s k k')
    (hnone : s.update env k.trade = none) (hst : k.trade.status ∈ pastEntryStatuses) :
    k'.trade.status ∈ pastEntryStatuses := by
  cases h with
  | unanswered => exact hst
  | update hdata => simp [hnone] at hdata
  | execution _ _ _ h =>
    obtain ⟨q, rfl⟩ := noteSlippage_same h
    obtain ⟨paid, hfee⟩ := k.trade.addFee_eq _
    rw [hfee]
    exact hst
  | @closed reason io _ _ _ h =>
    have hcl := submitClose_closing env.settings.tradingMode reason io k
    rw [h] at hcl
    cases hcl with
    | shadow _ he =>
      rw [he.status]
      decide
    | sent _ he =>
      rw [he.status]
      decide
  | protect =>
    obtain h | ⟨-, h | h⟩ := (ensureSpotMarketProtection_protection env.restClient _ k).status
    · rwa [h]
    · rw [h]
      decide
    · rw [h]
      decide
  | resolved hfound =>
    rw [replayed_status hfound] at hst
    exact absurd hst (by decide)

theorem past_commits {env : Env} {s : Step} {w w' : World} {t : Trade} (hw : w.WellFormed)
    (ht : t ∈ w.db.trades) (hst : t.status ∈ pastEntryStatuses) (hnone : s.update env t = none)
    (hc : Commits env s w w') :
    ∃ t' ∈ w'.db.trades, t'.id = t.id ∧ t'.status ∈ pastEntryStatuses := by
  induction hc with
  | start => exact ⟨t, ht, rfl, hst⟩
  | @commit w₁ r k' _ hw₁ hr hr₁ hk ih =>
    obtain ⟨t₁, ht₁, hid₁, hst₁⟩ := ih
    have hid : k'.trade.id = r.id := hk.frame.entry.id
    by_cases hkey : r.id = t.id
    · obtain rfl := hw.eq_of_id hr ht hkey
      exact ⟨k'.trade, World.commit_row hr₁ hid, hid, hk.past hnone hst⟩
    · exact ⟨t₁, World.mem_commit hr₁ hid ht₁ fun h => hkey (h.symm.trans hid₁), hid₁, hst₁⟩
  | quiet _ hq ih => exact hq.trades ▸ ih
  | created _ _ _ _ _ htrades _ _ ih =>
    obtain ⟨t₁, ht₁, hid₁, hst₁⟩ := ih
    exact ⟨t₁, htrades ▸ List.mem_append_left _ ht₁, hid₁, hst₁⟩

/-- A step leaves a trade past its entry there, unless one of its updates sends it back. -/
theorem past_step {env : Env} (hrest : env.restClient = true) {s : Step} {w : World} {t : Trade}
    (hw : w.WellFormed) (ht : t ∈ w.db.trades) (hst : t.status ∈ pastEntryStatuses) :
    ∃ t' ∈ (step env w s).db.trades, t'.id = t.id ∧
      if ∃ u ∈ s.update env t, Confirms s u.1 t then t'.status = orderConfirmed
      else t'.status ∈ pastEntryStatuses := by
  cases hu : s.update env t with
  | none =>
    simpa using past_commits hw ht hst hu (step_commits env s hw)
  | some u =>
    obtain ⟨data, io⟩ := u
    obtain ⟨w₁, hrow⟩ := update_row hw ht hu
    have hid := committedRow_id s t (applyOrderUpdate_frame env.restClient io data (w₁.work t)).entry.id
    refine ⟨_, hrow, hid, ?_⟩
    have hupdate := @committedRow_confirmed s io data (w₁.work t) hst
    rw [hrest]
    by_cases hback : Confirms s data (w₁.work t).trade
    · rw [if_pos hback] at hupdate
      rw [World.work_trade] at hback hupdate
      simpa [hback] using hupdate
    · rw [if_neg hback] at hupdate
      rw [World.work_trade] at hback hupdate
      simpa [hback] using hupdate

/-- As long as no update sends the trade back, no step leaves it in `orderConfirmed`. -/
theorem notConfirmed_always {env : Env} (hrest : env.restClient = true) {w : World} {t : Trade}
    {later : List Step} (hw : w.WellFormed) (ht : t ∈ w.db.trades)
    (hst : t.status ∈ pastEntryStatuses) : Runs.Always (step env) (NotConfirmed t.id) w later ↔
      Runs.Meets (step env) (StaysUnconfirmed env t.id) w later := by
  have hnow : NotConfirmed t.id w := by
    intro r hr hid hconf
    obtain rfl := hw.eq_of_id hr ht hid
    rw [hconf] at hst
    exact absurd hst (by decide)
  induction later generalizing w t with
  | nil => exact iff_of_true hnow True.intro
  | cons s later ih =>
    obtain ⟨t', ht', hid, hstep⟩ := @past_step env hrest s w t hw ht hst
    have hw' := (step_effect env s hw).2
    have hstays : StaysUnconfirmed env t.id w s ↔ ¬ ∃ u ∈ s.update env t, Confirms s u.1 t := by
      constructor
      · intro h ⟨u, hu, hconf⟩
        exact h t ht rfl u hu hconf
      · intro h r hr hid u hu hconf
        obtain rfl := hw.eq_of_id hr ht hid
        exact h ⟨u, hu, hconf⟩
    rw [Runs.Always, Runs.Meets, hstays]
    by_cases hback : ∃ u ∈ s.update env t, Confirms s u.1 t
    · rw [if_pos hback] at hstep
      refine iff_of_false (fun h => ?_) fun h => h.1 hback
      exact h.2.head t' ht' hid hstep
    · rw [if_neg hback] at hstep
      have hnow' : NotConfirmed t'.id (step env w s) := by
        intro r hr hkey hconf
        obtain rfl := hw'.eq_of_id hr ht' hkey
        rw [hconf] at hstep
        exact absurd hstep (by decide)
      have hlater := ih hw' ht' hstep hnow'
      rw [hid] at hlater
      exact and_congr (iff_of_true hnow hback) hlater

namespace EntryFilled

variable {env : Env} {t : Trade} {s : Step} {data : OrderData}

/-- A fill that executed something has a readable quantity. -/
theorem readable_iff (h : EntryFilled env t s data) :
    data.Readable ↔ data.avgPrice ≠ some .malformed := by
  refine ⟨fun hread => hread.avgPrice, fun havg => ⟨havg, fun hcum => ?_⟩⟩
  have hexec := h.executed
  simp [OrderData.cumQty, hcum] at hexec

theorem armable (h : EntryFilled env t s data) (hstop : t.stopPrice ≠ none) :
    ¬ Unarmable (t.noteFilledQty data.cumQty) := by
  rintro ⟨-, -, hnone | hzero⟩
  · exact hstop hnone
  · have hexec := h.executed
    cases hcum : data.cumQty with
    | none => simp [hcum] at hexec
    | some q =>
      rw [hcum, Option.getD_some] at hexec
      simp [Trade.noteFilledQty, hcum, pyOr, hexec.ne'] at hzero

end EntryFilled

/-- The fill opens the position exactly when the program takes it for complete. -/
theorem holdsPosition_iff {env : Env} {w : World} {t : Trade} {s : Step} {data : OrderData}
    (hw : w.WellFormed) (ht : t ∈ w.db.trades) (hkept : t.EntryKept) (hstop : t.stopPrice ≠ none)
    (h : EntryFilled env t s data) : HoldsPosition t.id (step env w s) ↔ ReadAsFull data := by
  obtain ⟨⟨data', io⟩, hu, hdata⟩ := Option.map_eq_some_iff.mp h.told
  dsimp only at hdata
  subst hdata
  obtain ⟨link, hentry, hlink⟩ := h.entry
  obtain ⟨w₁, hrow⟩ := update_row hw ht hu
  have hid := committedRow_id s t (applyOrderUpdate_frame env.restClient io data' (w₁.work t)).entry.id
  have hphase := h.phase
  have hfree : t.status ∉ positionClosed :: pnlRecorded :: positionStatuses := by
    simp only [entryPhaseStatuses, List.mem_cons, List.not_mem_nil, or_false] at hphase
    obtain hst | hst | hst | hst := hphase <;> rw [hst] <;> decide
  have hfill := @committedRow_entryFill s io data' (w₁.work t) link hlink h.filled
    (hkept.role link hentry) hfree
  rw [h.rest] at hrow hid
  have hholds : HoldsPosition t.id (step env w s) ↔
      (s.committedRow t (applyOrderUpdate true io data' (w₁.work t))).status ∈ positionStatuses := by
    constructor
    · rintro ⟨r, hr, hkey, hst⟩
      rwa [← (step_effect env s hw).2.eq_of_id hr hrow (hkey.trans hid.symm)]
    · exact fun hst => ⟨_, hrow, hid, hst⟩
  rw [hholds, ReadAsFull, ← h.readable_iff]
  by_cases hread : data'.Readable
  · rw [if_pos hread] at hfill
    by_cases hleaves : data'.leavesQty = some "0"
    · have harm : ¬ (data'.leavesQty ≠ some "0" ∨
          Unarmable ((w₁.work t).trade.noteFilledQty data'.cumQty)) :=
        not_or.mpr ⟨not_not.mpr hleaves, h.armable hstop⟩
      rw [if_neg harm] at hfill
      exact iff_of_true hfill ⟨hleaves, hread⟩
    · rw [if_pos (.inl hleaves)] at hfill
      refine iff_of_false ?_ fun hfull => hleaves hfull.1
      rw [World.work_trade] at hfill
      rw [hfill]
      decide
  · rw [if_neg hread, World.work_trade] at hfill
    refine iff_of_false ?_ fun hfull => hread hfull.2
    rw [hfill]
    exact fun hst => hfree (List.mem_cons_of_mem _ (List.mem_cons_of_mem _ hst))

/-- The full fill of the entry order of a reachable trade opens its position, and no later step
leaves it in `orderConfirmed`, exactly when the program takes the fill for complete and no later
update sends the trade back. -/
theorem fillOpens_iff (env : Env) (ss later : List Step) (t : Trade) (s : Step) (data : OrderData)
    (ht : t ∈ (Runs.run (step env) {} ss).db.trades) (h : EntryFilled env t s data) :
    FillOpens env t.id (Runs.run (step env) {} ss) s later ↔ ReadAsFull data ∧
      Runs.Meets (step env) (StaysUnconfirmed env t.id)
        (step env (Runs.run (step env) {} ss) s) later := by
  have hw := wellFormed_run env ss
  have hholds := holdsPosition_iff hw ht (entryKept_run env ss t ht) (stopPrice_run env ss t ht) h
  rw [FillOpens, ← hholds]
  refine and_congr_right fun hopen => ?_
  obtain ⟨r, hr, hid, hst⟩ := hopen
  rw [← hid]
  exact notConfirmed_always h.rest (step_effect env s hw).2 hr (List.mem_append_right _ hst)

/-- An accepted entry order, filled at the exchange and not yet reported. -/
def sentEntryRun : List Step :=
  [.executeSignal demoRequest (demoExecute (.accepted none) (.ok none)),
    .settle (.generated (some 0) 2) .filled]

/-- The complete fill, with `leavesQty` written as `text`. -/
def fillWritten (text : String) : OrderData := { demoEntryFill with leavesQty := some text }

theorem fillOpens_zero : ∃ t ∈ (demoWorld sentEntryRun).db.trades,
    FillOpens (demoEnv .takerAllowed) t.id (demoWorld sentEntryRun)
      (.processOrder (fillWritten "0") (demoHandler 1))
      [.reconcileMissingProtection fun _ => demoHandler 2] := by
  have hfilled : ∃ t ∈ (demoWorld sentEntryRun).db.trades, EntryFilled (demoEnv .takerAllowed) t
      (.processOrder (fillWritten "0") (demoHandler 1)) (fillWritten "0") := by
    decide +kernel
  obtain ⟨t, ht, h⟩ := hfilled
  refine ⟨t, ht, (fillOpens_iff _ sentEntryRun _ t _ _ ht h).mpr ⟨⟨rfl, by decide⟩, ?_, True.intro⟩⟩
  simp [StaysUnconfirmed, Step.update]

/-- The same fill, with its zero written with decimals, leaves the trade in
`orderConfirmed`. -/
theorem fillOpens_fails : ∃ t ∈ (demoWorld sentEntryRun).db.trades,
    EntryFilled (demoEnv .takerAllowed) t (.processOrder (fillWritten "0.000") (demoHandler 1))
      (fillWritten "0.000") ∧
    ¬ FillOpens (demoEnv .takerAllowed) t.id (demoWorld sentEntryRun)
      (.processOrder (fillWritten "0.000") (demoHandler 1))
      [.reconcileMissingProtection fun _ => demoHandler 2] := by
  decide +kernel

end AmaExecutionCore
