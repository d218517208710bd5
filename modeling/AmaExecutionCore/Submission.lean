import AmaExecutionCore.Effects

/-! What `execute` can do once its trade is created: the attempts it makes at the
exchange, and how it leaves the session. -/
namespace AmaExecutionCore
open TradeStatus

/-- One `place_order` call of `_submit_order`. -/
structure Attempt where
  orderType : OrderType
  link : OrderLinkId
  outcome : PlaceOutcome
  deriving DecidableEq, Repr

def entryLink (k : Work) : OrderLinkId :=
  k.trade.orderLinkId.getD (.generated k.trade.signalId (2 * k.nonce))

def fallbackLink (k : Work) : OrderLinkId := .generated k.trade.signalId (2 * k.nonce + 1)

/-- The attempt the outcome of `_submit_order` hangs on. -/
def finalAttempt (mode : OrderMode) (io : ExecuteIo) (k : Work) : Attempt :=
  if mode = .takerAllowed then ⟨.market, entryLink k, io.entry⟩
  else
    match io.entry with
    | .apiError msg =>
      if mode = .makerPreferred ∧ looksLikePostOnlyRejection msg = true then
        ⟨.market, fallbackLink k, io.fallback⟩
      else ⟨.limit, entryLink k, io.entry⟩
    | _ => ⟨.limit, entryLink k, io.entry⟩

/-- The post-only attempt the exchange refused before the market fallback. -/
def refusedAttempts (mode : OrderMode) (io : ExecuteIo) (k : Work) : List Attempt :=
  if mode = .takerAllowed then []
  else
    match io.entry with
    | .apiError msg =>
      if mode = .makerPreferred ∧ looksLikePostOnlyRejection msg = true then
        [⟨.limit, entryLink k, io.entry⟩]
      else []
    | _ => []

def attempts (mode : OrderMode) (io : ExecuteIo) (k : Work) : List Attempt :=
  refusedAttempts mode io k ++ [finalAttempt mode io k]

def attemptRequest (category : MarketType) (req : NormalizedExecuteSignalRequest) (t : Trade)
    (a : Attempt) : OrderRequest :=
  match a.orderType with
  | .market => marketEntryRequest category req (t.qty.getD 0) t.exchangeSide a.link
  | .limit => limitEntryRequest category req (t.qty.getD 0) t.exchangeSide a.link

def attemptOrder (category : MarketType) (req : NormalizedExecuteSignalRequest) (t : Trade)
    (a : Attempt) : SentOrder :=
  .ofCall t.id .entry (attemptRequest category req t a) a.outcome

@[simp] theorem attemptOrder_link (category : MarketType) (req : NormalizedExecuteSignalRequest)
    (t : Trade) (a : Attempt) : (attemptOrder category req t a).linkId = a.link := by
  cases h : a.orderType <;>
    simp [attemptOrder, attemptRequest, SentOrder.ofCall, SentOrder.linkId, h,
      marketEntryRequest, limitEntryRequest]

@[simp] theorem attemptOrder_type (category : MarketType) (req : NormalizedExecuteSignalRequest)
    (t : Trade) (a : Attempt) :
    (attemptOrder category req t a).request.orderType = a.orderType := by
  cases h : a.orderType <;>
    simp [attemptOrder, attemptRequest, SentOrder.ofCall, h, marketEntryRequest, limitEntryRequest]

/-- The submission keeps the columns of the trade but its entry id, order type and
status, and sends the orders `new`. -/
structure Work.Enters (k k' : Work) (status : TradeStatus) (link : Option OrderLinkId)
    (orderType : Option OrderType) (new : List SentOrder) : Prop where
  same : k.trade.SameTerms k'.trade
  exits : k.trade.SameExits k'.trade
  filledQty : k'.trade.filledQty = k.trade.filledQty
  status : k'.trade.status = status
  link : k'.trade.orderLinkId = link
  orderType : k'.trade.orderType = orderType
  nonce : k'.nonce = k.nonce
  cancels : k'.exchange.cancelRequests = k.exchange.cancelRequests
  orders : k'.exchange.orders = k.exchange.orders ++ new

/-- How `execute` leaves the session, by the outcome of the final attempt. -/
inductive Entered (s : Settings) (category : MarketType) (req : NormalizedExecuteSignalRequest)
    (io : ExecuteIo) (k : Work) : Settled → Prop
  | shadow {k'} (hmode : s.tradingMode = .shadow)
      (h : k.Enters k' orderSubmitted k.trade.orderLinkId k.trade.orderType []) :
      Entered s category req io k (.committed none k')
  | accepted {k' orderId a new} (hmode : s.tradingMode ≠ .shadow)
      (ha : a = finalAttempt s.orderMode io k)
      (hnew : new = (attempts s.orderMode io k).map (attemptOrder category req k.trade))
      (ho : a.outcome = .accepted orderId)
      (h : k.Enters k' orderSubmitted (some a.link) (some a.orderType) new) :
      Entered s category req io k (.committed none k')
  | refused {k' msg a new} (hmode : s.tradingMode ≠ .shadow)
      (ha : a = finalAttempt s.orderMode io k)
      (hnew : new = (attempts s.orderMode io k).map (attemptOrder category req k.trade))
      (ho : a.outcome = .apiError msg)
      (h : k.Enters k' orderRejected (some a.link) (some .limit) new) :
      Entered s category req io k (.committed (some (.bybitApiError msg)) k')
  | uncertain {k' status a new reached} (hmode : s.tradingMode ≠ .shadow)
      (ha : a = finalAttempt s.orderMode io k)
      (hnew : new = (attempts s.orderMode io k).map (attemptOrder category req k.trade))
      (ho : a.outcome = .connectionError reached ∨ a.outcome = .timeoutError reached)
      (hcaught : lookupCaught io.lookup = true)
      (hl : status = orderPendingUnknown ∨ ∃ remote, io.lookup = .ok (some remote) ∧
        status = mapRemoteOrderStatus remote.orderStatus)
      (h : k.Enters k' status (some a.link) (some .limit) new) :
      Entered s category req io k (.committed none k')
  | unknown {k' e a new reached} (hmode : s.tradingMode ≠ .shadow)
      (ha : a = finalAttempt s.orderMode io k)
      (hnew : new = (attempts s.orderMode io k).map (attemptOrder category req k.trade))
      (ho : a.outcome = .connectionError reached ∨ a.outcome = .timeoutError reached)
      (hcaught : lookupCaught io.lookup = false)
      (h : k.Enters k' orderPendingUnknown (some a.link) (some .limit) new) :
      Entered s category req io k (.aborted e k')
  | broken {k' a new reached} (hmode : s.tradingMode ≠ .shadow)
      (ha : a = finalAttempt s.orderMode io k)
      (hnew : new = (attempts s.orderMode io k).map (attemptOrder category req k.trade))
      (ho : a.outcome = .otherError reached)
      (h : k.Enters k' safetyChecked (some a.link) (some .limit) new) :
      Entered s category req io k (.aborted .otherError k')

namespace Work.Enters

theorem refl (k : Work) :
    k.Enters k k.trade.status k.trade.orderLinkId k.trade.orderType [] :=
  ⟨.refl _, by constructor <;> rfl, rfl, rfl, rfl, rfl, rfl, rfl, by simp⟩

theorem trans {k k' k'' : Work} {s s' : TradeStatus} {l l' : Option OrderLinkId}
    {ty ty' : Option OrderType} {new new' : List SentOrder} (h : k.Enters k' s l ty new)
    (h' : k'.Enters k'' s' l' ty' new') : k.Enters k'' s' l' ty' (new ++ new') where
  same := h.same.trans h'.same
  exits := ⟨h'.exits.close.trans h.exits.close, h'.exits.stop.trans h.exits.stop,
    h'.exits.takeProfit.trans h.exits.takeProfit⟩
  filledQty := h'.filledQty.trans h.filledQty
  status := h'.status
  link := h'.link
  orderType := h'.orderType
  nonce := h'.nonce.trans h.nonce
  cancels := h'.cancels.trans h.cancels
  orders := by rw [h'.orders, h.orders, List.append_assoc]

/-- A step that leaves the entry id and the order type, after one that set them. -/
theorem keeps {k k' k'' : Work} {s s' : TradeStatus} {l ty new} (h : k.Enters k' s l ty new)
    (h' : k'.Enters k'' s' k'.trade.orderLinkId k'.trade.orderType []) :
    k.Enters k'' s' l ty new := by
  have := h.trans h'
  rwa [h.link, h.orderType, List.append_nil] at this

theorem onTrade (f : Trade → Trade) (k : Work) (h : k.trade.SameTerms (f k.trade))
    (hx : k.trade.SameExits (f k.trade)) (hq : (f k.trade).filledQty = k.trade.filledQty) :
    k.Enters (k.onTrade f) (f k.trade).status (f k.trade).orderLinkId (f k.trade).orderType [] :=
  ⟨h, hx, hq, rfl, rfl, rfl, rfl, rfl, by simp⟩

theorem transition (s : TradeStatus) (m : List (String × String)) (k : Work) :
    k.Enters (k.transitionTradeStatus s m) s k.trade.orderLinkId k.trade.orderType [] :=
  ⟨by constructor <;> simp, by constructor <;> simp, by simp, by simp, by simp, by simp, by simp,
    by simp, by simp⟩

theorem placeOrder (q : OrderRequest) (o : PlaceOutcome) (k : Work) :
    k.Enters (k.placeOrder .entry q o) k.trade.status k.trade.orderLinkId k.trade.orderType
      [.ofCall k.trade.id .entry q o] :=
  ⟨.refl _, by constructor <;> rfl, rfl, rfl, rfl, rfl, rfl, rfl, rfl⟩

end Work.Enters

theorem submitOrder_attempted (mode : OrderMode) (category : MarketType)
    (req : NormalizedExecuteSignalRequest) (io : ExecuteIo) (k : Work)
    (hlink : k.trade.orderLinkId = some (entryLink k)) :
    ∃ k₁, k.Enters k₁ k.trade.status (some (finalAttempt mode io k).link) k.trade.orderType
        ((attempts mode io k).map (attemptOrder category req k.trade)) ∧
      submitOrder mode category req io k = match (finalAttempt mode io k).outcome.result with
        | .ok orderId => (.ok (), noteSubmitted (finalAttempt mode io k).orderType
            ((finalAttempt mode io k).orderType = .limit) orderId k₁)
        | .error e => (.error e, k₁) := by
  have hget : k.trade.orderLinkId.getD (.generated k.trade.signalId (2 * k.nonce)) = entryLink k :=
    rfl
  have hfirst : ∀ q o, k.Enters (k.placeOrder .entry q o) k.trade.status (some (entryLink k))
      k.trade.orderType [.ofCall k.trade.id .entry q o] := by
    intro q o
    have h := Work.Enters.placeOrder q o k
    rwa [hlink] at h
  by_cases hmode : mode = .takerAllowed
  · refine ⟨k.placeOrder .entry (marketEntryRequest category req (k.trade.qty.getD 0)
      k.trade.exchangeSide (entryLink k)) io.entry, ?_, ?_⟩
    · simpa [hmode, finalAttempt, attempts, refusedAttempts, attemptOrder, attemptRequest]
        using hfirst _ _
    · simp only [submitOrder, hmode, hget, finalAttempt, submitMarket, if_true]
      cases io.entry.result <;> rfl
  · have hlimit := hfirst (limitEntryRequest category req (k.trade.qty.getD 0)
      k.trade.exchangeSide (entryLink k)) io.entry
    by_cases hfall : ∃ msg, io.entry = .apiError msg ∧ mode = .makerPreferred ∧
        looksLikePostOnlyRejection msg = true
    · obtain ⟨msg, hentry, hpref, hlooks⟩ := hfall
      refine ⟨((k.placeOrder .entry (limitEntryRequest category req (k.trade.qty.getD 0)
        k.trade.exchangeSide (entryLink k)) io.entry).onTrade fun t =>
          { t with orderLinkId := some (fallbackLink k) }).placeOrder .entry
          (marketEntryRequest category req (k.trade.qty.getD 0) k.trade.exchangeSide
            (fallbackLink k)) io.fallback, ?_, ?_⟩
      · have hrelink := Work.Enters.onTrade (fun t => { t with orderLinkId := some (fallbackLink k) })
          (k.placeOrder .entry (limitEntryRequest category req (k.trade.qty.getD 0)
            k.trade.exchangeSide (entryLink k)) io.entry) (by constructor <;> rfl)
          (by constructor <;> rfl) rfl
        have h := (hlimit.trans hrelink).trans (.placeOrder (marketEntryRequest category req
          (k.trade.qty.getD 0) k.trade.exchangeSide (fallbackLink k)) io.fallback _)
        simpa [hpref, hentry, hlooks, finalAttempt, attempts, refusedAttempts, attemptOrder,
          attemptRequest] using h
      · subst hpref
        simp only [submitOrder, hget, finalAttempt, hentry, hlooks, submitMarket, reduceCtorEq,
          if_false, and_self, if_true]
        cases io.fallback.result <;> rfl
    · have hfinal : finalAttempt mode io k = ⟨.limit, entryLink k, io.entry⟩ := by
        unfold finalAttempt
        rw [if_neg hmode]
        split
        · next msg hentry => rw [if_neg fun h => hfall ⟨msg, hentry, h⟩, hentry]
        · rfl
      have hrefused : refusedAttempts mode io k = [] := by
        unfold refusedAttempts
        rw [if_neg hmode]
        split
        · next msg hentry => rw [if_neg fun h => hfall ⟨msg, hentry, h⟩]
        · rfl
      refine ⟨k.placeOrder .entry (limitEntryRequest category req (k.trade.qty.getD 0)
        k.trade.exchangeSide (entryLink k)) io.entry, ?_, ?_⟩
      · rw [attempts, hrefused, hfinal]
        simpa [attemptOrder, attemptRequest] using hlimit
      · rw [hfinal]
        simp only [submitOrder, if_neg hmode, hget]
        cases hentry : io.entry with
        | apiError msg =>
          simp only [PlaceOutcome.result]
          rw [if_neg fun h => hfall ⟨msg, hentry, h⟩]
        | accepted orderId => rfl
        | connectionError reached => rfl
        | timeoutError reached => rfl
        | otherError reached => rfl

theorem noteSubmitted_enters (orderType : OrderType) (isPostOnly : Bool) (orderId : Option String)
    (k : Work) : k.Enters (noteSubmitted orderType isPostOnly orderId k) orderSubmitted
      k.trade.orderLinkId (some orderType) [] := by
  have hnote := Work.Enters.onTrade (fun t => { t with
    orderType := some orderType, isPostOnly := isPostOnly, exchangeOrderId := orderId }) k
    (by constructor <;> rfl) (by constructor <;> rfl) rfl
  exact hnote.trans (.transition _ _ _)

theorem finalAttempt_congr {k k' : Work} (hlink : entryLink k' = entryLink k)
    (hfall : fallbackLink k' = fallbackLink k) (mode : OrderMode) (io : ExecuteIo) :
    finalAttempt mode io k' = finalAttempt mode io k := by
  simp only [finalAttempt, hlink, hfall]

theorem attemptOrder_congr {t t' : Trade} (hid : t'.id = t.id) (hqty : t'.qty = t.qty)
    (hside : t'.exchangeSide = t.exchangeSide) (category : MarketType)
    (req : NormalizedExecuteSignalRequest) :
    attemptOrder category req t' = attemptOrder category req t := by
  funext a
  simp only [attemptOrder, attemptRequest, hid, hqty, hside]

theorem attempts_congr {k k' : Work} (hlink : entryLink k' = entryLink k)
    (hfall : fallbackLink k' = fallbackLink k) (mode : OrderMode) (io : ExecuteIo) :
    attempts mode io k' = attempts mode io k := by
  simp only [attempts, refusedAttempts, hlink, finalAttempt_congr hlink hfall]

theorem noteRemoteStatus_enters (remote : OrderData) (k : Work) :
    k.Enters (noteRemoteStatus remote k) (mapRemoteOrderStatus remote.orderStatus)
      k.trade.orderLinkId k.trade.orderType [] := by
  have hnote := Work.Enters.onTrade (fun t => { t with exchangeOrderId := remote.orderId }) k
    (by constructor <;> rfl) (by constructor <;> rfl) rfl
  exact hnote.keeps (.transition _ _ _)

/-- What the lookup after an uncertain submission does. -/
theorem handleSubmitUncertainty_cases (lookup : StatusOutcome) {k : Work}
    (hlink : k.trade.orderLinkId ≠ none) :
    (∃ e k', handleSubmitUncertainty lookup k = .aborted e k' ∧ lookupCaught lookup = false ∧
      k.Enters k' orderPendingUnknown k.trade.orderLinkId k.trade.orderType []) ∨
    ∃ k' status, handleSubmitUncertainty lookup k = .committed none k' ∧
      lookupCaught lookup = true ∧
      (status = orderPendingUnknown ∨ ∃ remote, lookup = .ok (some remote) ∧
        status = mapRemoteOrderStatus remote.orderStatus) ∧
      k.Enters k' status k.trade.orderLinkId k.trade.orderType [] := by
  have hpend := Work.Enters.transition .orderPendingUnknown
    (orderExecutor ++ [("reason", "submit_uncertain")]) k
  unfold handleSubmitUncertainty
  generalize k.transitionTradeStatus .orderPendingUnknown
    (orderExecutor ++ [("reason", "submit_uncertain")]) = k₁ at hpend
  rcases reconcilePendingUnknown_cases lookup k₁ with ⟨e, h, -, hl⟩ | ⟨h, hl⟩ | ⟨remote, hl, h⟩
  · exact .inl ⟨e, k₁, by rw [h], hl, hpend⟩
  · have hcaught := hl.resolve_left (by rw [hpend.link]; exact hlink)
    exact .inr ⟨k₁, orderPendingUnknown, by rw [h], hcaught, .inl rfl, hpend⟩
  · exact .inr ⟨noteRemoteStatus remote k₁, mapRemoteOrderStatus remote.orderStatus, by rw [h],
      by rw [hl]; rfl, .inr ⟨remote, hl, rfl⟩, hpend.keeps (noteRemoteStatus_enters remote k₁)⟩

theorem settleEntry_entered (s : Settings) (category : MarketType)
    (req : NormalizedExecuteSignalRequest) (io : ExecuteIo) (k : Work)
    (hlink : k.trade.orderLinkId = some (entryLink k)) :
    Entered s category req io k (settleEntry s category req io k) := by
  unfold settleEntry
  split_ifs with hmode
  · exact .shadow hmode (.transition _ _ _)
  · have hpre : k.Enters ((k.transitionTradeStatus .safetyChecked orderExecutor).onTrade
        fun t => { t with orderType := some .limit }) safetyChecked k.trade.orderLinkId
        (some .limit) [] := by
      have hset := Work.Enters.onTrade (fun t => { t with orderType := some .limit })
        (k.transitionTradeStatus .safetyChecked orderExecutor) (by constructor <;> rfl)
        (by constructor <;> rfl) rfl
      simpa using (Work.Enters.transition .safetyChecked orderExecutor k).trans hset
    dsimp only
    generalize (k.transitionTradeStatus .safetyChecked orderExecutor).onTrade
      (fun t => { t with orderType := some .limit }) = k₂ at hpre
    have hentry : entryLink k₂ = entryLink k := by
      simp only [entryLink, hpre.link, hpre.nonce, hpre.same.signalId]
    have hfall : fallbackLink k₂ = fallbackLink k := by
      simp only [fallbackLink, hpre.nonce, hpre.same.signalId]
    obtain ⟨k₁, h₁, hsubmit⟩ := submitOrder_attempted s.orderMode category req io k₂
      (by rw [hpre.link, hlink, hentry])
    rw [finalAttempt_congr hentry hfall] at h₁ hsubmit
    rw [attempts_congr hentry hfall] at h₁
    rw [attemptOrder_congr hpre.same.id hpre.same.qty hpre.same.exchangeSide, hpre.orderType] at h₁
    have hsent := hpre.trans h₁
    rw [List.nil_append] at hsent
    have hset : k₁.trade.orderLinkId ≠ none := by rw [hsent.link]; exact Option.some_ne_none _
    rw [hsubmit]
    cases ho : (finalAttempt s.orderMode io k).outcome with
    | accepted orderId =>
      have hsub := noteSubmitted_enters (finalAttempt s.orderMode io k).orderType
        ((finalAttempt s.orderMode io k).orderType = .limit) orderId k₁
      refine .accepted hmode rfl rfl ho ?_
      have := hsent.trans hsub
      rwa [hsent.link, List.append_nil] at this
    | apiError msg => exact .refused hmode rfl rfl ho (hsent.keeps (.transition _ _ _))
    | connectionError reached =>
      rcases handleSubmitUncertainty_cases io.lookup hset with
        ⟨e, k', hres, hcaught, h⟩ | ⟨k', status, hres, hcaught, hl, h⟩
      · simp only [PlaceOutcome.result, hres]
        exact .unknown hmode rfl rfl (.inl ho) hcaught (hsent.keeps h)
      · simp only [PlaceOutcome.result, hres]
        exact .uncertain hmode rfl rfl (.inl ho) hcaught hl (hsent.keeps h)
    | timeoutError reached =>
      rcases handleSubmitUncertainty_cases io.lookup hset with
        ⟨e, k', hres, hcaught, h⟩ | ⟨k', status, hres, hcaught, hl, h⟩
      · simp only [PlaceOutcome.result, hres]
        exact .unknown hmode rfl rfl (.inr ho) hcaught (hsent.keeps h)
      · simp only [PlaceOutcome.result, hres]
        exact .uncertain hmode rfl rfl (.inr ho) hcaught hl (hsent.keeps h)
    | otherError reached =>
      refine .broken hmode rfl rfl ho ?_
      rwa [hpre.status] at hsent

theorem finalAttempt_link (mode : OrderMode) (io : ExecuteIo) (k : Work) :
    (finalAttempt mode io k).link = entryLink k ∨ (finalAttempt mode io k).link = fallbackLink k := by
  unfold finalAttempt
  split_ifs
  · exact .inl rfl
  · split
    · split_ifs
      · exact .inr rfl
      · exact .inl rfl
    · exact .inl rfl

/-- However `execute` leaves the session, the trade keeps its terms and gets one of its
two entry ids, and only entry orders of the trade were sent. -/
theorem Entered.enters {s : Settings} {category : MarketType}
    {req : NormalizedExecuteSignalRequest} {io : ExecuteIo} {k : Work} {r : Settled}
    (h : Entered s category req io k r) (hlink : k.trade.orderLinkId = some (entryLink k)) :
    ∃ status link ty new, k.Enters r.work status (some link) ty new ∧
      (link = entryLink k ∨ link = fallbackLink k) ∧
      ∀ o ∈ new, o.trade = k.trade.id ∧ o.role = .entry := by
  have hsent : ∀ o ∈ (attempts s.orderMode io k).map (attemptOrder category req k.trade),
      o.trade = k.trade.id ∧ o.role = .entry := by
    intro o ho
    obtain ⟨a, -, rfl⟩ := List.mem_map.mp ho
    exact ⟨rfl, rfl⟩
  cases h with
  | shadow _ h => exact ⟨_, _, _, _, hlink ▸ h, .inl rfl, by simp⟩
  | accepted _ ha hnew _ h =>
    subst ha hnew
    exact ⟨_, _, _, _, h, finalAttempt_link _ _ _, hsent⟩
  | refused _ ha hnew _ h =>
    subst ha hnew
    exact ⟨_, _, _, _, h, finalAttempt_link _ _ _, hsent⟩
  | uncertain _ ha hnew _ _ _ h =>
    subst ha hnew
    exact ⟨_, _, _, _, h, finalAttempt_link _ _ _, hsent⟩
  | unknown _ ha hnew _ _ h =>
    subst ha hnew
    exact ⟨_, _, _, _, h, finalAttempt_link _ _ _, hsent⟩
  | broken _ ha hnew _ h =>
    subst ha hnew
    exact ⟨_, _, _, _, h, finalAttempt_link _ _ _, hsent⟩

theorem Entered.orders {s : Settings} {category : MarketType}
    {req : NormalizedExecuteSignalRequest} {io : ExecuteIo} {k : Work} {r : Settled}
    (h : Entered s category req io k r) : r.work.exchange.orders = k.exchange.orders ++
      if s.tradingMode = .shadow then []
      else (attempts s.orderMode io k).map (attemptOrder category req k.trade) := by
  cases h with
  | shadow hmode h => rw [if_pos hmode]; exact h.orders
  | accepted hmode _ hnew _ h => rw [if_neg hmode, ← hnew]; exact h.orders
  | refused hmode _ hnew _ h => rw [if_neg hmode, ← hnew]; exact h.orders
  | uncertain hmode _ hnew _ _ _ h => rw [if_neg hmode, ← hnew]; exact h.orders
  | unknown hmode _ hnew _ _ h => rw [if_neg hmode, ← hnew]; exact h.orders
  | broken hmode _ hnew _ h => rw [if_neg hmode, ← hnew]; exact h.orders

theorem refusedAttempts_outcome {mode : OrderMode} {io : ExecuteIo} {k : Work} {a : Attempt}
    (h : a ∈ refusedAttempts mode io k) : a.outcome.mayBeAccepted = false := by
  unfold refusedAttempts at h
  split_ifs at h
  · cases h
  · split at h
    · next msg hentry =>
      split_ifs at h
      · rw [List.mem_singleton.mp h]
        simp [hentry, PlaceOutcome.mayBeAccepted]
      · cases h
    · cases h

theorem PlaceOutcome.mayBeAccepted_of_reached {o : PlaceOutcome} (h : o.reached = true) :
    o.mayBeAccepted = true := by
  cases o <;> simp_all [PlaceOutcome.reached, PlaceOutcome.mayBeAccepted]

theorem eq_finalAttempt_of_reached {mode : OrderMode} {io : ExecuteIo} {k : Work} {a : Attempt}
    (h : a ∈ attempts mode io k) (hr : a.outcome.reached = true) : a = finalAttempt mode io k := by
  rcases List.mem_append.mp h with h | h
  · have := refusedAttempts_outcome h
    rw [PlaceOutcome.mayBeAccepted_of_reached hr] at this
    cases this
  · exact List.mem_singleton.mp h

theorem attemptOrder_refused (category : MarketType) (req : NormalizedExecuteSignalRequest)
    (t : Trade) (a : Attempt) :
    (attemptOrder category req t a).state = .refused ↔ a.outcome.reached = false := by
  cases h : a.outcome.reached <;> simp [attemptOrder, SentOrder.ofCall, h]

/-- The checks on the numbers of a request, with what they returned. -/
structure SizeChecked (s : Settings) (category : MarketType) (req : NormalizedExecuteSignalRequest)
    (io : ExecuteIo) (balances : List (String × Rat)) (qtyRaw : Rat) (plan : EntryPlan) : Prop where
  equity : fetchEquity s io = .ok (plan.equity, balances)
  riskPct : plan.riskPct = effectiveRiskPerTradePct s
  sized : calculatePositionRaw plan.equity req.entry req.stop plan.riskPct = .ok qtyRaw
  rewarded : checkRrr req.entry req.stop req.target s.minRrr = .ok true
  constrained : constrainQty s category req io balances qtyRaw = .ok plan.qty

/-- A plan has passed the checks on its numbers, and leaves room for a position. -/
theorem planEntry_stages {s : Settings} {category : MarketType} {req : NormalizedExecuteSignalRequest}
    {io : ExecuteIo} {db : Db} {plan : EntryPlan} (h : planEntry s category req io db = .ok plan) :
    (∃ balances qtyRaw, SizeChecked s category req io balances qtyRaw plan) ∧
      openPositionCount db < s.maxOpenPositions ∧ exposureWithinLimit s plan.equity db = true := by
  unfold planEntry at h
  split at h
  · cases h
  · next equity balances hequity =>
    split at h
    · cases h
    · next qtyRaw hsized =>
      split at h
      · cases h
      · cases h
      · next hrewarded =>
        split at h
        · cases h
        · next qty hconstrained =>
          split_ifs at h with hcount hexposure
          obtain rfl := Except.ok.inj h
          exact ⟨⟨balances, qtyRaw, hequity, rfl, hsized, hrewarded, hconstrained⟩,
            not_le.mp hcount, by simpa using hexposure⟩

theorem SizeChecked.positive {s : Settings} {category : MarketType}
    {req : NormalizedExecuteSignalRequest} {io : ExecuteIo} {balances : List (String × Rat)}
    {qtyRaw : Rat} {plan : EntryPlan} (h : SizeChecked s category req io balances qtyRaw plan) :
    0 < plan.equity ∧ 0 < plan.riskPct := by
  have hsized := h.sized
  unfold calculatePositionRaw at hsized
  split_ifs at hsized with hequity hrisk
  exact ⟨not_le.mp hequity, not_le.mp hrisk⟩

theorem planEntry_ok {s : Settings} {category : MarketType} {req : NormalizedExecuteSignalRequest}
    {io : ExecuteIo} {db : Db} {plan : EntryPlan} (h : planEntry s category req io db = .ok plan) :
    (∃ balances, fetchEquity s io = .ok (plan.equity, balances)) ∧ 0 < plan.equity ∧
      plan.riskPct = effectiveRiskPerTradePct s ∧ 0 < plan.riskPct ∧
      openPositionCount db < s.maxOpenPositions ∧
      exposureWithinLimit s plan.equity db = true := by
  obtain ⟨⟨balances, qtyRaw, hchecked⟩, hcount, hexposure⟩ := planEntry_stages h
  obtain ⟨hequity, hrisk⟩ := hchecked.positive
  exact ⟨⟨balances, hchecked.equity⟩, hequity, hchecked.riskPct, hrisk, hcount, hexposure⟩

theorem checkEntry_ok {s : Settings} {category : MarketType} {req : NormalizedExecuteSignalRequest}
    {io : ExecuteIo} {signalId : SignalId} {db : Db} {plan : EntryPlan}
    (h : checkEntry s category req io signalId db = .ok plan) :
    planEntry s category req io db = .ok plan := by
  unfold checkEntry at h
  split at h
  · cases h
  · split_ifs at h
    split at h
    · cases h
    · next hplan =>
      obtain rfl := Except.ok.inj h
      exact hplan

end AmaExecutionCore
