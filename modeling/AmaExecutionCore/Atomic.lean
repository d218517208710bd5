import AmaExecutionCore.Passes

/-! Atomic reconcile passes: a trade whose answer raises is left as it was, and every
other trade ends as if it had been reconciled alone. -/
namespace AmaExecutionCore
open TradeStatus

/-- The trade reconciled alone, in a session that draws its ids from `n`. -/
def Step.alone (env : Env) (w : World) (t : Trade) (n : Nat) (s : Step) : Outcome Work Bool :=
  s.handle env t { w.work t with nonce := n }

/-- What an atomic pass from `w` to `w'` leaves of the trade whose session ended so. -/
def LeftAtomic (w w' : World) (t : Trade) : Outcome Work Bool → Prop
  | (.error _, _) => t ∈ w'.db.trades ∧ w'.db.eventsOf t.id = w.db.eventsOf t.id
  | (.ok _, k) => k.trade ∈ w'.db.trades ∧
      w'.db.eventsOf t.id = w.db.eventsOf t.id ++ k.events

instance (w w' : World) (t : Trade) : (r : Outcome Work Bool) → Decidable (LeftAtomic w w' t r)
  | (.error _, _) => inferInstanceAs (Decidable (t ∈ w'.db.trades ∧
      w'.db.eventsOf t.id = w.db.eventsOf t.id))
  | (.ok _, k) => inferInstanceAs (Decidable (k.trade ∈ w'.db.trades ∧
      w'.db.eventsOf t.id = w.db.eventsOf t.id ++ k.events))

def AtomicPass (env : Env) (w : World) (s : Step) : Prop :=
  ∀ t ∈ s.listed env w.db, ∃ n < (step env w s).issued, w.issued ≤ n ∧
    LeftAtomic w (step env w s) t (s.alone env w t n)

instance (env : Env) (w : World) (s : Step) : Decidable (AtomicPass env w s) :=
  inferInstanceAs (Decidable (∀ t ∈ s.listed env w.db, ∃ n < (step env w s).issued,
    w.issued ≤ n ∧ LeftAtomic w (step env w s) t (s.alone env w t n)))

/-- An entry fill with a number that cannot be read, after something on the row was
written: the exchange's order id, or the price when only the quantity is malformed. -/
def EntryHalfWritten (data : OrderData) (t : Trade) : Prop :=
  shouldIgnoreEntryUpdate t .orderConfirmed (data.leavesQty = some "0") = false ∧
    (data.avgPrice = some .malformed ∨ data.cumExecQty = some .malformed) ∧
    ((data.orderId ≠ none ∧ t.exchangeOrderId ≠ data.orderId) ∨
      (data.avgPrice ≠ none ∧ data.avgPrice ≠ some .malformed ∧
        data.avgPrice ≠ t.avgFillPrice.map .decimal))

instance (data : OrderData) (t : Trade) : Decidable (EntryHalfWritten data t) :=
  inferInstanceAs (Decidable (
    shouldIgnoreEntryUpdate t .orderConfirmed (data.leavesQty = some "0") = false ∧
    (data.avgPrice = some .malformed ∨ data.cumExecQty = some .malformed) ∧
    ((data.orderId ≠ none ∧ t.exchangeOrderId ≠ data.orderId) ∨
      (data.avgPrice ≠ none ∧ data.avgPrice ≠ some .malformed ∧
        data.avgPrice ≠ t.avgFillPrice.map .decimal))))

/-- An exit fill whose price cannot be read, after its first status was flushed. -/
def ExitHalfWritten (data : OrderData) (t : Trade) : Prop :=
  t.status ≠ pnlRecorded ∧ data.avgPrice = some .malformed

instance (data : OrderData) (t : Trade) : Decidable (ExitHalfWritten data t) :=
  inferInstanceAs (Decidable (t.status ≠ pnlRecorded ∧ data.avgPrice = some .malformed))

/-- The update raises after it has changed the row or written an event. -/
def HalfWritten (data : OrderData) (t : Trade) : Prop :=
  data.orderStatus = .filled ∧ ∃ link ∈ data.orderLinkId,
    if t.isProtectiveClose link then ExitHalfWritten data t else EntryHalfWritten data t

instance (data : OrderData) (t : Trade) : Decidable (HalfWritten data t) :=
  inferInstanceAs (Decidable (data.orderStatus = .filled ∧ ∃ link ∈ data.orderLinkId,
    if t.isProtectiveClose link then ExitHalfWritten data t else EntryHalfWritten data t))

/-- No answer of the pass raises in the middle of an update. -/
def AnswersWhole (env : Env) (w : World) (s : Step) : Prop :=
  ∀ t ∈ w.db.trades, ∀ u ∈ s.update env t, ¬ HalfWritten u.1 t

instance (env : Env) (w : World) (s : Step) : Decidable (AnswersWhole env w s) :=
  inferInstanceAs (Decidable (∀ t ∈ w.db.trades, ∀ u ∈ s.update env t, ¬ HalfWritten u.1 t))

section
variable {env : Env} {s : Step} {w : World} {t : Trade}

theorem mem_listed_of_update (hs : s.isPass = true) (ht : t ∈ w.db.trades)
    {u : OrderData × HandlerIo} (hu : s.update env t = some u) : t ∈ s.listed env w.db := by
  cases s <;> simp only [Step.isPass, Bool.false_eq_true] at hs
  all_goals simp only [Step.update] at hu
  · split_ifs at hu with h
    rw [Step.listed, if_pos h.1]
    exact List.mem_filter.mpr ⟨ht, by simpa using h.2⟩
  · split_ifs at hu with h
    rw [Step.listed, if_pos h.1]
    exact List.mem_filter.mpr ⟨ht, by simpa using h.2⟩
  · cases hu

theorem trackedOrderLinkId_entry (h : t.status ∈ entryReconciliationStatuses) :
    t.trackedOrderLinkId = t.orderLinkId := by
  have hne : t.status ∉ closeReconciliationStatuses := by
    simp only [entryReconciliationStatuses, List.mem_cons, List.not_mem_nil, or_false] at h
    obtain h | h := h <;> simp [h, closeReconciliationStatuses]
  rw [Trade.trackedOrderLinkId, if_neg hne, if_pos h]

theorem trackedOrderLinkId_close (h : t.status ∈ closeReconciliationStatuses) :
    t.trackedOrderLinkId = t.closeOrderLinkId := by
  rw [Trade.trackedOrderLinkId, if_pos h]

theorem reconcileTrade_answered {restClient : Bool} {answer : StatusOutcome} {io : HandlerIo}
    {k : Work} {data : OrderData} (hrest : restClient = true)
    (h : answered k.trade.trackedOrderLinkId answer = some data) :
    reconcileTrade restClient answer io k = applyOrderUpdate restClient io data k := by
  unfold answered at h
  split at h
  · next tracked remote htracked =>
    obtain rfl := Option.some.inj h
    simp [reconcileTrade, hrest, htracked, reconciledData]
  · cases h

theorem handle_update {data : OrderData} {io : HandlerIo} (hs : s.isPass = true)
    (hu : s.update env t = some (data, io)) {k : Work} (hk : k.trade = t) :
    s.handle env t k = applyOrderUpdate env.restClient io data k := by
  subst hk
  cases s <;> simp only [Step.isPass, Bool.false_eq_true] at hs
  all_goals simp only [Step.update] at hu
  · split_ifs at hu with h
    obtain ⟨data', hans, heq⟩ := Option.map_eq_some_iff.mp hu
    obtain ⟨rfl, rfl⟩ := Prod.mk.inj heq
    rw [← trackedOrderLinkId_entry h.2] at hans
    exact reconcileTrade_answered h.1 hans
  · split_ifs at hu with h
    obtain ⟨data', hans, heq⟩ := Option.map_eq_some_iff.mp hu
    obtain ⟨rfl, rfl⟩ := Prod.mk.inj heq
    rw [← trackedOrderLinkId_close h.2] at hans
    exact reconcileTrade_answered h.1 hans
  · cases hu

theorem handle_raised {k k' : Work} {e : PyError} (hs : s.isPass = true)
    (ht : t ∈ s.listed env w.db) (hk : k.trade = t) (h : s.handle env t k = (.error e, k')) :
    k' = k ∨ ∃ u, s.update env t = some u := by
  subst hk
  cases s <;> simp only [Step.isPass, Bool.false_eq_true] at hs
  all_goals simp only [Step.listed] at ht
  all_goals split_ifs at ht with hrest
  any_goals exact absurd ht List.not_mem_nil
  all_goals simp only [Step.handle] at h
  · next answer io =>
    have hst : k.trade.status ∈ entryReconciliationStatuses := by
      simpa using (List.mem_filter.mp ht).2
    obtain hsame | ⟨tracked, remote, -, htracked, hans, -⟩ :=
      reconcileTrade_cases env.restClient (answer k.trade.id) (io k.trade.id) k
    · exact .inl (by rw [h] at hsame; exact hsame)
    · exact .inr ⟨_, reconcileEntry_update k.trade tracked remote hrest hst htracked hans⟩
  · next answer io =>
    have hst : k.trade.status ∈ closeReconciliationStatuses := by
      simpa using (List.mem_filter.mp ht).2
    obtain hsame | ⟨tracked, remote, -, htracked, hans, -⟩ :=
      reconcileTrade_cases env.restClient (answer k.trade.id) (io k.trade.id) k
    · exact .inl (by rw [h] at hsame; exact hsame)
    · exact .inr ⟨_, reconcileClose_update k.trade tracked remote hrest hst htracked hans⟩
  · simp at h

theorem status_of_listed {u : OrderData × HandlerIo} (hs : s.isPass = true)
    (hu : s.update env t = some u) : t.status ≠ orderConfirmed ∧ t.status ≠ pnlRecorded := by
  cases s <;> simp only [Step.isPass, Bool.false_eq_true] at hs
  all_goals simp only [Step.update] at hu
  · split_ifs at hu with h
    simp only [entryReconciliationStatuses, List.mem_cons, List.not_mem_nil, or_false] at h
    obtain h | h := h.2 <;> simp [h]
  · split_ifs at hu with h
    simp only [closeReconciliationStatuses, List.mem_cons, List.not_mem_nil, or_false] at h
    simp [h.2]
  · cases hu

end

theorem HalfWritten.of_link {data : OrderData} {t : Trade} {link : OrderLinkId}
    (hlink : data.orderLinkId = some link) (hs : data.orderStatus = .filled) : HalfWritten data t ↔
      if t.isProtectiveClose link then ExitHalfWritten data t else EntryHalfWritten data t := by
  simp [HalfWritten, hlink, hs]

/-- The columns an entry fill writes before it can raise stay as they are exactly when
the payload brings nothing new for them. -/
theorem entryWrites_eq_iff {data : OrderData} {t : Trade} {avg : Option Rat}
    (havg : (data.avgPrice = some .malformed ∧ avg = none) ∨ parseOptional data.avgPrice = .ok avg) :
    { t with exchangeOrderId := data.orderId <|> t.exchangeOrderId
             avgFillPrice := avg <|> t.avgFillPrice } = t ↔
      ¬ ((data.orderId ≠ none ∧ t.exchangeOrderId ≠ data.orderId) ∨
        (data.avgPrice ≠ none ∧ data.avgPrice ≠ some .malformed ∧
          data.avgPrice ≠ t.avgFillPrice.map .decimal)) := by
  have hsplit : ∀ a b, { t with exchangeOrderId := a, avgFillPrice := b } = t ↔
      a = t.exchangeOrderId ∧ b = t.avgFillPrice := by
    intro a b
    refine ⟨fun h => ⟨(congrArg Trade.exchangeOrderId h), (congrArg Trade.avgFillPrice h)⟩, ?_⟩
    rintro ⟨rfl, rfl⟩
    rfl
  have horder : (data.orderId <|> t.exchangeOrderId) = t.exchangeOrderId ↔
      ¬ (data.orderId ≠ none ∧ t.exchangeOrderId ≠ data.orderId) := by
    cases data.orderId with
    | none => simp
    | some x => simp [eq_comm]
  have hprice : (avg <|> t.avgFillPrice) = t.avgFillPrice ↔
      ¬ (data.avgPrice ≠ none ∧ data.avgPrice ≠ some .malformed ∧
        data.avgPrice ≠ t.avgFillPrice.map .decimal) := by
    obtain ⟨hbad, rfl⟩ | hparse := havg
    · simp [hbad]
    · match hp : data.avgPrice with
      | none =>
        rw [hp] at hparse
        obtain rfl := Except.ok.inj hparse
        simp
      | some (.decimal q) =>
        rw [hp] at hparse
        obtain rfl := Except.ok.inj hparse
        cases t.avgFillPrice <;> simp [eq_comm]
      | some .malformed =>
        rw [hp] at hparse
        cases hparse
  rw [hsplit, horder, hprice, not_or]

/-- An update that raised left the session as it was exactly when it was not half written. -/
theorem raised_unchanged_iff {restClient : Bool} {io : HandlerIo} {data : OrderData} {k k' : Work}
    {e : PyError} (hk : k.events = []) (hst : k.trade.status ≠ orderConfirmed)
    (h : applyOrderUpdate restClient io data k = (.error e, k')) :
    (k'.trade = k.trade ∧ k'.events = []) ↔ ¬ HalfWritten data k.trade := by
  obtain ⟨link, hlink, hs, ⟨hrole, hopen, hprice, rfl⟩ | ⟨hrole, hkeep, hwhere⟩⟩ :=
    applyOrderUpdate_raised h
  · rw [HalfWritten.of_link hlink hs, if_pos hrole]
    refine iff_of_false ?_ fun hhalf => hhalf ⟨hopen, hprice⟩
    rintro ⟨htrade, -⟩
    have hconf := congrArg Trade.status htrade
    rw [Work.transition_trade] at hconf
    exact hst hconf.symm
  · have hleft : ∃ avg, ((data.avgPrice = some .malformed ∧ avg = none) ∨
        parseOptional data.avgPrice = .ok avg) ∧ k'.events = [] ∧
        (data.avgPrice = some .malformed ∨ data.cumExecQty = some .malformed) ∧
        k'.trade = { k.trade with exchangeOrderId := data.orderId <|> k.trade.exchangeOrderId
                                  avgFillPrice := avg <|> k.trade.avgFillPrice } := by
      obtain ⟨hbad, rfl⟩ | ⟨avg, hcum, havg, rfl⟩ := hwhere
      · refine ⟨none, .inl ⟨hbad, rfl⟩, hk, .inl hbad, ?_⟩
        rw [Work.onTrade_trade, noteExchangeOrderId_entry hrole]
        rfl
      · refine ⟨avg, .inr havg, hk, .inr hcum, ?_⟩
        rw [Work.onTrade_trade, Work.onTrade_trade, noteExchangeOrderId_entry hrole]
        rfl
    obtain ⟨avg, havg, hevents, hnumber, htrade⟩ := hleft
    rw [HalfWritten.of_link hlink hs, if_neg (by simp [hrole]), EntryHalfWritten, htrade,
      entryWrites_eq_iff havg]
    simp [hevents, hkeep, hnumber]

theorem HalfWritten.raises {restClient : Bool} {io : HandlerIo} {data : OrderData} {k : Work}
    (h : HalfWritten data k.trade) :
    ∃ e k', applyOrderUpdate restClient io data k = (.error e, k') := by
  obtain ⟨hs, link, hlink, hhalf⟩ := h
  refine applyOrderUpdate_malformed hlink hs ?_
  split_ifs at hhalf with hrole
  · exact .inl ⟨hrole, hhalf⟩
  · exact .inr ⟨by simpa using hrole, hhalf.1, hhalf.2.1⟩

/-- What a pass leaves of a trade it handled, by the session that handled it. -/
theorem pass_row {env : Env} {s : Step} {w : World} (hw : w.WellFormed) (hs : s.isPass = true)
    {t : Trade} (ht : t ∈ s.listed env w.db) : ∃ n < (step env w s).issued, w.issued ≤ n ∧
      (s.alone env w t n).2.trade ∈ (step env w s).db.trades ∧
      (step env w s).db.eventsOf t.id = w.db.eventsOf t.id ++ (s.alone env w t n).2.events := by
  rw [step_passOver hw hs]
  obtain ⟨w₁, hle, hlt, hrow, hevents⟩ := @passOver_row env s _ w
    (fun r hr => Step.listed_mem hr) (s.listed_nodup hw) t ht
  have htwin : (w₁.work t).Twin { w.work t with nonce := w₁.issued } := ⟨rfl, rfl, rfl⟩
  have hhandle := (s.handle_twin env t htwin).work
  refine ⟨w₁.issued, hlt, hle, ?_, ?_⟩
  · rw [Step.alone, hhandle.trade]
    exact hrow
  · rw [Step.alone, hhandle.events]
    exact hevents

/-- A reconcile pass is atomic for every trade exactly when no answer raises in the
middle of an update. -/
theorem atomicPass_iff (env : Env) {w : World} (hw : w.WellFormed) (s : Step)
    (hs : s.isPass = true) : AtomicPass env w s ↔ AnswersWhole env w s := by
  have hw' := (step_effect env s hw).2
  constructor
  · intro h t ht u hu hhalf
    have hlisted := mem_listed_of_update hs ht hu
    obtain ⟨n, -, -, hrow, hevents⟩ := pass_row hw hs hlisted
    obtain ⟨m, -, -, hatomic⟩ := h t hlisted
    have hsession : ∀ n, ∃ e k', s.alone env w t n = (.error e, k') ∧
        ¬ (k'.trade = t ∧ k'.events = []) := by
      intro n
      have halone := handle_update (k := { w.work t with nonce := n }) hs hu rfl
      obtain ⟨e, k', hraise⟩ := @HalfWritten.raises env.restClient u.2 u.1
        { w.work t with nonce := n } hhalf
      refine ⟨e, k', halone.trans hraise, fun hsame => ?_⟩
      exact (raised_unchanged_iff rfl (status_of_listed hs hu).1 hraise).mp hsame hhalf
    obtain ⟨e, k', halone, hchanged⟩ := hsession n
    obtain ⟨e', k'', halone', -⟩ := hsession m
    rw [halone] at hrow hevents
    rw [halone'] at hatomic
    have hid : k'.trade.id = t.id := by
      have := (s.handle_frame env t { w.work t with nonce := n }).entry.id
      rw [Step.alone] at halone
      rwa [halone] at this
    refine hchanged ⟨hw'.eq_of_id hrow hatomic.1 hid, ?_⟩
    exact List.append_right_eq_self.mp (hevents.symm.trans hatomic.2)
  · intro h t ht
    obtain ⟨n, hlt, hle, hrow, hevents⟩ := pass_row hw hs ht
    refine ⟨n, hlt, hle, ?_⟩
    match halone : s.alone env w t n with
    | (.ok b, k) =>
      rw [halone] at hrow hevents
      exact ⟨hrow, hevents⟩
    | (.error e, k) =>
      rw [halone] at hrow hevents
      have hsame : k.trade = t ∧ k.events = [] := by
        obtain rfl | ⟨u, hu⟩ := handle_raised hs ht rfl halone
        · exact ⟨rfl, rfl⟩
        · have hraise := (handle_update hs hu rfl).symm.trans halone
          exact (raised_unchanged_iff rfl (status_of_listed hs hu).1 hraise).mpr
            (h t (Step.listed_mem ht) u hu)
      rw [hsame.1] at hrow
      rw [hsame.2, List.append_nil] at hevents
      exact ⟨hrow, hevents⟩

/-- A position whose close order is pending, and a pass that is told it was filled at
`price`. -/
def closePendingWorld : World :=
  Runs.run (step (demoEnv .takerAllowed)) {} (filledEntryRun (.accepted none) ++
    [.closeTrade 1 .manual ⟨2, .accepted none⟩, .settle (.close 3) .filled])

def filledAnswer (price : RawNumber) : Step :=
  .reconcileCloseOrders
    (fun _ => .ok (some { orderStatus := .filled, avgPrice := some price })) fun _ => demoHandler 3

theorem atomicPass_answered :
    AtomicPass (demoEnv .takerAllowed) closePendingWorld (filledAnswer (.decimal 105)) :=
  (atomicPass_iff (demoEnv .takerAllowed) (wellFormed_run _ _) (filledAnswer (.decimal 105)) rfl).mpr
    (by decide +kernel)

/-- A fill of the close order whose price cannot be read leaves the trade confirmed, with
an event that says so. -/
theorem atomicPass_fails :
    ¬ AtomicPass (demoEnv .takerAllowed) closePendingWorld (filledAnswer .malformed) := by
  decide +kernel

end AmaExecutionCore
