import AmaExecutionCore.Commits

/-! What every committed trade keeps of its entry: the entry order is none of the orders
that close it, and nothing counts as bought while the submission is open. -/
namespace AmaExecutionCore
open TradeStatus

structure Trade.EntryKept (t : Trade) : Prop where
  role : ∀ link, t.orderLinkId = some link → t.isProtectiveClose link = false
  unbought : t.status ∈ entryReconciliationStatuses → t.filledQty = none

theorem Trade.isProtectiveClose_iff (t : Trade) (link : OrderLinkId) :
    t.isProtectiveClose link = true ↔ t.closeOrderLinkId = some link ∨
      t.stopOrderLinkId = some link ∨ t.takeProfitOrderLinkId = some link := by
  simp [Trade.isProtectiveClose, or_assoc]

/-- A new exit order gets an id of its own. -/
def Work.DrawsExits (k k' : Work) : Prop :=
  ∀ link, k'.trade.isProtectiveClose link = true →
    k.trade.isProtectiveClose link = true ∨ link.drawnAt k.nonce

namespace Work.DrawsExits

theorem refl (k : Work) : k.DrawsExits k := fun _ h => .inl h

theorem trans {k k' k'' : Work} (h : k.DrawsExits k') (h' : k'.DrawsExits k'')
    (hnonce : k'.nonce = k.nonce) : k.DrawsExits k'' := by
  intro link hl
  obtain hl | hl := h' link hl
  · exact h link hl
  · exact .inr (hnonce ▸ hl)

end Work.DrawsExits

/-- An exit column is kept, or holds a new id. -/
def DrawnOr (n : Nat) (old new : Option OrderLinkId) : Prop :=
  new = old ∨ ∃ link, new = some link ∧ link.drawnAt n

theorem Work.Ends.exits {k k' : Work} {s : TradeStatus} {c st tp : Option OrderLinkId}
    {new : List SentOrder} (h : k.Ends k' s c st tp new)
    (hc : DrawnOr k.nonce k.trade.closeOrderLinkId c)
    (hst : DrawnOr k.nonce k.trade.stopOrderLinkId st)
    (htp : DrawnOr k.nonce k.trade.takeProfitOrderLinkId tp) : k.DrawsExits k' := by
  intro link hl
  rw [Trade.isProtectiveClose_iff, h.close, h.stop, h.takeProfit] at hl
  rw [Trade.isProtectiveClose_iff]
  obtain rfl | rfl | rfl := hl
  · obtain h | ⟨l, h, hd⟩ := hc
    · exact .inl (.inl h.symm)
    · exact .inr (Option.some.inj h ▸ hd)
  · obtain h | ⟨l, h, hd⟩ := hst
    · exact .inl (.inr (.inl h.symm))
    · exact .inr (Option.some.inj h ▸ hd)
  · obtain h | ⟨l, h, hd⟩ := htp
    · exact .inl (.inr (.inr h.symm))
    · exact .inr (Option.some.inj h ▸ hd)

theorem Work.Ends.settled_exits {k k' : Work} {s : TradeStatus} (h : k.Settles k' s) :
    k.DrawsExits k' := h.exits (.inl rfl) (.inl rfl) (.inl rfl)

theorem GivenUp.exits {io : HandlerIo} {k k' : Work} (h : GivenUp io k k') : k.DrawsExits k' := by
  cases h with
  | unsent h => exact h.settled_exits
  | sent h => exact h.exits (.inr ⟨_, rfl, by simp [OrderLinkId.drawnAt]⟩) (.inl rfl) (.inl rfl)
  | failed h => exact h.exits (.inr ⟨_, rfl, by simp [OrderLinkId.drawnAt]⟩) (.inl rfl) (.inl rfl)

theorem TakeProfitArmed.drawn {io : HandlerIo} {k : Work} {tp : Option OrderLinkId}
    {new : List SentOrder} (h : TakeProfitArmed io k tp new) :
    DrawnOr k.nonce k.trade.takeProfitOrderLinkId tp := by
  cases h with
  | kept => exact .inl rfl
  | placed => exact .inr ⟨_, rfl, rfl⟩
  | lost htp => exact .inl htp.symm

theorem Protection.exits {io : HandlerIo} {k : Work} {p : Bool × Work} (h : Protection io k p) :
    k.DrawsExits p.2 := by
  cases h with
  | idle => exact .refl k
  | stopKept _ hstop h htp => exact h.exits (.inl rfl) (.inl hstop.symm) htp.drawn
  | stopArmed _ _ _ h htp => exact h.exits (.inl rfl) (.inr ⟨_, rfl, rfl⟩) htp.drawn
  | stopLost _ _ _ hg =>
    exact (sendStop_ends io _ _ k).exits (.inl rfl) (.inl rfl) (.inl rfl) |>.trans hg.exits rfl

theorem Updated.exits {io : HandlerIo} {data : OrderData} {k : Work} {r : Outcome Work Bool}
    (h : Updated io data k r) : k.DrawsExits r.2 := by
  cases h with
  | unmoved h => exact h.settled_exits
  | entryMoved _ _ _ _ _ h => exact h.settled_exits
  | entryFilled _ _ _ _ h => exact h.settled_exits
  | entryDone _ _ _ _ _ h hp hend =>
    have hprot := h.settled_exits.trans hp.exits h.frame.nonce
    exact hprot.trans hend.settled_exits (hp.frame.nonce.trans h.frame.nonce)
  | exitBroken _ _ _ _ h => exact h.settled_exits
  | exitFilled _ _ _ _ _ h => exact h.settled_exits
  | exitFailed _ _ _ _ h => exact h.settled_exits
  | exitPartly _ _ _ _ h => exact h.settled_exits

theorem Handled.exits {env : Env} {w : World} {s : Step} {k k' : Work}
    (h : Handled env w s k k') : k.DrawsExits k' := by
  cases h with
  | unanswered => exact .refl k
  | @update _ data io _ _ _ _ h =>
    have hup := applyOrderUpdate_updated env.restClient io data k
    rw [h] at hup
    exact hup.exits
  | execution _ _ _ h =>
    obtain ⟨q, rfl⟩ := noteSlippage_same h
    obtain ⟨paid, hfee⟩ := k.trade.addFee_eq _
    rw [hfee]
    exact fun _ hl => .inl hl
  | @closed reason io _ _ _ h =>
    have hcl := submitClose_closing env.settings.tradingMode reason io k
    rw [h] at hcl
    cases hcl with
    | shadow _ h => exact h.exits (.inr ⟨_, rfl, rfl⟩) (.inl rfl) (.inl rfl)
    | sent _ h => exact h.exits (.inr ⟨_, rfl, rfl⟩) (.inl rfl) (.inl rfl)
  | protect => exact (ensureSpotMarketProtection_protection _ _ _).exits
  | resolved _ h =>
    obtain rfl | ⟨remote, -, rfl⟩ := reconcilePendingUnknown_ok h
    · exact .refl k
    · exact (noteRemoteStatus_settles remote k).settled_exits

theorem applyEntryFill_bought (restClient : Bool) (io : HandlerIo) (data : OrderData) (k : Work) :
    (applyEntryFill restClient io data k).2.trade.filledQty = k.trade.filledQty ∨
      (applyEntryFill restClient io data k).2.trade.status ∉ entryReconciliationStatuses := by
  obtain ⟨e, avg, h⟩ | ⟨avg, cum, -, h⟩ := applyEntryFill_cases restClient io data k
  · rw [h]
    exact .inl rfl
  · refine .inr ?_
    have hconf := (confirmEntryFill_settles io.now avg cum k).status
    have hprot := (ensureSpotMarketProtection_protection restClient io
      (confirmEntryFill io.now avg cum k)).status
    rw [hconf] at hprot
    rw [h]
    simp only [Work.onTrade_trade, Trade.storeFilledQty]
    split_ifs
    · split
      · simp [entryReconciliationStatuses]
      · next hens =>
        rw [hens] at hprot
        dsimp only at hprot ⊢
        obtain h | ⟨-, h | h⟩ := hprot <;> simp [entryReconciliationStatuses, h]
    · simp [entryReconciliationStatuses, hconf]

theorem applyOrderUpdate_bought (restClient : Bool) (io : HandlerIo) (data : OrderData) (k : Work) :
    (applyOrderUpdate restClient io data k).2.trade.filledQty = k.trade.filledQty ∨
      (applyOrderUpdate restClient io data k).2.trade.status ∉ entryReconciliationStatuses := by
  unfold applyOrderUpdate
  split
  · next link _ _ _ =>
    have hnote := noteExchangeOrderId_filledQty link data.orderId k
    generalize k.onTrade (Trade.noteExchangeOrderId link data.orderId) = k₁ at hnote
    rw [← hnote]
    dsimp only
    split_ifs
    · exact .inl rfl
    · exact .inl rfl
    · exact applyEntryFill_bought restClient io data k₁
    · exact .inl (applyExitFill_filledQty io link data k₁)
    · exact .inl (by simp [applyExitFailure])
    · exact .inl (by simp)
  · exact .inl rfl

theorem Updated.idle {io : HandlerIo} {data : OrderData} {k : Work} {r : Outcome Work Bool}
    (h : Updated io data k r) (hopen : r.2.trade.status ∈ entryReconciliationStatuses) :
    k.Settles r.2 k.trade.status := by
  cases h with
  | unmoved h => exact h
  | entryMoved _ _ hs hne _ h =>
    rw [h.status] at hopen
    obtain ⟨-, rfl⟩ | ⟨-, rfl⟩ | ⟨-, rfl⟩ | ⟨-, rfl⟩ := orderStatusMap_eq hs <;>
      simp [entryReconciliationStatuses] at hopen
  | entryFilled _ _ _ _ h => simp [h.status, entryReconciliationStatuses] at hopen
  | entryDone _ _ _ _ _ h hp hend =>
    have hprot := hp.status
    rw [h.status] at hprot
    rw [hend.status] at hopen
    split_ifs at hopen
    · simp [entryReconciliationStatuses] at hopen
    · obtain h | ⟨-, h | h⟩ := hprot <;> simp [h, entryReconciliationStatuses] at hopen
  | exitBroken _ _ _ _ h => simp [h.status, entryReconciliationStatuses] at hopen
  | exitFilled _ _ _ _ _ h => simp [h.status, entryReconciliationStatuses] at hopen
  | exitFailed _ _ _ _ h => simp [h.status, entryReconciliationStatuses] at hopen
  | exitPartly _ _ _ _ h => simp [h.status, entryReconciliationStatuses] at hopen

theorem Updated.unbought {io : HandlerIo} {data : OrderData} {k : Work}
    {r : Outcome Work Bool} (h : Updated io data k r)
    (hopen : r.2.trade.status ∈ entryReconciliationStatuses) :
    k.trade.status ∈ entryReconciliationStatuses :=
  (h.idle hopen).status ▸ hopen

theorem Handled.unbought {env : Env} {w : World} {s : Step} {k k' : Work}
    (h : Handled env w s k k') (hkept : k.trade.status ∈ entryReconciliationStatuses →
      k.trade.filledQty = none) (hopen : k'.trade.status ∈ entryReconciliationStatuses) :
    k'.trade.filledQty = none := by
  cases h with
  | unanswered => exact hkept hopen
  | @update _ data io _ _ _ _ h =>
    have hup := applyOrderUpdate_updated env.restClient io data k
    have hqty := applyOrderUpdate_bought env.restClient io data k
    rw [h] at hup hqty
    exact (hqty.resolve_right (not_not.mpr hopen)).trans (hkept (hup.unbought hopen))
  | execution _ _ _ h =>
    obtain ⟨q, rfl⟩ := noteSlippage_same h
    obtain ⟨paid, hfee⟩ := k.trade.addFee_eq _
    rw [hfee] at hopen ⊢
    exact hkept hopen
  | @closed reason io _ _ _ h =>
    have hcl := submitClose_closing env.settings.tradingMode reason io k
    rw [h] at hcl
    cases hcl with
    | shadow _ h => simp [h.status, entryReconciliationStatuses] at hopen
    | sent _ h => simp [h.status, entryReconciliationStatuses] at hopen
  | protect =>
    rw [ensureSpotMarketProtection_filledQty]
    obtain h | ⟨-, h | h⟩ := (ensureSpotMarketProtection_protection env.restClient _ k).status <;>
      rw [h] at hopen
    · exact hkept hopen
    · simp [entryReconciliationStatuses] at hopen
    · simp [entryReconciliationStatuses] at hopen
  | resolved hfound h =>
    have hpending : k.trade.status ∈ entryReconciliationStatuses := by
      simp [replayed_status hfound, entryReconciliationStatuses]
    obtain rfl | ⟨remote, -, rfl⟩ := reconcilePendingUnknown_ok h
    · exact hkept hpending
    · simpa [noteRemoteStatus] using hkept hpending

theorem Handled.entryKept {env : Env} {w₀ w : World} {s : Step} {t : Trade} {k' : Work}
    (h : Handled env w₀ s (w.work t) k') (hw : w.WellFormed) (ht : t ∈ w.db.trades)
    (hkept : t.EntryKept) : k'.trade.EntryKept where
  role := by
    intro link hlink
    have hentry : t.orderLinkId = some link := h.frame.entry.orderLinkId.symm.trans hlink
    by_contra hrole
    obtain hold | hnew := h.exits link (by simpa using hrole)
    · simp [hkept.role link hentry] at hold
    · -- the entry id was drawn before the session began
      obtain ⟨n, hn, hd⟩ := hw.links t ht link (by rw [Trade.owns_iff]; exact .inl hentry)
      exact absurd (OrderLinkId.drawnAt_unique hd hnew) hn.ne
  unbought := h.unbought hkept.unbought

theorem entryKept_commits {env : Env} {s : Step} {w w' : World}
    (hc : Commits env s w w') (h : ∀ t ∈ w.db.trades, t.EntryKept) :
    ∀ t ∈ w'.db.trades, t.EntryKept := by
  refine hc.each (fun _ _ _ hw₁ ht₁ hk => hk.entryKept hw₁ ht₁) ?_ h
  intro req io p raised k hk
  have hent := settleEntry_entered env.settings .spot req io (entryWork env req io p)
    (entryWork_link _ _ _ _)
  obtain ⟨status, link, ty, new, henters, -, -⟩ := hent.enters (entryWork_link _ _ _ _)
  rw [hk] at henters
  have hexits : Trade.SameExits _ k.trade := henters.exits
  refine ⟨fun link _ => ?_, fun _ => henters.filledQty⟩
  rw [Trade.isProtectiveClose, hexits.close, hexits.stop, hexits.takeProfit]
  rfl

/-- In every reachable world each trade keeps what it says of its entry. -/
theorem entryKept_run (env : Env) (ss : List Step) :
    ∀ t ∈ (Runs.run (step env) {} ss).db.trades, t.EntryKept :=
  run_of_commits (I := fun w => ∀ t ∈ w.db.trades, t.EntryKept) ss (fun _ ht => nomatch ht)
    fun _ _ _ _ hc h => entryKept_commits hc h

/-- While the submission is open no exit order is known. -/
def Trade.Unsold (t : Trade) : Prop :=
  t.status ∈ entryReconciliationStatuses → ∀ link, t.isProtectiveClose link = false

theorem Trade.SameExits.isProtectiveClose {t t' : Trade} (h : t.SameExits t') (link : OrderLinkId) :
    t'.isProtectiveClose link = t.isProtectiveClose link := by
  simp only [Trade.isProtectiveClose, h.close, h.stop, h.takeProfit]

theorem Work.Ends.unsold {k k' : Work} {s : TradeStatus} (h : k.Settles k' s)
    (hopen : k.trade.status ∈ entryReconciliationStatuses) (hk : k.trade.Unsold) :
    k'.trade.Unsold := by
  intro _ link
  rw [Trade.SameExits.isProtectiveClose ⟨h.close, h.stop, h.takeProfit⟩ link]
  exact hk hopen link

theorem Handled.unsold {env : Env} {w : World} {s : Step} {k k' : Work}
    (h : Handled env w s k k') (hk : k.trade.Unsold) : k'.trade.Unsold := by
  intro hopen
  cases h with
  | unanswered => exact hk hopen
  | @update _ data io _ _ _ _ h =>
    have hup := applyOrderUpdate_updated env.restClient io data k
    rw [h] at hup
    exact (hup.idle hopen).unsold (hup.unbought hopen) hk hopen
  | execution _ _ _ h =>
    obtain ⟨q, rfl⟩ := noteSlippage_same h
    obtain ⟨paid, hfee⟩ := k.trade.addFee_eq _
    rw [hfee] at hopen ⊢
    exact hk hopen
  | @closed reason io _ _ _ h =>
    have hcl := submitClose_closing env.settings.tradingMode reason io k
    rw [h] at hcl
    cases hcl with
    | shadow _ h => simp [h.status, entryReconciliationStatuses] at hopen
    | sent _ h => simp [h.status, entryReconciliationStatuses] at hopen
  | @protect io _ _ hst =>
    -- the pass lists no open submission, and opens none
    have hold : k.trade.status = orderConfirmed ∨ k.trade.status = positionOpen := by
      simp only [Db.missingProtection, Bool.and_eq_true, Bool.or_eq_true, decide_eq_true_eq] at hst
      exact hst.1.1.2
    obtain h | ⟨-, h | h⟩ := (ensureSpotMarketProtection_protection env.restClient
      (io k.trade.id) k).status <;> rw [h] at hopen
    · obtain hold | hold := hold <;> simp [hold, entryReconciliationStatuses] at hopen
    · simp [entryReconciliationStatuses] at hopen
    · simp [entryReconciliationStatuses] at hopen
  | resolved hfound h =>
    have hpending : k.trade.status ∈ entryReconciliationStatuses := by
      simp [replayed_status hfound, entryReconciliationStatuses]
    obtain rfl | ⟨remote, -, rfl⟩ := reconcilePendingUnknown_ok h
    · exact hk hopen
    · exact (noteRemoteStatus_settles remote k).unsold hpending hk hopen

theorem unsold_commits {env : Env} {s : Step} {w w' : World} (hc : Commits env s w w')
    (h : ∀ t ∈ w.db.trades, t.Unsold) : ∀ t ∈ w'.db.trades, t.Unsold := by
  refine hc.each (fun _ _ _ _ _ hk => hk.unsold) ?_ h
  intro req io p raised k hk
  have hent := settleEntry_entered env.settings .spot req io (entryWork env req io p)
    (entryWork_link _ _ _ _)
  obtain ⟨status, link, ty, new, henters, -, -⟩ := hent.enters (entryWork_link _ _ _ _)
  rw [hk] at henters
  have hexits : Trade.SameExits _ k.trade := henters.exits
  intro _ link
  rw [hexits.isProtectiveClose link]
  rfl

/-- In every reachable world no exit order is known of an open submission. -/
theorem unsold_run (env : Env) (ss : List Step) :
    ∀ t ∈ (Runs.run (step env) {} ss).db.trades, t.Unsold :=
  run_of_commits (I := fun w => ∀ t ∈ w.db.trades, t.Unsold) ss (fun _ ht => nomatch ht)
    fun _ _ _ _ hc h => unsold_commits hc h

end AmaExecutionCore
