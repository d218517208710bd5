import AmaExecutionCore.Steps

/-! Trades without exposure, and the updates that bring one back. -/
namespace AmaExecutionCore
open TradeStatus

/-- The statuses in which no exposure is left. -/
def deadStatuses : List TradeStatus :=
  [.orderRejected, .orderCancelled, .positionClosed, .pnlRecorded]

/-- The update takes a rejected or cancelled trade out of the dead statuses. -/
def Revives (data : OrderData) (t : Trade) : Prop :=
  t.status ∈ deadStatuses ∧ t.status ≠ pnlRecorded ∧ ∃ link ∈ data.orderLinkId,
    if t.isProtectiveClose link = true then
      data.orderStatus ∈ [.rejected, .cancelled, .partiallyFilled]
    else data.orderStatus ∈ [.filled, .partiallyFilled]

instance (data : OrderData) (t : Trade) : Decidable (Revives data t) :=
  inferInstanceAs (Decidable (t.status ∈ deadStatuses ∧ t.status ≠ pnlRecorded ∧
    ∃ link ∈ data.orderLinkId, if t.isProtectiveClose link = true then
      data.orderStatus ∈ [.rejected, .cancelled, .partiallyFilled]
    else data.orderStatus ∈ [.filled, .partiallyFilled]))

theorem Updated.revives {io : HandlerIo} {data : OrderData} {k k' : Work} {r : Except PyError Bool}
    (h : Updated io data k (r, k')) (hr : ∃ b, r = .ok b) (hdead : k.trade.status ∈ deadStatuses) :
    k'.trade.status ∈ deadStatuses ∨ Revives data k.trade := by
  have hentry : ∀ s b, shouldIgnoreEntryUpdate k.trade s b = false →
      k.trade.status ≠ pnlRecorded := by
    intro s b hkeep hpnl
    simp [shouldIgnoreEntryUpdate, hpnl] at hkeep
  cases h with
  | unmoved he => exact .inl (he.status ▸ hdead)
  | entryMoved hlink hrole hs hne hkeep he =>
    obtain ⟨-, rfl⟩ | ⟨-, rfl⟩ | ⟨-, rfl⟩ | ⟨hpart, rfl⟩ := orderStatusMap_eq hs
    · exact absurd rfl hne
    · exact .inl (by simp [he.status, deadStatuses])
    · exact .inl (by simp [he.status, deadStatuses])
    · exact .inr ⟨hdead, hentry _ _ hkeep, _, hlink, by simp [hrole, hpart]⟩
  | entryFilled hlink hrole hs hkeep =>
    exact .inr ⟨hdead, hentry _ _ hkeep, _, hlink, by simp [hrole, hs]⟩
  | entryDone hlink hrole hs _ hkeep =>
    exact .inr ⟨hdead, hentry _ _ hkeep, _, hlink, by simp [hrole, hs]⟩
  | exitBroken =>
    obtain ⟨b, hb⟩ := hr
    cases hb
  | exitFilled _ _ _ _ _ he => exact .inl (by simp [he.status, deadStatuses])
  | exitFailed hlink hrole hs hkeep =>
    refine .inr ⟨hdead, hkeep, _, hlink, ?_⟩
    obtain hs | hs := hs <;> simp [hrole, hs]
  | exitPartly hlink hrole hs hkeep =>
    exact .inr ⟨hdead, hkeep, _, hlink, by simp [hrole, hs]⟩

/-- The reconcile passes do not list the trade. -/
def Unlisted (t : Trade) : Prop :=
  t.status ∉ entryReconciliationStatuses ∧ t.status ∉ closeReconciliationStatuses

theorem unlisted_of_dead {t : Trade} (h : t.status ∈ deadStatuses) : Unlisted t := by
  constructor <;> intro hmem <;>
    simp only [deadStatuses, entryReconciliationStatuses, closeReconciliationStatuses,
      List.mem_cons] at h hmem <;> grind

/-- A trade that no pass lists is updated only by an event of its own order. -/
theorem Step.update_unlisted {env : Env} {s : Step} {t : Trade} {u : OrderData × HandlerIo}
    (hu : u ∈ s.update env t) (ht : Unlisted t) :
    ∃ link, s = .processOrder u.1 u.2 ∧ u.1.orderLinkId = some link ∧
      t.ownsOrderLinkId link = true := by
  cases s with
  | processOrder data io =>
    simp only [Step.update, Option.mem_def] at hu
    split_ifs at hu with howns
    obtain ⟨link, hlink, howns⟩ := howns
    obtain rfl := Option.some.inj hu
    exact ⟨link, rfl, hlink, howns⟩
  | reconcileEntryOrders answer io =>
    simp only [Step.update, Option.mem_def] at hu
    split_ifs at hu with hst
    exact absurd hst.2 ht.1
  | reconcileCloseOrders answer io =>
    simp only [Step.update, Option.mem_def] at hu
    split_ifs at hu with hst
    exact absurd hst.2 ht.2
  | _ => cases hu

theorem Move.revives {env : Env} {s : Step} {k k' : Work} (h : Move env s k k')
    (hdead : k.trade.status ∈ deadStatuses) :
    k'.trade.status ∈ deadStatuses ∨ ∃ u ∈ s.update env k.trade, Revives u.1 k.trade := by
  cases h with
  | idle => exact .inl hdead
  | settle => exact .inl hdead
  | @update _ data io _ _ _ hdata hu _ hr =>
    obtain ⟨link, hevent, -⟩ := Step.update_unlisted hdata (unlisted_of_dead hdead)
    obtain h | h := hu.revives (hr ⟨_, _, hevent⟩) hdead
    · exact .inl h
    · exact .inr ⟨_, hdata, h⟩
  | execution he => exact .inl (he.status ▸ hdead)
  | closed hst => exact absurd hdead (by simp [closeRetryableStatuses] at hst; grind [deadStatuses])
  | closeLost => exact .inl hdead
  | protect _ hst =>
    exact absurd hdead (by simp [Db.missingProtection] at hst; grind [deadStatuses])
  | replay hst => exact absurd hdead (by simp [hst, deadStatuses])

end AmaExecutionCore
