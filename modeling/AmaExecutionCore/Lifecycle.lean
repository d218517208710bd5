import AmaExecutionCore.Commits

/-! The phases of a trade: entry, open, exit, ended. When a step turns a committed
trade back to an earlier phase. -/
namespace AmaExecutionCore
open TradeStatus

/-- Entry, open, exit, ended. The first two statuses and `positionClosed` are never
committed. -/
def TradeStatus.phase : TradeStatus → Nat
  | signalGenerated | riskCalculated | safetyChecked | orderSubmitted | orderPendingUnknown
  | orderPartiallyFilled | orderConfirmed => 0
  | positionOpen => 1
  | positionClosePending | positionCloseFailed => 2
  | positionClosed | pnlRecorded | orderRejected | orderCancelled => 3

/-- No committed trade goes back to an earlier phase. -/
def PhasesKept (w w' : World) : Prop :=
  ∀ t ∈ w.db.trades, ∃ t' ∈ w'.db.trades, t'.id = t.id ∧ t.status.phase ≤ t'.status.phase

instance (w w' : World) : Decidable (PhasesKept w w') :=
  inferInstanceAs (Decidable (∀ t ∈ w.db.trades, ∃ t' ∈ w'.db.trades,
    t'.id = t.id ∧ t.status.phase ≤ t'.status.phase))

def Step.isEvent : Step → Bool
  | .processOrder _ _ => true
  | _ => false

/-- An update about an exit order that turns the trade back: a partial fill past the
entry phase, a failure after the end, or a fill whose price cannot be read, which only
a reconcile pass commits. -/
def ExitTurnsBack (s : Step) (data : OrderData) (t : Trade) : Prop :=
  (data.orderStatus = .partiallyFilled ∧ 0 < t.status.phase) ∨
    ((data.orderStatus = .rejected ∨ data.orderStatus = .cancelled) ∧ t.status.phase = 3) ∨
    (data.orderStatus = .filled ∧ data.avgPrice = some .malformed ∧ 0 < t.status.phase ∧
      s.isEvent = false)

instance (s : Step) (data : OrderData) (t : Trade) : Decidable (ExitTurnsBack s data t) :=
  inferInstanceAs (Decidable ((data.orderStatus = .partiallyFilled ∧ 0 < t.status.phase) ∨
    ((data.orderStatus = .rejected ∨ data.orderStatus = .cancelled) ∧ t.status.phase = 3) ∨
    (data.orderStatus = .filled ∧ data.avgPrice = some .malformed ∧ 0 < t.status.phase ∧
      s.isEvent = false)))

/-- An update about the entry order that revives a rejected or cancelled trade. -/
def EntryTurnsBack (data : OrderData) (t : Trade) : Prop :=
  (t.status = orderRejected ∨ t.status = orderCancelled) ∧
    (data.orderStatus = .partiallyFilled ∨ (data.orderStatus = .filled ∧
      data.avgPrice ≠ some .malformed ∧ data.cumExecQty ≠ some .malformed))

instance (data : OrderData) (t : Trade) : Decidable (EntryTurnsBack data t) :=
  inferInstanceAs (Decidable ((t.status = orderRejected ∨ t.status = orderCancelled) ∧
    (data.orderStatus = .partiallyFilled ∨ (data.orderStatus = .filled ∧
      data.avgPrice ≠ some .malformed ∧ data.cumExecQty ≠ some .malformed))))

/-- The update turns the trade back when it is applied. -/
def TurnsBack (s : Step) (data : OrderData) (t : Trade) : Prop :=
  t.status ≠ pnlRecorded ∧ ∃ link ∈ data.orderLinkId,
    if t.isProtectiveClose link then ExitTurnsBack s data t else EntryTurnsBack data t

instance (s : Step) (data : OrderData) (t : Trade) : Decidable (TurnsBack s data t) :=
  inferInstanceAs (Decidable (t.status ≠ pnlRecorded ∧ ∃ link ∈ data.orderLinkId,
    if t.isProtectiveClose link then ExitTurnsBack s data t else EntryTurnsBack data t))

/-- No update the step applies turns its trade back. -/
def UpdatesForward (env : Env) (w : World) (s : Step) : Prop :=
  ∀ t ∈ w.db.trades, ∀ u ∈ s.update env t, ¬ TurnsBack s u.1 t

instance (env : Env) (w : World) (s : Step) : Decidable (UpdatesForward env w s) :=
  inferInstanceAs (Decidable (∀ t ∈ w.db.trades, ∀ u ∈ s.update env t, ¬ TurnsBack s u.1 t))

theorem applyOrderUpdate_numbers {restClient : Bool} {io : HandlerIo} {data : OrderData}
    {k k' : Work} {link : OrderLinkId} (hlink : data.orderLinkId = some link)
    (hrole : k.trade.isProtectiveClose link = false) (hs : data.orderStatus = .filled)
    (h : applyOrderUpdate restClient io data k = (.ok true, k')) :
    data.avgPrice ≠ some .malformed ∧ data.cumExecQty ≠ some .malformed := by
  simp only [applyOrderUpdate, hlink, hs, orderStatusMap, hrole, true_and] at h
  split_ifs at h with hignored hexit
  · simp at h
  · simp at hexit
  · unfold applyEntryFill at h
    split at h
    · simp at h
    · next avg havg =>
      split at h
      · simp at h
      · next cum hcum => exact ⟨parseOptional_ok havg, parseOptional_ok hcum⟩

/-- An entry update that is not ignored finds the trade in its entry phase, or ended
without a fill. -/
theorem phase_of_entry_kept {t : Trade} {s : TradeStatus} {b : Bool}
    (h : shouldIgnoreEntryUpdate t s b = false) :
    t.status.phase = 0 ∨ t.status = orderRejected ∨ t.status = orderCancelled := by
  cases hst : t.status <;> simp [shouldIgnoreEntryUpdate, hst, TradeStatus.phase] at h ⊢

theorem phase_le_two {t : Trade} {s : Step} {data : OrderData} {link : OrderLinkId}
    (hlink : data.orderLinkId = some link) (hrole : t.isProtectiveClose link = true)
    (hs : data.orderStatus = .rejected ∨ data.orderStatus = .cancelled)
    (hopen : t.status ≠ pnlRecorded) (h : ¬ TurnsBack s data t) : t.status.phase ≤ 2 := by
  have hne : t.status.phase ≠ 3 := by
    intro h3
    refine h ⟨hopen, link, hlink, ?_⟩
    rw [if_pos hrole]
    exact .inr (.inl ⟨hs, h3⟩)
  have hle : t.status.phase ≤ 3 := by cases t.status <;> decide
  omega

/-- An update that does not turn the trade back keeps its phase or moves it on. -/
theorem phase_update {env : Env} {s : Step} {data : OrderData} {io : HandlerIo}
    {r : Except PyError Bool} {k k' : Work} (h : applyOrderUpdate env.restClient io data k = (r, k'))
    (hr : (∃ data io, s = .processOrder data io) → ∃ b, r = .ok b)
    (hgo : ¬ TurnsBack s data k.trade) : k.trade.status.phase ≤ k'.trade.status.phase := by
  have hup := applyOrderUpdate_updated env.restClient io data k
  have hnumbers := @applyOrderUpdate_numbers env.restClient io data k k'
  have hraised := @applyOrderUpdate_raised env.restClient io data k k'
  rw [h] at hup hnumbers hraised
  have hentry : ∀ {link s' b}, data.orderLinkId = some link →
      k.trade.isProtectiveClose link = false → shouldIgnoreEntryUpdate k.trade s' b = false →
      (data.orderStatus = .partiallyFilled ∨ data.orderStatus = .filled ∧
        data.avgPrice ≠ some .malformed ∧ data.cumExecQty ≠ some .malformed) →
      k.trade.status.phase = 0 := by
    intro link s' b hlink hrole hkeep hdata
    obtain hphase | hended := phase_of_entry_kept hkeep
    · exact hphase
    · refine (hgo ⟨?_, link, hlink, ?_⟩).elim
      · obtain h | h := hended <;> simp [h]
      · simpa [hrole] using ⟨hended, hdata⟩
  cases hup with
  | unmoved h => exact h.status ▸ le_refl _
  | @entryMoved _ link s' hlink hrole hs hne hkeep h =>
    rw [h.status]
    obtain ⟨-, rfl⟩ | ⟨-, rfl⟩ | ⟨-, rfl⟩ | ⟨hpart, rfl⟩ := orderStatusMap_eq hs
    · exact (hne rfl).elim
    · cases k.trade.status <;> decide
    · cases k.trade.status <;> decide
    · rw [hentry hlink hrole hkeep (.inl hpart)]
      exact Nat.zero_le _
  | entryFilled hlink hrole hs hkeep h =>
    rw [hentry hlink hrole hkeep (.inr ⟨hs, hnumbers hlink hrole hs rfl⟩)]
    exact Nat.zero_le _
  | entryDone hlink hrole hs hleaves hkeep h hp hend =>
    rw [hentry hlink hrole hkeep (.inr ⟨hs, hnumbers hlink hrole hs rfl⟩)]
    exact Nat.zero_le _
  | @exitBroken _ link e hlink hrole hs hkeep h =>
    have hphase : ¬ 0 < k.trade.status.phase := by
      intro hpos
      refine hgo ⟨hkeep, link, hlink, ?_⟩
      rw [if_pos hrole]
      have hprice : data.avgPrice = some .malformed := by
        obtain ⟨link', hlink', -, ⟨-, -, hprice, -⟩ | ⟨hrole', -⟩⟩ := hraised rfl
        · exact hprice
        · obtain rfl : link = link' := Option.some.inj (hlink.symm.trans hlink')
          simp [hrole] at hrole'
      refine .inr (.inr ⟨hs, hprice, hpos, ?_⟩)
      cases s with
      | processOrder data' io' =>
        obtain ⟨b, hb⟩ := hr ⟨data', io', rfl⟩
        cases hb
      | _ => rfl
    omega
  | exitFilled _ _ _ _ _ h =>
    rw [h.status]
    cases k.trade.status <;> decide
  | exitFailed hlink hrole hs hkeep h =>
    rw [h.status]
    exact phase_le_two hlink hrole hs hkeep hgo
  | @exitPartly _ link hlink hrole hs hkeep h =>
    have hphase : ¬ 0 < k.trade.status.phase := by
      intro hpos
      refine hgo ⟨hkeep, link, hlink, ?_⟩
      rw [if_pos hrole]
      exact .inl ⟨hs, hpos⟩
    omega

theorem Handled.phase {env : Env} {w : World} {s : Step} {k k' : Work}
    (h : Handled env w s k k')
    (hgo : ∀ u ∈ s.update env k.trade, ¬ TurnsBack s u.1 k.trade) :
    k.trade.status.phase ≤ k'.trade.status.phase := by
  cases h with
  | unanswered => exact le_refl _
  | update hdata h hr => exact phase_update h hr (hgo _ hdata)
  | execution _ _ _ h =>
    obtain ⟨q, rfl⟩ := noteSlippage_same h
    obtain ⟨paid, hfee⟩ := k.trade.addFee_eq _
    rw [hfee]
  | @closed reason io _ _ hst h =>
    have hcl := submitClose_closing env.settings.tradingMode reason io k
    rw [h] at hcl
    have hle : k.trade.status.phase ≤ 2 := by
      simp only [closeRetryableStatuses, List.mem_cons, List.not_mem_nil, or_false] at hst
      obtain hst | hst | hst := hst <;> rw [hst] <;> decide
    cases hcl with
    | shadow _ he =>
      rw [he.status]
      exact hle.trans (by decide)
    | sent _ he =>
      rw [he.status]
      exact hle
  | protect _ hst =>
    have hle : k.trade.status.phase ≤ 1 := by
      cases hs : k.trade.status <;> simp [Db.missingProtection, hs, TradeStatus.phase] at hst ⊢
    obtain h | ⟨-, h | h⟩ := (ensureSpotMarketProtection_protection env.restClient _ k).status
    · rw [h]
    · rw [h]
      exact hle.trans (by decide)
    · rw [h]
      exact hle.trans (by decide)
  | resolved hfound _ =>
    rw [replayed_status hfound]
    exact Nat.zero_le _

theorem PhasesKept.trans {w w' w'' : World} (h : PhasesKept w w') (h' : PhasesKept w' w'') :
    PhasesKept w w'' := by
  intro t ht
  obtain ⟨t', ht', hid, hle⟩ := h t ht
  obtain ⟨t'', ht'', hid', hle'⟩ := h' t' ht'
  exact ⟨t'', ht'', hid'.trans hid, hle.trans hle'⟩

theorem PhasesKept.of_mem {w w' : World} (h : ∀ t ∈ w.db.trades, t ∈ w'.db.trades) :
    PhasesKept w w' := fun t ht => ⟨t, h t ht, rfl, le_refl _⟩

theorem PhasesKept.commits {env : Env} {s : Step} {w w' : World} (hc : Commits env s w w')
    (hgo : UpdatesForward env w s) : PhasesKept w w' := by
  induction hc with
  | start => exact .of_mem fun _ h => h
  | @commit w₁ t k' _ hw₁ ht ht₁ hk ih =>
    refine ih.trans ?_
    have hid : k'.trade.id = t.id := hk.frame.entry.id
    intro r hr
    by_cases hkey : r.id = t.id
    · obtain rfl := hw₁.eq_of_id hr ht₁ hkey
      refine ⟨k'.trade, ?_, hid, hk.phase (hgo r ht)⟩
      rw [World.commit_trades ht₁ hid]
      exact List.mem_map.mpr ⟨r, hr, if_pos rfl⟩
    · exact ⟨r, World.mem_commit ht₁ hid hr hkey, rfl, le_refl _⟩
  | quiet _ hq ih => exact ih.trans (.of_mem fun t ht => hq.trades ▸ ht)
  | created _ _ _ _ _ htrades _ _ ih =>
    exact ih.trans (.of_mem fun t ht => htrades ▸ List.mem_append_left _ ht)

/-- In every run whose updates turn no trade back, the phase of each committed trade
never decreases. -/
theorem phasesKept_run (env : Env) (ss : List Step)
    (h : Runs.Meets (step env) (UpdatesForward env) {} ss) :
    Runs.Meets (step env) (fun w s => PhasesKept w (step env w s)) {} ss :=
  Runs.meets_of_invariant wellFormed_init (fun _ s hw _ => (step_effect env s hw).2)
    (fun _ s hw hgo => .commits (step_commits env s hw) hgo) h

/-- A position is opened and closed by hand; the close order moves to `state` and
reports `status`. -/
def closedRun (state : OrderState) (status : OrderStatusText) : List Step :=
  filledEntryRun (.accepted none) ++
    [.closeTrade 1 .manual ⟨2, .accepted none⟩,
      .settle (.close 3) state,
      .processOrder { orderLinkId := some (.close 3), orderStatus := status,
                      avgPrice := some (.decimal 105) } (demoHandler 3)]

theorem phasesKept_closed : Runs.Meets (step (demoEnv .takerAllowed))
    (fun w s => PhasesKept w (step (demoEnv .takerAllowed) w s)) {} (closedRun .filled .filled) :=
  phasesKept_run _ _ (by decide +kernel)

/-- A partial fill of the close order turns the pending close into a partially filled
entry. -/
theorem phasesKept_fails : ¬ Runs.Meets (step (demoEnv .takerAllowed))
    (fun w s => PhasesKept w (step (demoEnv .takerAllowed) w s)) {}
    (closedRun (.live true) .partiallyFilled) := by
  decide +kernel

end AmaExecutionCore
