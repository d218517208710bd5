import AmaExecutionCore.Commits

/-! The audit trail: the trade events of a trade tell, from its creation on, how it
came to its status. -/
namespace AmaExecutionCore
open TradeStatus

def Db.eventsOf (id : TradeId) (db : Db) : List TradeEvent :=
  db.tradeEvents.filter fun e => e.tradeId = id

/-- The events start with the creation of the trade, each later one changes the status
that the one before it ended in, and the last one ends in `status`. -/
def Audited (events : List TradeEvent) (status : TradeStatus) : Prop :=
  ∃ created transitions, events = created :: transitions ∧ created.eventType = .tradeCreated ∧
    (∀ e ∈ transitions, e.eventType = .statusTransition ∧ e.fromStatus ≠ e.toStatus) ∧
    events.IsChain (fun e e' => e'.fromStatus = e.toStatus) ∧
    events.getLast?.bind TradeEvent.toStatus = some status

def AuditTrails (w : World) : Prop :=
  ∀ t ∈ w.db.trades, Audited (w.db.eventsOf t.id) t.status

theorem Linked.audit {id : TradeId} {s s' : TradeStatus} {es : List TradeEvent} {e₀ : TradeEvent}
    (h : Linked id s es s') (hto : e₀.toStatus = some s) :
    (∀ e ∈ es, e.eventType = .statusTransition ∧ e.fromStatus ≠ e.toStatus) ∧
      (e₀ :: es).IsChain (fun e e' => e'.fromStatus = e.toStatus) ∧
      (e₀ :: es).getLast?.bind TradeEvent.toStatus = some s' := by
  induction es generalizing s e₀ with
  | nil =>
    obtain rfl : s' = s := h
    exact ⟨by simp, by simp, by simp [hto]⟩
  | cons e es ih =>
    obtain ⟨-, htype, hfrom, m, hm, hne, hrest⟩ := h
    obtain ⟨hall, hchain, hlast⟩ := ih hrest hm
    refine ⟨?_, ?_, ?_⟩
    · intro e' he'
      obtain rfl | he' := List.mem_cons.mp he'
      · refine ⟨htype, ?_⟩
        rw [hfrom, hm]
        exact fun heq => hne (Option.some.inj heq).symm
      · exact hall e' he'
    · exact List.isChain_cons_cons.mpr ⟨hfrom.trans hto.symm, hchain⟩
    · rwa [List.getLast?_cons_cons]

/-- The trail of each trade is linked, and every event belongs to a committed trade. -/
structure TrailsKept (w : World) : Prop where
  linked : ∀ t ∈ w.db.trades, ∃ created transitions s,
    w.db.eventsOf t.id = created :: transitions ∧ created.eventType = .tradeCreated ∧
      created.toStatus = some s ∧ Linked t.id s transitions t.status
  owned : ∀ e ∈ w.db.tradeEvents, ∃ t ∈ w.db.trades, t.id = e.tradeId

theorem TrailsKept.audited {w : World} (h : TrailsKept w) : AuditTrails w := by
  intro t ht
  obtain ⟨created, transitions, s, hevents, htype, hto, hlinked⟩ := h.linked t ht
  obtain ⟨hall, hchain, hlast⟩ := hlinked.audit hto
  exact ⟨created, transitions, hevents, htype, hall, hevents ▸ hchain, hevents ▸ hlast⟩

theorem Db.eventsOf_append {db db' : Db} {new : List TradeEvent} {id : TradeId}
    (h : db'.tradeEvents = db.tradeEvents ++ new) (hnew : ∀ e ∈ new, e.tradeId = id)
    (id' : TradeId) : db'.eventsOf id' =
      if id' = id then db.eventsOf id' ++ new else db.eventsOf id' := by
  unfold Db.eventsOf
  rw [h, List.filter_append]
  split_ifs with hid
  · have hall : new.filter (fun e => e.tradeId = id') = new :=
      List.filter_eq_self.mpr fun e he => by simpa [hid] using hnew e he
    rw [hall]
  · have hnone : new.filter (fun e => e.tradeId = id') = [] :=
      List.filter_eq_nil_iff.mpr fun e he => by simpa [hnew e he] using fun h => hid h.symm
    rw [hnone, List.append_nil]

theorem Work.Writes.trail {k k' : Work} (h : k.Writes k') :
    ∃ new, k'.events = k.events ++ new ∧ Linked k.trade.id k.trade.status new k'.trade.status := by
  cases h with
  | kept hkept => exact hkept.trail
  | booked hbooked => exact hbooked.trail

theorem Handled.trail {env : Env} {w : World} {s : Step} {k k' : Work}
    (h : Handled env w s k k') :
    ∃ new, k'.events = k.events ++ new ∧ Linked k.trade.id k.trade.status new k'.trade.status := by
  obtain hw | ⟨data, fee, slippage, -, -, -, rfl⟩ := h.writes
  · exact hw.trail
  · obtain ⟨paid, hfee⟩ := k.trade.addFee_eq fee
    exact ⟨[], by simp, by simp [Linked, hfee]⟩

theorem TrailsKept.commit {env : Env} {s : Step} {w₀ w : World} {t : Trade} {k' : Work}
    (h : TrailsKept w) (ht : t ∈ w.db.trades) (hk : Handled env w₀ s (w.work t) k') :
    TrailsKept (w.commit k') := by
  have hid : k'.trade.id = t.id := hk.frame.entry.id
  obtain ⟨new, hnew, hlinked⟩ := hk.trail
  rw [World.work_trade] at hlinked
  have hevents : (w.commit k').db.tradeEvents = w.db.tradeEvents ++ new := by
    simp [World.commit, Db.record, hnew, World.work]
  have htrades := World.commit_trades ht hid
  refine ⟨?_, ?_⟩
  · intro r hr
    rw [htrades] at hr
    obtain ⟨r₀, hr₀, rfl⟩ := List.mem_map.mp hr
    rw [Db.eventsOf_append hevents hlinked.tradeId]
    by_cases hkey : r₀.id = t.id
    · obtain ⟨created, transitions, s₀, hold, htype, hto, hlinked₀⟩ := h.linked t ht
      rw [if_pos hkey, if_pos hid, hid, hold]
      exact ⟨created, transitions ++ new, s₀, rfl, htype, hto, hlinked₀.append hlinked⟩
    · rw [if_neg hkey, if_neg hkey]
      exact h.linked r₀ hr₀
  · intro e he
    rw [hevents] at he
    have hrow : ∀ r ∈ w.db.trades, ∃ r' ∈ (w.commit k').db.trades, r'.id = r.id := by
      intro r hr
      rw [htrades]
      by_cases hkey : r.id = t.id
      · exact ⟨k'.trade, List.mem_map.mpr ⟨r, hr, if_pos hkey⟩, hid.trans hkey.symm⟩
      · exact ⟨r, List.mem_map.mpr ⟨r, hr, if_neg hkey⟩, rfl⟩
    obtain he | he := List.mem_append.mp he
    · obtain ⟨r, hr, hre⟩ := h.owned e he
      obtain ⟨r', hr', hrr⟩ := hrow r hr
      exact ⟨r', hr', hrr.trans hre⟩
    · obtain ⟨r', hr', hrr⟩ := hrow t ht
      exact ⟨r', hr', hrr.trans (hlinked.tradeId e he).symm⟩

theorem TrailsKept.created {env : Env} {req : NormalizedExecuteSignalRequest} {io : ExecuteIo}
    {signalId : SignalId} {plan : EntryPlan} {raised : Option PyError} {k : Work} {w w' : World}
    (h : TrailsKept w) (hw : w.WellFormed)
    (hk : settleEntry env.settings .spot req io (entryWork env req io (w, signalId, plan)) =
      .committed raised k)
    (htrades : w'.db.trades = w.db.trades ++ [k.trade])
    (hevents : w'.db.tradeEvents = w.db.tradeEvents ++ k.events) : TrailsKept w' := by
  have htraced := settleEntry_traced env.settings .spot req io
    (entryWork env req io (w, signalId, plan))
  rw [hk] at htraced
  have hid : k.trade.id = w.issued := htraced.id
  obtain ⟨new, hnew, hlinked⟩ := htraced.trail
  have hstart : k.events = ⟨w.issued, .tradeCreated, none, some riskCalculated, orderExecutor⟩ ::
      new := hnew
  have hall : ∀ e ∈ k.events, e.tradeId = w.issued := by
    intro e he
    rw [hstart] at he
    obtain rfl | he := List.mem_cons.mp he
    · rfl
    · exact hlinked.tradeId e he
  refine ⟨?_, ?_⟩
  · intro t ht
    rw [Db.eventsOf_append hevents hall]
    rw [htrades] at ht
    obtain ht | ht := List.mem_append.mp ht
    · rw [if_neg (hw.fresh t ht).ne]
      exact h.linked t ht
    · obtain rfl := List.mem_singleton.mp ht
      -- no event was written for an id before the trade with that id
      have hnone : w.db.eventsOf k.trade.id = [] := by
        refine List.filter_eq_nil_iff.mpr fun e he => ?_
        obtain ⟨r, hr, hre⟩ := h.owned e he
        rw [hid, ← hre]
        simpa using (hw.fresh r hr).ne
      rw [if_pos hid, hnone, List.nil_append, hstart]
      exact ⟨_, new, riskCalculated, rfl, rfl, rfl, hid ▸ hlinked⟩
  · intro e he
    rw [hevents] at he
    rw [htrades]
    obtain he | he := List.mem_append.mp he
    · obtain ⟨r, hr, hre⟩ := h.owned e he
      exact ⟨r, List.mem_append_left _ hr, hre⟩
    · exact ⟨k.trade, by simp, hid.trans (hall e he).symm⟩

theorem TrailsKept.commits {env : Env} {s : Step} {w w' : World} (h : TrailsKept w)
    (hc : Commits env s w w') : TrailsKept w' := by
  induction hc with
  | start => exact h
  | commit _ _ _ ht₁ hk ih => exact ih.commit ht₁ hk
  | quiet _ hq ih =>
    have hsame : ∀ id, Db.eventsOf id _ = Db.eventsOf id _ := fun id =>
      congrArg (List.filter fun e : TradeEvent => decide (e.tradeId = id)) hq.events
    refine ⟨?_, ?_⟩
    · intro t ht
      rw [hsame]
      exact ih.linked t (hq.trades ▸ ht)
    · intro e he
      rw [hq.trades]
      exact ih.owned e (hq.events ▸ he)
  | created _ hw₁ _ _ hk htrades hevents _ ih => exact ih.created hw₁ hk htrades hevents

/-- In every run the trade events of each committed trade, in the order of their ids,
start with its creation, are linked, and end in its status. -/
theorem auditTrails_run (env : Env) (ss : List Step) :
    AuditTrails (Runs.run (step env) {} ss) :=
  (run_of_commits ss ⟨by simp, by simp⟩ fun _ _ _ _ hc h => TrailsKept.commits h hc).audited

end AmaExecutionCore
