import AmaExecutionCore.AuditTrail
import AmaExecutionCore.Twins

/-! The reconcile passes, trade by trade: a pass handles each listed trade once, in a
session of its own, and what the sessions before it did does not show in the result. -/
namespace AmaExecutionCore
open TradeStatus

/-- The trades a reconcile pass handles: those it lists, as far as it finds them again. -/
def Step.listed (env : Env) (db : Db) : Step → List Trade
  | .reconcileEntryOrders _ _ =>
    if env.restClient = true then db.listTradesByStatus entryReconciliationStatuses else []
  | .reconcileCloseOrders _ _ =>
    if env.restClient = true then db.listTradesByStatus closeReconciliationStatuses else []
  | .reconcileMissingProtection _ =>
    if env.restClient = true then
      db.listSpotMarketTradesMissingProtection.filter fun t => t.orderLinkId ≠ none
    else []
  | _ => []

/-- What a reconcile pass does to one listed trade. -/
def Step.handle (env : Env) (t : Trade) (k : Work) : Step → Outcome Work Bool
  | .reconcileEntryOrders answer io | .reconcileCloseOrders answer io =>
    reconcileTrade env.restClient (answer t.id) (io t.id) k
  | .reconcileMissingProtection io =>
    (.ok true, (ensureSpotMarketProtection env.restClient (io t.id) k).2)
  | _ => (.ok false, k)

theorem reconcileTrade_writes (restClient : Bool) (answer : StatusOutcome) (io : HandlerIo)
    (k : Work) : k.Writes (reconcileTrade restClient answer io k).2 := by
  obtain h | ⟨tracked, remote, -, -, -, h⟩ := reconcileTrade_cases restClient answer io k
  · rw [h]
    exact .kept (.refl k) (fun _ => .refl _) Iff.rfl
  · rw [h]
    exact applyOrderUpdate_writes _ _ _ _

theorem Step.handle_frame (env : Env) (t : Trade) (k : Work) (s : Step) :
    k.Frame (s.handle env t k).2 := by
  cases s with
  | reconcileEntryOrders answer io => exact reconcileTrade_frame _ _ _ _
  | reconcileCloseOrders answer io => exact reconcileTrade_frame _ _ _ _
  | reconcileMissingProtection io => exact ensureSpotMarketProtection_frame _ _ _
  | _ => exact .refl k

theorem Step.handle_trail (env : Env) (t : Trade) (k : Work) (s : Step) :
    ∃ new, (s.handle env t k).2.events = k.events ++ new ∧
      Linked k.trade.id k.trade.status new (s.handle env t k).2.trade.status := by
  cases s with
  | reconcileEntryOrders answer io => exact (reconcileTrade_writes _ _ _ _).trail
  | reconcileCloseOrders answer io => exact (reconcileTrade_writes _ _ _ _).trail
  | reconcileMissingProtection io => exact (ensureSpotMarketProtection_traced _ _ _).trail
  | _ => exact (Work.Traced.refl k).trail

theorem Step.handle_twin (env : Env) (t : Trade) (s : Step) {k l : Work} (h : k.Twin l) :
    Outcome.Twin (s.handle env t k) (s.handle env t l) := by
  cases s with
  | reconcileEntryOrders answer io => exact h.reconcileTrade _ _ _
  | reconcileCloseOrders answer io => exact h.reconcileTrade _ _ _
  | reconcileMissingProtection io => exact ⟨rfl, (h.ensureSpotMarketProtection _ _).2⟩
  | _ => exact ⟨rfl, h⟩

theorem World.commit_row {w : World} {t : Trade} {k' : Work} (ht : t ∈ w.db.trades)
    (hid : k'.trade.id = t.id) : k'.trade ∈ (w.commit k').db.trades := by
  rw [World.commit_trades ht hid]
  exact List.mem_map.mpr ⟨t, ht, if_pos rfl⟩

theorem World.commit_eventsOf {w : World} {id : TradeId} {k' : Work}
    (hev : ∀ e ∈ k'.events, e.tradeId = id) (id' : TradeId) : (w.commit k').db.eventsOf id' =
      if id' = id then w.db.eventsOf id' ++ k'.events else w.db.eventsOf id' :=
  Db.eventsOf_append rfl hev id'

/-- The commits of a pass over the trades `ts`. -/
def passOver (env : Env) (s : Step) (ts : List Trade) (w : World) : World :=
  ts.foldl (fun w t => w.commit (s.handle env t (w.work t)).2) w

section
variable {env : Env} {s : Step}

theorem passOver_cons (t : Trade) (ts : List Trade) (w : World) : passOver env s (t :: ts) w =
    passOver env s ts (w.commit (s.handle env t (w.work t)).2) := rfl

theorem passOver_issued (ts : List Trade) (w : World) :
    (passOver env s ts w).issued = w.issued + ts.length := by
  induction ts generalizing w with
  | nil => rfl
  | cons t ts ih =>
    rw [passOver_cons, ih, List.length_cons]
    simp only [World.commit]
    omega

theorem handle_events (w : World) (t : Trade) :
    ∀ e ∈ (s.handle env t (w.work t)).2.events, e.tradeId = t.id := by
  obtain ⟨new, hnew, hlinked⟩ := s.handle_trail env t (w.work t)
  have hempty : (w.work t).events = [] := rfl
  rw [hempty, List.nil_append] at hnew
  rw [hnew]
  exact hlinked.tradeId

theorem passOver_other {ts : List Trade} {w : World} (hmem : ∀ t ∈ ts, t ∈ w.db.trades)
    (hnodup : (ts.map Trade.id).Nodup) {r : Trade} (hr : r ∈ w.db.trades)
    (hnot : r.id ∉ ts.map Trade.id) : r ∈ (passOver env s ts w).db.trades ∧
      (passOver env s ts w).db.eventsOf r.id = w.db.eventsOf r.id := by
  induction ts generalizing w with
  | nil => exact ⟨hr, rfl⟩
  | cons t ts ih =>
    have ht := hmem t List.mem_cons_self
    have hid := (s.handle_frame env t (w.work t)).entry.id
    have hne : r.id ≠ t.id := fun h => hnot (h ▸ List.mem_cons_self)
    have hrest : ∀ q ∈ ts, q ∈ (w.commit (s.handle env t (w.work t)).2).db.trades := fun q hq =>
      World.mem_commit ht hid (hmem q (List.mem_cons_of_mem _ hq)) fun h =>
        (List.nodup_cons.mp hnodup).1 (h ▸ List.mem_map_of_mem hq)
    obtain ⟨hrow, hevents⟩ := ih hrest (List.nodup_cons.mp hnodup).2 (World.mem_commit ht hid hr hne)
      fun h => hnot (List.mem_cons_of_mem _ h)
    refine ⟨hrow, hevents.trans ?_⟩
    rw [World.commit_eventsOf (handle_events w t), if_neg hne]

/-- A pass handles each trade it lists once, from the row as it was before the pass. -/
theorem passOver_row {ts : List Trade} {w : World} (hmem : ∀ t ∈ ts, t ∈ w.db.trades)
    (hnodup : (ts.map Trade.id).Nodup) {t : Trade} (ht : t ∈ ts) : ∃ w₁ : World,
      w.issued ≤ w₁.issued ∧ w₁.issued < (passOver env s ts w).issued ∧
        (s.handle env t (w₁.work t)).2.trade ∈ (passOver env s ts w).db.trades ∧
        (passOver env s ts w).db.eventsOf t.id =
          w.db.eventsOf t.id ++ (s.handle env t (w₁.work t)).2.events := by
  induction ts generalizing w with
  | nil => cases ht
  | cons q ts ih =>
    have hq := hmem q List.mem_cons_self
    have hid := (s.handle_frame env q (w.work q)).entry.id
    have hnotin := (List.nodup_cons.mp hnodup).1
    have hrest : ∀ r ∈ ts, r ∈ (w.commit (s.handle env q (w.work q)).2).db.trades := fun r hr =>
      World.mem_commit hq hid (hmem r (List.mem_cons_of_mem _ hr)) fun h =>
        hnotin (h ▸ List.mem_map_of_mem hr)
    obtain rfl | ht := List.mem_cons.mp ht
    · -- handled first, and left alone from then on
      have hid' : (s.handle env t (w.work t)).2.trade.id = t.id := hid
      obtain ⟨hrow, hevents⟩ := @passOver_other env s _ _ hrest
        (List.nodup_cons.mp hnodup).2 _ (World.commit_row hq hid) (hid' ▸ hnotin)
      refine ⟨w, le_refl _, ?_, hrow, ?_⟩
      · rw [passOver_issued, List.length_cons]
        omega
      · rw [hid'] at hevents
        rw [passOver_cons, hevents, World.commit_eventsOf (handle_events w t), if_pos rfl]
    · obtain ⟨w₁, hle, hlt, hrow, hevents⟩ := ih hrest (List.nodup_cons.mp hnodup).2 ht
      refine ⟨w₁, (Nat.le_succ _).trans hle, hlt, hrow, hevents.trans ?_⟩
      have hne : t.id ≠ q.id := fun h => hnotin (h ▸ List.mem_map_of_mem ht)
      rw [World.commit_eventsOf (handle_events w q), if_neg hne]

theorem protectListed_eq {env : Env} {io : TradeId → HandlerIo} {ts : List Trade} {w : World}
    (hw : w.WellFormed) (hmem : ∀ t ∈ ts, t ∈ w.db.trades) (hnodup : (ts.map Trade.id).Nodup) :
    protectListed env.restClient io ts w = (.ok (), passOver env (.reconcileMissingProtection io)
      (ts.filter fun t => t.orderLinkId ≠ none) w) := by
  induction ts generalizing w with
  | nil => rfl
  | cons t ts ih =>
    have ht := hmem t List.mem_cons_self
    have hnotin := (List.nodup_cons.mp hnodup).1
    have hrest := (List.nodup_cons.mp hnodup).2
    simp only [protectListed]
    cases hlink : t.orderLinkId with
    | none =>
      rw [List.filter_cons_of_neg (by simp [hlink])]
      exact ih hw (fun r hr => hmem r (List.mem_cons_of_mem _ hr)) hrest
    | some link =>
      have hown : t.ownsOrderLinkId link = true := by
        rw [Trade.owns_iff]
        exact .inl hlink
      have hframe := ensureSpotMarketProtection_frame env.restClient (io t.id) (w.work t)
      rw [List.filter_cons_of_pos (by simp [hlink]), passOver_cons]
      simp only [hw.getTradeByOrderLinkId ht hown]
      exact ih (hw.commit ht hframe) (fun r hr => World.mem_commit ht hframe.entry.id
        (hmem r (List.mem_cons_of_mem _ hr)) fun h => hnotin (h ▸ List.mem_map_of_mem hr)) hrest

end

def Step.isPass : Step → Bool
  | .reconcileEntryOrders _ _ | .reconcileCloseOrders _ _ | .reconcileMissingProtection _ => true
  | _ => false

theorem Step.listed_mem {env : Env} {db : Db} {s : Step} {t : Trade} (h : t ∈ s.listed env db) :
    t ∈ db.trades := by
  cases s <;> simp only [Step.listed, List.not_mem_nil] at h
  all_goals split_ifs at h
  all_goals first
    | exact (List.mem_filter.mp h).1
    | exact (List.mem_filter.mp (List.mem_filter.mp h).1).1
    | exact absurd h List.not_mem_nil

theorem Step.listed_nodup {env : Env} {w : World} (hw : w.WellFormed) (s : Step) :
    ((s.listed env w.db).map Trade.id).Nodup := by
  have hsub : ∀ rows : List Trade, rows.Sublist w.db.trades → (rows.map Trade.id).Nodup :=
    fun rows h => hw.ids.sublist (h.map _)
  cases s <;> simp only [Step.listed, List.map_nil, List.nodup_nil]
  all_goals split_ifs
  all_goals first
    | exact List.nodup_nil
    | exact hsub _ (List.filter_sublist.trans List.filter_sublist)
    | exact hsub _ List.filter_sublist

/-- A reconcile pass is one session on each trade it lists. -/
theorem step_passOver {env : Env} {s : Step} {w : World} (hw : w.WellFormed)
    (hs : s.isPass = true) : step env w s = passOver env s (s.listed env w.db) w := by
  cases s <;> simp only [Step.isPass, Bool.false_eq_true] at hs
  all_goals cases hrest : env.restClient
  all_goals simp only [step, Step.listed, hrest, reconcileEntryOrders, reconcileCloseOrders,
    reconcileStatusGroup, reconcileMissingProtectionOrders, if_true, if_false,
    Bool.false_eq_true, Bool.true_eq_false]
  all_goals try rfl
  · next answer io => simp only [passOver, Step.handle, hrest]
  · next answer io => simp only [passOver, Step.handle, hrest]
  · next io =>
    have heq := @protectListed_eq env io _ w hw (fun t ht => (List.mem_filter.mp ht).1)
      (hw.nodup_filter Db.missingProtection)
    rw [hrest] at heq
    rw [Db.listSpotMarketTradesMissingProtection, heq]

end AmaExecutionCore
