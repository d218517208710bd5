import AmaExecutionCore.RequestRuns
import AmaExecutionCore.Revival

/-! The limit on open positions: the check of `execute` counts one status, and bounds the
open positions as long as everything that can still become one had room. -/
namespace AmaExecutionCore
open TradeStatus

/-- No more positions are open than the settings allow. -/
def OpenLimitKept (env : Env) (s : Sessions.State World Request) : Prop :=
  (listOpenTrades s.store.db).length ≤ env.settings.maxOpenPositions

instance (env : Env) : DecidablePred (OpenLimitKept env) := fun s =>
  inferInstanceAs (Decidable ((listOpenTrades s.store.db).length ≤ env.settings.maxOpenPositions))

/-- The trades that hold a position, or may still get one. -/
def World.liveCount (w : World) : Nat := w.db.trades.countP fun t => t.status ∉ deadStatuses

/-- The request has passed the check, and its trade is not committed. -/
def Request.admitted (r : Request) : Bool :=
  match r.stage with
  | .planned _ _ | .sent _ _ => true
  | _ => false

/-- The places of the limit that are taken. -/
def placesTaken (s : Sessions.State World Request) : Nat :=
  s.store.liveCount + s.sessions.countP Request.admitted

/-- There is a place for one more. -/
def HasRoom (env : Env) (s : Sessions.State World Request) : Prop :=
  placesTaken s < env.settings.maxOpenPositions

/-- The answer about a pending order brings back a trade that ended meanwhile. -/
def AnswerRevives (lookup : StatusOutcome) (existing : Trade) (w : World) : Prop :=
  (match lookup with
    | .ok (some remote) => mapRemoteOrderStatus remote.orderStatus ∉ existing.status :: deadStatuses
    | _ => False) ∧
  ∃ row ∈ w.db.trades, row.id = existing.id ∧ row.status ∈ deadStatuses

instance (lookup : StatusOutcome) (existing : Trade) (w : World) :
    Decidable (AnswerRevives lookup existing w) := by
  unfold AnswerRevives
  split <;> infer_instance

/-- The request's next piece may bring a trade among those that count. -/
def Request.needsRoom (env : Env) (r : Request) (w : World) : Prop :=
  match r.stage with
  | .unsubmitted _ => openPositionCount w.db < env.settings.maxOpenPositions
  | .statusAsked _ existing => AnswerRevives r.io.pendingLookup existing w
  | _ => False

/-- When the check lets a request pass there is room for its trade, and when a trade that
had ended comes back there is room for it. -/
def AdmitsWithRoom (env : Env) (s : Sessions.State World Request) :
    Sessions.Act (NormalizedExecuteSignalRequest × ExecuteIo) Step → Prop
  | .start _ => True
  | .advance i => ∀ r ∈ s.sessions[i]?, r.needsRoom env s.store → HasRoom env s
  | .event e => (∃ t ∈ s.store.db.trades, ∃ u ∈ e.update env t, Revives u.1 t) → HasRoom env s

instance (env : Env) (s : Sessions.State World Request) : Decidable (HasRoom env s) :=
  inferInstanceAs (Decidable (placesTaken s < env.settings.maxOpenPositions))

instance (env : Env) (r : Request) (w : World) : Decidable (r.needsRoom env w) := by
  unfold Request.needsRoom
  split <;> infer_instance

instance (env : Env) (s : Sessions.State World Request)
    (act : Sessions.Act (NormalizedExecuteSignalRequest × ExecuteIo) Step) :
    Decidable (AdmitsWithRoom env s act) := by
  cases act <;> unfold AdmitsWithRoom <;> infer_instance

theorem listOpenTrades_le_liveCount (w : World) : (listOpenTrades w.db).length ≤ w.liveCount := by
  rw [listOpenTrades, Db.listTradesByStatus, ← List.countP_eq_length_filter]
  refine List.countP_mono_left fun t _ ht => ?_
  simp only [openPositionStatuses, List.mem_cons, List.not_mem_nil, decide_eq_true_eq] at ht ⊢
  grind [deadStatuses]

theorem revived_unique {env : Env} {s : Step} {w : World} (hw : w.WellFormed) {t t' : Trade}
    (ht : t ∈ w.db.trades) (ht' : t' ∈ w.db.trades) {u u' : OrderData × HandlerIo}
    (hu : u ∈ s.update env t) (hu' : u' ∈ s.update env t') (hrev : Revives u.1 t)
    (hrev' : Revives u'.1 t') : t.id = t'.id := by
  obtain ⟨link, rfl, hlink, howns⟩ := Step.update_unlisted hu (unlisted_of_dead hrev.1)
  obtain ⟨link', heq, hlink', howns'⟩ := Step.update_unlisted hu' (unlisted_of_dead hrev'.1)
  simp only [Step.processOrder.injEq] at heq
  rw [← heq.1, hlink] at hlink'
  obtain rfl := Option.some.inj hlink'
  exact hw.owner t ht t' ht' link howns howns'

/-- An event adds a live trade only when it revives one, and then at most one. -/
theorem liveCount_event {env : Env} {e : Step} {w w' : World} (hw : w.WellFormed)
    (heff : Effect env e w w') (hs : ∀ req io, e ≠ .executeSignal req io) :
    w'.liveCount ≤ w.liveCount ∨ (w'.liveCount ≤ w.liveCount + 1 ∧
      ∃ t ∈ w.db.trades, ∃ u ∈ e.update env t, Revives u.1 t) := by
  have hrows := (List.forall₂_and_left _ _).mpr ⟨fun t (ht : t ∈ w.db.trades) => ht,
    heff.moved_trades hs⟩
  have hlive : ∀ t t', Moved env e w w' t t' → t'.status ∉ deadStatuses →
      t.status ∉ deadStatuses ∨ ∃ u ∈ e.update env t, Revives u.1 t := by
    rintro t t' ⟨k, k', hmove, rfl, rfl, -⟩ hlive
    by_cases hdead : k.trade.status ∈ deadStatuses
    · exact .inr ((hmove.revives hdead).resolve_left hlive)
    · exact .inl hdead
  by_cases hrev : ∃ t ∈ w.db.trades, ∃ u ∈ e.update env t, Revives u.1 t
  · refine .inr ⟨?_, hrev⟩
    obtain ⟨t₀, ht₀, u₀, hu₀, hrev₀⟩ := hrev
    refine Rows.countP_le_succ t₀.id hrows hw.ids ?_
    rintro t t' ⟨ht, hm⟩ hq
    obtain h | ⟨u, hu, hrev⟩ := hlive t t' hm (by simpa using hq)
    · exact .inl (by simpa using h)
    · exact .inr (revived_unique hw ht ht₀ hu hu₀ hrev hrev₀)
  · refine .inl (Rows.countP_le hrows ?_)
    rintro t t' ⟨ht, hm⟩ hq
    obtain h | ⟨u, hu, hrev'⟩ := hlive t t' hm (by simpa using hq)
    · simpa using h
    · exact absurd ⟨t, ht, u, hu, hrev'⟩ hrev

/-- The answer about a pending order adds a live trade only when it revives one. -/
theorem liveCount_told {r : Request} {existing : Trade} {k : Work} {w : World} (hw : w.WellFormed)
    (hk : reconcilePendingUnknown r.io.pendingLookup (w.work existing) = (.ok (), k)) :
    (w.commitLoaded existing k).liveCount ≤ w.liveCount ∨
      ((w.commitLoaded existing k).liveCount ≤ w.liveCount + 1 ∧
        AnswerRevives r.io.pendingLookup existing w) := by
  obtain ⟨hentry, hexits, -⟩ := told_rows hk
  have hrows := (List.forall₂_and_left _ _).mpr ⟨fun t (ht : t ∈ w.db.trades) => ht,
    commitLoaded_rows (w := w) hentry hexits⟩
  by_cases hrev : AnswerRevives r.io.pendingLookup existing w
  · refine .inr ⟨Rows.countP_le_succ existing.id hrows hw.ids ?_, hrev⟩
    rintro t t' ⟨ht, -, rfl | ⟨hid, -⟩⟩ hq
    · exact .inl hq
    · exact .inr hid
  · refine .inl (Rows.countP_le hrows ?_)
    rintro t t' ⟨ht, -, rfl | ⟨hid, hst | ⟨hne, hst⟩⟩⟩ hq
    · exact hq
    · rwa [hst] at hq
    · rw [decide_eq_true_eq] at hq ⊢
      intro hdead
      obtain hsame | ⟨remote, hl, htold⟩ := told_status hk
      · exact hne hsame
      · rw [htold] at hne hst
        refine hrev ⟨?_, t, ht, hid, hdead⟩
        have hnew : mapRemoteOrderStatus remote.orderStatus ∉ existing.status :: deadStatuses :=
          List.not_mem_cons_of_ne_of_not_mem hne (hst ▸ hq)
        rw [hl]
        exact hnew

theorem Piece.placesTaken {env : Env} {r : Request} {w : World} {p : World × Request} (hw : w.WellFormed)
    (hres : OwnTrade w r) (hp : Piece env r w p) :
    p.1.liveCount + p.2.admitted.toNat ≤ w.liveCount + r.admitted.toNat ∨
      (p.1.liveCount + p.2.admitted.toNat ≤ w.liveCount + r.admitted.toNat + 1 ∧
        r.needsRoom env w) := by
  have hstay : ∀ (w' : World) (r' : Request), w'.liveCount ≤ w.liveCount → r'.admitted = false →
      w'.liveCount + r'.admitted.toNat ≤ w.liveCount + r.admitted.toNat := by
    intro w' r' hlive hr'
    rw [hr', Bool.toNat_false]
    omega
  have hsame : ∀ {w' : World}, w'.db.trades = w.db.trades → w'.liveCount ≤ w.liveCount := by
    intro w' h
    rw [World.liveCount, World.liveCount, h]
  cases hp with
  | unread => exact .inl (hstay _ _ (hsame rfl) rfl)
  | read => exact .inl (hstay _ _ (hsame rfl) rfl)
  | renewed => exact .inl (hstay _ _ (hsame rfl) rfl)
  | asked => exact .inl (hstay _ _ (hsame rfl) rfl)
  | replayed => exact .inl (hstay _ _ (hsame rfl) rfl)
  | @told submission existing k stage hst hk hstage =>
    have hout : (r.atStage stage).admitted = false := by
      obtain rfl | rfl := hstage <;> rfl
    obtain hlive | ⟨hlive, hrev⟩ := liveCount_told hw hk
    · exact .inl (hstay _ _ hlive hout)
    · refine .inr ⟨?_, by simpa [Request.needsRoom, hst] using hrev⟩
      dsimp only
      rw [hout, Bool.toNat_false]
      omega
  | @registered loaded rows w' stage hst hrows hsub horig htrades hexchange hissued hstage =>
    have hout : (r.atStage stage).admitted = false := by
      obtain rfl | ⟨e, rfl⟩ := hstage <;> rfl
    exact .inl (hstay _ _ (hsame htrades) hout)
  | breaker => exact .inl (hstay _ _ (hsame rfl) rfl)
  | idempotent => exact .inl (hstay _ _ (hsame rfl) rfl)
  | planned hst hplan =>
    refine .inr ⟨?_, ?_⟩
    · simp only [Request.admitted, Request.atStage, hst]
      exact le_refl _
    · obtain ⟨-, -, -, -, hcount, -⟩ := planEntry_ok hplan
      simpa [Request.needsRoom, hst] using hcount
  | submitted hst =>
    left
    simp only [Request.admitted, hst]
    exact le_refl _
  | @committed signalId raised k stage hst hstage =>
    have hout : (r.atStage stage).admitted = false := by
      obtain rfl | ⟨e, rfl⟩ := hstage <;> rfl
    have hput : Db.saveTrade k.trade w.db.trades = w.db.trades ++ [k.trade] :=
      Rows.put_of_fresh (hres k.trade (by simp [Request.pending, hst, Settled.work])).fresh
    left
    rw [hout]
    simp only [World.liveCount, recordEntry, hput, List.countP_append, Request.admitted, hst]
    have hone := List.countP_le_length (p := fun t : Trade => t.status ∉ deadStatuses) (l := [k.trade])
    simp only [List.length_singleton] at hone
    simp only [Bool.toNat_false, Bool.toNat_true]
    omega
  | linked => exact .inl (hstay _ _ (hsame rfl) rfl)
  | raised h => exact .inl (hstay _ _ (hsame h.trades) rfl)
  | ended => exact .inl (le_refl _)

/-- Every turn keeps the places taken within the limit, given room where one is needed. -/
theorem placesTaken_step {env : Env} {s : Sessions.State World Request} (h : RequestsSound s)
    {act : Sessions.Act (NormalizedExecuteSignalRequest × ExecuteIo) Step}
    (hcond : AdmitsWithRoom env s act) (hle : placesTaken s ≤ env.settings.maxOpenPositions) :
    placesTaken (Sessions.step (requestSystem env) s act) ≤ env.settings.maxOpenPositions := by
  cases act with
  | start a =>
    simp only [placesTaken, Sessions.step, List.countP_append] at hle ⊢
    exact hle
  | event e =>
    obtain ⟨-, hsame | ⟨hs, -, heff⟩⟩ := handle_effect env e h.store
    · simp only [placesTaken, Sessions.step, hsame] at hle ⊢
      exact hle
    · simp only [placesTaken, Sessions.step] at hle ⊢
      obtain hlive | ⟨hlive, hrev⟩ := liveCount_event h.store heff hs
      · omega
      · have hroom := hcond hrev
        simp only [HasRoom, placesTaken] at hroom
        omega
  | advance i =>
    simp only [Sessions.step]
    cases hr : s.sessions[i]? with
    | none => exact hle
    | some r =>
      have hcount := Sessions.countP_set (p := Request.admitted) hr (r.next env s.store).2
      simp only [placesTaken, requestSystem] at hle ⊢
      obtain hlive | ⟨hlive, hneed⟩ := (next_piece env r s.store).placesTaken h.store (h.own i r hr)
      · omega
      · have hroom := hcond r hr hneed
        simp only [HasRoom, placesTaken] at hroom
        omega

/-- In a run in which every trade that comes to count had room, the number of open positions
stays within the limit. -/
theorem openLimit_run (env : Env)
    (acts : List (Sessions.Act (NormalizedExecuteSignalRequest × ExecuteIo) Step))
    (h : Runs.Meets (Sessions.step (requestSystem env)) (AdmitsWithRoom env) ⟨{}, []⟩ acts) :
    Runs.Always (Sessions.step (requestSystem env)) (OpenLimitKept env) ⟨{}, []⟩ acts := by
  refine Runs.always_of_invariant
    (I := fun s => RequestsSound s ∧ placesTaken s ≤ env.settings.maxOpenPositions)
    ⟨.init wellFormed_init, Nat.zero_le _⟩ ?_ ?_ h
  · rintro s act ⟨hs, hle⟩ hcond
    exact ⟨requestsSound_step env hs act, placesTaken_step hs hcond hle⟩
  · rintro s ⟨-, hle⟩
    have hopen := listOpenTrades_le_liveCount s.store
    simp only [placesTaken] at hle
    show (listOpenTrades s.store.db).length ≤ env.settings.maxOpenPositions
    omega

/-- A request taken through all its pieces. -/
def wholeRequest (i : Nat) (req : NormalizedExecuteSignalRequest) (io : ExecuteIo) :
    List (Sessions.Act (NormalizedExecuteSignalRequest × ExecuteIo) Step) :=
  .start (req, io) :: List.replicate 8 (.advance i)

/-- One entry order is accepted and filled. -/
theorem openLimit_filled : Runs.Always (Sessions.step (requestSystem (demoEnv .takerAllowed)))
    (OpenLimitKept (demoEnv .takerAllowed)) ⟨{}, []⟩
    (wholeRequest 0 demoRequest (demoExecute (.accepted none) (.ok none)) ++
      [.event (.processOrder demoEntryFill (demoHandler 1))]) :=
  openLimit_run _ _ (by decide +kernel)

/-- Two entry orders are accepted before either is filled, and then both are. -/
theorem openLimit_fails : ¬ Runs.Always (Sessions.step (requestSystem (demoEnv .takerAllowed)))
    (OpenLimitKept (demoEnv .takerAllowed)) ⟨{}, []⟩
    (wholeRequest 0 demoRequest (demoExecute (.accepted none) (.ok none)) ++
      wholeRequest 1 { demoRequest with symbol := "ETHUSDT" }
        (demoExecute (.accepted none) (.ok none)) ++
      [.event (.processOrder demoEntryFill (demoHandler 1)),
        .event (.processOrder
          { demoEntryFill with orderLinkId := some (.generated (some 2) 6) } (demoHandler 1))]) := by
  decide +kernel

end AmaExecutionCore
