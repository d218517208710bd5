import AmaExecutionCore.Requests
import AmaExecutionCore.Submissions

/-! What holds in every interleaving of requests: the database stays well formed, and the
trade of a request under way has its id and its order ids to itself. -/
namespace AmaExecutionCore
open TradeStatus

namespace Request

/-- The trade that is flushed and whose entry orders are out, until it is committed. -/
def pending (r : Request) : Option Trade :=
  match r.stage with
  | .sent _ settled => some settled.work.trade
  | _ => none

end Request

/-- The trade's id and its order ids were drawn for it alone. -/
structure Reserved (w : World) (t : Trade) : Prop where
  drawn : t.id < w.issued
  fresh : ∀ r ∈ w.db.trades, r.id ≠ t.id
  links : ∀ link, t.ownsOrderLinkId link = true → link.drawnAt t.id
  unused : ∀ r ∈ w.db.trades, ∀ link, r.ownsOrderLinkId link = true → ¬ link.drawnAt t.id

/-- Rows that keep their ids, and take new order ids only from what is still to be issued. -/
def World.KeepsIds (w w' : World) : Prop :=
  w.issued ≤ w'.issued ∧ List.Forall₂ (fun r r' => r'.id = r.id ∧ ∀ link,
    r'.ownsOrderLinkId link = true → r.ownsOrderLinkId link = true ∨
      ∃ n, w.issued ≤ n ∧ link.drawnAt n) w.db.trades w'.db.trades

theorem World.KeepsIds.of_trades {w w' : World} (h : w'.db.trades = w.db.trades)
    (hissued : w.issued ≤ w'.issued) : w.KeepsIds w' := by
  refine ⟨hissued, ?_⟩
  rw [h]
  exact List.forall₂_same.mpr fun r _ => ⟨rfl, fun link hl => .inl hl⟩

theorem Effect.keepsIds {env : Env} {s : Step} {w w' : World} (h : Effect env s w w')
    (hs : ∀ req io, s ≠ .executeSignal req io) : w.KeepsIds w' := by
  refine ⟨h.issued, (h.moved_trades hs).imp ?_⟩
  rintro t t' ⟨k, k', hmove, rfl, rfl, -, -, hnonce, hlinks⟩
  refine ⟨hmove.entry.id, fun link hl => ?_⟩
  obtain hl | ⟨hd, -⟩ := hlinks link hl
  · exact .inl hl
  · exact .inr ⟨k.nonce, hnonce, hd⟩

theorem Reserved.keepsIds {w w' : World} {t : Trade} (h : Reserved w t) (hw : w.KeepsIds w') :
    Reserved w' t := by
  obtain ⟨hissued, hrows⟩ := hw
  refine ⟨h.drawn.trans_le hissued, ?_, h.links, ?_⟩
  · intro r' hr'
    obtain ⟨r, hr, hid, -⟩ := Rows.exists_left hrows hr'
    rw [hid]
    exact h.fresh r hr
  · intro r' hr' link hl hd
    obtain ⟨r, hr, -, hlinks⟩ := Rows.exists_left hrows hr'
    obtain hl | ⟨n, hn, hd'⟩ := hlinks link hl
    · exact h.unused r hr link hl hd
    · have heq : t.id = n := OrderLinkId.drawnAt_unique hd hd'
      exact absurd h.drawn (not_lt.mpr (heq ▸ hn))

theorem Reserved.insert {w w' : World} {t t₀ : Trade} (h : Reserved w t) (h₀ : Reserved w t₀)
    (hne : t₀.id ≠ t.id) (htrades : w'.db.trades = w.db.trades ++ [t₀])
    (hissued : w'.issued = w.issued) : Reserved w' t := by
  have hmem : ∀ r ∈ w'.db.trades, r ∈ w.db.trades ∨ r = t₀ := by
    intro r hr
    rw [htrades] at hr
    obtain hr | hr := List.mem_append.mp hr
    · exact .inl hr
    · exact .inr (List.mem_singleton.mp hr)
  refine ⟨hissued ▸ h.drawn, ?_, h.links, ?_⟩
  · intro r hr
    obtain hr | rfl := hmem r hr
    · exact h.fresh r hr
    · exact hne
  · intro r hr link hl hd
    obtain hr | rfl := hmem r hr
    · exact h.unused r hr link hl hd
    · exact hne (OrderLinkId.drawnAt_unique (h₀.links link hl) hd)

theorem World.WellFormed.insert {w w' : World} {t : Trade} (hw : w.WellFormed) (h : Reserved w t)
    (htrades : w'.db.trades = w.db.trades ++ [t]) (hissued : w'.issued = w.issued)
    (horders : w'.exchange.orders = w.exchange.orders) : w'.WellFormed := by
  have hmem : ∀ r ∈ w'.db.trades, r ∈ w.db.trades ∨ r = t := by
    intro r hr
    rw [htrades] at hr
    obtain hr | hr := List.mem_append.mp hr
    · exact .inl hr
    · exact .inr (List.mem_singleton.mp hr)
  refine ⟨?_, ?_, ?_, ?_, ?_⟩
  · rw [htrades, List.map_append, List.nodup_append]
    refine ⟨hw.ids, by simp, ?_⟩
    rintro i hi j hj rfl
    obtain ⟨r, hr, rfl⟩ := List.mem_map.mp hi
    exact h.fresh r hr (List.mem_singleton.mp hj)
  · intro r hr
    rw [hissued]
    obtain hr | rfl := hmem r hr
    · exact hw.fresh r hr
    · exact h.drawn
  · rw [horders, hissued]
    exact hw.sent
  · intro r hr link hl
    rw [hissued]
    obtain hr | rfl := hmem r hr
    · exact hw.links r hr link hl
    · exact ⟨r.id, h.drawn, h.links link hl⟩
  · intro r hr r' hr' link hl hl'
    obtain hr | rfl := hmem r hr <;> obtain hr' | rfl := hmem r' hr'
    · exact hw.owner r hr r' hr' link hl hl'
    · exact absurd (h.links link hl') (h.unused r hr link hl)
    · exact absurd (h.links link hl) (h.unused r' hr' link hl')
    · rfl

theorem World.WellFormed.of_rows {w w' : World} (hw : w.WellFormed) (hissued : w.issued ≤ w'.issued)
    (hrows : List.Forall₂ (fun r r' => r'.id = r.id ∧
      ∀ link, r'.ownsOrderLinkId link = r.ownsOrderLinkId link) w.db.trades w'.db.trades)
    (horders : w'.exchange.orders = w.exchange.orders) : w'.WellFormed := by
  refine ⟨?_, ?_, ?_, ?_, ?_⟩
  · rw [Rows.map_key_eq hrows fun _ _ h => h.1]
    exact hw.ids
  · intro r' hr'
    obtain ⟨r, hr, hid, -⟩ := Rows.exists_left hrows hr'
    rw [hid]
    exact (hw.fresh r hr).trans_le hissued
  · rw [horders]
    exact fun o ho => (hw.sent o ho).trans_le hissued
  · intro r' hr' link hl
    obtain ⟨r, hr, -, howns⟩ := Rows.exists_left hrows hr'
    obtain ⟨n, hn, hd⟩ := hw.links r hr link (howns link ▸ hl)
    exact ⟨n, hn.trans_le hissued, hd⟩
  · intro r' hr' q' hq' link hl hl'
    obtain ⟨r, hr, hid, howns⟩ := Rows.exists_left hrows hr'
    obtain ⟨q, hq, hid', howns'⟩ := Rows.exists_left hrows hq'
    rw [hid, hid']
    exact hw.owner r hr q hq link (howns link ▸ hl) (howns' link ▸ hl')

/-- What the answer about a pending order writes: at most a status, over the row as it is. -/
theorem commitLoaded_rows {existing : Trade} {k : Work} {w : World}
    (h : existing.SameEntry k.trade) (hx : existing.SameExits k.trade) :
    List.Forall₂ (fun r r' => (r.SameTerms r' ∧ ∀ link,
        r'.ownsOrderLinkId link = r.ownsOrderLinkId link) ∧ (r' = r ∨ (r.id = existing.id ∧
      (r'.status = r.status ∨ (k.trade.status ≠ existing.status ∧ r'.status = k.trade.status)))))
      w.db.trades (w.commitLoaded existing k).db.trades := by
  rw [World.commitLoaded, List.forall₂_map_right_iff, List.forall₂_same]
  intro r _
  by_cases hid : r.id = existing.id
  · rw [if_pos hid]
    refine ⟨⟨?_, ?_⟩, .inr ⟨hid, ?_⟩⟩
    · constructor <;> simp [Trade.overwrite, h.signalId, h.symbol, h.signalDirection,
        h.exchangeSide, h.marketType, h.mode, h.riskAmountUsd, h.qty, h.stopPrice, h.targetPrice,
        written_same]
    · intro link
      simp [Trade.ownsOrderLinkId, Trade.overwrite, h.orderLinkId, hx.close, hx.stop,
        hx.takeProfit, written_same]
    · simp only [Trade.overwrite, written]
      split_ifs with hst
      · exact .inl rfl
      · exact .inr ⟨hst, rfl⟩
  · rw [if_neg hid]
    exact ⟨⟨.refl r, fun _ => rfl⟩, .inl rfl⟩

/-- Neither a trade, nor an order, nor the book changed. -/
structure World.Untouched (w w' : World) : Prop extends w.SameBook w' where
  trades : w'.db.trades = w.db.trades
  orders : w'.exchange.orders = w.exchange.orders
  issued : w.issued ≤ w'.issued

theorem World.Untouched.refl (w : World) : w.Untouched w := ⟨.refl w, rfl, rfl, le_refl _⟩

/-- The next piece of a request, by what it does to the world. -/
inductive Piece (env : Env) (r : Request) (w : World) : World × Request → Prop
  | unread (hst : r.stage = .arrived) : Piece env r w (w, r.atStage (.unregistered none))
  | read {submission} (hst : r.stage = .arrived)
      (hrow : w.db.getSignalSubmission (env.fingerprint r.req) = some submission) :
      Piece env r w (w, r.atStage (.submissionRead submission))
  | renewed {submission} (hst : r.stage = .submissionRead submission) :
      Piece env r w (w, r.atStage (.unregistered (some submission)))
  | asked {submission existing} (hst : r.stage = .submissionRead submission)
      (hfound : w.db.getTradeForSubmission submission = some existing)
      (hpend : existing.status = orderPendingUnknown) :
      Piece env r w (w, r.atStage (.statusAsked submission existing))
  | replayed {submission existing} (hst : r.stage = .submissionRead submission)
      (hfound : w.db.getTradeForSubmission submission = some existing) :
      Piece env r w (w, r.atStage (.finished (replayResult submission existing w).1))
  | told {submission existing k stage} (hst : r.stage = .statusAsked submission existing)
      (hk : reconcilePendingUnknown r.io.pendingLookup (w.work existing) = (.ok (), k))
      (hstage : stage = .unregistered (some submission) ∨
        stage = .finished (replayResult submission k.trade (w.commitLoaded existing k)).1) :
      Piece env r w (w.commitLoaded existing k, r.atStage stage)
  | registered {loaded rows w' stage} (hst : r.stage = .unregistered loaded)
      (hrows : submissionRows (env.fingerprint r.req) loaded w.issued w.db = .ok rows)
      (hsubmissions : w'.db.submissions = rows)
      (horigin : w'.origin = w.origin ++ [(w.issued, env.fingerprint r.req)])
      (htrades : w'.db.trades = w.db.trades) (hexchange : w'.exchange = w.exchange)
      (hissued : w'.issued = w.issued + 1)
      (hstage : stage = .guarded w.issued ∨ ∃ e, stage = .finished (.error e)) :
      Piece env r w (w', r.atStage stage)
  | breaker {signalId} (hst : r.stage = .guarded signalId) :
      Piece env r w (w, r.atStage (.breakerPassed signalId))
  | idempotent {signalId} (hst : r.stage = .breakerPassed signalId) :
      Piece env r w (w, r.atStage (.unsubmitted signalId))
  | planned {signalId plan} (hst : r.stage = .unsubmitted signalId)
      (hplan : planEntry env.settings .spot r.req r.io w.db = .ok plan) :
      Piece env r w (w, r.atStage (.planned signalId plan))
  | submitted {signalId plan} (hst : r.stage = .planned signalId plan) :
      Piece env r w (r.submitted env signalId plan w)
  | committed {signalId raised k stage} (hst : r.stage = .sent signalId (.committed raised k))
      (hstage : stage = .recorded signalId k.trade ∨ ∃ e, stage = .finished (.error e)) :
      Piece env r w ({ w with db := recordEntry r.io k w.db }, r.atStage stage)
  | linked {signalId trade} (hst : r.stage = .recorded signalId trade) :
      Piece env r w (w.linkTrade (env.fingerprint r.req) trade.id,
        r.atStage (.finished (.ok (buildResult signalId trade false))))
  | raised {w' e} (h : w.Untouched w') : Piece env r w (w', r.atStage (.finished (.error e)))
  | ended {result} (hst : r.stage = .finished result) : Piece env r w (w, r)

theorem registered_piece (env : Env) {r : Request} {loaded : Option SignalSubmission} {w : World}
    (hst : r.stage = .unregistered loaded) : Piece env r w (r.registered env loaded w) := by
  unfold Request.registered registerSignal
  cases hrows : submissionRows (env.fingerprint r.req) loaded w.issued w.db with
  | error e => exact .raised (.refl w)
  | ok rows =>
    simp only [Except.map]
    generalize hreg : World.mk _ _ _ _ = registered
    have hguard := killSwitchGuard_world r.io.now registered
    cases hrun : killSwitchGuard r.io.now registered with
    | mk result w' =>
      rw [hrun] at hguard
      obtain rfl : w' = killSwitchStatus r.io.now registered := hguard
      subst hreg
      cases result with
      | error e => exact .registered hst hrows rfl rfl rfl rfl rfl (.inr ⟨e, rfl⟩)
      | ok _ => exact .registered hst hrows rfl rfl rfl rfl rfl (.inl rfl)

theorem answered_piece (env : Env) {r : Request} {submission : SignalSubmission} {existing : Trade}
    {w : World} (hst : r.stage = .statusAsked submission existing) :
    Piece env r w (r.answered submission existing w) := by
  have hsent := reconcilePendingUnknown_orders r.io.pendingLookup (w.work existing)
  unfold Request.answered
  cases hk : reconcilePendingUnknown r.io.pendingLookup (w.work existing) with
  | mk result k =>
    rw [hk] at hsent
    cases result with
    | error e => exact .raised ⟨.rollback k w, rfl, hsent, Nat.le_succ _⟩
    | ok _ =>
      dsimp only
      split_ifs
      · exact .told hst hk (.inl rfl)
      · exact .told hst hk (.inr rfl)

theorem next_piece (env : Env) (r : Request) (w : World) : Piece env r w (r.next env w) := by
  cases hst : r.stage with
  | arrived =>
    simp only [Request.next, hst]
    cases hrow : w.db.getSignalSubmission (env.fingerprint r.req) with
    | none => exact .unread hst
    | some submission => exact .read hst hrow
  | submissionRead submission =>
    simp only [Request.next, hst, Request.resolved]
    cases hfound : w.db.getTradeForSubmission submission with
    | none => exact .renewed hst
    | some existing =>
      dsimp only
      split_ifs with hterm hpend
      · exact .renewed hst
      · exact .asked hst hfound hpend
      · exact .replayed hst hfound
  | statusAsked submission existing =>
    simp only [Request.next, hst]
    exact answered_piece env hst
  | unregistered loaded =>
    simp only [Request.next, hst]
    exact registered_piece env hst
  | guarded signalId =>
    simp only [Request.next, hst]
    split
    · exact .raised ⟨⟨rfl, rfl⟩, rfl, rfl, le_refl _⟩
    · exact .breaker hst
  | breakerPassed signalId =>
    simp only [Request.next, hst]
    split_ifs
    · exact .raised (.refl w)
    · exact .idempotent hst
  | unsubmitted signalId =>
    simp only [Request.next, hst]
    split
    · exact .raised (.refl w)
    · next hplan => exact .planned hst hplan
  | planned signalId plan =>
    simp only [Request.next, hst]
    exact .submitted hst
  | sent signalId settled =>
    simp only [Request.next, hst, Request.committed]
    cases settled with
    | aborted e k => exact .raised (.refl w)
    | committed raised k =>
      cases raised with
      | none => exact .committed hst (.inl rfl)
      | some e => exact .committed hst (.inr ⟨e, rfl⟩)
  | recorded signalId trade =>
    simp only [Request.next, hst]
    exact .linked hst
  | finished result =>
    simp only [Request.next, hst]
    exact .ended hst

/-- The trade of a request under way is its own. -/
def OwnTrade (w : World) (r : Request) : Prop := ∀ t ∈ r.pending, Reserved w t

def OtherTrade (r r' : Request) : Prop := ∀ t ∈ r.pending, ∀ t' ∈ r'.pending, t.id ≠ t'.id

/-- What holds whatever the interleaving. -/
abbrev RequestsSound (s : Sessions.State World Request) : Prop :=
  Sessions.Holds World.WellFormed OwnTrade OtherTrade s

theorem World.Untouched.keepsIds {w w' : World} (h : w.Untouched w') : w.KeepsIds w' :=
  .of_trades h.trades h.issued

theorem World.WellFormed.untouched {w w' : World} (hw : w.WellFormed)
    (htrades : w'.db.trades = w.db.trades) (horders : w'.exchange.orders = w.exchange.orders)
    (hissued : w.issued ≤ w'.issued) : w'.WellFormed := by
  refine hw.of_rows hissued ?_ horders
  rw [htrades]
  exact List.forall₂_same.mpr fun _ _ => ⟨rfl, fun _ => rfl⟩

/-- The trade a request sends its entry order for gets a new id, and new order ids. -/
theorem submitted_reserved {env : Env} {r : Request} {signalId : SignalId} {plan : EntryPlan}
    {w : World} (hw : w.WellFormed) :
    (r.submitted env signalId plan w).1.WellFormed ∧
      w.KeepsIds (r.submitted env signalId plan w).1 ∧
      ∀ t ∈ (r.submitted env signalId plan w).2.pending, t.id = w.issued ∧
        t.signalId = some signalId ∧ Reserved (r.submitted env signalId plan w).1 t := by
  obtain ⟨status, link, ty, new, henters, hlink, hnew⟩ :=
    (settleEntry_entered env.settings .spot r.req r.io (entryWork env r.req r.io (w, signalId, plan))
      (entryWork_link _ _ _ _)).enters (entryWork_link _ _ _ _)
  have hdrawn : link.drawnAt w.issued := drawnAt_entryLink hlink
  have hlinks : ∀ l, (settleEntry env.settings .spot r.req r.io
      (entryWork env r.req r.io (w, signalId, plan))).work.trade.ownsOrderLinkId l = true →
      l.drawnAt w.issued := by
    intro l hl
    rw [Trade.owns_iff, henters.link, henters.exits.close, henters.exits.stop,
      henters.exits.takeProfit] at hl
    obtain hl | hl | hl | hl := hl
    · exact Option.some.inj hl ▸ hdrawn
    · cases hl
    · cases hl
    · cases hl
  have hwf : (r.submitted env signalId plan w).1.WellFormed :=
    hw.extend rfl (List.append_nil _).symm (.inl rfl) henters.orders fun o ho => (hnew o ho).1
  refine ⟨hwf, .of_trades rfl (Nat.le_succ _), ?_⟩
  rintro t ht
  obtain rfl := Option.some.inj ht
  have hid : _ = w.issued := henters.same.id
  refine ⟨hid, henters.same.signalId, ?_, ?_, ?_, ?_⟩
  · rw [hid]
    exact Nat.lt_succ_self _
  · intro q hq
    rw [hid]
    exact (hw.fresh q hq).ne
  · rw [hid]
    exact hlinks
  · intro q hq l hl hd
    rw [hid] at hd
    obtain ⟨n, hn, hd'⟩ := hw.links q hq l hl
    exact absurd (OrderLinkId.drawnAt_unique hd hd') hn.ne'

theorem told_rows {r : Request} {existing : Trade} {k : Work} {w : World}
    (hk : reconcilePendingUnknown r.io.pendingLookup (w.work existing) = (.ok (), k)) :
    existing.SameEntry k.trade ∧ existing.SameExits k.trade ∧
      k.exchange.orders = w.exchange.orders := by
  have hsent := reconcilePendingUnknown_orders r.io.pendingLookup (w.work existing)
  rw [hk] at hsent
  obtain rfl | ⟨remote, -, rfl⟩ := reconcilePendingUnknown_ok hk
  · exact ⟨.refl _, by constructor <;> rfl, hsent⟩
  · have h := noteRemoteStatus_settles remote (w.work existing)
    exact ⟨h.frame.entry, ⟨h.close, h.stop, h.takeProfit⟩, hsent⟩

theorem told_status {r : Request} {existing : Trade} {k : Work} {w : World}
    (hk : reconcilePendingUnknown r.io.pendingLookup (w.work existing) = (.ok (), k)) :
    k.trade.status = existing.status ∨ ∃ remote, r.io.pendingLookup = .ok (some remote) ∧
      k.trade.status = mapRemoteOrderStatus remote.orderStatus := by
  obtain rfl | ⟨remote, hlookup, rfl⟩ := reconcilePendingUnknown_ok hk
  · exact .inl rfl
  · exact .inr ⟨remote, hlookup, (noteRemoteStatus_settles remote _).status⟩

theorem Piece.sound {env : Env} {w : World} (hw : w.WellFormed) {r : Request} (hown : OwnTrade w r)
    {p : World × Request} (hp : Piece env r w p) :
    p.1.WellFormed ∧ OwnTrade p.1 p.2 ∧ ∀ d, OwnTrade w d → OtherTrade r d →
      OwnTrade p.1 d ∧ OtherTrade p.2 d ∧ OtherTrade d p.2 := by
  -- pieces that neither send nor commit the trade
  have hquiet : ∀ w' r', w'.WellFormed → w.KeepsIds w' → Request.pending r' = none →
      w'.WellFormed ∧ OwnTrade w' r' ∧ ∀ d, OwnTrade w d → OtherTrade r d →
        OwnTrade w' d ∧ OtherTrade r' d ∧ OtherTrade d r' := by
    intro w' r' hw' hkeep hnone
    have hpend : ∀ t, t ∉ r'.pending := by simp [hnone]
    refine ⟨hw', fun t ht => absurd ht (hpend t), fun d hd _ => ⟨?_, ?_, ?_⟩⟩
    · exact fun t ht => (hd t ht).keepsIds hkeep
    · exact fun t ht => absurd ht (hpend t)
    · exact fun _ _ t ht => absurd ht (hpend t)
  have hkeep : w.KeepsIds w := .of_trades rfl (le_refl _)
  cases hp with
  | unread => exact hquiet _ _ hw hkeep rfl
  | read => exact hquiet _ _ hw hkeep rfl
  | renewed => exact hquiet _ _ hw hkeep rfl
  | asked => exact hquiet _ _ hw hkeep rfl
  | replayed => exact hquiet _ _ hw hkeep rfl
  | told _ hk hstage =>
    obtain ⟨hentry, hexits, hsent⟩ := told_rows hk
    have hrows := commitLoaded_rows (w := w) hentry hexits
    refine hquiet _ _ (hw.of_rows (Nat.le_succ _) (hrows.imp fun _ _ h => ⟨h.1.1.id, h.1.2⟩) hsent)
      ⟨Nat.le_succ _, hrows.imp fun _ _ h => ⟨h.1.1.id, fun link hl => .inl (h.1.2 link ▸ hl)⟩⟩ ?_
    obtain rfl | rfl := hstage <;> rfl
  | registered _ _ _ _ htrades hexchange hissued hstage =>
    have hle := (Nat.le_succ _).trans hissued.ge
    refine hquiet _ _ (hw.untouched htrades (by rw [hexchange]) hle) (.of_trades htrades hle) ?_
    obtain rfl | ⟨e, rfl⟩ := hstage <;> rfl
  | breaker => exact hquiet _ _ hw hkeep rfl
  | idempotent => exact hquiet _ _ hw hkeep rfl
  | planned => exact hquiet _ _ hw hkeep rfl
  | submitted =>
    obtain ⟨hw', hkeep', hnew⟩ := @submitted_reserved env r _ _ _ hw
    refine ⟨hw', fun t ht => (hnew t ht).2.2, fun d hd _ => ?_⟩
    have hbelow : ∀ t ∈ d.pending, t.id < w.issued := fun t ht => (hd t ht).drawn
    refine ⟨fun t ht => (hd t ht).keepsIds hkeep', ?_, ?_⟩
    · intro t ht t' ht'
      rw [(hnew t ht).1]
      exact (hbelow t' ht').ne'
    · intro t' ht' t ht
      rw [(hnew t ht).1]
      exact (hbelow t' ht').ne
  | @committed signalId raised k stage hst hstage =>
    have hpend : k.trade ∈ r.pending := by simp [Request.pending, hst, Settled.work]
    have hres := hown _ hpend
    have hput : Db.saveTrade k.trade w.db.trades = w.db.trades ++ [k.trade] :=
      Rows.put_of_fresh hres.fresh
    have hgone : ∀ t, t ∉ (r.atStage stage).pending := by
      obtain rfl | ⟨e, rfl⟩ := hstage <;> simp [Request.pending, Request.atStage]
    refine ⟨hw.insert hres hput rfl rfl, fun t ht => absurd ht (hgone t), fun d hd hother => ⟨?_, ?_, ?_⟩⟩
    · exact fun t ht => (hd t ht).insert hres (hother _ hpend t ht) hput rfl
    · exact fun t ht => absurd ht (hgone t)
    · exact fun _ _ t ht => absurd ht (hgone t)
  | linked => exact hquiet _ _ (hw.untouched rfl rfl (le_refl _)) (.of_trades rfl (le_refl _)) rfl
  | raised hsame =>
    exact hquiet _ _ (hw.untouched hsame.trades hsame.orders hsame.issued) hsame.keepsIds rfl
  | ended hst => exact hquiet _ _ hw hkeep (by simp [Request.pending, hst])

theorem handle_effect (env : Env) (e : Step) {w : World} (hw : w.WellFormed) :
    ((requestSystem env).handle w e).WellFormed ∧
      ((requestSystem env).handle w e = w ∨ ((∀ req io, e ≠ .executeSignal req io) ∧
        (requestSystem env).handle w e = step env w e ∧
        Effect env e w ((requestSystem env).handle w e))) := by
  by_cases hs : ∀ req io, e ≠ .executeSignal req io
  · have heq : (requestSystem env).handle w e = step env w e := by
      cases e with
      | executeSignal req io => exact absurd rfl (hs req io)
      | _ => rfl
    rw [heq]
    exact ⟨(step_effect env e hw).2, .inr ⟨hs, rfl, (step_effect env e hw).1⟩⟩
  · push Not at hs
    obtain ⟨req, io, rfl⟩ := hs
    exact ⟨hw, .inl rfl⟩

/-- Whatever takes its turn, ids stay unique and reserved trades reserved. -/
theorem requestsSound_step (env : Env) {s : Sessions.State World Request} (h : RequestsSound s)
    (act : Sessions.Act (NormalizedExecuteSignalRequest × ExecuteIo) Step) :
    RequestsSound (Sessions.step (requestSystem env) s act) := by
  cases act with
  | start a =>
    refine h.start ?_ fun r _ => ⟨?_, ?_⟩
    · exact fun t ht => by cases ht
    · exact fun _ _ t ht => by cases ht
    · exact fun t ht => by cases ht
  | advance i =>
    refine h.advance fun r hr => ?_
    obtain ⟨hstore, hown, hothers⟩ := (next_piece env r s.store).sound h.store (h.own i r hr)
    exact ⟨hstore, hown, fun j d hd hj => hothers d (h.own j d hd) (h.apart i j r d hr hd hj.symm)⟩
  | event e =>
    obtain ⟨hw', hsame | ⟨hs, -, heff⟩⟩ := handle_effect env e h.store
    · refine h.event hw' fun r _ hr => ?_
      rw [hsame]
      exact hr
    · exact h.event hw' fun r _ hr t ht => (hr t ht).keepsIds (heff.keepsIds hs)

end AmaExecutionCore
