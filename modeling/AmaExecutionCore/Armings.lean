import AmaExecutionCore.ExitRecord

/-! The stop and take-profit orders of a trade: it gets one of each at most, as long as no
call that raised had reached the exchange. -/
namespace AmaExecutionCore
open TradeStatus

/-- How many orders of this role the exchange took. -/
def taken (role : OrderRole) (own : List SentOrder) : Nat :=
  own.countP fun o => o.role = role && o.state ≠ .refused

/-- A stop or take-profit call for the trade that raises did not reach the exchange. -/
def ProtectionAnswered (io : HandlerIo) (t : Trade) : Prop :=
  t.marketType = .spot → t.orderType = some .market →
    (t.stopOrderLinkId = none → io.stop.raises = true → io.stop.reached = false) ∧
    (t.stopOrderLinkId ≠ none ∨ io.stop.raises = false → t.takeProfitOrderLinkId = none →
      io.takeProfit.raises = true → io.takeProfit.reached = false)

instance (io : HandlerIo) (t : Trade) : Decidable (ProtectionAnswered io t) :=
  inferInstanceAs (Decidable (t.marketType = .spot → t.orderType = some .market →
    (t.stopOrderLinkId = none → io.stop.raises = true → io.stop.reached = false) ∧
    (t.stopOrderLinkId ≠ none ∨ io.stop.raises = false → t.takeProfitOrderLinkId = none →
      io.takeProfit.raises = true → io.takeProfit.reached = false)))

def Step.protects (t : Trade) : Step → Option HandlerIo
  | .reconcileMissingProtection io => if Db.missingProtection t = true then some (io t.id) else none
  | _ => none

/-- The step loses no stop or take-profit order of the trade on its way. -/
def ArmingAnswered (env : Env) (t : Trade) (s : Step) : Prop :=
  (∀ io ∈ s.protects t, ProtectionAnswered io t) ∧
    ∀ u ∈ s.update env t, ConfirmsEntry u.1 t → ProtectionAnswered u.2 t

instance (env : Env) (t : Trade) (s : Step) : Decidable (ArmingAnswered env t s) :=
  inferInstanceAs (Decidable ((∀ io ∈ s.protects t, ProtectionAnswered io t) ∧
    ∀ u ∈ s.update env t, ConfirmsEntry u.1 t → ProtectionAnswered u.2 t))

/-- At most one stop and one take-profit order was taken, and then its id is on the row. -/
structure ArmedOnce (own : List SentOrder) (t : Trade) : Prop where
  stops : taken .stop own ≤ 1
  stop : t.stopOrderLinkId = none → taken .stop own = 0
  takeProfits : taken .takeProfit own ≤ 1
  takeProfit : t.takeProfitOrderLinkId = none → taken .takeProfit own = 0

theorem taken_append (role : OrderRole) (own new : List SentOrder) :
    taken role (own ++ new) = taken role own + taken role new := List.countP_append

theorem taken_cons (role : OrderRole) (o : SentOrder) (own : List SentOrder) :
    taken role (o :: own) = taken role [o] + taken role own := taken_append role [o] own

theorem taken_eq_zero {role : OrderRole} {own : List SentOrder}
    (h : ∀ o ∈ own, o.role = role → o.state = .refused) : taken role own = 0 := by
  rw [taken, List.countP_eq_zero]
  intro o ho
  simpa using h o ho

theorem taken_singleton_le (role : OrderRole) (o : SentOrder) : taken role [o] ≤ 1 :=
  List.countP_le_length

theorem taken_settle (role : OrderRole) (link : OrderLinkId) (state : OrderState)
    (own : List SentOrder) : taken role (own.map (SentOrder.settle link state)) = taken role own := by
  rw [taken, List.countP_map, taken]
  congr 1
  funext o
  simp only [Function.comp, settle_role, ne_eq, settle_refused]

theorem ofCall_refused {id : TradeId} {role : OrderRole} {q : OrderRequest} {o : PlaceOutcome}
    (h : o.reached = false) : (SentOrder.ofCall id role q o).state = .refused := by
  simp [SentOrder.ofCall, h]

/-- A column that is kept with nothing new of its role, or was empty and is filled with the
order that was taken. -/
def Fills (role : OrderRole) (old link : Option OrderLinkId) (new : List SentOrder) : Prop :=
  (link = old ∧ taken role new = 0) ∨ (old = none ∧ taken role new ≤ 1 ∧
    (link = none → taken role new = 0))

theorem Fills.kept {role : OrderRole} {old : Option OrderLinkId} {new : List SentOrder}
    (h : ∀ o ∈ new, o.role = role → o.state = .refused) : Fills role old old new :=
  .inl ⟨rfl, taken_eq_zero h⟩

theorem ArmedOnce.ends {k k' : Work} {s : TradeStatus} {c st tp : Option OrderLinkId}
    {new : List SentOrder} (h : ArmedOnce k.own k.trade) (he : k.Ends k' s c st tp new)
    (hst : Fills .stop k.trade.stopOrderLinkId st new)
    (htp : Fills .takeProfit k.trade.takeProfitOrderLinkId tp new) : ArmedOnce k'.own k'.trade := by
  have hcount : ∀ {role : OrderRole} {old link : Option OrderLinkId}, Fills role old link new →
      taken role k.own ≤ 1 → (old = none → taken role k.own = 0) →
      taken role (k.own ++ new) ≤ 1 ∧ (link = none → taken role (k.own ++ new) = 0) := by
    intro role old link hfill hle hzero
    rw [taken_append]
    obtain ⟨rfl, hnew⟩ | ⟨hold, hone, hnew⟩ := hfill
    · exact ⟨by omega, fun hnone => by rw [hzero hnone, hnew]⟩
    · have := hzero hold
      exact ⟨by omega, fun hnone => by rw [this, hnew hnone]⟩
  obtain ⟨hstops, hstop⟩ := hcount hst h.stops h.stop
  obtain ⟨htps, htp⟩ := hcount htp h.takeProfits h.takeProfit
  refine ⟨?_, ?_, ?_, ?_⟩
  · rw [he.own]
    exact hstops
  · rw [he.own, he.stop]
    exact hstop
  · rw [he.own]
    exact htps
  · rw [he.own, he.takeProfit]
    exact htp

theorem ArmedOnce.settles {k k' : Work} {s : TradeStatus} (h : ArmedOnce k.own k.trade)
    (he : k.Settles k' s) : ArmedOnce k'.own k'.trade :=
  h.ends he (.kept (by simp)) (.kept (by simp))

theorem ArmedOnce.givenUp {io : HandlerIo} {k k' : Work} (h : ArmedOnce k.own k.trade)
    (hg : GivenUp io k k') : ArmedOnce k'.own k'.trade := by
  have hrole : ∀ role, role ≠ .emergencyClose → ∀ o ∈ [emergencyOrder io k], o.role = role →
      o.state = .refused := by
    intro role hne o ho hr
    obtain rfl := List.mem_singleton.mp ho
    exact absurd hr.symm hne
  cases hg with
  | unsent he => exact h.settles he
  | sent he => exact h.ends he (.kept (hrole _ (by simp))) (.kept (hrole _ (by simp)))
  | failed he => exact h.ends he (.kept (hrole _ (by simp))) (.kept (hrole _ (by simp)))

theorem TakeProfitArmed.fills {io : HandlerIo} {k : Work} {tp : Option OrderLinkId}
    {new : List SentOrder} (h : TakeProfitArmed io k tp new)
    (hanswered : k.trade.takeProfitOrderLinkId = none → io.takeProfit.raises = true →
      io.takeProfit.reached = false) :
    Fills .takeProfit k.trade.takeProfitOrderLinkId tp new ∧ taken .stop new = 0 := by
  cases h with
  | kept => exact ⟨.kept (by simp), rfl⟩
  | placed htp => exact ⟨.inr ⟨htp, taken_singleton_le _ _, by simp⟩, rfl⟩
  | @lost qty targetPrice htp hbad =>
    have hrefused := @ofCall_refused k.trade.id .takeProfit
      (protectiveRequest k.trade qty (.tp k.nonce) targetPrice) _ (hanswered htp hbad)
    refine ⟨.inl ⟨htp.symm, taken_eq_zero ?_⟩, rfl⟩
    intro o ho _
    rw [List.mem_singleton.mp ho]
    exact hrefused

theorem ArmedOnce.protection {io : HandlerIo} {k : Work} {p : Bool × Work}
    (h : ArmedOnce k.own k.trade) (hanswered : ProtectionAnswered io k.trade)
    (hp : Protection io k p) : ArmedOnce p.2.own p.2.trade := by
  cases hp with
  | idle => exact h
  | stopKept hmarket hstop he htp =>
    obtain ⟨hfill, hnone⟩ := htp.fills ((hanswered hmarket.1 hmarket.2).2 (.inl (by simp [hstop])))
    exact h.ends he (.inl ⟨hstop.symm, hnone⟩) hfill
  | @stopArmed k' qty stopPrice tp new hmarket hstop hok he htp =>
    obtain ⟨hfill, hnone⟩ := htp.fills ((hanswered hmarket.1 hmarket.2).2 (.inr hok))
    have hrole : taken .takeProfit [stopOrder io qty stopPrice k] = 0 := taken_eq_zero (by
      simp [stopOrder, SentOrder.ofCall])
    refine h.ends he (.inr ⟨hstop, ?_, by simp⟩) ?_
    · rw [taken_cons, hnone]
      exact taken_singleton_le _ _
    · unfold Fills at hfill ⊢
      rwa [taken_cons, hrole, zero_add]
  | @stopLost k' qty stopPrice hmarket hstop hbad hg =>
    have hlost := (hanswered hmarket.1 hmarket.2).1 hstop hbad
    refine ArmedOnce.givenUp (h.ends (sendStop_ends io qty stopPrice k) (.kept ?_) (.kept ?_)) hg
    · intro o ho _
      rw [List.mem_singleton.mp ho]
      exact ofCall_refused hlost
    · intro o ho hrole
      rw [List.mem_singleton.mp ho] at hrole
      cases hrole

theorem ProtectionAnswered.settles {io : HandlerIo} {k k' : Work} {s : TradeStatus}
    (h : ProtectionAnswered io k.trade) (he : k.Settles k' s) : ProtectionAnswered io k'.trade := by
  unfold ProtectionAnswered
  rw [he.frame.entry.marketType, he.frame.entry.orderType, he.stop, he.takeProfit]
  exact h

theorem ArmedOnce.updated {io : HandlerIo} {data : OrderData} {k k' : Work}
    {r : Except PyError Bool} (h : ArmedOnce k.own k.trade)
    (hanswered : ConfirmsEntry data k.trade → ProtectionAnswered io k.trade)
    (hu : Updated io data k (r, k')) : ArmedOnce k'.own k'.trade := by
  cases hu with
  | unmoved he => exact h.settles he
  | entryMoved _ _ _ _ _ he => exact h.settles he
  | entryFilled _ _ _ _ he => exact h.settles he
  | entryDone hlink hrole hs hleaves hkeep he hp hend =>
    have harm := hanswered ⟨hs, hleaves, hkeep, _, hlink, hrole⟩
    exact ((h.settles he).protection (harm.settles he) hp).settles hend
  | exitBroken _ _ _ _ he => exact h.settles he
  | exitFilled _ _ _ _ _ he => exact h.settles he
  | exitFailed _ _ _ _ he => exact h.settles he
  | exitPartly _ _ _ _ he => exact h.settles he

theorem closeOrder_role {io : CloseIo} {k : Work} {role : OrderRole} (hne : role ≠ .close) :
    ∀ o ∈ [closeOrder io k], o.role = role → o.state = .refused := by
  intro o ho hrole
  rw [List.mem_singleton.mp ho] at hrole
  exact absurd hrole.symm hne

theorem ArmedOnce.move {env : Env} {s : Step} {k k' : Work} (h : ArmedOnce k.own k.trade)
    (hcond : ArmingAnswered env k.trade s) (hm : Move env s k k') : ArmedOnce k'.own k'.trade := by
  cases hm with
  | idle => exact h
  | @settle link state =>
    rw [Work.own, Exchange.ordersOf_settle]
    refine ⟨?_, ?_, ?_, ?_⟩ <;> rw [taken_settle]
    · exact h.stops
    · exact h.stop
    · exact h.takeProfits
    · exact h.takeProfit
  | update hdata hu => exact h.updated (hcond.2 _ hdata) hu
  | execution he => exact h.settles he
  | closed _ hc =>
    cases hc with
    | shadow _ he => exact h.ends he (.kept (by simp)) (.kept (by simp))
    | sent _ he => exact h.ends he (.kept (closeOrder_role (by simp))) (.kept (closeOrder_role (by simp)))
  | @closeLost _ io _ _ _ _ hc =>
    have hnone : ∀ role, role ≠ .close → taken role (k.own ++ [closeOrder io k]) = taken role k.own :=
      fun role hne => by rw [taken_append, taken_eq_zero (closeOrder_role hne), add_zero]
    rw [hc.own_lost]
    refine ⟨?_, ?_, ?_, ?_⟩ <;> rw [hnone _ (by simp)]
    · exact h.stops
    · exact h.stop
    · exact h.takeProfits
    · exact h.takeProfit
  | protect _ hst hp => exact h.protection (hcond.1 _ (by simp [Step.protects, hst])) hp
  | replay _ _ he => exact h.settles he

theorem ArmedOnce.created {env : Env} {s : Step} {w w' : World} {moved : List Trade} {t : Trade}
    (hc : Created env s w w' moved t) : ArmedOnce (w'.exchange.ordersOf t.id) t := by
  obtain ⟨req, io, w₁, signalId, plan, raised, k, rfl, -, -, -, -, -, hw₁, -, hent, rfl, hown⟩ := hc
  have hentry : ∀ o ∈ w'.exchange.ordersOf k.trade.id, o.role = .entry := by
    rw [← hown, hent.own hw₁]
    intro o ho
    split_ifs at ho
    · cases ho
    · obtain ⟨a, -, rfl⟩ := List.mem_map.mp ho
      rfl
  have hnone : ∀ role, role ≠ .entry → taken role (w'.exchange.ordersOf k.trade.id) = 0 :=
    fun role hne => taken_eq_zero fun o ho hr => absurd ((hentry o ho).symm.trans hr).symm hne
  have hstops := hnone .stop (by simp)
  have htps := hnone .takeProfit (by simp)
  exact ⟨by omega, fun _ => hstops, by omega, fun _ => htps⟩

/-- A run that loses no stop or take-profit order on its way sends one of each at most. -/
theorem armedOnce_run (env : Env) (ss : List Step)
    (h : Runs.Meets (step env) (fun w s => ∀ t ∈ w.db.trades, ArmingAnswered env t s) {} ss) :
    (Runs.run (step env) {} ss).Each ArmedOnce := by
  have hinit : ({} : World).WellFormed ∧ ({} : World).Each ArmedOnce :=
    ⟨wellFormed_init, by simp [World.Each]⟩
  refine (@Runs.run_of_meets _ _ _ _ (fun w => w.WellFormed ∧ w.Each ArmedOnce) _ _ hinit ?_ h).2
  rintro w s ⟨hw, harmed⟩ hcond
  obtain ⟨heff, hw'⟩ := step_effect env s hw
  exact ⟨hw', harmed.step heff (fun k k' hm ht _ hk => hk.move (hcond _ ht) hm) fun _ _ hc => .created hc⟩

end AmaExecutionCore
