import AmaExecutionCore.TradeTasks
import AmaExecutionCore.Outcomes
import AmaExecutionCore.Armings

/-! Passes, events and closes of one trade in any order of turns: they leave what they would
leave one after the other, as long as whoever writes the row still finds it as it was loaded. -/
namespace AmaExecutionCore
open TradeStatus

/-- The handlers one after the other. -/
def serially (env : Env) (id : TradeId) (tasks : List TradeTask) (w : World) : World :=
  tasks.foldl (TradeTask.alone env id) w

/-- The same row of the trade, events, days and orders sent. -/
structure SameOutcome (id : TradeId) (w w' : World) : Prop where
  trade : w'.db.getTrade id = w.db.getTrade id
  events : w'.db.tradeEvents = w.db.tradeEvents
  days : w'.db.ledger.dailyStats = w.db.ledger.dailyStats
  orders : w'.exchange.orders = w.exchange.orders

/-- Once all handlers are through they leave what some order of them leaves; each closed
trade is in its day once, and the trade has one stop and one take-profit order at most. -/
structure Serializable (env : Env) (id : TradeId) (w₀ : World)
    (s : Sessions.State TradeStore TaskSession) : Prop where
  order : (∀ c ∈ s.sessions, c.isFinished = true) →
    ∃ tasks, tasks.Perm (s.sessions.map TaskSession.task) ∧
      SameOutcome id (serially env id tasks w₀) s.store.world
  booked : DaysBooked s.store.world
  stops : taken .stop (s.store.world.exchange.ordersOf id) ≤ 1
  takeProfits : taken .takeProfit (s.store.world.exchange.ordersOf id) ≤ 1

/-- Whoever writes the row in this turn loaded it as it is committed, and loses no stop or
take-profit order on its way. -/
def ActsOnCommitted (env : Env) {E : Type} (s : Sessions.State TradeStore TaskSession) :
    Sessions.Act TradeTask E → Prop
  | .advance i => ∀ c ∈ s.sessions[i]?, ∀ row ∈ c.actsOn s.store.locked,
      row ∈ s.store.world.db.trades ∧ ArmingAnswered env row (c.task.toStep row)
  | _ => True

instance (env : Env) {E : Type} (s : Sessions.State TradeStore TaskSession)
    (act : Sessions.Act TradeTask E) : Decidable (ActsOnCommitted env s act) := by
  cases act <;> unfold ActsOnCommitted <;> infer_instance

/-- The handlers of one trade, with nothing else going on. -/
abbrev tradeSystem (env : Env) (id : TradeId) :
    Sessions.System TradeStore TaskSession TradeTask Empty :=
  taskSystem (fun _ e => e.elim) env id

/-! What the handlers keep one after the other -/

/-- What every step keeps, every piece of it that touches only the trades `ids` keeps. -/
theorem World.Each.pass {Q : List SentOrder → Trade → Prop} {env : Env} {s : Step} {w w' : World}
    {ids : List TradeId} (h : w.Each Q) (hp : Pass env s ids w w')
    (hmove : ∀ k k', Move env s k k' → k.trade ∈ w.db.trades → k.trade.id ∈ ids →
      k.own = w.exchange.ordersOf k.trade.id → Q k.own k.trade → Q k'.own k'.trade) : w'.Each Q := by
  intro t' ht'
  obtain ⟨t, ht, hm, hsame⟩ := Rows.exists_left hp.trades ht'
  by_cases hid : t.id ∈ ids
  · obtain ⟨k, k', hmv, rfl, rfl, hown, hown', -⟩ := hm
    rw [show k'.trade.id = k.trade.id from hmv.entry.id, ← hown']
    exact hmove k k' hmv ht hid hown (hown ▸ h _ ht)
  · obtain ⟨rfl, hown⟩ := hsame hid
    rw [hown]
    exact h _ ht

/-- A well-formed world with the trade in it, whose closed trades are booked, and with one stop
and one take-profit order for each trade at most. -/
structure TradeSound (id : TradeId) (w : World) : Prop where
  wellFormed : w.WellFormed
  booked : DaysBooked w
  armed : w.Each ArmedOnce
  row : ∃ t ∈ w.db.trades, t.id = id

variable {env : Env} {id : TradeId} {w : World}

theorem TradeSound.of_pass {s : Step} {row : Trade} {w' : World} (h : TradeSound id w)
    (hrow : row ∈ w.db.trades) (hcond : ArmingAnswered env row s) (hp : Pass env s [row.id] w w')
    (hbooked : DaysBooked w') : TradeSound id w' where
  wellFormed := hp.wellFormed
  booked := hbooked
  armed := by
    refine h.armed.pass hp fun k k' hm hk hid _ hq => hq.move ?_ hm
    rw [h.wellFormed.eq_of_id hk hrow (List.mem_singleton.mp hid)]
    exact hcond
  row := by
    obtain ⟨t, ht, rfl⟩ := h.row
    obtain ⟨t', ht', hm, -⟩ := Rows.exists_right hp.trades ht
    exact ⟨t', ht', hm.id⟩

theorem TradeSound.alone {task : TradeTask} (h : TradeSound id w)
    (hcond : ∀ row, task.find env id w = some row → task.writes row = true →
      ArmingAnswered env row (task.toStep row)) : TradeSound id (task.alone env id w) := by
  obtain hsame | ⟨row, commits, k, hfind, hact, hdone, halone⟩ := TradeTask.alone_cases h.wellFormed task
  · rw [hsame]
    exact h
  · have hrow := (TradeTask.find_mem hfind).1
    have hcond := hcond row hfind (TradeTask.writes_of_act hact)
    rw [halone]
    cases hdone with
    | committed hframe hmove hhandled =>
      exact h.of_pass hrow hcond (.commit h.wellFormed hrow hmove hframe)
        (h.booked.commit h.wellFormed hrow hhandled)
    | raised hkept =>
      refine h.of_pass hrow hcond (Pass.mono (.of_eq h.wellFormed rfl ?_ (Nat.le_succ _)) (by simp))
        ⟨h.booked.recorded, h.booked.oneRow, h.booked.total⟩
      rw [← hkept]
      rfl
    | lost hframe hmove =>
      exact h.of_pass hrow hcond (.rollback h.wellFormed hrow hmove hframe)
        ⟨h.booked.recorded, h.booked.oneRow, h.booked.total⟩

/-! What the handlers keep in turns: `base` is the world the handlers that are through have
left, one after the other -/

/-- Only the exchange shows more than `base`, and only while a session holds the row. -/
structure StoreFits (id : TradeId) (base : World) (st : TradeStore) : Prop where
  db : st.world.db = base.db
  free : st.locked = false → st.world = base
  stops : taken .stop (st.world.exchange.ordersOf id) ≤ 1
  takeProfits : taken .takeProfit (st.world.exchange.ordersOf id) ≤ 1

/-- A session that holds the row acts on it as `base` has it. -/
def TaskSession.Fits (env : Env) (id : TradeId) (base : World) (st : TradeStore) (c : TaskSession) :
    Prop :=
  c.Stands env id (fun row => st.locked = true ∧ st.world = base ∧ c.task.find env id base = some row)
    fun row commits k => st.locked = true ∧ st.world = { base with exchange := k.exchange } ∧
      c.task.find env id base = some row ∧ c.task.act env (base.work row) = some (commits, k) ∧
      TradeSound id (c.task.alone env id base)

/-- The handlers that are through were as good as alone, in this order, and the others fit in. -/
structure Serial (env : Env) (id : TradeId) (w₀ : World) (order : List TradeTask)
    (s : Sessions.State TradeStore TaskSession) : Prop where
  perm : order.Perm ((s.sessions.filter TaskSession.isFinished).map TaskSession.task)
  sound : TradeSound id (serially env id order w₀)
  holds : Sessions.Holds (StoreFits id (serially env id order w₀))
    (TaskSession.Fits env id (serially env id order w₀)) TaskSession.Apart s
  held : s.store.locked = true → ∃ c ∈ s.sessions, c.holding = true

theorem TradeTask.alone_of_missed {task : TradeTask} (h : task.find env id w = none) :
    task.alone env id w = w := by
  rw [alone_eq, h]
  rfl

/-- A handler that acts on the row it finds leaves what its session leaves. -/
theorem TradeTask.alone_of_act {task : TradeTask} {row : Trade} {commits : Bool} {k : Work}
    (hfind : task.find env id w = some row) (hact : task.act env (w.work row) = some (commits, k)) :
    task.alone env id w = if commits then w.commitLoaded row k else w.rollback k := by
  rw [alone_eq, hfind, Option.bind_some, hact]
  cases commits <;> rfl

theorem TaskSession.isFinished_of_stage {c : TaskSession} (h : c.stage ≠ .finished) :
    c.isFinished = false := by
  unfold isFinished
  split
  · next hstage => exact (h hstage).elim
  · rfl

theorem serially_concat (env : Env) (id : TradeId) (order : List TradeTask) (task : TradeTask)
    (w : World) : serially env id (order ++ [task]) w = task.alone env id (serially env id order w) := by
  simp [serially]

namespace Serial

variable {w₀ base : World} {order : List TradeTask} {s : Sessions.State TradeStore TaskSession}
  {i : Nat} {c : TaskSession} {row : Trade} {commits : Bool} {k : Work}

theorem turn (h : Serial env id w₀ order s) {p : TradeStore × TaskSession}
    (hc : s.sessions[i]? = some c) (hp : c.next env id s.store = p) (hopen : c.stage ≠ .finished)
    (htask : p.2.task = c.task)
    (hbase : base = if p.2.isFinished = true then c.task.alone env id (serially env id order w₀)
      else serially env id order w₀)
    (hsound : TradeSound id base) (hstore : StoreFits id base p.1) (hown : p.2.Fits env id base p.1)
    (hothers : ∀ (j : Nat) d, s.sessions[j]? = some d → j ≠ i → d.Fits env id base p.1 ∧
      (p.2.holding = false ∨ d.holding = false))
    (hheld : p.1.locked = true → p.2.holding = true ∨ (s.store.locked = true ∧ c.holding = false)) :
    ∃ order', Serial env id w₀ order' (Sessions.step (tradeSystem env id) s (.advance i)) := by
  have hnext : (tradeSystem env id).next c s.store = p := hp
  have hset := (Sessions.filter_set_perm hc (TaskSession.isFinished_of_stage hopen) p.2).map
    TaskSession.task
  have hstep : Sessions.step (tradeSystem env id) s (.advance i) = ⟨p.1, s.sessions.set i p.2⟩ := by
    simp only [Sessions.step, hc, hnext]
  have hgo := @Sessions.Holds.advance_to _ _ _ _ (tradeSystem env id) _ _ _ s (StoreFits id base)
    (TaskSession.Fits env id base) i c h.holds hc
  rw [hnext] at hgo
  have hgo := hgo hstore hown fun j d hd hj =>
    ⟨(hothers j d hd hj).1, .of_free (hothers j d hd hj).2, .of_free (hothers j d hd hj).2.symm⟩
  rw [hstep] at hgo ⊢
  have hlocked : p.1.locked = true → ∃ d ∈ s.sessions.set i p.2, d.holding = true := by
    intro hlock
    obtain hself | ⟨hbefore, hidle⟩ := hheld hlock
    · exact ⟨p.2, Sessions.mem_set_self hc _, hself⟩
    · obtain ⟨d, hd, hhold⟩ := h.held hbefore
      obtain hkept | rfl := Sessions.mem_set_or_eq hc hd p.2
      · exact ⟨d, hkept, hhold⟩
      · rw [hidle] at hhold
        cases hhold
  by_cases hfin : p.2.isFinished = true
  · rw [if_pos hfin] at hbase hset
    refine ⟨order ++ [c.task], ?_, ?_, ?_, hlocked⟩
    · refine List.Perm.trans ?_ hset.symm
      rw [List.map_cons, htask]
      exact (List.perm_append_singleton c.task order).trans (h.perm.cons c.task)
    · rwa [serially_concat, ← hbase]
    · rwa [serially_concat, ← hbase]
  · rw [if_neg hfin] at hbase hset
    subst hbase
    exact ⟨order, h.perm.trans hset.symm, hsound, hgo, hlocked⟩

theorem free (h : Serial env id w₀ order s) (hfree : s.store.locked = false) :
    ∀ (j : Nat) d, s.sessions[j]? = some d → d.holding = false :=
  fun j d hd => (h.holds.own j d hd).not_holding (fun _ hP => by simp [hfree] at hP)
    fun _ _ _ hF => by simp [hfree] at hF

theorem ends (h : Serial env id w₀ order s) (hc : s.sessions[i]? = some c) (hopen : c.stage ≠ .finished)
    (hidle : c.holding = false)
    (hp : c.next env id s.store = (s.store, c.atStage .finished))
    (halone : c.task.alone env id (serially env id order w₀) = serially env id order w₀) :
    ∃ order', Serial env id w₀ order' (Sessions.step (tradeSystem env id) s (.advance i)) :=
  h.turn hc hp hopen rfl halone.symm h.sound h.holds.store (.of_finished rfl)
    (fun j d hd _ => ⟨h.holds.own j d hd, .inl rfl⟩) fun hlocked => .inr ⟨hlocked, hidle⟩

theorem loads (h : Serial env id w₀ order s) (hc : s.sessions[i]? = some c) (hstage : c.stage = .called)
    (hfind : c.task.find env id s.store.world = some row)
    (hwait : c.task.locks = true → s.store.locked = false)
    (hp : c.next env id s.store =
      ({ s.store with locked := s.store.locked || c.task.locks }, c.atStage (.loaded row))) :
    ∃ order', Serial env id w₀ order' (Sessions.step (tradeSystem env id) s (.advance i)) := by
  have hstore := h.holds.store
  by_cases hlocks : c.task.locks = true
  · have hothers := h.free (hwait hlocks)
    have hworld := hstore.free (hwait hlocks)
    refine h.turn hc hp (by simp [hstage]) rfl rfl h.sound ?_ ?_ (fun j d hd _ =>
      ⟨(h.holds.own j d hd).of_not_holding (hothers j d hd), .inr (hothers j d hd)⟩) fun _ => .inl hlocks
    · exact ⟨hstore.db, fun hlocked => by simp [hlocks] at hlocked, hstore.stops, hstore.takeProfits⟩
    · exact ⟨⟨_, hfind⟩, fun _ => ⟨by simp [hlocks], hworld, hworld ▸ hfind⟩⟩
  · have hhold : (c.atStage (.loaded row)).holding = false := by
      simpa [TaskSession.holding, TaskSession.atStage] using hlocks
    rw [show (s.store.locked || c.task.locks) = s.store.locked by simp [hlocks]] at hp
    exact h.turn hc hp (by simp [hstage]) rfl rfl h.sound hstore ⟨⟨_, hfind⟩, fun hl => (hlocks hl).elim⟩
      (fun j d hd _ => ⟨h.holds.own j d hd, .inl hhold⟩)
      fun hlocked => .inr ⟨hlocked, by simp [TaskSession.holding, hstage]⟩

/-- A session that writes the row has it as `base` has it, and holds it from then on. -/
theorem writes (h : Serial env id w₀ order s) (hc : s.sessions[i]? = some c)
    (hstage : c.stage = .loaded row) (hact : c.task.act env (s.store.world.work row) = some (commits, k))
    (hwait : c.task.locks = false → s.store.locked = false)
    (hrow : row ∈ s.store.world.db.trades) (harm : ArmingAnswered env row (c.task.toStep row))
    (hp : c.next env id s.store = (⟨{ s.store.world with exchange := k.exchange }, true⟩,
      c.atStage (.flushed row commits k))) :
    ∃ order', Serial env id w₀ order' (Sessions.step (tradeSystem env id) s (.advance i)) := by
  have hstore := h.holds.store
  obtain ⟨⟨w, hloaded⟩, hlocked⟩ := (h.holds.own i c hc).loaded hstage
  have hsound := h.sound
  generalize hbase : serially env id order w₀ = base at *
  have hid := (TradeTask.find_mem hloaded).2
  -- the session is the only one that holds the row, or nobody does
  obtain ⟨hworld, hfind, hothers⟩ : s.store.world = base ∧ c.task.find env id base = some row ∧
      ∀ (j : Nat) d, s.sessions[j]? = some d → j ≠ i → d.holding = false := by
    by_cases hlocks : c.task.locks = true
    · obtain ⟨-, hworld, hfind⟩ := hlocked hlocks
      refine ⟨hworld, hfind, fun j d hd hj => ?_⟩
      by_contra hhold
      exact h.holds.apart i j c d hc hd (Ne.symm hj)
        ⟨by simpa [TaskSession.holding, hstage] using hlocks, by simpa using hhold⟩
    · have hunlocked := hwait (by simpa using hlocks)
      have hworld := hstore.free hunlocked
      refine ⟨hworld, TradeTask.find_again hloaded (by simpa using hlocks) ?_, fun j d hd _ =>
        h.free hunlocked j d hd⟩
      rw [← hid]
      exact hsound.wellFormed.getTrade (hworld ▸ hrow)
  rw [hworld] at hact hp
  have hdone : TradeSound id (c.task.alone env id base) := hsound.alone fun row' hfind' _ => by
    obtain rfl := Option.some.inj (hfind.symm.trans hfind')
    exact harm
  have halone := TradeTask.alone_of_act hfind hact
  have hexchange : (c.task.alone env id base).exchange = k.exchange := by
    rw [halone]
    cases commits <;> rfl
  obtain ⟨t, ht, rfl⟩ := hdone.row
  have harmed := hdone.armed t ht
  rw [hexchange] at harmed
  refine h.turn hc hp (by simp [hstage]) rfl hbase.symm hsound ?_ ?_ (fun j d hd hj =>
    ⟨(h.holds.own j d hd).of_not_holding (hothers j d hd hj), .inr (hothers j d hd hj)⟩) fun _ => .inl rfl
  · exact ⟨rfl, (by intro hunlocked; cases hunlocked), harmed.stops, harmed.takeProfits⟩
  · exact ⟨rfl, rfl, hfind, hact, hdone⟩

/-- A session that leaves has done to `base` what it does alone. -/
theorem leaves (h : Serial env id w₀ order s) (hc : s.sessions[i]? = some c)
    (hstage : c.stage = .flushed row commits k)
    (hp : c.next env id s.store = (⟨{ (if commits then s.store.world.commitLoaded row k
      else s.store.world.rollback k) with exchange := s.store.world.exchange }, false⟩,
        c.atStage .finished)) :
    ∃ order', Serial env id w₀ order' (Sessions.step (tradeSystem env id) s (.advance i)) := by
  have hstore := h.holds.store
  obtain ⟨-, hworld, hfind, hact, hdone⟩ := (h.holds.own i c hc).flushed hstage
  have hothers : ∀ (j : Nat) d, s.sessions[j]? = some d → j ≠ i → d.holding = false := by
    intro j d hd hj
    by_contra hhold
    exact h.holds.apart i j c d hc hd (Ne.symm hj) ⟨by simp [TaskSession.holding, hstage], by simpa using hhold⟩
  have halone := TradeTask.alone_of_act hfind hact
  have hleft : ({ (if commits then s.store.world.commitLoaded row k else s.store.world.rollback k) with
      exchange := s.store.world.exchange } : World) =
        c.task.alone env id (serially env id order w₀) := by
    rw [halone, hworld]
    cases commits <;> rfl
  rw [hleft] at hp
  refine h.turn hc hp (by simp [hstage]) rfl rfl hdone ?_ (.of_finished rfl) (fun j d hd hj =>
    ⟨(h.holds.own j d hd).of_not_holding (hothers j d hd hj), .inl rfl⟩) (by simp)
  obtain ⟨t, ht, rfl⟩ := hdone.row
  exact ⟨rfl, fun _ => rfl, (hdone.armed t ht).stops, (hdone.armed t ht).takeProfits⟩

theorem advance (h : Serial env id w₀ order s)
    (hcond : ActsOnCommitted env s (.advance i : Sessions.Act TradeTask Empty)) :
    ∃ order', Serial env id w₀ order' (Sessions.step (tradeSystem env id) s (.advance i)) := by
  cases hc : s.sessions[i]? with
  | none =>
    simp only [Sessions.step, hc]
    exact ⟨order, h⟩
  | some c =>
    have hturn := c.next_turn env id s.store
    generalize hp : c.next env id s.store = p at hturn
    cases hturn with
    | waits =>
      rw [Sessions.step_of_waiting]
      · exact ⟨order, h⟩
      · intro c' hc'
        rw [hc] at hc'
        obtain rfl := Option.some.inj hc'
        exact hp
    | misses hstage hfind =>
      refine h.ends hc (by simp [hstage]) (by simp [TaskSession.holding, hstage]) hp
        (TradeTask.alone_of_missed ?_)
      rw [← hfind, TradeTask.find_congr h.holds.store.db]
    | @idles row hstage hact =>
      obtain ⟨⟨w, hfind⟩, -⟩ := (h.holds.own i c hc).loaded hstage
      have hidle : c.task.writes row = false := by
        rw [← World.work_trade row s.store.world, ← TradeTask.act_isSome env c.task, hact]
        rfl
      refine h.ends hc (by simp [hstage]) ?_ hp (TradeTask.alone_of_idle hfind hidle _)
      simpa [TaskSession.holding, hstage] using TradeTask.locks_of_idle hidle
    | loads hstage hfind hwait => exact h.loads hc hstage hfind hwait hp
    | @writes row commits k hstage hact hwait =>
      have hacts : row ∈ c.actsOn s.store.locked := by
        simpa [TaskSession.actsOn, hstage, TradeTask.writes_of_act hact] using hwait
      obtain ⟨hrow, harm⟩ := hcond c hc row hacts
      exact h.writes hc hstage hact hwait hrow harm hp
    | leaves hstage => exact h.leaves hc hstage hp

theorem start (h : Serial env id w₀ order s) (task : TradeTask) :
    Serial env id w₀ order (Sessions.step (tradeSystem env id) s (.start task)) where
  perm := by
    have hnone : ((tradeSystem env id).start task).isFinished = false := rfl
    simp only [Sessions.step, List.filter_append, List.filter_cons, hnone]
    simpa using h.perm
  sound := h.sound
  holds := h.holds.start (.of_called rfl) fun _ _ => ⟨.of_free (.inr rfl), .of_free (.inl rfl)⟩
  held := by
    intro hlocked
    obtain ⟨c, hc, hhold⟩ := h.held hlocked
    exact ⟨c, List.mem_append_left _ hc, hhold⟩

end Serial

theorem Serial.serializable {w₀ : World} {order : List TradeTask}
    {s : Sessions.State TradeStore TaskSession} (h : Serial env id w₀ order s) :
    Serializable env id w₀ s where
  order := by
    intro hall
    have hperm := h.perm
    rw [List.filter_eq_self.mpr hall] at hperm
    have hfree : s.store.locked = false := by
      by_contra hlocked
      obtain ⟨c, hc, hhold⟩ := h.held (by simpa using hlocked)
      have hfin := hall c hc
      unfold TaskSession.isFinished at hfin
      split at hfin
      · next hstage => simp [TaskSession.holding, hstage] at hhold
      · cases hfin
    rw [h.holds.store.free hfree]
    exact ⟨order, hperm, rfl, rfl, rfl, rfl⟩
  booked := by
    have hb := h.sound.booked
    have hdb := h.holds.store.db
    refine ⟨?_, ?_, ?_⟩ <;> rw [hdb]
    · exact hb.recorded
    · exact hb.oneRow
    · exact hb.total
  stops := h.holds.store.stops
  takeProfits := h.holds.store.takeProfits

/-- Passes, events and closes of a trade leave what some order of them leaves, in whatever
order they take turns, if whoever writes the row loaded it as it is then and no stop or
take-profit order is lost on its way. Alone, each does what its function does
(`TradeTask.alone_whole`). -/
theorem serializable_run (env : Env) (ss : List Step) (t : Trade)
    (ht : t ∈ (Runs.run (step env) {} ss).db.trades)
    (h₀ : Runs.Meets (step env) (fun w s => ∀ t ∈ w.db.trades, ArmingAnswered env t s) {} ss)
    (acts : List (Sessions.Act TradeTask Empty))
    (h : Runs.Meets (Sessions.step (tradeSystem env t.id)) (ActsOnCommitted env)
      ⟨⟨Runs.run (step env) {} ss, false⟩, []⟩ acts) :
    Runs.Always (Sessions.step (tradeSystem env t.id))
      (Serializable env t.id (Runs.run (step env) {} ss)) ⟨⟨Runs.run (step env) {} ss, false⟩, []⟩
      acts := by
  have hsound : TradeSound t.id (Runs.run (step env) {} ss) :=
    ⟨wellFormed_run env ss, daysBooked_run env ss, armedOnce_run env ss h₀, t, ht, rfl⟩
  generalize Runs.run (step env) {} ss = w₀ at *
  have hinit : Serial env t.id w₀ [] ⟨⟨w₀, false⟩, []⟩ := by
    refine ⟨.nil, hsound, .init ⟨rfl, fun _ => rfl, ?_, ?_⟩, by simp⟩
    · exact (hsound.armed t ht).stops
    · exact (hsound.armed t ht).takeProfits
  refine Runs.always_of_invariant (I := fun s => ∃ order, Serial env t.id w₀ order s) ⟨[], hinit⟩ ?_ ?_ h
  · rintro s act ⟨order, hs⟩ hcond
    cases act with
    | start task => exact ⟨order, hs.start task⟩
    | advance i => exact hs.advance hcond
    | event e => exact e.elim
  · rintro s ⟨order, hs⟩
    exact hs.serializable

/-- One entry order, accepted and not handled yet. -/
def acceptedRun : List Step := [.executeSignal demoRequest (demoExecute (.accepted none) (.ok none))]

/-- The handlers of trade 1 after this run. -/
def tradeStart (ss : List Step) : Sessions.State TradeStore TaskSession :=
  ⟨⟨Runs.run (step (demoEnv .takerAllowed)) {} ss, false⟩, []⟩

/-- The fill of the first request's entry order, as an answer of the exchange. -/
def fillAnswer : StatusOutcome :=
  .ok (some { orderStatus := .filled, avgPrice := some (.decimal 100), leavesQty := some "0" })

def fillHandlers : List (Sessions.Act TradeTask Empty) :=
  [.start (.reconcile fillAnswer (demoHandler 1)), .start (.event demoEntryFill (demoHandler 2))]

/-- A pass applies the fill of the entry order while its event waits for the row. -/
theorem serializable_waiting : Runs.Always
    (Sessions.step (tradeSystem (demoEnv .takerAllowed) 1))
    (Serializable (demoEnv .takerAllowed) 1 (tradeStart acceptedRun).store.world)
    (tradeStart acceptedRun) (fillHandlers ++ [.advance 0, .advance 0, .advance 1, .advance 0,
      .advance 1, .advance 1, .advance 1]) := by
  obtain ⟨t, ht, hid⟩ : ∃ t ∈ (Runs.run (step (demoEnv .takerAllowed)) {} acceptedRun).db.trades,
      t.id = 1 := by decide +kernel
  have hrun := serializable_run (demoEnv .takerAllowed) acceptedRun t ht (by decide +kernel)
    (fillHandlers ++ [.advance 0, .advance 0, .advance 1, .advance 0, .advance 1, .advance 1,
      .advance 1])
  rw [hid] at hrun
  exact hrun (by decide +kernel)

def closeFill : OrderData :=
  { orderLinkId := some (.close 3), orderStatus := .filled, avgPrice := some (.decimal 99) }

/-- A pass loads the closing trade, the event of the fill closes it, and the pass closes it
again: its day has two losses. -/
theorem serializable_fails : ¬ Runs.Always
    (Sessions.step (tradeSystem (demoEnv .takerAllowed) 1))
    (Serializable (demoEnv .takerAllowed) 1
      (tradeStart (closedMarketRun (.accepted none))).store.world)
    (tradeStart (closedMarketRun (.accepted none)))
    [.start (.reconcile (.ok (some closeFill)) (demoHandler 3)),
      .start (.event closeFill (demoHandler 3)), .advance 0, .advance 1, .advance 1, .advance 1,
      .advance 0, .advance 0] := by
  intro h
  exact absurd (h.last.booked.total 0) (by decide +kernel)

/-- A pass loads the submitted trade, the event of its fill arms it, and the pass arms it
again. -/
example : taken .stop ((Runs.run (Sessions.step (tradeSystem (demoEnv .takerAllowed) 1))
    (tradeStart acceptedRun) (fillHandlers ++ [.advance 0, .advance 1, .advance 1, .advance 1,
      .advance 0, .advance 0])).store.world.exchange.ordersOf 1) = 2 := by decide +kernel

end AmaExecutionCore
