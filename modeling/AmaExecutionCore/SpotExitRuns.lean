import AmaExecutionCore.Protection
import AmaExecutionCore.SpotExitMonitor

/-! What the spot exit monitor comes to in the worlds that the core reaches: a position that is
open there has its stop order, so the trades a pass lists are not open yet, and `close_trade`
refuses them; between the pass and its closes, a trade may become open and protected. -/
namespace AmaExecutionCore
open TradeStatus

/-- An open position that a market order bought has a stop order. -/
def Trade.Armed (t : Trade) : Prop :=
  t.status = positionOpen → t.marketType = .spot → t.orderType = some .market →
    t.stopOrderLinkId ≠ none

section Armed
variable {k k' : Work} {s : TradeStatus} {c st tp : Option OrderLinkId} {new : List SentOrder}

theorem Work.Ends.armed (he : k.Ends k' s c st tp new) (hs : s ≠ positionOpen) :
    k'.trade.Armed := fun hopen => absurd (he.status.symm.trans hopen) hs

/-- A handler that leaves the status alone and does not take the stop away. -/
theorem Trade.Armed.ends (h : k.trade.Armed) (he : k.Ends k' k.trade.status c st tp new)
    (hstop : k.trade.stopOrderLinkId ≠ none → st ≠ none) : k'.trade.Armed := by
  intro hopen hspot hmarket
  rw [he.stop]
  rw [he.status] at hopen
  rw [he.frame.entry.marketType] at hspot
  rw [he.frame.entry.orderType] at hmarket
  exact hstop (h hopen hspot hmarket)

theorem GivenUp.armed {io : HandlerIo} (h : GivenUp io k k') : k'.trade.Armed := by
  cases h with
  | unsent he => exact he.armed (by decide)
  | sent he => exact he.armed (by decide)
  | failed he => exact he.armed (by decide)

theorem Trade.Armed.protection {io : HandlerIo} {p : Bool × Work} (h : k.trade.Armed)
    (hp : Protection io k p) : p.2.trade.Armed ∧ (p.1 = true → p.2.trade.marketType = .spot →
      p.2.trade.orderType = some .market → p.2.trade.stopOrderLinkId ≠ none) := by
  cases hp with
  | idle hno =>
    refine ⟨h, fun hb hspot hmarket => ?_⟩
    exact ((hno hb).elim (fun hne => hne hspot) fun hne => hne hmarket).elim
  | stopKept _ hstop he htp =>
    exact ⟨h.ends he fun _ => Option.some_ne_none _, fun _ _ _ => he.stop ▸ Option.some_ne_none _⟩
  | stopArmed _ hstop hok he htp =>
    exact ⟨h.ends he fun _ => Option.some_ne_none _, fun _ _ _ => he.stop ▸ Option.some_ne_none _⟩
  | stopLost _ hstop hbad hg => exact ⟨hg.armed, fun hb => absurd hb Bool.false_ne_true⟩

theorem Trade.Armed.updated {io : HandlerIo} {data : OrderData} {r : Except PyError Bool}
    (h : k.trade.Armed) (hu : Updated io data k (r, k')) : k'.trade.Armed := by
  cases hu with
  | unmoved he => exact h.ends he fun hne => hne
  | entryMoved _ _ hs hne _ he =>
    refine he.armed ?_
    rcases orderStatusMap_eq hs with ⟨-, rfl⟩ | ⟨-, rfl⟩ | ⟨-, rfl⟩ | ⟨-, rfl⟩ <;> decide
  | entryFilled _ _ _ _ he => exact he.armed (by decide)
  | @entryDone k₁ _ p _ _ _ _ _ _ he hp hend =>
    obtain ⟨harmed, hstop⟩ := (he.armed (by decide)).protection hp
    cases hb : p.1 with
    | false =>
      rw [hb] at hend
      exact harmed.ends hend fun hne => hne
    | true =>
      intro _ hspot hmarket
      rw [hend.stop]
      rw [hend.frame.entry.marketType] at hspot
      rw [hend.frame.entry.orderType] at hmarket
      exact hstop hb hspot hmarket
  | exitBroken _ _ _ _ he => exact he.armed (by decide)
  | exitFilled _ _ _ _ _ he => exact he.armed (by decide)
  | exitFailed _ _ _ _ he => exact he.armed (by decide)
  | exitPartly _ _ _ _ he => exact he.armed (by decide)

theorem Trade.Armed.move {env : Env} {s : Step} (h : k.trade.Armed) (hm : Move env s k k') :
    k'.trade.Armed := by
  cases hm with
  | idle => exact h
  | settle => exact h
  | update _ hu => exact h.updated hu
  | execution he => exact h.ends he fun hne => hne
  | closed _ hc =>
    cases hc with
    | shadow _ he => exact he.armed (by decide)
    | sent _ he => exact he.armed (by decide)
  | closeLost => exact h
  | protect _ _ hp => exact (h.protection hp).1
  | @replay _ _ remote _ _ _ _ he =>
    refine he.armed ?_
    cases remote.orderStatus <;> decide

theorem Trade.Armed.created {env : Env} {s : Step} {w w' : World} {moved : List Trade} {t : Trade}
    (hc : Created env s w w' moved t) : t.Armed := by
  obtain ⟨req, io, w₁, signalId, plan, raised, k, -, -, -, -, -, -, -, -, hent, rfl, -⟩ := hc
  intro hopen
  exfalso
  cases hent with
  | shadow _ h => simp [h.status] at hopen
  | accepted _ _ _ _ h => simp [h.status] at hopen
  | refused _ _ _ _ h => simp [h.status] at hopen
  | uncertain _ _ _ _ _ hl h =>
    rw [h.status] at hopen
    rcases hl with hl | ⟨remote, -, hl⟩
    · simp [hl] at hopen
    · rw [hl] at hopen
      cases hr : remote.orderStatus <;> simp [hr, mapRemoteOrderStatus] at hopen

end Armed

/-- What the monitor relies on: ids are not reused, and open positions have their stop. -/
structure World.Sound (w : World) : Prop where
  wellFormed : w.WellFormed
  armed : ∀ t ∈ w.db.trades, t.Armed

theorem World.Sound.step {env : Env} {w : World} (h : w.Sound) (s : Step) :
    (step env w s).Sound := by
  obtain ⟨heff, hw⟩ := step_effect env s h.wellFormed
  exact ⟨hw, World.Each.step (Q := fun _ t => t.Armed) h.armed heff
    (fun _ _ hm _ _ hk => hk.move hm) fun _ _ hc => .created hc⟩

theorem World.Sound.initial : ({} : World).Sound := ⟨wellFormed_init, by simp⟩

theorem soundWorld_run (env : Env) (ss : List Step) : (Runs.run (step env) {} ss).Sound :=
  Runs.run_invariant (I := World.Sound) ss .initial fun _ s h => h.step s

theorem World.Sound.candidate {w : World} (h : w.Sound) {t : Trade}
    (ht : t ∈ spotExitCandidates w.db) : t.status = orderConfirmed := by
  obtain ⟨hlisted, hlinks⟩ := List.mem_filter.mp ht
  obtain ⟨hrow, hmissing⟩ := List.mem_filter.mp hlisted
  simp only [Db.missingProtection, Bool.and_eq_true, Bool.or_eq_true, decide_eq_true_eq] at hmissing
  simp only [decide_eq_true_eq] at hlinks
  obtain ⟨⟨⟨⟨hspot, hmarket⟩, hstatus⟩, -⟩, -⟩ := hmissing
  exact hstatus.resolve_right fun hopen => h.armed t hrow hopen hspot hmarket hlinks.1

theorem closeDecided_refused {mode : TradingMode} (io : TradeId → CloseIo) {cs : List Crossed}
    {w : World} (hw : w.WellFormed) (hmem : ∀ c ∈ cs, c.1 ∈ w.db.trades)
    (hst : ∀ c ∈ cs, c.1.status ∉ closeRetryableStatuses) :
    closeDecided mode io (cs.map Crossed.decision) w = (0, w) := by
  induction cs with
  | nil => rfl
  | cons c cs ih =>
    have hrefused := @closeTrade_untouched w c.1 (io c.1.id) mode c.2 hw
      (hmem c List.mem_cons_self) (hst c List.mem_cons_self)
    simp only [List.map_cons, closeDecided, Crossed.decision, hrefused]
    exact ih (fun d hd => hmem d (List.mem_cons_of_mem _ hd))
      fun d hd => hst d (List.mem_cons_of_mem _ hd)

/-- From every world that the core reaches, a pass that nothing comes between closes no trade and
changes nothing, whatever the prices. -/
theorem pass_inert (env : Env) (ss : List Step) (ticker : String → Except PyError Rat)
    (io : TradeId → CloseIo) :
    let w := Runs.run (step env) {} ss
    let pass := monitorSpotExitCandidatesOnce env.settings.tradingMode ticker io w
    pass.2 = w ∧ (pass.1 = .ok 0 ∨
      ∃ e, ∃ t ∈ spotExitCandidates w.db, ticker t.symbol = .error e ∧ pass.1 = .error e) := by
  intro w pass
  have hw : w.Sound := soundWorld_run env ss
  have hcached : ({} : ExitPass).Cached ticker := fun _ _ h => by simp at h
  obtain ⟨e, t, ht, hticker, hlook⟩ | ⟨p, hlook, -, hdecisions⟩ :=
    ExitPass.lookAll_cases (spotExitCandidates w.db) hcached
  · have hpass : pass = (.error e, w) := by
      simp only [pass, monitorSpotExitCandidatesOnce, hlook]
    rw [hpass]
    exact ⟨rfl, .inr ⟨e, t, ht, hticker, rfl⟩⟩
  · rw [List.nil_append] at hdecisions
    have hrefused : closeDecided env.settings.tradingMode io p.decisions w = (0, w) := by
      rw [hdecisions]
      apply closeDecided_refused io hw.wellFormed
      · intro c hc
        exact (List.mem_filter.mp (List.mem_filter.mp (mem_crossedAt hc).1).1).1
      · intro c hc
        rw [hw.candidate (mem_crossedAt hc).1]
        decide
    have hpass : pass = (.ok 0, w) := by
      simp only [pass, monitorSpotExitCandidatesOnce, hlook, hrefused]
    rw [hpass]
    exact ⟨rfl, .inl rfl⟩

/-- One call of `close_trade` by the monitor: its pass, the row that the call loads, the number its
order id is made from, how the exchange answers, and the orders that it sends. -/
structure ExitAttempt where
  pass : Nat
  decision : ExitDecision
  row : Option Trade
  nonce : Nat
  outcome : PlaceOutcome
  sent : List SentOrder
  deriving DecidableEq, Repr

/-- Where `run_spot_exit_monitor` waits: for the next pass, for the ticker, for a close. -/
inductive MonitorStage where
  | waiting
  | pricing (trades : List Trade) (pass : ExitPass)
  | closing (decisions : List ExitDecision)
  | ended
  deriving DecidableEq, Repr

/-- The core and the monitor beside it; `asked` is what the ticker answered in which pass. -/
structure MonitorState where
  world : World := {}
  stage : MonitorStage := .waiting
  stopped : Bool := false
  passes : Nat := 0
  asked : List (Nat × String × Rat) := []
  attempts : List ExitAttempt := []
  deriving DecidableEq, Repr

/-- The core handles something else, or the monitor takes its next turn. -/
inductive MonitorAct where
  | core (s : Step)
  | stop
  | poll
  | answer (lastPrice : Except PyError Rat)
  | close (io : CloseIo)

namespace MonitorState

/-- The head of the loop: it ends when the stop event is set, or lists the trades. -/
def poll (m : MonitorState) : MonitorState :=
  if m.stopped then { m with stage := .ended }
  else { m with stage := .pricing (spotExitCandidates m.world.db) {}, passes := m.passes + 1 }

/-- One turn of the pricing loop; a ticker that raises ends the pass. -/
def look (t : Trade) (ts : List Trade) (p : ExitPass) (answer : Except PyError Rat)
    (m : MonitorState) : MonitorState :=
  match p.priceCache.lookup t.symbol with
  | some lastPrice => { m with stage := .pricing ts (p.decide t lastPrice) }
  | none =>
    match answer with
    | .error _ => { m with stage := .waiting }
    | .ok lastPrice =>
      { m with
        stage := .pricing ts
          ({ p with priceCache := (t.symbol, lastPrice) :: p.priceCache }.decide t lastPrice)
        asked := m.asked ++ [(m.passes, t.symbol, lastPrice)] }

/-- One turn of the closing loop; a close that raises is logged. -/
def attempt (env : Env) (d : ExitDecision) (ds : List ExitDecision) (io : CloseIo)
    (m : MonitorState) : MonitorState :=
  let w := (closeTrade env.settings.tradingMode d.tradeId d.exitReason io m.world).2
  { m with
    world := w
    stage := .closing ds
    attempts := m.attempts ++ [{
      pass := m.passes, decision := d, row := m.world.db.getTrade d.tradeId
      nonce := m.world.issued, outcome := io.close
      sent := w.exchange.orders.drop m.world.exchange.orders.length }] }

def step (env : Env) (m : MonitorState) : MonitorAct → MonitorState
  | .core s => { m with world := AmaExecutionCore.step env m.world s }
  | .stop => { m with stopped := true }
  | .poll =>
    match m.stage with
    | .waiting => m.poll
    | _ => m
  | .answer lastPrice =>
    match m.stage with
    | .pricing (t :: ts) p => m.look t ts p lastPrice
    | .pricing [] p => { m with stage := .closing p.decisions }
    | _ => m
  | .close io =>
    match m.stage with
    | .closing (d :: ds) => m.attempt env d ds io
    | .closing [] => { m with stage := .waiting }
    | _ => m

end MonitorState

theorem resolveSpotExitReason_congr {t t' : Trade} (h : t.SameEntry t') (lastPrice : Rat) :
    resolveSpotExitReason t' lastPrice = resolveSpotExitReason t lastPrice := by
  simp only [resolveSpotExitReason, h.signalDirection, h.stopPrice, h.targetPrice]

/-- The trade is in the table, with the terms it had. -/
def World.Keeps (w : World) (t : Trade) : Prop := ∃ t' ∈ w.db.trades, t.SameEntry t'

theorem World.Keeps.step {env : Env} {w : World} {t : Trade} (hw : w.WellFormed) (h : w.Keeps t)
    (s : Step) : (step env w s).Keeps t := by
  obtain ⟨t₁, ht₁, hsame⟩ := h
  obtain ⟨moved, new, htrades, hmoved, -⟩ := (step_effect env s hw).1.trades
  obtain ⟨t₂, ht₂, k, k', hm, rfl, rfl, -⟩ := Rows.exists_right hmoved ht₁
  exact ⟨k'.trade, htrades ▸ List.mem_append_left _ ht₂, hsame.trans hm.entry⟩

/-- A market order bought the trade on the spot market. -/
def Trade.OnSpot (t : Trade) : Prop := t.marketType = .spot ∧ t.orderType = some .market

/-- A price that the ticker answered in the pass calls for the exit. -/
def ExitDecision.CalledFor (asked : List (Nat × String × Rat)) (pass : Nat) (t : Trade)
    (d : ExitDecision) : Prop :=
  t.id = d.tradeId ∧ t.OnSpot ∧ ∃ lastPrice, (pass, t.symbol, lastPrice) ∈ asked ∧
    resolveSpotExitReason t lastPrice = some d.exitReason

theorem ExitDecision.CalledFor.congr {asked : List (Nat × String × Rat)} {pass : Nat} {t t' : Trade}
    {d : ExitDecision} (h : d.CalledFor asked pass t) (hsame : t.SameEntry t') :
    d.CalledFor asked pass t' := by
  obtain ⟨hid, hspot, lastPrice, hasked, hreason⟩ := h
  refine ⟨hsame.id.trans hid, ⟨hsame.marketType.trans hspot.1, hsame.orderType.trans hspot.2⟩,
    lastPrice, ?_, ?_⟩
  · rwa [hsame.symbol]
  · rwa [resolveSpotExitReason_congr hsame]

theorem ExitDecision.CalledFor.later {asked asked' : List (Nat × String × Rat)} {pass : Nat}
    {t : Trade} {d : ExitDecision} (h : d.CalledFor asked pass t) (hle : asked ⊆ asked') :
    d.CalledFor asked' pass t := by
  obtain ⟨hid, hspot, lastPrice, hasked, hreason⟩ := h
  exact ⟨hid, hspot, lastPrice, hle hasked, hreason⟩

/-- What is known of each call of `close_trade`: the prices of its pass called for it, and it
sends at most one order, for a trade that by then is partly filled, has failed to close or has
its stop order. -/
structure ExitAttempt.Justified (mode : TradingMode) (asked : List (Nat × String × Rat))
    (a : ExitAttempt) : Prop where
  called : ∃ t, a.row = some t ∧ a.decision.CalledFor asked a.pass t ∧ t.Armed ∧
    a.sent = if t.status ∈ closeRetryableStatuses ∧ mode ≠ .shadow then
        [.ofCall t.id .close (closeRequest t a.nonce) a.outcome]
      else []

namespace MonitorStage

def listed : MonitorStage → List Trade
  | .pricing ts _ => ts
  | _ => []

def decided : MonitorStage → List ExitDecision
  | .pricing _ p => p.decisions
  | .closing ds => ds
  | _ => []

def priceCache : MonitorStage → List (String × Rat)
  | .pricing _ p => p.priceCache
  | _ => []

/-- The trades that the pass still deals with. -/
def pending (stage : MonitorStage) : List TradeId :=
  stage.decided.map ExitDecision.tradeId ++ stage.listed.map Trade.id

end MonitorStage

namespace MonitorState

/-- Which trade was closed in which pass. -/
def closes (m : MonitorState) : List (Nat × TradeId) :=
  m.attempts.map fun a => (a.pass, a.decision.tradeId)

structure Sound (mode : TradingMode) (m : MonitorState) : Prop where
  world : m.world.Sound
  listed : ∀ t ∈ m.stage.listed, m.world.Keeps t ∧ t.OnSpot
  cached : ∀ symbol lastPrice, m.stage.priceCache.lookup symbol = some lastPrice →
    (m.passes, symbol, lastPrice) ∈ m.asked
  decided : ∀ d ∈ m.stage.decided, ∃ t, m.world.Keeps t ∧ d.CalledFor m.asked m.passes t
  attempts : ∀ a ∈ m.attempts, a.Justified mode m.asked
  past : ∀ a ∈ m.attempts, a.pass ≤ m.passes
  once : (m.closes ++ m.stage.pending.map fun id => (m.passes, id)).Nodup

variable {env : Env} {mode : TradingMode} {m : MonitorState}

theorem Sound.core (h : m.Sound mode) (s : Step) :
    { m with world := AmaExecutionCore.step env m.world s }.Sound mode where
  world := h.world.step s
  listed t ht := ⟨(h.listed t ht).1.step h.world.wellFormed s, (h.listed t ht).2⟩
  cached := h.cached
  decided d hd := by
    obtain ⟨t, hkeeps, hcalled⟩ := h.decided d hd
    exact ⟨t, hkeeps.step h.world.wellFormed s, hcalled⟩
  attempts := h.attempts
  past := h.past
  once := h.once

theorem Sound.rest (h : m.Sound mode) {stage : MonitorStage} (hlisted : stage.listed = [])
    (hdecided : stage.decided = []) (hcache : stage.priceCache = []) :
    { m with stage := stage }.Sound mode where
  world := h.world
  listed t ht := by simp [hlisted] at ht
  cached symbol lastPrice hq := by simp [hcache] at hq
  decided d hd := by simp [hdecided] at hd
  attempts := h.attempts
  past := h.past
  once := by
    have hnone : stage.pending = [] := by rw [MonitorStage.pending, hdecided, hlisted]; rfl
    rw [hnone]
    exact h.once.sublist (List.Sublist.append_left (List.nil_sublist _) _)

theorem Sound.poll (h : m.Sound mode) : m.poll.Sound mode := by
  unfold MonitorState.poll
  split_ifs with hstopped
  · exact h.rest rfl rfl rfl
  · have hsub : (spotExitCandidates m.world.db).Sublist m.world.db.trades :=
      List.filter_sublist.trans List.filter_sublist
    refine ⟨h.world, ?_, ?_, ?_, h.attempts, fun a ha => (h.past a ha).trans (Nat.le_succ _), ?_⟩
    · intro t ht
      obtain ⟨hlisted, -⟩ := List.mem_filter.mp ht
      obtain ⟨hrow, hmissing⟩ := List.mem_filter.mp hlisted
      simp only [Db.missingProtection, Bool.and_eq_true, decide_eq_true_eq] at hmissing
      exact ⟨⟨t, hrow, .refl t⟩, hmissing.1.1.1⟩
    · simp [MonitorStage.priceCache]
    · simp [MonitorStage.decided]
    · rw [List.nodup_append]
      refine ⟨(List.nodup_append.mp h.once).1, ?_, ?_⟩
      · have hids : ((spotExitCandidates m.world.db).map Trade.id).Nodup :=
          h.world.wellFormed.ids.sublist (hsub.map _)
        exact hids.map fun a b hab => (Prod.mk.inj hab).2
      · intro c hc d hd heq
        obtain ⟨a, ha, rfl⟩ := List.mem_map.mp hc
        obtain ⟨id, -, rfl⟩ := List.mem_map.mp hd
        have hpass : a.pass = m.passes + 1 := congrArg Prod.fst heq
        have hpast := h.past a ha
        omega

theorem Sound.stop (h : m.Sound mode) : { m with stopped := true }.Sound mode :=
  ⟨h.world, h.listed, h.cached, h.decided, h.attempts, h.past, h.once⟩

theorem Sound.priced (h : m.Sound mode) {p : ExitPass} (hstage : m.stage = .pricing [] p) :
    { m with stage := .closing p.decisions }.Sound mode := by
  obtain ⟨hworld, -, -, hdecided, hattempts, hpast, honce⟩ := h
  rw [hstage] at hdecided honce
  exact ⟨hworld, by simp [MonitorStage.listed], by simp [MonitorStage.priceCache], hdecided,
    hattempts, hpast, honce⟩

theorem Sound.decide (h : m.Sound mode) {t : Trade} {ts : List Trade} {p : ExitPass}
    (hstage : m.stage = .pricing (t :: ts) p) {lastPrice : Rat} {cache : List (String × Rat)}
    {asked : List (Nat × String × Rat)} (hle : m.asked ⊆ asked)
    (hcached : ∀ symbol q, cache.lookup symbol = some q → (m.passes, symbol, q) ∈ asked)
    (hprice : (m.passes, t.symbol, lastPrice) ∈ asked) :
    { m with
      stage := .pricing ts ({ p with priceCache := cache }.decide t lastPrice)
      asked := asked }.Sound mode := by
  obtain ⟨hworld, hlisted, -, hdecided, hattempts, hpast, honce⟩ := h
  rw [hstage] at hlisted hdecided honce
  obtain ⟨hkeeps, hspot⟩ := hlisted t List.mem_cons_self
  have hdecided' : ∀ d ∈ p.decisions, ∃ t, m.world.Keeps t ∧ d.CalledFor asked m.passes t := by
    intro d hd
    obtain ⟨r, hr, hcalled⟩ := hdecided d hd
    exact ⟨r, hr, hcalled.later hle⟩
  refine ⟨hworld, fun r hr => hlisted r (List.mem_cons_of_mem _ hr), ?_, ?_, ?_, hpast, ?_⟩
  · intro symbol q hq
    rw [MonitorStage.priceCache, ExitPass.decide_priceCache] at hq
    exact hcached symbol q hq
  · intro d hd
    simp only [MonitorStage.decided, ExitPass.decide] at hd
    split at hd
    · exact hdecided' d hd
    · next reason hreason =>
      obtain hd | hd := List.mem_append.mp hd
      · exact hdecided' d hd
      · rw [List.mem_singleton.mp hd]
        exact ⟨t, hkeeps, rfl, hspot, lastPrice, hprice, hreason⟩
  · intro a ha
    obtain ⟨r, hrow, hcalled, hrest⟩ := (hattempts a ha).called
    exact ⟨r, hrow, hcalled.later hle, hrest⟩
  · refine honce.sublist (List.Sublist.append_left (List.Sublist.map _ ?_) _)
    simp only [MonitorStage.pending, MonitorStage.decided, MonitorStage.listed, ExitPass.decide]
    split
    · exact List.Sublist.append_left (List.sublist_cons_self _ _) _
    · simp

theorem Sound.look (h : m.Sound mode) {t : Trade} {ts : List Trade} {p : ExitPass}
    (hstage : m.stage = .pricing (t :: ts) p) (answer : Except PyError Rat) :
    (m.look t ts p answer).Sound mode := by
  have hcached : ∀ symbol q, p.priceCache.lookup symbol = some q →
      (m.passes, symbol, q) ∈ m.asked := by
    have hall := h.cached
    rw [hstage] at hall
    exact hall
  unfold MonitorState.look
  split
  · next lastPrice hlookup =>
    exact h.decide hstage (List.Subset.refl _) hcached (hcached _ _ hlookup)
  · split
    · exact h.rest rfl rfl rfl
    · next lastPrice =>
      have hle : m.asked ⊆ m.asked ++ [(m.passes, t.symbol, lastPrice)] :=
        List.subset_append_left _ _
      have hprice : (m.passes, t.symbol, lastPrice) ∈
          m.asked ++ [(m.passes, t.symbol, lastPrice)] :=
        List.mem_append_right _ (List.mem_singleton.mpr rfl)
      refine h.decide hstage hle ?_ hprice
      intro symbol q hq
      rw [List.lookup_cons] at hq
      split at hq
      · next heq =>
        rw [eq_of_beq heq, ← Option.some.inj hq]
        exact hprice
      · exact hle (hcached symbol q hq)

theorem closeTrade_orders {mode : TradingMode} {w : World} {t : Trade} (hw : w.WellFormed)
    (ht : t ∈ w.db.trades) (reason : ExitReason) (io : CloseIo) :
    (closeTrade mode t.id reason io w).2.exchange.orders = w.exchange.orders ++
      if t.status ∈ closeRetryableStatuses ∧ mode ≠ .shadow then [closeOrder io (w.work t)]
      else [] := by
  by_cases hst : t.status ∈ closeRetryableStatuses
  · have hsent : (submitClose mode reason io (w.work t)).2.exchange.orders = w.exchange.orders ++
        if mode ≠ .shadow then [closeOrder io (w.work t)] else [] := by
      by_cases hmode : mode = .shadow
      · rw [hmode, submitClose_shadow]
        simp
      · rw [submitClose_orders hmode, if_pos hmode]
        rfl
    simp only [closeTrade, hw.getTrade ht, hst, not_true, if_false, true_and]
    rw [← hsent]
    generalize submitClose mode reason io (w.work t) = r
    obtain ⟨_ | _, k'⟩ := r <;> rfl
  · rw [closeTrade_untouched hw ht hst, if_neg fun h => hst h.1, List.append_nil]

theorem Sound.attempt (h : m.Sound env.settings.tradingMode) {d : ExitDecision}
    {ds : List ExitDecision} (hstage : m.stage = .closing (d :: ds)) (io : CloseIo) :
    (m.attempt env d ds io).Sound env.settings.tradingMode := by
  obtain ⟨hworld, -, -, hdecided, hattempts, hpast, honce⟩ := h
  rw [hstage] at hdecided honce
  obtain ⟨t₀, ⟨t, ht, hsame⟩, hcalled⟩ := hdecided d List.mem_cons_self
  have hid : t.id = d.tradeId := hsame.id.trans hcalled.1
  have hrow := hworld.wellFormed.getTrade ht
  have hclosed : (AmaExecutionCore.step env m.world
      (.closeTrade d.tradeId d.exitReason io)).Sound := hworld.step _
  refine ⟨hclosed, ?_, ?_, ?_, ?_, ?_, ?_⟩
  · simp [MonitorState.attempt, MonitorStage.listed]
  · simp [MonitorState.attempt, MonitorStage.priceCache]
  · intro e he
    obtain ⟨r, hkeeps, hcalled'⟩ := hdecided e (List.mem_cons_of_mem _ he)
    have hkept : (AmaExecutionCore.step env m.world
        (.closeTrade d.tradeId d.exitReason io)).Keeps r := hkeeps.step hworld.wellFormed _
    exact ⟨r, hkept, hcalled'⟩
  · intro a ha
    obtain ha | ha := List.mem_append.mp ha
    · exact hattempts a ha
    · rw [List.mem_singleton.mp ha]
      refine ⟨t, hid ▸ hrow, hcalled.congr hsame, hworld.armed t ht, ?_⟩
      dsimp only
      rw [← hid, closeTrade_orders hworld.wellFormed ht, List.drop_left]
      rfl
  · intro a ha
    obtain ha | ha := List.mem_append.mp ha
    · exact hpast a ha
    · rw [List.mem_singleton.mp ha]
      exact le_refl _
  · have hcloses : (m.attempt env d ds io).closes = m.closes ++ [(m.passes, d.tradeId)] := by
      simp [MonitorState.attempt, closes]
    rw [hcloses, List.append_assoc]
    exact honce

theorem Sound.step (h : m.Sound env.settings.tradingMode) (act : MonitorAct) :
    (m.step env act).Sound env.settings.tradingMode := by
  cases act with
  | core s => exact h.core s
  | stop => exact h.stop
  | poll =>
    simp only [MonitorState.step]
    split
    · exact h.poll
    · exact h
  | answer lastPrice =>
    simp only [MonitorState.step]
    split
    · next t ts p hstage => exact h.look hstage lastPrice
    · next p hstage => exact h.priced hstage
    · exact h
  | close io =>
    simp only [MonitorState.step]
    split
    · next d ds hstage => exact h.attempt hstage io
    · exact h.rest rfl rfl rfl
    · exact h

theorem Sound.initial (mode : TradingMode) : ({} : MonitorState).Sound mode :=
  ⟨.initial, by simp [MonitorStage.listed], by simp [MonitorStage.priceCache],
    by simp [MonitorStage.decided], by simp, by simp, by simp [closes, MonitorStage.pending,
      MonitorStage.decided, MonitorStage.listed]⟩

end MonitorState

/-- However the core and the monitor take turns: a price that the ticker answered in the same pass
calls for each close, no trade is closed twice in a pass, and each call sends the one order that
sells the position or nothing; an open position that it sells has its stop order by then. -/
theorem attempts_justified (env : Env) (acts : List MonitorAct) :
    let m := Runs.run (MonitorState.step env) {} acts
    (∀ a ∈ m.attempts, a.Justified env.settings.tradingMode m.asked) ∧ m.closes.Nodup := by
  intro m
  have hsound : m.Sound env.settings.tradingMode :=
    Runs.run_invariant (I := MonitorState.Sound env.settings.tradingMode) acts (.initial _)
      fun _ act h => h.step act
  exact ⟨hsound.attempts, (List.nodup_append.mp hsound.once).1⟩

/-- The entry order is reported as filled with its remainder open, so it has no stop when the pass
lists it. The price falls below the stop level, the rest of the report arms the stop, and then the
monitor sells the position as well. -/
def racedActs : List MonitorAct :=
  [.core (.executeSignal demoRequest (demoExecute (.accepted none) (.ok none))),
    .core (.settle (.generated (some 0) 2) .filled),
    .core (.processOrder { demoEntryFill with leavesQty := none } (demoHandler 1)),
    .poll, .answer (.ok 97), .answer (.ok 97),
    .core (.processOrder demoEntryFill (demoHandler 1)),
    .close ⟨2, .accepted none⟩]

example : ((Runs.run (MonitorState.step (demoEnv .takerAllowed)) {}
    racedActs).world.exchange.orders.map fun o => (o.role, o.request.qty, o.isLive)) =
      [(.entry, 5, false), (.stop, 5, true), (.takeProfit, 5, true), (.close, 5, true)] := by
  decide +kernel

end AmaExecutionCore
