import AmaExecutionCore.GridHalts
import AmaExecutionCore.GridInventory
import Mathlib.Algebra.Order.Field.Basic

/-! The risk check of a grid over its prices: a drawdown above the limit pauses the session, and
only a price below the bound with the drawdown within the limit stops it. -/
namespace AmaExecutionCore
open GridRunner

namespace GridRunner

/-- The strength of a reaction: none, a pause, a stop with all orders cancelled. -/
def RiskReaction.strength : RiskReaction → Nat
  | nothing => 0
  | pauses => 1
  | stops => 2

end GridRunner

def GridStopIo.Returns (io : GridStopIo) : Prop := io.listed = true ∧ ∀ x, io.cancel x = .returned

/-- How the check ends in a world, by its reaction. -/
def Reacted (s : GridSession) (w : GridWorld) (result : GridOutcome Unit) : RiskReaction → Prop
  | .nothing => result = (.ok (), w)
  | .pauses => result = (.ok (), w.setStatus s.id .paused)
  | .stops => result.1 = .ok () ∧
      result.2.loadSession s.id = some { s with status := .stopped } ∧
      ∀ o ∈ result.2.orders, o.symbol = s.symbol → o.state ≠ .live

/-- What the create API and the starts promise of a session. -/
structure GridSession.Sound (s : GridSession) : Prop where
  pMin_pos : 0 < s.config.pMin
  capital_pos : 0 < s.config.capitalUsdt
  prices : ∀ slot ∈ s.slots, 0 ≤ slot.buyPrice
  units : ∀ slot ∈ s.slots, 0 ≤ slot.units.getD 0

def heldCost (s : GridSession) : Rat :=
  ((heldSlots s).map fun slot => slot.buyPrice * slot.units.getD 0).sum

/-! The reaction in the world -/

theorem cancelledOrders_returned {cancel : GridOrderId → GridCancelOutcome}
    (h : ∀ x, cancel x = .returned) (ids : List GridOrderId) : cancelledOrders cancel ids = ids := by
  induction ids with
  | nil => rfl
  | cons id ids ih => rw [cancelledOrders, h, ih]

theorem loadSession_setStatus {id : Nat} {status : GridSessionStatus} {s : GridSession} {w : GridWorld}
    (hs : w.loadSession id = some s) :
    (w.setStatus id status).loadSession id = some { s with status := status } := by
  have hkey : ((fun row : GridSession => decide (row.id = id)) ∘ fun row : GridSession =>
      if row.id = id then { row with status := status } else row) = fun row => decide (row.id = id) := by
    funext row
    dsimp only [Function.comp]
    split_ifs with hrow
    · rfl
    · rfl
  rw [GridWorld.loadSession] at hs
  rw [GridWorld.loadSession, GridWorld.setStatus, List.find?_map, hkey, hs, Option.map_some,
    if_pos (by simpa using List.find?_some hs)]

theorem stop_returns {id : Nat} {s : GridSession} {io : GridStopIo} {w : GridWorld}
    (hs : w.loadSession id = some s) (hio : io.Returns) :
    (stop id io w).1 = .ok () ∧ (stop id io w).2.loadSession id = some { s with status := .stopped } ∧
      ∀ o ∈ (stop id io w).2.orders, o.symbol = s.symbol → o.state ≠ .live := by
  obtain ⟨hlisted, hreturn⟩ := hio
  obtain ⟨hworld, hok⟩ := cancelOrders_spec io.cancel (openGridOrders s.symbol w) w
  have hrun : cancelAllOrders s.symbol io w =
      (.ok (), { w with orders := cancelAll (openGridOrders s.symbol w) w.orders }) := by
    rw [cancelAllOrders, if_pos hlisted]
    refine Prod.ext (hok.mpr fun x _ => hreturn x) ?_
    rw [hworld, cancelledOrders_returned hreturn]
  rw [stop, hs]
  dsimp only
  rw [hrun]
  refine ⟨rfl, loadSession_setStatus hs, ?_⟩
  intro o ho hsymbol
  obtain ⟨o₀, ho₀, rfl⟩ := List.mem_map.mp ho
  by_cases hlive : o₀.state = .live
  · have hopen : o₀.id ∈ openGridOrders s.symbol w := by
      refine List.mem_map_of_mem (List.mem_filter.mpr ⟨ho₀, ?_⟩)
      have hsym : o₀.symbol = s.symbol := by
        split_ifs at hsymbol
        · exact hsymbol
        · exact hsymbol
      simp [hsym, GridOrder.isLive, hlive]
    rw [if_pos ⟨hopen, hlive⟩]
    exact GridOrderState.noConfusion
  · rw [if_neg fun h => hlive h.2]
    exact hlive

theorem evaluateRiskWithin_reacted {id : Nat} {s : GridSession} {io : GridStopIo} {w : GridWorld}
    (hs : w.loadSession id = some s) (hio : io.Returns) (configMaxDdPct currentPrice : Rat) :
    Reacted s w (evaluateRiskWithin configMaxDdPct id currentPrice io w)
      (riskReaction configMaxDdPct currentPrice s) := by
  obtain rfl : s.id = id := (GridWorld.mem_of_loadSession hs).2
  unfold evaluateRiskWithin riskReaction
  rw [hs]
  dsimp only
  split_ifs
  · unfold Reacted pause
    rw [hs]
  · exact stop_returns hs hio
  · rfl

/-! The drawdown over the prices -/

namespace GridSession.Sound
variable {s : GridSession}

theorem held (h : s.Sound) : 0 ≤ heldUnits s := by
  refine List.sum_nonneg fun x hx => ?_
  obtain ⟨slot, hslot, rfl⟩ := List.mem_map.mp hx
  exact h.units slot (List.mem_of_mem_filter hslot)

theorem cost (h : s.Sound) : 0 ≤ heldCost s := by
  refine List.sum_nonneg fun x hx => ?_
  obtain ⟨slot, hslot, rfl⟩ := List.mem_map.mp hx
  have hmem := List.mem_of_mem_filter hslot
  exact mul_nonneg (h.prices slot hmem) (h.units slot hmem)

/-- The drawdown is within a limit that is not negative when the loss is within its share of
the capital. -/
theorem drawdown_le_iff (h : s.Sound) {limit : Rat} (hlimit : 0 ≤ limit) (price : Rat) :
    unrealizedDrawdownPct s price ≤ limit ↔
      (heldCost s - price * heldUnits s) * 100 ≤ limit * s.config.capitalUsdt := by
  have hcapital := h.capital_pos
  rw [unrealizedDrawdownPct_eq, if_neg hcapital.ne', div_mul_eq_mul_div, div_le_iff₀ hcapital]
  change max 0 (heldCost s - price * heldUnits s) * 100 ≤ _ ↔ _
  constructor
  · intro hle
    have hmax := le_max_right 0 (heldCost s - price * heldUnits s)
    linarith
  · intro hle
    have hbound := mul_nonneg hlimit hcapital.le
    obtain hmax | hmax := max_choice 0 (heldCost s - price * heldUnits s) <;> rw [hmax] <;> linarith

theorem drawdown_nonneg (h : s.Sound) (price : Rat) : 0 ≤ unrealizedDrawdownPct s price := by
  rw [unrealizedDrawdownPct_eq, if_neg h.capital_pos.ne']
  exact mul_nonneg (div_nonneg (le_max_left _ _) h.capital_pos.le) (by norm_num)

theorem drawdown_antitone (h : s.Sound) {low high : Rat} (hle : low ≤ high) :
    unrealizedDrawdownPct s high ≤ unrealizedDrawdownPct s low := by
  rw [h.drawdown_le_iff (h.drawdown_nonneg low)]
  have hlow := (h.drawdown_le_iff (h.drawdown_nonneg low) low).mp le_rfl
  have hvalue := mul_le_mul_of_nonneg_right hle h.held
  linarith

/-- A limit that every positive price below a bound keeps is kept by the whole cost. -/
theorem cost_le (h : s.Sound) {bound limit : Rat} (hbound : 0 < bound)
    (hall : ∀ price, 0 < price → price < bound → unrealizedDrawdownPct s price ≤ limit) :
    heldCost s * 100 ≤ limit * s.config.capitalUsdt := by
  have hlimit : 0 ≤ limit :=
    (h.drawdown_nonneg (bound / 2)).trans (hall (bound / 2) (half_pos hbound) (half_lt_self hbound))
  have hheld := h.held
  -- were the cost above the share, some price would be too small to make up for the rest
  by_contra hgt
  have hrest : 0 < heldCost s * 100 - limit * s.config.capitalUsdt := by linarith
  have hden : 0 < 100 * (heldUnits s + 1) := by linarith
  have hpos : 0 < min (bound / 2) ((heldCost s * 100 - limit * s.config.capitalUsdt) /
      (100 * (heldUnits s + 1))) / 2 := half_pos (lt_min (half_pos hbound) (div_pos hrest hden))
  have hsmall := hall _ hpos (by
    have hleft := min_le_left (bound / 2) ((heldCost s * 100 - limit * s.config.capitalUsdt) /
      (100 * (heldUnits s + 1)))
    linarith)
  rw [h.drawdown_le_iff hlimit] at hsmall
  have hright := min_le_right (bound / 2) ((heldCost s * 100 - limit * s.config.capitalUsdt) /
      (100 * (heldUnits s + 1)))
  generalize min (bound / 2) ((heldCost s * 100 - limit * s.config.capitalUsdt) /
      (100 * (heldUnits s + 1))) = price at hpos hsmall hright
  rw [le_div_iff₀ hden] at hright
  nlinarith

end GridSession.Sound

/-! The reaction over the prices -/

theorem riskReaction_pauses {limit price : Rat} {s : GridSession}
    (h : limit < unrealizedDrawdownPct s price) : riskReaction limit price s = .pauses := if_pos h

theorem riskReaction_stops {limit price : Rat} {s : GridSession}
    (h : unrealizedDrawdownPct s price ≤ limit) (hprice : price < s.config.pMin * (95 / 100)) :
    riskReaction limit price s = .stops := by
  rw [riskReaction, if_neg (not_lt.mpr h), if_pos hprice]

theorem riskReaction_nothing_iff {limit price : Rat} {s : GridSession} :
    riskReaction limit price s = .nothing ↔
      unrealizedDrawdownPct s price ≤ limit ∧ s.config.pMin * (95 / 100) ≤ price := by
  unfold riskReaction
  by_cases hdrawdown : limit < unrealizedDrawdownPct s price
  · simp [hdrawdown, not_le.mpr hdrawdown]
  · by_cases hprice : price < s.config.pMin * (95 / 100)
    · simp [hdrawdown, hprice, not_le.mpr hprice]
    · simp [hdrawdown, hprice, not_lt.mp hdrawdown, not_lt.mp hprice]

/-- The reaction never gets weaker as the price falls, and every price below the bound stops
the session. -/
def ReactionMonotone (limit : Rat) (s : GridSession) : Prop :=
  (∀ low high, 0 < low → low < high →
    (riskReaction limit high s).strength ≤ (riskReaction limit low s).strength) ∧
  ∀ price, 0 < price → price < s.config.pMin * (95 / 100) → riskReaction limit price s = .stops

/-- That is so exactly when the held units cost at most the limit's share of the capital. -/
theorem reactionMonotone_iff {limit : Rat} {s : GridSession} (h : s.Sound) :
    ReactionMonotone limit s ↔ heldCost s * 100 ≤ limit * s.config.capitalUsdt := by
  have hbound : 0 < s.config.pMin * (95 / 100) := mul_pos h.pMin_pos (by norm_num)
  constructor
  · intro hmono
    refine h.cost_le hbound fun price hpos hprice => ?_
    by_contra hgt
    have hpause := riskReaction_pauses (not_le.mp hgt)
    rw [hmono.2 price hpos hprice] at hpause
    cases hpause
  · intro hcost
    have hlimit : 0 ≤ limit := by
      by_contra hneg
      have hshare := mul_neg_of_neg_of_pos (not_le.mp hneg) h.capital_pos
      linarith [h.cost]
    have hkept : ∀ price, 0 < price → unrealizedDrawdownPct s price ≤ limit := by
      intro price hpos
      rw [h.drawdown_le_iff hlimit]
      linarith [mul_nonneg hpos.le h.held]
    have hstops : ∀ price, 0 < price → price < s.config.pMin * (95 / 100) →
        riskReaction limit price s = .stops := fun price hpos hprice =>
      riskReaction_stops (hkept price hpos) hprice
    refine ⟨fun low high hlow hlt => ?_, hstops⟩
    by_cases hprice : high < s.config.pMin * (95 / 100)
    · rw [hstops low hlow (hlt.trans hprice), hstops high (hlow.trans hlt) hprice]
    · rw [riskReaction_nothing_iff.mpr ⟨hkept high (hlow.trans hlt), not_lt.mp hprice⟩]
      exact Nat.zero_le _

/-- For every session, limit and price: what the check does, in the world it leaves. It reacts at
every price below one at which it reacts; below the bound it stops the session when the drawdown
is within the limit and pauses it otherwise; and it is monotone in full exactly when the held
units cost at most the limit's share of the capital. -/
theorem evaluateRisk_reaction {id : Nat} {s : GridSession} {w : GridWorld}
    (hs : w.loadSession id = some s) (h : s.Sound) (io : GridStopIo) (hio : io.Returns) (limit : Rat) :
    (∀ price, Reacted s w (evaluateRiskWithin limit id price io w) (riskReaction limit price s)) ∧
    (∀ low high, low < high → riskReaction limit high s ≠ .nothing →
      riskReaction limit low s ≠ .nothing) ∧
    (∀ price, price < s.config.pMin * (95 / 100) → riskReaction limit price s =
      if unrealizedDrawdownPct s price ≤ limit then .stops else .pauses) ∧
    (ReactionMonotone limit s ↔ heldCost s * 100 ≤ limit * s.config.capitalUsdt) := by
  refine ⟨evaluateRiskWithin_reacted hs hio limit, ?_, ?_, reactionMonotone_iff h⟩
  · intro low high hlt hreacts hnothing
    obtain ⟨hdrawdown, hprice⟩ := riskReaction_nothing_iff.mp hnothing
    exact hreacts (riskReaction_nothing_iff.mpr
      ⟨(h.drawdown_antitone hlt.le).trans hdrawdown, hprice.trans hlt.le⟩)
  · intro price hprice
    split_ifs with hdrawdown
    · exact riskReaction_stops hdrawdown hprice
    · exact riskReaction_pauses (not_le.mp hdrawdown)

/-! Reachable sessions -/

theorem GridSession.Sound.started {s : GridSession} (h : s.Sound) {price : Rat} {new : List GridOrder}
    {slots : List GridSlotRecord} (hslots : List.Forall₂ (SlotStarted s price new) s.slots slots) :
    GridSession.Sound { s with slots := slots, status := .active } := by
  have hunits : ∀ slot ∈ s.slots, 0 ≤ slotUnits s.config slot := fun slot hslot =>
    div_nonneg (div_nonneg h.capital_pos.le (Nat.cast_nonneg _)) (h.prices slot hslot)
  have hslot : ∀ slot' ∈ slots, 0 ≤ slot'.buyPrice ∧ 0 ≤ slot'.units.getD 0 := by
    intro slot' hslot'
    obtain ⟨slot, hslot, hstarted⟩ := Rows.exists_left hslots hslot'
    cases hstarted <;> exact ⟨h.prices slot hslot, hunits slot hslot⟩
  exact ⟨h.pMin_pos, h.capital_pos, fun r hr => (hslot r hr).1, fun r hr => (hslot r hr).2⟩

theorem GridSession.Sound.created (req : GridCreateRequest) (id firstId : Nat) :
    GridSession.Sound
      { id := id, symbol := req.config.symbol, config := req.config
        slots := newSlots req.config firstId } := by
  have hstep : 0 ≤ req.config.step :=
    div_nonneg (sub_nonneg.mpr req.ordered.le) (Nat.cast_nonneg _)
  refine ⟨req.pMin_pos, req.capital_pos, fun slot hslot => ?_, fun slot hslot => ?_⟩
  · obtain ⟨⟨price, level⟩, hprice, rfl⟩ := List.mem_map.mp hslot
    obtain ⟨i, -, rfl⟩ := GridConfig.mem_buyPrices.mp (List.fst_mem_of_mem_zipIdx hprice)
    exact add_nonneg req.pMin_pos.le (mul_nonneg (Nat.cast_nonneg _) hstep)
  · rw [(newSlots_fresh hslot).units]
    rfl

theorem sound_step {w : GridWorld} (hw : w.WellFormed) (h : ∀ s ∈ w.sessions, s.Sound) (st : GridStep) :
    ∀ s ∈ (gridStep w st).sessions, s.Sound := by
  have heff := gridStep_effect w st
  generalize gridStep w st = w' at heff ⊢
  have hstatus : ∀ (id : Nat) (status : GridSessionStatus) (w₁ : GridWorld),
      w₁.sessions = w.sessions → ∀ s ∈ (w₁.setStatus id status).sessions, s.Sound := by
    intro id status w₁ hrows s hs
    obtain ⟨s₀, hs₀, rfl⟩ := List.mem_map.mp hs
    have hsound := h s₀ (hrows ▸ hs₀)
    split_ifs
    · exact ⟨hsound.pMin_pos, hsound.capital_pos, hsound.prices, hsound.units⟩
    · exact hsound
  cases heff with
  | nothing | stopFailed | filled | unhandled | failed => exact h
  | @created req =>
    intro s hs
    obtain hs | hs := List.mem_append.mp hs
    · exact h s hs
    · obtain rfl := List.mem_singleton.mp hs
      exact .created req _ _
  | startFailed hs hst hprice hp hraised =>
    rw [hp.sessions]
    exact h
  | @started _ _ t _ _ _ slots hs hst hprice hp hall hslots =>
    intro s hmem
    obtain ⟨s₀, hs₀, rfl⟩ := List.mem_map.mp hmem
    have hsound := h s₀ (hp.sessions ▸ hs₀)
    split_ifs
    · exact (h t (GridWorld.mem_of_loadSession hs).1).started hslots
    · exact hsound
  | stopped => exact hstatus _ _ _ rfl
  | paused => exact hstatus _ _ _ rfl
  | @advanced _ _ o _ row ho hid hfilled hfound hout =>
    subst hid
    obtain ⟨t, ht, -, hslot, -, -⟩ := lookup_named hw ho hfound
    obtain ⟨-, -, hbuy, -⟩ := advanceSlot_frame o.side w.issued row.2
    intro s hmem
    obtain ⟨s₀, hs₀, rfl⟩ := List.mem_map.mp hmem
    have hsound := h s₀ hs₀
    have hrow : ∀ slot ∈ s₀.slots.map fun slot => if slot.id = (advanceSlot o.side w.issued row.2).id
        then advanceSlot o.side w.issued row.2 else slot,
        0 ≤ slot.buyPrice ∧ 0 ≤ slot.units.getD 0 := by
      intro slot hmem'
      obtain ⟨slot₀, hslot₀, rfl⟩ := List.mem_map.mp hmem'
      split_ifs
      · rw [hbuy, advanceSlot_units]
        exact ⟨(h t ht).prices _ hslot, (h t ht).units _ hslot⟩
      · exact ⟨hsound.prices _ hslot₀, hsound.units _ hslot₀⟩
    exact ⟨hsound.pMin_pos, hsound.capital_pos, fun r hr => (hrow r hr).1, fun r hr => (hrow r hr).2⟩

/-- Every session that is reached is sound. -/
theorem sound_run (steps : List GridStep) :
    ∀ s ∈ (Runs.run gridStep {} steps).sessions, s.Sound := by
  have hrun := @Runs.run_invariant _ _ gridStep
    (fun w => w.WellFormed ∧ ∀ s ∈ w.sessions, s.Sound) {} steps ⟨gridWellFormed_init, by simp⟩
    fun w st h => ⟨gridStep_wellFormed h.1 st, sound_step h.1 h.2 st⟩
  exact hrun.2

/-- The one slot of a grid of 10 USDT after its buy order was filled. -/
def heldGrid : GridWorld :=
  Runs.run gridStep {} [.create demoGridRequest, .start 0 (demoGridStart 2), .fill 2, .report 2 .accepted]

/-- What `evaluate_risk` with its default limit leaves of the grid: the status of the session and
the live orders. -/
def riskOutcome (currentPrice : Rat) : Option GridSessionStatus × List GridOrderId :=
  let w := (evaluateRisk 0 currentPrice ⟨true, fun _ => .returned⟩ heldGrid).2
  ((w.loadSession 0).map GridSession.status, (w.orders.filter GridOrder.isLive).map GridOrder.id)

/-- At a limit of 100 percent the grid is stopped at every price below its bound. -/
theorem evaluateRisk_reaction_held : ∃ s, heldGrid.loadSession 0 = some s ∧ ReactionMonotone 100 s := by
  obtain ⟨s, hmem, hs⟩ : ∃ s ∈ heldGrid.sessions, heldGrid.loadSession 0 = some s ∧
      heldCost s * 100 ≤ 100 * s.config.capitalUsdt := by decide +kernel
  refine ⟨s, hs.1, ?_⟩
  exact (evaluateRisk_reaction hs.1 (sound_run _ s hmem) ⟨true, fun _ => .returned⟩
    ⟨rfl, fun _ => rfl⟩ 100).2.2.2.mpr hs.2

/-- At 0.7, below the bound of 0.95, the session is stopped and its sell order cancelled; at 0.64
it is only paused, and the order stays. -/
theorem evaluateRisk_masked : riskOutcome (7 / 10) = (some .stopped, []) ∧
    riskOutcome (64 / 100) = (some .paused, [3]) ∧ ∃ s ∈ heldGrid.sessions, ¬ ReactionMonotone 35 s := by
  refine ⟨by decide +kernel, by decide +kernel, ?_⟩
  obtain ⟨s, hmem, hlow, hhigh⟩ : ∃ s ∈ heldGrid.sessions,
      riskReaction 35 (64 / 100) s = .pauses ∧ riskReaction 35 (7 / 10) s = .stops := by decide +kernel
  refine ⟨s, hmem, fun h => ?_⟩
  have hle := h.1 (64 / 100) (7 / 10) (by norm_num) (by norm_num)
  rw [hlow, hhigh] at hle
  exact absurd hle (by decide)

end AmaExecutionCore
