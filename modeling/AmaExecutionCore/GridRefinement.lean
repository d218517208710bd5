import AmaExecutionCore.GridBacktester
import AmaExecutionCore.GridStarts

/-! The live grid beside its backtester, candle by candle: they agree as long as no candle
reaches the sell price of a level the start counts as bought. -/
namespace AmaExecutionCore
open GridRunner GridBacktester

def GridCandle.reaches (candle : GridCandle) : ExchangeSide → Rat → Bool
  | .buy, price => candle.low ≤ price
  | .sell, price => price ≤ candle.high

def exactPrice (s : GridSession) (o : GridOrder) : Option Rat :=
  (s.slots.find? fun slot => slot.id = o.slot).map (GridSlotRecord.priceOn o.side)

/-- The resting orders of the session that the candle fills. -/
def restingFills (s : GridSession) (side : ExchangeSide) (candle : GridCandle) (w : GridWorld) :
    List GridOrderId :=
  (w.orders.filter fun o => o.session = s.id && o.side = side && o.isLive &&
    (exactPrice s o).any (candle.reaches side)).map GridOrder.id

/-- The exchange fills the orders, and then each fill is handled. -/
def fillAndHandle (ids : List GridOrderId) (w : GridWorld) : GridWorld :=
  ids.foldl (fun w x => reportGridOrder x .accepted w) (ids.foldl (fun w x => fillGridOrder x w) w)

def fillSide (id : Nat) (candle : GridCandle) (w : GridWorld) (side : ExchangeSide) : GridWorld :=
  match w.loadSession id with
  | none => w
  | some s => fillAndHandle (restingFills s side candle w) w

/-- A candle of the live grid: the buys it reaches, then the sells. -/
def liveCandle (id : Nat) (w : GridWorld) (candle : GridCandle) : GridWorld :=
  fillSide id candle (fillSide id candle w .buy) .sell

structure GridTwins where
  live : GridWorld
  backtest : GridState

def GridTwins.step (id : Nat) (g : GridTwins) (candle : GridCandle) : GridTwins :=
  ⟨liveCandle id g.live candle, processCandle g.backtest candle⟩

def GridSlotRecordStatus.toSlot : GridSlotRecordStatus → SlotStatus
  | .waitingBuy => .waitingBuy
  | .waitingSell => .waitingSell

structure SameSlot (row : GridSlotRecord) (slot : GridSlot) : Prop where
  status : row.status.toSlot = slot.status
  cycles : row.completedCycles = slot.completedCycles

instance (row : GridSlotRecord) (slot : GridSlot) : Decidable (SameSlot row slot) :=
  decidable_of_iff (row.status.toSlot = slot.status ∧ row.completedCycles = slot.completedCycles)
    ⟨fun h => ⟨h.1, h.2⟩, fun h => ⟨h.status, h.cycles⟩⟩

/-- The slots have the same statuses and completed cycles. -/
def GridTwins.Agree (id : Nat) (g : GridTwins) : Prop :=
  ∃ s ∈ g.live.loadSession id, List.Forall₂ SameSlot s.slots g.backtest.slots

instance (id : Nat) : DecidablePred (GridTwins.Agree id) := fun g =>
  inferInstanceAs (Decidable (∃ s ∈ g.live.loadSession id, List.Forall₂ SameSlot s.slots g.backtest.slots))

/-- A new session of the config is started at the first candle's open, and backtested. -/
def GridTwins.begin (config : GridConfig) (candle : GridCandle) (rest : List GridCandle) (w : GridWorld) :
    GridTwins where
  live := (start w.issued ⟨.ok candle.openPrice, fun _ => .accepted⟩ (openGrid config w)).2
  backtest := initializeState config (candle :: rest)

/-- No candle reaches the sell price of a level that counts as bought at the start. -/
def InventoryKept (config : GridConfig) (candle : GridCandle) (rest : List GridCandle) : Prop :=
  ∀ buyPrice ∈ config.buyPrices, candle.openPrice ≤ buyPrice →
    ∀ c ∈ candle :: rest, c.high < config.sellPrice buyPrice

instance (config : GridConfig) (candle : GridCandle) (rest : List GridCandle) :
    Decidable (InventoryKept config candle rest) :=
  inferInstanceAs (Decidable (∀ buyPrice ∈ config.buyPrices, candle.openPrice ≤ buyPrice → _))

/-! One fill handled -/

def OrderIs (w : GridWorld) (x : GridOrderId) (side : ExchangeSide) (state : GridOrderState) : Prop :=
  ∃ o ∈ w.orders, o.id = x ∧ o.side = side ∧ o.state = state

theorem slotForOrderId_named {w : GridWorld} (hw : w.WellFormed) {s : GridSession} (hs : s ∈ w.sessions)
    {row : GridSlotRecord} (hrow : row ∈ s.slots) {side : ExchangeSide} {x : GridOrderId}
    (h : row.orderOn side = some x) : slotForOrderId x w = .ok (some (s.id, row)) := by
  have hmem : (s.id, row) ∈ w.slotRows := GridWorld.mem_slotRows.mpr ⟨s, hs, rfl, hrow⟩
  obtain ⟨row', hrow', h', heq⟩ | ⟨hnone, -⟩ := slotForOrderId_eq hw (x := x)
  · obtain ⟨t, ht, hid, hslot⟩ := GridWorld.mem_slotRows.mp hrow'
    obtain ⟨rfl, hsame⟩ := hw.slot_eq_of_names ht hs hslot hrow h' ⟨side, h⟩
    rw [heq, hid, ← hsame]
  · exact absurd ⟨side, h⟩ (hnone _ hmem)

def GridSession.putSlot (slot : GridSlotRecord) (s : GridSession) : GridSession :=
  { s with slots := s.slots.map fun row => if row.id = slot.id then slot else row }

theorem loadSession_saveSlot {w w' : GridWorld} (hrows : w'.sessions = w.sessions) {id : Nat}
    {s : GridSession} (hs : w.loadSession id = some s) (slot : GridSlotRecord) :
    (w'.saveSlot slot).loadSession id = some (s.putSlot slot) := by
  have hkey : ((fun t : GridSession => decide (t.id = id)) ∘ fun t : GridSession => t.putSlot slot) =
      fun t => decide (t.id = id) := rfl
  rw [GridWorld.loadSession] at hs
  rw [GridWorld.loadSession, GridWorld.saveSlot, hrows]
  change (w.sessions.map fun t => t.putSlot slot).find? _ = _
  rw [List.find?_map, hkey, hs]
  rfl

/-- The report of a filled order that a slot names moves the slot on, and leaves a fresh order
of the other side at the exchange. -/
structure FillMoves (w : GridWorld) (s : GridSession) (row : GridSlotRecord) (side : ExchangeSide)
    (x : GridOrderId) (w' : GridWorld) : Prop where
  wellFormed : w'.WellFormed
  session : w'.loadSession s.id = some (s.putSlot (advanceSlot side w.issued row))
  issued : w'.issued = w.issued + 1
  orders : ∃ new, w'.orders = (markReported x w).orders ++ [new] ∧ new.id = w.issued ∧
    new.session = s.id ∧ new.side = side.opposite ∧ new.state = .live

theorem report_moves {w : GridWorld} (hw : w.WellFormed) {s : GridSession}
    (hs : w.loadSession s.id = some s) {row : GridSlotRecord} (hrow : row ∈ s.slots)
    {side : ExchangeSide} {x : GridOrderId} (h : row.orderOn side = some x)
    (hfilled : ∃ b, OrderIs w x side (.filled b)) :
    FillMoves w s row side x (reportGridOrder x .accepted w) := by
  obtain ⟨hmem, -⟩ := GridWorld.mem_of_loadSession hs
  obtain ⟨b, o, ho, hid, hside, hstate⟩ := hfilled
  have hwell := gridStep_wellFormed hw (.report x .accepted)
  have hfind : w.orders.find? (fun o => o.id = x) = some o := by
    have hsome : (w.orders.find? fun o => o.id = x).isSome = true :=
      List.find?_isSome.mpr ⟨o, ho, by simpa using hid⟩
    obtain ⟨o', ho'⟩ := Option.isSome_iff_exists.mp hsome
    have hid' : o'.id = x := by simpa using List.find?_some ho'
    rw [ho', hw.order_eq (List.mem_of_find?_eq_some ho') ho (hid'.trans hid.symm)]
  have hlookup : slotForOrderId x (markReported x w) = .ok (some (s.id, row)) :=
    slotForOrderId_named hw hmem hrow h
  have hrun : reportGridOrder x .accepted w = GridWorld.saveSlot (advanceSlot side w.issued row)
      { markReported x w with
        orders := (markReported x w).orders ++ [replacementOrder s.id side o.symbol row w.issued]
        issued := w.issued + 1 } := by
    simp only [reportGridOrder, hfind, gridOnOrder, hstate, List.foldl_cons, List.foldl_nil,
      handleOrderFill, hid, hlookup, hside, placeReplacement_eq]
    rfl
  rw [gridStep, hrun] at hwell
  rw [hrun]
  refine ⟨hwell, ?_, rfl, _, rfl, rfl, rfl, rfl, rfl⟩
  exact loadSession_saveSlot rfl hs _

/-! The fills of one side -/

/-- The slot moved on with one of the orders, or named none of them. -/
def SlotMoved (side : ExchangeSide) (ids : List GridOrderId) (w' : GridWorld)
    (row row' : GridSlotRecord) : Prop :=
  (∃ x ∈ ids, row.orderOn side = some x ∧ ∃ y, OrderIs w' y side.opposite .live ∧
    row' = advanceSlot side y row) ∨ ((∀ x ∈ ids, ¬ row.Names x) ∧ row' = row)

structure FillsMove (side : ExchangeSide) (ids : List GridOrderId) (w : GridWorld) (s : GridSession)
    (w' : GridWorld) (s' : GridSession) : Prop where
  wellFormed : w'.WellFormed
  session : w'.loadSession s.id = some s'
  same : s' = { s with slots := s'.slots }
  slots : List.Forall₂ (SlotMoved side ids w') s.slots s'.slots
  kept : ∀ x side' state, x ∉ ids → OrderIs w x side' state → OrderIs w' x side' state
  orders : ∀ o' ∈ w'.orders, o'.session = s.id → o'.isLive = true →
    (∃ o ∈ w.orders, o.Same o' ∧ o.isLive = true) ∨ ∃ row ∈ s'.slots, row.orderOn o'.side = some o'.id

theorem FillMoves.kept {w w' : GridWorld} {s : GridSession} {row : GridSlotRecord} {side : ExchangeSide}
    {x : GridOrderId} (h : FillMoves w s row side x w') {y : GridOrderId} {side' : ExchangeSide}
    {state : GridOrderState} (hne : y ≠ x) (ho : OrderIs w y side' state) : OrderIs w' y side' state := by
  obtain ⟨new, horders, -⟩ := h.orders
  obtain ⟨o, ho, rfl, hside, hstate⟩ := ho
  refine ⟨o, ?_, rfl, hside, hstate⟩
  rw [horders]
  refine List.mem_append_left _ (List.mem_map.mpr ⟨o, ho, ?_⟩)
  rw [if_neg fun hc => hne hc.1]

theorem FillMoves.live {w w' : GridWorld} {s : GridSession} {row : GridSlotRecord} {side : ExchangeSide}
    {x : GridOrderId} (h : FillMoves w s row side x w') : OrderIs w' w.issued side.opposite .live := by
  obtain ⟨new, horders, hid, -, hside, hstate⟩ := h.orders
  exact ⟨new, horders ▸ List.mem_append_right _ List.mem_cons_self, hid, hside, hstate⟩

/-- The rows of the session after the one that names the order moved on. -/
theorem FillMoves.rows {w w' : GridWorld} {s : GridSession} {row : GridSlotRecord} {side : ExchangeSide}
    {x : GridOrderId} (hw : w.WellFormed) (hs : s ∈ w.sessions) (hrow : row ∈ s.slots)
    (hname : row.orderOn side = some x) (h : FillMoves w s row side x w') :
    List.Forall₂ (fun r r' => (r = row ∧ r' = advanceSlot side w.issued row) ∨
      (¬ r.Names x ∧ r ≠ row ∧ r' = r)) s.slots (s.putSlot (advanceSlot side w.issued row)).slots := by
  have hid := advanceSlot_id side w.issued row
  simp only [GridSession.putSlot, List.forall₂_map_right_iff, List.forall₂_same, hid]
  intro r hr
  by_cases hsame : r.id = row.id
  · obtain ⟨-, rfl⟩ := hw.slot_eq hs hs hr hrow hsame
    exact .inl ⟨rfl, if_pos rfl⟩
  · refine .inr ⟨?_, fun heq => hsame (heq ▸ rfl), if_neg hsame⟩
    exact fun hx => hsame (congrArg _ (hw.slot_eq_of_names hs hs hr hrow hx ⟨side, hname⟩).2)

theorem reports_move {side : ExchangeSide} {ids : List GridOrderId} (hnodup : ids.Nodup) {w : GridWorld}
    (hw : w.WellFormed) {s : GridSession} (hs : w.loadSession s.id = some s)
    (hids : ∀ x ∈ ids, (∃ row ∈ s.slots, row.orderOn side = some x) ∧
      ∃ b, OrderIs w x side (.filled b)) :
    ∃ s', FillsMove side ids w s (ids.foldl (fun w x => reportGridOrder x .accepted w) w) s' := by
  induction ids generalizing w s with
  | nil =>
    refine ⟨s, hw, hs, rfl, List.forall₂_same.mpr fun r _ => .inr ⟨by simp, rfl⟩, fun _ _ _ _ h => h, ?_⟩
    exact fun o ho _ hlive => .inl ⟨o, ho, .refl o, hlive⟩
  | cons x ids ih =>
    obtain ⟨hx, hnodup⟩ := List.nodup_cons.mp hnodup
    obtain ⟨⟨row, hrow, hname⟩, hfilled⟩ := hids x List.mem_cons_self
    obtain ⟨hmem, -⟩ := GridWorld.mem_of_loadSession hs
    have hmoves := report_moves hw hs hrow hname hfilled
    have hrows := hmoves.rows hw hmem hrow hname
    rw [List.foldl_cons]
    generalize reportGridOrder x .accepted w = w₁ at hmoves
    have hne : ∀ y ∈ ids, y ≠ x := fun y hy heq => hx (heq ▸ hy)
    obtain ⟨s', hnext⟩ := @ih hnodup w₁ hmoves.wellFormed (s.putSlot (advanceSlot side w.issued row))
      hmoves.session (by
        intro y hy
        obtain ⟨⟨r, hr, hry⟩, b, hb⟩ := hids y (List.mem_cons_of_mem _ hy)
        refine ⟨?_, b, hmoves.kept (hne y hy) hb⟩
        obtain ⟨r', hr', ⟨rfl, -⟩ | ⟨-, -, rfl⟩⟩ := Rows.exists_right hrows hr
        · exact absurd (Option.some.inj (hry.symm.trans hname)) (hne y hy)
        · exact ⟨r', hr', hry⟩)
    -- the replacement is none of the orders that are left
    have hfresh : w.issued ∉ ids := by
      intro hy
      obtain ⟨-, b, o, ho, hid, -⟩ := hids _ (List.mem_cons_of_mem _ hy)
      exact absurd (hw.orderFresh o ho) (by rw [hid]; exact lt_irrefl _)
    have hreplaced : ∀ r', SlotMoved side ids (ids.foldl (fun w x => reportGridOrder x .accepted w) w₁)
        (advanceSlot side w.issued row) r' → r' = advanceSlot side w.issued row := by
      rintro r' (⟨y, -, hy, -⟩ | ⟨-, rfl⟩)
      · rw [advanceSlot_orderOn, if_neg (by cases side <;> decide)] at hy
        cases hy
      · rfl
    refine ⟨s', hnext.wellFormed, hnext.session, hnext.same, ?_, ?_, ?_⟩
    · refine Rows.forall₂_trans hrows hnext.slots fun r r₁ r' h₁ h₂ => ?_
      obtain ⟨rfl, rfl⟩ | ⟨hnot, -, rfl⟩ := h₁
      · exact .inl ⟨x, List.mem_cons_self, hname, w.issued, hnext.kept _ _ _ hfresh hmoves.live,
          hreplaced r' h₂⟩
      · obtain ⟨y, hy, hry, hrest⟩ | ⟨hnone, rfl⟩ := h₂
        · exact .inl ⟨y, List.mem_cons_of_mem _ hy, hry, hrest⟩
        · exact .inr ⟨List.forall_mem_cons.mpr ⟨hnot, hnone⟩, rfl⟩
    · intro y side' state hy ho
      rw [List.mem_cons, not_or] at hy
      exact hnext.kept y side' state hy.2 (hmoves.kept hy.1 ho)
    · intro o' ho' hsession hlive
      obtain ⟨o₁, ho₁, hsame, hlive₁⟩ | hnamed := hnext.orders o' ho' hsession hlive
      · obtain ⟨new, horders, hid, -, hside, -⟩ := hmoves.orders
        rw [horders] at ho₁
        obtain ho₁ | ho₁ := List.mem_append.mp ho₁
        · obtain ⟨o, ho, rfl⟩ := List.mem_map.mp ho₁
          refine .inl ⟨o, ho, ?_⟩
          split_ifs at hsame hlive₁
          · cases hlive₁
          · exact ⟨hsame, hlive₁⟩
        · obtain rfl := List.mem_singleton.mp ho₁
          obtain ⟨r₁, hr₁, ⟨-, rfl⟩ | ⟨-, hother, -⟩⟩ := Rows.exists_right hrows hrow
          · obtain ⟨r', hr', hmoved⟩ := Rows.exists_right hnext.slots hr₁
            obtain rfl := hreplaced r' hmoved
            refine .inr ⟨_, hr', ?_⟩
            rw [hsame, hside, hid, advanceSlot_orderOn, if_pos rfl]
          · exact absurd rfl hother
      · exact .inr hnamed

theorem fills_eq (ids : List GridOrderId) (w : GridWorld) :
    ids.foldl (fun w x => fillGridOrder x w) w = { w with orders := w.orders.map fun o =>
      if o.id ∈ ids ∧ o.state = .live then { o with state := .filled false } else o } := by
  induction ids generalizing w with
  | nil => simp
  | cons x ids ih =>
    rw [List.foldl_cons, ih]
    simp only [fillGridOrder, List.map_map]
    congr 1
    refine List.map_congr_left fun o _ => ?_
    dsimp only [Function.comp]
    by_cases hlive : o.state = .live
    · by_cases hid : o.id = x <;> simp [hid, hlive]
    · simp [hlive]

theorem fills_wellFormed {w : GridWorld} (hw : w.WellFormed) (ids : List GridOrderId) :
    (ids.foldl (fun w x => fillGridOrder x w) w).WellFormed := by
  induction ids generalizing w with
  | nil => exact hw
  | cons x ids ih => exact ih (gridStep_wellFormed hw (.fill x))

/-! The session under way -/

/-- A slot waits for a live order on its side, or counts as bought with no order at all. -/
inductive SlotLive (w : GridWorld) (row : GridSlotRecord) : Prop
  | waiting {x : GridOrderId} (hname : row.orderOn row.status.side = some x)
      (hlive : OrderIs w x row.status.side .live)
      (hother : row.orderOn row.status.side.opposite = none)
  | idle (hstatus : row.status = .waitingSell) (hnone : ∀ side, row.orderOn side = none)

structure GridLive (w : GridWorld) (s : GridSession) : Prop where
  wellFormed : w.WellFormed
  session : w.loadSession s.id = some s
  slots : ∀ row ∈ s.slots, SlotLive w row
  orders : ∀ o ∈ w.orders, o.session = s.id → o.isLive = true →
    ∃ row ∈ s.slots, row.orderOn o.side = some o.id

def SlotReached (side : ExchangeSide) (candle : GridCandle) (row : GridSlotRecord) : Prop :=
  (row.orderOn side).isSome = true ∧ candle.reaches side (row.priceOn side) = true

theorem ExchangeSide.eq_or (side side' : ExchangeSide) : side' = side ∨ side' = side.opposite := by
  cases side <;> cases side' <;> simp [ExchangeSide.opposite]

theorem GridLive.order {w : GridWorld} {s : GridSession} (h : GridLive w s) {row : GridSlotRecord}
    (hrow : row ∈ s.slots) {side : ExchangeSide} {x : GridOrderId} (hname : row.orderOn side = some x) :
    ∃ o ∈ w.orders, o.id = x ∧ o.PlacedFor s row side ∧ o.state = .live := by
  obtain ⟨hmem, -⟩ := GridWorld.mem_of_loadSession h.session
  obtain ⟨o, ho, rfl, hp⟩ := h.wellFormed.recorded s hmem row hrow side x hname
  refine ⟨o, ho, rfl, hp, ?_⟩
  cases h.slots row hrow with
  | idle _ hnone =>
    rw [hnone side] at hname
    cases hname
  | @waiting y hy hlive hother =>
    obtain ⟨o', ho', hid, -, hstate⟩ := hlive
    obtain rfl | rfl := row.status.side.eq_or side
    · obtain rfl := Option.some.inj (hname.symm.trans hy)
      obtain rfl := h.wellFormed.order_eq ho ho' hid.symm
      exact hstate
    · rw [hother] at hname
      cases hname

theorem SlotLive.one {w : GridWorld} {row : GridSlotRecord} (h : SlotLive w row) {side side' : ExchangeSide}
    {x y : GridOrderId} (hx : row.orderOn side = some x) (hy : row.orderOn side' = some y) :
    side = side' ∧ x = y := by
  have hone : ∀ d z, row.orderOn d = some z → d = row.status.side := by
    intro d z hz
    cases h with
    | idle _ hnone =>
      rw [hnone d] at hz
      cases hz
    | waiting _ _ hother =>
      obtain hd | rfl := row.status.side.eq_or d
      · exact hd
      · rw [hother] at hz
        cases hz
  obtain rfl := (hone side x hx).trans (hone side' y hy).symm
  exact ⟨rfl, Option.some.inj (hx.symm.trans hy)⟩

theorem mem_restingFills {w : GridWorld} {s : GridSession} (h : GridLive w s) {side : ExchangeSide}
    {candle : GridCandle} {x : GridOrderId} : x ∈ restingFills s side candle w ↔
      ∃ row ∈ s.slots, row.orderOn side = some x ∧ SlotReached side candle row := by
  obtain ⟨hmem, -⟩ := GridWorld.mem_of_loadSession h.session
  have hprice : ∀ row ∈ s.slots, ∀ o : GridOrder, o.PlacedFor s row side →
      exactPrice s o = some (row.priceOn side) := by
    intro row hrow o hp
    have hsome : (s.slots.find? fun slot => slot.id = o.slot).isSome = true :=
      List.find?_isSome.mpr ⟨row, hrow, by simpa using hp.slot.symm⟩
    obtain ⟨row', hfind⟩ := Option.isSome_iff_exists.mp hsome
    have hid : row'.id = o.slot := by simpa using List.find?_some hfind
    obtain ⟨-, rfl⟩ := h.wellFormed.slot_eq hmem hmem (List.mem_of_find?_eq_some hfind) hrow
      (hid.trans hp.slot)
    rw [exactPrice, hfind, hp.side]
    rfl
  constructor
  · intro hx
    obtain ⟨o, ho, rfl⟩ := List.mem_map.mp hx
    obtain ⟨hsent, hcond⟩ := List.mem_filter.mp ho
    simp only [Bool.and_eq_true, decide_eq_true_eq] at hcond
    obtain ⟨⟨⟨hsession, hside⟩, hlive⟩, hreach⟩ := hcond
    obtain ⟨row, hrow, hname⟩ := h.orders o hsent hsession hlive
    rw [hside] at hname
    rw [hprice row hrow o (h.wellFormed.named_by hmem hrow hsent hname), Option.any_some] at hreach
    exact ⟨row, hrow, hname, by rw [hname]; rfl, hreach⟩
  · rintro ⟨row, hrow, hname, -, hreach⟩
    obtain ⟨o, ho, rfl, hp, hlive⟩ := h.order hrow hname
    refine List.mem_map.mpr ⟨o, List.mem_filter.mpr ⟨ho, ?_⟩, rfl⟩
    rw [hprice row hrow o hp]
    simp [hp.session, hp.side, GridOrder.isLive, hlive, hreach]

def SideFilled (side : ExchangeSide) (candle : GridCandle) (row row' : GridSlotRecord) : Prop :=
  (SlotReached side candle row ∧ ∃ y, row' = advanceSlot side y row) ∨
    (¬ SlotReached side candle row ∧ row' = row)

theorem SlotMoved.filled {w w' : GridWorld} {s : GridSession} (h : GridLive w s) {side : ExchangeSide}
    {candle : GridCandle} {ids : List GridOrderId}
    (hids : ∀ {x}, x ∈ ids ↔ ∃ row ∈ s.slots, row.orderOn side = some x ∧ SlotReached side candle row)
    (hkept : ∀ x side' state, x ∉ ids → OrderIs w x side' state → OrderIs w' x side' state)
    {row row' : GridSlotRecord} (hrow : row ∈ s.slots) (hm : SlotMoved side ids w' row row') :
    SideFilled side candle row row' ∧ SlotLive w' row' := by
  obtain ⟨hmem, -⟩ := GridWorld.mem_of_loadSession h.session
  obtain ⟨x, hx, hname, y, hy, rfl⟩ | ⟨hnone, rfl⟩ := hm
  · obtain ⟨row₀, hrow₀, hname₀, hreached⟩ := hids.mp hx
    obtain ⟨-, rfl⟩ := h.wellFormed.slot_eq_of_names hmem hmem hrow₀ hrow ⟨side, hname₀⟩ ⟨side, hname⟩
    refine ⟨.inl ⟨hreached, y, rfl⟩, ?_⟩
    have hside : (advanceSlot side y row₀).status.side = side.opposite := by cases side <;> rfl
    refine .waiting (x := y) ?_ (hside ▸ hy) ?_
    · rw [hside, advanceSlot_orderOn, if_pos rfl]
    · rw [hside, advanceSlot_orderOn, if_neg (by cases side <;> decide)]
  · refine ⟨.inr ⟨?_, rfl⟩, ?_⟩
    · intro hreached
      obtain ⟨x, hname⟩ := Option.isSome_iff_exists.mp hreached.1
      exact hnone x (hids.mpr ⟨row', hrow, hname, hreached⟩) ⟨side, hname⟩
    · cases h.slots row' hrow with
      | idle hstatus hnames => exact .idle hstatus hnames
      | @waiting x hname hlive hother =>
        have hx : x ∉ ids := fun hx => hnone x hx ⟨_, hname⟩
        exact .waiting hname (hkept _ _ _ hx hlive) hother

theorem fillSide_moves {w : GridWorld} {s : GridSession} (h : GridLive w s) (side : ExchangeSide)
    (candle : GridCandle) : ∃ s', GridLive (fillSide s.id candle w side) s' ∧ s'.id = s.id ∧
      List.Forall₂ (SideFilled side candle) s.slots s'.slots := by
  have hw := fills_wellFormed h.wellFormed (restingFills s side candle w)
  have hids := @mem_restingFills _ _ h side candle
  have hnodup : (restingFills s side candle w).Nodup :=
    h.wellFormed.orderIds.sublist (List.filter_sublist.map _)
  simp only [fillSide, h.session, fillAndHandle]
  generalize restingFills s side candle w = ids at hw hids hnodup
  have hfills := fills_eq ids w
  generalize ids.foldl (fun w x => fillGridOrder x w) w = w₁ at hw hfills
  have hkept : ∀ x side' state, x ∉ ids → OrderIs w x side' state → OrderIs w₁ x side' state := by
    rintro x side' state hx ⟨o, ho, rfl, hside, hstate⟩
    refine ⟨o, ?_, rfl, hside, hstate⟩
    rw [hfills]
    exact List.mem_map.mpr ⟨o, ho, if_neg fun hc => hx hc.1⟩
  obtain ⟨s', hmoved⟩ := @reports_move side ids hnodup w₁ hw s
    (by rw [hfills]; exact h.session) (by
      intro x hx
      obtain ⟨row, hrow, hname, -⟩ := hids.mp hx
      obtain ⟨o, ho, rfl, hp, hlive⟩ := h.order hrow hname
      refine ⟨⟨row, hrow, hname⟩, false, { o with state := .filled false }, ?_, rfl, hp.side, rfl⟩
      rw [hfills]
      exact List.mem_map.mpr ⟨o, ho, if_pos ⟨hx, hlive⟩⟩)
  generalize ids.foldl (fun w x => reportGridOrder x .accepted w) w₁ = w₂ at hmoved
  have hid : s'.id = s.id := by rw [hmoved.same]
  have hslot : ∀ row row', row ∈ s.slots ∧ SlotMoved side ids w₂ row row' →
      SideFilled side candle row row' ∧ SlotLive w₂ row' := fun row row' hm =>
    hm.2.filled h hids (fun x side' state hx ho => hmoved.kept x side' state hx (hkept x side' state hx ho))
      hm.1
  have hall := (List.forall₂_and_left _ _).mpr ⟨fun row (hrow : row ∈ s.slots) => hrow, hmoved.slots⟩
  refine ⟨s', ⟨hmoved.wellFormed, hid ▸ hmoved.session, ?_, ?_⟩, hid, ?_⟩
  · intro row' hrow'
    obtain ⟨row, -, hm⟩ := Rows.exists_left hall hrow'
    exact (hslot row row' hm).2
  · intro o' ho' hsession hlive
    obtain ⟨o₁, ho₁, hsame, hlive₁⟩ | hnamed := hmoved.orders o' ho' (hsession.trans hid) hlive
    · rw [hfills] at ho₁
      obtain ⟨o, ho, rfl⟩ := List.mem_map.mp ho₁
      split_ifs at hsame hlive₁ with hfilled
      · cases hlive₁
      · have hlive : o.state = .live := by simpa [GridOrder.isLive] using hlive₁
        have hout : o.id ∉ ids := fun hx => hfilled ⟨hx, hlive⟩
        rw [hsame] at hsession ⊢
        obtain ⟨row, hrow, hname⟩ := h.orders o ho (hsession.trans hid) hlive₁
        obtain ⟨row', hrow', -, ⟨x, hx, hnamex, -⟩ | ⟨-, rfl⟩⟩ := Rows.exists_right hall hrow
        · obtain ⟨-, rfl⟩ := (h.slots row hrow).one hname hnamex
          exact absurd hx hout
        · exact ⟨row', hrow', hname⟩
    · exact hnamed
  · exact hall.imp fun row row' hm => (hslot row row' hm).1

/-! Beside the backtest -/

/-- A slot and its backtest: both are as far, or the slot counts as bought and the backtest's
has not sold yet. -/
structure SlotTwins (row : GridSlotRecord) (slot : GridSlot) : Prop where
  buyPrice : row.buyPrice = slot.buyPrice
  sellPrice : row.sellPrice = slot.sellPrice
  same : SameSlot row slot

/-- The slot counts as bought and has no sell order. -/
def Idle (row : GridSlotRecord) : Prop := row.status = .waitingSell ∧ ∀ side, row.orderOn side = none

def CandleFilled (candle : GridCandle) (row row' : GridSlotRecord) : Prop :=
  ∃ mid, SideFilled .buy candle row mid ∧ SideFilled .sell candle mid row'

theorem liveCandle_moves {w : GridWorld} {s : GridSession} (h : GridLive w s) (candle : GridCandle) :
    ∃ s', GridLive (liveCandle s.id w candle) s' ∧ s'.id = s.id ∧
      List.Forall₂ (CandleFilled candle) s.slots s'.slots := by
  obtain ⟨s₁, hlive₁, hid₁, hbuys⟩ := fillSide_moves h .buy candle
  obtain ⟨s₂, hlive₂, hid₂, hsells⟩ := fillSide_moves hlive₁ .sell candle
  rw [hid₁] at hlive₂
  refine ⟨s₂, hlive₂, hid₂.trans hid₁, ?_⟩
  exact Rows.forall₂_trans hbuys hsells fun row mid row' hb hs => ⟨mid, hb, hs⟩

/-- A slot that is idle stays idle, and its backtest sells when the candle reaches its price. -/
theorem SlotTwins.idle {candle : GridCandle} {row row' : GridSlotRecord} {slot : GridSlot}
    (config : GridConfig) (h : SlotTwins row slot) (hidle : Idle row)
    (hfilled : CandleFilled candle row row') :
    row' = row ∧ (SameSlot row (sellFill config candle (buyFill candle slot)) ↔
      candle.high < row.sellPrice) := by
  have hkept : ∀ side r, SideFilled side candle row r → r = row := by
    rintro side r (⟨⟨hname, -⟩, -⟩ | ⟨-, rfl⟩)
    · rw [hidle.2 side] at hname
      cases hname
    · rfl
  obtain ⟨mid, hbuy, hsell⟩ := hfilled
  obtain rfl := hkept _ _ hbuy
  obtain rfl := hkept _ _ hsell
  have hstatus : slot.status = .waitingSell := by
    rw [← h.same.status, hidle.1]
    rfl
  have hno : buyFill candle slot = slot := by simp [buyFill, buys, hstatus]
  refine ⟨rfl, ?_⟩
  rw [hno]
  by_cases hreach : candle.high < slot.sellPrice
  · have hunsold : sellFill config candle slot = slot := by simp [sellFill, sells, hreach]
    rw [hunsold, h.sellPrice]
    exact ⟨fun _ => hreach, fun _ => h.same⟩
  · have hsold : (sellFill config candle slot).status = .waitingBuy := by
      simp [sellFill, sells, hstatus, hreach]
    rw [h.sellPrice]
    refine ⟨fun hs => ?_, fun hlt => absurd hlt hreach⟩
    have := hs.status
    rw [hidle.1, hsold] at this
    cases this

/-- The slot has an order on its side only. -/
def Waiting (row : GridSlotRecord) : Prop :=
  (row.orderOn row.status.side).isSome = true ∧ row.orderOn row.status.side.opposite = none

theorem SlotLive.idle_or {w : GridWorld} {row : GridSlotRecord} (h : SlotLive w row) :
    Idle row ∨ Waiting row := by
  cases h with
  | idle hstatus hnone => exact .inl ⟨hstatus, hnone⟩
  | waiting hname _ hother => exact .inr ⟨by rw [hname]; rfl, hother⟩

theorem Waiting.not_idle {row : GridSlotRecord} (h : Waiting row) : ¬ Idle row := by
  rintro ⟨-, hnone⟩
  have := h.1
  rw [hnone] at this
  cases this

theorem SlotTwins.buy {candle : GridCandle} {row row' : GridSlotRecord} {slot : GridSlot}
    (h : SlotTwins row slot) (hwaiting : Waiting row) (hfilled : SideFilled .buy candle row row') :
    SlotTwins row' (buyFill candle slot) ∧ Waiting row' := by
  obtain ⟨hname, hother⟩ := hwaiting
  cases hstatus : row.status with
  | waitingBuy =>
    rw [hstatus] at hname hother
    have hslot : slot.status = .waitingBuy := by rw [← h.same.status, hstatus]; rfl
    obtain ⟨⟨-, hreach⟩, y, rfl⟩ | ⟨hreach, rfl⟩ := hfilled
    · have hbought : buyFill candle slot =
          { slot with status := .waitingSell, buyFillPrice := slot.buyPrice } := by
        have hle : candle.low ≤ slot.buyPrice := by
          simpa [GridCandle.reaches, GridSlotRecord.priceOn, h.buyPrice] using hreach
        simp [buyFill, buys, hslot, hle]
      rw [hbought]
      exact ⟨⟨h.buyPrice, h.sellPrice, rfl, h.same.cycles⟩, rfl, rfl⟩
    · have hkept : buyFill candle slot = slot := by
        have hlt : ¬ candle.low ≤ slot.buyPrice := by
          intro hle
          refine hreach ⟨hname, ?_⟩
          simpa [GridCandle.reaches, GridSlotRecord.priceOn, h.buyPrice] using hle
        simp [buyFill, buys, hslot, not_le.mp hlt]
      rw [hkept]
      exact ⟨h, by rw [Waiting, hstatus]; exact ⟨hname, hother⟩⟩
  | waitingSell =>
    rw [hstatus] at hname hother
    have hslot : slot.status = .waitingSell := by rw [← h.same.status, hstatus]; rfl
    obtain ⟨⟨hbuy, -⟩, -⟩ | ⟨-, rfl⟩ := hfilled
    · have hnone : row.orderOn .buy = none := hother
      rw [hnone] at hbuy
      cases hbuy
    · have hkept : buyFill candle slot = slot := by simp [buyFill, buys, hslot]
      rw [hkept]
      exact ⟨h, by rw [Waiting, hstatus]; exact ⟨hname, hother⟩⟩

theorem SlotTwins.sell {candle : GridCandle} {row row' : GridSlotRecord} {slot : GridSlot}
    (config : GridConfig) (h : SlotTwins row slot) (hwaiting : Waiting row)
    (hfilled : SideFilled .sell candle row row') :
    SlotTwins row' (sellFill config candle slot) ∧ Waiting row' := by
  obtain ⟨hname, hother⟩ := hwaiting
  cases hstatus : row.status with
  | waitingBuy =>
    rw [hstatus] at hname hother
    have hslot : slot.status = .waitingBuy := by rw [← h.same.status, hstatus]; rfl
    obtain ⟨⟨hsell, -⟩, -⟩ | ⟨-, rfl⟩ := hfilled
    · have hnone : row.orderOn .sell = none := hother
      rw [hnone] at hsell
      cases hsell
    · have hkept : sellFill config candle slot = slot := by simp [sellFill, sells, hslot]
      rw [hkept]
      exact ⟨h, by rw [Waiting, hstatus]; exact ⟨hname, hother⟩⟩
  | waitingSell =>
    rw [hstatus] at hname hother
    have hslot : slot.status = .waitingSell := by rw [← h.same.status, hstatus]; rfl
    obtain ⟨⟨-, hreach⟩, y, rfl⟩ | ⟨hreach, rfl⟩ := hfilled
    · have hle : ¬ candle.high < slot.sellPrice := by
        rw [not_lt]
        simpa [GridCandle.reaches, GridSlotRecord.priceOn, h.sellPrice] using hreach
      have hsold : sells candle slot = true := by simp [sells, hslot, not_lt.mp hle]
      rw [sellFill, if_pos hsold]
      exact ⟨⟨h.buyPrice, h.sellPrice, rfl, congrArg (· + 1) h.same.cycles⟩, rfl, rfl⟩
    · have hkept : sellFill config candle slot = slot := by
        have hlt : candle.high < slot.sellPrice := by
          by_contra hle
          refine hreach ⟨hname, ?_⟩
          simpa [GridCandle.reaches, GridSlotRecord.priceOn, h.sellPrice] using hle
        simp [sellFill, sells, hslot, hlt]
      rw [hkept]
      exact ⟨h, by rw [Waiting, hstatus]; exact ⟨hname, hother⟩⟩

theorem buyFill_prices (candle : GridCandle) (slot : GridSlot) :
    (buyFill candle slot).buyPrice = slot.buyPrice ∧ (buyFill candle slot).sellPrice = slot.sellPrice := by
  unfold buyFill
  split_ifs <;> exact ⟨rfl, rfl⟩

theorem sellFill_prices (config : GridConfig) (candle : GridCandle) (slot : GridSlot) :
    (sellFill config candle slot).buyPrice = slot.buyPrice ∧
      (sellFill config candle slot).sellPrice = slot.sellPrice := by
  unfold sellFill
  split_ifs <;> exact ⟨rfl, rfl⟩

/-- One slot and its backtest after a candle: they part when the slot counts as bought and the
candle reaches its sell price. -/
theorem SlotTwins.candle {candle : GridCandle} {row row' : GridSlotRecord} {slot : GridSlot}
    (config : GridConfig) (h : SlotTwins row slot) (hor : Idle row ∨ Waiting row)
    (hfilled : CandleFilled candle row row') :
    (SlotTwins row' (sellFill config candle (buyFill candle slot)) ↔
      (Idle row → candle.high < row.sellPrice)) ∧
    (SameSlot row' (sellFill config candle (buyFill candle slot)) →
      SlotTwins row' (sellFill config candle (buyFill candle slot))) ∧
    (Idle row' ↔ Idle row) ∧ row'.sellPrice = row.sellPrice := by
  obtain hidle | hwaiting := hor
  · obtain ⟨rfl, hsame⟩ := h.idle config hidle hfilled
    obtain ⟨hbuy, hsell⟩ := sellFill_prices config candle (buyFill candle slot)
    obtain ⟨hbuy', hsell'⟩ := buyFill_prices candle slot
    have htwins : SameSlot row' (sellFill config candle (buyFill candle slot)) →
        SlotTwins row' (sellFill config candle (buyFill candle slot)) := fun hs =>
      ⟨by rw [hbuy, hbuy', h.buyPrice], by rw [hsell, hsell', h.sellPrice], hs⟩
    refine ⟨⟨fun hs _ => hsame.mp hs.same, fun hs => htwins (hsame.mpr (hs hidle))⟩, htwins, Iff.rfl, rfl⟩
  · obtain ⟨mid, hbuy, hsell⟩ := hfilled
    obtain ⟨hmid, hmidWaiting⟩ := h.buy hwaiting hbuy
    obtain ⟨htwins, hwaiting'⟩ := hmid.sell config hmidWaiting hsell
    refine ⟨⟨fun _ hidle => absurd hidle hwaiting.not_idle, fun _ => htwins⟩, fun _ => htwins,
      iff_of_false hwaiting'.not_idle hwaiting.not_idle, ?_⟩
    rw [htwins.sellPrice, (sellFill_prices _ _ _).2, (buyFill_prices _ _).2, h.sellPrice]

theorem twins_candle {candle : GridCandle} (config : GridConfig) {rows rows' : List GridSlotRecord}
    {slots : List GridSlot} (h : List.Forall₂ SlotTwins rows slots)
    (hor : ∀ row ∈ rows, Idle row ∨ Waiting row) (hfilled : List.Forall₂ (CandleFilled candle) rows rows') :
    (List.Forall₂ SlotTwins rows' (slots.map fun slot => sellFill config candle (buyFill candle slot)) ↔
      ∀ row ∈ rows, Idle row → candle.high < row.sellPrice) ∧
    (List.Forall₂ SameSlot rows' (slots.map fun slot => sellFill config candle (buyFill candle slot)) →
      List.Forall₂ SlotTwins rows' (slots.map fun slot => sellFill config candle (buyFill candle slot))) ∧
    List.Forall₂ (fun row row' => (Idle row' ↔ Idle row) ∧ row'.sellPrice = row.sellPrice) rows rows' := by
  induction h generalizing rows' with
  | nil =>
    cases hfilled
    exact ⟨by simp, fun _ => by simp, .nil⟩
  | cons hhead _ ih =>
    cases hfilled with
    | cons hrow hrest =>
      obtain ⟨hfirst, hall⟩ := List.forall_mem_cons.mp hor
      obtain ⟨htwins, hsame, hidle⟩ := hhead.candle config hfirst hrow
      obtain ⟨htwins', hsame', hidle'⟩ := ih hall hrest
      refine ⟨?_, fun hs => ?_, .cons hidle hidle'⟩
      · rw [List.map_cons, List.forall₂_cons, htwins, htwins', List.forall_mem_cons]
      · rw [List.map_cons, List.forall₂_cons] at hs ⊢
        exact ⟨hsame hs.1, hsame' hs.2⟩

/-- From a session that agrees with its backtest, they agree after every candle exactly when
no candle reaches the sell price of a slot that counts as bought. -/
theorem always_agree_iff {g : GridTwins} {s : GridSession} (h : GridLive g.live s)
    (htwins : List.Forall₂ SlotTwins s.slots g.backtest.slots) (candles : List GridCandle) :
    Runs.Always (GridTwins.step s.id) (GridTwins.Agree s.id) g candles ↔
      ∀ row ∈ s.slots, Idle row → ∀ c ∈ candles, c.high < row.sellPrice := by
  have hagree : g.Agree s.id := ⟨s, h.session, htwins.imp fun _ _ ht => ht.same⟩
  induction candles generalizing g s with
  | nil => simpa [Runs.Always] using hagree
  | cons c cs ih =>
    obtain ⟨s', hlive, hid, hfilled⟩ := liveCandle_moves h c
    obtain ⟨hiff, hsame, hidle⟩ := twins_candle g.backtest.config htwins
      (fun row hrow => (h.slots row hrow).idle_or) hfilled
    have hslots : (g.step s.id c).backtest.slots = g.backtest.slots.map fun slot =>
        sellFill g.backtest.config c (buyFill c slot) := processCandle_slots g.backtest c
    rw [← hslots] at hiff hsame
    rw [Runs.Always, and_iff_right hagree]
    by_cases hall : ∀ row ∈ s.slots, Idle row → c.high < row.sellPrice
    · have hnext := hiff.mpr hall
      have hrest := @ih (g.step s.id c) s' hlive hnext
        ⟨s', hlive.session, hnext.imp fun _ _ ht => ht.same⟩
      rw [hid] at hrest
      refine Iff.trans hrest ⟨?_, ?_⟩
      · intro hkept row hrow hrowIdle
        obtain ⟨row', hrow', hiff', hprice⟩ := Rows.exists_right hidle hrow
        refine List.forall_mem_cons.mpr ⟨hall row hrow hrowIdle, ?_⟩
        rw [← hprice]
        exact hkept row' hrow' (hiff'.mpr hrowIdle)
      · intro hkept row' hrow' hrowIdle
        obtain ⟨row, hrow, hiff', hprice⟩ := Rows.exists_left hidle hrow'
        rw [hprice]
        exact (List.forall_mem_cons.mp (hkept row hrow (hiff'.mp hrowIdle))).2
    · refine iff_of_false (fun halways => hall (hiff.mp (hsame ?_))) fun hkept =>
        hall fun row hrow hrowIdle => hkept row hrow hrowIdle c List.mem_cons_self
      obtain ⟨t, ht, hmatch⟩ := halways.head
      have hsession : (g.step s.id c).live.loadSession s.id = some s' := hid ▸ hlive.session
      obtain rfl := Option.some.inj (hsession.symm.trans ht)
      exact hmatch

/-! The start -/

/-- Orders are placed for sessions that were there. -/
theorem ordersDrawn_step {w : GridWorld} (hw : w.WellFormed) (h : ∀ o ∈ w.orders, o.session < w.issued)
    (st : GridStep) : ∀ o ∈ (gridStep w st).orders, o.session < (gridStep w st).issued := by
  have hmap : ∀ f : GridOrder → GridOrder, (∀ o : GridOrder, o.Same (f o)) →
      ∀ o ∈ w.orders.map f, o.session < w.issued := by
    intro f hf o' ho'
    obtain ⟨o, ho, rfl⟩ := List.mem_map.mp ho'
    rw [hf o]
    exact h o ho
  have hplaced : ∀ {s price place slots new w'}, w.loadSession s.id = some s →
      Placing s price place slots w new w' → ∀ o ∈ w'.orders, o.session < w'.issued := by
    intro s price place slots new w' hs hp o ho
    rw [hp.orders] at ho
    obtain ho | ho := List.mem_append.mp ho
    · exact (h o ho).trans_le hp.issued
    · obtain ⟨slot, -, -, -, heq⟩ := hp.due o ho
      rw [heq]
      exact (hw.sessionFresh s (GridWorld.mem_of_loadSession hs).1).trans_le hp.issued
  have hreplaced : ∀ {x side symbol row}, slotForOrderId x w = .ok (some row) →
      (replacementOrder row.1 side symbol row.2 w.issued).session < w.issued := by
    intro x side symbol row hfound
    obtain ⟨row', hrow, -, heq⟩ | ⟨-, heq⟩ := slotForOrderId_eq hw (x := x)
    · rw [heq] at hfound
      obtain rfl := Option.some.inj (Except.ok.inj hfound)
      obtain ⟨s, hs, hid, -⟩ := GridWorld.mem_slotRows.mp hrow
      exact hid ▸ hw.sessionFresh s hs
    · rw [heq] at hfound
      cases hfound
  have hmarked := fun id => hmap (fun o => if o.id = id ∧ o.state = .filled false then
    { o with state := .filled true } else o) fun _ => .ite _
  have heff := gridStep_effect w st
  generalize gridStep w st = w' at heff
  cases heff with
  | nothing => exact h
  | created =>
    intro o ho
    have := h o ho
    simp only [createGridSession]
    omega
  | startFailed hs _ _ hp =>
    obtain rfl := (GridWorld.mem_of_loadSession hs).2
    exact hplaced hs hp
  | started hs _ _ hp =>
    obtain rfl := (GridWorld.mem_of_loadSession hs).2
    have := hplaced hs hp
    exact this
  | stopFailed => exact hmap _ fun _ => .ite _
  | stopped => exact hmap _ fun _ => .ite _
  | paused => exact h
  | filled => exact hmap _ fun _ => .ite _
  | unhandled => exact hmarked _
  | failed _ _ _ hfound =>
    intro o ho
    obtain ho | ho := List.mem_append.mp ho
    · exact (hmarked _ o ho).trans (Nat.lt_succ_self _)
    · split_ifs at ho
      · obtain rfl := List.mem_singleton.mp ho
        exact (hreplaced hfound).trans (Nat.lt_succ_self _)
      · cases ho
  | advanced _ _ _ hfound =>
    intro o ho
    obtain ho | ho := List.mem_append.mp ho
    · exact (hmarked _ o ho).trans (Nat.lt_succ_self _)
    · obtain rfl := List.mem_singleton.mp ho
      exact (hreplaced hfound).trans (Nat.lt_succ_self _)

theorem ordersDrawn_run (steps : List GridStep) :
    ∀ o ∈ (Runs.run gridStep {} steps).orders, o.session < (Runs.run gridStep {} steps).issued := by
  have hboth := @Runs.run_invariant _ _ gridStep
    (fun w => w.WellFormed ∧ ∀ o ∈ w.orders, o.session < w.issued) {} steps
    ⟨gridWellFormed_init, by simp⟩ fun w st h =>
      ⟨gridStep_wellFormed h.1 st, ordersDrawn_step h.1 h.2 st⟩
  exact hboth.2

/-- A row of the started session, for the price of its level. -/
structure StartedRow (config : GridConfig) (price bought : Rat) (row : GridSlotRecord) : Prop where
  buyPrice : row.buyPrice = bought
  sellPrice : row.sellPrice = config.sellPrice bought
  cycles : row.completedCycles = 0
  rest : (price ≤ bought ∧ Idle row) ∨ (¬ price ≤ bought ∧ row.status = .waitingBuy)

theorem StartedRow.twins {config : GridConfig} {price bought : Rat} {row : GridSlotRecord}
    (h : StartedRow config price bought row) (level : Nat) :
    SlotTwins row (initialSlot config price bought level) := by
  unfold initialSlot
  obtain ⟨habove, hidle⟩ | ⟨hbelow, hstatus⟩ := h.rest
  · rw [if_pos habove]
    exact ⟨h.buyPrice, h.sellPrice, by rw [hidle.1]; rfl, h.cycles⟩
  · rw [if_neg hbelow]
    exact ⟨h.buyPrice, h.sellPrice, by rw [hstatus]; rfl, h.cycles⟩

theorem loadSession_saveSession {w : GridWorld} {s s' : GridSession} (hs : w.loadSession s.id = some s)
    (hid : s'.id = s.id) : (w.saveSession s').loadSession s'.id = some s' := by
  have hkey : ((fun t : GridSession => decide (t.id = s'.id)) ∘ fun row : GridSession =>
      if row.id = s'.id then s' else row) = fun t => decide (t.id = s.id) := by
    funext row
    dsimp only [Function.comp]
    by_cases hrow : row.id = s'.id
    · simp [hrow, hid]
    · rw [← hid]
      simp [hrow]
  rw [GridWorld.loadSession] at hs
  rw [GridWorld.loadSession, GridWorld.saveSession, List.find?_map, hkey, hs, Option.map_some, if_pos hid.symm]

theorem SlotStarted.live {s : GridSession} {price : Rat} {new : List GridOrder} {slot row : GridSlotRecord}
    {w : GridWorld} (h : SlotStarted s price new slot row) (hfresh : slot.Fresh)
    (hnew : ∀ o ∈ new, o ∈ w.orders) :
    SlotLive w row ∧ ((price ≤ slot.buyPrice ∧ Idle row) ∨
      (¬ price ≤ slot.buyPrice ∧ row.status = .waitingBuy)) := by
  cases h with
  | above habove =>
    have hnone : ∀ side, slot.orderOn side = none := hfresh.orderOn
    exact ⟨.idle rfl hnone, .inl ⟨habove, rfl, hnone⟩⟩
  | @placed x hdue ho =>
    have hstatus : slot.status = .waitingBuy := hfresh.status
    refine ⟨.waiting (x := x) ?_ ?_ ?_, .inr ⟨(isDue_iff.mp hdue).1, hstatus⟩⟩
    · rw [hstatus]
      rfl
    · rw [hstatus]
      exact ⟨_, hnew _ ho, rfl, rfl, rfl⟩
    · rw [hstatus]
      exact hfresh.sell
  | kept hbelow hdue =>
    rw [isDue_iff.mpr ⟨hbelow, hfresh.status, hfresh.buy⟩] at hdue
    cases hdue

theorem begin_live {w : GridWorld} (hw : w.WellFormed) (hdrawn : ∀ o ∈ w.orders, o.session < w.issued)
    (config : GridConfig) (candle : GridCandle) (rest : List GridCandle) :
    ∃ s, GridLive (GridTwins.begin config candle rest w).live s ∧ s.id = w.issued ∧
      List.Forall₂ (fun level row => StartedRow config candle.openPrice level.1 row)
        config.buyPrices.zipIdx s.slots := by
  have hw₀ := openGrid_wellFormed hw config
  have hwell := gridStep_wellFormed hw₀ (.start w.issued ⟨.ok candle.openPrice, fun _ => .accepted⟩)
  have hload : (openGrid config w).loadSession w.issued = some
      { id := w.issued, symbol := config.symbol, config := config, slots := newSlots config (w.issued + 1) } := by
    have hold : w.sessions.find? (fun t => t.id = w.issued) = none := by
      rw [List.find?_eq_none]
      intro t ht
      simpa using (hw.sessionFresh t ht).ne
    simp [GridWorld.loadSession, openGrid, List.find?_append, hold]
  generalize hs₀ : ({ id := w.issued, symbol := config.symbol, config := config
                      slots := newSlots config (w.issued + 1) } : GridSession) = s₀ at hload
  have hid₀ : s₀.id = w.issued := by rw [← hs₀]
  have hstatus₀ : s₀.status ≠ .active := by rw [← hs₀]; simp
  have hslots₀ : s₀.slots = newSlots config (w.issued + 1) := by rw [← hs₀]
  simp only [gridStep, start, hload, if_neg hstatus₀] at hwell
  simp only [GridTwins.begin, start, hload, if_neg hstatus₀]
  obtain ⟨new, hp, hstarted⟩ := startSlots_spec s₀ candle.openPrice (fun _ => .accepted) s₀.slots
    (openGrid config w)
  obtain ⟨slots, hok⟩ : ∃ slots, (startSlots s₀ candle.openPrice (fun _ => .accepted) s₀.slots
      (openGrid config w)).1 = .ok slots := startSlots_ok.mpr fun _ _ _ => rfl
  have hstarted := hstarted slots hok
  cases hrun : startSlots s₀ candle.openPrice (fun _ => .accepted) s₀.slots (openGrid config w) with
  | mk result w' =>
    rw [hrun] at hp hok hwell
    obtain rfl : result = .ok slots := hok
    dsimp only at hwell ⊢
    have hfresh := (List.forall₂_and_left _ _).mpr
      ⟨fun slot (hslot : slot ∈ s₀.slots) => newSlots_fresh (hslots₀ ▸ hslot), hstarted⟩
    have hlive : ∀ o ∈ new, o ∈ (w'.saveSession { s₀ with slots := slots, status := .active }).orders := by
      intro o ho
      change o ∈ w'.orders
      rw [hp.orders]
      exact List.mem_append_right _ ho
    refine ⟨{ s₀ with slots := slots, status := .active }, ⟨hwell, ?_, ?_, ?_⟩, hid₀, ?_⟩
    · refine loadSession_saveSession (s := s₀) ?_ rfl
      rw [GridWorld.loadSession, hp.sessions, hid₀]
      exact hload
    · intro row hrow
      obtain ⟨slot, -, hslot, hst⟩ := Rows.exists_left hfresh hrow
      exact (hst.live hslot hlive).1
    · intro o ho hsession _
      have hold : o ∉ w.orders := by
        intro hold
        have := hdrawn o hold
        rw [hsession, ← hid₀] at this
        exact absurd this (lt_irrefl _)
      have hside : o.side = .buy := by
        have hsent : o ∈ w.orders ++ new := hp.orders ▸ ho
        obtain hsent | hsent := List.mem_append.mp hsent
        · exact absurd hsent hold
        · obtain ⟨slot, -, -, -, heq⟩ := hp.due o hsent
          rw [heq]
          rfl
      obtain hsent | ⟨row, hrow, -, hname⟩ := startSlots_recorded hrun ho
      · exact absurd hsent hold
      · exact ⟨row, hrow, by rw [hside]; exact hname⟩
    · rw [hslots₀, newSlots, List.forall₂_map_left_iff] at hfresh
      refine hfresh.imp fun level row h => ?_
      obtain ⟨hslot, hst⟩ := h
      have hrest := (hst.live hslot hlive).2
      cases hst <;> exact ⟨rfl, rfl, rfl, hrest⟩

/-- From the first candle's open, a new session of the grid and its backtest have the same
statuses and completed cycles after every candle exactly when no candle reaches the sell price
of a level at or above that open. -/
theorem gridTwins_agree_iff (steps : List GridStep) (config : GridConfig) (candle : GridCandle)
    (rest : List GridCandle) :
    Runs.Always (GridTwins.step (Runs.run gridStep {} steps).issued)
      (GridTwins.Agree (Runs.run gridStep {} steps).issued)
      (GridTwins.begin config candle rest (Runs.run gridStep {} steps)) (candle :: rest) ↔
        InventoryKept config candle rest := by
  have hw := gridRun_wellFormed steps
  have hdrawn := ordersDrawn_run steps
  generalize Runs.run gridStep {} steps = w at hw hdrawn ⊢
  obtain ⟨s, hlive, hid, hrows⟩ := begin_live hw hdrawn config candle rest
  have htwins : List.Forall₂ SlotTwins s.slots (GridTwins.begin config candle rest w).backtest.slots := by
    simp only [GridTwins.begin, initializeState, startingPrice]
    rw [List.forall₂_map_right_iff]
    exact hrows.flip.imp fun row level h => h.twins level.2
  rw [← hid, always_agree_iff hlive htwins]
  constructor
  · intro h buyPrice hprice habove
    obtain ⟨level, hlevel, rfl⟩ : ∃ level ∈ config.buyPrices.zipIdx, level.1 = buyPrice := by
      rw [← List.zipIdx_map_fst 0 config.buyPrices] at hprice
      exact List.mem_map.mp hprice
    obtain ⟨row, hrow, hst⟩ := Rows.exists_right hrows hlevel
    obtain ⟨-, hidle⟩ | ⟨hbelow, -⟩ := hst.rest
    · rw [← hst.sellPrice]
      exact h row hrow hidle
    · exact absurd habove hbelow
  · intro h row hrow hidle
    obtain ⟨level, hlevel, hst⟩ := Rows.exists_left hrows hrow
    obtain ⟨habove, -⟩ | ⟨-, hstatus⟩ := hst.rest
    · have hprice : level.1 ∈ config.buyPrices := by
        rw [← List.zipIdx_map_fst 0 config.buyPrices]
        exact List.mem_map_of_mem hlevel
      rw [hst.sellPrice]
      exact h level.1 hprice habove
    · rw [hidle.1] at hstatus
      cases hstatus

def demoGridConfig : GridConfig where
  symbol := "XRPUSDT"
  pMin := 1
  pMax := 3
  nLevels := 2
  capitalUsdt := 10
  ordered := by decide

def demoGridCandle (openPrice low high : Rat) : GridCandle where
  openTimeMs := 0
  openPrice := openPrice
  high := high
  low := low
  close := openPrice

/-- From an open of 3/2 the upper level counts as bought; a candle up to its sell price completes
a cycle in the backtest only. -/
theorem gridTwins_fails : ¬ Runs.Always (GridTwins.step 0) (GridTwins.Agree 0)
    (GridTwins.begin demoGridConfig (demoGridCandle (3 / 2) (3 / 2) 2) [demoGridCandle 2 2 3] {})
    [demoGridCandle (3 / 2) (3 / 2) 2, demoGridCandle 2 2 3] := by
  decide +kernel

/-- The lower level completes a cycle in one candle, in both. -/
example : ((Runs.run (GridTwins.step 0)
    (GridTwins.begin demoGridConfig (demoGridCandle (3 / 2) (3 / 2) 2) [demoGridCandle 1 1 2] {})
    [demoGridCandle (3 / 2) (3 / 2) 2, demoGridCandle 1 1 2]).live.sessions.map fun s =>
      s.slots.map GridSlotRecord.completedCycles) = [[1, 0]] := by
  decide +kernel

end AmaExecutionCore
