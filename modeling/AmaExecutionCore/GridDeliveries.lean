import AmaExecutionCore.GridFills

/-! Every fill is acted on once, as long as an order's id is committed before a handler of its
fill looks it up, no two handlers of one order are between look-up and commit, replacements
are accepted, and no start writes over an order of another. -/
namespace AmaExecutionCore
open GridRunner

namespace GridTask

def fillOf : GridTask → Option GridOrderId
  | handling event _ | found event _ _ _ => some event.orderId
  | replaced orderId _ _ _ | finished orderId => some orderId
  | _ => none

def isFinished : GridTask → Bool
  | finished _ => true
  | _ => false

/-- A handler that has not looked its order up. -/
def isUnread : GridTask → Bool
  | handling _ _ => true
  | _ => false

/-- The order of a handler between its look-up and its commit. -/
def holds : GridTask → Option GridOrderId
  | found event _ _ _ => some event.orderId
  | replaced orderId _ _ _ => some orderId
  | _ => none

/-- The order whose replacement was sent and not committed. -/
def hasReplaced : GridTask → Option GridOrderId
  | replaced orderId _ _ _ => some orderId
  | _ => none

/-- The orders that were accepted and whose ids are not committed. -/
def flying : GridTask → List GridOrderId
  | placing _ _ _ done _ => done.newIds
  | replaced _ _ _ replacement => [replacement]
  | _ => []

end GridTask

/-- An order whose id was committed and whose fill was delivered has moved its slot at most
once and has at most one replacement, and exactly one when its handlers have finished. -/
def FillsHandled (s : Sessions.State GridStore GridTask) : Prop :=
  ∀ x ∈ s.store.recorded, (∃ c ∈ s.sessions, c.fillOf = some x) →
    s.store.advanced.count x ≤ 1 ∧ s.store.sent.count x ≤ 1 ∧
      ((∀ c ∈ s.sessions, c.fillOf = some x → c.isFinished = true) →
        s.store.advanced.count x = 1 ∧ s.store.sent.count x = 1)

instance : DecidablePred FillsHandled := fun s =>
  inferInstanceAs (Decidable (∀ x ∈ s.store.recorded, _))

/-- No handler of the order has looked it up. -/
def Unread (s : Sessions.State GridStore GridTask) (x : GridOrderId) : Prop :=
  ∀ c ∈ s.sessions, c.fillOf = some x → c.isUnread = true

instance (s : Sessions.State GridStore GridTask) (x : GridOrderId) : Decidable (Unread s x) :=
  inferInstanceAs (Decidable (∀ c ∈ s.sessions, _))

/-- The rows that get an order id name none. -/
def RowsFree (writes : SlotWrites) (w : GridWorld) : Prop :=
  ∀ p ∈ writes, p.2.buyOrderId ≠ p.1.buyOrderId → ∀ row ∈ w.slotRows, row.2.id = p.1.id →
    row.2.buyOrderId = none ∧ row.2.sellOrderId = none

instance (writes : SlotWrites) (w : GridWorld) : Decidable (RowsFree writes w) :=
  inferInstanceAs (Decidable (∀ p ∈ writes, _))

/-- What the task's next piece is free of. -/
def GridTask.Clear (s : Sessions.State GridStore GridTask) : GridTask → Prop
  | handling event _ => ∀ c ∈ s.sessions, c.holds ≠ some event.orderId
  | found event outcome _ _ =>
    outcome = .accepted ∨ outcome = .raised false ∧
      ∃ c ∈ s.sessions, c.fillOf = some event.orderId ∧ c.isUnread = true
  | replaced _ _ _ replacement => Unread s replacement
  | placing _ _ _ done [] => RowsFree done s.store.world ∧ ∀ x ∈ done.newIds, Unread s x
  | _ => True

instance (s : Sessions.State GridStore GridTask) (c : GridTask) : Decidable (c.Clear s) := by
  unfold GridTask.Clear
  split <;> infer_instance

/-- No handler looks up an order that another one of it is between look-up and commit of; a
replacement is accepted, or raises before it reaches the exchange while another handler has
the look-up before it; ids are committed before a handler looks for them, over rows that
name no order. -/
def NoneCrossed (s : Sessions.State GridStore GridTask) : Sessions.Act GridCall GridEvent → Prop
  | .advance i => ∀ c ∈ s.sessions[i]?, c.Clear s
  | _ => True

instance (s : Sessions.State GridStore GridTask) (act : Sessions.Act GridCall GridEvent) :
    Decidable (NoneCrossed s act) := by
  cases act <;> unfold NoneCrossed <;> infer_instance

/-! What holds of the store and of each task -/

def EventOf (w : GridWorld) (event : GridOrderFillEvent) : Prop :=
  ∃ o ∈ w.orders, o.id = event.orderId ∧ event.side = some o.side ∧ event.symbol = o.symbol

/-- The row of the slot still names the order, as it was loaded. -/
def Waits (w : GridWorld) (x : GridOrderId) (slot : GridSlotRecord) : Prop :=
  slot.Names x ∧ ∃ row ∈ w.slotRows, row.2.id = slot.id ∧ row.2.buyOrderId = slot.buyOrderId ∧
    row.2.sellOrderId = slot.sellOrderId

/-- The order was placed for the slot and its id is not committed. -/
def Flies (st : GridStore) (slotId : Nat) (side : ExchangeSide) (x : GridOrderId) : Prop :=
  x ∉ st.recorded ∧ ∃ o ∈ st.world.orders, o.id = x ∧
    ∃ s ∈ st.world.sessions, ∃ row ∈ s.slots, row.id = slotId ∧ o.PlacedFor s row side

/-- A start works on distinct slots of one session, and writes to each at most the id of a
buy order it placed for it. -/
structure PlacingSound (st : GridStore) (s : GridSession) (done : SlotWrites)
    (pending : List GridSlotRecord) : Prop where
  nodup : ((done.map Prod.fst ++ pending).map GridSlotRecord.id).Nodup
  rows : ∃ t ∈ st.world.sessions, t.id = s.id ∧ t.symbol = s.symbol ∧
    ∀ slot ∈ done.map Prod.fst ++ pending, ∃ row ∈ t.slots, row.id = slot.id
  written : ∀ p ∈ done, p.2.sellOrderId = p.1.sellOrderId ∧
    (p.2.buyOrderId = p.1.buyOrderId ∨ ∃ x, p.2.buyOrderId = some x ∧ Flies st p.1.id .buy x)

def GridTask.Sound (st : GridStore) : GridTask → Prop
  | placing s _ _ done pending => PlacingSound st s done pending
  | handling event _ => EventOf st.world event
  | found event _ session slot =>
    EventOf st.world event ∧ Waits st.world event.orderId slot ∧
      ∃ s ∈ st.world.sessions, s.id = session ∧ ∃ row ∈ s.slots, row.id = slot.id
  | replaced orderId side slot replacement =>
    Waits st.world orderId slot ∧ Flies st slot.id side.opposite replacement ∧ orderId ∈ st.sent
  | finished orderId => orderId < st.world.issued
  | _ => True

/-- Two tasks have no order in common that is on its way to a row, or that they act on. -/
structure GridTask.Apart (c d : GridTask) : Prop where
  flying : ∀ x ∈ c.flying, x ∉ d.flying
  holds : ∀ x, c.holds = some x → d.holds ≠ some x

structure GridStore.Sound (st : GridStore) : Prop where
  wellFormed : st.world.WellFormed
  known : ∀ x ∈ st.recorded, x < st.world.issued
  named : ∀ row ∈ st.world.slotRows, ∀ x, row.2.Names x → x ∈ st.recorded ∧ x ∉ st.advanced
  waiting : ∀ x ∈ st.recorded, x ∉ st.advanced → ∃ row ∈ st.world.slotRows, row.2.Names x
  one : ∀ row ∈ st.world.slotRows, row.2.buyOrderId = none ∨ row.2.sellOrderId = none
  advanced : st.advanced.Nodup
  sent : st.sent.Nodup
  answered : ∀ x ∈ st.advanced, x ∈ st.sent
  moved : ∀ x ∈ st.advanced, x ∈ st.recorded

structure FillSound (s : Sessions.State GridStore GridTask) : Prop where
  holds : Sessions.Holds GridStore.Sound GridTask.Sound GridTask.Apart s
  pending : ∀ x ∈ s.store.recorded, x ∉ s.store.advanced →
    (∃ c ∈ s.sessions, c.fillOf = some x) → ∃ c ∈ s.sessions, c.fillOf = some x ∧ c.isFinished = false
  sent : ∀ x ∈ s.store.sent, x ∈ s.store.advanced ∨ ∃ c ∈ s.sessions, c.hasReplaced = some x

theorem fillSound_init : FillSound ⟨{}, []⟩ where
  holds := .init
    { wellFormed := gridWellFormed_init
      known := by simp
      named := by simp [GridWorld.slotRows]
      waiting := by simp
      one := by simp [GridWorld.slotRows]
      advanced := List.nodup_nil
      sent := List.nodup_nil
      answered := by simp
      moved := by simp }
  pending := by simp
  sent := by simp

theorem FillSound.handled {s : Sessions.State GridStore GridTask} (h : FillSound s) :
    FillsHandled s := by
  intro x hx hdelivered
  have hstore := h.holds.store
  refine ⟨List.nodup_iff_count_le_one.mp hstore.advanced x,
    List.nodup_iff_count_le_one.mp hstore.sent x, fun hall => ?_⟩
  have hadvanced : x ∈ s.store.advanced := by
    by_contra hnot
    obtain ⟨c, hc, hfill, hopen⟩ := h.pending x hx hnot hdelivered
    rw [hall c hc hfill] at hopen
    cases hopen
  exact ⟨List.count_eq_one_of_mem hstore.advanced hadvanced,
    List.count_eq_one_of_mem hstore.sent (hstore.answered x hadvanced)⟩

/-! What other tasks see of a change of the store -/

structure GridWorld.Extends (w w' : GridWorld) : Prop where
  issued : w.issued ≤ w'.issued
  orders : ∀ o ∈ w.orders, ∃ o' ∈ w'.orders, o.Same o'
  sessions : ∀ s ∈ w.sessions, ∃ s' ∈ w'.sessions, s'.id = s.id ∧ s'.symbol = s.symbol ∧
    ∀ slot ∈ s.slots, ∃ slot' ∈ s'.slots, slot'.id = slot.id

theorem GridWorld.Extends.refl (w : GridWorld) : w.Extends w where
  issued := le_refl _
  orders := fun o ho => ⟨o, ho, .refl o⟩
  sessions := fun s hs => ⟨s, hs, rfl, rfl, fun slot hslot => ⟨slot, hslot, rfl⟩⟩

theorem GridWorld.Evolves.extends {w w' : GridWorld} (h : w.Evolves w') : w.Extends w' where
  issued := h.issued
  orders := fun _ ho => h.order ho
  sessions := by
    intro s hs
    obtain ⟨s', hs', hev⟩ := Rows.exists_right h.sessions hs
    refine ⟨s', hs', hev.id, hev.symbol, fun slot hslot => ?_⟩
    obtain ⟨slot', hslot', hsl⟩ := Rows.exists_right hev.slots hslot
    exact ⟨slot', hslot', hsl.id⟩

theorem createGridSession_extends (req : GridCreateRequest) (w : GridWorld) :
    w.Extends (createGridSession req w) where
  issued := by
    simp only [createGridSession]
    omega
  orders := fun o ho => ⟨o, ho, .refl o⟩
  sessions := fun s hs =>
    ⟨s, List.mem_append_left _ hs, rfl, rfl, fun slot hslot => ⟨slot, hslot, rfl⟩⟩

theorem Flies.kept {st st' : GridStore} {slotId : Nat} {side : ExchangeSide} {x : GridOrderId}
    (h : Flies st slotId side x) (hext : st.world.Extends st'.world) (hrec : x ∉ st'.recorded) :
    Flies st' slotId side x := by
  obtain ⟨-, o, ho, hid, s, hs, row, hrow, hrowId, hp⟩ := h
  obtain ⟨o', ho', hsame⟩ := hext.orders o ho
  obtain ⟨s', hs', hsid, hsymbol, hslots⟩ := hext.sessions s hs
  obtain ⟨row', hrow', hrid⟩ := hslots row hrow
  refine ⟨hrec, o', ho', hsame.id.trans hid, s', hs', row', hrow', hrid.trans hrowId, ?_⟩
  have hp' := hsame.placedFor hp
  exact ⟨hp'.session.trans hsid.symm, hp'.slot.trans hrid.symm, hp'.symbol.trans hsymbol.symm, hp'.side⟩

theorem EventOf.kept {w w' : GridWorld} {event : GridOrderFillEvent} (h : EventOf w event)
    (hext : w.Extends w') : EventOf w' event := by
  obtain ⟨o, ho, hid, hside, hsymbol⟩ := h
  obtain ⟨o', ho', hsame⟩ := hext.orders o ho
  refine ⟨o', ho', hsame.id.trans hid, ?_, ?_⟩
  · rw [hsame]
    exact hside
  · rw [hsame]
    exact hsymbol

theorem SlotWrites.mem_newIds {writes : SlotWrites} {x : GridOrderId} :
    x ∈ writes.newIds ↔ ∃ p ∈ writes, p.2.buyOrderId ≠ p.1.buyOrderId ∧ p.2.buyOrderId = some x := by
  simp [SlotWrites.newIds, List.mem_filterMap]

theorem PlacingSound.kept {st st' : GridStore} {s : GridSession} {done : SlotWrites}
    {pending : List GridSlotRecord} (h : PlacingSound st s done pending)
    (hext : st.world.Extends st'.world) (hrec : ∀ x ∈ done.newIds, x ∉ st'.recorded) :
    PlacingSound st' s done pending where
  nodup := h.nodup
  rows := by
    obtain ⟨t, ht, hid, hsymbol, hrows⟩ := h.rows
    obtain ⟨t', ht', hid', hsymbol', hslots⟩ := hext.sessions t ht
    refine ⟨t', ht', hid'.trans hid, hsymbol'.trans hsymbol, fun slot hslot => ?_⟩
    obtain ⟨row, hrow, hrowId⟩ := hrows slot hslot
    obtain ⟨row', hrow', hrid⟩ := hslots row hrow
    exact ⟨row', hrow', hrid.trans hrowId⟩
  written := by
    intro p hp
    obtain ⟨hsell, hbuy⟩ := h.written p hp
    refine ⟨hsell, ?_⟩
    by_cases hsame : p.2.buyOrderId = p.1.buyOrderId
    · exact .inl hsame
    · obtain hbuy | ⟨x, hx, hflies⟩ := hbuy
      · exact absurd hbuy hsame
      · exact .inr ⟨x, hx, hflies.kept hext (hrec x (SlotWrites.mem_newIds.mpr ⟨p, hp, hsame, hx⟩))⟩

/-- A task is none the worse for a change that neither commits its orders nor touches the
rows it acts on. -/
theorem GridTask.Sound.kept {st st' : GridStore} {c : GridTask} (h : c.Sound st)
    (hext : st.world.Extends st'.world) (hrec : ∀ x ∈ c.flying, x ∉ st'.recorded)
    (hsent : ∀ x ∈ st.sent, x ∈ st'.sent)
    (hrows : ∀ x slot, c.holds = some x → Waits st.world x slot → Waits st'.world x slot) :
    c.Sound st' := by
  cases c with
  | placing s price place done pending => exact PlacingSound.kept h hext hrec
  | handling event outcome => exact EventOf.kept h hext
  | found event outcome session slot =>
    obtain ⟨hevent, hwaits, s, hs, hid, row, hrow, hrowId⟩ := h
    obtain ⟨s', hs', hsid, -, hslots⟩ := hext.sessions s hs
    obtain ⟨row', hrow', hrid⟩ := hslots row hrow
    exact ⟨hevent.kept hext, hrows _ _ rfl hwaits, s', hs', hsid.trans hid, row', hrow',
      hrid.trans hrowId⟩
  | replaced orderId side slot replacement =>
    obtain ⟨hwaits, hflies, hs⟩ := h
    exact ⟨hrows _ _ rfl hwaits, hflies.kept hext (hrec _ List.mem_cons_self), hsent _ hs⟩
  | finished orderId => exact lt_of_lt_of_le h hext.issued
  | starting | notified | ended => trivial

theorem Flies.issued {st : GridStore} (hw : st.world.WellFormed) {slotId : Nat} {side : ExchangeSide}
    {x : GridOrderId} (h : Flies st slotId side x) : x < st.world.issued := by
  obtain ⟨-, o, ho, rfl, -⟩ := h
  exact hw.orderFresh o ho

theorem GridTask.Sound.flying {st : GridStore} {c : GridTask} (hw : st.world.WellFormed)
    (h : c.Sound st) {x : GridOrderId} (hx : x ∈ c.flying) :
    x ∉ st.recorded ∧ x < st.world.issued := by
  cases c with
  | placing s price place done pending =>
    obtain ⟨p, hp, hne, hbuy⟩ := SlotWrites.mem_newIds.mp hx
    obtain hsame | ⟨y, hy, hflies⟩ := (PlacingSound.written h p hp).2
    · exact absurd hsame hne
    · obtain rfl := Option.some.inj (hbuy.symm.trans hy)
      exact ⟨hflies.1, hflies.issued hw⟩
  | replaced orderId side slot replacement =>
    obtain rfl := List.mem_singleton.mp hx
    exact ⟨h.2.1.1, h.2.1.issued hw⟩
  | starting | notified | handling | found | finished | ended => cases hx

/-- What a piece of a task owes to the others: it commits only orders of its own that no
handler has looked for, leaves the rows of the others' orders, and ends only when its fill is
dealt with or another handler will. -/
structure GridPiece (s : Sessions.State GridStore GridTask) (c : GridTask) (st' : GridStore)
    (c' : GridTask) : Prop where
  store : st'.Sound
  own : c'.Sound st'
  extend : s.store.world.Extends st'.world
  recorded : ∀ x ∈ st'.recorded, x ∈ s.store.recorded ∨ x ∈ c.flying ∧ Unread s x
  sent : ∀ x ∈ s.store.sent, x ∈ st'.sent
  advanced : ∀ x ∈ s.store.advanced, x ∈ st'.advanced
  rows : ∀ x slot, c.holds ≠ some x → Waits s.store.world x slot → Waits st'.world x slot
  flying : ∀ x ∈ c'.flying, x ∈ c.flying ∨ s.store.world.issued ≤ x
  held : ∀ x, c'.holds = some x → c.holds = some x ∨ ∀ d ∈ s.sessions, d.holds ≠ some x
  follows : ∀ x, c.fillOf = some x → c'.fillOf = some x
  finished : ∀ x ∈ st'.recorded, x ∉ st'.advanced → c'.fillOf = some x → c'.isFinished = true →
    c.isUnread = false ∧ ∃ d ∈ s.sessions, d.fillOf = some x ∧ d.isUnread = true
  answers : ∀ x ∈ st'.sent, x ∈ s.store.sent ∨ c'.hasReplaced = some x
  leaves : ∀ x, c.hasReplaced = some x → x ∈ st'.advanced ∨ c'.hasReplaced = some x

theorem isFinished_of_isUnread {c : GridTask} (h : c.isUnread = true) : c.isFinished = false := by
  cases c with
  | handling => rfl
  | _ => cases h

namespace GridPiece

variable {s : Sessions.State GridStore GridTask} {i : Nat} {c c' : GridTask} {st' : GridStore}

theorem others (h : FillSound s) (hi : s.sessions[i]? = some c) (hp : GridPiece s c st' c') {j : Nat}
    {d : GridTask} (hd : s.sessions[j]? = some d) (hj : j ≠ i) :
    d.Sound st' ∧ c'.Apart d ∧ d.Apart c' := by
  have hw := h.holds.store.wellFormed
  have hd' := h.holds.own j d hd
  have hcd := h.holds.apart i j c d hi hd hj.symm
  have hfresh : ∀ x ∈ d.flying, x ∉ st'.recorded := by
    intro x hx hrec
    obtain hrec | ⟨hfly, -⟩ := hp.recorded x hrec
    · exact (hd'.flying hw hx).1 hrec
    · exact hcd.flying x hfly hx
  have hflying : ∀ x ∈ c'.flying, x ∉ d.flying := by
    intro x hx hx'
    obtain hfly | hnew := hp.flying x hx
    · exact hcd.flying x hfly hx'
    · exact absurd (hd'.flying hw hx').2 (not_lt.mpr hnew)
  have hheld : ∀ x, c'.holds = some x → d.holds ≠ some x := by
    intro x hx
    obtain hsame | hfree := hp.held x hx
    · exact hcd.holds x hsame
    · exact hfree d (List.mem_of_getElem? hd)
  refine ⟨hd'.kept hp.extend hfresh hp.sent fun x slot hx => ?_, ⟨hflying, hheld⟩,
    ⟨fun x hx hx' => hflying x hx' hx, fun x hx hx' => hheld x hx' hx⟩⟩
  exact hp.rows x slot fun hx' => hcd.holds x hx' hx

theorem pending (h : FillSound s) (hi : s.sessions[i]? = some c) (hp : GridPiece s c st' c')
    {x : GridOrderId} (hx : x ∈ st'.recorded) (hnot : x ∉ st'.advanced)
    (hdelivered : ∃ d ∈ s.sessions.set i c', d.fillOf = some x) :
    ∃ d ∈ s.sessions.set i c', d.fillOf = some x ∧ d.isFinished = false := by
  have hcloses : c'.fillOf = some x →
      ∃ d ∈ s.sessions.set i c', d.fillOf = some x ∧ d.isFinished = false := by
    intro hfill
    by_cases hfin : c'.isFinished = true
    · obtain ⟨hread, d, hd, hdfill, hunread⟩ := hp.finished x hx hnot hfill hfin
      obtain hd | rfl := Sessions.mem_set_or_eq hi hd c'
      · exact ⟨d, hd, hdfill, isFinished_of_isUnread hunread⟩
      · rw [hunread] at hread
        cases hread
    · exact ⟨_, Sessions.mem_set_self hi _, hfill, by simpa using hfin⟩
  obtain ⟨d, hd, hfill⟩ := hdelivered
  obtain hd | rfl := List.mem_or_eq_of_mem_set hd
  · have hopen : ∃ d ∈ s.sessions, d.fillOf = some x ∧ d.isFinished = false := by
      obtain hrec | ⟨-, hunread⟩ := hp.recorded x hx
      · exact h.pending x hrec (fun hadv => hnot (hp.advanced x hadv)) ⟨d, hd, hfill⟩
      · exact ⟨d, hd, hfill, isFinished_of_isUnread (hunread d hd hfill)⟩
    obtain ⟨d, hd, hfill, hopen⟩ := hopen
    obtain hd | rfl := Sessions.mem_set_or_eq hi hd c'
    · exact ⟨d, hd, hfill, hopen⟩
    · exact hcloses (hp.follows x hfill)
  · exact hcloses hfill

theorem answered (h : FillSound s) (hi : s.sessions[i]? = some c) (hp : GridPiece s c st' c')
    {x : GridOrderId} (hx : x ∈ st'.sent) :
    x ∈ st'.advanced ∨ ∃ d ∈ s.sessions.set i c', d.hasReplaced = some x := by
  obtain hx | hrep := hp.answers x hx
  · obtain hadv | ⟨d, hd, hrep⟩ := h.sent x hx
    · exact .inl (hp.advanced x hadv)
    · obtain hd | rfl := Sessions.mem_set_or_eq hi hd c'
      · exact .inr ⟨d, hd, hrep⟩
      · obtain hadv | hrep := hp.leaves x hrep
        · exact .inl hadv
        · exact .inr ⟨_, Sessions.mem_set_self hi _, hrep⟩
  · exact .inr ⟨_, Sessions.mem_set_self hi _, hrep⟩

end GridPiece

theorem FillSound.advance {s : Sessions.State GridStore GridTask} {i : Nat} {c : GridTask}
    (h : FillSound s) (hi : s.sessions[i]? = some c)
    (hp : GridPiece s c (c.next s.store).1 (c.next s.store).2) :
    FillSound (Sessions.step gridSystem s (.advance i)) := by
  have hstep : Sessions.step gridSystem s (.advance i) =
      ⟨(c.next s.store).1, s.sessions.set i (c.next s.store).2⟩ := Sessions.step_advance hi
  refine ⟨h.holds.advance fun c₀ hc₀ => ?_, ?_, ?_⟩
  · obtain rfl : c = c₀ := Option.some.inj (hi.symm.trans hc₀)
    exact ⟨hp.store, hp.own, fun j d hd hj => hp.others h hi hd hj⟩
  · rw [hstep]
    exact fun x hx hnot hdelivered => hp.pending h hi hx hnot hdelivered
  · rw [hstep]
    exact fun x hx => hp.answered h hi hx

/-! Calls and events -/

theorem GridStore.Sound.rows {st : GridStore} (h : st.Sound) {w' : GridWorld} (hw : w'.WellFormed)
    (hissued : st.world.issued ≤ w'.issued)
    (hnew : ∀ row ∈ w'.slotRows, row ∈ st.world.slotRows ∨ row.2.Fresh)
    (hold : ∀ row ∈ st.world.slotRows, row ∈ w'.slotRows) :
    GridStore.Sound { st with world := w' } where
  wellFormed := hw
  known := fun x hx => (h.known x hx).trans_le hissued
  named := by
    rintro row hrow x ⟨side, hside⟩
    obtain hrow | hfresh := hnew row hrow
    · exact h.named row hrow x ⟨side, hside⟩
    · rw [hfresh.orderOn] at hside
      cases hside
  waiting := by
    intro x hx hnot
    obtain ⟨row, hrow, hnames⟩ := h.waiting x hx hnot
    exact ⟨row, hold row hrow, hnames⟩
  one := by
    intro row hrow
    obtain hrow | hfresh := hnew row hrow
    · exact h.one row hrow
    · exact .inl hfresh.buy
  advanced := h.advanced
  sent := h.sent
  answered := h.answered
  moved := h.moved

theorem Waits.rows {w w' : GridWorld} {x : GridOrderId} {slot : GridSlotRecord} (h : Waits w x slot)
    (hold : ∀ row ∈ w.slotRows, row ∈ w'.slotRows) : Waits w' x slot := by
  obtain ⟨hnames, row, hrow, hrest⟩ := h
  exact ⟨hnames, row, hold row hrow, hrest⟩

theorem slotRows_setStatus (id : Nat) (status : GridSessionStatus) (w : GridWorld) :
    (w.setStatus id status).slotRows = w.slotRows := by
  simp only [GridWorld.slotRows, GridWorld.setStatus, List.flatMap_map]
  congr 1
  funext s
  split_ifs <;> rfl

/-- What happens in one step leaves the slots and adds fresh ones at most. -/
theorem event_rows (e : GridEvent) (w : GridWorld) :
    (∀ row ∈ (gridStep w e.toStep).slotRows, row ∈ w.slotRows ∨ row.2.Fresh) ∧
      ∀ row ∈ w.slotRows, row ∈ (gridStep w e.toStep).slotRows := by
  have heff := gridStep_effect w e.toStep
  generalize gridStep w e.toStep = w' at heff ⊢
  have hsame : w'.slotRows = w.slotRows →
      (∀ row ∈ w'.slotRows, row ∈ w.slotRows ∨ row.2.Fresh) ∧ ∀ row ∈ w.slotRows, row ∈ w'.slotRows := by
    intro heq
    rw [heq]
    exact ⟨fun row hrow => .inl hrow, fun row hrow => hrow⟩
  cases e with
  | created req =>
    cases heff with
    | nothing => exact hsame rfl
    | created =>
      constructor
      · intro row hrow
        obtain ⟨s, hs, hid, hslot⟩ := GridWorld.mem_slotRows.mp hrow
        obtain hs | hs := List.mem_append.mp hs
        · exact .inl (GridWorld.mem_slotRows.mpr ⟨s, hs, hid, hslot⟩)
        · obtain rfl := List.mem_singleton.mp hs
          exact .inr (newSlots_fresh hslot)
      · intro row hrow
        obtain ⟨s, hs, hid, hslot⟩ := GridWorld.mem_slotRows.mp hrow
        exact GridWorld.mem_slotRows.mpr ⟨s, List.mem_append_left _ hs, hid, hslot⟩
  | stopped id io =>
    cases heff with
    | nothing => exact hsame rfl
    | stopFailed hs hlisted hraised => exact hsame rfl
    | stopped hs hlisted hall => exact hsame (slotRows_setStatus _ _ _)
  | paused id =>
    cases heff with
    | nothing => exact hsame rfl
    | paused => exact hsame (slotRows_setStatus _ _ _)
  | filled id =>
    cases heff with
    | nothing => exact hsame rfl
    | filled => exact hsame rfl

theorem event_extends {w : GridWorld} (hw : w.WellFormed) (e : GridEvent) :
    w.Extends (gridStep w e.toStep) := by
  cases e with
  | created req => exact createGridSession_extends req w
  | stopped id io => exact ((gridStep_effect w _).evolves hw (by simp [GridEvent.toStep])).extends
  | paused id => exact ((gridStep_effect w _).evolves hw (by simp [GridEvent.toStep])).extends
  | filled id => exact ((gridStep_effect w _).evolves hw (by simp [GridEvent.toStep])).extends

theorem fillSound_event {s : Sessions.State GridStore GridTask} (h : FillSound s) (e : GridEvent) :
    FillSound (Sessions.step gridSystem s (.event e)) := by
  have hw := h.holds.store.wellFormed
  obtain ⟨hnew, hold⟩ := event_rows e s.store.world
  have hext := event_extends hw e
  refine ⟨h.holds.event ?_ ?_, h.pending, h.sent⟩
  · exact h.holds.store.rows (gridStep_wellFormed hw _) hext.issued hnew hold
  · intro c _ hc
    exact hc.kept hext (fun x hx => (hc.flying hw hx).1) (fun _ hx => hx)
      fun x slot _ hwaits => hwaits.rows hold

theorem fillSound_start {s : Sessions.State GridStore GridTask} (h : FillSound s) (call : GridCall) :
    FillSound (Sessions.step gridSystem s (.start call)) := by
  have hnew : (gridSystem.start call).Sound s.store ∧ (gridSystem.start call).flying = [] ∧
      (gridSystem.start call).holds = none ∧ (gridSystem.start call).fillOf = none := by
    cases call <;> exact ⟨trivial, rfl, rfl, rfl⟩
  obtain ⟨hsound, hflying, hholds, hfill⟩ := hnew
  refine ⟨h.holds.start hsound fun c _ => ⟨⟨?_, ?_⟩, ⟨?_, ?_⟩⟩, ?_, ?_⟩
  · simp [hflying]
  · simp [hholds]
  · simp [hflying]
  · simp [hholds]
  · rintro x hx hnot ⟨c, hc, hcfill⟩
    have hdelivered : ∃ c ∈ s.sessions, c.fillOf = some x := by
      obtain hc | hc := List.mem_append.mp hc
      · exact ⟨c, hc, hcfill⟩
      · obtain rfl := List.mem_singleton.mp hc
        rw [hfill] at hcfill
        cases hcfill
    obtain ⟨d, hd, hopen⟩ := h.pending x hx hnot hdelivered
    exact ⟨d, List.mem_append_left _ hd, hopen⟩
  · intro x hx
    obtain hadv | ⟨d, hd, hrep⟩ := h.sent x hx
    · exact .inl hadv
    · exact .inr ⟨d, List.mem_append_left _ hd, hrep⟩

end AmaExecutionCore
