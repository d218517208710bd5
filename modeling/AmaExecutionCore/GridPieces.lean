import AmaExecutionCore.GridDeliveries

/-! The pieces of starts and fill handlers that commit nothing: looking up, and placing orders. -/
namespace AmaExecutionCore
open GridRunner

theorem GridPiece.quiet {s : Sessions.State GridStore GridTask} {c c' : GridTask} (h : FillSound s)
    (own : c'.Sound s.store) (flying : c'.flying = [])
    (held : ∀ x, c'.holds = some x → ∀ d ∈ s.sessions, d.holds ≠ some x)
    (follows : ∀ x, c.fillOf = some x → c'.fillOf = some x) (leaves : c.hasReplaced = none)
    (finished : ∀ x ∈ s.store.recorded, x ∉ s.store.advanced → c'.fillOf = some x →
      c'.isFinished = false) : GridPiece s c s.store c' where
  store := h.holds.store
  own := own
  extend := .refl _
  recorded := fun _ hx => .inl hx
  sent := fun _ hx => hx
  advanced := fun _ hx => hx
  rows := fun _ _ _ hwaits => hwaits
  flying := by simp [flying]
  held := fun x hx => .inr (held x hx)
  follows := follows
  finished := by
    intro x hx hnot hfill hfin
    rw [finished x hx hnot hfill] at hfin
    cases hfin
  answers := fun _ hx => .inl hx
  leaves := by simp [leaves]

theorem piece_starting {s : Sessions.State GridStore GridTask} (h : FillSound s) (id : Nat)
    (io : GridStartIo) : GridPiece s (.starting id io) (GridTask.next (.starting id io) s.store).1
      (GridTask.next (.starting id io) s.store).2 := by
  have hended : GridPiece s (.starting id io) s.store .ended :=
    .quiet h trivial rfl (fun _ hx => by cases hx) (fun _ hx => by cases hx) rfl fun _ _ _ hx => by cases hx
  simp only [GridTask.next]
  cases hs : s.store.world.loadSession id with
  | none => exact hended
  | some t =>
    dsimp only
    split_ifs
    · exact hended
    · cases io.price with
      | error e => exact hended
      | ok price =>
        obtain ⟨ht, -⟩ := GridWorld.mem_of_loadSession hs
        refine .quiet h ?_ rfl (fun _ hx => by cases hx) (fun _ hx => by cases hx) rfl
          fun _ _ _ hx => by cases hx
        exact ⟨h.holds.store.wellFormed.slots_nodup ht,
          ⟨t, ht, rfl, rfl, fun slot hslot => ⟨slot, hslot, rfl⟩⟩, by simp⟩

theorem piece_notified {s : Sessions.State GridStore GridTask} (h : FillSound s) (orderId : GridOrderId)
    (outcome : GridPlaceOutcome) :
    GridPiece s (.notified orderId outcome) (GridTask.next (.notified orderId outcome) s.store).1
      (GridTask.next (.notified orderId outcome) s.store).2 := by
  simp only [GridTask.next]
  split
  · exact .quiet h trivial rfl (fun _ hx => by cases hx) (fun _ hx => by cases hx) rfl
      fun _ _ _ hx => by cases hx
  · next event rest hevents =>
    have hevent : event ∈ (s.store.world.orders.filter fun o => o.id = orderId).flatMap gridOnOrder := by
      rw [hevents]
      exact List.mem_cons_self
    obtain ⟨o, ho, hmade⟩ := List.mem_flatMap.mp hevent
    have hof : EventOf s.store.world event := by
      unfold gridOnOrder at hmade
      split at hmade
      · obtain rfl := List.mem_singleton.mp hmade
        exact ⟨o, (List.mem_filter.mp ho).1, rfl, rfl, rfl⟩
      · cases hmade
    exact .quiet h hof rfl (fun _ hx => by cases hx) (fun _ hx => by cases hx) rfl fun _ _ _ _ => rfl

theorem piece_handling {s : Sessions.State GridStore GridTask} (h : FillSound s)
    {event : GridOrderFillEvent} {outcome : GridPlaceOutcome}
    (hown : (GridTask.handling event outcome).Sound s.store)
    (hclear : (GridTask.handling event outcome).Clear s) :
    GridPiece s (.handling event outcome) (GridTask.next (.handling event outcome) s.store).1
      (GridTask.next (.handling event outcome) s.store).2 := by
  have hw := h.holds.store.wellFormed
  simp only [GridTask.next]
  obtain ⟨row, hrow, hnames, hfound⟩ | ⟨hno, hfound⟩ := slotForOrderId_eq hw (x := event.orderId)
  · obtain ⟨t, ht, hid, hslot⟩ := GridWorld.mem_slotRows.mp hrow
    rw [hfound]
    refine .quiet h ⟨hown, ⟨hnames, row, hrow, rfl, rfl, rfl⟩, t, ht, hid, row.2, hslot, rfl⟩ rfl ?_
      (fun _ hx => hx) rfl fun _ _ _ _ => rfl
    intro x hx d hd
    obtain rfl := Option.some.inj hx
    exact hclear d hd
  · rw [hfound]
    obtain ⟨o, ho, hid, -⟩ := hown
    have hdrawn : event.orderId < s.store.world.issued := hid ▸ hw.orderFresh o ho
    refine .quiet h hdrawn rfl (fun _ hx => by cases hx) (fun _ hx => hx) rfl fun x hx hnot hfill => ?_
    -- a recorded order is named until it has moved its slot
    obtain rfl := Option.some.inj hfill
    obtain ⟨row, hrow, hnames⟩ := h.holds.store.waiting _ hx hnot
    exact absurd hnames (hno row hrow)

/-! Pieces that place orders -/

theorem Placing.slotRows {s : GridSession} {price : Rat} {place : Nat → GridPlaceOutcome}
    {slots : List GridSlotRecord} {w w' : GridWorld} {new : List GridOrder}
    (h : Placing s price place slots w new w') : w'.slotRows = w.slotRows := by
  rw [GridWorld.slotRows, h.sessions, GridWorld.slotRows]

/-- What a start makes of a slot: at most it writes the id of the order it placed. -/
theorem SlotStarted.writes {st : GridStore} {s : GridSession} {price : Rat} {place : Nat → GridPlaceOutcome}
    {slot slot' : GridSlotRecord} {new : List GridOrder} {w' : GridWorld} (hstore : st.Sound)
    (hp : Placing s price place [slot] st.world new w') (hstarted : SlotStarted s price new slot slot')
    (hrow : ∃ t ∈ w'.sessions, t.id = s.id ∧ t.symbol = s.symbol ∧ ∃ row ∈ t.slots, row.id = slot.id) :
    slot'.sellOrderId = slot.sellOrderId ∧ (slot'.buyOrderId = slot.buyOrderId ∨
      ∃ x, slot'.buyOrderId = some x ∧ st.world.issued ≤ x ∧ Flies { st with world := w' } slot.id .buy x) := by
  cases hstarted with
  | above habove => exact ⟨rfl, .inl rfl⟩
  | kept hbelow hdue => exact ⟨rfl, .inl rfl⟩
  | @placed x hdue ho =>
    obtain ⟨t, ht, hid, hsymbol, row, hrow, hrowId⟩ := hrow
    have hfresh : st.world.issued ≤ x := (hp.range _ ho).1
    refine ⟨rfl, .inr ⟨x, rfl, hfresh, ?_, _, hp.orders ▸ List.mem_append_right _ ho, rfl, t, ht, row,
      hrow, hrowId, ⟨hid.symm, hrowId.symm, hsymbol.symm, rfl⟩⟩⟩
    exact fun hrec => absurd (hstore.known x hrec) (not_lt.mpr hfresh)

theorem piece_placing {s : Sessions.State GridStore GridTask} (h : FillSound s) {t : GridSession}
    {price : Rat} {place : Nat → GridPlaceOutcome} {done : SlotWrites} {slot : GridSlotRecord}
    {pending : List GridSlotRecord} (hown : PlacingSound s.store t done (slot :: pending)) :
    GridPiece s (.placing t price place done (slot :: pending))
      (GridTask.next (.placing t price place done (slot :: pending)) s.store).1
      (GridTask.next (.placing t price place done (slot :: pending)) s.store).2 := by
  have hstore := h.holds.store
  obtain ⟨new, hp, hstarted⟩ := startSlot_spec t price place slot s.store.world
  have hrows : ∀ row ∈ s.store.world.slotRows, row ∈ (startSlot t price (place slot.id) slot
      s.store.world).2.slotRows := fun row hrow => hp.slotRows ▸ hrow
  have hpiece : ∀ c' : GridTask, c'.Sound { s.store with
        world := (startSlot t price (place slot.id) slot s.store.world).2 } →
      (∀ x ∈ c'.flying, x ∈ done.newIds ∨ s.store.world.issued ≤ x) → c'.holds = none →
      c'.fillOf = none →
      GridPiece s (.placing t price place done (slot :: pending)) { s.store with
        world := (startSlot t price (place slot.id) slot s.store.world).2 } c' := by
    intro c' hsound hflying hholds hfill
    exact
      { store := hstore.rows (hstore.wellFormed.evolves hp.evolves) hp.issued
          (fun row hrow => .inl (hp.slotRows ▸ hrow)) hrows
        own := hsound
        extend := hp.evolves.extends
        recorded := fun _ hx => .inl hx
        sent := fun _ hx => hx
        advanced := fun _ hx => hx
        rows := fun _ _ _ hwaits => hwaits.rows hrows
        flying := hflying
        held := by simp [hholds]
        follows := fun _ hx => by cases hx
        finished := by simp [hfill]
        answers := fun _ hx => .inl hx
        leaves := fun _ hx => by cases hx }
  simp only [GridTask.next]
  cases hrun : startSlot t price (place slot.id) slot s.store.world with
  | mk result w' =>
    rw [hrun] at hpiece hp hstarted
    cases result with
    | error e => exact hpiece .ended trivial (fun _ hx => by cases hx) rfl rfl
    | ok slot' =>
      have hkept : PlacingSound { s.store with world := w' } t done (slot :: pending) :=
        hown.kept hp.evolves.extends fun x hx =>
          (GridTask.Sound.flying (c := .placing t price place done (slot :: pending)) hstore.wellFormed
            hown hx).1
      obtain ⟨r, hr, hid, hsymbol, hslots⟩ := hkept.rows
      have hwrites := (hstarted slot' rfl).writes hstore hp
        ⟨r, hr, hid, hsymbol, hslots slot (List.mem_append_right _ List.mem_cons_self)⟩
      have hsame : (done ++ [(slot, slot')]).map Prod.fst ++ pending =
          done.map Prod.fst ++ slot :: pending := by simp
      refine hpiece _ ⟨hsame ▸ hkept.nodup, hsame ▸ hkept.rows, fun p hp => ?_⟩ (fun x hx => ?_) rfl rfl
      · obtain hp | hp := List.mem_append.mp hp
        · exact hkept.written p hp
        · obtain rfl := List.mem_singleton.mp hp
          obtain ⟨hsell, hbuy | ⟨x, hx, -, hflies⟩⟩ := hwrites
          · exact ⟨hsell, .inl hbuy⟩
          · exact ⟨hsell, .inr ⟨x, hx, hflies⟩⟩
      · obtain ⟨p, hp, hne, hx⟩ := SlotWrites.mem_newIds.mp hx
        obtain hp | hp := List.mem_append.mp hp
        · exact .inl (SlotWrites.mem_newIds.mpr ⟨p, hp, hne, hx⟩)
        · obtain rfl := List.mem_singleton.mp hp
          obtain ⟨-, hbuy | ⟨y, hy, hfresh, -⟩⟩ := hwrites
          · exact absurd hbuy hne
          · obtain rfl := Option.some.inj (hx.symm.trans hy)
            exact .inr hfresh

theorem placed_evolves (w : GridWorld) {new : List GridOrder}
    (hnew : ∀ o ∈ new, o.id = w.issued) (hone : new.length ≤ 1) :
    w.Evolves { w with orders := w.orders ++ new, issued := w.issued + 1 } := by
  refine GridWorld.evolves_of id .refl _ (by rw [List.map_id]) (Nat.le_succ _) ?_ (fun o ho => ?_)
    (GridWorld.sessions_refl _ _)
  · match new with
    | [] => exact List.nodup_nil
    | [o] => exact List.nodup_singleton _
  · rw [hnew o ho]
    exact ⟨le_refl _, Nat.lt_succ_self _⟩

/-- An order that its row names was recorded, and did not move the row yet. -/
theorem Waits.open {st : GridStore} (h : st.Sound) {x : GridOrderId} {slot : GridSlotRecord}
    (hwaits : Waits st.world x slot) : ∃ row ∈ st.world.slotRows, row.2.id = slot.id ∧
      row.2.Names x ∧ x ∈ st.recorded ∧ x ∉ st.advanced := by
  obtain ⟨hnames, row, hrow, hid, hbuy, hsell⟩ := hwaits
  have hnamed : row.2.Names x := (names_congr hbuy hsell).mpr hnames
  exact ⟨row, hrow, hid, hnamed, h.named row hrow x hnamed⟩

theorem replacement_flies {st : GridStore} (h : st.Sound) {event : GridOrderFillEvent}
    {session : Nat} {slot : GridSlotRecord} {side : ExchangeSide} {w' : GridWorld}
    (hevent : EventOf st.world event) (hwaits : Waits st.world event.orderId slot)
    (hslot : ∃ s ∈ st.world.sessions, s.id = session ∧ ∃ row ∈ s.slots, row.id = slot.id)
    (hrows : w'.sessions = st.world.sessions)
    (ho : replacementOrder session side event.symbol slot st.world.issued ∈ w'.orders) :
    Flies { st with world := w' } slot.id side.opposite st.world.issued := by
  obtain ⟨o, ho', hid, -, hsymbol⟩ := hevent
  obtain ⟨s, hs, hsid, row, hrow, hrowId⟩ := hslot
  obtain ⟨r, hr, hrid, ⟨side', hside'⟩, -, -⟩ := hwaits.open h
  obtain ⟨t, ht, -, hrt⟩ := GridWorld.mem_slotRows.mp hr
  obtain ⟨rfl, rfl⟩ := h.wellFormed.slot_eq ht hs hrt hrow (hrid.trans hrowId.symm)
  rw [← hid] at hside'
  have hp := h.wellFormed.named_by hs hrow ho' hside'
  refine ⟨fun hrec => absurd (h.known _ hrec) (lt_irrefl _), _, ho, rfl, t, hrows ▸ hs, r.2, hrow,
    hrowId, ⟨hsid.symm, hrowId.symm, hsymbol.trans hp.symbol, rfl⟩⟩

/-- No replacement was sent for an order that is looked up: its handler would be between
look-up and commit too. -/
theorem found_unsent {s : Sessions.State GridStore GridTask} {i : Nat} (h : FillSound s)
    {event : GridOrderFillEvent} {outcome : GridPlaceOutcome} {session : Nat} {slot : GridSlotRecord}
    (hi : s.sessions[i]? = some (.found event outcome session slot)) : event.orderId ∉ s.store.sent := by
  obtain ⟨-, hwaits, -⟩ := h.holds.own i _ hi
  obtain ⟨-, -, -, -, -, hnot⟩ := hwaits.open h.holds.store
  intro hsent
  obtain hadv | ⟨d, hd, hrep⟩ := h.sent _ hsent
  · exact hnot hadv
  · obtain ⟨j, hj⟩ := List.getElem?_of_mem hd
    have hne : i ≠ j := by
      rintro rfl
      obtain rfl := Option.some.inj (hi.symm.trans hj)
      cases hrep
    refine (h.holds.apart i j _ d hi hj hne).holds event.orderId rfl ?_
    cases d with
    | replaced => exact hrep
    | _ => cases hrep

/-- A replacement was tried: the exchange has the orders `new`, and `sent` are the orders that
are answered. -/
def GridStore.tried (new : List GridOrder) (sent : List GridOrderId) (st : GridStore) : GridStore :=
  { st with
    world := { st.world with
      orders := st.world.orders ++ new
      issued := st.world.issued + 1 }
    sent := sent }

theorem GridStore.Sound.tried {st : GridStore} (hstore : st.Sound) {new : List GridOrder}
    {sent : List GridOrderId} {x : GridOrderId} (hnew : ∀ o ∈ new, o.id = st.world.issued)
    (hone : new.length ≤ 1) (hunsent : x ∉ st.sent)
    (hsent : sent = st.sent ∨ sent = st.sent ++ [x]) : (st.tried new sent).Sound := by
  have hevolves := placed_evolves st.world hnew hone
  have hsound := hstore.rows (hstore.wellFormed.evolves hevolves) hevolves.issued
    (fun row hrow => .inl hrow) fun row hrow => hrow
  obtain rfl | rfl := hsent
  · exact hsound
  · refine ⟨hsound.wellFormed, hsound.known, hsound.named, hsound.waiting, hsound.one,
      hsound.advanced, ?_, fun y hy => List.mem_append_left _ (hsound.answered y hy), hsound.moved⟩
    exact List.nodup_append.mpr ⟨hstore.sent, List.nodup_singleton _, fun y hy z hz heq =>
      hunsent (List.mem_singleton.mp hz ▸ heq ▸ hy)⟩

theorem piece_tried {s : Sessions.State GridStore GridTask} {i : Nat} (h : FillSound s)
    {event : GridOrderFillEvent} {outcome : GridPlaceOutcome} {session : Nat} {slot : GridSlotRecord}
    (hi : s.sessions[i]? = some (.found event outcome session slot)) {new : List GridOrder}
    {sent : List GridOrderId} {c' : GridTask} (hnew : ∀ o ∈ new, o.id = s.store.world.issued)
    (hone : new.length ≤ 1)
    (hsent : sent = s.store.sent ∨ sent = s.store.sent ++ [event.orderId] ∧
      c'.hasReplaced = some event.orderId)
    (hown : c'.Sound (s.store.tried new sent)) (hflying : ∀ x ∈ c'.flying, s.store.world.issued ≤ x)
    (hholds : ∀ x, c'.holds = some x → event.orderId = x) (hfill : c'.fillOf = some event.orderId)
    (hfinished : c'.isFinished = true →
      ∃ d ∈ s.sessions, d.fillOf = some event.orderId ∧ d.isUnread = true) :
    GridPiece s (.found event outcome session slot) (s.store.tried new sent) c' := by
  refine
    { store := h.holds.store.tried hnew hone (found_unsent h hi) (hsent.imp_right And.left)
      own := hown
      extend := (placed_evolves s.store.world hnew hone).extends
      recorded := fun _ hx => .inl hx
      sent := ?_
      advanced := fun _ hx => hx
      rows := fun _ _ _ hwaits => hwaits.rows fun row hrow => hrow
      flying := fun x hx => .inr (hflying x hx)
      held := fun x hx => .inl (congrArg some (hholds x hx))
      follows := fun x hx => hfill.trans hx
      finished := ?_
      answers := ?_
      leaves := fun x hx => by cases hx }
  · intro x hx
    obtain rfl | ⟨rfl, -⟩ := hsent
    · exact hx
    · exact List.mem_append_left _ hx
  · intro x _ _ hxfill hfin
    obtain rfl := Option.some.inj (hfill.symm.trans hxfill)
    exact ⟨rfl, hfinished hfin⟩
  · intro x hx
    obtain rfl | ⟨rfl, hrep⟩ := hsent
    · exact .inl hx
    · obtain hx | hx := List.mem_append.mp hx
      · exact .inl hx
      · obtain rfl := List.mem_singleton.mp hx
        exact .inr hrep

theorem piece_found {s : Sessions.State GridStore GridTask} {i : Nat} (h : FillSound s)
    {event : GridOrderFillEvent} {outcome : GridPlaceOutcome} {session : Nat} {slot : GridSlotRecord}
    (hi : s.sessions[i]? = some (.found event outcome session slot))
    (hclear : (GridTask.found event outcome session slot).Clear s) :
    GridPiece s (.found event outcome session slot)
      (GridTask.next (.found event outcome session slot) s.store).1
      (GridTask.next (.found event outcome session slot) s.store).2 := by
  have hstore := h.holds.store
  obtain ⟨hevent, hwaits, hslot⟩ := h.holds.own i _ hi
  obtain ⟨o, ho, hid, hside, hsymbol⟩ := id hevent
  simp only [GridTask.next, hside]
  rw [placeReplacement_eq]
  obtain ⟨hout, hrun⟩ | ⟨hout, e, hrun⟩ := placeLimit_cases ⟨session, slot.id⟩ event.symbol
    o.side.opposite (slot.priceOn o.side.opposite) (slot.units.getD 0) outcome s.store.world
  · rw [hrun]
    subst hout
    refine piece_tried h hi (by simp [limitOrder]) (by simp) (.inr ⟨rfl, rfl⟩) ?_ ?_ ?_ rfl ?_
    · refine ⟨hwaits.rows fun row hrow => hrow, ?_, List.mem_append_right _ List.mem_cons_self⟩
      exact replacement_flies hstore hevent hwaits hslot rfl (List.mem_append_right _ List.mem_cons_self)
    · intro x hx
      obtain rfl := List.mem_singleton.mp hx
      exact le_refl _
    · intro x hx
      exact Option.some.inj hx
    · intro hfin
      cases hfin
  · rw [hrun]
    obtain haccepted | ⟨rfl, hother⟩ := hclear
    · exact absurd haccepted hout
    · obtain ⟨-, -, -, -, hrecorded, -⟩ := hwaits.open hstore
      have hdrawn : event.orderId < s.store.world.issued + 1 :=
        Nat.lt_succ_of_lt (hstore.known _ hrecorded)
      exact piece_tried h hi (by simp [GridPlaceOutcome.reached]) (by simp [GridPlaceOutcome.reached])
        (.inl rfl) hdrawn (fun x hx => by cases hx) (fun x hx => by cases hx) rfl fun _ => hother

end AmaExecutionCore
