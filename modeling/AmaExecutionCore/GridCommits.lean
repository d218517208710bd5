import AmaExecutionCore.GridPieces

/-! The commits of starts and fill handlers, and the runs in which no fill is lost. -/
namespace AmaExecutionCore
open GridRunner

theorem overwrite_orderOn (loaded new row : GridSlotRecord) (side : ExchangeSide) :
    (loaded.overwrite new row).orderOn side =
      written (loaded.orderOn side) (new.orderOn side) (row.orderOn side) := by
  cases side <;> rfl

theorem SlotWrites.apply_cases (writes : SlotWrites) (row : GridSlotRecord) :
    (∃ p ∈ writes, p.1.id = row.id ∧ writes.apply row = p.1.overwrite p.2 row) ∨
      writes.apply row = row := by
  unfold SlotWrites.apply
  cases hfind : writes.find? fun p => p.1.id = row.id with
  | none => exact .inr rfl
  | some p => exact .inl ⟨p, List.mem_of_find?_eq_some hfind, by simpa using List.find?_some hfind, rfl⟩

theorem SlotWrites.apply_id (writes : SlotWrites) (row : GridSlotRecord) :
    (writes.apply row).id = row.id := by
  obtain ⟨p, -, -, heq⟩ | heq := writes.apply_cases row <;> rw [heq]
  rfl

theorem slotRows_commitSlots (writes : SlotWrites) (w : GridWorld) :
    (w.commitSlots writes).slotRows = w.slotRows.map fun row => (row.1, writes.apply row.2) := by
  simp only [GridWorld.slotRows, GridWorld.commitSlots, List.flatMap_map, List.map_flatMap, List.map_map]
  rfl

theorem slotRows_commitStart (s : GridSession) (writes : SlotWrites) (st : GridStore) :
    (st.commitStart s writes).world.slotRows =
      st.world.slotRows.map fun row => (row.1, writes.apply row.2) := by
  rw [← slotRows_commitSlots]
  simp only [GridWorld.slotRows, GridStore.commitStart, List.flatMap_map]
  congr 1
  funext t
  split_ifs <;> rfl

theorem SlotWrites.apply_evolves {writes : SlotWrites} {orders : List GridOrder} {s : GridSession}
    {row : GridSlotRecord}
    (h : ∀ p ∈ writes, p.1.id = row.id → ∀ side x, p.2.orderOn side ≠ p.1.orderOn side →
      p.2.orderOn side = some x → ∃ o ∈ orders, o.id = x ∧ o.PlacedFor s row side) :
    SlotEvolves orders s row (writes.apply row) := by
  obtain ⟨p, hp, hid, heq⟩ | heq := writes.apply_cases row
  · rw [heq]
    refine ⟨rfl, rfl, rfl, fun side x hx => ?_⟩
    rw [overwrite_orderOn] at hx
    by_cases hsame : p.2.orderOn side = p.1.orderOn side
    · rw [hsame, written_same] at hx
      exact .inl hx
    · rw [written, if_neg hsame] at hx
      exact .inr (h p hp hid side x hsame hx)
  · rw [heq]
    exact .refl _ _ _

theorem SessionEvolves.of_writes {writes : SlotWrites} {orders : List GridOrder} {s : GridSession}
    (h : ∀ row ∈ s.slots, SlotEvolves orders s row (writes.apply row)) (status : GridSessionStatus) :
    SessionEvolves orders s { s with slots := s.slots.map writes.apply, status := status } where
  id := rfl
  symbol := rfl
  config := rfl
  slots := by
    rw [List.forall₂_map_right_iff, List.forall₂_same]
    exact h

theorem commitStart_evolves {st : GridStore} (s : GridSession) {writes : SlotWrites}
    (h : ∀ t ∈ st.world.sessions, ∀ row ∈ t.slots, SlotEvolves st.world.orders t row (writes.apply row)) :
    st.world.Evolves (st.commitStart s writes).world := by
  refine GridWorld.evolves_of id .refl [] ?_ (le_refl _) (by simp) (by simp) ?_
  · simp [GridStore.commitStart, GridWorld.commitSlots]
  · simp only [GridStore.commitStart, GridWorld.commitSlots, List.map_map, List.forall₂_map_right_iff,
      List.forall₂_same, Function.comp]
    intro t ht
    split_ifs
    · exact .of_writes (h t ht) _
    · exact .of_writes (h t ht) t.status

theorem commitSlots_evolves {w : GridWorld} {writes : SlotWrites}
    (h : ∀ t ∈ w.sessions, ∀ row ∈ t.slots, SlotEvolves w.orders t row (writes.apply row)) :
    w.Evolves (w.commitSlots writes) := by
  refine GridWorld.evolves_of id .refl [] ?_ (le_refl _) (by simp) (by simp) ?_
  · simp [GridWorld.commitSlots]
  · simp only [GridWorld.commitSlots, List.forall₂_map_right_iff, List.forall₂_same]
    exact fun t ht => .of_writes (h t ht) t.status

theorem Flies.placedFor {st : GridStore} (hw : st.world.WellFormed) {slotId : Nat} {side : ExchangeSide}
    {x : GridOrderId} (h : Flies st slotId side x) {t : GridSession} (ht : t ∈ st.world.sessions)
    {row : GridSlotRecord} (hrow : row ∈ t.slots) (hid : slotId = row.id) :
    ∃ o ∈ st.world.orders, o.id = x ∧ o.PlacedFor t row side := by
  obtain ⟨-, o, ho, hoid, s, hs, row', hrow', hrowId, hp⟩ := h
  obtain ⟨rfl, rfl⟩ := hw.slot_eq hs ht hrow' hrow (hrowId.trans hid)
  exact ⟨o, ho, hoid, hp⟩

/-- A start's commit leaves the ids of a row, or writes the id of a buy order to a row that
names none. -/
theorem start_row {st : GridStore} {s : GridSession} {done : SlotWrites}
    (hown : PlacingSound st s done []) (hfree : RowsFree done st.world) {row : Nat × GridSlotRecord}
    (hrow : row ∈ st.world.slotRows) :
    ((done.apply row.2).buyOrderId = row.2.buyOrderId ∧
        (done.apply row.2).sellOrderId = row.2.sellOrderId) ∨
      (row.2.buyOrderId = none ∧ row.2.sellOrderId = none ∧
        ∃ x ∈ done.newIds, (done.apply row.2).buyOrderId = some x ∧
          (done.apply row.2).sellOrderId = none) := by
  obtain ⟨p, hp, hid, heq⟩ | heq := done.apply_cases row.2
  · obtain ⟨hsell, hbuy⟩ := hown.written p hp
    have hsellRow : (done.apply row.2).sellOrderId = row.2.sellOrderId := by
      rw [heq]
      exact (congrArg (written _ · _) hsell).trans (written_same _ _)
    by_cases hsame : p.2.buyOrderId = p.1.buyOrderId
    · refine .inl ⟨?_, hsellRow⟩
      rw [heq]
      exact (congrArg (written _ · _) hsame).trans (written_same _ _)
    · obtain hbuy | ⟨x, hx, -⟩ := hbuy
      · exact absurd hbuy hsame
      · obtain ⟨hnoBuy, hnoSell⟩ := hfree p hp hsame row hrow hid.symm
        refine .inr ⟨hnoBuy, hnoSell, x, SlotWrites.mem_newIds.mpr ⟨p, hp, hsame, hx⟩, ?_,
          hsellRow.trans hnoSell⟩
        rw [heq]
        exact (if_neg hsame).trans hx
  · exact .inl (by rw [heq]; exact ⟨rfl, rfl⟩)

theorem start_records {st : GridStore} {s : GridSession} {done : SlotWrites}
    (hown : PlacingSound st s done []) {x : GridOrderId} (hx : x ∈ done.newIds) :
    ∃ row ∈ st.world.slotRows, (done.apply row.2).buyOrderId = some x := by
  obtain ⟨p, hp, hne, hbuy⟩ := SlotWrites.mem_newIds.mp hx
  obtain ⟨t, ht, -, -, hslots⟩ := hown.rows
  obtain ⟨row, hrow, hid⟩ := hslots p.1 (List.mem_append_left _ (List.mem_map_of_mem hp))
  refine ⟨(t.id, row), GridWorld.mem_slotRows.mpr ⟨t, ht, rfl, hrow⟩, ?_⟩
  have hnodup : (done.map fun q => q.1.id).Nodup := by
    have hids := hown.nodup
    rw [List.append_nil, List.map_map] at hids
    exact hids
  have hfind : done.find? (fun q => q.1.id = row.id) = some p := by
    cases hq : done.find? fun q => q.1.id = row.id with
    | none => exact absurd hid.symm (by simpa using List.find?_eq_none.mp hq p hp)
    | some q =>
      have hqid : q.1.id = row.id := by simpa using List.find?_some hq
      rw [GridWorld.eq_of_key hnodup (List.mem_of_find?_eq_some hq) hp (hqid.trans hid)]
  show (done.apply row).buyOrderId = some x
  rw [SlotWrites.apply, hfind]
  exact (if_neg hne).trans hbuy

theorem startCommit_evolves {st : GridStore} {s : GridSession} {done : SlotWrites} (hstore : st.Sound)
    (hown : PlacingSound st s done []) : st.world.Evolves (st.commitStart s done).world := by
  refine commitStart_evolves s fun r hr row hrow => SlotWrites.apply_evolves ?_
  intro p hp hid side x hne hx
  obtain ⟨hsell, hbuy⟩ := hown.written p hp
  cases side with
  | buy =>
    obtain hbuy | ⟨y, hy, hflies⟩ := hbuy
    · exact absurd hbuy hne
    · obtain rfl := Option.some.inj (hy.symm.trans hx)
      exact hflies.placedFor hstore.wellFormed hr hrow hid
  | sell => exact absurd hsell hne

theorem start_names {st : GridStore} {s : GridSession} {done : SlotWrites}
    (hown : PlacingSound st s done []) (hfree : RowsFree done st.world) {row : Nat × GridSlotRecord}
    (hrow : row ∈ st.world.slotRows) {x : GridOrderId} (hx : (done.apply row.2).Names x) :
    row.2.Names x ∨ x ∈ done.newIds := by
  obtain ⟨hbuy, hsell⟩ | ⟨-, -, y, hy, hbuy, hsell⟩ := start_row hown hfree hrow
  · exact .inl ((names_congr hbuy hsell).mp hx)
  · rw [names_iff, hbuy, hsell] at hx
    obtain hx | hx := hx
    · exact .inr (Option.some.inj hx ▸ hy)
    · cases hx

theorem start_kept {st : GridStore} {s : GridSession} {done : SlotWrites}
    (hown : PlacingSound st s done []) (hfree : RowsFree done st.world) {row : Nat × GridSlotRecord}
    (hrow : row ∈ st.world.slotRows) {x : GridOrderId} (hx : row.2.Names x) :
    (done.apply row.2).buyOrderId = row.2.buyOrderId ∧
      (done.apply row.2).sellOrderId = row.2.sellOrderId := by
  obtain hsame | ⟨hbuy, hsell, -⟩ := start_row hown hfree hrow
  · exact hsame
  · rw [names_iff, hbuy, hsell] at hx
    obtain hx | hx := hx <;> cases hx

theorem mem_commitStart {st : GridStore} (s : GridSession) (done : SlotWrites)
    {row : Nat × GridSlotRecord} (hrow : row ∈ st.world.slotRows) :
    (row.1, done.apply row.2) ∈ (st.commitStart s done).world.slotRows := by
  rw [slotRows_commitStart]
  exact List.mem_map_of_mem hrow

theorem GridStore.Sound.commitStart {st : GridStore} {s : GridSession} {done : SlotWrites}
    (hstore : st.Sound) (hown : PlacingSound st s done []) (hfree : RowsFree done st.world) :
    (st.commitStart s done).Sound := by
  have hflying : ∀ x ∈ done.newIds, x ∉ st.recorded ∧ x < st.world.issued := fun x hx =>
    GridTask.Sound.flying (c := .placing s 0 (fun _ => .accepted) done []) hstore.wellFormed hown hx
  have hback : ∀ row' ∈ (st.commitStart s done).world.slotRows,
      ∃ row ∈ st.world.slotRows, (row.1, done.apply row.2) = row' := by
    intro row' hrow'
    rw [slotRows_commitStart] at hrow'
    exact List.mem_map.mp hrow'
  refine ⟨hstore.wellFormed.evolves (startCommit_evolves hstore hown), ?_, ?_, ?_, ?_, hstore.advanced,
    hstore.sent, hstore.answered, fun x hx => List.mem_append_left _ (hstore.moved x hx)⟩
  · intro x hx
    obtain hx | hx := List.mem_append.mp hx
    · exact hstore.known x hx
    · exact (hflying x hx).2
  · intro row' hrow' x hx
    obtain ⟨row, hrow, rfl⟩ := hback row' hrow'
    obtain hold | hnew := start_names hown hfree hrow hx
    · obtain ⟨hrec, hnot⟩ := hstore.named row hrow x hold
      exact ⟨List.mem_append_left _ hrec, hnot⟩
    · exact ⟨List.mem_append_right _ hnew, fun hadv => (hflying x hnew).1 (hstore.moved x hadv)⟩
  · intro x hx hnot
    obtain hx | hx := List.mem_append.mp hx
    · obtain ⟨row, hrow, hnames⟩ := hstore.waiting x hx hnot
      obtain ⟨hbuy, hsell⟩ := start_kept hown hfree hrow hnames
      exact ⟨_, mem_commitStart s done hrow, (names_congr hbuy hsell).mpr hnames⟩
    · obtain ⟨row, hrow, hbuy⟩ := start_records hown hx
      exact ⟨_, mem_commitStart s done hrow, names_iff.mpr (.inl hbuy)⟩
  · intro row' hrow'
    obtain ⟨row, hrow, rfl⟩ := hback row' hrow'
    obtain ⟨hbuy, hsell⟩ | ⟨-, -, -, -, -, hsell⟩ := start_row hown hfree hrow
    · rw [hbuy, hsell]
      exact hstore.one row hrow
    · exact .inr hsell

theorem Waits.commitStart {st : GridStore} {s : GridSession} {done : SlotWrites}
    (hown : PlacingSound st s done []) (hfree : RowsFree done st.world) {x : GridOrderId}
    {slot : GridSlotRecord} (hwaits : Waits st.world x slot) :
    Waits (st.commitStart s done).world x slot := by
  obtain ⟨hslot, row, hrow, hid, hbuy, hsell⟩ := hwaits
  obtain ⟨hbuy', hsell'⟩ := start_kept hown hfree hrow ((names_congr hbuy hsell).mpr hslot)
  exact ⟨hslot, _, mem_commitStart s done hrow, (done.apply_id row.2).trans hid, hbuy'.trans hbuy,
    hsell'.trans hsell⟩

theorem piece_startCommit {s : Sessions.State GridStore GridTask} (h : FillSound s) {t : GridSession}
    {price : Rat} {place : Nat → GridPlaceOutcome} {done : SlotWrites}
    (hown : PlacingSound s.store t done [])
    (hclear : (GridTask.placing t price place done []).Clear s) :
    GridPiece s (.placing t price place done []) (GridTask.next (.placing t price place done []) s.store).1
      (GridTask.next (.placing t price place done []) s.store).2 where
  store := h.holds.store.commitStart hown hclear.1
  own := trivial
  extend := (startCommit_evolves h.holds.store hown).extends
  recorded := by
    intro x hx
    obtain hx | hx := List.mem_append.mp hx
    · exact .inl hx
    · exact .inr ⟨hx, hclear.2 x hx⟩
  sent := fun _ hx => hx
  advanced := fun _ hx => hx
  rows := fun _ _ _ hwaits => hwaits.commitStart hown hclear.1
  flying := fun x hx => by cases hx
  held := fun x hx => by cases hx
  follows := fun x hx => by cases hx
  finished := fun x _ _ hx => by cases hx
  answers := fun _ hx => .inl hx
  leaves := fun x hx => by cases hx

theorem GridStore.Sound.one_name {st : GridStore} (h : st.Sound) {row : Nat × GridSlotRecord}
    (hrow : row ∈ st.world.slotRows) {x y : GridOrderId} (hx : row.2.Names x) (hy : row.2.Names y) :
    x = y := by
  rw [names_iff] at hx hy
  obtain hnone | hnone := h.one row hrow
  · rw [hnone] at hx hy
    obtain hx | hx := hx
    · cases hx
    · obtain hy | hy := hy
      · cases hy
      · exact Option.some.inj (hx.symm.trans hy)
  · rw [hnone] at hx hy
    obtain hx | hx := hx
    · obtain hy | hy := hy
      · exact Option.some.inj (hx.symm.trans hy)
      · cases hy
    · cases hx

/-- A handler's commit moves the one row that names its order to the replacement. -/
theorem fill_row {st : GridStore} (hstore : st.Sound) {x : GridOrderId} (y : GridOrderId)
    (side : ExchangeSide) {slot : GridSlotRecord} (hwaits : Waits st.world x slot) {row : Nat × GridSlotRecord}
    (hrow : row ∈ st.world.slotRows) :
    (¬ row.2.Names x ∧ SlotWrites.apply [(slot, advanceSlot side y slot)] row.2 = row.2) ∨
      (row.2.Names x ∧ (∀ z, row.2.Names z → z = x) ∧
        ∀ side', (SlotWrites.apply [(slot, advanceSlot side y slot)] row.2).orderOn side' =
          if side' = side.opposite then some y else none) := by
  obtain ⟨hslot, r, hr, hid, hbuy, hsell⟩ := hwaits
  have hnames : r.2.Names x := (names_congr hbuy hsell).mpr hslot
  by_cases hsame : row.2.id = slot.id
  · obtain rfl := GridWorld.eq_of_key hstore.wellFormed.slotIds hrow hr (hsame.trans hid.symm)
    refine .inr ⟨hnames, fun z hz => hstore.one_name hrow hz hnames, fun side' => ?_⟩
    · have hloaded : row.2.orderOn side' = slot.orderOn side' := by
        cases side'
        · exact hbuy
        · exact hsell
      have happly : SlotWrites.apply [(slot, advanceSlot side y slot)] row.2 =
          slot.overwrite (advanceSlot side y slot) row.2 := by
        simp [SlotWrites.apply, hsame]
      rw [happly, overwrite_orderOn, hloaded, written_self, advanceSlot_orderOn]
  · refine .inl ⟨fun hx => hsame ?_, SlotWrites.apply_of_not_mem ?_⟩
    · obtain ⟨s, hs, -, hmem⟩ := GridWorld.mem_slotRows.mp hrow
      obtain ⟨t, ht, -, hmem'⟩ := GridWorld.mem_slotRows.mp hr
      rw [(hstore.wellFormed.slot_eq_of_names hs ht hmem hmem' hx hnames).2, hid]
    · intro p hp
      obtain rfl := List.mem_singleton.mp hp
      exact Ne.symm hsame

theorem fillCommit_evolves {st : GridStore} {x y : GridOrderId} {side : ExchangeSide}
    {slot : GridSlotRecord} (hstore : st.Sound) (hflies : Flies st slot.id side.opposite y) :
    st.world.Evolves (st.commitFill x side slot y).world := by
  refine commitSlots_evolves fun r hr row hrow => SlotWrites.apply_evolves ?_
  intro p hp hid side' z hne hz
  obtain rfl := List.mem_singleton.mp hp
  dsimp only at hid hne hz
  rw [advanceSlot_orderOn] at hz
  split_ifs at hz with hside
  obtain rfl := Option.some.inj hz
  subst hside
  exact hflies.placedFor hstore.wellFormed hr hrow hid

theorem moved_names {row : GridSlotRecord} {y z : GridOrderId} {side : ExchangeSide}
    (hon : ∀ side', row.orderOn side' = if side' = side.opposite then some y else none) :
    row.Names z ↔ z = y := by
  constructor
  · rintro ⟨side', hz⟩
    rw [hon] at hz
    split_ifs at hz
    exact (Option.some.inj hz).symm
  · rintro rfl
    exact ⟨side.opposite, by rw [hon, if_pos rfl]⟩

theorem mem_commitFill {st : GridStore} (x : GridOrderId) (side : ExchangeSide) (slot : GridSlotRecord)
    (y : GridOrderId) {row : Nat × GridSlotRecord} (hrow : row ∈ st.world.slotRows) :
    (row.1, SlotWrites.apply [(slot, advanceSlot side y slot)] row.2) ∈
      (st.commitFill x side slot y).world.slotRows := by
  simp only [GridStore.commitFill, slotRows_commitSlots]
  exact List.mem_map.mpr ⟨row, hrow, rfl⟩

theorem GridStore.Sound.commitFill {st : GridStore} {x y : GridOrderId} {side : ExchangeSide}
    {slot : GridSlotRecord} (hstore : st.Sound) (hwaits : Waits st.world x slot)
    (hflies : Flies st slot.id side.opposite y) (hsent : x ∈ st.sent) :
    (st.commitFill x side slot y).Sound := by
  have hback : ∀ row' ∈ (st.commitFill x side slot y).world.slotRows, ∃ row ∈ st.world.slotRows,
      (row.1, SlotWrites.apply [(slot, advanceSlot side y slot)] row.2) = row' := by
    intro row' hrow'
    simp only [GridStore.commitFill, slotRows_commitSlots] at hrow'
    exact List.mem_map.mp hrow'
  have hrow := fun row (hr : row ∈ st.world.slotRows) => fill_row hstore y side hwaits hr
  obtain ⟨r, hr, -, hnamed, hrecorded, hnot⟩ := hwaits.open hstore
  have hfresh : y ∉ st.advanced := fun hadv => hflies.1 (hstore.moved y hadv)
  have hyne : y ≠ x := fun heq => hflies.1 (heq ▸ hrecorded)
  refine ⟨hstore.wellFormed.evolves (fillCommit_evolves hstore hflies), ?_, ?_, ?_, ?_, ?_,
    hstore.sent, ?_, ?_⟩
  · intro z hz
    obtain hz | hz := List.mem_append.mp hz
    · exact hstore.known z hz
    · obtain rfl := List.mem_singleton.mp hz
      exact hflies.issued hstore.wellFormed
  · intro row' hrow' z hz
    obtain ⟨row, hmem, rfl⟩ := hback row' hrow'
    obtain ⟨hnotX, hsame⟩ | ⟨-, -, hon⟩ := hrow row hmem
    · rw [hsame] at hz
      obtain ⟨hrec, hnotz⟩ := hstore.named row hmem z hz
      refine ⟨List.mem_append_left _ hrec, fun hadv => ?_⟩
      obtain hadv | hadv := List.mem_append.mp hadv
      · exact hnotz hadv
      · exact hnotX (List.mem_singleton.mp hadv ▸ hz)
    · obtain rfl := (moved_names hon).mp hz
      refine ⟨List.mem_append_right _ List.mem_cons_self, fun hadv => ?_⟩
      obtain hadv | hadv := List.mem_append.mp hadv
      · exact hfresh hadv
      · exact hyne (List.mem_singleton.mp hadv)
  · intro z hz hnotz
    obtain hz | hz := List.mem_append.mp hz
    · obtain ⟨row, hmem, hnames⟩ := hstore.waiting z hz fun hadv => hnotz (List.mem_append_left _ hadv)
      obtain ⟨-, hsame⟩ | ⟨-, honly, -⟩ := hrow row hmem
      · exact ⟨_, mem_commitFill x side slot y hmem, by rw [hsame]; exact hnames⟩
      · exact absurd (List.mem_append_right _ (List.mem_singleton.mpr (honly z hnames))) hnotz
    · obtain rfl := List.mem_singleton.mp hz
      obtain ⟨hnotX, -⟩ | ⟨-, -, hon⟩ := hrow r hr
      · exact absurd hnamed hnotX
      · exact ⟨_, mem_commitFill x side slot z hr, (moved_names hon).mpr rfl⟩
  · intro row' hrow'
    obtain ⟨row, hmem, rfl⟩ := hback row' hrow'
    obtain ⟨-, hsame⟩ | ⟨-, -, hon⟩ := hrow row hmem
    · rw [hsame]
      exact hstore.one row hmem
    · cases side with
      | buy => exact .inl (hon .buy)
      | sell => exact .inr (hon .sell)
  · refine List.nodup_append.mpr ⟨hstore.advanced, List.nodup_singleton _, fun z hz z' hz' heq => ?_⟩
    exact hnot (List.mem_singleton.mp hz' ▸ heq ▸ hz)
  · intro z hz
    obtain hz | hz := List.mem_append.mp hz
    · exact hstore.answered z hz
    · exact List.mem_singleton.mp hz ▸ hsent
  · intro z hz
    obtain hz | hz := List.mem_append.mp hz
    · exact List.mem_append_left _ (hstore.moved z hz)
    · exact List.mem_append_left _ (List.mem_singleton.mp hz ▸ hrecorded)

theorem Waits.commitFill {st : GridStore} {x y z : GridOrderId} {side : ExchangeSide}
    {slot slot' : GridSlotRecord} (h : Waits st.world z slot') (hstore : st.Sound)
    (hwaits : Waits st.world x slot) (hne : z ≠ x) : Waits (st.commitFill x side slot y).world z slot' := by
  obtain ⟨hslot', row, hmem, hid, hbuy, hsell⟩ := h
  obtain ⟨-, hsame⟩ | ⟨-, honly, -⟩ := fill_row hstore y side hwaits hmem
  · refine ⟨hslot', _, mem_commitFill x side slot y hmem, ?_⟩
    rw [hsame]
    exact ⟨hid, hbuy, hsell⟩
  · exact absurd (honly z ((names_congr hbuy hsell).mpr hslot')) hne

theorem piece_replaced {s : Sessions.State GridStore GridTask} (h : FillSound s) {x y : GridOrderId}
    {side : ExchangeSide} {slot : GridSlotRecord}
    (hown : (GridTask.replaced x side slot y).Sound s.store)
    (hclear : (GridTask.replaced x side slot y).Clear s) :
    GridPiece s (.replaced x side slot y) (s.store.commitFill x side slot y) (.finished x) := by
  have hstore := h.holds.store
  obtain ⟨hwaits, hflies, hsent⟩ := hown
  obtain ⟨-, -, -, -, hrecorded, -⟩ := hwaits.open hstore
  refine
    { store := hstore.commitFill hwaits hflies hsent
      own := hstore.known x hrecorded
      extend := (fillCommit_evolves hstore hflies).extends
      recorded := ?_
      sent := fun _ hz => hz
      advanced := fun z hz => List.mem_append_left _ hz
      rows := fun z _ hne hz => hz.commitFill hstore hwaits fun heq => hne (congrArg some heq.symm)
      flying := fun z hz => by cases hz
      held := fun z hz => by cases hz
      follows := fun z hz => hz
      finished := ?_
      answers := fun _ hz => .inl hz
      leaves := ?_ }
  · intro z hz
    obtain hz | hz := List.mem_append.mp hz
    · exact .inl hz
    · obtain rfl := List.mem_singleton.mp hz
      exact .inr ⟨List.mem_cons_self, hclear⟩
  · intro z _ hnotz hfill
    obtain rfl := Option.some.inj hfill
    exact absurd (List.mem_append_right _ List.mem_cons_self) hnotz
  · intro z hz
    obtain rfl := Option.some.inj hz
    exact .inl (List.mem_append_right _ List.mem_cons_self)

/-- A task that has ended stays as it is. -/
theorem step_ended {s : Sessions.State GridStore GridTask} {i : Nat} {c : GridTask}
    (hi : s.sessions[i]? = some c) (hend : c.next s.store = (s.store, c)) :
    Sessions.step gridSystem s (.advance i) = s := by
  obtain ⟨hlt, rfl⟩ := List.getElem?_eq_some_iff.mp hi
  simp only [Sessions.step, hi, gridSystem, hend, List.set_getElem_self]

/-- Every step keeps the fills accounted for, unless two sessions cross. -/
theorem fillSound_step {s : Sessions.State GridStore GridTask} (h : FillSound s)
    (act : Sessions.Act GridCall GridEvent) (hclear : NoneCrossed s act) :
    FillSound (Sessions.step gridSystem s act) := by
  cases act with
  | start call => exact fillSound_start h call
  | event e => exact fillSound_event h e
  | advance i =>
    cases hi : s.sessions[i]? with
    | none =>
      simp only [Sessions.step, hi]
      exact h
    | some c =>
      have hc := hclear c hi
      have hown := h.holds.own i c hi
      cases c with
      | starting id io => exact h.advance hi (piece_starting h id io)
      | placing t price place done pending =>
        cases pending with
        | nil => exact h.advance hi (piece_startCommit h hown hc)
        | cons slot pending => exact h.advance hi (piece_placing h hown)
      | notified orderId outcome => exact h.advance hi (piece_notified h orderId outcome)
      | handling event outcome => exact h.advance hi (piece_handling h hown hc)
      | found event outcome session slot => exact h.advance hi (piece_found h hi hc)
      | replaced x side slot y => exact h.advance hi (piece_replaced h hown hc)
      | finished x =>
        rw [step_ended hi rfl]
        exact h
      | ended =>
        rw [step_ended hi rfl]
        exact h

/-- In every run in which no two sessions cross, each fill is acted on once. Alone, a session does
what its function does (`GridCall.alone`). -/
theorem fillsHandled_run (acts : List (Sessions.Act GridCall GridEvent))
    (h : Runs.Meets (Sessions.step gridSystem) NoneCrossed ⟨{}, []⟩ acts) :
    Runs.Always (Sessions.step gridSystem) FillsHandled ⟨{}, []⟩ acts :=
  Runs.always_of_invariant fillSound_init (fun _ act hs hclear => fillSound_step hs act hclear)
    (fun _ hs => hs.handled) h

/-- A session is created, its start runs up to the commit, and the exchange fills the order. -/
def startedAndFilled (pieces : Nat) : List (Sessions.Act GridCall GridEvent) :=
  .event (.created demoGridRequest) :: .start (.start 0 (demoGridStart 2)) ::
    (List.replicate pieces (.advance 0) ++ [.event (.filled 2)])

/-- The fill is delivered twice, the second time after the first was handled. -/
theorem fillsHandled_serial : Runs.Always (Sessions.step gridSystem) FillsHandled ⟨{}, []⟩
    (startedAndFilled 3 ++ .start (.message 2 .accepted) :: List.replicate 4 (.advance 1) ++
      .start (.message 2 .accepted) :: List.replicate 2 (.advance 2)) :=
  fillsHandled_run _ (by decide +kernel)

/-- The fill is delivered before the id of its order is committed: the handler finds no slot,
and nothing handles the fill afterwards. -/
theorem fillsHandled_fails : ¬ Runs.Always (Sessions.step gridSystem) FillsHandled ⟨{}, []⟩
    (startedAndFilled 2 ++ .start (.message 2 .accepted) :: List.replicate 2 (.advance 1) ++
      [.advance 0]) := by
  decide +kernel

/-- Two deliveries both look the slot up before either commits: two replacements are sent. -/
example : ¬ Runs.Always (Sessions.step gridSystem) FillsHandled ⟨{}, []⟩
    (startedAndFilled 3 ++ [.start (.message 2 .accepted), .start (.message 2 .accepted)] ++
      List.replicate 2 (.advance 1) ++ List.replicate 3 (.advance 2) ++ [.advance 1]) := by
  decide +kernel

end AmaExecutionCore
