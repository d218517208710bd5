import AmaExecutionCore.GridRuns

/-! A start that raises rolls the rows back and leaves the orders: every order it got accepted
is lost to its slot, so a start is all or recorded only when the call that raises is the
first one and does not reach the exchange. -/
namespace AmaExecutionCore
open GridRunner

def startAgain (id : Nat) (w : GridWorld) (io : GridStartIo) : GridWorld := (start id io w).2

def startRaises (id : Nat) (w : GridWorld) (io : GridStartIo) : Bool :=
  match (start id io w).1 with
  | .ok _ => false
  | .error _ => true

def RecordedBuy (id : Nat) (w : GridWorld) (o : GridOrder) : Prop :=
  ∃ s ∈ w.sessions, s.id = id ∧ ∃ slot ∈ s.slots, slot.id = o.slot ∧ slot.buyOrderId = some o.id

instance (id : Nat) (w : GridWorld) (o : GridOrder) : Decidable (RecordedBuy id w o) :=
  inferInstanceAs (Decidable (∃ s ∈ w.sessions, _))

/-- When the start raises, each order it got accepted and that is live is recorded. -/
def StartRecorded (id : Nat) (w : GridWorld) (io : GridStartIo) : Prop :=
  startRaises id w io = true → ∀ o ∈ (startAgain id w io).orders.drop w.orders.length,
    o.isLive = true → RecordedBuy id (startAgain id w io) o

instance (id : Nat) (w : GridWorld) (io : GridStartIo) : Decidable (StartRecorded id w io) :=
  inferInstanceAs (Decidable (_ → _))

def GridOrder.isLiveBuy (id : Nat) (o : GridOrder) : Bool := o.session = id && o.side = .buy && o.isLive

/-- The live buy orders of the session are recorded, as they are for a new session. -/
def BuysRecorded (id : Nat) (w : GridWorld) : Prop :=
  ∀ o ∈ w.orders, o.isLiveBuy id = true → RecordedBuy id w o

instance (id : Nat) (w : GridWorld) : Decidable (BuysRecorded id w) :=
  inferInstanceAs (Decidable (∀ o ∈ w.orders, _))

/-- Two live buy orders of one slot of the session are the same order. -/
def OneBuyPerSlot (id : Nat) (w : GridWorld) : Prop :=
  ∀ o ∈ w.orders, ∀ o' ∈ w.orders, o.isLiveBuy id = true → o'.isLiveBuy id = true →
    o.slot = o'.slot → o.id = o'.id

instance (id : Nat) (w : GridWorld) : Decidable (OneBuyPerSlot id w) :=
  inferInstanceAs (Decidable (∀ o ∈ w.orders, _))

/-- Each of the starts is all or recorded, and afterwards a slot has one live buy order. -/
def AllOrRecorded (id : Nat) (w : GridWorld) (ios : List GridStartIo) : Prop :=
  Runs.Meets (startAgain id) (StartRecorded id) w ios ∧
    (BuysRecorded id w → OneBuyPerSlot id (Runs.run (startAgain id) w ios))

instance (id : Nat) (w : GridWorld) (ios : List GridStartIo) : Decidable (AllOrRecorded id w ios) :=
  inferInstanceAs (Decidable (_ ∧ _))

/-- Every call for a slot that is due is accepted, or the first of them raises without having
reached the exchange. -/
def StartsClean (id : Nat) (w : GridWorld) (io : GridStartIo) : Prop :=
  match w.loadSession id, io.price with
  | some s, .ok price =>
    s.status ≠ .active →
      (∀ slot ∈ s.slots, isDue price slot = true → io.place slot.id = .accepted) ∨
        ∃ slot ∈ (s.slots.filter (isDue price)).head?, io.place slot.id = .raised false
  | _, _ => True

/-! The loop of a start, by its calls -/

theorem startSlot_notDue (s : GridSession) (w : GridWorld) (outcome : GridPlaceOutcome) {price : Rat}
    {slot : GridSlotRecord} (h : isDue price slot = false) :
    ∃ slot', startSlot s price outcome slot w = (.ok slot', w) := by
  unfold startSlot
  dsimp only
  by_cases habove : price ≤ slot.buyPrice
  · rw [if_pos habove]
    exact ⟨_, rfl⟩
  · rw [if_neg habove, if_neg]
    · exact ⟨_, rfl⟩
    · intro hwait
      rw [isDue_iff.mpr ⟨habove, hwait⟩] at h
      cases h

theorem startSlot_due (s : GridSession) (w : GridWorld) (outcome : GridPlaceOutcome) {price : Rat}
    {slot : GridSlotRecord} (h : isDue price slot = true) :
    (outcome = .accepted ∧ startSlot s price outcome slot w =
      (.ok { slot with units := some (slotUnits s.config slot), buyOrderId := some w.issued },
        { w with
          orders := w.orders ++ [limitOrder ⟨s.id, slot.id⟩ s.symbol .buy slot.buyPrice
            (slotUnits s.config slot) w.issued]
          issued := w.issued + 1 })) ∨
    (outcome ≠ .accepted ∧ ∃ e, startSlot s price outcome slot w =
      (.error e, { w with
        orders := w.orders ++ if outcome.reached then
          [limitOrder ⟨s.id, slot.id⟩ s.symbol .buy slot.buyPrice (slotUnits s.config slot)
            w.issued] else []
        issued := w.issued + 1 })) := by
  obtain ⟨hbelow, hwait⟩ := isDue_iff.mp h
  unfold startSlot
  dsimp only
  rw [if_neg hbelow, if_pos hwait]
  obtain ⟨hout, hrun⟩ | ⟨hout, e, hrun⟩ := placeLimit_cases ⟨s.id, slot.id⟩ s.symbol .buy
    slot.buyPrice (slotUnits s.config slot) outcome w
  · rw [hrun]
    exact .inl ⟨hout, rfl⟩
  · rw [hrun]
    exact .inr ⟨hout, e, rfl⟩

theorem startSlots_ok_cons {s : GridSession} {price : Rat} {place : Nat → GridPlaceOutcome}
    {slot slot' : GridSlotRecord} {slots : List GridSlotRecord} {w w' : GridWorld}
    (h : startSlot s price (place slot.id) slot w = (.ok slot', w')) :
    startSlots s price place (slot :: slots) w =
      ((startSlots s price place slots w').1.map (slot' :: ·), (startSlots s price place slots w').2) := by
  rw [startSlots, h]
  dsimp only
  cases startSlots s price place slots w' with
  | mk result w'' => cases result <;> rfl

theorem startSlots_error_cons {s : GridSession} {price : Rat} {place : Nat → GridPlaceOutcome}
    {slot : GridSlotRecord} {slots : List GridSlotRecord} {w w' : GridWorld} {e : GridError}
    (h : startSlot s price (place slot.id) slot w = (.error e, w')) :
    startSlots s price place (slot :: slots) w = (.error e, w') := by
  rw [startSlots, h]

/-- A loop that raises left no order exactly when its first call did not reach the exchange. -/
theorem startSlots_clean {s : GridSession} {price : Rat} {place : Nat → GridPlaceOutcome}
    {slots : List GridSlotRecord} {w : GridWorld}
    (hraised : ¬ ∀ slot ∈ slots, isDue price slot = true → place slot.id = .accepted) :
    (startSlots s price place slots w).2.orders = w.orders ↔
      ∃ slot ∈ (slots.filter (isDue price)).head?, place slot.id = .raised false := by
  induction slots generalizing w with
  | nil => exact absurd (by simp) hraised
  | cons slot slots ih =>
    by_cases hdue : isDue price slot = true
    · rw [List.filter_cons_of_pos hdue]
      have hhead : (∃ first ∈ (slot :: slots.filter (isDue price)).head?, place first.id = .raised false) ↔
          place slot.id = .raised false := by simp
      rw [hhead]
      obtain ⟨hout, hrun⟩ | ⟨hout, e, hrun⟩ := startSlot_due s w (place slot.id) hdue
      · -- the accepted order stays, whatever the later calls do
        rw [startSlots_ok_cons hrun]
        obtain ⟨new, hplaced, -⟩ := startSlots_spec s price place slots _
        rw [hplaced.orders, hout]
        simp
      · rw [startSlots_error_cons hrun]
        cases hplace : place slot.id with
        | accepted => exact absurd hplace hout
        | missingOrderId => simp [GridPlaceOutcome.reached]
        | raised reached => cases reached <;> simp [GridPlaceOutcome.reached]
    · rw [List.filter_cons_of_neg hdue]
      obtain ⟨slot', hrun⟩ := startSlot_notDue s w (place slot.id)
        (Bool.eq_false_iff.mpr hdue)
      rw [startSlots_ok_cons hrun]
      refine ih fun hall => hraised ?_
      rw [List.forall_mem_cons]
      exact ⟨fun h => absurd h hdue, hall⟩

theorem startSlot_recorded {s : GridSession} {price : Rat} {outcome : GridPlaceOutcome}
    {slot slot' : GridSlotRecord} {w w' : GridWorld}
    (h : startSlot s price outcome slot w = (.ok slot', w')) {o : GridOrder} (ho : o ∈ w'.orders) :
    o ∈ w.orders ∨ slot'.id = o.slot ∧ slot'.buyOrderId = some o.id := by
  by_cases hdue : isDue price slot = true
  · obtain ⟨-, hrun⟩ | ⟨-, e, hrun⟩ := startSlot_due s w outcome hdue
    · obtain ⟨hslot, rfl⟩ := Prod.mk.inj (h.symm.trans hrun)
      obtain rfl := Except.ok.inj hslot
      obtain ho | ho := List.mem_append.mp ho
      · exact .inl ho
      · obtain rfl := List.mem_singleton.mp ho
        exact .inr ⟨rfl, rfl⟩
    · cases h.symm.trans hrun
  · obtain ⟨_, hrun⟩ := startSlot_notDue s w outcome
      (Bool.eq_false_iff.mpr hdue)
    obtain ⟨-, rfl⟩ := Prod.mk.inj (h.symm.trans hrun)
    exact .inl ho

theorem startSlots_recorded {s : GridSession} {price : Rat} {place : Nat → GridPlaceOutcome}
    {slots slots' : List GridSlotRecord} {w w' : GridWorld}
    (h : startSlots s price place slots w = (.ok slots', w')) {o : GridOrder} (ho : o ∈ w'.orders) :
    o ∈ w.orders ∨ ∃ slot ∈ slots', slot.id = o.slot ∧ slot.buyOrderId = some o.id := by
  induction slots generalizing w slots' with
  | nil =>
    obtain ⟨-, rfl⟩ := Prod.mk.inj h
    exact .inl ho
  | cons slot slots ih =>
    cases hrun : startSlot s price (place slot.id) slot w with
    | mk result w₁ =>
      cases result with
      | error e =>
        rw [startSlots_error_cons hrun] at h
        cases h
      | ok slot' =>
        rw [startSlots_ok_cons hrun] at h
        cases hrest : startSlots s price place slots w₁ with
        | mk result' w₂ =>
          rw [hrest] at h
          cases result' with
          | error e => cases h
          | ok rest =>
            obtain ⟨hslots, rfl⟩ := Prod.mk.inj h
            obtain rfl := Except.ok.inj hslots
            obtain ho | ⟨r, hr, hnames⟩ := ih hrest
            · obtain ho | hnames := startSlot_recorded hrun ho
              · exact .inl ho
              · exact .inr ⟨slot', List.mem_cons_self, hnames⟩
            · exact .inr ⟨r, List.mem_cons_of_mem _ hr, hnames⟩

/-! One start -/

/-- A start that raises leaves the rows, and at least the orders there were. -/
theorem start_cases (id : Nat) (w : GridWorld) (io : GridStartIo) :
    (startAgain id w io = w ∧ StartsClean id w io) ∨
    ∃ s price, w.loadSession id = some s ∧ s.status ≠ .active ∧ io.price = .ok price ∧
      ((startRaises id w io = true ∧
        (¬ ∀ slot ∈ s.slots, isDue price slot = true → io.place slot.id = .accepted) ∧
        startAgain id w io = (startSlots s price io.place s.slots w).2) ∨
      (startRaises id w io = false ∧
        (∀ slot ∈ s.slots, isDue price slot = true → io.place slot.id = .accepted) ∧
        ∃ slots w', startSlots s price io.place s.slots w = (.ok slots, w') ∧
          startAgain id w io = w'.saveSession { s with slots := slots, status := .active })) := by
  unfold startAgain startRaises start
  cases hs : w.loadSession id with
  | none => exact .inl ⟨rfl, by simp [StartsClean, hs]⟩
  | some s =>
    dsimp only
    by_cases hst : s.status = .active
    · rw [if_pos hst]
      refine .inl ⟨rfl, ?_⟩
      cases hprice : io.price <;> simp [StartsClean, hs, hprice, hst]
    · rw [if_neg hst]
      cases hprice : io.price with
      | error e => exact .inl ⟨rfl, by simp [StartsClean, hs, hprice]⟩
      | ok price =>
        dsimp only
        refine .inr ⟨s, price, rfl, hst, rfl, ?_⟩
        have hok : (∃ slots', (startSlots s price io.place s.slots w).1 = .ok slots') ↔ _ := startSlots_ok
        cases hrun : startSlots s price io.place s.slots w with
        | mk result w' =>
          rw [hrun] at hok
          cases result with
          | error e =>
            refine .inl ⟨rfl, fun hall => ?_, rfl⟩
            obtain ⟨slots, h⟩ := hok.mpr hall
            cases h
          | ok slots => exact .inr ⟨rfl, hok.mp ⟨slots, rfl⟩, slots, w', rfl, rfl⟩

theorem startsClean_iff {id : Nat} {w : GridWorld} {io : GridStartIo} {s : GridSession} {price : Rat}
    (hs : w.loadSession id = some s) (hst : s.status ≠ .active) (hprice : io.price = .ok price) :
    StartsClean id w io ↔
      (∀ slot ∈ s.slots, isDue price slot = true → io.place slot.id = .accepted) ∨
        ∃ slot ∈ (s.slots.filter (isDue price)).head?, io.place slot.id = .raised false := by
  simp [StartsClean, hs, hprice, hst]

/-- A start is recorded when it raises exactly when it is clean. -/
theorem startRecorded_iff {id : Nat} {w : GridWorld} (hw : w.WellFormed) (io : GridStartIo) :
    StartRecorded id w io ↔ StartsClean id w io := by
  unfold StartRecorded
  obtain ⟨hsame, hclean⟩ | ⟨s, price, hs, hst, hprice, hrest⟩ := start_cases id w io
  · rw [hsame]
    simpa using hclean
  · rw [startsClean_iff hs hst hprice]
    obtain ⟨hraises, hraised, hrun⟩ | ⟨hreturns, hall, -⟩ := hrest
    · rw [hrun]
      have hcalls := startSlots_clean (s := s) (w := w) hraised
      obtain ⟨new, hplaced, -⟩ := startSlots_spec s price io.place s.slots w
      constructor
      · intro hrecorded
        refine .inr (hcalls.mp ?_)
        have hnone : new = [] := by
          refine List.eq_nil_iff_forall_not_mem.mpr fun o ho => ?_
          obtain ⟨slot, -, -, -, heq⟩ := hplaced.due o ho
          have hlive : o.isLive = true := by rw [heq]; rfl
          obtain ⟨t, ht, -, slot', hslot', -, hnames⟩ := hrecorded hraises o
            (by rw [hplaced.orders, List.drop_left]; exact ho) hlive
          -- the rows are those of before, which name only older orders
          rw [hplaced.sessions] at ht
          obtain ⟨o', ho', hid, -⟩ := hw.recorded t ht slot' hslot' .buy o.id hnames
          have hlt := hw.orderFresh o' ho'
          rw [hid] at hlt
          exact absurd hlt (not_lt.mpr (hplaced.range o ho).1)
        rw [hplaced.orders, hnone, List.append_nil]
      · intro hclean _ o ho
        obtain hall | hfirst := hclean
        · exact absurd hall hraised
        · rw [hcalls.mpr hfirst, List.drop_length] at ho
          cases ho
    · exact ⟨fun _ => .inl hall, fun _ hraises => by rw [hreturns] at hraises; cases hraises⟩

theorem BuysRecorded.startAgain {id : Nat} {w : GridWorld} {io : GridStartIo} (hw : w.WellFormed)
    (h : BuysRecorded id w) (hclean : StartsClean id w io) : BuysRecorded id (startAgain id w io) := by
  obtain ⟨hsame, -⟩ | ⟨s, price, hs, hst, hprice, hrest⟩ := start_cases id w io
  · rw [hsame]
    exact h
  · obtain ⟨hmem, rfl⟩ := GridWorld.mem_of_loadSession hs
    rw [startsClean_iff hs hst hprice] at hclean
    obtain ⟨new, hplaced, hstarted⟩ := startSlots_spec s price io.place s.slots w
    obtain ⟨-, hraised, hrun⟩ | ⟨-, hall, slots, w', hok, hrun⟩ := hrest
    · obtain hall | hfirst := hclean
      · exact absurd hall hraised
      · intro o ho hlive
        rw [hrun, (startSlots_clean hraised).mpr hfirst] at ho
        obtain ⟨t, ht, hid, hslot⟩ := h o ho hlive
        exact ⟨t, by rw [hrun, hplaced.sessions]; exact ht, hid, hslot⟩
    · rw [hrun]
      rw [hok] at hplaced hstarted
      have hsaved : { s with slots := slots, status := .active } ∈
          (w'.saveSession { s with slots := slots, status := .active }).sessions :=
        List.mem_map.mpr ⟨s, hplaced.sessions ▸ hmem, if_pos rfl⟩
      intro o ho hlive
      refine ⟨_, hsaved, rfl, ?_⟩
      obtain hold | hnew := startSlots_recorded hok ho
      · obtain ⟨t, ht, hid, slot, hslot, hslotId, hnames⟩ := h o hold hlive
        obtain rfl := hw.session_eq ht hmem hid
        obtain ⟨slot', hslot', hst'⟩ := Rows.exists_right (hstarted slots rfl) hslot
        refine ⟨slot', hslot', ?_⟩
        cases hst' with
        | above habove => exact ⟨hslotId, hnames⟩
        | placed hdue _ =>
          rw [(isDue_iff.mp hdue).2.2] at hnames
          cases hnames
        | kept hbelow hdue => exact ⟨hslotId, hnames⟩
      · exact hnew

theorem BuysRecorded.oneBuyPerSlot {id : Nat} {w : GridWorld} (hw : w.WellFormed)
    (h : BuysRecorded id w) : OneBuyPerSlot id w := by
  intro o ho o' ho' hlive hlive' hslot
  obtain ⟨s, hs, -, slot, hmem, hid, hnames⟩ := h o ho hlive
  obtain ⟨s', hs', -, slot', hmem', hid', hnames'⟩ := h o' ho' hlive'
  obtain ⟨-, rfl⟩ := hw.slot_eq hs hs' hmem hmem' (hid.trans (hslot.trans hid'.symm))
  exact Option.some.inj (hnames.symm.trans hnames')

/-- In whatever state a session is, a sequence of starts is all or recorded exactly when each
of them is clean. -/
theorem allOrRecorded_iff (steps : List GridStep) (id : Nat) (ios : List GridStartIo) :
    AllOrRecorded id (Runs.run gridStep {} steps) ios ↔
      Runs.Meets (startAgain id) (StartsClean id) (Runs.run gridStep {} steps) ios := by
  have hw := gridRun_wellFormed steps
  generalize Runs.run gridStep {} steps = w at hw
  have hstep : ∀ w : GridWorld, w.WellFormed → ∀ io, (startAgain id w io).WellFormed := fun w hw io =>
    gridStep_wellFormed hw (.start id io)
  have hmeets : Runs.Meets (startAgain id) (StartRecorded id) w ios ↔
      Runs.Meets (startAgain id) (StartsClean id) w ios := by
    induction ios generalizing w with
    | nil => exact Iff.rfl
    | cons io ios ih => exact and_congr (startRecorded_iff hw io) (ih _ (hstep w hw io))
  refine ⟨fun h => hmeets.mp h.1, fun h => ⟨hmeets.mpr h, fun hrec => ?_⟩⟩
  have hrun : BuysRecorded id (Runs.run (startAgain id) w ios) ∧
      (Runs.run (startAgain id) w ios).WellFormed := by
    clear hmeets
    induction ios generalizing w with
    | nil => exact ⟨hrec, hw⟩
    | cons io ios ih => exact ih _ (hstep w hw io) h.2 (hrec.startAgain hw h.1)
  exact hrun.1.oneBuyPerSlot hrun.2

/-- A session of two levels, 1 to 2 and 2 to 3. -/
def twoLevelRequest : GridCreateRequest :=
  { demoGridRequest with pMax := 3, nLevels := 2, ordered := by decide, levels := by decide }

/-- The second call of the first start raises, and its first order is lost: after the second
start the slot has two live buy orders. -/
theorem allOrRecorded_fails : ¬ AllOrRecorded 0 (Runs.run gridStep {} [.create twoLevelRequest])
    [⟨.ok 4, fun slot => if slot = 1 then .accepted else .raised false⟩, demoGridStart 4] := by
  decide +kernel

example : ¬ OneBuyPerSlot 0 (Runs.run (startAgain 0) (createGridSession twoLevelRequest {})
    [⟨.ok 4, fun slot => if slot = 1 then .accepted else .raised false⟩, demoGridStart 4]) := by
  decide +kernel

end AmaExecutionCore
