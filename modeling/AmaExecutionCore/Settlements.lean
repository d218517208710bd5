import AmaExecutionCore.Deliveries
import Mathlib.Tactic.Linarith

/-! How far the order of the two topics matters to what a trade pays in fees and to the
row of its day: the fees are booked once, when the trade is closed. -/
namespace AmaExecutionCore
open TradeStatus

/-- The fee of an execution, if its order is one the trade names by then and the price
that comes with it can be used. -/
def Message.notedFee (id : TradeId) (d : Delivery) : Message → Option Rat
  | .order _ _ _ => none
  | .execution ref data =>
    match ref.resolve d.drawn, d.world.db.getTrade id, parseOptional data.execFee with
    | some link, some t, .ok (some fee) =>
      if t.ownsOrderLinkId link = true ∧ (noteSlippage link data.execPrice t).isOk = true then some fee
      else none
    | _, _, _ => none

/-- The part of it that comes after the trade was closed. -/
def Message.lateFee (id : TradeId) (d : Delivery) (m : Message) : Rat :=
  if (d.world.db.getTrade id).map Trade.status = some pnlRecorded then (m.notedFee id d).getD 0 else 0

def notedFees (env : Env) (id : TradeId) : Delivery → List Message → List Rat
  | _, [] => []
  | d, m :: ms => (m.notedFee id d).toList ++ notedFees env id (handleMessage env d m) ms

def lateFees (env : Env) (id : TradeId) : Delivery → List Message → Rat
  | _, [] => 0
  | d, m :: ms => m.lateFee id d + lateFees env id (handleMessage env d m) ms

/-- The column after the fees were added one by one. -/
def addFees (paid : Option Rat) (fees : List Rat) : Option Rat :=
  fees.foldl (fun paid fee => some (paid.getD 0 + fee)) paid

/-- What the trade adds to the fees of the day it was closed on. -/
def Trade.feeShare (date : Date) (t : Trade) : Rat :=
  if t.status = pnlRecorded ∧ t.closedAt.map Timestamp.date = some date then t.feePaid.getD 0 else 0

/-- How far the fees of a day exceed those of the trades closed on it. -/
def World.feeBalance (date : Date) (w : World) : Rat :=
  (w.db.ledger.outcome date).totalFees.getD 0 - (w.db.trades.map (Trade.feeShare date)).sum

/-- The trade ended in the same way, and so did the fees and the profit of each day. -/
structure SameSettlement (id : TradeId) (w w' : World) : Prop where
  trade : (w'.db.getTrade id).map (fun t => (t.feePaid, t.realizedPnl, t.status)) =
    (w.db.getTrade id).map fun t => (t.feePaid, t.realizedPnl, t.status)
  totalFees : ∀ date, (w'.db.ledger.outcome date).totalFees = (w.db.ledger.outcome date).totalFees
  netPnl : ∀ date, (w'.db.ledger.outcome date).netPnl = (w.db.ledger.outcome date).netPnl

/-- Both deliveries end the same, and leave the fees of each day in balance with those of
the trades closed on it. -/
structure TopicsCommute (env : Env) (w : World) (id : TradeId) (ms ms' : List Message) : Prop where
  same : SameSettlement id (deliver env ⟨w, []⟩ ms).world (deliver env ⟨w, []⟩ ms').world
  balance : ∀ date, (deliver env ⟨w, []⟩ ms).world.feeBalance date = w.feeBalance date
  balance' : ∀ date, (deliver env ⟨w, []⟩ ms').world.feeBalance date = w.feeBalance date

/-- The trade was closed during the delivery, on that day. -/
def Trade.ClosedSince (t r : Trade) (date : Date) : Prop :=
  t.status ≠ pnlRecorded ∧ r.status = pnlRecorded ∧ r.closedAt.map Timestamp.date = some date

instance (t r : Trade) (date : Date) : Decidable (t.ClosedSince r date) := by
  unfold Trade.ClosedSince
  infer_instance

/-- What the messages so far made of the trade `t` and of the days. -/
structure Settling (w₀ : World) (t : Trade) (l : Ledger) (r : Trade) (noted : List Rat) (late : Rat) :
    Prop where
  paid : r.feePaid = addFees t.feePaid noted
  early : r.status ≠ pnlRecorded → late = 0
  closed : r.status = pnlRecorded → r.closedAt ≠ none
  ended : t.status = pnlRecorded → r.status = pnlRecorded ∧ t.SameResult r ∧
    r.feePaid.getD 0 = t.feePaid.getD 0 + late
  totalFees : ∀ date, (l.outcome date).totalFees = if t.ClosedSince r date then
    some ((w₀.db.ledger.outcome date).totalFees.getD 0 + (r.feePaid.getD 0 - late))
    else (w₀.db.ledger.outcome date).totalFees
  netPnl : ∀ date, (l.outcome date).netPnl = if t.ClosedSince r date then
    some ((w₀.db.ledger.outcome date).netPnl.getD 0 +
      (r.realizedPnl.getD 0 - (r.feePaid.getD 0 - late)))
    else (w₀.db.ledger.outcome date).netPnl

theorem addFees_append (paid : Option Rat) (fees fees' : List Rat) :
    addFees paid (fees ++ fees') = addFees (addFees paid fees) fees' := by
  simp only [addFees, List.foldl_append]

/-- The fee an execution message brings. -/
def Message.fee : Message → Option Rat
  | .order _ _ _ => none
  | .execution _ data => (parseOptional data.execFee).toOption.join

/-- Deliveries of the same messages that find the trade for every fee note as much. -/
theorem addFees_notedFees {env : Env} {id : TradeId} {d : Delivery} {ms ms' : List Message}
    (hperm : ms.Perm ms')
    (h : Runs.Meets (handleMessage env) (fun d m => m.notedFee id d = m.fee) d ms)
    (h' : Runs.Meets (handleMessage env) (fun d m => m.notedFee id d = m.fee) d ms')
    (paid : Option Rat) :
    addFees paid (notedFees env id d ms) = addFees paid (notedFees env id d ms') := by
  have hall : ∀ {e : Delivery} {l : List Message},
      Runs.Meets (handleMessage env) (fun d m => m.notedFee id d = m.fee) e l →
      notedFees env id e l = l.filterMap Message.fee := by
    intro e l hl
    induction l generalizing e with
    | nil => rfl
    | cons m l ih =>
      rw [notedFees, hl.1, ih hl.2, List.filterMap_cons]
      cases m.fee <;> rfl
  have hcomm : RightCommutative fun (paid : Option Rat) fee => some (paid.getD 0 + fee) :=
    ⟨fun paid a b => congrArg some (add_right_comm (paid.getD 0) a b)⟩
  rw [hall h, hall h']
  exact (hperm.filterMap _).foldl_eq _

theorem bookOutcome_fees (t : Trade) (pnl : Rat) (stat : DailyStat) :
    (bookOutcome t pnl stat).outcome.totalFees =
      some (stat.outcome.totalFees.getD 0 + t.feePaid.getD 0) ∧
    (bookOutcome t pnl stat).outcome.netPnl =
      some (stat.outcome.netPnl.getD 0 + (pnl - t.feePaid.getD 0)) := by
  simp only [bookOutcome, updateSymbolStats]
  split_ifs <;> exact ⟨rfl, rfl⟩

theorem noteSlippage_addFee (link : OrderLinkId) (price : Option RawNumber) (fee : Option Rat)
    (t : Trade) : (noteSlippage link price (t.addFee fee)).isOk = (noteSlippage link price t).isOk := by
  obtain ⟨paid, hpaid⟩ := t.addFee_eq fee
  rw [hpaid]
  unfold noteSlippage
  dsimp only
  split
  · next price entryPrice _ =>
    split_ifs
    · cases price.parse <;> rfl
    · rfl
  · rfl

theorem executedRow_feePaid {ref : OrderRef} {data : ExecutionData} {d : Delivery} {id : TradeId}
    {r : Trade} (hget : d.world.db.getTrade id = some r) :
    (executedRow { data with orderLinkId := ref.resolve d.drawn } r).feePaid =
      addFees r.feePaid (Message.notedFee id d (.execution ref data)).toList := by
  simp only [executedRow, Message.notedFee, hget]
  cases ref.resolve d.drawn with
  | none => rfl
  | some link =>
    dsimp only
    by_cases hown : r.ownsOrderLinkId link = true
    · cases hfee : parseOptional data.execFee with
      | error e => split_ifs <;> rfl
      | ok fee =>
        have hslip := noteSlippage_addFee link data.execPrice fee r
        cases fee with
        | none =>
          have hkept : ∀ r', noteSlippage link data.execPrice (r.addFee none) = .ok r' →
              r'.feePaid = r.feePaid := by
            intro r' hr'
            obtain ⟨slip, rfl⟩ := noteSlippage_same hr'
            rfl
          split_ifs
          · dsimp only
            split
            · rfl
            · next hnote => exact hkept _ hnote
          · rfl
        | some fee =>
          have hany : ¬ (data.execFee = none ∧ data.execPrice = none) := by
            rintro ⟨hnone, -⟩
            rw [hnone] at hfee
            cases hfee
          rw [if_pos ⟨hown, hany⟩]
          dsimp only
          cases hnote : noteSlippage link data.execPrice (r.addFee (some fee)) with
          | error e =>
            have hok : (noteSlippage link data.execPrice r).isOk = false := by
              rw [← hslip, hnote]
              rfl
            rw [if_neg (by simp [hok])]
            rfl
          | ok r' =>
            have hok : (noteSlippage link data.execPrice r).isOk = true := by
              rw [← hslip, hnote]
              rfl
            obtain ⟨slip, rfl⟩ := noteSlippage_same hnote
            rw [if_pos ⟨hown, hok⟩]
            rfl
    · rw [if_neg fun hgo => hown hgo.1]
      obtain e | fee := parseOptional data.execFee
      · rfl
      · obtain _ | fee := fee
        · rfl
        · dsimp only
          rw [if_neg fun hgo => hown hgo.1]
          rfl

namespace Settling

variable {w₀ : World} {t r : Trade} {l : Ledger} {noted : List Rat} {late : Rat}

theorem init (w : World) (hclosed : t.status = pnlRecorded → t.closedAt ≠ none) :
    Settling w t w.db.ledger t [] 0 where
  paid := rfl
  early := fun _ => rfl
  closed := hclosed
  ended := fun h => ⟨h, .refl t, by rw [add_zero]⟩
  totalFees := fun date => by rw [if_neg fun h => h.1 h.2.1]
  netPnl := fun date => by rw [if_neg fun h => h.1 h.2.1]

theorem execution (h : Settling w₀ t l r noted late) {r' : Trade} {fee : Option Rat}
    (hfee : r'.feePaid = addFees r.feePaid fee.toList) (hst : r'.status = r.status)
    (hres : r.SameResult r') : Settling w₀ t l r' (noted ++ fee.toList)
      (late + if r.status = pnlRecorded then fee.getD 0 else 0) := by
  have hpaid : r'.feePaid.getD 0 = r.feePaid.getD 0 + fee.getD 0 := by
    rw [hfee]
    cases fee with
    | none => exact (add_zero _).symm
    | some q => rfl
  have hdue : r.status = pnlRecorded → r'.feePaid.getD 0 -
      (late + if r.status = pnlRecorded then fee.getD 0 else 0) = r.feePaid.getD 0 - late := by
    intro hrec
    rw [hpaid, if_pos hrec]
    exact add_sub_add_right_eq_sub _ _ _
  have hsince : ∀ date, t.ClosedSince r' date ↔ t.ClosedSince r date := by
    intro date
    rw [Trade.ClosedSince, hst, hres.closedAt, Trade.ClosedSince]
  refine ⟨?_, ?_, ?_, ?_, ?_, ?_⟩
  · rw [addFees_append, ← h.paid, hfee]
  · intro hopen
    rw [hst] at hopen
    rw [h.early hopen, if_neg hopen, add_zero]
  · intro hrec
    rw [hres.closedAt]
    exact h.closed (hst ▸ hrec)
  · intro hrec
    obtain ⟨hrec', hres', hold⟩ := h.ended hrec
    refine ⟨hst.trans hrec', hres'.trans hres, ?_⟩
    rw [hpaid, hold, if_pos hrec', add_assoc]
  · intro date
    rw [h.totalFees date]
    by_cases hs : t.ClosedSince r date
    · rw [if_pos hs, if_pos ((hsince date).mpr hs), hdue hs.2.1]
    · rw [if_neg hs, if_neg (mt (hsince date).mp hs)]
  · intro date
    rw [h.netPnl date]
    by_cases hs : t.ClosedSince r date
    · rw [if_pos hs, if_pos ((hsince date).mpr hs), hdue hs.2.1, hres.realizedPnl]
    · rw [if_neg hs, if_neg (mt (hsince date).mp hs)]

/-- An update books the fees the row has by then, or leaves fees and days alone. -/
theorem update {k k' : Work} (h : Settling w₀ t k.ledger k.trade noted late) (hk : k.Writes k') :
    Settling w₀ t k'.ledger k'.trade noted late := by
  cases hk with
  | kept htraced hres hst =>
    have hsince : ∀ date, t.ClosedSince k'.trade date ↔ t.ClosedSince k.trade date := by
      intro date
      unfold Trade.ClosedSince
      rw [hst]
      refine and_congr_right fun _ => and_congr_right fun hrec => ?_
      rw [(hres hrec).closedAt]
    have hdays := (Ledger.SameDays.of_dailyStats htraced.days).outcome
    refine ⟨by rw [htraced.fee, h.paid], fun hopen => h.early (mt hst.mpr hopen), ?_, ?_, ?_, ?_⟩
    · intro hrec
      rw [(hres (hst.mp hrec)).closedAt]
      exact h.closed (hst.mp hrec)
    · intro hrec
      obtain ⟨hrec', hres', hfee⟩ := h.ended hrec
      exact ⟨hst.mpr hrec', hres'.trans (hres hrec'), by rw [htraced.fee, hfee]⟩
    · intro date
      simp only [hdays, h.totalFees date, hsince, htraced.fee]
    · intro date
      simp only [hdays, h.netPnl date, hsince, htraced.fee]
      by_cases hclosed : t.ClosedSince k.trade date
      · rw [if_pos hclosed, if_pos hclosed, (hres hclosed.2.1).realizedPnl]
      · rw [if_neg hclosed, if_neg hclosed]
  | @booked k₁ now pnl htraced hopen hst hpnl hclosed =>
    have hfresh : t.status ≠ pnlRecorded := fun hrec => hopen (h.ended hrec).1
    have hlate := h.early hopen
    have hrow := fun date => Ledger.dailyStat_update now.date date _
      (Ledger.bookOutcome_statDate k₁.trade pnl) k₁.ledger
    have hdays := (Ledger.SameDays.of_dailyStats htraced.days).outcome
    have hbefore : ∀ date, ¬ t.ClosedSince k.trade date := fun date hs => hopen hs.2.1
    have hsince : ∀ date, t.ClosedSince k₁.trade date ↔ date = now.date := by
      intro date
      simp only [Trade.ClosedSince, hclosed, Option.map_some, Option.some.injEq]
      exact ⟨fun hs => hs.2.2.symm, fun hd => ⟨hfresh, hst, hd.symm⟩⟩
    obtain ⟨hfees, hnet⟩ := bookOutcome_fees k₁.trade pnl (k₁.ledger.dailyStat now.date)
    refine ⟨by rw [Work.onLedger, htraced.fee, h.paid], fun hopen' => (hopen' hst).elim,
      fun _ => by simp [Work.onLedger, hclosed], fun hrec => (hfresh hrec).elim, ?_, ?_⟩
    · intro date
      have hold := h.totalFees date
      rw [if_neg (hbefore date), ← hdays date] at hold
      simp only [Work.onLedger, Ledger.outcome, hrow date, hsince]
      by_cases hd : date = now.date
      · subst hd
        rw [if_pos rfl, if_pos rfl, hfees, hlate, sub_zero]
        exact congrArg (fun x => some (Option.getD x 0 + _)) hold
      · rw [if_neg hd, if_neg hd]
        exact hold
    · intro date
      have hold := h.netPnl date
      rw [if_neg (hbefore date), ← hdays date] at hold
      simp only [Work.onLedger, Ledger.outcome, hrow date, hsince]
      by_cases hd : date = now.date
      · subst hd
        rw [if_pos rfl, if_pos rfl, hnet, hlate, sub_zero, hpnl]
        exact congrArg (fun x => some (Option.getD x 0 + _)) hold
      · rw [if_neg hd, if_neg hd]
        exact hold

end Settling

section
variable {w₀ : World} {t r : Trade} {base : Nat} {before after : List Trade} {d : Delivery}
  {noted : List Rat} {late : Rat}

theorem Settling.order (h : Settling w₀ t d.world.db.ledger r noted late) {o : Outcome Work Bool}
    (ho : (d.world.work r).Writes o.2) :
    Settling w₀ t ((o.committed.map Work.ledger).getD d.world.db.ledger)
      ((o.committed.map Work.trade).getD r) noted late := by
  obtain ⟨result, k'⟩ := o
  cases result with
  | ok b => exact @Settling.update w₀ t noted late (d.world.work r) k' h ho
  | error e => exact h

theorem Tracked.lateFee (h : Tracked t base before after d r) (m : Message) :
    m.lateFee t.id d = if r.status = pnlRecorded then (m.notedFee t.id d).getD 0 else 0 := by
  simp only [Message.lateFee, h.getTrade, Option.map_some, Option.some.injEq]

/-- One message keeps the account of the fees. -/
theorem Tracked.settles_step (h : Tracked t base before after d r) (env : Env)
    (hapart : Apart t base before after) (hs : Settling w₀ t d.world.db.ledger r noted late)
    {m : Message} (hof : m.ref.Of t) :
    ∃ r', Tracked t base before after (handleMessage env d m) r' ∧
      Settling w₀ t (handleMessage env d m).world.db.ledger r'
        (noted ++ (m.notedFee t.id d).toList) (late + m.lateFee t.id d) := by
  cases m with
  | order ref data io =>
    have hstep := h.order env hapart (show ref.Of t from hof) data io
    have hnoted : noted ++ (Message.notedFee t.id d (.order ref data io)).toList = noted :=
      List.append_nil _
    have hlate : late + Message.lateFee t.id d (.order ref data io) = late := by
      simp [Message.lateFee, Message.notedFee]
    rw [hnoted, hlate]
    cases hu : updateOf env.restClient { data with orderLinkId := ref.resolve d.drawn } io
        d.world r with
    | none =>
      rw [hu] at hstep
      rw [show handleMessage env d (.order ref data io) = d from hstep]
      exact ⟨r, h, hs⟩
    | some o =>
      rw [hu] at hstep
      obtain ⟨-, hledger, htracked⟩ := hstep
      refine ⟨_, htracked, ?_⟩
      rw [hledger]
      apply hs.order
      unfold updateOf at hu
      split_ifs at hu
      rw [← Option.some.inj hu]
      exact applyOrderUpdate_writes env.restClient io _ (d.world.work r)
  | execution ref data =>
    obtain ⟨-, hledger, htracked⟩ := h.execution env hapart (show ref.Of t from hof) data
    refine ⟨_, htracked, ?_⟩
    obtain ⟨fee, slip, hrow⟩ := executedRow_eq { data with orderLinkId := ref.resolve d.drawn } r
    rw [hledger, h.lateFee]
    refine hs.execution (executedRow_feePaid h.getTrade) ?_ ?_
    · rw [hrow]
    · rw [hrow]
      constructor <;> rfl

theorem Tracked.settles (h : Tracked t base before after d r) (env : Env)
    (hapart : Apart t base before after) (hs : Settling w₀ t d.world.db.ledger r noted late)
    {ms : List Message} (hof : ∀ m ∈ ms, m.ref.Of t) :
    ∃ r', Tracked t base before after (deliver env d ms) r' ∧
      Settling w₀ t (deliver env d ms).world.db.ledger r' (noted ++ notedFees env t.id d ms)
        (late + lateFees env t.id d ms) := by
  induction ms generalizing d r noted late with
  | nil =>
    refine ⟨r, h, ?_⟩
    simp only [notedFees, lateFees, List.append_nil, add_zero]
    exact hs
  | cons m ms ih =>
    rw [List.forall_mem_cons] at hof
    obtain ⟨r₁, h₁, hs₁⟩ := h.settles_step env hapart hs hof.1
    obtain ⟨r', h', hs'⟩ := ih h₁ hs₁ hof.2
    refine ⟨r', h', ?_⟩
    simp only [notedFees, lateFees, ← List.append_assoc, ← add_assoc]
    exact hs'

/-- The late fees are what the day of the trade falls out of balance by. -/
theorem Tracked.feeBalance {w : World} (h₀ : Tracked t base before after ⟨w, []⟩ t)
    (h : Tracked t base before after d r)
    (hs : Settling w t d.world.db.ledger r noted late) (date : Date) :
    d.world.feeBalance date = w.feeBalance date -
      if r.status = pnlRecorded ∧ r.closedAt.map Timestamp.date = some date then late else 0 := by
  have hrows₀ : w.db.trades = before ++ t :: after := h₀.rows
  simp only [World.feeBalance, h.rows, hrows₀, List.map_append, List.map_cons, List.sum_append,
    List.sum_cons, hs.totalFees date]
  by_cases ht : t.status = pnlRecorded
  · obtain ⟨hr, hres, hfee⟩ := hs.ended ht
    rw [if_neg fun hsince => hsince.1 ht, Trade.feeShare, Trade.feeShare, hfee, hres.closedAt]
    simp only [ht, hr, true_and]
    split_ifs <;> linarith
  · rw [show t.feeShare date = 0 from if_neg fun hrec => ht hrec.1]
    by_cases hr : r.status = pnlRecorded ∧ r.closedAt.map Timestamp.date = some date
    · rw [if_pos ⟨ht, hr⟩, if_pos hr, Trade.feeShare, if_pos hr, Option.getD_some]
      linarith
    · rw [if_neg fun hsince => hr hsince.2, if_neg hr, Trade.feeShare, if_neg hr]
      linarith

end

theorem World.WellFormed.apart {w : World} (hw : w.WellFormed) {t : Trade}
    {before after : List Trade} (hrows : w.db.trades = before ++ t :: after) :
    Apart t w.issued before after := by
  have ht : t ∈ w.db.trades := by
    rw [hrows]
    exact List.mem_append_right _ List.mem_cons_self
  refine ⟨hw.links t ht, fun q hq link hmine => ?_⟩
  have hmem : q ∈ w.db.trades := by
    rw [hrows]
    obtain hq | hq := hq
    · exact List.mem_append_left _ hq
    · exact List.mem_append_right _ (List.mem_cons_of_mem _ hq)
  by_contra hown
  rw [Bool.not_eq_false] at hown
  obtain ht' | ⟨n, hn, hd⟩ := hmine
  · obtain rfl := hw.eq_of_id hmem ht (hw.owner q hmem t ht link hown ht')
    have hids := hw.ids
    rw [hrows, List.map_append, List.map_cons, List.nodup_middle, List.nodup_cons] at hids
    apply hids.1
    rw [List.mem_append]
    exact hq.imp (List.mem_map_of_mem) (List.mem_map_of_mem)
  · obtain ⟨k, hk, hd'⟩ := hw.links q hmem link hown
    exact absurd (OrderLinkId.drawnAt_unique hd' hd) (by omega)

theorem Synced.init {w : World} (hw : w.WellFormed) {t : Trade} {before after : List Trade}
    (hrows : w.db.trades = before ++ t :: after) :
    Synced t w.issued before after ⟨w, []⟩ ⟨w, []⟩ t t := by
  have htracked : Tracked t w.issued before after ⟨w, []⟩ t :=
    ⟨hw, hrows, .refl t, le_refl _, by simp⟩
  have hsame : ∀ a : Option OrderLinkId, SameKnown (Paired t [] []) a a := by
    rintro a x y ⟨ref, -, hx, hy⟩
    rw [hx] at hy
    obtain rfl := Option.some.inj hy
    exact Iff.rfl
  exact ⟨htracked, htracked, rfl, ⟨t.feePaid, t.slippage, t.closeOrderLinkId, t.stopOrderLinkId,
    t.takeProfitOrderLinkId, rfl⟩, hsame _, hsame _, hsame _, Iff.rfl, Iff.rfl⟩

/-- A day is out of balance by the late fees, so there are none if all days balance. -/
theorem Settling.late_eq_zero {w : World} {t r : Trade} {l : Ledger} {noted : List Rat} {late : Rat}
    {w' : World} (h : Settling w t l r noted late)
    (hdays : ∀ date, w'.feeBalance date = w.feeBalance date -
      if r.status = pnlRecorded ∧ r.closedAt.map Timestamp.date = some date then late else 0)
    (hsame : ∀ date, w'.feeBalance date = w.feeBalance date) : late = 0 := by
  by_cases hrec : r.status = pnlRecorded
  · obtain ⟨now, hnow⟩ := Option.ne_none_iff_exists'.mp (h.closed hrec)
    have hday := hdays now.date
    rw [hsame, if_pos ⟨hrec, by rw [hnow]; rfl⟩] at hday
    linarith
  · exact h.early hrec

/-- Two deliveries with the updates in the same order end the same and keep the days in
balance exactly when no fees are left over from after the close, and both note as much. -/
theorem topicsCommute_iff (env : Env) (ss : List Step) {t : Trade} {ms ms' : List Message}
    (ht : t ∈ (Runs.run (step env) {} ss).db.trades) (hof : ∀ m ∈ ms, m.ref.Of t)
    (hof' : ∀ m ∈ ms', m.ref.Of t)
    (hsame : ms.filter Message.isOrder = ms'.filter Message.isOrder) :
    TopicsCommute env (Runs.run (step env) {} ss) t.id ms ms' ↔
      lateFees env t.id ⟨Runs.run (step env) {} ss, []⟩ ms = 0 ∧
      lateFees env t.id ⟨Runs.run (step env) {} ss, []⟩ ms' = 0 ∧
      addFees t.feePaid (notedFees env t.id ⟨Runs.run (step env) {} ss, []⟩ ms) =
        addFees t.feePaid (notedFees env t.id ⟨Runs.run (step env) {} ss, []⟩ ms') := by
  have hw := wellFormed_run env ss
  have hclosed := fun hrec => ((daysBooked_run env ss).recorded t ht hrec).2
  generalize Runs.run (step env) {} ss = w at *
  obtain ⟨before, after, hrows⟩ := List.append_of_mem ht
  have hapart := hw.apart hrows
  have hinit := Synced.init hw hrows
  obtain ⟨r, s, hsync⟩ := hinit.deliver env hapart hof hof' hsame
  obtain ⟨r', hr', hset⟩ := hinit.left.settles env hapart (.init w hclosed) hof
  obtain ⟨s', hs', hset'⟩ := hinit.left.settles env hapart (.init w hclosed) hof'
  obtain rfl : r' = r := Option.some.inj (hr'.getTrade.symm.trans hsync.left.getTrade)
  obtain rfl : s' = s := Option.some.inj (hs'.getTrade.symm.trans hsync.right.getTrade)
  rw [List.nil_append, zero_add] at hset hset'
  have hbalance := hinit.left.feeBalance hr' hset
  have hbalance' := hinit.left.feeBalance hs' hset'
  have hget : (deliver env ⟨w, []⟩ ms).world.db.getTrade t.id = some r' := hr'.getTrade
  have hget' : (deliver env ⟨w, []⟩ ms').world.db.getTrade t.id = some s' := hs'.getTrade
  have halike : s'.status = r'.status ∧ s'.realizedPnl = r'.realizedPnl ∧
      s'.closedAt = r'.closedAt := by
    obtain ⟨fee, slip, close, stop, takeProfit, heq⟩ := hsync.alike.recast
    rw [heq]
    exact ⟨rfl, rfl, rfl⟩
  obtain ⟨hst, hpnl, hclose⟩ := halike
  rw [← hset.paid, ← hset'.paid]
  constructor
  · intro h
    have htrade := h.same.trade
    rw [hget, hget'] at htrade
    exact ⟨hset.late_eq_zero hbalance h.balance, hset'.late_eq_zero hbalance' h.balance',
      (Prod.mk.inj (Option.some.inj htrade)).1.symm⟩
  · rintro ⟨hlate, hlate', hfee⟩
    have hsince : ∀ date, t.ClosedSince s' date ↔ t.ClosedSince r' date := by
      intro date
      rw [Trade.ClosedSince, hst, hclose, Trade.ClosedSince]
    refine ⟨⟨?_, ?_, ?_⟩, ?_, ?_⟩
    · rw [hget, hget', Option.map_some, Option.map_some, hst, hpnl, hfee]
    · intro date
      simp only [hset.totalFees date, hset'.totalFees date, hsince, hlate, hlate', hfee]
    · intro date
      simp only [hset.netPnl date, hset'.netPnl date, hsince, hlate, hlate', hfee, hpnl]
    · intro date
      rw [hbalance date, hlate, ite_self, sub_zero]
    · intro date
      rw [hbalance' date, hlate', ite_self, sub_zero]

/-- One entry order, accepted. -/
def submittedEntry : World :=
  Runs.run (step (demoEnv .takerAllowed)) {} [.executeSignal demoRequest
    (demoExecute (.accepted none) (.ok none))]

def feeOf (ref : OrderRef) (fee : Rat) : Message :=
  .execution ref { execFee := some (.decimal fee) }

def fillOf (ref : OrderRef) (price : Rat) : Message :=
  .order ref { orderStatus := .filled, avgPrice := some (.decimal price), leavesQty := some "0" }
    (demoHandler 3)

/-- The fees of both orders arrive before the trade is closed. -/
theorem topicsCommute_early : TopicsCommute (demoEnv .takerAllowed) submittedEntry 1
    [feeOf (.known (.generated (some 0) 2)) 1, fillOf (.known (.generated (some 0) 2)) 100,
      feeOf (.stop 0) 2, fillOf (.stop 0) 98]
    [fillOf (.known (.generated (some 0) 2)) 100, feeOf (.stop 0) 2,
      feeOf (.known (.generated (some 0) 2)) 1, fillOf (.stop 0) 98] := by
  obtain ⟨t, ht, hid, hown, hpaid⟩ : ∃ t ∈ submittedEntry.db.trades, t.id = 1 ∧
      t.ownsOrderLinkId (.generated (some 0) 2) = true ∧ t.feePaid = none := by decide +kernel
  have hiff := @topicsCommute_iff (demoEnv .takerAllowed) [.executeSignal demoRequest
    (demoExecute (.accepted none) (.ok none))] t
    [feeOf (.known (.generated (some 0) 2)) 1, fillOf (.known (.generated (some 0) 2)) 100,
      feeOf (.stop 0) 2, fillOf (.stop 0) 98]
    [fillOf (.known (.generated (some 0) 2)) 100, feeOf (.stop 0) 2,
      feeOf (.known (.generated (some 0) 2)) 1, fillOf (.stop 0) 98] ht
    (by simp [feeOf, fillOf, Message.ref, OrderRef.Of, hown])
    (by simp [feeOf, fillOf, Message.ref, OrderRef.Of, hown]) rfl
  rw [hid, hpaid] at hiff
  exact hiff.mpr (by decide +kernel)

/-- The fee of the stop order arrives after its fill: the trade pays it, and its day does
not know of it. -/
theorem topicsCommute_fails : ∃ t ∈ submittedEntry.db.trades, t.id = 1 ∧
    t.ownsOrderLinkId (.generated (some 0) 2) = true ∧
    ¬ TopicsCommute (demoEnv .takerAllowed) submittedEntry 1
      [fillOf (.known (.generated (some 0) 2)) 100, feeOf (.stop 0) 2, fillOf (.stop 0) 98]
      [fillOf (.known (.generated (some 0) 2)) 100, fillOf (.stop 0) 98, feeOf (.stop 0) 2] := by
  have hfees : ((deliver (demoEnv .takerAllowed) ⟨submittedEntry, []⟩
        [fillOf (.known (.generated (some 0) 2)) 100, feeOf (.stop 0) 2,
          fillOf (.stop 0) 98]).world.db.ledger.outcome 0).totalFees = some 2 ∧
      ((deliver (demoEnv .takerAllowed) ⟨submittedEntry, []⟩
        [fillOf (.known (.generated (some 0) 2)) 100, fillOf (.stop 0) 98,
          feeOf (.stop 0) 2]).world.db.ledger.outcome 0).totalFees = some 0 := by decide +kernel
  obtain ⟨t, ht, hid, hown⟩ : ∃ t ∈ submittedEntry.db.trades, t.id = 1 ∧
      t.ownsOrderLinkId (.generated (some 0) 2) = true := by decide +kernel
  refine ⟨t, ht, hid, hown, fun h => ?_⟩
  have hsame := h.same.totalFees 0
  rw [hfees.1, hfees.2] at hsame
  exact absurd hsame (by decide)

end AmaExecutionCore
