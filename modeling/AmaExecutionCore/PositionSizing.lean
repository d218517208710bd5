import AmaExecutionCore.EntryGeometry
import AmaExecutionCore.Rounding

/-! The size of an entry order: the risk over the distance to the stop, rounded down to the
instrument's step, above its minima and covered by the wallet. -/
namespace AmaExecutionCore

/-- The step of the lot filter, as `execute` reads it. -/
def Instrument.step (instrument : Instrument) : Rat :=
  (instrument.qtyStep <|> instrument.basePrecision).getD (1 / 1000000)

def Instrument.minNotional (instrument : Instrument) : Rat := instrument.minOrderAmt.getD 0

def balanceOf (balances : List (String × Rat)) (coin : String) : Rat := (balances.lookup coin).getD 0

def rawQty (equity riskPct : Rat) (req : NormalizedExecuteSignalRequest) : Rat :=
  equity * riskPct / |req.entry - req.stop|

/-- The instrument names its coins, and the wallet holds what the side of the order needs. -/
def Covered (req : NormalizedExecuteSignalRequest) (instrument : Instrument)
    (balances : List (String × Rat)) (qty : Rat) : Prop :=
  ∃ base quote, instrument.baseCoin = some base ∧ instrument.quoteCoin = some quote ∧
    base ≠ "" ∧ quote ≠ "" ∧
    match req.direction with
    | .long => qty * req.entry ≤ balanceOf balances quote
    | .short => qty ≤ balanceOf balances base

theorem validateSpotBalances_ok {req : NormalizedExecuteSignalRequest} {instrument : Instrument}
    {balances : List (String × Rat)} {qty : Rat} :
    validateSpotBalances req.direction req.entry qty instrument balances = .ok () ↔
      Covered req instrument balances qty := by
  unfold validateSpotBalances Covered balanceOf
  cases hbase : instrument.baseCoin with
  | none => simp
  | some base =>
    cases hquote : instrument.quoteCoin with
    | none => simp
    | some quote =>
      dsimp only
      by_cases hnamed : base = "" ∨ quote = ""
      · rw [if_pos hnamed]
        constructor
        · intro h
          cases h
        · intro h
          obtain ⟨_, _, hbase', hquote', hb, hq, -⟩ := h
          obtain rfl := Option.some.inj hbase'
          obtain rfl := Option.some.inj hquote'
          exact absurd hnamed (not_or.mpr ⟨hb, hq⟩)
      · obtain ⟨hb, hq⟩ := not_or.mp hnamed
        rw [if_neg hnamed]
        cases req.direction <;> simp [hb, hq]

theorem truncate_div_mul {qty step : Rat} (hqty : 0 ≤ qty) (hstep : 0 < step) :
    truncate (qty / step) * step = Rounding.down step qty := by
  rw [truncate, if_pos (div_nonneg hqty hstep.le)]
  rfl

/-- The filter lets through what is left of a positive quantity when that meets the minima. -/
theorem applyExchangeConstraints_ok {qty entry step minQty minNotional out : Rat} (hqty : 0 < qty)
    (hstep : 0 < step) :
    applyExchangeConstraints qty entry step minQty minNotional = .ok out ↔
      out = Rounding.down step qty ∧ minQty ≤ Rounding.down step qty ∧
        minNotional ≤ Rounding.down step qty * entry := by
  unfold applyExchangeConstraints
  rw [if_neg (not_le.mpr hqty), if_neg hstep.ne', truncate_div_mul hqty.le hstep]
  dsimp only
  by_cases hmin : Rounding.down step qty < minQty
  · simp [hmin]
  · by_cases hnotional : Rounding.down step qty * entry < minNotional
    · simp [hmin, hnotional]
    · rw [if_neg hmin, if_neg hnotional, Except.ok.injEq]
      exact ⟨fun h => ⟨h.symm, not_lt.mp hmin, not_lt.mp hnotional⟩, fun h => h.1.symm⟩

theorem calculatePositionRaw_ok {equity riskPct : Rat} {req : NormalizedExecuteSignalRequest}
    {qtyRaw : Rat} : calculatePositionRaw equity req.entry req.stop riskPct = .ok qtyRaw ↔
      0 < equity ∧ 0 < riskPct ∧ req.entry ≠ req.stop ∧ qtyRaw = rawQty equity riskPct req := by
  unfold calculatePositionRaw rawQty
  by_cases hequity : equity ≤ 0
  · simp [hequity, not_lt.mpr hequity]
  · by_cases hrisk : riskPct ≤ 0
    · simp [hequity, hrisk, not_lt.mpr hrisk]
    · by_cases hstop : req.entry = req.stop
      · simp [hequity, hrisk, hstop]
      · simp [hequity, hrisk, hstop, not_le.mp hequity, not_le.mp hrisk, eq_comm]

theorem rawQty_pos {equity riskPct : Rat} {req : NormalizedExecuteSignalRequest}
    (hequity : 0 < equity) (hrisk : 0 < riskPct) (hstop : req.entry ≠ req.stop) :
    0 < rawQty equity riskPct req :=
  div_pos (mul_pos hequity hrisk) (abs_pos.mpr (sub_ne_zero.mpr hstop))

/-- Outside shadow mode, the quantity of a spot order is the raw one rounded down to the step,
when that meets the minima and is covered. -/
theorem constrainQty_ok {s : Settings} {req : NormalizedExecuteSignalRequest} {io : ExecuteIo}
    {balances : List (String × Rat)} {instrument : Instrument} {minQty qtyRaw qty : Rat}
    (hmode : s.tradingMode ≠ .shadow) (hinst : io.instrument = .ok instrument)
    (hmin : instrument.minOrderQty = some minQty) (hstep : 0 < instrument.step) (hraw : 0 < qtyRaw) :
    constrainQty s .spot req io balances qtyRaw = .ok qty ↔
      qty = Rounding.down instrument.step qtyRaw ∧ minQty ≤ qty ∧
        instrument.minNotional ≤ qty * req.entry ∧ Covered req instrument balances qty := by
  have hfilter := fun out => @applyExchangeConstraints_ok qtyRaw req.entry instrument.step minQty
    instrument.minNotional out hraw hstep
  unfold constrainQty
  rw [if_neg hmode, hinst]
  dsimp only
  rw [hmin]
  dsimp only
  rw [show (instrument.qtyStep <|> instrument.basePrecision).getD (1 / 1000000) = instrument.step
    from rfl, show instrument.minOrderAmt.getD 0 = instrument.minNotional from rfl]
  cases hrun : applyExchangeConstraints qtyRaw req.entry instrument.step minQty
      instrument.minNotional with
  | error e =>
    refine iff_of_false (by simp) ?_
    intro h
    obtain ⟨rfl, hq, hn, -⟩ := h
    rw [(hfilter _).mpr ⟨rfl, hq, hn⟩] at hrun
    cases hrun
  | ok out =>
    obtain ⟨rfl, hq, hn⟩ := (hfilter out).mp hrun
    dsimp only
    rw [if_pos rfl]
    cases hcheck : validateSpotBalances req.direction req.entry
        (Rounding.down instrument.step qtyRaw) instrument balances with
    | error e =>
      refine iff_of_false (by simp [Except.map]) ?_
      intro h
      obtain ⟨rfl, -, -, hcovered⟩ := h
      rw [validateSpotBalances_ok.mpr hcovered] at hcheck
      cases hcheck
    | ok u =>
      have hcovered := validateSpotBalances_ok.mp hcheck
      simp only [Except.map, Except.ok.injEq]
      constructor
      · intro h
        subst h
        exact ⟨rfl, hq, hn, hcovered⟩
      · intro h
        exact h.1.symm

/-- What the wallet and the instrument answer to an `execute` that asks for them. -/
structure Answers (s : Settings) (io : ExecuteIo) (equity : Rat) (balances : List (String × Rat))
    (instrument : Instrument) (minQty : Rat) : Prop where
  submits : s.tradingMode ≠ .shadow
  wallet : ∃ payload, io.wallet = .ok payload ∧ extractWalletBalances payload = .ok balances
  usdt : equity = balanceOf balances "USDT"
  filter : io.instrument = .ok instrument
  minimum : instrument.minOrderQty = some minQty
  stepped : 0 < instrument.step

theorem Answers.fetchEquity {s : Settings} {io : ExecuteIo} {equity minQty : Rat}
    {balances : List (String × Rat)} {instrument : Instrument}
    (h : Answers s io equity balances instrument minQty) :
    fetchEquity s io = .ok (equity, balances) := by
  obtain ⟨payload, hwallet, hbalances⟩ := h.wallet
  unfold AmaExecutionCore.fetchEquity
  rw [if_neg h.submits, hwallet]
  dsimp only
  rw [hbalances, h.usdt]
  rfl

/-- The size of an order that risks `riskPct` of the equity. -/
structure Sized (req : NormalizedExecuteSignalRequest) (instrument : Instrument)
    (balances : List (String × Rat)) (minQty equity riskPct qty : Rat) : Prop where
  multiple : ∃ m : ℤ, qty = m * instrument.step
  above : rawQty equity riskPct req - instrument.step < qty
  below : qty ≤ rawQty equity riskPct req
  risk : qty * |req.entry - req.stop| ≤ equity * riskPct
  large : minQty ≤ qty
  worth : instrument.minNotional ≤ qty * req.entry
  covered : Covered req instrument balances qty

/-- From every reachable world, for every wallet and instrument answer: the quantity of a new
spot trade is sized, and the checks on the size raise nothing when the raw quantity rounded down
meets the minima and is covered. -/
theorem positionSizing (env : Env) (ss : List Step) (req : NormalizedExecuteSignalRequest)
    (io : ExecuteIo) (balances : List (String × Rat)) (instrument : Instrument)
    (equity minQty : Rat) (h : Answers env.settings io equity balances instrument minQty) :
    (∀ t, TurnsInto env req io (Runs.run (step env) {} ss) t → ∃ qty, t.qty = some qty ∧
      Sized req instrument balances minQty equity (effectiveRiskPerTradePct env.settings) qty) ∧
    (0 < equity → 0 < effectiveRiskPerTradePct env.settings → req.entry ≠ req.stop →
      ∀ qty, qty = Rounding.down instrument.step
          (rawQty equity (effectiveRiskPerTradePct env.settings) req) →
        minQty ≤ qty → instrument.minNotional ≤ qty * req.entry →
        Covered req instrument balances qty →
        fetchEquity env.settings io = .ok (equity, balances) ∧
        ∃ qtyRaw, calculatePositionRaw equity req.entry req.stop
            (effectiveRiskPerTradePct env.settings) = .ok qtyRaw ∧
          constrainQty env.settings .spot req io balances qtyRaw = .ok qty) := by
  constructor
  · intro t ht
    obtain ⟨plan, balances', qtyRaw, hchecked, hqty⟩ := ht.checked (wellFormed_run env ss)
    have hequity := hchecked.equity
    rw [h.fetchEquity, Except.ok.injEq, Prod.mk.injEq] at hequity
    obtain ⟨rfl, rfl⟩ := hequity
    have hsized := hchecked.sized
    rw [hchecked.riskPct] at hsized
    obtain ⟨hpos, hrisk, hstop, rfl⟩ := calculatePositionRaw_ok.mp hsized
    have hdist : 0 < |req.entry - req.stop| := abs_pos.mpr (sub_ne_zero.mpr hstop)
    obtain ⟨hdown, hmin, hnotional, hcovered⟩ := (constrainQty_ok h.submits h.filter h.minimum
      h.stepped (rawQty_pos hpos hrisk hstop)).mp hchecked.constrained
    have hbelow := @Rounding.down_le Rat _ _ _ _ _
      (rawQty plan.equity (effectiveRiskPerTradePct env.settings) req) h.stepped
    have habove := @Rounding.lt_down_add Rat _ _ _ _ _
      (rawQty plan.equity (effectiveRiskPerTradePct env.settings) req) h.stepped
    rw [← hdown] at hbelow habove
    refine ⟨plan.qty, hqty, ⟨_, hdown⟩, by linarith, hbelow, ?_, hmin, hnotional, hcovered⟩
    unfold rawQty at hbelow
    rwa [le_div_iff₀ hdist] at hbelow
  · intro hpos hrisk hstop qty hdown hmin hnotional hcovered
    exact ⟨h.fetchEquity, _, calculatePositionRaw_ok.mpr ⟨hpos, hrisk, hstop, rfl⟩,
      (constrainQty_ok h.submits h.filter h.minimum h.stepped (rawQty_pos hpos hrisk hstop)).mpr
        ⟨hdown, hmin, hnotional, hcovered⟩⟩

/-- A demo deployment's first order: 1 percent of 1000 USDT over a distance of 2. -/
theorem positionSizing_demo :
    (∃ t, TurnsInto (demoEnv .takerAllowed) demoRequest (demoExecute (.accepted none) (.ok none)) {} t ∧
      ∃ qty, t.qty = some qty ∧ Sized demoRequest
        ⟨some (1 / 1000), none, some (1 / 1000), some 5, some "BTC", some "USDT"⟩
        [("USDT", 1000)] (1 / 1000) 1000 (1 / 100) qty) ∧
    ∃ qtyRaw, calculatePositionRaw 1000 100 98 (1 / 100) = .ok qtyRaw ∧
      constrainQty (demoEnv .takerAllowed).settings .spot demoRequest
        (demoExecute (.accepted none) (.ok none)) [("USDT", 1000)] qtyRaw = .ok 5 := by
  have hanswers : Answers (demoEnv .takerAllowed).settings (demoExecute (.accepted none) (.ok none))
      1000 [("USDT", 1000)] ⟨some (1 / 1000), none, some (1 / 1000), some 5, some "BTC", some "USDT"⟩
      (1 / 1000) :=
    ⟨by decide, ⟨_, rfl, by decide +kernel⟩, by decide +kernel, rfl, rfl, by decide +kernel⟩
  have hsizing := positionSizing (demoEnv .takerAllowed) [] demoRequest
    (demoExecute (.accepted none) (.ok none)) _ _ _ _ hanswers
  obtain ⟨t, ht⟩ := turnsInto_demo
  refine ⟨⟨t, ht, hsizing.1 t ht⟩, ?_⟩
  have hcovered : (5 : Rat) * demoRequest.entry ≤ balanceOf [("USDT", 1000)] "USDT" := by
    decide +kernel
  obtain ⟨-, qtyRaw, hraw, hqty⟩ := hsizing.2 (by decide +kernel) (by decide +kernel)
    (by decide +kernel) 5 (by decide +kernel) (by decide +kernel) (by decide +kernel)
    ⟨"BTC", "USDT", rfl, rfl, by decide, by decide, hcovered⟩
  exact ⟨qtyRaw, hraw, hqty⟩

end AmaExecutionCore
