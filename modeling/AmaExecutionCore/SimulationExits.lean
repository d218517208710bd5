import AmaExecutionCore.Simulation

/-! When a simulated trade exits: only the candles up to its exit decide it. -/
namespace AmaExecutionCore
namespace SimulationExecutionService

variable {service : SimulationExecutionService} {ρ : Type} {random : ρ → Rat × ρ}
  {signal : ExecuteSignalRequest Rat} {step : Int} {prepared : PreparedExecution} {rng : ρ}
  {index k : Nat} {candle : MarketCandle Rat} {candles candles' : List (MarketCandle Rat)}
  {exit : SimulationExecutionResult × ρ}

/-- A trade that is closed at this step, from this entry. -/
structure ClosedAt (prepared : PreparedExecution) (close : Int)
    (result : SimulationExecutionResult) : Prop where
  closed : result.closedAtStep = close
  entry : result.entryPrice = prepared.entryPrice
  status : result.status = "closed"

theorem evaluateCandleExit_closedAt
    (h : exit ∈ service.evaluateCandleExit random signal candle index step prepared rng) :
    ClosedAt prepared (step + (index + 1)) exit.1 := by
  unfold evaluateCandleExit at h
  dsimp only at h
  split_ifs at h
  · cases h
  · obtain rfl := Option.some.inj h
    exact ⟨rfl, rfl, rfl⟩
  · obtain rfl := Option.some.inj h
    exact ⟨rfl, rfl, rfl⟩

theorem firstExit_closedAt
    (h : exit ∈ service.firstExit random signal step prepared rng index candles) :
    ∃ i < candles.length, ClosedAt prepared (step + (index + i + 1)) exit.1 := by
  induction candles generalizing index with
  | nil => cases h
  | cons candle candles ih =>
    unfold firstExit at h
    cases hexit : service.evaluateCandleExit random signal candle index step prepared rng with
    | some exit' =>
      rw [hexit] at h
      obtain rfl := Option.some.inj h
      exact ⟨0, Nat.succ_pos _, by simpa using evaluateCandleExit_closedAt hexit⟩
    | none =>
      rw [hexit] at h
      obtain ⟨i, hi, hclosed⟩ := ih h
      refine ⟨i + 1, by simpa using hi, ?_⟩
      have hstep : step + ((index + 1 : Nat) + i + 1) = step + (index + (i + 1 : Nat) + 1) := by
        push_cast
        omega
      rw [← hstep]
      exact hclosed

/-- Loops over candles that agree on a prefix exit together in it, or both after it. -/
theorem firstExit_agree (h : candles.take k = candles'.take k) :
    (∃ exit, service.firstExit random signal step prepared rng index candles = some exit ∧
      service.firstExit random signal step prepared rng index candles' = some exit) ∨
    (∀ exit ∈ service.firstExit random signal step prepared rng index candles,
        step + (index + k) < exit.1.closedAtStep) ∧
      ∀ exit ∈ service.firstExit random signal step prepared rng index candles',
        step + (index + k) < exit.1.closedAtStep := by
  induction k generalizing index candles candles' with
  | zero =>
    right
    constructor <;>
    · intro exit hexit
      obtain ⟨i, -, hclosed⟩ := firstExit_closedAt hexit
      rw [hclosed.closed]
      push_cast
      omega
  | succ k ih =>
    cases candles with
    | nil =>
      have hnil : candles' = [] := by simpa using h.symm
      subst hnil
      exact .inr ⟨fun _ hexit => (nomatch hexit), fun _ hexit => (nomatch hexit)⟩
    | cons candle rest =>
      cases candles' with
      | nil => simp at h
      | cons candle' rest' =>
        rw [List.take_succ_cons, List.take_succ_cons] at h
        obtain ⟨rfl, hrest⟩ := List.cons.inj h
        unfold firstExit
        cases hexit : service.evaluateCandleExit random signal candle index step prepared rng with
        | some exit => exact .inl ⟨exit, rfl, rfl⟩
        | none =>
          have hnext : ((index + 1 : Nat) + k : Int) = index + (k + 1 : Nat) := by
            push_cast
            omega
          rw [← hnext]
          exact ih hrest

/-- Two trades from one entry that are both open before step `m`. -/
structure OpenTwins (m : Int) (result result' : SimulationExecutionResult) : Prop where
  close : m ≤ result.closedAtStep
  close' : m ≤ result'.closedAtStep
  entry : result.entryPrice = result'.entryPrice
  status : result.status = "closed"
  status' : result'.status = "closed"

theorem candleAt_of_nonneg {i : Int} (h : 0 ≤ i) : candleAt candles i = candles[i.toNat]? := by
  simp [candleAt, h]

theorem takeSlice_of_pos (h : 1 ≤ service.maxHoldCandles) :
    takeSlice service.maxHoldCandles candles = candles.take service.maxHoldCandles.toNat := by
  unfold takeSlice
  rw [if_pos (by omega)]

theorem takeSlice_eq_take (count : Int) (candles : List (MarketCandle Rat)) :
    ∃ n, takeSlice count candles = candles.take n := by
  unfold takeSlice
  split_ifs
  · exact ⟨_, rfl⟩
  · exact ⟨_, rfl⟩

/-- Without a touch the trade is closed at the last candle it may stay open for. -/
theorem buildTimeoutResult_window (hhold : 1 ≤ service.maxHoldCandles) (hne : candles ≠ []) :
    ∃ candle, (candles.take service.maxHoldCandles.toNat).getLast? = some candle ∧
      service.buildTimeoutResult signal candles step prepared = .ok (service.buildResult signal
        prepared candle.close (service.applySlippage candle.close signal.direction)
        service.takerFeeRate "timeout" (min service.maxHoldCandles candles.length)
        (step + min service.maxHoldCandles candles.length) false) := by
  have hlength : 0 < candles.length := List.length_pos_iff.mpr hne
  have hin : (min service.maxHoldCandles candles.length - 1).toNat < candles.length := by omega
  refine ⟨candles[(min service.maxHoldCandles candles.length - 1).toNat], ?_, ?_⟩
  · have hlast : (candles.take service.maxHoldCandles.toNat).length - 1 =
        (min service.maxHoldCandles candles.length - 1).toNat := by
      rw [List.length_take]
      omega
    rw [List.getLast?_eq_getElem?, hlast, List.getElem?_take_of_lt (by omega),
      List.getElem?_eq_getElem hin]
  · unfold buildTimeoutResult
    dsimp only
    rw [candleAt_of_nonneg (by omega), List.getElem?_eq_getElem hin]

/-- A trade that lasts longer than `k` candles and does not exit in them is open after them. -/
theorem exitOf_late (hne : candles ≠ [])
    (hlong : k < min service.maxHoldCandles candles.length)
    (h : ∀ exit ∈ service.firstExit random signal step prepared rng 0
      (takeSlice service.maxHoldCandles candles), step + k < exit.1.closedAtStep) :
    ∃ result rng', service.exitOf random signal candles step prepared rng = (.ok result, rng') ∧
      step + k + 1 ≤ result.closedAtStep ∧ result.entryPrice = prepared.entryPrice ∧
      result.status = "closed" := by
  have hlength : 0 < candles.length := List.length_pos_iff.mpr hne
  unfold exitOf
  cases hexit : service.firstExit random signal step prepared rng 0
      (takeSlice service.maxHoldCandles candles) with
  | some exit =>
    have hlate := h exit hexit
    obtain ⟨i, -, hclosed⟩ := firstExit_closedAt hexit
    exact ⟨exit.1, exit.2, rfl, by omega, hclosed.entry, hclosed.status⟩
  | none =>
    obtain ⟨candle, -, htimeout⟩ := @buildTimeoutResult_window service signal step prepared candles
      (by omega) hne
    dsimp only
    rw [htimeout]
    exact ⟨_, rng, rfl, by dsimp only [buildResult]; omega, rfl, rfl⟩

theorem noExit_of_late (hhold : 1 ≤ service.maxHoldCandles)
    (hshort : min service.maxHoldCandles candles.length ≤ k)
    (h : ∀ exit ∈ service.firstExit random signal step prepared rng 0
      (takeSlice service.maxHoldCandles candles), step + k < exit.1.closedAtStep) :
    service.firstExit random signal step prepared rng 0
      (takeSlice service.maxHoldCandles candles) = none := by
  rw [Option.eq_none_iff_forall_not_mem]
  intro exit hexit
  have hlate := h exit hexit
  obtain ⟨i, hi, hclosed⟩ := firstExit_closedAt hexit
  rw [hclosed.closed] at hlate
  rw [takeSlice_of_pos hhold, List.length_take] at hi
  omega

/-- Trades over candles that agree on the first `k` are the same, or both open after them. -/
theorem exitOf_agree (hhold : 1 ≤ service.maxHoldCandles) (hlength : candles.length = candles'.length)
    (hne : candles ≠ []) (h : candles.take k = candles'.take k) :
    service.exitOf random signal candles step prepared rng =
        service.exitOf random signal candles' step prepared rng ∨
      ∃ result rng' result' rng'',
        service.exitOf random signal candles step prepared rng = (.ok result, rng') ∧
        service.exitOf random signal candles' step prepared rng = (.ok result', rng'') ∧
        OpenTwins (step + k + 1) result result' := by
  have hne' : candles' ≠ [] := by
    rw [← List.length_pos_iff] at hne ⊢
    omega
  have hslices : (takeSlice service.maxHoldCandles candles).take k =
      (takeSlice service.maxHoldCandles candles').take k := by
    rw [takeSlice_of_pos hhold, takeSlice_of_pos hhold, List.take_take, List.take_take,
      Nat.min_comm, ← List.take_take, h, List.take_take]
  obtain ⟨exit, hexit, hexit'⟩ | ⟨hlate, hlate'⟩ :=
    @firstExit_agree service ρ random signal step prepared rng 0 k _ _ hslices
  · left
    unfold exitOf
    rw [hexit, hexit']
  · rw [Nat.cast_zero, zero_add] at hlate hlate'
    by_cases hlong : k < min service.maxHoldCandles candles.length
    · right
      obtain ⟨result, rng', hresult, hclose, hentry, hstatus⟩ := exitOf_late hne hlong hlate
      rw [hlength] at hlong
      obtain ⟨result', rng'', hresult', hclose', hentry', hstatus'⟩ :=
        exitOf_late hne' hlong hlate'
      exact ⟨result, rng', result', rng'', hresult, hresult', hclose, hclose',
        hentry.trans hentry'.symm, hstatus, hstatus'⟩
    · left
      have hnone := noExit_of_late hhold (by omega) hlate
      have hnone' := noExit_of_late hhold (by omega) hlate'
      unfold exitOf
      rw [hnone, hnone']
      dsimp only
      unfold buildTimeoutResult
      have hsame : candles[(min service.maxHoldCandles candles.length - 1).toNat]? =
          candles'[(min service.maxHoldCandles candles.length - 1).toNat]? := by
        have hlength' := List.length_pos_iff.mpr hne
        have hin : (min service.maxHoldCandles candles.length - 1).toNat < k := by omega
        rw [← List.getElem?_take_of_lt hin, h, List.getElem?_take_of_lt hin]
      have hlength' := List.length_pos_iff.mpr hne
      dsimp only
      rw [← hlength, candleAt_of_nonneg (by omega), candleAt_of_nonneg (by omega), hsame]

theorem executeReplaySignal_agree (hhold : 1 ≤ service.maxHoldCandles)
    (hlength : candles.length = candles'.length) (h : candles.take (k + 1) = candles'.take (k + 1)) :
    service.executeReplaySignal random signal candles step rng =
        service.executeReplaySignal random signal candles' step rng ∨
      ∃ result rng' result' rng'',
        service.executeReplaySignal random signal candles step rng = (.ok result, rng') ∧
        service.executeReplaySignal random signal candles' step rng = (.ok result', rng'') ∧
        OpenTwins (step + (k + 1) + 1) result result' := by
  unfold executeReplaySignal
  cases service.maybeSkipSpotShort signal step with
  | some skipped => exact .inl rfl
  | none =>
    dsimp only
    cases candles with
    | nil =>
      have hnil : candles' = [] := by simpa using hlength.symm
      subst hnil
      exact .inl rfl
    | cons first rest =>
      cases candles' with
      | nil => simp at hlength
      | cons first' rest' =>
        have hfirst : first = first' := by
          rw [List.take_succ_cons, List.take_succ_cons] at h
          exact (List.cons.inj h).1
        subst hfirst
        dsimp only
        match service.prepareExecution random signal first step rng with
        | (.inr result, rng) => exact .inl rfl
        | (.inl prepared, rng) =>
          have hexit := @exitOf_agree service ρ random signal step prepared rng (k + 1) _ _ hhold
            hlength (List.cons_ne_nil _ _) h
          push_cast at hexit
          exact hexit

/-- The trade is closed at its step or at one of the candles to come. -/
def ClosesWithin (candles : List (MarketCandle Rat)) (step : Int)
    (result : SimulationExecutionResult) : Prop :=
  step ≤ result.closedAtStep ∧ result.closedAtStep ≤ step + candles.length

theorem ClosesWithin.here {result : SimulationExecutionResult} (h : result.closedAtStep = step) :
    ClosesWithin candles step result := by
  unfold ClosesWithin
  omega

theorem exitOf_closesWithin (hhold : 1 ≤ service.maxHoldCandles) (hne : candles ≠ []) :
    ∃ result rng', service.exitOf random signal candles step prepared rng = (.ok result, rng') ∧
      ClosesWithin candles step result := by
  unfold exitOf
  cases hexit : service.firstExit random signal step prepared rng 0
      (takeSlice service.maxHoldCandles candles) with
  | some exit =>
    obtain ⟨i, hi, hclosed⟩ := firstExit_closedAt hexit
    rw [takeSlice_of_pos hhold, List.length_take] at hi
    refine ⟨exit.1, exit.2, rfl, ?_, ?_⟩
    · rw [hclosed.closed]
      omega
    · rw [hclosed.closed]
      omega
  | none =>
    obtain ⟨candle, -, htimeout⟩ := @buildTimeoutResult_window service signal step prepared candles
      hhold hne
    have hpos := List.length_pos_iff.mpr hne
    dsimp only
    rw [htimeout]
    refine ⟨_, rng, rfl, ?_, ?_⟩
    · dsimp only [buildResult]
      omega
    · dsimp only [buildResult]
      omega

theorem closedAtStep_spotConstraints {entryPrice qty : Rat} {result : SimulationExecutionResult}
    (h : result ∈ service.maybeSkipSpotConstraints signal step entryPrice qty) :
    result.closedAtStep = step := by
  unfold maybeSkipSpotConstraints at h
  dsimp only at h
  split_ifs at h
  · cases h
  · obtain rfl := Option.some.inj h
    rfl
  · obtain rfl := Option.some.inj h
    rfl
  · cases h

theorem closedAtStep_prepareExecution {first : MarketCandle Rat}
    {result : SimulationExecutionResult} {rng' : ρ}
    (h : service.prepareExecution random signal first step rng = (.inr result, rng')) :
    result.closedAtStep = step := by
  unfold prepareExecution at h
  dsimp only at h
  generalize service.applySpread (service.resolveEntryPrice signal first)
    (entrySide signal.direction) (service.fillTerms (service.makerFill random rng).1).2 =
      entryPrice at h
  generalize (if service.decimals.abs (service.decimals.sub entryPrice signal.stop) ≠ 0 then _
    else _) = qty at h
  by_cases hqty : qty ≤ 0
  · rw [if_pos hqty] at h
    cases h
    rfl
  · rw [if_neg hqty] at h
    split at h
    · rename_i skipped hskip
      cases h
      exact closedAtStep_spotConstraints hskip
    · cases h

/-- Every execution closes at its step or at one of the candles it is given. -/
theorem executeReplaySignal_closesWithin (hhold : 1 ≤ service.maxHoldCandles) :
    ∃ result rng', service.executeReplaySignal random signal candles step rng = (.ok result, rng') ∧
      ClosesWithin candles step result := by
  unfold executeReplaySignal
  cases hskip : service.maybeSkipSpotShort signal step with
  | some skipped =>
    refine ⟨skipped, rng, rfl, .here ?_⟩
    unfold maybeSkipSpotShort at hskip
    split_ifs at hskip
    obtain rfl := Option.some.inj hskip
    rfl
  | none =>
    dsimp only
    cases candles with
    | nil => exact ⟨_, rng, rfl, .here rfl⟩
    | cons first rest =>
      dsimp only
      match hprepare : service.prepareExecution random signal first step rng with
      | (.inr result, rng') => exact ⟨result, rng', rfl, .here (closedAtStep_prepareExecution hprepare)⟩
      | (.inl prepared, rng') => exact exitOf_closesWithin hhold (List.cons_ne_nil _ _)

end SimulationExecutionService
end AmaExecutionCore
