import AmaExecutionCore.Grid
import AmaExecutionCore.IndicatorFacts
import Mathlib.Tactic.FieldSimp
import Mathlib.Tactic.Linarith
import Mathlib.Tactic.Positivity
import Mathlib.Tactic.Ring

/-! `suggest_grid`: a range around the last close, as wide as the average true range says, cut
into as many levels as the smallest step allows, or widened to four of them. -/
namespace AmaExecutionCore

/-- A value of a raw candle: a text with the number that `float` reads in it, any other object
with its `repr`. -/
inductive RawValue where
  | bool (b : Bool)
  | number (q : Rat)
  | text (repr : String) (number : Option Rat)
  | other (repr : String)

/-- A mapping, without the keys whose value is `None`, or a sequence. -/
inductive RawCandle where
  | mapping (get : String → Option RawValue)
  | sequence (values : List RawValue)

structure AdvisorCandle where
  high : Rat
  low : Rat
  close : Rat
  deriving DecidableEq, Repr

inductive AdvisorError where
  | valueError (text : String)
  | typeError (text : String)
  | indexError
  | zeroDivisionError
  deriving DecidableEq, Repr

/-- The arguments of `suggest_grid` beside the candles, with their defaults. -/
structure GridSuggestOptions where
  capitalUsdt : Rat
  minStepPct : Rat := 1 / 200
  targetNLevels : Int := 10
  atrPeriod : Nat := 20
  atrMultiplier : Rat := 2
  symbol : String := "XRPUSDT"

namespace GridAdvisor

def toFloat : RawValue → Except AdvisorError Rat
  | .bool b =>
    .error (.typeError ("Expected numeric candle value, got " ++ (if b then "True" else "False") ++ "."))
  | .number q => .ok q
  | .text repr number =>
    number.elim (.error (.valueError ("could not convert string to float: " ++ repr))) .ok
  | .other repr => .error (.valueError ("Expected numeric candle value, got " ++ repr ++ "."))

def floatFromMapping (get : String → Option RawValue) (key : String) : Except AdvisorError Rat :=
  match get key with
  | none => .error (.valueError ("Candle missing required key: " ++ key))
  | some raw => toFloat raw

def parseAdvisorCandle : RawCandle → Except AdvisorError AdvisorCandle
  | .mapping get => do
    let high ← floatFromMapping get "high"
    let low ← floatFromMapping get "low"
    let close ← floatFromMapping get "close"
    return ⟨high, low, close⟩
  | .sequence (_ :: _ :: rawHigh :: rawLow :: rawClose :: _) => do
    let high ← toFloat rawHigh
    let low ← toFloat rawLow
    let close ← toFloat rawClose
    return ⟨high, low, close⟩
  | .sequence values =>
    .error (.valueError ("Expected candle with at least 5 values, got " ++ toString values.length
      ++ "."))

/-- The sum of `_calculate_atr`, over the last candles and the close before each, by its length. -/
def averageTrueRange (candles : List AdvisorCandle) (atrPeriod : Nat) : Rat :=
  let recent := (pairwise candles).drop (candles.length - atrPeriod - 1)
  let trueRanges := recent.map fun (previous, current) =>
    trueRange current.high current.low previous.close
  trueRanges.sum / atrPeriod

def calculateAtr (candles : List AdvisorCandle) (atrPeriod : Nat) : Except AdvisorError Rat :=
  if atrPeriod = 0 then .error .zeroDivisionError else .ok (averageTrueRange candles atrPeriod)

def minimumHalfRange (currentPrice : Rat) (nLevels : Nat) (minStepPct : Rat) : Rat :=
  let targetStepPct := minStepPct * (1 + 1 / 10 ^ 12)
  targetStepPct * nLevels * currentPrice / (2 + targetStepPct * nLevels)

def rangeStepPct (pMin pMax : Rat) (nLevels : Nat) : Rat := (pMax - pMin) / nLevels / pMin

/-- The loop of `suggest_grid`. -/
def reduceLevels (pMin pMax minStepPct : Rat) : Nat → Nat
  | 0 => 0
  | n + 1 =>
    if 4 < n + 1 ∧ rangeStepPct pMin pMax (n + 1) < minStepPct then reduceLevels pMin pMax minStepPct n
    else n + 1

/-- `GridConfig(...)`, which raises on an empty range. -/
def gridConfig (options : GridSuggestOptions) (pMin pMax : Rat) (nLevels : Nat) :
    Except AdvisorError GridConfig :=
  if h : pMin < pMax then
    .ok { symbol := options.symbol, pMin := pMin, pMax := pMax, nLevels := nLevels
          capitalUsdt := options.capitalUsdt, ordered := h }
  else .error (.valueError "p_max must be greater than p_min")

/-- The rest of `suggest_grid`, once the range is known. -/
def chooseLevels (options : GridSuggestOptions) (currentPrice halfRange : Rat) :
    Except AdvisorError GridConfig :=
  let pMin := currentPrice - halfRange
  let pMax := currentPrice + halfRange
  if pMin ≤ 0 then .error (.valueError "Suggested grid lower bound must be positive.")
  else
    let nLevels := reduceLevels pMin pMax options.minStepPct (max 4 options.targetNLevels).toNat
    if rangeStepPct pMin pMax nLevels < options.minStepPct then
      let halfRange := minimumHalfRange currentPrice nLevels options.minStepPct
      gridConfig options (currentPrice - halfRange) (currentPrice + halfRange) nLevels
    else gridConfig options pMin pMax nLevels

def suggestGrid (candles : List RawCandle) (options : GridSuggestOptions) :
    Except AdvisorError GridConfig :=
  if candles.length < options.atrPeriod + 1 then
    .error (.valueError "ATR grid suggestion requires at least atr_period + 1 candles.")
  else do
    let parsedCandles ← candles.mapM parseAdvisorCandle
    let atr ← calculateAtr parsedCandles options.atrPeriod
    let currentPrice ← (parsedCandles.getLast?).elim (.error .indexError) fun candle => .ok candle.close
    chooseLevels options currentPrice (options.atrMultiplier * atr)

/-! The range around a price and its step -/

section Range
variable {price half minStepPct : Rat} {n : Nat}

theorem rangeStepPct_around : rangeStepPct (price - half) (price + half) n =
    2 * half / n / (price - half) := by
  unfold rangeStepPct
  ring

/-- A range reaches a step when it is wide enough for it. -/
theorem le_rangeStepPct_iff (hn : 0 < n) (hlow : 0 < price - half) (step : Rat) :
    step ≤ rangeStepPct (price - half) (price + half) n ↔ step * n * price ≤ half * (2 + step * n) := by
  have hlevels : (0 : Rat) < n := Nat.cast_pos.mpr hn
  rw [rangeStepPct_around, le_div_iff₀ hlow, le_div_iff₀ hlevels]
  constructor <;> intro h <;> linarith

/-- The widened range has the step it was made for, just above the least. -/
theorem minimumHalfRange_spec (hprice : 0 < price) (hstep : 0 < minStepPct) (hn : 0 < n) :
    0 < minimumHalfRange price n minStepPct ∧ 0 < price - minimumHalfRange price n minStepPct ∧
    rangeStepPct (price - minimumHalfRange price n minStepPct)
      (price + minimumHalfRange price n minStepPct) n = minStepPct * (1 + 1 / 10 ^ 12) := by
  unfold minimumHalfRange
  dsimp only
  have htarget : 0 < minStepPct * (1 + 1 / 10 ^ 12) := by positivity
  generalize minStepPct * (1 + 1 / 10 ^ 12) = target at *
  have hlevels : (0 : Rat) < n := Nat.cast_pos.mpr hn
  have hparts : 0 < 2 + target * n := by positivity
  have hrest : price - target * n * price / (2 + target * n) = 2 * price / (2 + target * n) := by
    field_simp
    ring
  have hlow : 0 < price - target * n * price / (2 + target * n) := by
    rw [hrest]
    positivity
  refine ⟨by positivity, hlow, ?_⟩
  rw [rangeStepPct_around, hrest]
  field_simp

theorem lt_minimumHalfRange (hstep : 0 < minStepPct) (hn : 0 < n) (hlow : 0 < price - half)
    (hprice : 0 < price) (h : rangeStepPct (price - half) (price + half) n < minStepPct) :
    half < minimumHalfRange price n minStepPct := by
  obtain ⟨-, hlow', hstep'⟩ := minimumHalfRange_spec hprice hstep hn
  have htarget : minStepPct ≤ minStepPct * (1 + 1 / 10 ^ 12) := by linarith
  have hwide := (le_rangeStepPct_iff hn hlow' minStepPct).mp (hstep' ▸ htarget)
  have hnarrow := (not_congr (le_rangeStepPct_iff hn hlow minStepPct)).mp (not_le.mpr h)
  have hparts : 0 < 2 + minStepPct * n := by positivity
  exact lt_of_mul_lt_mul_right (lt_of_lt_of_le (not_le.mp hnarrow) hwide) hparts.le

end Range

/-- The loop ends at the largest number of levels that reaches the step, or at four. -/
theorem reduceLevels_spec (pMin pMax minStepPct : Rat) {n : Nat} (h : 4 ≤ n) :
    4 ≤ reduceLevels pMin pMax minStepPct n ∧ reduceLevels pMin pMax minStepPct n ≤ n ∧
    (∀ k, reduceLevels pMin pMax minStepPct n < k → k ≤ n →
      rangeStepPct pMin pMax k < minStepPct) ∧
    (reduceLevels pMin pMax minStepPct n = 4 ∨
      minStepPct ≤ rangeStepPct pMin pMax (reduceLevels pMin pMax minStepPct n)) := by
  induction n with
  | zero => omega
  | succ n ih =>
    unfold reduceLevels
    by_cases hmore : 4 < n + 1 ∧ rangeStepPct pMin pMax (n + 1) < minStepPct
    · rw [if_pos hmore]
      obtain ⟨hfour, hle, hnone, hend⟩ := ih (by omega)
      refine ⟨hfour, by omega, ?_, hend⟩
      intro k hk hkn
      obtain hlast | hless := Nat.eq_or_lt_of_le hkn
      · exact hlast ▸ hmore.2
      · exact hnone k hk (by omega)
    · rw [if_neg hmore]
      refine ⟨h, le_rfl, by omega, ?_⟩
      by_cases hfour : n + 1 = 4
      · exact .inl hfour
      · exact .inr (not_lt.mp fun hstep => hmore ⟨by omega, hstep⟩)

theorem averageTrueRange_nonneg (candles : List AdvisorCandle) (atrPeriod : Nat) :
    0 ≤ averageTrueRange candles atrPeriod := by
  unfold averageTrueRange
  apply div_nonneg _ atrPeriod.cast_nonneg
  apply List.sum_nonneg
  intro x hx
  obtain ⟨⟨previous, current⟩, -, rfl⟩ := List.mem_map.mp hx
  exact trueRange_nonneg current.high current.low previous.close

/-! The suggestion -/

/-- The configuration is a grid around the price with as many levels as the range allows. -/
structure Suggested (options : GridSuggestOptions) (price half : Rat) (config : GridConfig) : Prop where
  positive : 0 < config.pMin
  below : config.pMin < price
  above : price < config.pMax
  symmetric : price - config.pMin = config.pMax - price
  atLeast : 4 ≤ config.nLevels
  atMost : (config.nLevels : Int) ≤ max 4 options.targetNLevels
  step : options.minStepPct ≤ config.stepPct
  largest : ∀ n : Nat, config.nLevels < n → (n : Int) ≤ max 4 options.targetNLevels →
    rangeStepPct (price - half) (price + half) n < options.minStepPct
  range : (config.pMin = price - half ∧ config.pMax = price + half) ∨
    (config.nLevels = 4 ∧ rangeStepPct (price - half) (price + half) 4 < options.minStepPct ∧
      config.pMin < price - half ∧ price + half < config.pMax)

theorem gridConfig_around {options : GridSuggestOptions} {price half : Rat} {n : Nat} (h : 0 < half) :
    ∃ config, gridConfig options (price - half) (price + half) n = .ok config ∧
      config.pMin = price - half ∧ config.pMax = price + half ∧ config.nLevels = n := by
  unfold gridConfig
  rw [dif_pos (by linarith)]
  exact ⟨_, rfl, rfl, rfl, rfl⟩

theorem chooseLevels_spec {options : GridSuggestOptions} {price half : Rat}
    (hstep : 0 < options.minStepPct) (hhalf : 0 ≤ half) (hlow : 0 < price - half) :
    ∃ config, chooseLevels options price half = .ok config ∧ Suggested options price half config := by
  have hprice : 0 < price := by linarith
  obtain ⟨levels, hlevels⟩ := Int.eq_ofNat_of_zero_le (show 0 ≤ max 4 options.targetNLevels by omega)
  obtain ⟨hfour, hle, hnone, hend⟩ := reduceLevels_spec (price - half) (price + half) options.minStepPct
    (show 4 ≤ levels by omega)
  unfold chooseLevels
  dsimp only
  rw [if_neg (not_le.mpr hlow), hlevels, Int.toNat_natCast]
  generalize reduceLevels (price - half) (price + half) options.minStepPct levels = n at *
  by_cases hnarrow : rangeStepPct (price - half) (price + half) n < options.minStepPct
  · rw [if_pos hnarrow]
    have hn : n = 4 := hend.resolve_right (not_le.mpr hnarrow)
    obtain ⟨hpos, hpositive, hreached⟩ := minimumHalfRange_spec hprice hstep (show 0 < n by omega)
    have hwider := lt_minimumHalfRange hstep (by omega) hlow hprice hnarrow
    obtain ⟨config, hconfig, hmin, hmax, hcount⟩ :=
      @gridConfig_around options price (minimumHalfRange price n options.minStepPct) n hpos
    have hpct : config.stepPct = options.minStepPct * (1 + 1 / 10 ^ 12) := by
      rw [← hreached, ← hmin, ← hmax, ← hcount]
      rfl
    refine ⟨config, hconfig, ?_⟩
    exact {
      positive := by rw [hmin]; exact hpositive
      below := by linarith
      above := by linarith
      symmetric := by linarith
      atLeast := by omega
      atMost := by omega
      step := by linarith
      largest := fun k hk hkn => hnone k (by omega) (by omega)
      range := .inr ⟨by omega, hn ▸ hnarrow, by linarith, by linarith⟩ }
  · rw [if_neg hnarrow]
    have hpos : 0 < half := by
      by_contra hflat
      have hzero : half = 0 := le_antisymm (not_lt.mp hflat) hhalf
      subst hzero
      rw [rangeStepPct_around] at hnarrow
      simp only [mul_zero, zero_div, not_lt] at hnarrow
      linarith
    obtain ⟨config, hconfig, hmin, hmax, hcount⟩ := @gridConfig_around options price half n hpos
    have hpct : config.stepPct = rangeStepPct (price - half) (price + half) n := by
      rw [← hmin, ← hmax, ← hcount]
      rfl
    refine ⟨config, hconfig, ?_⟩
    exact {
      positive := by rw [hmin]; exact hlow
      below := by linarith
      above := by linarith
      symmetric := by linarith
      atLeast := by omega
      atMost := by omega
      step := by rw [hpct]; exact not_lt.mp hnarrow
      largest := fun k hk hkn => hnone k (by omega) (by omega)
      range := .inl ⟨hmin, hmax⟩ }

theorem suggestGrid_parsed {candles : List RawCandle} {options : GridSuggestOptions}
    {parsed : List AdvisorCandle} (hcount : options.atrPeriod + 1 ≤ candles.length)
    (hperiod : 1 ≤ options.atrPeriod) (h : candles.mapM parseAdvisorCandle = .ok parsed) :
    ∃ last, parsed.getLast? = some last ∧ suggestGrid candles options =
      chooseLevels options last.close
        (options.atrMultiplier * averageTrueRange parsed options.atrPeriod) := by
  have hlength := (Fallible.forall₂_of_mapM h).length_eq
  have hne : parsed ≠ [] := List.ne_nil_of_length_pos (by omega)
  refine ⟨parsed.getLast hne, List.getLast?_eq_some_getLast hne, ?_⟩
  have hatr : calculateAtr parsed options.atrPeriod = .ok (averageTrueRange parsed options.atrPeriod) :=
    if_neg (by omega)
  unfold suggestGrid
  rw [if_neg (by omega), h]
  dsimp only [bind, Except.bind]
  rw [hatr, List.getLast?_eq_some_getLast hne]
  rfl

/-- Enough candles end in a suggestion around the last close, unless the range reaches zero; the
first malformed candle is reported. -/
theorem suggestGrid_suggested (candles : List RawCandle) (options : GridSuggestOptions)
    (hcount : options.atrPeriod + 1 ≤ candles.length) (hperiod : 1 ≤ options.atrPeriod)
    (hstep : 0 < options.minStepPct) (hmultiplier : 0 ≤ options.atrMultiplier) :
    (∃ e, candles.mapM parseAdvisorCandle = .error e ∧ suggestGrid candles options = .error e) ∨
    ∃ parsed last, candles.mapM parseAdvisorCandle = .ok parsed ∧ parsed.getLast? = some last ∧
      let half := options.atrMultiplier * averageTrueRange parsed options.atrPeriod
      (last.close - half ≤ 0 ∧ suggestGrid candles options =
        .error (.valueError "Suggested grid lower bound must be positive.")) ∨
      (0 < last.close - half ∧ ∃ config, suggestGrid candles options = .ok config ∧
        Suggested options last.close half config) := by
  cases hparsed : candles.mapM parseAdvisorCandle with
  | error e =>
    refine .inl ⟨e, rfl, ?_⟩
    unfold suggestGrid
    rw [if_neg (by omega), hparsed]
    rfl
  | ok parsed =>
    obtain ⟨last, hlast, hchosen⟩ := suggestGrid_parsed hcount hperiod hparsed
    refine .inr ⟨parsed, last, rfl, hlast, ?_⟩
    rw [hchosen]
    have hhalf : 0 ≤ options.atrMultiplier * averageTrueRange parsed options.atrPeriod :=
      mul_nonneg hmultiplier (averageTrueRange_nonneg parsed options.atrPeriod)
    by_cases hlow : last.close - options.atrMultiplier * averageTrueRange parsed options.atrPeriod ≤ 0
    · refine .inl ⟨hlow, ?_⟩
      unfold chooseLevels
      exact if_pos hlow
    · exact .inr ⟨not_le.mp hlow, chooseLevels_spec hstep hhalf (not_le.mp hlow)⟩

def flatMarket (close : Rat) : List RawCandle :=
  List.replicate 2 (.sequence [.number 0, .number close, .number close, .number close, .number close])

/-- A flat market at 100 gets four levels around it. -/
theorem suggestGrid_flat : ∃ config,
    suggestGrid (flatMarket 100) { capitalUsdt := 20, atrPeriod := 1 } = .ok config ∧
      Suggested { capitalUsdt := 20, atrPeriod := 1 } 100 0 config := by
  have hrun := suggestGrid_suggested (flatMarket 100) { capitalUsdt := 20, atrPeriod := 1 }
    (by decide) (by decide) (by decide +kernel) (by decide +kernel)
  have hparsed : (flatMarket 100).mapM parseAdvisorCandle = .ok (List.replicate 2 ⟨100, 100, 100⟩) := rfl
  obtain ⟨e, herror, -⟩ | ⟨parsed, last, hok, hlast, hsuggested⟩ := hrun
  · rw [hparsed] at herror
    exact nomatch herror
  · rw [hparsed] at hok
    obtain rfl := Except.ok.inj hok
    obtain rfl := Option.some.inj hlast
    have hflat : (2 : Rat) * averageTrueRange (List.replicate 2 ⟨100, 100, 100⟩) 1 = 0 := by
      decide +kernel
    obtain ⟨hlow, -⟩ | ⟨-, hconfig⟩ := hsuggested
    · exact absurd hlow (by decide +kernel)
    · dsimp only at hconfig
      rw [hflat] at hconfig
      exact hconfig

end GridAdvisor

end AmaExecutionCore
