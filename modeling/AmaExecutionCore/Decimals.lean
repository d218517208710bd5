import AmaExecutionCore.Binary64
import Mathlib.Data.List.DropRight

/-! Positive decimal numbers with a coefficient and an exponent, in a context of 28 digits: the
shortest one that rounds to a double, and the texts of decimals without an exponent. -/
namespace Decimals

open Rounding Binary64

structure Decimal where
  coefficient : ℕ
  exponent : ℤ
  deriving DecidableEq, Repr

def precision : ℕ := 28

section Arithmetic

namespace Decimal

def value (d : Decimal) : ℚ := d.coefficient * 10 ^ d.exponent

/-- Rounding to the digits of the context. -/
def fix (d : Decimal) : Decimal :=
  if d.coefficient < 10 ^ precision then d
  else
    let excess := (Nat.toDigits 10 d.coefficient).length - precision
    ⟨(halfEven ((d.coefficient : ℚ) / 10 ^ excess)).toNat, d.exponent + excess⟩

def stripZeros (coefficient : ℕ) (exponent : ℤ) : Decimal :=
  if coefficient ≠ 0 ∧ coefficient % 10 = 0 then stripZeros (coefficient / 10) (exponent + 1)
  else ⟨coefficient, exponent⟩
termination_by coefficient

def normalize (d : Decimal) : Decimal :=
  if d.fix.coefficient = 0 then ⟨0, 0⟩ else stripZeros d.fix.coefficient d.fix.exponent

def toIntegral (d : Decimal) : Decimal :=
  if 0 ≤ d.exponent then d else ⟨(halfEven d.value).toNat, 0⟩

/-- `quantize(Decimal(1))`, and nothing where it signals an invalid operation: the digits of the
result do not fit into the context. -/
def quantizeOne (d : Decimal) : Option Decimal :=
  if 10 ^ precision ≤ (halfEven d.value).toNat then none else some ⟨(halfEven d.value).toNat, 0⟩

variable {d : Decimal}

theorem value_stripZeros (coefficient : ℕ) (exponent : ℤ) :
    (stripZeros coefficient exponent).value = coefficient * 10 ^ exponent := by
  induction coefficient using Nat.strong_induction_on generalizing exponent with
  | h coefficient ih =>
    rw [stripZeros]
    by_cases hstrip : coefficient ≠ 0 ∧ coefficient % 10 = 0
    · have hten : coefficient = coefficient / 10 * 10 := by omega
      have hcast : (coefficient : ℚ) = (coefficient / 10 : ℕ) * 10 := by exact_mod_cast hten
      rw [if_pos hstrip, ih (coefficient / 10) (by omega), hcast, zpow_add₀ (by norm_num)]
      push_cast
      ring
    · rw [if_neg hstrip]
      rfl

theorem stripZeros_coefficient_le (coefficient : ℕ) (exponent : ℤ) :
    (stripZeros coefficient exponent).coefficient ≤ coefficient := by
  induction coefficient using Nat.strong_induction_on generalizing exponent with
  | h coefficient ih =>
    rw [stripZeros]
    by_cases hstrip : coefficient ≠ 0 ∧ coefficient % 10 = 0
    · rw [if_pos hstrip]
      exact (ih (coefficient / 10) (by omega) _).trans (Nat.div_le_self _ _)
    · rw [if_neg hstrip]

theorem value_normalize (h : d.coefficient < 10 ^ precision) : d.normalize.value = d.value := by
  have hfix : d.fix = d := if_pos h
  rw [normalize, hfix]
  by_cases hzero : d.coefficient = 0
  · rw [if_pos hzero, value, value, hzero]
    simp
  · rw [if_neg hzero, value_stripZeros]
    rfl

theorem toIntegral_value_of_nonneg (h : 0 ≤ d.exponent) : d.toIntegral.value = d.value := by
  rw [toIntegral, if_pos h]

theorem exists_natCast (h : d.value = d.toIntegral.value) : ∃ n : ℕ, d.value = n := by
  rw [toIntegral] at h
  by_cases hexponent : 0 ≤ d.exponent
  · obtain ⟨n, hn⟩ := Int.eq_ofNat_of_zero_le hexponent
    refine ⟨d.coefficient * 10 ^ n, ?_⟩
    rw [value, hn]
    push_cast
    rfl
  · rw [if_neg hexponent] at h
    refine ⟨(halfEven d.value).toNat, h.trans ?_⟩
    rw [value, zpow_zero, mul_one]

theorem quantizeOne_natCast {n : ℕ} (h : d.value = n) (hn : n < 10 ^ precision) :
    d.quantizeOne = some ⟨n, 0⟩ := by
  have hround : (halfEven d.value).toNat = n := by
    rw [h, ← Int.cast_natCast, halfEven_intCast, Int.toNat_natCast]
  rw [quantizeOne, hround, if_neg (by omega)]

end Decimal

end Arithmetic

section Texts

namespace Decimal

/-- `str(d)` of a decimal with exponent zero. -/
def unitText (d : Decimal) : List Char := Nat.toDigits 10 d.coefficient

/-- The `places` digits behind the point. -/
def fractionText (places remainder : ℕ) : List Char :=
  List.replicate (places - (Nat.toDigits 10 remainder).length) '0' ++ Nat.toDigits 10 remainder

/-- `format(d, "f")`. -/
def fixedText (d : Decimal) : List Char :=
  if 0 ≤ d.exponent then
    Nat.toDigits 10 d.coefficient ++ List.replicate d.exponent.toNat '0'
  else
    let places := (-d.exponent).toNat
    Nat.toDigits 10 (d.coefficient / 10 ^ places) ++
      '.' :: fractionText places (d.coefficient % 10 ^ places)

end Decimal

/-- `text.rstrip(c)`. -/
def rstrip (c : Char) (text : List Char) : List Char := text.rdropWhile (· == c)

/-- The number that digits with or without a point denote. -/
def readText (text : List Char) : ℚ :=
  let fraction := (text.dropWhile (· != '.')).tail
  Nat.ofDigitChars 10 (text.takeWhile (· != '.')) 0 +
    (Nat.ofDigitChars 10 fraction 0 : ℚ) / 10 ^ fraction.length

variable {whole fraction : List Char}

theorem point_notMem_toDigits (n : ℕ) : '.' ∉ Nat.toDigits 10 n := by
  intro hmem
  have hdigit := Nat.isDigit_of_mem_toDigits (by decide) (by decide) hmem
  exact absurd hdigit (by decide)

theorem readText_whole (h : '.' ∉ whole) : readText whole = Nat.ofDigitChars 10 whole 0 := by
  have hall : ∀ c ∈ whole, (c != '.') = true := fun c hc => by
    rw [bne_iff_ne]
    exact fun heq => h (heq ▸ hc)
  rw [readText, List.takeWhile_eq_self_iff.mpr hall, List.dropWhile_eq_nil_iff.mpr hall]
  simp

theorem readText_point (h : '.' ∉ whole) (fraction : List Char) :
    readText (whole ++ '.' :: fraction) =
      Nat.ofDigitChars 10 whole 0 +
        (Nat.ofDigitChars 10 fraction 0 : ℚ) / 10 ^ fraction.length := by
  have hall : ∀ c ∈ whole, (c != '.') = true := fun c hc => by
    rw [bne_iff_ne]
    exact fun heq => h (heq ▸ hc)
  rw [readText, List.takeWhile_append_of_pos hall, List.dropWhile_append_of_pos hall]
  simp

theorem readText_toDigits (n : ℕ) : readText (Nat.toDigits 10 n) = n := by
  rw [readText_whole (point_notMem_toDigits n), Nat.ofDigitChars_ten_toDigits]

/-- Without the zeros at its end and a point that is left bare a text denotes the same number. -/
theorem readText_rstrip (hwhole : '.' ∉ whole) (hfraction : '.' ∉ fraction) :
    readText (rstrip '.' (rstrip '0' (whole ++ '.' :: fraction))) =
      readText (whole ++ '.' :: fraction) := by
  induction fraction using List.reverseRecOn with
  | nil =>
    have hpoint : rstrip '0' (whole ++ ['.']) = whole ++ ['.'] :=
      List.rdropWhile_concat_neg _ _ _ (by decide)
    have hbare : rstrip '.' (whole ++ ['.']) = whole := by
      rw [rstrip, List.rdropWhile_concat_pos _ _ _ (by decide)]
      apply List.rdropWhile_eq_self_iff.mpr
      intro hne hlast
      exact hwhole (eq_of_beq hlast ▸ List.getLast_mem hne)
    rw [hpoint, hbare, readText_whole hwhole, readText_point hwhole]
    simp
  | append_singleton fraction c ih =>
    rw [List.mem_append, not_or, List.mem_singleton] at hfraction
    have happend : whole ++ '.' :: (fraction ++ [c]) = (whole ++ '.' :: fraction) ++ [c] := by
      rw [List.append_assoc, List.cons_append]
    by_cases hc : c = '0'
    · have hzero : rstrip '0' ((whole ++ '.' :: fraction) ++ [c]) =
          rstrip '0' (whole ++ '.' :: fraction) :=
        List.rdropWhile_concat_pos _ _ _ (beq_iff_eq.mpr hc)
      rw [happend, hzero, ih hfraction.1, ← happend, readText_point hwhole, readText_point hwhole,
        Nat.ofDigitChars_append, hc, List.length_append]
      have hread : Nat.ofDigitChars 10 ['0'] (Nat.ofDigitChars 10 fraction 0) =
        10 * Nat.ofDigitChars 10 fraction 0 := rfl
      rw [hread, List.length_singleton, pow_succ]
      push_cast
      field_simp
    · have hkeep : rstrip '0' ((whole ++ '.' :: fraction) ++ [c]) =
          (whole ++ '.' :: fraction) ++ [c] :=
        List.rdropWhile_concat_neg _ _ _ (fun h => hc (eq_of_beq h))
      have hkeep' : rstrip '.' ((whole ++ '.' :: fraction) ++ [c]) =
          (whole ++ '.' :: fraction) ++ [c] :=
        List.rdropWhile_concat_neg _ _ _ (fun h => hfraction.2 (eq_of_beq h).symm)
      rw [happend, hkeep, hkeep']

theorem length_fractionText {places remainder : ℕ} (hplaces : 0 < places)
    (h : remainder < 10 ^ places) : (Decimal.fractionText places remainder).length = places := by
  have hle := (Nat.length_toDigits_le_iff (b := 10) (by decide) hplaces).mpr h
  rw [Decimal.fractionText, List.length_append, List.length_replicate]
  omega

theorem point_notMem_fractionText (places remainder : ℕ) :
    '.' ∉ Decimal.fractionText places remainder := by
  rw [Decimal.fractionText, List.mem_append, not_or]
  refine ⟨fun hmem => ?_, point_notMem_toDigits remainder⟩
  exact absurd (List.eq_of_mem_replicate hmem) (by decide)

/-- The text of a decimal with digits behind the point, stripped, still denotes it. -/
theorem readText_fixedText {d : Decimal} (h : d.exponent < 0) :
    readText (rstrip '.' (rstrip '0' d.fixedText)) = d.value := by
  obtain ⟨places, hplaces⟩ : ∃ places : ℕ, d.exponent = -places :=
    ⟨(-d.exponent).toNat, by omega⟩
  have hpositive : 0 < places := by omega
  have hremainder := Nat.mod_lt d.coefficient (Nat.pow_pos (n := places) (show 0 < 10 by decide))
  have hcount : (-d.exponent).toNat = places := by omega
  rw [Decimal.fixedText, if_neg (by omega)]
  dsimp only
  rw [hcount, readText_rstrip (point_notMem_toDigits _) (point_notMem_fractionText _ _),
    readText_point (point_notMem_toDigits _), Nat.ofDigitChars_ten_toDigits,
    length_fractionText hpositive hremainder, Decimal.fractionText, Nat.ofDigitChars_append,
    Nat.ofDigitChars_replicate_zero, Nat.mul_zero, Nat.ofDigitChars_ten_toDigits, Decimal.value,
    hplaces, zpow_neg, zpow_natCast]
  have hsplit : (d.coefficient : ℚ) =
      10 ^ places * (d.coefficient / 10 ^ places : ℕ) + (d.coefficient % 10 ^ places : ℕ) := by
    exact_mod_cast (Nat.div_add_mod d.coefficient (10 ^ places)).symm
  rw [hsplit]
  field_simp

end Texts

end Decimals
