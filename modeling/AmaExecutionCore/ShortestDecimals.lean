import AmaExecutionCore.Decimals

/-! The decimal that the text of a positive double denotes: the shortest one that rounds to the
double, and of those of its length the nearest. -/
namespace Decimals

open Rounding Binary64

/-- The two multiples of `10 ^ position` around `x`, the nearer one first. -/
def around (x : ℚ) (position : ℤ) : List Decimal :=
  let near := halfEven (x / 10 ^ position)
  let other := ⌊x / 10 ^ position⌋ + ⌈x / 10 ^ position⌉ - near
  [⟨near.toNat, position⟩, ⟨other.toNat, position⟩]

/-- The decimals of up to 17 digits next to `x`, those with fewer digits first. -/
def candidates (x : ℚ) : List Decimal :=
  (List.range 17).flatMap fun digits : ℕ => around x (Int.log 10 x - digits)

/-- The digits of `repr(x)`. -/
def shortest (x : ℚ) : Decimal :=
  let found := ((candidates x).find? fun d => nearest d.value = x).getD ⟨0, 0⟩
  Decimal.stripZeros found.coefficient found.exponent

/-- `Decimal(str(x))`: a whole number below `10 ^ 16` is written with `.0`. -/
def ofDouble (x : ℚ) : Decimal :=
  let digits := shortest x
  if 0 ≤ digits.exponent ∧ digits.value < 10 ^ 16 then
    ⟨digits.coefficient * 10 ^ (digits.exponent.toNat + 1), -1⟩
  else digits

variable {x : ℚ} {d : Decimal}

theorem coefficient_around_le {position : ℤ} {bound : ℕ} (hx : x / 10 ^ position ≤ bound)
    (hd : d ∈ around x position) : d.coefficient ≤ bound := by
  have hcast : x / 10 ^ position ≤ ((bound : ℤ) : ℚ) := by exact_mod_cast hx
  have hnear := halfEven_mono hcast
  rw [halfEven_intCast] at hnear
  have hceil : ⌈x / 10 ^ position⌉ ≤ bound := Int.ceil_le.mpr hcast
  have hcases := @halfEven_eq_or ℚ _ _ _ (x / 10 ^ position)
  rw [around, List.mem_cons, List.mem_singleton] at hd
  obtain rfl | rfl := hd <;> dsimp only <;> omega

theorem coefficient_candidates_le (hd : d ∈ candidates x) :
    d.coefficient ≤ 10 ^ 17 := by
  obtain ⟨digits, hdigits, hd⟩ := List.mem_flatMap.mp hd
  rw [List.mem_range] at hdigits
  apply coefficient_around_le _ hd
  have hlog : x < ((10 : ℕ) : ℚ) ^ (Int.log 10 x + 1) :=
    Int.lt_zpow_succ_log_self (by decide) x
  have hten : (0 : ℚ) < 10 ^ (Int.log 10 x - digits) := by positivity
  rw [div_le_iff₀ hten]
  calc
    x ≤ (10 : ℚ) ^ (Int.log 10 x + 1) := by exact_mod_cast hlog.le
    _ ≤ 10 ^ (17 + (Int.log 10 x - digits)) := zpow_le_zpow_right₀ (by norm_num) (by omega)
    _ = ((10 ^ 17 : ℕ) : ℚ) * 10 ^ (Int.log 10 x - digits) := by
      rw [zpow_add₀ (by norm_num)]
      norm_num

/-- With 17 digits the nearest decimal is near enough to round to the double. -/
theorem exists_candidate (hx : 0 < x) (hdouble : nearest x = x) :
    ∃ d ∈ candidates x, nearest d.value = x := by
  have hlog : ((10 : ℕ) : ℚ) ^ Int.log 10 x ≤ x := Int.zpow_log_le_self (by decide) hx
  rw [Nat.cast_ofNat] at hlog
  obtain ⟨position, hposition⟩ : ∃ position, position = Int.log 10 x - (16 : ℕ) := ⟨_, rfl⟩
  have hten : (0 : ℚ) < 10 ^ position := by positivity
  have hscale : 10 ^ position * 10 ^ 16 ≤ x := by
    have hsum : Int.log 10 x = position + (16 : ℕ) := by omega
    rw [hsum, zpow_add₀ (by norm_num), zpow_natCast] at hlog
    exact hlog
  have hround := abs_sub_halfEven_le (x / 10 ^ position)
  have hnonneg : 0 ≤ halfEven (x / 10 ^ position) := by
    have hpos : ((0 : ℤ) : ℚ) ≤ x / 10 ^ position := by
      rw [Int.cast_zero]
      positivity
    have hmono := halfEven_mono hpos
    rwa [halfEven_intCast] at hmono
  obtain ⟨n, hn⟩ := Int.eq_ofNat_of_zero_le hnonneg
  refine ⟨⟨n, position⟩, ?_, ?_⟩
  · refine List.mem_flatMap.mpr ⟨16, by decide, ?_⟩
    rw [← hposition, around, hn]
    exact List.mem_cons_self
  · apply nearest_of_near hx hdouble
    have hdistance : |(n : ℚ) * 10 ^ position - x| ≤ 1 / 2 * 10 ^ position := by
      have hquotient : x = x / 10 ^ position * 10 ^ position := (div_mul_cancel₀ x hten.ne').symm
      have hfactor : (n : ℚ) * 10 ^ position - x = (n - x / 10 ^ position) * 10 ^ position := by
        rw [sub_mul, ← hquotient]
      rw [hfactor, abs_mul, abs_of_pos hten, abs_sub_comm]
      rw [hn] at hround
      exact mul_le_mul_of_nonneg_right (by exact_mod_cast hround) hten.le
    rw [Decimal.value]
    dsimp only
    linarith

theorem shortest_found (hx : 0 < x) (hdouble : nearest x = x) :
    nearest (shortest x).value = x ∧ (shortest x).coefficient ≤ 10 ^ 17 := by
  obtain ⟨d, hd, hrounds⟩ := exists_candidate hx hdouble
  have hsome : ((candidates x).find? fun d => nearest d.value = x).isSome :=
    List.find?_isSome.mpr ⟨d, hd, decide_eq_true hrounds⟩
  obtain ⟨found, hfound⟩ := Option.isSome_iff_exists.mp hsome
  have hshortest : shortest x = Decimal.stripZeros found.coefficient found.exponent := by
    rw [shortest, hfound]
    rfl
  rw [hshortest]
  constructor
  · have hrounds := List.find?_some (p := fun d : Decimal => decide (nearest d.value = x)) hfound
    rw [Decimal.value_stripZeros]
    exact of_decide_eq_true hrounds
  · exact (Decimal.stripZeros_coefficient_le _ _).trans
      (coefficient_candidates_le (List.mem_of_find?_eq_some hfound))

theorem value_ofDouble (x : ℚ) : (ofDouble x).value = (shortest x).value := by
  rw [ofDouble]
  by_cases hwhole : 0 ≤ (shortest x).exponent ∧ (shortest x).value < 10 ^ 16
  · obtain ⟨n, hn⟩ := Int.eq_ofNat_of_zero_le hwhole.1
    rw [if_pos hwhole, Decimal.value, Decimal.value, hn, Int.toNat_natCast, zpow_natCast]
    push_cast
    rw [pow_succ, zpow_neg_one]
    field_simp
  · rw [if_neg hwhole]

/-- The text of a positive double reads back as the double. -/
theorem nearest_ofDouble (hx : 0 < x) (hdouble : nearest x = x) :
    nearest (ofDouble x).value = x := by
  rw [value_ofDouble]
  exact (shortest_found hx hdouble).1

theorem coefficient_ofDouble_lt (hx : 0 < x) (hdouble : nearest x = x) :
    (ofDouble x).coefficient < 10 ^ precision := by
  have hle := (shortest_found hx hdouble).2
  rw [ofDouble]
  by_cases hwhole : 0 ≤ (shortest x).exponent ∧ (shortest x).value < 10 ^ 16
  · obtain ⟨n, hn⟩ := Int.eq_ofNat_of_zero_le hwhole.1
    have hvalue := hwhole.2
    rw [Decimal.value, hn, zpow_natCast] at hvalue
    have hnat : (shortest x).coefficient * 10 ^ n < 10 ^ 16 := by exact_mod_cast hvalue
    rw [if_pos hwhole, hn, Int.toNat_natCast]
    dsimp only
    rw [pow_succ, ← Nat.mul_assoc, precision]
    omega
  · rw [if_neg hwhole]
    exact lt_of_le_of_lt hle (by decide)

end Decimals
