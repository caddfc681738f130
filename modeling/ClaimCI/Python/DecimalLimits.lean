import ClaimCI.Python.DecimalText

/-!
# The exponent limits of decimals

The decimal type holds numbers between two exponents only. Everything a double can be written as,
and everything such a number rounds to, lies far inside them.
-/

namespace Python

namespace Decimal

/-- The number is within the exponent limits of the decimal type. -/
def Representable (d : Decimal) : Prop :=
  -1999999999999999997 ≤ d.exponent ∧
    (if d.coefficient = 0 then d.exponent else d.exponent + digitCount d.coefficient - 1) ≤
      999999999999999999

instance (d : Decimal) : Decidable d.Representable := by
  unfold Representable
  infer_instance

end Decimal

/-- `Decimal(text)` of a numeral; `none` is `InvalidOperation`. -/
def Numeral.readDecimal (n : Numeral) : Option Decimal :=
  if n.toDecimal.Representable then some n.toDecimal else none

namespace Decimal

/-- A decimal within the limits is read from its text. -/
theorem readDecimal_spelling {d : Decimal} (limits : d.Representable) :
    (parseNumeral d.spelling.render).bind Numeral.readDecimal = some d := by
  rw [parseNumeral_render d.spelling d.spelling_wellFormed]
  rw [Option.bind_some, Numeral.readDecimal, spelling_toDecimal, if_pos limits]

/-! ### Rounding and the limits -/

theorem fix_digits {precision : Nat} (hp : 0 < precision) (d : Decimal) :
    digitCount (d.fix precision).coefficient ≤ precision := by
  unfold fix
  split
  · assumption
  next long =>
    have count := (digitCount_le_iff d.coefficient _ (digitCount_pos _)).mp le_rfl
    have tens : 0 < 10 ^ (digitCount d.coefficient - precision) := Nat.pow_pos (by norm_num)
    have most : roundHalfEven d.coefficient (10 ^ (digitCount d.coefficient - precision)) ≤
        10 ^ precision := by
      apply roundHalfEven_le tens
      rw [← pow_add, show precision + (digitCount d.coefficient - precision) =
        digitCount d.coefficient by omega]
      exact count.le
    simp only
    split
    · rw [digitCount_le_iff _ _ hp]
      exact Nat.pow_lt_pow_right (by norm_num) (by omega)
    next other =>
      rw [digitCount_le_iff _ _ hp]
      exact lt_of_le_of_ne most other

theorem fix_exponent_ge (precision : Nat) (d : Decimal) :
    d.exponent ≤ (d.fix precision).exponent := by
  unfold fix
  split
  · rfl
  · simp only
    split <;> simp only <;> omega

theorem normalize_exponent_ge (precision : Nat) (d : Decimal) :
    (d.normalize precision).coefficient = 0 ∧ (d.normalize precision).exponent = 0 ∨
      d.exponent ≤ (d.normalize precision).exponent := by
  have grows := fix_exponent_ge precision d
  simp only [normalize]
  split
  · exact .inl ⟨rfl, rfl⟩
  · right
    simp only
    omega

theorem magnitude_normalize (precision : Nat) (d : Decimal) :
    (d.normalize precision).magnitude = (d.fix precision).magnitude := by
  rw [magnitude_eq_abs, toRat_normalize, ← magnitude_eq_abs]

/-- A number of moderate size and scale is within the limits. -/
theorem representable_of_magnitude {d : Decimal} (low : -100000 ≤ d.exponent)
    (zero : d.coefficient = 0 → d.exponent ≤ 0) (high : d.magnitude ≤ (10 : ℚ) ^ (400 : Int)) :
    d.Representable := by
  refine ⟨by omega, ?_⟩
  split
  next vanishes =>
    have := zero vanishes
    omega
  next nonzero =>
    have leading := (digitCount_bounds (Nat.pos_of_ne_zero nonzero)).1
    have count := digitCount_pos d.coefficient
    have below : (10 : ℚ) ^ (((digitCount d.coefficient - 1 : Nat) : Int) + d.exponent) ≤
        (10 : ℚ) ^ (400 : Int) := by
      calc (10 : ℚ) ^ (((digitCount d.coefficient - 1 : Nat) : Int) + d.exponent)
          = ((10 ^ (digitCount d.coefficient - 1) : Nat) : ℚ) * (10 : ℚ) ^ d.exponent := by
            rw [zpow_add₀ (by norm_num), zpow_natCast]
            push_cast
            rfl
        _ ≤ d.coefficient * (10 : ℚ) ^ d.exponent :=
          mul_le_mul_of_nonneg_right (by exact_mod_cast leading) (zpow_nonneg (by norm_num) _)
        _ ≤ (10 : ℚ) ^ (400 : Int) := high
    have exponents := (zpow_le_zpow_iff_right₀ (by norm_num : (1 : ℚ) < 10)).mp below
    omega

theorem normalize_representable {precision : Nat} (hp : 0 < precision) {d : Decimal}
    (low : -100000 ≤ d.exponent) (high : d.magnitude ≤ (10 : ℚ) ^ (400 : Int)) :
    (d.normalize precision).Representable := by
  have one : (⟨false, 1, 400⟩ : Decimal).magnitude = (10 : ℚ) ^ (400 : Int) := by
    rw [magnitude, Nat.cast_one, one_mul]
  apply representable_of_magnitude
  · rcases normalize_exponent_ge precision d with ⟨-, zero⟩ | grows
    · omega
    · omega
  · intro vanishes
    have normal := normalize_normal precision d
    rw [Normal, if_pos vanishes] at normal
    exact normal.le
  · rw [magnitude_normalize, ← one]
    apply magnitude_fix_le hp
    · rw [digitCount_le_iff _ _ hp]
      exact Nat.one_lt_pow hp.ne' (by norm_num)
    · rwa [one]

end Decimal

/-! ### The numbers doubles are read from -/

namespace Binary64

private theorem floorLog2_small {n d : Nat} (hn : n ≠ 0) (fits : (roundFraction n d).2 ≤ 971) :
    floorLog2 n d ≤ 1023 := by
  simp only [roundFraction, if_neg hn] at fits
  split at fits <;> simp only at fits <;> omega

/-- A decimal that `float` reads as a finite number is below `2 ^ 1024`. -/
theorem ofDecimal_lt {d : Decimal} {x : Binary64} (read : ofDecimal d = some x) :
    d.magnitude < (2 : ℚ) ^ (1024 : Int) := by
  obtain ⟨n, m, hm, value, rounds⟩ := ofDecimal_fraction d
  rw [Decimal.magnitude, ← value]
  by_cases zero : n = 0
  · rw [zero, Nat.cast_zero, zero_div]
    exact zpow_pos (by norm_num) _
  · rw [rounds, ofFraction] at read
    split at read
    next fits =>
      have log := floorLog2_small zero fits.2.2.1
      apply (floorLog2_bounds (Nat.pos_of_ne_zero zero) hm).2.trans_le
      exact zpow_le_zpow_right₀ (by norm_num) (by omega)
    · cases read

/-- A decimal that `float` reads as a number other than zero is not below `2 ^ -1076`. -/
theorem le_ofDecimal {d : Decimal} {x : Binary64} (read : ofDecimal d = some x)
    (nonzero : x.mantissa ≠ 0) : (2 : ℚ) ^ (-1076 : Int) ≤ d.magnitude := by
  obtain ⟨n, m, hm, value, rounds⟩ := ofDecimal_fraction d
  rw [Decimal.magnitude, ← value]
  rw [rounds, ofFraction] at read
  split at read
  next fits =>
    have mantissa : (roundFraction n m).1 = x.mantissa := by
      rw [← Option.some.inj read]
    by_contra small
    rw [not_le] at small
    apply nonzero
    rw [← mantissa]
    by_cases zero : n = 0
    · rw [roundFraction, if_pos zero]
    · have log : floorLog2 n m < -1076 := by
        have bounds := (floorLog2_bounds (Nat.pos_of_ne_zero zero) hm).1
        exact (zpow_lt_zpow_iff_right₀ (by norm_num : (1 : ℚ) < 2)).mp (bounds.trans_lt small)
      have least : max (floorLog2 n m - 52) (-1074) = -1074 := by omega
      have den := scaleFraction_den_pos n hm (-1074)
      have scaled := scaleFraction_eq n hm (-1074)
      have half : 2 * (scaleFraction n m (-1074)).1 < (scaleFraction n m (-1074)).2 := by
        have denRat : (0 : ℚ) < (scaleFraction n m (-1074)).2 := by exact_mod_cast den
        have ratio : ((scaleFraction n m (-1074)).1 : ℚ) / (scaleFraction n m (-1074)).2 < 1 / 2 := by
          rw [scaled, div_lt_iff₀ (zpow_pos (by norm_num) _)]
          calc (n : ℚ) / m < (2 : ℚ) ^ (-1076 : Int) := small
            _ ≤ (2 : ℚ) ^ (-1 + -1074 : Int) := zpow_le_zpow_right₀ (by norm_num) (by norm_num)
            _ = 1 / 2 * (2 : ℚ) ^ (-1074 : Int) := by
              rw [zpow_add₀ (by norm_num), zpow_neg_one, one_div]
        rw [div_lt_iff₀ denRat] at ratio
        have doubled : (2 : ℚ) * (scaleFraction n m (-1074)).1 < (scaleFraction n m (-1074)).2 := by
          linarith
        exact_mod_cast doubled
      have rounded : roundHalfEven (scaleFraction n m (-1074)).1 (scaleFraction n m (-1074)).2 = 0 := by
        have whole : (scaleFraction n m (-1074)).1 / (scaleFraction n m (-1074)).2 = 0 :=
          Nat.div_eq_of_lt (by omega)
        have rest : (scaleFraction n m (-1074)).1 % (scaleFraction n m (-1074)).2 =
            (scaleFraction n m (-1074)).1 := Nat.mod_eq_of_lt (by omega)
        simp only [roundHalfEven, whole, rest, half, true_or, if_true]
      simp only [roundFraction, if_neg zero, least, rounded]
      norm_num
  · cases read

private theorem two_pow_le : (2 : ℚ) ^ (1024 : Int) ≤ (10 : ℚ) ^ (400 : Int) := by
  calc (2 : ℚ) ^ (1024 : Int) = (2 ^ (64 : Int)) ^ (16 : Int) := by rw [← zpow_mul]; rfl
    _ ≤ (10 ^ (25 : Int)) ^ (16 : Int) := by
      apply zpow_le_zpow_left₀ (by norm_num) (by norm_num) (by norm_num)
    _ = (10 : ℚ) ^ (400 : Int) := by rw [← zpow_mul]; rfl

private theorem ten_pow_lt : (10 : ℚ) ^ 22 * (10 : ℚ) ^ (-1000 : Int) < (2 : ℚ) ^ (-1076 : Int) := by
  calc (10 : ℚ) ^ 22 * (10 : ℚ) ^ (-1000 : Int) = (10 : ℚ) ^ (-978 : Int) := by
        rw [← zpow_natCast, ← zpow_add₀ (by norm_num)]
        rfl
    _ < (10 : ℚ) ^ (-538 : Int) := zpow_lt_zpow_right₀ (by norm_num) (by norm_num)
    _ ≤ (4 : ℚ) ^ (-538 : Int) := by
      rw [zpow_neg, zpow_neg]
      apply inv_anti₀ (zpow_pos (by norm_num) _)
      exact zpow_le_zpow_left₀ (by norm_num) (by norm_num) (by norm_num)
    _ = (2 ^ (2 : Int)) ^ (-538 : Int) := by norm_num
    _ = (2 : ℚ) ^ (-1076 : Int) := by rw [← zpow_mul]; rfl

theorem ofDecimal_le {d : Decimal} {x : Binary64} (read : ofDecimal d = some x) :
    d.magnitude ≤ (10 : ℚ) ^ (400 : Int) :=
  (ofDecimal_lt read).le.trans two_pow_le

/-- The digits of a double other than zero end not far behind the point. -/
theorem toDecimal_exponent_ge (x : Binary64) (nonzero : x.mantissa ≠ 0) :
    -100000 ≤ x.toDecimal.exponent := by
  have large := le_ofDecimal (ofDecimal_toDecimal x) nonzero
  have digits := (digitCount_le_iff _ _ (by norm_num)).mp x.toDecimal_digits
  by_contra small
  rw [not_le] at small
  have power : (10 : ℚ) ^ x.toDecimal.exponent ≤ (10 : ℚ) ^ (-1000 : Int) :=
    zpow_le_zpow_right₀ (by norm_num) (by omega)
  have below : x.toDecimal.magnitude ≤ (10 : ℚ) ^ 22 * (10 : ℚ) ^ (-1000 : Int) := by
    apply mul_le_mul _ power (zpow_nonneg (by norm_num) _) (by norm_num)
    exact_mod_cast digits.le
  exact absurd (large.trans below) (not_le.mpr ten_pow_lt)

end Binary64

end Python
