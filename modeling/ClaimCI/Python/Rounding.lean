import ClaimCI.Python.Binary64

/-!
# Rounding

Rounding to nearest is monotone and keeps every number it can represent: the division that rounds
half to even, the rounding of a decimal to a precision, and the rounding of a fraction to a double.
A double is spelled with few digits.
-/

namespace Python

/-! ### Division -/

theorem roundHalfEven_error (n : Nat) {d : Nat} (hd : 0 < d) :
    2 * (roundHalfEven n d * d) ≤ 2 * n + d ∧ 2 * n ≤ 2 * (roundHalfEven n d * d) + d := by
  have division : n = n / d * d + n % d := (Nat.div_add_mod' n d).symm
  have remainder : n % d < d := Nat.mod_lt n hd
  unfold roundHalfEven
  simp only
  split
  · omega
  · rw [add_mul, one_mul]
    omega

theorem le_roundHalfEven {m n d : Nat} (hd : 0 < d) (le : m * d ≤ n) : m ≤ roundHalfEven n d := by
  have quotient : m ≤ n / d := (Nat.le_div_iff_mul_le hd).mpr le
  unfold roundHalfEven
  simp only
  split
  · exact quotient
  · exact Nat.le_succ_of_le quotient

theorem roundHalfEven_le {m n d : Nat} (hd : 0 < d) (le : n ≤ m * d) : roundHalfEven n d ≤ m := by
  have quotient : n / d ≤ m := by
    have bound := Nat.div_le_div_right (c := d) le
    rwa [Nat.mul_div_cancel m hd] at bound
  unfold roundHalfEven
  simp only
  split
  · exact quotient
  next up =>
    -- a remainder is left, so the quotient is below `m`
    have positive : 0 < n % d := by omega
    have division : n / d * d + n % d = n := Nat.div_add_mod' n d
    have below : n / d * d < m * d := by omega
    exact Nat.lt_of_mul_lt_mul_right below

/-- A fraction less than one half away from an integer rounds to it. -/
theorem roundHalfEven_eq {m n d : Nat} (hd : 0 < d) (low : 2 * (m * d) < 2 * n + d)
    (high : 2 * n < 2 * (m * d) + d) : roundHalfEven n d = m := by
  obtain ⟨below, above⟩ := roundHalfEven_error n hd
  have lower : m * d < (roundHalfEven n d + 1) * d := by
    rw [add_mul, one_mul]
    omega
  have upper : roundHalfEven n d * d < (m + 1) * d := by
    rw [add_mul, one_mul]
    omega
  have lower := Nat.lt_of_mul_lt_mul_right lower
  have upper := Nat.lt_of_mul_lt_mul_right upper
  omega

/-! ### Decimals -/

namespace Decimal

/-- The exact value without the sign. -/
def magnitude (d : Decimal) : ℚ := d.coefficient * (10 : ℚ) ^ d.exponent

theorem magnitude_nonneg (d : Decimal) : 0 ≤ d.magnitude :=
  mul_nonneg (Nat.cast_nonneg _) (zpow_nonneg (by norm_num) _)

theorem toRat_eq_magnitude (d : Decimal) :
    d.toRat = if d.negative then -d.magnitude else d.magnitude := by
  unfold toRat signed magnitude
  split <;> simp

@[simp] theorem fix_negative (precision : Nat) (d : Decimal) :
    (d.fix precision).negative = d.negative := by
  unfold fix
  simp only
  split
  · rfl
  · split <;> rfl

/-- What rounding does to a coefficient that is too long: it is divided by a power of ten. -/
theorem magnitude_fix {precision : Nat} (hp : 0 < precision) (d : Decimal)
    (long : precision < digitCount d.coefficient) :
    (d.fix precision).magnitude =
      roundHalfEven d.coefficient (10 ^ (digitCount d.coefficient - precision)) *
        (10 : ℚ) ^ (d.exponent + (digitCount d.coefficient - precision : Nat)) := by
  unfold fix magnitude
  rw [if_neg (not_le.mpr long)]
  simp only
  split
  next carry =>
    have power : (10 : ℚ) ^ precision = 10 ^ (precision - 1) * 10 := by
      rw [← pow_succ, Nat.sub_add_cancel hp]
    rw [carry, zpow_add_one₀ (by norm_num)]
    push_cast
    rw [power]
    ring
  · rfl

/-- A number of at most `precision` digits that is at least as large as the last kept digit of `d`
is a multiple of it. -/
private theorem multiple_of_kept {c precision : Nat} {s q : Int} (small : c < 10 ^ precision)
    (large : (10 : ℚ) ^ (precision - 1 + q : Int) ≤ c * (10 : ℚ) ^ s) :
    ∃ m : Nat, c * (10 : ℚ) ^ s = m * (10 : ℚ) ^ q := by
  have below : c * (10 : ℚ) ^ s < 10 ^ (precision + s : Int) := by
    rw [zpow_add₀ (by norm_num), zpow_natCast]
    apply mul_lt_mul_of_pos_right _ (zpow_pos (by norm_num) s)
    exact_mod_cast small
  have exponents : (precision : Int) - 1 + q < precision + s :=
    (zpow_lt_zpow_iff_right₀ (by norm_num : (1 : ℚ) < 10)).mp (large.trans_lt below)
  obtain ⟨k, hk⟩ := Int.eq_ofNat_of_zero_le (show 0 ≤ s - q by omega)
  refine ⟨c * 10 ^ k, ?_⟩
  rw [show s = k + q by omega, zpow_add₀ (by norm_num), zpow_natCast]
  push_cast
  ring

section Precision

variable {precision : Nat} {d t : Decimal}

/-- A coefficient that is too long keeps `precision` digits. -/
private theorem kept_digits (long : precision < digitCount d.coefficient) (hp : 0 < precision) :
    10 ^ (precision - 1) * 10 ^ (digitCount d.coefficient - precision) ≤ d.coefficient := by
  rw [← pow_add, show precision - 1 + (digitCount d.coefficient - precision) =
    digitCount d.coefficient - 1 by omega]
  by_contra small
  have fewer := (digitCount_le_iff d.coefficient (digitCount d.coefficient - 1) (by omega)).mpr
    (not_le.mp small)
  omega

/-- Rounding does not carry a number below one that the precision holds. -/
theorem le_magnitude_fix (hp : 0 < precision) (fits : digitCount t.coefficient ≤ precision)
    (le : t.magnitude ≤ d.magnitude) : t.magnitude ≤ (d.fix precision).magnitude := by
  by_cases long : precision < digitCount d.coefficient
  · rw [magnitude_fix hp d long]
    set drop := digitCount d.coefficient - precision with hdrop
    have tens : 0 < 10 ^ drop := Nat.pow_pos (by norm_num)
    have power : (0 : ℚ) < (10 : ℚ) ^ (d.exponent + drop : Int) := zpow_pos (by norm_num) _
    by_cases large : (10 : ℚ) ^ (precision - 1 + (d.exponent + drop) : Int) ≤ t.magnitude
    · obtain ⟨m, multiple⟩ := multiple_of_kept
        ((digitCount_le_iff t.coefficient precision hp).mp fits) large
      rw [magnitude, multiple]
      apply mul_le_mul_of_nonneg_right _ power.le
      -- in units of the last kept digit, `m` is at most the unrounded coefficient
      have scaled : (m : ℚ) * 10 ^ drop * (10 : ℚ) ^ d.exponent ≤
          d.coefficient * (10 : ℚ) ^ d.exponent := by
        rw [magnitude, multiple, magnitude, zpow_add₀ (by norm_num), zpow_natCast] at le
        calc (m : ℚ) * 10 ^ drop * (10 : ℚ) ^ d.exponent
            = m * ((10 : ℚ) ^ d.exponent * 10 ^ drop) := by ring
          _ ≤ d.coefficient * (10 : ℚ) ^ d.exponent := le
      have below : (m : ℚ) * 10 ^ drop ≤ d.coefficient :=
        le_of_mul_le_mul_right scaled (zpow_pos (by norm_num) _)
      exact_mod_cast le_roundHalfEven tens (by exact_mod_cast below)
    · have kept : 10 ^ (precision - 1) ≤ roundHalfEven d.coefficient (10 ^ drop) :=
        le_roundHalfEven tens (kept_digits long hp)
      calc t.magnitude
          ≤ (10 : ℚ) ^ (precision - 1 + (d.exponent + drop) : Int) := (not_le.mp large).le
        _ = (10 ^ (precision - 1) : Nat) * (10 : ℚ) ^ (d.exponent + drop : Int) := by
          rw [zpow_add₀ (by norm_num), show (precision - 1 : Int) = (precision - 1 : Nat) by omega,
            zpow_natCast]
          push_cast
          rfl
        _ ≤ _ := by
          apply mul_le_mul_of_nonneg_right _ power.le
          exact_mod_cast kept
  · rw [fix_of_digits precision d (not_lt.mp long)]
    exact le

/-- Rounding does not carry a number above one that the precision holds. -/
theorem magnitude_fix_le (hp : 0 < precision) (fits : digitCount t.coefficient ≤ precision)
    (le : d.magnitude ≤ t.magnitude) : (d.fix precision).magnitude ≤ t.magnitude := by
  -- only a coefficient that is too long is rounded
  by_cases long : precision < digitCount d.coefficient
  · rw [magnitude_fix hp d long]
    set drop := digitCount d.coefficient - precision with hdrop
    have tens : 0 < 10 ^ drop := Nat.pow_pos (by norm_num)
    have power : (0 : ℚ) < (10 : ℚ) ^ (d.exponent + drop : Int) := zpow_pos (by norm_num) _
    -- the kept digits of `t` reach at least the power that rounding may carry into
    have large : (10 : ℚ) ^ (precision - 1 + (d.exponent + drop) : Int) ≤ t.magnitude := by
      have kept : ((10 ^ (precision - 1) * 10 ^ drop : Nat) : ℚ) ≤ d.coefficient := by
        exact_mod_cast kept_digits long hp
      calc (10 : ℚ) ^ (precision - 1 + (d.exponent + drop) : Int)
          = (10 ^ (precision - 1) * 10 ^ drop : Nat) * (10 : ℚ) ^ d.exponent := by
            rw [show (precision - 1 + (d.exponent + drop) : Int) =
              (precision - 1 : Nat) + drop + d.exponent by omega, zpow_add₀ (by norm_num),
              zpow_add₀ (by norm_num), zpow_natCast, zpow_natCast]
            push_cast
            rfl
        _ ≤ d.coefficient * (10 : ℚ) ^ d.exponent :=
          mul_le_mul_of_nonneg_right kept (zpow_nonneg (by norm_num) _)
        _ ≤ t.magnitude := le
    obtain ⟨m, multiple⟩ := multiple_of_kept
      ((digitCount_le_iff t.coefficient precision hp).mp fits) large
    rw [magnitude, multiple]
    apply mul_le_mul_of_nonneg_right _ power.le
    have scaled : d.coefficient * (10 : ℚ) ^ d.exponent ≤
        (m : ℚ) * 10 ^ drop * (10 : ℚ) ^ d.exponent := by
      rw [magnitude, magnitude, multiple, zpow_add₀ (by norm_num), zpow_natCast] at le
      calc d.coefficient * (10 : ℚ) ^ d.exponent
          ≤ m * ((10 : ℚ) ^ d.exponent * 10 ^ drop) := le
        _ = (m : ℚ) * 10 ^ drop * (10 : ℚ) ^ d.exponent := by ring
    -- the rounded coefficient is the next multiple at most
    have above : (d.coefficient : ℚ) ≤ m * 10 ^ drop :=
      le_of_mul_le_mul_right scaled (zpow_pos (by norm_num) _)
    exact_mod_cast roundHalfEven_le tens (by exact_mod_cast above)
  · rw [fix_of_digits precision d (not_lt.mp long)]
    exact le

/-- Rounding is monotone towards every number that the precision holds. -/
theorem le_toRat_fix (hp : 0 < precision) (fits : digitCount t.coefficient ≤ precision)
    (le : t.toRat ≤ d.toRat) : t.toRat ≤ (d.fix precision).toRat := by
  have ht := t.magnitude_nonneg
  have hd := d.magnitude_nonneg
  have hf := (d.fix precision).magnitude_nonneg
  rw [toRat_eq_magnitude, toRat_eq_magnitude] at le ⊢
  rw [fix_negative]
  cases hs : t.negative <;> cases hn : d.negative <;> simp only [hs, hn, if_true, if_false,
    Bool.false_eq_true] at le ⊢
  · exact le_magnitude_fix hp fits le
  · have zero : d.magnitude ≤ t.magnitude := by linarith
    have rounded := magnitude_fix_le hp fits zero
    linarith
  · linarith
  · exact neg_le_neg (magnitude_fix_le hp fits (neg_le_neg_iff.mp le))

theorem toRat_fix_le (hp : 0 < precision) (fits : digitCount t.coefficient ≤ precision)
    (le : d.toRat ≤ t.toRat) : (d.fix precision).toRat ≤ t.toRat := by
  have negated {e : Decimal} : (e.neg.fix precision).toRat = -(e.fix precision).toRat := by
    rw [toRat_eq_magnitude, toRat_eq_magnitude, fix_negative, fix_negative]
    have same : (e.neg.fix precision).magnitude = (e.fix precision).magnitude := by
      unfold fix neg magnitude
      simp only
      split
      · rfl
      · split <;> rfl
    rw [same]
    cases hn : e.negative <;> simp [neg, hn]
  have opposite : t.neg.toRat ≤ (d.neg.fix precision).toRat := by
    apply le_toRat_fix (t := t.neg) hp fits
    rw [toRat_neg, toRat_neg]
    exact neg_le_neg le
  rw [negated, toRat_neg] at opposite
  exact neg_le_neg_iff.mp opposite

end Precision

end Decimal

/-! ### Doubles -/

/-- A fraction less than half a unit away from an integral number of units rounds to it. -/
theorem roundHalfEven_scaled {n d : Nat} (hd : 0 < d) (e : Int) (m : Nat)
    (near : |(n : ℚ) / d - m * (2 : ℚ) ^ e| < (2 : ℚ) ^ e / 2) :
    roundHalfEven (scaleFraction n d e).1 (scaleFraction n d e).2 = m := by
  have unit : (0 : ℚ) < (2 : ℚ) ^ e := zpow_pos (by norm_num) e
  have value := scaleFraction_eq n hd e
  have positive := scaleFraction_den_pos n hd e
  set a := (scaleFraction n d e).1
  set b := (scaleFraction n d e).2
  have bpos : (0 : ℚ) < b := by exact_mod_cast positive
  have scaled : |(a : ℚ) / b - m| < 1 / 2 := by
    have difference : (a : ℚ) / b - m = ((n : ℚ) / d - m * (2 : ℚ) ^ e) / (2 : ℚ) ^ e := by
      rw [value]
      field_simp
    rw [difference, abs_div, abs_of_pos unit, div_lt_iff₀ unit]
    linarith
  obtain ⟨low, high⟩ := abs_lt.mp scaled
  rw [lt_sub_iff_add_lt, lt_div_iff₀ bpos] at low
  rw [sub_lt_iff_lt_add, div_lt_iff₀ bpos] at high
  apply roundHalfEven_eq positive
  · have bound : 2 * ((m : ℚ) * b) < 2 * a + b := by linarith
    exact_mod_cast bound
  · have bound : 2 * (a : ℚ) < 2 * (m * b) + b := by linarith
    exact_mod_cast bound

namespace Binary64

theorem magnitude_nonneg (x : Binary64) : 0 ≤ x.magnitude :=
  mul_nonneg (Nat.cast_nonneg _) (zpow_nonneg (by norm_num) _)

private theorem quarter (e : Int) : (2 : ℚ) ^ (e - 2) = (2 : ℚ) ^ e / 4 := by
  rw [zpow_sub₀ (by norm_num)]
  norm_num

/-- A fraction within a quarter of a unit of a double rounds to it. -/
theorem roundFraction_near (x : Binary64) {n d : Nat} (hd : 0 < d)
    (near : |(n : ℚ) / d - x.magnitude| < (2 : ℚ) ^ (x.exponent - 2)) :
    roundFraction n d = (x.mantissa, x.exponent) := by
  have unit : (0 : ℚ) < (2 : ℚ) ^ x.exponent := zpow_pos (by norm_num) _
  have least := x.exponent_ge
  have mantissa : (x.mantissa : ℚ) + 1 ≤ 2 ^ 53 := by exact_mod_cast x.mantissa_lt
  rw [quarter, magnitude] at near
  obtain ⟨low, high⟩ := abs_lt.mp near
  by_cases zero : n = 0
  · -- only zero is that close to zero
    have mzero : x.mantissa = 0 := by
      by_contra nonzero
      have one : (1 : ℚ) ≤ x.mantissa := by exact_mod_cast Nat.one_le_iff_ne_zero.mpr nonzero
      have large : (2 : ℚ) ^ x.exponent ≤ x.mantissa * (2 : ℚ) ^ x.exponent :=
        le_mul_of_one_le_left unit.le one
      rw [zero, Nat.cast_zero, zero_div] at low
      linarith
    have exponent : x.exponent = -1074 := by
      rcases x.normalized with normal | subnormal
      · omega
      · exact subnormal
    simp [roundFraction, zero, mzero, exponent]
  · obtain ⟨lower, upper⟩ := floorLog2_bounds (Nat.pos_of_ne_zero zero) hd
    have notAbove : floorLog2 n d < 53 + x.exponent := by
      apply (zpow_lt_zpow_iff_right₀ (by norm_num : (1 : ℚ) < 2)).mp
      calc (2 : ℚ) ^ floorLog2 n d ≤ n / d := lower
        _ < (x.mantissa + 1) * (2 : ℚ) ^ x.exponent := by linarith
        _ ≤ 2 ^ 53 * (2 : ℚ) ^ x.exponent := mul_le_mul_of_nonneg_right (by linarith) unit.le
        _ = (2 : ℚ) ^ (53 + x.exponent) := by rw [zpow_add₀ (by norm_num)]; norm_num
    by_cases same : max (floorLog2 n d - 52) (-1074) = x.exponent
    · have close : |(n : ℚ) / d - x.mantissa * (2 : ℚ) ^ x.exponent| < (2 : ℚ) ^ x.exponent / 2 :=
        abs_lt.mpr ⟨by linarith, by linarith⟩
      have rounds := roundHalfEven_scaled hd x.exponent x.mantissa close
      have small := x.mantissa_lt
      simp only [roundFraction, if_neg zero, same, rounds, if_neg small.ne]
    · -- the fraction is below the power of two that the double is
      have normal : 2 ^ 52 ≤ x.mantissa := by
        rcases x.normalized with normal | subnormal
        · exact normal
        · omega
      have mlow : (2 : ℚ) ^ 52 ≤ x.mantissa := by exact_mod_cast normal
      have notBelow : 51 + x.exponent < floorLog2 n d + 1 := by
        apply (zpow_lt_zpow_iff_right₀ (by norm_num : (1 : ℚ) < 2)).mp
        calc (2 : ℚ) ^ (51 + x.exponent) = 2 ^ 51 * (2 : ℚ) ^ x.exponent := by
              rw [zpow_add₀ (by norm_num)]; norm_num
          _ < (x.mantissa - 1) * (2 : ℚ) ^ x.exponent :=
            mul_lt_mul_of_pos_right (by linarith) unit
          _ < n / d := by linarith
          _ < _ := upper
      have log : floorLog2 n d = 51 + x.exponent := by omega
      have power : x.mantissa = 2 ^ 52 := by
        have below : ((x.mantissa : ℚ) - 1) * (2 : ℚ) ^ x.exponent < 2 ^ 52 * (2 : ℚ) ^ x.exponent := by
          calc ((x.mantissa : ℚ) - 1) * (2 : ℚ) ^ x.exponent < n / d := by linarith
            _ < (2 : ℚ) ^ (floorLog2 n d + 1) := upper
            _ = 2 ^ 52 * (2 : ℚ) ^ x.exponent := by
              rw [log, show 51 + x.exponent + 1 = 52 + x.exponent by ring, zpow_add₀ (by norm_num)]
              norm_num
        have lt : (x.mantissa : ℚ) - 1 < 2 ^ 52 := lt_of_mul_lt_mul_right below unit.le
        have lt : x.mantissa < 2 ^ 52 + 1 := by
          have lt : (x.mantissa : ℚ) < 2 ^ 52 + 1 := by linarith
          exact_mod_cast lt
        omega
      have finer : max (floorLog2 n d - 52) (-1074) = x.exponent - 1 := by omega
      have half : (2 : ℚ) ^ (x.exponent - 1) = (2 : ℚ) ^ x.exponent / 2 := by
        rw [zpow_sub₀ (by norm_num), zpow_one]
      have value : ((2 ^ 53 : Nat) : ℚ) * (2 : ℚ) ^ (x.exponent - 1) =
          x.mantissa * (2 : ℚ) ^ x.exponent := by
        rw [half, power]
        push_cast
        ring
      have rounds := roundHalfEven_scaled (n := n) hd (x.exponent - 1) (2 ^ 53) (by
        rw [value, half]
        exact abs_lt.mpr ⟨by linarith, by linarith⟩)
      simp only [roundFraction, if_neg zero, finer, rounds, if_true, power, sub_add_cancel]

/-- `float` of a decimal within a quarter of a unit of a double is that double. -/
theorem ofDecimal_near (x : Binary64) (a : Decimal) (sign : a.negative = x.negative)
    (near : |a.magnitude - x.magnitude| < (2 : ℚ) ^ (x.exponent - 2)) : ofDecimal a = some x := by
  obtain ⟨n, d, hd, value, rounds⟩ := ofDecimal_fraction a
  rw [Decimal.magnitude, ← value] at near
  have rounded := roundFraction_near x hd near
  have fits : x.mantissa < 2 ^ 53 ∧ -1074 ≤ x.exponent ∧ x.exponent ≤ 971 ∧
      (2 ^ 52 ≤ x.mantissa ∨ x.exponent = -1074) :=
    ⟨x.mantissa_lt, x.exponent_ge, x.exponent_le, x.normalized⟩
  rw [rounds, sign]
  simp only [ofFraction, rounded, dif_pos fits]

/-! ### The digits of a double -/

end Binary64

theorem digitCount_bounds {n : Nat} (hn : 0 < n) :
    10 ^ (digitCount n - 1) ≤ n ∧ n < 10 ^ digitCount n := by
  have count := digitCount_pos n
  constructor
  · by_contra small
    by_cases one : digitCount n = 1
    · rw [one] at small
      omega
    · have fewer := (digitCount_le_iff n (digitCount n - 1) (by omega)).mpr (not_le.mp small)
      omega
  · exact (digitCount_le_iff n _ count).mp le_rfl

/-- `floorLog10` brackets the fraction between two neighbouring powers of ten. -/
theorem floorLog10_bounds {n d : Nat} (hn : 0 < n) (hd : 0 < d) :
    (10 : ℚ) ^ Binary64.floorLog10 n d ≤ n / d ∧
      (n : ℚ) / d < (10 : ℚ) ^ (Binary64.floorLog10 n d + 1) := by
  have dpos : (0 : ℚ) < d := by exact_mod_cast hd
  have npos : (0 : ℚ) < n := by exact_mod_cast hn
  -- by whether the quotient has digits before the point
  unfold Binary64.floorLog10
  split
  next le =>
    have quotient : 0 < n / d := Nat.div_pos le hd
    obtain ⟨low, high⟩ := digitCount_bounds quotient
    have count := digitCount_pos (n / d)
    have low' : 10 ^ (digitCount (n / d) - 1) * d ≤ n := (Nat.le_div_iff_mul_le hd).mp low
    have high' : n < 10 ^ digitCount (n / d) * d := (Nat.div_lt_iff_lt_mul hd).mp high
    constructor
    · rw [le_div_iff₀ dpos, show ((digitCount (n / d) : Int) - 1) = (digitCount (n / d) - 1 : Nat)
        by omega, zpow_natCast]
      exact_mod_cast low'
    · rw [div_lt_iff₀ dpos, sub_add_cancel, zpow_natCast]
      exact_mod_cast high'
  next gt =>
    have quotient : 0 < (d - 1) / n := Nat.div_pos (by omega) hn
    obtain ⟨low, high⟩ := digitCount_bounds quotient
    have count := digitCount_pos ((d - 1) / n)
    have low' : 10 ^ (digitCount ((d - 1) / n) - 1) * n ≤ d - 1 := (Nat.le_div_iff_mul_le hn).mp low
    have high' : d - 1 < 10 ^ digitCount ((d - 1) / n) * n := (Nat.div_lt_iff_lt_mul hn).mp high
    set k := digitCount ((d - 1) / n)
    constructor
    · rw [zpow_neg, zpow_natCast, inv_le_comm₀ (by positivity) (by positivity), inv_div,
        div_le_iff₀ npos]
      have above : d ≤ 10 ^ k * n := by omega
      exact_mod_cast above
    · rw [show (-(k : Int) + 1) = -((k - 1 : Nat) : Int) by omega, zpow_neg, zpow_natCast,
        lt_inv_comm₀ (by positivity) (by positivity), inv_div, lt_div_iff₀ npos]
      have below : 10 ^ (k - 1) * n < d := by omega
      exact_mod_cast below

namespace Binary64

/-- The fraction that the search for a short decimal starts from. -/
private theorem binaryFraction (x : Binary64) :
    0 < (scaleFraction x.mantissa 1 (-x.exponent)).2 ∧
      ((scaleFraction x.mantissa 1 (-x.exponent)).1 : ℚ) /
        (scaleFraction x.mantissa 1 (-x.exponent)).2 = x.magnitude := by
  refine ⟨scaleFraction_den_pos _ Nat.one_pos _, ?_⟩
  rw [scaleFraction_eq _ Nat.one_pos, Nat.cast_one, div_one, zpow_neg, div_inv_eq_mul, magnitude]

/-- The fraction whose rounding is the first decimal tried at a power of ten. -/
private theorem decimalFraction_at (x : Binary64) (p : Int) :
    ∃ n d : Nat, 0 < d ∧ (n : ℚ) / d = x.magnitude / (10 : ℚ) ^ p ∧
      x.decimalAt p =
        (if ofDecimal ⟨x.negative, roundHalfEven n d, p⟩ = some x then some (roundHalfEven n d)
        else if ofDecimal ⟨x.negative,
            if roundHalfEven n d = n / d then n / d + 1 else n / d, p⟩ = some x then
          some (if roundHalfEven n d = n / d then n / d + 1 else n / d)
        else none) := by
  obtain ⟨positive, value⟩ := binaryFraction x
  set binary := scaleFraction x.mantissa 1 (-x.exponent) with hb
  have bpos : (binary.2 : ℚ) ≠ 0 := by exact_mod_cast positive.ne'
  refine ⟨if 0 ≤ p then binary.1 else binary.1 * 10 ^ (-p).toNat,
    if 0 ≤ p then binary.2 * 10 ^ p.toNat else binary.2, ?_, ?_, rfl⟩
  · split
    · positivity
    · exact positive
  · rw [← value]
    split
    next nonneg =>
      obtain ⟨k, hk⟩ := Int.eq_ofNat_of_zero_le nonneg
      rw [hk, Int.toNat_natCast, zpow_natCast]
      push_cast
      field_simp
    next neg =>
      obtain ⟨k, hk⟩ := Int.eq_ofNat_of_zero_le (show 0 ≤ -p by omega)
      rw [hk, Int.toNat_natCast, show p = -(k : Int) by omega, zpow_neg, zpow_natCast]
      push_cast
      field_simp

/-- A decimal that is found is at most one step above the double. -/
private theorem decimalAt_le (x : Binary64) (p : Int) (c : Nat) (found : x.decimalAt p = some c) :
    (c : ℚ) ≤ x.magnitude / (10 : ℚ) ^ p + 1 := by
  obtain ⟨n, d, hd, value, searched⟩ := decimalFraction_at x p
  have dpos : (0 : ℚ) < d := by exact_mod_cast hd
  have above {m : Nat} (le : m ≤ n / d + 1) : (m : ℚ) ≤ x.magnitude / (10 : ℚ) ^ p + 1 := by
    have quotient : ((n / d : Nat) : ℚ) ≤ n / d := Nat.cast_div_le
    have cast : (m : ℚ) ≤ (n / d : Nat) + 1 := by exact_mod_cast le
    rw [← value]
    linarith
  have nearest : roundHalfEven n d ≤ n / d + 1 := by
    unfold roundHalfEven
    simp only
    split <;> omega
  have neighbour : (if roundHalfEven n d = n / d then n / d + 1 else n / d) ≤ n / d + 1 := by
    split <;> omega
  rw [searched] at found
  generalize (if roundHalfEven n d = n / d then n / d + 1 else n / d) = other at found neighbour
  split at found
  · exact Option.some.inj found ▸ above nearest
  · split at found
    · exact Option.some.inj found ▸ above neighbour
    · cases found

/-- Where ten to the power is small against the double, its nearest multiple reads back. -/
private theorem decimalAt_isSome (x : Binary64) (p : Int)
    (fine : (10 : ℚ) ^ p < (2 : ℚ) ^ (x.exponent - 2)) : (x.decimalAt p).isSome := by
  obtain ⟨n, d, hd, value, searched⟩ := decimalFraction_at x p
  have tens : (0 : ℚ) < (10 : ℚ) ^ p := zpow_pos (by norm_num) p
  have dpos : (0 : ℚ) < d := by exact_mod_cast hd
  have reads : ofDecimal ⟨x.negative, roundHalfEven n d, p⟩ = some x := by
    apply ofDecimal_near x ⟨x.negative, roundHalfEven n d, p⟩ rfl
    obtain ⟨low, high⟩ := roundHalfEven_error n hd
    have low : 2 * ((roundHalfEven n d : ℚ) * d) ≤ 2 * n + d := by exact_mod_cast low
    have high : 2 * (n : ℚ) ≤ 2 * (roundHalfEven n d * d) + d := by exact_mod_cast high
    have close : |(roundHalfEven n d : ℚ) - n / d| < 1 := by
      rw [abs_lt, lt_sub_iff_add_lt, sub_lt_iff_lt_add, ← lt_sub_iff_add_lt', div_lt_iff₀ dpos,
        ← sub_lt_iff_lt_add', lt_div_iff₀ dpos]
      constructor <;> nlinarith
    have scaled : (roundHalfEven n d : ℚ) * (10 : ℚ) ^ p - x.magnitude =
        ((roundHalfEven n d : ℚ) - n / d) * (10 : ℚ) ^ p := by
      rw [value, sub_mul, div_mul_cancel₀ _ tens.ne']
    rw [Decimal.magnitude, scaled, abs_mul, abs_of_pos tens]
    exact (mul_lt_of_lt_one_left tens close).trans fine
  rw [searched, if_pos reads]
  rfl

/-- The search ends no later than where a decimal is known to read back, at most one step above the
double. -/
private theorem searchDecimal_bounds (x : Binary64) (fuel : Nat) (p least : Int) (le : least ≤ p)
    (reach : p ≤ min 0 x.exponent + fuel) (known : (x.decimalAt least).isSome) :
    least ≤ (x.searchDecimal fuel p).2 ∧
      ((x.searchDecimal fuel p).1 : ℚ) ≤ x.magnitude / (10 : ℚ) ^ (x.searchDecimal fuel p).2 + 1 := by
  induction fuel generalizing p with
  | zero =>
    have tens : (10 : ℚ) ^ x.exactDecimal.2 ≠ 0 := zpow_ne_zero _ (by norm_num)
    have last : min 0 x.exponent ≤ x.exactDecimal.2 := by
      unfold exactDecimal
      split <;> omega
    refine ⟨?_, ?_⟩
    · rw [Nat.cast_zero, add_zero] at reach
      exact le.trans (reach.trans last)
    · change (x.exactDecimal.1 : ℚ) ≤ x.magnitude / (10 : ℚ) ^ x.exactDecimal.2 + 1
      rw [← exactDecimal_value, mul_div_cancel_right₀ _ tens]
      linarith
  | succ fuel ih =>
    simp only [searchDecimal]
    split
    next c found => exact ⟨le, decimalAt_le x p c found⟩
    next missing =>
      have later : least ≠ p := by
        rintro rfl
        rw [missing] at known
        cases known
      apply ih (p - 1) (by omega)
      push_cast at reach
      omega

/-- The decimal with which a nonzero double is spelled has at most 22 digits. -/
theorem shortest_le (x : Binary64) : x.shortest.1 ≤ 10 ^ 21 := by
  unfold shortest
  -- zero is its own shortest decimal
  split
  · exact Nat.zero_le _
  next nonzero =>
    obtain ⟨positive, value⟩ := binaryFraction x
    have unit : (0 : ℚ) < (2 : ℚ) ^ x.exponent := zpow_pos (by norm_num) _
    have numerator : 0 < (scaleFraction x.mantissa 1 (-x.exponent)).1 := by
      by_contra zero
      have zero : (scaleFraction x.mantissa 1 (-x.exponent)).1 = 0 := by omega
      rw [zero, Nat.cast_zero, zero_div, magnitude, eq_comm, mul_eq_zero] at value
      rcases value with value | value
      · exact nonzero (by exact_mod_cast value)
      · exact unit.ne' value
    obtain ⟨low, high⟩ := floorLog10_bounds numerator positive
    rw [value] at low high
    simp only
    set start := floorLog10 (scaleFraction x.mantissa 1 (-x.exponent)).1
      (scaleFraction x.mantissa 1 (-x.exponent)).2
    -- with this many digits the candidate reads back
    have known : (x.decimalAt (start - 20)).isSome := by
      apply decimalAt_isSome
      have mantissa : (x.mantissa : ℚ) ≤ 2 ^ 53 := by exact_mod_cast x.mantissa_lt.le
      have power : (10 : ℚ) ^ (start - 20) = (10 : ℚ) ^ start / 10 ^ 20 := by
        rw [zpow_sub₀ (by norm_num)]
        norm_num
      rw [power, quarter]
      have bound : x.magnitude ≤ 2 ^ 53 * (2 : ℚ) ^ x.exponent :=
        mul_le_mul_of_nonneg_right mantissa unit.le
      linarith
    obtain ⟨least, near⟩ := searchDecimal_bounds x (start - min 0 x.exponent).toNat start (start - 20)
      (by omega) (by omega) known
    set found := x.searchDecimal (start - min 0 x.exponent).toNat start
    -- no candidate has more digits than the limit
    have few : x.magnitude / (10 : ℚ) ^ found.2 < 10 ^ 21 := by
      rw [div_lt_iff₀ (zpow_pos (by norm_num) _)]
      calc x.magnitude < (10 : ℚ) ^ (start + 1) := high
        _ ≤ (10 : ℚ) ^ (21 + found.2) := zpow_le_zpow_right₀ (by norm_num) (by omega)
        _ = 10 ^ 21 * (10 : ℚ) ^ found.2 := by rw [zpow_add₀ (by norm_num)]; norm_num
    have coefficient : found.1 ≤ 10 ^ 21 := by
      have below : (found.1 : ℚ) < (10 ^ 21 + 1 : Nat) := by
        push_cast
        linarith
      have below : found.1 < 10 ^ 21 + 1 := by exact_mod_cast below
      omega
    have dropped := Decimal.dropZeros_value (digitCount found.1) found.1
    calc (Decimal.dropZeros (digitCount found.1) found.1).1
        ≤ (Decimal.dropZeros (digitCount found.1) found.1).1 *
          10 ^ (Decimal.dropZeros (digitCount found.1) found.1).2 :=
          Nat.le_mul_of_pos_right _ (Nat.pow_pos (by norm_num))
      _ = found.1 := dropped
      _ ≤ 10 ^ 21 := coefficient

end Binary64

theorem digitsValue_lt (ds : List Digit) : digitsValue ds < 10 ^ ds.length := by
  unfold digitsValue
  have bound := Nat.ofDigits_lt_base_pow_length (b := 10) (l := (ds.reverse.map Fin.val))
    (by norm_num) (by
      intro digit h
      obtain ⟨d, -, rfl⟩ := List.mem_map.mp h
      exact d.isLt)
  rwa [List.length_map, List.length_reverse] at bound

namespace Binary64

/-- Spelling adds at most the zeros up to the seventeenth digit. -/
private theorem spellDigits_coefficient (negative : Bool) (ds : List Digit) (point : Int) :
    (spellDigits negative ds point).toDecimal.coefficient < 10 ^ max ds.length 17 := by
  have digits : digitsValue ds < 10 ^ max ds.length 17 :=
    (digitsValue_lt ds).trans_le (Nat.pow_le_pow_right (by norm_num) (le_max_left _ _))
  unfold spellDigits
  split
  next positional =>
    split
    · simpa [Numeral.toDecimal, digitsValue_zero_cons, digitsValue_append] using digits
    · split
      · simpa only [Numeral.toDecimal, List.take_append_drop] using digits
      · have padded := digitsValue_lt (ds ++ List.replicate (point.toNat - ds.length) 0 ++ [0])
        apply padded.trans_le
        apply Nat.pow_le_pow_right (by norm_num)
        simp only [List.length_append, List.length_replicate, List.length_singleton]
        omega
  · simpa only [Numeral.toDecimal, List.take_append_drop] using digits

/-- The decimal spelling of a double has at most 22 digits. -/
theorem toDecimal_digits (x : Binary64) : digitCount x.toDecimal.coefficient ≤ 22 := by
  have length : (decimalDigits x.shortest.1).length ≤ 22 :=
    (digitCount_le_iff x.shortest.1 22 (by norm_num)).mpr (x.shortest_le.trans_lt (by norm_num))
  rw [digitCount_le_iff _ _ (by norm_num)]
  apply (spellDigits_coefficient _ _ _).trans_le
  exact Nat.pow_le_pow_right (by norm_num) (max_le length (by norm_num))

end Binary64

/-! ### Division of decimals -/

/-- `n / d` divided by `10 ^ g`, as a fraction. -/
def scaleTen (n d : Nat) (g : Int) : Nat × Nat :=
  if 0 ≤ g then (n, d * 10 ^ g.toNat) else (n * 10 ^ (-g).toNat, d)

/-- `n / d` rounded to `precision` significant digits, half to even. -/
def roundDigits (precision n d : Nat) : ℚ :=
  if n = 0 then 0
  else
    let g := Binary64.floorLog10 n d + 1 - precision
    roundHalfEven (scaleTen n d g).1 (scaleTen n d g).2 * (10 : ℚ) ^ g

theorem scaleTen_den_pos (n : Nat) {d : Nat} (hd : 0 < d) (g : Int) : 0 < (scaleTen n d g).2 := by
  unfold scaleTen
  split
  · positivity
  · exact hd

theorem scaleTen_eq (n : Nat) {d : Nat} (hd : 0 < d) (g : Int) :
    ((scaleTen n d g).1 : ℚ) / (scaleTen n d g).2 = n / d / (10 : ℚ) ^ g := by
  have hd' : (d : ℚ) ≠ 0 := by positivity
  unfold scaleTen
  split
  next nonneg =>
    obtain ⟨k, rfl⟩ := Int.eq_ofNat_of_zero_le nonneg
    simp only [Int.toNat_natCast, Nat.cast_mul, Nat.cast_pow, Nat.cast_ofNat, zpow_natCast]
    field_simp
  next neg =>
    obtain ⟨k, hk⟩ := Int.eq_ofNat_of_zero_le (show 0 ≤ -g by omega)
    obtain rfl : g = -(k : Int) := by omega
    simp only [neg_neg, Int.toNat_natCast, Nat.cast_mul, Nat.cast_pow, Nat.cast_ofNat, zpow_neg,
      zpow_natCast]
    field_simp

/-- The digits that rounding keeps are those from the place where a number has `precision` digits. -/
theorem roundDigits_eq {precision n d a b : Nat} {g : Int} (hd : 0 < d) (hb : 0 < b)
    (scaled : (a : ℚ) / b = n / d / (10 : ℚ) ^ g) (lower : (10 : ℚ) ^ (precision - 1 : Int) ≤ a / b)
    (upper : (a : ℚ) / b < (10 : ℚ) ^ precision) :
    roundDigits precision n d = roundHalfEven a b * (10 : ℚ) ^ g := by
  have tens : (0 : ℚ) < (10 : ℚ) ^ g := zpow_pos (by norm_num) g
  rw [scaled, le_div_iff₀ tens, ← zpow_add₀ (by norm_num)] at lower
  rw [scaled, div_lt_iff₀ tens, ← zpow_natCast, ← zpow_add₀ (by norm_num)] at upper
  have positive : 0 < n := by
    by_contra zero
    obtain rfl : n = 0 := by omega
    rw [Nat.cast_zero, zero_div] at lower
    exact absurd lower (not_le.mpr (zpow_pos (by norm_num) _))
  obtain ⟨low, high⟩ := floorLog10_bounds positive hd
  -- one power of ten brackets the number
  have log : Binary64.floorLog10 n d = precision - 1 + g := by
    have above := (zpow_lt_zpow_iff_right₀ (by norm_num : (1 : ℚ) < 10)).mp (low.trans_lt upper)
    have below := (zpow_lt_zpow_iff_right₀ (by norm_num : (1 : ℚ) < 10)).mp (lower.trans_lt high)
    omega
  have place : Binary64.floorLog10 n d + 1 - precision = g := by omega
  unfold roundDigits
  simp only [if_neg positive.ne', place]
  congr 2
  apply roundHalfEven_congr (scaleTen_den_pos n hd g) hb
  rw [scaleTen_eq n hd, scaled]

/-- Rounding to digits does not lose a positive number. -/
theorem roundDigits_pos {precision n d : Nat} (hp : 0 < precision) (hn : 0 < n) (hd : 0 < d) :
    0 < roundDigits precision n d := by
  obtain ⟨low, -⟩ := floorLog10_bounds hn hd
  unfold roundDigits
  simp only [if_neg hn.ne']
  set g := Binary64.floorLog10 n d + 1 - precision
  have tens : (0 : ℚ) < (10 : ℚ) ^ g := zpow_pos (by norm_num) g
  have positive := scaleTen_den_pos n hd g
  have value := scaleTen_eq n hd g
  have one : (1 : ℚ) ≤ n / d / (10 : ℚ) ^ g := by
    rw [le_div_iff₀ tens, one_mul]
    exact (zpow_le_zpow_right₀ (by norm_num) (by omega)).trans low
  rw [← value, le_div_iff₀ (by exact_mod_cast positive), one_mul] at one
  have kept : 1 ≤ roundHalfEven (scaleTen n d g).1 (scaleTen n d g).2 := by
    apply le_roundHalfEven positive
    rw [one_mul]
    exact_mod_cast one
  exact mul_pos (by exact_mod_cast kept) tens

namespace Decimal

/-- Rounding a decimal is rounding its value. -/
theorem magnitude_fix_eq {precision n m : Nat} (hp : 0 < precision) (d : Decimal) (hm : 0 < m)
    (value : (n : ℚ) / m = d.magnitude) : (d.fix precision).magnitude = roundDigits precision n m := by
  have mpos : (0 : ℚ) < m := by exact_mod_cast hm
  -- zero is not rounded
  by_cases zero : d.coefficient = 0
  · have fits : digitCount d.coefficient ≤ precision := by
      rw [zero]
      exact hp
    have nzero : n = 0 := by
      rw [magnitude, zero, Nat.cast_zero, zero_mul, div_eq_zero_iff] at value
      rcases value with value | value
      · exact_mod_cast value
      · exact absurd value mpos.ne'
    rw [fix_of_digits precision d fits, roundDigits, if_pos nzero, magnitude, zero, Nat.cast_zero,
      zero_mul]
  · have tens : (0 : ℚ) < (10 : ℚ) ^ d.exponent := zpow_pos (by norm_num) _
    have count := digitCount_pos d.coefficient
    obtain ⟨low, high⟩ := digitCount_bounds (Nat.pos_of_ne_zero zero)
    -- too long a coefficient is cut, a short one is padded with zeros
    by_cases long : precision < digitCount d.coefficient
    · rw [magnitude_fix hp d long]
      set drop := digitCount d.coefficient - precision with hdrop
      have ten : (0 : ℚ) < 10 ^ drop := by positivity
      symm
      apply roundDigits_eq hm (Nat.pow_pos (by norm_num))
      · rw [value, magnitude, zpow_add₀ (by norm_num), zpow_natCast]
        push_cast
        field_simp
      · rw [Nat.cast_pow, Nat.cast_ofNat, le_div_iff₀ ten, show (precision - 1 : Int) =
          (precision - 1 : Nat) by omega, zpow_natCast]
        exact_mod_cast kept_digits long hp
      · rw [Nat.cast_pow, Nat.cast_ofNat, div_lt_iff₀ ten, ← pow_add,
          show precision + drop = digitCount d.coefficient by omega]
        exact_mod_cast high
    · have fits := not_lt.mp long
      rw [fix_of_digits precision d fits]
      set spare := precision - digitCount d.coefficient with hspare
      have keeps := @roundDigits_eq precision n m (d.coefficient * 10 ^ spare) 1
        (d.exponent - spare) hm Nat.one_pos (by
          rw [value, magnitude, zpow_sub₀ (by norm_num), zpow_natCast]
          push_cast
          field_simp) (by
          rw [Nat.cast_one, div_one, show (precision - 1 : Int) =
            (digitCount d.coefficient - 1 + spare : Nat) by omega, zpow_natCast, pow_add]
          push_cast
          apply mul_le_mul_of_nonneg_right _ (by positivity)
          exact_mod_cast low) (by
          rw [Nat.cast_one, div_one, show precision = digitCount d.coefficient + spare by omega, pow_add]
          push_cast
          apply mul_lt_mul_of_pos_right _ (by positivity)
          exact_mod_cast high)
      rw [keeps, ← mul_one (d.coefficient * 10 ^ spare), roundHalfEven_mul _ Nat.one_pos, magnitude,
        zpow_sub₀ (by norm_num), zpow_natCast]
      push_cast
      field_simp

/-- An inexact quotient made sticky rounds as the fraction does: neither reaches a multiple of five,
where the ties are. -/
private theorem roundHalfEven_sticky {n d c drop : Nat} (hd : 0 < d) (inexact : n % d ≠ 0)
    (hdrop : 0 < drop) (sticky : c = if n / d % 5 = 0 then n / d + 1 else n / d) :
    roundHalfEven n (d * 10 ^ drop) = roundHalfEven c (10 ^ drop) := by
  obtain ⟨t, ht⟩ : ∃ t, 10 ^ drop = 10 * t := ⟨10 ^ (drop - 1), by
    rw [← pow_succ', Nat.sub_add_cancel hdrop]⟩
  have tens : 0 < 10 ^ drop := Nat.pow_pos (by norm_num)
  obtain ⟨low, high⟩ := roundHalfEven_error c tens
  have division : n / d * d + n % d = n := Nat.div_add_mod' n d
  have remainder : n % d < d := Nat.mod_lt n hd
  set m := roundHalfEven c (10 ^ drop)
  set q := n / d
  rw [ht] at low high ⊢
  have fifth : c % 5 ≠ 0 := by
    rw [sticky]
    split <;> omega
  -- the quotient and the sticky quotient lie strictly between the two ties
  have below : m * (10 * t) ≤ q + 5 * t := by
    have product : m * (10 * t) = 5 * (2 * (m * t)) := by ring
    rw [product] at low ⊢
    rw [sticky] at low fifth
    split at low <;> split at fifth <;> omega
  have above : q + 1 ≤ m * (10 * t) + 5 * t := by
    have product : m * (10 * t) = 5 * (2 * (m * t)) := by ring
    rw [product] at high ⊢
    rw [sticky] at high fifth
    split at high <;> split at fifth <;> omega
  apply roundHalfEven_eq (Nat.mul_pos hd (ht ▸ tens))
  · have scaled : m * (10 * t) * d ≤ (q + 5 * t) * d := Nat.mul_le_mul_right d below
    have expand : (q + 5 * t) * d = q * d + 5 * (t * d) := by ring
    have left : m * (d * (10 * t)) = m * (10 * t) * d := by ring
    have right : d * (10 * t) = 10 * (t * d) := by ring
    rw [left, right]
    omega
  · have scaled : (q + 1) * d ≤ (m * (10 * t) + 5 * t) * d := Nat.mul_le_mul_right d above
    have expand : (m * (10 * t) + 5 * t) * d = m * (10 * t) * d + 5 * (t * d) := by ring
    have successor : (q + 1) * d = q * d + d := by ring
    have left : m * (d * (10 * t)) = m * (10 * t) * d := by ring
    have right : d * (10 * t) = 10 * (t * d) := by ring
    rw [left, right]
    omega

@[simp] theorem div_negative (precision : Nat) (a b : Decimal) :
    (a.div precision b).negative = (a.negative != b.negative) := by
  unfold div
  simp only [apply_ite Decimal.negative, fix_negative, ite_self]

/-- Rounding an inexact quotient that was made sticky is rounding the exact quotient. -/
private theorem magnitude_sticky {precision n d c N M : Nat} {negative : Bool} {exponent : Int}
    (hp : 0 < precision) (hd : 0 < d) (hM : 0 < M) (inexact : n % d ≠ 0)
    (large : 10 ^ precision ≤ n / d) (sticky : c = if n / d % 5 = 0 then n / d + 1 else n / d)
    (value : (N : ℚ) / M = n / d * (10 : ℚ) ^ exponent) :
    (fix precision ⟨negative, c, exponent⟩).magnitude = roundDigits precision N M := by
  have dpos : (0 : ℚ) < d := by exact_mod_cast hd
  have least : n / d ≤ c := by
    rw [sticky]
    split <;> omega
  have long : precision < digitCount c := by
    by_contra short
    have small := (digitCount_le_iff c precision hp).mp (not_lt.mp short)
    omega
  obtain ⟨low, high⟩ := digitCount_bounds (show 0 < c from
    (Nat.pow_pos (by norm_num)).trans_le (large.trans least))
  rw [magnitude_fix hp ⟨negative, c, exponent⟩ long]
  simp only
  set drop := digitCount c - precision with hdrop
  have ten : (0 : ℚ) < 10 ^ drop := by positivity
  rw [← roundHalfEven_sticky hd inexact (by omega) sticky]
  symm
  -- a power of ten is a multiple of five, so the sticky quotient is in the decade of the exact one
  obtain ⟨k, hk⟩ : ∃ k, 10 ^ (digitCount c - 1) = 5 * k := ⟨2 * 10 ^ (digitCount c - 2), by
    rw [show digitCount c - 1 = digitCount c - 2 + 1 by omega, pow_succ]
    ring⟩
  have quotients : (n / d % 5 = 0 ∧ c = n / d + 1) ∨ c = n / d := by
    rw [sticky]
    split
    next fifth => exact Or.inl ⟨fifth, rfl⟩
    next => exact Or.inr rfl
  have quotientLow : 10 ^ (digitCount c - 1) ≤ n / d := by omega
  have quotientHigh : n / d + 1 ≤ 10 ^ digitCount c := by omega
  apply roundDigits_eq hM (Nat.mul_pos hd (Nat.pow_pos (by norm_num)))
  · rw [value, zpow_add₀ (by norm_num), zpow_natCast]
    push_cast
    field_simp
  · rw [Nat.cast_mul, Nat.cast_pow, Nat.cast_ofNat, le_div_iff₀ (mul_pos dpos ten),
      show (precision - 1 : Int) = (precision - 1 : Nat) by omega, zpow_natCast]
    have scaled : 10 ^ (digitCount c - 1) * d ≤ n := (Nat.le_div_iff_mul_le hd).mp quotientLow
    have split : 10 ^ (digitCount c - 1) = 10 ^ (precision - 1) * 10 ^ drop := by
      rw [← pow_add]
      congr 1
      omega
    rw [split] at scaled
    have cast : ((10 ^ (precision - 1) * 10 ^ drop * d : Nat) : ℚ) ≤ n := by exact_mod_cast scaled
    push_cast at cast
    linarith
  · rw [Nat.cast_mul, Nat.cast_pow, Nat.cast_ofNat, div_lt_iff₀ (mul_pos dpos ten)]
    have scaled : n < 10 ^ digitCount c * d := (Nat.div_lt_iff_lt_mul hd).mp quotientHigh
    have split : 10 ^ digitCount c = 10 ^ precision * 10 ^ drop := by
      rw [← pow_add]
      congr 1
      omega
    rw [split] at scaled
    have cast : (n : ℚ) < (10 ^ precision * 10 ^ drop * d : Nat) := by exact_mod_cast scaled
    push_cast at cast
    linarith

/-- A quotient is the exact quotient rounded once. -/
theorem magnitude_div {precision N M : Nat} (hp : 0 < precision) (a b : Decimal)
    (hb : b.coefficient ≠ 0) (hM : 0 < M) (value : (N : ℚ) / M = a.magnitude / b.magnitude) :
    (a.div precision b).magnitude = roundDigits precision N M := by
  have mpos : (0 : ℚ) < M := by exact_mod_cast hM
  have bpos : (0 : ℚ) < b.coefficient := by exact_mod_cast Nat.pos_of_ne_zero hb
  unfold div
  simp only
  set shift : Int := digitCount b.coefficient - digitCount a.coefficient + precision + 1
  set n := if 0 ≤ shift then a.coefficient * 10 ^ shift.toNat else a.coefficient with hn
  set d := if 0 ≤ shift then b.coefficient else b.coefficient * 10 ^ (-shift).toNat with hd
  have dpos : 0 < d := by
    rw [hd]
    split
    · exact Nat.pos_of_ne_zero hb
    · exact Nat.mul_pos (Nat.pos_of_ne_zero hb) (Nat.pow_pos (by norm_num))
  have fraction : (n : ℚ) / d = a.coefficient / b.coefficient * (10 : ℚ) ^ shift := by
    rw [hn, hd]
    split
    next nonneg =>
      obtain ⟨k, hk⟩ := Int.eq_ofNat_of_zero_le nonneg
      rw [hk, Int.toNat_natCast, zpow_natCast]
      push_cast
      ring
    next neg =>
      obtain ⟨k, hk⟩ := Int.eq_ofNat_of_zero_le (show 0 ≤ -shift by omega)
      rw [hk, Int.toNat_natCast, show shift = -(k : Int) by omega, zpow_neg, zpow_natCast]
      push_cast
      field_simp
  have quotient : (N : ℚ) / M = n / d * (10 : ℚ) ^ (a.exponent - b.exponent - shift) := by
    rw [value, fraction, magnitude, magnitude, zpow_sub₀ (by norm_num), zpow_sub₀ (by norm_num)]
    field_simp
  by_cases zero : a.coefficient = 0
  · rw [if_pos zero]
    have nzero : N = 0 := by
      rw [magnitude, zero, Nat.cast_zero, zero_mul, zero_div, div_eq_zero_iff] at value
      rcases value with value | value
      · exact_mod_cast value
      · exact absurd value mpos.ne'
    rw [roundDigits, if_pos nzero, magnitude, Nat.cast_zero, zero_mul]
  rw [if_neg zero]
  by_cases exact' : n % d = 0
  · rw [if_pos exact']
    apply magnitude_fix_eq hp _ hM
    rw [quotient, magnitude, zpow_add₀ (by norm_num), zpow_natCast]
    have dropped := dropZeros_value (a.exponent - b.exponent - (a.exponent - b.exponent - shift)).toNat
      (n / d)
    set stripped := dropZeros (a.exponent - b.exponent - (a.exponent - b.exponent - shift)).toNat (n / d)
    have whole : (n : ℚ) / d = (stripped.1 * 10 ^ stripped.2 : Nat) := by
      rw [dropped, Nat.cast_div (Nat.dvd_of_mod_eq_zero exact') (by exact_mod_cast dpos.ne')]
    rw [whole]
    push_cast
    ring
  · rw [if_neg exact']
    refine magnitude_sticky hp dpos hM exact' ?_ rfl quotient
    -- the shift leaves more digits than the precision
    rw [Nat.le_div_iff_mul_le dpos]
    obtain ⟨low, -⟩ := digitCount_bounds (Nat.pos_of_ne_zero zero)
    obtain ⟨-, high⟩ := digitCount_bounds (Nat.pos_of_ne_zero hb)
    have count := digitCount_pos a.coefficient
    have ratio : (10 : ℚ) ^ precision ≤ n / d := by
      rw [fraction, div_mul_eq_mul_div, le_div_iff₀ bpos]
      have low : (10 : ℚ) ^ (digitCount a.coefficient - 1) ≤ a.coefficient := by exact_mod_cast low
      have high : (b.coefficient : ℚ) ≤ 10 ^ digitCount b.coefficient := by exact_mod_cast high.le
      calc (10 : ℚ) ^ precision * b.coefficient
          ≤ 10 ^ precision * 10 ^ digitCount b.coefficient :=
            mul_le_mul_of_nonneg_left high (by positivity)
        _ = 10 ^ (digitCount a.coefficient - 1) * (10 : ℚ) ^ shift := by
          rw [← pow_add, ← zpow_natCast, ← zpow_natCast, ← zpow_add₀ (by norm_num)]
          congr 1
          omega
        _ ≤ a.coefficient * (10 : ℚ) ^ shift :=
          mul_le_mul_of_nonneg_right low (zpow_nonneg (by norm_num) _)
    rw [le_div_iff₀ (by exact_mod_cast dpos)] at ratio
    exact_mod_cast ratio

end Decimal

end Python
