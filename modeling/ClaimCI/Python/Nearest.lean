import ClaimCI.Python.Rounding

/-!
# Nearest numbers

The float nearest to a rational number and a rational number rounded to significant digits, as the
values that decimal arithmetic computes; and when two floats are spelled with the same value.
-/

namespace Python

/-- The float nearest to a rational number, a zero without a sign. -/
def nearestFloat (q : ℚ) : Option Binary64 := Binary64.ofFraction (q < 0) q.num.natAbs q.den

/-- A rational number rounded to significant digits, half to even. -/
def roundSignificant (precision : Nat) (q : ℚ) : ℚ :=
  if q < 0 then -roundDigits precision q.num.natAbs q.den
  else roundDigits precision q.num.natAbs q.den

/-- A rational number that can be written with at most `precision` digits and a power of ten. -/
def HasDigits (precision : Nat) (q : ℚ) : Prop :=
  ∃ d : Decimal, digitCount d.coefficient ≤ precision ∧ d.toRat = q

theorem natAbs_div_den (q : ℚ) : (q.num.natAbs : ℚ) / q.den = |q| := by
  rw [Nat.cast_natAbs, Int.cast_abs]
  conv_rhs => rw [← Rat.num_div_den q, abs_div, Nat.abs_cast]

namespace Binary64

theorem ofFraction_congr (negative : Bool) {n d n' d' : Nat} (hd : 0 < d) (hd' : 0 < d')
    (h : (n : ℚ) / d = n' / d') : ofFraction negative n d = ofFraction negative n' d' := by
  simp only [ofFraction, roundFraction_congr hd hd' h]

end Binary64

namespace Decimal

/-- A zero is not negative. -/
def PlainZero (d : Decimal) : Prop := d.toRat = 0 → d.negative = false

theorem magnitude_eq_abs (d : Decimal) : d.magnitude = |d.toRat| := by
  rw [toRat_eq_magnitude]
  split
  · rw [abs_neg, abs_of_nonneg d.magnitude_nonneg]
  · rw [abs_of_nonneg d.magnitude_nonneg]

theorem PlainZero.negative_iff {d : Decimal} (plain : d.PlainZero) :
    d.negative = decide (d.toRat < 0) := by
  have nonneg := d.magnitude_nonneg
  have value := d.toRat_eq_magnitude
  cases sign : d.negative with
  | true =>
    rw [if_pos sign] at value
    have nonzero : d.toRat ≠ 0 := fun zero => absurd (plain zero) (by simp [sign])
    rw [eq_comm, decide_eq_true_eq]
    exact lt_of_le_of_ne (by rw [value]; exact neg_nonpos.mpr nonneg) nonzero
  | false =>
    rw [if_neg (by rw [sign]; exact Bool.false_ne_true)] at value
    rw [eq_comm, decide_eq_false_iff_not, not_lt, value]
    exact nonneg

/-- `float` of a decimal is the float nearest to its value. -/
theorem PlainZero.ofDecimal_eq {d : Decimal} (plain : d.PlainZero) :
    Binary64.ofDecimal d = nearestFloat d.toRat := by
  obtain ⟨n, m, hm, value, rounds⟩ := Binary64.ofDecimal_fraction d
  rw [rounds, nearestFloat, plain.negative_iff]
  apply Binary64.ofFraction_congr _ hm d.toRat.den_pos
  rw [value, natAbs_div_den]
  exact d.magnitude_eq_abs

/-- Rounding keeps a number that the precision holds. -/
theorem toRat_fix_of_hasDigits {precision : Nat} (hp : 0 < precision) {d : Decimal}
    (holds : HasDigits precision d.toRat) : (d.fix precision).toRat = d.toRat := by
  obtain ⟨t, fits, value⟩ := holds
  rw [← value]
  exact le_antisymm (toRat_fix_le hp fits value.ge) (le_toRat_fix hp fits value.le)

/-- An addition whose exact sum fits the precision is exact, and it makes no negative zero. -/
theorem add_exact {precision : Nat} (hp : 0 < precision) {a b : Decimal} (plain : a.PlainZero)
    (holds : HasDigits precision (a.toRat + b.toRat)) :
    (a.add precision b).toRat = a.toRat + b.toRat ∧ (a.add precision b).PlainZero := by
  have value : (a.add precision b).toRat = a.toRat + b.toRat := by
    rw [← toRat_addExact] at holds ⊢
    exact toRat_fix_of_hasDigits hp holds
  refine ⟨value, fun zero => ?_⟩
  rw [value] at zero
  have alignedZero : (aligned a b).1 + (aligned a b).2 = 0 := by
    have power : (10 : ℚ) ^ min a.exponent b.exponent ≠ 0 := zpow_ne_zero _ (by norm_num)
    rw [← aligned_fst a b, ← aligned_snd a b, ← add_mul, mul_eq_zero] at zero
    exact_mod_cast zero.resolve_right power
  rw [add, fix_negative, addExact]
  simp only [alignedZero, if_true]
  by_cases vanishes : a.toRat = 0
  · rw [plain vanishes, Bool.false_and]
  · -- two numbers of one sign do not cancel
    have signs := toRat_eq_magnitude a
    have signs' := toRat_eq_magnitude b
    have nonneg := a.magnitude_nonneg
    have nonneg' := b.magnitude_nonneg
    rw [Bool.and_eq_false_iff]
    by_contra both
    rw [not_or, Bool.not_eq_false, Bool.not_eq_false] at both
    rw [if_pos both.1] at signs
    rw [if_pos both.2] at signs'
    have positive : a.magnitude ≠ 0 := fun h => vanishes (by rw [signs, h, neg_zero])
    have bigger := lt_of_le_of_ne nonneg positive.symm
    linarith

/-- A quotient by a positive number is the exact quotient rounded once. -/
theorem toRat_div {precision : Nat} (hp : 0 < precision) {a b : Decimal} (plain : a.PlainZero)
    (positive : b.negative = false) (hb : b.coefficient ≠ 0) :
    (a.div precision b).toRat = roundSignificant precision (a.toRat / b.toRat) ∧
      (a.div precision b).PlainZero := by
  have bpos : 0 < b.toRat := by
    rw [toRat_eq_magnitude, if_neg (by rw [positive]; exact Bool.false_ne_true)]
    exact lt_of_le_of_ne b.magnitude_nonneg fun h => hb (by
      rw [magnitude, eq_comm, mul_eq_zero] at h
      exact_mod_cast h.resolve_right (zpow_ne_zero _ (by norm_num)))
  have sign : (a.div precision b).negative = decide (a.toRat / b.toRat < 0) := by
    rw [div_negative, positive, Bool.bne_false, plain.negative_iff, decide_eq_decide,
      div_lt_iff₀ bpos, zero_mul]
  have size : (a.div precision b).magnitude =
      roundDigits precision (a.toRat / b.toRat).num.natAbs (a.toRat / b.toRat).den := by
    apply magnitude_div hp a b hb (Rat.den_pos _)
    rw [natAbs_div_den, abs_div, magnitude_eq_abs, magnitude_eq_abs]
  have value : (a.div precision b).toRat = roundSignificant precision (a.toRat / b.toRat) := by
    rw [toRat_eq_magnitude, sign, size, roundSignificant]
    simp only [decide_eq_true_eq]
  refine ⟨value, fun zero => ?_⟩
  rw [sign, decide_eq_false_iff_not]
  intro negative
  have digits := roundDigits_pos hp (Int.natAbs_pos.mpr (Rat.num_ne_zero.mpr negative.ne))
    (a.toRat / b.toRat).den_pos
  rw [value, roundSignificant, if_pos negative] at zero
  linarith

end Decimal

namespace Binary64

theorem toDecimal_eq_zero_iff (x : Binary64) : x.toDecimal.toRat = 0 ↔ x.mantissa = 0 := by
  rw [Decimal.toRat_eq_zero_iff]
  constructor
  · intro zero
    have read := ofDecimal_magnitude
      ⟨x.negative, 0, -1074, by norm_num, le_rfl, by norm_num, Or.inr rfl⟩ x.toDecimal
      x.toDecimal_negative (by simp [zero, magnitude])
    rw [ofDecimal_toDecimal] at read
    rw [Option.some.inj read]
  · intro zero
    have value := x.toDecimal_shortest
    rw [shortest, if_pos zero, Nat.cast_zero, zero_mul, mul_eq_zero] at value
    exact_mod_cast value.resolve_right (zpow_ne_zero _ (by norm_num))

private theorem toRat_eq_zero_iff (x : Binary64) : x.toRat = 0 ↔ x.mantissa = 0 := by
  have unit : (2 : ℚ) ^ x.exponent ≠ 0 := zpow_ne_zero _ (by norm_num)
  unfold toRat magnitude
  split <;> simp [unit]

/-- Floats of the same sign and magnitude are the same. -/
private theorem ext_magnitude {x y : Binary64} (sign : x.negative = y.negative)
    (same : x.magnitude = y.magnitude) : x = y := by
  have left := ofDecimal_magnitude x ⟨x.negative, x.exactDecimal.1, x.exactDecimal.2⟩ rfl
    x.exactDecimal_value
  have right := ofDecimal_magnitude y ⟨x.negative, x.exactDecimal.1, x.exactDecimal.2⟩ sign
    (x.exactDecimal_value.trans same)
  exact Option.some.inj (left.symm.trans right)

/-- Floats are spelled with the same value exactly if they are equal as numbers. -/
theorem toDecimal_toRat_eq_iff (x y : Binary64) :
    x.toDecimal.toRat = y.toDecimal.toRat ↔ x.toRat = y.toRat := by
  by_cases zero : x.mantissa = 0
  · rw [(toDecimal_eq_zero_iff x).mpr zero, (toRat_eq_zero_iff x).mpr zero, eq_comm,
      toDecimal_eq_zero_iff, @eq_comm _ 0 y.toRat, toRat_eq_zero_iff]
  · constructor
    · intro same
      have nonzero : x.toDecimal.toRat ≠ 0 := fun h => zero ((toDecimal_eq_zero_iff x).mp h)
      have signs : x.toDecimal.negative = y.toDecimal.negative := by
        have plain : x.toDecimal.PlainZero := fun h => absurd h nonzero
        have plain' : y.toDecimal.PlainZero := fun h => absurd (same.trans h) nonzero
        rw [plain.negative_iff, plain'.negative_iff, same]
      have sizes : x.toDecimal.magnitude = y.toDecimal.magnitude := by
        rw [Decimal.magnitude_eq_abs, Decimal.magnitude_eq_abs, same]
      have read := ofDecimal_congr signs sizes
      rw [ofDecimal_toDecimal, ofDecimal_toDecimal] at read
      rw [Option.some.inj read]
    · intro same
      have nonzero : x.toRat ≠ 0 := fun h => zero ((toRat_eq_zero_iff x).mp h)
      have positive := x.magnitude_nonneg
      have positive' := y.magnitude_nonneg
      -- a nonzero value determines the sign
      have equal : x = y := by
        unfold toRat at same nonzero
        cases hx : x.negative <;> cases hy : y.negative <;>
          simp only [hx, hy, if_true, if_false, Bool.false_eq_true] at same nonzero
        · exact ext_magnitude (hx.trans hy.symm) same
        · exact absurd (by linarith) nonzero
        · exact absurd (by linarith) nonzero
        · exact ext_magnitude (hx.trans hy.symm) (neg_inj.mp same)
      rw [equal]

end Binary64

end Python
