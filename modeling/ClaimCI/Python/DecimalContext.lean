import ClaimCI.Python.DecimalReading

/-!
# Decimal contexts

Rounding to the precision and to the exponents of a context: numbers that are too large signal an
overflow, and numbers that are too small lose digits.
-/

namespace Python

namespace Decimal

/-- The number without its trailing zeros. -/
def stripped (d : Decimal) : Decimal := d.normalize (digitCount d.coefficient)

@[simp] theorem toRat_stripped (d : Decimal) : d.stripped.toRat = d.toRat := by
  rw [stripped, toRat_normalize, fix_of_digits _ _ le_rfl]

/-- The exponent of the leading digit. -/
def adjusted (d : Decimal) : Int := d.exponent + digitCount d.coefficient - 1

end Decimal

/-- The precision of a context, and the adjusted exponents of its largest and smallest numbers. -/
structure DecimalContext where
  precision : Nat
  emax : Int
  emin : Int

namespace DecimalContext

/-- `Etiny`: the least exponent. -/
def etiny (context : DecimalContext) : Int := context.emin - (context.precision - 1)

/-- `Etop`: the largest exponent of a coefficient that has every digit. -/
def etop (context : DecimalContext) : Int := context.emax - (context.precision - 1)

/-- The exponent to which a coefficient that is not zero is rounded. -/
def least (context : DecimalContext) (d : Decimal) : Int :=
  max (digitCount d.coefficient + d.exponent - context.precision) context.etiny

/-- A rounded coefficient, where a carry into one more digit is shifted away. -/
def carried (precision rounded : Nat) (exponent : Int) : Nat × Int :=
  if rounded = 10 ^ precision then (10 ^ (precision - 1), exponent + 1) else (rounded, exponent)

/-- The result of an operation in the context; `none` is the signal `Overflow`. -/
def finalize (context : DecimalContext) (d : Decimal) : Option Decimal :=
  if d.coefficient = 0 then
    some ⟨d.negative, 0, min (max d.exponent context.etiny) context.emax⟩
  else if context.emax < d.adjusted then none
  else if context.least d ≤ d.exponent then some d
  else
    let rounded := roundHalfEven d.coefficient (10 ^ (context.least d - d.exponent).toNat)
    let result := carried context.precision rounded (context.least d)
    if context.etop < result.2 then none else some ⟨d.negative, result.1, result.2⟩

/-- `a * b`. -/
def mul (context : DecimalContext) (a b : Decimal) : Option Decimal :=
  context.finalize (Decimal.mulExact a b)

/-- `d.normalize()`. -/
def normalize (context : DecimalContext) (d : Decimal) : Option Decimal :=
  (context.finalize d).map Decimal.stripped

/-- The number has no more digits than the context keeps, at exponents that it has. -/
def Holds (context : DecimalContext) (d : Decimal) : Prop :=
  digitCount d.coefficient ≤ context.precision ∧ context.etiny ≤ d.exponent ∧
    d.adjusted ≤ context.emax

instance (context : DecimalContext) (d : Decimal) : Decidable (context.Holds d) := by
  unfold Holds
  infer_instance

/-! ### What a context leaves as it is -/

theorem digitCount_zero : digitCount 0 = 1 := rfl

theorem finalize_of_holds {context : DecimalContext} {d : Decimal} (holds : context.Holds d) :
    context.finalize d = some d := by
  obtain ⟨digits, low, high⟩ := holds
  unfold finalize
  split
  next zero =>
    have exponent : min (max d.exponent context.etiny) context.emax = d.exponent := by
      rw [Decimal.adjusted, zero, digitCount_zero] at high
      omega
    rw [exponent, ← zero]
  · rw [if_neg (not_lt.mpr high), if_pos]
    unfold least
    omega

theorem normalize_of_holds {context : DecimalContext} {d : Decimal} (holds : context.Holds d) :
    context.normalize d = some d.stripped := by
  rw [normalize, finalize_of_holds holds, Option.map_some]

/-! ### What a context returns -/

private theorem carried_holds {context : DecimalContext} (hp : 0 < context.precision)
    {negative : Bool} {rounded : Nat} {exponent : Int} (most : rounded ≤ 10 ^ context.precision)
    (low : context.etiny ≤ exponent)
    (below : ¬ context.etop < (carried context.precision rounded exponent).2) :
    context.Holds ⟨negative, (carried context.precision rounded exponent).1,
      (carried context.precision rounded exponent).2⟩ := by
  have digits : digitCount (carried context.precision rounded exponent).1 ≤ context.precision := by
    rw [digitCount_le_iff _ _ hp]
    unfold carried
    split
    · exact Nat.pow_lt_pow_right (by norm_num) (by omega)
    next other => exact lt_of_le_of_ne most other
  refine ⟨digits, ?_, ?_⟩
  · simp only
    unfold carried
    split <;> simp only <;> omega
  · simp only [Decimal.adjusted]
    unfold etop at below
    omega

/-- A number that is returned fits the context, unless it is zero with another exponent. -/
theorem holds_of_finalize {context : DecimalContext} (hp : 0 < context.precision)
    (range : context.etiny ≤ context.emax) {d result : Decimal}
    (returned : context.finalize d = some result) : context.Holds result := by
  unfold finalize at returned
  split at returned
  next zero =>
    obtain rfl := Option.some.inj returned
    refine ⟨by rw [digitCount_zero]; omega, ?_, ?_⟩
    · simp only
      omega
    · simp only [Decimal.adjusted, digitCount_zero]
      omega
  · split at returned
    · cases returned
    next below =>
      split at returned
      next kept =>
        obtain rfl := Option.some.inj returned
        unfold least at kept
        exact ⟨by omega, by omega, not_lt.mp below⟩
      next long =>
        dsimp only at returned
        split at returned
        · cases returned
        next within =>
          obtain rfl := Option.some.inj returned
          apply carried_holds hp _ _ within
          · -- a coefficient loses at least the digits that the context does not keep
            apply roundHalfEven_le (Nat.pow_pos (by norm_num))
            have count := (digitCount_le_iff d.coefficient _ (digitCount_pos _)).mp le_rfl
            rw [← pow_add]
            apply count.le.trans
            apply Nat.pow_le_pow_right (by norm_num)
            unfold least at long ⊢
            omega
          · unfold least
            omega

/-! ### The text of a result -/

theorem adjusted_stripped {d : Decimal} (nonzero : d.coefficient ≠ 0) :
    d.stripped.adjusted = d.adjusted := by
  have same : d.stripped.magnitude = d.magnitude := by
    rw [Decimal.magnitude_eq_abs, Decimal.toRat_stripped, ← Decimal.magnitude_eq_abs]
  have other : d.stripped.coefficient ≠ 0 := by
    rwa [Ne, ← Decimal.toRat_eq_zero_iff, Decimal.toRat_stripped, Decimal.toRat_eq_zero_iff]
  -- the leading digit of a number brackets it between two powers of ten
  have bracket : ∀ x : Decimal, x.coefficient ≠ 0 →
      (10 : ℚ) ^ x.adjusted ≤ x.magnitude ∧ x.magnitude < (10 : ℚ) ^ (x.adjusted + 1) := by
    intro x filled
    obtain ⟨low, high⟩ := digitCount_bounds (Nat.pos_of_ne_zero filled)
    have count := digitCount_pos x.coefficient
    have positive : (0 : ℚ) < (10 : ℚ) ^ x.exponent := zpow_pos (by norm_num) _
    constructor
    · rw [Decimal.adjusted, show x.exponent + (digitCount x.coefficient : Int) - 1 =
        ((digitCount x.coefficient - 1 : Nat) : Int) + x.exponent by omega,
        zpow_add₀ (by norm_num), zpow_natCast]
      exact mul_le_mul_of_nonneg_right (by exact_mod_cast low) positive.le
    · rw [Decimal.adjusted, show x.exponent + (digitCount x.coefficient : Int) - 1 + 1 =
        (digitCount x.coefficient : Int) + x.exponent by omega,
        zpow_add₀ (by norm_num), zpow_natCast]
      exact mul_lt_mul_of_pos_right (by exact_mod_cast high) positive
  obtain ⟨low, high⟩ := bracket d nonzero
  obtain ⟨lowStripped, highStripped⟩ := bracket d.stripped other
  rw [same] at lowStripped highStripped
  have ten : (1 : ℚ) < 10 := by norm_num
  have above := (zpow_lt_zpow_iff_right₀ ten).mp (low.trans_lt highStripped)
  have below := (zpow_lt_zpow_iff_right₀ ten).mp (lowStripped.trans_lt high)
  omega

/-- A normalized number of a context within the limits of the type can be read from its text. -/
theorem representable_of_normalize {context : DecimalContext} (hp : 0 < context.precision)
    (range : context.etiny ≤ context.emax) (low : -1999999999999999997 ≤ context.etiny)
    (high : context.emax ≤ 999999999999999999) {d result : Decimal}
    (returned : context.normalize d = some result) : result.Representable := by
  obtain ⟨kept, rounded, rfl⟩ := Option.map_eq_some_iff.mp returned
  obtain ⟨-, above, below⟩ := holds_of_finalize hp range rounded
  have exponent := Decimal.normalize_exponent_ge (digitCount kept.coefficient) kept
  change (kept.stripped.coefficient = 0 ∧ kept.stripped.exponent = 0) ∨
    kept.exponent ≤ kept.stripped.exponent at exponent
  unfold Decimal.Representable
  by_cases zero : kept.stripped.coefficient = 0
  · have normal := Decimal.normalize_normal (digitCount kept.coefficient) kept
    change kept.stripped.Normal at normal
    rw [Decimal.Normal, if_pos zero] at normal
    rw [if_pos zero, normal]
    norm_num
  · have nonzero : kept.coefficient ≠ 0 := fun vanishes => zero (by
      rwa [← Decimal.toRat_eq_zero_iff, Decimal.toRat_stripped, Decimal.toRat_eq_zero_iff])
    have leading := adjusted_stripped nonzero
    unfold Decimal.adjusted at leading below
    rw [if_neg zero]
    omega

end DecimalContext

end Python
