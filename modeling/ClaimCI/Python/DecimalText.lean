import ClaimCI.Python.Nearest

/-!
# The text of a decimal

`str` of a decimal is a numeral that reads back as the same decimal, and a number has one
normalized form, so normalized numbers are equal exactly when their texts are.
-/

namespace Python

namespace Decimal

/-! ### Reading the text back -/

private theorem digits_of_place (d : Decimal) (place : Int)
    (low : place ≤ (decimalDigits d.coefficient).length) :
    digitsValue ((if place ≤ 0 then [0] else (decimalDigits d.coefficient).take place.toNat) ++
      (if place ≤ 0 then List.replicate (-place).toNat 0 ++ decimalDigits d.coefficient
        else (decimalDigits d.coefficient).drop place.toNat)) = d.coefficient ∧
    ((if place ≤ 0 then List.replicate (-place).toNat 0 ++ decimalDigits d.coefficient
        else (decimalDigits d.coefficient).drop place.toNat).length : Int) =
      (decimalDigits d.coefficient).length - place := by
  by_cases leading : place ≤ 0
  · simp only [if_pos leading]
    constructor
    · rw [List.singleton_append, digitsValue_zero_cons, digitsValue_append,
        digitsValue_replicate_zero, zero_mul, zero_add, digitsValue_decimalDigits]
    · rw [List.length_append, List.length_replicate]
      push_cast
      omega
  · simp only [if_neg leading]
    constructor
    · rw [List.take_append_drop, digitsValue_decimalDigits]
    · rw [List.length_drop]
      omega

private theorem exponentValue (power : Int) :
    Exponent.value ⟨true, some (power < 0), decimalDigits power.natAbs⟩ = power := by
  unfold Exponent.value
  simp only [digitsValue_decimalDigits]
  split
  next negative =>
    have below : power < 0 := by simpa using negative
    omega
  next nonneg =>
    have above : ¬ power < 0 := by simpa using nonneg
    omega

/-- The numeral `str` writes denotes the decimal itself, trailing zeros and sign included. -/
@[simp] theorem spelling_toDecimal (d : Decimal) : d.spelling.toDecimal = d := by
  have one : (1 : Int) ≤ (decimalDigits d.coefficient).length := by
    have := digitCount_pos d.coefficient
    unfold digitCount at this
    omega
  unfold spelling Numeral.toDecimal
  simp only
  by_cases positional : d.exponent ≤ 0 ∧
      -6 < d.exponent + ((decimalDigits d.coefficient).length : Int)
  · simp only [if_pos positional]
    obtain ⟨value, length⟩ := digits_of_place d
      (d.exponent + (decimalDigits d.coefficient).length) (by omega)
    rw [value, length]
    simp
  · simp only [if_neg positional]
    obtain ⟨value, length⟩ := digits_of_place d 1 one
    rw [value, length]
    simp only [Option.map_some, Option.getD_some, exponentValue]
    congr 1
    omega

private theorem whole_of_place (d : Decimal) (place : Int) :
    let whole := if place ≤ 0 then [0] else (decimalDigits d.coefficient).take place.toNat
    whole ≠ [] ∧ (whole.head? = some 0 → whole = [0]) := by
  have filled := decimalDigits_ne_nil d.coefficient
  have lead := decimalDigits_no_leading_zero d.coefficient
  intro whole
  by_cases leading : place ≤ 0
  · simp [whole, leading]
  · obtain ⟨m, taken⟩ : ∃ m : Nat, place.toNat = m + 1 := ⟨place.toNat - 1, by omega⟩
    simp only [whole, if_neg leading, taken]
    cases digits : decimalDigits d.coefficient with
    | nil => exact absurd digits filled
    | cons first rest =>
      rw [digits] at lead
      constructor
      · exact List.cons_ne_nil _ _
      · intro zero
        rw [lead zero, List.take_succ_cons, List.take_nil]

theorem spelling_wellFormed (d : Decimal) : d.spelling.WellFormed := by
  unfold spelling
  constructor
  · exact (whole_of_place d _).1
  · exact (whole_of_place d _).2
  · simp only
    intro e member
    split at member
    · cases member
    · cases member
      exact decimalDigits_ne_nil _

/-- Reading the text of a decimal gives the decimal. -/
theorem parseNumeral_spelling (d : Decimal) :
    (parseNumeral d.spelling.render).map Numeral.toDecimal = some d := by
  rw [parseNumeral_render d.spelling d.spelling_wellFormed, Option.map_some, spelling_toDecimal]

theorem text_injective {a b : Decimal} (same : a.spelling.render = b.spelling.render) : a = b := by
  have read := parseNumeral_spelling a
  rw [same, parseNumeral_spelling b] at read
  exact (Option.some.inj read).symm

/-! ### The normalized form -/

theorem toRat_normalize (precision : Nat) (d : Decimal) :
    (d.normalize precision).toRat = (d.fix precision).toRat := by
  simp only [normalize]
  split
  next zero =>
    rw [(toRat_eq_zero_iff (d.fix precision)).mpr zero]
    exact (toRat_eq_zero_iff _).mpr rfl
  next nonzero =>
    have kept := dropZeros_value (digitCount (d.fix precision).coefficient)
      (d.fix precision).coefficient
    rw [toRat_eq_magnitude, toRat_eq_magnitude]
    have value : ∀ (c k : Nat) (e : Int), (c : ℚ) * (10 : ℚ) ^ (e + k) =
        ((c * 10 ^ k : Nat) : ℚ) * (10 : ℚ) ^ e := by
      intro c k e
      rw [zpow_add₀ (by norm_num), zpow_natCast]
      push_cast
      ring
    simp only [magnitude, value, kept]

private theorem dropZeros_last (n c : Nat) (nonzero : c ≠ 0) (small : c < 10 ^ n) :
    (dropZeros n c).1 % 10 ≠ 0 := by
  induction n generalizing c with
  | zero =>
    rw [pow_zero] at small
    omega
  | succ n ih =>
    unfold dropZeros
    split
    next divisible =>
      apply ih
      · omega
      · rw [pow_succ] at small
        omega
    next last => exact last

/-- No trailing zeros in the coefficient, and zero has exponent 0. -/
def Normal (d : Decimal) : Prop :=
  if d.coefficient = 0 then d.exponent = 0 else d.coefficient % 10 ≠ 0

theorem normalize_normal (precision : Nat) (d : Decimal) : (d.normalize precision).Normal := by
  simp only [normalize]
  split
  · rfl
  next nonzero =>
    have last := dropZeros_last (digitCount (d.fix precision).coefficient)
      (d.fix precision).coefficient nonzero ((digitCount_le_iff _ _ (digitCount_pos _)).mp le_rfl)
    have kept : (dropZeros (digitCount (d.fix precision).coefficient)
        (d.fix precision).coefficient).1 ≠ 0 := by
      intro zero
      rw [zero] at last
      exact last rfl
    simpa only [Normal, kept, if_false] using last

private theorem coefficient_le {a b : Nat} {k : Nat} (last : a % 10 ≠ 0)
    (same : a = b * 10 ^ k) : k = 0 := by
  cases k with
  | zero => rfl
  | succ k =>
    rw [pow_succ, ← mul_assoc] at same
    omega

/-- Normal numbers of one magnitude are equal but for the sign. -/
theorem Normal.magnitude_eq {a b : Decimal} (na : a.Normal) (nb : b.Normal)
    (same : a.magnitude = b.magnitude) :
    a.coefficient = b.coefficient ∧ a.exponent = b.exponent := by
  have zero : ∀ d : Decimal, d.magnitude = 0 ↔ d.coefficient = 0 := by
    intro d
    have pos : (10 : ℚ) ^ d.exponent ≠ 0 := (zpow_pos (by norm_num) _).ne'
    simp [magnitude, pos]
  by_cases za : a.coefficient = 0
  · have zb : b.coefficient = 0 := (zero b).mp (same ▸ (zero a).mpr za)
    rw [Normal, if_pos za] at na
    rw [Normal, if_pos zb] at nb
    exact ⟨za.trans zb.symm, na.trans nb.symm⟩
  · have zb : b.coefficient ≠ 0 := fun z => za ((zero a).mp (same.trans ((zero b).mpr z)))
    rw [Normal, if_neg za] at na
    rw [Normal, if_neg zb] at nb
    -- the number with the larger exponent is scaled to the other one
    have scaled : ∀ x y : Decimal, x.coefficient % 10 ≠ 0 → x.magnitude = y.magnitude →
        x.exponent ≤ y.exponent →
        x.coefficient = y.coefficient ∧ x.exponent = y.exponent := by
      intro x y last equal le
      obtain ⟨k, hk⟩ := Int.eq_ofNat_of_zero_le (sub_nonneg.mpr le)
      have above : y.exponent = x.exponent + k := by omega
      have pos : (10 : ℚ) ^ x.exponent ≠ 0 := (zpow_pos (by norm_num) _).ne'
      unfold magnitude at equal
      rw [above, zpow_add₀ (by norm_num), zpow_natCast, mul_comm ((10 : ℚ) ^ x.exponent),
        ← mul_assoc, mul_left_inj' pos] at equal
      have whole : x.coefficient = y.coefficient * 10 ^ k := by exact_mod_cast equal
      have none := coefficient_le last whole
      subst none
      exact ⟨by simpa using whole, by simpa using above.symm⟩
    rcases le_total a.exponent b.exponent with le | le
    · exact scaled a b na same le
    · obtain ⟨c, e⟩ := scaled b a nb same.symm le
      exact ⟨c.symm, e.symm⟩

/-- Normal numbers of one value that is not zero are one datum. -/
theorem Normal.toRat_eq {a b : Decimal} (na : a.Normal) (nb : b.Normal)
    (same : a.toRat = b.toRat) (nonzero : a.coefficient ≠ 0) : a = b := by
  have nonzeroRat : a.toRat ≠ 0 := fun z => nonzero ((toRat_eq_zero_iff a).mp z)
  have magnitudes : a.magnitude = b.magnitude := by
    rw [magnitude_eq_abs, magnitude_eq_abs, same]
  have sign : a.negative = b.negative := by
    have pos : 0 < a.magnitude := by
      rw [magnitude_eq_abs]
      exact abs_pos.mpr nonzeroRat
    rw [toRat_eq_magnitude, toRat_eq_magnitude, ← magnitudes] at same
    cases ha : a.negative <;> cases hb : b.negative
    · rfl
    · simp only [ha, hb, Bool.false_eq_true, if_false, if_true] at same
      linarith
    · simp only [ha, hb, Bool.false_eq_true, if_false, if_true] at same
      linarith
    · rfl
  obtain ⟨c, e⟩ := na.magnitude_eq nb magnitudes
  obtain ⟨_, _, _⟩ := a
  obtain ⟨_, _, _⟩ := b
  exact Decimal.mk.injEq .. ▸ ⟨sign, c, e⟩

end Decimal

end Python
