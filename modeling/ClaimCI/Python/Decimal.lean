import ClaimCI.Python.Numeral

/-!
# Decimals

Finite decimal floating-point numbers of arbitrary size: exact comparison, and arithmetic that
rounds to the precision of a context, half to even. The exponent limits of a context are far beyond
every number built here, so they are left out.
-/

namespace Python

/-- The number of digits a coefficient is written with; zero has one. -/
def digitCount (n : Nat) : Nat := (decimalDigits n).length

/-- `n / d` rounded to the nearest integer, ties to even. -/
def roundHalfEven (n d : Nat) : Nat :=
  let q := n / d
  let r := n % d
  if 2 * r < d ∨ (2 * r = d ∧ q % 2 = 0) then q else q + 1

/-- `(-1)^negative * coefficient * 10^exponent`; trailing zeros are part of the datum. -/
structure Decimal where
  negative : Bool
  coefficient : Nat
  exponent : Int
  deriving DecidableEq, Repr

namespace Decimal

/-- The signed coefficient. -/
def signed (d : Decimal) : Int := if d.negative then -d.coefficient else d.coefficient

/-- The exact value. -/
def toRat (d : Decimal) : ℚ := d.signed * (10 : ℚ) ^ d.exponent

def ofNat (n : Nat) : Decimal := ⟨false, n, 0⟩

def ofInt (n : Int) : Decimal := ⟨n < 0, n.natAbs, 0⟩

/-- The signed coefficient of `d` at an exponent no larger than its own. -/
def signedAt (d : Decimal) (exponent : Int) : Int :=
  d.signed * 10 ^ (d.exponent - exponent).toNat

/-- The two signed coefficients at the smaller of the two exponents. -/
def aligned (a b : Decimal) : Int × Int :=
  let exponent := min a.exponent b.exponent
  (a.signedAt exponent, b.signedAt exponent)

/-- `a == b`: comparison is exact and disregards trailing zeros and the sign of zero. -/
def eq (a b : Decimal) : Bool := (aligned a b).1 == (aligned a b).2

/-- `a <= b`. -/
def le (a b : Decimal) : Bool := (aligned a b).1 ≤ (aligned a b).2

/-- `a < b`. -/
def lt (a b : Decimal) : Bool := (aligned a b).1 < (aligned a b).2

def isZero (d : Decimal) : Bool := d.coefficient == 0

def abs (d : Decimal) : Decimal := { d with negative := false }

/-- Round to at most `precision` significant digits, half to even. -/
def fix (precision : Nat) (d : Decimal) : Decimal :=
  if digitCount d.coefficient ≤ precision then d
  else
    let drop := digitCount d.coefficient - precision
    let rounded := roundHalfEven d.coefficient (10 ^ drop)
    if rounded = 10 ^ precision then ⟨d.negative, 10 ^ (precision - 1), d.exponent + drop + 1⟩
    else ⟨d.negative, rounded, d.exponent + drop⟩

/-- The sum before rounding; a sum of zero is negative only when both operands are. -/
def addExact (a b : Decimal) : Decimal :=
  let sum := (aligned a b).1 + (aligned a b).2
  ⟨if sum = 0 then a.negative && b.negative else sum < 0, sum.natAbs, min a.exponent b.exponent⟩

def neg (d : Decimal) : Decimal := { d with negative := !d.negative }

def add (precision : Nat) (a b : Decimal) : Decimal := (addExact a b).fix precision

def sub (precision : Nat) (a b : Decimal) : Decimal := (addExact a b.neg).fix precision

def mulExact (a b : Decimal) : Decimal :=
  ⟨a.negative != b.negative, a.coefficient * b.coefficient, a.exponent + b.exponent⟩

def mul (precision : Nat) (a b : Decimal) : Decimal := (mulExact a b).fix precision

/-- Drop at most `n` trailing zeros of a coefficient. -/
def dropZeros : Nat → Nat → Nat × Nat
  | 0, c => (c, 0)
  | n + 1, c =>
    if c % 10 = 0 then ((dropZeros n (c / 10)).1, (dropZeros n (c / 10)).2 + 1) else (c, 0)

/-- `a / b` for a nonzero `b`: one digit more than the precision is computed, made sticky when
the division is inexact, and an exact quotient keeps the exponent closest to the ideal one. -/
def div (precision : Nat) (a b : Decimal) : Decimal :=
  let negative := a.negative != b.negative
  let shift : Int := digitCount b.coefficient - digitCount a.coefficient + precision + 1
  let exponent := a.exponent - b.exponent - shift
  let n := if 0 ≤ shift then a.coefficient * 10 ^ shift.toNat else a.coefficient
  let d := if 0 ≤ shift then b.coefficient else b.coefficient * 10 ^ (-shift).toNat
  if a.coefficient = 0 then ⟨negative, 0, a.exponent - b.exponent⟩
  else if n % d = 0 then
    let stripped := dropZeros (a.exponent - b.exponent - exponent).toNat (n / d)
    fix precision ⟨negative, stripped.1, exponent + stripped.2⟩
  else fix precision ⟨negative, if n / d % 5 = 0 then n / d + 1 else n / d, exponent⟩

/-- `d.normalize()`: rounded to the precision, without trailing zeros; every zero has exponent 0. -/
def normalize (precision : Nat) (d : Decimal) : Decimal :=
  let rounded := d.fix precision
  if rounded.coefficient = 0 then ⟨rounded.negative, 0, 0⟩
  else
    let stripped := dropZeros (digitCount rounded.coefficient) rounded.coefficient
    ⟨rounded.negative, stripped.1, rounded.exponent + stripped.2⟩

/-- `sum(values, Decimal(0))`: a rounded addition for every value, from the left. -/
def sum (precision : Nat) (values : List Decimal) : Decimal :=
  values.foldl (add precision) (ofNat 0)

/-- `str(d)`: positional while the exponent is at most 0 and the number is at least `1e-6`. -/
def spelling (d : Decimal) : Numeral :=
  let digits := decimalDigits d.coefficient
  let left : Int := d.exponent + digits.length
  let positional := d.exponent ≤ 0 ∧ -6 < left
  let place : Int := if positional then left else 1
  let power := left - place
  ⟨d.negative,
    if place ≤ 0 then [0] else digits.take place.toNat,
    if place ≤ 0 then List.replicate (-place).toNat 0 ++ digits else digits.drop place.toNat,
    if positional then none else some ⟨true, some (power < 0), decimalDigits power.natAbs⟩⟩

end Decimal

/-- The value of an exponent part. -/
def Exponent.value (e : Exponent) : Int :=
  if e.negative = some true then -digitsValue e.digits else digitsValue e.digits

/-- The decimal a numeral spells: its digits, and the exponent of its last digit. -/
def Numeral.toDecimal (n : Numeral) : Decimal :=
  ⟨n.negative, digitsValue (n.whole ++ n.fraction),
    (n.exponent.map Exponent.value).getD 0 - n.fraction.length⟩

/-! ### Digit counts -/

theorem digitCount_le_iff (n k : Nat) (hk : 0 < k) : digitCount n ≤ k ↔ n < 10 ^ k := by
  unfold digitCount decimalDigits
  split
  next zero =>
    subst zero
    simp only [List.length_singleton]
    exact ⟨fun _ => by positivity, fun _ => hk⟩
  · rw [List.length_reverse, List.length_map, Nat.digits_length_le_iff (by norm_num)]

theorem digitCount_pos (n : Nat) : 0 < digitCount n :=
  List.length_pos_iff.mpr (decimalDigits_ne_nil n)

theorem digitCount_mul_le (m n : Nat) : digitCount (m * n) ≤ digitCount m + digitCount n := by
  have hm := digitCount_pos m
  have hn := digitCount_pos n
  rw [digitCount_le_iff _ _ (by omega), pow_add]
  exact Nat.mul_lt_mul'' ((digitCount_le_iff m _ hm).mp le_rfl) ((digitCount_le_iff n _ hn).mp le_rfl)

namespace Decimal

/-! ### Comparison is comparison of values -/

theorem signedAt_toRat (d : Decimal) (exponent : Int) (h : exponent ≤ d.exponent) :
    (d.signedAt exponent : ℚ) * (10 : ℚ) ^ exponent = d.toRat := by
  have split : d.exponent = ((d.exponent - exponent).toNat : Int) + exponent := by omega
  rw [toRat, split, zpow_add₀ (by norm_num), zpow_natCast, signedAt]
  push_cast
  ring

theorem aligned_fst (a b : Decimal) :
    ((aligned a b).1 : ℚ) * (10 : ℚ) ^ min a.exponent b.exponent = a.toRat :=
  signedAt_toRat a _ (min_le_left _ _)

theorem aligned_snd (a b : Decimal) :
    ((aligned a b).2 : ℚ) * (10 : ℚ) ^ min a.exponent b.exponent = b.toRat :=
  signedAt_toRat b _ (min_le_right _ _)

private theorem power_pos (e : Int) : (0 : ℚ) < (10 : ℚ) ^ e := zpow_pos (by norm_num) e

@[simp] theorem eq_iff (a b : Decimal) : a.eq b = true ↔ a.toRat = b.toRat := by
  rw [← aligned_fst a b, ← aligned_snd a b, mul_left_inj' (power_pos _).ne', Int.cast_inj]
  simp [eq]

@[simp] theorem le_iff (a b : Decimal) : a.le b = true ↔ a.toRat ≤ b.toRat := by
  rw [← aligned_fst a b, ← aligned_snd a b, mul_le_mul_iff_left₀ (power_pos _), Int.cast_le]
  simp [le]

@[simp] theorem lt_iff (a b : Decimal) : a.lt b = true ↔ a.toRat < b.toRat := by
  rw [← aligned_fst a b, ← aligned_snd a b, mul_lt_mul_iff_left₀ (power_pos _), Int.cast_lt]
  simp [lt]

theorem toRat_eq_zero_iff (d : Decimal) : d.toRat = 0 ↔ d.coefficient = 0 := by
  have pos := power_pos d.exponent
  simp only [toRat, signed]
  split <;> simp [pos.ne']

/-! ### Exact operations -/

theorem toRat_addExact (a b : Decimal) : (addExact a b).toRat = a.toRat + b.toRat := by
  have value : (addExact a b).signed = (aligned a b).1 + (aligned a b).2 := by
    simp only [addExact, signed]
    rcases lt_trichotomy ((aligned a b).1 + (aligned a b).2) 0 with neg | zero | pos
    · simp only [neg.ne, if_false, neg, decide_true, if_true]
      omega
    · simp [zero]
    · simp only [pos.ne', if_false, not_lt.mpr pos.le, decide_false, Bool.false_eq_true]
      omega
  rw [toRat, value, Int.cast_add, add_mul]
  exact congrArg₂ (· + ·) (aligned_fst a b) (aligned_snd a b)

@[simp] theorem toRat_neg (d : Decimal) : d.neg.toRat = -d.toRat := by
  cases h : d.negative <;> simp [toRat, neg, signed, h]

@[simp] theorem toRat_abs (d : Decimal) : d.abs.toRat = |d.toRat| := by
  have pos := power_pos d.exponent
  cases h : d.negative <;> simp [toRat, abs, signed, h, abs_mul, abs_of_pos pos]

theorem toRat_mulExact (a b : Decimal) : (mulExact a b).toRat = a.toRat * b.toRat := by
  have value : (mulExact a b).signed = a.signed * b.signed := by
    cases ha : a.negative <;> cases hb : b.negative <;> simp [mulExact, signed, ha, hb]
  rw [toRat, value, mulExact, zpow_add₀ (by norm_num), toRat, toRat]
  push_cast
  ring

/-- A number that fits the precision is not changed by rounding. -/
theorem fix_of_digits (precision : Nat) (d : Decimal)
    (fits : digitCount d.coefficient ≤ precision) : d.fix precision = d := by
  rw [fix, if_pos fits]

end Decimal

end Python
