import ClaimCI.Python.Decimal

/-!
# Binary64

Finite IEEE 754 double-precision numbers, rounding of exact fractions to them (to nearest, ties to
even), and the shortest decimal spelling that reads back as the same number.
-/

namespace Python

/-- A finite double `(-1)^negative * mantissa * 2^exponent` in its unique normal form: the mantissa
has 53 bits unless the exponent is the least one. Both zeros are included. -/
structure Binary64 where
  negative : Bool
  mantissa : Nat
  exponent : Int
  mantissa_lt : mantissa < 2 ^ 53
  exponent_ge : -1074 ≤ exponent
  exponent_le : exponent ≤ 971
  normalized : 2 ^ 52 ≤ mantissa ∨ exponent = -1074
  deriving DecidableEq

/-- `n / d` divided by `2 ^ e`, as a fraction. -/
def scaleFraction (n d : Nat) (e : Int) : Nat × Nat :=
  if 0 ≤ e then (n, d * 2 ^ e.toNat) else (n * 2 ^ (-e).toNat, d)

/-- `⌊log₂ (n / d)⌋` for positive `n` and `d`. -/
def floorLog2 (n d : Nat) : Int :=
  let k : Int := n.log2 - d.log2
  let scaled := scaleFraction n d k
  if scaled.2 ≤ scaled.1 then k else k - 1

/-- The mantissa and exponent of the double nearest to `n / d`, before the range check. -/
def roundFraction (n d : Nat) : Nat × Int :=
  if n = 0 then (0, -1074)
  else
    let e := max (floorLog2 n d - 52) (-1074)
    let scaled := scaleFraction n d e
    let m := roundHalfEven scaled.1 scaled.2
    if m = 2 ^ 53 then (2 ^ 52, e + 1) else (m, e)

namespace Binary64

/-- The double nearest to `(-1)^negative * n / d`; `none` when it overflows. -/
def ofFraction (negative : Bool) (n d : Nat) : Option Binary64 :=
  let r := roundFraction n d
  if h : r.1 < 2 ^ 53 ∧ -1074 ≤ r.2 ∧ r.2 ≤ 971 ∧ (2 ^ 52 ≤ r.1 ∨ r.2 = -1074) then
    some ⟨negative, r.1, r.2, h.1, h.2.1, h.2.2.1, h.2.2.2⟩
  else none

/-- `float(d)` for a decimal; `none` when the result is infinite. -/
def ofDecimal (d : Decimal) : Option Binary64 :=
  if 0 ≤ d.exponent then ofFraction d.negative (d.coefficient * 10 ^ d.exponent.toNat) 1
  else ofFraction d.negative d.coefficient (10 ^ (-d.exponent).toNat)

/-- `float(n)` for an integer; `none` is `OverflowError`. -/
def ofInt (n : Int) : Option Binary64 := ofDecimal (Decimal.ofInt n)

/-- `|x|`, exactly. -/
def magnitude (x : Binary64) : ℚ := x.mantissa * (2 : ℚ) ^ x.exponent

/-- The exact value; both zeros have value `0`. -/
def toRat (x : Binary64) : ℚ := if x.negative then -x.magnitude else x.magnitude

/-- The decimal with exactly the magnitude of `x`. -/
def exactDecimal (x : Binary64) : Nat × Int :=
  if 0 ≤ x.exponent then (x.mantissa * 2 ^ x.exponent.toNat, 0)
  else (x.mantissa * 5 ^ (-x.exponent).toNat, x.exponent)

/-- The power of ten of the leading digit of `n / d`, for positive `n` and `d`. -/
def floorLog10 (n d : Nat) : Int :=
  if d ≤ n then digitCount (n / d) - 1 else -digitCount ((d - 1) / n)

/-- The multiple of `10 ^ p` nearest to `x` that reads back as `x`; only the two neighbours of `x`
need to be tried. -/
def decimalAt (x : Binary64) (p : Int) : Option Nat :=
  let binary := scaleFraction x.mantissa 1 (-x.exponent)
  let n := if 0 ≤ p then binary.1 else binary.1 * 10 ^ (-p).toNat
  let d := if 0 ≤ p then binary.2 * 10 ^ p.toNat else binary.2
  let nearest := roundHalfEven n d
  let other := if nearest = n / d then n / d + 1 else n / d
  if ofDecimal ⟨x.negative, nearest, p⟩ = some x then some nearest
  else if ofDecimal ⟨x.negative, other, p⟩ = some x then some other
  else none

/-- Try ever finer powers of ten; the exact decimal comes last. -/
def searchDecimal (x : Binary64) : Nat → Int → Nat × Int
  | 0, _ => x.exactDecimal
  | fuel + 1, p =>
    match x.decimalAt p with
    | some c => (c, p)
    | none => searchDecimal x fuel (p - 1)

/-- The coefficient and exponent of the shortest decimal that reads back as `x`. -/
def shortest (x : Binary64) : Nat × Int :=
  if x.mantissa = 0 then (0, 0)
  else
    let binary := scaleFraction x.mantissa 1 (-x.exponent)
    let start := floorLog10 binary.1 binary.2
    let found := x.searchDecimal (start - min 0 x.exponent).toNat start
    let stripped := Decimal.dropZeros (digitCount found.1) found.1
    (stripped.1, found.2 + stripped.2)

/-- The numeral with digits `ds` and the decimal point after `point` of them: positional for
`1e-4 ≤ |x| < 1e16`, in exponent form otherwise. -/
def spellDigits (negative : Bool) (ds : List Digit) (point : Int) : Numeral :=
  if -4 < point ∧ point ≤ 16 then
    if point ≤ 0 then ⟨negative, [0], List.replicate (-point).toNat 0 ++ ds, none⟩
    else if point < ds.length then ⟨negative, ds.take point.toNat, ds.drop point.toNat, none⟩
    else ⟨negative, ds ++ List.replicate (point.toNat - ds.length) 0, [0], none⟩
  else
    let power := decimalDigits (point - 1).natAbs
    ⟨negative, ds.take 1, ds.drop 1,
      some ⟨false, some (point - 1 < 0), if power.length < 2 then 0 :: power else power⟩⟩

/-- `repr(x)`. -/
def spelling (x : Binary64) : Numeral :=
  let ds := decimalDigits x.shortest.1
  spellDigits x.negative ds (x.shortest.2 + ds.length)

/-- `Decimal(str(x))`. -/
def toDecimal (x : Binary64) : Decimal := x.spelling.toDecimal

end Binary64

/-! ### Rounding is exact on doubles -/

theorem scaleFraction_den_pos (n : Nat) {d : Nat} (hd : 0 < d) (e : Int) :
    0 < (scaleFraction n d e).2 := by
  unfold scaleFraction
  split
  · positivity
  · exact hd

theorem scaleFraction_eq (n : Nat) {d : Nat} (hd : 0 < d) (e : Int) :
    ((scaleFraction n d e).1 : ℚ) / (scaleFraction n d e).2 = n / d / (2 : ℚ) ^ e := by
  have hd' : (d : ℚ) ≠ 0 := by positivity
  unfold scaleFraction
  split
  next nonneg =>
    obtain ⟨k, rfl⟩ := Int.eq_ofNat_of_zero_le nonneg
    simp only [Int.toNat_natCast, Nat.cast_mul, Nat.cast_pow, Nat.cast_ofNat, zpow_natCast]
    field_simp
  next neg =>
    obtain ⟨k, hk⟩ := Int.eq_ofNat_of_zero_le (show 0 ≤ -e by omega)
    have he : e = -(k : Int) := by omega
    subst he
    simp only [neg_neg, Int.toNat_natCast, Nat.cast_mul, Nat.cast_pow, Nat.cast_ofNat, zpow_neg,
      zpow_natCast]
    field_simp

theorem roundHalfEven_mul (m : Nat) {d : Nat} (hd : 0 < d) : roundHalfEven (m * d) d = m := by
  simp [roundHalfEven, hd]

private theorem log2_bounds (n : Nat) (hn : 0 < n) :
    ((2 : ℚ) ^ (n.log2 : Int) ≤ n) ∧ (n : ℚ) < (2 : ℚ) ^ ((n.log2 : Int) + 1) := by
  constructor
  · exact_mod_cast Nat.log2_self_le hn.ne'
  · have h := Nat.lt_log2_self (n := n)
    rw [zpow_add_one₀ (by norm_num), zpow_natCast, ← pow_succ]
    exact_mod_cast h

/-- `floorLog2` brackets the fraction between two neighbouring powers of two. -/
theorem floorLog2_bounds {n d : Nat} (hn : 0 < n) (hd : 0 < d) :
    (2 : ℚ) ^ floorLog2 n d ≤ n / d ∧ (n : ℚ) / d < (2 : ℚ) ^ (floorLog2 n d + 1) := by
  obtain ⟨nlo, nhi⟩ := log2_bounds n hn
  obtain ⟨dlo, dhi⟩ := log2_bounds d hd
  have dpos : (0 : ℚ) < d := by exact_mod_cast hd
  set k : Int := n.log2 - d.log2 with hk
  have upper : (n : ℚ) / d < (2 : ℚ) ^ (k + 1) := by
    rw [div_lt_iff₀ dpos]
    calc (n : ℚ) < 2 ^ ((n.log2 : Int) + 1) := nhi
      _ = 2 ^ (k + 1) * 2 ^ (d.log2 : Int) := by
        rw [← zpow_add₀ (by norm_num)]; congr 1; omega
      _ ≤ 2 ^ (k + 1) * d := by gcongr
  have lower : (2 : ℚ) ^ (k - 1) ≤ n / d := by
    rw [le_div_iff₀ dpos]
    calc (2 : ℚ) ^ (k - 1) * d ≤ 2 ^ (k - 1) * 2 ^ ((d.log2 : Int) + 1) := by gcongr
      _ = 2 ^ (n.log2 : Int) := by rw [← zpow_add₀ (by norm_num)]; congr 1; omega
      _ ≤ n := nlo
  have scaledPos : (0 : ℚ) < (scaleFraction n d k).2 := by
    exact_mod_cast scaleFraction_den_pos n hd k
  have middle : (scaleFraction n d k).2 ≤ (scaleFraction n d k).1 ↔ (2 : ℚ) ^ k ≤ n / d := by
    have cast : (scaleFraction n d k).2 ≤ (scaleFraction n d k).1 ↔
        (1 : ℚ) ≤ (scaleFraction n d k).1 / (scaleFraction n d k).2 := by
      rw [le_div_iff₀ scaledPos, one_mul, Nat.cast_le]
    rw [cast, scaleFraction_eq n hd, le_div_iff₀ (by positivity), one_mul]
  simp only [floorLog2, ← hk]
  split
  next le => exact ⟨middle.mp le, upper⟩
  next gt =>
    refine ⟨lower, ?_⟩
    rw [sub_add_cancel]
    exact not_le.mp fun h => gt (middle.mpr h)

/-- At most one power of two brackets a number from below. -/
private theorem bracket_unique {q : ℚ} {a b : Int} (ha : (2 : ℚ) ^ a ≤ q ∧ q < (2 : ℚ) ^ (a + 1))
    (hb : (2 : ℚ) ^ b ≤ q ∧ q < (2 : ℚ) ^ (b + 1)) : a = b := by
  have ab := (zpow_lt_zpow_iff_right₀ (by norm_num : (1 : ℚ) < 2)).mp (ha.1.trans_lt hb.2)
  have ba := (zpow_lt_zpow_iff_right₀ (by norm_num : (1 : ℚ) < 2)).mp (hb.1.trans_lt ha.2)
  omega

namespace Binary64

private theorem floorLog2_magnitude (x : Binary64) (nonzero : x.mantissa ≠ 0) {n d : Nat}
    (hn : 0 < n) (hd : 0 < d) (h : (n : ℚ) / d = x.magnitude) :
    floorLog2 n d = x.mantissa.log2 + x.exponent := by
  obtain ⟨lo, hi⟩ := log2_bounds x.mantissa (Nat.pos_of_ne_zero nonzero)
  have pos : (0 : ℚ) < 2 ^ x.exponent := by positivity
  apply bracket_unique (h ▸ floorLog2_bounds hn hd)
  rw [magnitude, zpow_add₀ (by norm_num),
    show (x.mantissa.log2 : Int) + x.exponent + 1 = x.mantissa.log2 + 1 + x.exponent by ring,
    zpow_add₀ (by norm_num)]
  exact ⟨by gcongr, by gcongr⟩

/-- The exponent rounding chooses for the magnitude of a double is the exponent of that double. -/
private theorem target_exponent (x : Binary64) (nonzero : x.mantissa ≠ 0) :
    max (x.mantissa.log2 + x.exponent - 52) (-1074) = x.exponent := by
  have upper : x.mantissa.log2 < 53 := (Nat.log2_lt nonzero).mpr x.mantissa_lt
  have least := x.exponent_ge
  rcases x.normalized with normal | subnormal
  · have lower : 52 ≤ x.mantissa.log2 := (Nat.le_log2 nonzero).mpr normal
    omega
  · omega

theorem roundFraction_magnitude (x : Binary64) {n d : Nat} (hd : 0 < d)
    (h : (n : ℚ) / d = x.magnitude) : roundFraction n d = (x.mantissa, x.exponent) := by
  have dpos : (0 : ℚ) < d := by exact_mod_cast hd
  have powPos : (0 : ℚ) < 2 ^ x.exponent := by positivity
  -- zero has the least exponent
  by_cases zero : x.mantissa = 0
  · have least : x.exponent = -1074 := by
      rcases x.normalized with normal | subnormal
      · omega
      · exact subnormal
    have hn : n = 0 := by
      rw [magnitude, zero, Nat.cast_zero, zero_mul, div_eq_zero_iff] at h
      rcases h with h | h
      · exact_mod_cast h
      · exact absurd h dpos.ne'
    simp [roundFraction, hn, zero, least]
  · have hn : 0 < n := by
      rcases Nat.eq_zero_or_pos n with rfl | pos
      · rw [Nat.cast_zero, zero_div, magnitude, eq_comm, mul_eq_zero] at h
        rcases h with h | h
        · exact absurd (by exact_mod_cast h) zero
        · exact absurd h powPos.ne'
      · exact pos
    -- the binary logarithm fixes the exponent, and the division is exact
    have exponent : max (floorLog2 n d - 52) (-1074) = x.exponent := by
      rw [floorLog2_magnitude x zero hn hd h]
      exact target_exponent x zero
    have denominator := scaleFraction_den_pos n hd x.exponent
    have mantissa : (scaleFraction n d x.exponent).1 =
        x.mantissa * (scaleFraction n d x.exponent).2 := by
      have quotient := scaleFraction_eq n hd x.exponent
      rw [h, magnitude, mul_div_cancel_right₀ _ powPos.ne',
        div_eq_iff (by exact_mod_cast denominator.ne')] at quotient
      exact_mod_cast quotient
    have small := x.mantissa_lt
    simp only [roundFraction, if_neg hn.ne', exponent, mantissa, roundHalfEven_mul _ denominator,
      if_neg small.ne]

/-- Rounding any fraction with the value of a double gives the double back. -/
theorem ofFraction_magnitude (x : Binary64) {n d : Nat} (hd : 0 < d)
    (h : (n : ℚ) / d = x.magnitude) : ofFraction x.negative n d = some x := by
  have rounded := roundFraction_magnitude x hd h
  have fits : x.mantissa < 2 ^ 53 ∧ -1074 ≤ x.exponent ∧ x.exponent ≤ 971 ∧
      (2 ^ 52 ≤ x.mantissa ∨ x.exponent = -1074) :=
    ⟨x.mantissa_lt, x.exponent_ge, x.exponent_le, x.normalized⟩
  simp only [ofFraction, rounded, dif_pos fits]

/-- `float` of a decimal with the value of a double is that double. -/
theorem ofDecimal_magnitude (x : Binary64) (d : Decimal) (sign : d.negative = x.negative)
    (h : (d.coefficient : ℚ) * (10 : ℚ) ^ d.exponent = x.magnitude) : ofDecimal d = some x := by
  unfold ofDecimal
  split
  next nonneg =>
    obtain ⟨k, hk⟩ := Int.eq_ofNat_of_zero_le nonneg
    rw [sign]
    apply ofFraction_magnitude x Nat.one_pos
    rw [← h, hk, Int.toNat_natCast, zpow_natCast]
    push_cast
    ring
  next neg =>
    obtain ⟨k, hk⟩ := Int.eq_ofNat_of_zero_le (show 0 ≤ -d.exponent by omega)
    have he : d.exponent = -(k : Int) := by omega
    rw [sign]
    apply ofFraction_magnitude x (by positivity)
    rw [← h, hk, he, Int.toNat_natCast, zpow_neg, zpow_natCast]
    push_cast
    field_simp

/-! ### The shortest spelling reads back -/

theorem exactDecimal_value (x : Binary64) :
    (x.exactDecimal.1 : ℚ) * (10 : ℚ) ^ x.exactDecimal.2 = x.magnitude := by
  unfold exactDecimal magnitude
  split
  next nonneg =>
    obtain ⟨k, hk⟩ := Int.eq_ofNat_of_zero_le nonneg
    rw [hk, Int.toNat_natCast, zpow_natCast]
    push_cast
    ring
  next neg =>
    obtain ⟨k, hk⟩ := Int.eq_ofNat_of_zero_le (show 0 ≤ -x.exponent by omega)
    have he : x.exponent = -(k : Int) := by omega
    rw [hk, he, Int.toNat_natCast, zpow_neg, zpow_neg, zpow_natCast, zpow_natCast]
    push_cast
    rw [show (10 : ℚ) = 5 * 2 by norm_num, mul_pow]
    field_simp

private theorem decimalAt_reads (x : Binary64) (p : Int) (c : Nat)
    (found : x.decimalAt p = some c) : ofDecimal ⟨x.negative, c, p⟩ = some x := by
  have choose : ∀ a b : Nat, (if ofDecimal ⟨x.negative, a, p⟩ = some x then some a
      else if ofDecimal ⟨x.negative, b, p⟩ = some x then some b else none) = some c →
      ofDecimal ⟨x.negative, c, p⟩ = some x := by
    intro a b h
    split at h
    next reads => exact Option.some.inj h ▸ reads
    · split at h
      next reads => exact Option.some.inj h ▸ reads
      · cases h
  exact choose _ _ found

private theorem searchDecimal_reads (x : Binary64) (fuel : Nat) (p : Int) :
    ofDecimal ⟨x.negative, (x.searchDecimal fuel p).1, (x.searchDecimal fuel p).2⟩ = some x := by
  induction fuel generalizing p with
  | zero => exact ofDecimal_magnitude x _ rfl (exactDecimal_value x)
  | succ fuel ih =>
    simp only [searchDecimal]
    cases found : x.decimalAt p with
    | none => exact ih (p - 1)
    | some c => exact decimalAt_reads x p c found

/-! ### Rounding depends on the value only -/

end Binary64

private theorem roundHalfEven_scale (k n d : Nat) (hk : 0 < k) :
    roundHalfEven (k * n) (k * d) = roundHalfEven n d := by
  have low : 2 * (k * (n % d)) < k * d ↔ 2 * (n % d) < d := by
    rw [Nat.mul_left_comm]
    exact Nat.mul_lt_mul_left hk
  have tie : 2 * (k * (n % d)) = k * d ↔ 2 * (n % d) = d := by
    rw [Nat.mul_left_comm]
    exact Nat.mul_right_inj hk.ne'
  simp only [roundHalfEven, Nat.mul_div_mul_left n d hk, Nat.mul_mod_mul_left, low, tie]

theorem roundHalfEven_congr {n d n' d' : Nat} (hd : 0 < d) (hd' : 0 < d')
    (h : (n : ℚ) / d = n' / d') : roundHalfEven n d = roundHalfEven n' d' := by
  have cross : d' * n = d * n' := by
    rw [div_eq_div_iff (by positivity) (by positivity)] at h
    have h' : n * d' = n' * d := by exact_mod_cast h
    rw [mul_comm d', h', mul_comm]
  rw [← roundHalfEven_scale d' n d hd', ← roundHalfEven_scale d n' d' hd, cross, mul_comm d' d]

private theorem pos_of_quotient_eq {n d n' d' : Nat} (hd : 0 < d) (hd' : 0 < d')
    (h : (n : ℚ) / d = n' / d') : n = 0 ↔ n' = 0 := by
  have dpos : (0 : ℚ) < d := by exact_mod_cast hd
  have dpos' : (0 : ℚ) < d' := by exact_mod_cast hd'
  have num : (n : ℚ) = 0 ↔ (n' : ℚ) = 0 := by
    rw [div_eq_div_iff dpos.ne' dpos'.ne'] at h
    constructor
    · intro zero
      rw [zero, zero_mul, eq_comm, mul_eq_zero] at h
      exact h.resolve_right dpos.ne'
    · intro zero
      rw [zero, zero_mul, mul_eq_zero] at h
      exact h.resolve_right dpos'.ne'
  exact_mod_cast num

/-- Fractions of one value round to one mantissa and exponent. -/
theorem roundFraction_congr {n d n' d' : Nat} (hd : 0 < d) (hd' : 0 < d')
    (h : (n : ℚ) / d = n' / d') : roundFraction n d = roundFraction n' d' := by
  have zeros := pos_of_quotient_eq hd hd' h
  by_cases zero : n = 0
  · simp [roundFraction, zero, zeros.mp zero]
  · have zero' : n' ≠ 0 := fun z => zero (zeros.mpr z)
    have logs : floorLog2 n d = floorLog2 n' d' :=
      bracket_unique (floorLog2_bounds (Nat.pos_of_ne_zero zero) hd)
        (h ▸ floorLog2_bounds (Nat.pos_of_ne_zero zero') hd')
    have rounds : ∀ e, roundHalfEven (scaleFraction n d e).1 (scaleFraction n d e).2 =
        roundHalfEven (scaleFraction n' d' e).1 (scaleFraction n' d' e).2 := by
      intro e
      apply roundHalfEven_congr (scaleFraction_den_pos n hd e) (scaleFraction_den_pos n' hd' e)
      rw [scaleFraction_eq n hd, scaleFraction_eq n' hd', h]
    simp only [roundFraction, if_neg zero, if_neg zero', logs, rounds]

namespace Binary64

/-- The fraction `float` of a decimal rounds. -/
private def decimalFraction (d : Decimal) : Nat × Nat :=
  if 0 ≤ d.exponent then (d.coefficient * 10 ^ d.exponent.toNat, 1)
  else (d.coefficient, 10 ^ (-d.exponent).toNat)

private theorem decimalFraction_pos (d : Decimal) : 0 < (decimalFraction d).2 := by
  unfold decimalFraction
  split
  · exact Nat.one_pos
  · exact Nat.pow_pos (by norm_num)

private theorem decimalFraction_value (d : Decimal) :
    ((decimalFraction d).1 : ℚ) / (decimalFraction d).2 =
      d.coefficient * (10 : ℚ) ^ d.exponent := by
  unfold decimalFraction
  split
  next nonneg =>
    obtain ⟨k, hk⟩ := Int.eq_ofNat_of_zero_le nonneg
    rw [hk, Int.toNat_natCast, zpow_natCast]
    push_cast
    ring
  next neg =>
    obtain ⟨k, hk⟩ := Int.eq_ofNat_of_zero_le (show 0 ≤ -d.exponent by omega)
    have he : d.exponent = -(k : Int) := by omega
    rw [hk, he, Int.toNat_natCast, zpow_neg, zpow_natCast]
    push_cast
    field_simp

private theorem ofDecimal_eq (d : Decimal) :
    ofDecimal d = ofFraction d.negative (decimalFraction d).1 (decimalFraction d).2 := by
  unfold ofDecimal decimalFraction
  split <;> rfl

/-- `float` of a decimal rounds a fraction with its value. -/
theorem ofDecimal_fraction (d : Decimal) :
    ∃ n m : Nat, 0 < m ∧ (n : ℚ) / m = d.coefficient * (10 : ℚ) ^ d.exponent ∧
      ofDecimal d = ofFraction d.negative n m :=
  ⟨_, _, decimalFraction_pos d, decimalFraction_value d, ofDecimal_eq d⟩

/-- `float` of a decimal depends on its sign and value only. -/
theorem ofDecimal_congr {a b : Decimal} (sign : a.negative = b.negative)
    (h : (a.coefficient : ℚ) * (10 : ℚ) ^ a.exponent = b.coefficient * (10 : ℚ) ^ b.exponent) :
    ofDecimal a = ofDecimal b := by
  rw [← decimalFraction_value, ← decimalFraction_value] at h
  have rounded := roundFraction_congr (decimalFraction_pos a) (decimalFraction_pos b) h
  rw [ofDecimal_eq, ofDecimal_eq, sign]
  simp only [ofFraction, rounded]

/-! ### The spelling of a number reads back as the number -/

end Binary64

theorem Decimal.dropZeros_value (n c : Nat) :
    (Decimal.dropZeros n c).1 * 10 ^ (Decimal.dropZeros n c).2 = c := by
  induction n generalizing c with
  | zero => simp [dropZeros]
  | succ n ih =>
    simp only [dropZeros]
    split
    · rw [pow_succ, ← mul_assoc, ih]
      omega
    · simp

theorem digitsValue_zero_cons (ds : List Digit) : digitsValue (0 :: ds) = digitsValue ds := by
  have append := digitsValue_append [0] ds
  rw [List.singleton_append] at append
  rw [append, show digitsValue [0] = 0 from rfl, zero_mul, zero_add]

namespace Binary64

private theorem shortest_reads (x : Binary64) :
    ofDecimal ⟨x.negative, x.shortest.1, x.shortest.2⟩ = some x := by
  unfold shortest
  split
  next zero =>
    apply ofDecimal_magnitude x _ rfl
    simp [magnitude, zero]
  next nonzero =>
    let binary := scaleFraction x.mantissa 1 (-x.exponent)
    let start := floorLog10 binary.1 binary.2
    let found := x.searchDecimal (start - min 0 x.exponent).toNat start
    have dropped := Decimal.dropZeros_value (digitCount found.1) found.1
    rw [← searchDecimal_reads x (start - min 0 x.exponent).toNat start]
    refine ofDecimal_congr (by rfl) ?_
    simp only
    rw [add_comm, zpow_add₀ (by norm_num), zpow_natCast, ← mul_assoc]
    congr 1
    exact_mod_cast dropped

private theorem ofDecimal_zero (negative : Bool) (e : Int) :
    (ofDecimal ⟨negative, 0, e⟩).map mantissa = some 0 := by
  simp [ofDecimal, ofFraction, roundFraction]

/-- Only zero is spelled with the single digit zero. -/
private theorem shortest_ne_zero (x : Binary64) (nonzero : x.mantissa ≠ 0) : x.shortest.1 ≠ 0 := by
  intro zero
  have reads := shortest_reads x
  rw [zero] at reads
  have mantissa := ofDecimal_zero x.negative x.shortest.2
  rw [reads] at mantissa
  exact nonzero (Option.some.inj mantissa)

private theorem spellDigits_negative (negative : Bool) (ds : List Digit) (point : Int) :
    (spellDigits negative ds point).negative = negative := by
  unfold spellDigits
  split
  · split
    · rfl
    · split <;> rfl
  · rfl

/-- The value of a spelling: the digits, with the last one at position `point - length`. -/
private theorem spellDigits_value (negative : Bool) (ds : List Digit) (point : Int)
    (ne : ds ≠ []) :
    ((spellDigits negative ds point).toDecimal.coefficient : ℚ) *
      (10 : ℚ) ^ (spellDigits negative ds point).toDecimal.exponent =
      digitsValue ds * (10 : ℚ) ^ (point - ds.length) := by
  have pos : 0 < ds.length := List.length_pos_iff.mpr ne
  unfold spellDigits
  -- zeros before the digits, a point inside them, or zeros behind them
  split
  · split
    next low =>
      have fraction : (List.replicate (-point).toNat (0 : Digit) ++ ds).length =
          (-point).toNat + ds.length := by simp
      simp only [Numeral.toDecimal, List.cons_append, List.nil_append, digitsValue_zero_cons,
        digitsValue_append, digitsValue_replicate_zero, zero_mul, zero_add, fraction,
        Option.map_none, Option.getD_none]
      congr 2
      push_cast
      omega
    · split
      next high inside =>
        simp only [Numeral.toDecimal, List.take_append_drop, List.length_drop, Option.map_none,
          Option.getD_none]
        congr 2
        omega
      next high outside =>
        have padding : digitsValue (ds ++ List.replicate (point.toNat - ds.length) 0 ++ [0]) =
            digitsValue ds * 10 ^ (point.toNat - ds.length) * 10 := by
          simp [digitsValue_append, show digitsValue [0] = 0 from rfl, pow_succ, mul_assoc]
        have exponent : point - ds.length = ((point.toNat - ds.length : Nat) : Int) := by omega
        simp only [Numeral.toDecimal, padding, List.length_singleton, Option.map_none,
          Option.getD_none, exponent, zpow_natCast]
        push_cast
        rw [zpow_neg_one, mul_assoc, mul_inv_cancel₀ (by norm_num), mul_one]
  -- exponent notation: one digit before the point
  · have whole : ds.take 1 ++ ds.drop 1 = ds := List.take_append_drop 1 ds
    have power : digitsValue (if (decimalDigits (point - 1).natAbs).length < 2
        then 0 :: decimalDigits (point - 1).natAbs else decimalDigits (point - 1).natAbs) =
        (point - 1).natAbs := by
      split <;> simp [digitsValue_zero_cons, digitsValue_decimalDigits]
    simp only [Numeral.toDecimal, whole, Option.map_some, Option.getD_some, Exponent.value, power,
      List.length_drop]
    congr 2
    rcases lt_or_ge (point - 1) 0 with neg | nonneg
    · simp only [neg, decide_true, if_true]
      omega
    · simp only [not_lt.mpr nonneg, decide_false, Option.some.injEq, Bool.false_eq_true, if_false]
      omega

/-- The decimal of a double is the shortest one that reads back, whatever zeros are spelled. -/
theorem toDecimal_shortest (x : Binary64) :
    (x.toDecimal.coefficient : ℚ) * (10 : ℚ) ^ x.toDecimal.exponent =
      x.shortest.1 * (10 : ℚ) ^ x.shortest.2 := by
  have value := spellDigits_value x.negative (decimalDigits x.shortest.1)
    (x.shortest.2 + (decimalDigits x.shortest.1).length) (decimalDigits_ne_nil _)
  rw [digitsValue_decimalDigits, add_sub_cancel_right] at value
  exact value

@[simp] theorem toDecimal_negative (x : Binary64) : x.toDecimal.negative = x.negative :=
  spellDigits_negative _ _ _

/-- `float(str(x)) == x`, with the same sign of zero. -/
theorem ofDecimal_toDecimal (x : Binary64) : ofDecimal x.toDecimal = some x := by
  rw [← shortest_reads x]
  exact ofDecimal_congr x.toDecimal_negative x.toDecimal_shortest

private theorem spellDigits_wellFormed (negative : Bool) (ds : List Digit) (point : Int)
    (ne : ds ≠ []) (lead : ds.head? = some 0 → ds = [0] ∧ point = 1) :
    (spellDigits negative ds point).WellFormed := by
  cases ds with
  | nil => exact absurd rfl ne
  | cons d rest =>
    unfold spellDigits
    split
    · split
      · exact ⟨by simp, fun _ => rfl, by simp⟩
      · split
        next high inside =>
          refine ⟨?_, ?_, by simp⟩
          · have pos : 0 < point.toNat := by omega
            simp [List.take_eq_nil_iff, pos.ne']
          · intro zero
            have pos : point.toNat ≠ 0 := by omega
            rw [List.head?_take, if_neg pos] at zero
            obtain ⟨single, one⟩ := lead zero
            rw [single, one] at inside
            exact absurd inside (by decide)
        next high outside =>
          refine ⟨by simp, ?_, by simp⟩
          intro zero
          obtain ⟨single, one⟩ := lead (by simpa using zero)
          rw [single, one]
          rfl
    · refine ⟨by simp, ?_, ?_⟩
      · intro zero
        obtain ⟨single, _⟩ := lead (by simpa using zero)
        rw [single]
        rfl
      · intro e he
        cases he
        simp only
        split
        · simp
        · exact decimalDigits_ne_nil _

/-- The spelling of a float is a numeral of the grammar. -/
theorem spelling_wellFormed (x : Binary64) : x.spelling.WellFormed := by
  apply spellDigits_wellFormed _ _ _ (decimalDigits_ne_nil _)
  intro zero
  have single := decimalDigits_no_leading_zero _ zero
  have coefficient : x.shortest.1 = 0 := by
    rw [← digitsValue_decimalDigits x.shortest.1, single]
    rfl
  have mantissa : x.mantissa = 0 := by
    by_contra nonzero
    exact shortest_ne_zero x nonzero coefficient
  refine ⟨single, ?_⟩
  rw [single]
  simp [shortest, mantissa]

private theorem spellDigits_fraction_or_exponent (negative : Bool) (ds : List Digit)
    (point : Int) (ne : ds ≠ []) :
    (spellDigits negative ds point).fraction ≠ [] ∨
      (spellDigits negative ds point).exponent ≠ none := by
  unfold spellDigits
  split
  · left
    split
    · simp [ne]
    · split
      · simp
        omega
      · simp
  · right
    simp

/-- A float is never spelled like an integer: there is a fraction or an exponent. -/
theorem spelling_fraction_or_exponent (x : Binary64) :
    x.spelling.fraction ≠ [] ∨ x.spelling.exponent ≠ none := by
  exact spellDigits_fraction_or_exponent _ _ _ (decimalDigits_ne_nil x.shortest.1)

end Binary64

end Python
