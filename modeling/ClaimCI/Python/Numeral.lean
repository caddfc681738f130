import ClaimCI.Python.Text

/-!
# Numerals

The decimal number grammar that JSON, the decimal type and the shortest float spelling share:
`-?(0|[1-9][0-9]*)(\.[0-9]+)?([eE][+-]?[0-9]+)?`. Scanning takes the longest match, and undoes
rendering.
-/

namespace Python

abbrev Digit := Fin 10

instance digitRange : NeZero 10 := ⟨by decide⟩

/-- The value of a digit sequence, most significant digit first. -/
def digitsValue (ds : List Digit) : Nat := Nat.ofDigits 10 (ds.reverse.map Fin.val)

/-- The decimal digits of `n`, most significant first; zero has one digit. -/
def decimalDigits (n : Nat) : List Digit :=
  if n = 0 then [0] else ((Nat.digits 10 n).map (Fin.ofNat 10)).reverse

def digitChar (d : Digit) : CodePoint := codePoint (0x30 + d.val)

/-- The digit a character stands for; only ASCII digits count. -/
def charDigit (c : CodePoint) : Option Digit :=
  if 0x30 ≤ c.val ∧ c.val ≤ 0x39 then some (Fin.ofNat 10 (c.val - 0x30)) else none

def renderDigits (ds : List Digit) : Str := ds.map digitChar

/-- The longest run of ASCII digits and what follows it. -/
def spanDigits : Str → List Digit × Str
  | [] => ([], [])
  | c :: rest =>
    match charDigit c with
    | none => ([], c :: rest)
    | some d => (d :: (spanDigits rest).1, (spanDigits rest).2)

/-- An exponent part, with its letter and sign as written. -/
structure Exponent where
  upper : Bool
  negative : Option Bool
  digits : List Digit
  deriving DecidableEq, Repr

structure Numeral where
  negative : Bool
  whole : List Digit
  /-- Empty when there is no decimal point. -/
  fraction : List Digit
  exponent : Option Exponent
  deriving DecidableEq, Repr

/-- The numeral follows the grammar: at least one whole digit, no leading zero, and digits after
an exponent mark. -/
structure Numeral.WellFormed (n : Numeral) : Prop where
  whole_ne_nil : n.whole ≠ []
  no_leading_zero : n.whole.head? = some 0 → n.whole = [0]
  exponent_digits : ∀ e ∈ n.exponent, e.digits ≠ []

def MINUS : CodePoint := 0x2D
def PLUS : CodePoint := 0x2B
def DOT : CodePoint := 0x2E
def UPPER_E : CodePoint := 0x45
def LOWER_E : CodePoint := 0x65

def signText (negative : Bool) : Str := if negative then [MINUS] else []

def fractionText (ds : List Digit) : Str := if ds = [] then [] else DOT :: renderDigits ds

/-- The sign of an exponent as written: absent, minus or plus. -/
def exponentSignText : Option Bool → Str
  | none => []
  | some true => [MINUS]
  | some false => [PLUS]

def exponentText : Option Exponent → Str
  | none => []
  | some e =>
    (if e.upper then UPPER_E else LOWER_E) :: (exponentSignText e.negative ++ renderDigits e.digits)

def Numeral.render (n : Numeral) : Str :=
  signText n.negative ++
    (renderDigits n.whole ++ (fractionText n.fraction ++ exponentText n.exponent))

/-- `(0|[1-9][0-9]*)`: after a leading zero no further digit is taken. -/
def scanWhole (s : Str) : Option (List Digit × Str) :=
  match spanDigits s with
  | ([], _) => none
  | (d :: ds, rest) => if d = 0 then some ([0], s.tail) else some (d :: ds, rest)

/-- `(\.[0-9]+)?`. -/
def scanFraction (s : Str) : List Digit × Str :=
  match s with
  | [] => ([], [])
  | c :: rest =>
    if c = DOT then
      match spanDigits rest with
      | ([], _) => ([], s)
      | (d :: ds, after) => (d :: ds, after)
    else ([], s)

/-- The optional sign of an exponent. -/
def scanSign (s : Str) : Option Bool × Str :=
  match s with
  | [] => (none, [])
  | c :: rest =>
    if c = MINUS then (some true, rest) else if c = PLUS then (some false, rest) else (none, s)

/-- `([eE][+-]?[0-9]+)?`. -/
def scanExponent (s : Str) : Option Exponent × Str :=
  match s with
  | [] => (none, [])
  | c :: rest =>
    if c = UPPER_E ∨ c = LOWER_E then
      match spanDigits (scanSign rest).2 with
      | ([], _) => (none, s)
      | (d :: ds, after) => (some ⟨c = UPPER_E, (scanSign rest).1, d :: ds⟩, after)
    else (none, s)

/-- `-?`. -/
def scanMinus (s : Str) : Bool × Str :=
  match s with
  | [] => (false, [])
  | c :: rest => if c = MINUS then (true, rest) else (false, c :: rest)

/-- The longest numeral at the front of a string and what follows it. -/
def scanNumeral (s : Str) : Option (Numeral × Str) :=
  match scanWhole (scanMinus s).2 with
  | none => none
  | some (whole, afterWhole) =>
    let fraction := scanFraction afterWhole
    let exponent := scanExponent fraction.2
    some (⟨(scanMinus s).1, whole, fraction.1, exponent.1⟩, exponent.2)

/-- The whole string is one numeral: `fullmatch` of the number pattern. -/
def parseNumeral (s : Str) : Option Numeral :=
  match scanNumeral s with
  | some (n, []) => some n
  | _ => none

/-! ### Digits -/

theorem digitsValue_decimalDigits (n : Nat) : digitsValue (decimalDigits n) = n := by
  unfold decimalDigits digitsValue
  split
  next zero => subst zero; rfl
  · have small : ((Nat.digits 10 n).map (Fin.ofNat 10)).map Fin.val = Nat.digits 10 n := by
      rw [List.map_map]
      conv_rhs => rw [← List.map_id (Nat.digits 10 n)]
      apply List.map_congr_left
      intro d hd
      simpa using Nat.mod_eq_of_lt (Nat.digits_lt_base (by norm_num) hd)
    rw [List.reverse_reverse, small, Nat.ofDigits_digits]

theorem decimalDigits_ne_nil (n : Nat) : decimalDigits n ≠ [] := by
  unfold decimalDigits
  split
  · simp
  · simpa using Nat.digits_ne_nil_iff_ne_zero.mpr ‹_›

/-- Only zero is written with a leading zero digit. -/
theorem decimalDigits_no_leading_zero (n : Nat) (h : (decimalDigits n).head? = some 0) :
    decimalDigits n = [0] := by
  unfold decimalDigits at h ⊢
  split
  · rfl
  next nonzero =>
    exfalso
    rw [if_neg nonzero, List.head?_reverse, List.getLast?_map] at h
    have ne : Nat.digits 10 n ≠ [] := Nat.digits_ne_nil_iff_ne_zero.mpr nonzero
    rw [List.getLast?_eq_some_getLast ne] at h
    have small := Nat.digits_lt_base (b := 10) (by norm_num) (List.getLast_mem ne)
    have zero := congrArg Fin.val (Option.some.inj h)
    simp only [Fin.ofNat, Fin.val_zero, Nat.mod_eq_of_lt small] at zero
    exact Nat.getLast_digit_ne_zero 10 nonzero zero

@[simp] theorem charDigit_digitChar (d : Digit) : charDigit (digitChar d) = some d := by
  revert d; decide

theorem digitChar_ne_minus (d : Digit) : digitChar d ≠ MINUS := by revert d; decide

@[simp] theorem digitsValue_nil : digitsValue [] = 0 := rfl

theorem digitsValue_append (xs ys : List Digit) :
    digitsValue (xs ++ ys) = digitsValue xs * 10 ^ ys.length + digitsValue ys := by
  simp only [digitsValue, List.reverse_append, List.map_append, Nat.ofDigits_append,
    List.length_map, List.length_reverse]
  ring

@[simp] theorem digitsValue_replicate_zero (n : Nat) :
    digitsValue (List.replicate n (0 : Digit)) = 0 := by
  simp [digitsValue, Nat.ofDigits_replicate_zero]

/-- A string at whose front no digit continues a number. -/
def NoDigit (rest : Str) : Prop := ∀ c ∈ rest.head?, charDigit c = none

theorem spanDigits_render (ds : List Digit) (rest : Str) (stop : NoDigit rest) :
    spanDigits (renderDigits ds ++ rest) = (ds, rest) := by
  induction ds with
  | nil =>
    cases rest with
    | nil => rfl
    | cons c rest => simp [renderDigits, spanDigits, stop c rfl]
  | cons d ds ih =>
    have ih' : spanDigits (List.map digitChar ds ++ rest) = (ds, rest) := ih
    simp [renderDigits, spanDigits, ih']

/-! ### Scanning undoes rendering -/

/-- A string at whose front nothing continues a number. -/
def NumeralStop (rest : Str) : Prop :=
  ∀ c ∈ rest.head?, charDigit c = none ∧ c ≠ DOT ∧ c ≠ UPPER_E ∧ c ≠ LOWER_E

theorem numeralStop_nil : NumeralStop [] := by simp [NumeralStop]

private theorem scanWhole_render (whole : List Digit) (rest : Str) (ne : whole ≠ [])
    (lead : whole.head? = some 0 → whole = [0]) (stop : NoDigit rest) :
    scanWhole (renderDigits whole ++ rest) = some (whole, rest) := by
  unfold scanWhole
  rw [spanDigits_render whole rest stop]
  cases whole with
  | nil => exact absurd rfl ne
  | cons d ds =>
    simp only
    split
    next zero =>
      subst zero
      have single : (0 : Digit) :: ds = [0] := lead rfl
      simp only [List.cons.injEq, true_and] at single
      subst single
      rfl
    · rfl

private theorem noDigit_exponentText (e : Option Exponent) (rest : Str)
    (stop : NumeralStop rest) : NoDigit (exponentText e ++ rest) := by
  cases e with
  | none => exact fun c hc => (stop c hc).1
  | some e =>
    intro c hc
    obtain ⟨upper, negative, digits⟩ := e
    cases upper <;> simp [exponentText] at hc <;> subst hc <;> decide

private theorem noDigit_fractionText (ds : List Digit) (rest : Str) (stop : NoDigit rest) :
    NoDigit (fractionText ds ++ rest) := by
  cases ds with
  | nil => simpa [fractionText] using stop
  | cons d ds =>
    intro c hc
    simp [fractionText] at hc
    subst hc
    decide

private theorem scanFraction_render (ds : List Digit) (rest : Str)
    (stop : NoDigit rest) (noDot : rest.head? ≠ some DOT) :
    scanFraction (fractionText ds ++ rest) = (ds, rest) := by
  cases ds with
  | nil =>
    cases rest with
    | nil => rfl
    | cons c rest =>
      have other : c ≠ DOT := by simpa using noDot
      simp [scanFraction, fractionText, other]
  | cons d ds =>
    have scanned := spanDigits_render (d :: ds) rest stop
    simp only [fractionText, reduceCtorEq, if_false, List.cons_append, scanFraction, if_true,
      scanned]

private theorem scanSign_render (negative : Option Bool) (d : Digit) (rest : Str) :
    scanSign (exponentSignText negative ++ (digitChar d :: rest)) =
      (negative, digitChar d :: rest) := by
  have notPlus : digitChar d ≠ PLUS := by revert d; decide
  match negative with
  | none => simp [scanSign, exponentSignText, digitChar_ne_minus, notPlus]
  | some true => rfl
  | some false => rfl

private theorem scanExponent_render (e : Option Exponent) (rest : Str) (stop : NumeralStop rest)
    (digits : ∀ x ∈ e, x.digits ≠ []) : scanExponent (exponentText e ++ rest) = (e, rest) := by
  cases e with
  | none =>
    cases rest with
    | nil => rfl
    | cons c rest =>
      have other := stop c rfl
      simp [scanExponent, exponentText, other.2.2.1, other.2.2.2]
  | some e =>
    obtain ⟨upper, negative, ds⟩ := e
    cases ds with
    | nil => exact absurd rfl (digits _ rfl)
    | cons d ds =>
      have scanned : spanDigits (digitChar d :: (renderDigits ds ++ rest)) = (d :: ds, rest) :=
        spanDigits_render (d :: ds) rest fun c hc => (stop c hc).1
      have sign := scanSign_render negative d (renderDigits ds ++ rest)
      have rendered : renderDigits (d :: ds) = digitChar d :: renderDigits ds := rfl
      simp only [exponentText, rendered, List.cons_append, List.append_assoc, scanExponent, sign,
        scanned]
      cases upper <;> simp [UPPER_E, LOWER_E]

private theorem scanMinus_render (negative : Bool) (d : Digit) (rest : Str) :
    scanMinus (signText negative ++ (digitChar d :: rest)) = (negative, digitChar d :: rest) := by
  cases negative with
  | true => rfl
  | false => simp [scanMinus, signText, digitChar_ne_minus]

/-- Scanning a rendered numeral gives the numeral back and leaves what follows it. -/
theorem scanNumeral_render (n : Numeral) (wf : n.WellFormed) (rest : Str)
    (stop : NumeralStop rest) : scanNumeral (n.render ++ rest) = some (n, rest) := by
  obtain ⟨negative, whole, fraction, exponent⟩ := n
  have afterFraction := noDigit_exponentText exponent rest stop
  have noDot : (exponentText exponent ++ rest).head? ≠ some DOT := by
    cases exponent with
    | none => exact fun h => (stop DOT h).2.1 rfl
    | some e =>
      obtain ⟨upper, _, _⟩ := e
      cases upper <;> simp [exponentText] <;> decide
  have wholeScan := scanWhole_render whole _ wf.whole_ne_nil wf.no_leading_zero
    (noDigit_fractionText fraction _ afterFraction)
  have fractionScan := scanFraction_render fraction _ afterFraction noDot
  have exponentScan := scanExponent_render exponent rest stop wf.exponent_digits
  have minusScan : scanMinus (signText negative ++ (renderDigits whole ++
      (fractionText fraction ++ (exponentText exponent ++ rest)))) =
      (negative,
        renderDigits whole ++ (fractionText fraction ++ (exponentText exponent ++ rest))) := by
    cases whole with
    | nil => exact absurd rfl wf.whole_ne_nil
    | cons d ds => exact scanMinus_render negative d _
  simp only [Numeral.render, List.append_assoc, scanNumeral, minusScan, wholeScan, fractionScan,
    exponentScan]

theorem parseNumeral_render (n : Numeral) (wf : n.WellFormed) : parseNumeral n.render = some n := by
  have scanned := scanNumeral_render n wf [] numeralStop_nil
  rw [List.append_nil] at scanned
  simp only [parseNumeral, scanned]

end Python
