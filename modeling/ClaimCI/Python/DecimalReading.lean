import ClaimCI.Python.DecimalLimits

/-!
# Reading decimals from text

The constructor of the decimal type takes more texts than the number grammar: surrounding blanks,
underscores, the digits of every script, a plus sign, and a point without digits on one side.
-/

namespace Python

/-- The text in ASCII, without underscores; `none` where a character is no digit of any script. -/
def asciiNumber (digit : CodePoint → Option Digit) : Str → Option Str
  | [] => some []
  | c :: rest =>
    -- underscores may stand anywhere
    if c.val = 0x5F then asciiNumber digit rest
    else if 0 < c.val ∧ c.val ≤ 0x7F then (asciiNumber digit rest).map (c :: ·)
    else
      match digit c with
      | none => none
      | some d => (asciiNumber digit rest).map (digitChar d :: ·)

/-- A point and the digits behind it, of which there may be none. -/
def scanPoint : Str → List Digit × Str
  | [] => ([], [])
  | c :: rest => if c = DOT then spanDigits rest else ([], c :: rest)

/-- The whole text is a number, with at least one digit before its exponent. -/
def decimalNumeral (s : Str) : Option Numeral :=
  let whole := spanDigits (scanSign s).2
  let fraction := scanPoint whole.2
  let exponent := scanExponent fraction.2
  if whole.1 ++ fraction.1 = [] ∨ exponent.2 ≠ [] then none
  else some ⟨(scanSign s).1 = some true, whole.1, fraction.1, exponent.1⟩

/-- `Decimal(text)`, where it is a finite number. -/
def decimalOfText (digit : CodePoint → Option Digit) (text : Str) : Option Decimal :=
  ((asciiNumber digit (strip text)).bind decimalNumeral).bind Numeral.readDecimal

/-! ### Numerals are read as before -/

private theorem scanSign_of_scanMinus {s : Str} {whole : List Digit × Str}
    (scanned : scanWhole (scanMinus s).2 = some whole) :
    (scanSign s).2 = (scanMinus s).2 ∧ decide ((scanSign s).1 = some true) = (scanMinus s).1 := by
  cases s with
  | nil => exact ⟨rfl, rfl⟩
  | cons c rest =>
    by_cases minus : c = MINUS
    · simp [scanSign, scanMinus, minus]
    · by_cases plus : c = PLUS
      · subst plus
        have none : scanWhole (scanMinus (PLUS :: rest)).2 = none := rfl
        rw [none] at scanned
        cases scanned
      · simp [scanSign, scanMinus, minus, plus]

/-- What an exponent takes to the end starts with no digit and no point. -/
private theorem scanExponent_all {s : Str} (all : (scanExponent s).2 = []) :
    NoDigit s ∧ s.head? ≠ some DOT := by
  cases s with
  | nil => simp [NoDigit]
  | cons c rest =>
    by_cases mark : c = UPPER_E ∨ c = LOWER_E
    · constructor
      · intro other member
        cases member
        rcases mark with rfl | rfl <;> decide
      · rcases mark with rfl | rfl <;> simp <;> decide
    · rw [scanExponent, if_neg mark] at all
      cases all

private theorem spanDigits_of_noDigit {s : Str} (stop : NoDigit s) : spanDigits s = ([], s) := by
  cases s with
  | nil => rfl
  | cons c rest =>
    have other := stop c rfl
    simp [spanDigits, other]

private theorem scanPoint_all {s : Str} (all : (scanExponent (scanFraction s).2).2 = []) :
    NoDigit s ∧ scanPoint s = scanFraction s := by
  cases s with
  | nil => simp [NoDigit, scanPoint, scanFraction]
  | cons c rest =>
    by_cases point : c = DOT
    · subst point
      simp only [scanPoint, scanFraction, if_true] at all ⊢
      constructor
      · intro other member
        cases member
        decide
      · cases digits : spanDigits rest with
        | mk ds after =>
          rw [digits] at all
          cases ds with
          | nil => exact absurd rfl (scanExponent_all all).2
          | cons d ds => rfl
    · simp only [scanPoint, scanFraction, if_neg point] at all ⊢
      exact ⟨(scanExponent_all all).1, trivial⟩

private theorem spanDigits_of_scanWhole {s after : Str} {whole : List Digit}
    (scanned : scanWhole s = some (whole, after)) (stop : NoDigit after) :
    spanDigits s = (whole, after) ∧ whole ≠ [] := by
  unfold scanWhole at scanned
  split at scanned
  · cases scanned
  next d ds rest spanned =>
    split at scanned
    next zero =>
      -- after a leading zero nothing is taken, and nothing may follow
      obtain ⟨rfl, rfl⟩ := Prod.mk.inj (Option.some.inj scanned)
      cases s with
      | nil => cases spanned
      | cons c tail =>
        rw [spanDigits] at spanned
        split at spanned
        · cases spanned
        next digit found =>
          rw [List.tail_cons] at stop ⊢
          rw [spanDigits, found, spanDigits_of_noDigit stop]
          have same := (List.cons.inj (Prod.mk.inj spanned).1).1
          simp [same, zero]
    next other =>
      obtain ⟨rfl, rfl⟩ := Prod.mk.inj (Option.some.inj scanned)
      exact ⟨spanned, List.cons_ne_nil _ _⟩

/-- A numeral is read as the number it spells. -/
theorem decimalNumeral_of_parseNumeral {s : Str} {n : Numeral} (parsed : parseNumeral s = some n) :
    decimalNumeral s = some n := by
  unfold parseNumeral scanNumeral at parsed
  cases scanned : scanWhole (scanMinus s).2 with
  | none =>
    rw [scanned] at parsed
    cases parsed
  | some found =>
    obtain ⟨whole, after⟩ := found
    rw [scanned] at parsed
    dsimp only at parsed
    split at parsed
    next numeral complete =>
      obtain rfl := Option.some.inj parsed
      obtain ⟨spelled, all⟩ := Prod.mk.inj (Option.some.inj complete)
      obtain ⟨stop, point⟩ := scanPoint_all all
      obtain ⟨sign, negative⟩ := scanSign_of_scanMinus scanned
      obtain ⟨digits, filled⟩ := spanDigits_of_scanWhole scanned stop
      have taken : whole ++ (scanFraction after).1 ≠ [] := by simp [filled]
      simp only [decimalNumeral, sign, digits, point, all, negative, taken]
      simpa using spelled
    · cases parsed

/-! ### The text of a decimal -/

/-- The characters numerals are written in. -/
def isNumeralCharacter (c : CodePoint) : Bool :=
  (0x30 ≤ c.val && c.val ≤ 0x39) || [MINUS, PLUS, DOT, UPPER_E, LOWER_E].contains c

private theorem digitChar_numeral (d : Digit) : isNumeralCharacter (digitChar d) = true := by
  revert d
  decide

private theorem renderDigits_numeral (ds : List Digit) :
    (renderDigits ds).all isNumeralCharacter = true := by
  simp [renderDigits, digitChar_numeral]

theorem render_numeral (n : Numeral) : n.render.all isNumeralCharacter = true := by
  obtain ⟨negative, whole, fraction, exponent⟩ := n
  have sign : (signText negative).all isNumeralCharacter = true := by cases negative <;> decide
  have point : (fractionText fraction).all isNumeralCharacter = true := by
    unfold fractionText
    split
    · rfl
    · rw [List.all_cons, renderDigits_numeral]
      decide
  have power : (exponentText exponent).all isNumeralCharacter = true := by
    cases exponent with
    | none => rfl
    | some e =>
      obtain ⟨upper, signed, digits⟩ := e
      rw [exponentText, List.all_cons, List.all_append, renderDigits_numeral]
      cases upper <;> rcases signed with _ | _ | _ <;> rfl
  simp only [Numeral.render, List.all_append, sign, point, power, renderDigits_numeral,
    Bool.and_self]

theorem numeralCharacter_plain {c : CodePoint} (numeral : isNumeralCharacter c = true) :
    isSpace c = false ∧ c.val ≠ 0x5F ∧ 0 < c.val ∧ c.val ≤ 0x7F := by
  simp only [isNumeralCharacter, Bool.or_eq_true, Bool.and_eq_true, decide_eq_true_eq,
    List.contains_iff_mem, List.mem_cons, List.not_mem_nil, or_false] at numeral
  rcases numeral with ⟨low, high⟩ | rfl | rfl | rfl | rfl | rfl
  · refine ⟨?_, ?_, by omega, by omega⟩
    · unfold isSpace
      grind
    · omega
  all_goals decide

theorem strip_of_noSpace {s : Str} (plain : ∀ c ∈ s, isSpace c = false) : strip s = s := by
  have front : s.dropWhile isSpace = s := by
    cases s with
    | nil => rfl
    | cons c rest => rw [List.dropWhile_cons_of_neg (by rw [plain c List.mem_cons_self]; decide)]
  rw [strip, front, List.rdropWhile_eq_self_iff]
  intro filled blank
  rw [plain _ (List.getLast_mem filled)] at blank
  cases blank

theorem asciiNumber_self (digit : CodePoint → Option Digit) {s : Str}
    (numeral : s.all isNumeralCharacter = true) : asciiNumber digit s = some s := by
  induction s with
  | nil => rfl
  | cons c rest ih =>
    rw [List.all_cons, Bool.and_eq_true] at numeral
    obtain ⟨-, named, low, high⟩ := numeralCharacter_plain numeral.1
    rw [asciiNumber, if_neg named, if_pos ⟨low, high⟩, ih numeral.2, Option.map_some]

/-- The text of a decimal is read as the decimal. -/
theorem decimalOfText_spelling (digit : CodePoint → Option Digit) {d : Decimal}
    (limits : d.Representable) : decimalOfText digit d.spelling.render = some d := by
  have numeral := render_numeral d.spelling
  have plain : ∀ c ∈ d.spelling.render, isSpace c = false := fun c member =>
    (numeralCharacter_plain (List.all_eq_true.mp numeral c member)).1
  rw [decimalOfText, strip_of_noSpace plain, asciiNumber_self digit numeral, Option.bind_some,
    decimalNumeral_of_parseNumeral (parseNumeral_render _ d.spelling_wellFormed), Option.bind_some,
    Numeral.readDecimal, Decimal.spelling_toDecimal, if_pos limits]

end Python
