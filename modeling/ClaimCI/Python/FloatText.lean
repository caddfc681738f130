import ClaimCI.Python.DecimalReading

/-!
# Reading floats from text

The constructor of the float type takes the texts of the decimal type, but an underscore has to
stand between two digits, and no exponent is too large to be rounded.
-/

namespace Python

section Digits

variable (digit : CodePoint → Option Digit)

/-- A decimal digit of any script. -/
def isAnyDigit (c : CodePoint) : Bool :=
  (charDigit c).isSome || (0x7F < c.val && (digit c).isSome)

/-- Every underscore stands between two digits; the flag is for the character before the text. -/
def underscoresFit (afterDigit : Bool) : Str → Bool
  | [] => true
  | c :: rest =>
    if c.val = 0x5F then afterDigit && rest.head?.any (isAnyDigit digit) && underscoresFit false rest
    else underscoresFit (isAnyDigit digit c) rest

/-- `float(text)`, where it is a finite number. -/
def floatOfText (text : Str) : Option Binary64 :=
  if underscoresFit digit false (strip text) then
    ((asciiNumber digit (strip text)).bind decimalNumeral).bind fun numeral =>
      Binary64.ofDecimal numeral.toDecimal
  else none

end Digits

theorem underscoresFit_of_none (digit : CodePoint → Option Digit) {s : Str}
    (none : ∀ c ∈ s, c.val ≠ 0x5F) (afterDigit : Bool) : underscoresFit digit afterDigit s = true := by
  induction s generalizing afterDigit with
  | nil => rfl
  | cons c rest ih =>
    rw [underscoresFit, if_neg (none c List.mem_cons_self)]
    exact ih (fun d member => none d (List.mem_cons_of_mem _ member)) _

/-- The spelling of a float is read as the float. -/
theorem floatOfText_spelling (digit : CodePoint → Option Digit) (x : Binary64) :
    floatOfText digit x.spelling.render = some x := by
  have numeral := render_numeral x.spelling
  have plain : ∀ c ∈ x.spelling.render, isSpace c = false ∧ c.val ≠ 0x5F := fun c member =>
    have known := numeralCharacter_plain (List.all_eq_true.mp numeral c member)
    ⟨known.1, known.2.1⟩
  have stripped := strip_of_noSpace fun c member => (plain c member).1
  rw [floatOfText, stripped, if_pos (underscoresFit_of_none digit (fun c member => (plain c member).2) _),
    asciiNumber_self digit numeral, Option.bind_some,
    decimalNumeral_of_parseNumeral (parseNumeral_render _ x.spelling_wellFormed), Option.bind_some]
  exact Binary64.ofDecimal_toDecimal x

end Python
