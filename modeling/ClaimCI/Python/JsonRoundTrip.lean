import ClaimCI.Python.Json

/-!
# Decoding undoes encoding

`loads` applied to the output of `dumps` gives the encoded value back, up to the two things the
text cannot carry: adjacent surrogate escapes are joined, and repeated keys are handled by the
object hook.
-/

namespace Python

/-! ### Strings -/

/-- Every high surrogate directly before a low one becomes the character the pair encodes. -/
def joinSurrogates : Str → Str
  | [] => []
  | [c] => [c]
  | a :: b :: rest =>
    if isHighSurrogate a.val ∧ isLowSurrogate b.val then
      joinSurrogatePair a.val b.val :: joinSurrogates rest
    else a :: joinSurrogates (b :: rest)

/-- A string after encoding and decoding. -/
def rereadStr (ensureAscii : Bool) (s : Str) : Str := if ensureAscii then joinSurrogates s else s

private theorem codePoint_val (c : CodePoint) : codePoint c.val = c :=
  Fin.ext (Nat.mod_eq_of_lt c.isLt)

private theorem hexDigit_hexChar : ∀ d : Fin 16, hexDigit (hexChar d.val) = some d.val := by
  decide

private theorem hexDigit_hexChar_mod (n : Nat) :
    hexDigit (hexChar (n % 16)) = some (n % 16) :=
  hexDigit_hexChar ⟨n % 16, Nat.mod_lt _ (by norm_num)⟩

theorem scanHex_hexText (n : Nat) (h : n < 0x10000) (rest : Str) :
    scanHex (hexText n ++ rest) = some (n, rest) := by
  simp only [hexText, List.cons_append, List.nil_append, scanHex, hexDigit_hexChar_mod,
    Option.some.injEq, Prod.mk.injEq, and_true]
  omega

private theorem scanLowSurrogate_escape (n : Nat) (h : n < 0x10000) (rest : Str) :
    scanLowSurrogate (unicodeEscape n ++ rest) =
      if isLowSurrogate n then some (n, rest) else none := by
  simp [unicodeEscape, scanLowSurrogate, scanHex_hexText n h]

private theorem scanLowSurrogate_of_head (c : CodePoint) (rest : Str) (h : c ≠ BACKSLASH) :
    scanLowSurrogate (c :: rest) = none := by
  cases rest with
  | nil => rfl
  | cons d rest => simp [scanLowSurrogate, h]

private theorem scanLowSurrogate_short (e : CodePoint) (rest : Str) (h : e ≠ LOWER_U) :
    scanLowSurrogate (BACKSLASH :: e :: rest) = none := by
  simp [scanLowSurrogate, h]

/-- A `\u` escape that is not the high half of a pair yields its code point. -/
private theorem scanEscape_unicode (n : Nat) (h : n < 0x10000) (rest : Str)
    (alone : isHighSurrogate n = true → scanLowSurrogate rest = none) :
    scanEscape (LOWER_U :: (hexText n ++ rest)) = some (codePoint n, rest) := by
  simp only [scanEscape, if_true, scanHex_hexText n h]
  split
  next high => rw [alone high]
  · rfl

private theorem scanEscape_pair (high low : Nat) (h : isHighSurrogate high = true)
    (l : isLowSurrogate low = true) (rest : Str) :
    scanEscape (LOWER_U :: (hexText high ++ (unicodeEscape low ++ rest))) =
      some (joinSurrogatePair high low, rest) := by
  have high_lt : high < 0x10000 := by
    simp only [isHighSurrogate, Bool.and_eq_true, decide_eq_true_eq] at h
    omega
  have low_lt : low < 0x10000 := by
    simp only [isLowSurrogate, Bool.and_eq_true, decide_eq_true_eq] at l
    omega
  simp only [scanEscape, if_true, scanHex_hexText high high_lt, h,
    scanLowSurrogate_escape low low_lt, l]

private theorem scanChars_escape (fuel : Nat) (rest : Str) :
    scanChars (fuel + 1) (BACKSLASH :: rest) = (scanEscape rest).bind fun e =>
      (scanChars fuel e.2).map fun r => (e.1 :: r.1, r.2) := by
  have special : BACKSLASH ≠ QUOTE := by decide
  simp only [scanChars, if_neg special, if_true]
  cases scanEscape rest <;> rfl

private theorem scanChars_unicode (fuel n : Nat) (h : n < 0x10000) (rest : Str)
    (alone : isHighSurrogate n = true → scanLowSurrogate rest = none) :
    scanChars (fuel + 1) (unicodeEscape n ++ rest) =
      (scanChars fuel rest).map fun r => (codePoint n :: r.1, r.2) := by
  simp only [unicodeEscape, List.cons_append, scanChars_escape, scanEscape_unicode n h rest alone,
    Option.bind_some]

private theorem scanChars_short (fuel : Nat) (e c : CodePoint) (rest : Str)
    (he : e ≠ LOWER_U) (h : shortEscapes.lookup e = some c) :
    scanChars (fuel + 1) ([BACKSLASH, e] ++ rest) =
      (scanChars fuel rest).map fun r => (c :: r.1, r.2) := by
  simp only [List.cons_append, List.nil_append, scanChars_escape, scanEscape, if_neg he, h,
    Option.map_some, Option.bind_some]

/-- The pair an astral character is escaped as joins back to the character. -/
private theorem joinSurrogatePair_split (n : Nat) (low : 0x10000 ≤ n) (high : n < 0x110000) :
    isHighSurrogate (0xD800 + (n - 0x10000) / 0x400) = true ∧
      isLowSurrogate (0xDC00 + (n - 0x10000) % 0x400) = true ∧
      joinSurrogatePair (0xD800 + (n - 0x10000) / 0x400) (0xDC00 + (n - 0x10000) % 0x400) =
        codePoint n := by
  simp only [isHighSurrogate, isLowSurrogate, Bool.and_eq_true, decide_eq_true_eq,
    joinSurrogatePair]
  refine ⟨by omega, by omega, congrArg codePoint ?_⟩
  omega

/-- Scanning one escaped character, unless it is a high surrogate that joins with what follows. -/
private theorem scanChars_escapeChar (ensureAscii : Bool) (fuel : Nat) (c : CodePoint) (rest : Str)
    (alone : ensureAscii = true → isHighSurrogate c.val = true → scanLowSurrogate rest = none) :
    scanChars (fuel + 1) (escapeChar ensureAscii c ++ rest) =
      (scanChars fuel rest).map fun r => (c :: r.1, r.2) := by
  have control : ∀ n (h : n < 0x110000), c.val = n → c = ⟨n, h⟩ := fun n h e => Fin.ext e
  -- one case for each short escape, then control characters, then what ASCII keeps or escapes
  unfold escapeChar
  split
  next special =>
    rcases special with rfl | rfl
    · exact scanChars_short fuel _ _ rest (by decide) (by decide)
    · exact scanChars_short fuel _ _ rest (by decide) (by decide)
  next plain =>
  simp only [not_or] at plain
  split
  next h =>
    obtain rfl := control _ (by norm_num) h
    exact scanChars_short fuel _ _ rest (by decide) (by decide)
  split
  next h =>
    obtain rfl := control _ (by norm_num) h
    exact scanChars_short fuel _ _ rest (by decide) (by decide)
  split
  next h =>
    obtain rfl := control _ (by norm_num) h
    exact scanChars_short fuel _ _ rest (by decide) (by decide)
  split
  next h =>
    obtain rfl := control _ (by norm_num) h
    exact scanChars_short fuel _ _ rest (by decide) (by decide)
  split
  next h =>
    obtain rfl := control _ (by norm_num) h
    exact scanChars_short fuel _ _ rest (by decide) (by decide)
  split
  next h =>
    rw [scanChars_unicode fuel c.val (by omega) rest, codePoint_val]
    intro high
    simp only [isHighSurrogate, Bool.and_eq_true, decide_eq_true_eq] at high
    omega
  next printable =>
  split
  · rw [List.singleton_append, scanChars, if_neg plain.1, if_neg plain.2, if_neg printable]
  next escaped =>
  simp only [not_or, Bool.not_eq_false] at escaped
  split
  next h =>
    rw [scanChars_unicode fuel c.val h rest (alone escaped.1), codePoint_val]
  next h =>
    obtain ⟨high, low, join⟩ := joinSurrogatePair_split c.val (by omega) c.isLt
    simp only [unicodeEscape, List.cons_append, List.append_assoc, scanChars_escape]
    -- a character beyond the BMP is written as a surrogate pair
    have pair := scanEscape_pair _ _ high low rest
    simp only [unicodeEscape, List.cons_append] at pair
    rw [pair, join, codePoint_val, Option.bind_some]

/-- What follows an escaped character that is not a low surrogate cannot complete a pair. -/
private theorem scanLowSurrogate_escapeChar (b : CodePoint) (rest : Str)
    (notLow : isLowSurrogate b.val = false) :
    scanLowSurrogate (escapeChar true b ++ rest) = none := by
  -- no escape of the character reads as a low surrogate, so nothing is joined to it
  unfold escapeChar
  split
  next special =>
    rcases special with rfl | rfl
    · exact scanLowSurrogate_short _ rest (by decide)
    · exact scanLowSurrogate_short _ rest (by decide)
  next plain =>
  simp only [not_or] at plain
  split
  · exact scanLowSurrogate_short _ rest (by decide)
  split
  · exact scanLowSurrogate_short _ rest (by decide)
  split
  · exact scanLowSurrogate_short _ rest (by decide)
  split
  · exact scanLowSurrogate_short _ rest (by decide)
  split
  · exact scanLowSurrogate_short _ rest (by decide)
  split
  -- a control character is written as an escape below the surrogates
  next h => rw [scanLowSurrogate_escape _ (by omega), notLow]; rfl
  split
  · exact scanLowSurrogate_of_head b rest plain.2
  split
  next h => rw [scanLowSurrogate_escape _ h, notLow]; rfl
  next h =>
    have high := (joinSurrogatePair_split b.val (by omega) b.isLt).1
    have notLow : isLowSurrogate (0xD800 + (b.val - 0x10000) / 0x400) = false := by
      have := b.isLt
      simp only [isLowSurrogate, Bool.and_eq_false_iff, decide_eq_false_iff_not]
      omega
    rw [List.append_assoc, scanLowSurrogate_escape _ (by have := b.isLt; omega), notLow]
    rfl

private theorem escapeChar_surrogate (c : CodePoint)
    (h : isHighSurrogate c.val = true ∨ isLowSurrogate c.val = true) :
    escapeChar true c = unicodeEscape c.val := by
  have bounds : 0xD800 ≤ c.val ∧ c.val ≤ 0xDFFF := by
    simp only [isHighSurrogate, isLowSurrogate, Bool.and_eq_true, decide_eq_true_eq] at h
    omega
  have notQuote : c ≠ QUOTE := by rintro rfl; exact absurd bounds.1 (by decide)
  have notBackslash : c ≠ BACKSLASH := by rintro rfl; exact absurd bounds.1 (by decide)
  unfold escapeChar
  rw [if_neg (by simp [notQuote, notBackslash]), if_neg (by omega), if_neg (by omega),
    if_neg (by omega), if_neg (by omega), if_neg (by omega), if_neg (by omega),
    if_neg (by simp; omega), if_pos (by omega)]

private theorem scanChars_close (fuel : Nat) (rest : Str) :
    scanChars (fuel + 1) (QUOTE :: rest) = some ([], rest) := by
  rw [scanChars, if_pos rfl]

private theorem scanChars_ascii (s : Str) (fuel : Nat) (rest : Str) (h : s.length < fuel) :
    scanChars fuel (s.flatMap (escapeChar true) ++ QUOTE :: rest) =
      some (joinSurrogates s, rest) := by
  -- the induction follows the joining of surrogate pairs
  induction s using joinSurrogates.induct generalizing fuel with
  | case1 =>
    cases fuel with
    | zero => omega
    | succ fuel => exact scanChars_close fuel rest
  | case2 c =>
    obtain ⟨fuel, rfl⟩ : ∃ k, fuel = k + 2 := ⟨fuel - 2, by simp at h; omega⟩
    rw [List.flatMap_singleton, scanChars_escapeChar true (fuel + 1) c, scanChars_close]
    · rfl
    · exact fun _ _ => scanLowSurrogate_of_head QUOTE rest (by decide)
  -- two escapes that the reader joins to one character
  | case3 a b tail pair ih =>
    simp only [List.length_cons] at h
    obtain ⟨fuel, rfl⟩ : ∃ k, fuel = k + 1 := ⟨fuel - 1, by omega⟩
    have escapes : (a :: b :: tail).flatMap (escapeChar true) ++ QUOTE :: rest =
        BACKSLASH :: LOWER_U :: (hexText a.val ++ (unicodeEscape b.val ++
          (tail.flatMap (escapeChar true) ++ QUOTE :: rest))) := by
      simp only [List.flatMap_cons, escapeChar_surrogate a (.inl pair.1),
        escapeChar_surrogate b (.inr pair.2), unicodeEscape, List.cons_append, List.append_assoc]
    rw [escapes, scanChars_escape, scanEscape_pair _ _ pair.1 pair.2, Option.bind_some]
    simp only [ih fuel (by omega), Option.map_some]
    rw [joinSurrogates, if_pos pair]
  | case4 a b tail alone ih =>
    simp only [List.length_cons] at h
    obtain ⟨fuel, rfl⟩ : ∃ k, fuel = k + 1 := ⟨fuel - 1, by omega⟩
    rw [List.flatMap_cons, List.append_assoc, scanChars_escapeChar true fuel a,
      ih fuel (by simp only [List.length_cons]; omega)]
    · rw [joinSurrogates, if_neg alone]
      rfl
    · intro _ high
      rw [List.flatMap_cons, List.append_assoc]
      apply scanLowSurrogate_escapeChar
      cases low : isLowSurrogate b.val with
      | false => rfl
      | true => exact absurd ⟨high, low⟩ alone

private theorem scanChars_raw (s : Str) (fuel : Nat) (rest : Str) (h : s.length < fuel) :
    scanChars fuel (s.flatMap (escapeChar false) ++ QUOTE :: rest) = some (s, rest) := by
  induction s generalizing fuel with
  | nil =>
    cases fuel with
    | zero => omega
    | succ fuel => exact scanChars_close fuel rest
  | cons c s ih =>
    simp only [List.length_cons] at h
    obtain ⟨fuel, rfl⟩ : ∃ k, fuel = k + 1 := ⟨fuel - 1, by omega⟩
    rw [List.flatMap_cons, List.append_assoc, scanChars_escapeChar false fuel c,
      ih fuel (by omega)]
    · rfl
    · exact fun h => absurd h (by decide)

private theorem escapeChar_ne_nil (ensureAscii : Bool) (c : CodePoint) :
    escapeChar ensureAscii c ≠ [] := by
  unfold escapeChar unicodeEscape
  repeat' split
  all_goals simp

private theorem length_le_escaped (ensureAscii : Bool) (s : Str) :
    s.length ≤ (s.flatMap (escapeChar ensureAscii)).length := by
  induction s with
  | nil => exact Nat.zero_le _
  | cons c s ih =>
    have pos := List.length_pos_iff.mpr (escapeChar_ne_nil ensureAscii c)
    rw [List.flatMap_cons, List.length_append, List.length_cons]
    omega

/-- Decoding an encoded string. -/
theorem scanString_quoteString (ensureAscii : Bool) (s rest : Str) :
    scanString (s.flatMap (escapeChar ensureAscii) ++ QUOTE :: rest) =
      some (rereadStr ensureAscii s, rest) := by
  have fits : s.length < (s.flatMap (escapeChar ensureAscii) ++ QUOTE :: rest).length + 1 := by
    have := length_le_escaped ensureAscii s
    rw [List.length_append]
    omega
  cases ensureAscii with
  | true => exact scanChars_ascii s _ rest fits
  | false => exact scanChars_raw s _ rest fits

/-! ### Words and numbers -/

theorem lit_null : lit "null" = [0x6E, 0x75, 0x6C, 0x6C] := rfl
theorem lit_true : lit "true" = [0x74, 0x72, 0x75, 0x65] := rfl
theorem lit_false : lit "false" = [0x66, 0x61, 0x6C, 0x73, 0x65] := rfl

private theorem stripPrefix_of_head {a c : CodePoint} (word s : Str) (h : a ≠ c) :
    stripPrefix (a :: word) (c :: s) = none := by
  simp [stripPrefix, h]

/-- The first two characters of a rendered numeral rule out every word. -/
private theorem scanWord_digit (options : LoadOptions) (negative : Bool) (d : Digit) (s : Str) :
    scanWord options (signText negative ++ digitChar d :: s) =
      scanNumber (signText negative ++ digitChar d :: s) := by
  -- a digit starts none of the words that JSON knows
  have letters : ∀ a : CodePoint, a ∈ [0x6E, 0x74, 0x66, 0x4E, 0x49, 0x2D] → a ≠ digitChar d := by
    intro a ha
    revert d
    simp only [List.mem_cons, List.not_mem_nil, or_false] at ha
    rcases ha with rfl | rfl | rfl | rfl | rfl | rfl <;> decide
  have digitFirst : ∀ word : String, ∀ a w, lit word = a :: w →
      a ∈ ([0x6E, 0x74, 0x66, 0x4E, 0x49, 0x2D] : Str) →
      stripPrefix (lit word) (digitChar d :: s) = none := by
    intro word a w h ha
    rw [h]
    exact stripPrefix_of_head w s (letters a ha)
  have minusFirst : ∀ word : String, ∀ a w, lit word = a :: w → a ≠ MINUS →
      stripPrefix (lit word) (MINUS :: digitChar d :: s) = none := by
    intro word a w h ha
    rw [h]
    exact stripPrefix_of_head w _ ha
  cases negative with
  | false =>
    simp only [signText, Bool.false_eq_true, if_false, List.nil_append, scanWord,
      digitFirst "null" _ _ rfl (by decide), digitFirst "true" _ _ rfl (by decide),
      digitFirst "false" _ _ rfl (by decide), digitFirst "NaN" _ _ rfl (by decide),
      digitFirst "Infinity" _ _ rfl (by decide), digitFirst "-Infinity" _ _ rfl (by decide)]
  | true =>
    have negativeInfinity : stripPrefix (lit "-Infinity") (MINUS :: digitChar d :: s) = none := by
      have head : lit "-Infinity" = MINUS :: lit "Infinity" := rfl
      rw [head, stripPrefix, if_pos rfl]
      exact digitFirst "Infinity" _ _ rfl (by decide)
    simp only [signText, if_true, List.cons_append, List.nil_append, scanWord,
      minusFirst "null" _ _ rfl (by decide), minusFirst "true" _ _ rfl (by decide),
      minusFirst "false" _ _ rfl (by decide), minusFirst "NaN" _ _ rfl (by decide),
      minusFirst "Infinity" _ _ rfl (by decide), negativeInfinity]

/-- Scanning a rendered numeral as a word. -/
private theorem scanWord_render (options : LoadOptions) (n : Numeral) (wf : n.WellFormed)
    (rest : Str) (stop : NumeralStop rest) :
    scanWord options (n.render ++ rest) = n.toJson.map (·, rest) := by
  have scanned := scanNumeral_render n wf rest stop
  obtain ⟨negative, whole, fraction, exponent⟩ := n
  cases whole with
  | nil => exact absurd rfl wf.whole_ne_nil
  | cons d ds =>
    have shape : Numeral.render ⟨negative, d :: ds, fraction, exponent⟩ ++ rest =
        signText negative ++ digitChar d ::
          (renderDigits ds ++ (fractionText fraction ++ (exponentText exponent ++ rest))) := by
      simp [Numeral.render, renderDigits, List.append_assoc]
    rw [shape] at scanned ⊢
    rw [scanWord_digit, scanNumber, scanned]

/-- The numeral an integer is written as. -/
def intNumeral (n : Int) : Numeral := ⟨n < 0, decimalDigits n.natAbs, [], none⟩

theorem renderInt_eq (n : Int) : renderInt n = (intNumeral n).render := by
  simp [renderInt, intNumeral, Numeral.render, fractionText, exponentText]

private theorem intNumeral_wellFormed (n : Int) : (intNumeral n).WellFormed :=
  ⟨decimalDigits_ne_nil _, decimalDigits_no_leading_zero _, by simp [intNumeral]⟩

private theorem intNumeral_toJson (n : Int)
    (fits : (decimalDigits n.natAbs).length ≤ INT_MAX_STR_DIGITS) :
    (intNumeral n).toJson = some (.int n) := by
  simp only [Numeral.toJson, intNumeral, true_and, if_true, if_neg (not_lt.mpr fits),
    digitsValue_decimalDigits, decide_eq_true_eq]
  congr 2
  split <;> omega

private theorem spelling_toJson (x : Binary64) : x.spelling.toJson = some (.float x) := by
  have float : ¬(x.spelling.fraction = [] ∧ x.spelling.exponent = none) := by
    rcases x.spelling_fraction_or_exponent with h | h
    · exact fun both => h both.1
    · exact fun both => h both.2
  have read : Binary64.ofDecimal x.spelling.toDecimal = some x := x.ofDecimal_toDecimal
  simp only [Numeral.toJson, if_neg float, read]

/-! ### Values -/

mutual

/-- A value after encoding and decoding. -/
def Json.reread (options : LoadOptions) (ensureAscii : Bool) : Json → Option Json
  | .null => some .null
  | .bool b => some (.bool b)
  | .int n => some (.int n)
  | .float x => some (.float x)
  | .infinity negative => some (.infinity negative)
  | .nan => some .nan
  | .str s => some (.str (rereadStr ensureAscii s))
  | .array items => (rereadItems options ensureAscii items).map .array
  | .object members =>
    match rereadMembers options ensureAscii members with
    | none => none
    | some members => buildObject options members

def Json.rereadItems (options : LoadOptions) (ensureAscii : Bool) :
    List Json → Option (List Json)
  | [] => some []
  | item :: rest =>
    match item.reread options ensureAscii with
    | none => none
    | some item => (rereadItems options ensureAscii rest).map (item :: ·)

def Json.rereadMembers (options : LoadOptions) (ensureAscii : Bool) : Members → Option Members
  | [] => some []
  | (key, value) :: rest =>
    match value.reread options ensureAscii with
    | none => none
    | some value =>
      (rereadMembers options ensureAscii rest).map ((rereadStr ensureAscii key, value) :: ·)

end

mutual

/-- The recursion a scan of the value takes. -/
def Json.size : Json → Nat
  | .array items => 1 + itemsSize items
  | .object members => 1 + membersSize members
  | _ => 1

def Json.itemsSize : List Json → Nat
  | [] => 0
  | item :: rest => 1 + item.size + itemsSize rest

def Json.membersSize : Members → Nat
  | [] => 0
  | (_, value) :: rest => 1 + value.size + membersSize rest

end

/-- What the style puts after commas and colons is whitespace. -/
structure DumpStyle.Spaced (style : DumpStyle) : Prop where
  comma : ∀ c ∈ style.afterComma, isJsonSpace c = true
  colon : ∀ c ∈ style.afterColon, isJsonSpace c = true

private theorem newline_space (style : DumpStyle) (level : Nat) :
    ∀ c ∈ newline style level, isJsonSpace c = true := by
  unfold newline
  cases style.indent with
  | none => simp
  | some width =>
    intro c hc
    rcases List.mem_cons.mp hc with rfl | hc
    · decide
    · rw [List.eq_of_mem_replicate hc]
      decide

private theorem skipSpace_append_text (spaces s : Str) (h : ∀ c ∈ spaces, isJsonSpace c = true) :
    skipSpace (spaces ++ s) = skipSpace s := by
  induction spaces with
  | nil => rfl
  | cons c spaces ih =>
    rw [List.cons_append, skipSpace, List.dropWhile_cons, if_pos (h c (by simp))]
    exact ih fun d hd => h d (by simp [hd])

private theorem skipSpace_cons (c : CodePoint) (s : Str) (h : isJsonSpace c = false) :
    skipSpace (c :: s) = c :: s := by
  simp [skipSpace, h]

/-- A character with which the text of a value can begin. -/
private def OpensValue (c : CodePoint) : Prop :=
  isJsonSpace c = false ∧ c ≠ RIGHT_BRACKET ∧ c ≠ RIGHT_BRACE ∧ c ≠ BYTE_ORDER_MARK

private theorem opensValue_digitChar (d : Digit) : OpensValue (digitChar d) := by
  revert d
  unfold OpensValue
  decide

private theorem digitChar_ne_open (d : Digit) :
    digitChar d ≠ QUOTE ∧ digitChar d ≠ LEFT_BRACE ∧ digitChar d ≠ LEFT_BRACKET := by
  revert d; decide

private theorem numeral_head (n : Numeral) (wf : n.WellFormed) :
    ∃ c s, n.render = c :: s ∧ OpensValue c ∧ c ≠ QUOTE ∧ c ≠ LEFT_BRACE ∧ c ≠ LEFT_BRACKET := by
  obtain ⟨negative, whole, fraction, exponent⟩ := n
  cases whole with
  | nil => exact absurd rfl wf.whole_ne_nil
  | cons d ds =>
    have other := digitChar_ne_open d
    cases negative with
    | true =>
      exact ⟨MINUS, _, rfl, by unfold OpensValue; decide, by decide, by decide, by decide⟩
    | false => exact ⟨digitChar d, _, rfl, opensValue_digitChar d, other⟩

private theorem render_head (style : DumpStyle) (level : Nat) (v : Json)
    (fits : v.dumpable = true) : ∃ c s, v.render style level = c :: s ∧ OpensValue c := by
  unfold OpensValue
  cases v with
  | null => exact ⟨_, _, by rw [Json.render, lit_null], by decide⟩
  | bool b =>
    cases b with
    | true => exact ⟨0x74, [0x72, 0x75, 0x65], by rw [Json.render]; rfl, by decide⟩
    | false => exact ⟨0x66, [0x61, 0x6C, 0x73, 0x65], by rw [Json.render]; rfl, by decide⟩
  | int n =>
    obtain ⟨c, s, h, opens, _⟩ := numeral_head _ (intNumeral_wellFormed n)
    exact ⟨c, s, by rw [Json.render, renderInt_eq, h], opens⟩
  | float x =>
    obtain ⟨c, s, h, opens, _⟩ := numeral_head _ x.spelling_wellFormed
    exact ⟨c, s, by rw [Json.render, h], opens⟩
  | infinity negative => simp [Json.dumpable] at fits
  | nan => simp [Json.dumpable] at fits
  | str s => exact ⟨QUOTE, _, by rw [Json.render]; rfl, by decide⟩
  | array items =>
    cases items with
    | nil => exact ⟨LEFT_BRACKET, _, by rw [Json.render], by decide⟩
    | cons item items => exact ⟨LEFT_BRACKET, _, by rw [Json.render], by decide⟩
  | object members =>
    cases members with
    | nil => exact ⟨LEFT_BRACE, _, by rw [Json.render], by decide⟩
    | cons member members => exact ⟨LEFT_BRACE, _, by rw [Json.render], by decide⟩

private theorem renderMembers_head (style : DumpStyle) (level : Nat) (member : Str × Json)
    (members : Members) : ∃ s, Json.renderMembers style level (member :: members) = QUOTE :: s := by
  obtain ⟨key, value⟩ := member
  cases members with
  | nil => exact ⟨_, by rw [Json.renderMembers]; rfl⟩
  | cons other members => exact ⟨_, by rw [Json.renderMembers]; rfl; simp⟩

private theorem numeralStop_space (spaces : Str) (c : CodePoint) (rest : Str)
    (h : ∀ c ∈ spaces, isJsonSpace c = true)
    (hc : c = COMMA ∨ c = RIGHT_BRACKET ∨ c = RIGHT_BRACE) :
    NumeralStop (spaces ++ c :: rest) := by
  intro d hd
  cases spaces with
  | nil =>
    obtain rfl : c = d := by simpa using hd
    rcases hc with rfl | rfl | rfl <;> decide
  | cons space spaces =>
    obtain rfl : space = d := by simpa using hd
    have isSpace := h space (by simp)
    simp only [isJsonSpace, Bool.or_eq_true, beq_iff_eq] at isSpace
    rcases isSpace with ((rfl | rfl) | rfl) | rfl <;> decide

private theorem renderItems_head (style : DumpStyle) (level : Nat) (item : Json)
    (items : List Json) (fits : item.dumpable = true) :
    ∃ c s, Json.renderItems style level (item :: items) = c :: s ∧ OpensValue c := by
  obtain ⟨c, s, h, opens⟩ := render_head style level item fits
  cases items with
  | nil => exact ⟨c, s, by rw [Json.renderItems, h], opens⟩
  | cons other items => exact ⟨c, _, by rw [Json.renderItems, h]; rfl; simp, opens⟩

/-- The text of a value begins with no whitespace, so skipping whitespace stops there. -/
private theorem skipSpace_render (style : DumpStyle) (level : Nat) (v : Json)
    (fits : v.dumpable = true) (spaces rest : Str) (h : ∀ c ∈ spaces, isJsonSpace c = true) :
    skipSpace (spaces ++ (v.render style level ++ rest)) = v.render style level ++ rest := by
  obtain ⟨c, s, head, opens⟩ := render_head style level v fits
  rw [skipSpace_append_text _ _ h, head, List.cons_append, skipSpace_cons _ _ opens.1]

private theorem scanValue_string (options : LoadOptions) (fuel : Nat) (ensureAscii : Bool)
    (s rest : Str) : scanValue options (fuel + 1) (quoteString ensureAscii s ++ rest) =
      some (.str (rereadStr ensureAscii s), rest) := by
  simp only [quoteString, List.cons_append, List.append_assoc, List.nil_append, scanValue, if_true,
    scanString_quoteString, Option.map_some]

private theorem scanValue_numeral (options : LoadOptions) (fuel : Nat) (n : Numeral)
    (wf : n.WellFormed) (rest : Str) (stop : NumeralStop rest) :
    scanValue options (fuel + 1) (n.render ++ rest) = n.toJson.map (·, rest) := by
  obtain ⟨c, s, head, _, notQuote, notBrace, notBracket⟩ := numeral_head n wf
  have word := scanWord_render options n wf rest stop
  rw [head, List.cons_append] at word ⊢
  rw [scanValue, if_neg notQuote, if_neg notBrace, if_neg notBracket, word]

/-- An opening bracket hands a nonempty list over to the scan of its items. -/
private theorem scanValue_array (options : LoadOptions) (fuel : Nat) (spaces s : Str)
    (c : CodePoint) (h : ∀ c ∈ spaces, isJsonSpace c = true) (opens : OpensValue c) :
    scanValue options (fuel + 1) (LEFT_BRACKET :: (spaces ++ c :: s)) =
      (scanItems options fuel (c :: s)).map fun r => (.array r.1, r.2) := by
  rw [scanValue, if_neg (by decide), if_neg (by decide), if_pos rfl, skipSpace_append_text _ _ h,
    skipSpace_cons _ _ opens.1]
  simp only [if_neg opens.2.1]

private theorem scanValue_object (options : LoadOptions) (fuel : Nat) (spaces s : Str)
    (h : ∀ c ∈ spaces, isJsonSpace c = true) :
    scanValue options (fuel + 1) (LEFT_BRACE :: (spaces ++ QUOTE :: s)) =
      match scanMembers options fuel (QUOTE :: s) with
      | none => none
      | some (pairs, after) => (buildObject options pairs).map (·, after) := by
  rw [scanValue, if_neg (by decide), if_pos rfl, skipSpace_append_text _ _ h,
    skipSpace_cons _ _ (by decide)]
  rfl

mutual

/-- Scanning the text of a value, whatever follows it. -/
theorem scanValue_render (options : LoadOptions) (style : DumpStyle) (spaced : style.Spaced) :
    ∀ (v : Json) (level fuel : Nat) (rest : Str), v.dumpable = true → v.size ≤ fuel →
      NumeralStop rest → scanValue options fuel (v.render style level ++ rest) =
        (v.reread options style.ensureAscii).map (·, rest)
  -- one case a constructor; `fuel` covers the size of what is read
  | .null, level, fuel, rest, _, size, _ => by
    obtain ⟨fuel, rfl⟩ : ∃ k, fuel = k + 1 := ⟨fuel - 1, by simp only [Json.size] at size; omega⟩
    rw [Json.render, Json.reread, lit_null]
    rfl
  | .bool true, level, fuel, rest, _, size, _ => by
    obtain ⟨fuel, rfl⟩ : ∃ k, fuel = k + 1 := ⟨fuel - 1, by simp only [Json.size] at size; omega⟩
    rw [Json.render, Json.reread, if_pos rfl, lit_true]
    rfl
  | .bool false, level, fuel, rest, _, size, _ => by
    obtain ⟨fuel, rfl⟩ : ∃ k, fuel = k + 1 := ⟨fuel - 1, by simp only [Json.size] at size; omega⟩
    rw [Json.render, Json.reread, if_neg (by decide), lit_false]
    rfl
  | .int n, level, fuel, rest, fits, size, stop => by
    obtain ⟨fuel, rfl⟩ : ∃ k, fuel = k + 1 := ⟨fuel - 1, by simp only [Json.size] at size; omega⟩
    simp only [Json.dumpable, decide_eq_true_eq] at fits
    rw [Json.render, Json.reread, renderInt_eq,
      scanValue_numeral options fuel _ (intNumeral_wellFormed n) rest stop,
      intNumeral_toJson n fits]
  | .float x, level, fuel, rest, _, size, stop => by
    obtain ⟨fuel, rfl⟩ : ∃ k, fuel = k + 1 := ⟨fuel - 1, by simp only [Json.size] at size; omega⟩
    rw [Json.render, Json.reread, scanValue_numeral options fuel _ x.spelling_wellFormed rest stop,
      spelling_toJson]
  | .infinity negative, level, fuel, rest, fits, _, _ => by simp [Json.dumpable] at fits
  | .nan, level, fuel, rest, fits, _, _ => by simp [Json.dumpable] at fits
  | .str s, level, fuel, rest, _, size, _ => by
    obtain ⟨fuel, rfl⟩ : ∃ k, fuel = k + 1 := ⟨fuel - 1, by simp only [Json.size] at size; omega⟩
    rw [Json.render, Json.reread, scanValue_string]
    rfl
  | .array [], level, fuel, rest, _, size, _ => by
    obtain ⟨fuel, rfl⟩ : ∃ k, fuel = k + 1 := ⟨fuel - 1, by simp only [Json.size] at size; omega⟩
    rw [Json.render, Json.reread, Json.rereadItems]
    rfl
  | .array (item :: items), level, fuel, rest, fits, size, _ => by
    obtain ⟨fuel, rfl⟩ : ∃ k, fuel = k + 1 := ⟨fuel - 1, by simp only [Json.size] at size; omega⟩
    simp only [Json.size] at size
    simp only [Json.dumpable] at fits
    have first : item.dumpable = true := by
      simp only [Json.itemsDumpable, Bool.and_eq_true] at fits
      exact fits.1
    have scanned := scanItems_render options style spaced (item :: items) (level + 1) fuel
      (newline style level) rest fits (by simp) (by omega) (newline_space style level)
    obtain ⟨c, s, head, opens⟩ := renderItems_head style (level + 1) item items first
    simp only [head, List.cons_append] at scanned
    simp only [Json.render, Json.reread, head, List.cons_append, List.append_assoc,
      List.nil_append]
    rw [scanValue_array _ _ _ _ _ (newline_space style (level + 1)) opens, scanned]
    cases Json.rereadItems options style.ensureAscii (item :: items) <;> rfl
  | .object [], level, fuel, rest, _, size, _ => by
    obtain ⟨fuel, rfl⟩ : ∃ k, fuel = k + 1 := ⟨fuel - 1, by simp only [Json.size] at size; omega⟩
    rw [Json.render, Json.reread, Json.rereadMembers]
    rfl
  | .object (member :: members), level, fuel, rest, fits, size, _ => by
    obtain ⟨fuel, rfl⟩ : ∃ k, fuel = k + 1 := ⟨fuel - 1, by simp only [Json.size] at size; omega⟩
    simp only [Json.size] at size
    simp only [Json.dumpable] at fits
    have scanned := scanMembers_render options style spaced (member :: members) (level + 1) fuel
      (newline style level) rest fits (by simp) (by omega) (newline_space style level)
    obtain ⟨s, head⟩ := renderMembers_head style (level + 1) member members
    simp only [head, List.cons_append] at scanned
    simp only [Json.render, Json.reread, head, List.cons_append, List.append_assoc,
      List.nil_append]
    rw [scanValue_object _ _ _ _ (newline_space style (level + 1)), scanned]
    cases Json.rereadMembers options style.ensureAscii (member :: members) <;> rfl

private theorem scanItems_render (options : LoadOptions) (style : DumpStyle)
    (spaced : style.Spaced) : ∀ (items : List Json) (level fuel : Nat) (spaces rest : Str),
      Json.itemsDumpable items = true → items ≠ [] → Json.itemsSize items ≤ fuel →
      (∀ c ∈ spaces, isJsonSpace c = true) →
      scanItems options fuel
        (Json.renderItems style level items ++ (spaces ++ RIGHT_BRACKET :: rest)) =
        (Json.rereadItems options style.ensureAscii items).map (·, rest)
  -- the last item ends with the bracket, any other with a comma
  | [], _, _, _, _, _, ne, _, _ => absurd rfl ne
  | [item], level, fuel, spaces, rest, fits, _, size, space => by
    simp only [Json.itemsSize] at size
    obtain ⟨fuel, rfl⟩ : ∃ k, fuel = k + 1 := ⟨fuel - 1, by omega⟩
    simp only [Json.itemsDumpable, Bool.and_true] at fits
    have scanned := scanValue_render options style spaced item level fuel
      (spaces ++ RIGHT_BRACKET :: rest) fits (by omega)
      (numeralStop_space spaces _ rest space (by simp))
    simp only [Json.renderItems, Json.rereadItems, scanItems, scanned]
    cases item.reread options style.ensureAscii with
    | none => rfl
    | some v =>
      simp only [Option.map_some, skipSpace_append_text _ _ space,
        skipSpace_cons RIGHT_BRACKET rest (by decide), if_true]
  | item :: next :: items, level, fuel, spaces, rest, fits, _, size, space => by
    simp only [Json.itemsSize] at size
    obtain ⟨fuel, rfl⟩ : ∃ k, fuel = k + 1 := ⟨fuel - 1, by omega⟩
    have both := fits
    simp only [Json.itemsDumpable, Bool.and_eq_true] at both
    have others : Json.itemsDumpable (next :: items) = true := by
      simp only [Json.itemsDumpable, Bool.and_eq_true]
      exact both.2
    have scanned := scanValue_render options style spaced item level fuel
      (COMMA :: (style.afterComma ++ newline style level ++
        Json.renderItems style level (next :: items)) ++ (spaces ++ RIGHT_BRACKET :: rest))
      both.1 (by omega) (numeralStop_space [] COMMA _ (by simp) (by simp))
    have remaining := scanItems_render options style spaced (next :: items) level fuel spaces rest
      others (by simp) (by simp only [Json.itemsSize]; omega) space
    obtain ⟨c, s, head, opens, _⟩ := renderItems_head style level next items both.2.1
    -- between two items there is white space only
    have indent : ∀ c ∈ style.afterComma ++ newline style level, isJsonSpace c = true := by
      intro c hc
      rcases List.mem_append.mp hc with hc | hc
      · exact spaced.comma c hc
      · exact newline_space style level c hc
    have skipped : skipSpace (style.afterComma ++ newline style level ++
        Json.renderItems style level (next :: items) ++ (spaces ++ RIGHT_BRACKET :: rest)) =
        Json.renderItems style level (next :: items) ++ (spaces ++ RIGHT_BRACKET :: rest) := by
      rw [List.append_assoc, skipSpace_append_text _ _ indent, head, List.cons_append,
        skipSpace_cons _ _ opens]
    rw [List.cons_append] at scanned
    rw [Json.renderItems, List.append_assoc, List.cons_append, scanItems, scanned,
      Json.rereadItems]
    · cases item.reread options style.ensureAscii with
      | none => rfl
      | some v =>
        simp only [Option.map_some, skipSpace_cons COMMA _ (by decide),
          if_neg (by decide : COMMA ≠ RIGHT_BRACKET), if_true, skipped, remaining]
        cases Json.rereadItems options style.ensureAscii (next :: items) <;> rfl
    · simp

private theorem scanMembers_render (options : LoadOptions) (style : DumpStyle)
    (spaced : style.Spaced) : ∀ (members : Members) (level fuel : Nat) (spaces rest : Str),
      Json.membersDumpable members = true → members ≠ [] → Json.membersSize members ≤ fuel →
      (∀ c ∈ spaces, isJsonSpace c = true) →
      scanMembers options fuel
        (Json.renderMembers style level members ++ (spaces ++ RIGHT_BRACE :: rest)) =
        (Json.rereadMembers options style.ensureAscii members).map (·, rest)
  -- the last member ends with the brace, any other with a comma
  | [], _, _, _, _, _, ne, _, _ => absurd rfl ne
  | [(key, value)], level, fuel, spaces, rest, fits, _, size, space => by
    simp only [Json.membersSize] at size
    obtain ⟨fuel, rfl⟩ : ∃ k, fuel = k + 1 := ⟨fuel - 1, by omega⟩
    simp only [Json.membersDumpable, Bool.and_true] at fits
    have scanned := scanValue_render options style spaced value level fuel
      (spaces ++ RIGHT_BRACE :: rest) fits (by omega)
      (numeralStop_space spaces _ rest space (by simp))
    simp only [Json.renderMembers, Json.rereadMembers, quoteString, List.cons_append,
      List.append_assoc, List.nil_append, scanMembers, ne_eq, not_true_eq_false, if_false,
      scanString_quoteString, skipSpace_cons COLON _ (by decide : isJsonSpace COLON = false),
      skipSpace_render style level value fits _ _ spaced.colon, scanned]
    cases value.reread options style.ensureAscii with
    | none => rfl
    | some v =>
      simp only [Option.map_some, skipSpace_append_text _ _ space,
        skipSpace_cons RIGHT_BRACE rest (by decide), if_true]
  | (key, value) :: next :: members, level, fuel, spaces, rest, fits, _, size, space => by
    simp only [Json.membersSize] at size
    obtain ⟨fuel, rfl⟩ : ∃ k, fuel = k + 1 := ⟨fuel - 1, by omega⟩
    have both := fits
    rw [Json.membersDumpable, Bool.and_eq_true] at both
    have scanned := scanValue_render options style spaced value level fuel
      (COMMA :: (style.afterComma ++ (newline style level ++
        (Json.renderMembers style level (next :: members) ++ (spaces ++ RIGHT_BRACE :: rest)))))
      both.1 (by omega) (numeralStop_space [] COMMA _ (by simp) (by simp))
    have remaining := scanMembers_render options style spaced (next :: members) level fuel spaces
      rest both.2 (by simp) (by obtain ⟨k, v⟩ := next; simp only [Json.membersSize] at size ⊢; omega)
      space
    obtain ⟨s, head⟩ := renderMembers_head style level next members
    have skipped : skipSpace (style.afterComma ++ (newline style level ++
        (Json.renderMembers style level (next :: members) ++ (spaces ++ RIGHT_BRACE :: rest)))) =
        Json.renderMembers style level (next :: members) ++ (spaces ++ RIGHT_BRACE :: rest) := by
      rw [skipSpace_append_text _ _ spaced.comma, skipSpace_append_text _ _ (newline_space style level), head,
        List.cons_append, skipSpace_cons _ _ (by decide)]
    rw [Json.renderMembers, Json.rereadMembers]
    · simp only [quoteString, List.cons_append,
        List.append_assoc, List.nil_append, scanMembers, ne_eq, not_true_eq_false, if_false,
        scanString_quoteString, skipSpace_cons COLON _ (by decide : isJsonSpace COLON = false),
        skipSpace_render style level value both.1 _ _ spaced.colon, scanned]
      cases value.reread options style.ensureAscii with
      | none => rfl
      | some v =>
        simp only [Option.map_some, skipSpace_cons COMMA _ (by decide),
          if_neg (by decide : COMMA ≠ RIGHT_BRACE), if_true, skipped, remaining]
        cases Json.rereadMembers options style.ensureAscii (next :: members) <;> rfl
    · simp

end

/-! ### Whole texts -/

mutual

/-- The recursion bound `loads` starts with is enough for the text of any value. -/
private theorem size_le_render (style : DumpStyle) : ∀ (v : Json) (level : Nat),
    v.dumpable = true → v.size ≤ 2 * (v.render style level).length
  | .array [], level, _ => by simp [Json.size, Json.itemsSize, Json.render]
  | .array (item :: items), level, fits => by
    have inner := itemsSize_le_render style (item :: items) (level + 1) (by
      simpa only [Json.dumpable] using fits)
    simp only [Json.size, Json.render, List.length_cons, List.length_append, List.length_nil]
    omega
  | .object [], level, _ => by simp [Json.size, Json.membersSize, Json.render]
  | .object (member :: members), level, fits => by
    have inner := membersSize_le_render style (member :: members) (level + 1) (by
      simpa only [Json.dumpable] using fits)
    simp only [Json.size, Json.render, List.length_cons, List.length_append, List.length_nil]
    omega
  | .null, level, fits => scalar_size_le_render style _ level fits rfl
  | .bool b, level, fits => scalar_size_le_render style _ level fits rfl
  | .int n, level, fits => scalar_size_le_render style _ level fits rfl
  | .float x, level, fits => scalar_size_le_render style _ level fits rfl
  | .infinity negative, level, fits => scalar_size_le_render style _ level fits rfl
  | .nan, level, fits => scalar_size_le_render style _ level fits rfl
  | .str s, level, fits => scalar_size_le_render style _ level fits rfl

private theorem itemsSize_le_render (style : DumpStyle) : ∀ (items : List Json) (level : Nat),
    Json.itemsDumpable items = true →
      Json.itemsSize items ≤ 2 * (Json.renderItems style level items).length + 1
  | [], _, _ => by simp [Json.itemsSize]
  | [item], level, fits => by
    simp only [Json.itemsDumpable, Bool.and_true] at fits
    have first := size_le_render style item level fits
    simp only [Json.itemsSize, Json.renderItems]
    omega
  | item :: next :: items, level, fits => by
    rw [Json.itemsDumpable, Bool.and_eq_true] at fits
    have first := size_le_render style item level fits.1
    have others := itemsSize_le_render style (next :: items) level fits.2
    rw [Json.itemsSize, Json.renderItems]
    · simp only [List.length_append, List.length_cons]
      omega
    · simp

private theorem membersSize_le_render (style : DumpStyle) : ∀ (members : Members) (level : Nat),
    Json.membersDumpable members = true →
      Json.membersSize members ≤ 2 * (Json.renderMembers style level members).length + 1
  | [], _, _ => by simp [Json.membersSize]
  | [(key, value)], level, fits => by
    simp only [Json.membersDumpable, Bool.and_true] at fits
    have first := size_le_render style value level fits
    simp only [Json.membersSize, Json.renderMembers, List.length_append, List.length_cons]
    omega
  | (key, value) :: next :: members, level, fits => by
    rw [Json.membersDumpable, Bool.and_eq_true] at fits
    have first := size_le_render style value level fits.1
    have others := membersSize_le_render style (next :: members) level fits.2
    rw [Json.membersSize, Json.renderMembers]
    · simp only [List.length_append, List.length_cons]
      omega
    · simp

private theorem scalar_size_le_render (style : DumpStyle) (v : Json) (level : Nat)
    (fits : v.dumpable = true) (scalar : v.size = 1) :
    v.size ≤ 2 * (v.render style level).length := by
  obtain ⟨c, s, head, _⟩ := render_head style level v fits
  rw [scalar, head, List.length_cons]
  omega

end

/-- Decoding the text of a value. -/
theorem loads_render (options : LoadOptions) (style : DumpStyle) (spaced : style.Spaced)
    (v : Json) (fits : v.dumpable = true) :
    loads options (v.render style 0) = v.reread options style.ensureAscii := by
  have size := size_le_render style v 0 fits
  have scanned := scanValue_render options style spaced v 0
    (2 * (v.render style 0).length + 2) [] fits (by omega) numeralStop_nil
  obtain ⟨c, s, head, opens⟩ := render_head style 0 v fits
  rw [List.append_nil] at scanned
  have noMark : (v.render style 0).head? ≠ some BYTE_ORDER_MARK := by
    rw [head, List.head?_cons]
    exact fun h => opens.2.2.2 (Option.some.inj h)
  have start : skipSpace (v.render style 0) = v.render style 0 := by
    rw [head, skipSpace_cons _ _ opens.1]
  rw [loads, if_neg noMark, start, scanned]
  cases v.reread options style.ensureAscii <;> rfl

/-- A trailing line feed, as a text file ends with, changes nothing. -/
theorem loads_render_newline (options : LoadOptions) (style : DumpStyle) (spaced : style.Spaced)
    (v : Json) (fits : v.dumpable = true) :
    loads options (v.render style 0 ++ [LF]) = v.reread options style.ensureAscii := by
  have size := size_le_render style v 0 fits
  have scanned := scanValue_render options style spaced v 0
    (2 * (v.render style 0 ++ [LF]).length + 2) [LF] fits
    (by rw [List.length_append]; omega) (by
      intro c hc
      obtain rfl : LF = c := by simpa using hc
      decide)
  obtain ⟨c, s, head, opens⟩ := render_head style 0 v fits
  have noMark : (v.render style 0 ++ [LF]).head? ≠ some BYTE_ORDER_MARK := by
    rw [head, List.cons_append, List.head?_cons]
    exact fun h => opens.2.2.2 (Option.some.inj h)
  have start : skipSpace (v.render style 0 ++ [LF]) = v.render style 0 ++ [LF] := by
    rw [head, List.cons_append, skipSpace_cons _ _ opens.1]
  rw [loads, if_neg noMark, start, scanned]
  cases v.reread options style.ensureAscii <;> rfl

end Python
