import ClaimCI.Python.Json

/-!
# Comments and literals of Java

The lexical structure of a Java source without Unicode escapes, as far as it tells code from
comments and literals: a source is a sequence of code characters, comments and literals, each opened
and ended by the rule of its kind.
-/

open Python

namespace Java

def SLASH : CodePoint := 0x2F
def ASTERISK : CodePoint := 0x2A
def APOSTROPHE : CodePoint := 0x27

/-- The delimiter of a text block. -/
def TRIPLE_QUOTE : Str := [QUOTE, QUOTE, QUOTE]

inductive Element where
  | code (c : CodePoint)
  | lineComment (body : Str)
  | blockComment (body : Str)
  | string (body : Str)
  | character (body : Str)
  | textBlock (body : Str)
  deriving DecidableEq

def Element.text : Element → Str
  | code c => [c]
  | lineComment body => [SLASH, SLASH] ++ body
  | blockComment body => [SLASH, ASTERISK] ++ body ++ [ASTERISK, SLASH]
  | string body => QUOTE :: body ++ [QUOTE]
  | character body => APOSTROPHE :: body ++ [APOSTROPHE]
  | textBlock body => TRIPLE_QUOTE ++ body ++ TRIPLE_QUOTE

/-! ### Where an element ends -/

/-- The body of a line comment, and what follows it. -/
def lineEnd : Str → Str × Str
  | [] => ([], [])
  | c :: rest => if c = LF then ([], c :: rest) else (c :: (lineEnd rest).1, (lineEnd rest).2)

/-- The body of a block comment, and what follows it. -/
def blockEnd : Str → Option (Str × Str)
  | [] => none
  | c :: rest =>
    if c = ASTERISK ∧ rest.head? = some SLASH then some ([], rest.tail)
    else (blockEnd rest).map fun found => (c :: found.1, found.2)

/-- What stands before the next terminator on the line, and what follows it: a backslash keeps the
next character from being the terminator. -/
def unescapedEnd (terminator : CodePoint) : Str → Option (Str × Str)
  | [] => none
  | [c] => if c = terminator then some ([], []) else none
  | c :: d :: rest =>
    if c = LF then none
    else if c = BACKSLASH then
      if d = LF then none
      else (unescapedEnd terminator rest).map fun found => (c :: d :: found.1, found.2)
    else if c = terminator then some ([], d :: rest)
    else (unescapedEnd terminator (d :: rest)).map fun found => (c :: found.1, found.2)

/-- What stands before the next triple quote, and what follows it: a backslash keeps the next
character from being its first quote. -/
def tripleQuoteEnd : Str → Option (Str × Str)
  | [] => none
  | [_] => none
  | c :: d :: rest =>
    if c = BACKSLASH then (tripleQuoteEnd rest).map fun found => (c :: d :: found.1, found.2)
    else if TRIPLE_QUOTE.isPrefixOf (c :: d :: rest) then some ([], rest.tail)
    else (tripleQuoteEnd (d :: rest)).map fun found => (c :: found.1, found.2)

/-! ### Literals -/

def isOctalDigit (c : CodePoint) : Bool := 0x30 ≤ c.val && c.val ≤ 0x37

/-- What may follow the backslash of an escape sequence on one line: a letter that stands for a
character, a quote, a backslash, or the first digit of an octal escape. -/
def opensEscape (c : CodePoint) : Bool :=
  (lit "bstnfr").contains c || c == QUOTE || c == APOSTROPHE || c == BACKSLASH || isOctalDigit c

/-- Every backslash begins an escape sequence; before the end of a line it does so in text blocks
only. -/
def escapesLawful (inTextBlock : Bool) : Str → Bool
  | [] => true
  | [c] => c != BACKSLASH
  | c :: d :: rest =>
    if c = BACKSLASH then
      (opensEscape d || inTextBlock && d == LF) && escapesLawful inTextBlock rest
    else escapesLawful inTextBlock (d :: rest)

/-- One UTF-16 code unit, or one escape sequence. -/
def isCharacter : Str → Bool
  | [c] => c != APOSTROPHE && c != BACKSLASH && c != LF && c.val < 0x10000
  | [b, c] => b == BACKSLASH && opensEscape c
  | [b, c, d] => b == BACKSLASH && isOctalDigit c && isOctalDigit d
  | [b, c, d, e] =>
    b == BACKSLASH && isOctalDigit c && c.val ≤ 0x33 && isOctalDigit d && isOctalDigit e
  | _ => false

/-- What may stand between the triple quote that opens a text block and the end of its line. -/
def isBlank (c : CodePoint) : Bool := c == SPACE || c == 0x09 || c == 0x0C

/-- A triple quote opens a text block only before blanks and the end of the line; elsewhere it is an
empty string literal and the quote of another. -/
def opensTextBlock (following : Str) : Bool := (following.dropWhile isBlank).head? == some LF

/-- The rules by which literals are opened and ended. An end is the body, and what follows it. -/
structure Rules where
  opensBlock : Str → Bool
  blockTextEnd : Str → Option (Str × Str)
  stringEnd : Str → Option (Str × Str)
  characterEnd : Str → Option (Str × Str)

/-- The rules of Java. -/
def rules : Rules where
  opensBlock := opensTextBlock
  blockTextEnd s := (tripleQuoteEnd s).filter fun found => escapesLawful true found.1
  stringEnd s := (unescapedEnd QUOTE s).filter fun found => escapesLawful false found.1
  characterEnd s := (unescapedEnd APOSTROPHE s).filter fun found => isCharacter found.1

/-! ### The elements of a source -/

/-- The elements of a source under some rules; `none` when a comment or a literal does not end. -/
def elementsBy (rules : Rules) : Nat → Str → Option (List Element)
  | _, [] => some []
  | 0, _ :: _ => none
  | fuel + 1, c :: rest =>
    if c = SLASH ∧ rest.head? = some SLASH then
      (elementsBy rules fuel (lineEnd rest.tail).2).map (.lineComment (lineEnd rest.tail).1 :: ·)
    else if c = SLASH ∧ rest.head? = some ASTERISK then
      (blockEnd rest.tail).bind fun found =>
        (elementsBy rules fuel found.2).map (.blockComment found.1 :: ·)
    else if TRIPLE_QUOTE.isPrefixOf (c :: rest) ∧ rules.opensBlock (rest.drop 2) = true then
      (rules.blockTextEnd (rest.drop 2)).bind fun found =>
        (elementsBy rules fuel found.2).map (.textBlock found.1 :: ·)
    else if c = QUOTE then
      (rules.stringEnd rest).bind fun found =>
        (elementsBy rules fuel found.2).map (.string found.1 :: ·)
    else if c = APOSTROPHE then
      (rules.characterEnd rest).bind fun found =>
        (elementsBy rules fuel found.2).map (.character found.1 :: ·)
    else (elementsBy rules fuel rest).map (.code c :: ·)

/-- The elements of a Java source. -/
def elements (s : Str) : Option (List Element) := elementsBy rules s.length s

/-- A literal of Java, or no literal. -/
def Element.lawful : Element → Bool
  | string body => escapesLawful false body
  | character body => isCharacter body
  | textBlock body => escapesLawful true body
  | _ => true

/-- The code of the elements, with a blank for every other character but the line ends. -/
def Element.masked : Element → Str
  | code c => [c]
  | other => other.text.map fun c => if c = LF then LF else SPACE

def codeText (elements : List Element) : Str := elements.flatMap Element.masked

/-! ### The elements are the source -/

theorem lineEnd_text (s : Str) : (lineEnd s).1 ++ (lineEnd s).2 = s := by
  induction s with
  | nil => rfl
  | cons c rest ih =>
    rw [lineEnd]
    split
    · rfl
    · rw [List.cons_append, ih]

theorem blockEnd_text {s : Str} {found : Str × Str} (h : blockEnd s = some found) :
    s = found.1 ++ [ASTERISK, SLASH] ++ found.2 := by
  induction s generalizing found with
  | nil => cases h
  | cons c rest ih =>
    rw [blockEnd] at h
    split at h
    next closes =>
      cases rest with
      | nil => cases closes.2
      | cons d rest =>
        have slash : d = SLASH := by simpa using closes.2
        rw [← Option.some.inj h, closes.1, slash]
        rfl
    · obtain ⟨later, found', rfl⟩ := Option.map_eq_some_iff.mp h
      rw [ih found']
      rfl

theorem unescapedEnd_text {terminator : CodePoint} {s : Str} {found : Str × Str}
    (h : unescapedEnd terminator s = some found) : s = found.1 ++ [terminator] ++ found.2 := by
  induction s using List.twoStepInduction generalizing found with
  | nil => cases h
  | singleton c =>
    rw [unescapedEnd] at h
    split at h
    next closes =>
      rw [← Option.some.inj h, closes]
      rfl
    · cases h
  | cons_cons c d rest ih ih' =>
    rw [unescapedEnd] at h
    split at h
    · cases h
    · split at h
      -- an escape, the terminator, and any other character
      · split at h
        · cases h
        · obtain ⟨later, found', rfl⟩ := Option.map_eq_some_iff.mp h
          rw [ih found']
          rfl
      · split at h
        next closes =>
          rw [← Option.some.inj h, closes]
          rfl
        · obtain ⟨later, found', rfl⟩ := Option.map_eq_some_iff.mp h
          rw [ih' d found']
          rfl

theorem isPrefixOf_drop {pattern s : Str} (h : pattern.isPrefixOf s = true) :
    s = pattern ++ s.drop pattern.length := by
  obtain ⟨rest, rfl⟩ := List.isPrefixOf_iff_prefix.mp h
  rw [List.drop_left]

theorem tripleQuoteEnd_text {s : Str} {found : Str × Str} (h : tripleQuoteEnd s = some found) :
    s = found.1 ++ TRIPLE_QUOTE ++ found.2 := by
  induction s using List.twoStepInduction generalizing found with
  | nil => cases h
  | singleton c => cases h
  | cons_cons c d rest ih ih' =>
    rw [tripleQuoteEnd] at h
    split at h
    · obtain ⟨later, found', rfl⟩ := Option.map_eq_some_iff.mp h
      rw [ih found']
      rfl
    · split at h
      next closes =>
        have cut := isPrefixOf_drop closes
        rw [← Option.some.inj h]
        rw [cut]
        simp [TRIPLE_QUOTE, List.drop_one]
      · obtain ⟨later, found', rfl⟩ := Option.map_eq_some_iff.mp h
        rw [ih' d found']
        rfl

/-- Under the rules a literal ends with what opened it. -/
structure Rules.Closing (rules : Rules) : Prop where
  block : ∀ s found, rules.blockTextEnd s = some found → s = found.1 ++ TRIPLE_QUOTE ++ found.2
  string : ∀ s found, rules.stringEnd s = some found → s = found.1 ++ [QUOTE] ++ found.2
  character : ∀ s found, rules.characterEnd s = some found → s = found.1 ++ [APOSTROPHE] ++ found.2

/-- The elements of a source, one behind the other, are the source. -/
theorem elementsBy_text {rules : Rules} (closing : rules.Closing) {fuel : Nat} {s : Str}
    {found : List Element} (h : elementsBy rules fuel s = some found) :
    found.flatMap Element.text = s := by
  induction fuel generalizing s found with
  | zero =>
    cases s with
    | nil =>
      cases h
      rfl
    | cons c rest => cases h
  | succ fuel ih =>
    cases s with
    | nil =>
      cases h
      rfl
    | cons c rest =>
      rw [elementsBy] at h
      split at h
      -- line comment, block comment, text block, string, character literal, code
      next opens =>
        obtain ⟨later, found', rfl⟩ := Option.map_eq_some_iff.mp h
        cases rest with
        | nil => cases opens.2
        | cons d rest =>
          have slash : d = SLASH := by simpa using opens.2
          rw [List.flatMap_cons, ih found', opens.1, slash, Element.text, List.append_assoc, List.tail_cons,
            lineEnd_text]
          rfl
      · split at h
        next opens =>
          obtain ⟨cut, ended, mapped⟩ := Option.bind_eq_some_iff.mp h
          obtain ⟨later, found', rfl⟩ := Option.map_eq_some_iff.mp mapped
          cases rest with
          | nil => cases opens.2
          | cons d rest =>
            have star : d = ASTERISK := by simpa using opens.2
            rw [List.flatMap_cons, ih found', opens.1, star, Element.text]
            rw [List.tail_cons] at ended
            rw [blockEnd_text ended]
            simp
        · split at h
          next opens =>
            obtain ⟨cut, ended, mapped⟩ := Option.bind_eq_some_iff.mp h
            obtain ⟨later, found', rfl⟩ := Option.map_eq_some_iff.mp mapped
            have front := isPrefixOf_drop opens.1
            rw [List.flatMap_cons, ih found', Element.text, front]
            have tail : (c :: rest).drop TRIPLE_QUOTE.length = rest.drop 2 := rfl
            rw [tail, closing.block _ _ ended]
            simp
          · split at h
            next opens =>
              obtain ⟨cut, ended, mapped⟩ := Option.bind_eq_some_iff.mp h
              obtain ⟨later, found', rfl⟩ := Option.map_eq_some_iff.mp mapped
              rw [List.flatMap_cons, ih found', Element.text, opens, closing.string _ _ ended]
              simp
            · split at h
              next opens =>
                obtain ⟨cut, ended, mapped⟩ := Option.bind_eq_some_iff.mp h
                obtain ⟨later, found', rfl⟩ := Option.map_eq_some_iff.mp mapped
                rw [List.flatMap_cons, ih found', Element.text, opens, closing.character _ _ ended]
                simp
              · obtain ⟨later, found', rfl⟩ := Option.map_eq_some_iff.mp h
                rw [List.flatMap_cons, ih found', Element.text]
                rfl

theorem rules_closing : rules.Closing where
  block _ _ h := tripleQuoteEnd_text (Option.filter_eq_some_iff.mp h).1
  string _ _ h := unescapedEnd_text (Option.filter_eq_some_iff.mp h).1
  character _ _ h := unescapedEnd_text (Option.filter_eq_some_iff.mp h).1

/-- The elements of a Java source are the source. -/
theorem elements_text {s : Str} {found : List Element} (h : elements s = some found) :
    found.flatMap Element.text = s :=
  elementsBy_text rules_closing h

end Java
