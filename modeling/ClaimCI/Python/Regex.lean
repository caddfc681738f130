import ClaimCI.Python.Numeral

/-!
# Regular expressions

The patterns of `re` over texts and their backtracking matcher: the alternatives are tried in their
order, repetitions are greedy, and the first way to match the whole pattern is taken.
-/

namespace Python

/-- What patterns look up in the Unicode database. -/
structure CharTables where
  /-- The character is a decimal digit (`\d`), of this value. -/
  decimal : CodePoint → Option Digit
  /-- `character.isalnum()`. -/
  isAlphanumeric : CodePoint → Bool
  /-- `character.isdigit()`. -/
  isDigit : CodePoint → Bool

def UNDERSCORE : CodePoint := 0x5F

/-- `\w`. -/
def CharTables.isWord (chars : CharTables) (c : CodePoint) : Bool :=
  chars.isAlphanumeric c || c == UNDERSCORE

/-- `\d`. -/
def CharTables.isDecimal (chars : CharTables) (c : CodePoint) : Bool := (chars.decimal c).isSome

/-- A letter `[A-Za-z]`. -/
def isAsciiLetter (c : CodePoint) : Bool :=
  (0x41 ≤ c.val && c.val ≤ 0x5A) || (0x61 ≤ c.val && c.val ≤ 0x7A)

/-- `[A-Za-z]` under `IGNORECASE`: four further characters have an ASCII letter as their other case. -/
def isLetterAnyCase (c : CodePoint) : Bool :=
  isAsciiLetter c || c == 0x130 || c == 0x131 || c == 0x17F || c == 0x212A

def isAsciiDigit (c : CodePoint) : Bool := 0x30 ≤ c.val && c.val ≤ 0x39

/-- The character `c` matches a lowercase letter, or another character, under `IGNORECASE`. -/
def matchesAnyCase (wanted c : CodePoint) : Bool :=
  c == wanted ||
    (0x61 ≤ wanted.val && wanted.val ≤ 0x7A &&
      (c.val + 0x20 == wanted.val ||
        (wanted.val == 0x69 && (c == 0x130 || c == 0x131)) ||
        (wanted.val == 0x73 && c == 0x17F) || (wanted.val == 0x6B && c == 0x212A)))

/-! ### Patterns -/

inductive Regex where
  | empty
  | char (accepts : CodePoint → Bool)
  | seq (first second : Regex)
  | alt (first second : Regex)
  /-- Greedy repetition. -/
  | repeated (body : Regex) (least : Nat) (most : Option Nat)
  | group (name : String) (body : Regex)
  /-- `\b`. -/
  | boundary
  /-- `^`. -/
  | start
  /-- `^` under `MULTILINE`. -/
  | lineStart
  /-- `$`: the end, or before a final LF. -/
  | finish
  /-- `(?=body)`. -/
  | ahead (body : Regex)
  /-- `(?!body)`. -/
  | notAhead (body : Regex)

namespace Regex

def optional (body : Regex) : Regex := .repeated body 0 (some 1)
def star (body : Regex) : Regex := .repeated body 0 none
def plus (body : Regex) : Regex := .repeated body 1 none

/-- Patterns one after another. -/
def sequence (patterns : List Regex) : Regex := patterns.foldr .seq .empty

/-- Alternatives in their order. -/
def choice : List Regex → Regex
  | [] => .empty
  | [pattern] => pattern
  | pattern :: patterns => .alt pattern (choice patterns)

/-- A literal. -/
def exactly (text : String) : Regex := sequence ((lit text).map fun wanted => .char (· == wanted))

/-- A literal in lower case under `IGNORECASE`. -/
def caseless (text : String) : Regex :=
  sequence ((lit text).map fun wanted => .char (matchesAnyCase wanted))

/-- `\s`. -/
def space : Regex := .char isSpace
def spaces : Regex := star space
def someSpace : Regex := plus space

/-- Literals between which `\s+` stands, under `IGNORECASE`. -/
def words (texts : List String) : Regex :=
  match texts.map caseless with
  | [] => .empty
  | first :: rest => sequence (first :: rest.flatMap fun word => [someSpace, word])

end Regex

/-! ### Matching -/

/-- A place in a text: how many characters are before it, the last of them, and what follows. -/
structure Cursor where
  index : Nat
  before : Option CodePoint
  rest : Str

/-- The groups that have matched, the last one first. -/
abbrev Captures := List (String × Str)

/-- Where a match ends, and its groups. -/
structure MatchEnd where
  stop : Cursor
  groups : Captures

abbrev Continuation := Cursor → Captures → Option MatchEnd

/-- Try an iteration, then the continuation; past the least number an iteration has to advance. -/
def iterate (body : Cursor → Captures → Continuation → Option MatchEnd) (least : Nat)
    (most : Option Nat) : Nat → Nat → Cursor → Captures → Continuation → Option MatchEnd
  | 0, done, here, groups, next => if least ≤ done then next here groups else none
  | fuel + 1, done, here, groups, next =>
    let further :=
      if most.all (done < ·) then
        body here groups fun there groups =>
          if there.index = here.index ∧ least ≤ done then none
          else iterate body least most fuel (done + 1) there groups next
      else none
    match further with
    | some found => some found
    | none => if least ≤ done then next here groups else none

/-- A word begins or ends here. -/
def Cursor.isBoundary (chars : CharTables) (here : Cursor) : Bool :=
  here.before.any chars.isWord != here.rest.head?.any chars.isWord

/-- The first way to match a pattern here such that the continuation succeeds. -/
def Regex.run (chars : CharTables) :
    Regex → Cursor → Captures → Continuation → Option MatchEnd
  | .empty, here, groups, next => next here groups
  | .char accepts, here, groups, next =>
    match here.rest with
    | [] => none
    | c :: rest => if accepts c then next ⟨here.index + 1, some c, rest⟩ groups else none
  | .seq first second, here, groups, next =>
    first.run chars here groups fun there groups => second.run chars there groups next
  | .alt first second, here, groups, next =>
    -- the first alternative that leads to a match of the whole is taken
    match first.run chars here groups next with
    | some found => some found
    | none => second.run chars here groups next
  | .repeated body least most, here, groups, next =>
    iterate (body.run chars) least most (here.rest.length + least + 1) 0 here groups next
  -- an iteration reads at most what is left, so this many suffice
  | .group name body, here, groups, next =>
    body.run chars here groups fun there groups =>
      next there ((name, here.rest.take (there.index - here.index)) :: groups)
  | .boundary, here, groups, next => if here.isBoundary chars then next here groups else none
  | .start, here, groups, next => if here.before = none then next here groups else none
  | .lineStart, here, groups, next =>
    if here.before = none ∨ here.before = some LF then next here groups else none
  | .finish, here, groups, next =>
    if here.rest = [] ∨ here.rest = [LF] then next here groups else none
  | .ahead body, here, groups, next =>
    match body.run chars here groups fun there groups => some ⟨there, groups⟩ with
    | some found => next here found.groups
    | none => none
  | .notAhead body, here, groups, next =>
    match body.run chars here groups fun there groups => some ⟨there, groups⟩ with
    | some _ => none
    | none => next here groups

/-- A match: where it starts, its text, where it ends, and its groups. -/
structure Match where
  start : Nat
  text : Str
  stop : Nat
  groups : Captures

/-- `match.group(name)`, of a group that took part. -/
def Match.group (found : Match) (name : String) : Option Str := found.groups.lookup name

/-- The match of a pattern that starts here. -/
def Regex.matchHere (chars : CharTables) (pattern : Regex) (here : Cursor) :
    Option (Match × Cursor) :=
  (pattern.run chars here [] fun there groups => some ⟨there, groups⟩).map fun found =>
    (⟨here.index, here.rest.take (found.stop.index - here.index), found.stop.index, found.groups⟩,
      found.stop)

/-- The first match at or after a place. -/
def Regex.searchFrom (chars : CharTables) (pattern : Regex) :
    Nat → Option CodePoint → Str → Option (Match × Cursor)
  | index, before, [] => pattern.matchHere chars ⟨index, before, []⟩
  | index, before, c :: rest =>
    match pattern.matchHere chars ⟨index, before, c :: rest⟩ with
    | some found => some found
    | none => pattern.searchFrom chars (index + 1) (some c) rest

/-- `pattern.search(text)`. -/
def Regex.search (chars : CharTables) (pattern : Regex) (text : Str) : Option Match :=
  (pattern.searchFrom chars 0 none text).map Prod.fst

/-- The matches from a place on, of a pattern that does not match an empty text. -/
def Regex.matchesFrom (chars : CharTables) (pattern : Regex) : Nat → Cursor → List Match
  | 0, _ => []
  | fuel + 1, here =>
    match pattern.searchFrom chars here.index here.before here.rest with
    | none => []
    | some (found, there) => found :: pattern.matchesFrom chars fuel there

/-- `pattern.finditer(text)`, of a pattern that does not match an empty text. -/
def Regex.findAll (chars : CharTables) (pattern : Regex) (text : Str) : List Match :=
  pattern.matchesFrom chars (text.length + 1) ⟨0, none, text⟩

/-- `pattern.fullmatch(text)`. -/
def Regex.fullmatch (chars : CharTables) (pattern : Regex) (text : Str) : Option Match :=
  (pattern.run chars ⟨0, none, text⟩ [] fun there groups =>
    if there.rest = [] then some ⟨there, groups⟩ else none).map fun found =>
      ⟨0, text, found.stop.index, found.groups⟩

/-- `re.sub(r"\s+", " ", text)`. -/
def collapseSpaces : Str → Str
  | [] => []
  | [c] => if isSpace c then [0x20] else [c]
  | c :: d :: rest =>
    if isSpace c then
      if isSpace d then collapseSpaces (d :: rest) else 0x20 :: collapseSpaces (d :: rest)
    else c :: collapseSpaces (d :: rest)

end Python
