import ClaimCI.Python.Binary64

/-!
# JSON

JSON values as the standard decoder builds them, the decoder itself, and the encoder. Decoding is
a scan with an explicit recursion bound that the length of the text always satisfies.
-/

namespace Python

/-- A decoded JSON value. The decoder also produces infinite floats and, unless a hook forbids the
token, NaN. The members of an object are in insertion order. -/
inductive Json where
  | null
  | bool (b : Bool)
  | int (n : Int)
  | float (x : Binary64)
  | infinity (negative : Bool)
  | nan
  | str (s : Str)
  | array (items : List Json)
  | object (members : List (Str × Json))

abbrev Members := List (Str × Json)

instance : Inhabited Json := ⟨.null⟩

def QUOTE : CodePoint := 0x22
def BACKSLASH : CodePoint := 0x5C
def LOWER_U : CodePoint := 0x75
def COMMA : CodePoint := 0x2C
def COLON : CodePoint := 0x3A
def SPACE : CodePoint := 0x20
def LEFT_BRACKET : CodePoint := 0x5B
def RIGHT_BRACKET : CodePoint := 0x5D
def LEFT_BRACE : CodePoint := 0x7B
def RIGHT_BRACE : CodePoint := 0x7D
def BYTE_ORDER_MARK : CodePoint := 0xFEFF

/-- The first value stored under a key. -/
def lookupKey {β : Type} (key : Str) : List (Str × β) → Option β
  | [] => none
  | (k, v) :: rest => if k = key then some v else lookupKey key rest

/-- `dict(pairs)`: a repeated key keeps its first place and its last value. -/
def setKey {β : Type} (key : Str) (value : β) : List (Str × β) → List (Str × β)
  | [] => [(key, value)]
  | (k, v) :: rest => if k = key then (key, value) :: rest else (k, v) :: setKey key value rest

def dictOf {β : Type} (pairs : List (Str × β)) : List (Str × β) :=
  pairs.foldl (fun dict pair => setKey pair.1 pair.2 dict) []

/-! ### Decoding strings -/

def hexDigit (c : CodePoint) : Option Nat :=
  if 0x30 ≤ c.val ∧ c.val ≤ 0x39 then some (c.val - 0x30)
  else if 0x61 ≤ c.val ∧ c.val ≤ 0x66 then some (c.val - 0x61 + 10)
  else if 0x41 ≤ c.val ∧ c.val ≤ 0x46 then some (c.val - 0x41 + 10)
  else none

/-- The four hexadecimal digits of a `\u` escape. -/
def scanHex : Str → Option (Nat × Str)
  | a :: b :: c :: d :: rest =>
    match hexDigit a, hexDigit b, hexDigit c, hexDigit d with
    | some a, some b, some c, some d => some (((a * 16 + b) * 16 + c) * 16 + d, rest)
    | _, _, _, _ => none
  | _ => none

def isHighSurrogate (n : Nat) : Bool := 0xD800 ≤ n && n ≤ 0xDBFF

def isLowSurrogate (n : Nat) : Bool := 0xDC00 ≤ n && n ≤ 0xDFFF

def joinSurrogatePair (high low : Nat) : CodePoint :=
  codePoint (0x10000 + (high - 0xD800) * 0x400 + (low - 0xDC00))

/-- The low half of a surrogate pair, when it follows as a `\u` escape. -/
def scanLowSurrogate : Str → Option (Nat × Str)
  | b :: u :: rest =>
    if b = BACKSLASH ∧ u = LOWER_U then
      match scanHex rest with
      | some (n, rest) => if isLowSurrogate n then some (n, rest) else none
      | none => none
    else none
  | _ => none

/-- The characters a one-letter escape stands for. -/
def shortEscapes : List (CodePoint × CodePoint) :=
  [(QUOTE, QUOTE), (BACKSLASH, BACKSLASH), (0x2F, 0x2F), (0x62, 0x08), (0x66, 0x0C), (0x6E, 0x0A),
    (0x72, 0x0D), (0x74, 0x09)]

/-- What follows a backslash: one character and the rest of the text. -/
def scanEscape : Str → Option (CodePoint × Str)
  | [] => none
  | e :: rest =>
    if e = LOWER_U then
      match scanHex rest with
      | none => none
      | some (n, rest) =>
        if isHighSurrogate n then
          match scanLowSurrogate rest with
          | some (low, rest) => some (joinSurrogatePair n low, rest)
          | none => some (codePoint n, rest)
        else some (codePoint n, rest)
    else (shortEscapes.lookup e).map (·, rest)

/-- The characters of a string up to its closing quote. -/
def scanChars : Nat → Str → Option (Str × Str)
  | 0, _ => none
  | _ + 1, [] => none
  | fuel + 1, c :: rest =>
    if c = QUOTE then some ([], rest)
    else if c = BACKSLASH then
      match scanEscape rest with
      | none => none
      | some (d, rest) => (scanChars fuel rest).map fun r => (d :: r.1, r.2)
    else if c.val < 0x20 then none
    else (scanChars fuel rest).map fun r => (c :: r.1, r.2)

/-- The text after an opening quote. -/
def scanString (s : Str) : Option (Str × Str) := scanChars (s.length + 1) s

/-! ### Decoding values -/

/-- The whitespace of the JSON grammar. -/
def isJsonSpace (c : CodePoint) : Bool :=
  c == SPACE || c == 0x09 || c == LF || c == CR

def skipSpace (s : Str) : Str := s.dropWhile isJsonSpace

/-- Which hooks a caller of `json.loads` passes. -/
structure LoadOptions where
  /-- `parse_constant` raises for `NaN`, `Infinity` and `-Infinity`. -/
  rejectConstants : Bool
  /-- `object_pairs_hook` raises for a repeated key. -/
  rejectDuplicates : Bool
  deriving DecidableEq, Repr

/-- The largest number of digits an integer may be converted from or to text with. -/
def INT_MAX_STR_DIGITS : Nat := 4300

/-- The number a numeral denotes; `none` for an integer with too many digits. -/
def Numeral.toJson (n : Numeral) : Option Json :=
  if n.fraction = [] ∧ n.exponent = none then
    if INT_MAX_STR_DIGITS < n.whole.length then none
    else some (.int (if n.negative then -digitsValue n.whole else digitsValue n.whole))
  else
    match Binary64.ofDecimal n.toDecimal with
    | some x => some (.float x)
    | none => some (.infinity n.negative)

/-- `literal` removed from the front of the text. -/
def stripPrefix : Str → Str → Option Str
  | [], s => some s
  | _ :: _, [] => none
  | a :: literal, c :: s => if a = c then stripPrefix literal s else none

/-- A number at the front of the text. -/
def scanNumber (s : Str) : Option (Json × Str) :=
  match scanNumeral s with
  | none => none
  | some (n, rest) => n.toJson.map (·, rest)

def parseConstant (options : LoadOptions) (value : Json) (rest : Str) : Option (Json × Str) :=
  if options.rejectConstants then none else some (value, rest)

/-- The words of the grammar and of the decoder's extension of it, or else a number. -/
def scanWord (options : LoadOptions) (s : Str) : Option (Json × Str) :=
  if let some rest := stripPrefix (lit "null") s then some (.null, rest)
  else if let some rest := stripPrefix (lit "true") s then some (.bool true, rest)
  else if let some rest := stripPrefix (lit "false") s then some (.bool false, rest)
  else if let some rest := stripPrefix (lit "NaN") s then parseConstant options .nan rest
  else if let some rest := stripPrefix (lit "Infinity") s then
    parseConstant options (.infinity false) rest
  else if let some rest := stripPrefix (lit "-Infinity") s then
    parseConstant options (.infinity true) rest
  else scanNumber s

def buildObject (options : LoadOptions) (pairs : Members) : Option Json :=
  if options.rejectDuplicates then
    if (pairs.map Prod.fst).Nodup then some (.object pairs) else none
  else some (.object (dictOf pairs))

mutual

/-- One value at the front of the text, and what follows it. -/
def scanValue (options : LoadOptions) : Nat → Str → Option (Json × Str)
  | 0, _ => none
  | _ + 1, [] => none
  | fuel + 1, c :: rest =>
    if c = QUOTE then (scanString rest).map fun r => (.str r.1, r.2)
    else if c = LEFT_BRACE then
      match skipSpace rest with
      | [] => none
      | d :: after =>
        -- duplicate keys are judged when the object is complete
        if d = RIGHT_BRACE then (buildObject options []).map (·, after)
        else
          match scanMembers options fuel (d :: after) with
          | none => none
          | some (pairs, after) => (buildObject options pairs).map (·, after)
    else if c = LEFT_BRACKET then
      match skipSpace rest with
      | [] => none
      | d :: after =>
        if d = RIGHT_BRACKET then some (.array [], after)
        else (scanItems options fuel (d :: after)).map fun r => (.array r.1, r.2)
    else scanWord options (c :: rest)

/-- The items of a nonempty array, up to the closing bracket. -/
def scanItems (options : LoadOptions) : Nat → Str → Option (List Json × Str)
  | 0, _ => none
  | fuel + 1, s =>
    match scanValue options fuel s with
    | none => none
    | some (item, rest) =>
      match skipSpace rest with
      | [] => none
      | d :: after =>
        if d = RIGHT_BRACKET then some ([item], after)
        else if d = COMMA then
          (scanItems options fuel (skipSpace after)).map fun r => (item :: r.1, r.2)
        else none

/-- The members of a nonempty object, up to the closing brace. -/
def scanMembers (options : LoadOptions) : Nat → Str → Option (Members × Str)
  | 0, _ => none
  | _ + 1, [] => none
  | fuel + 1, q :: s =>
    if q ≠ QUOTE then none
    else
      match scanString s with
      | none => none
      | some (key, rest) =>
        match skipSpace rest with
        | [] => none
        | c :: after =>
          if c ≠ COLON then none
          else
            match scanValue options fuel (skipSpace after) with
            | none => none
            | some (value, rest) =>
              match skipSpace rest with
              | [] => none
              | d :: after =>
                if d = RIGHT_BRACE then some ([(key, value)], after)
                else if d = COMMA then
                  (scanMembers options fuel (skipSpace after)).map fun r =>
                    ((key, value) :: r.1, r.2)
                else none

end

/-- `json.loads(s, ...)`; `none` is a `ValueError` (among them `JSONDecodeError`). -/
def loads (options : LoadOptions) (s : Str) : Option Json :=
  if s.head? = some BYTE_ORDER_MARK then none
  else
    match scanValue options (2 * s.length + 2) (skipSpace s) with
    | none => none
    | some (value, rest) => if skipSpace rest = [] then some value else none

/-! ### Encoding -/

/-- Code point order, by which strings compare. -/
def strLe : Str → Str → Bool
  | [], _ => true
  | _ :: _, [] => false
  | a :: as, b :: bs => if a = b then strLe as bs else a < b

mutual

/-- The value with the members of every object sorted by key. -/
def Json.sorted : Json → Json
  | .array items => .array (sortedItems items)
  | .object members =>
    .object ((sortedMembers members).insertionSort fun a b => strLe a.1 b.1 = true)
  | value => value

def Json.sortedItems : List Json → List Json
  | [] => []
  | item :: rest => item.sorted :: sortedItems rest

def Json.sortedMembers : Members → Members
  | [] => []
  | (key, value) :: rest => (key, value.sorted) :: sortedMembers rest

end

/-- The arguments of `json.dumps`, which always come with `allow_nan=False`. -/
structure DumpStyle where
  ensureAscii : Bool
  indent : Option Nat
  /-- What follows a comma and a colon: a space unless `separators` or `indent` removes it. -/
  afterComma : Str
  afterColon : Str
  sortKeys : Bool

def hexChar (n : Nat) : CodePoint :=
  if n < 10 then codePoint (0x30 + n) else codePoint (0x61 + (n - 10))

def hexText (n : Nat) : Str :=
  [hexChar (n / 4096 % 16), hexChar (n / 256 % 16), hexChar (n / 16 % 16), hexChar (n % 16)]

def unicodeEscape (n : Nat) : Str := BACKSLASH :: LOWER_U :: hexText n

/-- One character inside a string. -/
def escapeChar (ensureAscii : Bool) (c : CodePoint) : Str :=
  if c = QUOTE ∨ c = BACKSLASH then [BACKSLASH, c]
  else if c.val = 0x08 then [BACKSLASH, 0x62]
  else if c.val = 0x09 then [BACKSLASH, 0x74]
  else if c.val = 0x0A then [BACKSLASH, 0x6E]
  else if c.val = 0x0C then [BACKSLASH, 0x66]
  else if c.val = 0x0D then [BACKSLASH, 0x72]
  else if c.val < 0x20 then unicodeEscape c.val
  else if ensureAscii = false ∨ c.val ≤ 0x7E then [c]
  else if c.val < 0x10000 then unicodeEscape c.val
  else
    unicodeEscape (0xD800 + (c.val - 0x10000) / 0x400) ++
      unicodeEscape (0xDC00 + (c.val - 0x10000) % 0x400)

def quoteString (ensureAscii : Bool) (s : Str) : Str :=
  QUOTE :: (s.flatMap (escapeChar ensureAscii) ++ [QUOTE])

def renderInt (n : Int) : Str := signText (n < 0) ++ renderDigits (decimalDigits n.natAbs)

/-- The line break and indentation at a nesting level; nothing without `indent`. -/
def newline (style : DumpStyle) (level : Nat) : Str :=
  match style.indent with
  | none => []
  | some width => LF :: List.replicate (width * level) SPACE

mutual

def Json.render (style : DumpStyle) (level : Nat) : Json → Str
  | .null => lit "null"
  | .bool b => if b then lit "true" else lit "false"
  | .int n => renderInt n
  | .float x => x.spelling.render
  | .infinity negative => if negative then lit "-Infinity" else lit "Infinity"
  | .nan => lit "NaN"
  | .str s => quoteString style.ensureAscii s
  | .array [] => [LEFT_BRACKET, RIGHT_BRACKET]
  | .array (item :: items) =>
    LEFT_BRACKET :: (newline style (level + 1) ++ renderItems style (level + 1) (item :: items) ++
      newline style level ++ [RIGHT_BRACKET])
  | .object [] => [LEFT_BRACE, RIGHT_BRACE]
  | .object (member :: members) =>
    LEFT_BRACE :: (newline style (level + 1) ++
      renderMembers style (level + 1) (member :: members) ++ newline style level ++ [RIGHT_BRACE])

def Json.renderItems (style : DumpStyle) (level : Nat) : List Json → Str
  | [] => []
  | [item] => item.render style level
  | item :: rest =>
    item.render style level ++ COMMA :: (style.afterComma ++ newline style level ++
      renderItems style level rest)

def Json.renderMembers (style : DumpStyle) (level : Nat) : Members → Str
  | [] => []
  | [(key, value)] =>
    quoteString style.ensureAscii key ++ COLON :: (style.afterColon ++ value.render style level)
  | (key, value) :: rest =>
    quoteString style.ensureAscii key ++ COLON :: (style.afterColon ++ (value.render style level ++
      COMMA :: (style.afterComma ++ newline style level ++ renderMembers style level rest)))

end

mutual

/-- The encoder raises `ValueError` for numbers that are not finite, and for integers too long to
be converted to text. -/
def Json.dumpable : Json → Bool
  | .int n => (decimalDigits n.natAbs).length ≤ INT_MAX_STR_DIGITS
  | .infinity _ => false
  | .nan => false
  | .array items => itemsDumpable items
  | .object members => membersDumpable members
  | _ => true

def Json.itemsDumpable : List Json → Bool
  | [] => true
  | item :: rest => item.dumpable && itemsDumpable rest

def Json.membersDumpable : Members → Bool
  | [] => true
  | (_, value) :: rest => value.dumpable && membersDumpable rest

end

/-- `json.dumps(value, ...)`; `none` is a `ValueError`. -/
def dumps (style : DumpStyle) (value : Json) : Option Str :=
  if value.dumpable then some ((if style.sortKeys then value.sorted else value).render style 0)
  else none

mutual

/-- The number of containers around the innermost part of the value. -/
def Json.depth : Json → Nat
  | .array items => itemsDepth items
  | .object members => membersDepth members
  | _ => 0

/-- The depth of a list of items, each one level below it. -/
def Json.itemsDepth : List Json → Nat
  | [] => 0
  | item :: rest => max (item.depth + 1) (itemsDepth rest)

def Json.membersDepth : Members → Nat
  | [] => 0
  | (_, value) :: rest => max (value.depth + 1) (membersDepth rest)

end

end Python
