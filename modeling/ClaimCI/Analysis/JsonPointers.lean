import ClaimCI.Analysis.Contracts
import ClaimCI.Python.Dictionary
import ClaimCI.Python.Escaping
import ClaimCI.Python.JsonCanonical

/-!
# JSON pointers

The scalar leaves of a decoded document under their pointers, and the walk along a pointer: it comes
from the document to the leaf the pointer was made for.
-/

open Python

namespace ClaimCI

def POINTER_SLASH : CodePoint := 0x2F
def TILDE : CodePoint := 0x7E

/-! ### Tokens -/

/-- `_encode_pointer_token`. -/
def encodePointerToken (token : Str) : Str :=
  replaceChar POINTER_SLASH "~1" (replaceChar TILDE "~0" token)

def invalidEscape : Error := contractError "JSON pointer contains an invalid escape"

/-- `_decode_pointer_token`. -/
def decodePointerToken : Str → Except Error Str
  | [] => .ok []
  | [c] => if c = TILDE then .error invalidEscape else .ok [c]
  | c :: d :: rest =>
    if c ≠ TILDE then (decodePointerToken (d :: rest)).map (c :: ·)
    else if d = 0x30 then (decodePointerToken rest).map (TILDE :: ·)
    else if d = 0x31 then (decodePointerToken rest).map (POINTER_SLASH :: ·)
    else .error invalidEscape

/-- `token.replace("~1", "/").replace("~0", "~")`, which refuses nothing. -/
def plainToken (token : Str) : Str :=
  replacePair TILDE 0x30 [TILDE] (replacePair TILDE 0x31 [POINTER_SLASH] token)

/-- The pointer of encoded tokens. -/
def pointerText (tokens : List Str) : Str := POINTER_SLASH :: [POINTER_SLASH].intercalate tokens

/-- The encoded tokens of a pointer. -/
def pointerTokens (pointer : Str) : List Str := split POINTER_SLASH (pointer.drop 1)

/-- `_pointer_terminal`. -/
def pointerTerminal (pointer : Str) : Str :=
  plainToken (((split POINTER_SLASH pointer).getLast?).getD [])

/-- `_dotted_from_pointer`. -/
def dottedFromPointer (pointer : Str) : Str :=
  [DOT].intercalate ((pointerTokens pointer).map plainToken)

/-! ### Leaves -/

mutual

/-- The scalars of a document under their encoded tokens, in the order of its members. -/
def tokenLeaves : Json → List (List Str × Json)
  | .array items => itemTokens 0 items
  | .object members => memberTokens members
  | scalar => [([], scalar)]

def itemTokens (index : Nat) : List Json → List (List Str × Json)
  | [] => []
  | item :: rest =>
    (tokenLeaves item).map (fun leaf => (natText index :: leaf.1, leaf.2)) ++
      itemTokens (index + 1) rest

def memberTokens : Members → List (List Str × Json)
  | [] => []
  | (key, value) :: rest =>
    (tokenLeaves value).map (fun leaf => (encodePointerToken key :: leaf.1, leaf.2)) ++
      memberTokens rest

end

/-- `_pointer_leaves`: the members of every object are visited in the order of their keys. -/
def pointerLeaves (value : Json) : List (Str × Json) :=
  (tokenLeaves value.sorted).map fun leaf => (pointerText leaf.1, leaf.2)

def isNested : Json → Bool
  | .array _ => true
  | .object _ => true
  | _ => false

/-! ### Resolution -/

/-- `int(token)` of a token that `_CANONICAL_ARRAY_INDEX` matches. -/
def canonicalIndex (token : Str) : Option Nat :=
  match scanWhole token with
  | some (digits, []) => some (digitsValue digits)
  | _ => none

/-- One token of `_resolve_json_pointer`. -/
def resolveToken (rt : Runtime) (token : Str) : Json → Except Error Json
  | .object members =>
    match lookupKey token members with
    | some value => .ok value
    | none => .error (contractError (lit "JSON pointer token " ++ rt.repr token ++ lit " is missing"))
  | .array items =>
    match canonicalIndex token with
    | none => .error (contractError
        "JSON pointer array indices must be canonical non-negative integers")
    | some index =>
      match items[index]? with
      | some item => .ok item
      | none => .error (contractError "JSON pointer array index is out of bounds")
  | _ => .error (contractError "JSON pointer traverses a scalar value")

/-- The loop of `_resolve_json_pointer` over encoded tokens. -/
def resolveTokens (rt : Runtime) : List Str → Json → Except Error Json
  | [], current => .ok current
  | encoded :: rest, current => do
    let token ← decodePointerToken encoded
    let next ← resolveToken rt token current
    resolveTokens rt rest next

/-- `_resolve_json_pointer`. -/
def resolveJsonPointer (rt : Runtime) (value : Json) (expression : Str) : Except Error Json :=
  if expression.head? = some POINTER_SLASH then resolveTokens rt (pointerTokens expression) value
  else .error (contractError "JSON pointer must start with '/'")

/-! ### Tokens are read back -/

theorem encodePointerToken_cons (c : CodePoint) (token : Str) :
    encodePointerToken (c :: token) =
      (if c = TILDE then lit "~0" else if c = POINTER_SLASH then lit "~1" else [c]) ++
        encodePointerToken token := by
  have one : replaceChar TILDE (lit "~0") (c :: token) =
      (if c = TILDE then lit "~0" else [c]) ++ replaceChar TILDE (lit "~0") token := rfl
  rw [encodePointerToken, one, replaceChar_append]
  congr 1
  by_cases tilde : c = TILDE
  · rw [if_pos tilde, if_pos tilde]
    decide
  · rw [if_neg tilde, if_neg tilde]
    exact List.append_nil _

theorem slash_notMem_encodePointerToken (token : Str) :
    POINTER_SLASH ∉ encodePointerToken token := by
  intro inside
  rcases mem_replaceChar inside with inside | ⟨-, other⟩
  · exact absurd inside (by decide)
  · exact other rfl

/-- No token is cut off in the middle of an escape. -/
theorem decodePointerToken_encode (token : Str) :
    decodePointerToken (encodePointerToken token) = .ok token := by
  induction token with
  | nil => rfl
  | cons c token ih =>
    rw [encodePointerToken_cons]
    by_cases tilde : c = TILDE
    · rw [if_pos tilde, tilde]
      change decodePointerToken (TILDE :: 0x30 :: encodePointerToken token) = _
      rw [decodePointerToken, if_neg (not_not.mpr rfl), if_pos rfl, ih]
      rfl
    · rw [if_neg tilde]
      by_cases slash : c = POINTER_SLASH
      · rw [if_pos slash, slash]
        change decodePointerToken (TILDE :: 0x31 :: encodePointerToken token) = _
        rw [decodePointerToken, if_neg (not_not.mpr rfl), if_neg (by decide), if_pos rfl, ih]
        rfl
      · rw [if_neg slash, List.singleton_append]
        cases encoded : encodePointerToken token with
        | nil =>
          rw [encoded] at ih
          rw [decodePointerToken, if_neg tilde, ← Except.ok.inj ih]
        | cons d rest =>
          rw [encoded] at ih
          rw [decodePointerToken, if_pos tilde, ih]
          rfl

theorem canonicalIndex_natText (index : Nat) : canonicalIndex (natText index) = some index := by
  have spans := spanDigits_render (decimalDigits index) [] (by simp [NoDigit])
  rw [List.append_nil] at spans
  have value := digitsValue_decimalDigits index
  have leading := decimalDigits_no_leading_zero index
  rw [canonicalIndex, natText, scanWhole, spans]
  cases digits : decimalDigits index with
  | nil => exact absurd digits (decimalDigits_ne_nil index)
  | cons d ds =>
    rw [digits] at value leading
    by_cases zero : d = 0
    · -- a leading zero is the only digit
      have alone : d :: ds = [0] := leading (congrArg some zero)
      obtain ⟨-, rfl⟩ := List.cons.inj alone
      subst zero
      simp only [if_true]
      exact congrArg some value
    · simp only [if_neg zero]
      exact congrArg some value

/-! ### Leaves are found under their pointers -/

theorem mem_memberTokens {members : Members} {leaf : List Str × Json} :
    leaf ∈ memberTokens members ↔ ∃ member ∈ members, ∃ below ∈ tokenLeaves member.2,
      leaf = (encodePointerToken member.1 :: below.1, below.2) := by
  induction members with
  | nil => simp [memberTokens]
  | cons member members ih =>
    obtain ⟨key, value⟩ := member
    simp only [memberTokens, List.mem_append, List.mem_map, ih, List.mem_cons, exists_eq_or_imp,
      eq_comm]

theorem mem_itemTokens {items : List Json} {start : Nat} {leaf : List Str × Json} :
    leaf ∈ itemTokens start items ↔ ∃ index item, items[index]? = some item ∧
      ∃ below ∈ tokenLeaves item, leaf = (natText (start + index) :: below.1, below.2) := by
  induction items generalizing start with
  | nil => simp [itemTokens]
  | cons item items ih =>
    simp only [itemTokens, List.mem_append, List.mem_map, ih]
    constructor
    · rintro (⟨below, inside, rfl⟩ | ⟨index, other, found, below, inside, rfl⟩)
      · exact ⟨0, item, rfl, below, inside, rfl⟩
      · refine ⟨index + 1, other, found, below, inside, ?_⟩
        rw [Nat.add_right_comm, Nat.add_assoc]
    · rintro ⟨index, other, found, below, inside, rfl⟩
      cases index with
      | zero =>
        obtain rfl := Option.some.inj found
        exact .inl ⟨below, inside, rfl⟩
      | succ index =>
        refine .inr ⟨index, other, found, below, inside, ?_⟩
        rw [Nat.add_right_comm, Nat.add_assoc]

theorem sortedItems_getElem? (items : List Json) (index : Nat) :
    (Json.sortedItems items)[index]? = items[index]?.map Json.sorted := by
  induction items generalizing index with
  | nil => rfl
  | cons item items ih =>
    cases index with
    | zero => rfl
    | succ index => exact ih index

theorem mem_sortedMembers {members : Members} {member : Str × Json} :
    member ∈ Json.sortedMembers members ↔ ∃ value, (member.1, value) ∈ members ∧
      member.2 = value.sorted := by
  induction members with
  | nil => simp [Json.sortedMembers]
  | cons first members ih =>
    obtain ⟨key, value⟩ := first
    obtain ⟨name, sorted⟩ := member
    simp only [Json.sortedMembers, List.mem_cons, ih, Prod.mk.injEq]
    constructor
    · rintro (⟨rfl, rfl⟩ | ⟨other, inside, rfl⟩)
      · exact ⟨value, .inl ⟨rfl, rfl⟩, rfl⟩
      · exact ⟨other, .inr inside, rfl⟩
    · rintro ⟨other, ⟨rfl, rfl⟩ | inside, rfl⟩
      · exact .inl ⟨rfl, rfl⟩
      · exact .inr ⟨other, inside, rfl⟩

theorem tokens_ne_nil {value : Json} (container : isNested value = true)
    {leaf : List Str × Json} (inside : leaf ∈ tokenLeaves value.sorted) : leaf.1 ≠ [] := by
  cases value with
  | array items =>
    rw [Json.sorted, tokenLeaves, mem_itemTokens] at inside
    obtain ⟨index, item, -, below, -, rfl⟩ := inside
    exact List.cons_ne_nil _ _
  | object members =>
    rw [Json.sorted, tokenLeaves, mem_memberTokens] at inside
    obtain ⟨member, -, below, -, rfl⟩ := inside
    exact List.cons_ne_nil _ _
  | null | bool | int | float | infinity | nan | str => cases container

theorem natText_plain (index : Nat) : ∀ c ∈ natText index, c ≠ TILDE ∧ c ≠ POINTER_SLASH := by
  have digits : ∀ d : Digit, digitChar d ≠ TILDE ∧ digitChar d ≠ POINTER_SLASH := by decide
  intro c inside
  obtain ⟨d, -, rfl⟩ := List.mem_map.mp inside
  exact digits d

mutual

theorem slash_notMem_tokens : ∀ value : Json, ∀ leaf ∈ tokenLeaves value, ∀ token ∈ leaf.1,
    POINTER_SLASH ∉ token
  | .array items, leaf, inside => by
    rw [tokenLeaves] at inside
    exact slash_notMem_items 0 items leaf inside
  | .object members, leaf, inside => by
    rw [tokenLeaves] at inside
    exact slash_notMem_members members leaf inside
  | .null, leaf, inside | .bool _, leaf, inside | .int _, leaf, inside | .float _, leaf, inside
  | .infinity _, leaf, inside | .nan, leaf, inside | .str _, leaf, inside => by
    obtain rfl := List.mem_singleton.mp inside
    exact List.forall_mem_nil _

theorem slash_notMem_items : ∀ (index : Nat) (items : List Json), ∀ leaf ∈ itemTokens index items,
    ∀ token ∈ leaf.1, POINTER_SLASH ∉ token
  | _, [], _, inside => absurd inside List.not_mem_nil
  | index, item :: items, leaf, inside => by
    rw [itemTokens] at inside
    rcases List.mem_append.mp inside with inside | inside
    · obtain ⟨below, member, rfl⟩ := List.mem_map.mp inside
      refine List.forall_mem_cons.mpr ⟨?_, slash_notMem_tokens item below member⟩
      exact fun slash => (natText_plain index _ slash).2 rfl
    · exact slash_notMem_items (index + 1) items leaf inside

theorem slash_notMem_members : ∀ members : Members, ∀ leaf ∈ memberTokens members,
    ∀ token ∈ leaf.1, POINTER_SLASH ∉ token
  | [], _, inside => absurd inside List.not_mem_nil
  | (key, value) :: members, leaf, inside => by
    rw [memberTokens] at inside
    rcases List.mem_append.mp inside with inside | inside
    · obtain ⟨below, member, rfl⟩ := List.mem_map.mp inside
      exact List.forall_mem_cons.mpr
        ⟨slash_notMem_encodePointerToken key, slash_notMem_tokens value below member⟩
    · exact slash_notMem_members members leaf inside

end

section Resolution

variable (rt : Runtime)

theorem resolveTokens_key {members : Members} {key : Str} {value : Json} (tokens : List Str)
    (found : lookupKey key members = some value) :
    resolveTokens rt (encodePointerToken key :: tokens) (.object members) =
      resolveTokens rt tokens value := by
  simp only [resolveTokens, decodePointerToken_encode, resolveToken, found, bind, Except.bind]

theorem decodePointerToken_natText (index : Nat) :
    decodePointerToken (natText index) = .ok (natText index) := by
  have noTilde : TILDE ∉ natText index := fun inside => (natText_plain index _ inside).1 rfl
  have noSlash : POINTER_SLASH ∉ natText index := fun inside => (natText_plain index _ inside).2 rfl
  have plain : encodePointerToken (natText index) = natText index := by
    rw [encodePointerToken, replaceChar_of_not_mem _ noTilde, replaceChar_of_not_mem _ noSlash]
  rw [← plain, decodePointerToken_encode, plain]

theorem resolveTokens_index {items : List Json} {index : Nat} {item : Json} (tokens : List Str)
    (found : items[index]? = some item) :
    resolveTokens rt (natText index :: tokens) (.array items) = resolveTokens rt tokens item := by
  simp only [resolveTokens, decodePointerToken_natText, resolveToken, canonicalIndex_natText, found,
    bind, Except.bind]

mutual

/-- The tokens of a leaf lead to it. -/
theorem resolveTokens_leaf : ∀ value : Json, value.DistinctKeys →
    ∀ leaf ∈ tokenLeaves value.sorted, resolveTokens rt leaf.1 value = .ok leaf.2
  | .array items, distinct, leaf, inside => by
    rw [Json.sorted, tokenLeaves, mem_itemTokens] at inside
    obtain ⟨index, sorted, found, below, inside, rfl⟩ := inside
    rw [sortedItems_getElem?, Option.map_eq_some_iff] at found
    obtain ⟨item, found, rfl⟩ := found
    rw [Nat.zero_add, resolveTokens_index rt below.1 found]
    rw [Json.DistinctKeys] at distinct
    exact resolveTokens_item items distinct item (List.mem_of_getElem? found) below inside
  | .object members, distinct, leaf, inside => by
    rw [Json.sorted, tokenLeaves, mem_memberTokens] at inside
    obtain ⟨⟨key, sorted⟩, member, below, inside, rfl⟩ := inside
    rw [(List.perm_insertionSort _ _).mem_iff, mem_sortedMembers] at member
    obtain ⟨value, member, rfl⟩ := member
    rw [Json.DistinctKeys] at distinct
    have found := (lookupKey_eq_some_iff distinct.1).mpr member
    rw [resolveTokens_key rt below.1 found]
    exact resolveTokens_member members distinct.2 (key, value) member below inside
  | .null, _, leaf, inside | .bool _, _, leaf, inside | .int _, _, leaf, inside
  | .float _, _, leaf, inside | .infinity _, _, leaf, inside | .nan, _, leaf, inside
  | .str _, _, leaf, inside => by
    obtain rfl := List.mem_singleton.mp inside
    rfl

theorem resolveTokens_item : ∀ items : List Json, Json.itemsDistinctKeys items →
    ∀ item ∈ items, ∀ leaf ∈ tokenLeaves item.sorted, resolveTokens rt leaf.1 item = .ok leaf.2
  | [], _, _, inside => absurd inside List.not_mem_nil
  | first :: items, distinct, item, inside => by
    rw [Json.itemsDistinctKeys] at distinct
    rcases List.mem_cons.mp inside with same | inside
    · rw [same]
      exact resolveTokens_leaf first distinct.1
    · exact resolveTokens_item items distinct.2 item inside

theorem resolveTokens_member : ∀ members : Members, Json.membersDistinctKeys members →
    ∀ member ∈ members, ∀ leaf ∈ tokenLeaves member.2.sorted,
      resolveTokens rt leaf.1 member.2 = .ok leaf.2
  | [], _, _, inside => absurd inside List.not_mem_nil
  | (key, value) :: members, distinct, member, inside => by
    rw [Json.membersDistinctKeys] at distinct
    rcases List.mem_cons.mp inside with same | inside
    · rw [same]
      exact resolveTokens_leaf value distinct.1
    · exact resolveTokens_member members distinct.2 member inside

end

/-- The pointer of a leaf of an object or an array leads to it. The document that is a scalar has
one leaf, with the pointer of a member whose key is empty. -/
theorem resolveJsonPointer_leaf {value leaf : Json} {pointer : Str} (container : isNested value = true)
    (distinct : value.DistinctKeys) (inside : (pointer, leaf) ∈ pointerLeaves value) :
    resolveJsonPointer rt value pointer = .ok leaf := by
  obtain ⟨⟨tokens, scalar⟩, member, same⟩ := List.mem_map.mp inside
  obtain ⟨rfl, rfl⟩ := Prod.mk.inj same
  have nonempty : tokens ≠ [] := tokens_ne_nil container member
  change resolveJsonPointer rt value (pointerText tokens) = .ok scalar
  have starts : (pointerText tokens).head? = some POINTER_SLASH := rfl
  rw [resolveJsonPointer, if_pos starts, pointerTokens, pointerText, List.drop_one, List.tail_cons,
    split_intercalate nonempty (slash_notMem_tokens _ _ member)]
  exact resolveTokens_leaf rt value distinct _ member

end Resolution

end ClaimCI
