import ClaimCI.Python.JsonAlphabet
import ClaimCI.Python.JsonCanonical

/-!
# Surrogates in encoded values

An ASCII encoder writes a pair of surrogates as it writes the character the pair stands for: the
text of a value determines the value with such pairs joined, and nothing more.
-/

namespace Python

theorem joinSurrogatePair_val {a b : CodePoint} (high : isHighSurrogate a.val = true)
    (low : isLowSurrogate b.val = true) :
    (joinSurrogatePair a.val b.val).val = 0x10000 + (a.val - 0xD800) * 0x400 + (b.val - 0xDC00) := by
  simp only [isHighSurrogate, isLowSurrogate, Bool.and_eq_true, decide_eq_true_eq] at high low
  exact Nat.mod_eq_of_lt (by omega)

/-- Characters behind the ASCII ones are escaped by their number. -/
theorem escapeChar_number {c : CodePoint} (large : 0x7E < c.val) (small : c.val < 0x10000) :
    escapeChar true c = unicodeEscape c.val := by
  have quote : ¬(c = QUOTE ∨ c = BACKSLASH) := by
    rintro (rfl | rfl) <;> exact absurd large (by decide)
  rw [escapeChar, if_neg quote, if_neg (by omega), if_neg (by omega), if_neg (by omega),
    if_neg (by omega), if_neg (by omega), if_neg (by omega), if_neg (by simpa using large),
    if_pos small]

theorem escapeChar_pair {a b : CodePoint} (high : isHighSurrogate a.val = true)
    (low : isLowSurrogate b.val = true) :
    escapeChar true (joinSurrogatePair a.val b.val) = escapeChar true a ++ escapeChar true b := by
  have value := joinSurrogatePair_val high low
  simp only [isHighSurrogate, isLowSurrogate, Bool.and_eq_true, decide_eq_true_eq] at high low
  have quote : ¬(joinSurrogatePair a.val b.val = QUOTE ∨ joinSurrogatePair a.val b.val = BACKSLASH) := by
    rintro (same | same) <;>
      · rw [same] at value
        have : QUOTE.val < 0x10000 ∧ BACKSLASH.val < 0x10000 := by decide
        omega
  have offset : (joinSurrogatePair a.val b.val).val - 0x10000 =
      (b.val - 0xDC00) + (a.val - 0xD800) * 0x400 := by omega
  have first : 0xD800 + ((joinSurrogatePair a.val b.val).val - 0x10000) / 0x400 = a.val := by
    rw [offset, Nat.add_mul_div_right _ _ (by norm_num), Nat.div_eq_of_lt (by omega)]
    omega
  have second : 0xDC00 + ((joinSurrogatePair a.val b.val).val - 0x10000) % 0x400 = b.val := by
    rw [offset, Nat.add_mul_mod_self_right, Nat.mod_eq_of_lt (by omega)]
    omega
  rw [escapeChar_number (c := a) (by omega) (by omega),
    escapeChar_number (c := b) (by omega) (by omega), escapeChar,
    if_neg quote, if_neg (by omega), if_neg (by omega), if_neg (by omega), if_neg (by omega),
    if_neg (by omega), if_neg (by omega), if_neg (by simp; omega), if_neg (by omega), first, second]

/-- The text of a string does not tell a pair of surrogates from the character. -/
theorem quoteString_joinSurrogates (s : Str) :
    quoteString true (joinSurrogates s) = quoteString true s := by
  have text : (joinSurrogates s).flatMap (escapeChar true) = s.flatMap (escapeChar true) := by
    induction s using joinSurrogates.induct with
    | case1 => rfl
    | case2 c => rfl
    | case3 a b rest pair ih =>
      rw [joinSurrogates, if_pos pair, List.flatMap_cons, List.flatMap_cons, List.flatMap_cons, ih,
        escapeChar_pair pair.1 pair.2, List.append_assoc]
    | case4 a b rest other ih =>
      rw [joinSurrogates, if_neg other, List.flatMap_cons, List.flatMap_cons, ih]
  rw [quoteString, quoteString, text]

/-- What is left at the front of a joined string. -/
theorem head_joinSurrogates (b : CodePoint) (rest : Str) :
    ∃ c tail, joinSurrogates (b :: rest) = c :: tail ∧ (c = b ∨ 0x10000 ≤ c.val) := by
  cases rest with
  | nil => exact ⟨b, [], rfl, .inl rfl⟩
  | cons d rest =>
    rw [joinSurrogates]
    split
    next pair =>
      refine ⟨_, _, rfl, .inr ?_⟩
      rw [joinSurrogatePair_val pair.1 pair.2]
      omega
    · exact ⟨b, _, rfl, .inl rfl⟩

theorem joinSurrogates_cons {c : CodePoint} (other : isHighSurrogate c.val = false) (s : Str) :
    joinSurrogates (c :: s) = c :: joinSurrogates s := by
  cases s with
  | nil => rfl
  | cons d s => rw [joinSurrogates, if_neg (by simp [other])]

theorem joinSurrogates_joined (s : Str) : joinSurrogates (joinSurrogates s) = joinSurrogates s := by
  induction s using joinSurrogates.induct with
  | case1 => rfl
  | case2 c => rfl
  | case3 a b rest pair ih =>
    have large : isHighSurrogate (joinSurrogatePair a.val b.val).val = false := by
      rw [joinSurrogatePair_val pair.1 pair.2]
      simp [isHighSurrogate]
      omega
    rw [joinSurrogates, if_pos pair, joinSurrogates_cons large, ih]
  | case4 a b rest other ih =>
    rw [joinSurrogates, if_neg other]
    obtain ⟨c, tail, head, origin⟩ := head_joinSurrogates b rest
    rw [head] at ih ⊢
    rw [joinSurrogates, if_neg, ih]
    rcases origin with rfl | large
    · exact other
    · simp [isLowSurrogate]
      omega

mutual

/-- The value with every pair of surrogates in its strings joined; keys are left alone. -/
def Json.joined : Json → Json
  | .str s => .str (joinSurrogates s)
  | .array items => .array (joinedItems items)
  | .object members => .object (joinedMembers members)
  | v => v

def Json.joinedItems : List Json → List Json
  | [] => []
  | item :: rest => item.joined :: joinedItems rest

def Json.joinedMembers : Members → Members
  | [] => []
  | (key, value) :: rest => (key, value.joined) :: joinedMembers rest

end

theorem Json.joinedItems_eq (items : List Json) : joinedItems items = items.map Json.joined := by
  induction items with
  | nil => rfl
  | cons item items ih => rw [joinedItems, ih, List.map_cons]

theorem Json.joinedMembers_eq (members : Members) :
    joinedMembers members = members.map fun member => (member.1, member.2.joined) := by
  induction members with
  | nil => rfl
  | cons member members ih => rw [joinedMembers, ih, List.map_cons]

mutual

theorem Json.render_joined (style : DumpStyle) (ascii : style.ensureAscii = true) :
    ∀ (v : Json) (level : Nat), v.joined.render style level = v.render style level
  | .str s, level => by
    simp only [Json.joined, Json.render, ascii, quoteString_joinSurrogates]
  | .array [], level => rfl
  | .array (item :: items), level => by
    have inner := renderItems_joined style ascii (item :: items) (level + 1)
    rw [Json.joinedItems] at inner
    simp only [Json.joined, Json.joinedItems, Json.render, inner]
  | .object [], level => rfl
  | .object ((key, value) :: members), level => by
    have inner := renderMembers_joined style ascii ((key, value) :: members) (level + 1)
    rw [Json.joinedMembers] at inner
    simp only [Json.joined, Json.joinedMembers, Json.render, inner]
  | .null, _ | .bool _, _ | .int _, _ | .float _, _ | .infinity _, _ | .nan, _ => rfl

private theorem renderItems_joined (style : DumpStyle) (ascii : style.ensureAscii = true) :
    ∀ (items : List Json) (level : Nat),
      Json.renderItems style level (Json.joinedItems items) = Json.renderItems style level items
  | [], _ => rfl
  | [item], level => item.render_joined style ascii level
  | item :: next :: rest, level => by
    have inner := renderItems_joined style ascii (next :: rest) level
    rw [Json.joinedItems] at inner
    simp only [Json.joinedItems, Json.renderItems, item.render_joined style ascii level, inner]

private theorem renderMembers_joined (style : DumpStyle) (ascii : style.ensureAscii = true) :
    ∀ (members : Members) (level : Nat),
      Json.renderMembers style level (Json.joinedMembers members) =
        Json.renderMembers style level members
  | [], _ => rfl
  | [(key, value)], level => by
    simp only [Json.joinedMembers, Json.renderMembers, value.render_joined style ascii level]
  | (key, value) :: (next, other) :: rest, level => by
    have inner := renderMembers_joined style ascii ((next, other) :: rest) level
    rw [Json.joinedMembers] at inner
    simp only [Json.joinedMembers, Json.renderMembers, value.render_joined style ascii level, inner]

end

mutual

theorem Json.dumpable_joined : ∀ v : Json, v.joined.dumpable = v.dumpable
  | .array items => by simp only [Json.joined, Json.dumpable, itemsDumpable_joined items]
  | .object members => by simp only [Json.joined, Json.dumpable, membersDumpable_joined members]
  | .null | .bool _ | .int _ | .float _ | .infinity _ | .nan | .str _ => rfl

private theorem itemsDumpable_joined :
    ∀ items : List Json, Json.itemsDumpable (Json.joinedItems items) = Json.itemsDumpable items
  | [] => rfl
  | item :: rest => by
    simp only [Json.joinedItems, Json.itemsDumpable, item.dumpable_joined, itemsDumpable_joined rest]

private theorem membersDumpable_joined : ∀ members : Members,
    Json.membersDumpable (Json.joinedMembers members) = Json.membersDumpable members
  | [] => rfl
  | (key, value) :: rest => by
    simp only [Json.joinedMembers, Json.membersDumpable, value.dumpable_joined,
      membersDumpable_joined rest]

end

mutual

theorem Json.sorted_joined : ∀ v : Json, v.joined.sorted = v.sorted.joined
  | .array items => by simp only [Json.joined, Json.sorted, sortedItems_joined items]
  | .object members => by
    simp only [Json.joined, Json.sorted]
    rw [sortedMembers_joined members, Json.joinedMembers_eq, Json.joinedMembers_eq,
      List.map_insertionSort (r := fun a b : Str × Json => strLe a.1 b.1 = true)
        (s := fun a b : Str × Json => strLe a.1 b.1 = true)]
    exact fun _ _ _ _ => Iff.rfl
  | .null | .bool _ | .int _ | .float _ | .infinity _ | .nan | .str _ => rfl

private theorem sortedItems_joined : ∀ items : List Json,
    Json.sortedItems (Json.joinedItems items) = Json.joinedItems (Json.sortedItems items)
  | [] => rfl
  | item :: rest => by
    simp only [Json.joinedItems, Json.sortedItems, item.sorted_joined, sortedItems_joined rest]

private theorem sortedMembers_joined : ∀ members : Members,
    Json.sortedMembers (Json.joinedMembers members) =
      Json.joinedMembers (Json.sortedMembers members)
  | [] => rfl
  | (key, value) :: rest => by
    simp only [Json.joinedMembers, Json.sortedMembers, value.sorted_joined, sortedMembers_joined rest]

end

/-- A value and its joined form have one text. -/
theorem dumps_joined (style : DumpStyle) (ascii : style.ensureAscii = true) (v : Json) :
    dumps style v.joined = dumps style v := by
  rw [dumps, dumps, v.dumpable_joined, v.sorted_joined]
  congr 2
  split
  · exact v.sorted.render_joined style ascii 0
  · exact v.render_joined style ascii 0

/-! ### ASCII output -/

def Ascii (s : Str) : Prop := ∀ c ∈ s, c.val < 128

theorem Ascii.nil : Ascii [] := by
  intro c member
  cases member

theorem Ascii.cons {c : CodePoint} {s : Str} (h : c.val < 128) (rest : Ascii s) : Ascii (c :: s) :=
  List.forall_mem_cons.mpr ⟨h, rest⟩

theorem Ascii.append {s t : Str} (left : Ascii s) (right : Ascii t) : Ascii (s ++ t) :=
  List.forall_mem_append.mpr ⟨left, right⟩

/-- The encoder escapes everything else, and its separators are ASCII. -/
structure DumpStyle.Ascii (style : DumpStyle) : Prop where
  escapes : style.ensureAscii = true
  comma : Python.Ascii style.afterComma
  colon : Python.Ascii style.afterColon

theorem newline_ascii (style : DumpStyle) (level : Nat) : Ascii (newline style level) := by
  rw [newline]
  split
  · exact .nil
  · refine .cons (by decide) ?_
    intro c member
    rw [List.eq_of_mem_replicate member]
    decide

theorem DumpStyle.Ascii.writes {style : DumpStyle} (ascii : style.Ascii) :
    style.Writes fun c => c.val < 128 where
  printable _ h := h.ascii
  escapes c := by
    rw [ascii.escapes]
    exact fun d member => (escapeChar_printable c d member).ascii
  comma := ascii.comma
  colon := ascii.colon
  newline := newline_ascii style

theorem dumps_ascii {style : DumpStyle} (ascii : style.Ascii) {v : Json} {text : Str}
    (h : dumps style v = some text) : Ascii text :=
  dumps_forall ascii.writes h

end Python
