import ClaimCI.Python.JsonRoundTrip

/-!
# The characters of an encoding

Every character of a JSON text satisfies a predicate that holds of printable ASCII, of what the
encoder puts into strings and of the separators of its style.
-/

namespace Python

def IsPrintable (c : CodePoint) : Prop := 0x20 ≤ c.val ∧ c.val ≤ 0x7E

instance (c : CodePoint) : Decidable (IsPrintable c) := inferInstanceAs (Decidable (_ ∧ _))

theorem printable_of_all {s : Str} (h : (s.all fun c => decide (IsPrintable c)) = true) :
    ∀ c ∈ s, IsPrintable c := by
  simpa only [List.all_eq_true, decide_eq_true_eq] using h

theorem digitChar_printable (d : Digit) : IsPrintable (digitChar d) := by
  revert d
  decide

theorem renderDigits_printable (digits : List Digit) : ∀ c ∈ renderDigits digits, IsPrintable c := by
  intro c member
  obtain ⟨d, _, rfl⟩ := List.mem_map.mp member
  exact digitChar_printable d

theorem signText_printable (negative : Bool) : ∀ c ∈ signText negative, IsPrintable c := by
  cases negative <;> exact printable_of_all (by decide)

theorem renderInt_printable (n : Int) : ∀ c ∈ renderInt n, IsPrintable c :=
  List.forall_mem_append.mpr ⟨signText_printable _, renderDigits_printable _⟩

theorem Numeral.render_printable (n : Numeral) : ∀ c ∈ n.render, IsPrintable c := by
  have fraction : ∀ c ∈ fractionText n.fraction, IsPrintable c := by
    rw [fractionText]
    split
    · exact List.forall_mem_nil _
    · exact List.forall_mem_cons.mpr ⟨by decide, renderDigits_printable _⟩
  have exponent : ∀ c ∈ exponentText n.exponent, IsPrintable c := by
    cases n.exponent with
    | none => exact List.forall_mem_nil _
    | some e =>
      have sign : ∀ c ∈ exponentSignText e.negative, IsPrintable c := by
        rcases e.negative with _ | _ | _ <;> exact printable_of_all (by decide)
      rw [exponentText]
      refine List.forall_mem_cons.mpr ⟨?_, ?_⟩
      · split <;> decide
      · exact List.forall_mem_append.mpr ⟨sign, renderDigits_printable _⟩
  simp only [Numeral.render, List.forall_mem_append]
  exact ⟨signText_printable _, renderDigits_printable _, fraction, exponent⟩

/-! ### Strings -/

theorem hexText_printable (n : Nat) : ∀ c ∈ hexText n, IsPrintable c := by
  have digit : ∀ d : Fin 16, IsPrintable (hexChar d.val) := by decide
  have small (m : Nat) : IsPrintable (hexChar (m % 16)) := digit ⟨m % 16, Nat.mod_lt _ (by norm_num)⟩
  intro c member
  simp only [hexText, List.mem_cons, List.not_mem_nil, or_false] at member
  rcases member with rfl | rfl | rfl | rfl <;> exact small _

theorem unicodeEscape_printable (n : Nat) : ∀ c ∈ unicodeEscape n, IsPrintable c :=
  List.forall_mem_cons.mpr ⟨by decide, List.forall_mem_cons.mpr ⟨by decide, hexText_printable n⟩⟩

/-- A character that is not escaped stands for itself; an escape is printable ASCII. -/
theorem escapeChar_cases (ensureAscii : Bool) (c : CodePoint) :
    (escapeChar ensureAscii c = [c] ∧ 0x20 ≤ c.val ∧ (ensureAscii = true → c.val ≤ 0x7E)) ∨
      ∀ d ∈ escapeChar ensureAscii c, IsPrintable d := by
  have short (d : CodePoint) (h : IsPrintable d) : ∀ e ∈ [BACKSLASH, d], IsPrintable e :=
    List.forall_mem_cons.mpr ⟨by decide, List.forall_mem_singleton.mpr h⟩
  unfold escapeChar
  split
  next special =>
    refine .inr (short c ?_)
    rcases special with rfl | rfl <;> decide
  iterate 5
    split
    · exact .inr (short _ (by decide))
  split
  · exact .inr (unicodeEscape_printable _)
  next visible =>
    split
    next plain =>
      refine .inl ⟨rfl, by omega, ?_⟩
      rintro rfl
      rcases plain with raw | plain
      · cases raw
      · exact plain
    split
    · exact .inr (unicodeEscape_printable _)
    · exact .inr (List.forall_mem_append.mpr
        ⟨unicodeEscape_printable _, unicodeEscape_printable _⟩)

theorem escapeChar_printable (c : CodePoint) : ∀ d ∈ escapeChar true c, IsPrintable d := by
  rcases escapeChar_cases true c with ⟨same, visible, ascii⟩ | printable
  · rw [same]
    exact List.forall_mem_singleton.mpr ⟨visible, ascii rfl⟩
  · exact printable

theorem quoteString_forall {P : CodePoint → Prop} {ensureAscii : Bool} (quote : P QUOTE)
    (escapes : ∀ c, ∀ d ∈ escapeChar ensureAscii c, P d) (s : Str) :
    ∀ c ∈ quoteString ensureAscii s, P c := by
  refine List.forall_mem_cons.mpr ⟨quote, List.forall_mem_append.mpr ⟨?_, ?_⟩⟩
  · intro c member
    obtain ⟨d, _, member⟩ := List.mem_flatMap.mp member
    exact escapes d c member
  · exact List.forall_mem_singleton.mpr quote

theorem quoteString_printable (s : Str) : ∀ c ∈ quoteString true s, IsPrintable c :=
  quoteString_forall (by decide) escapeChar_printable s

theorem IsPrintable.ascii {c : CodePoint} (h : IsPrintable c) : c.val < 128 :=
  h.2.trans_lt (by norm_num)

theorem quoteString_ascii (s : Str) : ∀ c ∈ quoteString true s, c.val < 128 :=
  fun c member => (quoteString_printable s c member).ascii

theorem renderInt_ascii (n : Int) : ∀ c ∈ renderInt n, c.val < 128 :=
  fun c member => (renderInt_printable n c member).ascii

/-! ### Values -/

/-- The predicate holds of all that an encoder with this style writes. -/
structure DumpStyle.Writes (style : DumpStyle) (P : CodePoint → Prop) : Prop where
  printable : ∀ c, IsPrintable c → P c
  escapes : ∀ c, ∀ d ∈ escapeChar style.ensureAscii c, P d
  comma : ∀ c ∈ style.afterComma, P c
  colon : ∀ c ∈ style.afterColon, P c
  newline : ∀ level, ∀ c ∈ newline style level, P c

theorem DumpStyle.Writes.word {style : DumpStyle} {P : CodePoint → Prop} (writes : style.Writes P)
    (s : Str) (h : (s.all fun c => decide (IsPrintable c)) = true) : ∀ c ∈ s, P c :=
  fun c member => writes.printable c (printable_of_all h c member)

mutual

theorem Json.render_forall {style : DumpStyle} {P : CodePoint → Prop} (writes : style.Writes P) :
    ∀ (v : Json) (level : Nat), ∀ c ∈ v.render style level, P c
  | .null, _ => writes.word (lit "null") (by decide)
  | .bool true, _ => writes.word (lit "true") (by decide)
  | .bool false, _ => writes.word (lit "false") (by decide)
  | .int n, _ => fun c h => writes.printable c (renderInt_printable n c h)
  | .float x, _ => fun c h => writes.printable c (x.spelling.render_printable c h)
  | .infinity true, _ => writes.word (lit "-Infinity") (by decide)
  | .infinity false, _ => writes.word (lit "Infinity") (by decide)
  | .nan, _ => writes.word (lit "NaN") (by decide)
  | .str s, _ => quoteString_forall (writes.printable _ (by decide)) writes.escapes s
  | .array [], _ => writes.word [LEFT_BRACKET, RIGHT_BRACKET] (by decide)
  | .array (item :: items), level => by
    rw [Json.render]
    simp only [List.forall_mem_cons, List.forall_mem_append]
    exact ⟨writes.printable _ (by decide), ⟨⟨writes.newline _,
      renderItems_forall writes (item :: items) (level + 1)⟩, writes.newline _⟩,
        writes.printable _ (by decide), List.forall_mem_nil _⟩
  | .object [], _ => writes.word [LEFT_BRACE, RIGHT_BRACE] (by decide)
  | .object ((key, value) :: members), level => by
    rw [Json.render]
    simp only [List.forall_mem_cons, List.forall_mem_append]
    exact ⟨writes.printable _ (by decide), ⟨⟨writes.newline _,
      renderMembers_forall writes ((key, value) :: members) (level + 1)⟩, writes.newline _⟩,
        writes.printable _ (by decide), List.forall_mem_nil _⟩

private theorem renderItems_forall {style : DumpStyle} {P : CodePoint → Prop}
    (writes : style.Writes P) :
    ∀ (items : List Json) (level : Nat), ∀ c ∈ Json.renderItems style level items, P c
  | [], _ => List.forall_mem_nil _
  | [item], level => item.render_forall writes level
  | item :: next :: rest, level => by
    rw [Json.renderItems]
    · simp only [List.forall_mem_cons, List.forall_mem_append]
      exact ⟨item.render_forall writes level, writes.printable _ (by decide),
        ⟨writes.comma, writes.newline _⟩, renderItems_forall writes (next :: rest) level⟩
    · simp

private theorem renderMembers_forall {style : DumpStyle} {P : CodePoint → Prop}
    (writes : style.Writes P) :
    ∀ (members : Members) (level : Nat), ∀ c ∈ Json.renderMembers style level members, P c
  | [], _ => List.forall_mem_nil _
  | [(key, value)], level => by
    rw [Json.renderMembers]
    simp only [List.forall_mem_cons, List.forall_mem_append]
    exact ⟨quoteString_forall (writes.printable _ (by decide)) writes.escapes key,
      writes.printable _ (by decide), writes.colon, value.render_forall writes level⟩
  | (key, value) :: (next, other) :: rest, level => by
    rw [Json.renderMembers]
    · simp only [List.forall_mem_cons, List.forall_mem_append]
      exact ⟨quoteString_forall (writes.printable _ (by decide)) writes.escapes key,
        writes.printable _ (by decide), writes.colon, value.render_forall writes level,
        writes.printable _ (by decide), ⟨writes.comma, writes.newline _⟩,
        renderMembers_forall writes ((next, other) :: rest) level⟩
    · simp

end

theorem dumps_forall {style : DumpStyle} {P : CodePoint → Prop} (writes : style.Writes P) {v : Json}
    {text : Str} (h : dumps style v = some text) : ∀ c ∈ text, P c := by
  rw [dumps] at h
  split at h
  · obtain rfl := Option.some.inj h
    exact Json.render_forall writes _ 0
  · cases h

/-- An encoder without indentation writes no control character. -/
theorem DumpStyle.writes_visible {style : DumpStyle} (flat : style.indent = none)
    (comma : ∀ c ∈ style.afterComma, 0x20 ≤ c.val) (colon : ∀ c ∈ style.afterColon, 0x20 ≤ c.val) :
    style.Writes fun c => 0x20 ≤ c.val where
  printable c h := h.1
  escapes c := by
    rcases escapeChar_cases style.ensureAscii c with ⟨same, visible, _⟩ | printable
    · rw [same]
      exact List.forall_mem_singleton.mpr visible
    · exact fun d member => (printable d member).1
  comma := comma
  colon := colon
  newline level := by
    rw [newline, flat]
    exact List.forall_mem_nil _

end Python
