import ClaimCI.Python.JsonCut

/-!
# The JSON grammar

What the decoder reads, as a relation without fuel. The fuel of the decoder is always enough, so
the relation and the decoder agree.
-/

namespace Python

/-- What a rule of the grammar stands for. -/
inductive Part where
  | value (v : Json)
  | items (vs : List Json)
  | members (pairs : Members)

/-- `Scans options part s rest`: the text `s` begins with the part, and `rest` follows it. -/
inductive Scans (options : LoadOptions) : Part → Str → Str → Prop where
  | string {s text rest : Str} (scanned : scanString s = some (text, rest)) :
      Scans options (.value (.str text)) (QUOTE :: s) rest
  | emptyObject {s rest : Str} {v : Json} (close : skipSpace s = RIGHT_BRACE :: rest)
      (built : buildObject options [] = some v) : Scans options (.value v) (LEFT_BRACE :: s) rest
  | object {s inner rest : Str} {d : CodePoint} {pairs : Members} {v : Json}
      (first : skipSpace s = d :: inner) (other : d ≠ RIGHT_BRACE)
      (body : Scans options (.members pairs) (d :: inner) rest)
      (built : buildObject options pairs = some v) : Scans options (.value v) (LEFT_BRACE :: s) rest
  | emptyArray {s rest : Str} (close : skipSpace s = RIGHT_BRACKET :: rest) :
      Scans options (.value (.array [])) (LEFT_BRACKET :: s) rest
  | array {s inner rest : Str} {d : CodePoint} {vs : List Json}
      (first : skipSpace s = d :: inner) (other : d ≠ RIGHT_BRACKET)
      (body : Scans options (.items vs) (d :: inner) rest) :
      Scans options (.value (.array vs)) (LEFT_BRACKET :: s) rest
  | word {c : CodePoint} {s rest : Str} {v : Json} (plain : c ≠ QUOTE ∧ c ≠ LEFT_BRACE ∧
      c ≠ LEFT_BRACKET) (scanned : scanWord options (c :: s) = some (v, rest)) :
      Scans options (.value v) (c :: s) rest
  | lastItem {s after rest : Str} {v : Json} (item : Scans options (.value v) s after)
      (close : skipSpace after = RIGHT_BRACKET :: rest) : Scans options (.items [v]) s rest
  | moreItems {s after more rest : Str} {v : Json} {vs : List Json}
      (item : Scans options (.value v) s after) (comma : skipSpace after = COMMA :: more)
      (others : Scans options (.items vs) (skipSpace more) rest) :
      Scans options (.items (v :: vs)) s rest
  | lastMember {s key afterKey inner after rest : Str} {v : Json}
      (name : scanString s = some (key, afterKey)) (colon : skipSpace afterKey = COLON :: inner)
      (item : Scans options (.value v) (skipSpace inner) after)
      (close : skipSpace after = RIGHT_BRACE :: rest) :
      Scans options (.members [(key, v)]) (QUOTE :: s) rest
  | moreMembers {s key afterKey inner after more rest : Str} {v : Json} {pairs : Members}
      (name : scanString s = some (key, afterKey)) (colon : skipSpace afterKey = COLON :: inner)
      (item : Scans options (.value v) (skipSpace inner) after)
      (comma : skipSpace after = COMMA :: more)
      (others : Scans options (.members pairs) (skipSpace more) rest) :
      Scans options (.members ((key, v) :: pairs)) (QUOTE :: s) rest

/-! ### The decoder follows the grammar -/

/-- Whatever the decoder finds is in the grammar. -/
theorem scans_of_scan (options : LoadOptions) (fuel : Nat) :
    (∀ s v rest, scanValue options fuel s = some (v, rest) → Scans options (.value v) s rest) ∧
    (∀ s vs rest, scanItems options fuel s = some (vs, rest) → Scans options (.items vs) s rest) ∧
    (∀ s pairs rest, scanMembers options fuel s = some (pairs, rest) →
      Scans options (.members pairs) s rest) := by
  -- values, items and members at one fuel; the induction is on it
  induction fuel with
  | zero => refine ⟨?_, ?_, ?_⟩ <;> intro s r rest h <;> simp [scanValue, scanItems, scanMembers] at h
  | succ fuel ih =>
    obtain ⟨values, items, members⟩ := ih
    refine ⟨?_, ?_, ?_⟩
    · intro s v rest h
      cases s with
      | nil => simp [scanValue] at h
      | cons c s =>
        rw [scanValue] at h
        split at h
        next quote =>
          obtain ⟨⟨text, after⟩, scanned, h⟩ := Option.map_eq_some_iff.mp h
          obtain ⟨rfl, rfl⟩ := Prod.mk.inj h
          subst quote
          exact .string scanned
        split at h
        next noQuote brace =>
          subst brace
          split at h
          · cases h
          next d after skipped =>
            split at h
            next close =>
              obtain ⟨value, built, h⟩ := Option.map_eq_some_iff.mp h
              obtain ⟨rfl, rfl⟩ := Prod.mk.inj h
              rw [close] at skipped
              exact .emptyObject skipped built
            next other =>
              split at h
              · cases h
              next pairs after' scanned =>
                obtain ⟨value, built, h⟩ := Option.map_eq_some_iff.mp h
                obtain ⟨rfl, rfl⟩ := Prod.mk.inj h
                exact .object skipped other (members _ _ _ scanned) built
        split at h
        next noQuote noBrace bracket =>
          subst bracket
          split at h
          · cases h
          next d after skipped =>
            split at h
            next close =>
              obtain ⟨rfl, rfl⟩ := Prod.mk.inj (Option.some.inj h)
              rw [close] at skipped
              exact .emptyArray skipped
            next other =>
              obtain ⟨⟨vs, after'⟩, scanned, h⟩ := Option.map_eq_some_iff.mp h
              obtain ⟨rfl, rfl⟩ := Prod.mk.inj h
              exact .array skipped other (items _ _ _ scanned)
        -- neither quote, brace nor bracket: a word or a number
        next noQuote noBrace noBracket => exact .word ⟨noQuote, noBrace, noBracket⟩ h
    · intro s vs rest h
      rw [scanItems] at h
      -- an item, and then the bracket or a comma
      split at h
      · cases h
      next item after scanned =>
        split at h
        · cases h
        next d more skipped =>
          split at h
          next close =>
            obtain ⟨rfl, rfl⟩ := Prod.mk.inj (Option.some.inj h)
            rw [close] at skipped
            exact .lastItem (values _ _ _ scanned) skipped
          next =>
            split at h
            next comma =>
              obtain ⟨⟨others, after'⟩, rescanned, h⟩ := Option.map_eq_some_iff.mp h
              obtain ⟨rfl, rfl⟩ := Prod.mk.inj h
              rw [comma] at skipped
              exact .moreItems (values _ _ _ scanned) skipped (items _ _ _ rescanned)
            · cases h
    · intro s pairs rest h
      cases s with
      | nil => simp [scanMembers] at h
      | cons q s =>
        rw [scanMembers] at h
        split at h
        · cases h
        next quote =>
          obtain rfl := not_not.mp quote
          -- the key, the colon, the value, and then the brace or a comma
          split at h
          · cases h
          next key afterKey name =>
            split at h
            · cases h
            next c inner skipped =>
              split at h
              · cases h
              next colon =>
                obtain rfl := not_not.mp colon
                split at h
                · cases h
                next value after scanned =>
                  split at h
                  · cases h
                  next d more found =>
                    split at h
                    next close =>
                      obtain ⟨rfl, rfl⟩ := Prod.mk.inj (Option.some.inj h)
                      rw [close] at found
                      exact .lastMember name skipped (values _ _ _ scanned) found
                    next =>
                      split at h
                      next comma =>
                        obtain ⟨⟨others, after'⟩, rescanned, h⟩ := Option.map_eq_some_iff.mp h
                        obtain ⟨rfl, rfl⟩ := Prod.mk.inj h
                        rw [comma] at found
                        exact .moreMembers name skipped (values _ _ _ scanned) found
                          (members _ _ _ rescanned)
                      · cases h

/-- A part takes up text. -/
theorem Scans.shorter {options : LoadOptions} {part : Part} {s rest : Str}
    (h : Scans options part s rest) : rest.length < s.length := by
  -- white space in front only makes the rest shorter
  have space : ∀ {s : Str} {d : CodePoint} {rest : Str}, skipSpace s = d :: rest →
      rest.length < s.length := by
    intro s d rest skipped
    have := skipSpace_length s
    rw [skipped, List.length_cons] at this
    omega
  induction h with
  | string scanned => exact Nat.lt_succ_of_lt (scanString_shorter scanned)
  | emptyObject close _ => exact Nat.lt_succ_of_lt (space close)
  | object first _ _ _ ih =>
    have := space first
    rw [List.length_cons] at ih ⊢
    omega
  | emptyArray close => exact Nat.lt_succ_of_lt (space close)
  | array first _ _ ih =>
    have := space first
    rw [List.length_cons] at ih ⊢
    omega
  | word _ scanned => exact scanWord_shorter scanned
  | lastItem _ close ih =>
    have := space close
    omega
  | @moreItems s after more rest v vs _ comma _ ih others =>
    have := space comma
    have := skipSpace_length more
    omega
  | @lastMember s key afterKey inner after rest v name colon _ close ih =>
    have := scanString_shorter name
    have := space colon
    have := skipSpace_length inner
    have := space close
    rw [List.length_cons]
    omega
  | @moreMembers s key afterKey inner after more rest v pairs name colon _ comma _ ih others =>
    have := scanString_shorter name
    have := space colon
    have := skipSpace_length inner
    have := space comma
    have := skipSpace_length more
    rw [List.length_cons]
    omega

theorem Scans.ne_nil {options : LoadOptions} {part : Part} {s rest : Str}
    (h : Scans options part s rest) : s ≠ [] := by
  rintro rfl
  exact absurd h.shorter (by simp)

/-- The decoder finds a part, given fuel for twice its length. -/
def Found (options : LoadOptions) (s rest : Str) : Part → Prop
  | .value v => ∀ fuel, 2 * s.length + 1 ≤ fuel → scanValue options fuel s = some (v, rest)
  | .items vs => ∀ fuel, 2 * s.length + 2 ≤ fuel → scanItems options fuel s = some (vs, rest)
  | .members pairs =>
    ∀ fuel, 2 * s.length + 2 ≤ fuel → scanMembers options fuel s = some (pairs, rest)

theorem Scans.found {options : LoadOptions} {part : Part} {s rest : Str}
    (h : Scans options part s rest) : Found options s rest part := by
  have space : ∀ {s : Str} {d : CodePoint} {rest : Str}, skipSpace s = d :: rest →
      rest.length < s.length := by
    intro s d rest skipped
    have := skipSpace_length s
    rw [skipped, List.length_cons] at this
    omega
  -- every rule uses up one unit of fuel
  have step : ∀ {bound fuel : Nat}, bound + 1 ≤ fuel → ∃ n, fuel = n + 1 ∧ bound ≤ n := by
    intro bound fuel enough
    exact ⟨fuel - 1, by omega, by omega⟩
  induction h with
  | string scanned =>
    intro fuel enough
    obtain ⟨fuel, rfl, _⟩ := step enough
    rw [scanValue, if_pos rfl, scanned]
    rfl
  | emptyObject close built =>
    intro fuel enough
    obtain ⟨fuel, rfl, _⟩ := step enough
    rw [scanValue, if_neg (by decide), if_pos rfl, close]
    simp only [if_true, built, Option.map_some]
  | object first other _ built ih =>
    intro fuel enough
    obtain ⟨fuel, rfl, left⟩ := step enough
    have := space first
    rw [List.length_cons] at left
    rw [scanValue, if_neg (by decide), if_pos rfl, first]
    simp only [if_neg other]
    rw [ih fuel (by simp only [List.length_cons]; omega)]
    simp only [built, Option.map_some]
  | emptyArray close =>
    intro fuel enough
    obtain ⟨fuel, rfl, _⟩ := step enough
    rw [scanValue, if_neg (by decide), if_neg (by decide), if_pos rfl, close]
    simp only [if_true]
  | array first other _ ih =>
    intro fuel enough
    obtain ⟨fuel, rfl, left⟩ := step enough
    have := space first
    rw [List.length_cons] at left
    rw [scanValue, if_neg (by decide), if_neg (by decide), if_pos rfl, first]
    simp only [if_neg other]
    rw [ih fuel (by simp only [List.length_cons]; omega)]
    rfl
  | word plain scanned =>
    intro fuel enough
    obtain ⟨fuel, rfl, _⟩ := step enough
    rw [scanValue, if_neg plain.1, if_neg plain.2.1, if_neg plain.2.2, scanned]
  | lastItem _ close ih =>
    intro fuel enough
    obtain ⟨fuel, rfl, left⟩ := step enough
    rw [scanItems, ih fuel (by omega)]
    simp only [close, if_true]
  | @moreItems s after more rest v vs item comma _ ih others =>
    intro fuel enough
    obtain ⟨fuel, rfl, left⟩ := step enough
    have := item.shorter
    have := space comma
    have := skipSpace_length more
    rw [scanItems, ih fuel (by omega)]
    simp only [comma]
    rw [if_neg (by decide), if_pos trivial, others fuel (by omega)]
    rfl
  | @lastMember s key afterKey inner after rest v name colon _ close ih =>
    intro fuel enough
    obtain ⟨fuel, rfl, left⟩ := step enough
    have := scanString_shorter name
    have := space colon
    have := skipSpace_length inner
    rw [List.length_cons] at left
    rw [scanMembers, if_neg (by simp), name]
    simp only [colon]
    rw [if_neg (by simp), ih fuel (by omega)]
    simp only [close, if_true]
  | @moreMembers s key afterKey inner after more rest v pairs name colon item comma _ ih others =>
    intro fuel enough
    obtain ⟨fuel, rfl, left⟩ := step enough
    have := scanString_shorter name
    have := space colon
    have := skipSpace_length inner
    have := item.shorter
    have := space comma
    have := skipSpace_length more
    rw [List.length_cons] at left
    rw [scanMembers, if_neg (by simp), name]
    simp only [colon]
    rw [if_neg (by simp), ih fuel (by omega)]
    simp only [comma]
    rw [if_neg (by decide), if_pos trivial, others fuel (by omega)]
    rfl

/-- `json.loads` reads one value of the grammar with whitespace around it. -/
theorem loads_iff (options : LoadOptions) (s : Str) (v : Json) :
    loads options s = some v ↔ s.head? ≠ some BYTE_ORDER_MARK ∧
      ∃ rest, Scans options (.value v) (skipSpace s) rest ∧ skipSpace rest = [] := by
  have length := skipSpace_length s
  rw [loads]
  constructor
  · intro h
    split at h
    · cases h
    next plain =>
      refine ⟨plain, ?_⟩
      split at h
      · cases h
      next value rest scanned =>
        split at h
        next blank =>
          obtain rfl := Option.some.inj h
          exact ⟨rest, (scans_of_scan options _).1 _ _ _ scanned, blank⟩
        · cases h
  · rintro ⟨plain, rest, scans, blank⟩
    rw [if_neg plain, scans.found _ (by omega)]
    simp only [blank, if_true]

/-! ### Cutting at a carriage return -/

theorem isJsonSpace_CR : isJsonSpace CR = true := by decide

/-- What follows the text stays where it is. -/
theorem skipSpace_append_of_cons {s : Str} {d : CodePoint} {rest : Str} (t : Str)
    (h : skipSpace s = d :: rest) : skipSpace (s ++ t) = d :: (rest ++ t) := by
  have nonempty : skipSpace s ≠ [] := by simp [h]
  rw [skipSpace] at h nonempty ⊢
  rw [List.dropWhile_append, if_neg (by simpa using nonempty), h]
  rfl

theorem skipSpace_append {s : Str} (t : Str) (h : skipSpace s ≠ []) :
    skipSpace (s ++ t) = skipSpace s ++ t := by
  obtain ⟨d, rest, found⟩ := List.exists_cons_of_ne_nil h
  rw [skipSpace_append_of_cons t found, found, List.cons_append]

/-- Skipping to a text behind which whitespace follows. -/
theorem skipSpace_append_blank {s t : Str} (blank : ∀ c ∈ t, isJsonSpace c = true) :
    skipSpace (s ++ t) = if skipSpace s = [] then [] else skipSpace s ++ t := by
  rw [skipSpace, skipSpace, List.dropWhile_append]
  split
  next empty =>
    rw [if_pos (by simpa using empty)]
    exact List.dropWhile_eq_nil_iff.mpr blank
  next nonempty => rw [if_neg (by simpa using nonempty)]

/-- A part stays a part when a carriage return follows. -/
theorem Scans.append {options : LoadOptions} {part : Part} {s rest t : Str} (boundary : Boundary t)
    (h : Scans options part s rest) : Scans options part (s ++ t) (rest ++ t) := by
  -- one case a rule; only the ends of texts and numbers look at the boundary
  induction h with
  | string scanned =>
    rw [List.cons_append]
    refine .string ?_
    rw [scanString_append boundary, scanned, extend_some]
  | emptyObject close built => exact .emptyObject (skipSpace_append_of_cons t close) built
  | object first other _ built ih =>
    exact .object (skipSpace_append_of_cons t first) other ih built
  | emptyArray close => exact .emptyArray (skipSpace_append_of_cons t close)
  | array first other _ ih => exact .array (skipSpace_append_of_cons t first) other ih
  | word plain scanned =>
    rw [List.cons_append]
    refine .word plain ?_
    rw [← List.cons_append, scanWord_append boundary, scanned, extend_some]
  | lastItem _ close ih => exact .lastItem ih (skipSpace_append_of_cons t close)
  | moreItems _ comma rest ih others =>
    refine .moreItems ih (skipSpace_append_of_cons t comma) ?_
    rw [skipSpace_append t rest.ne_nil]
    exact others
  | lastMember name colon item close ih =>
    rw [List.cons_append]
    refine .lastMember ?_ (skipSpace_append_of_cons t colon) ?_ (skipSpace_append_of_cons t close)
    · rw [scanString_append boundary, name, extend_some]
    · rw [skipSpace_append t item.ne_nil]
      exact ih
  | moreMembers name colon item comma rest ih others =>
    rw [List.cons_append]
    refine .moreMembers ?_ (skipSpace_append_of_cons t colon) ?_ (skipSpace_append_of_cons t comma)
      ?_
    · rw [scanString_append boundary, name, extend_some]
    · rw [skipSpace_append t item.ne_nil]
      exact ih
    · rw [skipSpace_append t rest.ne_nil]
      exact others

/-- Whitespace behind a part is not read as a part of it. -/
theorem Scans.of_append {options : LoadOptions} {part : Part} {s t whole rest : Str}
    (boundary : Boundary t) (blank : ∀ c ∈ t, isJsonSpace c = true)
    (h : Scans options part whole rest) (nonempty : s ≠ []) (cut : whole = s ++ t) :
    ∃ r, rest = r ++ t ∧ Scans options part s r := by
  -- what stands in front of a text stands in front of it without the whitespace
  have space : ∀ {s : Str} {d : CodePoint} {rest : Str}, skipSpace (s ++ t) = d :: rest →
      ∃ r, rest = r ++ t ∧ skipSpace s = d :: r := by
    intro s d rest skipped
    rw [skipSpace_append_blank blank] at skipped
    split at skipped
    · cases skipped
    next filled =>
      obtain ⟨e, r, found⟩ := List.exists_cons_of_ne_nil filled
      rw [found, List.cons_append] at skipped
      obtain ⟨rfl, rfl⟩ := List.cons.inj skipped
      exact ⟨r, rfl, found⟩
  have skipped : ∀ {s : Str}, skipSpace (s ++ t) ≠ [] →
      skipSpace s ≠ [] ∧ skipSpace (s ++ t) = skipSpace s ++ t := by
    intro s filled
    rw [skipSpace_append_blank blank] at filled ⊢
    split at filled
    · exact absurd rfl filled
    next nonempty => exact ⟨nonempty, if_neg nonempty⟩
  have behind : ∀ {α : Type} {r : Option (α × Str)} {a : α} {rest : Str},
      extend t r = some (a, rest) → ∃ r', rest = r' ++ t ∧ r = some (a, r') := by
    intro α r a rest h
    cases r with
    | none => cases h
    | some r =>
      obtain ⟨b, r'⟩ := r
      obtain ⟨rfl, rfl⟩ := Prod.mk.inj (Option.some.inj h)
      exact ⟨r', rfl, rfl⟩
  induction h generalizing s with
  | string scanned =>
    obtain ⟨c, s, rfl⟩ := List.exists_cons_of_ne_nil nonempty
    rw [List.cons_append] at cut
    obtain ⟨rfl, rfl⟩ := List.cons.inj cut
    rw [scanString_append boundary] at scanned
    obtain ⟨r, rfl, found⟩ := behind scanned
    exact ⟨r, rfl, .string found⟩
  | emptyObject close built =>
    obtain ⟨c, s, rfl⟩ := List.exists_cons_of_ne_nil nonempty
    rw [List.cons_append] at cut
    obtain ⟨rfl, rfl⟩ := List.cons.inj cut
    obtain ⟨r, rfl, found⟩ := space close
    exact ⟨r, rfl, .emptyObject found built⟩
  | object first other _ built ih =>
    obtain ⟨c, s, rfl⟩ := List.exists_cons_of_ne_nil nonempty
    rw [List.cons_append] at cut
    obtain ⟨rfl, rfl⟩ := List.cons.inj cut
    obtain ⟨inner, rfl, found⟩ := space first
    obtain ⟨r, rfl, body⟩ := ih (List.cons_ne_nil _ inner) rfl
    exact ⟨r, rfl, .object found other body built⟩
  | emptyArray close =>
    obtain ⟨c, s, rfl⟩ := List.exists_cons_of_ne_nil nonempty
    rw [List.cons_append] at cut
    obtain ⟨rfl, rfl⟩ := List.cons.inj cut
    obtain ⟨r, rfl, found⟩ := space close
    exact ⟨r, rfl, .emptyArray found⟩
  | array first other _ ih =>
    obtain ⟨c, s, rfl⟩ := List.exists_cons_of_ne_nil nonempty
    rw [List.cons_append] at cut
    obtain ⟨rfl, rfl⟩ := List.cons.inj cut
    obtain ⟨inner, rfl, found⟩ := space first
    obtain ⟨r, rfl, body⟩ := ih (List.cons_ne_nil _ inner) rfl
    exact ⟨r, rfl, .array found other body⟩
  | word plain scanned =>
    obtain ⟨c, s, rfl⟩ := List.exists_cons_of_ne_nil nonempty
    rw [List.cons_append] at cut
    obtain ⟨rfl, rfl⟩ := List.cons.inj cut
    rw [← List.cons_append, scanWord_append boundary] at scanned
    obtain ⟨r, rfl, found⟩ := behind scanned
    exact ⟨r, rfl, .word plain found⟩
  | lastItem _ close ih =>
    obtain ⟨after, rfl, item⟩ := ih nonempty cut
    obtain ⟨r, rfl, found⟩ := space close
    exact ⟨r, rfl, .lastItem item found⟩
  | moreItems _ comma others ihItem ihOthers =>
    obtain ⟨after, rfl, item⟩ := ihItem nonempty cut
    obtain ⟨more, rfl, found⟩ := space comma
    obtain ⟨filled, apart⟩ := skipped others.ne_nil
    obtain ⟨r, rfl, rest⟩ := ihOthers filled apart
    exact ⟨r, rfl, .moreItems item found rest⟩
  | lastMember name colon item close ih =>
    obtain ⟨c, s, rfl⟩ := List.exists_cons_of_ne_nil nonempty
    rw [List.cons_append] at cut
    obtain ⟨rfl, rfl⟩ := List.cons.inj cut
    rw [scanString_append boundary] at name
    obtain ⟨afterKey, rfl, key⟩ := behind name
    obtain ⟨inner, rfl, colon'⟩ := space colon
    obtain ⟨filled, apart⟩ := skipped item.ne_nil
    obtain ⟨after, rfl, item'⟩ := ih filled apart
    obtain ⟨r, rfl, close'⟩ := space close
    exact ⟨r, rfl, .lastMember key colon' item' close'⟩
  | moreMembers name colon item comma others ihItem ihOthers =>
    obtain ⟨c, s, rfl⟩ := List.exists_cons_of_ne_nil nonempty
    rw [List.cons_append] at cut
    obtain ⟨rfl, rfl⟩ := List.cons.inj cut
    rw [scanString_append boundary] at name
    obtain ⟨afterKey, rfl, key⟩ := behind name
    obtain ⟨inner, rfl, colon'⟩ := space colon
    obtain ⟨filled, apart⟩ := skipped item.ne_nil
    obtain ⟨after, rfl, item'⟩ := ihItem filled apart
    obtain ⟨more, rfl, comma'⟩ := space comma
    obtain ⟨filled', apart'⟩ := skipped others.ne_nil
    obtain ⟨r, rfl, others'⟩ := ihOthers filled' apart'
    exact ⟨r, rfl, .moreMembers key colon' item' comma' others'⟩

/-! ### What a value begins with -/

theorem scanWhole_none {c : CodePoint} (s : Str) (h : charDigit c = none) :
    scanWhole (c :: s) = none := by
  rw [scanWhole, spanDigits, h]

/-- The characters a word or a number may begin with. -/
def opensWord (c : CodePoint) : Bool :=
  c = MINUS || (charDigit c).isSome || c = 0x6E || c = 0x74 || c = 0x66 || c = 0x4E || c = 0x49

theorem scanWord_opens {options : LoadOptions} {c : CodePoint} {s rest : Str} {v : Json}
    (h : scanWord options (c :: s) = some (v, rest)) : opensWord c = true := by
  by_contra closed
  simp only [opensWord, Bool.or_eq_true, decide_eq_true_eq, not_or, Bool.not_eq_true,
    Option.isSome_eq_false_iff, Option.isNone_iff_eq_none] at closed
  obtain ⟨⟨⟨⟨⟨⟨minus, digit⟩, n⟩, t⟩, f⟩, upperN⟩, i⟩ := closed
  have number : scanNumber (c :: s) = none := by
    rw [scanNumber, scanNumeral, scanMinus, if_neg minus, scanWhole_none s digit]
  have other : ∀ {a : CodePoint} (word : Str), c ≠ a → stripPrefix (a :: word) (c :: s) = none := by
    intro a word different
    rw [stripPrefix, if_neg (Ne.symm different)]
  have null : stripPrefix (lit "null") (c :: s) = none := other (a := 0x6E) _ n
  have true' : stripPrefix (lit "true") (c :: s) = none := other (a := 0x74) _ t
  have false' : stripPrefix (lit "false") (c :: s) = none := other (a := 0x66) _ f
  have nan : stripPrefix (lit "NaN") (c :: s) = none := other (a := 0x4E) _ upperN
  have infinity : stripPrefix (lit "Infinity") (c :: s) = none := other (a := 0x49) _ i
  have negative : stripPrefix (lit "-Infinity") (c :: s) = none := other (a := MINUS) _ minus
  rw [scanWord, null, true', false', nan, infinity, negative, number] at h
  cases h

/-- The characters a value may begin with. -/
def opensValue (c : CodePoint) : Bool :=
  c = QUOTE || c = LEFT_BRACE || c = LEFT_BRACKET || opensWord c

theorem Scans.opens {options : LoadOptions} {v : Json} {s rest : Str}
    (h : Scans options (.value v) s rest) : ∃ c after, s = c :: after ∧ opensValue c = true := by
  cases h with
  | string => exact ⟨_, _, rfl, by decide⟩
  | emptyObject => exact ⟨_, _, rfl, by decide⟩
  | object => exact ⟨_, _, rfl, by decide⟩
  | emptyArray => exact ⟨_, _, rfl, by decide⟩
  | array => exact ⟨_, _, rfl, by decide⟩
  | word _ scanned => exact ⟨_, _, rfl, by simp [opensValue, scanWord_opens scanned]⟩

private theorem opensValue_ascii : ∀ n : Fin 0x80, opensValue (codePoint n.val) = true →
    isSpace (codePoint n.val) = false ∧ codePoint n.val ≠ BYTE_ORDER_MARK := by decide

/-- Neither whitespace nor a byte order mark opens a value. -/
theorem opensValue_plain {c : CodePoint} (h : opensValue c = true) :
    isSpace c = false ∧ c ≠ BYTE_ORDER_MARK := by
  by_cases small : c.val < 0x80
  · have ascii := opensValue_ascii ⟨c.val, small⟩
    rw [show codePoint c.val = c from Fin.ext (Nat.mod_eq_of_lt c.isLt)] at ascii
    exact ascii h
  · exfalso
    have large : ∀ d : CodePoint, d.val < 0x80 → c ≠ d := by
      rintro d bound rfl
      exact small bound
    have digit : charDigit c = none := by
      rw [charDigit]
      split
      next range => omega
      · rfl
    simp [opensValue, opensWord, digit, large QUOTE (by decide), large LEFT_BRACE (by decide),
      large LEFT_BRACKET (by decide), large MINUS (by decide), large 0x6E (by decide),
      large 0x74 (by decide), large 0x66 (by decide), large 0x4E (by decide),
      large 0x49 (by decide)] at h

/-! ### Whitespace around a value -/

/-- What decodes begins, behind JSON whitespace, with something that is no whitespace. -/
theorem loads_head {options : LoadOptions} {s : Str} {v : Json} (h : loads options s = some v) :
    ∃ c after, skipSpace s = c :: after ∧ isSpace c = false := by
  obtain ⟨_, rest, scans, _⟩ := (loads_iff options s v).mp h
  obtain ⟨c, after, same, opens⟩ := scans.opens
  exact ⟨c, after, same, (opensValue_plain opens).1⟩

/-- A byte order mark needs no condition of its own: no value begins with one. -/
theorem loads_iff_scans (options : LoadOptions) (s : Str) (v : Json) :
    loads options s = some v ↔
      ∃ rest, Scans options (.value v) (skipSpace s) rest ∧ skipSpace rest = [] := by
  rw [loads_iff]
  refine ⟨And.right, fun found => ⟨?_, found⟩⟩
  intro marked
  obtain ⟨rest, scans, _⟩ := found
  obtain ⟨c, after, same, opens⟩ := scans.opens
  cases s with
  | nil => cases marked
  | cons d s =>
    obtain rfl := Option.some.inj marked
    rw [skipSpace, List.dropWhile_cons_of_neg (by decide)] at same
    exact (opensValue_plain opens).2 (List.cons.inj same).1.symm

theorem skipSpace_of_blank {s : Str} (blank : ∀ c ∈ s, isJsonSpace c = true) (t : Str) :
    skipSpace (s ++ t) = skipSpace t := by
  induction s with
  | nil => rfl
  | cons c s ih =>
    rw [List.cons_append, skipSpace, List.dropWhile_cons_of_pos (blank c List.mem_cons_self)]
    exact ih fun d hd => blank d (List.mem_cons_of_mem c hd)

theorem skipSpace_eq_nil_iff (s : Str) : skipSpace s = [] ↔ ∀ c ∈ s, isJsonSpace c = true :=
  List.dropWhile_eq_nil_iff

/-- Whitespace in front of a text, and behind it from a carriage return on, does not matter. -/
theorem loads_trim (options : LoadOptions) {front back : Str} (text : Str)
    (blankFront : ∀ c ∈ front, isJsonSpace c = true)
    (blankBack : ∀ c ∈ back, isJsonSpace c = true) (boundary : Boundary back) :
    loads options (front ++ (text ++ back)) = loads options text := by
  apply Option.ext
  intro v
  change loads options (front ++ (text ++ back)) = some v ↔ loads options text = some v
  rw [loads_iff_scans, loads_iff_scans, skipSpace_of_blank blankFront]
  constructor
  · rintro ⟨rest, scans, blank⟩
    have filled : skipSpace text ≠ [] := by
      intro empty
      have nonempty := scans.ne_nil
      rw [skipSpace_append_blank blankBack, if_pos empty] at nonempty
      exact nonempty rfl
    rw [skipSpace_append back filled] at scans
    obtain ⟨r, rfl, inner⟩ := scans.of_append boundary blankBack filled rfl
    refine ⟨r, inner, ?_⟩
    rw [skipSpace_eq_nil_iff] at blank ⊢
    exact fun c hc => blank c (List.mem_append_left _ hc)
  · rintro ⟨rest, scans, blank⟩
    refine ⟨rest ++ back, ?_, ?_⟩
    · rw [skipSpace_append back scans.ne_nil]
      exact scans.append boundary
    · rw [skipSpace_eq_nil_iff] at blank ⊢
      intro c hc
      exact (List.mem_append.mp hc).elim (blank c) (blankBack c)

/-- Behind a text that decodes, from a carriage return on, only whitespace may follow. -/
theorem loads_first {options : LoadOptions} {front text back : Str} {v w : Json}
    (blankFront : ∀ c ∈ front, isJsonSpace c = true) (boundary : Boundary back)
    (first : loads options text = some v)
    (whole : loads options (front ++ (text ++ back)) = some w) :
    w = v ∧ ∀ c ∈ back, isJsonSpace c = true := by
  obtain ⟨rest, scans, blank⟩ := (loads_iff_scans options text v).mp first
  obtain ⟨rest', scans', blank'⟩ := (loads_iff_scans options _ w).mp whole
  rw [skipSpace_of_blank blankFront, skipSpace_append back scans.ne_nil] at scans'
  have one := (scans.append boundary).found _ (le_refl _)
  have other := scans'.found _ (le_refl _)
  obtain ⟨rfl, rfl⟩ := Prod.mk.inj (Option.some.inj (one.symm.trans other))
  refine ⟨rfl, ?_⟩
  rw [skipSpace_eq_nil_iff] at blank'
  exact fun c hc => blank' c (List.mem_append_right _ hc)

end Python
