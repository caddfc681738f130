import ClaimCI.Python.JsonRoundTrip

/-!
# Decoding a text that is cut

Where a carriage return follows, the decoder reads what it would read at the end of the text: no
token contains one. So whitespace around a value does not matter, and a value before a carriage
return is all the text may hold.
-/

namespace Python

/-- What may follow a token without being part of it: nothing, or a carriage return. -/
def Boundary (t : Str) : Prop := t = [] ∨ ∃ rest, t = CR :: rest

/-- A result with more text behind it. -/
def extend {α : Type} (t : Str) (r : Option (α × Str)) : Option (α × Str) :=
  r.map fun r => (r.1, r.2 ++ t)

@[simp] theorem extend_none {α : Type} (t : Str) : extend t (none : Option (α × Str)) = none := rfl

@[simp] theorem extend_some {α : Type} (t : Str) (a : α) (s : Str) :
    extend t (some (a, s)) = some (a, s ++ t) := rfl

theorem extend_map {α β : Type} (t : Str) (f : α → β) (r : Option (α × Str)) :
    (extend t r).map (fun r => (f r.1, r.2)) = extend t (r.map fun r => (f r.1, r.2)) := by
  cases r with
  | none => rfl
  | some r => rfl

section Boundary

variable {t : Str} (boundary : Boundary t)

include boundary

/-! ### Numbers -/

theorem spanDigits_append (s : Str) :
    spanDigits (s ++ t) = ((spanDigits s).1, (spanDigits s).2 ++ t) := by
  induction s with
  | nil =>
    rcases boundary with rfl | ⟨rest, rfl⟩
    · rfl
    · simp [spanDigits, show charDigit CR = none from by decide]
  | cons c s ih =>
    rw [List.cons_append, spanDigits, spanDigits]
    cases charDigit c with
    | none => rfl
    | some d => simp [ih]

theorem scanMinus_append (s : Str) : scanMinus (s ++ t) = ((scanMinus s).1, (scanMinus s).2 ++ t) := by
  cases s with
  | nil =>
    rcases boundary with rfl | ⟨rest, rfl⟩
    · rfl
    · simp [scanMinus, show CR ≠ MINUS from by decide]
  | cons c s =>
    rw [List.cons_append, scanMinus, scanMinus]
    split <;> rfl

theorem scanWhole_append (s : Str) : scanWhole (s ++ t) = extend t (scanWhole s) := by
  rw [scanWhole, scanWhole, spanDigits_append boundary]
  cases s with
  | nil => rfl
  | cons c s =>
    obtain ⟨ds, after⟩ := spanDigits (c :: s)
    cases ds with
    | nil => rfl
    | cons d ds =>
      simp only
      split <;> rfl

theorem scanFraction_append (s : Str) :
    scanFraction (s ++ t) = ((scanFraction s).1, (scanFraction s).2 ++ t) := by
  cases s with
  | nil =>
    rcases boundary with rfl | ⟨rest, rfl⟩
    · rfl
    · simp [scanFraction, show CR ≠ DOT from by decide]
  | cons c s =>
    rw [List.cons_append, scanFraction, scanFraction]
    split
    · rw [spanDigits_append boundary]
      obtain ⟨ds, after⟩ := spanDigits s
      cases ds with
      | nil => rfl
      | cons d ds => rfl
    · rfl

theorem scanSign_append (s : Str) : scanSign (s ++ t) = ((scanSign s).1, (scanSign s).2 ++ t) := by
  cases s with
  | nil =>
    rcases boundary with rfl | ⟨rest, rfl⟩
    · rfl
    · simp [scanSign, show CR ≠ MINUS from by decide, show CR ≠ PLUS from by decide]
  | cons c s =>
    rw [List.cons_append, scanSign, scanSign]
    split
    · rfl
    · split <;> rfl

theorem scanExponent_append (s : Str) :
    scanExponent (s ++ t) = ((scanExponent s).1, (scanExponent s).2 ++ t) := by
  cases s with
  | nil =>
    rcases boundary with rfl | ⟨rest, rfl⟩
    · rfl
    · simp [scanExponent, show CR ≠ UPPER_E from by decide, show CR ≠ LOWER_E from by decide]
  | cons c s =>
    rw [List.cons_append, scanExponent, scanExponent]
    split
    · rw [scanSign_append boundary, spanDigits_append boundary]
      obtain ⟨ds, after⟩ := spanDigits (scanSign s).2
      cases ds with
      | nil => rfl
      | cons d ds => rfl
    · rfl

theorem scanNumeral_append (s : Str) : scanNumeral (s ++ t) = extend t (scanNumeral s) := by
  rw [scanNumeral, scanNumeral, scanMinus_append boundary, scanWhole_append boundary]
  cases scanWhole (scanMinus s).2 with
  | none => rfl
  | some r =>
    obtain ⟨whole, after⟩ := r
    simp [scanFraction_append boundary, scanExponent_append boundary]

theorem scanNumber_append (s : Str) : scanNumber (s ++ t) = extend t (scanNumber s) := by
  rw [scanNumber, scanNumber, scanNumeral_append boundary]
  cases scanNumeral s with
  | none => rfl
  | some r =>
    simp only [extend, Option.map_some]
    cases r.1.toJson <;> rfl

/-! ### Words -/

theorem stripPrefix_boundary (word s : Str) (plain : CR ∉ word) :
    stripPrefix word (s ++ t) = (stripPrefix word s).map (· ++ t) := by
  induction word generalizing s with
  | nil => rfl
  | cons a word ih =>
    rw [List.mem_cons, not_or] at plain
    cases s with
    | nil =>
      rcases boundary with rfl | ⟨rest, rfl⟩
      · rfl
      · simp [stripPrefix, Ne.symm plain.1]
    | cons c s =>
      rw [List.cons_append, stripPrefix, stripPrefix]
      split
      · exact ih s plain.2
      · rfl

theorem scanWord_append (options : LoadOptions) (s : Str) :
    scanWord options (s ++ t) = extend t (scanWord options s) := by
  have constant : ∀ (value : Json) (rest : Str),
      parseConstant options value (rest ++ t) = extend t (parseConstant options value rest) := by
    intro value rest
    unfold parseConstant
    split <;> rfl
  unfold scanWord
  rw [stripPrefix_boundary boundary _ s (by decide), stripPrefix_boundary boundary _ s (by decide),
    stripPrefix_boundary boundary _ s (by decide), stripPrefix_boundary boundary _ s (by decide),
    stripPrefix_boundary boundary _ s (by decide), stripPrefix_boundary boundary _ s (by decide),
    scanNumber_append boundary]
  cases stripPrefix (lit "null") s with
  | some rest => rfl
  | none =>
    cases stripPrefix (lit "true") s with
    | some rest => rfl
    | none =>
      cases stripPrefix (lit "false") s with
      | some rest => rfl
      | none =>
        cases stripPrefix (lit "NaN") s with
        | some rest => exact constant _ rest
        | none =>
          cases stripPrefix (lit "Infinity") s with
          | some rest => exact constant _ rest
          | none =>
            cases stripPrefix (lit "-Infinity") s with
            | some rest => exact constant _ rest
            | none => rfl

/-! ### Strings -/

theorem scanHex_append (s : Str) : scanHex (s ++ t) = extend t (scanHex s) := by
  have stop : hexDigit CR = none := by decide
  -- a text too short for four digits meets the carriage return
  have short : ∀ s : Str, s.length < 4 → scanHex (s ++ t) = none ∧ scanHex s = none := by
    intro s short
    rcases s with _ | ⟨a, _ | ⟨b, _ | ⟨c, _ | ⟨d, s⟩⟩⟩⟩
    · rcases boundary with rfl | ⟨_ | ⟨x, _ | ⟨y, _ | ⟨z, rest⟩⟩⟩, rfl⟩ <;> simp [scanHex, stop]
    · rcases boundary with rfl | ⟨_ | ⟨x, _ | ⟨y, rest⟩⟩, rfl⟩ <;> simp [scanHex, stop]
    · rcases boundary with rfl | ⟨_ | ⟨x, rest⟩, rfl⟩ <;> simp [scanHex, stop]
    · rcases boundary with rfl | ⟨rest, rfl⟩ <;> simp [scanHex, stop]
    · simp at short
      omega
  by_cases length : s.length < 4
  · rw [(short s length).1, (short s length).2, extend_none]
  · rcases s with _ | ⟨a, _ | ⟨b, _ | ⟨c, _ | ⟨d, s⟩⟩⟩⟩
    · simp at length
    · simp at length
    · simp at length
    · simp at length
    · rw [List.cons_append, List.cons_append, List.cons_append, List.cons_append, scanHex, scanHex]
      cases hexDigit a <;> cases hexDigit b <;> cases hexDigit c <;> cases hexDigit d <;> rfl

theorem scanLowSurrogate_append (s : Str) :
    scanLowSurrogate (s ++ t) = extend t (scanLowSurrogate s) := by
  have escape : CR ≠ BACKSLASH ∧ CR ≠ LOWER_U := by decide
  rcases s with _ | ⟨b, _ | ⟨u, s⟩⟩
  · rcases boundary with rfl | ⟨_ | ⟨x, rest⟩, rfl⟩ <;> simp [scanLowSurrogate, escape.1]
  · rcases boundary with rfl | ⟨rest, rfl⟩ <;> simp [scanLowSurrogate, escape.2]
  · rw [List.cons_append, List.cons_append, scanLowSurrogate, scanLowSurrogate,
      scanHex_append boundary]
    split
    · cases scanHex s with
      | none => rfl
      | some r =>
        obtain ⟨n, after⟩ := r
        simp only [extend_some]
        split <;> rfl
    · rfl

theorem scanEscape_append (s : Str) : scanEscape (s ++ t) = extend t (scanEscape s) := by
  rcases s with _ | ⟨e, s⟩
  · rcases boundary with rfl | ⟨rest, rfl⟩
    · rfl
    · simp [scanEscape, show CR ≠ LOWER_U from by decide,
        show shortEscapes.lookup CR = none from by decide]
  · rw [List.cons_append, scanEscape, scanEscape, scanHex_append boundary]
    split
    · cases scanHex s with
      | none => rfl
      | some r =>
        obtain ⟨n, after⟩ := r
        simp only [extend_some, scanLowSurrogate_append boundary]
        split
        · cases scanLowSurrogate after with
          | none => rfl
          | some low => rfl
        · rfl
    · cases shortEscapes.lookup e <;> rfl

omit boundary in
/-- An escape takes up text. -/
theorem scanEscape_shorter {s : Str} {c : CodePoint} {rest : Str}
    (h : scanEscape s = some (c, rest)) : rest.length < s.length := by
  have hex : ∀ {s : Str} {n : Nat} {rest : Str}, scanHex s = some (n, rest) →
      rest.length < s.length := by
    intro s n rest h
    -- fewer than four characters are no code unit
    rcases s with _ | ⟨a, _ | ⟨b, _ | ⟨c, _ | ⟨d, s⟩⟩⟩⟩
    · simp [scanHex] at h
    · simp [scanHex] at h
    · simp [scanHex] at h
    · simp [scanHex] at h
    · rw [scanHex] at h
      split at h
      · cases h
        simp only [List.length_cons]
        omega
      · cases h
  rcases s with _ | ⟨e, s⟩
  · cases h
  · rw [scanEscape] at h
    rw [List.length_cons]
    split at h
    · split at h
      · cases h
      next n after scanned =>
        have := hex scanned
        split at h
        · split at h
          -- a second escape is consumed only as the low surrogate of a pair
          next low rest found =>
            obtain ⟨-, rfl⟩ := Prod.mk.inj (Option.some.inj h)
            rcases after with _ | ⟨b, _ | ⟨u, after⟩⟩
            · cases found
            · cases found
            · rw [scanLowSurrogate] at found
              split at found
              · split at found
                next scannedLow =>
                  have := hex scannedLow
                  split at found
                  · cases found
                    simp only [List.length_cons] at *
                    omega
                  · cases found
                · cases found
              · cases found
          · obtain ⟨-, rfl⟩ := Prod.mk.inj (Option.some.inj h)
            omega
        · obtain ⟨-, rfl⟩ := Prod.mk.inj (Option.some.inj h)
          omega
    · obtain ⟨d, _, h⟩ := Option.map_eq_some_iff.mp h
      obtain ⟨-, rfl⟩ := Prod.mk.inj h
      omega

theorem scanChars_append (fuel fuel' : Nat) (s : Str) (enough : s.length < fuel)
    (enough' : s.length < fuel') :
    scanChars fuel' (s ++ t) = extend t (scanChars fuel s) := by
  induction fuel generalizing s fuel' with
  | zero => omega
  | succ fuel ih =>
    obtain ⟨fuel', rfl⟩ : ∃ n, fuel' = n + 1 := ⟨fuel' - 1, by omega⟩
    cases s with
    | nil =>
      rcases boundary with rfl | ⟨rest, rfl⟩
      · rfl
      · simp [scanChars, show CR ≠ QUOTE from by decide, show CR ≠ BACKSLASH from by decide,
          show CR.val < 0x20 from by decide]
    | cons c s =>
      rw [List.length_cons] at enough enough'
      rw [List.cons_append, scanChars, scanChars]
      split
      · rfl
      · split
        · rw [scanEscape_append boundary]
          cases escaped : scanEscape s with
          | none => rfl
          | some r =>
            obtain ⟨d, after⟩ := r
            have := scanEscape_shorter escaped
            simp only [extend_some]
            rw [ih fuel' after (by omega) (by omega)]
            exact extend_map t (d :: ·) _
        · split
          · rfl
          · rw [ih fuel' s (by omega) (by omega)]
            exact extend_map t (c :: ·) _

theorem scanString_append (s : Str) : scanString (s ++ t) = extend t (scanString s) :=
  scanChars_append boundary _ _ s (by omega) (by rw [List.length_append]; omega)

end Boundary

/-! ### What a scan takes up -/

theorem spanDigits_length (s : Str) :
    (spanDigits s).1.length + (spanDigits s).2.length = s.length := by
  induction s with
  | nil => rfl
  | cons c s ih =>
    rw [spanDigits]
    split
    · simp
    · simp only [List.length_cons]
      omega

/-- A number takes up text. -/
theorem scanNumeral_shorter {s : Str} {n : Numeral} {rest : Str}
    (h : scanNumeral s = some (n, rest)) : rest.length < s.length := by
  have minus : (scanMinus s).2.length ≤ s.length := by
    cases s with
    | nil => exact Nat.le_refl _
    | cons c s =>
      rw [scanMinus]
      split <;> simp
  have fraction : ∀ s : Str, (scanFraction s).2.length ≤ s.length := by
    intro s
    cases s with
    | nil => exact Nat.le_refl _
    | cons c s =>
      have digits := spanDigits_length s
      rw [scanFraction]
      split
      · split
        · exact Nat.le_refl _
        next scanned =>
          rw [scanned] at digits
          simp only [List.length_cons] at *
          omega
      · exact Nat.le_refl _
  have exponent : ∀ s : Str, (scanExponent s).2.length ≤ s.length := by
    intro s
    cases s with
    | nil => exact Nat.le_refl _
    | cons c s =>
      have sign : (scanSign s).2.length ≤ s.length := by
        cases s with
        | nil => exact Nat.le_refl _
        | cons c s =>
          rw [scanSign]
          split
          · simp
          · split <;> simp
      have digits := spanDigits_length (scanSign s).2
      rw [scanExponent]
      split
      · split
        · exact Nat.le_refl _
        next scanned =>
          rw [scanned] at digits
          simp only [List.length_cons] at *
          omega
      · exact Nat.le_refl _
  rw [scanNumeral] at h
  split at h
  · cases h
  next whole afterWhole scanned =>
    obtain ⟨-, rfl⟩ := Prod.mk.inj (Option.some.inj h)
    -- at least one digit stands before the fraction
    have digits := spanDigits_length (scanMinus s).2
    have wholeShorter : afterWhole.length < (scanMinus s).2.length := by
      rw [scanWhole] at scanned
      split at scanned
      · cases scanned
      next d ds after span =>
        rw [span, List.length_cons] at digits
        split at scanned
        · obtain ⟨-, rfl⟩ := Prod.mk.inj (Option.some.inj scanned)
          rw [List.length_tail]
          omega
        · obtain ⟨-, rfl⟩ := Prod.mk.inj (Option.some.inj scanned)
          simp only at digits
          omega
    have := fraction afterWhole
    have := exponent (scanFraction afterWhole).2
    omega

theorem stripPrefix_length {word s rest : Str} (h : stripPrefix word s = some rest) :
    rest.length + word.length = s.length := by
  induction word generalizing s with
  | nil =>
    obtain rfl := Option.some.inj h
    rfl
  | cons a word ih =>
    cases s with
    | nil => cases h
    | cons c s =>
      rw [stripPrefix] at h
      split at h
      · have := ih h
        simp only [List.length_cons]
        omega
      · cases h

/-- A word takes up text. -/
theorem scanWord_shorter {options : LoadOptions} {s : Str} {v : Json} {rest : Str}
    (h : scanWord options s = some (v, rest)) : rest.length < s.length := by
  -- every word is longer than nothing
  have word : ∀ {word : Str} {value : Json} {after : Str}, word ≠ [] →
      stripPrefix word s = some after → some (value, after) = some (v, rest) →
      rest.length < s.length := by
    intro word value after nonempty stripped found
    obtain ⟨-, rfl⟩ := Prod.mk.inj (Option.some.inj found)
    have := stripPrefix_length stripped
    have := List.length_pos_iff.mpr nonempty
    omega
  have constant : ∀ {word' : Str} {value : Json} {after : Str}, word' ≠ [] →
      stripPrefix word' s = some after → parseConstant options value after = some (v, rest) →
      rest.length < s.length := by
    intro word' value after nonempty stripped found
    rw [parseConstant] at found
    split at found
    · cases found
    · exact word nonempty stripped found
  rw [scanWord] at h
  split at h
  next stripped => exact word (by decide) stripped h
  split at h
  next stripped => exact word (by decide) stripped h
  split at h
  next stripped => exact word (by decide) stripped h
  split at h
  next stripped => exact constant (by decide) stripped h
  split at h
  next stripped => exact constant (by decide) stripped h
  split at h
  next stripped => exact constant (by decide) stripped h
  · rw [scanNumber] at h
    split at h
    · cases h
    next scanned =>
      obtain ⟨value, _, h⟩ := Option.map_eq_some_iff.mp h
      obtain ⟨-, rfl⟩ := Prod.mk.inj h
      exact scanNumeral_shorter scanned

theorem scanString_shorter {s : Str} {text : Str} {rest : Str}
    (h : scanString s = some (text, rest)) : rest.length < s.length := by
  have chars : ∀ (fuel : Nat) (s text rest : Str), scanChars fuel s = some (text, rest) →
      rest.length < s.length := by
    -- induction on the fuel of the characters
    intro fuel
    induction fuel with
    | zero => intro s text rest h; cases h
    | succ fuel ih =>
      intro s text rest h
      cases s with
      | nil => cases h
      | cons c s =>
        rw [List.length_cons]
        rw [scanChars] at h
        split at h
        · obtain ⟨-, rfl⟩ := Prod.mk.inj (Option.some.inj h)
          omega
        · split at h
          · split at h
            · cases h
            next d after escaped =>
              obtain ⟨⟨more, after'⟩, scanned, h⟩ := Option.map_eq_some_iff.mp h
              obtain ⟨-, rfl⟩ := Prod.mk.inj h
              have := scanEscape_shorter escaped
              have := ih _ _ _ scanned
              simp only
              omega
          · split at h
            · cases h
            · obtain ⟨⟨more, after'⟩, scanned, h⟩ := Option.map_eq_some_iff.mp h
              obtain ⟨-, rfl⟩ := Prod.mk.inj h
              have := ih _ _ _ scanned
              simp only
              omega
  exact chars _ s text rest h

theorem skipSpace_length (s : Str) : (skipSpace s).length ≤ s.length :=
  (List.dropWhile_sublist _).length_le

end Python
