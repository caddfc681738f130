import ClaimCI.Python.JsonGrammar
import ClaimCI.Python.Lines

/-!
# JSON lines cut at carriage returns

A line can be read as one JSON text, or as the texts between its carriage returns. The readings
agree exactly when at most one of these texts holds more than whitespace.
-/

namespace Python

def isJsonBlank (s : Str) : Bool := s.all isJsonSpace

/-- The value of a text that is not blank. -/
def textValue (options : LoadOptions) (text : Str) : Option Json :=
  if isBlank text then none else loads options text

/-- The pieces of a line between carriage returns that hold more than JSON whitespace. -/
def filledPieces (line : Str) : List Str := (split CR line).filter fun piece => !isJsonBlank piece

/-- A line whose carriage returns decide what it says: one of them stands between two characters
that are no whitespace, or between them stands whitespace that is not whitespace of JSON. -/
def Ambiguous (line : Str) : Prop :=
  line.all isAsciiSpace = false ∧
    (1 < (filledPieces line).length ∨ ∃ piece ∈ filledPieces line, isBlank piece = true)

instance (line : Str) : Decidable (Ambiguous line) := inferInstanceAs (Decidable (_ ∧ _))

theorem isSpace_of_jsonSpace {c : CodePoint} (h : isJsonSpace c = true) : isSpace c = true := by
  simp only [isJsonSpace, Bool.or_eq_true, beq_iff_eq] at h
  rcases h with ((rfl | rfl) | rfl) | rfl <;> decide

theorem isBlank_of_isJsonBlank {s : Str} (h : isJsonBlank s = true) : isBlank s = true :=
  List.all_eq_true.mpr fun c hc => isSpace_of_jsonSpace (List.all_eq_true.mp h c hc)

theorem isJsonBlank_eq_false {s : Str} (h : isBlank s = false) : isJsonBlank s = false :=
  Bool.eq_false_iff.mpr fun blank => by
    rw [isBlank_of_isJsonBlank blank] at h
    cases h

theorem isJsonBlank_append_CR (s t : Str) :
    isJsonBlank (s ++ CR :: t) = (isJsonBlank s && isJsonBlank t) := by
  rw [isJsonBlank, List.all_append, List.all_cons, isJsonSpace_CR, Bool.true_and]
  rfl

/-- A text that decodes is not blank. -/
theorem not_isBlank_of_loads {options : LoadOptions} {s : Str} {v : Json}
    (h : loads options s = some v) : isBlank s = false := by
  obtain ⟨c, after, found, plain⟩ := loads_head h
  apply Bool.eq_false_iff.mpr
  intro blank
  have member : c ∈ s := (List.dropWhile_sublist isJsonSpace).subset (by
    rw [skipSpace] at found
    rw [found]
    exact List.mem_cons_self)
  rw [List.all_eq_true.mp blank c member] at plain
  cases plain

theorem textValue_eq_some_iff (options : LoadOptions) (s : Str) (v : Json) :
    textValue options s = some v ↔ loads options s = some v := by
  rw [textValue]
  constructor
  · intro h
    split at h
    · cases h
    · exact h
  · intro h
    rw [if_neg (by simp [not_isBlank_of_loads h])]
    exact h

theorem textValue_of_isBlank (options : LoadOptions) {s : Str} (h : isBlank s = true) :
    textValue options s = none := if_pos h

theorem filledPieces_append (piece rest : Str) (noReturn : CR ∉ piece) :
    filledPieces (piece ++ CR :: rest) =
      if isJsonBlank piece then filledPieces rest else piece :: filledPieces rest := by
  rw [filledPieces, split_append_sep CR piece rest noReturn, List.filter_cons]
  cases isJsonBlank piece <;> rfl

theorem filledPieces_of_not_mem {line : Str} (noReturn : CR ∉ line) :
    filledPieces line = if isJsonBlank line then [] else [line] := by
  rw [filledPieces, split_of_not_mem CR line noReturn, List.filter_singleton]
  cases isJsonBlank line <;> rfl

/-- Whitespace has no filled pieces, and what has none is whitespace. -/
theorem filledPieces_eq_nil_iff (line : Str) : filledPieces line = [] ↔ isJsonBlank line = true := by
  induction length : line.length using Nat.strong_induction_on generalizing line with
  | _ n ih =>
    by_cases present : CR ∈ line
    · obtain ⟨piece, rest, rfl, noReturn⟩ := List.eq_append_cons_of_mem present
      have shorter := ih rest.length (by
        rw [← length, List.length_append, List.length_cons]
        omega) rest rfl
      rw [filledPieces_append piece rest noReturn, isJsonBlank_append_CR, Bool.and_eq_true]
      split
      next blank => exact shorter.trans ⟨fun h => ⟨blank, h⟩, fun h => h.2⟩
      next filled => exact iff_of_false (List.cons_ne_nil _ _) fun h => filled h.1
    · rw [filledPieces_of_not_mem present]
      cases isJsonBlank line <;> simp

/-- A line with one filled piece is that piece with whitespace around it. -/
theorem exists_of_filledPieces {line piece : Str} (h : filledPieces line = [piece]) :
    ∃ front back, line = front ++ (piece ++ back) ∧ isJsonBlank front = true ∧
      isJsonBlank back = true ∧ Boundary back := by
  induction length : line.length using Nat.strong_induction_on generalizing line with
  | _ n ih =>
    by_cases present : CR ∈ line
    · obtain ⟨first, rest, rfl, noReturn⟩ := List.eq_append_cons_of_mem present
      rw [filledPieces_append first rest noReturn] at h
      split at h
      next blank =>
        obtain ⟨front, back, rfl, blankFront, blankBack, boundary⟩ := ih rest.length (by
          rw [← length, List.length_append, List.length_cons]
          omega) h rfl
        refine ⟨first ++ CR :: front, back, by simp, ?_, blankBack, boundary⟩
        rw [isJsonBlank_append_CR, blank, blankFront]
        rfl
      next =>
        obtain ⟨rfl, none⟩ := List.cons.inj h
        refine ⟨[], CR :: rest, rfl, rfl, ?_, .inr ⟨rest, rfl⟩⟩
        rw [isJsonBlank, List.all_cons, isJsonSpace_CR]
        exact (filledPieces_eq_nil_iff rest).mp none
    · rw [filledPieces_of_not_mem present] at h
      split at h
      · cases h
      · obtain ⟨rfl, _⟩ := List.cons.inj h
        exact ⟨[], [], by simp, rfl, rfl, .inl rfl⟩

/-- Only filled pieces have values. -/
theorem filterMap_textValue (options : LoadOptions) (line : Str) :
    (split CR line).filterMap (textValue options) =
      (filledPieces line).filterMap (textValue options) := by
  rw [filledPieces, List.filterMap_filter]
  apply List.filterMap_congr
  intro piece _
  cases blank : isJsonBlank piece with
  | true => rw [textValue_of_isBlank options (isBlank_of_isJsonBlank blank)]; rfl
  | false => rfl

/-- A line with one filled piece says what the piece says. -/
theorem loads_filledPiece (options : LoadOptions) {line piece : Str}
    (h : filledPieces line = [piece]) : loads options line = loads options piece := by
  obtain ⟨front, back, rfl, blankFront, blankBack, boundary⟩ := exists_of_filledPieces h
  exact loads_trim options piece (List.all_eq_true.mp blankFront) (List.all_eq_true.mp blankBack)
    boundary

/-- A line that is a value, all pieces of which are values or blank, has one filled piece. -/
theorem filledPieces_of_loads {options : LoadOptions} {line : Str} {v : Json}
    (whole : loads options line = some v)
    (pieces : ∀ piece ∈ split CR line, isBlank piece = true ∨ ∃ w, loads options piece = some w) :
    ∃ piece, filledPieces line = [piece] ∧ isBlank piece = false := by
  -- induction on the length; the piece before the first CR is cut off
  induction length : line.length using Nat.strong_induction_on generalizing line with
  | _ n ih =>
    by_cases present : CR ∈ line
    · obtain ⟨first, rest, rfl, noReturn⟩ := List.eq_append_cons_of_mem present
      rw [split_append_sep CR first rest noReturn] at pieces
      obtain ⟨head, others⟩ := List.forall_mem_cons.mp pieces
      rw [filledPieces_append first rest noReturn]
      rcases head with blank | ⟨w, decoded⟩
      · -- a blank piece in front of the value is JSON whitespace
        have jsonBlank : isJsonBlank first = true := by
          by_contra filled
          obtain ⟨c, after, found, plain⟩ := loads_head whole
          have nonempty : skipSpace first ≠ [] := fun empty =>
            filled (List.all_eq_true.mpr ((skipSpace_eq_nil_iff first).mp empty))
          rw [skipSpace_append _ nonempty] at found
          obtain ⟨d, more, starts⟩ := List.exists_cons_of_ne_nil nonempty
          rw [starts] at found
          obtain ⟨rfl, _⟩ := List.cons.inj found
          have member : d ∈ first := (List.dropWhile_sublist isJsonSpace).subset (by
            rw [skipSpace] at starts
            rw [starts]
            exact List.mem_cons_self)
          rw [List.all_eq_true.mp blank d member] at plain
          cases plain
        rw [if_pos jsonBlank]
        have decoded : loads options rest = some v := by
          rw [← whole]
          have trimmed := @loads_trim options (first ++ [CR]) [] rest (by
            intro c hc
            rcases List.mem_append.mp hc with hc | hc
            · exact List.all_eq_true.mp jsonBlank c hc
            · rw [List.mem_singleton.mp hc]
              exact isJsonSpace_CR) (by simp) (.inl rfl)
          rw [← trimmed]
          simp
        exact ih rest.length (by
          rw [← length, List.length_append, List.length_cons]
          omega) decoded others rfl
      · have filled := not_isBlank_of_loads decoded
        have whole' : loads options ([] ++ (first ++ CR :: rest)) = some v := whole
        obtain ⟨_, blank⟩ := loads_first (by simp) (.inr ⟨rest, rfl⟩) decoded whole'
        have none : filledPieces rest = [] := (filledPieces_eq_nil_iff rest).mpr
          (List.all_eq_true.mpr fun c hc => blank c (List.mem_cons_of_mem _ hc))
        refine ⟨first, ?_, filled⟩
        rw [isJsonBlank_eq_false filled, none]
        rfl
    · rw [filledPieces_of_not_mem present]
      have filled := not_isBlank_of_loads whole
      refine ⟨line, ?_, filled⟩
      rw [isJsonBlank_eq_false filled]
      rfl

/-- A line that reads well both ways is not ambiguous, and says the same both ways. -/
theorem values_of_both {options : LoadOptions} {line : Str} {v : Json}
    (whole : loads options line = some v)
    (pieces : ∀ piece ∈ split CR line, isBlank piece = true ∨ ∃ w, loads options piece = some w) :
    ¬ Ambiguous line ∧ (split CR line).filterMap (textValue options) = [v] := by
  obtain ⟨piece, one, filled⟩ := filledPieces_of_loads whole pieces
  constructor
  · rintro ⟨_, many | ⟨other, member, blank⟩⟩
    · rw [one] at many
      exact absurd many (by simp)
    · rw [one, List.mem_singleton] at member
      rw [member, filled] at blank
      cases blank
  · have same := (textValue_eq_some_iff options piece v).mpr (by
      rw [← loads_filledPiece options one]
      exact whole)
    rw [filterMap_textValue, one, List.filterMap_cons, same]
    rfl

/-- A line that is neither ambiguous nor blank has one filled piece. -/
theorem filledPieces_of_not_ambiguous {line : Str} (filled : line.all isAsciiSpace = false)
    (clear : ¬ Ambiguous line) : ∃ piece, filledPieces line = [piece] ∧ isBlank piece = false := by
  have few : ¬ 1 < (filledPieces line).length := fun many => clear ⟨filled, .inl many⟩
  have wide : ∀ piece ∈ filledPieces line, isBlank piece = false := by
    intro piece member
    exact Bool.eq_false_iff.mpr fun blank => clear ⟨filled, .inr ⟨piece, member, blank⟩⟩
  have some : filledPieces line ≠ [] := by
    intro none
    have blank := (filledPieces_eq_nil_iff line).mp none
    have ascii : line.all isAsciiSpace = true := by
      refine List.all_eq_true.mpr fun c hc => ?_
      have space := List.all_eq_true.mp blank c hc
      simp only [isJsonSpace, Bool.or_eq_true, beq_iff_eq] at space
      rcases space with ((rfl | rfl) | rfl) | rfl <;> decide
    rw [ascii] at filled
    cases filled
  obtain ⟨piece, others, found⟩ := List.exists_cons_of_ne_nil some
  obtain rfl : others = [] := by
    rw [found, List.length_cons] at few
    exact List.eq_nil_of_length_eq_zero (by omega)
  exact ⟨piece, found, wide piece (by rw [found]; exact List.mem_cons_self)⟩

/-- A piece is blank, or it is filled. -/
theorem isBlank_or_filled {line piece : Str} (h : piece ∈ split CR line) :
    isBlank piece = true ∨ piece ∈ filledPieces line := by
  cases blank : isJsonBlank piece with
  | true => exact .inl (isBlank_of_isJsonBlank blank)
  | false => exact .inr (List.mem_filter.mpr ⟨h, by rw [blank]; rfl⟩)

end Python
