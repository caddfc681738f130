import ClaimCI.Java.Lexical
import ClaimCI.Review.EvidenceReferences
import ClaimCI.Review.Interpretations

/-!
# Counts of Java tests

The character scan that masks comments and literals finds the elements of the source, but for text
blocks, which it opens and ends at every triple quote, and for literals that it does not look into;
and it counts the lines that `splitlines` finds in the masked text, not those of the source.
-/

open Python

namespace ClaimCI.Review

/-! ### The scan as a function of the state and the rest -/

/-- What is left of the scan in a state; as many characters as there are suffice. -/
def scanJava (state : JavaState) (s : Str) : Option Str := maskJava s.length state s

theorem maskJava_fuel (fuel fuel' : Nat) (state : JavaState) (s : Str) (enough : s.length ≤ fuel)
    (enough' : s.length ≤ fuel') : maskJava fuel state s = maskJava fuel' state s := by
  -- induction on the fuel; each step leaves a tail, which both fuels cover
  induction fuel generalizing fuel' state s with
  | zero =>
    have empty : s = [] := List.length_eq_zero_iff.mp (Nat.le_zero.mp enough)
    subst empty
    cases fuel' <;> rfl
  | succ fuel ih =>
    cases s with
    | nil => cases fuel' <;> rfl
    | cons c rest =>
      cases fuel' with
      | zero => simp at enough'
      | succ fuel' =>
        rw [List.length_cons] at enough enough'
        have shorter (state : JavaState) (t : Str) (le : t.length ≤ rest.length) :
            maskJava fuel state t = maskJava fuel' state t :=
          ih fuel' state t (by omega) (by omega)
        have same (state : JavaState) := shorter state rest le_rfl
        have tail (state : JavaState) := shorter state rest.tail (by simp)
        have drop (state : JavaState) := shorter state (rest.drop 2) (by simp)
        cases state with
        | code => simp only [maskJava, same, tail, drop]
        | lineComment => simp only [maskJava, same]
        | blockComment => simp only [maskJava, same, tail]
        | textBlock => simp only [maskJava, same, drop]
        | string =>
          cases rest with
          | nil => simp only [maskJava, same]
          | cons d more =>
            -- an escape takes two characters at once
            have after := shorter .string more (by simp)
            simp only [maskJava, same, after]
        | character =>
          cases rest with
          | nil => simp only [maskJava, same]
          | cons d more =>
            have after := shorter .character more (by simp)
            simp only [maskJava, same, after]

theorem maskJava_eq {fuel : Nat} {state : JavaState} {s : Str} (enough : s.length ≤ fuel) :
    maskJava fuel state s = scanJava state s :=
  maskJava_fuel fuel s.length state s enough le_rfl

/-- The body of a text block as the scan finds it, and what follows: its first triple quote ends it. -/
def quotesEnd : Str → Option (Str × Str)
  | [] => none
  | c :: rest =>
    if TEXT_BLOCK.isPrefixOf (c :: rest) then some ([], rest.drop 2)
    else (quotesEnd rest).map fun found => (c :: found.1, found.2)

/-- The rules of the scan: every triple quote opens a text block or ends one, and what stands between
two quotes or two apostrophes of a line is not looked at. -/
def scanRules : Java.Rules where
  opensBlock _ := true
  blockTextEnd := quotesEnd
  stringEnd := Java.unescapedEnd QUOTE
  characterEnd := Java.unescapedEnd APOSTROPHE

@[simp] theorem scanJava_nil (state : JavaState) :
    scanJava state [] = if state = .code ∨ state = .lineComment then some [] else none := rfl

example : scanJava .code (lit "a/**/b//c") = some (lit "a    b   ") := by decide +kernel

theorem scanJava_code (c : CodePoint) (rest : Str) :
    scanJava .code (c :: rest) =
      if c = SLASH ∧ rest.head? = some SLASH then
        (scanJava .lineComment rest.tail).map ([SPACE, SPACE] ++ ·)
      else if c = SLASH ∧ rest.head? = some 0x2A then
        (scanJava .blockComment rest.tail).map ([SPACE, SPACE] ++ ·)
      else if TEXT_BLOCK.isPrefixOf (c :: rest) then
        (scanJava .textBlock (rest.drop 2)).map ([SPACE, SPACE, SPACE] ++ ·)
      else if c = QUOTE then (scanJava .string rest).map (SPACE :: ·)
      else if c = APOSTROPHE then (scanJava .character rest).map (SPACE :: ·)
      else (scanJava .code rest).map (c :: ·) := by
  have tail (state : JavaState) : maskJava rest.length state rest.tail = scanJava state rest.tail :=
    maskJava_eq (by simp)
  have drop (state : JavaState) : maskJava rest.length state (rest.drop 2) =
      scanJava state (rest.drop 2) := maskJava_eq (by simp)
  have same (state : JavaState) : maskJava rest.length state rest = scanJava state rest := rfl
  rw [scanJava, List.length_cons, maskJava]
  simp only [tail, drop, same]

theorem scanJava_code_newline (rest : Str) :
    scanJava .code (LF :: rest) = (scanJava .code rest).map (LF :: ·) := by
  have noTriple : TEXT_BLOCK.isPrefixOf (LF :: rest) = false := rfl
  have notSlash : LF ≠ SLASH := by decide
  rw [scanJava_code, if_neg (notSlash ·.1), if_neg (notSlash ·.1), noTriple,
    if_neg Bool.false_ne_true, if_neg (by decide), if_neg (by decide)]

theorem scanJava_lineComment_cons (c : CodePoint) (rest : Str) :
    scanJava .lineComment (c :: rest) =
      (scanJava (if c = LF then .code else .lineComment) rest).map (blank c :: ·) := rfl

theorem scanJava_blockComment_cons (c : CodePoint) (rest : Str) :
    scanJava .blockComment (c :: rest) =
      if c = 0x2A ∧ rest.head? = some SLASH then
        (scanJava .code rest.tail).map ([SPACE, SPACE] ++ ·)
      else (scanJava .blockComment rest).map (blank c :: ·) := by
  have tail : maskJava rest.length .code rest.tail = scanJava .code rest.tail := maskJava_eq (by simp)
  rw [scanJava, List.length_cons, maskJava, tail]
  rfl

theorem scanJava_textBlock_cons (c : CodePoint) (rest : Str) :
    scanJava .textBlock (c :: rest) =
      if TEXT_BLOCK.isPrefixOf (c :: rest) then
        (scanJava .code (rest.drop 2)).map ([SPACE, SPACE, SPACE] ++ ·)
      else (scanJava .textBlock rest).map (blank c :: ·) := by
  have drop : maskJava rest.length .code (rest.drop 2) = scanJava .code (rest.drop 2) :=
    maskJava_eq (by simp)
  rw [scanJava, List.length_cons, maskJava, drop]
  rfl

/-- The states inside a literal on one line, and what ends them. -/
def JavaState.InLiteral (state : JavaState) (terminator : CodePoint) : Prop :=
  state = .string ∧ terminator = QUOTE ∨ state = .character ∧ terminator = APOSTROPHE

theorem scanJava_literal_single {state : JavaState} {terminator : CodePoint}
    (inside : state.InLiteral terminator) (c : CodePoint) :
    scanJava state [c] = if c = terminator then some [SPACE] else none := by
  by_cases ends : c = terminator
  · subst ends
    rcases inside with ⟨rfl, rfl⟩ | ⟨rfl, rfl⟩ <;> decide
  · rw [if_neg ends]
    rcases inside with ⟨rfl, rfl⟩ | ⟨rfl, rfl⟩ <;> simp [scanJava, maskJava, ends]

theorem scanJava_literal_cons {state : JavaState} {terminator : CodePoint}
    (inside : state.InLiteral terminator) (c d : CodePoint) (rest : Str) :
    scanJava state (c :: d :: rest) =
      if c = LF then none
      else if c = BACKSLASH then
        if d = LF then none else (scanJava state rest).map ([SPACE, SPACE] ++ ·)
      else (scanJava (if c = terminator then .code else state) (d :: rest)).map (SPACE :: ·) := by
  have after (state : JavaState) : maskJava (d :: rest).length state rest = scanJava state rest :=
    maskJava_eq (by simp)
  have same (state : JavaState) : maskJava (d :: rest).length state (d :: rest) =
      scanJava state (d :: rest) := rfl
  have size : (c :: d :: rest).length = (d :: rest).length + 1 := rfl
  rcases inside with ⟨rfl, rfl⟩ | ⟨rfl, rfl⟩ <;>
    simp only [scanJava, size, maskJava, reduceCtorEq, if_true, if_false] <;>
    simp only [after, same] <;>
    rfl

/-! ### Comments and literals -/

theorem scanJava_lineComment (s : Str) :
    scanJava .lineComment s =
      (scanJava .code (Java.lineEnd s).2).map ((Java.lineEnd s).1.map blank ++ ·) := by
  induction s with
  | nil => rfl
  | cons c rest ih =>
    rw [scanJava_lineComment_cons, Java.lineEnd]
    split
    next newline =>
      rw [newline, scanJava_code_newline, Option.map_map]
      rfl
    next other =>
      rw [ih, Option.map_map]
      rfl

theorem scanJava_blockComment (s : Str) :
    scanJava .blockComment s =
      (Java.blockEnd s).bind fun found =>
        (scanJava .code found.2).map ((found.1 ++ [0x2A, SLASH]).map blank ++ ·) := by
  induction s with
  | nil => rfl
  | cons c rest ih =>
    rw [scanJava_blockComment_cons, Java.blockEnd]
    have star : Java.ASTERISK = 0x2A := rfl
    have slash : Java.SLASH = SLASH := rfl
    rw [star, slash]
    split
    · rfl
    · rw [ih, Option.map_bind, Option.bind_map]
      congr 1
      funext found
      simp only [Function.comp_apply, Option.map_map]
      rfl

theorem scanJava_textBlock (s : Str) :
    scanJava .textBlock s =
      (quotesEnd s).bind fun found =>
        (scanJava .code found.2).map ((found.1 ++ TEXT_BLOCK).map blank ++ ·) := by
  induction s with
  | nil => rfl
  | cons c rest ih =>
    rw [scanJava_textBlock_cons, quotesEnd]
    split
    · rfl
    · rw [ih, Option.map_bind, Option.bind_map]
      congr 1
      funext found
      simp only [Function.comp_apply, Option.map_map]
      rfl

theorem scanJava_literal {state : JavaState} {terminator : CodePoint}
    (inside : state.InLiteral terminator) (s : Str) :
    scanJava state s =
      (Java.unescapedEnd terminator s).bind fun found =>
        (scanJava .code found.2).map ((found.1 ++ [terminator]).map blank ++ ·) := by
  have masked : blank terminator = SPACE := by
    rcases inside with ⟨-, rfl⟩ | ⟨-, rfl⟩ <;> decide
  -- two characters at a time: a backslash takes the next one along
  induction s using List.twoStepInduction with
  | nil =>
    rcases inside with ⟨rfl, -⟩ | ⟨rfl, -⟩ <;> rfl
  | singleton c =>
    rw [scanJava_literal_single inside, Java.unescapedEnd]
    split
    · simp [masked]
    · rfl
  | cons_cons c d rest ih ih' =>
    rw [scanJava_literal_cons inside, Java.unescapedEnd]
    split
    · rfl
    next notLf =>
      have blanked : blank c = SPACE := if_neg notLf
      -- a backslash, the terminator, and any other character
      split
      · split
        · rfl
        next notLf' =>
          have blanked' : blank d = SPACE := if_neg notLf'
          rw [ih, Option.map_bind, Option.bind_map]
          congr 1
          funext found
          simp only [Function.comp_apply, Option.map_map, List.cons_append, List.map_cons, blanked, blanked']
          rfl
      · split
        · simp [masked]
        next other =>
          rw [ih' d, Option.map_bind, Option.bind_map]
          congr 1
          funext found
          simp only [Function.comp_apply, Option.map_map, List.cons_append, List.map_cons, blanked]
          rfl

/-! ### The scan masks the elements of the source -/

theorem quotesEnd_text {s : Str} {found : Str × Str} (h : quotesEnd s = some found) :
    s = found.1 ++ TEXT_BLOCK ++ found.2 := by
  induction s generalizing found with
  | nil => cases h
  | cons c rest ih =>
    rw [quotesEnd] at h
    split at h
    next closes =>
      rw [← Option.some.inj h]
      exact Java.isPrefixOf_drop closes
    · obtain ⟨later, found', rfl⟩ := Option.map_eq_some_iff.mp h
      rw [ih found']
      rfl

theorem scanRules_closing : scanRules.Closing where
  block _ _ h := quotesEnd_text h
  string _ _ h := Java.unescapedEnd_text h
  character _ _ h := Java.unescapedEnd_text h

/-- The scan of a source masks its elements under the scan's rules. -/
theorem scanJava_eq (fuel : Nat) (s : Str) (enough : s.length ≤ fuel) :
    scanJava .code s = (Java.elementsBy scanRules fuel s).map Java.codeText := by
  induction fuel generalizing s with
  | zero =>
    rw [List.length_eq_zero_iff.mp (Nat.le_zero.mp enough)]
    rfl
  | succ fuel ih =>
    cases s with
    | nil => rfl
    | cons c rest =>
      rw [List.length_cons] at enough
      rw [scanJava_code, Java.elementsBy]
      have slash : Java.SLASH = SLASH := rfl
      have star : Java.ASTERISK = 0x2A := rfl
      have triple : Java.TRIPLE_QUOTE = TEXT_BLOCK := rfl
      have apostrophe : Java.APOSTROPHE = APOSTROPHE := rfl
      rw [slash, star, triple, apostrophe]
      simp only [scanRules, and_true]
      split
      · -- a line comment
        have size := congrArg List.length (Java.lineEnd_text rest.tail)
        rw [List.length_append, List.length_tail] at size
        rw [scanJava_lineComment, ih _ (by omega), Option.map_map, Option.map_map, Option.map_map]
        congr 1
      · split
        · -- a block comment
          rw [scanJava_blockComment, Option.map_bind, Option.map_bind]
          apply Option.bind_congr
          intro found ended
          have size := congrArg List.length (Java.blockEnd_text ended)
          simp only [List.length_append, List.length_tail] at size
          simp only [Function.comp_apply]
          rw [ih _ (by omega)]
          simp only [Option.map_map]
          congr 1
        · split
          · -- a text block
            rw [scanJava_textBlock, Option.map_bind, Option.map_bind]
            apply Option.bind_congr
            intro found ended
            have size := congrArg List.length (quotesEnd_text ended)
            simp only [List.length_append, List.length_drop] at size
            simp only [Function.comp_apply]
            rw [ih _ (by omega)]
            simp only [Option.map_map]
            congr 1
          · split
            next opens =>
              rw [scanJava_literal (.inl ⟨rfl, rfl⟩), Option.map_bind, Option.map_bind]
              apply Option.bind_congr
              intro found ended
              have size := congrArg List.length (Java.unescapedEnd_text ended)
              simp only [List.length_append] at size
              simp only [Function.comp_apply]
              rw [ih _ (by omega)]
              simp only [Option.map_map]
              congr 1
            next =>
              split
              next opens =>
                rw [scanJava_literal (.inr ⟨rfl, rfl⟩), Option.map_bind, Option.map_bind]
                apply Option.bind_congr
                intro found ended
                have size := congrArg List.length (Java.unescapedEnd_text ended)
                simp only [List.length_append] at size
                simp only [Function.comp_apply]
                rw [ih _ (by omega)]
                simp only [Option.map_map]
                congr 1
              next =>
                -- any other character is code
                rw [ih rest (by omega), Option.map_map, Option.map_map]
                congr 1

/-! ### Text blocks -/

/-- A backslash at the end of the text still waits for the character it escapes. -/
def endsEscaped : Str → Bool
  | [] => false
  | [c] => c == BACKSLASH
  | c :: d :: rest => if c = BACKSLASH then endsEscaped rest else endsEscaped (d :: rest)

/-- The first triple quote ends a text block when it is not escaped. -/
theorem tripleQuoteEnd_of_quotesEnd {s : Str} {found : Str × Str} (h : quotesEnd s = some found)
    (plain : endsEscaped found.1 = false) : Java.tripleQuoteEnd s = some found := by
  induction s using List.twoStepInduction generalizing found with
  | nil => cases h
  | singleton c =>
    have noTriple : TEXT_BLOCK.isPrefixOf [c] = false := by
      simp [TEXT_BLOCK, List.isPrefixOf]
    rw [quotesEnd, noTriple, if_neg Bool.false_ne_true] at h
    cases h
  -- a quote behind a backslash ends the block for the scan but not for Java
  | cons_cons c d rest ih ih' =>
    rw [quotesEnd] at h
    rw [Java.tripleQuoteEnd]
    by_cases backslash : c = BACKSLASH
    · have noTriple : TEXT_BLOCK.isPrefixOf (c :: d :: rest) = false := by
        rw [backslash]
        rfl
      rw [noTriple, if_neg Bool.false_ne_true] at h
      obtain ⟨later, found', rfl⟩ := Option.map_eq_some_iff.mp h
      rw [if_pos backslash]
      rw [quotesEnd] at found'
      split at found'
      · -- the quote behind the backslash would end the block
        rw [← Option.some.inj found', backslash] at plain
        cases plain
      · obtain ⟨last, found'', rfl⟩ := Option.map_eq_some_iff.mp found'
        rw [endsEscaped, if_pos backslash] at plain
        rw [ih found'' plain]
        rfl
    · rw [if_neg backslash]
      split at h
      next closes =>
        have closes' : Java.TRIPLE_QUOTE.isPrefixOf (c :: d :: rest) = true := closes
        rw [if_pos closes', ← Option.some.inj h, List.drop_succ_cons, List.drop_one]
      next goes =>
        have goes' : ¬ Java.TRIPLE_QUOTE.isPrefixOf (c :: d :: rest) = true := goes
        obtain ⟨later, found', rfl⟩ := Option.map_eq_some_iff.mp h
        have plain' : endsEscaped later.1 = false := by
          cases body : later.1 with
          | nil => rfl
          | cons e more =>
            rw [body, endsEscaped, if_neg backslash] at plain
            exact plain
        rw [if_neg goes', ih' d found' plain']
        rfl

/-- Java too opens every text block among the elements, and none ends at an escaped quote. -/
def PlainBlocks (elements : List Java.Element) : Prop :=
  ∀ body, .textBlock body ∈ elements →
    Java.opensTextBlock body = true ∧ endsEscaped body = false

/-- Blanks and the end of the line stand in the body of the block that they open. -/
theorem opensTextBlock_append {body : Str} (opens : Java.opensTextBlock body = true) (after : Str) :
    Java.opensTextBlock (body ++ after) = true := by
  rw [Java.opensTextBlock, beq_iff_eq] at opens ⊢
  obtain ⟨rest, cut⟩ := List.head?_eq_some_iff.mp opens
  rw [List.dropWhile_append, cut]
  simp

/-- Where the scan and Java open and end the same text blocks, Java finds the elements of the scan if
its literals are literals of Java, and else that some literal does not end. -/
theorem elements_of_plain {fuel : Nat} {s : Str} {found : List Java.Element}
    (h : Java.elementsBy scanRules fuel s = some found) (plain : PlainBlocks found) :
    Java.elementsBy Java.rules fuel s =
      if found.all Java.Element.lawful then some found else none := by
  induction fuel generalizing s found with
  | zero =>
    cases s with
    | nil =>
      cases h
      rfl
    | cons c rest => cases h
  | succ fuel ih =>
    cases s with
    | nil =>
      cases h
      rfl
    | cons c rest =>
      rw [Java.elementsBy] at h ⊢
      have later {e : Java.Element} {t : Str} {others : List Java.Element}
          (others' : Java.elementsBy scanRules fuel t = some others) (same : e :: others = found) :
          (if e.lawful then (Java.elementsBy Java.rules fuel t).map (e :: ·) else none) =
            if found.all Java.Element.lawful then some found else none := by
        rw [ih others' fun body mem => plain body (same ▸ List.mem_cons_of_mem _ mem), ← same,
          List.all_cons]
        cases e.lawful <;> cases others.all Java.Element.lawful <;> rfl
      -- A literal that ends for the scan ends for Java exactly if it is lawful.
      have literal {end' : Option (Str × Str)} {cut : Str × Str} {law : Str → Bool}
          {build : Str → Java.Element} {others : List Java.Element} (ended : end' = some cut)
          (others' : Java.elementsBy scanRules fuel cut.2 = some others)
          (same : build cut.1 :: others = found) (lawful : (build cut.1).lawful = law cut.1) :
          ((end'.filter fun found => law found.1).bind fun found =>
            (Java.elementsBy Java.rules fuel found.2).map (build found.1 :: ·)) =
            if found.all Java.Element.lawful then some found else none := by
        rw [← later others' same, lawful, ended, Option.filter_some]
        cases law cut.1 <;> rfl
      split at h
      next opens =>
        rw [if_pos opens]
        obtain ⟨others, found', same⟩ := Option.map_eq_some_iff.mp h
        exact later found' same
      next other =>
        rw [if_neg other]
        split at h
        next opens =>
          rw [if_pos opens]
          obtain ⟨cut, ended, mapped⟩ := Option.bind_eq_some_iff.mp h
          obtain ⟨others, found', same⟩ := Option.map_eq_some_iff.mp mapped
          rw [ended, Option.bind_some]
          exact later found' same
        next other =>
          rw [if_neg other]
          split at h
          next opens =>
            obtain ⟨cut, ended, mapped⟩ := Option.bind_eq_some_iff.mp h
            obtain ⟨others, found', same⟩ := Option.map_eq_some_iff.mp mapped
            obtain ⟨opened, escaped⟩ := plain cut.1 (same ▸ List.mem_cons_self)
            have begins : Java.opensTextBlock (rest.drop 2) = true := by
              rw [quotesEnd_text ended, List.append_assoc]
              exact opensTextBlock_append opened _
            rw [if_pos ⟨opens.1, begins⟩]
            exact literal (tripleQuoteEnd_of_quotesEnd ended escaped) found' same rfl
          next other =>
            rw [if_neg fun opens => other ⟨opens.1, rfl⟩]
            split at h
            next opens =>
              rw [if_pos opens]
              obtain ⟨cut, ended, mapped⟩ := Option.bind_eq_some_iff.mp h
              obtain ⟨others, found', same⟩ := Option.map_eq_some_iff.mp mapped
              exact literal ended found' same rfl
            next other =>
              rw [if_neg other]
              split at h
              next opens =>
                rw [if_pos opens]
                obtain ⟨cut, ended, mapped⟩ := Option.bind_eq_some_iff.mp h
                obtain ⟨others, found', same⟩ := Option.map_eq_some_iff.mp mapped
                exact literal ended found' same rfl
              next other =>
                rw [if_neg other]
                obtain ⟨others, found', same⟩ := Option.map_eq_some_iff.mp h
                exact later found' same

/-! ### Lines -/

/-- What stands between the boundaries that `str.splitlines` knows, in a text without CR. -/
def boundaryLines : Str → List Str
  | [] => [[]]
  | c :: rest =>
    if isLineBoundary c then [] :: boundaryLines rest
    else (boundaryLines rest).modifyHead (c :: ·)

theorem boundaryLines_ne_nil (s : Str) : boundaryLines s ≠ [] := by
  induction s with
  | nil => exact List.cons_ne_nil _ _
  | cons c rest ih =>
    rw [boundaryLines]
    split
    · exact List.cons_ne_nil _ _
    · simpa using ih

theorem boundaryLines_of_none {s : Str} (none : ∀ c ∈ s, isLineBoundary c = false) :
    boundaryLines s = [s] := by
  induction s with
  | nil => rfl
  | cons c rest ih =>
    rw [List.forall_mem_cons] at none
    rw [boundaryLines, if_neg (by simp [none.1]), ih none.2]
    rfl

/-- The lines of a text are the lines of its LF-delimited pieces. -/
theorem boundaryLines_split (s : Str) :
    boundaryLines s = (split LF s).flatMap boundaryLines := by
  induction s with
  | nil => rfl
  | cons c rest ih =>
    by_cases newline : c = LF
    · subst newline
      rw [split_sep_cons, List.flatMap_cons, ← ih]
      rfl
    · rw [Python.split, if_neg newline]
      cases pieces : Python.split LF rest with
      | nil => exact absurd pieces (split_ne_nil LF rest)
      | cons piece others =>
        rw [pieces, List.flatMap_cons] at ih
        rw [List.flatMap_cons, boundaryLines, boundaryLines, ih]
        split
        · rfl
        · cases first : boundaryLines piece with
          | nil => exact absurd first (boundaryLines_ne_nil piece)
          | cons line lines => rfl

/-- A line of `str.splitlines`. -/
def unterminated (line : Str) : Str :=
  if [CR, LF].isSuffixOf line then line.take (line.length - 2)
  else if line.getLast?.any isLineBoundary then line.dropLast
  else line

theorem unterminated_single (c : CodePoint) :
    unterminated [c] = if isLineBoundary c then [] else [c] := by
  have noPair : [CR, LF].isSuffixOf [c] = false := by
    rw [Bool.eq_false_iff, Ne, List.isSuffixOf_iff_suffix]
    intro suffix
    have := suffix.length_le
    simp at this
  rw [unterminated, noPair, if_neg Bool.false_ne_true]
  rfl

theorem unterminated_cons {c : CodePoint} {line : Str} (filled : line ≠ []) (noReturn : CR ∉ c :: line) :
    unterminated (c :: line) = c :: unterminated line := by
  have noPair {s : Str} (none : CR ∉ s) : [CR, LF].isSuffixOf s = false := by
    rw [Bool.eq_false_iff, Ne, List.isSuffixOf_iff_suffix]
    intro suffix
    exact none (suffix.subset List.mem_cons_self)
  rw [List.mem_cons, not_or] at noReturn
  rw [unterminated, unterminated, noPair (s := c :: line) (by simp [noReturn]), noPair noReturn.2,
    if_neg Bool.false_ne_true, if_neg Bool.false_ne_true, List.getLast?_cons_of_ne_nil filled]
  split
  · exact List.dropLast_cons_of_ne_nil filled
  · rfl

/-- Without CR, `str.splitlines` gives what stands between the boundaries, but for nothing behind
the last one. -/
theorem plainLines_eq {s : Str} (filled : s ≠ []) (noReturn : CR ∉ s) :
    ∃ last, (last = [] ∨ last = [[]]) ∧ boundaryLines s = plainLines s ++ last := by
  have mapped (s : Str) : plainLines s = (splitLines s).map unterminated := rfl
  -- the cases of `splitLines`; without CR no line ends at a pair
  induction s using splitLines.induct with
  | case1 => exact absurd rfl filled
  | case2 c =>
    rw [mapped, splitLines, List.map_singleton, unterminated_single, boundaryLines]
    split
    · exact ⟨[[]], .inr rfl, rfl⟩
    · exact ⟨[], .inl rfl, rfl⟩
  | case3 rest c d pair ih => exact absurd (pair.1 ▸ List.mem_cons_self) noReturn
  | case4 c d rest notPair boundary ih =>
    rw [List.mem_cons, not_or] at noReturn
    obtain ⟨last, kind, tail⟩ := ih (List.cons_ne_nil d rest) noReturn.2
    refine ⟨last, kind, ?_⟩
    rw [mapped, splitLines, if_neg notPair, if_pos boundary, List.map_cons,
      unterminated_single, if_pos boundary, boundaryLines, if_pos boundary, tail]
    rfl
  -- the character joins the first line of what follows, which the boundary still ends
  | case5 c d rest notPair inner ih =>
    have noReturn' := noReturn
    rw [List.mem_cons, not_or] at noReturn
    obtain ⟨last, kind, tail⟩ := ih (List.cons_ne_nil d rest) noReturn.2
    refine ⟨last, kind, ?_⟩
    rw [mapped, splitLines, if_neg notPair, if_neg inner, boundaryLines, if_neg inner, tail, mapped]
    cases lines : splitLines (d :: rest) with
    | nil => exact absurd lines (splitLines_ne_nil (List.cons_ne_nil d rest))
    | cons line others =>
      have member : line ∈ splitLines (d :: rest) := lines ▸ List.mem_cons_self
      have clean : CR ∉ c :: line := by
        rw [List.mem_cons, not_or]
        refine ⟨noReturn.1, fun inside => noReturn.2 ?_⟩
        rw [← splitLines_flatten (d :: rest)]
        exact List.mem_flatten.mpr ⟨line, member, inside⟩
      rw [List.modifyHead_cons, List.map_cons, List.map_cons,
        unterminated_cons (ne_nil_of_mem_splitLines member) clean]
      rfl

/-! ### Counting -/

/-- How many lines of the source are a test annotation alone, with comments and literals blank. -/
def standaloneTests (elements : List Java.Element) : Nat :=
  ((split LF (Java.codeText elements)).filter isStandaloneTest).length

/-- No line of the source with another boundary inside has a test annotation alone between two. -/
def NoHiddenLine (elements : List Java.Element) : Prop :=
  ∀ line ∈ split LF (Java.codeText elements), (∃ c ∈ line, isLineBoundary c = true) →
    ∀ piece ∈ plainLines line, isStandaloneTest piece = false

theorem isStandaloneTest_nil : isStandaloneTest [] = false := by decide

theorem mem_of_isStandaloneTest {line : Str} (h : isStandaloneTest line = true) :
    ∀ c ∈ line, isLineBoundary c = false := by
  simp only [isStandaloneTest, beq_iff_eq] at h
  have letters : (lit "@Test").all (fun c => !isLineBoundary c) = true := by decide
  have blanks (c : CodePoint) (space : (c == SPACE || c == 0x09) = true) : isLineBoundary c = false := by
    rcases Bool.or_eq_true_iff.mp space with same | same
    · rw [beq_iff_eq.mp same]
      decide
    · rw [beq_iff_eq.mp same]
      decide
  intro c inside
  rw [← List.takeWhile_append_dropWhile (p := fun c => c == SPACE || c == 0x09) (l := line),
    List.mem_append] at inside
  rcases inside with front | behind
  · exact blanks c (List.mem_takeWhile_imp (p := fun c => c == SPACE || c == 0x09) front)
  · rw [← List.rdropWhile_append_rtakeWhile (p := fun c => c == SPACE || c == 0x09)
      (l := line.dropWhile fun c => c == SPACE || c == 0x09), List.mem_append, h] at behind
    rcases behind with letter | back
    · simpa using List.all_eq_true.mp letters c letter
    · exact blanks c (List.mem_rtakeWhile_imp (p := fun c => c == SPACE || c == 0x09) back)

theorem plainLines_count {s : Str} (noReturn : CR ∉ s) :
    (plainLines s).countP isStandaloneTest = (boundaryLines s).countP isStandaloneTest := by
  by_cases empty : s = []
  · subst empty
    decide
  · obtain ⟨last, kind, lines⟩ := plainLines_eq empty noReturn
    rw [lines, List.countP_append]
    rcases kind with rfl | rfl
    · rfl
    · simp [isStandaloneTest_nil]

/-- What `splitlines` adds to the count is what it finds on lines with another boundary. -/
theorem countP_lines (lines : List Str) (noReturn : ∀ line ∈ lines, CR ∉ line) :
    (lines.flatMap boundaryLines).countP isStandaloneTest = lines.countP isStandaloneTest ↔
      ∀ line ∈ lines, (∃ c ∈ line, isLineBoundary c = true) →
        ∀ piece ∈ plainLines line, isStandaloneTest piece = false := by
  -- on one line the two counts differ exactly by what stands between its boundaries
  have single (line : Str) (clean : CR ∉ line) :
      (line.any isLineBoundary = false ∧
          (boundaryLines line).countP isStandaloneTest = [line].countP isStandaloneTest) ∨
        (∃ c ∈ line, isLineBoundary c = true) ∧ [line].countP isStandaloneTest = 0 ∧
          ((boundaryLines line).countP isStandaloneTest = 0 ↔
            ∀ piece ∈ plainLines line, isStandaloneTest piece = false) := by
    by_cases boundary : ∃ c ∈ line, isLineBoundary c = true
    · right
      refine ⟨boundary, ?_, ?_⟩
      · obtain ⟨c, inside, ends⟩ := boundary
        rw [List.countP_eq_zero]
        intro other member
        rw [List.mem_singleton.mp member]
        intro test
        rw [mem_of_isStandaloneTest test c inside] at ends
        cases ends
      · rw [← plainLines_count clean, List.countP_eq_zero]
        simp only [Bool.not_eq_true]
    · left
      have none : ∀ c ∈ line, isLineBoundary c = false := by
        intro c inside
        rw [← Bool.not_eq_true]
        exact fun ends => boundary ⟨c, inside, ends⟩
      refine ⟨by simpa using none, ?_⟩
      rw [boundaryLines_of_none none]
  -- no line can make up for another: `splitlines` never counts less
  have least (lines : List Str) (noReturn : ∀ line ∈ lines, CR ∉ line) :
      lines.countP isStandaloneTest ≤ (lines.flatMap boundaryLines).countP isStandaloneTest := by
    induction lines with
    | nil => rfl
    | cons line lines ih =>
      rw [List.forall_mem_cons] at noReturn
      have below := ih noReturn.2
      rw [← List.singleton_append, List.countP_append, List.flatMap_append, List.countP_append,
        List.flatMap_singleton]
      rcases single line noReturn.1 with ⟨-, same⟩ | ⟨-, zero, -⟩ <;> omega
  induction lines with
  | nil => simp
  | cons line lines ih =>
    rw [List.forall_mem_cons] at noReturn
    have below := least lines noReturn.2
    have rest := ih noReturn.2
    rw [List.forall_mem_cons, ← List.singleton_append, List.countP_append, List.flatMap_append,
      List.countP_append, List.flatMap_singleton]
    rcases single line noReturn.1 with ⟨clear, same⟩ | ⟨boundary, zero, hidden⟩
    · have vacuous : ¬ ∃ c ∈ line, isLineBoundary c = true := by
        simpa using clear
      -- nothing but line ends inside: both count the line itself
      rw [same]
      constructor
      · intro equal
        exact ⟨fun boundary => absurd boundary vacuous, rest.mp (by omega)⟩
      · rintro ⟨-, none⟩
        rw [rest.mpr none]
    -- the annotation alone has no boundary, so the whole line does not count
    · rw [zero]
      constructor
      · intro equal
        exact ⟨fun _ => hidden.mp (by omega), rest.mp (by omega)⟩
      · rintro ⟨here, none⟩
        rw [rest.mpr none, hidden.mpr (here boundary)]

theorem mem_of_mem_split {sep : CodePoint} (s : Str) :
    ∀ piece ∈ split sep s, ∀ c ∈ piece, c ∈ s := by
  induction s with
  | nil => simp [split]
  | cons d rest ih =>
    intro piece member c inside
    rw [split] at member
    split at member
    · rcases List.mem_cons.mp member with rfl | later
      · cases inside
      · exact List.mem_cons_of_mem d (ih piece later c inside)
    · cases pieces : split sep rest with
      | nil => exact absurd pieces (split_ne_nil sep rest)
      | cons first others =>
        rw [pieces] at member ih
        rcases List.mem_cons.mp member with rfl | later
        · rcases List.mem_cons.mp inside with rfl | behind
          · exact List.mem_cons_self
          · exact List.mem_cons_of_mem d (ih first List.mem_cons_self c behind)
        · exact List.mem_cons_of_mem d (ih piece (List.mem_cons_of_mem first later) c inside)

/-- The masked code has only characters of the source, blanks and line ends. -/
theorem not_mem_codeText {elements : List Java.Element}
    (noReturn : CR ∉ elements.flatMap Java.Element.text) : CR ∉ Java.codeText elements := by
  intro inside
  obtain ⟨element, member, within⟩ := List.mem_flatMap.mp inside
  have masked (s : Str) : CR ∉ s.map fun c => if c = LF then LF else SPACE := by
    intro mem
    obtain ⟨c, -, equal⟩ := List.mem_map.mp mem
    split at equal <;> exact absurd equal (by decide)
  cases element with
  | code c => exact noReturn (List.mem_flatMap.mpr ⟨_, member, within⟩)
  | lineComment body => exact masked _ within
  | blockComment body => exact masked _ within
  | string body => exact masked _ within
  | character body => exact masked _ within
  | textBlock body => exact masked _ within

section Counts

variable (lookup : Lookup)

def hasUnicodeEscape (text : Str) : Bool :=
  (UNICODE_ESCAPE.search lookup.chars (universalNewlines text)).isSome

/-- The elements of a source as the scan finds them. -/
def scannedElements (text : Str) : Option (List Java.Element) :=
  Java.elementsBy scanRules (universalNewlines text).length (universalNewlines text)

theorem javaStandaloneTestCount_eq (text : Str) :
    javaStandaloneTestCount lookup text =
      if hasUnicodeEscape lookup text then none
      else (scannedElements text).map fun elements =>
        (plainLines (Java.codeText elements)).countP isStandaloneTest := by
  have scan : maskJava ((universalNewlines text).length + 1) .code (universalNewlines text) =
      (scannedElements text).map Java.codeText := by
    rw [maskJava_eq (Nat.le_succ _), scanJava_eq _ _ le_rfl, scannedElements]
  simp only [javaStandaloneTestCount, hasUnicodeEscape, scan, Option.map_map,
    List.countP_eq_length_filter]
  rfl

/-- A decided constraint rests on the count of one reference that shows its whole file. -/
theorem javaConstraint_decided {evidence : EvidenceBundle} {claim : ScientificClaim}
    {constraint : InterpretationConstraint}
    (h : javaConstraint lookup evidence claim = some constraint)
    (decided : constraint.state ≠ lit "incomplete") :
    ∃ claimed reference observed, claimedTestCount lookup claim = some claimed ∧
      reference ∈ evidence.references ∧ reference.excerptComplete = true ∧
      reference.locality = .completeFile ∧
      javaStandaloneTestCount lookup reference.cut.text = some observed ∧
      (constraint.state = lit "corroborated" ↔ (observed : Int) = claimed) := by
  unfold javaConstraint at h
  simp only at h
  split at h
  next claimed path magnitude hinted =>
    split at h
    · -- without a count the constraint is incomplete
      rw [← Option.some.inj h] at decided
      exact absurd rfl decided
    next observed counted =>
      unfold observedTestCount at counted
      split at counted
      · cases counted
      next reference chosen =>
        split at counted
        next complete =>
          have member : reference ∈ evidence.references := by
            split at chosen
            next only =>
              rw [Option.some.inj chosen] at only
              exact List.mem_of_mem_filter (only ▸ List.mem_singleton_self reference)
            · cases chosen
          refine ⟨claimed, reference, observed, magnitude, member, complete.1, complete.2, counted, ?_⟩
          split at h
          next different =>
            rw [← Option.some.inj h]
            simp only [different, iff_false]
            decide
          next same =>
            rw [← Option.some.inj h]
            simpa using same
        · cases counted
  · cases h

/-- Text blocks aside: the count stands for the lines of the source, with comments and literals taken
out by Java's rules, exactly if the literals are literals of Java and no line with another boundary
hides a test annotation. A decided constraint rests on such a count. -/
theorem javaTestCount_exact_iff (text : Str)
    (plain : ∀ elements, scannedElements text = some elements → PlainBlocks elements) :
    ((∀ count, javaStandaloneTestCount lookup text = some count →
        ∃ elements, Java.elements (universalNewlines text) = some elements ∧
          count = standaloneTests elements) ↔
      (hasUnicodeEscape lookup text = false →
        ∀ elements, scannedElements text = some elements →
          elements.all Java.Element.lawful = true ∧ NoHiddenLine elements)) ∧
    ∀ evidence claim constraint, javaConstraint lookup evidence claim = some constraint →
      constraint.state ≠ lit "incomplete" →
        ∃ claimed reference observed, claimedTestCount lookup claim = some claimed ∧
          reference ∈ evidence.references ∧ reference.excerptComplete = true ∧
          reference.locality = .completeFile ∧
          javaStandaloneTestCount lookup reference.cut.text = some observed ∧
          (constraint.state = lit "corroborated" ↔ (observed : Int) = claimed) := by
  constructor
  · rw [javaStandaloneTestCount_eq]
    cases escape : hasUnicodeEscape lookup text with
    | true => simp
    | false =>
      cases scanned : scannedElements text with
      | none => simp
      | some elements =>
        have java : Java.elements (universalNewlines text) =
            if elements.all Java.Element.lawful then some elements else none :=
          elements_of_plain scanned (plain elements scanned)
        have source : elements.flatMap Java.Element.text = universalNewlines text :=
          Java.elementsBy_text scanRules_closing scanned
        have noReturn : CR ∉ Java.codeText elements :=
          not_mem_codeText (source ▸ not_mem_universalNewlines text)
        have lines : ∀ line ∈ split LF (Java.codeText elements), CR ∉ line := by
          intro line member inside
          exact noReturn (mem_of_mem_split _ line member CR inside)
        have counts := countP_lines (split LF (Java.codeText elements)) lines
        rw [← boundaryLines_split, ← plainLines_count noReturn] at counts
        simp only [Bool.false_eq_true, if_false, Option.map_some, Option.some.injEq, forall_eq', java,
          forall_const]
        cases elements.all Java.Element.lawful with
        | false => simp
        | true =>
          simp only [if_true, Option.some.injEq, exists_eq_left', standaloneTests, true_and,
            ← List.countP_eq_length_filter]
          exact counts
  · intro evidence claim constraint issued decided
    exact javaConstraint_decided lookup issued decided

end Counts

/-- A comment and a text block that name the annotation, an escape, and the annotation on a line of
its own. -/
def plainTests : Str := "// @Test\n \"\"\" \n@Test\\n\"\"\"; char c = '\\n';\n @Test\n"

def plainElements : List Java.Element :=
  .lineComment (lit " @Test") :: .code LF :: .code SPACE :: .textBlock (lit " \n@Test\\n") ::
    ((lit "; char c = ").map .code ++ .character (lit "\\n") :: (lit ";\n @Test\n").map .code)

theorem scannedElements_plainTests : scannedElements plainTests = some plainElements := by
  decide +kernel

theorem javaTestCount_exact_plain :
    javaStandaloneTestCount sampleLookup plainTests = some 1 ∧
      ∀ count, javaStandaloneTestCount sampleLookup plainTests = some count →
        ∃ elements, Java.elements (universalNewlines plainTests) = some elements ∧
          count = standaloneTests elements := by
  refine ⟨by decide +kernel, ?_⟩
  have blocks : ∀ elements, scannedElements plainTests = some elements → PlainBlocks elements := by
    intro elements scanned body member
    rw [scannedElements_plainTests] at scanned
    rw [← Option.some.inj scanned] at member
    have only : body = lit " \n@Test\\n" := by simpa [plainElements] using member
    rw [only]
    decide
  apply ((javaTestCount_exact_iff sampleLookup plainTests blocks).1).mpr
  intro noEscape elements scanned
  rw [scannedElements_plainTests] at scanned
  rw [← Option.some.inj scanned]
  refine ⟨by decide +kernel, fun line member boundary => ?_⟩
  have clear : (split LF (Java.codeText plainElements)).all
      (fun line => line.all fun c => !isLineBoundary c) = true := by decide +kernel
  obtain ⟨c, inside, ends⟩ := boundary
  have other := List.all_eq_true.mp (List.all_eq_true.mp clear line member) c inside
  rw [ends] at other
  cases other

/-- A form feed ends a line for `splitlines` and not for Java; an escaped quote in a text block ends
it for the scan and not for Java; Java opens no text block in front of other text than blanks, and
takes no two characters for a character. -/
theorem javaTestCount_formFeed_textBlock :
    (javaStandaloneTestCount sampleLookup (lit "int x;\u000c@Test\n") = some 1 ∧
      (Java.elements (universalNewlines (lit "int x;\u000c@Test\n"))).map standaloneTests = some 0) ∧
    (javaStandaloneTestCount sampleLookup
        (lit "\"\"\"\n\\\"\"\"\n@Test\n\\\"\"\"\n\"\"\"") = some 1 ∧
      (Java.elements (universalNewlines
        (lit "\"\"\"\n\\\"\"\"\n@Test\n\\\"\"\"\n\"\"\""))).map standaloneTests = some 0) ∧
    (javaStandaloneTestCount sampleLookup (lit "x = \"\"\"a\n@Test\n\"\"\";") = some 0 ∧
      Java.elements (universalNewlines (lit "x = \"\"\"a\n@Test\n\"\"\";")) = none) ∧
    (javaStandaloneTestCount sampleLookup
        (lit "f(\"\"\"\");\n@Test\ng(\"\"\"\") // \"") = some 0 ∧
      (Java.elements (universalNewlines
        (lit "f(\"\"\"\");\n@Test\ng(\"\"\"\") // \""))).map standaloneTests = some 1) ∧
    javaStandaloneTestCount sampleLookup (lit "char c = 'ab';\n@Test\n") = some 1 ∧
      Java.elements (universalNewlines (lit "char c = 'ab';\n@Test\n")) = none := by
  decide +kernel

end ClaimCI.Review
