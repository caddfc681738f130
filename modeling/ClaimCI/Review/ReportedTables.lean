import ClaimCI.Review.FileBudget

/-!
# Reported tables

The tables that evidence discovery finds in the part of a Markdown file that the character limit lets
through, and when they are tables of the file: lines that the limit does not cut.
-/

open Python

namespace ClaimCI.Review

/-! ### Tables of a file -/

/-- The fence that is open after a line. -/
def fenceStep (fence : Option (CodePoint × Nat)) (line : Str) : Option (CodePoint × Nat) :=
  match fence with
  | some fence => if closesFence fence (line.dropWhile isSpace) then none else some fence
  | none => opensFence (line.dropWhile isSpace)

/-- The fence that is open after some lines. -/
def fenceAfter (lines : List Str) : Option (CodePoint × Nat) := lines.foldl fenceStep none

/-- A line that begins with four blanks or a tab. -/
def isIndented (line : Str) : Bool := (lit "    ").isPrefixOf line || line.head? == some 0x09

/-- A line after some lines is neither fenced code nor a fence, and it is not indented code. Fences are
those of `_markdown_tables`: they open and close at any indentation, where GitHub's Markdown allows
three blanks. -/
def OutsideCode (before : List Str) (line : Str) : Prop :=
  fenceAfter before = none ∧ opensFence (line.dropWhile isSpace) = none ∧ isIndented line = false

/-- The cells of some lines are those of a pipe table: a header, a separator and one row or more, all
of the same width. -/
structure ArePipeCells (cells : List (Option (List Str))) (header : List Str)
    (rows : List (List Str)) : Prop where
  cells : ∃ separator, cells = some header :: some separator :: rows.map some ∧
    header.length = separator.length ∧ separator.all isSeparatorCell = true
  rows : rows ≠ [] ∧ ∀ row ∈ rows, row.length = header.length

/-- A table whose lines are whole lines of a file outside of code, with the numbers that it says, and
whose cells are the cells of these lines. -/
structure WholeTable (text : Str) (table : MarkdownTable) : Prop where
  span : 1 ≤ table.startLine ∧ table.startLine ≤ table.endLine ∧
    table.endLine ≤ (lineTexts text).length
  excerpt : ∃ tail, (tail = [] ∨ tail = [LF]) ∧ table.excerpt =
    joinLines ((lineSpan (lineTexts text) table.startLine table.endLine).map lineContent) ++ tail
  cells : ArePipeCells
    ((lineSpan (lineTexts text) table.startLine table.endLine).map markdownCells) table.header table.rows
  outside : ∀ index line, table.startLine ≤ index + 1 → index < table.endLine →
    (lineTexts text)[index]? = some line → OutsideCode ((lineTexts text).take index) line

/-- Up to a line, `splitlines` finds the lines that LF delimits. -/
def SameLinesUpTo (s : Str) (count : Nat) : Prop := (splitLines s).take count = (lineTexts s).take count

theorem FeedsOnly.sameLines {s : Str} (feeds : FeedsOnly s) (count : Nat) : SameLinesUpTo s count :=
  congrArg (List.take count) (splitLines_eq_lineTexts feeds)

/-- The limit ends inside the content of a line. -/
def CutsLine (text : Str) (limit : Nat) : Prop :=
  (text.take limit).getLast? ≠ some LF ∧ ∃ c, text[limit]? = some c ∧ c ≠ LF

/-- The limit ends inside the content of the line of this number. -/
def CutsLineAt (text : Str) (limit line : Nat) : Prop :=
  line = (lineTexts (text.take limit)).length ∧ CutsLine text limit

/-! ### The tables among some lines -/

/-- A line that a table may use stands outside of code. -/
theorem eligibleLines_outside (fence : Option (CodePoint × Nat)) (lines : List Str) (index : Nat)
    (line : Str) (h : (eligibleLines fence lines)[index]? = some (line, true)) :
    (lines.take index).foldl fenceStep fence = none ∧ opensFence (line.dropWhile isSpace) = none ∧
      isIndented line = false := by
  -- induction on the lines; the fence is the one that is still open before them
  induction lines generalizing fence index with
  | nil => cases fence <;> simp [eligibleLines] at h
  | cons first lines ih =>
    cases fence with
    | some open' =>
      rw [eligibleLines] at h
      cases index with
      | zero => simp at h
      | succ index =>
        rw [List.getElem?_cons_succ] at h
        exact ih _ index h
    | none =>
      rw [eligibleLines] at h
      split at h
      next opened opens =>
        cases index with
        | zero => simp at h
        | succ index =>
          rw [List.getElem?_cons_succ] at h
          rw [List.take_succ_cons, List.foldl_cons, fenceStep, opens]
          exact ih (some opened) index h
      next none =>
        cases index with
        | zero =>
          rw [List.getElem?_cons_zero, Option.some.injEq, Prod.mk.injEq] at h
          obtain ⟨rfl, plain⟩ := h
          exact ⟨rfl, none, by simpa [isIndented] using plain⟩
        | succ index =>
          rw [List.getElem?_cons_succ] at h
          rw [List.take_succ_cons, List.foldl_cons, fenceStep, none]
          exact ih Option.none index h

theorem tableHeader_eq_some {first second : Str × Bool} {header : List Str}
    (h : tableHeader first second = some header) :
    usableCells first = some header ∧ ∃ separator, usableCells second = some separator ∧
      header.length = separator.length ∧ separator.all isSeparatorCell = true := by
  unfold tableHeader at h
  split at h
  next header' separator first' second' =>
    split at h
    next fits =>
      rw [← Option.some.inj h]
      exact ⟨first', separator, second', fits⟩
    · cases h
  · cases h

/-- The lines of a table, and what it says of them. -/
structure IsTableOf (table : MarkdownTable) (index : Nat) (before inside : List (Str × Bool)) :
    Prop where
  startLine : table.startLine = index + before.length + 1
  endLine : table.endLine = index + before.length + inside.length
  excerpt : table.excerpt = (inside.map Prod.fst).flatten
  cells : ArePipeCells (inside.map usableCells) table.header table.rows

theorem mem_tablesFrom {fuel index : Nat} {lines : List (Str × Bool)} {table : MarkdownTable}
    (member : table ∈ tablesFrom fuel index lines) :
    ∃ before inside after, lines = before ++ inside ++ after ∧ IsTableOf table index before inside := by
  induction fuel generalizing index lines with
  | zero => cases member
  | succ fuel ih =>
    match lines, member with
    | [], member => cases member
    | [_], member => cases member
    | first :: second :: lines, member =>
      have skipped (later : table ∈ tablesFrom fuel (index + 1) (second :: lines)) :
          ∃ before inside after, first :: second :: lines = before ++ inside ++ after ∧
            IsTableOf table index before inside := by
        obtain ⟨before, inside, after, cut, found⟩ := ih later
        refine ⟨first :: before, inside, after, congrArg (first :: ·) cut, ?_, ?_, found.excerpt,
          found.cells⟩
        · rw [found.startLine, List.length_cons]
          omega
        · rw [found.endLine, List.length_cons]
          omega
      rw [tablesFrom] at member
      split at member
      · exact skipped member
      next header isHeader =>
        dsimp only at member
        split at member
        · exact skipped member
        next filled =>
          have taken : tableRows header.length lines ++
              lines.drop (tableRows header.length lines).length = lines :=
            List.prefix_iff_eq_append.mp (List.takeWhile_prefix _)
          rcases List.mem_cons.mp member with rfl | later
          · obtain ⟨headed, separator, separated, width, dashes⟩ := tableHeader_eq_some isHeader
            -- Every line of the body has cells, as many as the header.
            have usable : ∀ line ∈ tableRows header.length lines,
                ∃ row, usableCells line = some row ∧ row.length = header.length := by
              intro line inside
              have fits := List.mem_takeWhile_imp inside
              cases cells : usableCells line with
              | none => simp [cells] at fits
              | some row => exact ⟨row, rfl, by simpa [cells] using fits⟩
            refine ⟨[], first :: second :: tableRows header.length lines,
              lines.drop (tableRows header.length lines).length, ?_, rfl, ?_, rfl, ?_⟩
            · rw [List.nil_append, List.cons_append, List.cons_append, taken]
            · simp only [List.length_nil, List.length_cons]
              omega
            · have rows : ((tableRows header.length lines).filterMap usableCells).map some =
                  (tableRows header.length lines).map usableCells := by
                generalize tableRows header.length lines = body at usable
                induction body with
                | nil => rfl
                | cons line body step =>
                  rw [List.forall_mem_cons] at usable
                  obtain ⟨⟨row, cells, -⟩, rest⟩ := usable
                  rw [List.filterMap_cons, cells, List.map_cons, List.map_cons, step rest, cells]
              refine ⟨⟨separator, ?_, width, dashes⟩, ?_, ?_⟩
              · rw [List.map_cons, List.map_cons, headed, separated, rows]
              · intro none
                dsimp only at none
                rw [none, List.map_nil, eq_comm, List.map_eq_nil_iff] at rows
                exact filled rows
              · intro row inside
                dsimp only at inside
                obtain ⟨line, member, cells⟩ := List.mem_filterMap.mp inside
                obtain ⟨row', cells', same⟩ := usable line member
                rw [cells] at cells'
                rw [Option.some.inj cells']
                exact same
          · obtain ⟨before, inside, after, cut, found⟩ := ih later
            refine ⟨first :: second :: tableRows header.length lines ++ before, inside, after, ?_, ?_, ?_,
              found.excerpt, found.cells⟩
            · rw [List.append_assoc, List.append_assoc, ← List.append_assoc before, ← cut,
                List.cons_append, List.cons_append, taken]
            · rw [found.startLine]
              simp only [List.length_append, List.length_cons]
              omega
            · rw [found.endLine]
              simp only [List.length_append, List.length_cons]
              omega

/-! ### The lines that the limit lets through -/

/-- A line feed is the last character of its line. -/
theorem not_mem_dropLast_of_mem_lineTexts {s line : Str} (member : line ∈ lineTexts s) :
    LF ∉ line.dropLast := by
  induction s using lineTexts.induct generalizing line with
  | case1 => cases member
  | case2 c =>
    rw [lineTexts, List.mem_singleton] at member
    rw [member]
    exact List.not_mem_nil
  | case3 d rest ih =>
    rw [lineTexts_LF_cons, List.mem_cons] at member
    rcases member with rfl | later
    · exact List.not_mem_nil
    · exact ih later
  | case4 c d rest other ih =>
    obtain ⟨first, lines, there⟩ :=
      List.exists_cons_of_ne_nil (lineTexts_ne_nil (List.cons_ne_nil d rest))
    rw [lineTexts_cons other (List.cons_ne_nil d rest), there] at member
    rcases List.mem_cons.mp member with rfl | later
    · have filled : first ≠ [] := ne_nil_of_mem_lineTexts (there ▸ List.mem_cons_self)
      rw [List.dropLast_cons_of_ne_nil filled]
      exact List.not_mem_cons_of_ne_of_not_mem (Ne.symm other) (ih (there ▸ List.mem_cons_self))
    · exact ih (there ▸ List.mem_cons_of_mem first later)

theorem eq_nil_of_line_feed {s before after : Str} (member : before ++ LF :: after ∈ lineTexts s) :
    after = [] := by
  by_contra more
  apply not_mem_dropLast_of_mem_lineTexts member
  rw [List.dropLast_append_of_ne_nil (List.cons_ne_nil LF after), List.dropLast_cons_of_ne_nil more]
  exact List.mem_append_right before List.mem_cons_self

/-- The lines of the part that the limit lets through, and the line of the text that its last line
belongs to. -/
structure Continues (text : Str) (limit : Nat) (before : List Str) (last tail : Str)
    (rest : List Str) : Prop where
  cut : lineTexts (text.take limit) = before ++ [last]
  whole : lineTexts text = before ++ (last ++ tail) :: rest
  /-- What the limit leaves of the line. -/
  left : ¬ CutsLine text limit ∧ (tail = [] ∨ tail = [LF]) ∨
    CutsLine text limit ∧ LF ∉ last ∧ lineContent tail ≠ []

theorem exists_continues {text : Str} {limit : Nat} (filled : text.take limit ≠ []) :
    ∃ before last tail rest, Continues text limit before last tail rest := by
  obtain ⟨before, last, tail, rest, cut, there, whole, more⟩ := lineTexts_append filled (text.drop limit)
  rw [List.take_append_drop] at whole
  -- by what follows the cut on its line
  refine ⟨before, last, tail, rest, cut, whole, ?_⟩
  cases tail with
  | nil =>
    refine Or.inl ⟨?_, Or.inl rfl⟩
    rintro ⟨unended, c, next, -⟩
    apply more unended _ rfl
    rw [Ne, List.drop_eq_nil_iff, Nat.not_le]
    exact (List.getElem?_eq_some_iff.mp next).1
  | cons c tail =>
    have member : last ++ c :: tail ∈ lineTexts text :=
      whole ▸ List.mem_append_right before List.mem_cons_self
    have shown : before.flatten ++ last = text.take limit := by
      rw [← lineTexts_flatten (text.take limit), cut, List.flatten_append, List.flatten_singleton]
    have next : text[limit]? = some c := by
      have all : text = text.take limit ++ c :: (tail ++ rest.flatten) := by
        conv_lhs => rw [← lineTexts_flatten text, whole]
        rw [List.flatten_append, List.flatten_cons, ← shown]
        simp
      have rest' : text.drop limit = c :: (tail ++ rest.flatten) := by
        have same : text.take limit ++ text.drop limit =
            text.take limit ++ c :: (tail ++ rest.flatten) := by rw [List.take_append_drop, ← all]
        exact List.append_cancel_left same
      rw [← List.head?_drop, rest']
      rfl
    -- the cut stands before the line feed, or inside the line
    by_cases feed : c = LF
    · subst feed
      refine Or.inl ⟨?_, Or.inr (congrArg (LF :: ·) (eq_nil_of_line_feed member))⟩
      rintro ⟨-, c, next', other⟩
      rw [next, Option.some.injEq] at next'
      exact other next'.symm
    · right
      have noFeed : LF ∉ last := by
        intro inside
        apply not_mem_dropLast_of_mem_lineTexts member
        rw [List.dropLast_append_of_ne_nil (List.cons_ne_nil c tail)]
        exact List.mem_append_left _ inside
      refine ⟨⟨?_, c, next, feed⟩, noFeed, ?_⟩
      · rw [← shown]
        intro ends
        rw [List.getLast?_append_of_ne_nil _ there] at ends
        exact noFeed (List.mem_of_getLast? ends)
      · rw [lineContent, List.takeWhile_cons_of_pos (by simpa using feed)]
        exact List.cons_ne_nil c _

/-- Lines of which all are as in the text, but perhaps for a missing last line feed. -/
theorem take_whole {text : Str} {limit count : Nat} (positive : 1 ≤ count)
    (inside : count ≤ (lineTexts (text.take limit)).length) (whole : ¬ CutsLineAt text limit count) :
    ∃ before last tail, (lineTexts (text.take limit)).take count = before ++ [last] ∧
      (lineTexts text).take count = before ++ [last ++ tail] ∧ (tail = [] ∨ tail = [LF]) := by
  have filled : text.take limit ≠ [] := by
    intro none
    rw [none] at inside
    exact absurd (positive.trans inside) (by simp [lineTexts])
  obtain ⟨before, last, tail, rest, continues⟩ := exists_continues filled
  rw [continues.cut, List.length_append, List.length_singleton] at inside
  rcases Nat.lt_or_ge before.length count with atLast | above
  · have all : count = before.length + 1 := by omega
    refine ⟨before, last, tail, ?_, ?_, ?_⟩
    · rw [continues.cut, all]
      exact List.take_of_length_le (by simp)
    · rw [continues.whole, all, List.take_length_add_append]
      rfl
    · rcases continues.left with ⟨-, short⟩ | ⟨cuts, -, -⟩
      · exact short
      · refine absurd ⟨?_, cuts⟩ whole
        rw [continues.cut, all, List.length_append, List.length_singleton]
  · have some' : before.take count ≠ [] := by
      rw [Ne, List.take_eq_nil_iff, not_or]
      refine ⟨by omega, fun none => ?_⟩
      rw [none, List.length_nil] at above
      omega
    refine ⟨(before.take count).dropLast, (before.take count).getLast some', [], ?_, ?_, Or.inl rfl⟩
    · rw [continues.cut, List.take_append_of_le_length above, List.dropLast_append_getLast]
    · rw [continues.whole, List.take_append_of_le_length above, List.append_nil,
        List.dropLast_append_getLast]

/-! ### A missing line feed -/

/-- The blanks before a line. -/
theorem dropWhile_concat_LF (line : Str) : (line ++ [LF]).dropWhile isSpace =
    if line.dropWhile isSpace = [] then [] else line.dropWhile isSpace ++ [LF] := by
  rw [List.dropWhile_append]
  simp only [List.isEmpty_iff]
  rfl

theorem strip_concat_LF (line : Str) : strip (line ++ [LF]) = strip line := by
  rw [strip, strip, dropWhile_concat_LF]
  split
  next blank => rw [blank]
  · rw [List.rdropWhile_concat, if_pos (by decide)]

theorem markdownCells_concat_LF (line : Str) : markdownCells (line ++ [LF]) = markdownCells line := by
  rw [markdownCells, markdownCells, strip_concat_LF]

theorem lineContent_concat_LF (line : Str) : lineContent (line ++ [LF]) = lineContent line := by
  rw [lineContent, lineContent, List.takeWhile_append]
  split
  next whole =>
    have same := (List.takeWhile_prefix (l := line) (· != LF)).eq_of_length whole
    rw [same]
    exact List.append_nil line
  · rfl

theorem opensFence_concat_LF (line : Str) :
    opensFence ((line ++ [LF]).dropWhile isSpace) = opensFence (line.dropWhile isSpace) := by
  rw [dropWhile_concat_LF]
  split
  next blank => rw [blank]
  next filled =>
    cases rest : line.dropWhile isSpace with
    | nil => exact absurd rest filled
    | cons mark others =>
      have marks : ((mark :: others ++ [LF]).takeWhile (· == mark)).length =
          ((mark :: others).takeWhile (· == mark)).length := by
        -- A mark is no blank, so the line feed is none.
        have other : (LF == mark) = false := by
          have solid := List.head_dropWhile_not isSpace (l := line) (rest ▸ List.cons_ne_nil mark others)
          simp only [rest, List.head_cons] at solid
          rw [beq_eq_false_iff_ne]
          rintro rfl
          cases solid
        rw [List.takeWhile_append]
        split
        next whole =>
          rw [List.takeWhile_cons, other, List.length_append, whole]
          rfl
        · rfl
      rw [List.cons_append] at marks ⊢
      simp only [opensFence, List.head?_cons, marks]

theorem isIndented_concat_LF (line : Str) : isIndented (line ++ [LF]) = isIndented line := by
  have blanks : (lit "    ").isPrefixOf (line ++ [LF]) = (lit "    ").isPrefixOf line := by
    rw [Bool.eq_iff_iff, List.isPrefixOf_iff_prefix, List.isPrefixOf_iff_prefix,
      List.prefix_concat_iff, or_iff_right_iff_imp]
    intro whole
    have last := congrArg List.getLast? whole
    rw [List.getLast?_concat] at last
    exact absurd last (by decide)
  have tab : ((line ++ [LF]).head? == some 0x09) = (line.head? == some 0x09) := by
    cases line with
    | nil => decide
    | cons c line => rfl
  rw [isIndented, isIndented, blanks, tab]

/-! ### Whole tables -/

theorem lineSpan_concat {lines before : List Str} {last : Str} {startLine endLine : Nat}
    (above : startLine - 1 ≤ before.length) (h : lines.take endLine = before ++ [last]) :
    lineSpan lines startLine endLine = before.drop (startLine - 1) ++ [last] := by
  rw [lineSpan, h, List.drop_append_of_le_length above]

/-- The lines of a table as the cut text has them. -/
structure CutTable (text : Str) (limit : Nat) (table : MarkdownTable) : Prop where
  span : 1 ≤ table.startLine ∧ table.startLine < table.endLine ∧
    table.endLine ≤ (splitLines (text.take limit)).length
  excerpt : table.excerpt =
    (lineSpan (splitLines (text.take limit)) table.startLine table.endLine).flatten
  cells : ArePipeCells ((lineSpan (splitLines (text.take limit)) table.startLine table.endLine).map
    markdownCells) table.header table.rows
  outside : ∀ index line, table.startLine ≤ index + 1 → index < table.endLine →
    (splitLines (text.take limit))[index]? = some line →
      OutsideCode ((splitLines (text.take limit)).take index) line

/-- Only lines that a table may use have cells in it. -/
theorem usable_of_cells {inside : List (Str × Bool)} {header : List Str} {rows : List (List Str)}
    (h : ArePipeCells (inside.map usableCells) header rows) :
    (∀ line ∈ inside, line.2 = true) ∧
      inside.map usableCells = (inside.map Prod.fst).map markdownCells := by
  obtain ⟨separator, cells, -⟩ := h.cells
  have flags : ∀ line ∈ inside, line.2 = true := by
    intro line member
    by_contra refused
    have none : usableCells line = none := if_neg refused
    have listed : Option.none ∈ inside.map usableCells := none ▸ List.mem_map_of_mem member
    rw [cells] at listed
    simp at listed
  refine ⟨flags, ?_⟩
  rw [List.map_map]
  exact List.map_congr_left fun line member => if_pos (flags line member)

theorem cutTable_of_mem {text : Str} {limit : Nat} {table : MarkdownTable}
    (member : table ∈ markdownTables (text.take limit)) : CutTable text limit table := by
  obtain ⟨before, inside, after, cut, found⟩ := mem_tablesFrom member
  have lines : splitLines (text.take limit) =
      before.map Prod.fst ++ inside.map Prod.fst ++ after.map Prod.fst := by
    rw [← eligibleLines_lines none (splitLines (text.take limit)), cut, List.map_append,
      List.map_append]
  obtain ⟨flags, cells⟩ := usable_of_cells found.cells
  have three : 2 ≤ inside.length := by
    obtain ⟨separator, listed, -⟩ := found.cells.cells
    have same := congrArg List.length listed
    simp only [List.length_map, List.length_cons] at same
    omega
  have startLine := found.startLine
  have endLine := found.endLine
  -- the table's lines are those of the cut text
  have spanned : lineSpan (splitLines (text.take limit)) table.startLine table.endLine =
      inside.map Prod.fst := by
    have taken : (splitLines (text.take limit)).take table.endLine =
        before.map Prod.fst ++ inside.map Prod.fst := by
      rw [lines]
      exact List.take_left' (by simp [endLine])
    rw [lineSpan, taken]
    exact List.drop_left' (by simp [startLine])
  refine ⟨⟨by omega, by omega, ?_⟩, ?_, ?_, ?_⟩
  · rw [lines]
    simp only [List.length_append, List.length_map]
    omega
  · rw [spanned, found.excerpt]
  · rw [spanned, ← cells]
    exact found.cells
  -- what the scan takes for a table row stands outside a fence
  · intro index line above below there
    have eligible : (eligibleLines none (splitLines (text.take limit)))[index]? = some (line, true) := by
      have fst : ((before ++ inside ++ after)[index]?).map Prod.fst = some line := by
        rw [← List.getElem?_map, ← cut, eligibleLines_lines, there]
      rw [cut]
      rw [List.append_assoc, List.getElem?_append_right (by omega),
        List.getElem?_append_left (by omega)] at fst ⊢
      obtain ⟨found', here, rfl⟩ := Option.map_eq_some_iff.mp fst
      rw [here]
      have flag := flags found' (List.mem_of_getElem? here)
      rw [← flag]
    exact eligibleLines_outside none _ index line eligible

/-- A table of the cut text is one of the file when the cut has left its lines whole. -/
theorem CutTable.whole {text : Str} {limit : Nat} {table : MarkdownTable}
    (found : CutTable text limit table) (same : SameLinesUpTo (text.take limit) table.endLine)
    (uncut : ¬ CutsLineAt text limit table.endLine) : WholeTable text table := by
  obtain ⟨positive, order, inside⟩ := found.span
  have inside' : table.endLine ≤ (lineTexts (text.take limit)).length := by
    have lengths := congrArg List.length same
    rw [List.length_take, List.length_take, Nat.min_eq_left inside] at lengths
    omega
  obtain ⟨before, last, tail, cut, whole, short⟩ := take_whole (by omega) inside' uncut
  -- the table ends with the last line of the cut
  have count : before.length + 1 = table.endLine := by
    have lengths := congrArg List.length cut
    rw [List.length_take, Nat.min_eq_left inside', List.length_append, List.length_singleton] at lengths
    exact lengths.symm
  have above : table.startLine - 1 ≤ before.length := by omega
  have spanned := lineSpan_concat above (same.trans cut)
  have spanned' := lineSpan_concat above whole
  -- what is behind the cut on that line is nothing or its line feed
  have content : lineContent (last ++ tail) = lineContent last := by
    rcases short with rfl | rfl
    · rw [List.append_nil]
    · exact lineContent_concat_LF last
  have contents : (lineSpan (lineTexts text) table.startLine table.endLine).map lineContent =
      (lineSpan (lineTexts (text.take limit)) table.startLine table.endLine).map lineContent := by
    rw [spanned', lineSpan_concat above cut, List.map_append, List.map_append, List.map_singleton,
      List.map_singleton, content]
  refine ⟨⟨positive, order.le, ?_⟩, ?_, ?_, ?_⟩
  · have lengths := congrArg List.length whole
    rw [List.length_take, List.length_append, List.length_singleton] at lengths
    omega
  · rw [contents, found.excerpt, lineSpan, same]
    exact (((lineTexts_terminated _).take _).drop _).flatten_eq
  · have cells : markdownCells (last ++ tail) = markdownCells last := by
      rcases short with rfl | rfl
      · rw [List.append_nil]
      · exact markdownCells_concat_LF last
    have listed : (lineSpan (lineTexts text) table.startLine table.endLine).map markdownCells =
        (lineSpan (splitLines (text.take limit)) table.startLine table.endLine).map markdownCells := by
      rw [spanned, spanned', List.map_append, List.map_append, List.map_singleton,
        List.map_singleton, cells]
    rw [listed]
    exact found.cells
  -- the lines before the last are the same; the last one differs by the line feed at most
  · intro index line from' below there
    have here : (before ++ [last ++ tail])[index]? = some line := by
      rw [← whole, List.getElem?_take, if_pos below, there]
    have taken : (lineTexts text).take index = (splitLines (text.take limit)).take index := by
      have front : ((lineTexts text).take table.endLine).take index =
          ((splitLines (text.take limit)).take table.endLine).take index := by
        have least : index ≤ before.length := by omega
        rw [whole, same, cut, List.take_append_of_le_length least, List.take_append_of_le_length least]
      rwa [List.take_take, List.take_take, Nat.min_eq_left below.le] at front
    rw [taken]
    by_cases atLast : index < before.length
    · apply found.outside index line from' below
      rw [List.getElem?_append_left atLast] at here
      have cutHere : ((splitLines (text.take limit)).take table.endLine)[index]? = some line := by
        rw [same, cut, List.getElem?_append_left atLast, here]
      rwa [List.getElem?_take, if_pos below] at cutHere
    · have position : index = before.length := by omega
      subst position
      have cutHere : ((splitLines (text.take limit)).take table.endLine)[before.length]? = some last := by
        rw [same, cut, List.getElem?_concat_length]
      rw [List.getElem?_take, if_pos below] at cutHere
      rw [List.getElem?_concat_length, Option.some.injEq] at here
      have outside := found.outside before.length last from' below cutHere
      rw [← here]
      rcases short with rfl | rfl
      · rwa [List.append_nil]
      · exact ⟨outside.1, (opensFence_concat_LF last).trans outside.2.1,
          (isIndented_concat_LF last).trans outside.2.2⟩

/-- Lines that have ended, and one more. -/
theorem joinLines_contents (lines : List Str) (last : Str)
    (ended : ∀ line ∈ lines, line = lineContent line ++ [LF]) :
    joinLines ((lines ++ [last]).map lineContent) = lines.flatten ++ lineContent last := by
  induction lines with
  | nil => simp [joinLines]
  | cons line lines ih =>
    rw [List.forall_mem_cons] at ended
    have rest := ih ended.2
    obtain ⟨next, others, there⟩ := List.exists_cons_of_ne_nil
      (List.append_ne_nil_of_right_ne_nil lines (List.cons_ne_nil last []))
    rw [List.cons_append, List.flatten_cons, List.append_assoc, ← rest, there]
    conv_rhs => rw [ended.1]
    simp [joinLines]

/-- Lines that others follow have ended. -/
theorem Terminated.ended {before rest : List Str} {next : Str}
    (h : Terminated (before ++ next :: rest)) : ∀ line ∈ before, line = lineContent line ++ [LF] := by
  induction before with
  | nil => exact fun _ member => nomatch member
  | cons line before ih =>
    have split : line = lineContent line ++ [LF] ∧ Terminated (before ++ next :: rest) := by
      cases before with
      | nil => exact h
      | cons other before => exact h
    rw [List.forall_mem_cons]
    exact ⟨split.1, ih split.2⟩

/-- A table whose last line is cut is none of the file. -/
theorem CutTable.notWhole {text : Str} {limit : Nat} {table : MarkdownTable}
    (found : CutTable text limit table) (same : SameLinesUpTo (text.take limit) table.endLine)
    (cuts : CutsLineAt text limit table.endLine) : ¬ WholeTable text table := by
  intro whole
  obtain ⟨last', inLine⟩ := cuts
  have filled : text.take limit ≠ [] := by
    intro none
    rw [none] at last'
    have order := found.span.2.1
    simp [lineTexts] at last'
    omega
  obtain ⟨before, last, tail, rest, continues⟩ := exists_continues filled
  have count : before.length + 1 = table.endLine := by
    rw [last', continues.cut, List.length_append, List.length_singleton]
  have above : table.startLine - 1 ≤ before.length := by
    have order := found.span.2.1
    omega
  have cutTake : (lineTexts (text.take limit)).take table.endLine = before ++ [last] := by
    rw [← continues.cut, last']
    exact List.take_length
  have wholeTake : (lineTexts text).take table.endLine = before ++ [last ++ tail] := by
    rw [continues.whole, ← count, List.take_length_add_append]
    rfl
  rcases continues.left with ⟨uncut, -⟩ | ⟨-, noFeed, more⟩
  · exact uncut inLine
  · obtain ⟨end', -, excerpt⟩ := whole.excerpt
    -- The lines before the last one have ended, so they are the same in both texts.
    have ended : ∀ line ∈ before.drop (table.startLine - 1), line = lineContent line ++ [LF] :=
      fun line member => Terminated.ended (continues.whole ▸ lineTexts_terminated text) line
        (List.mem_of_mem_drop member)
    have content : lineContent (last ++ tail) = last ++ lineContent tail := by
      apply List.takeWhile_append_of_pos
      intro d inside
      have other : d ≠ LF := fun feed => noFeed (feed ▸ inside)
      simpa using other
    rw [found.excerpt, lineSpan_concat above (same.trans cutTake), lineSpan_concat above wholeTake,
      joinLines_contents _ _ ended, content, List.flatten_append, List.flatten_singleton,
      List.append_assoc, List.append_assoc] at excerpt
    have rest' := List.append_cancel_left excerpt
    rw [List.self_eq_append_right, List.append_eq_nil_iff] at rest'
    exact more rest'.1

/-- Where `splitlines` and LF find the same lines, a table of the cut text is one of the file exactly if
the limit does not cut its last line. -/
theorem wholeTable_iff {text : Str} {limit : Nat} {table : MarkdownTable}
    (member : table ∈ markdownTables (text.take limit))
    (same : SameLinesUpTo (text.take limit) table.endLine) :
    WholeTable text table ↔ ¬ CutsLineAt text limit table.endLine :=
  ⟨fun whole cuts => (cutTable_of_mem member).notWhole same cuts whole,
    (cutTable_of_mem member).whole same⟩

/-! ### Reported measurements -/

/-- A reference is a table that a plan reports of the part of a file that some limit lets through. -/
structure IsReported (site : Site) (plan : Plan) (reference : EvidenceReference) (text : Str)
    (limit : Nat) (table : MarkdownTable) : Prop where
  file : OfFile site reference text
  within : limit ≤ plan.limits.maxFileChars
  found : table ∈ markdownTables (text.take limit)
  cut : reference.cut = ⟨table.excerpt, table.startLine, table.endLine⟩
  claims : reference.claimIds = sortedSet (plan.matching site reference.path table)

/-- Every reported measurement among some references is a table of its file's part. -/
def Reports (site : Site) (plan : Plan) (references : List EvidenceReference) : Prop :=
  ∀ reference ∈ references, reference.provenance = .reportedMeasurement →
    ∃ text limit table, IsReported site plan reference text limit table

theorem Reports.append {site : Site} {plan : Plan} {some more : List EvidenceReference}
    (h : Reports site plan some) (h' : Reports site plan more) : Reports site plan (some ++ more) := by
  intro reference member
  exact (List.mem_append.mp member).elim (h reference) (h' reference)

theorem provenanceOf_ne (lookup : Lookup) (path : Str) (kind : EvidenceKind) (excerpt : Str) :
    provenanceOf lookup path kind excerpt ≠ .reportedMeasurement := by
  unfold provenanceOf
  dsimp only
  split
  · decide
  · split <;> decide

section Rounds

variable {site : Site} {plan : Plan} {relative : Str} {file : CapturedText}

theorem issueTable_reports {limit : Nat} {state next : TableState} {table : MarkdownTable}
    (captured : captureText site relative = .ok file) (within : limit ≤ plan.limits.maxFileChars)
    (member : table ∈ markdownTables (file.text.take limit))
    (before : Reports site plan state.references)
    (h : issueTable site plan relative file state table = .ok next) :
    Reports site plan next.references := by
  unfold issueTable at h
  dsimp only at h
  split at h
  · obtain rfl := Except.ok.inj h
    exact before
  · obtain ⟨evidenceId, -, h⟩ := bind_ok_iff.mp h
    obtain rfl := Except.ok.inj h
    apply before.append
    intro reference inside _
    obtain rfl := List.mem_singleton.mp inside
    obtain ⟨bytes, raw, there, decodes, rfl⟩ := captureText_ok captured
    exact ⟨_, limit, table, ⟨bytes, raw, there, decodes, rfl, rfl, rfl⟩, within, member, rfl, rfl⟩

theorem issueTables_reports {limit : Nat} {tables : List MarkdownTable} {state next : TableState}
    (captured : captureText site relative = .ok file) (within : limit ≤ plan.limits.maxFileChars)
    (found : ∀ table ∈ tables, table ∈ markdownTables (file.text.take limit))
    (before : Reports site plan state.references)
    (h : tables.foldlM (issueTable site plan relative file) state = .ok next) :
    Reports site plan next.references := by
  induction tables generalizing state with
  | nil =>
    obtain rfl := Except.ok.inj h
    exact before
  | cons table tables ih =>
    rw [List.foldlM_cons] at h
    obtain ⟨between, first, later⟩ := bind_ok_iff.mp h
    rw [List.forall_mem_cons] at found
    exact ih found.2 (issueTable_reports captured within found.1 before first) later

theorem issueRegular_reports {tables : TableState} {state next : EvidenceState}
    (before : Reports site plan state.references) (tabled : Reports site plan tables.references)
    (h : issueRegular site plan relative file tables state = .ok next) :
    Reports site plan next.references := by
  unfold issueRegular at h
  dsimp only at h
  split at h
  · obtain rfl := Except.ok.inj h
    exact before.append tabled
  · split at h
    · obtain rfl := Except.ok.inj h
      exact before.append tabled
    · obtain ⟨reference, made, h⟩ := bind_ok_iff.mp h
      obtain rfl := Except.ok.inj h
      apply (before.append tabled).append
      intro other inside reported
      obtain rfl := List.mem_singleton.mp inside
      obtain ⟨bytes, -, made⟩ := bind_ok_iff.mp made
      obtain ⟨evidenceId, -, made⟩ := bind_ok_iff.mp made
      obtain rfl := Except.ok.inj made
      exact absurd reported (provenanceOf_ne _ _ _ _)

theorem issueFile_reports {state next : EvidenceState}
    (captured : captureText site relative = .ok file) (before : Reports site plan state.references)
    (h : issueFile site plan relative file state = .ok next) : Reports site plan next.references := by
  unfold issueFile at h
  dsimp only at h
  split at h
  · obtain rfl := Except.ok.inj h
    exact before
  · obtain ⟨tables, tabled, h⟩ := bind_ok_iff.mp h
    have selected : Reports site plan
        { state with selected := state.selected ++ [relative] }.references := before
    refine issueRegular_reports selected ?_ h
    refine issueTables_reports captured (Nat.min_le_left _ state.remaining) ?_
      (fun _ none => absurd none List.not_mem_nil) tabled
    intro table inside
    split at inside
    · exact inside
    · cases inside

theorem visitPath_reports {state next : EvidenceState} (before : Reports site plan state.references)
    (h : visitPath site plan state relative = .ok next) : Reports site plan next.references := by
  unfold visitPath at h
  dsimp only at h
  split at h
  · obtain rfl := Except.ok.inj h
    exact before
  · split at h
    · obtain rfl := Except.ok.inj h
      exact before
    · split at h
      · obtain rfl := Except.ok.inj h
        exact before
      · split at h
        · obtain rfl := Except.ok.inj h
          exact before
        · split at h
          · obtain rfl := Except.ok.inj h
            exact before
          · split at h
            · obtain rfl := Except.ok.inj h
              exact before
            next file captured => exact issueFile_reports captured before h

theorem visitPaths_reports {paths : List Str} {state next : EvidenceState}
    (before : Reports site plan state.references)
    (h : paths.foldlM (visitPath site plan) state = .ok next) : Reports site plan next.references := by
  induction paths generalizing state with
  | nil =>
    obtain rfl := Except.ok.inj h
    exact before
  | cons path paths ih =>
    rw [List.foldlM_cons] at h
    obtain ⟨between, first, later⟩ := bind_ok_iff.mp h
    exact ih (visitPath_reports before first) later

end Rounds

/-- The claims that a plan matches to a table are claims of the request that the table supports. -/
theorem Plan.of_mem_matching {site : Site} {plan : Plan} {relative id : Str} {table : MarkdownTable}
    (member : id ∈ plan.matching site relative table) :
    ∃ claim ∈ plan.claims, claim.claimId.val = id ∧
      tableSupportsClaim site.lookup table claim relative = true := by
  have supports := (List.mem_filter.mp member).2
  cases found : plan.claim id with
  | none => simp [found] at supports
  | some claim =>
    rw [found] at supports
    refine ⟨claim, List.mem_reverse.mp (List.mem_of_find?_eq_some found), ?_, by simpa using supports⟩
    simpa using List.find?_some found

/-- Every reported measurement is a table of the part of its file that the limit lets through, which
supports the claims it is issued for. Where `splitlines` and LF find the same lines up to its end, it is
a table of the file, line for line and cell for cell, exactly if the limit does not cut its last line. -/
theorem reportedMeasurements_whole_iff (site : Site) (request : EvidenceRequest)
    (bundle : EvidenceBundle) (returned : discoverEvidence site request = .ok bundle) :
    ∀ reference ∈ bundle.references, reference.provenance = .reportedMeasurement →
      ∃ text limit table, OfFile site reference text ∧ limit ≤ request.limits.maxFileChars ∧
        table ∈ markdownTables (text.take limit) ∧
        reference.cut = ⟨table.excerpt, table.startLine, table.endLine⟩ ∧
        (∀ id ∈ reference.claimIds, ∃ claim ∈ request.claims, claim.claimId.val = id ∧
          tableSupportsClaim site.lookup table claim reference.path = true) ∧
        (SameLinesUpTo (text.take limit) table.endLine →
          (WholeTable text table ↔ ¬ CutsLineAt text limit table.endLine)) := by
  intro reference member reported
  obtain ⟨selected, -, returned⟩ := bind_ok_iff.mp returned
  obtain ⟨⟨⟩, -, returned⟩ := bind_ok_iff.mp returned
  obtain ⟨changed, -, returned⟩ := bind_ok_iff.mp returned
  obtain ⟨priority, -, returned⟩ := bind_ok_iff.mp returned
  obtain ⟨state, loop, returned⟩ := bind_ok_iff.mp returned
  obtain rfl := Except.ok.inj returned
  obtain ⟨text, limit, table, issued⟩ :=
    visitPaths_reports (fun _ none => absurd none List.not_mem_nil) loop reference member reported
  refine ⟨text, limit, table, issued.file, issued.within, issued.found, issued.cut, ?_,
    wholeTable_iff issued.found⟩
  intro id inside
  rw [issued.claims, mem_sortedSet] at inside
  exact Plan.of_mem_matching inside

/-! ### A row that the limit cuts -/

/-- A checkout with a read-me. -/
def readmeView (content : Bytes) : FileView where
  refusal path := if path = lit "readme.md" then none else some NOT_AVAILABLE
  statSize _ := some content.length
  capture path := if path = lit "readme.md" then some content else none

def readmeText : Str := "| m | v |\n|---|---|\n| accuracy | 0.95 |\n"

def readmeBytes : Bytes := readmeText.map fun c => UInt8.ofNat c.val

def readmeSite : Site := ⟨sampleHost, sampleLookup, readmeView readmeBytes, none⟩

theorem metricText : strip (lit "accuracy") ≠ [] ∧ (lit "accuracy").length ≤ 256 := by decide

theorem longMagnitudeText : strip (lit "0.95") ≠ [] ∧ (lit "0.95").length ≤ 512 := by decide

theorem shortMagnitudeText : strip (lit "0.9") ≠ [] ∧ (lit "0.9").length ≤ 512 := by decide

/-- A claim of an accuracy. -/
def accuracyClaim (raw : NonemptyText 512) : ScientificClaim := { sampleClaim with
  metric := some ⟨lit "accuracy", metricText⟩
  claimedMagnitude := some ⟨raw, none, none, .absolute⟩
  evidenceHints := [] }

/-- The default limits with the characters before the last digit of the table. -/
def cutTableLimits : Limits := { Limits.default with
  maxFileChars := 36
  bounded := by decide }

def readmeRequest (raw : NonemptyText 512) (limits : Limits) : EvidenceRequest :=
  ⟨[accuracyClaim raw], ["readme.md"], limits, fun _ => [], [], [], some ["readme.md"]⟩

theorem readme_decodes : decodeUtf8 readmeBytes = some readmeText := by decide +kernel

theorem reportedMeasurements_whole_readme :
    ∃ bundle, discoverEvidence readmeSite
        (readmeRequest ⟨lit "0.95", longMagnitudeText⟩ Limits.default) = .ok bundle ∧
      bundle.references.any (fun reference => reference.provenance = .reportedMeasurement) = true ∧
      ∀ reference ∈ bundle.references, reference.provenance = .reportedMeasurement →
        ∃ text limit table, OfFile readmeSite reference text ∧ limit ≤ 16000 ∧
          table ∈ markdownTables (text.take limit) ∧
          (SameLinesUpTo (text.take limit) table.endLine →
            (WholeTable text table ↔ ¬ CutsLineAt text limit table.endLine)) := by
  obtain ⟨bundle, returned, run⟩ := ok_of_any (by decide +kernel :
    ((discoverEvidence readmeSite
      (readmeRequest ⟨lit "0.95", longMagnitudeText⟩ Limits.default)).toOption.any fun bundle =>
        bundle.references.any fun reference => reference.provenance = .reportedMeasurement) = true)
  refine ⟨bundle, returned, run, fun reference member reported => ?_⟩
  obtain ⟨text, limit, table, file, within, found, -, -, whole⟩ :=
    reportedMeasurements_whole_iff readmeSite
      (readmeRequest ⟨lit "0.95", longMagnitudeText⟩ Limits.default) bundle returned
      reference member reported
  exact ⟨text, limit, table, file, within, found, whole⟩

/-- A claim of 0.9 is reported from a table that says 0.95. -/
theorem cutRow_reported :
    ¬ ∀ (site : Site) (request : EvidenceRequest) (bundle : EvidenceBundle),
      discoverEvidence site request = .ok bundle → ∀ reference ∈ bundle.references,
        reference.provenance = .reportedMeasurement → ∃ text table, OfFile site reference text ∧
          reference.cut = ⟨table.excerpt, table.startLine, table.endLine⟩ ∧ WholeTable text table := by
  intro promised
  have run : shownBy readmeSite (readmeRequest ⟨lit "0.9", shortMagnitudeText⟩ cutTableLimits) =
      some [(lit "readme.md", ⟨readmeText.take 36, 1, 3⟩, .selectedRegion, .reportedMeasurement)] := by
    decide +kernel
  unfold shownBy at run
  cases returned : discoverEvidence readmeSite
      (readmeRequest ⟨lit "0.9", shortMagnitudeText⟩ cutTableLimits) with
  | error fault =>
    rw [returned] at run
    cases run
  | ok bundle =>
    rw [returned] at run
    obtain ⟨reference, references, shown⟩ := List.map_eq_singleton_iff.mp (Option.some.inj run)
    simp only [Prod.mk.injEq] at shown
    obtain ⟨path, cut, -, provenance⟩ := shown
    obtain ⟨text, table, ⟨bytes, raw, captured, decodes, rfl, -, -⟩, shows', whole⟩ :=
      promised readmeSite _ bundle returned reference (references ▸ List.mem_cons_self) provenance
    have content : readmeSite.head.capture reference.path = some readmeBytes := path ▸ rfl
    rw [content] at captured
    rw [← Option.some.inj captured, readme_decodes] at decodes
    rw [cut] at shows'
    obtain ⟨excerpt, startLine, endLine⟩ := Excerpt.mk.inj shows'
    obtain ⟨tail, -, joined⟩ := whole.excerpt
    rw [← excerpt, ← startLine, ← endLine, ← Option.some.inj decodes] at joined
    have lengths := congrArg List.length joined
    rw [List.length_append] at lengths
    have full : (joinLines ((lineSpan (lineTexts (universalNewlines readmeText)) 1 3).map
        lineContent)).length = 39 := by decide +kernel
    rw [full, List.length_take] at lengths
    omega

end ClaimCI.Review
