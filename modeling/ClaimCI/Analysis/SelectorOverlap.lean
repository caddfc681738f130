import ClaimCI.Analysis.TableRows
import ClaimCI.Python.Literals

/-!
# Overlap of table selectors

Whether two predicates may match one cell, and whether two selectors are known to select no common
row. Both are decided from the predicates alone, and both decisions are exact.
-/

open Python

namespace ClaimCI

section Overlap

variable {ut : UnicodeTables}

/-- The text of a string predicate. -/
def TablePredicate.text (p : TablePredicate ut) : Str :=
  match p.value with
  | .str s => s
  | _ => []

/-- The only cell that a boolean predicate matches. -/
def TablePredicate.booleanText (p : TablePredicate ut) : Str :=
  if p.value.same (.bool true) then lit "true" else lit "false"

/-- The comparison of the text of a string predicate with a predicate of another type. -/
def textMayMatch (text : Str) (other : TablePredicate ut) : Bool :=
  match other.scalarType with
  | .boolean => text == other.booleanText
  | .number =>
    match tableNumber text, tableNumber other.canonicalValue with
    | some parsed, some expected => parsed.eq expected
    | _, _ => false
  | _ => false

/-- `_table_predicates_may_match_same_cell`, for two predicates over one column. -/
def mayMatchSameCell (left right : TablePredicate ut) : Bool :=
  match left.scalarType, right.scalarType with
  | .null, other => other == .null
  | _, .null => false
  | .string, .string => left.value.same right.value
  | .boolean, .boolean => left.value.same right.value
  | .number, .number => left.canonicalValue == right.canonicalValue
  | .string, _ => textMayMatch left.text right
  | _, .string => textMayMatch right.text left
  | _, _ => false

/-- `_table_selectors_are_row_disjoint`. -/
def rowDisjoint (left right : TableSelector ut) : Bool :=
  left.predicates.any fun p =>
    match right.predicates.find? fun q => q.column == p.column with
    | some q => !mayMatchSameCell p q
    | none => false

/-! ### One cell -/

section Cells

variable {p q : TablePredicate ut} {cell : Str}

theorem TablePredicate.string_value (kind : p.scalarType = .string) :
    p.value = .str p.canonicalValue := by
  have checked := p.canonical
  rw [kind] at checked
  cases value : p.value with
  | str s =>
    rw [value, predicateCanonical] at checked
    split at checked
    · cases checked
    · rw [Except.ok.inj checked]
  | _ =>
    rw [value] at checked
    cases checked

theorem TablePredicate.boolean_value (kind : p.scalarType = .boolean) :
    ∃ b, p.value = .bool b ∧ p.canonicalValue = if b then lit "true" else lit "false" := by
  have checked := p.canonical
  rw [kind] at checked
  cases value : p.value with
  | bool b =>
    rw [value, predicateCanonical] at checked
    exact ⟨b, rfl, (Except.ok.inj checked).symm⟩
  | _ =>
    rw [value] at checked
    cases checked

theorem same_text (s t : Str) : (Value.str s).same (.str t) = (s == t) := by
  simp [Value.same, Value.sameScalar, Value.number]

theorem same_boolean (a b : Bool) : (Value.bool a).same (.bool b) = (a == b) := by
  simp only [Value.same, Value.sameScalar, Value.number]
  cases a <;> cases b <;> decide

theorem TablePredicate.text_eq (kind : p.scalarType = .string) : p.text = p.canonicalValue := by
  simp [TablePredicate.text, p.string_value kind]

theorem TablePredicate.booleanText_eq (kind : p.scalarType = .boolean) :
    p.booleanText = p.canonicalValue := by
  obtain ⟨b, value, canonical⟩ := p.boolean_value kind
  rw [TablePredicate.booleanText, value, canonical, same_boolean]
  cases b <;> rfl

theorem TablePredicate.booleanText_or : p.booleanText = lit "true" ∨ p.booleanText = lit "false" := by
  unfold TablePredicate.booleanText
  split
  · exact .inl rfl
  · exact .inr rfl

/-- A predicate for a text or a boolean matches its canonical value and no other cell. -/
theorem tableCellMatches_plain (plain : p.scalarType = .string ∨ p.scalarType = .boolean) :
    tableCellMatches cell p = .ok true ↔ cell = p.canonicalValue := by
  rcases plain with kind | kind
  · simp [tableCellMatches, kind, p.string_value kind, same_text]
  · have text : (if p.value.same (.bool true) then lit "true" else lit "false") =
        p.canonicalValue := p.booleanText_eq kind
    have strict := p.booleanText_or
    rw [p.booleanText_eq kind] at strict
    simp only [tableCellMatches, kind, text]
    split
    next other =>
      refine iff_of_false (by rintro ⟨⟩) ?_
      rintro rfl
      rcases strict with same | same
      · exact other.1 same
      · exact other.2 same
    · simp

/-- No cell of a delimited table is null. -/
theorem tableCellMatches_null (kind : p.scalarType = .null) : tableCellMatches cell p ≠ .ok true := by
  rw [tableCellMatches, kind]
  rintro ⟨⟩

theorem tableCellMatches_self (kind : p.scalarType ≠ .null) :
    tableCellMatches p.canonicalValue p = .ok true := by
  cases scalar : p.scalarType with
  | string => exact (tableCellMatches_plain (.inl scalar)).mpr rfl
  | boolean => exact (tableCellMatches_plain (.inr scalar)).mpr rfl
  | number => exact (tableCellMatches_canonical scalar scalar).mpr rfl
  | null => exact absurd scalar kind

/-- A text of a string predicate is compared as a cell is. -/
theorem textMayMatch_iff (kind : q.scalarType = .number ∨ q.scalarType = .boolean) (text : Str) :
    textMayMatch text q = true ↔ tableCellMatches text q = .ok true := by
  rcases kind with kind | kind
  · rw [tableCellMatches_number kind, textMayMatch, kind, TablePredicate.tableNumber_canonical kind]
    cases tableNumber text with
    | none => simp
    | some d => simp [Decimal.eq_iff, toRat_canonicalDecimal]
  · rw [tableCellMatches_plain (.inr kind), textMayMatch, kind, q.booleanText_eq kind]
    exact beq_iff_eq

/-- Some cell matches both predicates. -/
def ShareCell (p q : TablePredicate ut) : Prop :=
  ∃ cell, tableCellMatches cell p = .ok true ∧ tableCellMatches cell q = .ok true

theorem ShareCell.symm (shared : ShareCell p q) : ShareCell q p := by
  obtain ⟨cell, left, right⟩ := shared
  exact ⟨cell, right, left⟩

theorem shareCell_comm : ShareCell p q ↔ ShareCell q p := ⟨.symm, .symm⟩

theorem shareCell_plain (plain : p.scalarType = .string ∨ p.scalarType = .boolean) :
    ShareCell p q ↔ tableCellMatches p.canonicalValue q = .ok true := by
  constructor
  · rintro ⟨cell, left, right⟩
    rwa [(tableCellMatches_plain plain).mp left] at right
  · intro matched
    exact ⟨_, (tableCellMatches_plain plain).mpr rfl, matched⟩

theorem shareCell_numbers (kind : p.scalarType = .number) (kind' : q.scalarType = .number) :
    ShareCell p q ↔ p.canonicalValue = q.canonicalValue := by
  constructor
  · rintro ⟨cell, left, right⟩
    obtain ⟨d, read, same⟩ := (tableCellMatches_number kind cell).mp left
    obtain ⟨e, again, same'⟩ := (tableCellMatches_number kind' cell).mp right
    rw [← Option.some.inj (read.symm.trans again), same] at same'
    rw [← toRat_canonicalDecimal, ← toRat_canonicalDecimal] at same'
    rw [(TablePredicate.number_canonical kind).2, (TablePredicate.number_canonical kind').2,
      canonicalDecimal_eq same']
  · intro same
    exact ⟨p.canonicalValue, tableCellMatches_self (by simp [kind]),
      (tableCellMatches_canonical kind kind').mpr same⟩

/-- No boolean is written as a number. -/
theorem not_shareCell_boolean_number (kind : p.scalarType = .boolean)
    (kind' : q.scalarType = .number) : ¬ ShareCell p q := by
  rw [shareCell_plain (.inr kind), tableCellMatches_number kind']
  obtain ⟨b, -, canonical⟩ := p.boolean_value kind
  rintro ⟨d, read, -⟩
  rw [canonical] at read
  cases b <;> cases read

theorem not_shareCell_null (kind : q.scalarType = .null) : ¬ ShareCell p q := by
  rintro ⟨cell, -, matched⟩
  exact tableCellMatches_null kind matched

/-- Two predicates over one column may match the same cell exactly if both are null or some cell
matches both. -/
theorem mayMatchSameCell_iff (p q : TablePredicate ut) :
    mayMatchSameCell p q = true ↔ (p.scalarType = .null ∧ q.scalarType = .null) ∨
      ∃ cell, tableCellMatches cell p = .ok true ∧ tableCellMatches cell q = .ok true := by
  change _ ↔ _ ∨ ShareCell p q
  -- the cases are those of the code: the types of the two predicates
  cases left : p.scalarType <;> cases right : q.scalarType <;>
    simp only [mayMatchSameCell, left, right, reduceCtorEq, and_self, and_true, and_false,
      false_or, true_or, beq_self_eq_true]
  case string.string =>
    rw [shareCell_plain (.inl left), tableCellMatches_plain (.inl right), p.string_value left,
      q.string_value right, same_text, beq_iff_eq]
  case string.number =>
    rw [shareCell_plain (.inl left), textMayMatch_iff (.inl right), p.text_eq left]
  case string.boolean =>
    rw [shareCell_plain (.inl left), textMayMatch_iff (.inr right), p.text_eq left]
  case number.string =>
    rw [shareCell_comm, shareCell_plain (.inl right), textMayMatch_iff (.inl left), q.text_eq right]
  case boolean.string =>
    rw [shareCell_comm, shareCell_plain (.inl right), textMayMatch_iff (.inr left), q.text_eq right]
  case number.number =>
    rw [shareCell_numbers left right, beq_iff_eq]
  case boolean.boolean =>
    obtain ⟨a, value, canonical⟩ := p.boolean_value left
    obtain ⟨b, value', canonical'⟩ := q.boolean_value right
    rw [shareCell_plain (.inr left), tableCellMatches_plain (.inr right), canonical, canonical',
      value, value', same_boolean, beq_iff_eq]
    cases a <;> cases b <;> simp [lit_inj]
  case boolean.number => simp [not_shareCell_boolean_number left right]
  case number.boolean => simp [mt ShareCell.symm (not_shareCell_boolean_number right left)]
  case string.null => simp [not_shareCell_null right]
  case number.null => simp [not_shareCell_null right]
  case boolean.null => simp [not_shareCell_null right]
  case null.string => simp [mt ShareCell.symm (not_shareCell_null left)]
  case null.number => simp [mt ShareCell.symm (not_shareCell_null left)]
  case null.boolean => simp [mt ShareCell.symm (not_shareCell_null left)]

end Cells

/-! ### Common rows -/

section Rows

variable {s t : TableSelector ut}

/-- An item is found by its key where the keys are distinct. -/
theorem find?_key {α κ : Type} [BEq κ] [LawfulBEq κ] {key : α → κ} {items : List α}
    (distinct : (items.map key).Nodup) {item : α} (member : item ∈ items) :
    items.find? (fun other => key other == key item) = some item := by
  cases found : items.find? fun other => key other == key item with
  | none => exact absurd (beq_self_eq_true _) (List.find?_eq_none.mp found item member)
  | some other =>
    have same : key other = key item := by simpa using List.find?_some found
    rw [List.inj_on_of_nodup_map distinct (List.mem_of_find?_eq_some found) member same]

theorem rowDisjoint_eq_true_iff : rowDisjoint s t = true ↔
    ∃ p ∈ s.predicates, ∃ q ∈ t.predicates, q.column = p.column ∧ mayMatchSameCell p q = false := by
  rw [rowDisjoint, List.any_eq_true]
  constructor
  · rintro ⟨p, member, decided⟩
    split at decided
    next q found =>
      exact ⟨p, member, q, List.mem_of_find?_eq_some found, by simpa using List.find?_some found,
        by simpa using decided⟩
    · cases decided
  · rintro ⟨p, member, q, inside, column, decided⟩
    refine ⟨p, member, ?_⟩
    rw [← column, find?_key t.distinct inside]
    simpa using decided

/-- A selected index is that of a row whose cells match. -/
theorem matchingRows_getElem {cell : List Str → Str → Str} {predicates : List (TablePredicate ut)}
    {index : Nat} {rows : List (List Str)} {selected : List Nat} {i : Nat}
    (run : matchingRows cell predicates index rows = .ok selected) (member : i ∈ selected) :
    index ≤ i ∧ ∃ row, rows[i - index]? = some row ∧ rowMatches (cell row) predicates = .ok true := by
  induction rows generalizing index selected with
  | nil =>
    cases run
    cases member
  | cons row rest ih =>
    obtain ⟨matched, here, run⟩ := bind_ok_iff.mp run
    obtain ⟨others, later, run⟩ := bind_ok_iff.mp run
    -- an index is the one of the first row, or it was selected from the others
    have cases : (i = index ∧ matched = true) ∨ i ∈ others := by
      rw [← Except.ok.inj run] at member
      cases matched
      · exact .inr member
      · simpa using member
    rcases cases with ⟨rfl, rfl⟩ | inside
    · exact ⟨le_rfl, row, by simp, here⟩
    · obtain ⟨above, found, there, meets⟩ := ih later inside
      refine ⟨by omega, found, ?_, meets⟩
      rw [show i - index = (i - (index + 1)) + 1 by omega, List.getElem?_cons_succ]
      exact there

/-- A row of a table meets the predicates of a selector. -/
def TableSelector.MeetsRow (s : TableSelector ut) (table : DelimitedTable) (i : Nat) : Prop :=
  ∃ row, table.rows[i]? = some row ∧
    ∀ p ∈ s.predicates, tableCellMatches (table.cell row p.column) p = .ok true

theorem selectedRow {table : DelimitedTable} {rows : List Nat} {i : Nat}
    (selected : selectedRowIndices table s = .ok rows) (member : i ∈ rows) : s.MeetsRow table i := by
  obtain ⟨-, -, run, -⟩ := (selectedRowIndices_ok_iff table rows).mp selected
  obtain ⟨-, row, there, meets⟩ := matchingRows_getElem run member
  exact ⟨row, there, (rowMatches_true_iff _ _).mp meets⟩

/-- No row meets the predicates of two selectors that exclude each other. -/
theorem rowDisjoint_sound (disjoint : rowDisjoint s t = true) {table : DelimitedTable} {i : Nat}
    (left : s.MeetsRow table i) (right : t.MeetsRow table i) : False := by
  obtain ⟨p, member, q, inside, column, excluded⟩ := rowDisjoint_eq_true_iff.mp disjoint
  obtain ⟨row, there, meets⟩ := left
  obtain ⟨row', there', meets'⟩ := right
  obtain rfl := Option.some.inj (there.symm.trans there')
  have shared := meets' q inside
  rw [column] at shared
  have overlap := (mayMatchSameCell_iff p q).mpr (.inr ⟨_, meets p member, shared⟩)
  rw [excluded] at overlap
  cases overlap

/-- One row can meet the predicates of two selectors that are not known to be disjoint. -/
theorem exists_commonCells (overlap : rowDisjoint s t = false)
    (filled : ∀ p ∈ s.predicates ++ t.predicates, p.scalarType ≠ .null) :
    ∃ cell : Str → Str, (∀ p ∈ s.predicates, tableCellMatches (cell p.column) p = .ok true) ∧
      ∀ q ∈ t.predicates, tableCellMatches (cell q.column) q = .ok true := by
  have left {p p' : TablePredicate ut} (member : p ∈ s.predicates) (member' : p' ∈ s.predicates)
      (same : p'.column = p.column) : p' = p := List.inj_on_of_nodup_map s.distinct member' member same
  have right {q q' : TablePredicate ut} (member : q ∈ t.predicates) (member' : q' ∈ t.predicates)
      (same : q'.column = q.column) : q' = q := List.inj_on_of_nodup_map t.distinct member' member same
  have column : ∀ column, ∃ cell,
      (∀ p ∈ s.predicates, p.column = column → tableCellMatches cell p = .ok true) ∧
        ∀ q ∈ t.predicates, q.column = column → tableCellMatches cell q = .ok true := by
    intro column
    -- a column of both selectors needs a cell of both predicates
    by_cases inS : ∃ p ∈ s.predicates, p.column = column
    · obtain ⟨p, member, rfl⟩ := inS
      have nonnull := filled p (List.mem_append_left _ member)
      by_cases inT : ∃ q ∈ t.predicates, q.column = p.column
      · obtain ⟨q, inside, same⟩ := inT
        have may : mayMatchSameCell p q = true := by
          by_contra excluded
          rw [rowDisjoint_eq_true_iff.mpr ⟨p, member, q, inside, same, by simpa using excluded⟩]
            at overlap
          cases overlap
        rcases (mayMatchSameCell_iff p q).mp may with ⟨null, -⟩ | ⟨cell, matched, matched'⟩
        · exact absurd null nonnull
        · refine ⟨cell, fun p' member' again => ?_, fun q' inside' again => ?_⟩
          · rwa [left member member' again]
          · rwa [right inside inside' (again.trans same.symm)]
      · refine ⟨p.canonicalValue, fun p' member' again => ?_, fun q inside same => ?_⟩
        · rw [left member member' again]
          exact tableCellMatches_self nonnull
        · exact absurd ⟨q, inside, same⟩ inT
    · by_cases inT : ∃ q ∈ t.predicates, q.column = column
      · obtain ⟨q, inside, rfl⟩ := inT
        refine ⟨q.canonicalValue, fun p member same => ?_, fun q' inside' again => ?_⟩
        · exact absurd ⟨p, member, same⟩ inS
        · rw [right inside inside' again]
          exact tableCellMatches_self (filled q (List.mem_append_right _ inside))
      · exact ⟨[], fun p member same => absurd ⟨p, member, same⟩ inS,
          fun q inside same => absurd ⟨q, inside, same⟩ inT⟩
  choose cell meets using column
  exact ⟨cell, fun p member => (meets p.column).1 p member rfl,
    fun q member => (meets q.column).2 q member rfl⟩

/-- Equal rows with given cells, as many as a selector expects, over the columns of two selectors. -/
def commonTable (s t : TableSelector ut) (cell : Str → Str) : DelimitedTable where
  header := (s.column :: t.column :: (s.predicates ++ t.predicates).map TablePredicate.column).dedup
  rows := List.replicate s.expectedCardinality ((s.column :: t.column ::
    (s.predicates ++ t.predicates).map TablePredicate.column).dedup.map cell)
  distinct := List.nodup_dedup _
  rectangular := by
    intro row inside
    rw [List.eq_of_mem_replicate inside, List.length_map]

theorem commonTable_selects (s t u : TableSelector ut) {cell : Str → Str}
    (target : u.column ∈ (commonTable s t cell).header)
    (known : ∀ p ∈ u.predicates, p.column ∈ (commonTable s t cell).header)
    (meets : ∀ p ∈ u.predicates, tableCellMatches (cell p.column) p = .ok true)
    (cardinality : s.expectedCardinality = u.expectedCardinality) :
    selectedRowIndices (commonTable s t cell) u = .ok (List.range' 0 s.expectedCardinality) := by
  refine (selectedRowIndices_ok_iff _ _).mpr ⟨target, known, ?_, by simp [cardinality]⟩
  refine matchingRows_replicate ((rowMatches_true_iff _ _).mpr fun p member => ?_) 0 _
  have place := List.idxOf_lt_length_of_mem (known p member)
  have same : (commonTable s t cell).cell ((commonTable s t cell).header.map cell) p.column =
      cell p.column := by
    rw [DelimitedTable.cell, List.getD_eq_getElem?_getD, List.getElem?_map,
      List.getElem?_eq_getElem place, List.getElem_idxOf place]
    rfl
  exact (congrArg (fun text => tableCellMatches text p) same).trans (meets p member)

/-- Two selectors of one cardinality are known to select different rows, or have a null predicate,
exactly if they select no common row of any table. -/
theorem rowDisjoint_iff (cardinality : s.expectedCardinality = t.expectedCardinality) :
    (rowDisjoint s t = true ∨ ∃ p ∈ s.predicates ++ t.predicates, p.scalarType = .null) ↔
      ∀ table rows others, selectedRowIndices table s = .ok rows →
        selectedRowIndices table t = .ok others → rows.Disjoint others := by
  constructor
  · rintro (disjoint | ⟨p, member, null⟩) table rows others selected selected'
    · intro i left right
      exact rowDisjoint_sound disjoint (selectedRow selected left) (selectedRow selected' right)
    · -- a null predicate matches no row
      intro i left right
      rcases List.mem_append.mp member with inside | inside
      · obtain ⟨row, -, meets⟩ := selectedRow selected left
        exact tableCellMatches_null null (meets p inside)
      · obtain ⟨row, -, meets⟩ := selectedRow selected' right
        exact tableCellMatches_null null (meets p inside)
  -- where the test finds no disjoint column, one row satisfies both selectors
  · intro separate
    by_contra neither
    obtain ⟨overlap, filled⟩ := not_or.mp neither
    obtain ⟨cell, left, right⟩ := exists_commonCells (by simpa using overlap)
      fun p member null => filled ⟨p, member, null⟩
    have columns (column : Str) : column ∈ (commonTable s t cell).header ↔ column = s.column ∨
        column = t.column ∨ ∃ p ∈ s.predicates ++ t.predicates, p.column = column := by
      simp only [commonTable, List.mem_dedup, List.mem_cons, List.mem_map]
    have first := commonTable_selects s t s ((columns _).mpr (.inl rfl))
      (fun p member => (columns _).mpr (.inr (.inr ⟨p, List.mem_append_left _ member, rfl⟩)))
      left rfl
    have second := commonTable_selects s t t ((columns _).mpr (.inr (.inl rfl)))
      (fun p member => (columns _).mpr (.inr (.inr ⟨p, List.mem_append_right _ member, rfl⟩)))
      right cardinality
    have zero : 0 ∈ List.range' 0 s.expectedCardinality := by
      have := s.cardinality
      rw [List.mem_range'_1]
      omega
    exact separate _ _ _ first second zero zero

end Rows

/-- Ten epochs and twenty are in different rows, and so no table gives both the same row. -/
theorem rowDisjoint_epochs :
    rowDisjoint (lossWhere tenEpochs) (lossWhere twentyEpochs) = true ∧
      ∀ table rows others, selectedRowIndices table (lossWhere tenEpochs) = .ok rows →
        selectedRowIndices table (lossWhere twentyEpochs) = .ok others → rows.Disjoint others := by
  have decided : rowDisjoint (lossWhere tenEpochs) (lossWhere twentyEpochs) = true := by
    decide +kernel
  exact ⟨decided, (rowDisjoint_iff (s := lossWhere tenEpochs) (t := lossWhere twentyEpochs) rfl).mp
    (.inl decided)⟩

end Overlap

end ClaimCI
