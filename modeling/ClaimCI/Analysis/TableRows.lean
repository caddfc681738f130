import ClaimCI.Analysis.Selectors
import ClaimCI.Python.DecimalLimits

/-!
# Rows of delimited tables

How a table selector selects rows of a delimited table, and what its numeric predicates select: the
cells equal to the number that the predicate's identity spells.
-/

open Python

namespace ClaimCI

/-- `Decimal(text)` of a text that `_TABLE_NUMBER` matches. -/
def tableNumber (text : Str) : Option Decimal := (parseNumeral text).bind Numeral.readDecimal

/-- A parsed delimited table. -/
structure DelimitedTable where
  header : List Str
  rows : List (List Str)
  distinct : header.Nodup
  rectangular : ∀ row ∈ rows, row.length = header.length

/-- `row[indices[column]]` for a column of the header. -/
def DelimitedTable.cell (table : DelimitedTable) (row : List Str) (column : Str) : Str :=
  row.getD (table.header.idxOf column) []

section Selection

variable {ut : UnicodeTables}

/-- `_table_cell_matches`. -/
def tableCellMatches (cell : Str) (predicate : TablePredicate ut) : Except Error Bool :=
  match predicate.scalarType with
  | .string => .ok ((Value.str cell).same predicate.value)
  | .boolean =>
    if cell ≠ lit "true" ∧ cell ≠ lit "false" then
      .error (contractError
        -- the two literals of the schema are compared as texts
        (lit "table predicate column '" ++ predicate.column ++ lit "' is not a strict boolean"))
    else .ok (cell == if predicate.value.same (.bool true) then lit "true" else lit "false")
  | .null => .error (contractError "CSV/TSV tables have no schema-backed null representation")
  | .number =>
    match parseNumeral cell with
    | none => .error (contractError
        (lit "table predicate column '" ++ predicate.column ++ lit "' is not a strict number"))
    | some numeral =>
      match numeral.readDecimal, tableNumber predicate.canonicalValue with
      | some parsed, some expected => .ok (parsed.eq expected)
      | _, _ => .error (contractError "table predicate number is malformed")

/-- `all` over the predicates of a row, which stops at the first that does not match. -/
def rowMatches (cell : Str → Str) : List (TablePredicate ut) → Except Error Bool
  | [] => .ok true
  | predicate :: rest => do
    if ← tableCellMatches (cell predicate.column) predicate then rowMatches cell rest
    else .ok false

/-- The indices of the selected rows, the first of which has the given index. -/
def matchingRows (cell : List Str → Str → Str) (predicates : List (TablePredicate ut)) :
    Nat → List (List Str) → Except Error (List Nat)
  | _, [] => .ok []
  | index, row :: rest => do
    let selected ← rowMatches (cell row) predicates
    let others ← matchingRows cell predicates (index + 1) rest
    .ok (if selected then index :: others else others)

/-- Every predicate column is in the header. -/
def checkPredicateColumns (header : List Str) : List (TablePredicate ut) → Except Error Unit
  | [] => .ok ()
  | predicate :: rest => do
    rejectIf (!header.contains predicate.column) (contractError
      (lit "table predicate column '" ++ predicate.column ++ lit "' is not in the header"))
    checkPredicateColumns header rest

/-- `_selected_row_indices`. -/
def selectedRowIndices (table : DelimitedTable) (selector : TableSelector ut) :
    Except Error (List Nat) := do
  rejectIf (!table.header.contains selector.column) (contractError
    (lit "table target column '" ++ selector.column ++ lit "' is not in the header"))
  checkPredicateColumns table.header selector.predicates
  let selected ← matchingRows table.cell selector.predicates 0 table.rows
  rejectIf (selected.length != selector.expectedCardinality) (contractError
    (lit "table selector matched " ++ natText selected.length ++ lit " rows; expected exactly " ++
      natText selector.expectedCardinality))
  .ok selected

end Selection

/-! ### The number a predicate stands for -/

section Numbers

variable {ut : UnicodeTables}

/-- The number a numeric predicate names: an integer, or a float as it is written. -/
def TablePredicate.decimal (p : TablePredicate ut) : Decimal :=
  match p.value with
  | .int n => Decimal.ofInt n
  | .float x => x.toDecimal
  | _ => Decimal.ofNat 0

/-- The number whose text is the canonical value. -/
def canonicalDecimal (d : Decimal) : Decimal :=
  if (d.normalize DEFAULT_PRECISION).isZero then Decimal.ofNat 0 else d.normalize DEFAULT_PRECISION

theorem canonicalNumberText_ok {d : Decimal} {text : Str} (h : canonicalNumberText d = .ok text) :
    text = (canonicalDecimal d).spelling.render := by
  have zero : (Decimal.ofNat 0).spelling.render = lit "0" := by decide +kernel
  unfold canonicalNumberText rejectIf at h
  unfold canonicalDecimal
  simp only at h
  by_cases long : 128 < (if (d.normalize DEFAULT_PRECISION).isZero then lit "0"
      else (d.normalize DEFAULT_PRECISION).spelling.render).length
  · rw [decide_eq_true long] at h
    cases h
  · rw [decide_eq_false long] at h
    rw [← Except.ok.inj h]
    split
    · exact zero.symm
    · rfl

theorem toRat_canonicalDecimal (d : Decimal) :
    (canonicalDecimal d).toRat = (d.fix DEFAULT_PRECISION).toRat := by
  rw [← Decimal.toRat_normalize]
  unfold canonicalDecimal
  split
  next zero =>
    have vanishes : (d.normalize DEFAULT_PRECISION).coefficient = 0 := by
      simpa [Decimal.isZero] using zero
    rw [(Decimal.toRat_eq_zero_iff _).mpr vanishes]
    exact (Decimal.toRat_eq_zero_iff _).mpr rfl
  · rfl

/-- Canonical numbers are equal as data when they are as numbers. -/
theorem canonicalDecimal_eq {a b : Decimal}
    (same : (canonicalDecimal a).toRat = (canonicalDecimal b).toRat) :
    canonicalDecimal a = canonicalDecimal b := by
  have isZero : ∀ d : Decimal, (d.normalize DEFAULT_PRECISION).isZero = true ↔
      (canonicalDecimal d).toRat = 0 := by
    intro d
    rw [toRat_canonicalDecimal, ← Decimal.toRat_normalize, Decimal.toRat_eq_zero_iff]
    simp [Decimal.isZero]
  by_cases zero : (canonicalDecimal a).toRat = 0
  · have zeroA := (isZero a).mpr zero
    have zeroB := (isZero b).mpr (same ▸ zero)
    rw [canonicalDecimal, canonicalDecimal, if_pos zeroA, if_pos zeroB]
  · have nonzeroA : ¬ (a.normalize DEFAULT_PRECISION).isZero = true := fun z => zero ((isZero a).mp z)
    have nonzeroB : ¬ (b.normalize DEFAULT_PRECISION).isZero = true :=
      fun z => zero (same ▸ (isZero b).mp z)
    rw [toRat_canonicalDecimal, toRat_canonicalDecimal, ← Decimal.toRat_normalize,
      ← Decimal.toRat_normalize] at same
    rw [canonicalDecimal, canonicalDecimal, if_neg nonzeroA, if_neg nonzeroB]
    apply (Decimal.normalize_normal _ a).toRat_eq (Decimal.normalize_normal _ b) same
    simpa [Decimal.isZero] using nonzeroA

variable {p q : TablePredicate ut}

/-- A numeric predicate holds a finite number, and its canonical value is the number's text. -/
theorem TablePredicate.number_canonical (numeric : p.scalarType = .number) :
    ((∃ n x, p.value = .int n ∧ Binary64.ofInt n = some x) ∨ ∃ x, p.value = .float x) ∧
      p.canonicalValue = (canonicalDecimal p.decimal).spelling.render := by
  have checked := p.canonical
  rw [numeric] at checked
  unfold TablePredicate.decimal
  cases value : p.value with
  | int n =>
    rw [value, predicateCanonical, canonicalTableNumber] at checked
    cases read : Binary64.ofInt n with
    | none =>
      rw [read] at checked
      cases checked
    | some x =>
      rw [read] at checked
      exact ⟨.inl ⟨n, x, rfl, read⟩, canonicalNumberText_ok checked⟩
  | float x =>
    rw [value, predicateCanonical, canonicalTableNumber] at checked
    exact ⟨.inr ⟨x, rfl⟩, canonicalNumberText_ok checked⟩
  | _ =>
    rw [value] at checked
    cases checked

theorem TablePredicate.decimal_bounds (numeric : p.scalarType = .number) :
    p.decimal.magnitude ≤ (10 : ℚ) ^ (400 : Int) ∧
      (p.decimal.coefficient = 0 ∨ -100000 ≤ p.decimal.exponent) := by
  unfold TablePredicate.decimal
  rcases (TablePredicate.number_canonical numeric).1 with ⟨n, x, value, read⟩ | ⟨x, value⟩
  · rw [value]
    exact ⟨Binary64.ofDecimal_le read, .inr (by simp [Decimal.ofInt])⟩
  · rw [value]
    refine ⟨Binary64.ofDecimal_le (Binary64.ofDecimal_toDecimal x), ?_⟩
    by_cases zero : x.mantissa = 0
    · left
      exact (Decimal.toRat_eq_zero_iff _).mp ((Binary64.toDecimal_eq_zero_iff x).mpr zero)
    · exact .inr (Binary64.toDecimal_exponent_ge x zero)

/-- The canonical value of a numeric predicate is read as a number. -/
theorem TablePredicate.tableNumber_canonical (numeric : p.scalarType = .number) :
    tableNumber p.canonicalValue = some (canonicalDecimal p.decimal) := by
  rw [(TablePredicate.number_canonical numeric).2]
  apply Decimal.readDecimal_spelling
  obtain ⟨high, low⟩ := TablePredicate.decimal_bounds numeric
  unfold canonicalDecimal
  split
  · decide
  next nonzero =>
    rcases low with zero | low
    · exfalso
      apply nonzero
      have fixed : p.decimal.fix DEFAULT_PRECISION = p.decimal := by
        apply Decimal.fix_of_digits
        rw [zero]
        decide
      simp [Decimal.normalize, fixed, zero, Decimal.isZero]
    · exact Decimal.normalize_representable (by decide) low high

/-- A cell matches a numeric predicate when it is a number equal to the canonical one. -/
theorem tableCellMatches_number (numeric : p.scalarType = .number) (cell : Str) :
    tableCellMatches cell p = .ok true ↔
      ∃ d, tableNumber cell = some d ∧ d.toRat = (p.decimal.fix DEFAULT_PRECISION).toRat := by
  unfold tableCellMatches
  rw [numeric, TablePredicate.tableNumber_canonical numeric]
  simp only [tableNumber]
  cases parseNumeral cell with
  | none => simp
  | some numeral =>
    cases read : numeral.readDecimal with
    | none => simp [read]
    | some d =>
      simp only [Option.bind_some, read, Except.ok.injEq, Decimal.eq_iff, Option.some.injEq,
        exists_eq_left', toRat_canonicalDecimal]

/-- A numeric predicate selects exactly the cells equal to its number when 28 digits hold it. -/
theorem tableCellMatches_exact_iff (numeric : p.scalarType = .number) :
    (∀ cell, tableCellMatches cell p = .ok true ↔
      ∃ d, tableNumber cell = some d ∧ d.toRat = p.decimal.toRat) ↔
      HasDigits DEFAULT_PRECISION p.decimal.toRat := by
  constructor
  -- the cell that is the predicate's own spelling has to match
  · intro equal
    rcases (TablePredicate.number_canonical numeric).1 with ⟨n, x, value, read⟩ | ⟨x, value⟩
    · have whole : p.decimal = Decimal.ofInt n := by rw [TablePredicate.decimal, value]
      have written : tableNumber p.decimal.spelling.render = some p.decimal := by
        apply Decimal.readDecimal_spelling
        apply Decimal.representable_of_magnitude
        · simp [whole, Decimal.ofInt]
        · simp [whole, Decimal.ofInt]
        · exact (TablePredicate.decimal_bounds numeric).1
      have matched := (equal _).mpr ⟨p.decimal, written, rfl⟩
      obtain ⟨d, again, same⟩ := (tableCellMatches_number numeric _).mp matched
      rw [written] at again
      rw [← Option.some.inj again] at same
      exact ⟨p.decimal.fix DEFAULT_PRECISION, Decimal.fix_digits (by decide) _, same.symm⟩
    · refine ⟨x.toDecimal, x.toDecimal_digits.trans (by decide), ?_⟩
      rw [TablePredicate.decimal, value]
  -- within the digits the canonical value is the value
  · intro fits cell
    rw [tableCellMatches_number numeric, Decimal.toRat_fix_of_hasDigits (by decide) fits]

/-- Numeric predicates of one canonical value match the same cells. -/
theorem tableCellMatches_congr (numeric : p.scalarType = .number) (numeric' : q.scalarType = .number)
    (column : p.column = q.column) (value : p.canonicalValue = q.canonicalValue) (cell : Str) :
    tableCellMatches cell p = tableCellMatches cell q := by
  simp only [tableCellMatches, numeric, numeric', column, value]

/-- A numeric predicate matches the canonical value of another when the two values are one. -/
theorem tableCellMatches_canonical (numeric : p.scalarType = .number)
    (numeric' : q.scalarType = .number) :
    tableCellMatches p.canonicalValue q = .ok true ↔ p.canonicalValue = q.canonicalValue := by
  rw [tableCellMatches_number numeric', TablePredicate.tableNumber_canonical numeric]
  simp only [Option.some.injEq, exists_eq_left', ← toRat_canonicalDecimal]
  constructor
  · intro same
    rw [(TablePredicate.number_canonical numeric).2, (TablePredicate.number_canonical numeric').2,
      canonicalDecimal_eq same]
  · intro same
    have read := TablePredicate.tableNumber_canonical numeric
    rw [same, TablePredicate.tableNumber_canonical numeric'] at read
    rw [Option.some.inj read]

end Numbers

/-! ### What a selector selects -/

section Selectors

variable {ut : UnicodeTables} {s t : TableSelector ut}

theorem rowMatches_true_iff (cell : Str → Str) (predicates : List (TablePredicate ut)) :
    rowMatches cell predicates = .ok true ↔
      ∀ p ∈ predicates, tableCellMatches (cell p.column) p = .ok true := by
  induction predicates with
  | nil => simp [rowMatches]
  | cons p rest ih =>
    rw [List.forall_mem_cons, ← ih, rowMatches]
    cases h : tableCellMatches (cell p.column) p with
    | error error => simp [bind, Except.bind]
    | ok matched => cases matched <;> simp [bind, Except.bind]

theorem checkPredicateColumns_ok_iff (header : List Str) (predicates : List (TablePredicate ut)) :
    checkPredicateColumns header predicates = .ok () ↔ ∀ p ∈ predicates, p.column ∈ header := by
  induction predicates with
  | nil => simp [checkPredicateColumns]
  | cons p rest ih =>
    rw [List.forall_mem_cons, ← ih, checkPredicateColumns]
    by_cases known : p.column ∈ header <;> simp [known, rejectIf, bind, Except.bind]

/-- An index in the result is that of a row that matches. -/
theorem matchingRows_mem {cell : List Str → Str → Str} {predicates : List (TablePredicate ut)}
    {index : Nat} {rows : List (List Str)} {selected : List Nat} {i : Nat}
    (h : matchingRows cell predicates index rows = .ok selected) (mem : i ∈ selected) :
    ∃ row ∈ rows, rowMatches (cell row) predicates = .ok true := by
  -- induction on the rows; the index is that of the first
  induction rows generalizing index selected with
  | nil =>
    cases h
    cases mem
  | cons row rest ih =>
    rw [matchingRows] at h
    cases here : rowMatches (cell row) predicates with
    | error error =>
      rw [here] at h
      cases h
    | ok matched =>
      rw [here] at h
      cases others : matchingRows cell predicates (index + 1) rest with
      | error error =>
        rw [others] at h
        cases h
      | ok later =>
        rw [others] at h
        cases matched with
        | true => exact ⟨row, List.mem_cons_self, here⟩
        | false =>
          have same : later = selected := Except.ok.inj h
          obtain ⟨other, inside, there⟩ := ih others (same ▸ mem)
          exact ⟨other, List.mem_cons_of_mem _ inside, there⟩

theorem matchingRows_replicate {cell : List Str → Str → Str} {predicates : List (TablePredicate ut)}
    {row : List Str} (matched : rowMatches (cell row) predicates = .ok true) (index count : Nat) :
    matchingRows cell predicates index (List.replicate count row) =
      .ok (List.range' index count) := by
  induction count generalizing index with
  | zero => rfl
  | succ count ih =>
    rw [List.replicate_succ, matchingRows, matched, ih (index + 1)]
    rfl

theorem selectedRowIndices_ok_iff (table : DelimitedTable) (selected : List Nat) :
    selectedRowIndices table s = .ok selected ↔
      s.column ∈ table.header ∧ (∀ p ∈ s.predicates, p.column ∈ table.header) ∧
        matchingRows table.cell s.predicates 0 table.rows = .ok selected ∧
          selected.length = s.expectedCardinality := by
  rw [selectedRowIndices, ← checkPredicateColumns_ok_iff]
  by_cases target : s.column ∈ table.header
  · have passed : rejectIf (!table.header.contains s.column) (contractError
        (lit "table target column '" ++ s.column ++ lit "' is not in the header")) = .ok () := by
      rw [rejectIf_ok_iff]
      simpa using target
    rw [passed]
    -- first the columns of the predicates, then the rows, then their number
    cases columns : checkPredicateColumns table.header s.predicates with
    | error error => simp [bind, Except.bind]
    | ok _ =>
      cases rows : matchingRows table.cell s.predicates 0 table.rows with
      | error error => simp [bind, Except.bind]
      | ok found =>
        by_cases count : found.length = s.expectedCardinality
        · simp only [bind, Except.bind, rejectIf, count, bne_self_eq_false, Bool.false_eq_true,
            if_false, target, true_and, Except.ok.injEq]
          exact ⟨fun same => ⟨same, same ▸ count⟩, And.left⟩
        · have mismatch : (found.length != s.expectedCardinality) = true := by simpa using count
          simp only [bind, Except.bind, rejectIf, mismatch, if_true, reduceCtorEq, target, true_and,
            Except.ok.injEq, false_iff, not_and]
          rintro rfl
          exact count
  · simp [target, rejectIf, bind, Except.bind]

/-- The cell under a column in a row that meets the predicates of a selector, empty elsewhere. -/
def meetingCell (s : TableSelector ut) (column : Str) : Str :=
  match s.predicates.find? fun p => p.column == column with
  | some p => p.canonicalValue
  | none => []

/-- As many rows that meet the predicates of a selector as it expects. -/
def meetingTable (s : TableSelector ut) : DelimitedTable where
  header := (s.column :: s.predicates.map TablePredicate.column).dedup
  rows := List.replicate s.expectedCardinality
    ((s.column :: s.predicates.map TablePredicate.column).dedup.map (meetingCell s))
  distinct := List.nodup_dedup _
  rectangular := by
    intro row inside
    rw [List.eq_of_mem_replicate inside, List.length_map]

theorem meetingTable_header (s : TableSelector ut) (column : Str) :
    column ∈ (meetingTable s).header ↔ column = s.column ∨ ∃ p ∈ s.predicates, p.column = column := by
  simp [meetingTable]

theorem meetingTable_cell (s : TableSelector ut) {row : List Str} (inside : row ∈ (meetingTable s).rows)
    {column : Str} (known : column ∈ (meetingTable s).header) :
    (meetingTable s).cell row column = meetingCell s column := by
  have place := List.idxOf_lt_length_of_mem known
  rw [DelimitedTable.cell, List.eq_of_mem_replicate inside, List.getD_eq_getElem?_getD,
    List.getElem?_map]
  change (((meetingTable s).header[(meetingTable s).header.idxOf column]?).map (meetingCell s)).getD [] = _
  rw [List.getElem?_eq_getElem place, List.getElem_idxOf place]
  rfl

theorem meetingCell_predicate {p : TablePredicate ut} (mem : p ∈ s.predicates) :
    meetingCell s p.column = p.canonicalValue := by
  have found : s.predicates.find? (fun q => q.column == p.column) = some p := by
    have distinct := s.distinct
    generalize s.predicates = predicates at mem distinct
    induction predicates with
    | nil => cases mem
    | cons q rest ih =>
      rw [List.map_cons, List.nodup_cons] at distinct
      rcases List.mem_cons.mp mem with rfl | later
      · rw [List.find?_cons_of_pos (by simp)]
      · have other : q.column ≠ p.column := by
          intro same
          exact distinct.1 (same ▸ List.mem_map_of_mem later)
        rw [List.find?_cons_of_neg (by simpa using other)]
        exact ih later distinct.2
  rw [meetingCell, found]

/-- A selector selects every row of its own table. -/
theorem selected_meetingTable (numeric : ∀ p ∈ s.predicates, p.scalarType = .number) :
    selectedRowIndices (meetingTable s) s = .ok (List.range' 0 s.expectedCardinality) := by
  rw [selectedRowIndices_ok_iff]
  have known : ∀ p ∈ s.predicates, p.column ∈ (meetingTable s).header := by
    intro p mem
    exact (meetingTable_header s _).mpr (.inr ⟨p, mem, rfl⟩)
  refine ⟨(meetingTable_header s _).mpr (.inl rfl), known, ?_, by simp⟩
  apply matchingRows_replicate
  rw [rowMatches_true_iff]
  intro p mem
  have inside : (s.column :: s.predicates.map TablePredicate.column).dedup.map (meetingCell s) ∈
      (meetingTable s).rows :=
    List.mem_replicate.mpr ⟨by have := s.cardinality; omega, rfl⟩
  rw [meetingTable_cell s inside (known p mem), meetingCell_predicate mem]
  exact (tableCellMatches_canonical (numeric p mem) (numeric p mem)).mpr rfl

/-- A selector that selects the rows of the table of another has only predicates of the other. -/
theorem predicate_of_selected (numeric : ∀ p ∈ s.predicates, p.scalarType = .number)
    (numeric' : ∀ p ∈ t.predicates, p.scalarType = .number)
    (selected : selectedRowIndices (meetingTable s) t = .ok (List.range' 0 s.expectedCardinality))
    {q : TablePredicate ut} (mem : q ∈ t.predicates) :
    ∃ p ∈ s.predicates, p.column = q.column ∧ p.canonicalValue = q.canonicalValue := by
  obtain ⟨-, known, rows, -⟩ := (selectedRowIndices_ok_iff _ _).mp selected
  have first : 0 ∈ List.range' 0 s.expectedCardinality := by
    have := s.cardinality
    rw [List.mem_range'_1]
    omega
  obtain ⟨row, inside, matched⟩ := matchingRows_mem rows first
  have cell := (rowMatches_true_iff _ _).mp matched q mem
  rw [meetingTable_cell s inside (known q mem)] at cell
  cases found : s.predicates.find? (fun p => p.column == q.column) with
  | none =>
    -- an empty cell is no number
    rw [meetingCell, found, tableCellMatches_number (numeric' q mem)] at cell
    obtain ⟨d, empty, -⟩ := cell
    cases empty
  | some p =>
    have member := List.mem_of_find?_eq_some found
    have column : p.column = q.column := by simpa using List.find?_some found
    rw [meetingCell, found] at cell
    exact ⟨p, member, column,
      (tableCellMatches_canonical (numeric p member) (numeric' q mem)).mp cell⟩

/-- What the identity of a selector says about a predicate. -/
def TablePredicate.key (p : TablePredicate ut) : Str × Str := (p.column, p.canonicalValue)

theorem keys_eq (subset : ∀ p ∈ s.predicates, ∃ q ∈ t.predicates, q.key = p.key)
    (superset : ∀ q ∈ t.predicates, ∃ p ∈ s.predicates, p.key = q.key) :
    s.predicates.map TablePredicate.key = t.predicates.map TablePredicate.key := by
  have sorted : ∀ u : TableSelector ut,
      (u.predicates.map TablePredicate.key).Pairwise fun a b => strLe a.1 b.1 = true := by
    intro u
    rw [List.pairwise_map]
    exact u.ordered
  have nodup : ∀ u : TableSelector ut, (u.predicates.map TablePredicate.key).Nodup := by
    intro u
    have columns : ((u.predicates.map TablePredicate.key).map Prod.fst).Nodup := by
      rw [List.map_map]
      exact u.distinct
    exact List.Nodup.of_map _ columns
  -- both are sorted by the same columns, so equal sets are equal lists
  have perm : (s.predicates.map TablePredicate.key).Perm (t.predicates.map TablePredicate.key) := by
    rw [List.perm_ext_iff_of_nodup (nodup s) (nodup t)]
    intro key
    simp only [List.mem_map]
    constructor
    · rintro ⟨p, mem, rfl⟩
      exact subset p mem
    · rintro ⟨q, mem, rfl⟩
      exact superset q mem
  apply perm.eq_of_pairwise _ (sorted s) (sorted t)
  intro a b inS inT below above
  have column := strLe_antisymm below above
  obtain ⟨q, memQ, rfl⟩ := List.mem_map.mp inT
  obtain ⟨q', memQ', rfl⟩ := List.mem_map.mp (perm.subset inS)
  rw [List.inj_on_of_nodup_map t.distinct memQ' memQ column]

theorem selectorIdentity_eq_iff (numeric : ∀ p ∈ s.predicates, p.scalarType = .number)
    (numeric' : ∀ p ∈ t.predicates, p.scalarType = .number) (column : s.column = t.column)
    (cardinality : s.expectedCardinality = t.expectedCardinality) :
    selectorIdentity (.table s) = selectorIdentity (.table t) ↔
      s.predicates.map TablePredicate.key = t.predicates.map TablePredicate.key := by
  have entries : ∀ u : TableSelector ut, (∀ p ∈ u.predicates, p.scalarType = .number) →
      (u.predicates.map fun p => Json.array
        [.str p.column, .str p.scalarType.value, .str p.canonicalValue]) =
      (u.predicates.map TablePredicate.key).map fun key =>
        Json.array [.str key.1, .str "number", .str key.2] := by
    intro u numbers
    rw [List.map_map]
    apply List.map_congr_left
    intro p mem
    rw [numbers p mem]
    rfl
  have injective : Function.Injective fun key : Str × Str =>
      Json.array [.str key.1, .str "number", .str key.2] := by
    rintro ⟨a, b⟩ ⟨c, d⟩ same
    simpa using same
  simp only [selectorIdentity, entries s numeric, entries t numeric', column, cardinality]
  constructor
  · intro same
    apply List.map_injective_iff.mpr injective
    simpa using same
  · intro same
    rw [same]

/-- Predicates that match the same cells of one column. -/
def TablePredicate.Agrees (p q : TablePredicate ut) : Prop :=
  p.column = q.column ∧ ∀ cell, tableCellMatches cell p = tableCellMatches cell q

theorem agrees_of_keys {ps qs : List (TablePredicate ut)}
    (numeric : ∀ p ∈ ps, p.scalarType = .number) (numeric' : ∀ q ∈ qs, q.scalarType = .number)
    (keys : ps.map TablePredicate.key = qs.map TablePredicate.key) :
    List.Forall₂ TablePredicate.Agrees ps qs := by
  induction ps generalizing qs with
  | nil =>
    rw [List.map_nil, eq_comm, List.map_eq_nil_iff] at keys
    rw [keys]
    exact .nil
  | cons p ps ih =>
    cases qs with
    | nil => cases keys
    | cons q qs =>
      rw [List.map_cons, List.map_cons, List.cons.injEq] at keys
      rw [List.forall_mem_cons] at numeric numeric'
      obtain ⟨columns, values⟩ := Prod.mk.injEq .. ▸ keys.1
      apply List.Forall₂.cons
      · exact ⟨columns, tableCellMatches_congr numeric.1 numeric'.1 columns values⟩
      · exact ih numeric.2 numeric'.2 keys.2

theorem checkPredicateColumns_congr {ps qs : List (TablePredicate ut)}
    (agree : List.Forall₂ TablePredicate.Agrees ps qs) (header : List Str) :
    checkPredicateColumns header ps = checkPredicateColumns header qs := by
  induction agree with
  | nil => rfl
  | cons here _ ih => rw [checkPredicateColumns, checkPredicateColumns, here.1, ih]

theorem rowMatches_congr {ps qs : List (TablePredicate ut)}
    (agree : List.Forall₂ TablePredicate.Agrees ps qs) (cell : Str → Str) :
    rowMatches cell ps = rowMatches cell qs := by
  induction agree with
  | nil => rfl
  | cons here _ ih => rw [rowMatches, rowMatches, here.1, here.2, ih]

theorem matchingRows_congr {ps qs : List (TablePredicate ut)}
    (agree : List.Forall₂ TablePredicate.Agrees ps qs) (cell : List Str → Str → Str) (index : Nat)
    (rows : List (List Str)) : matchingRows cell ps index rows = matchingRows cell qs index rows := by
  induction rows generalizing index with
  | nil => rfl
  | cons row rest ih => rw [matchingRows, matchingRows, rowMatches_congr agree, ih]

theorem selectedRowIndices_congr (agree : List.Forall₂ TablePredicate.Agrees s.predicates t.predicates)
    (column : s.column = t.column) (cardinality : s.expectedCardinality = t.expectedCardinality)
    (table : DelimitedTable) : selectedRowIndices table s = selectedRowIndices table t := by
  rw [selectedRowIndices, selectedRowIndices, checkPredicateColumns_congr agree,
    matchingRows_congr agree, column, cardinality]

/-- Two selectors of numeric predicates have one identity exactly when they select the same rows of
every table; and a numeric predicate matches exactly the cells equal to its number if and only if 28
significant digits hold the number. -/
theorem numericSelection (numeric : ∀ p ∈ s.predicates, p.scalarType = .number)
    (numeric' : ∀ p ∈ t.predicates, p.scalarType = .number) (column : s.column = t.column)
    (cardinality : s.expectedCardinality = t.expectedCardinality) :
    (∀ p ∈ s.predicates,
      (∀ cell, tableCellMatches cell p = .ok true ↔
        ∃ d, tableNumber cell = some d ∧ d.toRat = p.decimal.toRat) ↔
        HasDigits DEFAULT_PRECISION p.decimal.toRat) ∧
      (selectorIdentity (.table s) = selectorIdentity (.table t) ↔
        ∀ table, selectedRowIndices table s = selectedRowIndices table t) := by
  refine ⟨fun p mem => tableCellMatches_exact_iff (numeric p mem), ?_⟩
  rw [selectorIdentity_eq_iff numeric numeric' column cardinality]
  -- equal keys select alike in every table
  constructor
  · intro keys
    exact selectedRowIndices_congr (agrees_of_keys numeric numeric' keys) column cardinality
  -- selecting alike in the tables made for either gives equal keys
  · intro same
    apply keys_eq
    · intro p mem
      have selected := selected_meetingTable numeric'
      rw [← same, ← cardinality] at selected
      obtain ⟨q, inside, columns, values⟩ :=
        predicate_of_selected numeric' numeric (cardinality ▸ selected) mem
      exact ⟨q, inside, Prod.ext columns values⟩
    · intro q mem
      have selected := selected_meetingTable numeric
      rw [same] at selected
      obtain ⟨p, inside, columns, values⟩ := predicate_of_selected numeric numeric' selected mem
      exact ⟨p, inside, Prod.ext columns values⟩

/-- The row of a number of epochs. -/
def epochPredicate (ut : UnicodeTables) (value : Value) (canonical : Str)
    (checked : canonicalTableNumber value = .ok canonical) : TablePredicate ut :=
  ⟨"epochs", .number, value, canonical, by decide, checked⟩

theorem provenance_checked : FieldProvenance.check "approved" none = .ok () := by decide +kernel

/-- The loss in the one row that meets a predicate. -/
def lossWhere (predicate : TablePredicate ut) : TableSelector ut where
  column := "loss"
  predicates := [predicate]
  expectedCardinality := 1
  provenance := ⟨.userApproved, "approved", none, none, provenance_checked⟩
  columnNamed := by decide
  bounded := ⟨le_rfl, by simp⟩
  ordered := List.pairwise_singleton _ _
  distinct := List.nodup_singleton _
  cardinality := by decide

theorem ten_canonical : canonicalTableNumber (.int 10) = .ok "1E+1" := by decide +kernel

theorem twenty_canonical : canonicalTableNumber (.int 20) = .ok "2E+1" := by decide +kernel

def asciiTables : UnicodeTables := ⟨id, fun _ => false⟩

def tenEpochs : TablePredicate asciiTables := epochPredicate asciiTables (.int 10) "1E+1" ten_canonical

def twentyEpochs : TablePredicate asciiTables :=
  epochPredicate asciiTables (.int 20) "2E+1" twenty_canonical

theorem numericSelection_epochs :
    (∀ cell, tableCellMatches cell tenEpochs = .ok true ↔
      ∃ d, tableNumber cell = some d ∧ d.toRat = tenEpochs.decimal.toRat) ∧
      ¬ ∀ table, selectedRowIndices table (lossWhere tenEpochs) =
        selectedRowIndices table (lossWhere twentyEpochs) := by
  have ten : ∀ p ∈ (lossWhere tenEpochs).predicates, p.scalarType = .number :=
    List.forall_mem_singleton.mpr rfl
  have twenty : ∀ p ∈ (lossWhere twentyEpochs).predicates, p.scalarType = .number :=
    List.forall_mem_singleton.mpr rfl
  have selects := numericSelection ten twenty rfl rfl
  constructor
  · exact (selects.1 tenEpochs List.mem_cons_self).mpr ⟨Decimal.ofInt 10, by decide, rfl⟩
  · rw [← selects.2, selectorIdentity_eq_iff ten twenty rfl rfl]
    decide +kernel

/-- `10 ^ 28 + 1` has 29 digits, and its canonical value is another number. -/
theorem long_canonical : canonicalTableNumber (.int (10 ^ 28 + 1)) = .ok "1E+28" := by
  decide +kernel

def longEpochs : TablePredicate asciiTables :=
  epochPredicate asciiTables (.int (10 ^ 28 + 1)) "1E+28" long_canonical

/-- A predicate on a number of 29 digits does not match the number's own spelling. -/
theorem numericSelection_long :
    ¬ ∀ cell, tableCellMatches cell longEpochs = .ok true ↔
      ∃ d, tableNumber cell = some d ∧ d.toRat = longEpochs.decimal.toRat := by
  intro equal
  have written : tableNumber "10000000000000000000000000001" = some longEpochs.decimal := by
    decide +kernel
  have matched := (equal _).mpr ⟨_, written, rfl⟩
  exact absurd matched (by decide +kernel)

end Selectors

end ClaimCI
