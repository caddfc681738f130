import ClaimCI.Analysis.BenchmarkProfiles
import ClaimCI.Analysis.StructuredExtraction
import ClaimCI.Analysis.TableRows
import ClaimCI.Python.Csv
import ClaimCI.Python.FloatText

/-!
# Tabular adapters

The adapters for captured CSV and TSV files: the table that a file holds, the mappings that are
inferred from its columns, and the observations that mapped columns or selected rows give.
-/

open Python

namespace ClaimCI

/-! ### Rows of a captured table -/

def MAX_COLUMNS : Nat := 256

/-- The lines of `io.StringIO(text, newline="")`, with their terminators. -/
def newlineLines : Str → List Str
  | [] => []
  | [c] => [[c]]
  | c :: d :: rest =>
    if c = CR ∧ d = LF then [c, d] :: newlineLines rest
    else if CsvRecord.isNewline c then [c] :: newlineLines (d :: rest)
    else (newlineLines (d :: rest)).modifyHead (c :: ·)

/-- The rows of these lines, and whether the reader fails behind them; the record is unfinished. -/
def csvRows (delimiter : CodePoint) (record : CsvRecord) : List Str → List (List Str) × Bool
  | [] => ([], record.unfinished)
  | line :: rest =>
    match record.feedLine delimiter MAX_LOGICAL_RECORD_BYTES line with
    | none => ([], true)
    | some record =>
      if record.state = .startRecord then
        let (rows, failed) := csvRows delimiter .start rest
        (record.fields :: rows, failed)
      else csvRows delimiter record rest

/-- `_logical_record_size`. -/
def logicalRecordSize (row : List Str) : Nat :=
  (row.map fun item => ((encodeUtf8 item).getD []).length).sum + (row.length - 1)

/-- CSV or TSV. -/
structure Dialect where
  label : Str
  adapterId : Str
  suffix : Str
  delimiter : CodePoint

/-- The two tabular formats. -/
inductive TabularFormat where
  | csv | tsv
  deriving DecidableEq, Repr

def TabularFormat.dialect : TabularFormat → Dialect
  | csv => ⟨"CSV", "claimci-csv-v1", ".csv", COMMA⟩
  | tsv => ⟨"TSV", "claimci-tsv-v1", ".tsv", TAB⟩

namespace Dialect

variable (dialect : Dialect)

/-- A failure with the label of the dialect. -/
def fail (text : Str) : Error := contractError (dialect.label ++ text)

/-- The checks of the header. -/
def checkHeader (header : List Str) : Except Error Unit := do
  rejectIf (MAX_LOGICAL_RECORD_BYTES < logicalRecordSize header)
    (dialect.fail " header exceeds the 1 MiB logical record limit")
  rejectIf (MAX_COLUMNS < header.length)
    (dialect.fail (lit " artifact exceeds the " ++ natText MAX_COLUMNS ++ lit "-columns limit"))
  rejectIf (header.isEmpty || header.any List.isEmpty)
    (dialect.fail " artifact contains an empty header")
  rejectIf (!decide header.Nodup) (dialect.fail " artifact contains a duplicate header")
  rejectIf (header.any fun item => !isColumnName item)
    (dialect.fail " artifact contains an unsupported header")

/-- The checks of the rows, some of which came before. -/
def checkRows (width count : Nat) : List (List Str) → Except Error Unit
  | [] => .ok ()
  | row :: rest => do
    rejectIf (MAX_RECORDS ≤ count)
      (dialect.fail (lit " artifact exceeds the " ++ natText MAX_RECORDS ++ lit "-records limit"))
    rejectIf (MAX_LOGICAL_RECORD_BYTES < logicalRecordSize row)
      (dialect.fail " logical record exceeds the 1 MiB limit")
    rejectIf (row.length != width)
      (dialect.fail " row field count does not match header columns")
    checkRows width (count + 1) rest

theorem checkHeader_ok_iff {header : List Str} : dialect.checkHeader header = .ok () ↔
    logicalRecordSize header ≤ MAX_LOGICAL_RECORD_BYTES ∧ header.length ≤ MAX_COLUMNS ∧
      (header ≠ [] ∧ [] ∉ header) ∧ header.Nodup ∧ ∀ item ∈ header, isColumnName item = true := by
  rw [checkHeader, rejectIf_then_iff, rejectIf_then_iff, rejectIf_then_iff, rejectIf_then_iff,
    rejectIf_ok_iff]
  have filled : (header.isEmpty || header.any List.isEmpty) = false ↔ header ≠ [] ∧ [] ∉ header := by
    rw [Bool.or_eq_false_iff, List.any_eq_false]
    constructor
    · rintro ⟨some, none⟩
      refine ⟨by simpa using some, fun member => ?_⟩
      exact none [] member rfl
    · rintro ⟨some, none⟩
      refine ⟨by simpa using some, fun item member => ?_⟩
      rw [List.isEmpty_iff]
      rintro rfl
      exact none member
  rw [filled]
  simp

theorem checkRows_ok_iff {width count : Nat} {rows : List (List Str)} :
    dialect.checkRows width count rows = .ok () ↔ (rows = [] ∨ count + rows.length ≤ MAX_RECORDS) ∧
      ∀ row ∈ rows, logicalRecordSize row ≤ MAX_LOGICAL_RECORD_BYTES ∧ row.length = width := by
  induction rows generalizing count with
  | nil => simp [checkRows]
  | cons row rest ih =>
    rw [checkRows, rejectIf_then_iff, rejectIf_then_iff, rejectIf_then_iff, ih]
    simp only [decide_eq_false_iff_not, not_le, not_lt, bne_eq_false_iff_eq, List.forall_mem_cons,
      List.length_cons, reduceCtorEq, false_or]
    constructor
    · rintro ⟨room, small, wide, count, others⟩
      refine ⟨?_, ⟨small, wide⟩, others⟩
      rcases count with rfl | more
      · rw [List.length_nil]
        omega
      · omega
    · rintro ⟨count, ⟨small, wide⟩, others⟩
      exact ⟨by omega, small, wide, .inr (by omega), others⟩

/-- The exception of a malformed table, with the text of the reader. -/
def malformed (errorText : Str → Str) (text : Str) : Error :=
  contractError (lit "malformed " ++ dialect.label ++ lit " artifact: " ++ errorText text)

/-- The header and the rows of a text, the rows being all that the reader gives. -/
def tableOf (errorText : Str → Str) (text : Str) (header : List Str) (rows : List (List Str))
    (failed : Bool) : Except Error DelimitedTable :=
  match named : dialect.checkHeader header with
  | .error error => .error error
  | .ok () =>
    match fit : dialect.checkRows header.length 0 rows with
    | .error error => .error error
    | .ok () => do
      rejectIf failed (dialect.malformed errorText text)
      rejectIf rows.isEmpty (dialect.fail " artifact must contain at least one data record")
      pure ⟨header, rows, (dialect.checkHeader_ok_iff.mp named).2.2.2.1,
        fun row member => ((dialect.checkRows_ok_iff.mp fit).2 row member).2⟩

/-- `_parse_delimited`. -/
def parse (errorText : Str → Str) (content : Bytes) : Except Error DelimitedTable :=
  match decodeUtf8 content with
  | none => .error (dialect.fail " artifact must contain valid UTF-8")
  | some text => do
    rejectIf (text.contains 0) (dialect.fail " artifact contains NUL")
    match csvRows dialect.delimiter .start (newlineLines text) with
    | ([], true) => .error (dialect.malformed errorText text)
    | ([], false) => .error (dialect.fail " artifact must contain a header")
    | (header :: rows, failed) => dialect.tableOf errorText text header rows failed

end Dialect

/-! ### Inferred columns -/

section Columns

variable (digit : CodePoint → Option Digit) (lower : Str → Str)

/-- `_finite_csv_number`. -/
def finiteCsvNumber (label value : Str) : Except Error Binary64 :=
  match floatOfText digit value with
  | none => .error (contractError (label ++ lit " must be a finite number"))
  | some number => .ok number

/-- `_numeric_column`. -/
def numericColumn (table : DelimitedTable) (column : Str) : Bool :=
  table.rows.all fun row => (floatOfText digit (table.cell row column)).isSome

/-- `_unique_named_header`. -/
def uniqueNamedHeader (header names : List Str) : Option Str :=
  match header.filter fun item => names.contains (lower item) with
  | [item] => some item
  | _ => none

/-- The numeric columns that name neither a run nor a seed. -/
def metricHeaders (table : DelimitedTable) : List Str :=
  table.header.filter fun item =>
    uniqueNamedHeader lower table.header RUN_NAMES != some item &&
      uniqueNamedHeader lower table.header SEED_NAMES != some item && numericColumn digit table item

/-- The only metric column. -/
def metricHeader (table : DelimitedTable) : Option Str :=
  match metricHeaders digit lower table with
  | [item] => some item
  | _ => none

/-- The targets with their columns. -/
def columnSelectors (table : DelimitedTable) : List (Str × Str) :=
  (metricHeader digit lower table).toList.map (lit "metric_value", ·) ++
    (uniqueNamedHeader lower table.header RUN_NAMES).toList.map (lit "run_id", ·) ++
    (uniqueNamedHeader lower table.header SEED_NAMES).toList.map (lit "seed", ·)

end Columns

/-! ### The probe -/

section Adapter

variable {ut : UnicodeTables} (rt : Runtime) (digit : CodePoint → Option Digit) (lower : Str → Str)
  (errorText : Str → Str) (dialect : Dialect) (artifact : PassiveArtifact)

/-- `_generated_mappings`. -/
def generatedMappings (table : DelimitedTable) : Except Error (List (FieldMapping ut)) :=
  (columnSelectors digit lower table).mapM fun selected =>
    adapterMapping artifact dialect.adapterId selected.1 .column selected.2

/-- What a probe of a table returns. -/
def tabularMatch (mappings : List (FieldMapping ut)) : Except Error (ProbeMatch ut) := do
  let unambiguous := mappings.any fun mapping => mapping.targetField == lit "metric_value"
  let evidence ← adapterProvenance artifact dialect.adapterId
    (lit "<" ++ dialect.label ++ lit " header>") (!unambiguous)
  let confidence ← confidence (if unambiguous then 95 else 45)
  if targets : (mappings.map FieldMapping.targetField).Nodup then
    pure ⟨⟨dialect.adapterId, mappings, targets⟩, artifact.path, confidence, [evidence]⟩
  else .error (contractError "adapter mappings must have unique target fields")

/-- `CsvAdapter.probe`. -/
def probeTable : Except Error (Option (ProbeMatch ut)) :=
  if supports lower artifact [.results, .benchmark, .document] dialect.suffix then do
    verifyIntegrity rt artifact
    let table ← dialect.parse errorText artifact.content
    let mappings ← generatedMappings digit lower dialect artifact table
    let found ← tabularMatch dialect artifact mappings
    pure (some found)
  else .ok none

/-! ### Extraction -/

def TABLE_TARGETS : List Str :=
  [lit "metric_value", lit "run_id", lit "seed"] ++ BENCHMARK_PROFILE_FIELDS

def Selector.isTable : Selector ut → Bool
  | .field _ => false
  | .table _ => true

/-- The mappings of profile fields. -/
def profileMappings (mappings : List (FieldMapping ut)) : List (FieldMapping ut) :=
  mappings.filter fun mapping => BENCHMARK_PROFILE_FIELDS.contains mapping.targetField

/-- The checks of the selectors of profile fields against that of the metric. -/
def checkProfileSelectors (metric : Selector ut) (mappings : List (FieldMapping ut)) :
    Except Error Unit :=
  match metric with
  | .field _ => rejectIf (!(profileMappings mappings).isEmpty)
      (contractError "profile cells require an exact metric table row selector")
  | .table s => do
    rejectIf ((profileMappings mappings).any fun mapping => !mapping.selector.isTable)
      (contractError "profile cells require exact table selectors")
    rejectIf ((profileMappings mappings).any fun mapping =>
        match mapping.selector with
        | .field _ => true
        | .table t => !predicatesEq t.predicates s.predicates ||
            t.expectedCardinality != s.expectedCardinality)
      (contractError "profile cells and metric must select the same exact row")

/-- Every column that is mapped without a row selector is in the header. -/
def checkColumns (table : DelimitedTable) (mappings : List (FieldMapping ut)) : Except Error Unit :=
  mappings.forM fun mapping =>
    match mapping.selector with
    | .table _ => .ok ()
    | .field s => rejectIf (!table.header.contains s.expression) (contractError
        (lit "mapped " ++ dialect.label ++ lit " column " ++ rt.repr s.expression ++
          lit " is not in the header"))

/-- The rows that the metric is read in. -/
def metricRows (table : DelimitedTable) : Selector ut → Except Error (List Nat)
  | .field _ => .ok (List.range table.rows.length)
  | .table s => selectedRowIndices table s

/-- The mapping of a table selector, with the provenance of its canonical identity. -/
def canonicalTableMapping (mapping : FieldMapping ut) : Except Error (FieldMapping ut) :=
  match mapping.selector with
  | .field _ => .ok mapping
  | .table s => do
    let material := asciiEncode ((selectorIdentity (.table s)).render identityStyle 0)
    let provenance ← adapterProvenance artifact dialect.adapterId
      (lit "table:" ++ (rt.sha256 material).take 16) false
    pure ⟨mapping.targetField, .table { s with provenance := provenance }, provenance⟩

theorem canonicalTableMapping_target {mapping canonical : FieldMapping ut}
    (made : canonicalTableMapping rt dialect artifact mapping = .ok canonical) :
    canonical.targetField = mapping.targetField := by
  unfold canonicalTableMapping at made
  split at made
  · rw [Except.ok.inj made]
  · obtain ⟨provenance, -, made⟩ := bind_ok_iff.mp made
    rw [← Except.ok.inj made]

theorem canonicalTableMappings_targets {mappings canonical : List (FieldMapping ut)}
    (made : mappings.mapM (canonicalTableMapping rt dialect artifact) = .ok canonical) :
    canonical.map FieldMapping.targetField = mappings.map FieldMapping.targetField := by
  induction mappings generalizing canonical with
  | nil =>
    rw [List.mapM_nil] at made
    rw [← Except.ok.inj made]
  | cons mapping rest ih =>
    rw [List.mapM_cons] at made
    obtain ⟨first, here, made⟩ := bind_ok_iff.mp made
    obtain ⟨others, there, made⟩ := bind_ok_iff.mp made
    rw [← Except.ok.inj made, List.map_cons, List.map_cons, ih there,
      canonicalTableMapping_target rt dialect artifact here]

/-- `_canonical_table_match`. -/
def canonicalTableMatch (found : ProbeMatch ut) : Except Error (ProbeMatch ut) :=
  if found.mappings.any fun mapping => mapping.selector.isTable then
    match made : found.mappings.mapM (canonicalTableMapping rt dialect artifact) with
    | .error error => .error error
    | .ok mappings => do
      let evidence ← adapterProvenance artifact found.adapterId "<validated table selection>" false
      pure ⟨⟨found.adapterId, mappings,
        canonicalTableMappings_targets rt dialect artifact made ▸ found.targets⟩, found.path,
        found.confidence, [evidence]⟩
  else .ok found

/-- A mapped identifier of one row, without blanks around it. -/
def rowIdentifier (table : DelimitedTable) (row : List Str) (mappings : List (FieldMapping ut))
    (target : Str) : Except Error (Option Str) :=
  match mappingFor target mappings with
  | none => .ok none
  | some mapping =>
    let text := strip (table.cell row mapping.selector.expression)
    if text = [] then .error (contractError (target ++ lit " column contains an empty value"))
    else .ok (some text)

/-- `_INTEGER.fullmatch` of a text: its sign and its digits. -/
def integerText (text : Str) : Option (Bool × List Digit) :=
  match scanWhole (scanMinus text).2 with
  | some (digits, []) => some ((scanMinus text).1, digits)
  | _ => none

/-- A seed: an integer where the text is one. The conversion has its own limit, and its exception is
not handled. -/
def rowSeed (text : Str) : Except Error Seed :=
  match integerText text with
  | none => .ok (.text text)
  | some (negative, digits) =>
    if INT_MAX_STR_DIGITS < digits.length then
      .error (.valueError (lit "Exceeds the limit (4300 digits) for integer string conversion: " ++
        lit "value has " ++ natText digits.length ++
        lit " digits; use sys.set_int_max_str_digits() to increase the limit"))
    else .ok (.int (if negative then -(digitsValue digits : Int) else digitsValue digits))

/-- One profile value of a row. -/
def rowConfigValue (table : DelimitedTable) (row : List Str) (provenance : FieldProvenance)
    (mapping : FieldMapping ut) : Except Error ExtractedConfigValue := do
  -- nothing has looked for this column before, and the exception is a `KeyError`
  rejectIf (!table.header.contains mapping.selector.expression)
    (.valueError (rt.repr mapping.selector.expression))
  let cell := table.cell row mapping.selector.expression
  rejectIf cell.isEmpty (contractError (lit "selected profile cell " ++
    rt.repr mapping.selector.expression ++ lit " is empty"))
  boundedId "config key" mapping.targetField 256
  pure ⟨mapping.targetField, .str cell, provenance⟩

/-- The profile values of one row. -/
def rowConfigValues (table : DelimitedTable) (row : List Str) (provenance : FieldProvenance)
    (mappings : List (FieldMapping ut)) : Except Error (List ExtractedConfigValue) :=
  (sortBy FieldMapping.targetField (profileMappings mappings)).mapM
    (rowConfigValue rt table row provenance)

/-- The observation of one row. -/
def rowObservation (table : DelimitedTable) (mappings : List (FieldMapping ut))
    (metric : FieldMapping ut) (index : Nat) : Except Error ExtractedObservation := do
  let row := table.rows.getD index []
  let run ← rowIdentifier table row mappings "run_id"
  let seedText ← rowIdentifier table row mappings "seed"
  let seed ← seedText.mapM rowSeed
  let provenance ← adapterProvenance artifact dialect.adapterId
    (lit "row[" ++ natText index ++ lit "]." ++ metric.selector.expression)
    (decide (lit "inferred=true" <:+: metric.provenance.detail))
  let configValues ← rowConfigValues rt table row provenance mappings
  let value ← finiteCsvNumber digit (dialect.label ++ lit " metric value")
    (table.cell row metric.selector.expression)
  (extractedObservation provenance (some (metric.selector.expression, value)) run seed
    configValues).mapError fun error =>
      contractError (lit "selected " ++ dialect.label ++ lit " identifier is invalid: " ++ error.text)

/-- `CsvAdapter.extract` behind the table and the validated mappings. -/
def extractRows (table : DelimitedTable) (found : ProbeMatch ut) (mappings : List (FieldMapping ut)) :
    Except Error (ExtractedEvidence ut) :=
  match mappingFor "metric_value" mappings with
  | none => .error (ambiguousEvidence dialect.label)
  | some metric => do
    checkColumns rt dialect table mappings
    rejectIf (mappings.any fun mapping => [lit "run_id", lit "seed"].contains mapping.targetField &&
        mapping.selector.isTable)
      (contractError "run_id and seed cannot use table selectors")
    checkProfileSelectors metric.selector mappings
    let rows ← metricRows table metric.selector
    let canonical ← canonicalTableMatch rt dialect artifact found
    match mappingFor "metric_value" canonical.mappings with
    -- the canonical match has the targets of the match
    | none => .error (.valueError "metric_value")
    | some metric => do
      let observations ← rows.mapM
        (rowObservation rt digit dialect artifact table canonical.mappings metric)
      pure ⟨structuredEvidenceId rt artifact dialect.adapterId "1" canonical.mappings, artifact,
        canonical, observations⟩

/-- `CsvAdapter.extract`. -/
def extractTable (found : ProbeMatch ut) : Except Error (ExtractedEvidence ut) := do
  verifyIntegrity rt artifact
  let table ← dialect.parse errorText artifact.content
  let mappings ← validateMatch rt artifact found dialect.adapterId .column TABLE_TARGETS
  extractRows rt digit dialect artifact table found mappings

end Adapter

end ClaimCI
