import ClaimCI.Python.Regex
import ClaimCI.Python.SplitLines
import ClaimCI.Review.Sources

/-!
# Evidence routing

Which files of a checkout are evidence for which claims, what a file can establish, and the tables
that Markdown files report.
-/

open Python

namespace ClaimCI.Review

inductive EvidenceKind where
  | manifest | results | config | dataset | benchmark | source | test | document
  deriving DecidableEq, Repr

inductive EvidenceProvenance where
  | supportingArtifact | reportedMeasurement | executableBenchmarkDefinition
  | executedResultArtifact
  deriving DecidableEq, Repr

def EvidenceProvenance.value : EvidenceProvenance → Str
  | supportingArtifact => "supporting_artifact"
  | reportedMeasurement => "reported_measurement"
  | executableBenchmarkDefinition => "executable_benchmark_definition"
  | executedResultArtifact => "executed_result_artifact"

/-- How much of the file an excerpt shows. -/
inductive EvidenceLocality where
  | completeFile | changedRegion | unlocalizedPrefix | selectedRegion
  deriving DecidableEq, Repr

def EvidenceLocality.value : EvidenceLocality → Str
  | completeFile => "complete_file"
  | changedRegion => "changed_region"
  | unlocalizedPrefix => "unlocalized_prefix"
  | selectedRegion => "selected_region"

/-- What routing looks up of characters, texts and numbers. -/
structure Lookup where
  tables : UnicodeTables
  chars : CharTables
  /-- `f"{value:g}"`. -/
  general : Binary64 → Str
  /-- `json.loads` of a value that is nested too deeply. -/
  recursion : RecursionLimit

variable (lookup : Lookup)

/-! ### Paths -/

/-- `path.replace("\\", "/")`. -/
def portable (path : Str) : Str := path.map fun c => if c = BACKSLASH then SLASH else c

/-- `_safe_relative`, and `_relative` of the manifest tools. -/
def safeRelative (raw : Str) : Option Str :=
  let path := portable raw
  if raw = [] ∨ raw.contains 0 then none
  else if path.head? = some SLASH ∨ hasDriveRoot path = true ∨
      (split SLASH path).contains [0x2E, 0x2E] then none
  else if posixParts path = [] then none
  else some ([SLASH].intercalate (posixParts path))

def SOURCE_SUFFIXES : List Str := [".py", ".js", ".ts", ".rs", ".go", ".java"]

/-- `is_source_file`. -/
def isSourceFile (path : Str) : Bool :=
  SOURCE_SUFFIXES.contains (lookup.tables.casefold (pathSuffix (portable path)))

/-- `is_test_source_file`. -/
def isTestSourceFile (path : Str) : Bool :=
  let folded := lookup.tables.casefold (portable path)
  isSourceFile lookup folded &&
    ((posixParts folded).any (fun part => part == lit "test" || part == lit "tests") ||
      (lit "test_").isPrefixOf (pathName folded))

/-- `_tokens`: the runs of alphanumeric characters. -/
def tokens (value : Str) : List Str :=
  ((lookup.tables.casefold value).splitBy fun a b =>
    lookup.chars.isAlphanumeric a == lookup.chars.isAlphanumeric b).filter fun run =>
      run.any lookup.chars.isAlphanumeric

/-- Two sets have a common element. -/
def meets (left right : List Str) : Bool := left.any right.contains

/-- `_kind`. -/
def kindOf (path : Str) : EvidenceKind :=
  let lowered := portable (lookup.tables.casefold path)
  let name := lookup.tables.casefold (pathName path)
  let words := tokens lookup lowered
  if [lit "research.yaml", lit "research.yml"].contains name then .manifest
  else if (lit "tests/").isPrefixOf lowered || (lit "test_").isPrefixOf name ||
      isTestSourceFile lookup path then .test
  else if isSourceFile lookup path then .source
  else if meets words ["result", "results", "metric", "metrics", "score", "scores"] then .results
  else if meets words ["config", "configs", "configuration", "configurations"] ||
      [lit ".yaml", lit ".yml", lit ".toml"].any (·.isSuffixOf name) then .config
  else if meets words ["benchmark", "benchmarks", "latency", "memory", "cost", "costs"] then
    .benchmark
  else if meets words ["data", "dataset", "datasets"] || (posixParts lowered).contains "data" ||
      (lit ".jsonl").isSuffixOf name then .dataset
  else .document

/-- `_is_markdown`. -/
def isMarkdown (path : Str) : Bool :=
  [lit ".md", lit ".markdown"].contains (lookup.tables.casefold (pathSuffix path))

/-! ### Executed results -/

def MARKER_KEYS : List Str :=
  ["duration_ms", "elapsed_ms", "executed", "executed_at", "finished_at", "run_id", "started_at"]

def PAYLOAD_KEYS : List Str :=
  ["measurements", "observations", "queries", "records", "runs", "samples"]

/-- A member marks an execution by itself. -/
def marks (key : Str) (item : Json) : Bool :=
  let normalized := lookup.tables.casefold (strip key)
  match item with
  | .bool true => MARKER_KEYS.contains normalized
  | .str text =>
    (normalized == lit "executed" && lookup.tables.casefold text == lit "true") ||
      (normalized == lit "status" &&
        [lit "complete", lit "completed", lit "success", lit "succeeded"].contains
          (lookup.tables.casefold text)) ||
      (normalized != lit "executed" && MARKER_KEYS.contains normalized && text != [])
  | .null | .bool false => false
  | _ => normalized != lit "executed" && MARKER_KEYS.contains normalized

mutual

/-- `marked`. -/
def marked : Json → Bool
  | .object members => membersMarked members
  | .array items => itemsMarked items
  | _ => false

def itemsMarked : List Json → Bool
  | [] => false
  | item :: items => marked item || itemsMarked items

def membersMarked : Members → Bool
  | [] => false
  | (key, item) :: members => marks lookup key item || marked item || membersMarked members

end

/-- A non-empty list of objects. -/
def isRecords : Json → Bool
  | .array items => !items.isEmpty && items.all fun item => match item with
    | .object _ => true
    | _ => false
  | _ => false

mutual

/-- `has_raw_payload`. -/
def hasRawPayload : Json → Bool
  | .object members => membersHavePayload members
  | .array items => itemsHavePayload items
  | _ => false

def itemsHavePayload : List Json → Bool
  | [] => false
  | item :: items => hasRawPayload item || itemsHavePayload items

def membersHavePayload : Members → Bool
  | [] => false
  | (key, item) :: members =>
    (PAYLOAD_KEYS.contains (lookup.tables.casefold (strip key)) && isRecords item) ||
      hasRawPayload item || membersHavePayload members

end

def SHAPE_METADATA : List Str := MARKER_KEYS ++ [lit "status", lit "summary", lit "expected"]

/-- `text.splitlines()`. -/
def plainLines (text : Str) : List Str :=
  (splitLines text).map fun line =>
    if [CR, LF].isSuffixOf line then line.take (line.length - 2)
    else if line.getLast?.any isLineBoundary then line.dropLast
    else line

/-- The lines of a text that are not blank. -/
def filledLines (text : Str) : List Str := (plainLines text).filter fun line => strip line != []

/-- `json.loads(text)`; `none` is any of its errors. -/
def decoded (text : Str) : Option Json :=
  (loads ⟨false, false⟩ text).filter lookup.recursion.fits

/-- `_has_executed_result_shape`. -/
def hasExecutedResultShape (path excerpt : Str) : Bool :=
  let suffix := lookup.tables.casefold (pathSuffix path)
  if suffix = lit ".json" then
    match decoded lookup excerpt with
    | none => false
    | some value => marked lookup value && hasRawPayload lookup value
  -- every filled line is a value, and one bad line refuses the whole excerpt
  else if suffix = lit ".jsonl" then
    match (filledLines excerpt).mapM (decoded lookup) with
    | none => false
    | some values =>
      marked lookup (.array values) && values.any fun value =>
        match value with
        | .object members => members.any fun member =>
            !SHAPE_METADATA.contains (lookup.tables.casefold member.1)
        | _ => false
  else if suffix = lit ".csv" ∨ suffix = lit ".tsv" then
    match filledLines excerpt with
    -- the reader is a plain split: quoted cells are not recognised
    | header :: line :: lines =>
      let delimiter := if suffix = lit ".csv" then COMMA else 0x09
      let headers := (split delimiter header).map fun cell => lookup.tables.casefold (strip cell)
      let rows := (line :: lines).map fun row =>
        dictOf (headers.zip ((split delimiter row).map Json.str))
      rows.any (fun row => marked lookup (.object row)) &&
        headers.any fun name => !SHAPE_METADATA.contains name
    | _ => false
  else false

/-- `(?im)^\s*(?:alter|create|delete|insert|select|update|with)\b`. -/
def STATEMENT : Regex :=
  .sequence [.lineStart, .spaces,
    .choice [.caseless "alter", .caseless "create", .caseless "delete", .caseless "insert",
      .caseless "select", .caseless "update", .caseless "with"], .boundary]

/-- `_provenance`. -/
def provenanceOf (path : Str) (kind : EvidenceKind) (excerpt : Str) : EvidenceProvenance :=
  let lowered := portable (lookup.tables.casefold path)
  let suffix := pathSuffix lowered
  let words := tokens lookup lowered
  if suffix = lit ".sql" ∧ (STATEMENT.search lookup.chars excerpt).isSome ∧
      meets (tokens lookup excerpt ++ words)
        ["benchmark", "benchmarks", "cost", "fold", "gold", "latency", "memory", "metric",
          "metrics", "profile", "rollup"] then .executableBenchmarkDefinition
  else if [lit ".csv", lit ".json", lit ".jsonl", lit ".tsv"].contains suffix ∧
      (kind = .results ∨ kind = .benchmark) ∧
      meets words ["result", "results", "metric", "metrics", "score", "scores"] ∧
      hasExecutedResultShape lookup path excerpt then .executedResultArtifact
  else .supportingArtifact

/-! ### Markdown tables -/

structure MarkdownTable where
  startLine : Nat
  endLine : Nat
  excerpt : Str
  header : List Str
  rows : List (List Str)

def PIPE : CodePoint := 0x7C

/-- `_markdown_cells`. -/
def markdownCells (line : Str) : Option (List Str) :=
  let stripped := strip line
  if stripped.contains PIPE = false then none
  else
    let opened := if stripped.head? = some PIPE then stripped.tail else stripped
    let closed := if opened.getLast? = some PIPE then opened.dropLast else opened
    let cells := (split PIPE closed).map strip
    if cells.contains [] then none else some cells

/-- The fence that a line opens: three or more backticks or tildes. -/
def opensFence (stripped : Str) : Option (CodePoint × Nat) :=
  match stripped.head? with
  | none => none
  | some mark =>
    let width := (stripped.takeWhile (· == mark)).length
    if (mark = 0x60 ∨ mark = 0x7E) ∧ 3 ≤ width then some (mark, width) else none

/-- The line closes a fence: as many marks or more, then blanks. -/
def closesFence (fence : CodePoint × Nat) (stripped : Str) : Bool :=
  let marks := stripped.takeWhile (· == fence.1)
  let rest := (stripped.drop marks.length).dropWhile fun c => c == 0x20 || c == 0x09
  fence.2 ≤ marks.length && (rest == [] || rest == [LF] || rest == [CR, LF])

/-- Each line, and whether a table may use it: it is outside fences and is not indented code. -/
def eligibleLines : Option (CodePoint × Nat) → List Str → List (Str × Bool)
  | _, [] => []
  | some fence, line :: lines =>
    let closed := closesFence fence (line.dropWhile isSpace)
    (line, false) :: eligibleLines (if closed then none else some fence) lines
  | none, line :: lines =>
    match opensFence (line.dropWhile isSpace) with
    | some fence => (line, false) :: eligibleLines (some fence) lines
    | none =>
      let indented := (lit "    ").isPrefixOf line || line.head? == some 0x09
      (line, !indented) :: eligibleLines none lines

/-- The cells of a line that a table may use. -/
def usableCells (line : Str × Bool) : Option (List Str) :=
  if line.2 then markdownCells line.1 else none

/-- `:?-{3,}:?`. -/
def isSeparatorCell (cell : Str) : Bool :=
  let opened := if cell.head? = some COLON then cell.tail else cell
  let closed := if opened.getLast? = some COLON then opened.dropLast else opened
  3 ≤ closed.length && closed.all (· == MINUS)

/-- A header and a separator row of the same width. -/
def tableHeader (first second : Str × Bool) : Option (List Str) :=
  match usableCells first, usableCells second with
  | some header, some separator =>
    if header.length = separator.length ∧ separator.all isSeparatorCell then some header else none
  | _, _ => none

/-- The lines that continue a table of this width. -/
def tableRows (width : Nat) (lines : List (Str × Bool)) : List (Str × Bool) :=
  lines.takeWhile fun line => (usableCells line).any (·.length == width)

/-- The tables among the lines from an index on. -/
def tablesFrom : Nat → Nat → List (Str × Bool) → List MarkdownTable
  | 0, _, _ => []
  | fuel + 1, index, first :: second :: lines =>
    match tableHeader first second with
    | none => tablesFrom fuel (index + 1) (second :: lines)
    | some header =>
      let body := tableRows header.length lines
      if body = [] then tablesFrom fuel (index + 1) (second :: lines)
      else
        ⟨index + 1, index + 2 + body.length, ((first :: second :: body).map Prod.fst).flatten,
          header, body.filterMap usableCells⟩ ::
          tablesFrom fuel (index + 2 + body.length) (lines.drop body.length)
  | _ + 1, _, _ => []

/-- `_markdown_tables`. -/
def markdownTables (text : Str) : List MarkdownTable :=
  let lines := splitLines text
  tablesFrom lines.length 0 (eligibleLines none lines)

/-! ### Claims and tables -/

def LITERAL_STOPWORDS : List Str :=
  ["a", "an", "and", "by", "candidate", "experiment", "for", "from", "in", "method", "model", "of",
    "on", "or", "study", "that", "the", "these", "this", "those", "to", "under", "with"]

def TABLE_GENERIC_TOKENS : List Str := ["benchmark", "measurement", "metric", "result", "value"]

/-- A token that says something: it is long, or it has a digit. -/
def isTelling (token : Str) : Bool := 3 ≤ token.length || token.any lookup.chars.isDigit

/-- `_semantic_tokens` of a text that is there, without the generic tokens of tables. -/
def tableTokens (value : Str) : List Str :=
  let telling := (tokens lookup value).filter fun token =>
    !LITERAL_STOPWORDS.contains token && isTelling lookup token
  let singular := telling.map fun token =>
    if 3 < token.length ∧ token.getLast? = some 0x73 then token.dropLast else token
  singular.filter fun token => !TABLE_GENERIC_TOKENS.contains token

/-- `[-+]?\d+(?:\.\d+)?(?:\s*(?:x|%|×))?`. -/
def magnitudePattern : Regex :=
  let digits := Regex.plus (.char lookup.chars.isDecimal)
  .sequence [.optional (.char fun c => c == MINUS || c == PLUS), digits,
    .optional (.seq (.exactly ".") digits),
    .optional (.seq .spaces (.char fun c => c == 0x78 || c == 0x25 || c == 0xD7))]

/-- `text.replace(" ", "")`, in the other case. -/
def cellKey (text : Str) : Str := lookup.tables.casefold (text.filter (· != SPACE))

/-- `value.is_integer()`. -/
def isInteger (x : Binary64) : Bool :=
  0 ≤ x.exponent || x.mantissa % 2 ^ x.exponent.natAbs == 0

/-- `int(value)`. -/
def truncated (x : Binary64) : Int :=
  let magnitude : Int := if 0 ≤ x.exponent then x.mantissa * 2 ^ x.exponent.natAbs
    else x.mantissa / 2 ^ x.exponent.natAbs
  if x.negative then -magnitude else magnitude

/-- `str(number)`. -/
def Number.text : Number → Str
  | int n => renderInt n
  | float x => x.spelling.render

/-- The spellings of a magnitude's value. -/
def numberSpellings (number : Number) : List Str :=
  match number.toFloat with
  | none => []
  | some x =>
    [number.text, lookup.general x] ++ if isInteger x then [renderInt (truncated x)] else []

/-- `_magnitude_cells`. -/
def magnitudeCells (claim : ScientificClaim) : List Str :=
  match claim.claimedMagnitude with
  | none => []
  | some magnitude =>
    let quoted := ((magnitudePattern lookup).findAll lookup.chars magnitude.raw.val).map fun found =>
      cellKey lookup found.text
    let unit := match magnitude.unit with
      | none => []
      | some unit => lookup.tables.casefold (strip unit.val)
    let spelled := match magnitude.value with
      | none => []
      | some number => (numberSpellings lookup number.val).flatMap fun spelling =>
          [spelling, spelling ++ unit]
    (quoted ++ spelled).filter (· != [])

/-- `_table_supports_claim`, of one row. -/
def rowSupports (claim : ScientificClaim) (path : Str) (cells metricTokens subjectTokens : List Str)
    (table : MarkdownTable) (offset : Nat) (row : List Str) : Bool :=
  let places := (List.range row.length).filter fun index =>
    (row[index]?).any fun cell => cells.contains (cellKey lookup cell)
  let line := table.startLine + offset
  let rowTokens := tableTokens lookup ([SPACE].intercalate row)
  let headerTokens := tableTokens lookup ([SPACE].intercalate
    (places.filterMap fun index => table.header[index]?))
  places != [] &&
    ((claim.source.path.val == some path && claim.source.startLine ≤ line &&
        line ≤ claim.source.endLine) ||
      meets rowTokens (metricTokens ++ subjectTokens) ||
      2 ≤ (headerTokens.dedup.filter metricTokens.contains).length ||
      (meets headerTokens metricTokens && meets rowTokens subjectTokens) ||
      (meets headerTokens subjectTokens && meets rowTokens metricTokens))

/-- `_table_supports_claim`. -/
def tableSupportsClaim (table : MarkdownTable) (claim : ScientificClaim) (path : Str) : Bool :=
  let cells := magnitudeCells lookup claim
  let metricTokens := match claim.metric with
    | none => []
    | some metric => tableTokens lookup metric.val
  let subjectTokens := tableTokens lookup claim.subject.val
  cells != [] && (table.rows.zipIdx 2).any fun row =>
    rowSupports lookup claim path cells metricTokens subjectTokens table row.2 row.1

/-! ### Routes -/

/-- `_ROUTES`. -/
def ClaimType.routes : ClaimType → List Str
  | metricImprovement =>
    ["research.yaml", "research.yml", "result", "metric", "score", "config"]
  | computeEquivalence =>
    ["research.yaml", "research.yml", "config", "metadata", "run", "train", "step", "compute"]
  | heldOutEvaluation =>
    ["research.yaml", "research.yml", "eval", "held", "test", "dataset", "data/"]
  | resourceReduction =>
    ["benchmark", "latency", "memory", "cost", "resource", "profile", "config"]
  | componentCausality => ["ablation", "component", "result", "experiment", "research.yaml"]
  | noExternalReward => ["reward", "config", "objective", "trainer", "loss"]
  | implementationClaim => ["src/", "lib/", "claimci/", "tests/", "test_"]
  | otherScientific => ["research.yaml", "research.yml", "readme", "paper", "note"]

/-- `_CHANGED_SOURCE_CLAIMS`. -/
def ClaimType.needsChangedSource (type : ClaimType) : Bool :=
  [resourceReduction, componentCausality, noExternalReward, implementationClaim].contains type

/-- The forms of a route term. -/
def routeForms (term : Str) : List Str :=
  let aliases : List (Str × List Str) :=
    [("config", ["configuration", "configurations", "configs"]),
      ("eval", ["evaluation", "evaluations", "evals"]), ("train", ["training", "trains"])]
  [term, term ++ lit "s", term ++ lit "es", term ++ lit "ing"] ++ (lookupKey term aliases).getD []

/-- `route_term_matches`. -/
def routeTermMatches (name : Str) (segments words : List Str) (term : Str) : Bool :=
  if term.getLast? = some SLASH then segments.contains term.dropLast
  else if term.head? = some DOT then term.isSuffixOf name
  else if term.getLast? = some UNDERSCORE then term.isPrefixOf name
  else if term.contains DOT then name == term
  else meets words (routeForms term)

/-- `_matches`. -/
def matchesClaim (claim : ScientificClaim) (path : Str) (changed : List Str) : Bool :=
  let lowered := portable (lookup.tables.casefold path)
  let words := tokens lookup lowered
  let kind := kindOf lookup path
  let isCode := kind == .source || kind == .test
  let sourceTokens := tokens lookup claim.sourceText.val
  let literals := (claim.metric.map Subtype.val).toList ++ claim.subject.val ::
    claim.qualifiers.map Subtype.val
  if claim.claimType.needsChangedSource && isCode && !changed.contains path then false
  else if claim.claimType == .implementationClaim && isCode then true
  else if claim.claimType.routes.any fun term =>
      routeTermMatches (pathName lowered) (posixParts lowered) words term then true
  else literals.any fun term =>
    meets words ((tokens lookup term).filter fun token =>
      isTelling lookup token && sourceTokens.contains token && !LITERAL_STOPWORDS.contains token)

end ClaimCI.Review
