import ClaimCI.Analysis.StreamingDataset
import ClaimCI.ConfigCheck
import ClaimCI.Python.Sorting

/-!
# Measurement

Bounded identities of the measurement protocol of an experiment, recovered from the inputs of the
native audit, and the report on their drift.
-/

open Python

namespace ClaimCI

inductive MeasurementComponentKind where
  | evaluatorImplementation | metric | evaluationDataset | evaluationConfig | promptTemplate
  | decodingParameters | testSelection | retryAggregation | normalizationPostprocessing
  | benchmarkVersion
  deriving DecidableEq, Repr

def MeasurementComponentKind.value : MeasurementComponentKind → Str
  | evaluatorImplementation => "evaluator_implementation"
  | metric => "metric"
  | evaluationDataset => "evaluation_dataset"
  | evaluationConfig => "evaluation_config"
  | promptTemplate => "prompt_template"
  | decodingParameters => "decoding_parameters"
  | testSelection => "test_selection"
  | retryAggregation => "retry_aggregation"
  | normalizationPostprocessing => "normalization_postprocessing"
  | benchmarkVersion => "benchmark_version"

inductive MeasurementCoverage where
  | recovered | byteOnly | missing | notApplicable
  deriving DecidableEq, Repr

def MeasurementCoverage.value : MeasurementCoverage → Str
  | recovered => "recovered"
  | byteOnly => "byte_only"
  | missing => "missing"
  | notApplicable => "not_applicable"

inductive MeasurementDriftState where
  | verified | warning | insufficient | invalidates | notAssessed
  deriving DecidableEq, Repr

/-- `MeasurementContractError`, which is a `ValueError`. -/
def measurementError (message : Str) : Error := .valueError message

/-! ### Canonical text -/

/-- `_bounded_text` accepts the text. -/
def Measurement.boundedText (maximum : Nat) (canonical : Bool) (s : Str) : Bool :=
  s ≠ [] && s.length ≤ maximum && s.all (fun c => 32 ≤ c.val && c.val ≠ 127) &&
    (!canonical || strip s = s)

def isAsciiAlphanumeric (c : CodePoint) : Bool :=
  (0x30 ≤ c.val && c.val ≤ 0x39) || (0x41 ≤ c.val && c.val ≤ 0x5A) ||
    (0x61 ≤ c.val && c.val ≤ 0x7A)

/-- The characters `_CANONICAL_ID` allows behind the first. -/
def isIdCharacter (c : CodePoint) : Bool :=
  isAsciiAlphanumeric c || (lit "._:/+-").contains c

/-- `_canonical_id` accepts the text. -/
def Measurement.canonicalId (s : Str) : Bool :=
  boundedText 256 true s && (s.head?.any isAsciiAlphanumeric && s.tail.all isIdCharacter)

/-- `_SHA256.fullmatch`. -/
def isSha256 (s : Str) : Bool :=
  s.length == 64 && s.all fun c => (0x30 ≤ c.val && c.val ≤ 0x39) || (0x61 ≤ c.val && c.val ≤ 0x66)

theorem isSha256_hexdigest (digest : Nat) : isSha256 (hexdigest digest) = true := by
  have char : ∀ d : Fin 16, ((0x30 ≤ (hexChar d.val).val && (hexChar d.val).val ≤ 0x39) ||
      (0x61 ≤ (hexChar d.val).val && (hexChar d.val).val ≤ 0x66)) = true := by decide
  rw [isSha256, hexdigest, List.length_map, List.length_range, beq_self_eq_true, Bool.true_and,
    List.all_map, List.all_eq_true]
  intro place _
  exact char ⟨_, Nat.mod_lt _ (by decide)⟩

/-- `_canonical_bytes`, before the text, which is ASCII, is encoded; `none` is a `ValueError`. -/
def canonicalText (value : Json) : Option Str := dumps identityStyle value

/-- `_digest`. -/
def measurementDigest (rt : Runtime) (kind : Str) (value : Json) : Option Str :=
  (canonicalText value).map fun text => kind ++ lit "-" ++ rt.sha256 (asciiEncode text)

/-! ### Semantic fields -/

/-- A finite JSON scalar. -/
inductive Scalar where
  | str (s : Str)
  | bool (b : Bool)
  | int (n : Int)
  | float (x : Binary64)
  deriving DecidableEq

def Scalar.toJson : Scalar → Json
  | str s => .str s
  | bool b => .bool b
  | int n => .int n
  | float x => .float x

/-- The checks `_json_scalar` makes of a value of one of its types. -/
def Scalar.bounded : Scalar → Bool
  | str s => Measurement.boundedText 4096 false s
  | int n => (Json.int n).dumpable
  | _ => true

def Scalar.ofValue : Value → Option Scalar
  | .str s => some (.str s)
  | .bool b => some (.bool b)
  | .int n => some (.int n)
  | .float x => some (.float x)
  | _ => none

/-- `_json_scalar`; `none` is an error. -/
def jsonScalar (value : Value) : Option Scalar := (Scalar.ofValue value).filter Scalar.bounded

abbrev Scalars := List (Str × Scalar)

/-- What `str` raises for an integer with too many digits. -/
def intTextError : Error :=
  .valueError (lit "Exceeds the limit (" ++ natText INT_MAX_STR_DIGITS ++
    lit " digits) for integer string conversion; " ++
    lit "use sys.set_int_max_str_digits() to increase the limit")

/-- `str(key)`. Keys are hashable, and no loader builds tuples. -/
def keyText : Value → Except Error Str
  | .none => .ok "None"
  | .bool b => .ok (if b then lit "True" else lit "False")
  | .int n =>
    match intText n with
    | some text => .ok text
    | none => .error intTextError
  | .float x => .ok x.spelling.render
  | .infinity negative => .ok (if negative then lit "-inf" else lit "inf")
  | .nan _ => .ok "nan"
  | .str s => .ok s
  | .other _ text => .ok text
  | _ => .error (.typeError "unhashable type")

/-- One item of the stack: a dotted key, the value there and its depth. -/
abbrev FlattenItem := Str × Value × Nat

/-- The items a nested mapping adds; every key must be a string that is not empty. -/
def childItems (key : Str) (depth : Nat) : List (Value × Value) → Option (List FlattenItem)
  | [] => some []
  | (.str childKey, child) :: rest =>
    if childKey = [] then none
    else (childItems key depth rest).map ((key ++ DOT :: childKey, child, depth + 1) :: ·)
  | _ => none

def FLATTEN_NODES : Nat := 256
def FLATTEN_DEPTH : Nat := 8

/-- The loop of `_flatten_evaluation`. The stack's top is its head; the first argument is how many
nodes are left. -/
def flattenItems : Nat → List FlattenItem → Scalars → Option Scalars
  | _, [], flattened => some flattened
  -- the nodes are used up while the stack is not empty
  | 0, _ :: _, _ => none
  | nodes + 1, (key, value, depth) :: stack, flattened =>
    if FLATTEN_DEPTH < depth then none
    else if key = [] ∨ 256 < key.length then none
    else
      match value with
      | .dict entries =>
        match childItems key depth entries with
        | none => none
        | some items => flattenItems nodes (items.reverse ++ stack) flattened
      | value =>
        match jsonScalar value with
        | none => none
        -- a key that two paths share keeps the later leaf
        | some scalar => flattenItems nodes stack (setKey key scalar flattened)

/-- The first stack. -/
def evaluationItems : List (Value × Value) → Except Error (List FlattenItem)
  | [] => .ok []
  | (key, value) :: rest => do
    let text ← keyText key
    let items ← evaluationItems rest
    .ok ((text, value, 1) :: items)

/-- `_flatten_evaluation`. -/
def flattenEvaluation (config : Option Config) : Except Error (Option Scalars) :=
  match config.bind (Value.get (lit "evaluation")) with
  | some (.dict evaluation) => do
    let items ← evaluationItems evaluation
    .ok ((flattenItems FLATTEN_NODES items.reverse []).map (sortBy Prod.fst))
  | _ => .ok none

/-! ### Components -/

/-- `_fields`. -/
def semanticFields (values : Scalars) : Option Scalars :=
  if 32 < values.length then none
  else if values.all fun field => Measurement.canonicalId field.1 && field.2.bounded then
    some (sortBy Prod.fst values)
  else none

/-- `_COMPONENT_SCHEMA_IDS`. -/
def MeasurementComponentKind.schemaId : MeasurementComponentKind → Str
  | evaluatorImplementation => "claimci.measurement.evaluator.v1"
  | metric => "claimci.measurement.metric.v1"
  | evaluationDataset => "claimci.measurement.evaluation-dataset.v1"
  | evaluationConfig => "claimci.measurement.evaluation-config.v1"
  | promptTemplate => "claimci.measurement.prompt-template.v1"
  | decodingParameters => "claimci.measurement.decoding.v1"
  | testSelection => "claimci.measurement.test-selection.v1"
  | retryAggregation => "claimci.measurement.retry-aggregation.v1"
  | normalizationPostprocessing => "claimci.measurement.normalization.v1"
  | benchmarkVersion => "claimci.measurement.benchmark.v1"

/-- `MeasurementProtocolComponent`. -/
structure MeasurementProtocolComponent where
  kind : MeasurementComponentKind
  coverage : MeasurementCoverage
  fields : Scalars
  sourceBindingIds : List Str
  deriving DecidableEq

/-- What the identity of a component commits to. -/
def MeasurementProtocolComponent.material (component : MeasurementProtocolComponent) : Json :=
  .object [("kind", .str component.kind.value), ("scope", .str "measurement_procedure"),
    ("coverage", .str component.coverage.value), ("schema_id", .str component.kind.schemaId),
    ("semantic_fields", .array (component.fields.map fun field =>
      .object [("key", .str field.1), ("value", field.2.toJson)]))]

/-- `semantic_component_id`; every integer among the fields has a text. -/
def MeasurementProtocolComponent.identity (rt : Runtime)
    (component : MeasurementProtocolComponent) : Str :=
  (measurementDigest rt (lit "measurement-component") component.material).getD []

/-- `_component_from_values`. -/
def componentFromValues (kind : MeasurementComponentKind) (values : Option Scalars)
    (sourceBindingIds : List Str) (required : Bool) : MeasurementProtocolComponent :=
  match values.bind semanticFields with
  | some (field :: fields) => ⟨kind, .recovered, field :: fields, sourceBindingIds⟩
  | _ => if required then ⟨kind, .missing, [], sourceBindingIds⟩ else ⟨kind, .notApplicable, [], []⟩

/-- What `_dataset_values` commits to: the distinct hashes in ascending order, with their counts. -/
def multisetMaterial (hashes : List Str) : Json :=
  .array ((sortedHashes hashes).map fun digest =>
    .object [("sha256", .str digest), ("count", .int (hashes.count digest))])

/-- The record count and the commitment that `_dataset_values` derives from loaded hashes. -/
def loadedIdentity (rt : Runtime) (hashes : List Str) : Option MultisetIdentity :=
  (canonicalText (multisetMaterial hashes)).map fun text =>
    ⟨hashes.length, rt.sha256 (asciiEncode text)⟩

/-- A declared identity field that `_dataset_values` takes: text that is not blank, or a number. -/
def declaredScalar (evaluation : Scalars) (key : Str) : Option Scalar :=
  match lookupKey key evaluation with
  | some (.str s) => if isBlank s then none else some (.str s)
  | some (.int n) => some (.int n)
  | some (.float x) => some (.float x)
  | _ => none

/-- What the audit knows about an evaluation dataset. -/
inductive EvaluationRecords where
  | absent
  | loaded (hashes : List Str)
  | scanned (identity : MultisetIdentity)

/-- The identity an evaluation dataset is committed to with; `none` is `None`. -/
def EvaluationRecords.identity (rt : Runtime) :
    EvaluationRecords → Except Error (Option MultisetIdentity)
  | absent => .ok none
  | scanned identity => .ok (some identity)
  | loaded hashes =>
    if hashes = [] ∨ hashes.all isSha256 = false then .ok none
    else
      match loadedIdentity rt hashes with
      | none => .error intTextError
      | some identity => .ok (some identity)

/-- The three identity fields an evaluation must declare: identifier, version and split. -/
def declaredFields (evaluation : Scalars) : Option (Scalar × Scalar × Scalar) := do
  let identifier ← declaredScalar evaluation (lit "dataset_identifier")
  let version ← declaredScalar evaluation (lit "dataset_version")
  let split ← declaredScalar evaluation (lit "split")
  some (identifier, version, split)

def datasetFields (declared : Scalar × Scalar × Scalar) (identity : MultisetIdentity) : Scalars :=
  [(lit "declared_identifier", declared.1), (lit "declared_version", declared.2.1),
    (lit "declared_split", declared.2.2), (lit "record_count", .int identity.recordCount),
    (lit "record_multiset_sha256", .str identity.canonicalSha256)]

/-- `_dataset_values`. -/
def datasetValues (rt : Runtime) (evaluation : Option Scalars) (records : EvaluationRecords) :
    Except Error (Option Scalars) :=
  match evaluation.bind declaredFields with
  | none => .ok none
  | some declared => do
    let identity ← records.identity rt
    .ok (identity.map (datasetFields declared))

/-- `f"evaluation.{key}"`, for every field whose key is chosen. -/
def evaluationFields (chosen : Str → Bool) (evaluation : Scalars) : Scalars :=
  (evaluation.filter fun field => chosen field.1).map fun field =>
    (lit "evaluation." ++ field.1, field.2)

/-- `key == token or key.startswith(f"{token}.")`, for one of the tokens. -/
def hasToken (tokens : List Str) (key : Str) : Bool :=
  tokens.any fun token => key == token || (token ++ [DOT]).isPrefixOf key

/-- `_optional_values`. -/
def optionalValues (evaluation : Option Scalars) (tokens : List Str) : Option Scalars :=
  (evaluation.map (evaluationFields (hasToken tokens))).filter (· ≠ [])

/-- The evaluation fields that belong to the metric. -/
def isMetricKey (key : Str) : Bool :=
  [lit "metric", lit "metric_name", lit "metric_definition", lit "metric_version"].contains key ||
    (lit "metric_config.").isPrefixOf key

/-- The components that are represented only where a field says so, with their tokens. -/
def OPTIONAL_COMPONENTS : List (MeasurementComponentKind × List Str) :=
  [(.evaluatorImplementation, ["evaluator", "scorer"]),
    (.promptTemplate, ["prompt", "prompt_template", "template"]),
    (.decodingParameters, ["decoding", "sampling"]),
    (.testSelection, ["test_selection", "selection", "subset", "filter"]),
    (.retryAggregation, ["aggregation", "aggregation_procedure", "retry", "adjudication"]),
    (.normalizationPostprocessing, ["normalization", "postprocessing", "postprocess"]),
    (.benchmarkVersion, ["benchmark"])]

/-- The ids of the bindings of a source snapshot that components refer to. -/
structure SourceBindings where
  config : List Str
  results : List Str
  evalDataset : List Str

/-- The components that `_recover_protocol` builds from flattened values. -/
def recoverComponents (source : SourceBindings) (metric : Str) (evaluation : Option Scalars)
    (dataset : Option Scalars) : List MeasurementProtocolComponent :=
  [componentFromValues .metric
      (some ((lit "name", .str metric) :: (evaluation.map (evaluationFields isMetricKey)).getD []))
      (sortBy id (source.results ++ source.config)) true,
    componentFromValues .evaluationDataset dataset
      (sortBy id (source.config ++ source.evalDataset)) true,
    componentFromValues .evaluationConfig (evaluation.map (evaluationFields fun _ => true))
      source.config true] ++
  OPTIONAL_COMPONENTS.map fun component =>
    componentFromValues component.1 (optionalValues evaluation component.2) source.config false

/-- `_recover_protocol`. -/
def recoverProtocol (rt : Runtime) (source : SourceBindings) (metric : Str)
    (config : Option Config) (records : EvaluationRecords) :
    Except Error (List MeasurementProtocolComponent) :=
  if Measurement.boundedText 256 true metric = false then
    .error (measurementError "measurement metric must be bounded canonical text")
  else do
    let evaluation ← flattenEvaluation config
    let dataset ← datasetValues rt evaluation records
    .ok (recoverComponents source metric evaluation dataset)

end ClaimCI
