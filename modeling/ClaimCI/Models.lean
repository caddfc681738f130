import ClaimCI.Python.Counter
import ClaimCI.Python.JsonCanonical
import ClaimCI.Python.Statistics

/-!
# Models

The data the checks share, and the outside world an audit runs in: the file system, the YAML
library and the digest function.
-/

open Python

namespace ClaimCI

inductive Severity where
  | critical | warning | verified | info
  deriving DecidableEq, Repr

inductive Impact where
  | none | invalidates | insufficient
  deriving DecidableEq, Repr

inductive Verdict where
  | supported | notSupported | insufficientEvidence
  deriving DecidableEq, Repr

/-- The declared favorable direction of a metric. -/
inductive Direction where
  | higher | lower
  deriving DecidableEq, Repr

inductive Arm where
  | baseline | candidate
  deriving DecidableEq, Repr

inductive Split where
  | train | eval
  deriving DecidableEq, Repr

def Severity.value : Severity → Str
  | critical => "CRITICAL"
  | warning => "WARNING"
  | verified => "VERIFIED"
  | info => "INFO"

def Impact.value : Impact → Str
  | none => "NONE"
  | invalidates => "INVALIDATES"
  | insufficient => "INSUFFICIENT"

def Verdict.value : Verdict → Str
  | supported => "SUPPORTED"
  | notSupported => "NOT_SUPPORTED"
  | insufficientEvidence => "INSUFFICIENT_EVIDENCE"

def Direction.value : Direction → Str
  | higher => "higher"
  | lower => "lower"

def Arm.text : Arm → Str
  | baseline => "baseline"
  | candidate => "candidate"

/-- `experiment.title()`. -/
def Arm.title : Arm → Str
  | baseline => "Baseline"
  | candidate => "Candidate"

def Split.text : Split → Str
  | train => "train"
  | eval => "eval"

/-- What a call raises. -/
inductive Error where
  /-- An expected, user-actionable input or artifact error. -/
  | claimCI (message : Str)
  | typeError (message : Str)
  | valueError (message : Str)
  | osError (message : Str)
  deriving DecidableEq

def Error.text : Error → Str
  | claimCI message => message
  | typeError message => message
  | valueError message => message
  | osError message => message

/-- What the YAML loader raises. -/
inductive YamlError where
  /-- `yaml.YAMLError`. -/
  | invalid (text : Str)
  /-- A `ValueError` of a scalar constructor. -/
  | value (text : Str)

def YamlError.text : YamlError → Str
  | invalid text => text
  | value text => text

/-- What `yaml.load` raises, of the exceptions that are handled. -/
inductive YamlLoadError where
  | yaml (error : YamlError)
  | recursionError

/-- What the YAML loader raises for a tagged scalar it cannot convert; no handler of an audit names
these. -/
inductive TagFault where
  | keyError (text : Str)
  | indexError (text : Str)
  | attributeError (text : Str)
  /-- A base-60 number beyond the floats. -/
  | overflowError (text : Str)
  deriving DecidableEq

/-- The identity of an object in a loaded document. -/
abbrev ObjectId := List Nat

/-- An object that the YAML loader builds: a value that holds no others, or a container. -/
inductive YamlObject where
  | scalar (value : Value) (atomic : value.atomic = true)
  | list (items : List ObjectId)
  | tuple (items : List ObjectId)
  | set (items : List ObjectId)
  | dict (entries : List (ObjectId × ObjectId))

/-- A loaded document, whose containers may share objects and may contain themselves. -/
structure YamlDocument where
  objects : ObjectId → YamlObject
  root : ObjectId

/-- Why a file could not be read. -/
inductive ReadError where
  | notFound
  | other (text : Str)

/-- What an audit takes from its surroundings. -/
structure Runtime where
  /-- `path.read_bytes()`. -/
  readBytes : Str → Except ReadError Bytes
  /-- `path.exists()`. -/
  pathExists : Str → Bool
  /-- `path.parent`. -/
  parent : Str → Str
  /-- `path.resolve()`; the error is the text of the exception. -/
  resolve : Str → Except Str Str
  /-- `directory / path`, where an absolute path replaces the directory. -/
  join : Str → Str → Str
  /-- `path.relative_to(root)` succeeds. -/
  isRelativeTo : Str → Str → Bool
  /-- `PureWindowsPath(path).is_absolute()`. -/
  isWindowsAbsolute : Str → Bool
  /-- `yaml.load`, with the loader that rejects duplicate keys. -/
  yamlLoad : Str → Except YamlLoadError YamlDocument
  /-- `hashlib.sha256(data).hexdigest()`. -/
  sha256 : Bytes → Str
  /-- `repr` of a string. -/
  repr : Str → Str
  /-- The text of the exception that `decode` raises. -/
  decodeErrorText : Bytes → Str
  /-- The text of the exception that decoding, checking or hashing JSON text raises. -/
  jsonErrorText : Str → Str

/-- The `hexdigest` of a digest of 256 bits. -/
def hexdigest (digest : Nat) : Str :=
  (List.range 64).map fun place => hexChar (digest / 16 ^ (63 - place) % 16)

/-- `path.read_text(encoding="utf-8")`. -/
inductive TextError where
  | notFound
  | unreadable (text : Str)
  | undecodable (text : Str)

def Runtime.readText (rt : Runtime) (path : Str) : Except TextError Str :=
  match rt.readBytes path with
  | .error .notFound => .error .notFound
  | .error (.other text) => .error (.unreadable text)
  | .ok raw =>
    match decodeUtf8 raw with
    | none => .error (.undecodable (rt.decodeErrorText raw))
    | some text => .ok (universalNewlines text)

abbrev Evidence := List (Str × Value)

structure Finding where
  ruleId : Str
  severity : Severity
  title : Str
  explanation : Str
  evidence : Evidence
  impact : Impact

structure MetricSummary where
  count : Nat
  mean : Binary64
  standardDeviation : Option Binary64
  deriving DecidableEq

structure DatasetHashes where
  path : Str
  hashes : List Str
  deriving DecidableEq

structure OverlapSummary where
  experiment : Arm
  trainCount : Nat
  evalCount : Nat
  overlapCount : Nat
  overlapRate : Binary64
  overlappingHashes : List Str
  deriving DecidableEq

structure ExperimentPaths where
  config : Str
  results : Str
  trainDataset : Str
  evalDataset : Str
  deriving DecidableEq

def ExperimentPaths.dataset (paths : ExperimentPaths) : Split → Str
  | .train => paths.trainDataset
  | .eval => paths.evalDataset

structure ResearchSpec where
  manifestPath : Str
  metric : Str
  minimumImprovement : Binary64
  baseline : ExperimentPaths
  candidate : ExperimentPaths
  direction : Direction
  deriving DecidableEq

def ResearchSpec.arm (spec : ResearchSpec) : Arm → ExperimentPaths
  | .baseline => spec.baseline
  | .candidate => spec.candidate

structure AuditResult where
  verdict : Verdict
  findings : List Finding
  manifestPath : Str
  metric : Str
  minimumImprovement : Binary64
  baselineMetrics : Option MetricSummary
  candidateMetrics : Option MetricSummary
  absoluteImprovement : Option Binary64
  relativeImprovement : Option Binary64
  overlaps : List OverlapSummary
  direction : Direction

/-- The evidence value of a count. -/
def countValue (n : Nat) : Value := .int n

def strValues (texts : List Str) : Value := .list (texts.map .str)

/-- `coerce_direction`, for a value read from a manifest. -/
def coerceDirection (value : Value) (label : Str) : Except Error Direction :=
  match value with
  | .str s =>
    if strip s = Direction.higher.value then .ok .higher
    else if strip s = Direction.lower.value then .ok .lower
    else .error (.claimCI (label ++ lit " must be either 'higher' or 'lower'"))
  | _ => .error (.claimCI (label ++ lit " must be either 'higher' or 'lower'"))

/-- `MAX_NESTING_DEPTH`. -/
def MAX_NESTING_DEPTH : Nat := 256

/-- The recursion limit of the interpreter, as the JSON codec meets it. -/
structure RecursionLimit where
  /-- The value is encoded, or decoded, without a `RecursionError`. -/
  fits : Json → Bool
  /-- The limit leaves room for every value the loaders accept and what a report wraps it in. -/
  shallow : ∀ value, value.depth ≤ 2 * MAX_NESTING_DEPTH → fits value = true

/-- `validate_json_graph` on a freshly decoded value, which shares no containers. -/
def validateJsonGraph (value : Json) (label : Str) : Except Error Unit :=
  if MAX_NESTING_DEPTH < value.depth then
    .error (.valueError (label ++ lit " nesting exceeds maximum supported depth " ++
      natText MAX_NESTING_DEPTH))
  else .ok ()

/-- The options every artifact loader passes to `json.loads`: `parse_constant` and
`object_pairs_hook` both reject. -/
def strictLoad : LoadOptions := ⟨true, true⟩

/-- A sequence of calls returns when each of them does. -/
theorem bind_ok_iff {ε α β : Type} {x : Except ε α} {f : α → Except ε β} {b : β} :
    (x >>= f) = .ok b ↔ ∃ a, x = .ok a ∧ f a = .ok b := by
  cases x with
  | error e => simp [bind, Except.bind]
  | ok a => simp [bind, Except.bind]

theorem toOption_eq_some {ε α : Type} {x : Except ε α} {a : α} (h : x.toOption = some a) :
    x = .ok a := by
  cases x with
  | error e => cases h
  | ok b => rw [Option.some.inj h]

theorem ok_of_any {ε α : Type} {x : Except ε α} {p : α → Bool} (h : x.toOption.any p = true) :
    ∃ a, x = .ok a ∧ p a = true := by
  obtain ⟨a, returned, holds⟩ := (Option.any_eq_true _ _).mp h
  exact ⟨a, toOption_eq_some returned, holds⟩

/-- Every result of a mapping that returns comes from an item, and every item has a result. -/
theorem mapM_ok {ε α β : Type} {f : α → Except ε β} {items : List α} {results : List β}
    (h : items.mapM f = .ok results) :
    (∀ b ∈ results, ∃ a ∈ items, f a = .ok b) ∧ ∀ a ∈ items, ∃ b ∈ results, f a = .ok b := by
  induction items generalizing results with
  | nil =>
    obtain rfl := Except.ok.inj h
    exact ⟨by simp, by simp⟩
  | cons a items ih =>
    rw [List.mapM_cons] at h
    obtain ⟨b, first, h⟩ := bind_ok_iff.mp h
    obtain ⟨rest, later, h⟩ := bind_ok_iff.mp h
    obtain rfl := Except.ok.inj h
    obtain ⟨left, right⟩ := ih later
    constructor
    · refine List.forall_mem_cons.mpr ⟨⟨a, List.mem_cons_self, first⟩, fun c member => ?_⟩
      obtain ⟨d, inside, found⟩ := left c member
      exact ⟨d, List.mem_cons_of_mem a inside, found⟩
    · refine List.forall_mem_cons.mpr ⟨⟨b, List.mem_cons_self, first⟩, fun c member => ?_⟩
      obtain ⟨d, inside, found⟩ := right c member
      exact ⟨d, List.mem_cons_of_mem b inside, found⟩

end ClaimCI
