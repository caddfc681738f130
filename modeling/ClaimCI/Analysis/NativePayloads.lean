import ClaimCI.Analysis.Selectors
import ClaimCI.Python.NestedDictionary
import ClaimCI.Python.Sorting

/-!
# Native payloads

The results and the config of one arm that materialization writes for the native audit, from the
normalized evidence; and the scalar leaves that an adapter takes from a config mapping.
-/

open Python

namespace ClaimCI

/-! ### Normalized evidence -/

/-- A JSON scalar; `none` is null. -/
abbrev JsonScalar := Option Scalar

def JsonScalar.toJson : JsonScalar → Json
  | none => .null
  | some scalar => scalar.toJson

structure ConfigValue where
  key : Str
  value : JsonScalar
  deriving DecidableEq

inductive Seed where
  | text (s : Str)
  | int (n : Int)
  deriving DecidableEq

/-- The metric name and the metric value appear together. -/
structure NormalizedObservation where
  metric : Option (Str × Binary64)
  seed : Option Seed
  configValues : List ConfigValue

structure NormalizedEvidence where
  evidenceId : Str
  observations : List NormalizedObservation

/-- `MaterializationPartial`. -/
structure MaterializationPartial where
  message : Str
  deriving DecidableEq

/-- `sorted(evidence, key=lambda value: value.evidence_id)`, with all observations in order. -/
def observationsInOrder (evidence : List NormalizedEvidence) : List NormalizedObservation :=
  (sortBy NormalizedEvidence.evidenceId evidence).flatMap NormalizedEvidence.observations

/-! ### Results -/

/-- The entries of one run object. -/
def observationRun (metric : Str) (value : Binary64) : Option Seed →
    Except MaterializationPartial Members
  | none => .ok [(metric, .float value)]
  | some (.int seed) => .ok (setKey (lit "seed") (.int seed) [(metric, .float value)])
  | some (.text _) => .error ⟨"a present seed cannot be represented by the native Audit"⟩

/-- The runs of the observations of one metric. -/
def observationRuns (metric : Str) : List NormalizedObservation →
    Except MaterializationPartial (List Json)
  | [] => .ok []
  | observation :: rest =>
    match observation.metric with
    | none => observationRuns metric rest
    | some (name, value) =>
      if name = metric then do
        let run ← observationRun metric value observation.seed
        let runs ← observationRuns metric rest
        .ok (.object run :: runs)
      else observationRuns metric rest

/-- `_results_payload`. -/
def resultsPayload (rt : Runtime) (evidence : List NormalizedEvidence) (metric : Str) :
    Except MaterializationPartial Json := do
  let runs ← observationRuns metric (observationsInOrder evidence)
  if runs = [] then
    .error ⟨lit "no normalized result observations match metric " ++ rt.repr metric⟩
  else if (Json.array runs).dumpable then .ok (.object [("runs", .array runs)])
  else .error ⟨lit "normalized result observations are not JSON representable: " ++ intTextError.text⟩

/-! ### Config -/

/-- A mapping of a config that is being built. -/
abbrev ConfigEntries := List (Str × Nested JsonScalar)

/-- `_CONFIG_SEGMENT.fullmatch`. -/
def isConfigSegment (s : Str) : Bool :=
  s != [] && s.all fun c => isAsciiAlphanumeric c || (lit "_-").contains c

/-- The walk of `_insert_config` below one mapping. -/
def insertParts (value : JsonScalar) : List Str → ConfigEntries →
    Except MaterializationPartial ConfigEntries
  | [], current => .ok current -- a split text has at least one part
  | [leaf], current =>
    match lookupKey leaf current with
    | some _ => .error ⟨"duplicate normalized config key"⟩
    | none =>
      if value.toJson.dumpable then .ok (setKey leaf (.leaf value) current)
      else .error ⟨lit "config value is not safely representable: " ++ intTextError.text⟩
  | part :: next :: parts, current =>
    match lookupKey part current with
    -- `current.get(part)` is also `None` where a null is stored, which is then replaced
    | none | some (.leaf none) => do
      let child ← insertParts value (next :: parts) []
      .ok (setKey part (.dict child) current)
    | some (.dict existing) => do
      let child ← insertParts value (next :: parts) existing
      .ok (setKey part (.dict child) current)
    | some (.leaf (some _)) => .error ⟨"config scalar/mapping paths conflict"⟩

/-- `value.key.split(".")`. -/
def ConfigValue.parts (value : ConfigValue) : List Str := split DOT value.key

/-- `_insert_config`. -/
def insertConfig (root : ConfigEntries) (value : ConfigValue) :
    Except MaterializationPartial ConfigEntries :=
  if value.parts.all isConfigSegment then insertParts value.value value.parts root
  else .error ⟨"config key cannot be represented as a native path"⟩

/-- The config values of all evidence in the order in which they are inserted. -/
def configuredValues (evidence : List NormalizedEvidence) : List ConfigValue :=
  (observationsInOrder evidence).flatMap NormalizedObservation.configValues

/-- `_config_payload`. -/
def configPayload (evidence : List NormalizedEvidence) :
    Except MaterializationPartial ConfigEntries := do
  let payload ← (configuredValues evidence).foldlM insertConfig []
  if configuredValues evidence = [] then .error ⟨"normalized config evidence is unavailable"⟩
  else .ok payload

/-! ### Scalar leaves -/

/-- `".".join(parts)`. -/
def dottedLabel (parts : List Str) : Str := [DOT].intercalate parts

/-- The representable leaves under their dotted paths, and the paths that are not supported. -/
abbrev LeafScan := List (Str × Value) × List Str

mutual

/-- `walk` of `_scalar_leaves`. -/
def walkLeaves (parts : List Str) : Value → Except Error LeafScan
  | .dict entries => do
    let scans ← walkEntries parts entries
    let inOrder := sortBy Prod.fst scans
    .ok (inOrder.flatMap fun scan => scan.2.1, inOrder.flatMap fun scan => scan.2.2)
  | .list _ => .ok ([], [dottedLabel parts])
  | v => .ok (if parts = [] then ([], [lit "<root>"]) else ([(dottedLabel parts, v)], []))

/-- What each entry of a mapping adds, with the text of its key. -/
def walkEntries (parts : List Str) : List (Value × Value) → Except Error (List (Str × LeafScan))
  | [] => .ok []
  | (key, child) :: entries => do
    let label ← keyText key
    let scan ← match key with
      | .str name =>
        if isDottedSegment name then walkLeaves (parts ++ [name]) child
        else .ok ([], [dottedLabel (parts ++ [label])])
      | _ => .ok ([], [dottedLabel (parts ++ [label])])
    let rest ← walkEntries parts entries
    .ok ((label, scan) :: rest)

end

/-- `_scalar_leaves`. -/
def scalarLeaves (value : Value) : Except Error LeafScan := do
  let (leaves, unsupported) ← walkLeaves [] value
  .ok (leaves, sortBy id unsupported)

end ClaimCI
