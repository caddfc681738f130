import ClaimCI.Analysis.JsonPointers
import ClaimCI.Analysis.ManifestPaths
import ClaimCI.Analysis.MappingSelection
import ClaimCI.Analysis.NativePayloads
import ClaimCI.Analysis.RepositoryPaths
import ClaimCI.Analysis.StreamingDataset
import ClaimCI.Python.SplitLines

/-!
# Structured adapters

The generic adapters of JSON documents and of JSON lines: the field mappings that probing a file
infers from its keys and leaves, and the observations that are extracted through mappings.
-/

open Python

namespace ClaimCI

/-! ### Passive artifacts -/

inductive ArtifactSnapshotRole where
  | head | base
  deriving DecidableEq, Repr

def ArtifactSnapshotRole.value : ArtifactSnapshotRole → Str
  | head => "head"
  | base => "base"

/-- The bytes of one file, with what discovery issued for them. -/
structure PassiveArtifact where
  repository : RepositoryIdentity
  snapshotRole : ArtifactSnapshotRole
  commit : GitCommitSha
  path : RepositoryPath
  kind : ArtifactKind
  sha256 : Sha256Digest
  size : Nat
  content : Bytes

def MAX_ARTIFACT_BYTES : Nat := 8 * 1024 * 1024
def MAX_RECORDS : Nat := 10000
def MAX_DEPTH : Nat := 64
def MAX_NODES : Nat := 100000
def MAX_LOGICAL_RECORD_BYTES : Nat := 1024 * 1024

/-- The constructor of `EvidenceSelector`. -/
def evidenceSelector (kind : SelectorKind) (expression : Str) (provenance : FieldProvenance) :
    Except Error EvidenceSelector :=
  match h : EvidenceSelector.check kind expression with
  | .error error => .error error
  | .ok () => .ok ⟨kind, expression, provenance, h⟩

/-- `Confidence(hundredths / 100)`. -/
def confidence (hundredths : Nat) : Except Error Confidence :=
  let value := (Binary64.ofDecimal ⟨false, hundredths, -2⟩).getD (Binary64.zero false)
  if bounded : (Binary64.zero false).le value = true ∧ value.units ≤ 2 ^ 1074 then
    .ok ⟨value, bounded⟩
  else .error (.valueError "confidence must be finite from 0 through 1")

section Core

variable {ut : UnicodeTables} (rt : Runtime) (artifact : PassiveArtifact)

/-- `_verify_integrity`. -/
def verifyIntegrity : Except Error Unit := do
  rejectIf (MAX_ARTIFACT_BYTES < artifact.content.length) (contractError
    (lit "artifact exceeds the " ++ natText MAX_ARTIFACT_BYTES ++ lit "-byte (8 MiB) limit"))
  rejectIf (artifact.content.length != artifact.size)
    (contractError "artifact integrity size mismatch")
  rejectIf (rt.sha256 artifact.content != artifact.sha256.text)
    (contractError "artifact integrity sha256 mismatch")

/-- One more node of `_validate_graph`. -/
def countNode (nodes : Nat) : Except Error Nat := do
  rejectIf (MAX_NODES < nodes + 1)
    (contractError (lit "artifact exceeds the " ++ natText MAX_NODES ++ lit "-nodes limit"))
  pure (nodes + 1)

/-- A container of `_validate_graph`. -/
def enterContainer (depth nodes : Nat) : Except Error Nat := do
  let nodes ← countNode nodes
  rejectIf (MAX_DEPTH < depth) (contractError
    (lit "artifact exceeds the maximum supported depth " ++ natText MAX_DEPTH))
  pure nodes

mutual

/-- One value on the stack of `_validate_graph`, with the nodes counted before it. A decoded
document shares no container with itself. -/
def visitGraph (depth nodes : Nat) : Json → Except Error Nat
  | .array items => do
    let nodes ← enterContainer depth nodes
    graphItems (depth + 1) nodes items
  | .object members => do
    let nodes ← enterContainer depth nodes
    graphMembers (depth + 1) nodes members
  | .infinity _ | .nan => do
    let _ ← countNode nodes
    .error (contractError "artifact numbers must be finite")
  | _ => countNode nodes

def graphItems (depth nodes : Nat) : List Json → Except Error Nat
  | [] => .ok nodes
  | item :: rest => do
    let nodes ← visitGraph depth nodes item
    graphItems depth nodes rest

/-- A key counts as a node. -/
def graphMembers (depth nodes : Nat) : Members → Except Error Nat
  | [] => .ok nodes
  | (_, value) :: rest => do
    let nodes ← countNode nodes
    let nodes ← visitGraph depth nodes value
    graphMembers depth nodes rest

end

/-- `_parse_json` behind the decoding of the bytes. -/
def parseJsonText (text : Str) : Except Error Json :=
  match loads strictLoad text with
  | none => .error (contractError (rt.jsonErrorText text))
  | some value => do
    -- the keys of every object are visited in their order
    let _ ← visitGraph 1 0 value.sorted
    pure value

def notUtf8 : Error := contractError "artifact must contain valid UTF-8"

/-- `_parse_json`. -/
def parseJsonArtifact (content : Bytes) : Except Error Json :=
  match decodeUtf8 content with
  | none => .error notUtf8
  | some text => parseJsonText rt text

/-- `_adapter_provenance`. -/
def adapterProvenance (adapterId selector : Str) (inferred : Bool) : Except Error FieldProvenance :=
  fieldProvenance .adapterExtraction
    (lit "adapter=" ++ adapterId ++ lit "; selector=" ++ selector ++ lit "; sha256=" ++
      artifact.sha256.text ++ lit "; inferred=" ++ (if inferred then lit "true" else lit "false"))
    (some artifact.path.text) (some (adapterId ++ lit ":" ++ artifact.sha256.text.take 16))

/-- `_mapping`, which every caller has infer. -/
def adapterMapping (adapterId targetField : Str) (kind : SelectorKind) (selector : Str) :
    Except Error (FieldMapping ut) := do
  let provenance ← adapterProvenance artifact adapterId selector true
  let selector ← evidenceSelector kind selector provenance
  pure ⟨targetField, .field selector, provenance⟩

variable (ut) in
/-- What a probe returns. -/
structure ProbeMatch extends AdapterMatch ut where
  path : RepositoryPath
  confidence : Confidence
  matchEvidence : List FieldProvenance

/-- `_match`. -/
def structuredMatch (adapterId : Str) (mappings : List (FieldMapping ut)) (hundredths : Nat) :
    Except Error (ProbeMatch ut) := do
  let evidence ← adapterProvenance artifact adapterId "<artifact>" (hundredths < 80)
  let confidence ← confidence hundredths
  if targets : (mappings.map FieldMapping.targetField).Nodup then
    pure ⟨⟨adapterId, mappings, targets⟩, artifact.path, confidence, [evidence]⟩
  else .error (contractError "adapter mappings must have unique target fields")

def Selector.kind : Selector ut → SelectorKind
  | .field s => s.kind
  | .table _ => .column

def Selector.expression : Selector ut → Str
  | .field s => s.expression
  | .table s => s.column

def Selector.provenance : Selector ut → FieldProvenance
  | .field s => s.provenance
  | .table s => s.provenance

/-- A provenance that `_validate_match` reads names the path and the digest of the artifact. -/
def checkBound (label : Str) (provenance : FieldProvenance) : Except Error Unit := do
  rejectIf (provenance.sourcePath != some artifact.path.text)
    (contractError (label ++ lit " provenance path does not match artifact path"))
  rejectIf (!decide (artifact.sha256.text <:+: provenance.detail))
    (contractError (label ++ lit " provenance does not bind the current sha256"))

/-- One mapping of `_validate_match`. -/
def checkFieldMapping (kind : SelectorKind) (allowed : List Str) (mapping : FieldMapping ut) :
    Except Error Unit := do
  rejectIf (!allowed.contains mapping.targetField) (contractError
    (lit "mapping target " ++ rt.repr mapping.targetField ++ lit " is not supported"))
  rejectIf (mapping.selector.kind != kind) (contractError "mapping selector kind is not supported")
  checkBound artifact "mapping selector" mapping.provenance
  checkBound artifact "mapping selector" mapping.selector.provenance

/-- `_validate_match`; the targets of a match are unique. -/
def validateMatch (found : ProbeMatch ut) (adapterId : Str) (kind : SelectorKind)
    (allowed : List Str) : Except Error (List (FieldMapping ut)) := do
  rejectIf (found.adapterId != adapterId)
    (contractError "adapter match uses the wrong adapter identifier")
  rejectIf (found.path != artifact.path)
    (contractError "adapter match path does not match artifact path")
  found.matchEvidence.forM (checkBound artifact "adapter match")
  found.mappings.forM (checkFieldMapping rt artifact kind allowed)
  pure found.mappings

/-- `mappings.get(target)`. -/
def mappingFor (target : Str) (mappings : List (FieldMapping ut)) : Option (FieldMapping ut) :=
  mappings.find? fun mapping => mapping.targetField == target

/-- One predicate in `field_mapping_material`. -/
def predicateMaterial (p : TablePredicate ut) : Json := .object
  [("column", .str p.column), ("scalar_type", .str p.scalarType.value),
    ("value", .str p.canonicalValue)]

/-- `field_mapping_material`. -/
def fieldMappingMaterial (mapping : FieldMapping ut) : Json :=
  let material : Members := [("target", .str mapping.targetField),
    ("kind", .str mapping.selector.kind.value), ("expression", .str mapping.selector.expression)]
  match mapping.selector with
  | .field _ => .object material
  | .table s =>
    let typed : Members := [("selector_type", .str "table"),
      ("expected_cardinality", .int s.expectedCardinality),
      ("predicates", .array (s.predicates.map predicateMaterial))]
    .object (material ++ typed)

/-- `_evidence_id`, of 76 characters; the targets order the selectors. -/
def structuredEvidenceId (adapterId version : Str) (mappings : List (FieldMapping ut)) : Str :=
  lit "evidence-v2-" ++ rt.sha256 (asciiEncode ((Json.object [
    ("schema_version", .int 2),
    ("repository", .object [("owner", .str artifact.repository.owner),
      ("name", .str artifact.repository.name)]),
    ("snapshot", .object [("role", .str artifact.snapshotRole.value),
      ("commit", .str artifact.commit.text)]),
    ("artifact", .object [("path", .str artifact.path.text), ("kind", .str artifact.kind.value),
      ("sha256", .str artifact.sha256.text), ("size", .int artifact.size)]),
    ("adapter", .object [("id", .str adapterId), ("version", .str version)]),
    ("selector", .array ((sortBy FieldMapping.targetField mappings).map fieldMappingMaterial))]
    ).sorted.render identityStyle 0))

end Core

/-! ### Roles of leaves -/

def RUN_NAMES : List Str := ["run", "run_id", "trial"]
def SEED_NAMES : List Str := ["seed", "random_seed"]
def METRIC_NAME_NAMES : List Str := ["metric", "metric_name"]
def RESULT_TARGETS : List Str := ["metric_name", "metric_value", "run_id", "seed"]

/-- `_is_finite_number`. -/
def isMetricNumber (value : Json) : Bool := (finiteNumber value).isSome

section Roles

-- `str.lower`, which the Unicode database of the interpreter decides.
variable (lower : Str → Str)

/-- `_unique_named_pointer`. -/
def uniqueNamedPointer (leaves : List (Str × Json)) (names : List Str) : Option Str :=
  match (leaves.filter fun leaf =>
      names.contains (lower (pointerTerminal leaf.1))).map Prod.fst with
  | [pointer] => some pointer
  | _ => none

/-- The pointers that are no metrics, whatever they hold. -/
def excludedPointers (leaves : List (Str × Json)) : List Str :=
  (uniqueNamedPointer lower leaves RUN_NAMES).toList ++
    (uniqueNamedPointer lower leaves SEED_NAMES).toList

/-- The pointers of the leaves that may be metrics. -/
def metricPointers (leaves : List (Str × Json)) : List Str :=
  (leaves.filter fun leaf =>
    !(excludedPointers lower leaves).contains leaf.1 && isMetricNumber leaf.2).map Prod.fst

/-- The pointer of a metric that is the only one. -/
def metricPointer (leaves : List (Str × Json)) : Option Str :=
  match metricPointers lower leaves with
  | [pointer] => some pointer
  | _ => none

/-- The target fields of `_result_mappings` with their pointers, in the order of creation. -/
def resultSelectors (leaves : List (Str × Json)) : List (Str × Str) :=
  (metricPointer lower leaves).toList.map (lit "metric_value", ·) ++
    (uniqueNamedPointer lower leaves METRIC_NAME_NAMES).toList.map (lit "metric_name", ·) ++
    (uniqueNamedPointer lower leaves RUN_NAMES).toList.map (lit "run_id", ·) ++
    (uniqueNamedPointer lower leaves SEED_NAMES).toList.map (lit "seed", ·)

/-- `_result_mappings`. -/
def resultMappings {ut : UnicodeTables} (artifact : PassiveArtifact) (adapterId : Str)
    (leaves : List (Str × Json)) : Except Error (List (FieldMapping ut)) := do
  let mappings ← (resultSelectors lower leaves).mapM fun selector =>
    adapterMapping artifact adapterId selector.1 .jsonPointer selector.2
  pure (sortBy FieldMapping.targetField mappings)

end Roles

/-! ### Observations -/

structure ExtractedConfigValue where
  key : Str
  value : Json
  provenance : FieldProvenance

/-- The checks of `NormalizedObservation` on what an adapter gives it. -/
def checkObservation (metric : Option (Str × Binary64)) (runId : Option Str) (seed : Option Seed)
    (configValues : List ExtractedConfigValue) : Except Error Unit := do
  match metric with
  | none => pure ()
  | some (name, _) => boundedText "metric name" name 256
  match runId with
  | none => pure ()
  | some run => boundedId "run_id" run 256
  match seed with
  | some (.text seed) => boundedId "seed" seed 128
  | _ => pure ()
  rejectIf (metric.isNone && configValues.isEmpty)
    (contractError "normalized observation must contain substantive evidence")
  rejectIf (!decide (configValues.map ExtractedConfigValue.key).Nodup)
    (contractError "config_values keys must be unique")

/-- An observation of an adapter; the metric value is finite by its type. -/
structure ExtractedObservation where
  provenance : FieldProvenance
  metric : Option (Str × Binary64)
  runId : Option Str
  seed : Option Seed
  configValues : List ExtractedConfigValue
  checked : checkObservation metric runId seed configValues = .ok ()

/-- The constructor of `NormalizedObservation`. -/
def extractedObservation (provenance : FieldProvenance) (metric : Option (Str × Binary64))
    (runId : Option Str) (seed : Option Seed) (configValues : List ExtractedConfigValue) :
    Except Error ExtractedObservation :=
  match h : checkObservation metric runId seed configValues with
  | .error error => .error error
  | .ok () => .ok ⟨provenance, metric, runId, seed, configValues, h⟩

/-- Normalized evidence of an adapter. -/
structure ExtractedEvidence (ut : UnicodeTables) where
  evidenceId : Str
  artifact : PassiveArtifact
  adapterMatch : ProbeMatch ut
  observations : List ExtractedObservation

section Observations

variable {ut : UnicodeTables} (rt : Runtime)

/-- `_metric_name`, for the mapping of the metric value. -/
def structuredMetricName (value : Json) (mappings : List (FieldMapping ut))
    (metric : FieldMapping ut) : Except Error Str :=
  match mappingFor "metric_name" mappings with
  | some explicit => do
    match ← resolveJsonPointer rt value explicit.selector.expression with
    | .str selected =>
      rejectIf (isBlank selected) (contractError "metric_name selector must resolve to text")
      pure selected
    | _ => .error (contractError "metric_name selector must resolve to text")
  | none => do
    let inferred := pointerTerminal metric.selector.expression
    rejectIf inferred.isEmpty (contractError "metric name cannot be derived from the selector")
    pure inferred

/-- A text or an integer that a selector resolves to. -/
def textOrInteger (label : Str) : Json → Except Error Seed
  | .str text => .ok (.text text)
  | .int n => .ok (.int n)
  | _ => .error (contractError (label ++ lit " selector must resolve to text or an integer"))

/-- `str(selected)`. -/
def Seed.textOf : Seed → Except Error Str
  | .text spelled => .ok spelled
  | .int n =>
    match intText n with
    | some spelled => .ok spelled
    | none => .error intTextError

/-- `_run_id`. -/
def structuredRunId (value : Json) (mappings : List (FieldMapping ut)) :
    Except Error (Option Str) :=
  match mappingFor "run_id" mappings with
  | none => .ok none
  | some mapping => do
    let selected ← resolveJsonPointer rt value mapping.selector.expression
    let run ← textOrInteger "run_id" selected
    let text ← run.textOf
    pure (some text)

/-- `_seed`. -/
def structuredSeed (value : Json) (mappings : List (FieldMapping ut)) :
    Except Error (Option Seed) :=
  match mappingFor "seed" mappings with
  | none => .ok none
  | some mapping => do
    let selected ← resolveJsonPointer rt value mapping.selector.expression
    let seed ← textOrInteger "seed" selected
    pure (some seed)

/-- A contract error of an identifier is raised again as a selector error. -/
def invalidIdentifier (error : Error) : Error :=
  contractError (lit "selected structured identifier is invalid: " ++ error.text)

/-- The observation of one record, behind its metric value. -/
def identifiedObservation (value : Json) (mappings : List (FieldMapping ut))
    (metric : FieldMapping ut) (provenance : FieldProvenance) (metricValue : Binary64) :
    Except Error ExtractedObservation := do
  let name ← structuredMetricName rt value mappings metric
  let runId ← structuredRunId rt value mappings
  let seed ← structuredSeed rt value mappings
  extractedObservation provenance (some (name, metricValue)) runId seed []

/-- `_observation`, for the mapping of the metric value. -/
def structuredObservation (value : Json) (mappings : List (FieldMapping ut))
    (metric : FieldMapping ut) (provenance : FieldProvenance) :
    Except Error ExtractedObservation := do
  let selected ← resolveJsonPointer rt value metric.selector.expression
  match finiteNumber selected with
  | none => .error (contractError "metric value must be a finite number")
  | some metricValue =>
    (identifiedObservation rt value mappings metric provenance metricValue).mapError
      invalidIdentifier

end Observations

/-! ### JSON documents -/

def JSON_ADAPTER : Str := "claimci-json-v1"
def JSONL_ADAPTER : Str := "claimci-jsonl-v1"

/-- `_config_target`; a key has no lone surrogate that could not be encoded, or it is refused. -/
def configTarget (rt : Runtime) (selector : Str) : Except Error Str :=
  match encodeUtf8 selector with
  | none => .error (.valueError "surrogates not allowed")
  | some bytes => .ok (lit "config.k" ++ (rt.sha256 bytes).take 16)

/-- The key of a config leaf can be represented. -/
def isConfigKey (dotted : Str) : Bool := dotted != [] && dotted == strip dotted &&
  dotted.length ≤ 256 && !hasControl dotted

/-- `_json_config_entries`: pointers, dotted keys and values. -/
def jsonConfigEntries (seen : List Str) : List (Str × Json) → Except Error (List (Str × Str × Json))
  | [] => .ok []
  | (pointer, value) :: rest => do
    let dotted := dottedFromPointer pointer
    rejectIf (!isConfigKey dotted)
      (contractError "JSON config key cannot be represented by the normalized config model")
    rejectIf (seen.contains dotted)
      (contractError "JSON config selector collision cannot be represented safely")
    let others ← jsonConfigEntries (dotted :: seen) rest
    pure ((pointer, dotted, value) :: others)

section Json

variable {ut : UnicodeTables} (rt : Runtime) (lower : Str → Str) (artifact : PassiveArtifact)

/-- `_supports`. -/
def supports (kinds : List ArtifactKind) (suffix : Str) : Bool :=
  kinds.contains artifact.kind && lower artifact.path.suffix == suffix

/-- A contract error of a probe is raised again as a parse error. -/
def unrepresentable (label : Str) (error : Error) : Error :=
  contractError (label ++ lit " cannot be represented by the safe selector model: " ++ error.text)

/-- Probing leaves for the fields of results. -/
def probeLeaves (adapterId label : Str) (leaves : List (Str × Json)) :
    Except Error (ProbeMatch ut) := do
  let mappings ← (resultMappings lower artifact adapterId leaves).mapError (unrepresentable label)
  structuredMatch artifact adapterId mappings
    (if (mappingFor "metric_value" mappings).isSome then 95 else 45)

/-- One mapping of a config; the target of a key is not covered by the handler. -/
def configMapping (entry : Str × Str × Json) : Except Error (FieldMapping ut) := do
  let target ← configTarget rt entry.2.1
  (adapterMapping artifact JSON_ADAPTER target .jsonPointer entry.1).mapError fun error =>
    contractError (lit "JSON config selector cannot be represented safely: " ++ error.text)

/-- `JsonAdapter.probe`, for a config. -/
def probeConfig (value : Json) : Except Error (ProbeMatch ut) := do
  let entries ← jsonConfigEntries [] (pointerLeaves value)
  let mappings ← entries.mapM (configMapping rt artifact)
  rejectIf mappings.isEmpty (contractError "JSON config contains no scalar evidence")
  structuredMatch artifact JSON_ADAPTER mappings 90

/-- `JsonAdapter.probe`. -/
def probeJson : Except Error (Option (ProbeMatch ut)) :=
  if supports lower artifact [.results, .benchmark, .document, .config] ".json" then do
    verifyIntegrity rt artifact
    let value ← parseJsonArtifact rt artifact.content
    let found ←
      if artifact.kind = .config then probeConfig rt artifact value
      else probeLeaves lower artifact JSON_ADAPTER "JSON field" (pointerLeaves value)
    pure (some found)
  else .ok none

/-- One value of a config. -/
def extractConfigValue (value : Json) (mapping : FieldMapping ut) :
    Except Error ExtractedConfigValue := do
  let dotted := dottedFromPointer mapping.selector.expression
  let target ← configTarget rt dotted
  rejectIf (mapping.targetField != target)
    (contractError "config mapping target does not match selector")
  let selected ← resolveJsonPointer rt value mapping.selector.expression
  rejectIf (isNested selected) (contractError "config selector must resolve to a scalar")
  boundedId "config key" dotted 256
  pure ⟨dotted, selected, mapping.provenance⟩

/-- The observation of a config. -/
def extractConfig (value : Json) (found : ProbeMatch ut) : Except Error ExtractedObservation := do
  let entries ← jsonConfigEntries [] (pointerLeaves value)
  let allowed ← entries.mapM fun entry => configTarget rt entry.2.1
  let mappings ← validateMatch rt artifact found JSON_ADAPTER .jsonPointer allowed
  let configValues ← (sortBy (fun mapping : FieldMapping ut => mapping.selector.expression)
    mappings).mapM (extractConfigValue rt value)
  rejectIf configValues.isEmpty (contractError "config extraction requires at least one mapping")
  let provenance ← adapterProvenance artifact JSON_ADAPTER "<config mappings>" false
  extractedObservation provenance none none none configValues

/-- "ambiguous structured evidence requires an external metric_value mapping" -/
def ambiguousEvidence (label : Str) : Error :=
  contractError (lit "ambiguous " ++ label ++
    lit " evidence requires an external metric_value mapping")

/-- The observation of results. -/
def extractResult (value : Json) (found : ProbeMatch ut) : Except Error ExtractedObservation := do
  let mappings ← validateMatch rt artifact found JSON_ADAPTER .jsonPointer RESULT_TARGETS
  match mappingFor "metric_value" mappings with
  | none => .error (ambiguousEvidence "structured")
  | some metric => structuredObservation rt value mappings metric metric.provenance

/-- `JsonAdapter.extract`. -/
def extractJson (found : ProbeMatch ut) : Except Error (ExtractedEvidence ut) := do
  verifyIntegrity rt artifact
  let value ← parseJsonArtifact rt artifact.content
  let observation ←
    if artifact.kind = .config then extractConfig rt artifact value found
    else extractResult rt artifact value found
  pure ⟨structuredEvidenceId rt artifact JSON_ADAPTER "1" found.mappings, artifact, found,
    [observation]⟩

end Json

/-! ### JSON lines -/

mutual

/-- `_node_count`. -/
def recordNodes : Json → Nat
  | .array items => 1 + itemNodes items
  | .object members => 1 + memberNodes members
  | _ => 1

def itemNodes : List Json → Nat
  | [] => 0
  | item :: rest => recordNodes item + itemNodes rest

def memberNodes : Members → Nat
  | [] => 0
  | (_, value) :: rest => 1 + recordNodes value + memberNodes rest

end

/-- A line of `text.splitlines()` without its terminator. -/
def lineBody (line : Str) : Str :=
  if line.getLast? = some LF then
    (if line.dropLast.getLast? = some CR then line.dropLast.dropLast else line.dropLast)
  else if line.getLast?.any isLineBoundary then line.dropLast
  else line

section Lines

variable (rt : Runtime)

/-- "JSONL logical record n" -/
def recordLabel (number : Nat) : Str := lit "JSONL logical record " ++ natText number

/-- One record of `_jsonl_records`. -/
def jsonlRecord (number : Nat) (line : Str) : Except Error Json := do
  rejectIf (isBlank line) (contractError (recordLabel number ++ lit " is blank"))
  -- a text that was decoded can be encoded
  rejectIf (decide (MAX_LOGICAL_RECORD_BYTES < ((encodeUtf8 line).getD []).length))
    (contractError (recordLabel number ++ lit " exceeds the 1 MiB limit"))
  match ← parseJsonText rt line with
  | .object members => pure (.object members)
  | _ => .error (contractError (recordLabel number ++ lit " must be a JSON object"))

/-- The loop of `_jsonl_records`, with the number of the next line and the nodes so far. -/
def jsonlLoop (number nodes : Nat) : List Str → Except Error (List Json)
  | [] => .ok []
  | line :: rest => do
    let record ← jsonlRecord rt number line
    rejectIf (MAX_NODES < nodes + recordNodes record)
      (contractError (lit "JSONL artifact exceeds the " ++ natText MAX_NODES ++ lit "-nodes limit"))
    let others ← jsonlLoop (number + 1) (nodes + recordNodes record) rest
    pure (record :: others)

/-- `_jsonl_records`. -/
def jsonlRecords (content : Bytes) : Except Error (List Json) :=
  match decodeUtf8 content with
  | none => .error notUtf8
  | some text => do
    let lines := (splitLines text).map lineBody
    rejectIf lines.isEmpty (contractError "JSONL artifact must contain at least one record")
    rejectIf (MAX_RECORDS < lines.length) (contractError
      (lit "JSONL artifact exceeds the " ++ natText MAX_RECORDS ++ lit "-records limit"))
    jsonlLoop rt 1 0 lines

end Lines

/-- A text or an integer, which no bool is. -/
def isIdentifier : Json → Bool
  | .str _ => true
  | .int _ => true
  | _ => false

/-- The values one pointer has in the records, if it has one in each. -/
def valuesAt (pointer : Str) (dicts : List (List (Str × Json))) : Option (List Json) :=
  dicts.mapM (lookupKey pointer)

/-- The leaf that the records share under a pointer. -/
def commonLeaf (dicts : List (List (Str × Json))) (pointer : Str) : Option (Str × Json) :=
  match valuesAt pointer dicts with
  | some (first :: others) =>
    if (first :: others).all isMetricNumber || (first :: others).all isIdentifier then
      some (pointer, first)
    else none
  | _ => none

/-- `_common_leaves`. -/
def commonLeaves (records : List Json) : List (Str × Json) :=
  let dicts := records.map fun record => dictOf (pointerLeaves record)
  match dicts with
  | [] => []
  | first :: _ => (sortBy id (first.map Prod.fst)).filterMap (commonLeaf dicts)

section Jsonl

variable {ut : UnicodeTables} (rt : Runtime) (lower : Str → Str) (artifact : PassiveArtifact)

/-- `JsonLinesAdapter.probe`. -/
def probeJsonLines : Except Error (Option (ProbeMatch ut)) :=
  if supports lower artifact [.results, .benchmark, .document] ".jsonl" then do
    verifyIntegrity rt artifact
    let records ← jsonlRecords rt artifact.content
    let found ← probeLeaves lower artifact JSONL_ADAPTER "JSONL field" (commonLeaves records)
    pure (some found)
  else .ok none

/-- The observation of one record. -/
def extractRecord (mappings : List (FieldMapping ut)) (metric : FieldMapping ut) (index : Nat)
    (record : Json) : Except Error ExtractedObservation := do
  let provenance ← adapterProvenance artifact JSONL_ADAPTER
    (lit "record[" ++ natText index ++ lit "]" ++ metric.selector.expression)
    (decide (lit "inferred=true" <:+: metric.provenance.detail))
  structuredObservation rt record mappings metric provenance

/-- The observations of the records from an index on. -/
def extractRecords (mappings : List (FieldMapping ut)) (metric : FieldMapping ut) (index : Nat) :
    List Json → Except Error (List ExtractedObservation)
  | [] => .ok []
  | record :: rest => do
    let observation ← extractRecord rt artifact mappings metric index record
    let others ← extractRecords mappings metric (index + 1) rest
    pure (observation :: others)

/-- `JsonLinesAdapter.extract`. -/
def extractJsonLines (found : ProbeMatch ut) : Except Error (ExtractedEvidence ut) := do
  verifyIntegrity rt artifact
  let records ← jsonlRecords rt artifact.content
  let mappings ← validateMatch rt artifact found JSONL_ADAPTER .jsonPointer RESULT_TARGETS
  match mappingFor "metric_value" mappings with
  | none => .error (ambiguousEvidence "JSONL")
  | some metric => do
    let observations ← extractRecords rt artifact mappings metric 0 records
    pure ⟨structuredEvidenceId rt artifact JSONL_ADAPTER "1" found.mappings, artifact, found,
      observations⟩

end Jsonl

end ClaimCI
