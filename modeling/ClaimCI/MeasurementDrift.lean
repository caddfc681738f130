import ClaimCI.Analysis.Contracts
import ClaimCI.Audit
import ClaimCI.DatasetCommitment
import ClaimCI.DottedLeaves

/-!
# Measurement drift

The comparison of the protocols that the measurement recovers from the inputs of the native audit,
and its agreement with the audit's own comparison of the evaluation mappings.
-/

open Python

namespace ClaimCI

/-! ### The comparison -/

structure MeasurementSource where
  sourceSnapshotId : Str
  bindings : SourceBindings

structure MeasurementAuditContext where
  baselineSource : MeasurementSource
  candidateSource : MeasurementSource
  policyId : Str

structure MeasurementProtocolIdentity where
  semanticProtocolId : Str
  sourceSnapshotId : Str
  components : List MeasurementProtocolComponent

/-- `MeasurementProtocolIdentity.from_components`. -/
def protocolFromComponents (rt : Runtime) (policyId : Str) (source : MeasurementSource)
    (components : List MeasurementProtocolComponent) : MeasurementProtocolIdentity :=
  let ordered := sortBy (fun component => component.kind.value) components
  let material : Json := .object [("domain", .str "claimci.measurement-protocol"),
    ("schema_version", .str "v1"), ("policy_id", .str policyId),
    ("components", .array (ordered.map fun component =>
      .object [("kind", .str component.kind.value),
        ("semantic_component_id", .str (component.identity rt))]))]
  ⟨(measurementDigest rt (lit "measurement-semantic") material).getD [], source.sourceSnapshotId,
    ordered⟩

structure MeasurementDriftFinding where
  componentKind : MeasurementComponentKind
  state : MeasurementDriftState
  reasonCode : Str
  baselineComponentId : Option Str
  candidateComponentId : Option Str
  nativeRuleIds : List Str

/-- The bound on the rules a finding refers to; its identifiers are canonical as they are built. -/
def MeasurementDriftFinding.checked (finding : MeasurementDriftFinding) :
    Except Error MeasurementDriftFinding :=
  if 8 < finding.nativeRuleIds.length then
    .error (measurementError "measurement native rule references exceed bound")
  else .ok finding

/-- The native rules that say why something is missing. -/
def isInsufficientRule (ruleId : Str) : Bool :=
  ruleId == lit "CONFIG.MISSING_FIELDS" || ruleId == lit "BENCHMARK.PROCEDURE_INSUFFICIENT" ||
    (lit "DATASET.MISSING").isPrefixOf ruleId || (lit "DATASET.INVALID").isPrefixOf ruleId

/-- The native rules that a difference between components of a kind invalidates with. -/
def MeasurementComponentKind.mismatchRules : MeasurementComponentKind → List Str
  | evaluationDataset =>
    ["DATASET.EVALUATION_MISMATCH", "CONFIG.EVALUATION_MISMATCH", "BENCHMARK.WORKLOAD_MISMATCH"]
  | metric => ["CONFIG.EVALUATION_MISMATCH", "BENCHMARK.METRIC_MISMATCH"]
  | _ => ["CONFIG.EVALUATION_MISMATCH", "BENCHMARK.CONFIG_MISMATCH"]

/-- `sorted(rule_id for rule_id in native_rule_ids if ...)`, over a set. -/
def chosenRules (chosen : Str → Bool) (nativeRuleIds : List Str) : List Str :=
  sortBy id (nativeRuleIds.dedup.filter chosen)

/-- `_component_state`, of two components that are both there. -/
def comparedState (rt : Runtime) (kind : MeasurementComponentKind)
    (baseline candidate : MeasurementProtocolComponent) (nativeRuleIds : List Str) :
    MeasurementDriftState × Str × List Str :=
  if baseline.coverage = .notApplicable ∧ candidate.coverage = .notApplicable then
    (.notAssessed, lit "optional_component_not_represented", [])
  -- what is missing decides before what is known by its bytes only
  else if baseline.coverage = .missing ∨ candidate.coverage = .missing then
    (.insufficient, lit "required_component_not_recovered",
      chosenRules isInsufficientRule nativeRuleIds)
  else if baseline.coverage = .byteOnly ∨ candidate.coverage = .byteOnly then
    if baseline.sourceBindingIds ≠ candidate.sourceBindingIds then
      (.warning, lit "source_snapshot_changed_without_semantic_recovery", [])
    else (.notAssessed, lit "byte_identity_only", [])
  else if baseline.identity rt = candidate.identity rt then
    (.verified, lit "recovered_semantics_match", [])
  else
    let invalidating := chosenRules kind.mismatchRules.contains nativeRuleIds
    -- a difference that no native rule compares is insufficient, not invalidating
    if invalidating ≠ [] then
      (.invalidates, lit "recovered_measurement_semantics_differ", invalidating)
    else
      (.insufficient, lit "semantic_difference_has_no_native_comparison",
        chosenRules isInsufficientRule nativeRuleIds)

/-- `_component_state`. -/
def componentState (rt : Runtime) (kind : MeasurementComponentKind)
    (baseline candidate : Option MeasurementProtocolComponent) (nativeRuleIds : List Str) :
    Except Error MeasurementDriftFinding :=
  let outcome : MeasurementDriftState × Str × List Str :=
    match baseline, candidate with
    | some baseline, some candidate => comparedState rt kind baseline candidate nativeRuleIds
    | _, _ => (.insufficient, lit "component_identity_missing", [])
  MeasurementDriftFinding.checked ⟨kind, outcome.1, outcome.2.1,
    baseline.map (MeasurementProtocolComponent.identity rt),
    candidate.map (MeasurementProtocolComponent.identity rt), outcome.2.2⟩

/-- The component of a kind. -/
def componentOf (kind : MeasurementComponentKind) (components : List MeasurementProtocolComponent) :
    Option MeasurementProtocolComponent :=
  components.find? fun component => component.kind = kind

structure MeasurementDriftReport where
  state : MeasurementDriftState
  baselineSemanticProtocolId : Str
  candidateSemanticProtocolId : Str
  baselineSourceSnapshotId : Str
  candidateSourceSnapshotId : Str
  findings : List MeasurementDriftFinding

/-- The state of a report, from those of its findings. -/
def overallState (states : List MeasurementDriftState) : MeasurementDriftState :=
  if .invalidates ∈ states then .invalidates
  else if .insufficient ∈ states then .insufficient
  else if .warning ∈ states then .warning
  else if .verified ∈ states then .verified
  else .notAssessed

/-- The kinds of either protocol, in the order of their values. -/
def comparedKinds (baseline candidate : MeasurementProtocolIdentity) :
    List MeasurementComponentKind :=
  sortBy MeasurementComponentKind.value
    ((baseline.components ++ candidate.components).map fun component => component.kind).dedup

/-- `_canonical_id`, of a native rule. -/
def checkRuleId (ruleId : Str) : Except Error Unit :=
  if Measurement.boundedText 256 true ruleId = false then
    .error (measurementError "measurement native rule_id must be bounded canonical text")
  else if Measurement.canonicalId ruleId = false then
    .error (measurementError "measurement native rule_id must be a canonical identifier")
  else .ok ()

/-- `compare_measurement_protocols`. -/
def compareMeasurementProtocols (rt : Runtime) (baseline candidate : MeasurementProtocolIdentity)
    (nativeRuleIds : List Str) : Except Error MeasurementDriftReport := do
  rejectIf (128 < nativeRuleIds.length)
    (measurementError "measurement native rule set exceeds bound")
  nativeRuleIds.forM checkRuleId
  let findings ← (comparedKinds baseline candidate).mapM fun kind =>
    componentState rt kind (componentOf kind baseline.components)
      (componentOf kind candidate.components) nativeRuleIds
  .ok ⟨overallState (findings.map fun finding => finding.state), baseline.semanticProtocolId,
    candidate.semanticProtocolId, baseline.sourceSnapshotId, candidate.sourceSnapshotId, findings⟩

/-! ### The audit with a measurement context -/

/-- What the audit knows about one arm: its config, where it loaded, and its evaluation records. -/
structure MeasuredArm where
  config : Option Config
  records : EvaluationRecords

def recoverArm (rt : Runtime) (policyId metric : Str) (source : MeasurementSource)
    (arm : MeasuredArm) : Except Error MeasurementProtocolIdentity := do
  let components ← recoverProtocol rt source.bindings metric arm.config arm.records
  .ok (protocolFromComponents rt policyId source components)

def loadedRecords : Option DatasetHashes → EvaluationRecords
  | none => .absent
  | some dataset => .loaded dataset.hashes

def scannedRecords : Option MultisetIdentity → EvaluationRecords
  | none => .absent
  | some identity => .scanned identity

/-- The findings of the dataset checks of an audit, and the evaluation records of both arms. -/
structure MeasuredDatasets where
  findings : List Finding
  baseline : EvaluationRecords
  candidate : EvaluationRecords

/-- The datasets are loaded, or what a scan found about them is taken. -/
def measuredDatasets (rt : Runtime) (spec : ResearchSpec) :
    Option DatasetScanAuditContext → Except Error MeasuredDatasets
  | none => do
    let baseline ← armDatasets rt spec .baseline
    let candidate ← armDatasets rt spec .candidate
    .ok ⟨baseline.findings ++ candidate.findings ++ alignmentFindings baseline.eval candidate.eval,
      loadedRecords baseline.eval, loadedRecords candidate.eval⟩
  | some context => do
    let checked ← checkStreamingDatasetContext rt context
    let baseline ← evaluationIdentity rt context .baseline
    let candidate ← evaluationIdentity rt context .candidate
    .ok ⟨checked.2, scannedRecords baseline, scannedRecords candidate⟩

def loadedConfig (rt : Runtime) (spec : ResearchSpec) (arm : Arm) : Option Config :=
  (loadConfig rt (spec.arm arm).config).toOption

/-- What the audit hands to the comparison. -/
structure MeasuredAudit where
  baselineArm : MeasuredArm
  candidateArm : MeasuredArm
  baseline : MeasurementProtocolIdentity
  candidate : MeasurementProtocolIdentity
  nativeRuleIds : List Str

/-- The rule of the finding about the metric identity, where its context is given and valid. -/
def metricIdentityRules (verified : Bool) : List Str :=
  if verified then ["RESULT.METRIC_IDENTITY_VERIFIED"] else []

/-- `audit_research` with a measurement context, up to the comparison: every finding counts with its
rule, and both protocols are recovered from what loaded. -/
def measuredAudit (rt : Runtime) (context : MeasurementAuditContext) (spec : ResearchSpec)
    (scan : Option DatasetScanAuditContext) (metricIdentity : Bool) : Except Error MeasuredAudit := do
  let configFindings ← configSection rt spec
  let results ← resultSection rt spec
  let datasets ← measuredDatasets rt spec scan
  let findings := configFindings ++ results.1 ++ datasets.findings
  let baselineArm : MeasuredArm := ⟨loadedConfig rt spec .baseline, datasets.baseline⟩
  let candidateArm : MeasuredArm := ⟨loadedConfig rt spec .candidate, datasets.candidate⟩
  let baseline ← recoverArm rt context.policyId spec.metric context.baselineSource baselineArm
  let candidate ← recoverArm rt context.policyId spec.metric context.candidateSource candidateArm
  .ok ⟨baselineArm, candidateArm, baseline, candidate,
    findings.map (fun finding => finding.ruleId) ++ metricIdentityRules metricIdentity⟩

def MeasuredAudit.report (rt : Runtime) (audit : MeasuredAudit) :
    Except Error MeasurementDriftReport :=
  compareMeasurementProtocols rt audit.baseline audit.candidate audit.nativeRuleIds

/-! ### What an identity commits to -/

theorem identityStyle_ascii : identityStyle.Ascii := ⟨rfl, .nil, .nil⟩

/-- The bytes behind the identity of a component. -/
def MeasurementProtocolComponent.raw (component : MeasurementProtocolComponent) : Bytes :=
  asciiEncode ((canonicalText component.material).getD [])

/-- The field of a material, whose pairs of surrogates are joined. -/
def joinedField (field : Str × Scalar) : Json :=
  .object [("key", .str (joinSurrogates field.1)), ("value", field.2.toJson)]

/-- The material of a component, whose pairs of surrogates are joined. -/
def joinedMaterial (kind : MeasurementComponentKind) (coverage : MeasurementCoverage)
    (fields : Scalars) : Json :=
  .object [("kind", .str (joinSurrogates kind.value)),
    ("scope", .str (joinSurrogates (lit "measurement_procedure"))),
    ("coverage", .str (joinSurrogates coverage.value)),
    ("schema_id", .str (joinSurrogates kind.schemaId)),
    ("semantic_fields", .array (fields.map joinedField))]

theorem Scalar.toJson_joined (s : Scalar) : s.toJson.joined = s.joined.toJson := by
  cases s <;> rfl

theorem material_joined (component : MeasurementProtocolComponent) :
    component.material.joined =
      joinedMaterial component.kind component.coverage (written component.fields) := by
  have fields : Json.joinedItems (component.fields.map fun field =>
      .object [("key", .str field.1), ("value", field.2.toJson)]) =
      (written component.fields).map joinedField := by
    rw [Json.joinedItems_eq, written, List.map_map, List.map_map]
    apply List.map_congr_left
    intro field _
    simp only [Function.comp, Json.joined, Json.joinedMembers, joinedField, Scalar.toJson_joined]
  simp only [MeasurementProtocolComponent.material, Json.joined, Json.joinedMembers, fields,
    joinedMaterial]

theorem material_dumpable {component : MeasurementProtocolComponent}
    (bounded : ∀ field ∈ component.fields, field.2.bounded = true) :
    component.material.dumpable = true := by
  have fields : Json.itemsDumpable (component.fields.map fun field =>
      .object [("key", .str field.1), ("value", field.2.toJson)]) = true := by
    generalize component.fields = fields at bounded
    induction fields with
    | nil => rfl
    | cons field rest ih =>
      obtain ⟨first, others⟩ := List.forall_mem_cons.mp bounded
      have scalar : field.2.toJson.dumpable = true := by
        cases kept : field.2 with
        | int n =>
          rw [kept] at first
          exact first
        | _ => rfl
      rw [List.map_cons, Json.itemsDumpable, ih others]
      simp [Json.dumpable, Json.membersDumpable, scalar]
  simp [MeasurementProtocolComponent.material, Json.dumpable, Json.membersDumpable, fields]

theorem canonicalText_joined (component : MeasurementProtocolComponent)
    (bounded : ∀ field ∈ component.fields, field.2.bounded = true) :
    ∃ text, canonicalText component.material = some text ∧ Ascii text ∧
      dumps identityStyle (joinedMaterial component.kind component.coverage
        (written component.fields)) = some text := by
  have encoded := dumps_joined identityStyle rfl component.material
  rw [material_joined] at encoded
  rw [canonicalText, encoded]
  cases found : dumps identityStyle component.material with
  | none =>
    rw [dumps, material_dumpable bounded] at found
    cases found
  | some text => exact ⟨text, rfl, dumps_ascii identityStyle_ascii found, rfl⟩

theorem joinedMaterial_distinctKeys (kind : MeasurementComponentKind)
    (coverage : MeasurementCoverage) (fields : Scalars) :
    (joinedMaterial kind coverage fields).DistinctKeys := by
  have items : Json.itemsDistinctKeys (fields.map joinedField) := by
    induction fields with
    | nil => trivial
    | cons field rest ih =>
      have scalar : field.2.toJson.DistinctKeys := by cases field.2 <;> trivial
      have keys : [lit "key", lit "value"].Nodup := by decide
      exact ⟨⟨keys, trivial, scalar, trivial⟩, ih⟩
  have keys : [lit "kind", lit "scope", lit "coverage", lit "schema_id",
      lit "semantic_fields"].Nodup := by decide
  exact ⟨keys, trivial, trivial, trivial, trivial, items, trivial⟩

theorem joinedMaterial_kept (kind : MeasurementComponentKind) (coverage : MeasurementCoverage)
    {fields : Scalars} (joined : ∀ field ∈ fields, field.2.joined = field.2) :
    (joinedMaterial kind coverage fields).Kept true := by
  have string : ∀ s : Str, (Json.str (joinSurrogates s)).Kept true := joinSurrogates_joined
  have items : Json.itemsKept true (fields.map joinedField) := by
    induction fields with
    | nil => trivial
    | cons field rest ih =>
      obtain ⟨first, others⟩ := List.forall_mem_cons.mp joined
      have scalar : field.2.toJson.Kept true := by
        cases kept : field.2 with
        | str t =>
          rw [kept] at first
          exact Scalar.str.inj first
        | _ => trivial
      refine ⟨⟨?_, string _, ?_, scalar, trivial⟩, ih others⟩
      · decide
      · decide
  refine ⟨?_, string _, ?_, string _, ?_, string _, ?_, string _, ?_, items, trivial⟩ <;> decide

theorem joinedField_sorted (field : Str × Scalar) : (joinedField field).sorted = joinedField field := by
  have scalar : field.2.toJson.sorted = field.2.toJson := by
    cases field.2 <;> rfl
  have order : strLe (lit "key") (lit "value") = true := by decide
  simp [joinedField, Json.sorted, Json.sortedMembers, scalar, order]

theorem sortedItems_joinedField (fields : Scalars) :
    Json.sortedItems (fields.map joinedField) = fields.map joinedField := by
  induction fields with
  | nil => rfl
  | cons field rest ih => rw [List.map_cons, Json.sortedItems, ih, joinedField_sorted]

theorem joinedField_injective {field other : Str × Scalar}
    (key : joinSurrogates field.1 = field.1) (otherKey : joinSurrogates other.1 = other.1)
    (h : joinedField field = joinedField other) : field = other := by
  obtain ⟨first, rest⟩ := List.cons.inj (Json.object.inj h)
  obtain ⟨second, _⟩ := List.cons.inj rest
  have keys : joinSurrogates field.1 = joinSurrogates other.1 := Json.str.inj (Prod.mk.inj first).2
  have values : field.2.toJson = other.2.toJson := (Prod.mk.inj second).2
  have scalars : field.2 = other.2 := by
    cases left : field.2 <;> cases right : other.2 <;> rw [left, right] at values <;>
      cases values <;> rfl
  rw [key, otherKey] at keys
  exact Prod.ext keys scalars

/-- The material tells the fields, as far as they are written. -/
theorem joinedMaterial_fields {kind : MeasurementComponentKind} {coverage : MeasurementCoverage}
    {fields others : Scalars} (keys : ∀ field ∈ fields, joinSurrogates field.1 = field.1)
    (otherKeys : ∀ field ∈ others, joinSurrogates field.1 = field.1)
    (h : (joinedMaterial kind coverage fields).sorted =
      (joinedMaterial kind coverage others).sorted) : fields = others := by
  have members := Json.object.inj (by simpa only [joinedMaterial, Json.sorted] using h)
  have here : (lit "semantic_fields", Json.array (fields.map joinedField)) ∈ Json.sortedMembers
      [("kind", .str (joinSurrogates kind.value)),
        ("scope", .str (joinSurrogates (lit "measurement_procedure"))),
        ("coverage", .str (joinSurrogates coverage.value)),
        ("schema_id", .str (joinSurrogates kind.schemaId)),
        ("semantic_fields", .array (others.map joinedField))] := by
    rw [← (List.perm_insertionSort (fun a b : Str × Json => strLe a.1 b.1 = true) _).mem_iff,
      ← members, (List.perm_insertionSort _ _).mem_iff]
    simp [Json.sortedMembers, Json.sorted, sortedItems_joinedField]
  have others_ne : lit "semantic_fields" ≠ lit "kind" ∧ lit "semantic_fields" ≠ lit "scope" ∧
      lit "semantic_fields" ≠ lit "coverage" ∧ lit "semantic_fields" ≠ lit "schema_id" := by decide
  simp only [Json.sortedMembers, Json.sorted, sortedItems_joinedField, List.mem_cons, Prod.mk.injEq,
    others_ne.1, others_ne.2.1, others_ne.2.2.1, others_ne.2.2.2, false_and, false_or, true_and,
    List.not_mem_nil, or_false, Json.array.injEq] at here
  clear h members others_ne
  -- both lists are written field by field in the same order
  induction fields generalizing others with
  | nil =>
    cases others with
    | nil => rfl
    | cons other others => cases here
  | cons field rest ih =>
    cases others with
    | nil => cases here
    | cons other others =>
      obtain ⟨key, keys⟩ := List.forall_mem_cons.mp keys
      obtain ⟨otherKey, otherKeys⟩ := List.forall_mem_cons.mp otherKeys
      obtain ⟨first, later⟩ := List.cons.inj here
      rw [joinedField_injective key otherKey first, ih keys otherKeys later]

/-- Fields as a component has them: canonical keys and bounded values. -/
structure GoodFields (fields : Scalars) : Prop where
  keys : ∀ field ∈ fields, joinSurrogates field.1 = field.1
  bounded : ∀ field ∈ fields, field.2.bounded = true

theorem joined_joined (s : Scalar) : s.joined.joined = s.joined := by
  cases s with
  | str t => exact congrArg Scalar.str (joinSurrogates_joined t)
  | _ => rfl

/-- Two components of one kind have one identity when their fields are written alike, and only
then, as far as the digest tells their materials apart. -/
theorem componentIdentity_eq_iff {rt : Runtime} {component other : MeasurementProtocolComponent}
    (sameKind : component.kind = other.kind) (sameCoverage : component.coverage = other.coverage)
    (good : GoodFields component.fields) (otherGood : GoodFields other.fields)
    (distinct : DigestsDistinct rt [component.raw, other.raw]) :
    component.identity rt = other.identity rt ↔ written component.fields = written other.fields := by
  obtain ⟨text, encoded, ascii, joined⟩ := canonicalText_joined component good.bounded
  obtain ⟨otherText, otherEncoded, otherAscii, otherJoined⟩ :=
    canonicalText_joined other otherGood.bounded
  have identity : component.identity rt =
      lit "measurement-component" ++ lit "-" ++ rt.sha256 (asciiEncode text) := by
    rw [MeasurementProtocolComponent.identity, measurementDigest, encoded]
    rfl
  have otherIdentity : other.identity rt =
      lit "measurement-component" ++ lit "-" ++ rt.sha256 (asciiEncode otherText) := by
    rw [MeasurementProtocolComponent.identity, measurementDigest, otherEncoded]
    rfl
  rw [identity, otherIdentity, List.append_cancel_left_eq]
  -- keys and values of good fields survive the encoding to UTF-8
  have writtenKeys : ∀ {fields : Scalars}, GoodFields fields →
      ∀ field ∈ written fields, joinSurrogates field.1 = field.1 := by
    intro fields good field member
    obtain ⟨source, inside, rfl⟩ := List.mem_map.mp member
    exact good.keys source inside
  have writtenJoined : ∀ fields : Scalars, ∀ field ∈ written fields, field.2.joined = field.2 := by
    intro fields field member
    obtain ⟨source, inside, rfl⟩ := List.mem_map.mp member
    exact joined_joined source.2
  constructor
  -- equal identities are equal digests, and these encodings are told apart
  · intro same
    have raws := distinct component.raw (by simp) other.raw (by simp) (by
      simpa only [MeasurementProtocolComponent.raw, encoded, otherEncoded, Option.getD_some] using same)
    simp only [MeasurementProtocolComponent.raw, encoded, otherEncoded, Option.getD_some] at raws
    obtain rfl := asciiEncode_injective ascii otherAscii raws
    rw [← sameKind, ← sameCoverage] at otherJoined
    apply joinedMaterial_fields (writtenKeys good) (writtenKeys otherGood)
    exact dumps_injective_of_kept identityStyle ⟨by simp [identityStyle], by simp [identityStyle]⟩
      rfl _ _ (joinedMaterial_distinctKeys _ _ _) (joinedMaterial_distinctKeys _ _ _)
      (joinedMaterial_kept _ _ (writtenJoined _)) (joinedMaterial_kept _ _ (writtenJoined _)) text
      joined otherJoined
  · intro same
    rw [← sameKind, ← sameCoverage, ← same, joined] at otherJoined
    rw [Option.some.inj otherJoined]

/-! ### The evaluation-config component -/

/-- The mapping can be an evaluation-config component: it flattens, to between one and 32 fields
whose keys are canonical. -/
structure Recoverable (evaluation : List (Value × Value)) : Prop where
  flattens : Flattens evaluation
  some : topLeaves evaluation ≠ []
  few : (keysOf (topLeaves evaluation)).dedup.length ≤ 32
  canonical : ∀ leaf ∈ topLeaves evaluation,
    Measurement.canonicalId (lit "evaluation." ++ leaf.1) = true

theorem mem_keysOf_flattenedFields {evaluation : List (Value × Value)} {key : Str} :
    key ∈ keysOf (flattenedFields evaluation) ↔ key ∈ keysOf (topLeaves evaluation) := by
  rw [← not_iff_not, ← lookupKey_eq_none_iff, ← lookupKey_eq_none_iff, lookupKey_flattenedFields,
    Option.map_eq_none_iff]

theorem flattenedFields_length (evaluation : List (Value × Value)) :
    (flattenedFields evaluation).length = (keysOf (topLeaves evaluation)).dedup.length := by
  have perm : (keysOf (flattenedFields evaluation)).Perm (keysOf (topLeaves evaluation)).dedup := by
    rw [List.perm_ext_iff_of_nodup (flattenedFields_nodup evaluation) (List.nodup_dedup _)]
    intro key
    rw [mem_keysOf_flattenedFields, List.mem_dedup]
  rw [← perm.length_eq, keysOf, List.length_map]

/-- Every field is some leaf. -/
theorem field_of_flattenedFields {evaluation : List (Value × Value)} {field : Str × Scalar}
    (member : field ∈ flattenedFields evaluation) :
    ∃ leaf ∈ topLeaves evaluation, leafScalar leaf = field := by
  obtain ⟨key, s⟩ := field
  rw [← lookupKey_eq_some_iff (flattenedFields_nodup evaluation), lookupKey_flattenedFields,
    Option.map_eq_some_iff] at member
  obtain ⟨v, found, rfl⟩ := member
  exact ⟨(key, v), mem_of_lookupKey found, rfl⟩

/-- The values of the evaluation-config component. -/
def configValues (evaluation : List (Value × Value)) : Scalars :=
  evaluationFields (fun _ => true) (flattenedFields evaluation)

theorem configValues_eq (evaluation : List (Value × Value)) : configValues evaluation =
    (flattenedFields evaluation).map fun field => (lit "evaluation." ++ field.1, field.2) := by
  rw [configValues, evaluationFields, List.filter_true]

theorem semanticFields_some {values fields : Scalars} (h : semanticFields values = some fields) :
    fields = sortBy Prod.fst values ∧ values.length ≤ 32 ∧
      ∀ field ∈ values, Measurement.canonicalId field.1 = true ∧ field.2.bounded = true := by
  rw [semanticFields] at h
  split at h
  · cases h
  next few =>
    split at h
    next good =>
      refine ⟨(Option.some.inj h).symm, Nat.le_of_not_lt few, fun field member => ?_⟩
      have both := List.all_eq_true.mp good field member
      rwa [Bool.and_eq_true] at both
    · cases h

theorem recovered_iff {evaluation : List (Value × Value)} (flat : Flattens evaluation) :
    (∃ fields, semanticFields (configValues evaluation) = some fields ∧ fields ≠ []) ↔
      Recoverable evaluation := by
  -- every leaf has a key of its own, so their number is what the code counts
  have count : (configValues evaluation).length = (keysOf (topLeaves evaluation)).dedup.length := by
    rw [configValues_eq, List.length_map, flattenedFields_length]
  constructor
  · rintro ⟨fields, found, nonempty⟩
    obtain ⟨rfl, few, good⟩ := semanticFields_some found
    refine ⟨flat, ?_, count ▸ few, ?_⟩
    · intro none
      rw [none] at count
      apply nonempty
      rw [List.eq_nil_of_length_eq_zero count]
      rfl
    · intro leaf member
      have key : leaf.1 ∈ keysOf (flattenedFields evaluation) :=
        mem_keysOf_flattenedFields.mpr (List.mem_map_of_mem member)
      obtain ⟨field, inside, named⟩ := List.mem_map.mp key
      rw [← named]
      refine (good (lit "evaluation." ++ field.1, field.2) ?_).1
      rw [configValues_eq]
      exact List.mem_map_of_mem inside
  -- under the condition no field is dropped on the way
  · intro recoverable
    have good : ((configValues evaluation).all fun field =>
        Measurement.canonicalId field.1 && field.2.bounded) = true := by
      rw [List.all_eq_true]
      intro field member
      rw [configValues_eq] at member
      obtain ⟨source, inside, rfl⟩ := List.mem_map.mp member
      obtain ⟨leaf, here, rfl⟩ := field_of_flattenedFields inside
      rw [Bool.and_eq_true]
      exact ⟨recoverable.canonical leaf here, flat.bounded leaf here⟩
    refine ⟨sortBy Prod.fst (configValues evaluation), ?_, ?_⟩
    · rw [semanticFields, if_neg (by rw [count]; exact Nat.not_lt.mpr recoverable.few), if_pos good]
    · intro none
      have empty : (configValues evaluation).length = 0 := by
        rw [← (sortBy_perm_self Prod.fst (configValues evaluation)).length_eq, none]
        rfl
      obtain ⟨leaf, rest, leaves⟩ := List.exists_cons_of_ne_nil recoverable.some
      have key : leaf.1 ∈ (keysOf (topLeaves evaluation)).dedup := by
        rw [List.mem_dedup, leaves]
        exact List.mem_cons_self
      rw [count, List.length_eq_zero_iff] at empty
      rw [empty] at key
      cases key

theorem componentFromValues_cases (kind : MeasurementComponentKind) (values : Option Scalars)
    (ids : List Str) :
    (∃ fields, values.bind semanticFields = some fields ∧ fields ≠ [] ∧
      componentFromValues kind values ids true = ⟨kind, .recovered, fields, ids⟩) ∨
    ((¬∃ fields, values.bind semanticFields = some fields ∧ fields ≠ []) ∧
      componentFromValues kind values ids true = ⟨kind, .missing, [], ids⟩) := by
  rw [componentFromValues]
  cases found : values.bind semanticFields with
  | none => exact .inr ⟨by simp, rfl⟩
  | some fields =>
    cases fields with
    | nil => exact .inr ⟨by simp, rfl⟩
    | cons field fields => exact .inl ⟨_, rfl, by simp, rfl⟩

theorem canonicalId_small {s : Str} (h : Measurement.canonicalId s = true) :
    joinSurrogates s = s := by
  have small : ∀ c ∈ s, c.val < 0xD800 := by
    simp only [Measurement.canonicalId, Bool.and_eq_true, List.all_eq_true] at h
    obtain ⟨_, first, rest⟩ := h
    have alphanumeric : ∀ c : CodePoint, isAsciiAlphanumeric c = true → c.val < 0xD800 := by
      intro c h
      simp only [isAsciiAlphanumeric, Bool.or_eq_true, Bool.and_eq_true, decide_eq_true_eq] at h
      omega
    cases s with
    | nil => intro c member; cases member
    | cons d s =>
      refine List.forall_mem_cons.mpr ⟨alphanumeric d first, fun c member => ?_⟩
      have inside := rest c member
      rw [isIdCharacter, Bool.or_eq_true] at inside
      rcases inside with plain | mark
      · exact alphanumeric c plain
      · have marks : ((lit "._:/+-").all fun c => decide (c.val < 0xD800)) = true := by decide
        exact decide_eq_true_eq.mp (List.all_eq_true.mp marks c (List.contains_iff_mem.mp mark))
  exact rereadStr_of_small true s small

theorem goodFields {values fields : Scalars} (h : semanticFields values = some fields) :
    GoodFields fields := by
  obtain ⟨rfl, _, good⟩ := semanticFields_some h
  constructor
  · intro field member
    exact canonicalId_small (good field ((sortBy_perm_self Prod.fst values).mem_iff.mp member)).1
  · intro field member
    exact (good field ((sortBy_perm_self Prod.fst values).mem_iff.mp member)).2

theorem written_sortBy (fields : Scalars) :
    written (sortBy Prod.fst fields) = sortBy Prod.fst (written fields) :=
  List.map_insertionSort (r := fun a b : Str × Scalar => strLe a.1 b.1 = true)
    (s := fun a b : Str × Scalar => strLe a.1 b.1 = true) _ _ fun _ _ _ _ => Iff.rfl

/-- The values of two evaluation-config components are written alike when the fields of the mappings
are. -/
theorem written_configValues_iff (evaluation others : List (Value × Value)) :
    written (sortBy Prod.fst (configValues evaluation)) =
        written (sortBy Prod.fst (configValues others)) ↔
      written (flattenedFields evaluation) = written (flattenedFields others) := by
  have prefixed : ∀ fields : Scalars,
      written (fields.map fun field => (lit "evaluation." ++ field.1, field.2)) =
        (written fields).map fun field => (lit "evaluation." ++ field.1, field.2) := by
    intro fields
    rw [written, written, List.map_map, List.map_map]
    rfl
  have injective : Function.Injective fun field : Str × Scalar =>
      (lit "evaluation." ++ field.1, field.2) := by
    rintro ⟨key, v⟩ ⟨other, w⟩ same
    obtain ⟨keys, rfl⟩ := Prod.mk.inj same
    exact Prod.ext (List.append_cancel_left keys) rfl
  rw [written_sortBy, written_sortBy, configValues_eq, configValues_eq, prefixed, prefixed]
  constructor
  · intro same
    have perm := sortBy_perm_self Prod.fst ((written (flattenedFields evaluation)).map fun field =>
      (lit "evaluation." ++ field.1, field.2))
    rw [same] at perm
    replace perm := perm.symm.trans (sortBy_perm_self Prod.fst _)
    have back : (written (flattenedFields evaluation)).Perm (written (flattenedFields others)) :=
      (List.map_perm_map_iff injective).mp perm
    obtain ⟨distinct, sorted⟩ := written_sorted evaluation
    obtain ⟨otherDistinct, otherSorted⟩ := written_sorted others
    rw [← sorted, ← otherSorted]
    apply sortBy_eq_of_lookup distinct otherDistinct
    intro key
    ext s
    rw [lookupKey_eq_some_iff distinct, lookupKey_eq_some_iff otherDistinct, back.mem_iff]
  · intro same
    rw [same]

/-! ### Reports -/

theorem checked_ok {finding result : MeasurementDriftFinding} (h : finding.checked = .ok result) :
    result = finding := by
  rw [MeasurementDriftFinding.checked] at h
  split at h
  · cases h
  · exact (Except.ok.inj h).symm

/-- What a report says about the kinds of its two protocols. -/
structure Reports (rt : Runtime) (audit : MeasuredAudit) (report : MeasurementDriftReport) :
    Prop where
  state : report.state = overallState (report.findings.map fun finding => finding.state)
  compared : ∀ finding ∈ report.findings, componentState rt finding.componentKind
    (componentOf finding.componentKind audit.baseline.components)
    (componentOf finding.componentKind audit.candidate.components) audit.nativeRuleIds = .ok finding
  complete : ∀ kind ∈ comparedKinds audit.baseline audit.candidate,
    ∃ finding ∈ report.findings, finding.componentKind = kind

theorem reports_of_ok {rt : Runtime} {audit : MeasuredAudit} {report : MeasurementDriftReport}
    (h : audit.report rt = .ok report) : Reports rt audit report := by
  unfold MeasuredAudit.report compareMeasurementProtocols at h
  obtain ⟨_, _, h⟩ := bind_ok_iff.mp h
  obtain ⟨_, _, h⟩ := bind_ok_iff.mp h
  obtain ⟨findings, compared, h⟩ := bind_ok_iff.mp h
  obtain rfl := Except.ok.inj h
  have pairs := mapM_ok compared
  have kindOf : ∀ {kind finding}, componentState rt kind (componentOf kind audit.baseline.components)
      (componentOf kind audit.candidate.components) audit.nativeRuleIds = .ok finding →
      finding.componentKind = kind := by
    intro kind finding state
    rw [checked_ok state]
  refine ⟨rfl, ?_, ?_⟩
  · intro finding member
    obtain ⟨kind, _, state⟩ := pairs.1 finding member
    rw [kindOf state, state]
  · intro kind member
    obtain ⟨finding, inside, state⟩ := pairs.2 kind member
    exact ⟨finding, inside, kindOf state⟩

/-! ### Recovered arms -/

theorem componentFromValues_kind (kind : MeasurementComponentKind) (values : Option Scalars)
    (ids : List Str) (required : Bool) :
    (componentFromValues kind values ids required).kind = kind := by
  rw [componentFromValues]
  split
  · rfl
  · split <;> rfl

theorem componentOf_of_mem {components : List MeasurementProtocolComponent}
    {component : MeasurementProtocolComponent}
    (distinct : (components.map fun component => component.kind).Nodup)
    (member : component ∈ components) : componentOf component.kind components = some component := by
  induction components with
  | nil => cases member
  | cons first rest ih =>
    obtain ⟨fresh, distinct⟩ := List.nodup_cons.mp distinct
    rw [componentOf, List.find?_cons]
    rcases List.mem_cons.mp member with rfl | later
    · simp
    · have other : first.kind ≠ component.kind := by
        intro same
        exact fresh (List.mem_map.mpr ⟨component, later, same.symm⟩)
      simp only [other, decide_false]
      exact ih distinct later

theorem recoverComponents_kinds (source : SourceBindings) (metric : Str)
    (evaluation dataset : Option Scalars) :
    ((recoverComponents source metric evaluation dataset).map fun component => component.kind).Nodup := by
  simp only [recoverComponents, OPTIONAL_COMPONENTS, List.map_append, List.map_cons, List.map_nil,
    componentFromValues_kind]
  decide

/-- What a protocol that was recovered for an arm consists of. -/
structure Recovered (rt : Runtime) (arm : MeasuredArm) (protocol : MeasurementProtocolIdentity)
    (flat dataset : Option Scalars) (configIds datasetIds : List Str) : Prop where
  flattened : flattenEvaluation arm.config = .ok flat
  values : datasetValues rt flat arm.records = .ok dataset
  config : componentOf .evaluationConfig protocol.components =
    some (componentFromValues .evaluationConfig (flat.map (evaluationFields fun _ => true)) configIds
      true)
  data : componentOf .evaluationDataset protocol.components =
    some (componentFromValues .evaluationDataset dataset datasetIds true)
  kinds : .evaluationConfig ∈ protocol.components.map (fun component => component.kind) ∧
    .evaluationDataset ∈ protocol.components.map (fun component => component.kind)

theorem recoverArm_ok {rt : Runtime} {policyId metric : Str} {source : MeasurementSource}
    {arm : MeasuredArm} {protocol : MeasurementProtocolIdentity}
    (h : recoverArm rt policyId metric source arm = .ok protocol) :
    ∃ flat dataset configIds datasetIds,
      Recovered rt arm protocol flat dataset configIds datasetIds := by
  unfold recoverArm recoverProtocol at h
  obtain ⟨components, recovered, h⟩ := bind_ok_iff.mp h
  obtain rfl := Except.ok.inj h
  split at recovered
  · cases recovered
  obtain ⟨flat, flattened, recovered⟩ := bind_ok_iff.mp recovered
  obtain ⟨dataset, values, recovered⟩ := bind_ok_iff.mp recovered
  obtain rfl := Except.ok.inj recovered
  -- sorting by kind permutes the components, which have one kind each
  have perm := sortBy_perm_self (fun component => component.kind.value)
    (recoverComponents source.bindings metric flat dataset)
  have distinct := (perm.map fun component => component.kind).nodup_iff.mpr
    (recoverComponents_kinds source.bindings metric flat dataset)
  have found : ∀ component ∈ recoverComponents source.bindings metric flat dataset,
      componentOf component.kind (sortBy (fun component => component.kind.value)
        (recoverComponents source.bindings metric flat dataset)) = some component :=
    fun component member => componentOf_of_mem distinct (perm.mem_iff.mpr member)
  have config := found (componentFromValues .evaluationConfig
    (flat.map (evaluationFields fun _ => true)) source.bindings.config true)
    (by simp [recoverComponents])
  have data := found (componentFromValues .evaluationDataset dataset
    (sortBy id (source.bindings.config ++ source.bindings.evalDataset)) true)
    (by simp [recoverComponents])
  rw [componentFromValues_kind] at config data
  have member : ∀ {kind component}, componentOf kind (sortBy (fun component => component.kind.value)
      (recoverComponents source.bindings metric flat dataset)) = some component →
      kind ∈ (sortBy (fun component => component.kind.value)
        (recoverComponents source.bindings metric flat dataset)).map fun component =>
          component.kind := by
    intro kind component some
    have same := List.find?_some some
    exact List.mem_map.mpr ⟨component, List.mem_of_find?_eq_some some, by simpa using same⟩
  exact ⟨flat, dataset, _, _, flattened, values, config, data, member config, member data⟩

/-- The component that is recovered from an evaluation mapping. -/
def recoveredConfig (evaluation : List (Value × Value)) (ids : List Str) :
    MeasurementProtocolComponent :=
  ⟨.evaluationConfig, .recovered, sortBy Prod.fst (configValues evaluation), ids⟩

/-- The evaluation-config component of an arm is recovered from a mapping that can be one, and is
missing otherwise. -/
theorem configComponent_cases {rt : Runtime} {arm : MeasuredArm}
    {protocol : MeasurementProtocolIdentity} {flat dataset : Option Scalars}
    {configIds datasetIds : List Str}
    (h : Recovered rt arm protocol flat dataset configIds datasetIds) :
    (∃ evaluation, evaluationOf arm.config = some evaluation ∧ Recoverable evaluation ∧
      componentOf .evaluationConfig protocol.components =
        some (recoveredConfig evaluation configIds)) ∨
    (¬∃ evaluation, evaluationOf arm.config = some evaluation ∧ Recoverable evaluation) ∧
      componentOf .evaluationConfig protocol.components =
        some ⟨.evaluationConfig, .missing, [], configIds⟩ := by
  have flattened := flattenEvaluation_ok h.flattened
  rw [h.config]
  rcases componentFromValues_cases .evaluationConfig (flat.map (evaluationFields fun _ => true))
    configIds with ⟨fields, found, nonempty, component⟩ | ⟨none, component⟩
  · left
    rw [Option.bind_map] at found
    obtain ⟨kept, some, fieldsFound⟩ := Option.bind_eq_some_iff.mp found
    rw [flattened, Option.bind_eq_some_iff] at some
    obtain ⟨evaluation, mapping, some⟩ := some
    split at some
    next flat =>
      obtain rfl := Option.some.inj some
      refine ⟨evaluation, mapping, (recovered_iff flat).mp ⟨fields, fieldsFound, nonempty⟩, ?_⟩
      rw [component, (semanticFields_some fieldsFound).1]
      rfl
    · cases some
  · right
    refine ⟨?_, by rw [component]⟩
    rintro ⟨evaluation, mapping, recoverable⟩
    apply none
    rw [flattened, mapping]
    simp only [Option.bind_some, if_pos recoverable.flattens, Option.map_some]
    exact (recovered_iff recoverable.flattens).mpr recoverable

/-! ### Native rules -/

/-- A rule that an evaluation-config component is invalidated with. -/
def IsConfigMismatch (ruleId : Str) : Prop :=
  ruleId = lit "CONFIG.EVALUATION_MISMATCH" ∨ ruleId = lit "BENCHMARK.CONFIG_MISMATCH"

instance (ruleId : Str) : Decidable (IsConfigMismatch ruleId) :=
  inferInstanceAs (Decidable (_ ∨ _))

/-- No finding has such a rule. -/
def NoMismatch (findings : List Finding) : Prop :=
  ∀ finding ∈ findings, ¬IsConfigMismatch finding.ruleId

theorem NoMismatch.nil : NoMismatch [] := by
  intro finding member
  cases member

theorem NoMismatch.append {findings others : List Finding} (left : NoMismatch findings)
    (right : NoMismatch others) : NoMismatch (findings ++ others) :=
  List.forall_mem_append.mpr ⟨left, right⟩

theorem NoMismatch.cons {finding : Finding} {findings : List Finding} (ruleId : Str)
    (rule : finding.ruleId = ruleId) (other : ¬IsConfigMismatch ruleId)
    (rest : NoMismatch findings) : NoMismatch (finding :: findings) :=
  List.forall_mem_cons.mpr ⟨rule ▸ other, rest⟩

theorem NoMismatch.single {finding : Finding} (ruleId : Str) (rule : finding.ruleId = ruleId)
    (other : ¬IsConfigMismatch ruleId) : NoMismatch [finding] := .cons ruleId rule other .nil

theorem NoMismatch.ite {p : Prop} [Decidable p] {findings others : List Finding}
    (left : NoMismatch findings) (right : NoMismatch others) :
    NoMismatch (if p then findings else others) := by
  split
  · exact left
  · exact right

theorem artifactFailure_noMismatch (rt : Runtime) (category : Category) (arm : Arm)
    (path message : Str) : NoMismatch [artifactFailure rt category arm path message] := by
  have invalid : ∀ category : Category, ¬IsConfigMismatch (category.text ++ lit ".INVALID") := by
    intro category
    cases category <;> decide
  have missing : ∀ category : Category, ¬IsConfigMismatch (category.text ++ lit ".MISSING") := by
    intro category
    cases category <;> decide
  apply NoMismatch.single _ rfl
  rw [artifactFailure]
  split
  · exact invalid category
  · exact missing category

theorem failure_noMismatch {α : Type} {rt : Runtime} {category : Category} {arm : Arm} {path : Str}
    {load : Except Error α} {result : Except Finding α}
    (h : attempt rt category arm path load = .ok result) : NoMismatch (failure result) := by
  unfold attempt at h
  split at h
  · obtain rfl := Except.ok.inj h
    exact .nil
  · obtain rfl := Except.ok.inj h
    exact artifactFailure_noMismatch rt category arm path _
  · cases h

theorem attempt_ok {α : Type} {rt : Runtime} {category : Category} {arm : Arm} {path : Str}
    {load : Except Error α} {loaded : α} (h : attempt rt category arm path load = .ok (.ok loaded)) :
    load = .ok loaded := by
  unfold attempt at h
  split at h
  · exact congrArg Except.ok (Except.ok.inj (Except.ok.inj h))
  · cases Except.ok.inj h
  · cases h

/-- Only the comparison of the evaluation mappings has such a rule among the checks of configs. -/
theorem checkConfigs_noMismatch {baseline candidate : Config}
    (same : evaluationFindings baseline candidate = []) :
    NoMismatch (checkConfigs baseline candidate) := by
  have missing : NoMismatch (missingFieldsFindings baseline candidate) :=
    .ite .nil (.single "CONFIG.MISSING_FIELDS" rfl (by decide))
  have compute : NoMismatch (computeFindings baseline candidate) :=
    .ite (.single "CONFIG.COMPUTE_MISMATCH" rfl (by decide)) .nil
  have training : NoMismatch (trainingDatasetFindings baseline candidate) :=
    .ite .nil (.single "CONFIG.TRAINING_DATASET_MISMATCH" rfl (by decide))
  have parameters : NoMismatch (trainingParameterFindings baseline candidate) :=
    .ite .nil (.single "CONFIG.TRAINING_PARAMETER_DIFFERENCE" rfl (by decide))
  have rate : NoMismatch (learningRateFindings baseline candidate) :=
    .ite .nil (.single "CONFIG.LEARNING_RATE_DIFFERENCE" rfl (by decide))
  have model : NoMismatch (modelFindings baseline candidate) :=
    .ite .nil (.single "CONFIG.MODEL_DIFFERENCE" rfl (by decide))
  have fairness : NoMismatch [fairnessVerified baseline candidate] :=
    .single "CONFIG.FAIRNESS_VERIFIED" rfl (by decide)
  rw [checkConfigs, same]
  exact .ite fairness (.append (.append (.append (.append (.append (.append missing compute) .nil)
    training) parameters) rate) model)

theorem evaluationFindings_differ {baseline candidate : Config}
    (h : evaluationFindings baseline candidate ≠ []) :
    sameLookup (valueAt baseline ["evaluation"]) (valueAt candidate ["evaluation"]) = false := by
  rw [evaluationFindings] at h
  split at h
  next mismatch => exact mismatch.2.2
  · exact absurd rfl h

/-- Both configs loaded, with equal evaluation mappings. -/
def MappingsEqual (rt : Runtime) (spec : ResearchSpec) : Prop :=
  ∃ baseline candidate, loadedConfig rt spec .baseline = some baseline ∧
    loadedConfig rt spec .candidate = some candidate ∧
    sameLookup (valueAt baseline ["evaluation"]) (valueAt candidate ["evaluation"]) = true

/-- Both configs loaded, with evaluation mappings that differ. -/
def MappingsDiffer (rt : Runtime) (spec : ResearchSpec) : Prop :=
  ∃ baseline candidate, loadedConfig rt spec .baseline = some baseline ∧
    loadedConfig rt spec .candidate = some candidate ∧
    sameLookup (valueAt baseline ["evaluation"]) (valueAt candidate ["evaluation"]) = false

theorem configSection_mismatch {rt : Runtime} {spec : ResearchSpec} {findings : List Finding}
    (h : configSection rt spec = .ok findings) : NoMismatch findings ∨ MappingsDiffer rt spec := by
  unfold configSection at h
  obtain ⟨baseline, left, h⟩ := bind_ok_iff.mp h
  obtain ⟨candidate, right, h⟩ := bind_ok_iff.mp h
  obtain rfl := Except.ok.inj h
  have failures := (failure_noMismatch left).append (failure_noMismatch right)
  cases baseline with
  | error finding => exact .inl (failures.append .nil)
  | ok b =>
    cases candidate with
    | error finding => exact .inl (failures.append .nil)
    | ok c =>
      by_cases same : evaluationFindings b c = []
      · exact .inl (failures.append (.cons "CONFIG.LOADED" rfl (by decide) (checkConfigs_noMismatch same)))
      · refine .inr ⟨b, c, ?_, ?_, evaluationFindings_differ same⟩
        · rw [loadedConfig, ResearchSpec.arm, attempt_ok left]
          rfl
        · rw [loadedConfig, ResearchSpec.arm, attempt_ok right]
          rfl

theorem runFindings_noMismatch (baseline candidate : LoadedResults) (metric : Str)
    (baselineSummary candidateSummary : MetricSummary) :
    NoMismatch (runFindings baseline candidate metric baselineSummary candidateSummary) := by
  have summary : ∀ (arm : Arm) (loaded : LoadedResults) (summary : MetricSummary),
      NoMismatch (summaryMismatchFinding arm loaded summary).toList := by
    intro arm loaded summary
    rw [summaryMismatchFinding]
    split
    · exact .nil
    · split
      · exact .nil
      · exact .single "RESULT.SUMMARY_MISMATCH" rfl (by decide)
  have seeds : ∀ (arm : Arm) (loaded : LoadedResults), NoMismatch (seedFindings arm loaded) :=
    fun arm loaded => .append (.append (.ite .nil (.single "SEED.MISSING_METADATA" rfl (by decide)))
      (.ite .nil (.single "SEED.DUPLICATE" rfl (by decide))))
      (.ite (.single "SEED.SINGLE_RUN" rfl (by decide)) .nil)
  exact .cons "RESULT.RECOMPUTED" rfl (by decide) (.append (.append (.append (.append
    (summary .baseline baseline baselineSummary) (seeds .baseline baseline))
    (summary .candidate candidate candidateSummary)) (seeds .candidate candidate))
    (.ite (.single "SEED.IMBALANCE" rfl (by decide)) .nil))

theorem checkResults_noMismatch {baseline candidate : LoadedResults} {metric : Str}
    {minimumImprovement : Binary64} {direction : Direction} {checked : ResultCheck}
    (h : checkResults baseline candidate metric minimumImprovement direction = .ok checked) :
    NoMismatch checked.findings := by
  obtain ⟨_, _, claimFinding, compared, findings⟩ := checkResults_ok h
  have claim : NoMismatch [claimFinding] := by
    have rule := (metricSummaryComparison_ok compared).2
    split at rule
    · exact .single _ rule.2 (by decide)
    · exact .single _ rule.2 (by decide)
  rw [findings]
  exact .append (.append (runFindings_noMismatch _ _ _ _ _)
    (.ite .nil (.single "SEED.EVIDENCE_VERIFIED" rfl (by decide)))) claim

theorem resultSection_noMismatch {rt : Runtime} {spec : ResearchSpec}
    {result : List Finding × Option ResultCheck} (h : resultSection rt spec = .ok result) :
    NoMismatch result.1 := by
  unfold resultSection at h
  obtain ⟨baseline, left, h⟩ := bind_ok_iff.mp h
  obtain ⟨candidate, right, h⟩ := bind_ok_iff.mp h
  have failures := (failure_noMismatch left).append (failure_noMismatch right)
  split at h
  · split at h
    next checked =>
      obtain rfl := Except.ok.inj h
      exact checkResults_noMismatch checked
    · obtain rfl := Except.ok.inj h
      exact .single "RESULT.INVALID" rfl (by decide)
    · cases h
  · obtain rfl := Except.ok.inj h
    exact failures

theorem armDatasets_noMismatch {rt : Runtime} {spec : ResearchSpec} {arm : Arm}
    {datasets : ArmDatasets} (h : armDatasets rt spec arm = .ok datasets) :
    NoMismatch datasets.findings := by
  unfold armDatasets at h
  obtain ⟨train, left, h⟩ := bind_ok_iff.mp h
  obtain ⟨eval, right, h⟩ := bind_ok_iff.mp h
  obtain rfl := Except.ok.inj h
  refine ((failure_noMismatch left).append (failure_noMismatch right)).append ?_
  cases train with
  | error finding => exact .nil
  | ok train =>
    cases eval with
    | error finding => exact .nil
    | ok eval =>
      rw [whenBoth, checkDatasetLeakage]
      split
      · exact .single "DATASET.EXACT_LEAKAGE" rfl (by decide)
      · exact .single "DATASET.NO_LEAKAGE" rfl (by decide)

theorem alignmentFindings_noMismatch (baseline candidate : Option DatasetHashes) :
    NoMismatch (alignmentFindings baseline candidate) := by
  rw [alignmentFindings.eq_def]
  split
  · exact .ite (.single "DATASET.EVALUATION_ALIGNED" rfl (by decide))
      (.single "DATASET.EVALUATION_MISMATCH" rfl (by decide))
  · exact .nil

theorem overlapFindings_noMismatch (arm : Arm) (fact : DatasetOverlapFact) :
    NoMismatch (overlapFindings arm fact).2 := by
  intro finding member mismatch
  rcases (mem_overlapFindings member).2 with ⟨rule, _⟩ | ⟨rule, _⟩ | rule
  all_goals
    rw [rule] at mismatch
    exact absurd mismatch (by decide)

theorem measuredDatasets_noMismatch {rt : Runtime} {spec : ResearchSpec}
    {scan : Option DatasetScanAuditContext} {datasets : MeasuredDatasets}
    (h : measuredDatasets rt spec scan = .ok datasets) : NoMismatch datasets.findings := by
  cases scan with
  | none =>
    unfold measuredDatasets at h
    obtain ⟨baseline, left, h⟩ := bind_ok_iff.mp h
    obtain ⟨candidate, right, h⟩ := bind_ok_iff.mp h
    obtain rfl := Except.ok.inj h
    exact ((armDatasets_noMismatch left).append (armDatasets_noMismatch right)).append
      (alignmentFindings_noMismatch _ _)
  | some context =>
    unfold measuredDatasets at h
    obtain ⟨⟨overlaps, findings⟩, checked, h⟩ := bind_ok_iff.mp h
    obtain ⟨_, _, h⟩ := bind_ok_iff.mp h
    obtain ⟨_, _, h⟩ := bind_ok_iff.mp h
    obtain rfl := Except.ok.inj h
    obtain ⟨_, _, alignment, _, _, aligned, _, rfl⟩ := checkStreamingDatasetContext_ok checked
    refine ((overlapFindings_noMismatch _ _).append (overlapFindings_noMismatch _ _)).append ?_
    intro finding member mismatch
    rcases mem_contextAlignmentFindings aligned member with rule | rule
    all_goals
      rw [rule] at mismatch
      exact absurd mismatch (by decide)

/-- Where the native audit has a rule that invalidates the evaluation config, the mappings differ. -/
theorem measuredAudit_rules {rt : Runtime} {context : MeasurementAuditContext} {spec : ResearchSpec}
    {scan : Option DatasetScanAuditContext} {metricIdentity : Bool} {audit : MeasuredAudit}
    (h : measuredAudit rt context spec scan metricIdentity = .ok audit) :
    (∀ ruleId ∈ audit.nativeRuleIds, ¬IsConfigMismatch ruleId) ∨ MappingsDiffer rt spec := by
  unfold measuredAudit at h
  obtain ⟨configFindings, configs, h⟩ := bind_ok_iff.mp h
  obtain ⟨results, checked, h⟩ := bind_ok_iff.mp h
  obtain ⟨datasets, measured, h⟩ := bind_ok_iff.mp h
  obtain ⟨_, _, h⟩ := bind_ok_iff.mp h
  obtain ⟨_, _, h⟩ := bind_ok_iff.mp h
  obtain rfl := Except.ok.inj h
  rcases configSection_mismatch configs with clean | differ
  · left
    have all := (clean.append (resultSection_noMismatch checked)).append
      (measuredDatasets_noMismatch measured)
    intro ruleId member
    rcases List.mem_append.mp member with found | identity
    · obtain ⟨finding, inside, rfl⟩ := List.mem_map.mp found
      exact all finding inside
    · cases metricIdentity with
      | false => cases identity
      | true =>
        rw [List.mem_singleton.mp identity]
        decide
  · exact .inr differ

/-! ### Agreement with the native audit -/

theorem measuredAudit_arms {rt : Runtime} {context : MeasurementAuditContext} {spec : ResearchSpec}
    {scan : Option DatasetScanAuditContext} {metricIdentity : Bool} {audit : MeasuredAudit}
    (h : measuredAudit rt context spec scan metricIdentity = .ok audit) :
    audit.baselineArm.config = loadedConfig rt spec .baseline ∧
    audit.candidateArm.config = loadedConfig rt spec .candidate ∧
    recoverArm rt context.policyId spec.metric context.baselineSource audit.baselineArm =
      .ok audit.baseline ∧
    recoverArm rt context.policyId spec.metric context.candidateSource audit.candidateArm =
      .ok audit.candidate := by
  unfold measuredAudit at h
  obtain ⟨_, _, h⟩ := bind_ok_iff.mp h
  obtain ⟨_, _, h⟩ := bind_ok_iff.mp h
  obtain ⟨_, _, h⟩ := bind_ok_iff.mp h
  obtain ⟨_, baseline, h⟩ := bind_ok_iff.mp h
  obtain ⟨_, candidate, h⟩ := bind_ok_iff.mp h
  obtain rfl := Except.ok.inj h
  exact ⟨rfl, rfl, baseline, candidate⟩

/-- The values of the components do not depend on the order of the keys in the evaluation mapping. -/
def OrderFree (config : Option Config) : Prop :=
  ∀ evaluation others reordered, evaluationOf config = some evaluation →
    Reordered (.dict evaluation) (.dict others) → evaluationOf reordered = some others →
    flattenEvaluation reordered = flattenEvaluation config

/-- The records are known by these hashes: as they were loaded, or as a complete scan commits to
them. -/
def EvaluationRecords.Commits (rt : Runtime) (hashes : List Str) : EvaluationRecords → Prop
  | absent => False
  | loaded loadedHashes => loadedHashes = hashes
  | scanned identity =>
    (∀ hash ∈ hashes, isSha256 hash = true) ∧ loadedIdentity rt hashes = some identity

/-- The bytes behind the commitment to a multiset of hashes. -/
def commitmentRaw (hashes : List Str) : Bytes := asciiEncode ((loadedMaterial hashes).getD [])

/-- The report on measurement drift says what the native audit says. -/
structure AgreesWithAudit (rt : Runtime) (spec : ResearchSpec) (audit : MeasuredAudit)
    (report : MeasurementDriftReport) : Prop where
  verified : ∀ finding ∈ report.findings, finding.componentKind = .evaluationConfig →
    finding.state = .verified → MappingsEqual rt spec
  drift : ∀ finding ∈ report.findings, finding.componentKind = .evaluationConfig →
    finding.state = .invalidates → MappingsDiffer rt spec
  overall : report.state = .verified → MappingsEqual rt spec ∧
    ∀ hashes others, audit.baselineArm.records.Commits rt hashes →
      audit.candidateArm.records.Commits rt others →
      DigestsDistinct rt [commitmentRaw hashes, commitmentRaw others] → hashes.Perm others
  order : OrderFree audit.baselineArm.config ∧ OrderFree audit.candidateArm.config

/-- Flattening loses nothing the comparison of the two mappings looks at: neither mapping has two
leaves with one dotted key and different values, and where both can be components and have the same
leaves, their entries correspond. -/
structure NothingLost (baseline candidate : Option Config) : Prop where
  baselineOne : ∀ evaluation, evaluationOf baseline = some evaluation → Flattens evaluation →
    Unambiguous evaluation
  candidateOne : ∀ evaluation, evaluationOf candidate = some evaluation → Flattens evaluation →
    Unambiguous evaluation
  nested : ∀ evaluation others, evaluationOf baseline = some evaluation →
    evaluationOf candidate = some others → Recoverable evaluation → Recoverable others →
    SameLeaves evaluation others → aligned evaluation others = true

/-- The bytes behind the identities of the components that are compared. -/
def MeasuredAudit.raws (audit : MeasuredAudit) : List Bytes :=
  (audit.baseline.components ++ audit.candidate.components).map MeasurementProtocolComponent.raw

theorem valueAt_evaluation {config : Option Config} {evaluation : List (Value × Value)}
    (h : evaluationOf config = some evaluation) :
    ∃ loaded, config = some loaded ∧ valueAt loaded ["evaluation"] = some (.dict evaluation) := by
  rw [evaluationOf] at h
  split at h
  next entries value =>
    obtain rfl := Option.some.inj h
    obtain ⟨loaded, found, value⟩ := Option.bind_eq_some_iff.mp value
    exact ⟨loaded, found, value⟩
  · cases h

theorem componentOf_mem {kind : MeasurementComponentKind}
    {components : List MeasurementProtocolComponent} {component : MeasurementProtocolComponent}
    (h : componentOf kind components = some component) : component ∈ components :=
  List.mem_of_find?_eq_some h

theorem DigestsDistinct.mono {rt : Runtime} {raws others : List Bytes}
    (h : DigestsDistinct rt others) (inside : raws ⊆ others) : DigestsDistinct rt raws :=
  fun a ha b hb => h a (inside ha) b (inside hb)

/-- Two recovered components are verified exactly when their identities are equal. -/
theorem comparedState_recovered {rt : Runtime} {kind : MeasurementComponentKind}
    {baseline candidate : MeasurementProtocolComponent} {rules : List Str}
    (left : baseline.coverage = .recovered) (right : candidate.coverage = .recovered) :
    (comparedState rt kind baseline candidate rules).1 = .verified ↔
      baseline.identity rt = candidate.identity rt := by
  rw [comparedState, left, right]
  simp only [reduceCtorEq, and_self, or_self, if_false]
  split
  next same => simp [same]
  next differ =>
    split
    · simp [differ]
    · simp [differ]

/-- A component that is missing leaves the comparison insufficient. -/
theorem comparedState_missing {rt : Runtime} {kind : MeasurementComponentKind}
    {baseline candidate : MeasurementProtocolComponent} {rules : List Str}
    (absent : baseline.coverage = .missing ∨ candidate.coverage = .missing) :
    (comparedState rt kind baseline candidate rules).1 = .insufficient := by
  rw [comparedState, if_neg, if_pos absent]
  rintro ⟨left, right⟩
  rw [left, right] at absent
  simp at absent

/-- An invalidating state needs a native rule of its kind. -/
theorem comparedState_invalidates {rt : Runtime} {kind : MeasurementComponentKind}
    {baseline candidate : MeasurementProtocolComponent} {rules : List Str}
    (h : (comparedState rt kind baseline candidate rules).1 = .invalidates) :
    ∃ ruleId ∈ rules, ruleId ∈ kind.mismatchRules := by
  rw [comparedState] at h
  split at h
  · cases h
  split at h
  · cases h
  split at h
  · split at h <;> cases h
  split at h
  · cases h
  dsimp only at h
  split at h
  next invalidating =>
    obtain ⟨ruleId, rest, some⟩ := List.exists_cons_of_ne_nil invalidating
    have chosen : ruleId ∈ chosenRules kind.mismatchRules.contains rules := by
      rw [some]
      exact List.mem_cons_self
    have inside := (sortBy_perm_self id _).mem_iff.mp chosen
    rw [List.mem_filter, List.mem_dedup] at inside
    exact ⟨ruleId, inside.1, List.contains_iff_mem.mp inside.2⟩
  · cases h

theorem componentState_state {rt : Runtime} {kind : MeasurementComponentKind}
    {baseline candidate : MeasurementProtocolComponent} {rules : List Str}
    {finding : MeasurementDriftFinding}
    (h : componentState rt kind (some baseline) (some candidate) rules = .ok finding) :
    finding.state = (comparedState rt kind baseline candidate rules).1 := by
  rw [checked_ok h]

theorem recoveredConfig_identity {rt : Runtime} {evaluation others : List (Value × Value)}
    {ids otherIds : List Str} (recoverable : Recoverable evaluation)
    (otherRecoverable : Recoverable others) (distinct : DigestsDistinct rt
      [(recoveredConfig evaluation ids).raw, (recoveredConfig others otherIds).raw]) :
    (recoveredConfig evaluation ids).identity rt = (recoveredConfig others otherIds).identity rt ↔
      written (flattenedFields evaluation) = written (flattenedFields others) := by
  have good : ∀ {evaluation : List (Value × Value)}, Recoverable evaluation → ∀ ids,
      GoodFields (recoveredConfig evaluation ids).fields := by
    intro evaluation recoverable ids
    obtain ⟨fields, semantic, _⟩ := (recovered_iff recoverable.flattens).mpr recoverable
    have good := goodFields semantic
    rw [(semanticFields_some semantic).1] at good
    exact good
  have kind : (recoveredConfig evaluation ids).kind = (recoveredConfig others otherIds).kind := rfl
  have coverage : (recoveredConfig evaluation ids).coverage =
      (recoveredConfig others otherIds).coverage := rfl
  rw [componentIdentity_eq_iff kind coverage (good recoverable ids) (good otherRecoverable otherIds)
    distinct]
  exact written_configValues_iff evaluation others

/-- The evaluation-config component is verified exactly when both mappings can be components and
their fields are written alike. -/
theorem configFinding_verified_iff {rt : Runtime} {audit : MeasuredAudit}
    {report : MeasurementDriftReport} (reports : Reports rt audit report)
    {flat otherFlat dataset otherDataset : Option Scalars} {ids otherIds dataIds otherDataIds : List Str}
    (left : Recovered rt audit.baselineArm audit.baseline flat dataset ids dataIds)
    (right : Recovered rt audit.candidateArm audit.candidate otherFlat otherDataset otherIds
      otherDataIds) (distinct : DigestsDistinct rt audit.raws)
    {finding : MeasurementDriftFinding} (member : finding ∈ report.findings)
    (kind : finding.componentKind = .evaluationConfig) :
    finding.state = .verified ↔ ∃ evaluation others,
      evaluationOf audit.baselineArm.config = some evaluation ∧
      evaluationOf audit.candidateArm.config = some others ∧ Recoverable evaluation ∧
      Recoverable others ∧
      written (flattenedFields evaluation) = written (flattenedFields others) := by
  have state := reports.compared finding member
  rw [kind] at state
  -- the configuration component was recovered or is missing, in each arm
  rcases configComponent_cases left with ⟨evaluation, mapping, recoverable, found⟩ | ⟨none, found⟩
  · rcases configComponent_cases right with ⟨others, otherMapping, otherRecoverable, otherFound⟩ |
      ⟨none, otherFound⟩
    · rw [found, otherFound] at state
      have inside : [(recoveredConfig evaluation ids).raw, (recoveredConfig others otherIds).raw] ⊆
          audit.raws := List.cons_subset.mpr ⟨List.mem_map_of_mem
          (List.mem_append_left _ (componentOf_mem found)), List.cons_subset.mpr
            ⟨List.mem_map_of_mem (List.mem_append_right _ (componentOf_mem otherFound)),
              List.nil_subset _⟩⟩
      rw [componentState_state state, comparedState_recovered rfl rfl,
        recoveredConfig_identity recoverable otherRecoverable (distinct.mono inside)]
      constructor
      · intro same
        exact ⟨evaluation, others, mapping, otherMapping, recoverable, otherRecoverable, same⟩
      · rintro ⟨_, _, foundLeft, foundRight, _, _, same⟩
        obtain rfl := Option.some.inj (mapping.symm.trans foundLeft)
        obtain rfl := Option.some.inj (otherMapping.symm.trans foundRight)
        exact same
    -- one arm has no component: the finding cannot be verified
    · rw [found, otherFound] at state
      rw [componentState_state state, comparedState_missing (.inr rfl)]
      simp only [reduceCtorEq, false_iff]
      rintro ⟨_, others, _, foundRight, _, recoverable, _⟩
      exact none ⟨others, foundRight, recoverable⟩
  · rw [found, right.config] at state
    rw [componentState_state state, comparedState_missing (.inl rfl)]
    simp only [reduceCtorEq, false_iff]
    rintro ⟨evaluation, _, foundLeft, _, recoverable, _⟩
    exact none ⟨evaluation, foundLeft, recoverable⟩

/-- A report that is verified as a whole is verified, or not assessed, in every component. -/
theorem overallState_verified {states : List MeasurementDriftState}
    (h : overallState states = .verified) : ∀ state ∈ states, state = .verified ∨ state = .notAssessed := by
  intro state member
  unfold overallState at h
  split at h
  · cases h
  next noInvalidates =>
    split at h
    · cases h
    next noInsufficient =>
      split at h
      · cases h
      next noWarning =>
        cases state with
        | verified => exact .inl rfl
        | notAssessed => exact .inr rfl
        | invalidates => exact absurd member noInvalidates
        | insufficient => exact absurd member noInsufficient
        | warning => exact absurd member noWarning

/-- A required component is always assessed. -/
theorem required_assessed {rt : Runtime} {kind : MeasurementComponentKind}
    {values otherValues : Option Scalars} {ids otherIds : List Str} {rules : List Str} :
    (comparedState rt kind (componentFromValues kind values ids true)
      (componentFromValues kind otherValues otherIds true) rules).1 ≠ .notAssessed := by
  rcases componentFromValues_cases kind values ids with ⟨_, _, _, component⟩ | ⟨_, component⟩
  · rcases componentFromValues_cases kind otherValues otherIds with ⟨_, _, _, other⟩ | ⟨_, other⟩
    · rw [component, other, comparedState]
      simp only [reduceCtorEq, and_self, or_self, if_false]
      split
      · simp
      · split <;> simp
    · rw [component, other, comparedState_missing (.inr rfl)]
      simp
  · rw [component, comparedState_missing (.inl rfl)]
    simp

/-- Two required components that are verified are recovered, with one identity. -/
theorem required_verified {rt : Runtime} {kind : MeasurementComponentKind}
    {values otherValues : Option Scalars} {ids otherIds : List Str} {rules : List Str}
    (h : (comparedState rt kind (componentFromValues kind values ids true)
      (componentFromValues kind otherValues otherIds true) rules).1 = .verified) :
    ∃ fields others, values.bind semanticFields = some fields ∧
      otherValues.bind semanticFields = some others ∧
      componentFromValues kind values ids true = ⟨kind, .recovered, fields, ids⟩ ∧
      componentFromValues kind otherValues otherIds true = ⟨kind, .recovered, others, otherIds⟩ ∧
      (componentFromValues kind values ids true).identity rt =
        (componentFromValues kind otherValues otherIds true).identity rt := by
  rcases componentFromValues_cases kind values ids with ⟨fields, found, _, component⟩ | ⟨_, component⟩
  · rcases componentFromValues_cases kind otherValues otherIds with
      ⟨others, otherFound, _, other⟩ | ⟨_, other⟩
    · refine ⟨fields, others, found, otherFound, component, other, ?_⟩
      rw [component, other] at h ⊢
      exact (comparedState_recovered rfl rfl).mp h
    · rw [component, other, comparedState_missing (.inr rfl)] at h
      cases h
  · rw [component, comparedState_missing (.inl rfl)] at h
    cases h

theorem lookupKey_written (key : Str) (fields : Scalars) :
    lookupKey key (written fields) = (lookupKey key fields).map Scalar.joined := by
  induction fields with
  | nil => rfl
  | cons field rest ih =>
    rw [written, List.map_cons, lookupKey_cons, lookupKey_cons, ← written, ih]
    split
    · rfl
    · rfl

/-- The commitment among the fields of an evaluation dataset. -/
theorem datasetFields_commitment (declared : Scalar × Scalar × Scalar) (identity : MultisetIdentity) :
    lookupKey (lit "record_multiset_sha256") (sortBy Prod.fst (datasetFields declared identity)) =
      some (.str identity.canonicalSha256) := by
  have distinct : (keysOf (datasetFields declared identity)).Nodup := by
    have keys : [lit "declared_identifier", lit "declared_version", lit "declared_split",
        lit "record_count", lit "record_multiset_sha256"].Nodup := by decide
    exact keys
  rw [lookupKey_sortBy _ distinct, lookupKey_eq_some_iff distinct]
  simp [datasetFields]

theorem loadedIdentity_some {rt : Runtime} {hashes : List Str} {identity : MultisetIdentity}
    (h : loadedIdentity rt hashes = some identity) : ∃ text, loadedMaterial hashes = some text ∧
      Ascii text ∧ identity.canonicalSha256 = rt.sha256 (commitmentRaw hashes) := by
  obtain ⟨text, encoded, rfl⟩ := Option.map_eq_some_iff.mp h
  refine ⟨text, encoded, dumps_ascii identityStyle_ascii encoded, ?_⟩
  rw [commitmentRaw, loadedMaterial, encoded]
  rfl

/-- Records that are committed to and that a dataset component is recovered from. -/
theorem committed_of_values {rt : Runtime} {flat dataset : Option Scalars}
    {records : EvaluationRecords} {hashes : List Str} {fields : Scalars}
    (values : datasetValues rt flat records = .ok dataset)
    (found : dataset.bind semanticFields = some fields) (commits : records.Commits rt hashes) :
    ∃ declared identity, semanticFields (datasetFields declared identity) = some fields ∧
      loadedIdentity rt hashes = some identity ∧ ∀ hash ∈ hashes, isSha256 hash = true := by
  obtain ⟨kept, rfl, found⟩ := Option.bind_eq_some_iff.mp found
  unfold datasetValues at values
  split at values
  · cases Except.ok.inj values
  next declared _ =>
    obtain ⟨identity, identified, values⟩ := bind_ok_iff.mp values
    obtain ⟨identity, rfl, rfl⟩ := Option.map_eq_some_iff.mp (Except.ok.inj values)
    refine ⟨declared, identity, found, ?_⟩
    cases records with
    | absent => exact commits.elim
    | scanned scanned =>
      obtain rfl := Option.some.inj (Except.ok.inj identified)
      exact ⟨commits.2, commits.1⟩
    | loaded loadedHashes =>
      obtain rfl : loadedHashes = hashes := commits
      rw [EvaluationRecords.identity] at identified
      split at identified
      · cases Except.ok.inj identified
      next valid =>
        rw [not_or, Bool.not_eq_false, List.all_eq_true] at valid
        split at identified
        · cases identified
        next result committed =>
          obtain rfl := Option.some.inj (Except.ok.inj identified)
          exact ⟨committed, valid.2⟩

/-- Two evaluation datasets whose components are verified hold the same records. -/
theorem perm_of_datasetComponents {rt : Runtime} (hex : HexDigests rt)
    {left right : Scalar × Scalar × Scalar} {identity other : MultisetIdentity}
    {fields others : Scalars} {hashes otherHashes : List Str} {ids otherIds : List Str}
    (semantic : semanticFields (datasetFields left identity) = some fields)
    (otherSemantic : semanticFields (datasetFields right other) = some others)
    (committed : loadedIdentity rt hashes = some identity)
    (otherCommitted : loadedIdentity rt otherHashes = some other)
    (digests : ∀ hash ∈ hashes, isSha256 hash = true)
    (otherDigests : ∀ hash ∈ otherHashes, isSha256 hash = true)
    (distinct : DigestsDistinct rt [(MeasurementProtocolComponent.mk .evaluationDataset .recovered
      fields ids).raw, (MeasurementProtocolComponent.mk .evaluationDataset .recovered others
      otherIds).raw])
    (raws : DigestsDistinct rt [commitmentRaw hashes, commitmentRaw otherHashes])
    (same : (MeasurementProtocolComponent.mk .evaluationDataset .recovered fields ids).identity rt =
      (MeasurementProtocolComponent.mk .evaluationDataset .recovered others otherIds).identity rt) :
    hashes.Perm otherHashes := by
  have kind : (MeasurementProtocolComponent.mk .evaluationDataset .recovered fields ids).kind =
      (MeasurementProtocolComponent.mk .evaluationDataset .recovered others otherIds).kind := rfl
  -- equal identities give equal fields, and the field holds the digest of the multiset
  have coverage : (MeasurementProtocolComponent.mk .evaluationDataset .recovered fields ids).coverage =
      (MeasurementProtocolComponent.mk .evaluationDataset .recovered others otherIds).coverage := rfl
  have alike : written fields = written others :=
    (componentIdentity_eq_iff kind coverage (goodFields semantic) (goodFields otherSemantic)
      distinct).mp same
  have looked := congrArg (lookupKey (lit "record_multiset_sha256")) alike
  rw [lookupKey_written, lookupKey_written, (semanticFields_some semantic).1,
    (semanticFields_some otherSemantic).1, datasetFields_commitment, datasetFields_commitment] at looked
  obtain ⟨text, encoded, ascii, commitment⟩ := loadedIdentity_some committed
  obtain ⟨otherText, otherEncoded, otherAscii, otherCommitment⟩ := loadedIdentity_some otherCommitted
  have small : ∀ raw, joinSurrogates (rt.sha256 raw) = rt.sha256 raw := fun raw =>
    rereadStr_of_small true _ (small_of_isSha256 (hex raw))
  -- the digests are hexadecimal texts, so joining surrogates leaves them
  have commitments : rt.sha256 (commitmentRaw hashes) = rt.sha256 (commitmentRaw otherHashes) := by
    have joined := Scalar.str.inj (Option.some.inj looked)
    rwa [commitment, otherCommitment, small, small] at joined
  have bytes := raws _ (by simp) _ (by simp) commitments
  rw [commitmentRaw, commitmentRaw, encoded, otherEncoded] at bytes
  obtain rfl := asciiEncode_injective ascii otherAscii bytes
  exact perm_of_loadedMaterial digests otherDigests encoded otherEncoded

/-- Equal written fields of unambiguous mappings whose entries correspond are equal mappings. -/
theorem mappingsEqual_of_written {rt : Runtime} {spec : ResearchSpec}
    (kept : NothingLost (loadedConfig rt spec .baseline) (loadedConfig rt spec .candidate))
    {evaluation others : List (Value × Value)}
    (left : evaluationOf (loadedConfig rt spec .baseline) = some evaluation)
    (right : evaluationOf (loadedConfig rt spec .candidate) = some others)
    (recoverable : Recoverable evaluation) (otherRecoverable : Recoverable others)
    (same : written (flattenedFields evaluation) = written (flattenedFields others)) :
    MappingsEqual rt spec := by
  have one := kept.baselineOne evaluation left recoverable.flattens
  have other := kept.candidateOne others right otherRecoverable.flattens
  have nested := kept.nested evaluation others left right recoverable otherRecoverable
    ((written_eq_iff one other).mp same)
  obtain ⟨baseline, baselineLoaded, baselineValue⟩ := valueAt_evaluation left
  obtain ⟨candidate, candidateLoaded, candidateValue⟩ := valueAt_evaluation right
  refine ⟨baseline, candidate, baselineLoaded, candidateLoaded, ?_⟩
  rw [baselineValue, candidateValue, sameLookup]
  exact eq_of_aligned recoverable.flattens otherRecoverable.flattens nested
    (leavesAgree_of_written one other same)

theorem aligned_of_mappingsEqual {rt : Runtime} {spec : ResearchSpec}
    {evaluation others : List (Value × Value)}
    (left : evaluationOf (loadedConfig rt spec .baseline) = some evaluation)
    (right : evaluationOf (loadedConfig rt spec .candidate) = some others)
    (equal : MappingsEqual rt spec) : aligned evaluation others = true := by
  obtain ⟨baseline, candidate, baselineLoaded, candidateLoaded, same⟩ := equal
  obtain ⟨_, foundLeft, baselineValue⟩ := valueAt_evaluation left
  obtain ⟨_, foundRight, candidateValue⟩ := valueAt_evaluation right
  obtain rfl := Option.some.inj (baselineLoaded.symm.trans foundLeft)
  obtain rfl := Option.some.inj (candidateLoaded.symm.trans foundRight)
  rw [baselineValue, candidateValue, sameLookup] at same
  exact aligned_of_eq same

/-- The keys of a reordered mapping have a text when those of the mapping do. -/
theorem keyed_reordered {evaluation others : List (Value × Value)}
    (h : Reordered (.dict evaluation) (.dict others))
    (keyed : ∀ entry ∈ evaluation, ∃ text, keyText entry.1 = .ok text) :
    ∀ entry ∈ others, ∃ text, keyText entry.1 = .ok text := by
  intro entry member
  have keys : (evaluation.map fun entry => entry.1).Perm (others.map fun entry => entry.1) :=
    h.alike.keyed
  obtain ⟨source, inside, same⟩ := List.mem_map.mp (keys.mem_iff.mpr (List.mem_map_of_mem member))
  rw [← same]
  exact keyed source inside

theorem keyed_of_flattened {config : Option Config} {flat : Option Scalars}
    {evaluation : List (Value × Value)} (h : flattenEvaluation config = .ok flat)
    (found : evaluationOf config = some evaluation) :
    ∀ entry ∈ evaluation, ∃ text, keyText entry.1 = .ok text := by
  rw [flattenEvaluation] at h
  rw [evaluationOf] at found
  split at found
  next entries value =>
    obtain rfl := Option.some.inj found
    rw [value] at h
    obtain ⟨items, built, _⟩ := bind_ok_iff.mp h
    exact (evaluationItems_ok built).2
  · cases found

/-- The order of the keys plays no part exactly when no dotted key has two values. -/
theorem orderFree_iff {config : Option Config} {flat : Option Scalars}
    (h : flattenEvaluation config = .ok flat) : OrderFree config ↔
      ∀ evaluation, evaluationOf config = some evaluation → Flattens evaluation →
        Unambiguous evaluation := by
  constructor
  · intro free evaluation found flattens
    by_contra ambiguous
    obtain ⟨others, reordered, differ⟩ := flattenedFields_differ ambiguous
    have keyed := keyed_of_flattened h found
    let config' : Config := [(.str (lit "evaluation"), .dict others)]
    have other : evaluationOf (some config') = some others := by
      simp [evaluationOf, config', Value.get]
    have same := free evaluation others (some config') found reordered other
    have topFlat : Flattens evaluation ↔ Flattens others := reordered.alike.topFlat
    rw [flattenEvaluation_total found keyed, flattenEvaluation_total other
      (keyed_reordered reordered keyed), if_pos flattens, if_pos (topFlat.mp flattens)] at same
    exact differ (Option.some.inj (Except.ok.inj same))
  · intro one evaluation others config' found reordered other
    have keyed := keyed_of_flattened h found
    rw [flattenEvaluation_total found keyed,
      flattenEvaluation_total other (keyed_reordered reordered keyed)]
    have topFlat : Flattens evaluation ↔ Flattens others := reordered.alike.topFlat
    by_cases flattens : Flattens evaluation
    · rw [if_pos flattens, if_pos (topFlat.mp flattens),
        flattenedFields_reordered (one evaluation found flattens) reordered]
    · rw [if_neg flattens, if_neg fun there => flattens (topFlat.mpr there)]

/-- The report agrees with the native audit exactly when flattening loses nothing of the evaluation
mappings. -/
theorem report_agreesWithAudit_iff (rt : Runtime) (context : MeasurementAuditContext)
    (spec : ResearchSpec) (scan : Option DatasetScanAuditContext) (metricIdentity : Bool)
    (audit : MeasuredAudit) (report : MeasurementDriftReport) (hex : HexDigests rt)
    (measured : measuredAudit rt context spec scan metricIdentity = .ok audit)
    (reported : audit.report rt = .ok report) (distinct : DigestsDistinct rt audit.raws) :
    AgreesWithAudit rt spec audit report ↔
      NothingLost (loadedConfig rt spec .baseline) (loadedConfig rt spec .candidate) := by
  have reports := reports_of_ok reported
  obtain ⟨baselineConfig, candidateConfig, baselineArm, candidateArm⟩ := measuredAudit_arms measured
  obtain ⟨flat, dataset, ids, dataIds, left⟩ := recoverArm_ok baselineArm
  obtain ⟨otherFlat, otherDataset, otherIds, otherDataIds, right⟩ := recoverArm_ok candidateArm
  have verified := fun finding member kind =>
    @configFinding_verified_iff _ _ _ reports _ _ _ _ _ _ _ _ left right distinct finding member kind
  rw [baselineConfig, candidateConfig] at verified
  -- nothing is lost where distinct dotted keys stand for distinct paths
  have baselineFree := orderFree_iff left.flattened
  have candidateFree := orderFree_iff right.flattened
  rw [baselineConfig] at baselineFree
  rw [candidateConfig] at candidateFree
  have compared : ∀ kind, kind ∈ audit.baseline.components.map (fun component => component.kind) →
      ∃ finding ∈ report.findings, finding.componentKind = kind := by
    intro kind inside
    apply reports.complete
    rw [comparedKinds]
    apply (sortBy_perm_self _ _).mem_iff.mpr
    rw [List.mem_dedup, List.map_append]
    exact List.mem_append_left _ inside
  constructor
  -- agreement gives the condition: two mappings that differ would be reported as verified
  · rintro ⟨equal, _, _, order⟩
    rw [baselineConfig, candidateConfig] at order
    have baselineOne := baselineFree.mp order.1
    have candidateOne := candidateFree.mp order.2
    refine ⟨baselineOne, candidateOne, ?_⟩
    intro evaluation others foundLeft foundRight recoverable otherRecoverable same
    have alike := (written_eq_iff (baselineOne evaluation foundLeft recoverable.flattens)
      (candidateOne others foundRight otherRecoverable.flattens)).mpr same
    obtain ⟨finding, member, kind⟩ := compared _ left.kinds.1
    have state := (verified finding member kind).mpr
      ⟨evaluation, others, foundLeft, foundRight, recoverable, otherRecoverable, alike⟩
    exact aligned_of_mappingsEqual foundLeft foundRight (equal finding member kind state)
  -- the condition gives agreement, finding by finding
  · intro kept
    have equal : ∀ finding ∈ report.findings, finding.componentKind = .evaluationConfig →
        finding.state = .verified → MappingsEqual rt spec := by
      intro finding member kind state
      obtain ⟨evaluation, others, foundLeft, foundRight, recoverable, otherRecoverable, alike⟩ :=
        (verified finding member kind).mp state
      exact mappingsEqual_of_written kept foundLeft foundRight recoverable otherRecoverable alike
    refine ⟨equal, ?_, ?_, ?_⟩
    · intro finding member kind state
      have found := reports.compared finding member
      rw [kind, left.config, right.config] at found
      rw [componentState_state found] at state
      obtain ⟨ruleId, inside, rule⟩ := comparedState_invalidates state
      have mismatch : IsConfigMismatch ruleId := by
        change ruleId ∈ [lit "CONFIG.EVALUATION_MISMATCH", lit "BENCHMARK.CONFIG_MISMATCH"] at rule
        rwa [List.mem_cons, List.mem_singleton] at rule
      exact (measuredAudit_rules measured).resolve_left fun clean => clean ruleId inside mismatch
    -- the whole report is verified only if every required finding is
    · intro whole
      rw [reports.state] at whole
      have states := overallState_verified whole
      have required : ∀ finding ∈ report.findings,
          finding.state = .verified ∨ finding.state = .notAssessed := fun finding member =>
        states finding.state (List.mem_map_of_mem member)
      refine ⟨?_, ?_⟩
      · obtain ⟨finding, member, kind⟩ := compared _ left.kinds.1
        have found := reports.compared finding member
        rw [kind, left.config, right.config] at found
        refine equal finding member kind ((required finding member).resolve_right ?_)
        rw [componentState_state found]
        exact required_assessed
      · intro hashes others commits otherCommits raws
        obtain ⟨finding, member, kind⟩ := compared _ left.kinds.2
        have found := reports.compared finding member
        rw [kind, left.data, right.data] at found
        have state := required finding member
        rw [componentState_state found] at state
        obtain ⟨fields, otherFields, semantic, otherSemantic, component, other, same⟩ :=
          required_verified (state.resolve_right required_assessed)
        obtain ⟨declared, identity, semantic, committed, digests⟩ :=
          committed_of_values left.values semantic commits
        obtain ⟨otherDeclared, otherIdentity, otherSemantic, otherCommitted, otherDigests⟩ :=
          committed_of_values right.values otherSemantic otherCommits
        have inside : [(componentFromValues .evaluationDataset dataset dataIds true).raw,
            (componentFromValues .evaluationDataset otherDataset otherDataIds true).raw] ⊆
            audit.raws := List.cons_subset.mpr ⟨List.mem_map_of_mem
            (List.mem_append_left _ (componentOf_mem left.data)), List.cons_subset.mpr
              ⟨List.mem_map_of_mem (List.mem_append_right _ (componentOf_mem right.data)),
                List.nil_subset _⟩⟩
        rw [component, other] at inside same
        exact perm_of_datasetComponents hex semantic otherSemantic committed otherCommitted digests
          otherDigests (distinct.mono inside) raws same
    · rw [baselineConfig, candidateConfig]
      exact ⟨baselineFree.mpr kept.baselineOne, candidateFree.mpr kept.candidateOne⟩

/-! ### Two small audits

Both arms share an evaluation file of one record; the results and the training data are missing. -/

/-- An evaluation mapping with further entries. -/
def driftEvaluation (further : List (Value × Value)) : List (Value × Value) :=
  [(.str "dataset_identifier", .str "d"), (.str "dataset_version", .int 1),
    (.str "split", .str "test")] ++ further

def driftConfig (further : List (Value × Value)) : Value :=
  Value.ofMembers [("training_steps", .int 10), ("epochs", .int 1), ("batch_size", .int 8),
    ("learning_rate", .int 1), ("model", .str "m"),
    ("dataset", Value.ofMembers [("identifier", .str "d"), ("version", .int 1)]),
    ("evaluation", .dict (driftEvaluation further))]

/-- A component that is not represented. -/
def absentComponent (kind : MeasurementComponentKind) : MeasurementProtocolComponent :=
  ⟨kind, .notApplicable, [], []⟩

/-- What is hashed in the audit of two equal configs, with the digests. -/
def driftDigests : List (Bytes × Nat) := [
  ([0x31], 0x6b86b273ff34fce19d6b804eff5a3f5747ada4eaa22f1d49c01e52ddb7875b4b),
  (commitmentRaw [hexdigest 0x6b86b273ff34fce19d6b804eff5a3f5747ada4eaa22f1d49c01e52ddb7875b4b],
    0x39f485173783193fc1125d22f751f96001a0a6d58d122bff6eed4bcad0d1bfaa),
  ((absentComponent .benchmarkVersion).raw,
    0x807339552445d781d14ffad2aecf4d02d7dd4c14f63641ae3d241b579f86672a),
  ((absentComponent .decodingParameters).raw,
    0x8221bf1b38c850fe7ed90c5adf291284e8639948ac2b9912300500aa29620eb5),
  ((absentComponent .evaluatorImplementation).raw,
    0xecbfb0527741496bc29a70a2386fb4fa6630a1d5d02d62f3c8cb8cb8d2414f7c),
  ((absentComponent .normalizationPostprocessing).raw,
    0x0b2ba8be7f71e3be2a08dbf5b8ad9f04a9bbc64f9db6bf4110a7835d87b8adf7),
  ((absentComponent .promptTemplate).raw,
    0x47d4a68f496d3c7b18ee35601b19d443c746ad8a19848c8e04fbd52fbdc0ff9f),
  ((absentComponent .retryAggregation).raw,
    0x972671871bc95076e0632e040b123deb3c81525eb1132a3c996f31294cfad165),
  ((absentComponent .testSelection).raw,
    0xe93706ed9b6cffcdca919f2a2a2f36097336062c253f25c1a8609e7b34d70178),
  (MeasurementProtocolComponent.raw ⟨.evaluationConfig, .recovered,
    [("evaluation.dataset_identifier", .str "d"), ("evaluation.dataset_version", .int 1),
      ("evaluation.split", .str "test")], []⟩,
    0x0cb34c562cea36a6c2a33310ea115875fa6066357078b66d077351ef42e7c299),
  (MeasurementProtocolComponent.raw ⟨.evaluationDataset, .recovered,
    [("declared_identifier", .str "d"), ("declared_split", .str "test"),
      ("declared_version", .int 1), ("record_count", .int 1), ("record_multiset_sha256",
        .str (hexdigest 0x39f485173783193fc1125d22f751f96001a0a6d58d122bff6eed4bcad0d1bfaa))], []⟩,
    0x4d2b4bda13d91a980bccdda17083d0784f505d5ebcaa06c7e0b5483f31ef03ea),
  (MeasurementProtocolComponent.raw ⟨.metric, .recovered, [("name", .str "acc")], []⟩,
    0xe423880fdb1767cc6a7a99ed7275996c63611fb4f902b68f78b810845cfae8c2)]

/-- The digests of other inputs play no part. -/
def otherDigest : Nat :=
  0xe3b0c44298fc1c149afbf4c8996fb92427ae41e4649b934ca495991b7852b855

/-- The surroundings of an audit whose configs have the given further entries. -/
def driftRuntime (baseline candidate : List (Value × Value)) : Runtime where
  readBytes path :=
    if path = lit "baseline.yaml" then .ok [0x62]
    else if path = lit "candidate.yaml" then .ok [0x63]
    else if path = lit "eval.jsonl" then .ok [0x31, 0x0A]
    else .error .notFound
  pathExists _ := false
  parent _ := lit "."
  resolve path := .ok path
  join _ path := path
  isRelativeTo _ _ := true
  isWindowsAbsolute _ := false
  yamlLoad source :=
    .ok (.ofValue (driftConfig (if source = lit "b" then baseline else candidate)))
  sha256 raw :=
    hexdigest (((driftDigests.find? fun entry => entry.1 = raw).map Prod.snd).getD otherDigest)
  repr s := s
  decodeErrorText _ := []
  jsonErrorText _ := []

def driftPaths (config : String) : ExperimentPaths :=
  ⟨lit config, "results.json", "train.jsonl", "eval.jsonl"⟩

def driftSpec : ResearchSpec :=
  ⟨"research.yaml", "acc", Binary64.zero false, driftPaths "baseline.yaml",
    driftPaths "candidate.yaml", .higher⟩

def driftContext : MeasurementAuditContext :=
  ⟨⟨"measurement-source-1", ⟨["config-1"], ["results-1"], ["eval-1"]⟩⟩,
    ⟨"measurement-source-1", ⟨["config-1"], ["results-1"], ["eval-1"]⟩⟩,
    "claimci.measurement.pilot.v1"⟩

theorem driftRuntime_hexDigests (baseline candidate : List (Value × Value)) :
    HexDigests (driftRuntime baseline candidate) := fun _ => isSha256_hexdigest _

/-- The inputs of the table are told apart, because their digests differ. -/
theorem driftRuntime_distinct (baseline candidate : List (Value × Value)) {raws : List Bytes}
    (known : ∀ raw ∈ raws, raw ∈ driftDigests.map Prod.fst) :
    DigestsDistinct (driftRuntime baseline candidate) raws := by
  have digests : (driftDigests.map fun entry => hexdigest entry.2).Nodup := by decide +kernel
  have entryOf (raw : Bytes) (member : raw ∈ raws) : ∃ entry ∈ driftDigests, entry.1 = raw ∧
      (driftRuntime baseline candidate).sha256 raw = hexdigest entry.2 := by
    obtain ⟨listed, inside, rfl⟩ := List.mem_map.mp (known raw member)
    simp only [driftRuntime]
    cases found : driftDigests.find? fun entry => entry.1 = listed.1 with
    | none =>
      have missed := List.find?_eq_none.mp found listed inside
      simp at missed
    | some entry =>
      exact ⟨entry, List.mem_of_find?_eq_some found, by simpa using List.find?_some found, rfl⟩
  intro a inA b inB same
  obtain ⟨entry, inside, rfl, digest⟩ := entryOf a inA
  obtain ⟨other, otherInside, rfl, otherDigest⟩ := entryOf b inB
  rw [digest, otherDigest] at same
  rw [List.inj_on_of_nodup_map digests inside otherInside same]

/-- A config of one letter loads as what the letter stands for. -/
theorem driftRuntime_loads {baseline candidate further : List (Value × Value)} {path source : Str}
    (text : (driftRuntime baseline candidate).readText path = .ok source)
    (stands : (if source = lit "b" then baseline else candidate) = further)
    (nested : NestedWithin (MAX_NESTING_DEPTH + 1) (driftConfig further) = true) :
    evaluationOf (loadConfig (driftRuntime baseline candidate) path).toOption =
      some (driftEvaluation further) := by
  have loaded : (driftRuntime baseline candidate).yamlLoad source =
      .ok (.ofValue (driftConfig further)) := by
    simp only [driftRuntime, stands]
  rw [loadConfig, text]
  dsimp only
  rw [loadUniqueYaml_ofValue loaded nested]
  rfl

theorem driftRuntime_evaluation (baseline candidate : List (Value × Value))
    (nested : NestedWithin (MAX_NESTING_DEPTH + 1) (driftConfig baseline) = true)
    (nestedCandidate : NestedWithin (MAX_NESTING_DEPTH + 1) (driftConfig candidate) = true) :
    evaluationOf (loadedConfig (driftRuntime baseline candidate) driftSpec .baseline) =
        some (driftEvaluation baseline) ∧
      evaluationOf (loadedConfig (driftRuntime baseline candidate) driftSpec .candidate) =
        some (driftEvaluation candidate) := by
  constructor
  · have text : (driftRuntime baseline candidate).readText (lit "baseline.yaml") = .ok (lit "b") :=
      rfl
    exact driftRuntime_loads text (if_pos rfl) nested
  · have text : (driftRuntime baseline candidate).readText (lit "candidate.yaml") = .ok (lit "c") :=
      rfl
    exact driftRuntime_loads text (if_neg (by decide)) nestedCandidate

theorem report_agreesWithAudit_iff_sample : ∃ audit report,
    measuredAudit (driftRuntime [] []) driftContext driftSpec none false = .ok audit ∧
    audit.report (driftRuntime [] []) = .ok report ∧
    AgreesWithAudit (driftRuntime [] []) driftSpec audit report := by
  have returns : (match measuredAudit (driftRuntime [] []) driftContext driftSpec none false with
      | .ok audit => (match audit.report (driftRuntime [] []) with
        | .ok _ => audit.raws.all (driftDigests.map Prod.fst).contains
        | .error _ => false)
      | .error _ => false) = true := by decide +kernel
  obtain ⟨baseline, candidate⟩ := driftRuntime_evaluation [] [] (by decide) (by decide)
  -- the sample has no dotted keys
  have kept : NothingLost (loadedConfig (driftRuntime [] []) driftSpec .baseline)
      (loadedConfig (driftRuntime [] []) driftSpec .candidate) := by
    refine ⟨?_, ?_, ?_⟩
    · intro evaluation found _
      obtain rfl := Option.some.inj (baseline.symm.trans found)
      decide +kernel
    · intro evaluation found _
      obtain rfl := Option.some.inj (candidate.symm.trans found)
      decide +kernel
    · intro evaluation others foundLeft foundRight _ _ _
      obtain rfl := Option.some.inj (baseline.symm.trans foundLeft)
      obtain rfl := Option.some.inj (candidate.symm.trans foundRight)
      decide +kernel
  split at returns
  next audit measured =>
    split at returns
    next report reported =>
      have distinct : DigestsDistinct (driftRuntime [] []) audit.raws :=
        driftRuntime_distinct [] [] fun raw member =>
          List.contains_iff_mem.mp (List.all_eq_true.mp returns raw member)
      exact ⟨audit, report, measured, reported,
        (report_agreesWithAudit_iff _ driftContext driftSpec none false audit report
          (driftRuntime_hexDigests _ _) measured reported distinct).mpr kept⟩
    · cases returns
  · cases returns

/-- One config has the key `a.b`, the other one a mapping `a` with the key `b`: the native audit finds
a mismatch, and the report is verified. -/
theorem dottedKey_not_agreesWithAudit : ∃ audit report,
    measuredAudit (driftRuntime [(.str "a.b", .int 1)] [(.str "a", .dict [(.str "b", .int 1)])])
      driftContext driftSpec none false = .ok audit ∧
    audit.report (driftRuntime [(.str "a.b", .int 1)] [(.str "a", .dict [(.str "b", .int 1)])]) =
      .ok report ∧ lit "CONFIG.EVALUATION_MISMATCH" ∈ audit.nativeRuleIds ∧
    report.state = .verified ∧
    ¬AgreesWithAudit (driftRuntime [(.str "a.b", .int 1)] [(.str "a", .dict [(.str "b", .int 1)])])
      driftSpec audit report := by
  have returns : (match measuredAudit (driftRuntime [(.str "a.b", .int 1)]
        [(.str "a", .dict [(.str "b", .int 1)])]) driftContext driftSpec none false with
      | .ok audit => (match audit.report (driftRuntime [(.str "a.b", .int 1)]
          [(.str "a", .dict [(.str "b", .int 1)])]) with
        | .ok report => decide (lit "CONFIG.EVALUATION_MISMATCH" ∈ audit.nativeRuleIds ∧
            report.state = .verified)
        | .error _ => false)
      | .error _ => false) = true := by decide +kernel
  have different : Value.eq (.dict (driftEvaluation [(.str "a.b", .int 1)]))
      (.dict (driftEvaluation [(.str "a", .dict [(.str "b", .int 1)])])) = false := by decide +kernel
  split at returns
  next audit measured =>
    split at returns
    next report reported =>
      obtain ⟨rule, state⟩ := decide_eq_true_eq.mp returns
      refine ⟨audit, report, measured, reported, rule, state, fun agrees => ?_⟩
      obtain ⟨baseline, candidate, left, right, same⟩ := (agrees.overall state).1
      obtain ⟨foundLeft, foundRight⟩ := driftRuntime_evaluation [(.str "a.b", .int 1)]
        [(.str "a", .dict [(.str "b", .int 1)])] (by decide) (by decide)
      obtain ⟨_, loadedLeft, valueLeft⟩ := valueAt_evaluation foundLeft
      obtain ⟨_, loadedRight, valueRight⟩ := valueAt_evaluation foundRight
      obtain rfl := Option.some.inj (left.symm.trans loadedLeft)
      obtain rfl := Option.some.inj (right.symm.trans loadedRight)
      rw [valueLeft, valueRight, sameLookup, different] at same
      cases same
    · cases returns
  · cases returns

end ClaimCI
