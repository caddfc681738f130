import ClaimCI.Analysis.TraceContracts
import ClaimCI.Graph.DepthFirst

/-!
# Evidence trace bundles

The wire projection of a trace and the checks of a bundle, and what the checks of the references
leave open about where derived evidence comes from.
-/

open Python
open Relation (TransGen)

namespace ClaimCI

/-! ### The wire projection -/

/-- A member that is left out when there is no value. -/
def optionalMember {α : Type} (key : Str) (toJson : α → Json) : Option α → Members
  | none => []
  | some value => [(key, toJson value)]

/-- A member that is left out for the empty tuple. -/
def tupleMember {α : Type} (key : Str) (toJson : α → Json) : List α → Members
  | [] => []
  | values => [(key, .array (values.map toJson))]

def BoundedValueRepresentation.toJson (r : BoundedValueRepresentation) : Json :=
  .object (("value_type", .str r.valueType.value) :: ("count", .int r.count) ::
    ("canonical_sha256", .str r.canonicalSha256.text) ::
      (tupleMember "direct_values" TraceDirectScalar.toJson r.directValues ++
        optionalMember "byte_count" (fun n => .int (n : Nat)) r.byteCount))

/-- Every field, as outside of the trace module nothing is left out. -/
def TraceScan.toJson (s : TraceScan) : Json :=
  .object [("purpose", .str s.purpose.value), ("state", .str s.state.value),
    ("reason", .str s.reason.value), ("records_scanned", .int s.recordsScanned),
    ("semantic_bytes", .int s.semanticBytes), ("integrity_bytes", .int s.integrityBytes),
    ("expected_bytes", .int s.expectedBytes), ("integrity_verified", .bool s.integrityVerified),
    ("peak_buffer_bytes", .int s.peakBufferBytes), ("scratch_bytes", .int s.scratchBytes)]

section Projection

variable {ut : UnicodeTables}

def TraceTablePredicate.toJson (p : TraceTablePredicate ut) : Json :=
  .object [("column", .str p.column), ("scalar_type", .str p.scalarType.value),
    ("canonical_value", .str p.canonicalValue)]

def TraceSelector.toJson (s : TraceSelector ut) : Json :=
  .object (("target_field", .str s.targetField) :: ("kind", .str s.kind.value) ::
    ("expression", .str s.expression) ::
      (tupleMember "table_predicates" TraceTablePredicate.toJson s.tablePredicates ++
        optionalMember "expected_cardinality" (fun n => .int (n : Nat)) s.expectedCardinality))

/-- `trace_to_jsonable`, of an entry: nulls, empty tuples and the unspecified role are left out. -/
def TraceEntryFields.toJson (e : TraceEntryFields ut) : Json :=
  .object (("trace_id", .str e.traceId) :: ("record_kind", .str e.recordKind.value) ::
    ("authority", .str e.authority.value) :: ("head_sha", .str e.headSha.text) ::
    ("detail_code", .str e.detailCode) ::
      (optionalMember "provenance_kind" (fun k => .str k.value) e.provenanceKind ++
        optionalMember "source_path" (fun p => .str p.text) e.sourcePath ++
        optionalMember "source_id" .str e.sourceId ++
        optionalMember "artifact_path" (fun p => .str p.text) e.artifactPath ++
        optionalMember "artifact_sha256" (fun d => .str d.text) e.artifactSha256 ++
        optionalMember "artifact_size" (fun n => .int (n : Nat)) e.artifactSize ++
        optionalMember "artifact_kind" (fun k => .str k.value) e.artifactKind ++
        optionalMember "adapter_id" .str e.adapterId ++
        optionalMember "adapter_version" .str e.adapterVersion ++
        tupleMember "selectors" TraceSelector.toJson e.selectors ++
        (if e.role = .unspecified then [] else [("role", Json.str e.role.value)] : Members) ++
        optionalMember "dataset_split" (fun s => .str s.text) e.datasetSplit ++
        optionalMember "source_value" BoundedValueRepresentation.toJson e.sourceValue ++
        optionalMember "normalized_value" BoundedValueRepresentation.toJson e.normalizedValue ++
        optionalMember "scan_completeness" TraceScan.toJson e.scanCompleteness ++
        tupleMember "consumer_rule_ids" .str e.consumerRuleIds ++
        tupleMember "source_trace_ids" .str e.sourceTraceIds))

def DeterministicAuditTrace.toJson (t : DeterministicAuditTrace) : Json :=
  .object (("verdict", .str t.verdict.value) :: ("audit_sha256", .str t.auditSha256.text) ::
    ("authority", .str "deterministic") :: tupleMember "rule_ids" .str t.ruleIds)

def AdvisoryResearchTrace.toJson (t : AdvisoryResearchTrace) : Json :=
  .object [("summary_sha256", .str t.summarySha256.text),
    ("interpretation_count", .int t.interpretationCount),
    ("missing_evidence_count", .int t.missingEvidenceCount), ("authority", .str "advisory")]

/-! ### Bundles -/

/-- The fields of `EvidenceTraceBundle`. -/
structure TraceBundleFields (ut : UnicodeTables) where
  headSha : GitCommitSha
  completeness : TraceCompleteness
  entries : List (EvidenceTraceEntry ut)
  deterministicAuthority : DeterministicAuditTrace
  advisoryInterpretation : Option AdvisoryResearchTrace
  omittedEntryCount : Nat
  omittedEntriesSha256 : Option Sha256Digest
  reasonCode : Option Str

namespace TraceBundleFields

variable (bundle : TraceBundleFields ut)

def toJson : Json :=
  .object (("version", .str EVIDENCE_TRACE_VERSION) :: ("head_sha", .str bundle.headSha.text) ::
    ("completeness", .str bundle.completeness.value) ::
    ("deterministic_authority", bundle.deterministicAuthority.toJson) ::
      (tupleMember "entries" (fun e => TraceEntryFields.toJson e.toTraceEntryFields)
          bundle.entries ++
        optionalMember "advisory_interpretation" AdvisoryResearchTrace.toJson
          bundle.advisoryInterpretation ++
        (if bundle.omittedEntryCount = 0 then []
          else [("omitted_entry_count", Json.int bundle.omittedEntryCount)] : Members) ++
        optionalMember "omitted_entries_sha256" (fun d => .str d.text)
          bundle.omittedEntriesSha256 ++
        optionalMember "reason_code" .str bundle.reasonCode))

def traceIds : List Str := bundle.entries.map fun entry => entry.traceId

/-- `by_id.get`. -/
def find (id : Str) : Option (EvidenceTraceEntry ut) :=
  bundle.entries.find? fun entry => entry.traceId = id

/-- The checks of one reference of an entry. -/
def checkSource (entry : EvidenceTraceEntry ut) (sourceId : Str) : Except Error Unit :=
  match bundle.find sourceId with
  | none => .error (traceError "trace entry cites an unknown source trace")
  | some source =>
    rejectIf (entry.recordKind == .derivedDeterministicEvidence &&
        source.authority != .passiveSource && source.authority != .deterministicDerivation)
      (traceError "deterministic derivation may cite only passive or derived evidence")

def checkSources : Except Error Unit :=
  bundle.entries.forM fun entry => entry.sourceTraceIds.forM (bundle.checkSource entry)

/-- The rules some entry was consumed by. -/
def consumedRuleIds : List Str := bundle.entries.flatMap fun entry => entry.consumerRuleIds

def checkComplete : Except Error Unit := do
  rejectIf (bundle.entries.isEmpty || bundle.omittedEntryCount != 0 ||
      bundle.omittedEntriesSha256.isSome || bundle.reasonCode.isSome)
    (traceError "complete trace cannot carry omissions or a reason")
  rejectIf (!(bundle.consumedRuleIds.all fun id =>
        bundle.deterministicAuthority.ruleIds.contains id) ||
      !(bundle.deterministicAuthority.ruleIds.all fun id => bundle.consumedRuleIds.contains id))
    (traceError "complete trace rule consumption does not match Audit authority")

def checkCompleteness : Except Error Unit :=
  match bundle.completeness with
  | .complete => bundle.checkComplete
  | .bounded =>
    rejectIf (bundle.omittedEntryCount < 1 || bundle.omittedEntriesSha256.isNone ||
        bundle.reasonCode.isNone)
      (traceError "bounded trace requires committed omissions and a reason")
  | .unavailable =>
    rejectIf (!bundle.entries.isEmpty || bundle.omittedEntryCount != 0 ||
        bundle.omittedEntriesSha256.isSome || bundle.reasonCode.isNone)
      (traceError "unavailable trace must carry only a fixed reason")

/-- The bound on the canonical JSON; integers have to fit the encoder. -/
def checkSize : Except Error Unit :=
  match dumps identityStyle bundle.toJson with
  | none => .error (contractError "serialized integer must fit the standard JSON encoder")
  | some text =>
    rejectIf (EVIDENCE_TRACE_MAX_BYTES < (asciiEncode text).length)
      (traceError "evidence trace exceeds the 16384-byte limit")

/-- `EvidenceTraceBundle.__post_init__`. -/
def check : Except Error Unit := do
  rejectIf (EVIDENCE_TRACE_MAX_ENTRIES < bundle.entries.length)
    (traceError "trace entries exceed their structural bound")
  rejectIf (bundle.reasonCode.any fun code => !isReasonCode code)
    (traceError "trace reason_code is invalid")
  rejectIf (!bundle.traceIds.Nodup) (traceError "trace entry identifiers must be unique")
  rejectIf (bundle.entries.any fun entry => entry.headSha != bundle.headSha)
    (traceError "trace entries must use the bundle head SHA")
  bundle.checkSources
  bundle.checkCompleteness
  bundle.checkSize

end TraceBundleFields

/-- A bundle that its validators accepted. -/
structure EvidenceTraceBundle (ut : UnicodeTables) extends TraceBundleFields ut where
  checked : toTraceBundleFields.check = .ok ()

end Projection

/-! ### What the checks of the references establish -/

section Sources

variable {ut : UnicodeTables}

theorem forM_ok_iff {α : Type} {f : α → Except Error Unit} {items : List α} :
    items.forM f = .ok () ↔ ∀ item ∈ items, f item = .ok () := by
  induction items with
  | nil => simp [pure, Except.pure]
  | cons item rest ih =>
    rw [List.forM_eq_forM, List.forM_cons, bind_ok_iff, List.forall_mem_cons]
    constructor
    · rintro ⟨⟨⟩, first, later⟩
      exact ⟨first, ih.mp later⟩
    · rintro ⟨first, later⟩
      exact ⟨(), first, ih.mpr later⟩

/-- What the kind of an entry says about its sources. -/
theorem EvidenceTraceEntry.sources_of_kind (entry : EvidenceTraceEntry ut) :
    entry.authority = authorityOf entry.recordKind ∧
      (entry.recordKind = .passiveSourceEvidence → entry.sourceTraceIds = []) ∧
      (entry.recordKind = .derivedDeterministicEvidence → entry.sourceTraceIds ≠ []) := by
  obtain ⟨_, shape, h⟩ := bind_ok_iff.mp entry.checked
  obtain ⟨⟨⟩, kind, _⟩ := bind_ok_iff.mp h
  refine ⟨?_, ?_, ?_⟩
  · obtain ⟨⟨⟩, _, shape⟩ := bind_ok_iff.mp shape
    obtain ⟨⟨⟩, authority, _⟩ := bind_ok_iff.mp shape
    simpa [rejectIf_ok_iff] using authority
  · intro passive
    rw [TraceEntryFields.checkKind, passive] at kind
    obtain ⟨_, _, kind⟩ := bind_ok_iff.mp kind
    obtain ⟨_, _, kind⟩ := bind_ok_iff.mp kind
    obtain ⟨_, _, kind⟩ := bind_ok_iff.mp kind
    obtain ⟨_, _, sources⟩ := bind_ok_iff.mp kind
    simpa [rejectIf_ok_iff] using sources
  · intro derived
    rw [TraceEntryFields.checkKind, derived] at kind
    obtain ⟨_, _, kind⟩ := bind_ok_iff.mp kind
    obtain ⟨⟨⟩, sources, _⟩ := bind_ok_iff.mp kind
    rw [rejectIf_ok_iff, Bool.or_eq_false_iff] at sources
    intro none
    rw [none] at sources
    exact absurd sources.2 (by decide)

/-- An entry of the bundle is a source of another one. -/
def IsSource (bundle : EvidenceTraceBundle ut) (source entry : EvidenceTraceEntry ut) : Prop :=
  source ∈ bundle.entries ∧ entry ∈ bundle.entries ∧ source.traceId ∈ entry.sourceTraceIds

/-- What the local checks say about the references of a bundle. -/
structure LocallyChecked (bundle : EvidenceTraceBundle ut) : Prop where
  distinct : bundle.traceIds.Nodup
  known : ∀ entry ∈ bundle.entries, ∀ id ∈ entry.sourceTraceIds,
    ∃ source ∈ bundle.entries, source.traceId = id
  derived : ∀ source entry, IsSource bundle source entry →
    entry.recordKind = .derivedDeterministicEvidence →
      source.recordKind = .passiveSourceEvidence ∨
        source.recordKind = .derivedDeterministicEvidence

theorem find_some {bundle : TraceBundleFields ut} {id : Str} {entry : EvidenceTraceEntry ut}
    (h : bundle.find id = some entry) : entry ∈ bundle.entries ∧ entry.traceId = id :=
  ⟨List.mem_of_find?_eq_some h, by simpa using List.find?_some h⟩

/-- With distinct identifiers an entry is found under its own. -/
theorem find_self {bundle : TraceBundleFields ut} (distinct : bundle.traceIds.Nodup)
    {entry : EvidenceTraceEntry ut} (member : entry ∈ bundle.entries) :
    bundle.find entry.traceId = some entry := by
  have found : (bundle.find entry.traceId).isSome = true := by
    rw [TraceBundleFields.find, List.find?_isSome]
    exact ⟨entry, member, by simp⟩
  obtain ⟨other, h⟩ := Option.isSome_iff_exists.mp found
  obtain ⟨present, same⟩ := find_some h
  rw [h, List.inj_on_of_nodup_map distinct present member same]

theorem EvidenceTraceBundle.locallyChecked (bundle : EvidenceTraceBundle ut) :
    LocallyChecked bundle := by
  obtain ⟨_, _, h⟩ := bind_ok_iff.mp bundle.checked
  obtain ⟨_, _, h⟩ := bind_ok_iff.mp h
  obtain ⟨⟨⟩, unique, h⟩ := bind_ok_iff.mp h
  obtain ⟨_, _, h⟩ := bind_ok_iff.mp h
  obtain ⟨⟨⟩, sources, _⟩ := bind_ok_iff.mp h
  have distinct : bundle.traceIds.Nodup := by simpa [rejectIf_ok_iff] using unique
  have each : ∀ entry ∈ bundle.entries, ∀ id ∈ entry.sourceTraceIds,
      bundle.checkSource entry id = .ok () :=
    fun entry member => forM_ok_iff.mp (forM_ok_iff.mp sources entry member)
  refine ⟨distinct, ?_, ?_⟩
  · intro entry member id cited
    have checked := each entry member id cited
    unfold TraceBundleFields.checkSource at checked
    split at checked
    · cases checked
    next source found => exact ⟨source, find_some found⟩
  · rintro source entry ⟨present, member, cited⟩ derived
    have checked := each entry member source.traceId cited
    rw [TraceBundleFields.checkSource, find_self distinct present] at checked
    -- the authority that is compared is the one of the source's kind
    have authority := source.sources_of_kind.1
    rw [rejectIf_ok_iff, derived, authority] at checked
    revert checked
    cases source.recordKind <;> decide

/-! ### The relation of sources -/

/-- The identifiers an identifier cites. -/
def sourcesOf (bundle : TraceBundleFields ut) (id : Str) : List Str :=
  match bundle.find id with
  | some entry => entry.sourceTraceIds
  | none => []

/-- The walk that the validator of obligation bundles makes over its references, made over the
sources of a trace: whether it ends without coming back to an entry on its way. -/
def walkEnds (bundle : TraceBundleFields ut) : Bool :=
  (Graph.visitAll (sourcesOf bundle) (bundle.entries.length + 1) bundle.traceIds).isSome

/-- What is asked of the sources: no entry comes from itself, every derived entry reaches one that
was captured from an artifact, and no derived entries only support each other. -/
structure SourcesSound (bundle : EvidenceTraceBundle ut) : Prop where
  acyclic : ∀ entry, ¬ TransGen (IsSource bundle) entry entry
  grounded : ∀ entry ∈ bundle.entries, entry.recordKind = .derivedDeterministicEvidence →
    ∃ source, source.recordKind = .passiveSourceEvidence ∧
      TransGen (IsSource bundle) source entry
  supported : ∀ group : List (EvidenceTraceEntry ut), group ≠ [] →
    (∀ entry ∈ group, entry ∈ bundle.entries ∧
      entry.recordKind = .derivedDeterministicEvidence) →
    ∃ entry ∈ group, ∃ source, IsSource bundle source entry ∧ source ∉ group

theorem sourcesOf_closed {bundle : EvidenceTraceBundle ut} (checks : LocallyChecked bundle) :
    ∀ id ∈ bundle.traceIds, sourcesOf bundle.toTraceBundleFields id ⊆ bundle.traceIds := by
  intro id member source cited
  obtain ⟨entry, present, rfl⟩ := List.mem_map.mp member
  rw [sourcesOf, find_self checks.distinct present] at cited
  obtain ⟨other, found, rfl⟩ := checks.known entry present source cited
  exact List.mem_map_of_mem found

/-- The relation of identifiers is the one of entries. -/
theorem isSource_iff {bundle : EvidenceTraceBundle ut} (checks : LocallyChecked bundle)
    {source entry : EvidenceTraceEntry ut} (present : source ∈ bundle.entries)
    (member : entry ∈ bundle.entries) :
    IsSource bundle source entry ↔
      Graph.ChildOf (sourcesOf bundle.toTraceBundleFields) source.traceId entry.traceId := by
  rw [Graph.ChildOf, sourcesOf, find_self checks.distinct member]
  exact ⟨fun h => h.2.2, fun cited => ⟨present, member, cited⟩⟩

/-- A way between entries is a way between their identifiers. -/
theorem below_of_transGen {bundle : EvidenceTraceBundle ut} (checks : LocallyChecked bundle)
    {source entry : EvidenceTraceEntry ut} (way : TransGen (IsSource bundle) source entry) :
    Graph.Below (sourcesOf bundle.toTraceBundleFields) source.traceId entry.traceId := by
  induction way with
  | single step => exact .single ((isSource_iff checks step.1 step.2.1).mp step)
  | tail _ step ih => exact .tail ih ((isSource_iff checks step.1 step.2.1).mp step)

/-- A way down between identifiers, from one that has an entry, is a way between entries. -/
theorem transGen_of_below {bundle : EvidenceTraceBundle ut} (checks : LocallyChecked bundle)
    {entry : EvidenceTraceEntry ut} (member : entry ∈ bundle.entries) {id : Str}
    (way : Graph.Below (sourcesOf bundle.toTraceBundleFields) id entry.traceId) :
    ∃ source ∈ bundle.entries, source.traceId = id ∧
      TransGen (IsSource bundle) source entry := by
  have start : ∀ {low high : Str},
      Graph.ChildOf (sourcesOf bundle.toTraceBundleFields) low high →
      ∀ upper ∈ bundle.entries, upper.traceId = high →
        ∃ lower ∈ bundle.entries, lower.traceId = low ∧ IsSource bundle lower upper := by
    rintro low high step upper present rfl
    have known := sourcesOf_closed checks _ (List.mem_map_of_mem present) step
    obtain ⟨lower, found, rfl⟩ := List.mem_map.mp known
    exact ⟨lower, found, rfl, (isSource_iff checks found present).mpr step⟩
  induction way using TransGen.head_induction_on with
  | single step =>
    obtain ⟨source, found, same, step⟩ := start step entry member rfl
    exact ⟨source, found, same, .single step⟩
  | head step _ ih =>
    obtain ⟨middle, found, same, way⟩ := ih
    obtain ⟨source, present, named, step⟩ := start step middle found same
    exact ⟨source, present, named, .head step way⟩

theorem walkEnds_iff {bundle : EvidenceTraceBundle ut} (checks : LocallyChecked bundle) :
    walkEnds bundle.toTraceBundleFields = true ↔
      ∀ id ∈ bundle.traceIds, ¬ Graph.Below (sourcesOf bundle.toTraceBundleFields) id id := by
  have length : bundle.entries.length = bundle.traceIds.length := by
    rw [TraceBundleFields.traceIds, List.length_map]
  rw [walkEnds, length]
  exact Graph.visitAll_isSome_iff (sourcesOf_closed checks)

/-- Where no way down goes on forever, a derived entry reaches one captured from an artifact: each
of its sources is either such an entry or derived itself, and it has one. -/
theorem grounded_of_acc {bundle : EvidenceTraceBundle ut} (checks : LocallyChecked bundle)
    {id : Str} (ends : Acc (Graph.ChildOf (sourcesOf bundle.toTraceBundleFields)) id) :
    ∀ entry ∈ bundle.entries, entry.traceId = id →
      entry.recordKind = .derivedDeterministicEvidence →
        ∃ source, source.recordKind = .passiveSourceEvidence ∧
          TransGen (IsSource bundle) source entry := by
  induction ends with
  | intro id _ ih =>
    rintro entry member rfl derived
    obtain ⟨cited, rest, some⟩ :=
      List.exists_cons_of_ne_nil (entry.sources_of_kind.2.2 derived)
    have first : cited ∈ entry.sourceTraceIds := some ▸ List.mem_cons_self
    obtain ⟨source, present, rfl⟩ := checks.known entry member cited first
    have step : IsSource bundle source entry := ⟨present, member, first⟩
    rcases checks.derived source entry step derived with passive | again
    · exact ⟨source, passive, .single step⟩
    · have down := (isSource_iff checks present member).mp step
      obtain ⟨ground, passive, way⟩ := ih source.traceId down source present rfl again
      exact ⟨ground, passive, .tail way step⟩

/-- A way up into a group of entries enters it from outside, when it starts outside. -/
theorem enters {α : Type} {r : α → α → Prop} {group : List α} {x y : α} (way : TransGen r x y)
    (outside : x ∉ group) (inside : y ∈ group) : ∃ b ∈ group, ∃ a, r a b ∧ a ∉ group := by
  induction way with
  | single step => exact ⟨_, inside, x, step, outside⟩
  | @tail middle last _ step ih =>
    by_cases within : middle ∈ group
    · exact ih within
    · exact ⟨last, inside, middle, step, within⟩

/-- Of every accepted bundle: its sources are sound exactly when the walk over them ends. -/
theorem EvidenceTraceBundle.sourcesSound_iff (bundle : EvidenceTraceBundle ut) :
    SourcesSound bundle ↔ walkEnds bundle.toTraceBundleFields = true := by
  have checks := bundle.locallyChecked
  rw [walkEnds_iff checks]
  constructor
  -- a cycle of sources would be a cycle of the walk
  · intro sound id member cycle
    obtain ⟨entry, present, rfl⟩ := List.mem_map.mp member
    obtain ⟨source, found, same, way⟩ := transGen_of_below checks present cycle
    rw [List.inj_on_of_nodup_map checks.distinct found present same] at way
    exact sound.acyclic entry way
  -- without a cycle each entry rests on entries without sources
  · intro acyclic
    have grounded : ∀ entry ∈ bundle.entries,
        entry.recordKind = .derivedDeterministicEvidence →
          ∃ source, source.recordKind = .passiveSourceEvidence ∧
            TransGen (IsSource bundle) source entry := by
      intro entry member
      have ends := Graph.acc_of_acyclic (sourcesOf_closed checks) acyclic
        (List.mem_map_of_mem member)
      exact grounded_of_acc checks ends entry member rfl
    refine ⟨?_, grounded, ?_⟩
    · intro entry cycle
      have member : entry ∈ bundle.entries := by
        cases cycle with
        | single step => exact step.2.1
        | tail _ step => exact step.2.1
      apply acyclic entry.traceId (List.mem_map_of_mem member)
      exact below_of_transGen checks cycle
    · intro group filled derived
      obtain ⟨entry, rest, rfl⟩ := List.exists_cons_of_ne_nil filled
      obtain ⟨member, kind⟩ := derived entry List.mem_cons_self
      obtain ⟨source, passive, way⟩ := grounded entry member kind
      apply enters way _ List.mem_cons_self
      intro within
      have again := (derived source within).2
      rw [passive] at again
      cases again

end Sources

/-! ### Derived entries that cite each other -/

def sampleTables : UnicodeTables := ⟨id, fun _ => false⟩

def sampleDigest : Sha256Digest := ⟨List.replicate 64 0x61, by decide⟩

def sampleHead : GitCommitSha := ⟨List.replicate 40 0x31, by decide⟩

def sampleNumber : BoundedValueRepresentation where
  valueType := .number
  count := 1
  canonicalSha256 := sampleDigest
  directValues := [.integer 1 (by decide)]
  byteCount := some 32
  preview := by decide

def sampleDerived (traceId source : Str) : TraceEntryFields sampleTables where
  traceId := traceId
  recordKind := .derivedDeterministicEvidence
  authority := .deterministicDerivation
  headSha := sampleHead
  provenanceKind := none
  detailCode := "result.summary"
  normalizedValue := some sampleNumber
  consumerRuleIds := ["RESULT.RECOMPUTED"]
  sourceTraceIds := [source]

/-- The summary of one arm from the other's, and the other way round. -/
def baselineSummary : EvidenceTraceEntry sampleTables :=
  ⟨sampleDerived "summary-baseline" "summary-candidate", by decide +kernel⟩

def candidateSummary : EvidenceTraceEntry sampleTables :=
  ⟨sampleDerived "summary-candidate" "summary-baseline", by decide +kernel⟩

def mutualBundle : EvidenceTraceBundle sampleTables where
  headSha := sampleHead
  completeness := .complete
  entries := [baselineSummary, candidateSummary]
  deterministicAuthority := ⟨.supported, sampleDigest, ["RESULT.RECOMPUTED"], by decide,
    by decide +kernel⟩
  advisoryInterpretation := none
  omittedEntryCount := 0
  omittedEntriesSha256 := none
  reasonCode := none
  checked := by decide +kernel

/-- Two derived entries that cite each other pass every check of a complete bundle. -/
theorem mutualBundle_not_sound :
    ¬ ∀ (ut : UnicodeTables) (bundle : EvidenceTraceBundle ut), SourcesSound bundle := by
  intro sound
  have there : IsSource mutualBundle candidateSummary baselineSummary :=
    ⟨List.mem_cons_of_mem _ List.mem_cons_self, List.mem_cons_self, List.mem_cons_self⟩
  have back : IsSource mutualBundle baselineSummary candidateSummary :=
    ⟨List.mem_cons_self, List.mem_cons_of_mem _ List.mem_cons_self, List.mem_cons_self⟩
  apply (sound sampleTables mutualBundle).acyclic baselineSummary
  exact .tail (.single back) there

end ClaimCI
