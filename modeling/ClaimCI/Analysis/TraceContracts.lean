import ClaimCI.Analysis.ArtifactSource
import ClaimCI.Analysis.RepositoryPaths

/-!
# Evidence traces

The bounded records that say where the evidence of an audit comes from, and the bundle of them.
-/

open Python

namespace ClaimCI

def EVIDENCE_TRACE_VERSION : Str := "claimci.evidence-trace.v1"
def EVIDENCE_TRACE_MAX_BYTES : Nat := 16384
def EVIDENCE_TRACE_MAX_ENTRIES : Nat := 32
def EVIDENCE_TRACE_MAX_SELECTORS : Nat := 32
def EVIDENCE_TRACE_MAX_RULE_IDS : Nat := 32
def EVIDENCE_TRACE_MAX_SOURCE_IDS : Nat := 32
def EVIDENCE_TRACE_MAX_DIRECT_VALUES : Nat := 8
def EVIDENCE_TRACE_MAX_TEXT : Nat := 512
def MAX_SAFE_JSON_INTEGER : Nat := 9007199254740991

inductive TraceRecordKind where
  | naturalLanguageClaim | llmSemanticProposal | passiveSourceEvidence
  | derivedDeterministicEvidence | approvedMapping
  deriving DecidableEq, Repr

def TraceRecordKind.value : TraceRecordKind → Str
  | naturalLanguageClaim => "natural_language_claim"
  | llmSemanticProposal => "llm_semantic_proposal"
  | passiveSourceEvidence => "passive_source_evidence"
  | derivedDeterministicEvidence => "derived_deterministic_evidence"
  | approvedMapping => "approved_mapping"

inductive TraceAuthorityClass where
  | nonAuthoritativeInput | passiveSource | deterministicDerivation | explicitMappingApproval
  deriving DecidableEq, Repr

def TraceAuthorityClass.value : TraceAuthorityClass → Str
  | nonAuthoritativeInput => "non_authoritative_input"
  | passiveSource => "passive_source"
  | deterministicDerivation => "deterministic_derivation"
  | explicitMappingApproval => "explicit_mapping_approval"

/-- `_AUTHORITY_BY_KIND`. -/
def authorityOf : TraceRecordKind → TraceAuthorityClass
  | .naturalLanguageClaim => .nonAuthoritativeInput
  | .llmSemanticProposal => .nonAuthoritativeInput
  | .passiveSourceEvidence => .passiveSource
  | .derivedDeterministicEvidence => .deterministicDerivation
  | .approvedMapping => .explicitMappingApproval

inductive TraceCompleteness where
  | complete | bounded | unavailable
  deriving DecidableEq, Repr

def TraceCompleteness.value : TraceCompleteness → Str
  | complete => "complete"
  | bounded => "bounded"
  | unavailable => "unavailable"

inductive TraceValueType where
  | null | boolean | number | string | sequence | mapping | bytes
  deriving DecidableEq, Repr

def TraceValueType.value : TraceValueType → Str
  | null => "null"
  | boolean => "boolean"
  | number => "number"
  | string => "string"
  | sequence => "sequence"
  | mapping => "mapping"
  | bytes => "bytes"

/-! ### Texts -/

/-- `TraceContractError` and its subclass `TraceLimitError`, which are `ValueError`s. -/
def traceError (message : Str) : Error := .valueError message

/-- `_bounded_text`. -/
def traceText (label value : Str) (maximum : Nat) : Except Error Unit := do
  rejectIf (value == [] || maximum < value.length)
    (traceError (label ++ lit " must be bounded non-empty text"))
  rejectIf (value != strip value || hasControl value)
    (traceError (label ++ lit " must be canonical bounded text"))

/-- `_identifier`. -/
def traceIdentifier (label value : Str) : Except Error Unit := traceText label value 128

/-- `_RULE_ID.fullmatch`: two or more dotted parts. -/
def isRuleId (s : Str) : Bool :=
  let upper : CodePoint → Bool := fun c => 0x41 ≤ c.val && c.val ≤ 0x5A
  let digit : CodePoint → Bool := fun c => 0x30 ≤ c.val && c.val ≤ 0x39
  let parts := split DOT s
  2 ≤ parts.length && parts.all fun part =>
    part.head?.any upper && part.tail.all fun c => upper c || digit c || (lit "_").contains c

/-- `_REASON_CODE.fullmatch`. -/
def isReasonCode (s : Str) : Bool :=
  let lower : CodePoint → Bool := fun c => 0x61 ≤ c.val && c.val ≤ 0x7A
  let digit : CodePoint → Bool := fun c => 0x30 ≤ c.val && c.val ≤ 0x39
  s.head?.any lower && s.tail.all (fun c => lower c || digit c || (lit "_").contains c) &&
    s.length ≤ 128

/-- `_validate_text_tuple`; without a validator every identifier passes. -/
def validateTextTuple (values : List Str) (label : Str) (maximum : Nat)
    (validator : Str → Bool) : Except Error Unit := do
  rejectIf (maximum < values.length) (traceError (lit "trace " ++ label ++ lit " exceeds its bound"))
  rejectIf (!values.Nodup) (traceError (lit "trace " ++ label ++ lit " must be unique"))
  values.forM fun value => do
    traceIdentifier (lit "trace " ++ label ++ lit " item") value
    rejectIf (!validator value) (traceError (lit "trace " ++ label ++ lit " item is invalid"))

/-! ### Values -/

/-- A preview value; numbers are finite, and integers are the ones every JSON runtime keeps. -/
inductive TraceDirectScalar where
  | null
  | boolean (value : Bool)
  | integer (value : Int) (exact : value.natAbs ≤ MAX_SAFE_JSON_INTEGER)
  | number (value : Binary64)

def TraceDirectScalar.toJson : TraceDirectScalar → Json
  | null => .null
  | boolean value => .bool value
  | integer value _ => .int value
  | number value => .float value

/-- A commitment to source values with only safe scalar previews. -/
structure BoundedValueRepresentation where
  valueType : TraceValueType
  count : Nat
  canonicalSha256 : Sha256Digest
  directValues : List TraceDirectScalar
  byteCount : Option Nat
  preview : directValues.length ≤ EVIDENCE_TRACE_MAX_DIRECT_VALUES

inductive ScanPurpose where
  | integrityOnly | schema | selectedObservations | datasetRecords
  deriving DecidableEq, Repr

def ScanPurpose.value : ScanPurpose → Str
  | integrityOnly => "integrity_only"
  | schema => "schema"
  | selectedObservations => "selected_observations"
  | datasetRecords => "dataset_records"

/-- The reasons of the scans of every purpose. -/
inductive TraceScanReason where
  | records (reason : ScanReason)
  | observationBudget | columnLimit | candidateLimit | integrityBudget | sizeMismatch | shaMismatch
  | sourceChanged | selectorMismatch
  deriving DecidableEq

def TraceScanReason.value : TraceScanReason → Str
  | records reason => reason.value
  | observationBudget => "observation_budget"
  | columnLimit => "column_limit"
  | candidateLimit => "candidate_limit"
  | integrityBudget => "integrity_budget"
  | sizeMismatch => "size_mismatch"
  | shaMismatch => "sha_mismatch"
  | sourceChanged => "source_changed"
  | selectorMismatch => "selector_mismatch"

/-- `ScanCompleteness` as a trace carries it, of a scan of any purpose and in any state. -/
structure TraceScan where
  purpose : ScanPurpose
  state : ScanState
  reason : TraceScanReason
  recordsScanned : Nat
  semanticBytes : Nat
  integrityBytes : Nat
  expectedBytes : Nat
  integrityVerified : Bool
  peakBufferBytes : Nat
  scratchBytes : Nat
  exact : integrityVerified = true → integrityBytes = expectedBytes
  covered : semanticBytes ≤ integrityBytes
  complete : state = .complete → integrityVerified = true
  reasonAgrees : state = .complete ↔ reason = .records .complete

/-! ### Selectors -/

structure TraceTablePredicate (ut : UnicodeTables) where
  column : Str
  scalarType : TableScalarType
  canonicalValue : Str
  columnNamed : traceIdentifier "trace table predicate column" column = .ok ()
  valueValid : canonicalValue.length ≤ 1024 ∧ canonicalValue.any ut.isOther = false ∧
    (canonicalValue = [] → scalarType = .string)
  deriving DecidableEq

/-- The checks on the predicates and the cardinality of a selector; the predicates come sorted. -/
def TraceSelector.checkTable {ut : UnicodeTables} (kind : SelectorKind)
    (predicates : List (TraceTablePredicate ut)) (expectedCardinality : Option Nat) :
    Except Error Unit :=
  match predicates with
  | [] =>
    rejectIf expectedCardinality.isSome
      (traceError "trace selector cardinality requires exact table predicates")
  | _ :: _ => do
    rejectIf (8 < predicates.length)
      (traceError "trace table selector predicates exceed their bound")
    rejectIf (!(predicates.map TraceTablePredicate.column).Nodup)
      (traceError "trace table selector predicate columns must be unique")
    rejectIf (kind != .column) (traceError "trace table selector must target a table column")
    rejectIf (!(expectedCardinality.any fun n => 1 ≤ n && n ≤ 32))
      (traceError "trace table selector cardinality must be between one and 32")

structure TraceSelector (ut : UnicodeTables) where
  targetField : Str
  kind : SelectorKind
  expression : Str
  tablePredicates : List (TraceTablePredicate ut)
  expectedCardinality : Option Nat
  fieldNamed : traceIdentifier "trace selector target_field" targetField = .ok ()
  expressed : traceText "trace selector expression" expression 1024 = .ok ()
  ordered : tablePredicates.Pairwise fun p q => strLe p.column q.column = true
  table : TraceSelector.checkTable kind tablePredicates expectedCardinality = .ok ()
  deriving DecidableEq

/-! ### Entries -/

/-- The fields of `EvidenceTraceEntry`. -/
structure TraceEntryFields (ut : UnicodeTables) where
  traceId : Str
  recordKind : TraceRecordKind
  authority : TraceAuthorityClass
  headSha : GitCommitSha
  provenanceKind : Option ProvenanceKind
  detailCode : Str
  sourcePath : Option RepositoryPath := none
  sourceId : Option Str := none
  artifactPath : Option RepositoryPath := none
  artifactSha256 : Option Sha256Digest := none
  artifactSize : Option Nat := none
  artifactKind : Option ArtifactKind := none
  adapterId : Option Str := none
  adapterVersion : Option Str := none
  selectors : List (TraceSelector ut) := []
  role : ExperimentRole := .unspecified
  datasetSplit : Option Split := none
  sourceValue : Option BoundedValueRepresentation := none
  normalizedValue : Option BoundedValueRepresentation := none
  scanCompleteness : Option TraceScan := none
  consumerRuleIds : List Str := []
  sourceTraceIds : List Str := []

namespace TraceEntryFields

variable {ut : UnicodeTables} (entry : TraceEntryFields ut)

/-- Which of the artifact identity fields are there. -/
def artifactValues : List Bool :=
  [entry.artifactPath.isSome, entry.artifactSha256.isSome, entry.artifactSize.isSome,
    entry.artifactKind.isSome]

/-- The checks of the single fields. -/
def checkShape : Except Error Unit := do
  traceIdentifier "trace_id" entry.traceId
  rejectIf (entry.authority != authorityOf entry.recordKind)
    (traceError "trace record kind has an invalid authority class")
  traceText "trace detail_code" entry.detailCode EVIDENCE_TRACE_MAX_TEXT
  entry.sourceId.forM (traceIdentifier "trace source_id")
  -- path, digest, size and kind of the artifact are all there or all absent
  rejectIf (entry.artifactValues.any id && !entry.artifactValues.all id)
    (traceError "trace artifact identity fields must appear together")
  rejectIf (entry.adapterId.any fun id => !isAdapterId id)
    (traceError "trace adapter_id must be a trusted registry identifier")
  entry.adapterVersion.forM fun version => traceText "trace adapter_version" version 64
  rejectIf (EVIDENCE_TRACE_MAX_SELECTORS < entry.selectors.length)
    (traceError "trace selectors must be a bounded TraceSelector tuple")
  rejectIf (!entry.selectors.Nodup) (traceError "trace selectors must be unique")
  rejectIf (entry.scanCompleteness.any fun scan =>
      entry.recordKind != .passiveSourceEvidence || !scan.integrityVerified ||
        entry.artifactSize != some scan.expectedBytes)
    (traceError "trace scan completeness requires exact passive source integrity")
  validateTextTuple entry.consumerRuleIds "consumer_rule_ids" EVIDENCE_TRACE_MAX_RULE_IDS isRuleId
  validateTextTuple entry.sourceTraceIds "source_trace_ids" EVIDENCE_TRACE_MAX_SOURCE_IDS
    fun _ => true
  rejectIf (entry.sourceTraceIds.contains entry.traceId)
    (traceError "trace entry cannot cite itself as a source")
  rejectIf (entry.provenanceKind == some .providerProposal &&
      entry.authority != .nonAuthoritativeInput)
    (traceError "provider provenance cannot become passive or deterministic evidence")

def checkPassive : Except Error Unit := do
  rejectIf (entry.provenanceKind != some .adapterExtraction)
    (traceError "passive source evidence requires adapter extraction provenance")
  rejectIf (entry.artifactPath.isNone || entry.adapterId.isNone)
    (traceError "passive source evidence requires artifact identity")
  rejectIf (entry.sourceValue.isNone || entry.normalizedValue.isNone)
    (traceError "passive source evidence requires value representations")
  rejectIf entry.consumerRuleIds.isEmpty
    (traceError "passive source evidence requires consumer rule IDs")
  rejectIf (!entry.sourceTraceIds.isEmpty)
    (traceError "passive source evidence cannot cite proposed sources")

def checkDerived : Except Error Unit := do
  rejectIf entry.provenanceKind.isSome
    (traceError "deterministic derivation cannot carry source provenance")
  rejectIf (entry.normalizedValue.isNone || entry.sourceTraceIds.isEmpty)
    (traceError "deterministic derivation requires values and sources")
  rejectIf entry.consumerRuleIds.isEmpty
    (traceError "deterministic derivation requires consumer rule IDs")

def checkProposal : Except Error Unit := do
  rejectIf (entry.provenanceKind != some .providerProposal)
    (traceError "LLM proposal requires provider provenance")
  rejectIf (!entry.consumerRuleIds.isEmpty)
    (traceError "LLM proposal cannot consume deterministic rules")

def checkMapping : Except Error Unit := do
  rejectIf (entry.provenanceKind != some .userApproved)
    (traceError "approved mapping requires user approval provenance")
  rejectIf entry.sourceTraceIds.isEmpty
    (traceError "approved mapping requires exact source bindings")
  rejectIf (!entry.consumerRuleIds.isEmpty)
    (traceError "mapping approval is not deterministic rule authority")

def checkClaim : Except Error Unit :=
  rejectIf entry.sourceValue.isNone
    (traceError "natural-language claim requires a source commitment")

/-- The checks of a record kind. -/
def checkKind : Except Error Unit :=
  match entry.recordKind with
  | .passiveSourceEvidence => entry.checkPassive
  | .derivedDeterministicEvidence => entry.checkDerived
  | .llmSemanticProposal => entry.checkProposal
  | .approvedMapping => entry.checkMapping
  | .naturalLanguageClaim => entry.checkClaim

/-- `EvidenceTraceEntry.__post_init__`. -/
def check : Except Error Unit := do
  entry.checkShape
  entry.checkKind
  rejectIf (entry.recordKind != .passiveSourceEvidence && entry.artifactValues.any id)
    (traceError "only passive evidence may carry artifact identity")
  rejectIf (entry.datasetSplit.isSome && entry.artifactKind != some .dataset)
    (traceError "only dataset evidence may carry a split")

end TraceEntryFields

structure EvidenceTraceEntry (ut : UnicodeTables) extends TraceEntryFields ut where
  checked : toTraceEntryFields.check = .ok ()

/-! ### Authorities -/

/-- `DeterministicAuditTrace`: what one audit result says, by its verdict, its digest and its
rules. -/
structure DeterministicAuditTrace where
  verdict : Verdict
  auditSha256 : Sha256Digest
  ruleIds : List Str
  ordered : ruleIds.Pairwise fun a b => strLe a b = true
  rulesValid : validateTextTuple ruleIds "deterministic rule_ids" EVIDENCE_TRACE_MAX_RULE_IDS
    isRuleId = .ok ()

/-- `AdvisoryResearchTrace`: a digest and two counts, and nothing of a verdict. -/
structure AdvisoryResearchTrace where
  summarySha256 : Sha256Digest
  interpretationCount : Nat
  missingEvidenceCount : Nat

end ClaimCI
