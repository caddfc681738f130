import ClaimCI.Analysis.Selectors
import ClaimCI.Python.JsonCanonical
import ClaimCI.Python.OptionalKeys
import ClaimCI.Python.Statistics

/-!
# Selection of a mapping

The candidates of a discovery are narrowed to the artifacts of one claim, and the planner takes the
approved mapping or one that all trusted candidates agree on.
-/

open Python

namespace ClaimCI

/-! ### Words -/

inductive DatasetSplit where
  | train | eval
  deriving DecidableEq, Repr

def DatasetSplit.value : DatasetSplit → Str
  | train => "train"
  | eval => "eval"

inductive MappingTrust where
  | inferred | manifestHint | userApproved
  deriving DecidableEq, Repr

def MappingTrust.value : MappingTrust → Str
  | inferred => "inferred"
  | manifestHint => "manifest_hint"
  | userApproved => "user_approved"

/-- A confidence from zero through one, which is `2 ^ 1074` times the least positive double. -/
structure Confidence where
  value : Binary64
  bounded : (Binary64.zero false).le value = true ∧ value.units ≤ 2 ^ 1074
  deriving DecidableEq

/-! ### Field mappings -/

/-- `selector_identity` without its first word. -/
inductive SelectorIdentity where
  | field (kind expression : Str)
  | table (column : Str) (cardinality : Nat) (predicates : List (Str × Str × Str))
  deriving DecidableEq

variable (ut : UnicodeTables)

structure FieldMapping where
  targetField : Str
  selector : Selector ut
  provenance : FieldProvenance

variable {ut}

def Selector.identity : Selector ut → SelectorIdentity
  | .field s => .field s.kind.value s.expression
  | .table s => .table s.column s.expectedCardinality
      (s.predicates.map fun p => (p.column, p.scalarType.value, p.canonicalValue))

/-- `field_mapping_identity`. -/
def fieldMappingIdentity (mapping : FieldMapping ut) : Str × SelectorIdentity :=
  (mapping.targetField, mapping.selector.identity)

/-- `field_mapping_projection`; the targets are unique, so they decide the order. -/
def fieldMappingProjection (mappings : List (FieldMapping ut)) : List (Str × SelectorIdentity) :=
  (sortBy FieldMapping.targetField mappings).map fieldMappingIdentity

/-- `a == b`. -/
def FieldMapping.eq (a b : FieldMapping ut) : Bool :=
  a.targetField == b.targetField && a.selector.eq b.selector && a.provenance == b.provenance

/-- Equality of two tuples of mappings. -/
def mappingsEq : List (FieldMapping ut) → List (FieldMapping ut) → Bool
  | [], [] => true
  | a :: as, b :: bs => a.eq b && mappingsEq as bs
  | _, _ => false

/-! ### Bindings and evidence -/

variable (ut) in
structure ArtifactBinding where
  path : Str
  kind : ArtifactKind
  role : ExperimentRole
  adapterId : Option Str
  mappings : List (FieldMapping ut)
  provenance : FieldProvenance
  datasetSplit : Option DatasetSplit
  targets : (mappings.map FieldMapping.targetField).Nodup
  split : kind ≠ .dataset → datasetSplit = none

/-- What tells the bindings of one mapping apart. -/
def ArtifactBinding.slot (binding : ArtifactBinding ut) :
    Str × ArtifactKind × ExperimentRole × Option DatasetSplit :=
  (binding.path, binding.kind, binding.role, binding.datasetSplit)

variable (ut) in
structure AdapterMatch where
  adapterId : Str
  mappings : List (FieldMapping ut)
  targets : (mappings.map FieldMapping.targetField).Nodup

/-- What planning reads of one observation. -/
structure PlannedObservation where
  experimentRole : ExperimentRole
  datasetReferences : List Str

variable (ut) in
/-- What planning reads of one normalized evidence. -/
structure PlannedEvidence where
  path : Str
  kind : ArtifactKind
  relevantClaimIds : List Str
  adapterMatch : AdapterMatch ut
  observations : List PlannedObservation

/-- `evidence_matches_binding`. -/
def evidenceMatchesBinding (evidence : PlannedEvidence ut) (binding : ArtifactBinding ut) : Bool :=
  evidence.path == binding.path && evidence.kind == binding.kind &&
    (binding.adapterId == none || binding.adapterId == some evidence.adapterMatch.adapterId) &&
    (binding.mappings.isEmpty ||
      fieldMappingProjection evidence.adapterMatch.mappings == fieldMappingProjection binding.mappings)

/-- `evidence_for_binding`: only a unique match is one. -/
def evidenceForBinding (binding : ArtifactBinding ut) (evidence : List (PlannedEvidence ut)) :
    Option (PlannedEvidence ut) :=
  match evidence.filter fun item => evidenceMatchesBinding item binding with
  | [item] => some item
  | _ => none

/-! ### Signatures -/

structure BindingSignature where
  path : Str
  kind : Str
  role : Str
  adapterId : Option Str
  datasetSplit : Option Str
  mappings : List (Str × SelectorIdentity)
  deriving DecidableEq

/-- `_binding_signature`. -/
def bindingSignature (binding : ArtifactBinding ut) : BindingSignature :=
  ⟨binding.path, binding.kind.value, binding.role.value, binding.adapterId,
    binding.datasetSplit.map DatasetSplit.value, fieldMappingProjection binding.mappings⟩

/-- The part that the order of two signatures is decided by: the bindings of a mapping differ in path,
kind, role or split, so that the mappings are not compared. -/
def BindingSignature.key (signature : BindingSignature) : OptionalKey :=
  [some signature.path, some signature.kind, some signature.role, signature.adapterId,
    signature.datasetSplit]

def NONE_COMPARISON : Str := "'<' not supported between instances of 'NoneType' and 'str'"

/-- `tuple(sorted(_binding_signature(item) for item in bindings))`. -/
def sortedSignatures (bindings : List (ArtifactBinding ut)) : Except Error (List BindingSignature) :=
  match sortedByKey BindingSignature.key (bindings.map bindingSignature) with
  | some signatures => .ok signatures
  | none => .error (.typeError NONE_COMPARISON)

/-! ### Mappings -/

/-- The trust of a candidate goes with the kind of its provenance. -/
def CandidateTrust (trust : MappingTrust) (kind : ProvenanceKind) : Prop :=
  trust = .manifestHint ∧ kind = .manifestHint ∨
    trust = .inferred ∧ kind ≠ .manifestHint ∧ kind ≠ .userApproved

variable (ut) in
structure MappingCandidate where
  mappingId : Str
  bindings : List (ArtifactBinding ut)
  confidence : Confidence
  trust : MappingTrust
  provenance : FieldProvenance
  filled : bindings ≠ []
  distinct : (bindings.map ArtifactBinding.slot).Nodup
  trusted : CandidateTrust trust provenance.kind

variable (ut) in
/-- An approved mapping. -/
structure RepoMapping where
  bindings : List (ArtifactBinding ut)
  approvedBy : Str
  sourceMappingId : Str
  filled : bindings ≠ []
  distinct : (bindings.map ArtifactBinding.slot).Nodup

variable (ut) in
/-- What the selection reads of a planning request. -/
structure PlanningRequest where
  claimId : Str
  normalizedEvidence : List (PlannedEvidence ut)
  mappingCandidates : List (MappingCandidate ut)
  approvedMapping : Option (RepoMapping ut)
  hasScientificClaim : Bool
  /-- "planning mapping candidate identifiers must be unique" -/
  identified : (mappingCandidates.map MappingCandidate.mappingId).Nodup

variable (ut) in
/-- A selected profile. `mapping_matches_evidence_profile` is not embedded but a parameter: it is
called with the claim and the evidence of the request, reads a mapping's bindings alone, and may
raise. Every result about the selection holds for whatever it answers. -/
structure ProfileCheck where
  profileId : EvidenceProfileId
  mappingMatches : List (ArtifactBinding ut) → Except Error Bool

/-- `_evidence_supports_role`. -/
def evidenceSupportsRole (evidence : PlannedEvidence ut) (role : ExperimentRole) : Bool :=
  evidence.observations.all fun item =>
    item.experimentRole == .unspecified || item.experimentRole == role

section Selection

variable (request : PlanningRequest ut) (profile : Option (ProfileCheck ut))

/-- The roles that a binding may have. -/
def roleAllowed (role : ExperimentRole) : Bool :=
  role == .baseline || role == .candidate ||
    role == .reference && profile.any fun check => check.profileId == .benchmarkMeasurementV0

/-- `_mapping_is_runtime_revalidatable`, of one binding. -/
def bindingRevalidates (binding : ArtifactBinding ut) : Bool :=
  roleAllowed profile binding.role &&
    match evidenceForBinding binding request.normalizedEvidence with
    | none => false
    | some evidence =>
      evidence.relevantClaimIds.contains request.claimId &&
        binding.adapterId == some evidence.adapterMatch.adapterId &&
        mappingsEq binding.mappings evidence.adapterMatch.mappings &&
        evidenceSupportsRole evidence binding.role &&
        !(binding.kind == .dataset && evidence.observations.any fun observation =>
          observation.datasetReferences.any fun reference => reference != evidence.path)

/-- `_mapping_covers_native_inputs` without a profile. -/
def coversNativeInputs (bindings : List (ArtifactBinding ut)) : Bool :=
  [ExperimentRole.baseline, .candidate].all fun role =>
    let roleBindings := bindings.filter fun item => item.role == role
    [ArtifactKind.results, .config].all (fun kind => roleBindings.any fun item => item.kind == kind) &&
      [DatasetSplit.train, .eval].all fun split =>
        (roleBindings.filter fun item =>
          item.kind == .dataset && item.datasetSplit == some split).length == 1

/-- `_mapping_covers_native_inputs`. -/
def mappingCoversNativeInputs (bindings : List (ArtifactBinding ut)) : Except Error Bool :=
  match profile with
  | none => .ok (coversNativeInputs bindings)
  | some check => if request.hasScientificClaim then check.mappingMatches bindings else .ok false

/-- `_mapping_is_runtime_revalidatable`. -/
def mappingIsRuntimeRevalidatable (bindings : List (ArtifactBinding ut)) : Except Error Bool :=
  if bindings.isEmpty then .ok false
  else if bindings.all (bindingRevalidates request profile) then
    mappingCoversNativeInputs request profile bindings
  else .ok false

/-- The candidates that revalidate, in their order. -/
def validCandidates : List (MappingCandidate ut) → Except Error (List (MappingCandidate ut))
  | [] => .ok []
  | item :: items => do
    let valid ← mappingIsRuntimeRevalidatable request profile item.bindings
    let rest ← validCandidates items
    pure (if valid then item :: rest else rest)

/-- The mantissa of the double nearest to 0.90, in steps of `2 ^ -53`. -/
def TRUSTED_MANTISSA : Nat := 8106479329266893

/-- `value >= 0.90`. -/
def Confidence.isTrusted (confidence : Confidence) : Bool :=
  (TRUSTED_MANTISSA : Int) * 2 ^ 1021 ≤ confidence.value.units

example : (Binary64.ofDecimal ⟨false, 9, -1⟩).map Binary64.units =
    some ((TRUSTED_MANTISSA : Int) * 2 ^ 1021) := by decide +kernel

/-- A candidate that may be taken without an approval. -/
def isEligible (item : MappingCandidate ut) : Bool :=
  item.confidence.isTrusted && item.provenance.kind != .providerProposal

/-- `provenance_priority.get(kind, 2)`. -/
def provenancePriority : ProvenanceKind → Nat
  | .deterministicDiscovery => 0
  | .manifestHint => 1
  | _ => 2

/-- The first comes before the second: by priority, by descending confidence, by identifier. -/
def choiceLe (a b : MappingCandidate ut) : Bool :=
  if provenancePriority a.provenance.kind ≠ provenancePriority b.provenance.kind then
    provenancePriority a.provenance.kind < provenancePriority b.provenance.kind
  else if a.confidence.value.units ≠ b.confidence.value.units then
    b.confidence.value.units < a.confidence.value.units
  else strLe a.mappingId b.mappingId

/-- `min` by that order: the first least one. -/
def firstChoice : List (MappingCandidate ut) → Option (MappingCandidate ut)
  | [] => none
  | item :: items => some (items.foldl (fun best other => if choiceLe best other then best else other) item)

/-- What the selection returns. -/
inductive SelectedMapping (ut : UnicodeTables) where
  | candidate (item : MappingCandidate ut)
  | approved (item : RepoMapping ut)

/-- The least eligible candidate, when the valid ones have one signature. -/
def agreedCandidate (valid : List (MappingCandidate ut)) (signatures : List (List BindingSignature)) :
    Option (MappingCandidate ut) :=
  if signatures.dedup.length = 1 then firstChoice (valid.filter isEligible) else none

/-- `_select_mapping`. -/
def selectMapping : Except Error (Option (SelectedMapping ut)) := do
  let valid ← validCandidates request profile request.mappingCandidates
  match request.approvedMapping with
  | some approved =>
    let trusted ← mappingIsRuntimeRevalidatable request profile approved.bindings
    pure (if trusted then some (.approved approved) else none)
  | none =>
    let signatures ← valid.mapM fun item => sortedSignatures item.bindings
    pure ((agreedCandidate valid signatures).map .candidate)

end Selection

/-! ### Narrowing to one claim -/

section Scope

variable (evidence : List (PlannedEvidence ut))

/-- `_hydrate_binding`. -/
def hydrateBinding (binding : ArtifactBinding ut) : ArtifactBinding ut :=
  match evidenceForBinding binding evidence with
  | none => binding
  | some item =>
    let runtime := item.adapterMatch
    if binding.adapterId ≠ none ∧ binding.adapterId ≠ some runtime.adapterId then binding
    else if binding.mappings.isEmpty = false ∧
        fieldMappingProjection binding.mappings ≠ fieldMappingProjection runtime.mappings then binding
    else { binding with
      adapterId := some runtime.adapterId
      mappings := runtime.mappings
      targets := runtime.targets }

/-- What the narrowing reads: the claim, its selected artifacts and their evidence, and the digest. -/
structure ClaimScope (ut : UnicodeTables) where
  claimId : Str
  selectedKeys : List (Str × ArtifactKind)
  selectedEvidence : List (PlannedEvidence ut)
  sha256 : Bytes → Str

/-- The bindings of a candidate that are kept, with their runtime data. -/
def ClaimScope.bindings (scope : ClaimScope ut) (candidate : MappingCandidate ut) :
    List (ArtifactBinding ut) :=
  (candidate.bindings.filter fun binding =>
    scope.selectedKeys.contains (binding.path, binding.kind)).map
      (hydrateBinding scope.selectedEvidence)

/-- A field of a signature, as the JSON encoder writes the tuple. -/
def SelectorIdentity.fieldJson (target : Str) : SelectorIdentity → Json
  | .field kind expression => .array [.str target, .str kind, .str expression]
  | .table column cardinality predicates =>
    .array [.str target, .str "table", .str column, .int cardinality,
      .array (predicates.map fun p => .array [.str p.1, .str p.2.1, .str p.2.2])]

def optionalText : Option Str → Json
  | none => .null
  | some s => .str s

def BindingSignature.json (signature : BindingSignature) : Json :=
  .array [.str signature.path, .str signature.kind, .str signature.role,
    optionalText signature.adapterId, optionalText signature.datasetSplit,
    .array (signature.mappings.map fun field => field.2.fieldJson field.1)]

/-- `json.dumps(material, sort_keys=True, separators=(",", ":"), ensure_ascii=True)`. -/
def COMPACT : DumpStyle := ⟨true, none, [], [], true⟩

/-- What two candidates are told apart by. -/
abbrev ScopedKey := MappingTrust × ProvenanceKind × List BindingSignature

/-- `_scoped_mapping_id`; the material has no number that the encoder refuses. -/
def ClaimScope.mappingId (scope : ClaimScope ut) (key : ScopedKey) : Str :=
  let material := Json.object [("claim_id", .str scope.claimId), ("trust", .str key.1.value),
    ("provenance_kind", .str key.2.1.value),
    ("bindings", .array (key.2.2.map BindingSignature.json))]
  lit "mapping-scoped-" ++
    (scope.sha256 ((encodeUtf8 ((dumps COMPACT material).getD [])).getD [])).take 16

theorem slot_hydrateBinding (binding : ArtifactBinding ut) :
    (hydrateBinding evidence binding).slot = binding.slot := by
  unfold hydrateBinding
  split
  · rfl
  · dsimp only
    split
    · rfl
    · split <;> rfl

theorem ClaimScope.distinct (scope : ClaimScope ut) (candidate : MappingCandidate ut) :
    ((scope.bindings candidate).map ArtifactBinding.slot).Nodup := by
  have slots : (scope.bindings candidate).map ArtifactBinding.slot =
      (candidate.bindings.filter fun binding =>
        scope.selectedKeys.contains (binding.path, binding.kind)).map ArtifactBinding.slot := by
    rw [bindings, List.map_map]
    exact List.map_congr_left fun binding _ => slot_hydrateBinding scope.selectedEvidence binding
  rw [slots]
  exact candidate.distinct.sublist (List.filter_sublist.map _)

/-- The candidate that is issued for the claim; its confidence and its provenance are the issuer's. -/
def ClaimScope.candidate (scope : ClaimScope ut) (candidate : MappingCandidate ut)
    (filled : scope.bindings candidate ≠ []) (signatures : List BindingSignature) :
    MappingCandidate ut :=
  { candidate with
    mappingId := scope.mappingId (candidate.trust, candidate.provenance.kind, signatures)
    bindings := scope.bindings candidate
    filled := filled
    distinct := scope.distinct candidate }

/-- `_scope_mapping_candidates`, after some keys have been seen. -/
def scopeMappingCandidates (scope : ClaimScope ut) (seen : List ScopedKey) :
    List (MappingCandidate ut) → Except Error (List (MappingCandidate ut))
  | [] => .ok []
  | item :: items =>
    if filled : scope.bindings item = [] then scopeMappingCandidates scope seen items
    else do
      let signatures ← sortedSignatures (scope.bindings item)
      let key := (item.trust, item.provenance.kind, signatures)
      if seen.contains key then scopeMappingCandidates scope seen items
      else do
        let rest ← scopeMappingCandidates scope (key :: seen) items
        pure (scope.candidate item filled signatures :: rest)

/-- The selection for a discovered claim: `planning_request_from_discovery`, as far as it concerns the
mapping candidates, and `_select_mapping`. -/
def selectForClaim (scope : ClaimScope ut) (approved : Option (RepoMapping ut))
    (hasScientificClaim : Bool) (profile : Option (ProfileCheck ut))
    (candidates : List (MappingCandidate ut)) : Except Error (Option (SelectedMapping ut)) := do
  let narrowed ← scopeMappingCandidates scope [] candidates
  if identified : (narrowed.map MappingCandidate.mappingId).Nodup then
    selectMapping ⟨scope.claimId, scope.selectedEvidence, narrowed, approved, hasScientificClaim,
      identified⟩ profile
  else .error (contractError "planning mapping candidate identifiers must be unique")

end Scope

end ClaimCI
