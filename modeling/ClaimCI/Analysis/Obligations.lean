import ClaimCI.Analysis.Contracts
import ClaimCI.Graph.DepthFirst
import ClaimCI.Python.Sorting

/-!
# Evidence obligations

Obligations are leaves, which ask for evidence of one target, and composites, which depend on
other obligations. A bundle of them is compiled into a decision.
-/

open Python

namespace ClaimCI

/-! ### Obligations -/

inductive EvidenceObligationState where
  | satisfied | missing | ambiguous | unsupported
  deriving DecidableEq, Repr

inductive EvidenceObligationReason where
  | validatedSupportBound | validatedDependenciesSatisfied | requiredArtifactNotFound
  | requiredClaimFieldNotRecovered | requiredMetricNotRecovered | requiredThresholdNotRecovered
  | requiredRoleNotRecovered | requiredSplitNotRecovered
  | requiredMeasurementProcedureNotRecovered | dependencyMissing | multipleValidatedCandidates
  | conflictingValidatedMappings | explicitMappingApprovalRequired | approvedMappingNotApplicable
  | clarificationNotBounded | claimTypeNotExecutable | artifactFormatNotSupported
  | artifactExceedsPassiveLimit | adapterNotAvailable | selectorNotRecoverable
  | nativeRepresentationNotSupported | measurementProcedureNotSupported | dependencyUnsupported
  | requiredProfileEvidenceNotRecovered | profileEvidenceNotSupported | profileEvidenceAmbiguous
  deriving DecidableEq, Repr

inductive EvidenceObligationEffect where
  | none | blocksPartial | requiresMapping
  deriving DecidableEq, Repr

inductive EvidenceObligationDecision where
  | ready | partly | mappingNeeded
  deriving DecidableEq, Repr

inductive ClaimFieldKind where
  | metric | direction | threshold | quantitativeBound | evaluationConstraint
  deriving DecidableEq, Repr

/-- What a leaf asks evidence for. A measurement target is always retry or aggregation. -/
inductive ObligationTarget where
  | claimField (field : ClaimFieldKind) (constraintKind : Option EvaluationConstraintKind)
  | artifactSlot (kind : ArtifactKind) (role : ExperimentRole) (datasetSplit : Option Split)
  | measurementComponent (requiredProcedure : UpstreamAggregationProcedure)
  | profileEvidence (profileId : EvidenceProfileId) (slotId : Str) (roleMode : ProfileRoleMode)
  deriving DecidableEq, Repr

/-- Evidence that was found, as far as a bundle looks at it. -/
inductive ObligationSupport where
  | claimField (supportId claimId : Str) (field : ClaimFieldKind)
      (constraintKind : Option EvaluationConstraintKind)
  | artifactEvidence (supportId : Str) (kind : ArtifactKind) (role : ExperimentRole)
      (datasetSplit : Option Split)
  | measurementProcedure (supportId : Str) (procedure : UpstreamAggregationProcedure)
  | profileEvidence (supportId : Str) (profileId : EvidenceProfileId) (slotId : Str)
      (roleMode : ProfileRoleMode)
  deriving DecidableEq, Repr

def ObligationSupport.supportId : ObligationSupport → Str
  | claimField id _ _ _ => id
  | artifactEvidence id _ _ _ => id
  | measurementProcedure id _ => id
  | profileEvidence id _ _ _ => id

/-- The support is of the kind the target asks for, and says the same. -/
def ObligationTarget.matches : ObligationTarget → ObligationSupport → Bool
  | .claimField field kind, .claimField _ _ field' kind' => field' == field && kind' == kind
  | .artifactSlot kind role split, .artifactEvidence _ kind' role' split' =>
    kind' == kind && role' == role && split' == split
  | .measurementComponent procedure, .measurementProcedure _ procedure' => procedure' == procedure
  | .profileEvidence profile slot mode, .profileEvidence _ profile' slot' mode' =>
    profile' == profile && slot' == slot && mode' == mode
  | _, _ => false

def ObligationTarget.mismatchText : ObligationTarget → Str
  | .claimField _ _ => "claim support does not match its exact field target"
  | .artifactSlot _ _ _ => "artifact target requires artifact evidence support"
  | .measurementComponent _ => "measurement target requires exact procedure support"
  | .profileEvidence _ _ _ => "profile target requires exact profile evidence support"

def missingReasons : List EvidenceObligationReason :=
  [.requiredArtifactNotFound, .requiredClaimFieldNotRecovered, .requiredMetricNotRecovered,
    .requiredThresholdNotRecovered, .requiredRoleNotRecovered, .requiredSplitNotRecovered,
    .requiredMeasurementProcedureNotRecovered, .dependencyMissing,
    .requiredProfileEvidenceNotRecovered]

def ambiguousReasons : List EvidenceObligationReason :=
  [.multipleValidatedCandidates, .conflictingValidatedMappings, .explicitMappingApprovalRequired,
    .approvedMappingNotApplicable, .clarificationNotBounded, .profileEvidenceAmbiguous]

def unsupportedReasons : List EvidenceObligationReason :=
  [.claimTypeNotExecutable, .artifactFormatNotSupported, .artifactExceedsPassiveLimit,
    .adapterNotAvailable, .selectorNotRecoverable, .nativeRepresentationNotSupported,
    .measurementProcedureNotSupported, .dependencyUnsupported, .profileEvidenceNotSupported]

/-- The condition under which `_canonical_id` returns its argument. -/
def isCanonicalId (value : Str) : Bool :=
  value ≠ [] && value = strip value && value.length ≤ 128 &&
    value.all fun c => !(c.val < 32 || c.val = 127)

def canonicalId (value label : Str) : Except Error Unit :=
  rejectIf (!isCanonicalId value) (contractError (label ++ lit " must be a canonical identifier"))

/-- The fields of an obligation, before they are checked. -/
structure ObligationFields where
  obligationId : Str
  target : Option ObligationTarget
  state : EvidenceObligationState
  reason : EvidenceObligationReason
  effect : EvidenceObligationEffect
  supportReferences : List ObligationSupport
  dependencyIds : List Str
  deriving DecidableEq

/-- The supports belong to the target; a composite has no target to compare with. -/
def ObligationFields.checkSupports (item : ObligationFields) : Except Error Unit :=
  match item.target with
  | none => .ok ()
  | some target =>
    rejectIf (item.supportReferences.any fun support => !target.matches support)
      (contractError target.mismatchText)

/-- A blocking state has one of its reasons, one of its effects and no support. -/
def ObligationFields.checkBlocking (item : ObligationFields)
    (reasons : List EvidenceObligationReason) (effects : List EvidenceObligationEffect)
    (text : Str) : Except Error Unit :=
  rejectIf (!reasons.contains item.reason || !effects.contains item.effect ||
    item.supportReferences ≠ []) (contractError text)

/-- State, reason, effect and support go together. -/
def ObligationFields.checkState (item : ObligationFields) : Except Error Unit :=
  match item.state with
  | .satisfied => do
    let composite := item.target.isNone
    let expectedReason : EvidenceObligationReason :=
      if composite then .validatedDependenciesSatisfied else .validatedSupportBound
    rejectIf (item.reason ≠ expectedReason || item.effect ≠ .none)
      (contractError "satisfied obligation state is inconsistent")
    rejectIf (composite == (item.supportReferences ≠ [] : Bool))
      (contractError
        "a satisfied leaf requires support and a composite cannot carry support")
  | .missing => item.checkBlocking missingReasons [.blocksPartial]
      "missing obligation state is inconsistent"
  | .unsupported => item.checkBlocking unsupportedReasons [.blocksPartial]
      "unsupported obligation state is inconsistent"
  | .ambiguous => item.checkBlocking ambiguousReasons [.blocksPartial, .requiresMapping]
      "ambiguous obligation state is inconsistent"

/-- What `EvidenceObligation.__post_init__` checks before it looks at the state. -/
def ObligationFields.checkShape (item : ObligationFields) : Except Error Unit := do
  canonicalId item.obligationId "obligation_id"
  rejectIf (8 < item.supportReferences.length)
    (contractError "obligation support references exceed their structural bound")
  rejectIf (!(item.supportReferences.map ObligationSupport.supportId).Nodup)
    (contractError "obligation support references must be unique")
  item.checkSupports
  rejectIf (16 < item.dependencyIds.length)
    (contractError "obligation dependencies exceed their structural bound")
  item.dependencyIds.forM fun dependency => canonicalId dependency "obligation dependency_id"
  rejectIf (!item.dependencyIds.Nodup) (contractError "obligation dependencies must be unique")
  rejectIf (item.dependencyIds.contains item.obligationId)
    (contractError "obligation dependency cycle is invalid")
  rejectIf (item.target.isNone == (item.dependencyIds = [] : Bool))
    (contractError "an obligation must be either one target leaf or one composite")

/-- `EvidenceObligation.__post_init__`. -/
def ObligationFields.check (item : ObligationFields) : Except Error Unit := do
  item.checkShape
  item.checkState

/-- An obligation whose fields pass their checks. -/
structure EvidenceObligation extends ObligationFields where
  checked : toObligationFields.check = .ok ()

instance : DecidableEq EvidenceObligation := fun a b =>
  decidable_of_iff (a.toObligationFields = b.toObligationFields) (by
    cases a
    cases b
    simp)

/-- A leaf has a target. -/
def EvidenceObligation.isLeaf (item : EvidenceObligation) : Bool := item.target.isSome

/-! ### What the checks guarantee -/

theorem EvidenceObligation.checkShape_ok (item : EvidenceObligation) :
    item.toObligationFields.checkShape = .ok () := by
  obtain ⟨_, shape, _⟩ := bind_ok_iff.mp item.checked
  exact shape

theorem EvidenceObligation.checkState_ok (item : EvidenceObligation) :
    item.toObligationFields.checkState = .ok () := by
  obtain ⟨_, _, state⟩ := bind_ok_iff.mp item.checked
  exact state

theorem ObligationFields.checkBlocking_ok_iff {item : ObligationFields}
    {reasons : List EvidenceObligationReason} {effects : List EvidenceObligationEffect}
    {text : Str} : item.checkBlocking reasons effects text = .ok () ↔
      item.reason ∈ reasons ∧ item.effect ∈ effects ∧ item.supportReferences = [] := by
  rw [checkBlocking, rejectIf_ok_iff]
  simp [and_assoc]

/-- What the state of an obligation says about its other fields. -/
theorem EvidenceObligation.consistent (item : EvidenceObligation) :
    (item.state = .satisfied → item.effect = .none ∧
      (item.target = none → item.supportReferences = [])) ∧
    (item.state = .missing → item.effect = .blocksPartial ∧ item.supportReferences = []) ∧
    (item.state = .unsupported → item.effect = .blocksPartial ∧ item.supportReferences = []) ∧
    (item.state = .ambiguous → item.reason ∈ ambiguousReasons ∧ item.effect ≠ .none ∧
      item.supportReferences = []) := by
  have checked := item.checkState_ok
  rw [ObligationFields.checkState] at checked
  refine ⟨?_, ?_, ?_, ?_⟩ <;> intro state <;> rw [state] at checked
  · obtain ⟨_, first, second⟩ := bind_ok_iff.mp checked
    rw [rejectIf_ok_iff] at first second
    simp only [Bool.or_eq_false_iff, decide_eq_false_iff_not, not_not] at first
    refine ⟨first.2, ?_⟩
    intro composite
    rw [composite] at second
    simpa using second
  · obtain ⟨_, effect, support⟩ := ObligationFields.checkBlocking_ok_iff.mp checked
    exact ⟨List.mem_singleton.mp effect, support⟩
  · obtain ⟨_, effect, support⟩ := ObligationFields.checkBlocking_ok_iff.mp checked
    exact ⟨List.mem_singleton.mp effect, support⟩
  · obtain ⟨reason, effect, support⟩ := ObligationFields.checkBlocking_ok_iff.mp checked
    refine ⟨reason, ?_, support⟩
    intro none
    rw [none] at effect
    exact absurd effect (by decide)

/-- A composite carries no support. -/
theorem EvidenceObligation.composite_support (item : EvidenceObligation)
    (composite : item.target = none) : item.supportReferences = [] := by
  obtain ⟨satisfied, missing, unsupported, ambiguous⟩ := item.consistent
  cases state : item.state with
  | satisfied => exact (satisfied state).2 composite
  | missing => exact (missing state).2
  | unsupported => exact (unsupported state).2
  | ambiguous => exact (ambiguous state).2.2

/-! ### Composites -/

/-- The fields of a composite over its derived children. -/
def derivedFields (item : ObligationFields) (children : List EvidenceObligation) :
    ObligationFields :=
  if children.any fun child => child.state = .unsupported then
    { item with state := .unsupported, reason := .dependencyUnsupported, effect := .blocksPartial }
  else if children.any fun child => child.state = .missing then
    { item with state := .missing, reason := .dependencyMissing, effect := .blocksPartial }
  else
    match children.find? fun child => child.state = .ambiguous with
    | some ambiguous =>
      -- one bounded question settles the ambiguity only if every child that is open asks for a
      -- mapping
      let mappingOnly := children.all fun child =>
        child.state = .satisfied || child.effect = .requiresMapping
      { item with
        state := .ambiguous
        reason := if mappingOnly then ambiguous.reason else .clarificationNotBounded
        effect := if mappingOnly then .requiresMapping else .blocksPartial }
    | none =>
      { item with
        state := .satisfied, reason := .validatedDependenciesSatisfied, effect := .none }

theorem check_of_checkState {item changed : ObligationFields} (shape : item.checkShape = .ok ())
    (same : changed.checkShape = item.checkShape) (state : changed.checkState = .ok ()) :
    changed.check = .ok () := by
  rw [ObligationFields.check, same, shape]
  exact state

/-- `replace` runs the checks again, and they pass. -/
theorem derivedFields_check (item : EvidenceObligation) (composite : item.target = none)
    (children : List EvidenceObligation) :
    (derivedFields item.toObligationFields children).check = .ok () := by
  have support := item.composite_support composite
  rw [derivedFields]
  split
  · refine check_of_checkState item.checkShape_ok rfl ?_
    exact ObligationFields.checkBlocking_ok_iff.mpr ⟨by simp [unsupportedReasons], by simp, support⟩
  · split
    · refine check_of_checkState item.checkShape_ok rfl ?_
      exact ObligationFields.checkBlocking_ok_iff.mpr ⟨by simp [missingReasons], by simp, support⟩
    · split
      next child found =>
        have ambiguous : child.state = .ambiguous := by simpa using List.find?_some found
        have reason := (child.consistent.2.2.2 ambiguous).1
        refine check_of_checkState item.checkShape_ok rfl ?_
        refine ObligationFields.checkBlocking_ok_iff.mpr ⟨?_, ?_, support⟩
        · simp only
          split
          · exact reason
          · simp [ambiguousReasons]
        · simp only
          split <;> simp
      · refine check_of_checkState item.checkShape_ok rfl ?_
        simp [ObligationFields.checkState, composite, support, rejectIf, bind, Except.bind]

/-- `replace` with the derived state, reason and effect. -/
def EvidenceObligation.derive (item : EvidenceObligation) (composite : item.target = none)
    (children : List EvidenceObligation) : EvidenceObligation :=
  ⟨derivedFields item.toObligationFields children, derivedFields_check item composite children⟩

/-! ### The graph -/

/-- `by_id`. -/
def findObligation (obligations : List EvidenceObligation) (id : Str) : Option EvidenceObligation :=
  obligations.find? fun item => item.obligationId = id

/-- `dependencies`. -/
def dependenciesOf (obligations : List EvidenceObligation) (id : Str) : List Str :=
  match findObligation obligations id with
  | some item => item.dependencyIds
  | none => []

def obligationIds (obligations : List EvidenceObligation) : List Str :=
  obligations.map fun item => item.obligationId

/-- `_validate_graph`. -/
def validateGraph (obligations : List EvidenceObligation) : Except Error Unit := do
  rejectIf (!(obligationIds obligations).Nodup)
    (contractError "duplicate obligation IDs are invalid")
  rejectIf (obligations.any fun item =>
      item.dependencyIds.any fun dependency => !(obligationIds obligations).contains dependency)
    (contractError "dangling obligation dependency is invalid")
  rejectIf (Graph.visitAll (dependenciesOf obligations) (obligations.length + 1)
      (obligationIds obligations)).isNone
    (contractError "cycle in obligation dependencies is invalid")

abbrev DerivedCache := List (Str × EvidenceObligation)

/-- `_derived_composite`, with the cache threaded through; `none` is the end of the fuel. -/
def derivedComposite (obligations : List EvidenceObligation) : Nat → DerivedCache →
    EvidenceObligation → Option (EvidenceObligation × DerivedCache)
  | 0, _, _ => none
  | fuel + 1, cache, item =>
    match lookupKey item.obligationId cache with
    -- shared children are derived once
    | some cached => some (cached, cache)
    | none =>
      if composite : item.target = none then do
        let (children, cache) ← item.dependencyIds.foldlM
          (fun (state : List EvidenceObligation × DerivedCache) dependency => do
            let child ← findObligation obligations dependency
            let (derived, cache) ← derivedComposite obligations fuel state.2 child
            some (state.1 ++ [derived], cache))
          ([], cache)
        let derived := item.derive composite children
        some (derived, (item.obligationId, derived) :: cache)
      else some (item, (item.obligationId, item) :: cache)

/-- The derived obligations, in the order of the input. -/
def derivedAll (obligations : List EvidenceObligation) :
    Option (List EvidenceObligation × DerivedCache) :=
  obligations.foldlM
    (fun (state : List EvidenceObligation × DerivedCache) item => do
      let (derived, cache) ← derivedComposite obligations (obligations.length + 1) state.2 item
      some (state.1 ++ [derived], cache))
    ([], [])

/-! ### The bundle -/

structure EvidenceObligationBundle where
  claimId : Str
  policyId : Str
  compilerState : EvidenceObligationState
  compilerReason : EvidenceObligationReason
  compilerEffect : EvidenceObligationEffect
  obligations : List EvidenceObligation
  blockingObligationIds : List Str
  decision : EvidenceObligationDecision
  mappingQuestionId : Option Str

/-- `sorted(..., key=obligation_id)`. -/
def sortById (obligations : List EvidenceObligation) : List EvidenceObligation :=
  sortBy (fun item => item.obligationId) obligations

/-- Claim support that names another claim. -/
def foreignSupport (claimId : Str) : ObligationSupport → Bool
  | .claimField _ id _ _ => id ≠ claimId
  | _ => false

/-- The decision over the derived leaves, and the question it is linked to. -/
def compileDecision (compilerSupported : Bool) (leaves : List EvidenceObligation)
    (mappingQuestionId : Option Str) : EvidenceObligationDecision × Option Str :=
  if !compilerSupported || leaves.any fun item => item.effect = .blocksPartial then
    (.partly, none)
  else if leaves.any fun item => item.effect = .requiresMapping then
    match mappingQuestionId with
    | some question => (.mappingNeeded, some question)
    | none => (.partly, none)
  else (.ready, none)

/-- The derived obligations, sorted; the fuel is enough for a graph that was validated. -/
def derivedObligations (obligations : List EvidenceObligation) :
    Except Error (List EvidenceObligation) :=
  match derivedAll obligations with
  | some (derived, _) => .ok (sortById derived)
  | none => .error (.valueError "maximum recursion depth exceeded")

def checkQuestion : Option Str → Except Error Unit
  | some question => canonicalId question "obligation mapping_question_id"
  | none => .ok ()

/-- `_build_obligation_bundle`, for the identity of a policy. -/
def buildObligationBundle (claimId policyId : Str) (compilerSupported : Bool)
    (obligations : List EvidenceObligation) (mappingQuestionId : Option Str) :
    Except Error EvidenceObligationBundle := do
  canonicalId claimId "obligation bundle claim_id"
  rejectIf (16 < obligations.length)
    (contractError "obligation bundle exceeds its structural bound")
  rejectIf (32 < (obligations.map fun item => item.supportReferences.length).sum)
    (contractError "obligation support bundle exceeds its bound")
  checkQuestion mappingQuestionId
  validateGraph obligations
  let derived ← derivedObligations obligations
  rejectIf (derived.any fun item => item.supportReferences.any (foreignSupport claimId))
    (contractError "claim support identity does not match the obligation bundle claim")
  let leaves := derived.filter EvidenceObligation.isLeaf
  let decision := compileDecision compilerSupported leaves mappingQuestionId
  .ok {
    claimId := claimId
    policyId := policyId
    compilerState := if compilerSupported then .satisfied else .unsupported
    compilerReason :=
      if compilerSupported then .validatedDependenciesSatisfied else .claimTypeNotExecutable
    compilerEffect := if compilerSupported then .none else .blocksPartial
    obligations := derived
    blockingObligationIds :=
      (leaves.filter fun item => item.state ≠ .satisfied).map fun item => item.obligationId
    decision := decision.1
    mappingQuestionId := decision.2 }

end ClaimCI
