import ClaimCI.Analysis.Selectors
import ClaimCI.Python.Sorting

/-!
# Metric identities

Exact metric identities of passive result artifacts: which baseline/candidate pair of them a
metric is bound to, and by whose authority.
-/

open Python

namespace ClaimCI

/-! ### Identifiers -/

/-- `_CANONICAL_METRIC.fullmatch`. -/
def isCanonicalMetric (s : Str) : Bool :=
  let lower : CodePoint → Bool := fun c => 0x61 ≤ c.val && c.val ≤ 0x7A
  let digit : CodePoint → Bool := fun c => 0x30 ≤ c.val && c.val ≤ 0x39
  s.head?.any lower && s.tail.all (fun c => lower c || digit c || (lit "_.-").contains c) &&
    s.length ≤ 256

/-- `_ADAPTER_ID.fullmatch`. -/
def isAdapterId (s : Str) : Bool :=
  let lower : CodePoint → Bool := fun c =>
    (0x61 ≤ c.val && c.val ≤ 0x7A) || (0x30 ≤ c.val && c.val ≤ 0x39)
  s.head?.any lower && s.tail.all (fun c => lower c || (lit "._-").contains c) && s.length ≤ 128

/-- A text that is not empty, has no space around it, no control character and a bounded length. -/
def isBoundedName (maximum : Nat) (s : Str) : Bool :=
  s != [] && s == strip s && s.length ≤ maximum && !hasControl s

/-- `_bounded_identifier`. -/
def boundedIdentifier (value : Str) (label : Str) (maximum : Nat) : Except Error Unit :=
  rejectIf (!isBoundedName maximum value) (contractError (label ++ lit " is invalid"))

/-- `_REPOSITORY_COMPONENT.fullmatch`. -/
def isRepositoryComponent (s : Str) : Bool :=
  s != [] && s.length ≤ 100 && s.all fun c => isAsciiAlphanumeric c || (lit "_.-").contains c

structure RepositoryIdentity where
  owner : Str
  name : Str
  valid : isRepositoryComponent owner = true ∧ isRepositoryComponent name = true
  deriving DecidableEq

def RepositoryIdentity.fullName (r : RepositoryIdentity) : Str := r.owner ++ lit "/" ++ r.name

/-- `_GIT_COMMIT.fullmatch`, and not only zeros. -/
def isGitCommit (s : Str) : Bool :=
  (s.length == 40 || s.length == 64) && s.all (fun c => (0x30 ≤ c.val && c.val ≤ 0x39) ||
    (0x61 ≤ c.val && c.val ≤ 0x66)) && s.any fun c => c.val != 0x30

structure GitCommitSha where
  text : Str
  valid : isGitCommit text = true
  deriving DecidableEq

/-- `_digest_id`; the materials have texts, small numbers and nulls only, which are always
encoded. -/
def digestId (rt : Runtime) (label : Str) (material : Json) : Str :=
  label ++ (rt.sha256 (asciiEncode (material.sorted.render identityStyle 0))).take 24

/-! ### Candidates -/

/-- One metric selector of a fixed adapter, bound to the bytes of an artifact. -/
structure MetricCandidate (ut : UnicodeTables) where
  experimentRole : ExperimentRole
  artifactPath : Str
  artifactSha256 : Str
  adapterId : Str
  selector : Selector ut
  rawMetricName : Str
  provenance : FieldProvenance
  role : experimentRole = .baseline ∨ experimentRole = .candidate
  digest : isSha256 artifactSha256 = true
  adapter : isAdapterId adapterId = true
  named : isBoundedName 256 rawMetricName = true
  extracted : provenance.kind = .adapterExtraction

section Candidates

variable {ut : UnicodeTables} (rt : Runtime)

/-- `_candidate_id`. -/
def MetricCandidate.candidateId (c : MetricCandidate ut) : Str :=
  digestId rt "metric-candidate-" (.object [
    ("role", .str c.experimentRole.value),
    ("path", .str c.artifactPath),
    ("sha256", .str c.artifactSha256),
    ("adapter_id", .str c.adapterId),
    ("selector", selectorIdentity c.selector),
    ("raw_metric_name", .str c.rawMetricName)])

/-- `c == d`. -/
def MetricCandidate.eq (c d : MetricCandidate ut) : Bool :=
  c.candidateId rt == d.candidateId rt && c.experimentRole == d.experimentRole &&
    c.artifactPath == d.artifactPath && c.artifactSha256 == d.artifactSha256 &&
    c.adapterId == d.adapterId && c.selector.eq d.selector &&
    c.rawMetricName == d.rawMetricName && c.provenance == d.provenance

theorem MetricCandidate.eq_refl (c : MetricCandidate ut) : c.eq rt c = true := by
  simp only [MetricCandidate.eq, beq_self_eq_true, c.selector.eq_refl, Bool.true_and]

end Candidates

/-! ### Identities -/

inductive MetricIdentityKind where
  | exact | lexicalAlias
  deriving DecidableEq, Repr

def MetricIdentityKind.value : MetricIdentityKind → Str
  | exact => "exact"
  | lexicalAlias => "lexical_alias"

/-- `_LEXICAL_ALIASES.get(canonical_metric, frozenset())`. -/
def lexicalAliases (canonicalMetric : Str) : List Str :=
  if canonicalMetric = lit "accuracy" then [lit "acc"] else []

/-- How a raw name is recognized. -/
def recognizedKind (ut : UnicodeTables) (rawMetricName canonicalMetric : Str) :
    Option MetricIdentityKind :=
  let raw := ut.casefold rawMetricName
  if raw = canonicalMetric then some .exact
  else if raw ∈ lexicalAliases canonicalMetric then some .lexicalAlias
  else none

/-- One candidate whose name was recognized, which gives it no authority. -/
structure MetricIdentity (ut : UnicodeTables) where
  candidate : MetricCandidate ut
  canonicalMetric : Str
  kind : MetricIdentityKind
  recognized : recognizedKind ut candidate.rawMetricName canonicalMetric = some kind

/-- `identify_metric_candidate`, for a valid canonical name. -/
def identifyMetricCandidate {ut : UnicodeTables} (candidate : MetricCandidate ut)
    (canonicalMetric : Str) : Option (MetricIdentity ut) :=
  match h : recognizedKind ut candidate.rawMetricName canonicalMetric with
  | none => none
  | some kind => some ⟨candidate, canonicalMetric, kind, h⟩

inductive MetricBindingAuthority where
  | deterministicExact | userApproved
  deriving DecidableEq, Repr

section Pairs

variable {ut : UnicodeTables} (rt : Runtime)

def MetricIdentity.identityId (i : MetricIdentity ut) : Str :=
  digestId rt "metric-identity-" (.object [
    ("candidate_id", .str (i.candidate.candidateId rt)),
    ("canonical_metric", .str i.canonicalMetric),
    ("kind", .str i.kind.value)])

/-- `i == j`. -/
def MetricIdentity.eq (i j : MetricIdentity ut) : Bool :=
  i.identityId rt == j.identityId rt && i.candidate.eq rt j.candidate &&
    i.canonicalMetric == j.canonicalMetric && i.kind == j.kind

theorem MetricIdentity.eq_refl (i : MetricIdentity ut) : i.eq rt i = true := by
  simp only [MetricIdentity.eq, beq_self_eq_true, i.candidate.eq_refl, Bool.true_and]

/-- What `_validate_pair` demands. -/
structure ValidPair (baselineIdentity candidateIdentity : MetricIdentity ut)
    (canonicalMetric : Str) : Prop where
  baselineRole : baselineIdentity.candidate.experimentRole = .baseline
  candidateRole : candidateIdentity.candidate.experimentRole = .candidate
  baselineMetric : baselineIdentity.canonicalMetric = canonicalMetric
  candidateMetric : candidateIdentity.canonicalMetric = canonicalMetric

/-- `_validate_pair`. -/
def validatePair (baselineIdentity candidateIdentity : MetricIdentity ut)
    (canonicalMetric : Str) :
    Except Error (PLift (ValidPair baselineIdentity candidateIdentity canonicalMetric)) :=
  if roles : baselineIdentity.candidate.experimentRole = .baseline ∧
      candidateIdentity.candidate.experimentRole = .candidate then
    if metrics : baselineIdentity.canonicalMetric = canonicalMetric ∧
        candidateIdentity.canonicalMetric = canonicalMetric then
      .ok ⟨⟨roles.1, roles.2, metrics.1, metrics.2⟩⟩
    else .error (contractError "metric binding pair identities must share the canonical metric")
  else .error (contractError "metric binding pair requires one baseline and one candidate")

structure MetricBindingProposal (ut : UnicodeTables) where
  baselineIdentity : MetricIdentity ut
  candidateIdentity : MetricIdentity ut
  paired : ValidPair baselineIdentity candidateIdentity baselineIdentity.canonicalMetric

/-- `MetricBindingProposal._from_pair`. -/
def MetricBindingProposal.fromPair (pair : MetricIdentity ut × MetricIdentity ut) :
    Except Error (MetricBindingProposal ut) := do
  let paired ← validatePair pair.1 pair.2 pair.1.canonicalMetric
  pure ⟨pair.1, pair.2, paired.down⟩

def MetricBindingProposal.label (p : MetricBindingProposal ut) : Str :=
  let baselineRaw := p.baselineIdentity.candidate.rawMetricName
  let candidateRaw := p.candidateIdentity.candidate.rawMetricName
  if baselineRaw = candidateRaw then lit "[" ++ baselineRaw ++ lit "]"
  else lit "[baseline: " ++ baselineRaw ++ lit "; candidate: " ++ candidateRaw ++ lit "]"

def MetricBindingProposal.proposalId (p : MetricBindingProposal ut) : Str :=
  digestId rt "metric-pair-" (.object [
    ("canonical_metric", .str p.baselineIdentity.canonicalMetric),
    ("baseline_identity_id", .str (p.baselineIdentity.identityId rt)),
    ("candidate_identity_id", .str (p.candidateIdentity.identityId rt))])

/-! ### Bindings -/

def exactPair (baselineIdentity candidateIdentity : MetricIdentity ut) : Bool :=
  baselineIdentity.kind == .exact && candidateIdentity.kind == .exact

/-- What `MetricBinding._from_pair` demands of the authority. -/
def Authorized (authority : MetricBindingAuthority) (approvedBy : Option Str)
    (baselineIdentity candidateIdentity : MetricIdentity ut) : Prop :=
  match authority with
  | .deterministicExact =>
    approvedBy = none ∧ exactPair baselineIdentity candidateIdentity = true
  | .userApproved => ∃ approver, approvedBy = some approver ∧ isBoundedName 256 approver = true

/-- One indivisible authority for a baseline/candidate pair. -/
structure MetricBinding (ut : UnicodeTables) where
  repository : RepositoryIdentity
  headSha : GitCommitSha
  canonicalMetric : Str
  baselineIdentity : MetricIdentity ut
  candidateIdentity : MetricIdentity ut
  authority : MetricBindingAuthority
  approvedBy : Option Str
  approvalProvenance : Option FieldProvenance
  paired : ValidPair baselineIdentity candidateIdentity canonicalMetric
  authorized : Authorized authority approvedBy baselineIdentity candidateIdentity

/-- `MetricBinding._from_pair` with the authority of an exact pair. -/
def MetricBinding.deterministic (repository : RepositoryIdentity) (headSha : GitCommitSha)
    (canonicalMetric : Str) (baselineIdentity candidateIdentity : MetricIdentity ut) :
    Except Error (MetricBinding ut) := do
  let paired ← validatePair baselineIdentity candidateIdentity canonicalMetric
  if exact : exactPair baselineIdentity candidateIdentity = true then
    pure ⟨repository, headSha, canonicalMetric, baselineIdentity, candidateIdentity,
      .deterministicExact, none, none, paired.down, ⟨rfl, exact⟩⟩
  else .error (contractError "deterministic metric binding requires an exact/exact pair")

/-- `MetricBinding._from_pair` with the authority of a user. -/
def MetricBinding.approved (repository : RepositoryIdentity) (headSha : GitCommitSha)
    (canonicalMetric : Str) (baselineIdentity candidateIdentity : MetricIdentity ut)
    (approver : Str) : Except Error (MetricBinding ut) := do
  let paired ← validatePair baselineIdentity candidateIdentity canonicalMetric
  if bounded : isBoundedName 256 approver = true then
    let provenance ← fieldProvenance .userApproved
      (lit "exact metric candidate pair explicitly approved by " ++ approver) none (some approver)
    pure ⟨repository, headSha, canonicalMetric, baselineIdentity, candidateIdentity,
      .userApproved, some approver, some provenance, paired.down, ⟨approver, rfl, bounded⟩⟩
  else .error (contractError "metric binding approver is invalid")

/-! ### Questions -/

structure MetricBindingQuestion (ut : UnicodeTables) (rt : Runtime) where
  repository : RepositoryIdentity
  headSha : GitCommitSha
  canonicalMetric : Str
  proposals : List (MetricBindingProposal ut)
  relevantClaimId : Option Str
  stale : Bool
  bounded : 1 ≤ proposals.length ∧ proposals.length ≤ 8
  distinct : (proposals.map (MetricBindingProposal.proposalId rt)).Nodup
  claimNamed : relevantClaimId.all (isBoundedName 128) = true

/-- `MetricBindingQuestion._from_proposals`. -/
def MetricBindingQuestion.fromProposals (repository : RepositoryIdentity)
    (headSha : GitCommitSha) (canonicalMetric : Str) (proposals : List (MetricBindingProposal ut))
    (relevantClaimId : Option Str) (stale : Bool) :
    Except Error (MetricBindingQuestion ut rt) :=
  if bounded : 1 ≤ proposals.length ∧ proposals.length ≤ 8 then
    if distinct : (proposals.map (MetricBindingProposal.proposalId rt)).Nodup then
      if named : relevantClaimId.all (isBoundedName 128) = true then
        .ok ⟨repository, headSha, canonicalMetric, proposals, relevantClaimId, stale, bounded,
          distinct, named⟩
      else .error (contractError "relevant metric claim ID is invalid")
    else .error (contractError "metric binding proposals must be unique")
  else .error (contractError "metric binding question requires one through eight exact pairs")

def MetricBindingQuestion.prompt (q : MetricBindingQuestion ut rt) : Str :=
  (if q.stale then lit "Re-approve" else lit "Approve") ++
    lit " the exact baseline and candidate pair for " ++ q.canonicalMetric ++ lit "."

/-- `MetricBindingResolution`, one constructor for each state. -/
inductive MetricBindingResolution (ut : UnicodeTables) (rt : Runtime) where
  | bound (binding : MetricBinding ut)
  | approvalRequired (question : MetricBindingQuestion ut rt)
  | unresolved (reason : Str)

/-! ### Resolution -/

/-- `_binding_is_current`. -/
def bindingIsCurrent (binding : MetricBinding ut) (repository : RepositoryIdentity)
    (headSha : GitCommitSha) (canonicalMetric : Str)
    (proposals : List (MetricBindingProposal ut)) : Bool :=
  if binding.repository ≠ repository ∨ binding.headSha ≠ headSha ∨
      binding.canonicalMetric ≠ canonicalMetric then false
  else proposals.any fun proposal =>
    proposal.baselineIdentity.eq rt binding.baselineIdentity &&
      proposal.candidateIdentity.eq rt binding.candidateIdentity

/-- The identities of one role. -/
def identitiesOf (role : ExperimentRole) (identities : List (MetricIdentity ut)) :
    List (MetricIdentity ut) :=
  identities.filter fun i => i.candidate.experimentRole == role

/-- Every pair of a baseline and a candidate. -/
def identityPairs (baseline candidate : List (MetricIdentity ut)) :
    List (MetricIdentity ut × MetricIdentity ut) :=
  baseline.flatMap fun b => candidate.map fun c => (b, c)

/-- The only pair, if nothing was approved and both of its endpoints match exactly. -/
def deterministicPair (approvedBinding : Option (MetricBinding ut))
    (proposals : List (MetricBindingProposal ut)) : Option (MetricBindingProposal ut) :=
  match approvedBinding, proposals with
  | none, [proposal] =>
    if exactPair proposal.baselineIdentity proposal.candidateIdentity then some proposal else none
  | _, _ => none

/-- What `resolve_metric_binding` makes of the ordered proposals. -/
def resolveProposals (proposals : List (MetricBindingProposal ut))
    (repository : RepositoryIdentity) (headSha : GitCommitSha) (canonicalMetric : Str)
    (relevantClaimId : Option Str) (approvedBinding : Option (MetricBinding ut)) :
    Except Error (MetricBindingResolution ut rt) :=
  if 8 < proposals.length then
    .ok (.unresolved "metric_candidate_pair_ambiguity_exceeds_bound")
  else
    -- an approval holds only while it is current; otherwise the proposals decide again
    match approvedBinding.filter fun binding =>
      bindingIsCurrent rt binding repository headSha canonicalMetric proposals with
    | some binding => .ok (.bound binding)
    | none =>
      match deterministicPair approvedBinding proposals with
      | some proposal => do
        let binding ← MetricBinding.deterministic repository headSha canonicalMetric
          proposal.baselineIdentity proposal.candidateIdentity
        pure (.bound binding)
      | none => do
        let question ← MetricBindingQuestion.fromProposals rt repository headSha canonicalMetric
          proposals relevantClaimId approvedBinding.isSome
        pure (.approvalRequired question)

/-- `resolve_metric_binding`. -/
def resolveMetricBinding (candidates : List (MetricCandidate ut))
    (repository : RepositoryIdentity) (headSha : GitCommitSha) (canonicalMetric : Str)
    (relevantClaimId : Option Str) (approvedBinding : Option (MetricBinding ut)) :
    Except Error (MetricBindingResolution ut rt) := do
  rejectIf (!decide (candidates.map (MetricCandidate.candidateId rt)).Nodup)
    (contractError "metric candidate identifiers must be unique")
  rejectIf (!isCanonicalMetric canonicalMetric)
    (contractError "canonical metric name is invalid")
  let identities := candidates.filterMap fun c => identifyMetricCandidate c canonicalMetric
  let baseline := identitiesOf .baseline identities
  let candidate := identitiesOf .candidate identities
  -- a stale approval is told apart from candidates that were never found
  if baseline.isEmpty || candidate.isEmpty then
    pure (.unresolved (if approvedBinding.isSome
      then lit "approved_metric_binding_stale_reapproval_required"
      else lit "matching_baseline_and_candidate_metric_candidates_not_recovered"))
  else do
    let proposals ← (identityPairs baseline candidate).mapM MetricBindingProposal.fromPair
    resolveProposals rt (sortBy (MetricBindingProposal.proposalId rt) proposals) repository
      headSha canonicalMetric relevantClaimId approvedBinding

/-- `approve_metric_binding`. -/
def approveMetricBinding (question : MetricBindingQuestion ut rt) (proposalId approvedBy : Str) :
    Except Error (MetricBinding ut) :=
  match question.proposals.filter fun p => p.proposalId rt == proposalId with
  | [selected] =>
    MetricBinding.approved question.repository question.headSha question.canonicalMetric
      selected.baselineIdentity selected.candidateIdentity approvedBy
  | _ => .error (contractError "metric binding approval must select one issued exact pair")

end Pairs

end ClaimCI
