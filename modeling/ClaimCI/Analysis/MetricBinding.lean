import ClaimCI.Analysis.MetricIdentity

/-!
# Metric binding resolution

Resolution does not depend on the order of the candidates, binds only a pair that is approved and
unchanged or the only pair there is, and accepts the approvals its own questions lead to.
-/

open Python

namespace ClaimCI

section Resolution

variable {ut : UnicodeTables} {rt : Runtime}

/-! ### Pairs and proposals -/

theorem identifyMetricCandidate_eq_some {candidate : MetricCandidate ut} {canonicalMetric : Str}
    {identity : MetricIdentity ut} :
    identifyMetricCandidate candidate canonicalMetric = some identity ↔
      identity.candidate = candidate ∧ identity.canonicalMetric = canonicalMetric := by
  constructor
  · intro h
    unfold identifyMetricCandidate at h
    split at h
    · cases h
    · cases h
      exact ⟨rfl, rfl⟩
  · rintro ⟨rfl, rfl⟩
    unfold identifyMetricCandidate
    split
    next unknown => cases identity.recognized.symm.trans unknown
    next kind known =>
      have same : identity.kind = kind :=
        Option.some.inj (identity.recognized.symm.trans known)
      subst same
      rfl

def MetricBindingProposal.pair (p : MetricBindingProposal ut) :
    MetricIdentity ut × MetricIdentity ut := (p.baselineIdentity, p.candidateIdentity)

theorem MetricBindingProposal.pair_injective :
    Function.Injective (@MetricBindingProposal.pair ut) := by
  intro p q h
  cases p
  cases q
  cases h
  rfl

theorem fromPair_of_valid {pair : MetricIdentity ut × MetricIdentity ut}
    (valid : ValidPair pair.1 pair.2 pair.1.canonicalMetric) :
    MetricBindingProposal.fromPair pair = .ok ⟨pair.1, pair.2, valid⟩ := by
  have checked : validatePair pair.1 pair.2 pair.1.canonicalMetric = .ok ⟨valid⟩ := by
    rw [validatePair, dif_pos ⟨valid.baselineRole, valid.candidateRole⟩,
      dif_pos ⟨valid.baselineMetric, valid.candidateMetric⟩]
  rw [MetricBindingProposal.fromPair, checked]
  rfl

/-- The identities among the candidates. -/
def recognizedIdentities (candidates : List (MetricCandidate ut)) (canonicalMetric : Str) :
    List (MetricIdentity ut) :=
  candidates.filterMap fun c => identifyMetricCandidate c canonicalMetric

/-- The pairs among the candidates. -/
def recognizedPairs (candidates : List (MetricCandidate ut)) (canonicalMetric : Str) :
    List (MetricIdentity ut × MetricIdentity ut) :=
  identityPairs (identitiesOf .baseline (recognizedIdentities candidates canonicalMetric))
    (identitiesOf .candidate (recognizedIdentities candidates canonicalMetric))

theorem mem_identitiesOf {candidates : List (MetricCandidate ut)} {canonicalMetric : Str}
    {role : ExperimentRole} {identity : MetricIdentity ut} :
    identity ∈ identitiesOf role (recognizedIdentities candidates canonicalMetric) ↔
      identity.candidate ∈ candidates ∧ identity.canonicalMetric = canonicalMetric ∧
        identity.candidate.experimentRole = role := by
  simp only [identitiesOf, recognizedIdentities, List.mem_filter, List.mem_filterMap,
    identifyMetricCandidate_eq_some, beq_iff_eq]
  constructor
  · rintro ⟨⟨c, member, rfl, named⟩, sameRole⟩
    exact ⟨member, named, sameRole⟩
  · rintro ⟨member, named, sameRole⟩
    exact ⟨⟨_, member, rfl, named⟩, sameRole⟩

theorem mem_recognizedPairs {candidates : List (MetricCandidate ut)} {canonicalMetric : Str}
    {pair : MetricIdentity ut × MetricIdentity ut} :
    pair ∈ recognizedPairs candidates canonicalMetric ↔
      pair.1.candidate ∈ candidates ∧ pair.2.candidate ∈ candidates ∧
        ValidPair pair.1 pair.2 canonicalMetric := by
  simp only [recognizedPairs, identityPairs, List.mem_flatMap, List.mem_map, mem_identitiesOf]
  constructor
  · rintro ⟨b, ⟨inB, metricB, roleB⟩, c, ⟨inC, metricC, roleC⟩, rfl⟩
    exact ⟨inB, inC, roleB, roleC, metricB, metricC⟩
  · rintro ⟨inB, inC, roleB, roleC, metricB, metricC⟩
    exact ⟨pair.1, ⟨inB, metricB, roleB⟩, pair.2, ⟨inC, metricC, roleC⟩, rfl⟩

theorem recognizedPairs_perm {candidates others : List (MetricCandidate ut)}
    (perm : candidates.Perm others) (canonicalMetric : Str) :
    (recognizedPairs candidates canonicalMetric).Perm (recognizedPairs others canonicalMetric) := by
  have identities : (recognizedIdentities candidates canonicalMetric).Perm
      (recognizedIdentities others canonicalMetric) := perm.filterMap _
  have baseline : (identitiesOf .baseline (recognizedIdentities candidates canonicalMetric)).Perm
      (identitiesOf .baseline (recognizedIdentities others canonicalMetric)) :=
    identities.filter _
  have candidate : (identitiesOf .candidate (recognizedIdentities candidates canonicalMetric)).Perm
      (identitiesOf .candidate (recognizedIdentities others canonicalMetric)) :=
    identities.filter _
  apply List.Perm.trans (baseline.flatMap_right _)
  exact List.Perm.flatMap_left _ fun b _ => candidate.map _

/-- The proposals are exactly the pairs among the candidates. -/
def Issued (candidates : List (MetricCandidate ut)) (canonicalMetric : Str)
    (proposals : List (MetricBindingProposal ut)) : Prop :=
  (proposals.map MetricBindingProposal.pair).Perm (recognizedPairs candidates canonicalMetric)

theorem mapM_fromPair {pairs : List (MetricIdentity ut × MetricIdentity ut)}
    (valid : ∀ pair ∈ pairs, ValidPair pair.1 pair.2 pair.1.canonicalMetric) :
    ∃ proposals, pairs.mapM MetricBindingProposal.fromPair = .ok proposals ∧
      proposals.map MetricBindingProposal.pair = pairs := by
  induction pairs with
  | nil => exact ⟨[], rfl, rfl⟩
  | cons pair pairs ih =>
    obtain ⟨proposals, issued, same⟩ := ih fun p hp => valid p (List.mem_cons_of_mem _ hp)
    have first := fromPair_of_valid (valid pair List.mem_cons_self)
    refine ⟨⟨pair.1, pair.2, valid pair List.mem_cons_self⟩ :: proposals, ?_, ?_⟩
    · rw [List.mapM_cons, first, issued]
      rfl
    · rw [List.map_cons, same]
      rfl

theorem issued_proposals (candidates : List (MetricCandidate ut)) (canonicalMetric : Str) :
    ∃ proposals, (recognizedPairs candidates canonicalMetric).mapM
        MetricBindingProposal.fromPair = .ok proposals ∧
      proposals.map MetricBindingProposal.pair = recognizedPairs candidates canonicalMetric := by
  apply mapM_fromPair
  intro pair member
  have valid := (mem_recognizedPairs.mp member).2.2
  rw [valid.baselineMetric]
  exact valid

theorem Issued.mem {candidates : List (MetricCandidate ut)} {canonicalMetric : Str}
    {proposals : List (MetricBindingProposal ut)}
    (issued : Issued candidates canonicalMetric proposals) {proposal : MetricBindingProposal ut} :
    proposal ∈ proposals ↔ proposal.baselineIdentity.candidate ∈ candidates ∧
      proposal.candidateIdentity.candidate ∈ candidates ∧
        ValidPair proposal.baselineIdentity proposal.candidateIdentity canonicalMetric := by
  have mapped : proposal.pair ∈ proposals.map MetricBindingProposal.pair ↔ proposal ∈ proposals :=
    List.mem_map_of_injective MetricBindingProposal.pair_injective
  rw [← mapped, issued.mem_iff]
  exact mem_recognizedPairs

theorem Issued.perm {candidates others : List (MetricCandidate ut)} {canonicalMetric : Str}
    {proposals otherProposals : List (MetricBindingProposal ut)}
    (issued : Issued candidates canonicalMetric proposals)
    (otherIssued : Issued others canonicalMetric otherProposals)
    (perm : candidates.Perm others) : proposals.Perm otherProposals := by
  apply (List.map_perm_map_iff MetricBindingProposal.pair_injective).mp
  exact (issued.trans (recognizedPairs_perm perm canonicalMetric)).trans otherIssued.symm

/-! ### Order -/

variable (repository : RepositoryIdentity) (headSha : GitCommitSha) (canonicalMetric : Str)
  (relevantClaimId : Option Str) (approvedBinding : Option (MetricBinding ut))

theorem bindingIsCurrent_perm (binding : MetricBinding ut)
    {proposals others : List (MetricBindingProposal ut)} (perm : proposals.Perm others) :
    bindingIsCurrent rt binding repository headSha canonicalMetric proposals =
      bindingIsCurrent rt binding repository headSha canonicalMetric others := by
  rw [bindingIsCurrent, bindingIsCurrent, perm.any_eq]

/-- Proposals that share an identifier are no deterministic pair. -/
theorem deterministicPair_of_shared {proposals : List (MetricBindingProposal ut)}
    (shared : ¬(proposals.map (MetricBindingProposal.proposalId rt)).Nodup) :
    deterministicPair approvedBinding proposals = none := by
  cases proposals with
  | nil => cases approvedBinding <;> rfl
  | cons first rest =>
    cases rest with
    | nil => exact absurd (List.nodup_singleton _) shared
    | cons second rest => cases approvedBinding <;> rfl

/-- A question about proposals that share an identifier is an error. -/
theorem fromProposals_of_shared {proposals : List (MetricBindingProposal ut)} {stale : Bool}
    (bounded : proposals.length ≤ 8)
    (shared : ¬(proposals.map (MetricBindingProposal.proposalId rt)).Nodup) :
    MetricBindingQuestion.fromProposals rt repository headSha canonicalMetric proposals
        relevantClaimId stale =
      .error (contractError "metric binding proposals must be unique") := by
  have some_proposal : 1 ≤ proposals.length := by
    cases proposals with
    | nil => exact absurd List.nodup_nil shared
    | cons first rest => exact Nat.le_add_left 1 rest.length
  rw [MetricBindingQuestion.fromProposals, dif_pos ⟨some_proposal, bounded⟩, dif_neg shared]

theorem resolveProposals_perm {proposals others : List (MetricBindingProposal ut)}
    (perm : proposals.Perm others) :
    resolveProposals rt (sortBy (MetricBindingProposal.proposalId rt) proposals) repository
        headSha canonicalMetric relevantClaimId approvedBinding =
      resolveProposals rt (sortBy (MetricBindingProposal.proposalId rt) others) repository
        headSha canonicalMetric relevantClaimId approvedBinding := by
  by_cases distinct : (proposals.map (MetricBindingProposal.proposalId rt)).Nodup
  · rw [sortBy_eq_of_perm _ perm fun a ha b hb => List.inj_on_of_nodup_map distinct ha hb]
  · -- Two proposals share an identifier: no question can be asked, whatever order they are in.
    have sorted := sortBy_perm_self (MetricBindingProposal.proposalId rt) proposals
    have otherSorted := sortBy_perm_self (MetricBindingProposal.proposalId rt) others
    have both := (sorted.trans perm).trans otherSorted.symm
    have shared := fun h => distinct ((sorted.map _).nodup_iff.mp h)
    have otherShared := fun h => shared ((both.map _).nodup_iff.mpr h)
    simp only [resolveProposals, both.length_eq,
      bindingIsCurrent_perm repository headSha canonicalMetric _ both,
      deterministicPair_of_shared approvedBinding shared,
      deterministicPair_of_shared approvedBinding otherShared]
    split
    · rfl
    next bounded =>
      have few := Nat.le_of_not_lt bounded
      have otherFew := both.length_eq.symm ▸ few
      rw [fromProposals_of_shared repository headSha canonicalMetric relevantClaimId otherFew
        shared, fromProposals_of_shared repository headSha canonicalMetric relevantClaimId few
        otherShared]

/-- Whether one of the roles has no recognized candidate. -/
def oneSided (candidates : List (MetricCandidate ut)) (canonicalMetric : Str) : Bool :=
  (identitiesOf .baseline (recognizedIdentities candidates canonicalMetric)).isEmpty ||
    (identitiesOf .candidate (recognizedIdentities candidates canonicalMetric)).isEmpty

theorem oneSided_perm {candidates others : List (MetricCandidate ut)}
    (perm : candidates.Perm others) :
    oneSided candidates canonicalMetric = oneSided others canonicalMetric := by
  have identities : (recognizedIdentities candidates canonicalMetric).Perm
      (recognizedIdentities others canonicalMetric) := perm.filterMap _
  have role := fun r : ExperimentRole =>
    (identities.filter fun i => i.candidate.experimentRole == r).isEmpty_eq
  simp only [oneSided, identitiesOf, role]

/-- What resolution returns once the candidates are told apart and the metric has a name. -/
theorem resolveMetricBinding_eq (candidates : List (MetricCandidate ut))
    (distinct : (candidates.map (MetricCandidate.candidateId rt)).Nodup)
    (named : isCanonicalMetric canonicalMetric = true) :
    ∃ proposals, Issued candidates canonicalMetric proposals ∧
      resolveMetricBinding rt candidates repository headSha canonicalMetric relevantClaimId
          approvedBinding =
        if oneSided candidates canonicalMetric then
          .ok (.unresolved (if approvedBinding.isSome
            then lit "approved_metric_binding_stale_reapproval_required"
            else lit "matching_baseline_and_candidate_metric_candidates_not_recovered"))
        else
          resolveProposals rt (sortBy (MetricBindingProposal.proposalId rt) proposals) repository
            headSha canonicalMetric relevantClaimId approvedBinding := by
  obtain ⟨proposals, built, issued⟩ := issued_proposals candidates canonicalMetric
  refine ⟨proposals, List.Perm.of_eq issued, ?_⟩
  have unique : rejectIf (!decide (candidates.map (MetricCandidate.candidateId rt)).Nodup)
      (contractError "metric candidate identifiers must be unique") = .ok () :=
    rejectIf_ok_iff.mpr (by simp only [distinct, decide_true, Bool.not_true])
  have valid : rejectIf (!isCanonicalMetric canonicalMetric)
      (contractError "canonical metric name is invalid") = .ok () :=
    rejectIf_ok_iff.mpr (by simp only [named, Bool.not_true])
  rw [resolveMetricBinding, unique, valid]
  change (if oneSided candidates canonicalMetric then _ else
    ((recognizedPairs candidates canonicalMetric).mapM MetricBindingProposal.fromPair >>= _)) = _
  rw [built]
  rfl

/-- Candidates without distinct identifiers, or a metric without a name, are an error. -/
theorem resolveMetricBinding_rejects (candidates : List (MetricCandidate ut))
    (bad : ¬((candidates.map (MetricCandidate.candidateId rt)).Nodup ∧
      isCanonicalMetric canonicalMetric = true)) :
    resolveMetricBinding rt candidates repository headSha canonicalMetric relevantClaimId
        approvedBinding =
      .error (if (candidates.map (MetricCandidate.candidateId rt)).Nodup
        then contractError "canonical metric name is invalid"
        else contractError "metric candidate identifiers must be unique") := by
  rw [resolveMetricBinding]
  by_cases distinct : (candidates.map (MetricCandidate.candidateId rt)).Nodup
  · have unnamed : isCanonicalMetric canonicalMetric = false := by
      simpa only [distinct, true_and, Bool.not_eq_true] using bad
    rw [if_pos distinct, unnamed]
    simp only [distinct, decide_true, rejectIf, Bool.not_true, Bool.not_false]
    rfl
  · rw [if_neg distinct]
    simp only [distinct, decide_false, rejectIf, Bool.not_false]
    rfl

/-- The order of the candidates does not matter. -/
theorem resolveMetricBinding_order {candidates others : List (MetricCandidate ut)}
    (perm : candidates.Perm others) :
    resolveMetricBinding rt candidates repository headSha canonicalMetric relevantClaimId
        approvedBinding =
      resolveMetricBinding rt others repository headSha canonicalMetric relevantClaimId
        approvedBinding := by
  have ids := (perm.map (MetricCandidate.candidateId rt)).nodup_iff
  by_cases good : (candidates.map (MetricCandidate.candidateId rt)).Nodup ∧
      isCanonicalMetric canonicalMetric = true
  · obtain ⟨proposals, issued, resolved⟩ := resolveMetricBinding_eq repository headSha
      canonicalMetric relevantClaimId approvedBinding candidates good.1 good.2
    obtain ⟨otherProposals, otherIssued, otherResolved⟩ := resolveMetricBinding_eq repository
      headSha canonicalMetric relevantClaimId approvedBinding others (ids.mp good.1) good.2
    rw [resolved, otherResolved, oneSided_perm canonicalMetric perm,
      resolveProposals_perm repository headSha canonicalMetric relevantClaimId approvedBinding
        (issued.perm otherIssued perm)]
  · rw [resolveMetricBinding_rejects repository headSha canonicalMetric relevantClaimId
        approvedBinding candidates good,
      resolveMetricBinding_rejects repository headSha canonicalMetric relevantClaimId
        approvedBinding others (by rwa [← ids]), if_congr ids rfl rfl]

/-! ### What is bound -/

variable {repository headSha canonicalMetric relevantClaimId approvedBinding}

/-- Every result other than an unresolved one comes from the proposals. -/
theorem resolveMetricBinding_ok {candidates : List (MetricCandidate ut)}
    {resolution : MetricBindingResolution ut rt}
    (h : resolveMetricBinding rt candidates repository headSha canonicalMetric relevantClaimId
      approvedBinding = .ok resolution) :
    (∃ reason, resolution = .unresolved reason) ∨
      ∃ proposals, Issued candidates canonicalMetric proposals ∧
        resolveProposals rt proposals repository headSha canonicalMetric relevantClaimId
          approvedBinding = .ok resolution := by
  by_cases good : (candidates.map (MetricCandidate.candidateId rt)).Nodup ∧
      isCanonicalMetric canonicalMetric = true
  · obtain ⟨proposals, issued, resolved⟩ := resolveMetricBinding_eq repository headSha
      canonicalMetric relevantClaimId approvedBinding candidates good.1 good.2
    rw [resolved] at h
    split at h
    · exact .inl ⟨_, (Except.ok.inj h).symm⟩
    · refine .inr ⟨_, ?_, h⟩
      exact ((sortBy_perm_self _ proposals).map _).trans issued
  · rw [resolveMetricBinding_rejects repository headSha canonicalMetric relevantClaimId
      approvedBinding candidates good] at h
    cases h

theorem deterministicPair_eq_some {proposals : List (MetricBindingProposal ut)}
    {proposal : MetricBindingProposal ut}
    (h : deterministicPair approvedBinding proposals = some proposal) :
    approvedBinding = none ∧ proposals = [proposal] ∧
      exactPair proposal.baselineIdentity proposal.candidateIdentity = true := by
  unfold deterministicPair at h
  split at h
  next only =>
    split at h
    next exact =>
      obtain rfl := Option.some.inj h
      exact ⟨rfl, rfl, exact⟩
    · cases h
  · cases h

theorem deterministic_ok {baselineIdentity candidateIdentity : MetricIdentity ut}
    {binding : MetricBinding ut}
    (h : MetricBinding.deterministic repository headSha canonicalMetric baselineIdentity
      candidateIdentity = .ok binding) :
    binding.baselineIdentity = baselineIdentity ∧ binding.candidateIdentity = candidateIdentity ∧
      binding.repository = repository ∧ binding.headSha = headSha ∧
      binding.authority = .deterministicExact := by
  unfold MetricBinding.deterministic at h
  obtain ⟨paired, _, h⟩ := bind_ok_iff.mp h
  split at h
  · cases h
    exact ⟨rfl, rfl, rfl, rfl, rfl⟩
  · cases h

/-- The approval is for this repository, head and metric, and one of the proposals is its pair. -/
def CurrentApproval (rt : Runtime) (repository : RepositoryIdentity) (headSha : GitCommitSha)
    (canonicalMetric : Str) (binding : MetricBinding ut)
    (proposals : List (MetricBindingProposal ut)) : Prop :=
  binding.repository = repository ∧ binding.headSha = headSha ∧
    binding.canonicalMetric = canonicalMetric ∧
    ∃ p ∈ proposals, p.baselineIdentity.eq rt binding.baselineIdentity = true ∧
      p.candidateIdentity.eq rt binding.candidateIdentity = true

theorem bindingIsCurrent_iff {binding : MetricBinding ut}
    {proposals : List (MetricBindingProposal ut)} :
    bindingIsCurrent rt binding repository headSha canonicalMetric proposals = true ↔
      CurrentApproval rt repository headSha canonicalMetric binding proposals := by
  rw [bindingIsCurrent, CurrentApproval]
  split
  next changed =>
    constructor
    · intro h
      cases h
    · rintro ⟨sameRepository, sameHead, sameMetric, _⟩
      rcases changed with other | other | other
      · exact absurd sameRepository other
      · exact absurd sameHead other
      · exact absurd sameMetric other
  next same =>
    push Not at same
    simp only [List.any_eq_true, Bool.and_eq_true, same, true_and]

/-- What a bound resolution rests on. -/
theorem resolveProposals_bound {proposals : List (MetricBindingProposal ut)}
    {binding : MetricBinding ut}
    (h : resolveProposals rt proposals repository headSha canonicalMetric relevantClaimId
      approvedBinding = .ok (.bound binding)) :
    (approvedBinding = some binding ∧
        CurrentApproval rt repository headSha canonicalMetric binding proposals) ∨
      (approvedBinding = none ∧ binding.authority = .deterministicExact ∧
        ∃ p, proposals = [p] ∧ binding.baselineIdentity = p.baselineIdentity ∧
          binding.candidateIdentity = p.candidateIdentity) := by
  unfold resolveProposals at h
  -- more than eight proposals are never resolved
  split at h
  · cases h
  split at h
  -- the approval is current
  next approved current =>
    cases h
    obtain ⟨given, fresh⟩ := Option.filter_eq_some_iff.mp current
    exact .inl ⟨given, bindingIsCurrent_iff.mp fresh⟩
  split at h
  -- exactly one proposal is left
  next proposal only =>
    obtain ⟨unapproved, single, _⟩ := deterministicPair_eq_some only
    obtain ⟨made, built, h⟩ := bind_ok_iff.mp h
    cases h
    obtain ⟨sameBaseline, sameCandidate, _, _, authority⟩ := deterministic_ok built
    exact .inr ⟨unapproved, authority, proposal, single, sameBaseline, sameCandidate⟩
  · obtain ⟨question, _, h⟩ := bind_ok_iff.mp h
    cases h

/-! ### Approvals -/

/-- One element has its key, so filtering by the key finds it alone. -/
theorem filter_key_eq_singleton {α : Type} (key : α → Str) {items : List α} {item : α}
    (distinct : (items.map key).Nodup) (member : item ∈ items) :
    items.filter (fun other => key other == key item) = [item] := by
  induction items with
  | nil => cases member
  | cons first rest ih =>
    rw [List.map_cons, List.nodup_cons] at distinct
    rcases List.mem_cons.mp member with rfl | later
    · rw [List.filter_cons, if_pos (beq_self_eq_true _)]
      congr 1
      apply List.filter_eq_nil_iff.mpr
      intro other inRest same
      exact distinct.1 (List.mem_map.mpr ⟨other, inRest, eq_of_beq same⟩)
    · have different : ¬(key first == key item) = true := by
        intro same
        exact distinct.1 (List.mem_map.mpr ⟨item, later, (eq_of_beq same).symm⟩)
      rw [List.filter_cons, if_neg different]
      exact ih distinct.2 later

/-- The provenance an approval records passes its own checks. -/
theorem approval_provenance {approver : Str} (bounded : isBoundedName 256 approver = true) :
    FieldProvenance.check (lit "exact metric candidate pair explicitly approved by " ++ approver)
      (some approver) = .ok () := by
  simp only [isBoundedName, Bool.and_eq_true, bne_iff_ne, beq_iff_eq, decide_eq_true_eq,
    Bool.not_eq_true'] at bounded
  obtain ⟨⟨⟨filled, stripped⟩, short⟩, clean⟩ := bounded
  have notBlank : strip (lit "exact metric candidate pair explicitly approved by " ++ approver) ≠
      [] := by
    rw [Ne, strip_eq_nil_iff, isBlank, List.all_append]
    have first : (lit "exact metric candidate pair explicitly approved by ").all isSpace =
        false := by decide
    simp only [first, Bool.false_and, Bool.false_eq_true, not_false_eq_true]
  have length : (lit "exact metric candidate pair explicitly approved by ").length = 51 := by
    decide
  have detail : boundedText "provenance detail"
      (lit "exact metric candidate pair explicitly approved by " ++ approver) 4096 = .ok () := by
    apply boundedText_ok notBlank
    rw [List.length_append, length]
    omega
  rw [FieldProvenance.check, detail]
  exact boundedId_ok filled stripped short clean

/-- An approval of a pair of valid identities succeeds exactly for an approver with a valid name. -/
theorem approved_eq (repository : RepositoryIdentity) (headSha : GitCommitSha)
    {baselineIdentity candidateIdentity : MetricIdentity ut}
    (valid : ValidPair baselineIdentity candidateIdentity canonicalMetric) (approver : Str) :
    (isBoundedName 256 approver = true → ∃ binding,
      MetricBinding.approved repository headSha canonicalMetric baselineIdentity candidateIdentity
        approver = .ok binding) ∧
    ∀ binding, MetricBinding.approved repository headSha canonicalMetric baselineIdentity
        candidateIdentity approver = .ok binding →
      binding.repository = repository ∧ binding.headSha = headSha ∧
        binding.canonicalMetric = canonicalMetric ∧ binding.baselineIdentity = baselineIdentity ∧
        binding.candidateIdentity = candidateIdentity ∧ binding.authority = .userApproved ∧
        binding.approvedBy = some approver := by
  have checked : validatePair baselineIdentity candidateIdentity canonicalMetric = .ok ⟨valid⟩ := by
    rw [validatePair, dif_pos ⟨valid.baselineRole, valid.candidateRole⟩,
      dif_pos ⟨valid.baselineMetric, valid.candidateMetric⟩]
  constructor
  · intro bounded
    -- the constructor accepts the provenance of an approval within the bounds
    have recorded : ∃ provenance, fieldProvenance .userApproved
        (lit "exact metric candidate pair explicitly approved by " ++ approver) none
        (some approver) = .ok provenance := by
      unfold fieldProvenance
      split
      next failed => cases (approval_provenance bounded).symm.trans failed
      next passed => exact ⟨_, rfl⟩
    obtain ⟨provenance, recorded⟩ := recorded
    rw [MetricBinding.approved, checked]
    simp only [bounded, recorded, dite_true]
    exact ⟨_, rfl⟩
  · intro binding h
    rw [MetricBinding.approved, checked] at h
    obtain ⟨_, _, h⟩ := bind_ok_iff.mp h
    -- the binding is built only after both checks
    split at h
    · obtain ⟨provenance, _, h⟩ := bind_ok_iff.mp h
      cases h
      exact ⟨rfl, rfl, rfl, rfl, rfl, rfl, rfl⟩
    · cases h

theorem fromProposals_ok {proposals : List (MetricBindingProposal ut)} {stale : Bool}
    {question : MetricBindingQuestion ut rt}
    (h : MetricBindingQuestion.fromProposals rt repository headSha canonicalMetric proposals
      relevantClaimId stale = .ok question) :
    question.proposals = proposals ∧ question.repository = repository ∧
      question.headSha = headSha ∧ question.canonicalMetric = canonicalMetric := by
  unfold MetricBindingQuestion.fromProposals at h
  split at h
  · split at h
    · split at h
      · cases h
        exact ⟨rfl, rfl, rfl, rfl⟩
      · cases h
    · cases h
  · cases h

theorem resolveProposals_question {proposals : List (MetricBindingProposal ut)}
    {question : MetricBindingQuestion ut rt}
    (h : resolveProposals rt proposals repository headSha canonicalMetric relevantClaimId
      approvedBinding = .ok (.approvalRequired question)) :
    question.proposals = proposals ∧ question.repository = repository ∧
      question.headSha = headSha ∧ question.canonicalMetric = canonicalMetric := by
  unfold resolveProposals at h
  split at h
  · cases h
  split at h
  · cases h
  split at h
  · obtain ⟨made, _, h⟩ := bind_ok_iff.mp h
    cases h
  · obtain ⟨asked, built, h⟩ := bind_ok_iff.mp h
    cases h
    exact fromProposals_ok built

/-- A question is about the pairs among the candidates, and the candidates have both roles. -/
theorem resolveMetricBinding_question {candidates : List (MetricCandidate ut)}
    {question : MetricBindingQuestion ut rt}
    (h : resolveMetricBinding rt candidates repository headSha canonicalMetric relevantClaimId
      approvedBinding = .ok (.approvalRequired question)) :
    ((candidates.map (MetricCandidate.candidateId rt)).Nodup ∧
        isCanonicalMetric canonicalMetric = true) ∧
      oneSided candidates canonicalMetric = false ∧
      Issued candidates canonicalMetric question.proposals ∧ question.repository = repository ∧
      question.headSha = headSha ∧ question.canonicalMetric = canonicalMetric := by
  by_cases good : (candidates.map (MetricCandidate.candidateId rt)).Nodup ∧
      isCanonicalMetric canonicalMetric = true
  · obtain ⟨proposals, issued, resolved⟩ := resolveMetricBinding_eq repository headSha
      canonicalMetric relevantClaimId approvedBinding candidates good.1 good.2
    rw [resolved] at h
    split at h
    · cases h
    next both =>
      obtain ⟨asked, sameRepository, sameHead, sameMetric⟩ := resolveProposals_question h
      have sorted := (sortBy_perm_self (MetricBindingProposal.proposalId rt) proposals).map
        MetricBindingProposal.pair
      exact ⟨good, Bool.not_eq_true _ ▸ both, asked ▸ sorted.trans issued, sameRepository,
        sameHead, sameMetric⟩
  · rw [resolveMetricBinding_rejects repository headSha canonicalMetric relevantClaimId
      approvedBinding candidates good] at h
    cases h

/-- A current approval is bound. -/
theorem resolveMetricBinding_current {candidates : List (MetricCandidate ut)}
    {proposals : List (MetricBindingProposal ut)} {binding : MetricBinding ut}
    (good : (candidates.map (MetricCandidate.candidateId rt)).Nodup ∧
      isCanonicalMetric canonicalMetric = true)
    (both : oneSided candidates canonicalMetric = false)
    (issued : Issued candidates canonicalMetric proposals) (few : proposals.length ≤ 8)
    (current : CurrentApproval rt repository headSha canonicalMetric binding proposals) :
    resolveMetricBinding rt candidates repository headSha canonicalMetric relevantClaimId
      (some binding) = .ok (.bound binding) := by
  obtain ⟨built, builtIssued, resolved⟩ := resolveMetricBinding_eq repository headSha
    canonicalMetric relevantClaimId (some binding) candidates good.1 good.2
  have same := issued.perm builtIssued (List.Perm.refl candidates)
  have sorted := sortBy_perm_self (MetricBindingProposal.proposalId rt) built
  have fresh : bindingIsCurrent rt binding repository headSha canonicalMetric
      (sortBy (MetricBindingProposal.proposalId rt) built) = true := by
    rw [bindingIsCurrent_perm _ _ _ _ (sorted.trans same.symm)]
    exact bindingIsCurrent_iff.mpr current
  have short : ¬8 < (sortBy (MetricBindingProposal.proposalId rt) built).length := by
    rw [sorted.length_eq, ← same.length_eq]
    exact Nat.not_lt.mpr few
  rw [resolved, both, resolveProposals]
  simp only [Bool.false_eq_true, if_false, short, Option.filter_some, fresh, if_true]

/-! ### The law of resolution -/

/-- The candidate is still what the endpoint of a binding was: one role, file, digest, adapter,
selector and name. -/
structure SameEndpoint (rt : Runtime) (candidate endpoint : MetricCandidate ut) : Prop where
  identifier : candidate.candidateId rt = endpoint.candidateId rt
  role : candidate.experimentRole = endpoint.experimentRole
  path : candidate.artifactPath = endpoint.artifactPath
  digest : candidate.artifactSha256 = endpoint.artifactSha256
  adapter : candidate.adapterId = endpoint.adapterId
  selector : candidate.selector.eq endpoint.selector = true
  name : candidate.rawMetricName = endpoint.rawMetricName
  provenance : candidate.provenance = endpoint.provenance

theorem sameEndpoint_of_eq {candidate endpoint : MetricCandidate ut}
    (h : candidate.eq rt endpoint = true) : SameEndpoint rt candidate endpoint := by
  simp only [MetricCandidate.eq, Bool.and_eq_true, beq_iff_eq] at h
  obtain ⟨⟨⟨⟨⟨⟨⟨identifier, role⟩, path⟩, digest⟩, adapter⟩, selector⟩, name⟩, provenance⟩ := h
  exact ⟨identifier, role, path, digest, adapter, selector, name, provenance⟩

/-- Something the approval was made for is no longer there. -/
def ApprovalChanged (rt : Runtime) (candidates : List (MetricCandidate ut))
    (repository : RepositoryIdentity) (headSha : GitCommitSha) (canonicalMetric : Str)
    (approval : MetricBinding ut) : Prop :=
  approval.repository ≠ repository ∨ approval.headSha ≠ headSha ∨
    approval.canonicalMetric ≠ canonicalMetric ∨
    (∀ c ∈ candidates, ¬SameEndpoint rt c approval.baselineIdentity.candidate) ∨
    ∀ c ∈ candidates, ¬SameEndpoint rt c approval.candidateIdentity.candidate

/-- The binding is of the only pair among the candidates, and both of its endpoints match
exactly. -/
def OnlyExactPair (candidates : List (MetricCandidate ut)) (canonicalMetric : Str)
    (binding : MetricBinding ut) : Prop :=
  exactPair binding.baselineIdentity binding.candidateIdentity = true ∧
    ∀ b c : MetricIdentity ut, b.candidate ∈ candidates ∧ c.candidate ∈ candidates ∧
      ValidPair b c canonicalMetric ↔
        b = binding.baselineIdentity ∧ c = binding.candidateIdentity

theorem currentApproval_unchanged {candidates : List (MetricCandidate ut)}
    {proposals : List (MetricBindingProposal ut)} {binding : MetricBinding ut}
    (issued : Issued candidates canonicalMetric proposals)
    (current : CurrentApproval rt repository headSha canonicalMetric binding proposals) :
    ¬ApprovalChanged rt candidates repository headSha canonicalMetric binding := by
  obtain ⟨sameRepository, sameHead, sameMetric, p, member, baseline, candidate⟩ := current
  obtain ⟨inBaseline, inCandidate, _⟩ := issued.mem.mp member
  simp only [MetricIdentity.eq, Bool.and_eq_true] at baseline candidate
  rintro (other | other | other | gone | gone)
  · exact other sameRepository
  · exact other sameHead
  · exact other sameMetric
  · exact gone _ inBaseline (sameEndpoint_of_eq baseline.1.1.2)
  · exact gone _ inCandidate (sameEndpoint_of_eq candidate.1.1.2)

/-- Without an approval only the one exact pair is bound, and its authority says so. -/
theorem bound_unapproved {candidates : List (MetricCandidate ut)}
    {proposals : List (MetricBindingProposal ut)} {binding : MetricBinding ut}
    (issued : Issued candidates canonicalMetric proposals)
    (deterministic : binding.authority = .deterministicExact)
    {p : MetricBindingProposal ut} (single : proposals = [p])
    (baseline : binding.baselineIdentity = p.baselineIdentity)
    (candidate : binding.candidateIdentity = p.candidateIdentity) :
    OnlyExactPair candidates canonicalMetric binding := by
  have exact := binding.authorized
  rw [deterministic, Authorized] at exact
  refine ⟨exact.2, fun b c => ?_⟩
  rw [baseline, candidate]
  subst single
  constructor
  · rintro ⟨inBaseline, inCandidate, valid⟩
    have paired : ValidPair b c b.canonicalMetric := valid.baselineMetric.symm ▸ valid
    have member : ⟨b, c, paired⟩ ∈ [p] := issued.mem.mpr ⟨inBaseline, inCandidate, valid⟩
    obtain rfl := List.mem_singleton.mp member
    exact ⟨rfl, rfl⟩
  · rintro ⟨rfl, rfl⟩
    exact issued.mem.mp (List.mem_singleton_self p)

/-- Resolution for any candidates and any approval: it does not depend on the order of the
candidates; what it binds is an approval in force or the only pair, which is exact; nothing that
matches by an alias is bound without a user; the approval of a pair it offers is bound when it
resolves again; and an approval is not bound once something it was made for has changed. -/
theorem resolveMetricBinding_lawful (candidates : List (MetricCandidate ut))
    (repository : RepositoryIdentity) (headSha : GitCommitSha) (canonicalMetric : Str)
    (relevantClaimId : Option Str) (approvedBinding : Option (MetricBinding ut)) :
    (∀ others, candidates.Perm others →
      resolveMetricBinding rt others repository headSha canonicalMetric relevantClaimId
          approvedBinding =
        resolveMetricBinding rt candidates repository headSha canonicalMetric relevantClaimId
          approvedBinding) ∧
    (∀ binding, resolveMetricBinding rt candidates repository headSha canonicalMetric
          relevantClaimId approvedBinding = .ok (.bound binding) →
      (approvedBinding = some binding ∧
          ¬ApprovalChanged rt candidates repository headSha canonicalMetric binding) ∨
        (approvedBinding = none ∧ OnlyExactPair candidates canonicalMetric binding)) ∧
    (∀ binding, resolveMetricBinding rt candidates repository headSha canonicalMetric
          relevantClaimId approvedBinding = .ok (.bound binding) →
      exactPair binding.baselineIdentity binding.candidateIdentity = false →
        approvedBinding = some binding ∧ binding.authority = .userApproved ∧
          ∃ approver, binding.approvedBy = some approver) ∧
    (∀ question, resolveMetricBinding rt candidates repository headSha canonicalMetric
          relevantClaimId approvedBinding = .ok (.approvalRequired question) →
      ∀ p ∈ question.proposals, ∀ approver,
        (isBoundedName 256 approver = true →
          ∃ approval, approveMetricBinding rt question (p.proposalId rt) approver =
            .ok approval) ∧
        ∀ approval, approveMetricBinding rt question (p.proposalId rt) approver = .ok approval →
          approval.baselineIdentity = p.baselineIdentity ∧
            approval.candidateIdentity = p.candidateIdentity ∧
            approval.authority = .userApproved ∧ approval.approvedBy = some approver ∧
            resolveMetricBinding rt candidates repository headSha canonicalMetric relevantClaimId
              (some approval) = .ok (.bound approval)) ∧
    (∀ approval, approvedBinding = some approval →
      ApprovalChanged rt candidates repository headSha canonicalMetric approval →
      ∀ binding, resolveMetricBinding rt candidates repository headSha canonicalMetric
        relevantClaimId approvedBinding ≠ .ok (.bound binding)) := by
  -- What is bound, from which the alias and the staleness laws follow.
  have bound : ∀ binding, resolveMetricBinding rt candidates repository headSha canonicalMetric
        relevantClaimId approvedBinding = .ok (.bound binding) →
      (approvedBinding = some binding ∧
          ¬ApprovalChanged rt candidates repository headSha canonicalMetric binding) ∨
        (approvedBinding = none ∧ OnlyExactPair candidates canonicalMetric binding) := by
    intro binding h
    rcases resolveMetricBinding_ok h with ⟨reason, unresolved⟩ | ⟨proposals, issued, resolved⟩
    · cases unresolved
    rcases resolveProposals_bound resolved with
      ⟨given, current⟩ | ⟨unapproved, authority, p, single, baseline, candidate⟩
    · exact .inl ⟨given, currentApproval_unchanged issued current⟩
    · exact .inr ⟨unapproved, bound_unapproved issued authority single baseline candidate⟩
  refine ⟨fun others perm => (resolveMetricBinding_order _ _ _ _ _ perm).symm, bound, ?_, ?_, ?_⟩
  · intro binding h inexact
    rcases bound binding h with ⟨given, _⟩ | ⟨_, exact, _⟩
    · have authorized := binding.authorized
      cases authority : binding.authority with
      | deterministicExact =>
        rw [authority, Authorized] at authorized
        cases inexact.symm.trans authorized.2
      | userApproved =>
        rw [authority, Authorized] at authorized
        obtain ⟨approver, named, _⟩ := authorized
        exact ⟨given, rfl, approver, named⟩
    · cases inexact.symm.trans exact
  · intro question h p member approver
    obtain ⟨good, both, issued, sameRepository, sameHead, sameMetric⟩ :=
      resolveMetricBinding_question h
    have valid : ValidPair p.baselineIdentity p.candidateIdentity question.canonicalMetric :=
      sameMetric ▸ (issued.mem.mp member).2.2
    have selected : approveMetricBinding rt question (p.proposalId rt) approver =
        MetricBinding.approved question.repository question.headSha question.canonicalMetric
          p.baselineIdentity p.candidateIdentity approver := by
      rw [approveMetricBinding, filter_key_eq_singleton _ question.distinct member]
    rw [selected]
    obtain ⟨accepts, approves⟩ := approved_eq question.repository question.headSha valid approver
    refine ⟨accepts, fun approval made => ?_⟩
    obtain ⟨repo, head, metric, baseline, candidate, authority, by_approver⟩ := approves _ made
    have current : CurrentApproval rt repository headSha canonicalMetric approval
        question.proposals := by
      refine ⟨repo.trans sameRepository, head.trans sameHead, metric.trans sameMetric, p, member,
        ?_, ?_⟩
      · rw [baseline]
        exact p.baselineIdentity.eq_refl rt
      · rw [candidate]
        exact p.candidateIdentity.eq_refl rt
    exact ⟨baseline, candidate, authority, by_approver,
      resolveMetricBinding_current good both issued question.bounded.2 current⟩
  · rintro approval given changed binding h
    rcases bound binding h with ⟨same, unchanged⟩ | ⟨unapproved, _⟩
    · obtain rfl := Option.some.inj (same.symm.trans given)
      exact unchanged changed
    · cases unapproved.symm.trans given

end Resolution

end ClaimCI
