import ClaimCI.Analysis.MappingSelection

/-!
# Mapping selection and the order of the candidates

The selection sorts the bindings of every candidate, which raises when a text meets `None`. Where it
does not raise, it takes a candidate that all valid ones agree on, whatever their order.
-/

open Python

namespace ClaimCI

/-- A computation that does not raise. -/
def Returns {α : Type} (x : Except Error α) : Prop := ∃ value, x = .ok value

variable {ut : UnicodeTables}

/-! ### Bindings that can be sorted -/

/-- Two bindings of one path, kind and role of which only one has an adapter or, when they have the
same, only one has a split. -/
def Mixed (a b : ArtifactBinding ut) : Prop :=
  a.path = b.path ∧ a.kind = b.kind ∧ a.role = b.role ∧
    (¬ (a.adapterId = none ↔ b.adapterId = none) ∨
      a.adapterId = b.adapterId ∧ ¬ (a.datasetSplit = none ↔ b.datasetSplit = none))

def Unmixed (bindings : List (ArtifactBinding ut)) : Prop :=
  bindings.Pairwise fun a b => ¬ Mixed a b

theorem ArtifactKind.value_injective : Function.Injective ArtifactKind.value := by
  intro a b h
  cases a <;> cases b <;> first | rfl | exact absurd h (by decide)

theorem ExperimentRole.value_injective : Function.Injective ExperimentRole.value := by
  intro a b h
  cases a <;> cases b <;> first | rfl | exact absurd h (by decide)

theorem DatasetSplit.value_injective : Function.Injective DatasetSplit.value := by
  intro a b h
  cases a <;> cases b <;> first | rfl | exact absurd h (by decide)

/-- Different components can be compared exactly if both are texts. -/
theorem componentLess_isSome {a b : Option Str} (different : a ≠ b) :
    (componentLess a b).isSome = true ↔ (a = none ↔ b = none) := by
  cases a with
  | none =>
    cases b with
    | none => exact absurd rfl different
    | some t => simp [componentLess]
  | some s =>
    cases b with
    | none => simp [componentLess]
    | some t => simp [componentLess]

theorem comparable_iff (a b : ArtifactBinding ut) :
    Comparable (bindingSignature a).key (bindingSignature b).key ↔ ¬ Mixed a b := by
  unfold Comparable Mixed bindingSignature BindingSignature.key
  simp only [keyLess]
  -- the first component that differs decides; path, kind and role are texts, so they always compare
  by_cases path : a.path = b.path
  · rw [if_pos (congrArg some path)]
    by_cases kind : a.kind = b.kind
    · rw [if_pos (congrArg some (congrArg ArtifactKind.value kind))]
      by_cases role : a.role = b.role
      · rw [if_pos (congrArg some (congrArg ExperimentRole.value role))]
        by_cases adapter : a.adapterId = b.adapterId
        · rw [if_pos adapter]
          by_cases split : a.datasetSplit = b.datasetSplit
          · simp [path, kind, role, adapter, split]
          · have different : a.datasetSplit.map DatasetSplit.value ≠
                b.datasetSplit.map DatasetSplit.value :=
              fun same => split (Option.map_injective DatasetSplit.value_injective same)
            rw [if_neg different, componentLess_isSome different, Option.map_eq_none_iff,
              Option.map_eq_none_iff]
            simp only [path, kind, role, adapter, true_and, iff_self, not_true_eq_false, false_or,
              not_not]
        -- adapter ids compare unless exactly one is absent
        · rw [if_neg adapter, componentLess_isSome adapter]
          simp only [path, kind, role, adapter, true_and, false_and, or_false, not_not]
      · have different : some a.role.value ≠ some b.role.value :=
          fun same => role (ExperimentRole.value_injective (Option.some.inj same))
        simp [different, componentLess, role]
    · have different : some a.kind.value ≠ some b.kind.value :=
        fun same => kind (ArtifactKind.value_injective (Option.some.inj same))
      simp [different, componentLess, kind]
  · have different : some a.path ≠ some b.path := fun same => path (Option.some.inj same)
    simp [different, componentLess, path]

/-- The sorted signatures of bindings that can be sorted. -/
def signaturesOf (bindings : List (ArtifactBinding ut)) : List BindingSignature :=
  (sortedByKey BindingSignature.key (bindings.map bindingSignature)).getD []

theorem sortedSignatures_ok_iff {bindings : List (ArtifactBinding ut)}
    {signatures : List BindingSignature} : sortedSignatures bindings = .ok signatures ↔
      Unmixed bindings ∧ signatures = signaturesOf bindings := by
  have sorts := @sortedByKey_isSome_iff _ BindingSignature.key (bindings.map bindingSignature)
  rw [List.pairwise_map] at sorts
  simp only [comparable_iff] at sorts
  rw [Unmixed, ← sorts, sortedSignatures, signaturesOf]
  cases sortedByKey BindingSignature.key (bindings.map bindingSignature) with
  | none => simp
  | some found => simp [eq_comm]

theorem mapM_sortedSignatures_ok_iff {items : List (MappingCandidate ut)}
    {signatures : List (List BindingSignature)} :
    (items.mapM fun item => sortedSignatures item.bindings) = .ok signatures ↔
      (∀ item ∈ items, Unmixed item.bindings) ∧
        signatures = items.map fun item => signaturesOf item.bindings := by
  induction items generalizing signatures with
  | nil => simp [pure, Except.pure, eq_comm]
  | cons item items ih =>
    rw [List.mapM_cons, bind_ok_iff, List.forall_mem_cons, List.map_cons]
    constructor
    · rintro ⟨first, sorted, h⟩
      obtain ⟨rest, others, h⟩ := bind_ok_iff.mp h
      obtain ⟨here, rfl⟩ := sortedSignatures_ok_iff.mp sorted
      obtain ⟨later, rfl⟩ := ih.mp others
      exact ⟨⟨here, later⟩, (Except.ok.inj h).symm⟩
    · rintro ⟨⟨here, later⟩, rfl⟩
      refine ⟨_, sortedSignatures_ok_iff.mpr ⟨here, rfl⟩, bind_ok_iff.mpr ⟨_, ih.mpr ⟨later, rfl⟩, rfl⟩⟩

/-! ### The first choice -/

theorem choiceLe_iff {a b : MappingCandidate ut} : choiceLe a b = true ↔
    provenancePriority a.provenance.kind < provenancePriority b.provenance.kind ∨
      provenancePriority a.provenance.kind = provenancePriority b.provenance.kind ∧
        (b.confidence.value.units < a.confidence.value.units ∨
          a.confidence.value.units = b.confidence.value.units ∧
            strLe a.mappingId b.mappingId = true) := by
  unfold choiceLe
  -- by priority, then by confidence, then by identifier
  split
  next different =>
    rw [decide_eq_true_eq]
    exact ⟨Or.inl, fun h => h.resolve_right fun both => different both.1⟩
  next same =>
    rw [ne_eq, not_not] at same
    split
    next different =>
      rw [decide_eq_true_eq]
      constructor
      · exact fun less => Or.inr ⟨same, Or.inl less⟩
      · rintro (less | ⟨-, less | both⟩)
        · omega
        · exact less
        · exact absurd both.1 different
    next same' =>
      rw [ne_eq, not_not] at same'
      constructor
      · exact fun le => Or.inr ⟨same, Or.inr ⟨same', le⟩⟩
      · rintro (less | ⟨-, less | both⟩)
        · omega
        · omega
        · exact both.2

theorem choiceLe_total (a b : MappingCandidate ut) :
    choiceLe a b = true ∨ choiceLe b a = true := by
  rw [choiceLe_iff, choiceLe_iff]
  rcases strLe_total a.mappingId b.mappingId with le | le
  · simp only [le, and_true]
    omega
  · simp only [le, and_true]
    omega

theorem choiceLe_trans {a b c : MappingCandidate ut} (h : choiceLe a b = true)
    (g : choiceLe b c = true) : choiceLe a c = true := by
  rw [choiceLe_iff] at h g ⊢
  rcases h with less | ⟨same, less | ⟨same', le⟩⟩
  · rcases g with less' | ⟨other, -⟩ <;> omega
  · rcases g with less' | ⟨other, less' | ⟨other', -⟩⟩ <;> omega
  · rcases g with less' | ⟨other, less' | ⟨other', le'⟩⟩
    · omega
    · omega
    · exact Or.inr ⟨same.trans other, Or.inr ⟨same'.trans other', strLe_trans le le'⟩⟩

theorem choiceLe_antisymm {a b : MappingCandidate ut} (h : choiceLe a b = true)
    (g : choiceLe b a = true) : a.mappingId = b.mappingId := by
  rw [choiceLe_iff] at h g
  rcases h with less | ⟨same, less | ⟨same', le⟩⟩
  · omega
  · omega
  · rcases g with less' | ⟨other, less' | ⟨other', le'⟩⟩
    · omega
    · omega
    · exact strLe_antisymm le le'

/-- One round keeps the least of what has been seen. -/
theorem foldl_choice (items : List (MappingCandidate ut)) (first : MappingCandidate ut) :
    let least := items.foldl (fun best other => if choiceLe best other then best else other) first
    least ∈ first :: items ∧ ∀ item ∈ first :: items, choiceLe least item = true := by
  induction items generalizing first with
  | nil =>
    refine ⟨List.mem_cons_self, fun item member => ?_⟩
    rw [List.mem_singleton.mp member]
    exact (choiceLe_total first first).elim id id
  | cons other items ih =>
    rw [List.foldl_cons]
    split
    next le =>
      obtain ⟨member, least⟩ := ih first
      rw [List.forall_mem_cons] at least
      refine ⟨?_, ?_⟩
      · rcases List.mem_cons.mp member with same | later
        · rw [same]
          exact List.mem_cons_self
        · exact List.mem_cons_of_mem first (List.mem_cons_of_mem other later)
      · rw [List.forall_mem_cons, List.forall_mem_cons]
        exact ⟨least.1, choiceLe_trans least.1 le, least.2⟩
    next notLe =>
      obtain ⟨member, least⟩ := ih other
      rw [List.forall_mem_cons] at least
      refine ⟨List.mem_cons_of_mem first member, ?_⟩
      rw [List.forall_mem_cons, List.forall_mem_cons]
      exact ⟨choiceLe_trans least.1 ((choiceLe_total first other).resolve_left notLe), least.1, least.2⟩

theorem firstChoice_some {items : List (MappingCandidate ut)} {least : MappingCandidate ut}
    (h : firstChoice items = some least) :
    least ∈ items ∧ ∀ item ∈ items, choiceLe least item = true := by
  cases items with
  | nil => cases h
  | cons item items =>
    rw [← Option.some.inj h]
    exact foldl_choice items item

/-- The choice does not depend on the order of candidates with different identifiers. -/
theorem firstChoice_perm {items others : List (MappingCandidate ut)} (perm : items.Perm others)
    (identified : (items.map MappingCandidate.mappingId).Nodup) :
    firstChoice items = firstChoice others := by
  cases chosen : firstChoice items with
  | none =>
    cases items with
    | nil => rw [List.nil_perm.mp perm, firstChoice]
    | cons item items => cases chosen
  | some least =>
    cases other : firstChoice others with
    | none =>
      cases others with
      | nil => exact absurd (firstChoice_some chosen).1 (List.perm_nil.mp perm ▸ List.not_mem_nil)
      | cons item others => cases other
    | some least' =>
      obtain ⟨member, le⟩ := firstChoice_some chosen
      obtain ⟨member', le'⟩ := firstChoice_some other
      have same := choiceLe_antisymm (le least' (perm.mem_iff.mpr member'))
        (le' least (perm.mem_iff.mp member))
      rw [List.inj_on_of_nodup_map identified member (perm.mem_iff.mpr member') same]

/-! ### Selection for a request -/

section Request

variable {request : PlanningRequest ut} {profile : Option (ProfileCheck ut)}

variable (request profile) in
/-- The mapping revalidates. -/
def revalidates (bindings : List (ArtifactBinding ut)) : Bool :=
  match mappingIsRuntimeRevalidatable request profile bindings with
  | .ok trusted => trusted
  | .error _ => false

theorem revalidates_of_ok {bindings : List (ArtifactBinding ut)} {trusted : Bool}
    (h : mappingIsRuntimeRevalidatable request profile bindings = .ok trusted) :
    revalidates request profile bindings = trusted := by
  rw [revalidates, h]

variable (request profile) in
/-- The candidates of some that revalidate. -/
def revalidated (items : List (MappingCandidate ut)) : List (MappingCandidate ut) :=
  items.filter fun item => revalidates request profile item.bindings

theorem validCandidates_ok_iff {items valid : List (MappingCandidate ut)} :
    validCandidates request profile items = .ok valid ↔
      (∀ item ∈ items, Returns (mappingIsRuntimeRevalidatable request profile item.bindings)) ∧
        valid = revalidated request profile items := by
  induction items generalizing valid with
  | nil => simp [validCandidates, revalidated, eq_comm]
  | cons item items ih =>
    rw [validCandidates, bind_ok_iff, List.forall_mem_cons]
    constructor
    · rintro ⟨trusted, checked, h⟩
      obtain ⟨rest, others, h⟩ := bind_ok_iff.mp h
      obtain ⟨return', rfl⟩ := ih.mp others
      refine ⟨⟨⟨trusted, checked⟩, return'⟩, ?_⟩
      rw [← Except.ok.inj h]
      simp only [revalidated, List.filter_cons, revalidates_of_ok checked]
    · rintro ⟨⟨⟨trusted, checked⟩, return'⟩, rfl⟩
      refine ⟨trusted, checked, bind_ok_iff.mpr ⟨_, ih.mpr ⟨return', rfl⟩, ?_⟩⟩
      simp only [revalidated, List.filter_cons, revalidates_of_ok checked]
      rfl

/-- With an approved mapping, that or nothing is selected. -/
theorem selectMapping_approved {approved : RepoMapping ut} {result : Option (SelectedMapping ut)}
    (present : request.approvedMapping = some approved) :
    selectMapping request profile = .ok result ↔
      (∀ item ∈ request.mappingCandidates,
        Returns (mappingIsRuntimeRevalidatable request profile item.bindings)) ∧
      Returns (mappingIsRuntimeRevalidatable request profile approved.bindings) ∧
      result = if revalidates request profile approved.bindings then some (.approved approved)
        else none := by
  rw [selectMapping, bind_ok_iff, present]
  constructor
  · rintro ⟨valid, checked, h⟩
    obtain ⟨trusted, checked', h⟩ := bind_ok_iff.mp h
    refine ⟨(validCandidates_ok_iff.mp checked).1, ⟨trusted, checked'⟩, ?_⟩
    rw [← Except.ok.inj h, revalidates_of_ok checked']
  · rintro ⟨returns, ⟨trusted, checked⟩, rfl⟩
    refine ⟨_, validCandidates_ok_iff.mpr ⟨returns, rfl⟩, bind_ok_iff.mpr ⟨trusted, checked, ?_⟩⟩
    rw [revalidates_of_ok checked]
    rfl

/-- Without one, a candidate is selected on which the valid ones agree. -/
theorem selectMapping_candidates {result : Option (SelectedMapping ut)}
    (absent : request.approvedMapping = none) :
    selectMapping request profile = .ok result ↔
      (∀ item ∈ request.mappingCandidates,
        Returns (mappingIsRuntimeRevalidatable request profile item.bindings)) ∧
      (∀ item ∈ revalidated request profile request.mappingCandidates, Unmixed item.bindings) ∧
      result = (agreedCandidate (revalidated request profile request.mappingCandidates)
        ((revalidated request profile request.mappingCandidates).map fun item =>
          signaturesOf item.bindings)).map .candidate := by
  rw [selectMapping, bind_ok_iff, absent]
  constructor
  · rintro ⟨valid, checked, h⟩
    obtain ⟨returns, rfl⟩ := validCandidates_ok_iff.mp checked
    obtain ⟨signatures, sorted, h⟩ := bind_ok_iff.mp h
    obtain ⟨unmixed, rfl⟩ := mapM_sortedSignatures_ok_iff.mp sorted
    exact ⟨returns, unmixed, (Except.ok.inj h).symm⟩
  · rintro ⟨returns, unmixed, rfl⟩
    exact ⟨_, validCandidates_ok_iff.mpr ⟨returns, rfl⟩, bind_ok_iff.mpr
      ⟨_, mapM_sortedSignatures_ok_iff.mpr ⟨unmixed, rfl⟩, rfl⟩⟩

/-- Candidates that have one signature. -/
theorem dedup_length_eq_one {α : Type} [DecidableEq α] {items : List α} (h : items.dedup.length = 1) :
    ∀ a ∈ items, ∀ b ∈ items, a = b := by
  obtain ⟨only, single⟩ := List.length_eq_one_iff.mp h
  have all : ∀ a ∈ items, a = only := by
    intro a member
    have listed := List.mem_dedup.mpr member
    rw [single] at listed
    exact List.mem_singleton.mp listed
  intro a first b second
  rw [all a first, all b second]

/-- What the selection of a candidate says. -/
structure TrustedChoice (request : PlanningRequest ut) (profile : Option (ProfileCheck ut))
    (item : MappingCandidate ut) : Prop where
  unapproved : request.approvedMapping = none
  member : item ∈ request.mappingCandidates
  valid : revalidates request profile item.bindings = true
  confident : item.confidence.isTrusted = true
  notProvider : item.provenance.kind ≠ .providerProposal
  agreed : ∀ other ∈ request.mappingCandidates, revalidates request profile other.bindings = true →
    sortedSignatures other.bindings = sortedSignatures item.bindings

theorem selectMapping_trusted {item : MappingCandidate ut}
    (h : selectMapping request profile = .ok (some (.candidate item))) :
    TrustedChoice request profile item := by
  cases approved : request.approvedMapping with
  | some mapping =>
    obtain ⟨-, -, result⟩ := (selectMapping_approved approved).mp h
    split at result <;> cases result
  | none =>
    obtain ⟨-, unmixed, result⟩ := (selectMapping_candidates approved).mp h
    obtain ⟨item', chosen, same⟩ := Option.map_eq_some_iff.mp result.symm
    obtain rfl := SelectedMapping.candidate.inj same
    unfold agreedCandidate at chosen
    split at chosen
    next one =>
      obtain ⟨eligible, -⟩ := firstChoice_some chosen
      obtain ⟨valid, trusted⟩ := List.mem_filter.mp eligible
      obtain ⟨member, trusting⟩ := List.mem_filter.mp valid
      simp only [isEligible, Bool.and_eq_true, bne_iff_ne, ne_eq] at trusted
      refine ⟨approved, member, trusting, trusted.1, trusted.2, ?_⟩
      intro other among trusting'
      have valid' : other ∈ revalidated request profile request.mappingCandidates :=
        List.mem_filter.mpr ⟨among, trusting'⟩
      have signatures := dedup_length_eq_one one _ (List.mem_map_of_mem valid') _
        (List.mem_map_of_mem valid)
      rw [sortedSignatures_ok_iff.mpr ⟨unmixed other valid', rfl⟩,
        sortedSignatures_ok_iff.mpr ⟨unmixed item' valid, rfl⟩]
      exact congrArg Except.ok signatures
    · cases chosen

/-- The selection of a request depends on the set of its candidates only. -/
theorem selectMapping_perm {other : PlanningRequest ut} {result : Option (SelectedMapping ut)}
    (perm : request.mappingCandidates.Perm other.mappingCandidates)
    (claimId : request.claimId = other.claimId)
    (evidence : request.normalizedEvidence = other.normalizedEvidence)
    (approved : request.approvedMapping = other.approvedMapping)
    (hasClaim : request.hasScientificClaim = other.hasScientificClaim)
    (h : selectMapping request profile = .ok result) : selectMapping other profile = .ok result := by
  -- the revalidation reads nothing of the candidates
  have revalidation (bindings : List (ArtifactBinding ut)) :
      mappingIsRuntimeRevalidatable request profile bindings =
        mappingIsRuntimeRevalidatable other profile bindings := by
    obtain ⟨_, _, _, _, _, _⟩ := request
    obtain ⟨_, _, _, _, _, _⟩ := other
    dsimp only at claimId evidence hasClaim
    subst claimId evidence hasClaim
    rfl
  have trusting (bindings : List (ArtifactBinding ut)) :
      revalidates request profile bindings = revalidates other profile bindings := by
    simp only [revalidates, revalidation]
  have same (items : List (MappingCandidate ut)) :
      revalidated request profile items = revalidated other profile items := by
    simp only [revalidated, trusting]
  cases present : request.approvedMapping with
  -- an approved mapping is revalidated alone
  | some mapping =>
    obtain ⟨returns, returns', rfl⟩ := (selectMapping_approved present).mp h
    refine (selectMapping_approved (approved ▸ present)).mpr ⟨fun item member => ?_, ?_, ?_⟩
    · rw [← revalidation]
      exact returns item (perm.mem_iff.mpr member)
    · rw [← revalidation]
      exact returns'
    · rw [trusting]
  | none =>
    obtain ⟨returns, unmixed, rfl⟩ := (selectMapping_candidates present).mp h
    have valid : (revalidated request profile request.mappingCandidates).Perm
        (revalidated other profile other.mappingCandidates) := same _ ▸ perm.filter _
    refine (selectMapping_candidates (approved ▸ present)).mpr ⟨fun item member => ?_,
      fun item member => unmixed item (valid.mem_iff.mpr member), ?_⟩
    · rw [← revalidation]
      exact returns item (perm.mem_iff.mpr member)
    -- the signatures and the eligible candidates are those of a permutation
    · have lengths := ((valid.map fun item => signaturesOf item.bindings).dedup).length_eq
      have identified : (((revalidated request profile request.mappingCandidates).filter
          isEligible).map MappingCandidate.mappingId).Nodup :=
        request.identified.sublist ((List.filter_sublist.trans List.filter_sublist).map _)
      unfold agreedCandidate
      rw [lengths, firstChoice_perm (valid.filter isEligible) identified]

end Request

/-! ### Narrowing -/

section Scope

variable (scope : ClaimScope ut)

/-- What a candidate is told apart by. -/
def ClaimScope.key (item : MappingCandidate ut) : ScopedKey :=
  (item.trust, item.provenance.kind, signaturesOf (scope.bindings item))

/-- The candidate as it is issued for the claim. -/
def ClaimScope.narrowed (item : MappingCandidate ut) (filled : scope.bindings item ≠ []) :
    MappingCandidate ut :=
  scope.candidate item filled (signaturesOf (scope.bindings item))

/-- The narrowing raises exactly if the bindings that are kept of some candidate cannot be sorted. -/
theorem scopeMappingCandidates_returns_iff (seen : List ScopedKey) (items : List (MappingCandidate ut)) :
    Returns (scopeMappingCandidates scope seen items) ↔ ∀ item ∈ items, Unmixed (scope.bindings item) := by
  induction items generalizing seen with
  | nil => exact ⟨fun _ _ member => (nomatch member), fun _ => ⟨[], rfl⟩⟩
  | cons item items ih =>
    rw [List.forall_mem_cons, scopeMappingCandidates]
    -- a candidate without a binding in scope is passed over
    by_cases filled : scope.bindings item = []
    · have unmixed : Unmixed (scope.bindings item) := by
        rw [filled]
        exact List.Pairwise.nil
      rw [dif_pos filled, ih seen]
      exact ⟨fun rest => ⟨unmixed, rest⟩, And.right⟩
    · rw [dif_neg filled]
      constructor
      · rintro ⟨narrowed, h⟩
        obtain ⟨signatures, sorted, h⟩ := bind_ok_iff.mp h
        refine ⟨(sortedSignatures_ok_iff.mp sorted).1, ?_⟩
        dsimp only at h
        split at h
        · exact (ih seen).mp ⟨narrowed, h⟩
        · obtain ⟨rest, narrows, -⟩ := bind_ok_iff.mp h
          exact (ih _).mp ⟨rest, narrows⟩
      · rintro ⟨unmixed, rest⟩
        rw [sortedSignatures_ok_iff.mpr ⟨unmixed, rfl⟩]
        dsimp only [bind, Except.bind]
        split
        · exact (ih seen).mpr rest
        · obtain ⟨narrowed, narrows⟩ := (ih ((item.trust, item.provenance.kind,
            signaturesOf (scope.bindings item)) :: seen)).mpr rest
          rw [narrows]
          exact ⟨_, rfl⟩

/-- What the narrowing issues: each new key once, with the first candidate that has it. -/
structure Narrows (seen : List ScopedKey) (items issued : List (MappingCandidate ut)) : Prop where
  sound : ∀ item ∈ issued, ∃ source ∈ items, ∃ filled, item = scope.narrowed source filled ∧
    scope.key source ∉ seen
  complete : ∀ source ∈ items, scope.bindings source ≠ [] → scope.key source ∈ seen ∨
    ∃ other ∈ items, ∃ filled, scope.key other = scope.key source ∧ scope.narrowed other filled ∈ issued
  once : (issued.map fun item => (item.trust, item.provenance.kind, signaturesOf item.bindings)).Nodup
  first : ∀ source rest, items = source :: rest → ∀ filled : scope.bindings source ≠ [],
    scope.key source ∈ seen ∨ scope.narrowed source filled ∈ issued

theorem scopeMappingCandidates_narrows {seen : List ScopedKey} {items issued : List (MappingCandidate ut)}
    (h : scopeMappingCandidates scope seen items = .ok issued) : Narrows scope seen items issued := by
  induction items generalizing seen issued with
  -- what is issued comes from a candidate, every candidate is issued or known, and no key twice
  | nil =>
    rw [← Except.ok.inj h]
    exact ⟨fun _ member => (nomatch member), fun _ member => (nomatch member), List.nodup_nil,
      fun _ _ none => (nomatch none)⟩
  | cons item items ih =>
    rw [scopeMappingCandidates] at h
    by_cases empty : scope.bindings item = []
    · rw [dif_pos empty] at h
      obtain ⟨sound, complete, once, -⟩ := ih h
      refine ⟨fun found member => ?_, fun source member filled => ?_, once, fun source rest cut filled => ?_⟩
      · obtain ⟨source, inside, rest⟩ := sound found member
        exact ⟨source, List.mem_cons_of_mem item inside, rest⟩
      · rcases List.mem_cons.mp member with rfl | later
        · exact absurd empty filled
        · refine (complete source later filled).imp_right ?_
          rintro ⟨other, inside, rest⟩
          exact ⟨other, List.mem_cons_of_mem item inside, rest⟩
      · rw [← (List.cons.inj cut).1] at filled
        exact absurd empty filled
    · rw [dif_neg empty] at h
      obtain ⟨signatures, sorted, h⟩ := bind_ok_iff.mp h
      obtain ⟨-, rfl⟩ := sortedSignatures_ok_iff.mp sorted
      dsimp only at h
      split at h
      -- the key was issued before: nothing new
      next known =>
        have inSeen : scope.key item ∈ seen := List.contains_iff_mem.mp known
        obtain ⟨sound, complete, once, -⟩ := ih h
        refine ⟨fun found member => ?_, fun source member filled => ?_, once,
          fun source rest cut filled => ?_⟩
        · obtain ⟨source, inside, rest⟩ := sound found member
          exact ⟨source, List.mem_cons_of_mem item inside, rest⟩
        · rcases List.mem_cons.mp member with rfl | later
          · exact Or.inl inSeen
          · refine (complete source later filled).imp_right ?_
            rintro ⟨other, inside, rest⟩
            exact ⟨other, List.mem_cons_of_mem item inside, rest⟩
        · obtain ⟨rfl, -⟩ := List.cons.inj cut
          exact Or.inl inSeen
      -- a fresh key: the candidate is issued
      next unknown =>
        have fresh : scope.key item ∉ seen := fun known => unknown (List.contains_iff_mem.mpr known)
        obtain ⟨rest, narrows, h⟩ := bind_ok_iff.mp h
        obtain ⟨sound, complete, once, -⟩ := ih narrows
        rw [← Except.ok.inj h]
        refine ⟨fun found member => ?_, fun source member filled => ?_, ?_, fun source rest cut filled => ?_⟩
        · rcases List.mem_cons.mp member with rfl | later
          · exact ⟨item, List.mem_cons_self, empty, rfl, fresh⟩
          · obtain ⟨source, inside, filled, same, new⟩ := sound found later
            exact ⟨source, List.mem_cons_of_mem item inside, filled, same,
              fun known => new (List.mem_cons_of_mem _ known)⟩
        · rcases List.mem_cons.mp member with rfl | later
          · exact Or.inr ⟨source, List.mem_cons_self, filled, rfl, List.mem_cons_self⟩
          · rcases complete source later filled with known | ⟨other, inside, filled', same, issued'⟩
            · rcases List.mem_cons.mp known with here | before
              · exact Or.inr ⟨item, List.mem_cons_self, empty, here.symm, List.mem_cons_self⟩
              · exact Or.inl before
            · exact Or.inr ⟨other, List.mem_cons_of_mem item inside, filled', same,
                List.mem_cons_of_mem _ issued'⟩
        · rw [List.map_cons, List.nodup_cons]
          refine ⟨fun again => ?_, once⟩
          obtain ⟨found, later, same⟩ := List.mem_map.mp again
          obtain ⟨source, -, filled, rfl, new⟩ := sound found later
          apply new
          have key : scope.key source = scope.key item := same
          rw [key]
          exact List.mem_cons_self
        · obtain ⟨rfl, -⟩ := List.cons.inj cut
          exact Or.inr List.mem_cons_self

/-! ### Selection for a claim -/

variable (approved : Option (RepoMapping ut)) (hasScientificClaim : Bool)
  (profile : Option (ProfileCheck ut))

/-- The request of a claim without its candidates. -/
def ClaimScope.request : PlanningRequest ut :=
  ⟨scope.claimId, scope.selectedEvidence, [], approved, hasScientificClaim, List.nodup_nil⟩

/-- Two lists with the same candidates. -/
def SameCandidates (others items : List (MappingCandidate ut)) : Prop :=
  ∀ item, item ∈ others ↔ item ∈ items

/-- What keeps the selection from raising: the kept bindings of every candidate can be sorted, their
digests do not collide, and the profile check returns. -/
structure Selectable (candidates : List (MappingCandidate ut)) : Prop where
  unmixed : ∀ item ∈ candidates, Unmixed (scope.bindings item)
  collisionFree : ∀ a ∈ candidates, ∀ b ∈ candidates, scope.bindings a ≠ [] → scope.bindings b ≠ [] →
    scope.mappingId (scope.key a) = scope.mappingId (scope.key b) → scope.key a = scope.key b
  checked : ∀ item ∈ candidates, scope.bindings item ≠ [] → Returns (mappingIsRuntimeRevalidatable
    (scope.request approved hasScientificClaim) profile (scope.bindings item))
  approvedChecked : ∀ mapping, approved = some mapping → Returns (mappingIsRuntimeRevalidatable
    (scope.request approved hasScientificClaim) profile mapping.bindings)

/-- Candidates that are narrowed to one key are narrowed to one candidate. -/
def NarrowedAlike (candidates : List (MappingCandidate ut)) : Prop :=
  ∀ a ∈ candidates, ∀ b ∈ candidates, ∀ filled filled', scope.key a = scope.key b →
    scope.narrowed a filled = scope.narrowed b filled'

variable {scope approved hasScientificClaim profile}

theorem selectForClaim_ok_iff {candidates : List (MappingCandidate ut)}
    {result : Option (SelectedMapping ut)} :
    selectForClaim scope approved hasScientificClaim profile candidates = .ok result ↔
      ∃ issued, scopeMappingCandidates scope [] candidates = .ok issued ∧
        ∃ identified : (issued.map MappingCandidate.mappingId).Nodup,
          selectMapping ⟨scope.claimId, scope.selectedEvidence, issued, approved, hasScientificClaim,
            identified⟩ profile = .ok result := by
  rw [selectForClaim, bind_ok_iff]
  constructor
  · rintro ⟨issued, narrows, h⟩
    split at h
    next identified => exact ⟨issued, narrows, identified, h⟩
    · cases h
  · rintro ⟨issued, narrows, identified, h⟩
    refine ⟨issued, narrows, ?_⟩
    rw [dif_pos identified]
    exact h

/-- What is issued for a claim has identifiers of its own when the digests do not collide. -/
theorem Narrows.identified {items issued : List (MappingCandidate ut)}
    (h : Narrows scope [] items issued)
    (collisionFree : ∀ a ∈ items, ∀ b ∈ items, scope.bindings a ≠ [] → scope.bindings b ≠ [] →
      scope.mappingId (scope.key a) = scope.mappingId (scope.key b) → scope.key a = scope.key b) :
    (issued.map MappingCandidate.mappingId).Nodup := by
  have once := h.once
  rw [List.Nodup, List.pairwise_map] at once ⊢
  refine once.imp_of_mem ?_
  intro a b inA inB different same
  obtain ⟨source, member, filled, rfl, -⟩ := h.sound a inA
  obtain ⟨source', member', filled', rfl, -⟩ := h.sound b inB
  exact different (collisionFree source member source' member' filled filled' same)

/-- No order of the candidates raises exactly if the candidates are selectable. -/
theorem selectForClaim_returns_iff (candidates : List (MappingCandidate ut)) :
    (∀ others, SameCandidates others candidates →
      Returns (selectForClaim scope approved hasScientificClaim profile others)) ↔
      Selectable scope approved hasScientificClaim profile candidates := by
  constructor
  · intro returns
    obtain ⟨result, selected⟩ := returns candidates fun _ => Iff.rfl
    obtain ⟨issued, narrows, identified, selects⟩ := selectForClaim_ok_iff.mp selected
    have issues := scopeMappingCandidates_narrows scope narrows
    refine ⟨(scopeMappingCandidates_returns_iff scope [] candidates).mp ⟨issued, narrows⟩, ?_, ?_, ?_⟩
    -- equal identifiers were issued once, so the keys are the same
    · intro a inA b inB filled filled' same
      obtain ⟨c, inC, filledC, key, issuedC⟩ := (issues.complete a inA filled).resolve_left
        List.not_mem_nil
      obtain ⟨d, inD, filledD, key', issuedD⟩ := (issues.complete b inB filled').resolve_left
        List.not_mem_nil
      have ids : (scope.narrowed c filledC).mappingId = (scope.narrowed d filledD).mappingId := by
        change scope.mappingId (scope.key c) = scope.mappingId (scope.key d)
        rw [key, key', same]
      have equal := List.inj_on_of_nodup_map identified issuedC issuedD ids
      have keys : scope.key c = scope.key d :=
        congrArg (fun item : MappingCandidate ut =>
          (item.trust, item.provenance.kind, signaturesOf item.bindings)) equal
      rw [← key, ← key', keys]
    · -- Any candidate may come first, and is then issued and checked.
      intro item member filled
      have same : SameCandidates (item :: candidates) candidates := by
        intro other
        rw [List.mem_cons, or_iff_right_iff_imp]
        rintro rfl
        exact member
      obtain ⟨result', selected'⟩ := returns _ same
      obtain ⟨issued', narrows', identified', selects'⟩ := selectForClaim_ok_iff.mp selected'
      have here := ((scopeMappingCandidates_narrows scope narrows').first item candidates rfl
        filled).resolve_left List.not_mem_nil
      obtain ⟨valid, checked, -⟩ := bind_ok_iff.mp selects'
      exact (validCandidates_ok_iff.mp checked).1 _ here
    · intro mapping present
      exact ((selectMapping_approved present).mp selects).2.1
  · intro selectable others same
    obtain ⟨issued, narrows⟩ := (scopeMappingCandidates_returns_iff scope [] others).mpr
      fun item member => selectable.unmixed item ((same item).mp member)
    have issues := scopeMappingCandidates_narrows scope narrows
    have identified := issues.identified fun a inA b inB =>
      selectable.collisionFree a ((same a).mp inA) b ((same b).mp inB)
    have checked : ∀ item ∈ issued, Returns (mappingIsRuntimeRevalidatable
        ⟨scope.claimId, scope.selectedEvidence, issued, approved, hasScientificClaim, identified⟩
        profile item.bindings) := by
      intro item member
      obtain ⟨source, inside, filled, rfl, -⟩ := issues.sound item member
      exact selectable.checked source ((same source).mp inside) filled
    -- whichever way the selection goes, its checks return
    cases present : approved with
    | some mapping =>
      exact ⟨_, selectForClaim_ok_iff.mpr ⟨issued, narrows, identified, (selectMapping_approved
        rfl).mpr ⟨present ▸ checked, present ▸ selectable.approvedChecked mapping present, rfl⟩⟩⟩
    | none =>
      refine ⟨_, selectForClaim_ok_iff.mpr ⟨issued, narrows, identified, (selectMapping_candidates
        rfl).mpr ⟨present ▸ checked, ?_, rfl⟩⟩⟩
      intro item member
      obtain ⟨source, inside, filled, rfl, -⟩ := issues.sound item (List.mem_of_mem_filter member)
      exact selectable.unmixed source ((same source).mp inside)

/-- What is issued does not depend on the order of candidates that are narrowed alike. -/
theorem Narrows.perm {items others issued issued' : List (MappingCandidate ut)}
    (same : SameCandidates others items) (alike : NarrowedAlike scope items)
    (h : Narrows scope [] items issued) (h' : Narrows scope [] others issued') :
    issued.Perm issued' := by
  have nodup {found : List (MappingCandidate ut)} {from' : List (MappingCandidate ut)}
      (narrows : Narrows scope [] from' found) : found.Nodup := List.Nodup.of_map _ narrows.once
  rw [List.perm_ext_iff_of_nodup (nodup h) (nodup h')]
  intro item
  constructor
  · intro member
    obtain ⟨source, inside, filled, rfl, -⟩ := h.sound item member
    obtain ⟨other, inside', filled', key, found⟩ :=
      (h'.complete source ((same source).mpr inside) filled).resolve_left List.not_mem_nil
    rwa [alike other ((same other).mp inside') source inside filled' filled key] at found
  · intro member
    obtain ⟨source, inside, filled, rfl, -⟩ := h'.sound item member
    obtain ⟨other, inside', filled', key, found⟩ :=
      (h.complete source ((same source).mp inside) filled).resolve_left List.not_mem_nil
    rwa [alike other inside' source ((same source).mp inside) filled' filled key] at found

/-- The selection for a claim: it raises for no order of the candidates exactly if they are selectable;
candidates that are narrowed alike are selected from as a set; what is selected without an approval is
trusted and agreed on; an approval is selected or nothing is. -/
theorem selectForClaim_sound_iff (scope : ClaimScope ut) (approved : Option (RepoMapping ut))
    (hasScientificClaim : Bool) (profile : Option (ProfileCheck ut))
    (candidates : List (MappingCandidate ut)) :
    ((∀ others, SameCandidates others candidates →
        Returns (selectForClaim scope approved hasScientificClaim profile others)) ↔
      Selectable scope approved hasScientificClaim profile candidates) ∧
    (Selectable scope approved hasScientificClaim profile candidates → NarrowedAlike scope candidates →
      ∀ others, SameCandidates others candidates →
        selectForClaim scope approved hasScientificClaim profile others =
          selectForClaim scope approved hasScientificClaim profile candidates) ∧
    (∀ item, selectForClaim scope approved hasScientificClaim profile candidates =
        .ok (some (.candidate item)) →
      ∃ issued, scopeMappingCandidates scope [] candidates = .ok issued ∧
        ∃ identified : (issued.map MappingCandidate.mappingId).Nodup,
          TrustedChoice ⟨scope.claimId, scope.selectedEvidence, issued, approved, hasScientificClaim,
            identified⟩ profile item) ∧
    ∀ mapping, approved = some mapping → ∀ result,
      selectForClaim scope approved hasScientificClaim profile candidates = .ok result →
        result = none ∨ result = some (.approved mapping) := by
  refine ⟨selectForClaim_returns_iff candidates, ?_, ?_, ?_⟩
  -- two orders issue permutations of each other, and the selection does not see the order
  · intro selectable alike others same
    obtain ⟨result, selected⟩ := (selectForClaim_returns_iff candidates).mpr selectable candidates
      fun _ => Iff.rfl
    obtain ⟨issued, narrows, identified, selects⟩ := selectForClaim_ok_iff.mp selected
    obtain ⟨result', selected'⟩ := (selectForClaim_returns_iff candidates).mpr selectable others same
    obtain ⟨issued', narrows', identified', -⟩ := selectForClaim_ok_iff.mp selected'
    have perm := Narrows.perm same alike (scopeMappingCandidates_narrows scope narrows)
      (scopeMappingCandidates_narrows scope narrows')
    have selects' : selectMapping ⟨scope.claimId, scope.selectedEvidence, issued', approved,
        hasScientificClaim, identified'⟩ profile = .ok result := by
      apply selectMapping_perm (h := selects)
      · exact perm
      · rfl
      · rfl
      · rfl
      · rfl
    rw [selected]
    exact selectForClaim_ok_iff.mpr ⟨issued', narrows', identified', selects'⟩
  · intro item selected
    obtain ⟨issued, narrows, identified, selects⟩ := selectForClaim_ok_iff.mp selected
    exact ⟨issued, narrows, identified, selectMapping_trusted selects⟩
  -- with an approved mapping the candidates do not matter
  · intro mapping present result selected
    obtain ⟨issued, narrows, identified, selects⟩ := selectForClaim_ok_iff.mp selected
    obtain ⟨-, -, outcome⟩ := (selectMapping_approved present).mp selects
    rw [outcome]
    split
    · exact Or.inr rfl
    · exact Or.inl rfl

end Scope

/-! ### Two discoveries -/

def plainTables : UnicodeTables := ⟨id, fun _ => false⟩

theorem discovered_checks : FieldProvenance.check (lit "discovered") none = .ok () := by decide

def discovered : FieldProvenance :=
  ⟨.deterministicDiscovery, lit "discovered", none, none, discovered_checks⟩

theorem discovered_trust : CandidateTrust .inferred discovered.kind := by
  exact Or.inr ⟨rfl, by decide, by decide⟩

theorem one_mantissa_lt : 2 ^ 52 < 2 ^ 53 := by decide

theorem one_exponent_ge : -1074 ≤ (-52 : Int) := by decide

theorem one_exponent_le : (-52 : Int) ≤ 971 := by decide

theorem one_normalized : 2 ^ 52 ≤ 2 ^ 52 ∨ (-52 : Int) = -1074 := Or.inl le_rfl

def one : Binary64 :=
  ⟨false, 2 ^ 52, -52, one_mantissa_lt, one_exponent_ge, one_exponent_le, one_normalized⟩

theorem one_bounded : (Binary64.zero false).le one = true ∧ one.units ≤ 2 ^ 1074 := by decide +kernel

theorem zero_bounded : (Binary64.zero false).le (Binary64.zero false) = true ∧
    (Binary64.zero false).units ≤ 2 ^ 1074 := by decide +kernel

def certain : Confidence := ⟨one, one_bounded⟩

def doubtful : Confidence := ⟨Binary64.zero false, zero_bounded⟩

theorem dataset_split (datasetSplit : Option DatasetSplit) :
    ArtifactKind.dataset ≠ .dataset → datasetSplit = none := fun other => absurd rfl other

/-- A binding as discovery issues it. -/
def discoveredBinding (path : Str) (datasetSplit : Option DatasetSplit) : ArtifactBinding plainTables where
  path := path
  kind := .dataset
  role := .baseline
  adapterId := none
  mappings := []
  provenance := discovered
  datasetSplit := datasetSplit
  targets := List.nodup_nil
  split := dataset_split datasetSplit

theorem splits_distinct : ([discoveredBinding (lit "data") none, discoveredBinding (lit "data")
    (some .train)].map ArtifactBinding.slot).Nodup := by decide

theorem single_distinct : ([discoveredBinding (lit "data") none].map ArtifactBinding.slot).Nodup :=
  List.nodup_singleton _

/-- A dataset that is bound with and without a split. -/
def mixedCandidate : MappingCandidate plainTables where
  mappingId := "mixed"
  bindings := [discoveredBinding (lit "data") none, discoveredBinding (lit "data") (some .train)]
  confidence := doubtful
  trust := .inferred
  provenance := discovered
  filled := List.cons_ne_nil _ _
  distinct := splits_distinct
  trusted := discovered_trust

/-- The same binding with some confidence. -/
def singleCandidate (confidence : Confidence) (mappingId : Str) : MappingCandidate plainTables where
  mappingId := mappingId
  bindings := [discoveredBinding (lit "data") none]
  confidence := confidence
  trust := .inferred
  provenance := discovered
  filled := List.cons_ne_nil _ _
  distinct := single_distinct
  trusted := discovered_trust

/-- The artifact with evidence for the claim. -/
def dataScope : ClaimScope plainTables :=
  ⟨lit "claim", [(lit "data", .dataset)],
    [⟨lit "data", .dataset, [lit "claim"], ⟨lit "jsonl", [], List.nodup_nil⟩, []⟩], fun _ => lit "digest"⟩

/-- A profile that every mapping satisfies. -/
def anyProfile : Option (ProfileCheck plainTables) := some ⟨.trainingExperimentV0, fun _ => .ok true⟩

/-- The same artifact, with a digest that tells the identifiers of different candidates apart. -/
def agreeingScope : ClaimScope plainTables :=
  { dataScope with sha256 := fun bytes => bytes.reverse.map fun byte => codePoint byte.toNat }

theorem hinted_checks : FieldProvenance.check (lit "hinted") none = .ok () := by decide

/-- The binding of `singleCandidate` as the manifest hints it. -/
def hintedCandidate : MappingCandidate plainTables where
  mappingId := "hint"
  bindings := [discoveredBinding (lit "data") none]
  confidence := certain
  trust := .manifestHint
  provenance := ⟨.manifestHint, lit "hinted", none, none, hinted_checks⟩
  filled := List.cons_ne_nil _ _
  distinct := single_distinct
  trusted := Or.inl ⟨rfl, rfl⟩

def agreeing : List (MappingCandidate plainTables) :=
  [singleCandidate certain (lit "single"), hintedCandidate]

theorem agreeing_keys :
    agreeingScope.mappingId (agreeingScope.key (singleCandidate certain (lit "single"))) ≠
      agreeingScope.mappingId (agreeingScope.key hintedCandidate) := by decide +kernel

theorem agreeing_selectable : Selectable agreeingScope none true anyProfile agreeing := by
  have cases (item : MappingCandidate plainTables) (member : item ∈ agreeing) :
      item = singleCandidate certain (lit "single") ∨ item = hintedCandidate := by
    simpa [agreeing] using member
  refine ⟨fun item member => ?_, fun a inA b inB _ _ same => ?_, fun item member _ => ?_,
    fun _ none => nomatch none⟩
  · rcases cases item member with rfl | rfl <;> exact List.pairwise_singleton _ _
  · rcases cases a inA with rfl | rfl <;> rcases cases b inB with rfl | rfl
    · rfl
    · exact absurd same agreeing_keys
    · exact absurd same.symm agreeing_keys
    · rfl
  · rcases cases item member with rfl | rfl <;> exact ⟨true, rfl⟩

theorem agreeing_alike : NarrowedAlike agreeingScope agreeing := by
  intro a inA b inB filled filled' same
  have different := fun key => agreeing_keys (congrArg agreeingScope.mappingId key)
  simp only [agreeing, List.mem_cons, List.not_mem_nil, or_false] at inA inB
  rcases inA with rfl | rfl <;> rcases inB with rfl | rfl
  · rfl
  · exact absurd same different
  · exact absurd same.symm different
  · rfl

/-- The candidate that is selected, if one is. -/
def selectedCandidate (selected : Except Error (Option (SelectedMapping plainTables))) :
    Option (MappingCandidate plainTables) :=
  match selected with
  | .ok (some (.candidate item)) => some item
  | _ => none

theorem eq_of_selectedCandidate {selected : Except Error (Option (SelectedMapping plainTables))}
    {item : MappingCandidate plainTables} (h : selectedCandidate selected = some item) :
    selected = .ok (some (.candidate item)) := by
  unfold selectedCandidate at h
  split at h
  · rw [Option.some.inj h]
  · cases h

/-- Two candidates agree on one binding: every order selects the same one, which is trusted. -/
theorem selectForClaim_sound_agreeing :
    agreeing.length = 2 ∧
    (∀ others, SameCandidates others agreeing →
      Returns (selectForClaim agreeingScope none true anyProfile others) ∧
        selectForClaim agreeingScope none true anyProfile others =
          selectForClaim agreeingScope none true anyProfile agreeing) ∧
    ∃ item issued, ∃ identified : (issued.map MappingCandidate.mappingId).Nodup,
      selectForClaim agreeingScope none true anyProfile agreeing = .ok (some (.candidate item)) ∧
      issued.length = 2 ∧
      TrustedChoice ⟨agreeingScope.claimId, agreeingScope.selectedEvidence, issued, none, true,
        identified⟩ anyProfile item := by
  obtain ⟨returns, order, trusts, -⟩ := selectForClaim_sound_iff agreeingScope none true anyProfile agreeing
  refine ⟨rfl, fun others same => ⟨returns.mpr agreeing_selectable others same,
    order agreeing_selectable agreeing_alike others same⟩, ?_⟩
  have chosen : (selectedCandidate
      (selectForClaim agreeingScope none true anyProfile agreeing)).isSome = true := by
    decide +kernel
  have both : (scopeMappingCandidates agreeingScope [] agreeing).toOption.map List.length = some 2 := by
    decide +kernel
  obtain ⟨item, found⟩ := Option.isSome_iff_exists.mp chosen
  have selected := eq_of_selectedCandidate found
  obtain ⟨issued, narrows, identified, trusted⟩ := trusts item selected
  rw [narrows] at both
  exact ⟨item, issued, identified, selected, Option.some.inj both, trusted⟩

/-- The sort raises; and the first of two candidates that are narrowed to one decides. -/
theorem selectForClaim_mixed_order :
    ¬ Returns (selectForClaim dataScope none true anyProfile [mixedCandidate]) ∧
    (selectForClaim dataScope none true anyProfile
      [singleCandidate certain (lit "a"), singleCandidate doubtful (lit "b")]).toOption.map
        Option.isSome = some true ∧
    (selectForClaim dataScope none true anyProfile
      [singleCandidate doubtful (lit "b"), singleCandidate certain (lit "a")]).toOption.map
        Option.isSome = some false := by
  refine ⟨?_, by decide +kernel⟩
  rintro ⟨result, selected⟩
  obtain ⟨issued, narrows, -⟩ := selectForClaim_ok_iff.mp selected
  have unmixed := (scopeMappingCandidates_returns_iff dataScope [] [mixedCandidate]).mp
    ⟨issued, narrows⟩ mixedCandidate List.mem_cons_self
  exact (List.pairwise_cons.mp unmixed).1 _ List.mem_cons_self
    ⟨rfl, rfl, rfl, Or.inr ⟨rfl, by decide⟩⟩

end ClaimCI
