import ClaimCI.Audit
import ClaimCI.DatasetRecords

/-!
# Audit verdict

What the verdict of an audit says about the artifacts it read: the evidence that makes it
`SUPPORTED`, and the evidence that makes it `NOT_SUPPORTED`.

Every section of the audit is described twice over: when all of its findings are clean, and when
one of them invalidates the claim. The verdict puts the sections together.
-/

open Python

namespace ClaimCI

/-! ### Findings -/

/-- No finding speaks against the claim. -/
def Clean (findings : List Finding) : Prop := ∀ f ∈ findings, f.impact = .none

/-- Some finding invalidates the claim. -/
def Invalidating (findings : List Finding) : Prop := ∃ f ∈ findings, f.impact = .invalidates

@[simp] theorem clean_nil : Clean [] := by simp [Clean]

@[simp] theorem clean_cons (f : Finding) (fs : List Finding) :
    Clean (f :: fs) ↔ f.impact = .none ∧ Clean fs := by simp [Clean]

@[simp] theorem clean_append (fs gs : List Finding) :
    Clean (fs ++ gs) ↔ Clean fs ∧ Clean gs := by simp [Clean, or_imp, forall_and]

@[simp] theorem invalidating_nil : ¬Invalidating [] := by simp [Invalidating]

@[simp] theorem invalidating_cons (f : Finding) (fs : List Finding) :
    Invalidating (f :: fs) ↔ f.impact = .invalidates ∨ Invalidating fs := by simp [Invalidating]

@[simp] theorem invalidating_append (fs gs : List Finding) :
    Invalidating (fs ++ gs) ↔ Invalidating fs ∨ Invalidating gs := by
  simp [Invalidating, or_and_right, exists_or]

theorem determineVerdict_supported_iff (findings : List Finding) :
    determineVerdict findings = .supported ↔ Clean findings := by
  simp only [determineVerdict, List.any_eq_true, decide_eq_true_eq, Clean]
  constructor
  · intro h f hf
    split at h
    · cases h
    next noInvalidating =>
    split at h
    · cases h
    next noInsufficient =>
    cases impact : f.impact with
    | none => rfl
    | invalidates => exact absurd ⟨f, hf, impact⟩ noInvalidating
    | insufficient => exact absurd ⟨f, hf, impact⟩ noInsufficient
  · intro h
    rw [if_neg, if_neg]
    · rintro ⟨f, hf, impact⟩
      rw [h f hf] at impact
      cases impact
    · rintro ⟨f, hf, impact⟩
      rw [h f hf] at impact
      cases impact

theorem determineVerdict_notSupported_iff (findings : List Finding) :
    determineVerdict findings = .notSupported ↔ Invalidating findings := by
  simp only [determineVerdict, List.any_eq_true, decide_eq_true_eq, Invalidating]
  constructor
  · intro h
    split at h
    next found => exact found
    · split at h <;> cases h
  · exact fun h => if_pos h

/-! ### Configs -/

/-- Every required field of a config is present and valid. -/
structure FieldsComplete (config : Config) : Prop where
  compute : ∀ field ∈ COMPUTE_FIELDS, (positiveNumber (valueAt config [field])).isSome
  identity : ∀ path ∈ IDENTITY_PATHS, presentScalar (valueAt config path) = true
  learningRate : (positiveNumber (valueAt config ["learning_rate"])).isSome

/-- On the first basis both configs provide, the candidate uses less than one and a half times the
compute of the baseline. -/
def ComputeBelow (baseline candidate : Config) : Prop :=
  ∃ basis b c, commonBasis baseline candidate = some (basis, b, c) ∧ c.toRat / b.toRat < 3 / 2

/-- On that basis, the candidate uses at least one and a half times the compute. -/
def ComputeTooLarge (baseline candidate : Config) : Prop :=
  ∃ basis b c, commonBasis baseline candidate = some (basis, b, c) ∧ 3 / 2 ≤ c.toRat / b.toRat

def EvaluationsEqual (baseline candidate : Config) : Prop :=
  ∃ b c, valueAt baseline ["evaluation"] = some b ∧ valueAt candidate ["evaluation"] = some c ∧
    b.eq c = true

/-- Both evaluation mappings are completely declared, and differ. -/
def EvaluationsDiffer (baseline candidate : Config) : Prop :=
  evaluationMappingComplete baseline = true ∧ evaluationMappingComplete candidate = true ∧
    ∃ b c, valueAt baseline ["evaluation"] = some b ∧ valueAt candidate ["evaluation"] = some c ∧
      b.eq c = false

structure ConfigsComparable (baseline candidate : Config) : Prop where
  baselineFields : FieldsComplete baseline
  candidateFields : FieldsComplete candidate
  compute : ComputeBelow baseline candidate
  evaluation : EvaluationsEqual baseline candidate

theorem missingOrInvalidFields_eq_nil_iff (config : Config) :
    missingOrInvalidFields config = [] ↔ FieldsComplete config := by
  have fields : missingOrInvalidFields config = [] ↔
      (∀ field ∈ COMPUTE_FIELDS, (positiveNumber (valueAt config [field])).isSome) ∧
      (∀ path ∈ IDENTITY_PATHS, presentScalar (valueAt config path) = true) ∧
      (positiveNumber (valueAt config ["learning_rate"])).isSome := by
    simp only [missingOrInvalidFields, List.append_eq_nil_iff, List.filter_eq_nil_iff,
      List.map_eq_nil_iff, Bool.not_eq_true', Bool.not_eq_false, Option.isNone_iff_eq_none,
      ← Option.isSome_iff_ne_none, ite_eq_right_iff, List.cons_ne_nil, imp_false, and_assoc]
  rw [fields]
  exact ⟨fun h => ⟨h.1, h.2.1, h.2.2⟩, fun h => ⟨h.compute, h.identity, h.learningRate⟩⟩

theorem commonBasis_isSome (baseline candidate : Config) (hb : FieldsComplete baseline)
    (hc : FieldsComplete candidate) : ∃ basis b c,
      commonBasis baseline candidate = some (basis, b, c) := by
  have provides : ∀ config, FieldsComplete config →
      ∃ d, computeProxy config .trainingStepsBatchSize = some d := by
    intro config complete
    obtain ⟨steps, hs⟩ := Option.isSome_iff_exists.mp
      (complete.compute "training_steps" (by simp [COMPUTE_FIELDS]))
    obtain ⟨batch, hb⟩ := Option.isSome_iff_exists.mp
      (complete.compute "batch_size" (by simp [COMPUTE_FIELDS]))
    exact ⟨multiplyExact steps batch, by simp [computeProxy, hs, hb]⟩
  obtain ⟨b, hb⟩ := provides baseline hb
  obtain ⟨c, hc⟩ := provides candidate hc
  exact ⟨.trainingStepsBatchSize, b, c, by simp [commonBasis, BASES, hb, hc]⟩

/-- The proxies on the common basis are positive. -/
theorem commonBasis_pos (baseline candidate : Config) (basis : Basis) (b c : Decimal)
    (h : commonBasis baseline candidate = some (basis, b, c)) : 0 < b.toRat ∧ 0 < c.toRat := by
  obtain ⟨_, _, found⟩ := List.exists_of_findSome?_eq_some h
  simp only [Option.bind_eq_bind, Option.bind_eq_some_iff, Option.some.injEq] at found
  obtain ⟨b', hb, c', hc, same⟩ := found
  cases same
  exact ⟨computeProxy_pos baseline _ _ hb, computeProxy_pos candidate _ _ hc⟩

private theorem threshold_toRat : COMPUTE_RATIO_THRESHOLD.toRat = 3 / 2 := by
  simp only [COMPUTE_RATIO_THRESHOLD, Decimal.toRat, Decimal.signed]
  norm_num

theorem computeMismatch_iff (baseline candidate : Config) :
    computeMismatch baseline candidate = true ↔ ComputeTooLarge baseline candidate := by
  unfold computeMismatch ComputeTooLarge
  cases h : commonBasis baseline candidate with
  | none => simp
  | some found =>
    obtain ⟨basis, b, c⟩ := found
    have pos := (commonBasis_pos baseline candidate basis b c h).1
    simp only [atLeastRatio_iff c b _ pos, threshold_toRat, Option.some.injEq, Prod.mk.injEq]
    constructor
    · exact fun ratio => ⟨basis, b, c, ⟨rfl, rfl, rfl⟩, ratio⟩
    · rintro ⟨_, _, _, ⟨rfl, rfl, rfl⟩, ratio⟩
      exact ratio

/-- Complete fields include a complete evaluation mapping. -/
theorem FieldsComplete.evaluation {config : Config} (h : FieldsComplete config) :
    evaluationMappingComplete config = true ∧
      ∃ entries, valueAt config ["evaluation"] = some (.dict entries) := by
  have identifier := h.identity ["evaluation", "dataset_identifier"] (by simp [IDENTITY_PATHS])
  have version := h.identity ["evaluation", "dataset_version"] (by simp [IDENTITY_PATHS])
  have split := h.identity ["evaluation", "split"] (by simp [IDENTITY_PATHS])
  simp only [valueAt] at identifier version split
  unfold evaluationMappingComplete
  simp only [valueAt]
  split at identifier
  next entries found =>
    rw [found] at version split ⊢
    simp only at version split
    refine ⟨?_, entries, rfl⟩
    simp only [List.all_cons, List.all_nil, identifier, version, split, Bool.and_self]
  · cases identifier

private theorem clean_evaluationFindings (baseline candidate : Config)
    (hb : FieldsComplete baseline) (hc : FieldsComplete candidate) :
    Clean (evaluationFindings baseline candidate) ↔ EvaluationsEqual baseline candidate := by
  obtain ⟨completeB, b, foundB⟩ := hb.evaluation
  obtain ⟨completeC, c, foundC⟩ := hc.evaluation
  unfold evaluationFindings EvaluationsEqual
  simp only [completeB, completeC, foundB, foundC, sameLookup, true_and, Option.some.injEq,
    exists_and_left, exists_eq_left']
  split
  next different => simp [different]
  next equal => simpa using equal

private theorem clean_other (baseline candidate : Config) :
    Clean (trainingDatasetFindings baseline candidate) ∧
      Clean (trainingParameterFindings baseline candidate) ∧
      Clean (learningRateFindings baseline candidate) ∧ Clean (modelFindings baseline candidate) := by
  refine ⟨?_, ?_, ?_, ?_⟩
  · unfold trainingDatasetFindings; dsimp only; split <;> simp
  · unfold trainingParameterFindings; dsimp only; split <;> simp
  · unfold learningRateFindings; dsimp only; split <;> simp
  · unfold modelFindings; dsimp only; split <;> simp

private theorem clean_not_invalidating (findings : List Finding) (h : Clean findings) :
    ¬Invalidating findings := by
  rintro ⟨f, hf, impact⟩
  rw [h f hf] at impact
  cases impact

/-- The first three rules decide what the comparison of two configs says. -/
private theorem checkConfigs_rules (baseline candidate : Config) :
    (Clean (checkConfigs baseline candidate) ↔
      Clean (missingFieldsFindings baseline candidate) ∧ Clean (computeFindings baseline candidate) ∧
        Clean (evaluationFindings baseline candidate)) ∧
    (Invalidating (checkConfigs baseline candidate) ↔
      Invalidating (missingFieldsFindings baseline candidate) ∨
        Invalidating (computeFindings baseline candidate) ∨
        Invalidating (evaluationFindings baseline candidate)) := by
  obtain ⟨dataset, parameters, rate, model⟩ := clean_other baseline candidate
  have rules : ∀ findings : List Finding, (Clean (if findings = [] then
      [fairnessVerified baseline candidate] else findings) ↔ Clean findings) ∧
      (Invalidating (if findings = [] then [fairnessVerified baseline candidate] else findings) ↔
        Invalidating findings) := by
    intro findings
    split
    next empty => simp [empty, fairnessVerified]
    · exact ⟨Iff.rfl, Iff.rfl⟩
  unfold checkConfigs
  refine ⟨(rules _).1.trans ?_, (rules _).2.trans ?_⟩
  · simp only [clean_append, dataset, parameters, rate, model, and_true, and_assoc]
  · simp only [invalidating_append, clean_not_invalidating _ dataset,
      clean_not_invalidating _ parameters, clean_not_invalidating _ rate,
      clean_not_invalidating _ model, or_false, or_assoc]

private theorem missingFieldsFindings_rule (baseline candidate : Config) :
    (Clean (missingFieldsFindings baseline candidate) ↔
      FieldsComplete baseline ∧ FieldsComplete candidate) ∧
    ¬Invalidating (missingFieldsFindings baseline candidate) := by
  rw [← missingOrInvalidFields_eq_nil_iff, ← missingOrInvalidFields_eq_nil_iff]
  unfold missingFieldsFindings
  dsimp only
  split
  next complete => simp [complete]
  next missing => simp [missing]

private theorem computeFindings_rule (baseline candidate : Config) :
    (Clean (computeFindings baseline candidate) ↔ ¬ComputeTooLarge baseline candidate) ∧
    (Invalidating (computeFindings baseline candidate) ↔ ComputeTooLarge baseline candidate) := by
  rw [← computeMismatch_iff]
  unfold computeFindings
  dsimp only
  split
  next large => simp [large]
  next small => simp [small]

private theorem invalidating_evaluationFindings (baseline candidate : Config) :
    Invalidating (evaluationFindings baseline candidate) ↔
      EvaluationsDiffer baseline candidate := by
  have declared : ∀ config, evaluationMappingComplete config = true →
      ∃ v, valueAt config ["evaluation"] = some v := by
    intro config complete
    unfold evaluationMappingComplete at complete
    split at complete
    next found => exact ⟨_, found⟩
    · cases complete
  unfold evaluationFindings EvaluationsDiffer
  dsimp only
  split
  next differ =>
    obtain ⟨b, foundB⟩ := declared baseline differ.1
    obtain ⟨c, foundC⟩ := declared candidate differ.2.1
    have different := differ.2.2
    rw [foundB, foundC] at different
    simp only [invalidating_cons, true_or, true_iff]
    exact ⟨differ.1, differ.2.1, b, c, foundB, foundC, different⟩
  next same =>
    simp only [invalidating_nil, false_iff]
    rintro ⟨completeB, completeC, b, c, foundB, foundC, different⟩
    exact same ⟨completeB, completeC, by rw [foundB, foundC]; exact different⟩

/-- Two configs raise no concern exactly when they are comparable. -/
theorem clean_checkConfigs_iff (baseline candidate : Config) :
    Clean (checkConfigs baseline candidate) ↔ ConfigsComparable baseline candidate := by
  rw [(checkConfigs_rules baseline candidate).1, (missingFieldsFindings_rule baseline candidate).1,
    (computeFindings_rule baseline candidate).1]
  have below : FieldsComplete baseline → FieldsComplete candidate →
      (¬ComputeTooLarge baseline candidate ↔ ComputeBelow baseline candidate) := by
    intro hb hc
    obtain ⟨basis, b, c, found⟩ := commonBasis_isSome baseline candidate hb hc
    simp only [ComputeTooLarge, ComputeBelow, found, Option.some.injEq, Prod.mk.injEq]
    constructor
    · exact fun small => ⟨basis, b, c, ⟨rfl, rfl, rfl⟩, lt_of_not_ge fun large =>
        small ⟨basis, b, c, ⟨rfl, rfl, rfl⟩, large⟩⟩
    · rintro ⟨_, _, _, ⟨rfl, rfl, rfl⟩, small⟩ ⟨_, _, _, ⟨rfl, rfl, rfl⟩, large⟩
      exact absurd small (not_lt.mpr large)
  constructor
  · rintro ⟨⟨hb, hc⟩, compute, evaluation⟩
    exact ⟨hb, hc, (below hb hc).mp compute,
      (clean_evaluationFindings baseline candidate hb hc).mp evaluation⟩
  · rintro ⟨hb, hc, compute, evaluation⟩
    exact ⟨⟨hb, hc⟩, (below hb hc).mpr compute,
      (clean_evaluationFindings baseline candidate hb hc).mpr evaluation⟩

theorem invalidating_checkConfigs_iff (baseline candidate : Config) :
    Invalidating (checkConfigs baseline candidate) ↔
      ComputeTooLarge baseline candidate ∨ EvaluationsDiffer baseline candidate := by
  rw [(checkConfigs_rules baseline candidate).2, (computeFindings_rule baseline candidate).2,
    invalidating_evaluationFindings]
  simp [(missingFieldsFindings_rule baseline candidate).2]

/-! ### Results -/

/-- The summary a results file declares, if any, is the recomputed mean. -/
def SummaryAgrees (loaded : LoadedResults) (summary : MetricSummary) : Prop :=
  ∀ claimed ∈ loaded.claimedSummary, claimed.toDecimal.toRat = summary.mean.toDecimal.toRat

/-- Every run carries a seed, no seed repeats, and there are at least two runs. -/
structure RunsSound (loaded : LoadedResults) : Prop where
  seeded : ∀ seed ∈ loaded.seeds, seed ≠ none
  distinct : loaded.seeds.Nodup
  several : 2 ≤ loaded.values.length

/-- The directed difference of the two means reaches the declared threshold. -/
def MeetsThreshold (spec : ResearchSpec) (checked : ResultCheck) : Prop :=
  spec.minimumImprovement.toDecimal.toRat ≤ (absoluteDecimal spec.direction
    checked.baselineSummary.mean.toDecimal checked.candidateSummary.mean.toDecimal).toRat

/-- The comparison of two loaded results files the manifest asks for. -/
def comparison (spec : ResearchSpec) (baseline candidate : LoadedResults) :
    Except Error ResultCheck :=
  checkResults baseline candidate spec.metric spec.minimumImprovement spec.direction

structure ResultsSupport (spec : ResearchSpec) (baseline candidate : LoadedResults)
    (checked : ResultCheck) : Prop where
  computable : comparison spec baseline candidate = .ok checked
  meets : MeetsThreshold spec checked
  baselineSummary : SummaryAgrees baseline checked.baselineSummary
  candidateSummary : SummaryAgrees candidate checked.candidateSummary
  baselineRuns : RunsSound baseline
  candidateRuns : RunsSound candidate

/-- The comparison is computable and contradicts the claim or a declared summary. -/
def ResultsAgainst (spec : ResearchSpec) (baseline candidate : LoadedResults) : Prop :=
  ∃ checked, comparison spec baseline candidate = .ok checked ∧
    (¬MeetsThreshold spec checked ∨ ¬SummaryAgrees baseline checked.baselineSummary ∨
      ¬SummaryAgrees candidate checked.candidateSummary)

private theorem missingIndices_eq_nil_iff (seeds : List (Option Int)) :
    missingIndices seeds = [] ↔ ∀ seed ∈ seeds, seed ≠ none := by
  simp only [missingIndices, List.map_eq_nil_iff, List.filter_eq_nil_iff,
    Option.isNone_iff_eq_none]
  constructor
  · intro h seed hs
    obtain ⟨n, hn, rfl⟩ := List.getElem_of_mem hs
    exact h (seeds[n], 1 + n) (List.mk_mem_zipIdx_iff_le_and_getElem?_sub.mpr (by simp [hn]))
  · rintro h ⟨seed, n⟩ hs
    exact h seed (List.fst_mem_of_mem_zipIdx hs)

private theorem duplicateSeeds_eq_nil_iff (seeds : List (Option Int)) :
    duplicateSeeds seeds = [] ↔ (seeds.filterMap id).Nodup := by
  have sorted : duplicateSeeds seeds = [] ↔ ((seeds.filterMap id).dedup.filter fun seed =>
      1 < (seeds.filterMap id).count seed) = [] := by
    unfold duplicateSeeds
    dsimp only
    rw [← List.perm_nil, ← List.perm_nil]
    exact ⟨((List.perm_insertionSort _ _).symm.trans ·), ((List.perm_insertionSort _ _).trans ·)⟩
  rw [sorted, List.filter_eq_nil_iff, List.nodup_iff_count_le_one]
  simp only [List.mem_dedup, decide_eq_true_eq, not_lt]
  constructor
  · intro h seed
    by_cases present : seed ∈ seeds.filterMap id
    · exact h seed present
    · rw [List.count_eq_zero_of_not_mem present]
      exact Nat.zero_le 1
  · exact fun h seed _ => h seed

private theorem nodup_seeds_iff (seeds : List (Option Int)) (seeded : ∀ seed ∈ seeds, seed ≠ none) :
    (seeds.filterMap id).Nodup ↔ seeds.Nodup := by
  have restored : (seeds.filterMap id).map some = seeds := by
    induction seeds with
    | nil => rfl
    | cons seed seeds ih =>
      cases seed with
      | none => exact absurd rfl (seeded none (by simp))
      | some n =>
        have rest := ih fun seed hs => seeded seed (by simp [hs])
        simpa using rest
  conv_rhs => rw [← restored]
  rw [List.nodup_map_iff (Option.some_injective Int)]

private theorem seedFindings_rule (arm : Arm) (loaded : LoadedResults)
    (ne : loaded.values ≠ []) :
    (Clean (seedFindings arm loaded) ↔ RunsSound loaded) ∧
      ¬Invalidating (seedFindings arm loaded) := by
  have missing := missingIndices_eq_nil_iff loaded.seeds
  have duplicate := duplicateSeeds_eq_nil_iff loaded.seeds
  have several : loaded.values.length ≠ 1 ↔ 2 ≤ loaded.values.length := by
    have := List.length_pos_iff.mpr ne
    omega
  have clean : Clean (seedFindings arm loaded) ↔
      missingIndices loaded.seeds = [] ∧ duplicateSeeds loaded.seeds = [] ∧
        loaded.values.length ≠ 1 := by
    unfold seedFindings
    simp only [clean_append]
    rw [and_assoc]
    -- one conjunct for each of the three findings
    refine and_congr ?_ (and_congr ?_ ?_)
    · split
      next h => simp [h]
      next h => simp only [clean_cons, reduceCtorEq, false_and, h]
    · split
      next h => simp [h]
      next h => simp only [clean_cons, reduceCtorEq, false_and, h]
    · split
      next h => simp [h]
      next h => simp only [clean_nil, ne_eq, h, not_false_eq_true]
  refine ⟨?_, ?_⟩
  · rw [clean, missing, duplicate, several]
    constructor
    · rintro ⟨seeded, distinct, runs⟩
      exact ⟨seeded, (nodup_seeds_iff _ seeded).mp distinct, runs⟩
    · rintro ⟨seeded, distinct, runs⟩
      exact ⟨seeded, (nodup_seeds_iff _ seeded).mpr distinct, runs⟩
  · unfold seedFindings
    simp only [invalidating_append, not_or]
    refine ⟨⟨?_, ?_⟩, ?_⟩
    · split <;> simp
    · split <;> simp
    · split <;> simp

private theorem summaryMismatch_rule (arm : Arm) (loaded : LoadedResults)
    (summary : MetricSummary) :
    (Clean (summaryMismatchFinding arm loaded summary).toList ↔ SummaryAgrees loaded summary) ∧
    (Invalidating (summaryMismatchFinding arm loaded summary).toList ↔
      ¬SummaryAgrees loaded summary) := by
  unfold summaryMismatchFinding SummaryAgrees
  cases claimed : loaded.claimedSummary with
  | none => simp
  | some x =>
    simp only [Option.mem_some_iff, forall_eq', ← Decimal.eq_iff]
    split
    next agrees => simp [agrees]
    next differs => simp [differs]

private theorem imbalance_rule (b c : Nat) :
    Clean (imbalanceFindings b c) := by
  unfold imbalanceFindings
  dsimp only
  split <;> simp

private theorem clean_seedEvidence (findings : List Finding) (b c : Nat) :
    Clean (seedEvidenceFindings findings b c) := by
  unfold seedEvidenceFindings
  split <;> simp

private theorem summarizeRuns_ne_nil (values : List Binary64) (summary : MetricSummary)
    (h : summarizeRuns values = .ok summary) : values ≠ [] := by
  rintro rfl
  simp [summarizeRuns] at h

/-- What a computed comparison reports. -/
private theorem comparison_rule (spec : ResearchSpec) (b c : LoadedResults)
    (checked : ResultCheck) (h : comparison spec b c = .ok checked) :
    (Clean checked.findings ↔ MeetsThreshold spec checked ∧
      SummaryAgrees b checked.baselineSummary ∧ SummaryAgrees c checked.candidateSummary ∧
      RunsSound b ∧ RunsSound c) ∧
    (Invalidating checked.findings ↔ ¬MeetsThreshold spec checked ∨
      ¬SummaryAgrees b checked.baselineSummary ∨ ¬SummaryAgrees c checked.candidateSummary) := by
  obtain ⟨hb, hc, claimFinding, compared, findings⟩ := checkResults_ok h
  have claim : (claimFinding.impact = .none ↔ MeetsThreshold spec checked) ∧
      (claimFinding.impact = .invalidates ↔ ¬MeetsThreshold spec checked) := by
    have decided := (metricSummaryComparison_ok compared).2
    unfold MeetsThreshold
    rw [← Decimal.le_iff]
    -- the claim's finding alone depends on the threshold
    split at decided
    next meets => simp [decided.1, meets]
    next below => simp [decided.1, below]
  obtain ⟨cleanB, againstB⟩ := summaryMismatch_rule .baseline b checked.baselineSummary
  obtain ⟨cleanC, againstC⟩ := summaryMismatch_rule .candidate c checked.candidateSummary
  obtain ⟨seedsB, neverB⟩ := seedFindings_rule .baseline b (summarizeRuns_ne_nil _ _ hb)
  obtain ⟨seedsC, neverC⟩ := seedFindings_rule .candidate c (summarizeRuns_ne_nil _ _ hc)
  have imbalance := imbalance_rule b.values.length c.values.length
  have noImbalance := clean_not_invalidating _ imbalance
  have clean : Clean (runFindings b c spec.metric checked.baselineSummary
      checked.candidateSummary) ↔ SummaryAgrees b checked.baselineSummary ∧ RunsSound b ∧
        SummaryAgrees c checked.candidateSummary ∧ RunsSound c := by
    simp only [runFindings, recomputedFinding, clean_append, clean_cons, cleanB, cleanC, seedsB,
      seedsC, imbalance, true_and, and_true, and_assoc]
  have against : Invalidating (runFindings b c spec.metric checked.baselineSummary
      checked.candidateSummary) ↔ ¬SummaryAgrees b checked.baselineSummary ∨
        ¬SummaryAgrees c checked.candidateSummary := by
    simp only [runFindings, recomputedFinding, invalidating_append, invalidating_cons, againstB,
      againstC, neverB, neverC, noImbalance, reduceCtorEq, false_or, or_false]
  have verified := clean_seedEvidence (runFindings b c spec.metric checked.baselineSummary
    checked.candidateSummary) b.values.length c.values.length
  have noneVerified := clean_not_invalidating _ verified
  rw [findings]
  simp only [clean_append, clean_cons, clean_nil, invalidating_append, invalidating_cons,
    invalidating_nil, clean, against, verified, noneVerified, claim.1, claim.2,
    and_true, or_false]
  -- the other findings depend on the runs only
  refine ⟨?_, ?_⟩
  · constructor
    · rintro ⟨⟨agreesB, runsB, agreesC, runsC⟩, meets⟩
      exact ⟨meets, agreesB, agreesC, runsB, runsC⟩
    · rintro ⟨meets, agreesB, agreesC, runsB, runsC⟩
      exact ⟨⟨agreesB, runsB, agreesC, runsC⟩, meets⟩
  · exact or_comm

/-! ### Datasets -/

/-- No record value is in both splits. -/
def SplitsDisjoint (train eval : List Json) : Prop :=
  ∀ v ∈ train, ∀ w ∈ eval, recordValue v ≠ recordValue w

/-- The encodings of all records of the four datasets of a manifest. -/
def ResearchSpec.encodings (rt : Runtime) (spec : ResearchSpec) : List Bytes :=
  ClaimCI.encodings rt spec.baseline.trainDataset ++
    ClaimCI.encodings rt spec.baseline.evalDataset ++
    ClaimCI.encodings rt spec.candidate.trainDataset ++
    ClaimCI.encodings rt spec.candidate.evalDataset

theorem leakage_rule (arm : Arm) (train eval : DatasetHashes) :
    (Clean (checkDatasetLeakage arm train eval).2 ↔ ∀ h ∈ train.hashes, h ∉ eval.hashes) ∧
    (Invalidating (checkDatasetLeakage arm train eval).2 ↔
      ¬∀ h ∈ train.hashes, h ∉ eval.hashes) := by
  rw [← intersectionCount_eq_zero_iff]
  unfold checkDatasetLeakage
  dsimp only
  split
  next shared => simp [shared]
  next none => simp [not_not.mp none]

theorem alignment_rule (baseline candidate : DatasetHashes) :
    (Clean (checkEvaluationAlignment baseline candidate) ↔
      baseline.hashes.Perm candidate.hashes) ∧
    (Invalidating (checkEvaluationAlignment baseline candidate) ↔
      ¬baseline.hashes.Perm candidate.hashes) := by
  rw [← sameCounts_iff]
  unfold checkEvaluationAlignment
  dsimp only
  split
  next same => simp [same, alignedFinding]
  next different => simp [different, mismatchFinding]

/-! ### Sections -/

private theorem attempt_cases {α : Type} {rt : Runtime} {category : Category} {arm : Arm}
    {path : Str} {load : Except Error α} {r : Except Finding α}
    (h : attempt rt category arm path load = .ok r) :
    (∃ loaded, load = .ok loaded ∧ r = .ok loaded) ∨
    (∃ finding, r = .error finding ∧ finding.impact = .insufficient ∧
      ¬∃ loaded, load = .ok loaded) := by
  unfold attempt at h
  split at h
  next loaded =>
    exact .inl ⟨_, rfl, (Except.ok.inj h).symm⟩
  · exact .inr ⟨_, (Except.ok.inj h).symm, rfl, by simp⟩
  · cases h

/-- What the findings of a section say: when they are clean, and when they invalidate. -/
structure SectionSays (findings : List Finding) (supports against : Prop) : Prop where
  clean : Clean findings ↔ supports
  invalidating : Invalidating findings ↔ against

private theorem SectionSays.append {fs gs : List Finding} {p q r s : Prop}
    (hf : SectionSays fs p q) (hg : SectionSays gs r s) :
    SectionSays (fs ++ gs) (p ∧ r) (q ∨ s) :=
  ⟨by rw [clean_append, hf.clean, hg.clean],
    by rw [invalidating_append, hf.invalidating, hg.invalidating]⟩

/-- A section over two artifacts: it reports each one that failed to load, and what the check of
both says when both loaded. -/
private theorem pair_section {α β : Type} {rt : Runtime} {c d : Category} {a b : Arm}
    {p q : Str} {loadA : Except Error α} {loadB : Except Error β} {ra : Except Finding α}
    {rb : Except Finding β} (ha : attempt rt c a p loadA = .ok ra)
    (hb : attempt rt d b q loadB = .ok rb) {check : α → β → List Finding}
    {supports against : α → β → Prop}
    (both : ∀ x y, ra = .ok x → rb = .ok y → SectionSays (check x y) (supports x y) (against x y)) :
    SectionSays (failure ra ++ failure rb ++ whenBoth check ra rb)
      (∃ x y, loadA = .ok x ∧ loadB = .ok y ∧ supports x y)
      (∃ x y, loadA = .ok x ∧ loadB = .ok y ∧ against x y) := by
  -- whichever load fails first, its finding is the whole section
  rcases attempt_cases ha with ⟨x, hx, rfl⟩ | ⟨f, rfl, impact, noX⟩
  · rcases attempt_cases hb with ⟨y, hy, rfl⟩ | ⟨f, rfl, impact, noY⟩
    · obtain ⟨clean, invalidating⟩ := both x y rfl rfl
      simp only [failure, whenBoth, List.nil_append, hx, hy, Except.ok.injEq]
      exact ⟨by simp [clean], by simp [invalidating]⟩
    · rw [show whenBoth check (.ok x) (.error f) = [] from rfl]
      refine ⟨?_, ?_⟩
      · simp only [failure, List.nil_append, List.append_nil, clean_cons, impact, reduceCtorEq,
          false_and, false_iff]
        exact fun ⟨_, y, _, hy, _⟩ => noY ⟨y, hy⟩
      · simp only [failure, List.nil_append, List.append_nil, invalidating_cons, impact,
          reduceCtorEq, invalidating_nil, or_self, false_iff]
        exact fun ⟨_, y, _, hy, _⟩ => noY ⟨y, hy⟩
  · rw [show whenBoth check (.error f) rb = [] from rfl]
    have second : ¬Invalidating (failure rb) := by
      rcases attempt_cases hb with ⟨y, _, rfl⟩ | ⟨g, rfl, impactG, _⟩
      · simp [failure]
      · simp [failure, impactG]
    have first : failure (.error f : Except Finding α) = [f] := rfl
    rw [List.append_nil, first]
    refine ⟨?_, ?_⟩
    · simp only [List.cons_append, clean_cons, impact, reduceCtorEq, false_and, false_iff]
      exact fun ⟨x, _, hx, _⟩ => noX ⟨x, hx⟩
    · simp only [List.cons_append, List.nil_append, invalidating_cons, impact, reduceCtorEq, second,
        or_self, false_iff]
      exact fun ⟨x, _, hx, _⟩ => noX ⟨x, hx⟩

private theorem configSection_says {rt : Runtime} {spec : ResearchSpec} {findings : List Finding}
    (h : configSection rt spec = .ok findings) : SectionSays findings
      (∃ b c, loadConfig rt spec.baseline.config = .ok b ∧
        loadConfig rt spec.candidate.config = .ok c ∧ ConfigsComparable b c)
      (∃ b c, loadConfig rt spec.baseline.config = .ok b ∧
        loadConfig rt spec.candidate.config = .ok c ∧
        (ComputeTooLarge b c ∨ EvaluationsDiffer b c)) := by
  unfold configSection at h
  obtain ⟨ra, ha, h⟩ := bind_ok_iff.mp h
  obtain ⟨rb, hb, h⟩ := bind_ok_iff.mp h
  rw [← Except.ok.inj h]
  apply pair_section ha hb
  intro b c _ _
  refine ⟨?_, ?_⟩
  · simp only [clean_cons, configLoaded, true_and, clean_checkConfigs_iff]
  · simp only [invalidating_cons, configLoaded, reduceCtorEq, false_or,
      invalidating_checkConfigs_iff]

private theorem resultSection_says {rt : Runtime} {spec : ResearchSpec} {findings : List Finding}
    {checked : Option ResultCheck} (h : resultSection rt spec = .ok (findings, checked)) :
    SectionSays findings
      (∃ b c, loadResults rt spec.baseline.results spec.metric = .ok b ∧
        loadResults rt spec.candidate.results spec.metric = .ok c ∧
        ∃ checked, ResultsSupport spec b c checked)
      (∃ b c, loadResults rt spec.baseline.results spec.metric = .ok b ∧
        loadResults rt spec.candidate.results spec.metric = .ok c ∧ ResultsAgainst spec b c) := by
  unfold resultSection at h
  obtain ⟨ra, ha, h⟩ := bind_ok_iff.mp h
  obtain ⟨rb, hb, h⟩ := bind_ok_iff.mp h
  -- the comparison runs only when both arms load
  have loaded : ∀ b c, ra = .ok b → rb = .ok c → SectionSays findings
      (∃ checked, ResultsSupport spec b c checked) (ResultsAgainst spec b c) := by
    rintro b c rfl rfl
    simp only at h
    split at h
    next result compared =>
      obtain rfl := (Prod.mk.inj (Except.ok.inj h)).1
      have same : ∀ other, comparison spec b c = .ok other → other = result := by
        intro other found
        exact Except.ok.inj (found.symm.trans compared)
      obtain ⟨clean, invalidating⟩ := comparison_rule spec b c result compared
      refine ⟨clean.trans ⟨?_, ?_⟩, invalidating.trans ⟨?_, ?_⟩⟩
      · exact fun ⟨meets, agreesB, agreesC, runsB, runsC⟩ =>
          ⟨result, compared, meets, agreesB, agreesC, runsB, runsC⟩
      · rintro ⟨other, supports⟩
        obtain rfl := same other supports.computable
        exact ⟨supports.meets, supports.baselineSummary, supports.candidateSummary,
          supports.baselineRuns, supports.candidateRuns⟩
      · exact fun against => ⟨result, compared, against⟩
      · rintro ⟨other, found, against⟩
        obtain rfl := same other found
        exact against
    -- a comparison that raises leaves one finding, which supports nothing
    next message failed =>
      obtain rfl := (Prod.mk.inj (Except.ok.inj h)).1
      have never : ∀ other, comparison spec b c ≠ .ok other := by
        intro other found
        rw [comparison, failed] at found
        cases found
      refine ⟨?_, ?_⟩
      · simp only [clean_cons, comparisonInvalid, reduceCtorEq, false_and, false_iff]
        exact fun ⟨other, supports⟩ => never other supports.computable
      · simp only [invalidating_cons, comparisonInvalid, reduceCtorEq, invalidating_nil, or_self,
          false_iff]
        exact fun ⟨other, found, _⟩ => never other found
    · cases h
  -- a load that fails takes the comparison with it
  have shape : findings = failure ra ++ failure rb ++
      whenBoth (fun _ _ => findings) ra rb := by
    cases ra with
    | ok b =>
      cases rb with
      | ok c => rfl
      | error g => exact (Prod.mk.inj (Except.ok.inj h)).1.symm.trans (List.append_nil _).symm
    | error f =>
      cases rb with
      | ok c => exact (Prod.mk.inj (Except.ok.inj h)).1.symm.trans (List.append_nil _).symm
      | error g => exact (Prod.mk.inj (Except.ok.inj h)).1.symm.trans (List.append_nil _).symm
  rw [shape]
  exact pair_section ha hb loaded

/-- A relation between the hashes of two loaded datasets, told by their records. -/
private theorem records_iff {rt : Runtime} {raws : List Bytes} {p q : Str}
    (subP : ∀ raw ∈ encodings rt p, raw ∈ raws) (subQ : ∀ raw ∈ encodings rt q, raw ∈ raws)
    {onHashes : List Str → List Str → Prop}
    {onRecords : List Json → List Json → Prop}
    (same : ∀ rs ss hs gs, HashedRecords rt raws rs hs → HashedRecords rt raws ss gs →
      (onHashes hs gs ↔ onRecords rs ss)) :
    (∃ t e, loadDataset rt p = .ok t ∧ loadDataset rt q = .ok e ∧ onHashes t.hashes e.hashes) ↔
      ∃ rs ss, DatasetHolds rt p rs ∧ DatasetHolds rt q ss ∧ onRecords rs ss := by
  constructor
  · rintro ⟨t, e, ht, he, related⟩
    obtain ⟨rs, holdsR, hashedR, _⟩ := loadDataset_ok ht
    obtain ⟨ss, holdsS, hashedS, _⟩ := loadDataset_ok he
    exact ⟨rs, ss, holdsR, holdsS, (same rs ss _ _
      (hashedRecords_of_loaded holdsR.records hashedR subP)
      (hashedRecords_of_loaded holdsS.records hashedS subQ)).mp related⟩
  · rintro ⟨rs, ss, holdsR, holdsS, related⟩
    obtain ⟨t, ht⟩ := holdsR.loaded
    obtain ⟨e, he⟩ := holdsS.loaded
    obtain ⟨rs', holdsR', hashedR, _⟩ := loadDataset_ok ht
    obtain ⟨ss', holdsS', hashedS, _⟩ := loadDataset_ok he
    obtain rfl := Option.some.inj (holdsR.records.symm.trans holdsR'.records)
    obtain rfl := Option.some.inj (holdsS.records.symm.trans holdsS'.records)
    exact ⟨t, e, ht, he, (same rs ss _ _ (hashedRecords_of_loaded holdsR.records hashedR subP)
      (hashedRecords_of_loaded holdsS.records hashedS subQ)).mpr related⟩

/-- Both datasets of an arm load, and no record value is in both. -/
def ArmDisjoint (rt : Runtime) (paths : ExperimentPaths) : Prop :=
  ∃ train eval, DatasetHolds rt paths.trainDataset train ∧
    DatasetHolds rt paths.evalDataset eval ∧ SplitsDisjoint train eval

/-- Both datasets of an arm load, and some record value is in both. -/
def ArmLeaks (rt : Runtime) (paths : ExperimentPaths) : Prop :=
  ∃ train eval, DatasetHolds rt paths.trainDataset train ∧
    DatasetHolds rt paths.evalDataset eval ∧ ¬SplitsDisjoint train eval

def EvaluationsAligned (rt : Runtime) (spec : ResearchSpec) : Prop :=
  ∃ b c, DatasetHolds rt spec.baseline.evalDataset b ∧
    DatasetHolds rt spec.candidate.evalDataset c ∧ SameRecords b c

def EvaluationsMisaligned (rt : Runtime) (spec : ResearchSpec) : Prop :=
  ∃ b c, DatasetHolds rt spec.baseline.evalDataset b ∧
    DatasetHolds rt spec.candidate.evalDataset c ∧ ¬SameRecords b c

private theorem armDatasets_says {rt : Runtime} {spec : ResearchSpec} {arm : Arm}
    {a : ArmDatasets} (h : armDatasets rt spec arm = .ok a) :
    SectionSays a.findings
      (∃ t e, loadDataset rt (spec.arm arm).trainDataset = .ok t ∧
        loadDataset rt (spec.arm arm).evalDataset = .ok e ∧ ∀ x ∈ t.hashes, x ∉ e.hashes)
      (∃ t e, loadDataset rt (spec.arm arm).trainDataset = .ok t ∧
        loadDataset rt (spec.arm arm).evalDataset = .ok e ∧ ¬∀ x ∈ t.hashes, x ∉ e.hashes) ∧
    (∀ e, a.eval = some e ↔ loadDataset rt (spec.arm arm).evalDataset = .ok e) := by
  unfold armDatasets at h
  obtain ⟨rt', ht, h⟩ := bind_ok_iff.mp h
  obtain ⟨re, he, h⟩ := bind_ok_iff.mp h
  obtain rfl := Except.ok.inj h
  refine ⟨?_, ?_⟩
  · apply pair_section ht he
    intro t e _ _
    exact ⟨(leakage_rule arm t e).1, (leakage_rule arm t e).2⟩
  · intro e
    rcases attempt_cases he with ⟨loaded, found, rfl⟩ | ⟨f, rfl, _, none⟩
    · simp [found, Except.toOption]
    · simp only [Except.toOption, reduceCtorEq, false_iff]
      exact fun found => none ⟨e, found⟩

private theorem datasetSection_says {rt : Runtime} {spec : ResearchSpec}
    {findings : List Finding} {overlaps : List OverlapSummary}
    (distinct : DigestsDistinct rt (spec.encodings rt))
    (h : datasetSection rt spec = .ok (findings, overlaps)) :
    (Clean findings ↔ ArmDisjoint rt spec.baseline ∧ ArmDisjoint rt spec.candidate ∧
      EvaluationsAligned rt spec) ∧
    (Invalidating findings ↔ ArmLeaks rt spec.baseline ∨ ArmLeaks rt spec.candidate ∨
      EvaluationsMisaligned rt spec) := by
  unfold datasetSection at h
  obtain ⟨b, hb, h⟩ := bind_ok_iff.mp h
  obtain ⟨c, hc, h⟩ := bind_ok_iff.mp h
  obtain ⟨rfl, _⟩ := Prod.mk.inj (Except.ok.inj h)
  obtain ⟨saysB, evalB⟩ := armDatasets_says hb
  obtain ⟨saysC, evalC⟩ := armDatasets_says hc
  have sub : ∀ p, p ∈ [spec.baseline.trainDataset, spec.baseline.evalDataset,
      spec.candidate.trainDataset, spec.candidate.evalDataset] →
      ∀ raw ∈ encodings rt p, raw ∈ spec.encodings rt := by
    intro p hp raw hraw
    simp only [List.mem_cons, List.not_mem_nil, or_false] at hp
    simp only [ResearchSpec.encodings, List.mem_append]
    rcases hp with rfl | rfl | rfl | rfl <;> simp [hraw]
  -- the six record comparisons, each over files that the digest hypothesis names
  have disjointB := records_iff (sub spec.baseline.trainDataset (by simp))
    (sub spec.baseline.evalDataset (by simp))
    (fun _ _ _ _ hr hg => hr.disjoint_iff distinct hg)
  have leaksB := records_iff (sub spec.baseline.trainDataset (by simp))
    (sub spec.baseline.evalDataset (by simp))
    (fun _ _ _ _ hr hg => not_congr (hr.disjoint_iff distinct hg))
  have disjointC := records_iff (sub spec.candidate.trainDataset (by simp))
    (sub spec.candidate.evalDataset (by simp))
    (fun _ _ _ _ hr hg => hr.disjoint_iff distinct hg)
  have leaksC := records_iff (sub spec.candidate.trainDataset (by simp))
    (sub spec.candidate.evalDataset (by simp))
    (fun _ _ _ _ hr hg => not_congr (hr.disjoint_iff distinct hg))
  have alignedE := records_iff (sub spec.baseline.evalDataset (by simp))
    (sub spec.candidate.evalDataset (by simp))
    (fun _ _ _ _ hr hg => hr.perm_iff distinct hg)
  have misalignedE := records_iff (sub spec.baseline.evalDataset (by simp))
    (sub spec.candidate.evalDataset (by simp))
    (fun _ _ _ _ hr hg => not_congr (hr.perm_iff distinct hg))
  refine ⟨?_, ?_⟩
  · rw [clean_append, clean_append, saysB.clean, saysC.clean]
    simp only [ResearchSpec.arm] at evalB evalC ⊢
    rw [disjointB, disjointC, and_assoc]
    refine and_congr_right fun armB => and_congr_right fun armC => ?_
    obtain ⟨_, eb, _, holdsB, _⟩ := armB
    obtain ⟨_, ec, _, holdsC, _⟩ := armC
    obtain ⟨x, hx⟩ := holdsB.loaded
    obtain ⟨y, hy⟩ := holdsC.loaded
    rw [(evalB x).mpr hx, (evalC y).mpr hy, alignmentFindings, (alignment_rule x y).1]
    refine Iff.trans ?_ alignedE
    simp [hx, hy]
  · rw [invalidating_append, invalidating_append, saysB.invalidating, saysC.invalidating]
    simp only [ResearchSpec.arm] at evalB evalC ⊢
    rw [leaksB, leaksC, or_assoc]
    refine or_congr Iff.rfl (or_congr Iff.rfl ?_)
    refine Iff.trans ?_ misalignedE
    -- misalignment needs both evaluation sets
    cases hx : b.eval with
    | none =>
      have absent : ∀ x, loadDataset rt spec.baseline.evalDataset ≠ .ok x := by
        intro x found
        rw [(evalB x).mpr found] at hx
        cases hx
      simp [absent, alignmentFindings]
    | some x =>
      have loadedX := (evalB x).mp hx
      cases hy : c.eval with
      | none =>
        have absent : ∀ y, loadDataset rt spec.candidate.evalDataset ≠ .ok y := by
          intro y found
          rw [(evalC y).mpr found] at hy
          cases hy
        simp [absent, alignmentFindings]
      | some y =>
        have loadedY := (evalC y).mp hy
        simp [loadedX, loadedY, alignmentFindings, (alignment_rule x y).2]

/-! ### The verdict -/

/-- All the evidence a supported claim needs. -/
structure SupportingEvidence (rt : Runtime) (spec : ResearchSpec) : Prop where
  configs : ∃ b c, loadConfig rt spec.baseline.config = .ok b ∧
    loadConfig rt spec.candidate.config = .ok c ∧ ConfigsComparable b c
  results : ∃ b c, loadResults rt spec.baseline.results spec.metric = .ok b ∧
    loadResults rt spec.candidate.results spec.metric = .ok c ∧
    ∃ checked, ResultsSupport spec b c checked
  baselineDisjoint : ArmDisjoint rt spec.baseline
  candidateDisjoint : ArmDisjoint rt spec.candidate
  aligned : EvaluationsAligned rt spec

/-- Evidence that by itself contradicts a claim. -/
inductive InvalidatingEvidence (rt : Runtime) (spec : ResearchSpec) : Prop
  | compute (b c : Config) (loadedB : loadConfig rt spec.baseline.config = .ok b)
      (loadedC : loadConfig rt spec.candidate.config = .ok c) (h : ComputeTooLarge b c)
  | evaluation (b c : Config) (loadedB : loadConfig rt spec.baseline.config = .ok b)
      (loadedC : loadConfig rt spec.candidate.config = .ok c) (h : EvaluationsDiffer b c)
  | results (b c : LoadedResults)
      (loadedB : loadResults rt spec.baseline.results spec.metric = .ok b)
      (loadedC : loadResults rt spec.candidate.results spec.metric = .ok c)
      (h : ResultsAgainst spec b c)
  | leakage (arm : Arm) (h : ArmLeaks rt (spec.arm arm))
  | misaligned (h : EvaluationsMisaligned rt spec)

private theorem auditResearch_ok {rt : Runtime} {path : Str} {root : Option Str}
    {result : AuditResult} (h : auditResearch rt path root = .ok result) :
    ∃ spec configFindings resultFindings checked datasetFindings overlaps,
      loadResearchSpec rt path root = .ok spec ∧ configSection rt spec = .ok configFindings ∧
      resultSection rt spec = .ok (resultFindings, checked) ∧
      datasetSection rt spec = .ok (datasetFindings, overlaps) ∧
      result.verdict = determineVerdict (configFindings ++ resultFindings ++ datasetFindings) := by
  unfold auditResearch at h
  obtain ⟨spec, loaded, h⟩ := bind_ok_iff.mp h
  unfold auditSpec at h
  obtain ⟨configFindings, hc, h⟩ := bind_ok_iff.mp h
  obtain ⟨⟨resultFindings, checked⟩, hr, h⟩ := bind_ok_iff.mp h
  obtain ⟨⟨datasetFindings, overlaps⟩, hd, h⟩ := bind_ok_iff.mp h
  exact ⟨spec, configFindings, resultFindings, checked, datasetFindings, overlaps, loaded, hc, hr,
    hd, by rw [← Except.ok.inj h]⟩

/-- The verdict of an audit that returns is `SUPPORTED` exactly on supporting evidence, and
`NOT_SUPPORTED` exactly on invalidating evidence, provided the digests of the records at hand are
distinct. -/
theorem auditResearch_verdict_iff (rt : Runtime) (path : Str) (root : Option Str)
    (result : AuditResult) (returns : auditResearch rt path root = .ok result)
    (distinct : ∀ spec, loadResearchSpec rt path root = .ok spec →
      DigestsDistinct rt (spec.encodings rt)) :
    ∃ spec, loadResearchSpec rt path root = .ok spec ∧
      (result.verdict = .supported ↔ SupportingEvidence rt spec) ∧
      (result.verdict = .notSupported ↔ InvalidatingEvidence rt spec) := by
  obtain ⟨spec, configFindings, resultFindings, checked, datasetFindings, overlaps, loaded, hc, hr,
    hd, verdict⟩ := auditResearch_ok returns
  have configs := configSection_says hc
  have results := resultSection_says hr
  obtain ⟨cleanD, invalidatingD⟩ := datasetSection_says (distinct spec loaded) hd
  refine ⟨spec, loaded, ?_, ?_⟩
  -- supported: each of the three sections is clean
  · rw [verdict, determineVerdict_supported_iff, clean_append, clean_append, configs.clean,
      results.clean, cleanD]
    constructor
    · exact fun ⟨⟨config, result⟩, disjointB, disjointC, aligned⟩ =>
        ⟨config, result, disjointB, disjointC, aligned⟩
    · exact fun ⟨config, result, disjointB, disjointC, aligned⟩ =>
        ⟨⟨config, result⟩, disjointB, disjointC, aligned⟩
  -- not supported: some section invalidates
  · rw [verdict, determineVerdict_notSupported_iff, invalidating_append, invalidating_append,
      configs.invalidating, results.invalidating, invalidatingD]
    constructor
    · rintro ((⟨b, c, hb, hc, large | differ⟩ | ⟨b, c, hb, hc, against⟩) | leaksB | leaksC | mis)
      · exact .compute b c hb hc large
      · exact .evaluation b c hb hc differ
      · exact .results b c hb hc against
      · exact .leakage .baseline leaksB
      · exact .leakage .candidate leaksC
      · exact .misaligned mis
    · intro evidence
      cases evidence with
      | compute b c hb hc large => exact .inl (.inl ⟨b, c, hb, hc, .inl large⟩)
      | evaluation b c hb hc differ => exact .inl (.inl ⟨b, c, hb, hc, .inr differ⟩)
      | results b c hb hc against => exact .inl (.inr ⟨b, c, hb, hc, against⟩)
      | leakage arm leaks =>
        cases arm with
        | baseline => exact .inr (.inl leaks)
        | candidate => exact .inr (.inr (.inl leaks))
      | misaligned mis => exact .inr (.inr (.inr mis))

/-! ### A small audit

Four artifacts shared by both arms, and results that differ. The manifest and the config stand for
what the YAML library reads from them, and the digests are those of the two records. -/

/-- The bytes of an ASCII text. -/
def asciiBytes (s : Str) : Bytes := s.map fun c => c.val.toUInt8

def sampleManifestText : Str :=
  lit "claim:\n  metric: acc\n  minimum_improvement: 0\n" ++
  lit "baseline:\n  config: config.yaml\n  results: baseline.json\n" ++
  lit "  train_dataset: train.jsonl\n  eval_dataset: eval.jsonl\n" ++
  lit "candidate:\n  config: config.yaml\n  results: candidate.json\n" ++
  lit "  train_dataset: train.jsonl\n  eval_dataset: eval.jsonl\n"

def sampleConfigText : Str :=
  lit "training_steps: 100\nepochs: 1\nbatch_size: 8\nlearning_rate: 1\nmodel: m\n" ++
  lit "dataset:\n  identifier: d\n  version: v1\n" ++
  lit "evaluation:\n  dataset_identifier: e\n  dataset_version: v1\n  split: test\n"

def sampleArm (results : String) : Value := Value.ofMembers
  [("config", .str "config.yaml"), ("results", .str (lit results)),
    ("train_dataset", .str "train.jsonl"), ("eval_dataset", .str "eval.jsonl")]

def sampleManifest : Value := Value.ofMembers
  [("claim", Value.ofMembers [("metric", .str "acc"), ("minimum_improvement", .int 0)]),
    ("baseline", sampleArm "baseline.json"), ("candidate", sampleArm "candidate.json")]

def sampleConfig : Value := Value.ofMembers
  [("training_steps", .int 100), ("epochs", .int 1), ("batch_size", .int 8),
    ("learning_rate", .int 1), ("model", .str "m"),
    ("dataset", Value.ofMembers [("identifier", .str "d"), ("version", .str "v1")]),
    ("evaluation", Value.ofMembers [("dataset_identifier", .str "e"),
      ("dataset_version", .str "v1"), ("split", .str "test")])]

def sampleTrainRecord : Bytes := asciiBytes "\x7b\"x\":1\x7d"

def sampleEvalRecord : Bytes := asciiBytes "\x7b\"x\":2\x7d"

/-- The surroundings of an audit whose two results files have the given contents. -/
def sampleRuntime (baselineResults candidateResults : Str) : Runtime where
  readBytes path :=
    if path = lit "research.yaml" then .ok (asciiBytes sampleManifestText)
    else if path = lit "config.yaml" then .ok (asciiBytes sampleConfigText)
    else if path = lit "train.jsonl" then .ok (sampleTrainRecord ++ asciiBytes "\n")
    else if path = lit "eval.jsonl" then .ok (sampleEvalRecord ++ asciiBytes "\n")
    else if path = lit "baseline.json" then .ok (asciiBytes baselineResults)
    else if path = lit "candidate.json" then .ok (asciiBytes candidateResults)
    else .error .notFound
  pathExists _ := true
  parent _ := lit "."
  resolve path := .ok path
  join _ path := path
  isRelativeTo _ _ := true
  isWindowsAbsolute _ := false
  yamlLoad source :=
    if source = sampleManifestText then .ok (.ofValue sampleManifest)
    else if source = sampleConfigText then .ok (.ofValue sampleConfig)
    else .error (.yaml (.invalid []))
  sha256 raw :=
    if raw = sampleTrainRecord then
      hexdigest 0x5041bf1f713df204784353e82f6a4a535931cb64f1f4b4a5aeaffcb720918b22
    else if raw = sampleEvalRecord then
      hexdigest 0x5e2b030a4a0f1582d78c0fd9924511cd6b1f2df9879e574f5ea1406c94052418
    else []
  repr s := s
  decodeErrorText _ := []
  jsonErrorText _ := []

def samplePaths (results : String) : ExperimentPaths :=
  ⟨"config.yaml", lit results, "train.jsonl", "eval.jsonl"⟩

def sampleSpec : ResearchSpec :=
  ⟨"research.yaml", "acc", Binary64.zero false, samplePaths "baseline.json",
    samplePaths "candidate.json", .higher⟩

/-- Two runs with the given metric values. -/
def sampleResults (first second : Str) : Str :=
  lit "\x7b\"runs\":[\x7b\"acc\":" ++ first ++ lit ",\"seed\":1\x7d,\x7b\"acc\":" ++
    second ++ lit ",\"seed\":2\x7d]\x7d"

/-- The verdict of an audit that returns. -/
def verdictOf : Except Error AuditResult → Option Verdict
  | .ok result => some result.verdict
  | .error _ => none

theorem verdictOf_eq_some (r : Except Error AuditResult) (verdict : Verdict)
    (h : verdictOf r = some verdict) : ∃ result, r = .ok result ∧ result.verdict = verdict := by
  cases r with
  | error e => cases h
  | ok result => exact ⟨result, rfl, Option.some.inj h⟩

theorem auditResearch_verdict_sample :
    ∃ result, auditResearch (sampleRuntime (sampleResults "0.5" "0.6") (sampleResults "0.7" "0.8"))
        "research.yaml" none = .ok result ∧ result.verdict = .supported ∧
      SupportingEvidence (sampleRuntime (sampleResults "0.5" "0.6") (sampleResults "0.7" "0.8"))
        sampleSpec := by
  have loads : loadResearchSpec (sampleRuntime (sampleResults "0.5" "0.6")
      (sampleResults "0.7" "0.8")) "research.yaml" none = .ok sampleSpec := by decide +kernel
  obtain ⟨result, returns, supported⟩ := verdictOf_eq_some
    (auditResearch (sampleRuntime (sampleResults "0.5" "0.6") (sampleResults "0.7" "0.8"))
      "research.yaml" none) .supported (by decide +kernel)
  obtain ⟨spec, loaded, verdict, _⟩ := auditResearch_verdict_iff _ _ _ result returns (by
    intro spec loaded
    obtain rfl := Except.ok.inj (loads.symm.trans loaded)
    decide +kernel)
  obtain rfl := Except.ok.inj (loads.symm.trans loaded)
  exact ⟨result, returns, supported, verdict.mp supported⟩

end ClaimCI
