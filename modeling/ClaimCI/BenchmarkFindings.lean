import ClaimCI.BenchmarkAudit
import ClaimCI.Python.Literals

/-!
# Benchmark findings

The rules of everything the benchmark audit finds, and how many findings there can be.
-/

open Python

namespace ClaimCI

/-- At most so many findings, all of them of the given rules. -/
structure RulesIn (rules : List Str) (bound : Nat) (findings : List Finding) : Prop where
  rule : ∀ finding ∈ findings, finding.ruleId ∈ rules
  count : findings.length ≤ bound

namespace RulesIn

variable {rules : List Str} {m n : Nat} {findings others : List Finding}

theorem nil : RulesIn rules n [] := ⟨by simp, by simp⟩

theorem append (left : RulesIn rules m findings) (right : RulesIn rules n others) :
    RulesIn rules (m + n) (findings ++ others) where
  rule := by
    intro finding member
    rcases List.mem_append.mp member with here | there
    · exact left.rule finding here
    · exact right.rule finding there
  count := by
    rw [List.length_append]
    exact Nat.add_le_add left.count right.count

theorem single {finding : Finding} (member : finding.ruleId ∈ rules) : RulesIn rules 1 [finding] :=
  ⟨by simpa using member, by simp⟩

theorem ite {p : Prop} [Decidable p] (left : p → RulesIn rules n findings)
    (right : ¬ p → RulesIn rules n others) : RulesIn rules n (if p then findings else others) := by
  split
  next holds => exact left holds
  next fails => exact right fails

theorem mono {more : List Str} (subset : ∀ rule ∈ rules, rule ∈ more) (le : m ≤ n)
    (here : RulesIn rules m findings) : RulesIn more n findings :=
  ⟨fun finding member => subset _ (here.rule finding member), here.count.trans le⟩

theorem flatMap {α : Type} {items : List α} {find : α → List Finding}
    (each : ∀ item ∈ items, RulesIn rules n (find item)) :
    RulesIn rules (items.length * n) (items.flatMap find) := by
  induction items with
  | nil => exact nil
  | cons item items ih =>
    rw [List.flatMap_cons, List.length_cons, Nat.succ_mul, Nat.add_comm]
    exact (each item List.mem_cons_self).append
      (ih fun other member => each other (List.mem_cons_of_mem _ member))

end RulesIn

/-! ### The protocol -/

def MISMATCH_RULES : List Str :=
  ["BENCHMARK.WORKLOAD_MISMATCH", "BENCHMARK.CONFIG_MISMATCH", "BENCHMARK.METRIC_MISMATCH"]

def PROTOCOL_RULES : List Str := MISMATCH_RULES ++ [lit "BENCHMARK.PROTOCOL_VERIFIED"]

theorem comparisons_rules : ∀ row ∈ COMPARISONS, row.ruleId ∈ MISMATCH_RULES := by
  simp [COMPARISONS, MISMATCH_RULES]

section Protocol

variable (configs : BenchmarkConfigs) (selection : BenchmarkSelection)

theorem referenceFindings_rules {row : ComponentComparison} (known : row.ruleId ∈ MISMATCH_RULES)
    (role : Arm) : RulesIn MISMATCH_RULES 1 (referenceFindings configs selection row role) :=
  .ite (fun _ => .nil) fun _ => .single known

theorem componentFindings_rules {row : ComponentComparison} (known : row.ruleId ∈ MISMATCH_RULES) :
    RulesIn MISMATCH_RULES 3 (componentFindings configs selection row) :=
  .append (.append (referenceFindings_rules configs selection known .baseline)
    (referenceFindings_rules configs selection known .candidate))
    (.ite (fun _ => .single known) fun _ => .nil)

/-- What the comparison of the components finds, before the protocol is verified. -/
def componentsFound : List Finding := COMPARISONS.flatMap (componentFindings configs selection)

theorem componentsFound_rules :
    RulesIn MISMATCH_RULES 18 (componentsFound configs selection) :=
  .flatMap fun row member =>
    componentFindings_rules configs selection (comparisons_rules row member)

theorem protocolFindings_rules (baseline candidate : List BenchmarkEvidence) :
    RulesIn PROTOCOL_RULES 19 (protocolFindings configs selection baseline candidate) := by
  have found : RulesIn PROTOCOL_RULES 18 (componentsFound configs selection) :=
    (componentsFound_rules configs selection).mono (fun _ => List.mem_append_left _) le_rfl
  have verified : (protocolVerified selection).ruleId ∈ PROTOCOL_RULES := by
    change lit "BENCHMARK.PROTOCOL_VERIFIED" ∈ PROTOCOL_RULES
    simp [PROTOCOL_RULES]
  exact found.append (.ite (fun _ => .single verified) fun _ => .nil)

end Protocol

/-! ### The results -/

def VALUE_RULES : List Str := ["BENCHMARK.METRIC_MISMATCH", "BENCHMARK.PROCEDURE_INSUFFICIENT"]

theorem insufficient_rule (component : Str) :
    (procedureInsufficient component).ruleId = lit "BENCHMARK.PROCEDURE_INSUFFICIENT" := rfl

theorem procedureInsufficient_rules (component : Str) :
    RulesIn VALUE_RULES 1 [procedureInsufficient component] :=
  .single (by simp [insufficient_rule, VALUE_RULES])

theorem rawResults_rules (rt : Runtime) (evidence : List BenchmarkEvidence) (metric : Str)
    (role : Arm) : RulesIn VALUE_RULES 2 (rawResults rt evidence metric role).2 := by
  have mismatch : RulesIn VALUE_RULES 1 (if otherMetrics evidence metric = [] then [] else
      [metricMismatch rt role metric (otherMetrics evidence metric)]) :=
    .ite (fun _ => .nil) fun _ => .single (by
      change lit "BENCHMARK.METRIC_MISMATCH" ∈ VALUE_RULES
      simp [VALUE_RULES])
  unfold rawResults
  dsimp only
  split
  · exact mismatch.append (procedureInsufficient_rules _)
  · exact mismatch.mono (fun _ member => member) (by omega)

theorem singleMetricValue_rules (rt : Runtime) (evidence : List BenchmarkEvidence) (metric : Str)
    (role : Arm) : RulesIn VALUE_RULES 3 (singleMetricValue rt evidence metric role).2 := by
  have values := rawResults_rules rt evidence metric role
  unfold singleMetricValue
  split
  next found =>
    rw [found] at values
    exact values.mono (fun _ member => member) (by omega)
  next found =>
    rw [found] at values
    split
    · exact values.mono (fun _ member => member) (by omega)
    · exact values.append (procedureInsufficient_rules _)

def RESULT_RULES : List Str :=
  ["RESULT.RECOMPUTED", "RESULT.SUMMARY_MISMATCH", "SEED.MISSING_METADATA", "SEED.DUPLICATE",
    "SEED.SINGLE_RUN", "SEED.IMBALANCE", "SEED.EVIDENCE_VERIFIED", "RESULT.CLAIM_SUPPORTED",
    "RESULT.CLAIM_NOT_SUPPORTED", "RESULT.AGGREGATE_VERIFIED"]

private theorem resultRule {finding : Finding} (rule : Str) (named : finding.ruleId = rule)
    (known : rule ∈ RESULT_RULES) : RulesIn RESULT_RULES 1 [finding] := .single (named ▸ known)

theorem runFindings_rules (baseline candidate : LoadedResults) (metric : Str)
    (baselineSummary candidateSummary : MetricSummary) : RulesIn RESULT_RULES 10
      (runFindings baseline candidate metric baselineSummary candidateSummary) := by
  have summary : ∀ (arm : Arm) (loaded : LoadedResults) (summary : MetricSummary),
      RulesIn RESULT_RULES 1 (summaryMismatchFinding arm loaded summary).toList := by
    intro arm loaded summary
    rw [summaryMismatchFinding]
    split
    · exact .nil
    · split
      · exact .nil
      · exact resultRule "RESULT.SUMMARY_MISMATCH" rfl (by simp [RESULT_RULES])
  have seeds : ∀ (arm : Arm) (loaded : LoadedResults),
      RulesIn RESULT_RULES 3 (seedFindings arm loaded) := fun arm loaded =>
    .append (.append
      (.ite (fun _ => .nil) fun _ => resultRule "SEED.MISSING_METADATA" rfl (by simp [RESULT_RULES]))
      (.ite (fun _ => .nil) fun _ => resultRule "SEED.DUPLICATE" rfl (by simp [RESULT_RULES])))
      (.ite (fun _ => resultRule "SEED.SINGLE_RUN" rfl (by simp [RESULT_RULES])) fun _ => .nil)
  have imbalance : RulesIn RESULT_RULES 1
      (imbalanceFindings baseline.values.length candidate.values.length) :=
    .ite (fun _ => resultRule "SEED.IMBALANCE" rfl (by simp [RESULT_RULES])) fun _ => .nil
  have recomputed : RulesIn RESULT_RULES 1
      [recomputedFinding metric baselineSummary candidateSummary] :=
    resultRule "RESULT.RECOMPUTED" rfl (by simp [RESULT_RULES])
  exact recomputed.append ((((summary .baseline baseline baselineSummary).append
    (seeds .baseline baseline)).append (summary .candidate candidate candidateSummary)).append
    (seeds .candidate candidate) |>.append imbalance)

theorem claimFinding_rules {baseline candidate : MetricSummary} {metric : Str}
    {minimumImprovement : Binary64} {direction : Direction} {improvement : Binary64}
    {relative : Option Binary64} {finding : Finding}
    (compared : metricSummaryComparison baseline candidate metric minimumImprovement direction =
      .ok (improvement, relative, finding)) : RulesIn RESULT_RULES 1 [finding] := by
  have decision := (metricSummaryComparison_ok compared).2
  split at decision
  · exact resultRule _ decision.2 (by simp [RESULT_RULES])
  · exact resultRule _ decision.2 (by simp [RESULT_RULES])

theorem checkResults_rules {baseline candidate : LoadedResults} {metric : Str}
    {minimumImprovement : Binary64} {direction : Direction} {checked : ResultCheck}
    (made : checkResults baseline candidate metric minimumImprovement direction = .ok checked) :
    RulesIn RESULT_RULES 12 checked.findings := by
  obtain ⟨-, -, claimFinding, compared, findings⟩ := checkResults_ok made
  have evidence : RulesIn RESULT_RULES 1 [({
      ruleId := "SEED.EVIDENCE_VERIFIED"
      severity := .verified
      title := "Seed evidence is complete"
      explanation := "Both experiments contain multiple runs with unique integer seeds."
      evidence := [("baseline_count", countValue baseline.values.length),
        ("candidate_count", countValue candidate.values.length)]
      impact := .none } : Finding)] := resultRule "SEED.EVIDENCE_VERIFIED" rfl (by simp [RESULT_RULES])
  rw [findings]
  exact ((runFindings_rules _ _ _ _ _).append (.ite (fun _ => .nil) fun _ => evidence)).append
    (claimFinding_rules compared)

/-- What reported aggregates that are compared consist of. -/
theorem checkReportedAggregates_ok {baselineValue candidateValue minimumImprovement : Binary64}
    {baselineCount candidateCount : Int} {statistic aggregation metric : Str}
    {direction : Direction} {checked : ResultCheck}
    (made : checkReportedAggregates baselineValue candidateValue baselineCount candidateCount
      statistic aggregation metric minimumImprovement direction = .ok checked) :
    ∃ verified claimFinding, verified.ruleId = lit "RESULT.AGGREGATE_VERIFIED" ∧
      verified.impact = .none ∧
      metricSummaryComparison ⟨baselineCount.toNat, baselineValue, none⟩
        ⟨candidateCount.toNat, candidateValue, none⟩ metric minimumImprovement direction =
        .ok (checked.absoluteImprovement, checked.relativeImprovement, claimFinding) ∧
      checked.findings = [verified, claimFinding] := by
  unfold checkReportedAggregates at made
  obtain ⟨_, -, made⟩ := bind_ok_iff.mp made
  obtain ⟨_, -, made⟩ := bind_ok_iff.mp made
  obtain ⟨_, -, made⟩ := bind_ok_iff.mp made
  obtain ⟨_, -, made⟩ := bind_ok_iff.mp made
  obtain ⟨⟨absolute, relative, claimFinding⟩, compared, made⟩ := bind_ok_iff.mp made
  obtain rfl := Except.ok.inj made
  exact ⟨_, claimFinding, rfl, rfl, compared, rfl⟩

theorem checkReportedAggregates_rules {baselineValue candidateValue minimumImprovement : Binary64}
    {baselineCount candidateCount : Int} {statistic aggregation metric : Str}
    {direction : Direction} {checked : ResultCheck}
    (made : checkReportedAggregates baselineValue candidateValue baselineCount candidateCount
      statistic aggregation metric minimumImprovement direction = .ok checked) :
    RulesIn RESULT_RULES 12 checked.findings := by
  obtain ⟨verified, claimFinding, named, -, compared, findings⟩ := checkReportedAggregates_ok made
  rw [findings]
  exact ((resultRule _ named (by simp [RESULT_RULES])).append (claimFinding_rules compared)).mono
    (fun _ member => member) (by omega)

/-- Aggregates that are compared are both represented. -/
theorem compareAggregates_ok {claim : AuditClaimSpec} {threshold : Binary64}
    {configs : BenchmarkConfigs} {baselineValue candidateValue : Option Binary64}
    {checked : ResultCheck}
    (made : compareAggregates claim threshold configs baselineValue candidateValue = .ok checked) :
    ∃ baselineNumber candidateNumber baselineCount candidateCount statistic aggregation,
      baselineValue = some baselineNumber ∧ candidateValue = some candidateNumber ∧
      checkReportedAggregates baselineNumber candidateNumber baselineCount candidateCount statistic
        aggregation claim.metric threshold claim.direction = .ok checked := by
  unfold compareAggregates at made
  obtain ⟨_, -, made⟩ := bind_ok_iff.mp made
  obtain ⟨baselineCount, -, made⟩ := bind_ok_iff.mp made
  obtain ⟨_, -, made⟩ := bind_ok_iff.mp made
  obtain ⟨candidateCount, -, made⟩ := bind_ok_iff.mp made
  obtain ⟨_, -, made⟩ := bind_ok_iff.mp made
  obtain ⟨_, -, made⟩ := bind_ok_iff.mp made
  split at made
  · exact ⟨_, _, _, _, _, _, rfl, rfl, made⟩
  · cases made
  · cases made

/-! ### The derivation -/

/-- What the derivation of one role finds: its values, a mismatch, or that it is insufficient. -/
theorem deriveRole_findings {digit : CodePoint → Option Digit} {rt : Runtime}
    {claim : AuditClaimSpec} {role : Arm} {config : List (Str × JsonScalar)}
    {evidence : List BenchmarkEvidence} {found : List Finding × Option Binary64}
    (made : deriveRole digit rt claim role config evidence = .ok found) :
    found.1.length ≤ 4 ∧ ∀ finding ∈ found.1, finding.ruleId ∈ VALUE_RULES ∨
      ∃ represented recomputed, finding = derivationMismatch role represented recomputed := by
  have values := singleMetricValue_rules rt evidence claim.metric role
  have alone : ∀ finding ∈ [derivationInsufficient role], finding.ruleId ∈ VALUE_RULES :=
    (procedureInsufficient_rules _).rule
  unfold deriveRole at made
  -- operands refused, product out of the context, product beyond the floats, or a value to compare
  -- with
  split at made
  · obtain rfl := Except.ok.inj made
    exact ⟨by simp, fun finding member => .inl (alone finding member)⟩
  · cases made
  · split at made
    · cases made
    · split at made
      · obtain rfl := Except.ok.inj made
        exact ⟨by simp, fun finding member => .inl (alone finding member)⟩
      · dsimp only at made
        split at made
        · obtain rfl := Except.ok.inj made
          refine ⟨by simpa using Nat.succ_le_succ values.count, fun finding member => ?_⟩
          rcases List.mem_append.mp member with here | there
          · exact .inl (values.rule finding here)
          · exact .inl (alone finding there)
        · obtain rfl := Except.ok.inj made
          constructor
          · have count := values.count
            simp only [List.length_append]
            split <;> simp <;> omega
          · intro finding member
            rcases List.mem_append.mp member with here | there
            · exact .inl (values.rule finding here)
            · split at there
              · cases there
              · exact .inr ⟨_, _, List.mem_singleton.mp there⟩

def OUTCOME_RULES : List Str := VALUE_RULES ++ RESULT_RULES ++ [lit "BENCHMARK.DERIVATION_MISMATCH"]

private theorem value_outcome : ∀ rule ∈ VALUE_RULES, rule ∈ OUTCOME_RULES :=
  fun _ member => List.mem_append_left _ (List.mem_append_left _ member)

private theorem result_outcome : ∀ rule ∈ RESULT_RULES, rule ∈ OUTCOME_RULES :=
  fun _ member => List.mem_append_left _ (List.mem_append_right _ member)

private theorem derived_rules {digit : CodePoint → Option Digit} {rt : Runtime}
    {claim : AuditClaimSpec} {role : Arm} {config : List (Str × JsonScalar)}
    {evidence : List BenchmarkEvidence} {found : List Finding × Option Binary64}
    (made : deriveRole digit rt claim role config evidence = .ok found) :
    RulesIn OUTCOME_RULES 4 found.1 := by
  obtain ⟨count, each⟩ := deriveRole_findings made
  refine ⟨fun finding member => ?_, count⟩
  rcases each finding member with value | ⟨represented, recomputed, rfl⟩
  · exact value_outcome _ value
  · change lit "BENCHMARK.DERIVATION_MISMATCH" ∈ OUTCOME_RULES
    simp [OUTCOME_RULES]

/-- Every form of results finds at most twenty things. -/
theorem compareResults_rules {digit : CodePoint → Option Digit} {rt : Runtime}
    {claim : AuditClaimSpec} {selection : BenchmarkSelection}
    {baseline candidate : List BenchmarkEvidence} {threshold : Binary64}
    {configs : BenchmarkConfigs} {outcome : ResultOutcome}
    (made : compareResults digit rt claim selection baseline candidate threshold configs =
      .ok outcome) : RulesIn OUTCOME_RULES 20 outcome.findings := by
  unfold compareResults at made
  split at made
  -- raw runs
  next =>
    unfold rawRunSeries at made
    dsimp only at made
    have found := (rawResults_rules rt baseline claim.metric .baseline).append
      (rawResults_rules rt candidate claim.metric .candidate)
    split at made
    · split at made
      · cases made
      next checked =>
        obtain rfl := Except.ok.inj made
        exact ((found.mono value_outcome le_rfl).append
          ((checkResults_rules checked).mono result_outcome le_rfl)).mono
            (fun _ member => member) (by omega)
    · obtain rfl := Except.ok.inj made
      exact found.mono value_outcome (by omega)
  -- reported aggregates
  next =>
    unfold reportedAggregate at made
    dsimp only at made
    have found := (singleMetricValue_rules rt baseline claim.metric .baseline).append
      (singleMetricValue_rules rt candidate claim.metric .candidate)
    split at made
    next checked =>
      obtain rfl := Except.ok.inj made
      obtain ⟨_, _, _, _, _, _, -, -, compared⟩ := compareAggregates_ok checked
      exact ((found.mono value_outcome le_rfl).append
        ((checkReportedAggregates_rules compared).mono result_outcome le_rfl)).mono
          (fun _ member => member) (by omega)
    · obtain rfl := Except.ok.inj made
      exact (found.append (procedureInsufficient_rules _)).mono value_outcome (by omega)
    · cases made
  -- derivations
  next =>
    unfold deterministicDerivation at made
    obtain ⟨first, left, made⟩ := bind_ok_iff.mp made
    obtain ⟨second, right, made⟩ := bind_ok_iff.mp made
    have found := (derived_rules left).append (derived_rules right)
    dsimp only at made
    split at made
    · split at made
      · cases made
      next checked =>
        obtain rfl := Except.ok.inj made
        have aggregates := (checkReportedAggregates_rules checked).mono result_outcome le_rfl
        exact (found.append aggregates).mono (fun _ member => member) (by omega)
    · obtain rfl := Except.ok.inj made
      exact found.mono (fun _ member => member) (by omega)
  next =>
    obtain rfl := Except.ok.inj made
    exact .nil

/-! ### The audit -/

section Audit

variable {digit : CodePoint → Option Digit} {rt : Runtime} {claim : AuditClaimSpec}
  {selection : BenchmarkSelection} {baseline candidate reference : List BenchmarkEvidence}
  {context : Option BenchmarkMeasurementContext} {audit : BenchmarkAudit}

/-- What an audit that returns has computed. -/
theorem auditBenchmark_ok
    (made : auditBenchmark digit rt claim selection baseline candidate reference context =
      .ok audit) :
    ∃ threshold configs outcome, selection.complete = true ∧
      claim.minimumAbsoluteImprovement = some threshold ∧
      projectConfigs digit baseline candidate reference = .ok configs ∧
      compareResults digit rt claim selection baseline candidate threshold configs = .ok outcome ∧
      audit.result.findings =
        protocolFindings configs selection baseline candidate ++ outcome.findings ∧
      audit.result.verdict = determineVerdict audit.result.findings ∧
      measureDrift rt selection baseline candidate context configs audit.result.findings =
        .ok audit.measurementDrift := by
  unfold auditBenchmark at made
  split at made
  · cases made
  next complete =>
    split at made
    · cases made
    next threshold found =>
      obtain ⟨configs, projected, made⟩ := bind_ok_iff.mp made
      obtain ⟨outcome, compared, made⟩ := bind_ok_iff.mp made
      obtain ⟨drift, measured, made⟩ := bind_ok_iff.mp made
      obtain rfl := Except.ok.inj made
      exact ⟨threshold, configs, outcome, by simpa using complete, found, projected, compared, rfl,
        rfl, measured⟩

end Audit

end ClaimCI
