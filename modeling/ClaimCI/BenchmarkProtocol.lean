import ClaimCI.BenchmarkCompletion
import ClaimCI.Python.Literals

/-!
# Benchmark protocol

What a verified protocol and a supported verdict say about the compared components: which components
are the same, which are reported, and which the comparison does not see.
-/

open Python

namespace ClaimCI

/-! ### What the results report -/

/-- The texts of everything about results that can be insufficient. -/
def INSUFFICIENT_RESULTS : List Str :=
  [lit "reported aggregate metadata"] ++ [Arm.baseline, Arm.candidate].flatMap fun role =>
    [role.text ++ lit " result values", role.text ++ lit " aggregate scalar",
      role.text ++ lit " deterministic derivation"]

/-- A finding about the results. -/
inductive ResultFinding (rt : Runtime) : Finding → Prop where
  | checked {finding : Finding} (known : finding.ruleId ∈ RESULT_RULES) : ResultFinding rt finding
  | otherMetric (role : Arm) (metric : Str) (others : List Str) :
      ResultFinding rt (metricMismatch rt role metric others)
  | insufficient {text : Str} (known : text ∈ INSUFFICIENT_RESULTS) :
      ResultFinding rt (procedureInsufficient text)
  | derivation (role : Arm) (represented recomputed : Binary64) :
      ResultFinding rt (derivationMismatch role represented recomputed)

theorem insufficientResults_known (role : Arm) :
    role.text ++ lit " result values" ∈ INSUFFICIENT_RESULTS ∧
      role.text ++ lit " aggregate scalar" ∈ INSUFFICIENT_RESULTS ∧
      role.text ++ lit " deterministic derivation" ∈ INSUFFICIENT_RESULTS := by
  cases role <;> simp [INSUFFICIENT_RESULTS]

section Results

variable {digit : CodePoint → Option Digit} {rt : Runtime} {claim : AuditClaimSpec}
  {selection : BenchmarkSelection} {baseline candidate : List BenchmarkEvidence}
  {configs : BenchmarkConfigs} {threshold : Binary64}

/-- All of the findings are about the results. -/
def AboutResults (rt : Runtime) (findings : List Finding) : Prop :=
  ∀ finding ∈ findings, ResultFinding rt finding

theorem AboutResults.append {findings others : List Finding} (left : AboutResults rt findings)
    (right : AboutResults rt others) : AboutResults rt (findings ++ others) :=
  List.forall_mem_append.mpr ⟨left, right⟩

theorem AboutResults.single {finding : Finding} (about : ResultFinding rt finding) :
    AboutResults rt [finding] :=
  List.forall_mem_singleton.mpr about

theorem AboutResults.nil : AboutResults rt [] := fun _ member => absurd member List.not_mem_nil

theorem AboutResults.ofRules {findings : List Finding} {bound : Nat}
    (known : RulesIn RESULT_RULES bound findings) : AboutResults rt findings :=
  fun finding member => .checked (known.rule finding member)

variable (rt) in
theorem rawResults_about (evidence : List BenchmarkEvidence) (metric : Str) (role : Arm) :
    AboutResults rt (rawResults rt evidence metric role).2 := by
  have mismatch : AboutResults rt (if otherMetrics evidence metric = [] then [] else
      [metricMismatch rt role metric (otherMetrics evidence metric)]) := by
    split
    · exact .nil
    · exact .single (.otherMetric _ _ _)
  unfold rawResults
  dsimp only
  split
  · exact mismatch.append (.single (.insufficient (insufficientResults_known role).1))
  · exact mismatch

variable (rt) in
theorem singleMetricValue_about (evidence : List BenchmarkEvidence) (metric : Str) (role : Arm) :
    AboutResults rt (singleMetricValue rt evidence metric role).2 := by
  have values := rawResults_about rt evidence metric role
  unfold singleMetricValue
  split
  next found =>
    rw [found] at values
    exact values
  next found =>
    rw [found] at values
    split
    · exact values
    · exact values.append (.single (.insufficient (insufficientResults_known role).2.1))

theorem deriveRole_about {role : Arm} {config : List (Str × JsonScalar)}
    {evidence : List BenchmarkEvidence} {found : List Finding × Option Binary64}
    (made : deriveRole digit rt claim role config evidence = .ok found) :
    AboutResults rt found.1 := by
  have values := singleMetricValue_about rt evidence claim.metric role
  have alone : AboutResults rt [derivationInsufficient role] :=
    .single (.insufficient (insufficientResults_known role).2.2)
  unfold deriveRole at made
  split at made
  · obtain rfl := Except.ok.inj made
    exact alone
  · cases made
  · split at made
    · cases made
    · split at made
      · obtain rfl := Except.ok.inj made
        exact alone
      · dsimp only at made
        split at made
        · obtain rfl := Except.ok.inj made
          exact values.append alone
        · obtain rfl := Except.ok.inj made
          apply values.append
          split
          · exact .nil
          · exact .single (.derivation _ _ _)

/-- Whatever the form, the comparison of the results reports about the results only. -/
theorem compareResults_about {outcome : ResultOutcome}
    (made : compareResults digit rt claim selection baseline candidate threshold configs =
      .ok outcome) : AboutResults rt outcome.findings := by
  unfold compareResults at made
  split at made
  -- raw runs: findings on the series, then the rules of the comparison
  next =>
    unfold rawRunSeries at made
    dsimp only at made
    have found := (rawResults_about rt baseline claim.metric .baseline).append
      (rawResults_about rt candidate claim.metric .candidate)
    split at made
    · split at made
      · cases made
      next checked =>
        obtain rfl := Except.ok.inj made
        exact found.append (.ofRules (checkResults_rules checked))
    · obtain rfl := Except.ok.inj made
      exact found
  -- one reported value for each arm
  next =>
    unfold reportedAggregate at made
    dsimp only at made
    have found := (singleMetricValue_about rt baseline claim.metric .baseline).append
      (singleMetricValue_about rt candidate claim.metric .candidate)
    split at made
    next checked =>
      obtain rfl := Except.ok.inj made
      obtain ⟨_, _, _, _, _, _, -, -, compared⟩ := compareAggregates_ok checked
      exact found.append (.ofRules (checkReportedAggregates_rules compared))
    · obtain rfl := Except.ok.inj made
      exact found.append (.single (.insufficient (by simp [INSUFFICIENT_RESULTS])))
    · cases made
  -- a derivation for each arm
  next =>
    unfold deterministicDerivation at made
    obtain ⟨first, left, made⟩ := bind_ok_iff.mp made
    obtain ⟨second, right, made⟩ := bind_ok_iff.mp made
    have found := (deriveRole_about left).append (deriveRole_about right)
    dsimp only at made
    split at made
    · split at made
      · cases made
      next checked =>
        obtain rfl := Except.ok.inj made
        exact found.append (.ofRules (checkReportedAggregates_rules checked))
    · obtain rfl := Except.ok.inj made
      exact found
  -- an unknown form has already been reported
  next =>
    obtain rfl := Except.ok.inj made
    exact .nil

/-! ### Clean results measure one metric -/

theorem metricIdentities_single {evidence : List BenchmarkEvidence} {metric : Str}
    (others : otherMetrics evidence metric = []) (runs : metricRuns evidence metric ≠ []) :
    metricIdentities evidence = [metric] := by
  have only : ∀ name ∈ metricIdentities evidence, name = metric := by
    intro name member
    by_contra other
    have inside : name ∈ otherMetrics evidence metric :=
      List.mem_filter.mpr ⟨member, by simpa using other⟩
    rw [others] at inside
    exact absurd inside List.not_mem_nil
  -- the metric has a run, so its name is among the identities
  obtain ⟨run, member⟩ := List.exists_mem_of_ne_nil _ runs
  obtain ⟨observation, inside, states⟩ := List.mem_filterMap.mp member
  have there : metric ∈ metricIdentities evidence := by
    split at states
    next name value measured =>
      split at states
      next same =>
        exact List.mem_dedup.mpr (List.mem_filterMap.mpr
          ⟨observation, inside, by rw [measured, ← same]; rfl⟩)
      · cases states
    · cases states
  have distinct : (metricIdentities evidence).Nodup := List.nodup_dedup _
  cases listed : metricIdentities evidence with
  | nil =>
    rw [listed] at there
    cases there
  | cons first rest =>
    rw [listed] at only distinct
    obtain rfl := only first List.mem_cons_self
    cases rest with
    | nil => rfl
    | cons second more =>
      have same := only second (List.mem_cons_of_mem _ List.mem_cons_self)
      exact absurd (same ▸ List.mem_cons_self) (List.nodup_cons.mp distinct).1

theorem rawResults_clean {evidence : List BenchmarkEvidence} {metric : Str} {role : Arm}
    (clean : Clean (rawResults rt evidence metric role).2) :
    metricIdentities evidence = [metric] := by
  unfold rawResults at clean
  dsimp only at clean
  split at clean
  · have insufficient := (clean_append _ _).mp clean |>.2
    cases insufficient _ List.mem_cons_self
  next runs =>
    split at clean
    next others => exact metricIdentities_single others runs
    next others =>
      cases clean _ List.mem_cons_self

theorem singleMetricValue_clean {evidence : List BenchmarkEvidence} {metric : Str} {role : Arm}
    (clean : Clean (singleMetricValue rt evidence metric role).2) :
    metricIdentities evidence = [metric] := by
  have values : Clean (rawResults rt evidence metric role).2 := by
    unfold singleMetricValue at clean
    split at clean
    next found =>
      rw [found]
      exact clean
    next found =>
      rw [found]
      split at clean
      · exact clean
      · exact ((clean_append _ _).mp clean).1
  exact rawResults_clean values

theorem deriveRole_clean {role : Arm} {config : List (Str × JsonScalar)}
    {evidence : List BenchmarkEvidence} {found : List Finding × Option Binary64}
    (made : deriveRole digit rt claim role config evidence = .ok found) (clean : Clean found.1) :
    metricIdentities evidence = [claim.metric] := by
  have insufficient : ¬ Clean [derivationInsufficient role] := by
    intro impossible
    cases impossible _ List.mem_cons_self
  unfold deriveRole at made
  split at made
  · obtain rfl := Except.ok.inj made
    exact absurd clean insufficient
  · cases made
  · split at made
    · cases made
    · split at made
      · obtain rfl := Except.ok.inj made
        exact absurd clean insufficient
      · dsimp only at made
        split at made
        · obtain rfl := Except.ok.inj made
          exact singleMetricValue_clean ((clean_append _ _).mp clean).1
        · obtain rfl := Except.ok.inj made
          exact singleMetricValue_clean ((clean_append _ _).mp clean).1

/-- Where nothing speaks against the results, both roles measure the metric of the claim. -/
theorem compareResults_clean {outcome : ResultOutcome}
    (formed : selection.resultForm.isSome = true)
    (made : compareResults digit rt claim selection baseline candidate threshold configs =
      .ok outcome) (clean : Clean outcome.findings) :
    metricIdentities baseline = [claim.metric] ∧ metricIdentities candidate = [claim.metric] := by
  unfold compareResults at made
  split at made
  -- the series of each arm comes first in the findings, and a clean whole has a clean part
  next =>
    unfold rawRunSeries at made
    dsimp only at made
    have both : Clean ((rawResults rt baseline claim.metric .baseline).2 ++
        (rawResults rt candidate claim.metric .candidate).2) := by
      split at made
      · split at made
        · cases made
        · obtain rfl := Except.ok.inj made
          exact ((clean_append _ _).mp clean).1
      · obtain rfl := Except.ok.inj made
        exact clean
    obtain ⟨left, right⟩ := (clean_append _ _).mp both
    exact ⟨rawResults_clean left, rawResults_clean right⟩
  next =>
    unfold reportedAggregate at made
    dsimp only at made
    have both : Clean ((singleMetricValue rt baseline claim.metric .baseline).2 ++
        (singleMetricValue rt candidate claim.metric .candidate).2) := by
      split at made
      · obtain rfl := Except.ok.inj made
        exact ((clean_append _ _).mp clean).1
      · obtain rfl := Except.ok.inj made
        exact ((clean_append _ _).mp clean).1
      · cases made
    obtain ⟨left, right⟩ := (clean_append _ _).mp both
    exact ⟨singleMetricValue_clean left, singleMetricValue_clean right⟩
  next =>
    obtain ⟨first, second, left, right, kept⟩ := deterministicDerivation_ok made
    have both : Clean (first.1 ++ second.1) := fun finding member =>
      clean finding (kept finding member)
    obtain ⟨cleanFirst, cleanSecond⟩ := (clean_append _ _).mp both
    exact ⟨deriveRole_clean left cleanFirst, deriveRole_clean right cleanSecond⟩
  -- some form was selected
  next none =>
    rw [none] at formed
    cases formed

end Results

/-! ### Components -/

section Components

variable (configs : BenchmarkConfigs) (selection : BenchmarkSelection)

/-- The same keys with exactly the same values: `True`, `1` and `1.0` are three of them. -/
def ExactlySame (first second : Component) : Prop :=
  ∀ key, lookupKey key first = lookupKey key second

/-- A role states another value than the reference. -/
def ConflictsExactly (role : Arm) (pre : Str) : Prop :=
  ∃ key value shared,
    lookupKey key (procedureComponent pre (configs.role role) selection) = some value ∧
    lookupKey key (procedureComponent pre configs.reference selection) = some shared ∧
    shared ≠ value

/-- The comparison sees two components that differ. -/
def SeenDiffering (row : ComponentComparison) : Prop :=
  configs.effective selection .baseline row.pre ≠ [] ∧
    configs.effective selection .candidate row.pre ≠ [] ∧
    componentsEqual (configs.effective selection .baseline row.pre)
      (configs.effective selection .candidate row.pre) = false

/-- The comparison sees nothing about the row. -/
def Unremarkable (row : ComponentComparison) : Prop :=
  ¬ SeenDiffering configs selection row ∧
    ∀ role, configs.conflicts selection role row.pre = []

/-- A mismatch, or that the evidence is insufficient, is reported about the component itself. -/
def ReportsComponent (row : ComponentComparison) (finding : Finding) : Prop :=
  (finding.ruleId = row.ruleId ∨ finding.ruleId = lit "BENCHMARK.PROCEDURE_INSUFFICIENT") ∧
    lookupKey (lit "component") finding.evidence = some (.str row.pre)

variable {configs selection}

theorem componentFindings_nil_iff {row : ComponentComparison} :
    componentFindings configs selection row = [] ↔ Unremarkable configs selection row := by
  unfold componentFindings referenceFindings Unremarkable SeenDiffering
  dsimp only
  have roles : (∀ role, configs.conflicts selection role row.pre = []) ↔
      configs.conflicts selection .baseline row.pre = [] ∧
        configs.conflicts selection .candidate row.pre = [] :=
    ⟨fun all => ⟨all .baseline, all .candidate⟩, fun both role => by
      cases role
      · exact both.1
      · exact both.2⟩
  rw [roles]
  simp only [List.append_eq_nil_iff, ite_eq_left_iff, ite_eq_right_iff, List.cons_ne_nil, imp_false,
    not_not, and_comm]

theorem componentsFound_nil_iff :
    componentsFound configs selection = [] ↔
      ∀ row ∈ COMPARISONS, Unremarkable configs selection row := by
  rw [componentsFound, List.flatMap_eq_nil_iff]
  exact forall₂_congr fun row _ => componentFindings_nil_iff

/-- Everything that is found about a component invalidates the claim. -/
theorem componentFindings_invalidate {row : ComponentComparison} {finding : Finding}
    (member : finding ∈ componentFindings configs selection row) :
    finding.impact = .invalidates := by
  unfold componentFindings referenceFindings at member
  dsimp only at member
  simp only [List.mem_append] at member
  rcases member with (first | second) | third
  · split at first
    · cases first
    · rw [List.mem_singleton.mp first]
      rfl
  · split at second
    · cases second
    · rw [List.mem_singleton.mp second]
      rfl
  · split at third
    · rw [List.mem_singleton.mp third]
      rfl
    · cases third

/-- No component ends as the texts of the conflicts with the reference do. -/
theorem component_last : ∀ row ∈ COMPARISONS,
    row.pre.getLast? ≠ (lit "_reference").getLast? := by
  decide +kernel

/-- The texts of the conflicts with the reference name no component. -/
theorem reference_not_component {row : ComponentComparison} (known : row ∈ COMPARISONS)
    (text : Str) : text ++ lit "_reference" ≠ row.pre := by
  intro same
  apply component_last row known
  rw [← same, List.getLast?_append]
  rfl

theorem component_unspaced : ∀ row ∈ COMPARISONS, codePoint 32 ∉ row.pre := by
  decide +kernel

/-- Everything about results that can be insufficient is told in several words. -/
theorem insufficientResult_not_component {row : ComponentComparison} (known : row ∈ COMPARISONS) :
    row.pre ∉ INSUFFICIENT_RESULTS := by
  intro inside
  apply component_unspaced row known
  have spaced : ∀ role : Arm, ∀ text : Str, codePoint 32 ∈ role.text ++ (lit " " ++ text) := by
    intro role text
    exact List.mem_append_right _ List.mem_cons_self
  simp only [INSUFFICIENT_RESULTS, List.flatMap_cons, List.flatMap_nil, List.cons_append,
    List.nil_append, List.append_nil, List.mem_cons, List.not_mem_nil, or_false] at inside
  rcases inside with same | same | same | same | same | same | same <;> rw [same]
  · exact List.mem_append_right (lit "reported") List.mem_cons_self
  all_goals exact spaced _ _

theorem component_not_resultRule {row : ComponentComparison} (known : row ∈ COMPARISONS) :
    row.ruleId ∉ RESULT_RULES := by
  have mismatch := comparisons_rules row known
  simp only [MISMATCH_RULES, List.mem_cons, List.not_mem_nil, or_false] at mismatch
  rcases mismatch with same | same | same <;> rw [same] <;> simp [RESULT_RULES, lit_inj]

theorem insufficient_not_resultRule : lit "BENCHMARK.PROCEDURE_INSUFFICIENT" ∉ RESULT_RULES := by
  simp [RESULT_RULES, lit_inj]

theorem lookup_component (ruleId title component : Str) (baseline candidate : Component) :
    lookupKey (lit "component")
      (componentMismatch ruleId title component baseline candidate).evidence =
        some (.str component) := rfl

/-- What the comparison of any row reports about a component is that it differs. -/
theorem seen_of_componentFinding {row other : ComponentComparison} (known : row ∈ COMPARISONS)
    {finding : Finding}
    (member : finding ∈ componentFindings configs selection other)
    (reports : ReportsComponent row finding) : SeenDiffering configs selection row := by
  obtain ⟨-, about⟩ := reports
  unfold componentFindings referenceFindings at member
  dsimp only at member
  simp only [List.mem_append] at member
  rcases member with (first | second) | third
  · split at first
    · cases first
    · rw [List.mem_singleton.mp first, lookup_component] at about
      exact absurd (Value.str.inj (Option.some.inj about)) (reference_not_component known _)
  · split at second
    · cases second
    · rw [List.mem_singleton.mp second, lookup_component] at about
      exact absurd (Value.str.inj (Option.some.inj about)) (reference_not_component known _)
  · split at third
    next differs =>
      rw [List.mem_singleton.mp third, lookup_component] at about
      have same : other.pre = row.pre := Value.str.inj (Option.some.inj about)
      unfold SeenDiffering
      rw [← same]
      exact differs
    · cases third

theorem not_reports_result {rt : Runtime} {row : ComponentComparison} (known : row ∈ COMPARISONS)
    {finding : Finding} (about : ResultFinding rt finding) : ¬ ReportsComponent row finding := by
  rintro ⟨rule, component⟩
  cases about with
  | checked inside =>
    rcases rule with same | same
    · exact component_not_resultRule known (same ▸ inside)
    · exact insufficient_not_resultRule (same ▸ inside)
  | otherMetric role metric others =>
    have absent : lookupKey (lit "component") (metricMismatch rt role metric others).evidence =
        none := rfl
    rw [absent] at component
    cases component
  | @insufficient text inside =>
    have named : lookupKey (lit "component") (procedureInsufficient text).evidence =
        some (.str text) := rfl
    rw [named] at component
    exact insufficientResult_not_component known
      (Value.str.inj (Option.some.inj component) ▸ inside)
  | derivation role represented recomputed =>
    have absent : lookupKey (lit "component")
        (derivationMismatch role represented recomputed).evidence = none := rfl
    rw [absent] at component
    cases component

end Components

/-! ### The verdict about the protocol -/

section Verdict

variable {digit : CodePoint → Option Digit} {rt : Runtime} {claim : AuditClaimSpec}
  {selection : BenchmarkSelection} {baseline candidate reference : List BenchmarkEvidence}
  {context : Option BenchmarkMeasurementContext} {audit : BenchmarkAudit}
  {configs : BenchmarkConfigs}

/-- The audit says that the protocol is verified. -/
def VerifiesProtocol (audit : BenchmarkAudit) : Prop :=
  ∃ finding ∈ audit.result.findings, finding.ruleId = lit "BENCHMARK.PROTOCOL_VERIFIED"

variable (audit configs selection) in
/-- A verified protocol and a supported verdict are about components that are exactly the same and
agree with the reference, and every other component is reported. -/
structure ProtocolSound : Prop where
  verified : VerifiesProtocol audit ∨ audit.result.verdict = .supported → ∀ row ∈ COMPARISONS,
    ExactlySame (configs.effective selection .baseline row.pre)
      (configs.effective selection .candidate row.pre) ∧
    ∀ role, ¬ ConflictsExactly configs selection role row.pre
  reported : ∀ row ∈ COMPARISONS, ¬ ExactlySame (configs.effective selection .baseline row.pre)
      (configs.effective selection .candidate row.pre) →
    ∃ finding ∈ audit.result.findings, ReportsComponent row finding

variable (configs selection baseline candidate) in
/-- No component is represented on one side only, and equality takes no two values for one: neither
in two components nor, where nothing is seen, in a role and the reference. -/
structure ProtocolComparable : Prop where
  bothSides : ∀ row ∈ COMPARISONS, configs.effective selection .baseline row.pre = [] ↔
    configs.effective selection .candidate row.pre = []
  faithful : ∀ row ∈ COMPARISONS, componentsEqual (configs.effective selection .baseline row.pre)
      (configs.effective selection .candidate row.pre) = true →
    ExactlySame (configs.effective selection .baseline row.pre)
      (configs.effective selection .candidate row.pre)
  reference : sameMetricIdentity baseline candidate = true →
    (∀ row ∈ COMPARISONS, Unremarkable configs selection row) →
      ∀ row ∈ COMPARISONS, ∀ role, ¬ ConflictsExactly configs selection role row.pre

/-- A component is reported exactly if the comparison sees it differ. -/
theorem reportsComponent_iff
    (made : auditBenchmark digit rt claim selection baseline candidate reference context =
      .ok audit) (projected : projectConfigs digit baseline candidate reference = .ok configs)
    {row : ComponentComparison} (known : row ∈ COMPARISONS) :
    (∃ finding ∈ audit.result.findings, ReportsComponent row finding) ↔
      SeenDiffering configs selection row := by
  obtain ⟨threshold, _, outcome, -, -, again, compared, findings, -, -⟩ := auditBenchmark_ok made
  obtain rfl := Except.ok.inj (projected.symm.trans again)
  rw [findings]
  constructor
  -- a finding on a component comes from the comparison of that component and from nowhere else
  · rintro ⟨finding, member, reports⟩
    rcases List.mem_append.mp member with protocol | results
    · rcases List.mem_append.mp protocol with found | verified
      · obtain ⟨other, -, there⟩ := List.mem_flatMap.mp found
        exact seen_of_componentFinding known there reports
      · split at verified
        · rw [List.mem_singleton.mp verified] at reports
          have absent : lookupKey (lit "component") (protocolVerified selection).evidence =
            none := rfl
          rw [ReportsComponent, absent] at reports
          cases reports.2
        · cases verified
    · have about := compareResults_about compared finding results
      exact absurd reports (not_reports_result known about)
  -- two complete components that differ are reported
  · intro seen
    refine ⟨componentMismatch row.ruleId row.title row.pre
      (configs.effective selection .baseline row.pre)
      (configs.effective selection .candidate row.pre), ?_, .inl rfl, rfl⟩
    apply List.mem_append_left
    apply List.mem_append_left
    refine List.mem_flatMap.mpr ⟨row, known, List.mem_append_right _ ?_⟩
    have differs : configs.effective selection .baseline row.pre ≠ [] ∧
        configs.effective selection .candidate row.pre ≠ [] ∧
        componentsEqual (configs.effective selection .baseline row.pre)
          (configs.effective selection .candidate row.pre) = false := seen
    rw [if_pos differs]
    exact List.mem_singleton_self _

theorem verified_not_outcomeRule : lit "BENCHMARK.PROTOCOL_VERIFIED" ∉ MISMATCH_RULES ∧
    lit "BENCHMARK.PROTOCOL_VERIFIED" ∉ OUTCOME_RULES := by
  simp [MISMATCH_RULES, OUTCOME_RULES, VALUE_RULES, RESULT_RULES, lit_inj]

/-- The protocol is verified exactly if both roles measure one metric and nothing is seen. -/
theorem verifiesProtocol_iff
    (made : auditBenchmark digit rt claim selection baseline candidate reference context =
      .ok audit) (projected : projectConfigs digit baseline candidate reference = .ok configs) :
    VerifiesProtocol audit ↔ sameMetricIdentity baseline candidate = true ∧
      ∀ row ∈ COMPARISONS, Unremarkable configs selection row := by
  obtain ⟨threshold, _, outcome, -, -, again, compared, findings, -, -⟩ := auditBenchmark_ok made
  obtain rfl := Except.ok.inj (projected.symm.trans again)
  rw [VerifiesProtocol, findings, ← componentsFound_nil_iff]
  constructor
  · rintro ⟨finding, member, named⟩
    rcases List.mem_append.mp member with protocol | results
    · rcases List.mem_append.mp protocol with found | verified
      · have rule := (componentsFound_rules configs selection).rule finding found
        rw [named] at rule
        exact absurd rule verified_not_outcomeRule.1
      · split at verified
        next both => exact both
        · cases verified
    · have rule := (compareResults_rules compared).rule finding results
      rw [named] at rule
      exact absurd rule verified_not_outcomeRule.2
  · intro both
    refine ⟨protocolVerified selection, List.mem_append_left _ (List.mem_append_right _ ?_), rfl⟩
    have holds : sameMetricIdentity baseline candidate = true ∧
        COMPARISONS.flatMap (componentFindings configs selection) = [] := both
    rw [if_pos holds]
    exact List.mem_singleton_self _

/-- A supported verdict comes with a verified protocol. -/
theorem verifiesProtocol_of_supported
    (made : auditBenchmark digit rt claim selection baseline candidate reference context =
      .ok audit) (supported : audit.result.verdict = .supported) : VerifiesProtocol audit := by
  obtain ⟨threshold, configs, outcome, complete, -, projected, compared, findings, verdict, -⟩ :=
    auditBenchmark_ok made
  rw [verifiesProtocol_iff made projected, ← componentsFound_nil_iff]
  rw [verdict, determineVerdict_supported_iff, findings, clean_append] at supported
  obtain ⟨protocol, results⟩ := supported
  obtain ⟨baselineMetric, candidateMetric⟩ :=
    compareResults_clean (selection.formed complete) compared results
  constructor
  · simp [sameMetricIdentity, baselineMetric, candidateMetric]
  · apply List.eq_nil_iff_forall_not_mem.mpr
    intro finding member
    obtain ⟨row, -, there⟩ := List.mem_flatMap.mp member
    have none := protocol finding (List.mem_append_left _ member)
    rw [componentFindings_invalidate there] at none
    cases none

theorem exactlySame_of_empty {first second : Component} (left : first = []) (right : second = []) :
    ExactlySame first second := by
  intro key
  rw [left, right]

theorem not_exactlySame {first second : Component} (filled : first ≠ []) (empty : second = []) :
    ¬ ExactlySame first second ∧ ¬ ExactlySame second first := by
  obtain ⟨⟨key, value⟩, rest, rfl⟩ := List.exists_cons_of_ne_nil filled
  subst empty
  have there : lookupKey key ((key, value) :: rest) = some value := by
    rw [lookupKey, if_pos rfl]
  have absent : lookupKey key ([] : Component) = none := rfl
  constructor
  · intro same
    have found := same key
    rw [there, absent] at found
    cases found
  · intro same
    have found := same key
    rw [there, absent] at found
    cases found

/-- The audit is right about the protocol exactly if no component is represented on one side only
and equality takes no two values for one. -/
theorem protocolSound_iff
    (made : auditBenchmark digit rt claim selection baseline candidate reference context =
      .ok audit) (projected : projectConfigs digit baseline candidate reference = .ok configs) :
    ProtocolSound selection audit configs ↔
      ProtocolComparable selection baseline candidate configs := by
  constructor
  · rintro ⟨verified, reported⟩
    have seen : ∀ row ∈ COMPARISONS,
        ¬ ExactlySame (configs.effective selection .baseline row.pre)
          (configs.effective selection .candidate row.pre) → SeenDiffering configs selection row :=
      fun row known differs => (reportsComponent_iff made projected known).mp
        (reported row known differs)
    refine ⟨fun row known => ⟨fun empty => ?_, fun empty => ?_⟩, fun row known equal => ?_, ?_⟩
    · by_contra filled
      exact (seen row known (not_exactlySame filled empty).2).1 empty
    · by_contra filled
      exact (seen row known (not_exactlySame filled empty).1).2.1 empty
    · by_contra differs
      have unequal := (seen row known differs).2.2
      rw [equal] at unequal
      cases unequal
    · intro metric unremarkable row known
      exact (verified (.inl ((verifiesProtocol_iff made projected).mpr ⟨metric, unremarkable⟩)) row
        known).2
  · rintro ⟨bothSides, faithful, agrees⟩
    -- what is not exactly the same is there on both sides, and not equal
    have seen : ∀ row ∈ COMPARISONS,
        ¬ ExactlySame (configs.effective selection .baseline row.pre)
          (configs.effective selection .candidate row.pre) →
        SeenDiffering configs selection row := by
      intro row known differs
      refine ⟨fun empty => ?_, fun empty => ?_, ?_⟩
      · exact differs (exactlySame_of_empty empty ((bothSides row known).mp empty))
      · exact differs (exactlySame_of_empty ((bothSides row known).mpr empty) empty)
      · exact Bool.eq_false_iff.mpr fun equal => differs (faithful row known equal)
    constructor
    · intro stated row known
      have verifies : VerifiesProtocol audit := by
        rcases stated with verified | supported
        · exact verified
        · exact verifiesProtocol_of_supported made supported
      obtain ⟨metric, unremarkable⟩ := (verifiesProtocol_iff made projected).mp verifies
      refine ⟨?_, agrees metric unremarkable row known⟩
      by_contra differs
      exact (unremarkable row known).1 (seen row known differs)
    · intro row known differs
      exact (reportsComponent_iff made projected known).mpr (seen row known differs)

end Verdict

/-! ### A sample -/

def hardware : ConfigValue := ⟨"benchmark.environment.hardware", some (.str "gpu")⟩

/-- One value of the metric, with the hardware that it was measured on. -/
def hardwareEvidence (value : Binary64) : List BenchmarkEvidence :=
  [⟨⟨"runs", [⟨some (lit "score", value), none, [hardware]⟩]⟩, "runs.json"⟩]

theorem hardwareEvidence_recovered (value : Binary64) :
    WithoutConflict (fun _ => none) (benchmarkConfigs (hardwareEvidence value)) ∧
      AllRecoverable (fun _ => none) (benchmarkConfigs (hardwareEvidence value)) := by
  refine ⟨withoutConflict_of_nodup (List.nodup_singleton _), ?_⟩
  intro config member _
  obtain rfl : config = hardware := List.mem_singleton.mp member
  have plain : canonicalProfileScalar (fun _ => none) hardware.key hardware.value =
      some hardware.value := by
    apply canonicalProfileScalar_plain
    · simp [hardware, POSITIVE_INTEGER_FIELDS, lit_inj]
    · simp [hardware, NONNEGATIVE_INTEGER_FIELDS, lit_inj]
    · simp [hardware, DECIMAL_FIELDS, UNIT_VALUE, QUANTITY, lit_inj]
  unfold recoverComponent
  rw [plain]
  exact ⟨_, rfl⟩

theorem protocolSound_hardware : ∃ audit configs,
    auditBenchmark (fun _ => none) plainRuntime.toRuntime scoreClaim
      (formSelection .reportedAggregate) (hardwareEvidence (Binary64.zero false))
      (hardwareEvidence floatOne) [] none = .ok audit ∧
    projectConfigs (fun _ => none) (hardwareEvidence (Binary64.zero false))
      (hardwareEvidence floatOne) [] = .ok configs ∧
    (ProtocolSound (formSelection .reportedAggregate) audit configs ↔
      ProtocolComparable (formSelection .reportedAggregate)
        (hardwareEvidence (Binary64.zero false)) (hardwareEvidence floatOne) configs) := by
  have recovered : ∀ evidence ∈
      [hardwareEvidence (Binary64.zero false), hardwareEvidence floatOne, []],
      WithoutConflict (fun _ => none) (benchmarkConfigs evidence) ∧
        AllRecoverable (fun _ => none) (benchmarkConfigs evidence) := by
    simp only [List.mem_cons, List.not_mem_nil, or_false, forall_eq_or_imp, forall_eq]
    exact ⟨hardwareEvidence_recovered _, hardwareEvidence_recovered _, conflictFree_of_empty rfl⟩
  have fits : AuditFits (fun _ => none) plainRuntime.toRuntime scoreClaim
      (formSelection .reportedAggregate) (hardwareEvidence (Binary64.zero false))
      (hardwareEvidence floatOne) [] none :=
    ⟨rfl, fun evidence member => (recovered evidence member).2,
      fun _ _ => ⟨fun raw => (by cases raw), fun derived => (by cases derived)⟩,
      fun given => by cases given⟩
  obtain ⟨audit, made⟩ := (auditBenchmark_returns_iff rfl
    fun evidence member => (recovered evidence member).1).mpr fits
  obtain ⟨_, configs, _, -, -, projected, -⟩ := auditBenchmark_ok made
  exact ⟨audit, configs, made, projected, protocolSound_iff made projected⟩

end ClaimCI
