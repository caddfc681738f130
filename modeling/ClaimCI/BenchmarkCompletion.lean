import ClaimCI.AuditVerdict
import ClaimCI.BenchmarkReturns

/-!
# Benchmark completion

The conditions under which the whole benchmark audit returns, and what it reports then about values
that cannot be represented.
-/

open Python

namespace ClaimCI

open Raising (returns_ok returns_bind_iff)

/-! ### The measurement drift -/

/-- The rules of everything an audit can find. -/
def AUDIT_RULES : List Str := PROTOCOL_RULES ++ OUTCOME_RULES

theorem checkRuleId_auditRules : ∀ rule ∈ AUDIT_RULES, checkRuleId rule = .ok () := by
  decide +kernel

theorem forM_checkRuleId {ids : List Str} (known : ∀ id ∈ ids, id ∈ AUDIT_RULES) :
    ids.forM checkRuleId = .ok () := by
  induction ids with
  | nil => rfl
  | cons id ids ih =>
    change (checkRuleId id >>= fun _ => ids.forM checkRuleId) = .ok ()
    rw [checkRuleId_auditRules id (known id List.mem_cons_self)]
    exact ih fun other member => known other (List.mem_cons_of_mem _ member)

/-- The rules that are chosen are no more than those that can be. -/
theorem chosenRules_length {chosen : Str → Bool} {ids few : List Str}
    (known : ∀ id ∈ ids, chosen id = true → id ∈ few) :
    (chosenRules chosen ids).length ≤ few.length := by
  rw [chosenRules, (sortBy_perm_self id _).length_eq]
  apply List.Subperm.length_le
  apply List.subperm_of_subset (ids.nodup_dedup.filter _)
  intro id member
  obtain ⟨inside, picked⟩ := List.mem_filter.mp member
  exact known id (List.mem_dedup.mp inside) picked

theorem auditRules_head : ∀ rule ∈ AUDIT_RULES, rule.head? ≠ (lit "DATASET").head? := by
  decide +kernel

/-- Only two of the rules say why something is missing. -/
theorem isInsufficientRule_cases {rule : Str} (known : rule ∈ AUDIT_RULES)
    (insufficient : isInsufficientRule rule = true) :
    rule ∈ [lit "CONFIG.MISSING_FIELDS", lit "BENCHMARK.PROCEDURE_INSUFFICIENT"] := by
  have other : ∀ word : Str, word.head? = (lit "DATASET").head? → word.isPrefixOf rule = false := by
    intro word head
    cases word with
    | nil => cases head
    | cons c word =>
      have differs := auditRules_head rule known
      cases rule with
      | nil => rfl
      | cons d rule =>
        rw [← head] at differs
        have different : (c == d) = false := by
          rw [beq_eq_false_iff_ne]
          rintro rfl
          exact differs rfl
        rw [List.isPrefixOf, different, Bool.false_and]
  rw [isInsufficientRule, other (lit "DATASET.MISSING") (by decide +kernel),
    other (lit "DATASET.INVALID") (by decide +kernel)] at insufficient
  simpa using insufficient

/-- A component refers to few native rules. -/
theorem comparedState_rules (rt : Runtime) (kind : MeasurementComponentKind)
    (baseline candidate : MeasurementProtocolComponent) {ids : List Str}
    (known : ∀ id ∈ ids, id ∈ AUDIT_RULES) :
    (comparedState rt kind baseline candidate ids).2.2.length ≤ 8 := by
  have missing : (chosenRules isInsufficientRule ids).length ≤ 8 :=
    (chosenRules_length fun id member => isInsufficientRule_cases (known id member)).trans
      (by decide)
  have differing : (chosenRules kind.mismatchRules.contains ids).length ≤ 8 :=
    (chosenRules_length fun _ _ picked => List.contains_iff_mem.mp picked).trans
      (by cases kind <;> decide)
  unfold comparedState
  -- in the order of the branches: optional, missing, bytes only, equal, differing
  split
  · exact Nat.zero_le _
  split
  · exact missing
  split
  · split
    · exact Nat.zero_le _
    · exact Nat.zero_le _
  split
  · exact Nat.zero_le _
  dsimp only
  split
  · exact differing
  · exact missing

theorem returns_componentState (rt : Runtime) (kind : MeasurementComponentKind)
    (baseline candidate : Option MeasurementProtocolComponent) {ids : List Str}
    (known : ∀ id ∈ ids, id ∈ AUDIT_RULES) :
    Raising.Returns (componentState rt kind baseline candidate ids) := by
  have checked : ∀ finding : MeasurementDriftFinding, finding.nativeRuleIds.length ≤ 8 →
      Raising.Returns finding.checked := by
    intro finding bounded
    rw [MeasurementDriftFinding.checked, if_neg (by omega)]
    exact returns_ok _
  unfold componentState
  apply checked
  cases baseline with
  | none => exact Nat.zero_le _
  | some baseline =>
    cases candidate with
    | none => exact Nat.zero_le _
    | some candidate => exact comparedState_rules rt kind baseline candidate known

theorem returns_mapM {ε α β : Type} {f : α → Except ε β} {items : List α}
    (each : ∀ item ∈ items, Raising.Returns (f item)) : Raising.Returns (items.mapM f) := by
  induction items with
  | nil => exact ⟨[], by rw [List.mapM_nil]; rfl⟩
  | cons item items ih =>
    obtain ⟨first, made⟩ := each item List.mem_cons_self
    obtain ⟨rest, more⟩ := ih fun other member => each other (List.mem_cons_of_mem _ member)
    rw [List.mapM_cons]
    exact returns_of_bind made (returns_of_bind more (returns_ok _))

/-- The rules of an audit are never too many to compare the protocols. -/
theorem returns_compareMeasurementProtocols (rt : Runtime)
    (baseline candidate : MeasurementProtocolIdentity) {findings : List Finding}
    (few : findings.length ≤ 128) (known : ∀ finding ∈ findings, finding.ruleId ∈ AUDIT_RULES) :
    Raising.Returns (compareMeasurementProtocols rt baseline candidate
      (findings.map fun finding => finding.ruleId)) := by
  have rules : ∀ id ∈ findings.map fun finding => finding.ruleId, id ∈ AUDIT_RULES := by
    intro id member
    obtain ⟨finding, inside, rfl⟩ := List.mem_map.mp member
    exact known finding inside
  have bounded : rejectIf (decide (128 < (findings.map fun finding => finding.ruleId).length))
      (measurementError "measurement native rule set exceeds bound") = .ok () := by
    rw [rejectIf_ok_iff, List.length_map]
    exact decide_eq_false (by omega)
  unfold compareMeasurementProtocols
  refine returns_of_bind bounded (returns_of_bind (forM_checkRuleId rules) ?_)
  have compared : Raising.Returns ((comparedKinds baseline candidate).mapM fun kind =>
      componentState rt kind (componentOf kind baseline.components)
        (componentOf kind candidate.components) (findings.map fun finding => finding.ruleId)) :=
    returns_mapM fun kind _ => returns_componentState rt kind _ _ rules
  obtain ⟨compared, made⟩ := compared
  exact returns_of_bind made (returns_ok _)

/-- The evidence measures one metric, with a bounded name. -/
def MeasuresOne (evidence : List BenchmarkEvidence) : Prop :=
  ∃ metric, metricIdentities evidence = [metric] ∧ Measurement.boundedText 256 true metric = true

/-- Where a measurement context is given, both roles measure one metric. -/
def MeasurementFits (baseline candidate : List BenchmarkEvidence)
    (context : Option BenchmarkMeasurementContext) : Prop :=
  context.isSome = true → MeasuresOne baseline ∧ MeasuresOne candidate

theorem representedMetricIdentity_ok_iff {evidence : List BenchmarkEvidence} {role : Arm}
    {metric : Str} : representedMetricIdentity evidence role = .ok metric ↔
      metricIdentities evidence = [metric] := by
  unfold representedMetricIdentity
  split
  next name same =>
    rw [same]
    simp
  next other =>
    constructor
    · intro made
      cases made
    · intro same
      exact absurd same (other metric)

theorem recoverBenchmarkProtocol_returns_iff {rt : Runtime} {policyId : Str}
    {source : BenchmarkSource} {metric : Str} {components : Str → Component} :
    Raising.Returns (recoverBenchmarkProtocol rt policyId source metric components) ↔
      Measurement.boundedText 256 true metric = true := by
  unfold recoverBenchmarkProtocol
  split
  next refused =>
    rw [refused]
    constructor
    · rintro ⟨_, made⟩
      cases made
    · intro impossible
      cases impossible
  next bounded => exact iff_of_true (returns_ok _) (by simpa using bounded)

section Drift

variable {rt : Runtime} {selection : BenchmarkSelection}
  {baseline candidate : List BenchmarkEvidence}

theorem returns_benchmarkDrift_iff (context : BenchmarkMeasurementContext)
    (configs : BenchmarkConfigs) {findings : List Finding} (few : findings.length ≤ 128)
    (known : ∀ finding ∈ findings, finding.ruleId ∈ AUDIT_RULES) :
    Raising.Returns (benchmarkDrift rt context configs selection baseline candidate findings) ↔
      MeasuresOne baseline ∧ MeasuresOne candidate := by
  unfold benchmarkDrift
  constructor
  -- each arm's metric has to have a bounded canonical name
  · rintro ⟨report, made⟩
    obtain ⟨baselineMetric, first, made⟩ := bind_ok_iff.mp made
    obtain ⟨candidateMetric, second, made⟩ := bind_ok_iff.mp made
    obtain ⟨_, left, made⟩ := bind_ok_iff.mp made
    obtain ⟨_, right, -⟩ := bind_ok_iff.mp made
    exact ⟨⟨baselineMetric, representedMetricIdentity_ok_iff.mp first,
        recoverBenchmarkProtocol_returns_iff.mp ⟨_, left⟩⟩,
      ⟨candidateMetric, representedMetricIdentity_ok_iff.mp second,
        recoverBenchmarkProtocol_returns_iff.mp ⟨_, right⟩⟩⟩
  · rintro ⟨⟨baselineMetric, first, bounded⟩, candidateMetric, second, boundedToo⟩
    obtain ⟨_, left⟩ := recoverBenchmarkProtocol_returns_iff.mpr bounded
    obtain ⟨_, right⟩ := recoverBenchmarkProtocol_returns_iff.mpr boundedToo
    exact returns_of_bind (representedMetricIdentity_ok_iff.mpr first)
      (returns_of_bind (representedMetricIdentity_ok_iff.mpr second)
        (returns_of_bind left (returns_of_bind right
          (returns_compareMeasurementProtocols rt _ _ few known))))

variable (rt selection) in
theorem returns_benchmarkDrift (context : BenchmarkMeasurementContext)
    (configs : BenchmarkConfigs) {findings : List Finding} (few : findings.length ≤ 128)
    (known : ∀ finding ∈ findings, finding.ruleId ∈ AUDIT_RULES)
    (measured : MeasuresOne baseline ∧ MeasuresOne candidate) :
    Raising.Returns (benchmarkDrift rt context configs selection baseline candidate findings) :=
  (returns_benchmarkDrift_iff context configs few known).mpr measured

theorem returns_measureDrift_iff (context : Option BenchmarkMeasurementContext)
    (configs : BenchmarkConfigs) {findings : List Finding} (few : findings.length ≤ 128)
    (known : ∀ finding ∈ findings, finding.ruleId ∈ AUDIT_RULES) :
    Raising.Returns (measureDrift rt selection baseline candidate context configs findings) ↔
      MeasurementFits baseline candidate context := by
  cases context with
  | none => exact iff_of_true (returns_ok _) fun impossible => by cases impossible
  | some context =>
    have fits : MeasurementFits baseline candidate (some context) ↔
        MeasuresOne baseline ∧ MeasuresOne candidate := by
      simp [MeasurementFits]
    rw [fits]
    unfold measureDrift
    dsimp only
    constructor
    · rintro ⟨report, made⟩
      split at made
      · cases made
      next drift compared =>
        exact (returns_benchmarkDrift_iff context configs few known).mp ⟨drift, compared⟩
    · intro measured
      obtain ⟨drift, compared⟩ := returns_benchmarkDrift rt selection context configs few known
        measured
      rw [compared]
      exact returns_ok _

end Drift

/-! ### The result forms -/

section Forms

variable (digit : CodePoint → Option Digit) (rt : Runtime) (claim : AuditClaimSpec)
  (selection : BenchmarkSelection) (baseline candidate : List BenchmarkEvidence)
  (configs : BenchmarkConfigs)

/-- Two series of runs have finite summaries and a finite difference. -/
def RunsFit : Prop :=
  metricRuns baseline claim.metric ≠ [] → metricRuns candidate claim.metric ≠ [] →
    SeriesFit claim.direction ((metricRuns baseline claim.metric).map Prod.fst)
      ((metricRuns candidate claim.metric).map Prod.fst)

/-- What has to be finite in the selected form. -/
def FormFits : Prop :=
  (selection.resultForm = some .rawRunSeries → RunsFit claim baseline candidate) ∧
    (selection.resultForm = some .deterministicDerivation →
      DerivationFits digit rt claim baseline candidate configs)

variable {digit rt claim selection baseline candidate configs}

theorem rawResults_none {evidence : List BenchmarkEvidence} {metric : Str} {role : Arm}
    (empty : metricRuns evidence metric = []) : (rawResults rt evidence metric role).1 = none := by
  unfold rawResults
  dsimp only
  rw [if_pos empty]

variable (rt) in
theorem rawResults_some {evidence : List BenchmarkEvidence} {metric : Str} (role : Arm)
    (filled : metricRuns evidence metric ≠ []) : ∃ loaded,
      (rawResults rt evidence metric role).1 = some loaded ∧
        loaded.values = (metricRuns evidence metric).map Prod.fst := by
  unfold rawResults
  dsimp only
  rw [if_neg filled]
  exact ⟨_, rfl, rfl⟩

theorem returns_rawRunSeries_iff {threshold : Binary64}
    (nonneg : threshold.lt (Binary64.zero false) = false) :
    Raising.Returns (rawRunSeries rt claim threshold baseline candidate) ↔
      RunsFit claim baseline candidate := by
  unfold rawRunSeries RunsFit
  dsimp only
  -- an arm without runs is reported before anything is compared
  by_cases baselineEmpty : metricRuns baseline claim.metric = []
  · rw [rawResults_none baselineEmpty]
    exact iff_of_true (returns_ok _) fun filled => absurd baselineEmpty filled
  by_cases candidateEmpty : metricRuns candidate claim.metric = []
  · obtain ⟨loaded, found, -⟩ := rawResults_some rt .baseline baselineEmpty
    rw [found, rawResults_none candidateEmpty]
    exact iff_of_true (returns_ok _) fun _ filled => absurd candidateEmpty filled
  obtain ⟨first, left, firstValues⟩ := rawResults_some rt .baseline baselineEmpty
  obtain ⟨second, right, secondValues⟩ :=
    rawResults_some rt .candidate candidateEmpty
  have checks : Raising.Returns (checkResults first second claim.metric threshold claim.direction) ↔
      SeriesFit claim.direction first.values second.values :=
    returns_checkResults_iff nonneg (by rw [firstValues]; simpa using baselineEmpty)
      (by rw [secondValues]; simpa using candidateEmpty)
  rw [firstValues, secondValues] at checks
  rw [left, right]
  dsimp only
  constructor
  · rintro ⟨outcome, made⟩ - -
    split at made
    · cases made
    next checked compared => exact checks.mp ⟨checked, compared⟩
  · intro fits
    obtain ⟨checked, compared⟩ := checks.mpr (fits baselineEmpty candidateEmpty)
    rw [compared]
    exact returns_ok _

theorem returns_compareResults_iff {threshold : Binary64}
    (nonneg : threshold.lt (Binary64.zero false) = false) :
    Raising.Returns (compareResults digit rt claim selection baseline candidate threshold configs) ↔
      FormFits digit rt claim selection baseline candidate configs := by
  unfold compareResults FormFits
  cases selection.resultForm with
  | none => exact iff_of_true (returns_ok _) ⟨fun h => (by cases h), fun h => (by cases h)⟩
  | some form =>
    cases form with
    | rawRunSeries =>
      have fits : Raising.Returns (rawRunSeries rt claim threshold baseline candidate) ↔
          RunsFit claim baseline candidate := returns_rawRunSeries_iff nonneg
      simp [fits]
    | reportedAggregate =>
      exact iff_of_true (returns_reportedAggregate rt claim threshold baseline candidate configs)
        ⟨fun h => (by cases h), fun h => (by cases h)⟩
    | deterministicDerivation =>
      have fits : Raising.Returns (deterministicDerivation digit rt claim threshold baseline
          candidate configs) ↔ DerivationFits digit rt claim baseline candidate configs :=
        returns_deterministicDerivation_iff nonneg
      simp [fits]

/-- The product of the operands of a role is no finite float. -/
def ProductBeyond (digit : CodePoint → Option Digit) (role : Arm)
    (config : List (Str × JsonScalar)) : Prop :=
  ∃ unit quantity, derivationOperands digit role config = .ok (unit, quantity) ∧
    ∀ product ∈ DERIVATION_CONTEXT.mul unit quantity, Binary64.ofDecimal product = none

variable (digit rt claim selection baseline candidate configs) in
/-- A mean, a difference or a product that the selected form compares cannot be represented. -/
def Unrepresentable : Prop :=
  (selection.resultForm = some .rawRunSeries ∧ ¬ RunsFit claim baseline candidate) ∨
  (selection.resultForm = some .reportedAggregate ∧ ∃ baselineValue candidateValue,
    (singleMetricValue rt baseline claim.metric .baseline).1 = some baselineValue ∧
    (singleMetricValue rt candidate claim.metric .candidate).1 = some candidateValue ∧
    ¬ DifferenceFits claim.direction baselineValue candidateValue) ∨
  (selection.resultForm = some .deterministicDerivation ∧
    (ProductBeyond digit .baseline configs.baseline ∨
      ProductBeyond digit .candidate configs.candidate ∨
      ∃ baselineValue candidateValue,
        DerivesValue digit rt claim .baseline configs.baseline baseline baselineValue ∧
        DerivesValue digit rt claim .candidate configs.candidate candidate candidateValue ∧
        ¬ DifferenceFits claim.direction baselineValue candidateValue))

theorem reportedAggregate_insufficient {threshold : Binary64} {outcome : ResultOutcome}
    (nonneg : threshold.lt (Binary64.zero false) = false)
    (made : reportedAggregate rt claim threshold baseline candidate configs = .ok outcome)
    {baselineValue candidateValue : Binary64}
    (left : (singleMetricValue rt baseline claim.metric .baseline).1 = some baselineValue)
    (right : (singleMetricValue rt candidate claim.metric .candidate).1 = some candidateValue)
    (beyond : ¬ DifferenceFits claim.direction baselineValue candidateValue) :
    ∃ finding ∈ outcome.findings, finding.impact = .insufficient := by
  unfold reportedAggregate at made
  dsimp only at made
  rw [left, right] at made
  -- a comparison that raises a ClaimCIError is the finding
  split at made
  next checked compared =>
    obtain ⟨first, second, _, _, _, _, firstSame, secondSame, compared⟩ :=
      compareAggregates_ok compared
    obtain rfl := Option.some.inj firstSame
    obtain rfl := Option.some.inj secondSame
    obtain ⟨verified, claimFinding, -, -, comparison, -⟩ := checkReportedAggregates_ok compared
    have fits := (returns_comparison_iff nonneg).mp ⟨_, comparison⟩
    exact absurd fits beyond
  · obtain rfl := Except.ok.inj made
    exact ⟨procedureInsufficient "reported aggregate metadata",
      List.mem_append_right _ (List.mem_singleton_self _), rfl⟩
  · cases made

/-- The findings of both roles are findings of the derivation. -/
theorem deterministicDerivation_ok {threshold : Binary64} {outcome : ResultOutcome}
    (made : deterministicDerivation digit rt claim threshold baseline candidate configs =
      .ok outcome) :
    ∃ first second, deriveRole digit rt claim .baseline configs.baseline baseline = .ok first ∧
      deriveRole digit rt claim .candidate configs.candidate candidate = .ok second ∧
      ∀ finding ∈ first.1 ++ second.1, finding ∈ outcome.findings := by
  unfold deterministicDerivation at made
  obtain ⟨first, left, made⟩ := bind_ok_iff.mp made
  obtain ⟨second, right, made⟩ := bind_ok_iff.mp made
  refine ⟨first, second, left, right, fun finding member => ?_⟩
  dsimp only at made
  split at made
  · split at made
    · cases made
    · obtain rfl := Except.ok.inj made
      exact List.mem_append_left _ member
  · obtain rfl := Except.ok.inj made
    exact member

theorem deriveRole_insufficient {role : Arm} {config : List (Str × JsonScalar)}
    {evidence : List BenchmarkEvidence} {found : List Finding × Option Binary64}
    (made : deriveRole digit rt claim role config evidence = .ok found)
    (beyond : ProductBeyond digit role config) :
    ∃ finding ∈ found.1, finding.impact = .insufficient := by
  obtain ⟨unit, quantity, operands, tooLarge⟩ := beyond
  obtain ⟨again, remade, derived⟩ := deriveRole_returns rt claim evidence (productFits_of_made made)
  obtain rfl := Except.ok.inj (made.symm.trans remade)
  apply derived.insufficient
  cases number : found.2 with
  | none => rfl
  | some value =>
    obtain ⟨_, _, product, _, same, rounded, finite, -⟩ := (derived.value value).mp number
    obtain ⟨rfl, rfl⟩ := Prod.mk.inj (Except.ok.inj (operands.symm.trans same))
    rw [tooLarge product rounded] at finite
    cases finite

/-- A comparison that returns although something cannot be represented is insufficient. -/
theorem compareResults_insufficient {threshold : Binary64} {outcome : ResultOutcome}
    (nonneg : threshold.lt (Binary64.zero false) = false)
    (made : compareResults digit rt claim selection baseline candidate threshold configs =
      .ok outcome)
    (beyond : Unrepresentable digit rt claim selection baseline candidate configs) :
    ∃ finding ∈ outcome.findings, finding.impact = .insufficient := by
  obtain ⟨runsFit, derivationFits⟩ := (returns_compareResults_iff nonneg).mp ⟨outcome, made⟩
  unfold compareResults at made
  rcases beyond with ⟨form, runs⟩ | ⟨form, _, _, left, right, differ⟩ | ⟨form, products⟩
  · exact absurd (runsFit form) runs
  · rw [form] at made
    exact reportedAggregate_insufficient nonneg made left right differ
  · rw [form] at made
    obtain ⟨first, second, left, right, kept⟩ := deterministicDerivation_ok made
    rcases products with beyond | beyond | ⟨_, _, derived, again, differ⟩
    · obtain ⟨finding, member, impact⟩ := deriveRole_insufficient left beyond
      exact ⟨finding, kept finding (List.mem_append_left _ member), impact⟩
    · obtain ⟨finding, member, impact⟩ := deriveRole_insufficient right beyond
      exact ⟨finding, kept finding (List.mem_append_right _ member), impact⟩
    · exact absurd ((derivationFits form).difference _ _ derived again) differ

end Forms

/-! ### The audit -/

section Audit

variable (digit : CodePoint → Option Digit) (rt : Runtime) (claim : AuditClaimSpec)
  (selection : BenchmarkSelection) (baseline candidate reference : List BenchmarkEvidence)
  (context : Option BenchmarkMeasurementContext)

/-- The audit has a threshold, recovers every component it is given, and what the selected form
computes without a handler is finite. -/
structure AuditFits : Prop where
  threshold : claim.minimumAbsoluteImprovement.isSome = true
  recoverable : ∀ evidence ∈ [baseline, candidate, reference],
    AllRecoverable digit (benchmarkConfigs evidence)
  form : ∀ configs, projectConfigs digit baseline candidate reference = .ok configs →
    FormFits digit rt claim selection baseline candidate configs
  measurement : MeasurementFits baseline candidate context

/-- The audit returns, and whatever cannot be represented is reported as insufficient evidence. -/
def HandlesEveryValue : Prop :=
  ∃ audit, auditBenchmark digit rt claim selection baseline candidate reference context =
      .ok audit ∧
    ∀ configs, projectConfigs digit baseline candidate reference = .ok configs →
      Unrepresentable digit rt claim selection baseline candidate configs →
        (∃ finding ∈ audit.result.findings, finding.impact = .insufficient) ∧
          audit.result.verdict ≠ .supported

variable {digit rt claim selection baseline candidate reference context}

theorem projectConfigs_returns_iff
    (conflictFree : ∀ evidence ∈ [baseline, candidate, reference],
      WithoutConflict digit (benchmarkConfigs evidence)) :
    Raising.Returns (projectConfigs digit baseline candidate reference) ↔
      ∀ evidence ∈ [baseline, candidate, reference],
        AllRecoverable digit (benchmarkConfigs evidence) := by
  -- without a conflict a projection fails only at a field that cannot be recovered
  have each : ∀ evidence ∈ [baseline, candidate, reference],
      (Raising.Returns (configProjection digit evidence) ↔
        AllRecoverable digit (benchmarkConfigs evidence)) :=
    fun evidence member => configProjection_returns_iff (conflictFree evidence member)
  have split : Raising.Returns (projectConfigs digit baseline candidate reference) ↔
      ∀ evidence ∈ [baseline, candidate, reference],
        Raising.Returns (configProjection digit evidence) := by
    unfold projectConfigs
    constructor
    · rintro ⟨configs, made⟩
      obtain ⟨_, first, made⟩ := bind_ok_iff.mp made
      obtain ⟨_, second, made⟩ := bind_ok_iff.mp made
      obtain ⟨_, third, -⟩ := bind_ok_iff.mp made
      simp only [List.mem_cons, List.not_mem_nil, or_false, forall_eq_or_imp, forall_eq]
      exact ⟨⟨_, first⟩, ⟨_, second⟩, ⟨_, third⟩⟩
    · intro all
      obtain ⟨_, first⟩ := all baseline (by simp)
      obtain ⟨_, second⟩ := all candidate (by simp)
      obtain ⟨_, third⟩ := all reference (by simp)
      exact returns_of_bind first (returns_of_bind second (returns_of_bind third (returns_ok _)))
  rw [split]
  exact forall₂_congr each

/-- What an audit finds is not too much for the measurement companion. -/
theorem auditFindings_known {threshold : Binary64} {configs : BenchmarkConfigs}
    {outcome : ResultOutcome}
    (made : compareResults digit rt claim selection baseline candidate threshold configs =
      .ok outcome) :
    RulesIn AUDIT_RULES 39
      (protocolFindings configs selection baseline candidate ++ outcome.findings) :=
  (((protocolFindings_rules configs selection baseline candidate).mono
    (fun _ member => List.mem_append_left _ member) le_rfl).append
    ((compareResults_rules made).mono (fun _ member => List.mem_append_right _ member) le_rfl))

/-- The audit returns exactly if it recovers every component and everything that it computes without
a handler is finite. -/
theorem auditBenchmark_returns_iff (complete : selection.complete = true)
    (conflictFree : ∀ evidence ∈ [baseline, candidate, reference],
      WithoutConflict digit (benchmarkConfigs evidence)) :
    Raising.Returns (auditBenchmark digit rt claim selection baseline candidate reference context) ↔
      AuditFits digit rt claim selection baseline candidate reference context := by
  constructor
  -- what the audit returned passed every step
  · rintro ⟨audit, made⟩
    obtain ⟨threshold, configs, outcome, -, given, projected, compared, findings, -, measured⟩ :=
      auditBenchmark_ok made
    have known := auditFindings_known compared
    rw [← findings] at known
    refine ⟨by rw [given]; rfl, (projectConfigs_returns_iff conflictFree).mp ⟨_, projected⟩, ?_, ?_⟩
    · intro other again
      obtain rfl := Except.ok.inj (projected.symm.trans again)
      exact (returns_compareResults_iff (claim.nonneg _ given)).mp ⟨_, compared⟩
    · exact (returns_measureDrift_iff context configs (known.count.trans (by omega)) known.rule).mp
        ⟨_, measured⟩
  -- what fits passes every step
  · rintro ⟨given, recoverable, form, measurement⟩
    obtain ⟨threshold, given⟩ := Option.isSome_iff_exists.mp given
    obtain ⟨configs, projected⟩ := (projectConfigs_returns_iff conflictFree).mpr recoverable
    have nonneg := claim.nonneg _ given
    obtain ⟨outcome, compared⟩ := (returns_compareResults_iff nonneg).mpr (form configs projected)
    have known := auditFindings_known compared
    have measures : Raising.Returns (measureDrift rt selection baseline candidate context configs
        (protocolFindings configs selection baseline candidate ++ outcome.findings)) :=
      (returns_measureDrift_iff context configs (known.count.trans (by omega)) known.rule).mpr
        measurement
    obtain ⟨drift, measured⟩ := measures
    unfold auditBenchmark
    rw [if_neg (by rw [complete]; exact Bool.noConfusion), given]
    exact returns_of_bind projected (returns_of_bind compared (returns_of_bind measured
      (returns_ok _)))

/-- The audit handles every value exactly if it recovers every component and everything that it
computes without a handler is finite. -/
theorem auditBenchmark_handles_iff (complete : selection.complete = true)
    (conflictFree : ∀ evidence ∈ [baseline, candidate, reference],
      WithoutConflict digit (benchmarkConfigs evidence)) :
    HandlesEveryValue digit rt claim selection baseline candidate reference context ↔
      AuditFits digit rt claim selection baseline candidate reference context := by
  rw [← auditBenchmark_returns_iff complete conflictFree]
  constructor
  · rintro ⟨audit, made, -⟩
    exact ⟨audit, made⟩
  · rintro ⟨audit, made⟩
    refine ⟨audit, made, fun configs projected beyond => ?_⟩
    obtain ⟨_, _, _, -, given, again, compared, findings, verdict, -⟩ := auditBenchmark_ok made
    obtain rfl := Except.ok.inj (again.symm.trans projected)
    obtain ⟨finding, member, impact⟩ :=
      compareResults_insufficient (claim.nonneg _ given) compared beyond
    have inside : finding ∈ audit.result.findings := findings ▸ List.mem_append_right _ member
    refine ⟨⟨finding, inside, impact⟩, fun supported => ?_⟩
    rw [verdict, determineVerdict_supported_iff] at supported
    have clean := supported finding inside
    rw [impact] at clean
    cases clean

end Audit

/-- Evidence that represents one value of the metric in each observation. -/
def runsEvidence (values : List Binary64) : List BenchmarkEvidence :=
  [⟨⟨"runs", values.map fun value => ⟨some (lit "score", value), none, []⟩⟩, "runs.json"⟩]

def scoreClaim : AuditClaimSpec where
  metric := "score"
  direction := .higher
  minimumAbsoluteImprovement := some floatOne
  nonneg := by simp only [Option.mem_def, Option.some.injEq, forall_eq']; decide +kernel

def formSelection (form : BenchmarkResultForm) : BenchmarkSelection :=
  ⟨.latency, some form, true, fun _ => rfl⟩

/-- Evidence without any component value is without a conflict. -/
theorem conflictFree_of_empty {evidence : List BenchmarkEvidence}
    (empty : benchmarkConfigs evidence = []) :
    WithoutConflict (fun _ => none) (benchmarkConfigs evidence) ∧
      AllRecoverable (fun _ => none) (benchmarkConfigs evidence) := by
  rw [empty]
  exact ⟨fun config member => absurd member List.not_mem_nil,
    fun config member => absurd member List.not_mem_nil⟩

/-- The metadata of a reported aggregate. -/
def aggregateMetadata : List ConfigValue :=
  [⟨"benchmark.run_protocol.sample_count", some (.int 5)⟩,
    ⟨"benchmark.run_protocol.statistic", some (.str "mean")⟩,
    ⟨"benchmark.run_protocol.aggregation", some (.str "arithmetic")⟩]

/-- Evidence that reports one value with its metadata. -/
def aggregateEvidence (value : Binary64) : List BenchmarkEvidence :=
  [⟨⟨"aggregate", [⟨some (lit "score", value), none, aggregateMetadata⟩]⟩, "summary.json"⟩]

theorem aggregateMetadata_nodup : (aggregateMetadata.map ConfigValue.key).Nodup := by
  simp [aggregateMetadata, lit_inj]

/-- Every component is recovered as it is stated. -/
theorem aggregateMetadata_recovered {config : ConfigValue} (member : config ∈ aggregateMetadata) :
    config.key ∈ BENCHMARK_PROFILE_FIELDS ∧
      ∃ text, recoverComponent (fun _ => none) config = .ok (config.value, text) := by
  have texts : (canonicalText (JsonScalar.toJson (some (.int 5)))).isSome = true ∧
      (canonicalText (JsonScalar.toJson (some (.str "mean")))).isSome = true ∧
      (canonicalText (JsonScalar.toJson (some (.str "arithmetic")))).isSome = true := by
    decide +kernel
  simp only [Option.isSome_iff_exists] at texts
  obtain ⟨⟨count, five⟩, ⟨mean, statistic⟩, ⟨sum, aggregation⟩⟩ := texts
  simp only [aggregateMetadata, List.mem_cons, List.not_mem_nil, or_false] at member
  rcases member with rfl | rfl | rfl
  · refine ⟨by simp [BENCHMARK_PROFILE_FIELDS], count, ?_⟩
    simp [recoverComponent, canonicalProfileScalar, POSITIVE_INTEGER_FIELDS, profileInteger, five]
  · refine ⟨by simp [BENCHMARK_PROFILE_FIELDS], mean, ?_⟩
    simp [recoverComponent, canonicalProfileScalar, POSITIVE_INTEGER_FIELDS,
      NONNEGATIVE_INTEGER_FIELDS, DECIMAL_FIELDS, UNIT_VALUE, QUANTITY, lit_inj, statistic]
  · refine ⟨by simp [BENCHMARK_PROFILE_FIELDS], sum, ?_⟩
    simp [recoverComponent, canonicalProfileScalar, POSITIVE_INTEGER_FIELDS,
      NONNEGATIVE_INTEGER_FIELDS, DECIMAL_FIELDS, UNIT_VALUE, QUANTITY, lit_inj, aggregation]

theorem aggregate_configs (value : Binary64) :
    benchmarkConfigs (aggregateEvidence value) = aggregateMetadata := List.append_nil _

theorem aggregate_withoutConflict (value : Binary64) :
    WithoutConflict (fun _ => none) (benchmarkConfigs (aggregateEvidence value)) :=
  withoutConflict_of_nodup (aggregate_configs value ▸ aggregateMetadata_nodup)

theorem aggregate_recoverable (value : Binary64) :
    AllRecoverable (fun _ => none) (benchmarkConfigs (aggregateEvidence value)) := by
  rw [aggregate_configs]
  intro config member _
  obtain ⟨-, text, recovered⟩ := aggregateMetadata_recovered member
  exact ⟨_, recovered⟩

/-- The projection holds what is stated. -/
theorem aggregate_required {value : Binary64} {values : List (Str × JsonScalar)}
    (made : configProjection (fun _ => none) (aggregateEvidence value) = .ok values)
    {config : ConfigValue} (member : config ∈ aggregateMetadata) :
    requiredValue values config.key = .ok config.value := by
  obtain ⟨field, text, recovered⟩ := aggregateMetadata_recovered member
  obtain ⟨_, _, stored, source, -, found, inside, named, again⟩ :=
    lookupKey_projection made ((aggregate_configs value).symm ▸ member) field
  obtain rfl := List.inj_on_of_nodup_map aggregateMetadata_nodup
    (aggregate_configs value ▸ inside) member named
  obtain ⟨same, -⟩ := Prod.mk.inj (Except.ok.inj (recovered.symm.trans again))
  rw [requiredValue, found, same]

/-- With its metadata, the values of an aggregate are compared. -/
theorem aggregate_compared {claim : AuditClaimSpec} {threshold value other : Binary64}
    {values others reference : List (Str × JsonScalar)}
    (left : configProjection (fun _ => none) (aggregateEvidence value) = .ok values)
    (right : configProjection (fun _ => none) (aggregateEvidence other) = .ok others) :
    compareAggregates claim threshold ⟨values, others, reference⟩ (some value) (some other) =
      checkReportedAggregates value other 5 5 "mean" "arithmetic" claim.metric threshold
        claim.direction := by
  have samples := aggregate_required left List.mem_cons_self
  have otherSamples := aggregate_required right List.mem_cons_self
  have statistic := aggregate_required left (List.mem_cons_of_mem _ List.mem_cons_self)
  have aggregation := aggregate_required left
    (List.mem_cons_of_mem _ (List.mem_cons_of_mem _ List.mem_cons_self))
  rw [compareAggregates, samples, otherSamples, statistic, aggregation]
  rfl

/-- Aggregates whose difference is larger than every float. -/
theorem aggregates_beyond {baselineValue candidateValue threshold : Binary64} {metric : Str}
    {direction : Direction} (nonneg : threshold.lt (Binary64.zero false) = false)
    (beyond : Binary64.ofDecimal (absoluteDecimal direction baselineValue.toDecimal
      candidateValue.toDecimal) = none) :
    checkReportedAggregates baselineValue candidateValue 5 5 "mean" "arithmetic" metric threshold
      direction = .error (.claimCI (lit "absolute improvement" ++ lit " must be finite")) := by
  have identities : checkIdentity "statistic" "mean" = .ok () ∧
      checkIdentity "aggregation" "arithmetic" = .ok () := by decide +kernel
  have comparison : metricSummaryComparison ⟨5, baselineValue, none⟩ ⟨5, candidateValue, none⟩ metric
      threshold direction =
        .error (.claimCI (lit "absolute improvement" ++ lit " must be finite")) := by
    unfold metricSummaryComparison
    rw [if_neg (by rw [nonneg]; exact Bool.false_ne_true)]
    dsimp only
    rw [finiteFloat, beyond]
    rfl
  rw [checkReportedAggregates, identities.1, identities.2]
  change (metricSummaryComparison ⟨5, baselineValue, none⟩ ⟨5, candidateValue, none⟩ metric threshold
    direction >>= _) = _
  rw [comparison]
  rfl

/-- The difference of two aggregates is larger than every float, and the audit says so. -/
theorem auditBenchmark_handles_aggregate :
    ∃ audit configs,
      auditBenchmark (fun _ => none) plainRuntime.toRuntime scoreClaim
        (formSelection .reportedAggregate) (aggregateEvidence (floatLargest true))
        (aggregateEvidence (floatLargest false)) [] none = .ok audit ∧
      projectConfigs (fun _ => none) (aggregateEvidence (floatLargest true))
        (aggregateEvidence (floatLargest false)) [] = .ok configs ∧
      compareAggregates scoreClaim floatOne configs (some (floatLargest true))
        (some (floatLargest false)) =
          .error (.claimCI (lit "absolute improvement" ++ lit " must be finite")) ∧
      (∃ finding ∈ audit.result.findings, finding.impact = .insufficient) ∧
      audit.result.verdict ≠ .supported := by
  have fits : AuditFits (fun _ => none) plainRuntime.toRuntime scoreClaim
      (formSelection .reportedAggregate) (aggregateEvidence (floatLargest true))
      (aggregateEvidence (floatLargest false)) [] none := by
    refine ⟨rfl, ?_, fun _ _ => ⟨fun raw => (by cases raw), fun derived => (by cases derived)⟩,
      fun given => by cases given⟩
    simp only [List.mem_cons, List.not_mem_nil, or_false, forall_eq_or_imp, forall_eq]
    exact ⟨aggregate_recoverable _, aggregate_recoverable _, (conflictFree_of_empty rfl).2⟩
  have conflictFree : ∀ evidence ∈ [aggregateEvidence (floatLargest true),
      aggregateEvidence (floatLargest false), []],
      WithoutConflict (fun _ => none) (benchmarkConfigs evidence) := by
    simp only [List.mem_cons, List.not_mem_nil, or_false, forall_eq_or_imp, forall_eq]
    exact ⟨aggregate_withoutConflict _, aggregate_withoutConflict _, (conflictFree_of_empty rfl).1⟩
  obtain ⟨audit, made, handled⟩ := (auditBenchmark_handles_iff rfl conflictFree).mpr fits
  obtain ⟨_, configs, _, -, -, projected, -⟩ := auditBenchmark_ok made
  -- the improvement of these two values is beyond the floats
  have differ : Binary64.ofDecimal (absoluteDecimal .higher (floatLargest true).toDecimal
      (floatLargest false).toDecimal) = none := by decide +kernel
  refine ⟨audit, configs, made, projected, ?_, handled configs projected ?_⟩
  -- the components do not conflict, so only the improvement fails
  · unfold projectConfigs at projected
    obtain ⟨first, left, projected⟩ := bind_ok_iff.mp projected
    obtain ⟨second, right, projected⟩ := bind_ok_iff.mp projected
    obtain ⟨third, -, projected⟩ := bind_ok_iff.mp projected
    obtain rfl := Except.ok.inj projected
    rw [aggregate_compared left right]
    exact aggregates_beyond (by decide +kernel) differ
  -- this is the second of the ways that the audit has to handle
  · refine .inr (.inl ⟨rfl, floatLargest true, floatLargest false, rfl, rfl, ?_⟩)
    change ¬ (Binary64.ofDecimal _).isSome = true
    rw [show scoreClaim.direction = .higher from rfl, differ]
    exact Bool.false_ne_true

/-- Two runs with the largest float have no mean, and the audit raises. -/
theorem overflowing_runs_unhandled :
    (formSelection .rawRunSeries).complete = true ∧
      (∀ evidence ∈ [runsEvidence [floatLargest false, floatLargest false], runsEvidence [floatOne],
        []], WithoutConflict (fun _ => none) (benchmarkConfigs evidence)) ∧
      ¬ HandlesEveryValue (fun _ => none) plainRuntime.toRuntime scoreClaim
        (formSelection .rawRunSeries) (runsEvidence [floatLargest false, floatLargest false])
        (runsEvidence [floatOne]) [] none := by
  refine ⟨rfl, ?_, ?_⟩
  · intro evidence member
    apply (conflictFree_of_empty ?_).1
    simp only [List.mem_cons, List.not_mem_nil, or_false] at member
    rcases member with rfl | rfl | rfl <;> rfl
  · rintro ⟨audit, made, -⟩
    obtain ⟨threshold, configs, outcome, -, given, -, compared, -, -, -⟩ := auditBenchmark_ok made
    have fits := (returns_compareResults_iff (scoreClaim.nonneg _ given)).mp ⟨_, compared⟩
    obtain ⟨mean, _, summarizable, -, -⟩ := fits.1 rfl (by decide +kernel) (by decide +kernel)
    have total := summarizable.1
    have overflows : (fmean ((metricRuns (runsEvidence [floatLargest false, floatLargest false])
        scoreClaim.metric).map Prod.fst)).isSome = false := by decide +kernel
    rw [overflows] at total
    cases total

end ClaimCI
