import ClaimCI.Analysis.BenchmarkProfiles
import ClaimCI.MeasurementDrift
import ClaimCI.ResultComparison

/-!
# Benchmark audit

Native deterministic checks for the benchmark measurement profile: the comparison of the recovered
protocol components, and the three forms in which results are represented.
-/

open Python

namespace ClaimCI

/-- What the benchmark audit raises. -/
inductive BenchmarkError where
  | raised (error : Error)
  /-- `decimal.Overflow`. -/
  | overflow
  deriving DecidableEq

/-- Normalized evidence with the path of its artifact. -/
structure BenchmarkEvidence extends NormalizedEvidence where
  path : Str

/-- A validated claim policy to test, without any verdict authority. -/
structure AuditClaimSpec where
  metric : Str
  direction : Direction
  minimumAbsoluteImprovement : Option Binary64
  nonneg : ∀ threshold ∈ minimumAbsoluteImprovement,
    threshold.lt (Binary64.zero false) = false

def benchmarkObservations (evidence : List BenchmarkEvidence) : List NormalizedObservation :=
  evidence.flatMap fun item => item.observations

/-! ### Components -/

def invalidComponent (key : Str) : BenchmarkError :=
  .raised (.claimCI (lit "benchmark component '" ++ key ++ lit "' is invalid"))

def conflictingComponent (key : Str) : BenchmarkError :=
  .raised (.claimCI (lit "benchmark component '" ++ key ++ lit "' has conflicting values"))

section Digits

variable (digit : CodePoint → Option Digit)

/-- What is recovered from a config value of the profile, with its canonical text. -/
def recoverComponent (config : ConfigValue) : Except BenchmarkError (JsonScalar × Str) :=
  match canonicalProfileScalar digit config.key config.value with
  | none => .error (invalidComponent config.key)
  | some recovered =>
    match canonicalText recovered.toJson with
    | none => .error (.raised intTextError)
    | some canonical => .ok (recovered, canonical)

/-- One config value of `_config_projection`. -/
def projectConfig (values : List (Str × JsonScalar × Str)) (config : ConfigValue) :
    Except BenchmarkError (List (Str × JsonScalar × Str)) :=
  if !BENCHMARK_PROFILE_FIELDS.contains config.key then .ok values
  else do
    let (recovered, canonical) ← recoverComponent digit config
    match lookupKey config.key values with
    | some previous =>
      if previous.2 ≠ canonical then .error (conflictingComponent config.key)
      else .ok (setKey config.key (recovered, canonical) values)
    | none => .ok (setKey config.key (recovered, canonical) values)

/-- The config values of evidence, in order. -/
def benchmarkConfigs (evidence : List BenchmarkEvidence) : List ConfigValue :=
  (benchmarkObservations evidence).flatMap NormalizedObservation.configValues

/-- `_config_projection`. -/
def configProjection (evidence : List BenchmarkEvidence) :
    Except BenchmarkError (List (Str × JsonScalar)) := do
  let values ← (benchmarkConfigs evidence).foldlM (projectConfig digit) []
  .ok (values.map fun entry => (entry.1, entry.2.1))

end Digits

/-- A component: the recovered values below one prefix. -/
abbrev Component := List (Str × JsonScalar)

/-- `_component`. -/
def componentBelow (values : List (Str × JsonScalar)) (pre : Str) : Component :=
  values.filterMap fun entry => (stripPrefix (pre ++ [DOT]) entry.1).map fun key => (key, entry.2)

/-- The keys of a component that are no part of the measurement procedure. -/
def excludedKeys (pre : Str) (selection : BenchmarkSelection) : List Str :=
  (if pre = lit "benchmark.evaluator" then [lit "unit_value", lit "quantity"] else []) ++
    (if pre = lit "benchmark.environment" ∧ selection.variant = .cost then
      [lit "provider", lit "sku"] else [])

/-- `_procedure_component`. -/
def procedureComponent (pre : Str) (values : List (Str × JsonScalar))
    (selection : BenchmarkSelection) : Component :=
  (componentBelow values pre).filter fun entry => !(excludedKeys pre selection).contains entry.1

/-- `a == b`: Python takes `True` for `1` and `1.0`. -/
def scalarsEqual (a b : JsonScalar) : Bool := (scalarValue a).sameScalar (scalarValue b)

/-- `a == b` of two mappings. -/
def componentsEqual (a b : Component) : Bool :=
  a.length == b.length && a.all fun entry => (lookupKey entry.1 b).any (scalarsEqual entry.2)

/-- The reference values of a component with those of the role over them. -/
def effectiveComponent (pre : Str) (shared role : List (Str × JsonScalar))
    (selection : BenchmarkSelection) : Component :=
  assignAll (procedureComponent pre role selection) (procedureComponent pre shared selection)

/-- The values of a role that differ from the reference, as `_effective_component` returns them. -/
def roleConflicts (pre : Str) (shared role : List (Str × JsonScalar))
    (selection : BenchmarkSelection) : Component :=
  (procedureComponent pre role selection).filter fun entry =>
    (lookupKey entry.1 (procedureComponent pre shared selection)).any fun value =>
      !scalarsEqual value entry.2

/-- `dict(sorted(component.items()))`. -/
def componentEvidence (component : Component) : Value :=
  Value.ofMembers ((sortBy Prod.fst component).map fun entry => (entry.1, scalarValue entry.2))

/-- `_mismatch_finding`. -/
def componentMismatch (ruleId title component : Str) (baseline candidate : Component) : Finding := {
  ruleId := ruleId
  severity := .critical
  title := title
  explanation := lit "The represented baseline and candidate " ++ component ++
    lit " components differ, so their metric values are not directly comparable."
  evidence := [("component", .str component), ("baseline", componentEvidence baseline),
    ("candidate", componentEvidence candidate)]
  impact := .invalidates }

/-- `_procedure_insufficient`. -/
def procedureInsufficient (component : Str) : Finding := {
  ruleId := "BENCHMARK.PROCEDURE_INSUFFICIENT"
  severity := .warning
  title := "Benchmark measurement procedure is incomplete"
  explanation := lit "Required " ++ component ++
    lit " evidence could not be independently recovered from the passive benchmark inputs."
  evidence := [("component", .str component)]
  impact := .insufficient }

/-- One row of `comparisons`. -/
structure ComponentComparison where
  pre : Str
  ruleId : Str
  title : Str

def COMPARISONS : List ComponentComparison := [
  ⟨"benchmark.workload", "BENCHMARK.WORKLOAD_MISMATCH", "Benchmark workload changed"⟩,
  ⟨"benchmark.measurement_config", "BENCHMARK.CONFIG_MISMATCH",
    "Benchmark measurement configuration changed"⟩,
  ⟨"benchmark.run_protocol", "BENCHMARK.CONFIG_MISMATCH", "Benchmark run protocol changed"⟩,
  ⟨"benchmark.environment", "BENCHMARK.CONFIG_MISMATCH", "Benchmark environment changed"⟩,
  ⟨"benchmark.evaluator", "BENCHMARK.CONFIG_MISMATCH", "Benchmark evaluator changed"⟩,
  ⟨"measurement.metric_identity", "BENCHMARK.METRIC_MISMATCH",
    "Measured metric identity changed"⟩]

/-- The projections of the three evidence tuples. -/
structure BenchmarkConfigs where
  baseline : List (Str × JsonScalar)
  candidate : List (Str × JsonScalar)
  reference : List (Str × JsonScalar)

def BenchmarkConfigs.role (configs : BenchmarkConfigs) : Arm → List (Str × JsonScalar)
  | .baseline => configs.baseline
  | .candidate => configs.candidate

section Protocol

variable (configs : BenchmarkConfigs) (selection : BenchmarkSelection)

/-- The effective component of a role. -/
def BenchmarkConfigs.effective (role : Arm) (pre : Str) : Component :=
  effectiveComponent pre configs.reference (configs.role role) selection

def BenchmarkConfigs.conflicts (role : Arm) (pre : Str) : Component :=
  roleConflicts pre configs.reference (configs.role role) selection

/-- What is found about a role against the reference. -/
def referenceFindings (row : ComponentComparison) (role : Arm) : List Finding :=
  let conflicts := configs.conflicts selection role row.pre
  let reference := procedureComponent row.pre configs.reference selection
  if conflicts = [] then []
  else [componentMismatch row.ruleId row.title (row.pre ++ lit "." ++ role.text ++ lit "_reference")
    (reference.filter fun entry => (lookupKey entry.1 conflicts).isSome) conflicts]

/-- What is found about one prefix; a side without any value is not compared. -/
def componentFindings (row : ComponentComparison) : List Finding :=
  let baseline := configs.effective selection .baseline row.pre
  let candidate := configs.effective selection .candidate row.pre
  referenceFindings configs selection row .baseline ++
    referenceFindings configs selection row .candidate ++
    (if baseline ≠ [] ∧ candidate ≠ [] ∧ componentsEqual baseline candidate = false then
      [componentMismatch row.ruleId row.title row.pre baseline candidate] else [])

def protocolVerified : Finding := {
  ruleId := "BENCHMARK.PROTOCOL_VERIFIED"
  severity := .verified
  title := "Benchmark measurement protocol is comparable"
  explanation := lit "The independently recovered baseline, candidate, and shared reference " ++
    lit "measurement components are compatible under the selected fixed Benchmark profile policy."
  evidence := [("profile_id", .str "BENCHMARK_MEASUREMENT_V0"),
    ("variant", .str selection.variant.value),
    ("activation_policy_id", .str selection.variant.activation)]
  impact := .none }

/-- The names of the measured metrics, each once. -/
def metricIdentities (evidence : List BenchmarkEvidence) : List Str :=
  ((benchmarkObservations evidence).filterMap fun observation =>
    observation.metric.map Prod.fst).dedup

/-- The two roles measure one and the same metric. -/
def sameMetricIdentity (baseline candidate : List BenchmarkEvidence) : Bool :=
  match metricIdentities baseline, metricIdentities candidate with
  | [m], [n] => m == n
  | _, _ => false

/-- The comparison of all components; every finding of a component sets `protocol_mismatch`. -/
def protocolFindings (baseline candidate : List BenchmarkEvidence) : List Finding :=
  let findings := COMPARISONS.flatMap (componentFindings configs selection)
  findings ++ (if sameMetricIdentity baseline candidate ∧ findings = [] then
    [protocolVerified selection] else [])

end Protocol

/-! ### Results -/

/-- The seed as a native seed. -/
def nativeSeed : Option Seed → Option Int
  | some (.int n) => some n
  | _ => none

/-- The runs that represent the metric. -/
def metricRuns (evidence : List BenchmarkEvidence) (metric : Str) : List (Binary64 × Option Int) :=
  (benchmarkObservations evidence).filterMap fun observation =>
    match observation.metric with
    | some (name, value) =>
      if name = metric then some (value, nativeSeed observation.seed) else none
    | none => none

def otherMetrics (evidence : List BenchmarkEvidence) (metric : Str) : List Str :=
  (metricIdentities evidence).filter fun name => name ≠ metric

def metricMismatch (rt : Runtime) (role : Arm) (metric : Str) (mismatches : List Str) : Finding := {
  ruleId := "BENCHMARK.METRIC_MISMATCH"
  severity := .critical
  title := role.title ++ lit " measured metric does not match the claim"
  explanation := lit "The claim asserts " ++ rt.repr metric ++ lit ", while the selected " ++
    role.text ++ lit " evidence represents a different metric identity."
  evidence := [("role", .str role.text), ("claim_metric", .str metric),
    ("represented_metrics", strValues (sortBy id mismatches))]
  impact := .invalidates }

/-- `_raw_results`. -/
def rawResults (rt : Runtime) (evidence : List BenchmarkEvidence) (metric : Str) (role : Arm) :
    Option LoadedResults × List Finding :=
  let runs := metricRuns evidence metric
  let mismatches := otherMetrics evidence metric
  let findings := if mismatches = [] then [] else [metricMismatch rt role metric mismatches]
  if runs = [] then
    (none, findings ++ [procedureInsufficient (role.text ++ lit " result values")])
  else
    (some ⟨(evidence.head?.map BenchmarkEvidence.path).getD (lit "<" ++ role.text ++
      lit "-benchmark>"), runs.map Prod.fst, runs.map Prod.snd, none⟩, findings)

/-- `_single_metric_value`. -/
def singleMetricValue (rt : Runtime) (evidence : List BenchmarkEvidence) (metric : Str)
    (role : Arm) : Option Binary64 × List Finding :=
  match rawResults rt evidence metric role with
  | (none, findings) => (none, findings)
  | (some loaded, findings) =>
    match loaded.values with
    | [value] => (some value, findings)
    | _ => (none, findings ++ [procedureInsufficient (role.text ++ lit " aggregate scalar")])

/-- `_required_value`. -/
def requiredValue (values : List (Str × JsonScalar)) (key : Str) : Except Error JsonScalar :=
  match lookupKey key values with
  | none => .error (.claimCI (lit "required benchmark component '" ++ key ++ lit "' is missing"))
  | some value => .ok value

/-- The integer of a text of ASCII digits or of an integer. -/
def countOf : JsonScalar → Option Int
  | some (.int n) => some n
  | some (.str s) =>
    match spanDigits s with
    | (first :: digits, []) => some (digitsValue (first :: digits))
    | _ => none
  | _ => none

/-- `_positive_integer`. -/
def positiveInteger (value : JsonScalar) (label : Str) : Except Error Int :=
  match countOf value with
  | some n =>
    if n < 1 ∨ 2 ^ 63 - 1 < n then .error (.claimCI (label ++ lit " must be a positive integer"))
    else .ok n
  | none => .error (.claimCI (label ++ lit " must be a positive integer"))

/-- The identity of a statistic or an aggregation. -/
def checkIdentity (label identity : Str) : Except Error Unit :=
  rejectIf (!Measurement.boundedText 256 true identity)
    (.claimCI (lit "aggregate " ++ label ++ lit " identity is invalid"))

/-- `check_reported_aggregates`, of finite values. -/
def checkReportedAggregates (baselineValue candidateValue : Binary64)
    (baselineCount candidateCount : Int) (statistic aggregation metric : Str)
    (minimumImprovement : Binary64) (direction : Direction) : Except Error ResultCheck := do
  -- counts go up to the largest signed 64-bit integer
  rejectIf (baselineCount < 1 || 2 ^ 63 - 1 < baselineCount)
    (.claimCI "baseline aggregate sample count must be positive")
  rejectIf (candidateCount < 1 || 2 ^ 63 - 1 < candidateCount)
    (.claimCI "candidate aggregate sample count must be positive")
  checkIdentity "statistic" statistic
  checkIdentity "aggregation" aggregation
  let baselineSummary : MetricSummary := ⟨baselineCount.toNat, baselineValue, none⟩
  let candidateSummary : MetricSummary := ⟨candidateCount.toNat, candidateValue, none⟩
  let (absolute, relative, claimFinding) ← metricSummaryComparison baselineSummary
    candidateSummary metric minimumImprovement direction
  let verified : Finding := {
    ruleId := "RESULT.AGGREGATE_VERIFIED"
    severity := .verified
    title := lit "Reported " ++ metric ++ lit " aggregate loaded successfully"
    explanation := lit "ClaimCI compared the exact represented aggregate values without " ++
      lit "reinterpreting them as raw runs."
    evidence := [("statistic", .str statistic), ("aggregation", .str aggregation),
      ("baseline", summaryEvidence baselineSummary),
      ("candidate", summaryEvidence candidateSummary)]
    impact := .none }
  pure ⟨baselineSummary, candidateSummary, absolute, relative, [verified, claimFinding]⟩

/-- What the comparison of the results adds to the audit. -/
structure ResultOutcome where
  findings : List Finding
  checked : Option ResultCheck

/-- `_append_result_check`. -/
def ResultOutcome.ofCheck (findings : List Finding) (checked : ResultCheck) : ResultOutcome :=
  ⟨findings ++ checked.findings, some checked⟩

section Forms

variable (rt : Runtime) (claim : AuditClaimSpec) (threshold : Binary64)
  (baseline candidate : List BenchmarkEvidence)

/-- `RAW_RUN_SERIES`. -/
def rawRunSeries : Except BenchmarkError ResultOutcome :=
  let baselineResults := rawResults rt baseline claim.metric .baseline
  let candidateResults := rawResults rt candidate claim.metric .candidate
  let findings := baselineResults.2 ++ candidateResults.2
  match baselineResults.1, candidateResults.1 with
  | some baselineLoaded, some candidateLoaded =>
    match checkResults baselineLoaded candidateLoaded claim.metric threshold claim.direction with
    | .error error => .error (.raised error)
    | .ok checked => .ok (.ofCheck findings checked)
  | _, _ => .ok ⟨findings, none⟩

/-- The checked metadata of reported aggregates and their comparison. -/
def compareAggregates (configs : BenchmarkConfigs)
    (baselineValue candidateValue : Option Binary64) : Except Error ResultCheck := do
  let baselineSamples ← requiredValue configs.baseline "benchmark.run_protocol.sample_count"
  let baselineCount ← positiveInteger baselineSamples "baseline aggregate sample count"
  let candidateSamples ← requiredValue configs.candidate "benchmark.run_protocol.sample_count"
  let candidateCount ← positiveInteger candidateSamples "candidate aggregate sample count"
  let statistic ← requiredValue configs.baseline "benchmark.run_protocol.statistic"
  let aggregation ← requiredValue configs.baseline "benchmark.run_protocol.aggregation"
  match statistic, aggregation, baselineValue, candidateValue with
  | some (.str statistic), some (.str aggregation), some baselineNumber, some candidateNumber =>
    checkReportedAggregates baselineNumber candidateNumber baselineCount candidateCount statistic
      aggregation claim.metric threshold claim.direction
  | some (.str _), some (.str _), _, _ => .error (.claimCI "aggregate scalar is unavailable")
  | _, _, _, _ => .error (.claimCI "aggregate identities must be exact text")

/-- `REPORTED_AGGREGATE`. -/
def reportedAggregate (configs : BenchmarkConfigs) : Except BenchmarkError ResultOutcome :=
  let baselineValue := singleMetricValue rt baseline claim.metric .baseline
  let candidateValue := singleMetricValue rt candidate claim.metric .candidate
  let findings := baselineValue.2 ++ candidateValue.2
  match compareAggregates claim threshold configs baselineValue.1 candidateValue.1 with
  | .ok checked => .ok (.ofCheck findings checked)
  | .error (.claimCI _) =>
    .ok ⟨findings ++ [procedureInsufficient "reported aggregate metadata"], none⟩
  | .error error => .error (.raised error)

end Forms

/-- The context of the product. -/
def DERIVATION_CONTEXT : DecimalContext := ⟨40, 999999, -999999⟩

section Derivation

variable (digit : CodePoint → Option Digit) (rt : Runtime) (claim : AuditClaimSpec)

/-- `_decimal`. -/
def exactDecimal (value : JsonScalar) (label : Str) : Except Error Decimal :=
  match profileDecimal digit value with
  | none => .error (.claimCI (label ++ lit " must be a finite decimal"))
  | some number => .ok number

/-- The operands of the fixed formula. -/
def derivationOperands (role : Arm) (config : List (Str × JsonScalar)) :
    Except Error (Decimal × Decimal) := do
  let family ← requiredValue config "benchmark.evaluator.formula_family"
  rejectIf (!scalarsEqual family (some (.str "multiply_v1")))
    (.claimCI "deterministic formula family is unsupported")
  let unitValue ← requiredValue config UNIT_VALUE
  let unit ← exactDecimal digit unitValue (role.text ++ lit " unit value")
  let quantityValue ← requiredValue config QUANTITY
  let quantity ← exactDecimal digit quantityValue (role.text ++ lit " quantity")
  pure (unit, quantity)

def derivationMismatch (role : Arm) (represented recomputed : Binary64) : Finding := {
  ruleId := "BENCHMARK.DERIVATION_MISMATCH"
  severity := .critical
  title := role.title ++ lit " deterministic derivation does not match"
  explanation := lit "ClaimCI recomputed the fixed multiply_v1 formula from exact passive " ++
    lit "inputs and obtained a different value."
  evidence := [("role", .str role.text), ("formula_family", .str "multiply_v1"),
    ("represented", .float represented), ("recomputed", .float recomputed)]
  impact := .invalidates }

def derivationInsufficient (role : Arm) : Finding :=
  procedureInsufficient (role.text ++ lit " deterministic derivation")

/-- The derivation of one role: what is found, and the recomputed value. -/
def deriveRole (role : Arm) (config : List (Str × JsonScalar))
    (evidence : List BenchmarkEvidence) : Except BenchmarkError (List Finding × Option Binary64) :=
  match derivationOperands digit role config with
  -- an expected error is a finding, any other escapes
  | .error (.claimCI _) => .ok ([derivationInsufficient role], none)
  | .error error => .error (.raised error)
  | .ok (unit, quantity) =>
    match DERIVATION_CONTEXT.mul unit quantity with
    -- the product is out of the range of the decimal context, which raises
    | none => .error .overflow
    | some product =>
      match Binary64.ofDecimal product with
      | none => .ok ([derivationInsufficient role], none)
      | some recomputed =>
        let represented := singleMetricValue rt evidence claim.metric role
        match represented.1 with
        -- without one represented value there is nothing to compare the product with
        | none => .ok (represented.2 ++ [derivationInsufficient role], none)
        | some value =>
          .ok (represented.2 ++
            (if value.toDecimal.eq product then [] else [derivationMismatch role value recomputed]),
            some recomputed)

/-- `DETERMINISTIC_DERIVATION`. -/
def deterministicDerivation (threshold : Binary64) (baseline candidate : List BenchmarkEvidence)
    (configs : BenchmarkConfigs) : Except BenchmarkError ResultOutcome := do
  let baselineDerived ← deriveRole digit rt claim .baseline configs.baseline baseline
  let candidateDerived ← deriveRole digit rt claim .candidate configs.candidate candidate
  let findings := baselineDerived.1 ++ candidateDerived.1
  match baselineDerived.2, candidateDerived.2 with
  | some baselineValue, some candidateValue =>
    match checkReportedAggregates baselineValue candidateValue 1 1 "deterministic_derivation"
        "multiply_v1" claim.metric threshold claim.direction with
    | .error error => .error (.raised error)
    | .ok checked => .ok (.ofCheck findings checked)
  | _, _ => .ok ⟨findings, none⟩

end Derivation

/-! ### The measurement companion -/

/-- A source snapshot, as the benchmark reads it. -/
structure BenchmarkSource where
  sourceSnapshotId : Str
  bindingIds : List Str
  bounded : bindingIds ≠ [] ∧ bindingIds.length ≤ 16
  distinct : bindingIds.Nodup

structure BenchmarkMeasurementContext where
  baselineSource : BenchmarkSource
  candidateSource : BenchmarkSource
  policyId : Str

/-- The component that a kind is recovered from, and whether it is required. -/
def MeasurementComponentKind.benchmarkComponent :
    MeasurementComponentKind → Option (Str × Bool)
  | metric => some ("measurement.metric_identity", true)
  | evaluationDataset => some ("benchmark.workload", true)
  | evaluationConfig => some ("benchmark.measurement_config", true)
  | evaluatorImplementation => some ("benchmark.evaluator", false)
  | retryAggregation => some ("benchmark.run_protocol", true)
  | benchmarkVersion => some ("benchmark.environment", false)
  | _ => none

/-- `tuple(MeasurementComponentKind)`. -/
def MEASUREMENT_KINDS : List MeasurementComponentKind :=
  [.metric, .evaluatorImplementation, .evaluationDataset, .evaluationConfig, .promptTemplate,
    .decodingParameters, .testSelection, .retryAggregation, .normalizationPostprocessing,
    .benchmarkVersion]

/-- The fields of a component, unless one of its values is null. -/
def componentScalars (component : Component) : Option Scalars :=
  component.mapM fun entry => entry.2.map fun scalar => (entry.1, scalar)

/-- The values a kind is recovered from. -/
def representedValues (metric : Str) (kind : MeasurementComponentKind) (component : Component) :
    Option Scalars :=
  let values := componentScalars component
  if kind = .metric then values.map fun fields => assignAll fields [(lit "name", .str metric)]
  else values

/-- `_recover_benchmark_protocol`, with the effective components of a role; an empty one is
absent. -/
def recoverBenchmarkProtocol (rt : Runtime) (policyId : Str) (source : BenchmarkSource)
    (metric : Str) (components : Str → Component) : Except Error MeasurementProtocolIdentity :=
  if Measurement.boundedText 256 true metric = false then
    .error (measurementError "measurement metric must be bounded canonical text")
  else
    .ok (protocolFromComponents rt policyId ⟨source.sourceSnapshotId, ⟨[], [], []⟩⟩
      (MEASUREMENT_KINDS.map fun kind =>
        match kind.benchmarkComponent with
        | none => componentFromValues kind none (sortBy id source.bindingIds) false
        | some (pre, required) =>
          componentFromValues kind (representedValues metric kind (components pre))
            (sortBy id source.bindingIds) required))

/-- `_represented_metric_identity`. -/
def representedMetricIdentity (evidence : List BenchmarkEvidence) (role : Arm) :
    Except Error Str :=
  match metricIdentities evidence with
  | [metric] => .ok metric
  | _ => .error (.claimCI (role.text ++
      lit " benchmark evidence has no single measured metric identity"))

/-- The measurement drift of the audit. -/
def benchmarkDrift (rt : Runtime) (context : BenchmarkMeasurementContext)
    (configs : BenchmarkConfigs) (selection : BenchmarkSelection)
    (baseline candidate : List BenchmarkEvidence) (findings : List Finding) :
    Except Error MeasurementDriftReport := do
  let baselineMetric ← representedMetricIdentity baseline .baseline
  let candidateMetric ← representedMetricIdentity candidate .candidate
  let baselineProtocol ← recoverBenchmarkProtocol rt context.policyId context.baselineSource
    baselineMetric (configs.effective selection .baseline)
  let candidateProtocol ← recoverBenchmarkProtocol rt context.policyId context.candidateSource
    candidateMetric (configs.effective selection .candidate)
  compareMeasurementProtocols rt baselineProtocol candidateProtocol
    (findings.map fun finding => finding.ruleId)

/-! ### The audit -/

structure BenchmarkAudit where
  result : AuditResult
  measurementDrift : Option MeasurementDriftReport

section Audit

variable (digit : CodePoint → Option Digit) (rt : Runtime) (claim : AuditClaimSpec)
  (selection : BenchmarkSelection) (baseline candidate reference : List BenchmarkEvidence)

/-- The three projections. -/
def projectConfigs : Except BenchmarkError BenchmarkConfigs := do
  let baselineConfig ← configProjection digit baseline
  let candidateConfig ← configProjection digit candidate
  let referenceConfig ← configProjection digit reference
  pure ⟨baselineConfig, candidateConfig, referenceConfig⟩

/-- The result form of the selection decides what is compared. -/
def compareResults (threshold : Binary64) (configs : BenchmarkConfigs) :
    Except BenchmarkError ResultOutcome :=
  match selection.resultForm with
  | some .rawRunSeries => rawRunSeries rt claim threshold baseline candidate
  | some .reportedAggregate => reportedAggregate rt claim threshold baseline candidate configs
  | some .deterministicDerivation =>
    deterministicDerivation digit rt claim threshold baseline candidate configs
  | none => .ok ⟨[], none⟩

/-- The drift where a measurement context is given. -/
def measureDrift (context : Option BenchmarkMeasurementContext) (configs : BenchmarkConfigs)
    (findings : List Finding) : Except BenchmarkError (Option MeasurementDriftReport) :=
  match context with
  | none => .ok none
  | some context =>
    match benchmarkDrift rt context configs selection baseline candidate findings with
    | .error error => .error (.raised error)
    | .ok report => .ok (some report)

/-- `audit_benchmark`. -/
def auditBenchmark (context : Option BenchmarkMeasurementContext) :
    Except BenchmarkError BenchmarkAudit :=
  if selection.complete = false then
    .error (.raised (.claimCI "Benchmark Audit requires a complete evidence profile"))
  else
    match claim.minimumAbsoluteImprovement with
    | none => .error (.raised (.claimCI
        "Benchmark Audit requires an absolute improvement threshold"))
    | some threshold => do
      -- the projections raise before anything is compared
      let configs ← projectConfigs digit baseline candidate reference
      let results ← compareResults digit rt claim selection baseline candidate threshold configs
      let findings := protocolFindings configs selection baseline candidate ++ results.findings
      let drift ← measureDrift rt selection baseline candidate context configs findings
      pure ⟨{
        verdict := determineVerdict findings
        findings := findings
        manifestPath := "."
        metric := claim.metric
        minimumImprovement := threshold
        baselineMetrics := results.checked.map ResultCheck.baselineSummary
        candidateMetrics := results.checked.map ResultCheck.candidateSummary
        absoluteImprovement := results.checked.map ResultCheck.absoluteImprovement
        relativeImprovement := results.checked.bind ResultCheck.relativeImprovement
        overlaps := []
        direction := claim.direction }, drift⟩

end Audit

end ClaimCI
