import ClaimCI.Analysis.ConfigPaths
import ClaimCI.Measurement
import ClaimCI.Python.DecimalContext

/-!
# Benchmark profiles

The fixed fields of the benchmark profile and the scalar semantics that are recovered for them, and
the part of a profile selection that the audit reads.
-/

open Python

namespace ClaimCI

inductive BenchmarkVariant where
  | latency | throughputResource | kernel | modelQuality | cost
  deriving DecidableEq, Repr

def BenchmarkVariant.value : BenchmarkVariant → Str
  | latency => "LATENCY"
  | throughputResource => "THROUGHPUT_RESOURCE"
  | kernel => "KERNEL"
  | modelQuality => "MODEL_QUALITY"
  | cost => "COST"

/-- `activation_policy_id`. -/
def BenchmarkVariant.activation : BenchmarkVariant → Str
  | latency => "claimci.profile.benchmark-measurement.latency.v0"
  | throughputResource => "claimci.profile.benchmark-measurement.throughput_resource.v0"
  | kernel => "claimci.profile.benchmark-measurement.kernel.v0"
  | modelQuality => "claimci.profile.benchmark-measurement.model_quality.v0"
  | cost => "claimci.profile.benchmark-measurement.cost.v0"

inductive BenchmarkResultForm where
  | rawRunSeries | reportedAggregate | deterministicDerivation
  deriving DecidableEq, Repr

/-- A selection of the benchmark profile; only an incomplete one has no result form. -/
structure BenchmarkSelection where
  variant : BenchmarkVariant
  resultForm : Option BenchmarkResultForm
  complete : Bool
  formed : complete = true → resultForm.isSome = true

def BENCHMARK_PROFILE_FIELDS : List Str := [
  "benchmark.subject.id",
  "benchmark.subject.implementation",
  "benchmark.workload.id",
  "benchmark.workload.model",
  "benchmark.workload.input_shape",
  "benchmark.workload.corpus",
  "benchmark.workload.sequence_length",
  "benchmark.workload.batch_size",
  "benchmark.workload.concurrency",
  "benchmark.workload.tensor_shape",
  "benchmark.workload.dtype",
  "benchmark.workload.layout",
  "benchmark.workload.tensor_generation",
  "benchmark.workload.workload_volume",
  "benchmark.workload.token_volume",
  "benchmark.measurement_config.timing_boundary",
  "benchmark.measurement_config.measurement_window",
  "benchmark.measurement_config.memory_collection",
  "benchmark.measurement_config.network_boundary",
  "benchmark.run_protocol.result_form",
  "benchmark.run_protocol.sample_count",
  "benchmark.run_protocol.step_count",
  "benchmark.run_protocol.warmup",
  "benchmark.run_protocol.retry_policy",
  "benchmark.run_protocol.aggregation",
  "benchmark.run_protocol.statistic",
  "benchmark.run_protocol.timing_method",
  "benchmark.run_protocol.generation_seed",
  "benchmark.environment.hardware",
  "benchmark.environment.software",
  "benchmark.environment.runtime",
  "benchmark.environment.compiler",
  "benchmark.environment.region",
  "benchmark.environment.provider",
  "benchmark.environment.sku",
  "benchmark.environment.pricing_snapshot",
  "benchmark.environment.pricing_version",
  "benchmark.evaluator.id",
  "benchmark.evaluator.version",
  "benchmark.evaluator.scoring",
  "benchmark.evaluator.metric_definition",
  "benchmark.evaluator.metric_config",
  "benchmark.evaluator.normalization",
  "benchmark.evaluator.postprocessing",
  "benchmark.evaluator.formula_family",
  "benchmark.evaluator.unit_value",
  "benchmark.evaluator.quantity",
  "benchmark.evaluator.included_costs",
  "benchmark.evaluator.excluded_costs",
  "measurement.metric_identity.definition",
  "measurement.metric_identity.configuration",
  "measurement.metric_identity.version"]

def POSITIVE_INTEGER_FIELDS : List Str := [
  "benchmark.workload.sequence_length",
  "benchmark.workload.batch_size",
  "benchmark.workload.concurrency",
  "benchmark.workload.workload_volume",
  "benchmark.workload.token_volume",
  "benchmark.run_protocol.sample_count",
  "benchmark.run_protocol.step_count"]

def NONNEGATIVE_INTEGER_FIELDS : List Str := [
  "benchmark.run_protocol.warmup",
  "benchmark.run_protocol.generation_seed"]

def UNIT_VALUE : Str := "benchmark.evaluator.unit_value"

def QUANTITY : Str := "benchmark.evaluator.quantity"

def DECIMAL_FIELDS : List Str := [UNIT_VALUE, QUANTITY]

/-- The default decimal context. -/
def DEFAULT_CONTEXT : DecimalContext := ⟨28, 999999, -999999⟩

/-! ### Scalars -/

/-- The integer of a field: a canonical text or an integer; `bool` is told apart. -/
def profileInteger : JsonScalar → Option Int
  | some (.str s) =>
    match scanWhole s with
    | some (digits, []) =>
      if digits.length ≤ INT_MAX_STR_DIGITS then some (digitsValue digits) else none
    | _ => none
  | some (.int n) => some n
  | _ => none

section Digits

-- The decimal digits of every script, from the Unicode database of the interpreter.
variable (digit : CodePoint → Option Digit)

/-- `Decimal(str(value))`, where it is a finite number. -/
def profileDecimal : JsonScalar → Option Decimal
  | some (.str s) => decimalOfText digit s
  | some (.int n) => (intText n).map fun _ => Decimal.ofInt n
  | some (.float x) => some x.toDecimal
  | _ => none

/-- The text of a normalized number; every zero is written without a sign. -/
def profileDecimalText (number : Decimal) : Str :=
  if number.isZero then lit "0" else number.spelling.render

/-- `_canonical_profile_scalar`; `none` is an exception, of whatever type. -/
def canonicalProfileScalar (key : Str) (value : JsonScalar) : Option JsonScalar :=
  if POSITIVE_INTEGER_FIELDS.contains key || NONNEGATIVE_INTEGER_FIELDS.contains key then do
    let n ← profileInteger value
    let minimum : Int := if POSITIVE_INTEGER_FIELDS.contains key then 1 else 0
    if n < minimum ∨ 2 ^ 63 - 1 < n then none else some (some (.int n))
  else if DECIMAL_FIELDS.contains key then do
    let number ← profileDecimal digit value
    let canonical ← DEFAULT_CONTEXT.normalize number
    some (some (.str (profileDecimalText canonical)))
  else some value

end Digits

end ClaimCI
