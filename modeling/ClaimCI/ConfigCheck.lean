import ClaimCI.Parsing

/-!
# Config check

Configuration loading and fairness checks. Unknown fields are preserved by `loadConfig`, but only
the supported paths participate in fairness findings.
-/

open Python

namespace ClaimCI

/-- The entries of a mapping read from a YAML file. -/
abbrev Config := List (Value × Value)

/-- `_COMPUTE_RATIO_THRESHOLD`. -/
def COMPUTE_RATIO_THRESHOLD : Decimal := ⟨false, 15, -1⟩

def loadConfig (rt : Runtime) (path : Str) : Except Error Config :=
  let unable (text : Str) : Error :=
    .claimCI (lit "Unable to load config " ++ path ++ lit ": " ++ text)
  match rt.readText path with
  | .error .notFound => .error (unable (lit "[Errno 2] No such file or directory: " ++ rt.repr path))
  | .error (.unreadable text) => .error (unable text)
  | .error (.undecodable text) => .error (unable text)
  | .ok source =>
    match rt.loadUniqueYaml source with
    | .error error => .error (unable error.text)
    | .ok (.dict entries) => .ok entries
    | .ok _ => .error (.claimCI (lit "Config root must be a mapping: " ++ path))

/-- `_value`: a supported nested path, where `none` is a missing value and `Value.none` is null. -/
def valueAt (config : Config) : List Str → Option Value
  | [] => some (.dict config)
  | [part] => Value.get part config
  | part :: path =>
    match Value.get part config with
    | some (.dict entries) => valueAt entries path
    | _ => none

/-- `_decimal_number`: a finite number, excluding booleans. -/
def decimalNumber : Value → Option Decimal
  | .int n => (intText n).map fun _ => Decimal.ofInt n
  | .float x => some x.toDecimal
  | _ => none

/-- `_positive_number`, on a value that may be missing. -/
def positiveNumber (value : Option Value) : Option Decimal :=
  match value.bind decimalNumber with
  | none => none
  | some d => if (Decimal.ofNat 0).lt d then some d else none

/-- `_present_scalar`. -/
def presentScalar : Option Value → Bool
  | some (.str s) => !isBlank s
  | some value => (decimalNumber value).isSome
  | none => false

/-- The identity fields every config declares. -/
def IDENTITY_PATHS : List (List Str) :=
  [["dataset", "identifier"], ["dataset", "version"], ["evaluation", "dataset_identifier"],
    ["evaluation", "dataset_version"], ["evaluation", "split"], ["model"]]

def COMPUTE_FIELDS : List Str := ["training_steps", "epochs", "batch_size"]

def missingOrInvalidFields (config : Config) : List Str :=
  (COMPUTE_FIELDS.filter fun field => (positiveNumber (valueAt config [field])).isNone) ++
  (IDENTITY_PATHS.filter fun path => !presentScalar (valueAt config path)).map
    (List.intercalate (lit ".")) ++
  (if (positiveNumber (valueAt config ["learning_rate"])).isNone then [lit "learning_rate"] else [])

def evaluationMappingComplete (config : Config) : Bool :=
  match valueAt config ["evaluation"] with
  | some (.dict evaluation) =>
    [lit "dataset_identifier", lit "dataset_version", lit "split"].all fun field =>
      presentScalar (Value.get field evaluation)
  | _ => false

/-- `_multiply_exact`: the precision holds every digit of the product. -/
def multiplyExact (left right : Decimal) : Decimal :=
  Decimal.mul (max 1 (digitCount left.coefficient + digitCount right.coefficient)) left right

/-- The bases compute is compared on, in order of preference. -/
inductive Basis where
  | trainingStepsBatchSize | trainingSteps | epochsBatchSize | epochs
  deriving DecidableEq, Repr

def Basis.name : Basis → Str
  | trainingStepsBatchSize => "training_steps*batch_size"
  | trainingSteps => "training_steps"
  | epochsBatchSize => "epochs*batch_size"
  | epochs => "epochs"

def BASES : List Basis :=
  [.trainingStepsBatchSize, .trainingSteps, .epochsBatchSize, .epochs]

/-- `_compute_proxies`: the proxy on one basis, where the config provides it. -/
def computeProxy (config : Config) (basis : Basis) : Option Decimal :=
  let trainingSteps := positiveNumber (valueAt config ["training_steps"])
  let epochs := positiveNumber (valueAt config ["epochs"])
  let batchSize := positiveNumber (valueAt config ["batch_size"])
  match basis with
  | .trainingStepsBatchSize => trainingSteps.bind fun steps => batchSize.map (multiplyExact steps)
  | .trainingSteps => trainingSteps
  | .epochsBatchSize => epochs.bind fun epochs => batchSize.map (multiplyExact epochs)
  | .epochs => epochs

/-- `_ratio_for_evidence`. -/
def ratioForEvidence (candidate baseline : Decimal) : Decimal :=
  candidate.div (max 50 (digitCount candidate.coefficient + digitCount baseline.coefficient + 10))
    baseline

/-- `_evidence_number`: a float where it spells the number exactly, its text otherwise. -/
def evidenceNumber : Option Decimal → Value
  | none => .none
  | some value =>
    match Binary64.ofDecimal value with
    | none => .str value.spelling.render
    | some number =>
      if number.toDecimal.eq value then .float number else .str value.spelling.render

/-- `as_integer_ratio`, in lowest terms. -/
def asIntegerRatio (d : Decimal) : Int × Nat :=
  if 0 ≤ d.exponent then (d.signed * 10 ^ d.exponent.toNat, 1)
  else
    let denominator := 10 ^ (-d.exponent).toNat
    let common := Nat.gcd d.coefficient denominator
    (d.signed / common, denominator / common)

/-- `_at_least_ratio`: the comparison is exact. -/
def atLeastRatio (candidate baseline threshold : Decimal) : Bool :=
  let c := asIntegerRatio candidate
  let b := asIntegerRatio baseline
  let t := asIntegerRatio threshold
  c.1 * b.2 * t.2 ≥ t.1 * c.2 * b.1

/-- The first basis both configs provide, with the two proxies. -/
def commonBasis (baseline candidate : Config) : Option (Basis × Decimal × Decimal) :=
  BASES.findSome? fun basis => do
    let b ← computeProxy baseline basis
    let c ← computeProxy candidate basis
    some (basis, b, c)

/-- Equality of two values read by path; a missing value equals only a missing value. -/
def sameLookup (v w : Option Value) : Bool :=
  match v, w with
  | none, none => true
  | some v, some w => v.eq w
  | _, _ => false

/-- The same, for values inside two dictionaries that are compared. -/
def sameMember (v w : Option Value) : Bool :=
  match v, w with
  | none, none => true
  | some v, some w => v.same w
  | _, _ => false

/-- A missing value is null in evidence. -/
def evidenceValue (v : Option Value) : Value := v.getD .none

/-- The evidence of a finding about one value of each config. -/
def bothSides (baseline candidate : Option Value) : Evidence :=
  [("baseline", evidenceValue baseline), ("candidate", evidenceValue candidate)]

def missingFieldsFindings (baseline candidate : Config) : List Finding :=
  let baselineIssues := missingOrInvalidFields baseline
  let candidateIssues := missingOrInvalidFields candidate
  if baselineIssues = [] ∧ candidateIssues = [] then [] else [{
    ruleId := "CONFIG.MISSING_FIELDS"
    severity := .warning
    title := "Required fairness config fields are missing or invalid"
    explanation := lit "ClaimCI cannot establish config comparability without every " ++
      lit "documented Day 1 field."
    evidence := [("baseline", strValues baselineIssues), ("candidate", strValues candidateIssues)]
    impact := .insufficient }]

/-- The candidate's proxy is at least one and a half times the baseline's. -/
def computeMismatch (baseline candidate : Config) : Bool :=
  match commonBasis baseline candidate with
  | none => false
  | some (_, b, c) => atLeastRatio c b COMPUTE_RATIO_THRESHOLD

/-- The basis, both proxies and the ratio, as evidence. -/
structure ComputeEvidence where
  basis : Value
  baselineProxy : Value
  candidateProxy : Value
  ratio : Value

def computeEvidence (baseline candidate : Config) : ComputeEvidence :=
  match commonBasis baseline candidate with
  | none => ⟨.none, .none, .none, .none⟩
  | some (basis, b, c) =>
    ⟨.str basis.name, evidenceNumber (some b), evidenceNumber (some c),
      evidenceNumber (some (ratioForEvidence c b))⟩

def computeFindings (baseline candidate : Config) : List Finding :=
  let compute := computeEvidence baseline candidate
  if computeMismatch baseline candidate then [{
    ruleId := "CONFIG.COMPUTE_MISMATCH"
    severity := .critical
    title := "Candidate compute proxy is too large"
    explanation := "The candidate compute proxy is at least 1.5x the baseline proxy."
    evidence := [("baseline_proxy", compute.baselineProxy),
      ("candidate_proxy", compute.candidateProxy), ("ratio", compute.ratio),
      ("basis", compute.basis), ("baseline_basis", compute.basis),
      ("candidate_basis", compute.basis),
      ("threshold", .float ((Binary64.ofDecimal COMPUTE_RATIO_THRESHOLD).getD
        (Binary64.zero false))),
      ("exact_threshold_comparison", .bool true)]
    impact := .invalidates }]
  else []

def evaluationFindings (baseline candidate : Config) : List Finding :=
  let evaluationBaseline := valueAt baseline ["evaluation"]
  let evaluationCandidate := valueAt candidate ["evaluation"]
  if evaluationMappingComplete baseline ∧ evaluationMappingComplete candidate ∧
      sameLookup evaluationBaseline evaluationCandidate = false then [{
    ruleId := "CONFIG.EVALUATION_MISMATCH"
    severity := .critical
    title := "Evaluation mapping differs"
    explanation := "Baseline and candidate evaluation mappings must match."
    evidence := bothSides evaluationBaseline evaluationCandidate
    impact := .invalidates }]
  else []

def trainingDatasetFindings (baseline candidate : Config) : List Finding :=
  let identifier := fun config => valueAt config ["dataset", "identifier"]
  let version := fun config => valueAt config ["dataset", "version"]
  let side := fun config => Value.ofMembers
    [("identifier", evidenceValue (identifier config)), ("version", evidenceValue (version config))]
  -- both are compared with Python's equality, a missing one with None
  if sameMember (identifier baseline) (identifier candidate) ∧
      sameMember (version baseline) (version candidate) then []
  else [{
    ruleId := "CONFIG.TRAINING_DATASET_MISMATCH"
    severity := .warning
    title := "Training dataset differs"
    explanation := lit "Training dataset identifier or version differs between " ++
      lit "baseline and candidate."
    evidence := [("baseline", side baseline), ("candidate", side candidate)]
    impact := .none }]

def trainingParameterFindings (baseline candidate : Config) : List Finding :=
  let differences := COMPUTE_FIELDS.filter fun field =>
    !sameLookup (valueAt baseline [field]) (valueAt candidate [field])
  let compute := computeEvidence baseline candidate
  -- a ratio that invalidates says it already
  if differences = [] ∨ computeMismatch baseline candidate then [] else [{
    ruleId := "CONFIG.TRAINING_PARAMETER_DIFFERENCE"
    severity := .warning
    title := "Training parameters differ"
    explanation := lit "Training steps, epochs, or batch size differ without " ++
      lit "reaching the compute invalidation threshold."
    evidence := [("differences", Value.ofMembers (differences.map fun field =>
        (field, Value.ofMembers (bothSides (valueAt baseline [field])
          (valueAt candidate [field]))))),
      ("baseline_proxy", compute.baselineProxy), ("candidate_proxy", compute.candidateProxy),
      ("ratio", compute.ratio), ("basis", compute.basis)]
    impact := .none }]

def learningRateFindings (baseline candidate : Config) : List Finding :=
  let baselineRate := valueAt baseline ["learning_rate"]
  let candidateRate := valueAt candidate ["learning_rate"]
  if sameLookup baselineRate candidateRate then [] else [{
    ruleId := "CONFIG.LEARNING_RATE_DIFFERENCE"
    severity := .warning
    title := "Learning rate differs"
    explanation := "Baseline and candidate learning rates differ."
    evidence := bothSides baselineRate candidateRate
    impact := .none }]

def modelFindings (baseline candidate : Config) : List Finding :=
  let baselineModel := valueAt baseline ["model"]
  let candidateModel := valueAt candidate ["model"]
  if sameLookup baselineModel candidateModel then [] else [{
    ruleId := "CONFIG.MODEL_DIFFERENCE"
    severity := .info
    title := "Model differs"
    explanation := "Baseline and candidate model identifiers differ."
    evidence := bothSides baselineModel candidateModel
    impact := .none }]

def fairnessVerified (baseline candidate : Config) : Finding :=
  let compute := computeEvidence baseline candidate
  { ruleId := "CONFIG.FAIRNESS_VERIFIED"
    severity := .verified
    title := "Supported config fields match"
    explanation := "All supported fairness configuration fields match."
    evidence := [("baseline_proxy", compute.baselineProxy),
      ("candidate_proxy", compute.candidateProxy), ("ratio", compute.ratio),
      ("basis", compute.basis)]
    impact := .none }

def checkConfigs (baseline candidate : Config) : List Finding :=
  let findings := missingFieldsFindings baseline candidate ++ computeFindings baseline candidate ++
    evaluationFindings baseline candidate ++ trainingDatasetFindings baseline candidate ++
    trainingParameterFindings baseline candidate ++ learningRateFindings baseline candidate ++
    modelFindings baseline candidate
  if findings = [] then [fairnessVerified baseline candidate] else findings

/-! ### Exact comparison of compute -/

private theorem signed_div_power (d : Decimal) :
    (d.signed : ℚ) * (10 : ℚ) ^ d.exponent = d.toRat := rfl

theorem asIntegerRatio_den_pos (d : Decimal) : 0 < (asIntegerRatio d).2 := by
  unfold asIntegerRatio
  split
  · exact Nat.one_pos
  · exact Nat.div_pos (Nat.le_of_dvd (by positivity) (Nat.gcd_dvd_right _ _))
      (Nat.gcd_pos_of_pos_right _ (by positivity))

theorem asIntegerRatio_value (d : Decimal) :
    ((asIntegerRatio d).1 : ℚ) / (asIntegerRatio d).2 = d.toRat := by
  unfold asIntegerRatio
  split
  next nonneg =>
    obtain ⟨k, hk⟩ := Int.eq_ofNat_of_zero_le nonneg
    rw [← signed_div_power, hk, Int.toNat_natCast, zpow_natCast]
    push_cast
    ring
  next neg =>
    obtain ⟨k, hk⟩ := Int.eq_ofNat_of_zero_le (show 0 ≤ -d.exponent by omega)
    have exponent : d.exponent = -(k : Int) := by omega
    rw [hk, Int.toNat_natCast]
    set g := Nat.gcd d.coefficient (10 ^ k) with hg
    have gpos : 0 < g := Nat.gcd_pos_of_pos_right _ (by positivity)
    have divides : (g : Int) ∣ d.signed := by
      have coefficient : (g : Int) ∣ (d.coefficient : Int) :=
        Int.natCast_dvd_natCast.mpr (Nat.gcd_dvd_left _ _)
      unfold Decimal.signed
      split
      · exact (dvd_neg).mpr coefficient
      · exact coefficient
    have gne : (g : ℚ) ≠ 0 := by positivity
    rw [Int.cast_div divides (by exact_mod_cast gne),
      Nat.cast_div (Nat.gcd_dvd_right _ _) (by exact_mod_cast gne), ← signed_div_power, exponent,
      zpow_neg, zpow_natCast, hg]
    rw [hg] at gne
    push_cast
    field_simp

/-- The compute threshold is tested exactly. -/
theorem atLeastRatio_iff (candidate baseline threshold : Decimal) (pos : 0 < baseline.toRat) :
    atLeastRatio candidate baseline threshold = true ↔
      threshold.toRat ≤ candidate.toRat / baseline.toRat := by
  have cd : (0 : ℚ) < (asIntegerRatio candidate).2 := by
    exact_mod_cast asIntegerRatio_den_pos candidate
  have bd : (0 : ℚ) < (asIntegerRatio baseline).2 := by
    exact_mod_cast asIntegerRatio_den_pos baseline
  have td : (0 : ℚ) < (asIntegerRatio threshold).2 := by
    exact_mod_cast asIntegerRatio_den_pos threshold
  have bn : (0 : ℚ) < (asIntegerRatio baseline).1 := by
    rw [← asIntegerRatio_value baseline, div_pos_iff_of_pos_right bd] at pos
    exact pos
  simp only [atLeastRatio, ge_iff_le, decide_eq_true_eq]
  rw [← asIntegerRatio_value candidate, ← asIntegerRatio_value baseline,
    ← asIntegerRatio_value threshold, div_div_div_eq, div_le_div_iff₀ td (mul_pos cd bn)]
  rw [← @Int.cast_le ℚ]
  push_cast
  constructor
  · intro h
    linarith
  · intro h
    linarith

theorem positiveNumber_pos (value : Option Value) (d : Decimal)
    (h : positiveNumber value = some d) : 0 < d.toRat := by
  unfold positiveNumber at h
  split at h
  · cases h
  · split at h
    next positive =>
      obtain rfl := Option.some.inj h
      have zero : (Decimal.ofNat 0).toRat = 0 := by simp [Decimal.ofNat, Decimal.toRat,
        Decimal.signed]
      rw [Decimal.lt_iff, zero] at positive
      exact positive
    · cases h

/-- The product is not rounded. -/
theorem multiplyExact_toRat (a b : Decimal) : (multiplyExact a b).toRat = a.toRat * b.toRat := by
  have fits : digitCount (Decimal.mulExact a b).coefficient ≤
      max 1 (digitCount a.coefficient + digitCount b.coefficient) :=
    (digitCount_mul_le _ _).trans (le_max_right _ _)
  rw [multiplyExact, Decimal.mul, Decimal.fix_of_digits _ _ fits, Decimal.toRat_mulExact]

/-- Every proxy is positive. -/
theorem computeProxy_pos (config : Config) (basis : Basis) (d : Decimal)
    (h : computeProxy config basis = some d) : 0 < d.toRat := by
  have product : ∀ v w : Option Value, ((positiveNumber v).bind fun a =>
      (positiveNumber w).map (multiplyExact a)) = some d → 0 < d.toRat := by
    intro v w h
    simp only [Option.bind_eq_some_iff, Option.map_eq_some_iff] at h
    obtain ⟨a, ha, b, hb, rfl⟩ := h
    rw [multiplyExact_toRat]
    exact mul_pos (positiveNumber_pos v a ha) (positiveNumber_pos w b hb)
  cases basis with
  | trainingStepsBatchSize => exact product _ _ h
  | trainingSteps => exact positiveNumber_pos _ d h
  | epochsBatchSize => exact product _ _ h
  | epochs => exact positiveNumber_pos _ d h

end ClaimCI
