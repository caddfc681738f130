import ClaimCI.Models

/-!
# Result check

Load raw experiment runs and recompute claim metrics.
-/

open Python

namespace ClaimCI

structure LoadedResults where
  path : Str
  values : List Binary64
  seeds : List (Option Int)
  claimedSummary : Option Binary64

structure ResultCheck where
  baselineSummary : MetricSummary
  candidateSummary : MetricSummary
  absoluteImprovement : Binary64
  relativeImprovement : Option Binary64
  findings : List Finding

/-- `_finite_number`, on a decoded JSON value. -/
def finiteNumber : Json → Option Binary64
  | .int n => Binary64.ofInt n
  | .float x => some x
  | _ => none

/-- `_finite_float`. -/
def finiteFloat (value : Decimal) (label : Str) : Except Error Binary64 :=
  match Binary64.ofDecimal value with
  | none => .error (.claimCI (label ++ lit " must be finite"))
  | some number => .ok number

/-- The precision of the default decimal context. -/
def DEFAULT_PRECISION : Nat := 28

/-! ### Loading -/

/-- How results files are named in errors. -/
def resultsFile (path : Str) : Str := lit "results file " ++ path

/-- The metric value and the seed of one run. -/
def loadRun (rt : Runtime) (path metric : Str) (index : Nat) (run : Json) :
    Except Error (Binary64 × Option Int) :=
  let prefixText := resultsFile path ++ lit " run " ++ natText index
  match run with
  | .object members =>
    match lookupKey metric members with
    | none => .error (.claimCI (prefixText ++ lit " is missing metric " ++ rt.repr metric))
    | some raw =>
      match finiteNumber raw with
      | none =>
        .error (.claimCI (prefixText ++ lit " metric " ++ rt.repr metric ++ lit " must be finite"))
      | some value =>
        match lookupKey "seed" members with
        | some (.int seed) => .ok (value, some seed)
        | _ => .ok (value, none)
  | _ => .error (.claimCI (prefixText ++ lit " must be an object"))

def loadRuns (rt : Runtime) (path metric : Str) :
    Nat → List Json → Except Error (List (Binary64 × Option Int))
  | _, [] => .ok []
  | index, run :: runs => do
    let first ← loadRun rt path metric index run
    let rest ← loadRuns rt path metric (index + 1) runs
    .ok (first :: rest)

/-- The mean a results file declares for the metric. -/
def loadClaimedSummary (rt : Runtime) (path metric : Str) (payload : Members) :
    Except Error (Option Binary64) :=
  match lookupKey "summary" payload with
  | none => .ok none
  | some .null => .ok none
  | some (.object summary) =>
    let claimed := match lookupKey metric summary with
      | some value => some value
      | none => lookupKey "mean" summary
    match claimed with
    | none => .ok none
    | some .null => .ok none
    | some value =>
      match finiteNumber value with
      | some number => .ok (some number)
      | none => .error (.claimCI (resultsFile path ++ lit " claimed summary for " ++
          rt.repr metric ++ lit " must be finite"))
  | some _ =>
    .error (.claimCI (resultsFile path ++ lit " summary must be an object"))

/-! ### Summaries -/

/-- The mean of the decimal spellings, at a precision that keeps every digit of each. -/
def decimalMean (values : List Binary64) : Decimal :=
  let decimals := values.map Binary64.toDecimal
  let digits := decimals.map fun d => digitCount d.coefficient
  let precision :=
    max 28 (digits.foldr max 0 + (decimalDigits decimals.length).length + 4)
  (Decimal.sum precision decimals).div precision (Decimal.ofNat decimals.length)

def summarizeRuns (values : List Binary64) : Except Error MetricSummary :=
  let overflow (text : String) : Error :=
    .claimCI (lit "could not compute finite summary statistics: " ++ lit text)
  if values = [] then .error (.claimCI "cannot summarize an empty run list")
  else
    match fmean values with
    | none => .error (overflow "intermediate overflow in fsum")
    | some _ => do
      let mean ← finiteFloat (decimalMean values) "summary mean"
      if 2 ≤ values.length then
        match stdev values with
        | none => .error (overflow "integer division result too large for a float")
        | some deviation => .ok ⟨values.length, mean, some deviation⟩
      else .ok ⟨values.length, mean, none⟩

def readResults (rt : Runtime) (path : Str) : Except Error Str :=
  match rt.readText path with
  | .ok raw => .ok raw
  | .error .notFound => .error (.claimCI (lit "results file not found: " ++ path))
  | .error (.undecodable text) =>
    .error (.claimCI (lit "could not decode " ++ resultsFile path ++ lit ": " ++ text))
  | .error (.unreadable text) =>
    .error (.claimCI (lit "could not read " ++ resultsFile path ++ lit ": " ++ text))

/-- The members of the object a results file holds. -/
def parseResults (rt : Runtime) (path raw : Str) : Except Error Members :=
  let invalid (text : Str) : Error :=
    .claimCI (lit "invalid JSON in " ++ resultsFile path ++ lit ": " ++ text)
  match loads strictLoad raw with
  | none => .error (invalid (rt.jsonErrorText raw))
  | some payload =>
    match validateJsonGraph payload (lit "results JSON " ++ path) with
    | .error error => .error (invalid error.text)
    | .ok () =>
      match payload with
      | .object members => .ok members
      | _ => .error (.claimCI (resultsFile path ++ lit " must contain a JSON object"))

def declaredRuns (path : Str) (payload : Members) : Except Error (List Json) :=
  match lookupKey "runs" payload with
  | some (.array (run :: runs)) => .ok (run :: runs)
  | _ => .error (.claimCI (resultsFile path ++ lit " must contain a non-empty runs list"))

def loadResults (rt : Runtime) (path metric : Str) : Except Error LoadedResults := do
  let raw ← readResults rt path
  let payload ← parseResults rt path raw
  let runs ← declaredRuns path payload
  let loaded ← loadRuns rt path metric 1 runs
  let claimed ← loadClaimedSummary rt path metric payload
  let _ ← summarizeRuns (loaded.map Prod.fst)
  match rt.resolve path with
  | .error text =>
    .error (.claimCI (lit "could not resolve " ++ resultsFile path ++ lit ": " ++ text))
  | .ok resolved => .ok ⟨resolved, loaded.map Prod.fst, loaded.map Prod.snd, claimed⟩

/-! ### Findings -/

/-- An optional float as evidence. -/
def optionValue : Option Binary64 → Value
  | none => .none
  | some x => .float x

def summaryEvidence (summary : MetricSummary) : Value :=
  Value.ofMembers [("count", countValue summary.count), ("mean", .float summary.mean),
    ("standard_deviation", optionValue summary.standardDeviation)]

def summaryMismatchFinding (arm : Arm) (loaded : LoadedResults) (summary : MetricSummary) :
    Option Finding :=
  match loaded.claimedSummary with
  | none => none
  | some claimed =>
    if claimed.toDecimal.eq summary.mean.toDecimal then none
    else some {
      ruleId := "RESULT.SUMMARY_MISMATCH"
      severity := .critical
      title := arm.title ++ lit " claimed summary does not match raw runs"
      explanation := lit "The " ++ arm.text ++ lit " summary reports " ++ formatGeneral 6 claimed ++
        lit ", but the raw-run mean recomputes to " ++ formatGeneral 6 summary.mean ++ lit "."
      evidence := [("experiment", .str arm.text), ("claimed", .float claimed),
        ("recomputed", .float summary.mean)]
      impact := .invalidates }

/-- The positions, counted from one, of the runs without a seed. -/
def missingIndices (seeds : List (Option Int)) : List Nat :=
  ((seeds.zipIdx 1).filter fun s => s.1.isNone).map Prod.snd

/-- The seeds that occur more than once, each listed once, in ascending order. -/
def duplicateSeeds (seeds : List (Option Int)) : List Int :=
  let present := seeds.filterMap id
  (present.dedup.filter fun seed => 1 < present.count seed).insertionSort (· ≤ ·)

def seedFindings (arm : Arm) (loaded : LoadedResults) : List Finding :=
  let missing := missingIndices loaded.seeds
  let duplicates := duplicateSeeds loaded.seeds
  (if missing = [] then [] else [{
    ruleId := "SEED.MISSING_METADATA"
    severity := .warning
    title := arm.title ++ lit " has missing seed metadata"
    explanation := "Every raw run needs an integer seed to establish independent evidence."
    evidence := [("experiment", .str arm.text), ("run_indices", .list (missing.map countValue))]
    impact := .insufficient }]) ++
  (if duplicates = [] then [] else [{
    ruleId := "SEED.DUPLICATE"
    severity := .warning
    title := arm.title ++ lit " repeats seed metadata"
    explanation := "Repeated seeds do not constitute independent runs."
    evidence := [("experiment", .str arm.text), ("duplicate_seeds", .list (duplicates.map .int))]
    impact := .insufficient }]) ++
  (if loaded.values.length = 1 then [{
    ruleId := "SEED.SINGLE_RUN"
    severity := .warning
    title := arm.title ++ lit " has only one run"
    explanation := "A single run cannot provide a sample standard deviation."
    evidence := [("experiment", .str arm.text), ("run_count", countValue 1)]
    impact := .insufficient }] else [])

/-- The directed difference of the two means, in the default decimal context. -/
def absoluteDecimal (direction : Direction) (baseline candidate : Decimal) : Decimal :=
  match direction with
  | .higher => candidate.sub DEFAULT_PRECISION baseline
  | .lower => baseline.sub DEFAULT_PRECISION candidate

/-- The improvement relative to the baseline, where it is a finite float. -/
def relativeImprovement (absolute baseline : Decimal) : Option Binary64 :=
  if baseline.isZero then none
  else Binary64.ofDecimal (absolute.div DEFAULT_PRECISION (baseline.abs.fix DEFAULT_PRECISION))

def metricSummaryComparison (baseline candidate : MetricSummary) (metric : Str)
    (minimumImprovement : Binary64) (direction : Direction) :
    Except Error (Binary64 × Option Binary64 × Finding) := do
  let baselineDecimal := baseline.mean.toDecimal
  let candidateDecimal := candidate.mean.toDecimal
  if minimumImprovement.lt (Binary64.zero false) then
    .error (.claimCI "minimum improvement must be a finite non-negative number")
  else
    let threshold := minimumImprovement.toDecimal
    let absolute := absoluteDecimal direction baselineDecimal candidateDecimal
    let improvement ← finiteFloat absolute "absolute improvement"
    let relative := relativeImprovement absolute baselineDecimal
    let evidence : Evidence :=
      [("minimum_improvement", .float minimumImprovement),
        ("absolute_improvement", .float improvement), ("relative_improvement", optionValue relative),
        ("direction", .str direction.value)]
    let directionalPrefix := (match direction with
      | .higher => lit "Candidate minus baseline "
      | .lower => lit "Baseline minus candidate ") ++ metric ++ lit " is " ++
        formatGeneral 6 improvement ++ lit ", "
    let finding : Finding :=
      if threshold.le absolute then {
        ruleId := "RESULT.CLAIM_SUPPORTED"
        severity := .verified
        title := "Recomputed improvement meets the claim threshold"
        explanation := directionalPrefix ++ lit "meeting the required " ++
          formatGeneral 6 minimumImprovement ++ lit "."
        evidence := evidence
        impact := .none }
      else {
        ruleId := "RESULT.CLAIM_NOT_SUPPORTED"
        severity := .critical
        title := "Recomputed improvement is below the claim threshold"
        explanation := directionalPrefix ++ lit "below the required " ++
          formatGeneral 6 minimumImprovement ++ lit "."
        evidence := evidence
        impact := .invalidates }
    .ok (improvement, relative, finding)

def imbalanceFindings (baselineCount candidateCount : Nat) : List Finding :=
  let smaller := min baselineCount candidateCount
  let larger := max baselineCount candidateCount
  let ratio := (trueDivide larger smaller).getD (Binary64.zero false)
  if smaller ≠ 0 ∧ 2 ≤ larger - smaller ∧ (Binary64.units ratio ≥ 3 * 2 ^ 1074) then [{
    ruleId := "SEED.IMBALANCE"
    severity := .warning
    title := "Baseline and candidate evidence counts are severely imbalanced"
    explanation := lit "Baseline has " ++ natText baselineCount ++ lit " runs while candidate has " ++
      natText candidateCount ++ lit "."
    evidence := [("baseline_count", countValue baselineCount),
      ("candidate_count", countValue candidateCount), ("ratio", .float ratio)]
    impact := .none }]
  else []

/-- `RESULT.RECOMPUTED`. -/
def recomputedFinding (metric : Str) (baseline candidate : MetricSummary) : Finding := {
  ruleId := "RESULT.RECOMPUTED"
  severity := .verified
  title := lit "Raw " ++ metric ++ lit " recomputed successfully"
  explanation := "ClaimCI calculated both experiment summaries from raw run values."
  evidence := [("baseline", summaryEvidence baseline), ("candidate", summaryEvidence candidate)]
  impact := .none }

/-- `SEED.EVIDENCE_VERIFIED`, unless an earlier finding is about seeds. -/
def seedEvidenceFindings (findings : List Finding) (baselineCount candidateCount : Nat) :
    List Finding :=
  if findings.any fun f => (lit "SEED.").isPrefixOf f.ruleId then [] else [{
    ruleId := "SEED.EVIDENCE_VERIFIED"
    severity := .verified
    title := "Seed evidence is complete"
    explanation := "Both experiments contain multiple runs with unique integer seeds."
    evidence := [("baseline_count", countValue baselineCount),
      ("candidate_count", countValue candidateCount)]
    impact := .none }]

/-- What is found before the seed evidence is judged complete. -/
def runFindings (baseline candidate : LoadedResults) (metric : Str)
    (baselineSummary candidateSummary : MetricSummary) : List Finding :=
  recomputedFinding metric baselineSummary candidateSummary ::
    ((summaryMismatchFinding .baseline baseline baselineSummary).toList ++
      seedFindings .baseline baseline ++
      (summaryMismatchFinding .candidate candidate candidateSummary).toList ++
      seedFindings .candidate candidate ++
      imbalanceFindings baseline.values.length candidate.values.length)

def checkResults (baseline candidate : LoadedResults) (metric : Str)
    (minimumImprovement : Binary64) (direction : Direction) : Except Error ResultCheck := do
  let baselineSummary ← summarizeRuns baseline.values
  let candidateSummary ← summarizeRuns candidate.values
  let (absolute, relative, claimFinding) ← metricSummaryComparison baselineSummary candidateSummary
    metric minimumImprovement direction
  let findings := runFindings baseline candidate metric baselineSummary candidateSummary
  .ok ⟨baselineSummary, candidateSummary, absolute, relative,
    findings ++ seedEvidenceFindings findings baseline.values.length candidate.values.length ++
      [claimFinding]⟩

/-! ### What a computed comparison consists of -/

theorem checkResults_ok {baseline candidate : LoadedResults} {metric : Str}
    {minimumImprovement : Binary64} {direction : Direction} {checked : ResultCheck}
    (h : checkResults baseline candidate metric minimumImprovement direction = .ok checked) :
    summarizeRuns baseline.values = .ok checked.baselineSummary ∧
    summarizeRuns candidate.values = .ok checked.candidateSummary ∧
    ∃ claimFinding, metricSummaryComparison checked.baselineSummary checked.candidateSummary metric
        minimumImprovement direction =
        .ok (checked.absoluteImprovement, checked.relativeImprovement, claimFinding) ∧
      checked.findings =
        runFindings baseline candidate metric checked.baselineSummary checked.candidateSummary ++
        seedEvidenceFindings (runFindings baseline candidate metric checked.baselineSummary
          checked.candidateSummary) baseline.values.length candidate.values.length ++
        [claimFinding] := by
  unfold checkResults at h
  obtain ⟨sb, hb, h⟩ := bind_ok_iff.mp h
  obtain ⟨sc, hc, h⟩ := bind_ok_iff.mp h
  obtain ⟨⟨absolute, relative, claimFinding⟩, compared, h⟩ := bind_ok_iff.mp h
  obtain rfl := Except.ok.inj h
  exact ⟨hb, hc, claimFinding, compared, rfl⟩

/-- A comparison that returns has a finite difference, and its finding tells whether the threshold
is met. -/
theorem metricSummaryComparison_ok {baseline candidate : MetricSummary} {metric : Str}
    {minimumImprovement : Binary64} {direction : Direction} {improvement : Binary64}
    {relative : Option Binary64} {finding : Finding}
    (h : metricSummaryComparison baseline candidate metric minimumImprovement direction =
      .ok (improvement, relative, finding)) :
    Binary64.ofDecimal (absoluteDecimal direction baseline.mean.toDecimal
      candidate.mean.toDecimal) = some improvement ∧
    (if minimumImprovement.toDecimal.le (absoluteDecimal direction baseline.mean.toDecimal
        candidate.mean.toDecimal) then
      finding.impact = .none ∧ finding.ruleId = lit "RESULT.CLAIM_SUPPORTED"
    else finding.impact = .invalidates ∧ finding.ruleId = lit "RESULT.CLAIM_NOT_SUPPORTED") := by
  unfold metricSummaryComparison at h
  split at h
  · cases h
  · obtain ⟨x, finite, h⟩ := bind_ok_iff.mp h
    have parts := Except.ok.inj h
    simp only [Prod.mk.injEq] at parts
    obtain ⟨rfl, _, rfl⟩ := parts
    refine ⟨?_, ?_⟩
    · unfold finiteFloat at finite
      split at finite
      · cases finite
      next found => rw [found, Except.ok.inj finite]
    · split
      · exact ⟨rfl, rfl⟩
      · exact ⟨rfl, rfl⟩

end ClaimCI
