import ClaimCI.AuditExceptions
import ClaimCI.BenchmarkFindings
import ClaimCI.BenchmarkProjection
import ClaimCI.RunMean

/-!
# When the benchmark audit returns

The audit handles the errors of one of the three result forms only: the other two return exactly if
everything they compute is a finite float.
-/

open Python

namespace ClaimCI

open Raising (returns_ok returns_bind_iff)

/-! ### Comparisons that return -/

theorem returns_of_bind {ε α β : Type} {result : Except ε α} {next : α → Except ε β} {value : α}
    (made : result = .ok value) (rest : Raising.Returns (next value)) :
    Raising.Returns (result >>= next) := by
  obtain ⟨last, h⟩ := rest
  exact ⟨last, bind_ok_iff.mpr ⟨value, made, h⟩⟩

/-- The difference of two values, in the direction of the claim, is a finite float. -/
def DifferenceFits (direction : Direction) (baseline candidate : Binary64) : Prop :=
  (Binary64.ofDecimal (absoluteDecimal direction baseline.toDecimal
    candidate.toDecimal)).isSome = true

theorem returns_finiteFloat_iff (value : Decimal) (label : Str) :
    Raising.Returns (finiteFloat value label) ↔ (Binary64.ofDecimal value).isSome = true := by
  unfold finiteFloat
  cases Binary64.ofDecimal value with
  | none =>
    simp only [Option.isSome_none, Bool.false_eq_true, iff_false]
    rintro ⟨_, made⟩
    cases made
  | some number => exact iff_of_true (returns_ok _) rfl

theorem returns_comparison_iff {baseline candidate : MetricSummary} {metric : Str}
    {threshold : Binary64} (nonneg : threshold.lt (Binary64.zero false) = false)
    {direction : Direction} :
    Raising.Returns (metricSummaryComparison baseline candidate metric threshold direction) ↔
      DifferenceFits direction baseline.mean candidate.mean := by
  unfold metricSummaryComparison
  rw [if_neg (by rw [nonneg]; exact Bool.false_ne_true)]
  dsimp only
  rw [returns_bind_iff fun _ _ => iff_true_intro (returns_ok _), returns_finiteFloat_iff, and_true]
  rfl

/-- The mean and the deviation of the values are finite floats. -/
def Summarizable (values : List Binary64) (mean : Binary64) : Prop :=
  (fmean values).isSome = true ∧ Binary64.ofDecimal (decimalMean values) = some mean ∧
    (2 ≤ values.length → (stdev values).isSome = true)

theorem summarizable_of_made {values : List Binary64} {summary : MetricSummary}
    (made : summarizeRuns values = .ok summary) : Summarizable values summary.mean := by
  obtain ⟨filled, mean⟩ := summarizeRuns_mean made
  rw [summarizeRuns, if_neg filled] at made
  cases sums : fmean values with
  | none =>
    rw [sums] at made
    cases made
  | some total =>
    rw [sums] at made
    obtain ⟨_, -, made⟩ := bind_ok_iff.mp made
    refine ⟨by rw [sums]; rfl, mean, fun several => ?_⟩
    rw [if_pos several] at made
    cases deviates : stdev values with
    | none =>
      rw [deviates] at made
      cases made
    | some deviation => rfl

theorem returns_summarizeRuns {values : List Binary64} {mean : Binary64} (filled : values ≠ [])
    (summarizable : Summarizable values mean) :
    ∃ summary, summarizeRuns values = .ok summary ∧ summary.mean = mean := by
  obtain ⟨total, number, deviates⟩ := summarizable
  obtain ⟨sum, sums⟩ := Option.isSome_iff_exists.mp total
  have finite : finiteFloat (decimalMean values) (lit "summary mean") = .ok mean := by
    rw [finiteFloat, number]
  rw [summarizeRuns, if_neg filled, sums]
  by_cases several : 2 ≤ values.length
  · obtain ⟨deviation, found⟩ := Option.isSome_iff_exists.mp (deviates several)
    refine ⟨⟨values.length, mean, some deviation⟩, bind_ok_iff.mpr ⟨mean, finite, ?_⟩, rfl⟩
    rw [if_pos several, found]
  · refine ⟨⟨values.length, mean, none⟩, bind_ok_iff.mpr ⟨mean, finite, ?_⟩, rfl⟩
    rw [if_neg several]

/-- Both series have a finite summary, and their difference is finite. -/
def SeriesFit (direction : Direction) (baseline candidate : List Binary64) : Prop :=
  ∃ baselineMean candidateMean, Summarizable baseline baselineMean ∧
    Summarizable candidate candidateMean ∧ DifferenceFits direction baselineMean candidateMean

theorem returns_checkResults_iff {baseline candidate : LoadedResults} {metric : Str}
    {threshold : Binary64} (nonneg : threshold.lt (Binary64.zero false) = false)
    {direction : Direction} (baselineFilled : baseline.values ≠ [])
    (candidateFilled : candidate.values ≠ []) :
    Raising.Returns (checkResults baseline candidate metric threshold direction) ↔
      SeriesFit direction baseline.values candidate.values := by
  constructor
  · rintro ⟨checked, made⟩
    obtain ⟨left, right, claimFinding, compared, -⟩ := checkResults_ok made
    exact ⟨_, _, summarizable_of_made left, summarizable_of_made right,
      (returns_comparison_iff nonneg).mp ⟨_, compared⟩⟩
  · rintro ⟨baselineMean, candidateMean, first, second, fits⟩
    obtain ⟨baselineSummary, left, rfl⟩ := returns_summarizeRuns baselineFilled first
    obtain ⟨candidateSummary, right, rfl⟩ := returns_summarizeRuns candidateFilled second
    have comparison : Raising.Returns (metricSummaryComparison baselineSummary candidateSummary
        metric threshold direction) := by
      rw [returns_comparison_iff nonneg]
      exact fits
    obtain ⟨compared, comparison⟩ := comparison
    exact returns_of_bind left (returns_of_bind right (returns_of_bind comparison (returns_ok _)))

/-! ### Reported aggregates -/

theorem expected_rejectIf (refused : Bool) (message : Str) :
    Expected (rejectIf refused (Error.claimCI message)) := by
  unfold rejectIf
  split
  · exact expected_claimCI _
  · exact expected_ok _

theorem expected_comparison (baseline candidate : MetricSummary) (metric : Str)
    (threshold : Binary64) (direction : Direction) :
    Expected (metricSummaryComparison baseline candidate metric threshold direction) := by
  unfold metricSummaryComparison
  split
  · exact expected_claimCI _
  · exact (expected_finiteFloat _ _).bind fun _ _ => expected_ok _

theorem expected_checkReportedAggregates (baselineValue candidateValue threshold : Binary64)
    (baselineCount candidateCount : Int) (statistic aggregation metric : Str)
    (direction : Direction) : Expected (checkReportedAggregates baselineValue candidateValue
      baselineCount candidateCount statistic aggregation metric threshold direction) := by
  unfold checkReportedAggregates
  exact (expected_rejectIf _ _).bind fun _ _ => (expected_rejectIf _ _).bind fun _ _ =>
    (expected_rejectIf _ _).bind fun _ _ => (expected_rejectIf _ _).bind fun _ _ =>
    (expected_comparison _ _ _ _ _).bind fun _ _ => expected_ok _

theorem expected_requiredValue (values : List (Str × JsonScalar)) (key : Str) :
    Expected (requiredValue values key) := by
  unfold requiredValue
  split
  · exact expected_claimCI _
  · exact expected_ok _

theorem expected_positiveInteger (value : JsonScalar) (label : Str) :
    Expected (positiveInteger value label) := by
  unfold positiveInteger
  split
  · split
    · exact expected_claimCI _
    · exact expected_ok _
  · exact expected_claimCI _

theorem expected_compareAggregates (claim : AuditClaimSpec) (threshold : Binary64)
    (configs : BenchmarkConfigs) (baselineValue candidateValue : Option Binary64) :
    Expected (compareAggregates claim threshold configs baselineValue candidateValue) := by
  unfold compareAggregates
  refine (expected_requiredValue _ _).bind fun _ _ => (expected_positiveInteger _ _).bind fun _ _ =>
    (expected_requiredValue _ _).bind fun _ _ => (expected_positiveInteger _ _).bind fun _ _ =>
    (expected_requiredValue _ _).bind fun _ _ => (expected_requiredValue _ _).bind fun _ _ => ?_
  split
  · exact expected_checkReportedAggregates _ _ _ _ _ _ _ _ _
  · exact expected_claimCI _
  · exact expected_claimCI _

/-- The comparison of reported aggregates is handled. -/
theorem returns_reportedAggregate (rt : Runtime) (claim : AuditClaimSpec) (threshold : Binary64)
    (baseline candidate : List BenchmarkEvidence) (configs : BenchmarkConfigs) :
    Raising.Returns (reportedAggregate rt claim threshold baseline candidate configs) := by
  unfold reportedAggregate
  dsimp only
  rcases (expected_compareAggregates claim threshold configs
    (singleMetricValue rt baseline claim.metric .baseline).1
    (singleMetricValue rt candidate claim.metric .candidate).1).cases with
    ⟨checked, made⟩ | ⟨message, made⟩
  · rw [made]
    exact returns_ok _
  · rw [made]
    exact returns_ok _

/-- Two derived values are compared without a handler. -/
theorem returns_derivedAggregates_iff {baselineValue candidateValue threshold : Binary64}
    {metric : Str} (nonneg : threshold.lt (Binary64.zero false) = false) {direction : Direction} :
    Raising.Returns (checkReportedAggregates baselineValue candidateValue 1 1
      "deterministic_derivation" "multiply_v1" metric threshold direction) ↔
      DifferenceFits direction baselineValue candidateValue := by
  constructor
  · rintro ⟨checked, made⟩
    obtain ⟨verified, claimFinding, -, -, compared, -⟩ := checkReportedAggregates_ok made
    have fits := (returns_comparison_iff nonneg).mp ⟨_, compared⟩
    exact fits
  · intro fits
    have comparison : Raising.Returns (metricSummaryComparison
        ⟨(1 : Int).toNat, baselineValue, none⟩ ⟨(1 : Int).toNat, candidateValue, none⟩ metric
        threshold direction) := by
      rw [returns_comparison_iff nonneg]
      exact fits
    obtain ⟨compared, comparison⟩ := comparison
    have counted : ∀ label : String, rejectIf ((1 : Int) < 1 || (2 : Int) ^ 63 - 1 < 1)
        (Error.claimCI (lit label)) = .ok () := by
      intro label
      rw [rejectIf_ok_iff]
      decide
    have identity : ∀ label text : Str, Measurement.boundedText 256 true text = true →
        checkIdentity label text = .ok () := by
      intro label text bounded
      rw [checkIdentity, rejectIf_ok_iff, bounded]
      rfl
    unfold checkReportedAggregates
    exact returns_of_bind (counted _) (returns_of_bind (counted _)
      (returns_of_bind (identity _ _ (by decide +kernel))
        (returns_of_bind (identity _ _ (by decide +kernel))
          (returns_of_bind comparison (returns_ok _)))))

theorem returns_derivedAggregates {baselineValue candidateValue threshold : Binary64}
    (metric : Str) (nonneg : threshold.lt (Binary64.zero false) = false) {direction : Direction}
    (fits : DifferenceFits direction baselineValue candidateValue) :
    ∃ checked, checkReportedAggregates baselineValue candidateValue 1 1 "deterministic_derivation"
      "multiply_v1" metric threshold direction = .ok checked :=
  (returns_derivedAggregates_iff nonneg).mpr fits

/-! ### Deterministic derivations -/

section Derivation

variable (digit : CodePoint → Option Digit) (rt : Runtime) (claim : AuditClaimSpec)

/-- The product of the operands of a role is within the exponents of its context. -/
def ProductFits (role : Arm) (config : List (Str × JsonScalar)) : Prop :=
  ∀ unit quantity, derivationOperands digit role config = .ok (unit, quantity) →
    (DERIVATION_CONTEXT.mul unit quantity).isSome = true

/-- The product of a role is a finite float, and one value represents it. -/
def DerivesValue (role : Arm) (config : List (Str × JsonScalar)) (evidence : List BenchmarkEvidence)
    (value : Binary64) : Prop :=
  ∃ unit quantity product represented, derivationOperands digit role config = .ok (unit, quantity) ∧
    DERIVATION_CONTEXT.mul unit quantity = some product ∧
    Binary64.ofDecimal product = some value ∧
    (singleMetricValue rt evidence claim.metric role).1 = some represented

theorem expected_derivationOperands (role : Arm) (config : List (Str × JsonScalar)) :
    Expected (derivationOperands digit role config) := by
  have exact : ∀ value label, Expected (exactDecimal digit value label) := by
    intro value label
    unfold exactDecimal
    split
    · exact expected_claimCI _
    · exact expected_ok _
  unfold derivationOperands
  exact (expected_requiredValue _ _).bind fun _ _ => (expected_rejectIf _ _).bind fun _ _ =>
    (expected_requiredValue _ _).bind fun _ _ => (exact _ _).bind fun _ _ =>
    (expected_requiredValue _ _).bind fun _ _ => (exact _ _).bind fun _ _ => expected_ok _

/-- What a derivation that returns ends with: a value, or that it is insufficient. -/
structure DerivedRole (role : Arm) (config : List (Str × JsonScalar))
    (evidence : List BenchmarkEvidence) (found : List Finding × Option Binary64) : Prop where
  value : ∀ value, found.2 = some value ↔ DerivesValue digit rt claim role config evidence value
  insufficient : found.2 = none → ∃ finding ∈ found.1, finding.impact = .insufficient

variable {digit rt claim} {role : Arm} {config : List (Str × JsonScalar)}
  {evidence : List BenchmarkEvidence}

private theorem insufficientRole
    (none : ∀ value, ¬ DerivesValue digit rt claim role config evidence value)
    (findings : List Finding) : DerivedRole digit rt claim role config evidence
      (findings ++ [derivationInsufficient role], Option.none) where
  value := fun value => iff_of_false (by simp) (none value)
  insufficient := fun _ => ⟨derivationInsufficient role, by simp, rfl⟩

variable (rt claim evidence) in
theorem deriveRole_returns (fits : ProductFits digit role config) :
    ∃ found, deriveRole digit rt claim role config evidence = .ok found ∧
      DerivedRole digit rt claim role config evidence found := by
  rcases (expected_derivationOperands digit role config).cases with
    ⟨⟨unit, quantity⟩, operands⟩ | ⟨message, refused⟩
  · obtain ⟨product, rounded⟩ := Option.isSome_iff_exists.mp (fits unit quantity operands)
    -- the arm derives a value exactly if the product is a float and one value is reported
    have derives : ∀ value, DerivesValue digit rt claim role config evidence value ↔
        Binary64.ofDecimal product = some value ∧
          (singleMetricValue rt evidence claim.metric role).1.isSome = true := by
      intro value
      constructor
      · rintro ⟨_, _, _, represented, again, roundedAgain, number, single⟩
        obtain ⟨rfl, rfl⟩ := Prod.mk.inj (Except.ok.inj (operands.symm.trans again))
        obtain rfl := Option.some.inj (rounded.symm.trans roundedAgain)
        exact ⟨number, by rw [single]; rfl⟩
      · rintro ⟨number, single⟩
        obtain ⟨represented, single⟩ := Option.isSome_iff_exists.mp single
        exact ⟨unit, quantity, product, represented, operands, rounded, number, single⟩
    unfold deriveRole
    rw [operands]
    dsimp only
    rw [rounded]
    dsimp only
    cases number : Binary64.ofDecimal product with
    | none =>
      refine ⟨_, rfl, insufficientRole (fun value derived => ?_) []⟩
      have impossible := ((derives value).mp derived).1
      rw [number] at impossible
      cases impossible
    | some recomputed =>
      cases single : (singleMetricValue rt evidence claim.metric role).1 with
      | none =>
        refine ⟨_, rfl, insufficientRole (fun value derived => ?_) _⟩
        have impossible := ((derives value).mp derived).2
        rw [single] at impossible
        cases impossible
      | some represented =>
        refine ⟨_, rfl, fun value => ?_, fun none => by cases none⟩
        rw [derives, number, single]
        simp
  -- operands that are refused leave a finding and no value
  · unfold deriveRole
    rw [refused]
    refine ⟨_, rfl, insufficientRole (fun value derived => ?_) []⟩
    obtain ⟨_, _, _, _, operands, -⟩ := derived
    rw [refused] at operands
    cases operands

theorem productFits_of_made {found : List Finding × Option Binary64}
    (made : deriveRole digit rt claim role config evidence = .ok found) :
    ProductFits digit role config := by
  intro unit quantity operands
  unfold deriveRole at made
  rw [operands] at made
  dsimp only at made
  cases rounded : DERIVATION_CONTEXT.mul unit quantity with
  | none =>
    rw [rounded] at made
    cases made
  | some product => rfl

variable {baseline candidate : List BenchmarkEvidence} {configs : BenchmarkConfigs}

variable (digit rt claim baseline candidate configs) in
/-- Both products are within their context, and so is the difference of derived values. -/
structure DerivationFits : Prop where
  baselineProduct : ProductFits digit .baseline configs.baseline
  candidateProduct : ProductFits digit .candidate configs.candidate
  difference : ∀ baselineValue candidateValue,
    DerivesValue digit rt claim .baseline configs.baseline baseline baselineValue →
      DerivesValue digit rt claim .candidate configs.candidate candidate candidateValue →
        DifferenceFits claim.direction baselineValue candidateValue

theorem returns_deterministicDerivation_iff {threshold : Binary64}
    (nonneg : threshold.lt (Binary64.zero false) = false) :
    Raising.Returns (deterministicDerivation digit rt claim threshold baseline candidate configs) ↔
      DerivationFits digit rt claim baseline candidate configs := by
  constructor
  · rintro ⟨outcome, made⟩
    unfold deterministicDerivation at made
    obtain ⟨first, left, made⟩ := bind_ok_iff.mp made
    obtain ⟨second, right, made⟩ := bind_ok_iff.mp made
    have baselineFits := productFits_of_made left
    have candidateFits := productFits_of_made right
    refine ⟨baselineFits, candidateFits, fun baselineValue candidateValue derived again => ?_⟩
    -- the derivations are those of the run at hand
    obtain ⟨_, leftAgain, baselineDerived⟩ := deriveRole_returns rt claim baseline baselineFits
    obtain ⟨_, rightAgain, candidateDerived⟩ := deriveRole_returns rt claim candidate candidateFits
    obtain rfl := Except.ok.inj (left.symm.trans leftAgain)
    obtain rfl := Except.ok.inj (right.symm.trans rightAgain)
    rw [(baselineDerived.value _).mpr derived, (candidateDerived.value _).mpr again] at made
    dsimp only at made
    split at made
    · cases made
    next checked compared => exact (returns_derivedAggregates_iff nonneg).mp ⟨checked, compared⟩
  · rintro ⟨baselineFits, candidateFits, differs⟩
    obtain ⟨first, left, baselineDerived⟩ := deriveRole_returns rt claim baseline baselineFits
    obtain ⟨second, right, candidateDerived⟩ := deriveRole_returns rt claim candidate candidateFits
    unfold deterministicDerivation
    refine returns_of_bind left (returns_of_bind right ?_)
    dsimp only
    -- without two values nothing is compared
    cases baselineNumber : first.2 with
    | none => exact returns_ok _
    | some baselineValue =>
      cases candidateNumber : second.2 with
      | none => exact returns_ok _
      | some candidateValue =>
        have fits := differs _ _ ((baselineDerived.value _).mp baselineNumber)
          ((candidateDerived.value _).mp candidateNumber)
        obtain ⟨checked, compared⟩ := returns_derivedAggregates claim.metric nonneg fits
        dsimp only
        rw [compared]
        exact returns_ok _

end Derivation

end ClaimCI
