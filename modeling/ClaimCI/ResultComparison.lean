import ClaimCI.ResultCheck
import ClaimCI.Python.Rounding

/-!
# Result comparison

The comparison of two means against exact arithmetic: when the claim is reported as supported, and
that exchanging the arms together with the direction does not matter.
-/

open Python

namespace ClaimCI

/-- The comparison reports the claim as supported. -/
def ReportsSupported (baseline candidate : MetricSummary) (metric : Str)
    (minimumImprovement : Binary64) (direction : Direction) : Prop :=
  ∃ improvement relative finding,
    metricSummaryComparison baseline candidate metric minimumImprovement direction =
      .ok (improvement, relative, finding) ∧ finding.ruleId = lit "RESULT.CLAIM_SUPPORTED"

/-- The difference of the two means before any rounding. -/
def meanDifference (direction : Direction) (baseline candidate : MetricSummary) : Decimal :=
  match direction with
  | .higher => candidate.mean.toDecimal.addExact baseline.mean.toDecimal.neg
  | .lower => baseline.mean.toDecimal.addExact candidate.mean.toDecimal.neg

/-- The exact improvement of the decimal spellings. -/
def exactImprovement (direction : Direction) (baseline candidate : MetricSummary) : ℚ :=
  match direction with
  | .higher => candidate.mean.toDecimal.toRat - baseline.mean.toDecimal.toRat
  | .lower => baseline.mean.toDecimal.toRat - candidate.mean.toDecimal.toRat

/-- The difference, at the precision of the default context, is a finite float. -/
def FiniteDifference (direction : Direction) (baseline candidate : MetricSummary) : Prop :=
  (Binary64.ofDecimal ((meanDifference direction baseline candidate).fix DEFAULT_PRECISION)).isSome

/-- Rounding to the precision of the default context carries a difference that is below the
threshold onto it. -/
def RoundsOntoThreshold (direction : Direction) (baseline candidate : MetricSummary)
    (minimumImprovement : Binary64) : Prop :=
  exactImprovement direction baseline candidate < minimumImprovement.toDecimal.toRat ∧
    ((meanDifference direction baseline candidate).fix DEFAULT_PRECISION).toRat =
      minimumImprovement.toDecimal.toRat

/-- The other direction. -/
def Direction.opposite : Direction → Direction
  | higher => lower
  | lower => higher

theorem toRat_meanDifference (direction : Direction) (baseline candidate : MetricSummary) :
    (meanDifference direction baseline candidate).toRat =
      exactImprovement direction baseline candidate := by
  cases direction with
  | higher =>
    simp only [meanDifference, exactImprovement]
    rw [Decimal.toRat_addExact, Decimal.toRat_neg, sub_eq_add_neg]
  | lower =>
    simp only [meanDifference, exactImprovement]
    rw [Decimal.toRat_addExact, Decimal.toRat_neg, sub_eq_add_neg]

theorem absoluteDecimal_eq (direction : Direction) (baseline candidate : MetricSummary) :
    absoluteDecimal direction baseline.mean.toDecimal candidate.mean.toDecimal =
      (meanDifference direction baseline candidate).fix DEFAULT_PRECISION := by
  cases direction <;> rfl

section Comparison

variable {baseline candidate : MetricSummary} {metric : Str} {minimumImprovement : Binary64}
  {direction : Direction}

/-- The comparison decides on the rounded difference, which has to be a finite float. -/
theorem reportsSupported_iff (nonneg : minimumImprovement.lt (Binary64.zero false) = false) :
    ReportsSupported baseline candidate metric minimumImprovement direction ↔
      minimumImprovement.toDecimal.toRat ≤
          ((meanDifference direction baseline candidate).fix DEFAULT_PRECISION).toRat ∧
        FiniteDifference direction baseline candidate := by
  unfold FiniteDifference
  rw [← absoluteDecimal_eq]
  constructor
  · rintro ⟨improvement, relative, finding, compared, supported⟩
    obtain ⟨finite, decision⟩ := metricSummaryComparison_ok compared
    split at decision
    next meets => exact ⟨(Decimal.le_iff _ _).mp meets, Option.isSome_iff_exists.mpr ⟨_, finite⟩⟩
    next below =>
      rw [decision.2] at supported
      exact absurd supported (by decide)
  · rintro ⟨meets, finite⟩
    obtain ⟨improvement, number⟩ := Option.isSome_iff_exists.mp finite
    have accepted : finiteFloat (absoluteDecimal direction baseline.mean.toDecimal
        candidate.mean.toDecimal) (lit "absolute improvement") = .ok improvement := by
      rw [finiteFloat, number]
    unfold ReportsSupported metricSummaryComparison
    rw [if_neg (by rw [nonneg]; exact Bool.false_ne_true)]
    dsimp only
    rw [accepted]
    refine ⟨_, _, _, rfl, ?_⟩
    rw [if_pos ((Decimal.le_iff _ _).mpr meets)]

/-- The difference of the exchanged arms in the other direction is the same. -/
theorem meanDifference_opposite (direction : Direction) (baseline candidate : MetricSummary) :
    meanDifference direction.opposite candidate baseline =
      meanDifference direction baseline candidate := by
  cases direction <;> rfl

/-- Rounding does not carry the difference across a threshold, at most onto it. -/
theorem rounded_meets_iff (stays : ¬ RoundsOntoThreshold direction baseline candidate minimumImprovement) :
    minimumImprovement.toDecimal.toRat ≤
        ((meanDifference direction baseline candidate).fix DEFAULT_PRECISION).toRat ↔
      minimumImprovement.toDecimal.toRat ≤ exactImprovement direction baseline candidate := by
  have precision : 0 < DEFAULT_PRECISION := by decide
  have fits : digitCount minimumImprovement.toDecimal.coefficient ≤ DEFAULT_PRECISION :=
    minimumImprovement.toDecimal_digits.trans (by decide)
  have value := toRat_meanDifference direction baseline candidate
  constructor
  · intro meets
    by_contra below
    have below := not_le.mp below
    have rounded := Decimal.toRat_fix_le precision fits (value.trans_le below.le)
    exact stays ⟨below, le_antisymm rounded meets⟩
  · intro meets
    exact Decimal.le_toRat_fix precision fits (meets.trans_eq value.symm)

end Comparison

/-- A difference that rounding leaves on its side of the threshold is reported as supporting the
claim exactly if it meets the threshold and is a finite float; and exchanging the arms together
with the direction never matters. -/
theorem comparison_exact (baseline candidate : MetricSummary) (metric : Str)
    (minimumImprovement : Binary64) (direction : Direction)
    (nonneg : minimumImprovement.lt (Binary64.zero false) = false) :
    (¬ RoundsOntoThreshold direction baseline candidate minimumImprovement →
      (ReportsSupported baseline candidate metric minimumImprovement direction ↔
        minimumImprovement.toDecimal.toRat ≤ exactImprovement direction baseline candidate ∧
          FiniteDifference direction baseline candidate)) ∧
      (ReportsSupported candidate baseline metric minimumImprovement direction.opposite ↔
        ReportsSupported baseline candidate metric minimumImprovement direction) := by
  constructor
  · intro stays
    rw [reportsSupported_iff nonneg, rounded_meets_iff stays]
  · rw [reportsSupported_iff nonneg, reportsSupported_iff nonneg]
    unfold FiniteDifference
    rw [meanDifference_opposite]

/-! ### Differences at the limits -/

/-- A summary of two runs with a mean. -/
def summaryOf (mean : Binary64) : MetricSummary := ⟨2, mean, none⟩

/-- `1.0`. -/
def floatOne : Binary64 :=
  ⟨false, 2 ^ 52, -52, by norm_num, by norm_num, by norm_num, Or.inl le_rfl⟩

/-- `2.0 ** -100`. -/
def floatTiny : Binary64 :=
  ⟨false, 2 ^ 52, -152, by norm_num, by norm_num, by norm_num, Or.inl le_rfl⟩

theorem floatOne_normal : 2 ^ 52 ≤ floatOne.mantissa := by decide

theorem largestMantissa : 2 ^ 53 - 1 < 2 ^ 53 ∧ 2 ^ 52 ≤ 2 ^ 53 - 1 := by norm_num

theorem exponent_971 : (-1074 : Int) ≤ 971 := by norm_num

/-- The largest float. -/
def floatLargest (negative : Bool) : Binary64 :=
  ⟨negative, 2 ^ 53 - 1, 971, largestMantissa.1, exponent_971, le_refl 971, Or.inl largestMantissa.2⟩

theorem comparison_exact_one :
    ReportsSupported (summaryOf floatOne) (summaryOf (Binary64.zero false)) "loss" floatOne .lower := by
  have difference : meanDifference .lower (summaryOf floatOne) (summaryOf (Binary64.zero false)) =
      ⟨false, 10, -1⟩ := by decide +kernel
  have threshold : floatOne.toDecimal = ⟨false, 10, -1⟩ := by decide +kernel
  have improvement : exactImprovement .lower (summaryOf floatOne) (summaryOf (Binary64.zero false)) =
      floatOne.toDecimal.toRat := by
    rw [← toRat_meanDifference, difference, threshold]
  apply ((comparison_exact (summaryOf floatOne) (summaryOf (Binary64.zero false)) "loss" floatOne
    .lower (by decide +kernel)).1 ?_).mpr
  · refine ⟨improvement.ge, ?_⟩
    unfold FiniteDifference
    rw [difference]
    decide +kernel
  · exact fun carried => carried.1.ne improvement

/-- A difference that is no finite float is not reported, and one that rounds up to the threshold is
reported although it is below. -/
theorem comparison_not_exact :
    (¬ ∀ (baseline candidate : MetricSummary) (metric : Str) (minimumImprovement : Binary64)
      (direction : Direction), minimumImprovement.lt (Binary64.zero false) = false →
        minimumImprovement.toDecimal.toRat ≤ exactImprovement direction baseline candidate →
          ReportsSupported baseline candidate metric minimumImprovement direction) ∧
      ¬ ∀ (baseline candidate : MetricSummary) (metric : Str) (minimumImprovement : Binary64)
        (direction : Direction), minimumImprovement.lt (Binary64.zero false) = false →
          ReportsSupported baseline candidate metric minimumImprovement direction →
            minimumImprovement.toDecimal.toRat ≤ exactImprovement direction baseline candidate := by
  constructor
  · intro complete
    have reported := complete (summaryOf (floatLargest true)) (summaryOf (floatLargest false)) "score"
      floatOne .higher (by decide +kernel) ?_
    · have infinite := ((reportsSupported_iff (by decide +kernel)).mp reported).2
      unfold FiniteDifference at infinite
      exact absurd infinite (by decide +kernel)
    · rw [← toRat_meanDifference, ← Decimal.le_iff]
      decide +kernel
  · intro sound
    have meets := sound (summaryOf floatTiny) (summaryOf floatOne) "score" floatOne .higher
      (by decide +kernel) ?_
    · rw [← toRat_meanDifference, ← Decimal.le_iff] at meets
      exact absurd meets (by decide +kernel)
    · apply (reportsSupported_iff (by decide +kernel)).mpr
      unfold FiniteDifference
      rw [← Decimal.le_iff]
      exact ⟨by decide +kernel, by decide +kernel⟩

end ClaimCI
