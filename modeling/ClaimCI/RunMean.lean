import ClaimCI.ResultComparison
import ClaimCI.Python.Nearest

/-!
# Run mean

The mean that a summary of runs declares against exact arithmetic: when it is the float nearest to
the exact mean of the decimal spellings, whatever the order of the runs.
-/

open Python

namespace ClaimCI

/-- The precision that the sum and the mean of the spellings are computed with. -/
def meanPrecision (values : List Binary64) : Nat :=
  let decimals := values.map Binary64.toDecimal
  let digits := decimals.map fun d => digitCount d.coefficient
  max 28 (digits.foldr max 0 + (decimalDigits decimals.length).length + 4)

/-- The exact sum of the decimal spellings. -/
def exactSum (values : List Binary64) : ℚ := (values.map fun x => x.toDecimal.toRat).sum

/-- The exact mean of the decimal spellings. -/
def exactMean (values : List Binary64) : ℚ := exactSum values / values.length

/-- Every sum of some of the values fits the working precision, so no addition rounds in any order. -/
def SumsExactly (values : List Binary64) : Prop :=
  ∀ part, part.Subperm values → HasDigits (meanPrecision values) (exactSum part)

/-- Rounding the exact mean to the working precision first does not change the nearest float. -/
def RoundsOnce (values : List Binary64) : Prop :=
  nearestFloat (roundSignificant (meanPrecision values) (exactMean values)) =
    nearestFloat (exactMean values)

/-- In every order the mean is the float nearest to the exact mean, and a declared summary is
reported exactly if it is another number. -/
structure MeanExact (values : List Binary64) : Prop where
  mean : ∀ runs summary, runs.Perm values → summarizeRuns runs = .ok summary →
    nearestFloat (exactMean values) = some summary.mean
  mismatch : ∀ arm loaded summary, loaded.values.Perm values →
    summarizeRuns loaded.values = .ok summary →
      ((summaryMismatchFinding arm loaded summary).isSome ↔
        ∃ claimed nearest, loaded.claimedSummary = some claimed ∧
          nearestFloat (exactMean values) = some nearest ∧ claimed.toRat ≠ nearest.toRat)

/-! ### The computed mean -/

theorem decimalMean_eq (values : List Binary64) :
    decimalMean values = ((values.map Binary64.toDecimal).foldl
      (Decimal.add (meanPrecision values)) (Decimal.ofNat 0)).div (meanPrecision values)
        (Decimal.ofNat (values.map Binary64.toDecimal).length) := rfl

theorem meanPrecision_pos (values : List Binary64) : 0 < meanPrecision values :=
  (by norm_num : 0 < 28).trans_le (le_max_left _ _)

example : meanPrecision [Binary64.zero false] = 28 := by decide +kernel

theorem meanPrecision_perm {runs values : List Binary64} (perm : runs.Perm values) :
    meanPrecision runs = meanPrecision values := by
  have digits : ((runs.map Binary64.toDecimal).map fun d => digitCount d.coefficient).foldr max 0 =
      ((values.map Binary64.toDecimal).map fun d => digitCount d.coefficient).foldr max 0 :=
    ((perm.map _).map _).foldr_eq 0
  unfold meanPrecision
  simp only [digits, List.length_map, perm.length_eq]

theorem exactSum_perm {runs values : List Binary64} (perm : runs.Perm values) :
    exactSum runs = exactSum values :=
  (perm.map _).sum_eq

theorem exactMean_perm {runs values : List Binary64} (perm : runs.Perm values) :
    exactMean runs = exactMean values := by
  rw [exactMean, exactMean, exactSum_perm perm, perm.length_eq]

theorem exactSum_append (left right : List Binary64) :
    exactSum (left ++ right) = exactSum left + exactSum right := by
  rw [exactSum, List.map_append, List.sum_append, exactSum, exactSum]

/-- The running sum stays exact. -/
theorem foldl_add_exact {precision : Nat} (hp : 0 < precision) (seen rest : List Binary64)
    (total : Decimal) (value : total.toRat = exactSum seen) (plain : total.PlainZero)
    (holds : ∀ part, part.Subperm (seen ++ rest) → HasDigits precision (exactSum part)) :
    ((rest.map Binary64.toDecimal).foldl (Decimal.add precision) total).toRat =
        exactSum (seen ++ rest) ∧
      ((rest.map Binary64.toDecimal).foldl (Decimal.add precision) total).PlainZero := by
  induction rest generalizing seen total with
  | nil =>
    rw [List.append_nil]
    exact ⟨value, plain⟩
  | cons x rest ih =>
    have next : exactSum (seen ++ [x]) = total.toRat + x.toDecimal.toRat := by
      rw [exactSum_append, value]
      simp [exactSum]
    have split : seen ++ x :: rest = seen ++ [x] ++ rest := by simp
    rw [split] at holds ⊢
    have fits := holds (seen ++ [x]) (List.sublist_append_left _ _).subperm
    rw [next] at fits
    obtain ⟨added, plain'⟩ := Decimal.add_exact hp plain fits
    exact ih (seen ++ [x]) (total.add precision x.toDecimal) (added.trans next.symm) plain' holds

theorem ofNat_toRat (n : Nat) : (Decimal.ofNat n).toRat = n := by
  simp [Decimal.ofNat, Decimal.toRat, Decimal.signed]

/-- With exact sums, the mean is the exact mean rounded to the precision and then to a float. -/
theorem ofDecimal_decimalMean {runs values : List Binary64} (perm : runs.Perm values)
    (nonempty : runs ≠ []) (exact' : SumsExactly values) :
    Binary64.ofDecimal (decimalMean runs) =
      nearestFloat (roundSignificant (meanPrecision values) (exactMean values)) := by
  have hp := meanPrecision_pos values
  obtain ⟨value, plain⟩ := foldl_add_exact hp [] runs (Decimal.ofNat 0)
    (by rw [ofNat_toRat]; rfl) (fun _ => rfl) (fun part sub => exact' part (sub.trans perm.subperm))
  have count : (Decimal.ofNat (runs.map Binary64.toDecimal).length).coefficient ≠ 0 := by
    simpa [Decimal.ofNat] using nonempty
  obtain ⟨quotient, plain'⟩ := Decimal.toRat_div hp plain (b := Decimal.ofNat _) rfl count
  rw [decimalMean_eq, meanPrecision_perm perm, plain'.ofDecimal_eq, quotient, value, ofNat_toRat,
    List.length_map, List.nil_append, ← exactMean_perm perm, exactMean]

theorem ofDecimal_of_finiteFloat {d : Decimal} {label : String} {x : Binary64}
    (finite : finiteFloat d label = .ok x) : Binary64.ofDecimal d = some x := by
  unfold finiteFloat at finite
  split at finite
  · cases finite
  next found => rw [found, Except.ok.inj finite]

theorem summarizeRuns_mean {values : List Binary64} {summary : MetricSummary}
    (returned : summarizeRuns values = .ok summary) :
    values ≠ [] ∧ Binary64.ofDecimal (decimalMean values) = some summary.mean := by
  rw [summarizeRuns] at returned
  by_cases nonempty : values = []
  · rw [if_pos nonempty] at returned
    cases returned
  · refine ⟨nonempty, ?_⟩
    rw [if_neg nonempty] at returned
    -- without a finite sum no summary is returned
    cases sums : fmean values with
    | none =>
      rw [sums] at returned
      cases returned
    | some total =>
      rw [sums] at returned
      obtain ⟨mean, finite, rest⟩ := bind_ok_iff.mp returned
      rw [ofDecimal_of_finiteFloat finite]
      split at rest
      · split at rest
        · cases rest
        · cases rest
          rfl
      · cases rest
        rfl

/-- A declared summary is reported exactly if it is another number than the mean. -/
theorem summaryMismatch_isSome (arm : Arm) (loaded : LoadedResults) (summary : MetricSummary) :
    (summaryMismatchFinding arm loaded summary).isSome ↔
      ∃ claimed, loaded.claimedSummary = some claimed ∧ claimed.toRat ≠ summary.mean.toRat := by
  unfold summaryMismatchFinding
  cases loaded.claimedSummary with
  | none => simp
  | some claimed =>
    simp only [Decimal.eq_iff, Binary64.toDecimal_toRat_eq_iff, Option.some.injEq, exists_eq_left']
    split
    next same => simp [same]
    next other => simp [other]

/-- If no addition rounds, in whatever order, then the mean is the nearest float in every order
exactly if rounding the mean to the working precision first is harmless. -/
theorem mean_exact (values : List Binary64) (exact' : SumsExactly values) :
    (RoundsOnce values → MeanExact values) ∧
      ∀ summary, summarizeRuns values = .ok summary → MeanExact values → RoundsOnce values := by
  -- every order of the runs has the same exact sum
  have computed {runs : List Binary64} {summary : MetricSummary} (perm : runs.Perm values)
      (returned : summarizeRuns runs = .ok summary) :
      nearestFloat (roundSignificant (meanPrecision values) (exactMean values)) =
        some summary.mean := by
    obtain ⟨nonempty, number⟩ := summarizeRuns_mean returned
    rw [← ofDecimal_decimalMean perm nonempty exact', number]
  constructor
  · intro once
    have nearest {runs : List Binary64} {summary : MetricSummary} (perm : runs.Perm values)
        (returned : summarizeRuns runs = .ok summary) :
        nearestFloat (exactMean values) = some summary.mean :=
      once.symm.trans (computed perm returned)
    refine ⟨fun runs summary perm returned => nearest perm returned, ?_⟩
    intro arm loaded summary perm returned
    rw [summaryMismatch_isSome]
    -- a stated mean is compared with the one that is computed
    constructor
    · rintro ⟨claimed, declared, differs⟩
      exact ⟨claimed, summary.mean, declared, nearest perm returned, differs⟩
    · rintro ⟨claimed, other, declared, same, differs⟩
      rw [nearest perm returned] at same
      obtain rfl := Option.some.inj same
      exact ⟨claimed, declared, differs⟩
  · intro summary returned holds
    rw [RoundsOnce, computed (List.Perm.refl values) returned,
      holds.mean values summary (List.Perm.refl values) returned]

/-! ### Runs whose spread is too large -/

theorem floatOne_value : floatOne.toDecimal.toRat = 1 := by
  have spelled : floatOne.toDecimal = ⟨false, 10, -1⟩ := by decide +kernel
  rw [spelled]
  norm_num [Decimal.toRat, Decimal.signed]

/-- Runs of `1.0` have a natural number as their sum. -/
theorem exactSum_ones {part : List Binary64} (ones : ∀ x ∈ part, x = floatOne) :
    exactSum part = part.length := by
  rw [List.eq_replicate_of_mem ones]
  simp [exactSum, floatOne_value]

theorem mean_exact_one : MeanExact [floatOne, floatOne] := by
  have ones : ∀ x ∈ [floatOne, floatOne], x = floatOne := by simp
  have precision : meanPrecision [floatOne, floatOne] = 28 := by decide +kernel
  apply (mean_exact [floatOne, floatOne] ?_).1
  · have mean : exactMean [floatOne, floatOne] = 1 := by
      rw [exactMean, exactSum_ones ones]
      norm_num
    rw [RoundsOnce, precision, mean]
    decide +kernel
  · intro part sub
    have few : part.length ≤ 2 := sub.length_le
    refine ⟨Decimal.ofNat part.length, ?_, ?_⟩
    · rw [precision, digitCount_le_iff _ _ (by norm_num)]
      exact lt_of_le_of_lt few (by norm_num)
    · rw [ofNat_toRat, exactSum_ones fun x hx => ones x (sub.subset hx)]

theorem exponent_48 : (-1074 : Int) ≤ 48 ∧ (48 : Int) ≤ 971 := by norm_num

/-- `2.0 ** 100`. -/
def floatHuge (negative : Bool) : Binary64 :=
  ⟨negative, floatOne.mantissa, 48, floatOne.mantissa_lt, exponent_48.1, exponent_48.2,
    Or.inl floatOne_normal⟩

theorem floatHuge_cancels :
    (floatHuge false).toDecimal.toRat + (floatHuge true).toDecimal.toRat = 0 := by
  have same : (floatHuge true).toDecimal = (floatHuge false).toDecimal.neg := by decide +kernel
  rw [same, Decimal.toRat_neg, add_neg_cancel]

/-- The sum loses the middle run, and the mean is zero instead of one third. -/
theorem spread_not_exact : ¬ MeanExact [floatHuge false, floatOne, floatHuge true] := by
  intro holds
  have accepted : (summarizeRuns [floatHuge false, floatOne, floatHuge true]).isOk = true := by
    decide +kernel
  cases returned : summarizeRuns [floatHuge false, floatOne, floatHuge true] with
  | error error =>
    rw [returned] at accepted
    cases accepted
  | ok summary =>
    have number := (summarizeRuns_mean returned).2
    have nearest := holds.mean _ summary (List.Perm.refl _) returned
    have third : exactMean [floatHuge false, floatOne, floatHuge true] = 1 / 3 := by
      have sum : exactSum [floatHuge false, floatOne, floatHuge true] = 1 := by
        have cancels := floatHuge_cancels
        simp only [exactSum, List.map_cons, List.map_nil, List.sum_cons, List.sum_nil, floatOne_value]
        linarith
      rw [exactMean, sum]
      norm_num
    rw [third, ← number] at nearest
    exact absurd nearest (by decide +kernel)

end ClaimCI
