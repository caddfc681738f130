import ClaimCI.ConfigCheck

/-!
# Compute comparison

The compute rule of the config check against exact arithmetic: which basis it selects, and that its
decision is the comparison of the exact ratio with three halves.
-/

open Python

namespace ClaimCI

/-! ### Exact amounts -/

/-- A positive number as a config declares it: an integer that Python can write, or the decimal
spelling of a float. -/
def exactAmount : Option Value → Option ℚ
  | some (.int n) => if 0 < n ∧ (decimalDigits n.natAbs).length ≤ INT_MAX_STR_DIGITS then some n else none
  | some (.float x) => if 0 < x.toDecimal.toRat then some x.toDecimal.toRat else none
  | _ => none

/-- The exact compute of a config on a basis. -/
def exactCompute (config : Config) (basis : Basis) : Option ℚ :=
  let amount (field : Str) : Option ℚ := exactAmount (valueAt config [field])
  match basis with
  | .trainingStepsBatchSize =>
    (amount "training_steps").bind fun steps => (amount "batch_size").map (steps * ·)
  | .trainingSteps => amount "training_steps"
  | .epochsBatchSize => (amount "epochs").bind fun epochs => (amount "batch_size").map (epochs * ·)
  | .epochs => amount "epochs"

/-- The first basis on which both configs declare positive amounts. -/
def firstBasis (baseline candidate : Config) : Option Basis :=
  BASES.find? fun basis =>
    (exactCompute baseline basis).isSome && (exactCompute candidate basis).isSome

theorem toRat_ofInt (n : Int) : (Decimal.ofInt n).toRat = n := by
  rcases lt_or_ge n 0 with negative | nonneg
  · have magnitude : (n.natAbs : Int) = -n := by omega
    simp [Decimal.ofInt, Decimal.toRat, Decimal.signed, negative, magnitude]
  · have magnitude : (n.natAbs : Int) = n := by omega
    simp [Decimal.ofInt, Decimal.toRat, Decimal.signed, not_lt.mpr nonneg, magnitude]

/-- The numbers that the check computes with are the exact amounts. -/
theorem positiveNumber_toRat (value : Option Value) :
    (positiveNumber value).map Decimal.toRat = exactAmount value := by
  have zero : (Decimal.ofNat 0).toRat = 0 := by simp [Decimal.ofNat, Decimal.toRat, Decimal.signed]
  have positive (d : Decimal) : (if (Decimal.ofNat 0).lt d then some d else none).map Decimal.toRat =
      if 0 < d.toRat then some d.toRat else none := by
    simp only [Decimal.lt_iff, zero]
    split <;> rfl
  cases value with
  | none => rfl
  | some value =>
    cases value with
    | int n =>
      by_cases written : (decimalDigits n.natAbs).length ≤ INT_MAX_STR_DIGITS
      · have number : positiveNumber (some (.int n)) =
            if (Decimal.ofNat 0).lt (Decimal.ofInt n) then some (Decimal.ofInt n) else none := by
          simp [positiveNumber, decimalNumber, intText, written]
        rw [number, positive, toRat_ofInt]
        simp [exactAmount, written]
      · simp [positiveNumber, decimalNumber, intText, written, exactAmount]
    | float x => exact positive x.toDecimal
    | _ => rfl

theorem computeProxy_toRat (config : Config) (basis : Basis) :
    (computeProxy config basis).map Decimal.toRat = exactCompute config basis := by
  have product (v w : Option Value) :
      ((positiveNumber v).bind fun a => (positiveNumber w).map (multiplyExact a)).map Decimal.toRat =
        (exactAmount v).bind fun x => (exactAmount w).map (x * ·) := by
    rw [← positiveNumber_toRat v, ← positiveNumber_toRat w]
    cases positiveNumber v with
    | none => rfl
    | some a =>
      cases positiveNumber w with
      | none => rfl
      | some b => exact congrArg some (multiplyExact_toRat a b)
  cases basis with
  | trainingStepsBatchSize => exact product _ _
  | trainingSteps => exact positiveNumber_toRat _
  | epochsBatchSize => exact product _ _
  | epochs => exact positiveNumber_toRat _

/-- Both configs have a proxy on a basis. -/
def bothProxies (baseline candidate : Config) (basis : Basis) : Option (Basis × Decimal × Decimal) :=
  (computeProxy baseline basis).bind fun b => (computeProxy candidate basis).map fun c => (basis, b, c)

theorem commonBasis_eq (baseline candidate : Config) :
    commonBasis baseline candidate = BASES.findSome? (bothProxies baseline candidate) := by
  unfold commonBasis bothProxies
  congr 1
  funext basis
  cases computeProxy baseline basis with
  | none => rfl
  | some b => cases computeProxy candidate basis <;> rfl

/-- The selected basis is the first one, with the exact compute of both configs. -/
theorem commonBasis_cases (baseline candidate : Config) :
    (commonBasis baseline candidate = none ∧ firstBasis baseline candidate = none) ∨
      ∃ basis b c, commonBasis baseline candidate = some (basis, b, c) ∧
        firstBasis baseline candidate = some basis ∧
        exactCompute baseline basis = some b.toRat ∧ 0 < b.toRat ∧
        exactCompute candidate basis = some c.toRat ∧ 0 < c.toRat := by
  rw [commonBasis_eq]
  unfold firstBasis
  -- the first basis that both declare; one that either lacks is skipped
  induction BASES with
  | nil => exact Or.inl ⟨rfl, rfl⟩
  | cons basis bases ih =>
    have baselineRat := computeProxy_toRat baseline basis
    have candidateRat := computeProxy_toRat candidate basis
    cases hb : computeProxy baseline basis with
    | none =>
      rw [hb, Option.map_none] at baselineRat
      have missing : bothProxies baseline candidate basis = none := by simp [bothProxies, hb]
      rw [List.findSome?_cons_of_isNone (Option.isNone_iff_eq_none.mpr missing),
        List.find?_cons_of_neg (by simp [← baselineRat])]
      exact ih
    | some b =>
      rw [hb, Option.map_some] at baselineRat
      cases hc : computeProxy candidate basis with
      | none =>
        rw [hc, Option.map_none] at candidateRat
        have missing : bothProxies baseline candidate basis = none := by simp [bothProxies, hb, hc]
        rw [List.findSome?_cons_of_isNone (Option.isNone_iff_eq_none.mpr missing),
          List.find?_cons_of_neg (by simp [← candidateRat])]
        exact ih
      | some c =>
        rw [hc, Option.map_some] at candidateRat
        have found : bothProxies baseline candidate basis = some (basis, b, c) := by
          simp [bothProxies, hb, hc]
        right
        refine ⟨basis, b, c, ?_, ?_, baselineRat.symm, computeProxy_pos baseline basis b hb,
          candidateRat.symm, computeProxy_pos candidate basis c hc⟩
        · rw [List.findSome?_cons, found]
        · exact List.find?_cons_of_pos (by simp [← baselineRat, ← candidateRat])

theorem computeThreshold_toRat : COMPUTE_RATIO_THRESHOLD.toRat = 3 / 2 := by
  norm_num [COMPUTE_RATIO_THRESHOLD, Decimal.toRat, Decimal.signed]

/-- The exact ratio on the first common basis is at least three halves. -/
def ExceedsCompute (baseline candidate : Config) : Prop :=
  ∃ basis x y, firstBasis baseline candidate = some basis ∧ exactCompute baseline basis = some x ∧
    exactCompute candidate basis = some y ∧ 3 / 2 ≤ y / x

theorem computeMismatch_exceeds (baseline candidate : Config) :
    computeMismatch baseline candidate = true ↔ ExceedsCompute baseline candidate := by
  unfold computeMismatch ExceedsCompute
  rcases commonBasis_cases baseline candidate with
    ⟨none, first⟩ | ⟨basis, b, c, some, first, baselineRat, positive, candidateRat, -⟩
  · rw [none, first]
    simp
  · rw [some, first]
    dsimp only
    rw [atLeastRatio_iff c b COMPUTE_RATIO_THRESHOLD positive, computeThreshold_toRat]
    constructor
    · exact fun exceeds => ⟨basis, b.toRat, c.toRat, rfl, baselineRat, candidateRat, exceeds⟩
    · rintro ⟨basis', x, y, same, hx, hy, exceeds⟩
      obtain rfl := Option.some.inj same
      rw [baselineRat] at hx
      rw [candidateRat] at hy
      rw [Option.some.inj hx, Option.some.inj hy]
      exact exceeds

/-! ### The finding -/

/-- A finding of a rule. -/
def Emits (findings : List Finding) (rule : Str) : Prop := ∃ finding ∈ findings, finding.ruleId = rule

theorem emits_append {some more : List Finding} {rule : Str} :
    Emits (some ++ more) rule ↔ Emits some rule ∨ Emits more rule := by
  simp only [Emits, List.mem_append, or_and_right, exists_or]

/-- The findings before a compared pair of configs counts as fair. -/
theorem emits_checkConfigs {baseline candidate : Config} {rule : Str}
    (unfair : rule ≠ lit "CONFIG.FAIRNESS_VERIFIED") :
    Emits (checkConfigs baseline candidate) rule ↔
      Emits (missingFieldsFindings baseline candidate) rule ∨
      Emits (computeFindings baseline candidate) rule ∨
      Emits (evaluationFindings baseline candidate) rule ∨
      Emits (trainingDatasetFindings baseline candidate) rule ∨
      Emits (trainingParameterFindings baseline candidate) rule ∨
      Emits (learningRateFindings baseline candidate) rule ∨
      Emits (modelFindings baseline candidate) rule := by
  have all : Emits (checkConfigs baseline candidate) rule ↔
      Emits (missingFieldsFindings baseline candidate ++ computeFindings baseline candidate ++
        evaluationFindings baseline candidate ++ trainingDatasetFindings baseline candidate ++
        trainingParameterFindings baseline candidate ++ learningRateFindings baseline candidate ++
        modelFindings baseline candidate) rule := by
    unfold checkConfigs
    dsimp only
    split
    next none =>
      rw [none]
      constructor
      · rintro ⟨finding, only, same⟩
        rw [List.mem_singleton.mp only] at same
        exact absurd same.symm unfair
      · rintro ⟨finding, member, -⟩
        cases member
    · rfl
  rw [all]
  simp only [emits_append, or_assoc]

theorem emits_nil {rule : Str} : ¬ Emits [] rule := by
  rintro ⟨finding, member, -⟩
  cases member

theorem emits_singleton {finding : Finding} {rule : Str} :
    Emits [finding] rule ↔ finding.ruleId = rule := by
  simp [Emits]

theorem emits_missingFieldsFindings {baseline candidate : Config} {rule : Str} :
    Emits (missingFieldsFindings baseline candidate) rule ↔
      ¬ (missingOrInvalidFields baseline = [] ∧ missingOrInvalidFields candidate = []) ∧
        lit "CONFIG.MISSING_FIELDS" = rule := by
  unfold missingFieldsFindings
  dsimp only
  split
  next complete => exact iff_of_false emits_nil fun h => h.1 complete
  next incomplete => simp [emits_singleton, incomplete]

theorem emits_computeFindings {baseline candidate : Config} {rule : Str} :
    Emits (computeFindings baseline candidate) rule ↔
      computeMismatch baseline candidate = true ∧ lit "CONFIG.COMPUTE_MISMATCH" = rule := by
  unfold computeFindings
  dsimp only
  split
  next mismatch => simp [emits_singleton, mismatch]
  next matching => exact iff_of_false emits_nil fun h => matching h.1

theorem emits_evaluationFindings {baseline candidate : Config} {rule : Str} :
    Emits (evaluationFindings baseline candidate) rule ↔
      (evaluationMappingComplete baseline = true ∧ evaluationMappingComplete candidate = true ∧
        sameLookup (valueAt baseline ["evaluation"]) (valueAt candidate ["evaluation"]) = false) ∧
      lit "CONFIG.EVALUATION_MISMATCH" = rule := by
  unfold evaluationFindings
  dsimp only
  split
  next mismatch => simp [emits_singleton, mismatch]
  next matching => exact iff_of_false emits_nil fun h => matching h.1

theorem emits_trainingDatasetFindings {baseline candidate : Config} {rule : Str} :
    Emits (trainingDatasetFindings baseline candidate) rule ↔
      ¬ (sameMember (valueAt baseline ["dataset", "identifier"])
            (valueAt candidate ["dataset", "identifier"]) = true ∧
          sameMember (valueAt baseline ["dataset", "version"])
            (valueAt candidate ["dataset", "version"]) = true) ∧
        lit "CONFIG.TRAINING_DATASET_MISMATCH" = rule := by
  unfold trainingDatasetFindings
  dsimp only
  split
  next same => exact iff_of_false emits_nil fun h => h.1 same
  next different => simp [emits_singleton, different]

/-- The training parameters that differ. -/
theorem emits_trainingParameterFindings {baseline candidate : Config} {rule : Str} :
    Emits (trainingParameterFindings baseline candidate) rule ↔
      (computeMismatch baseline candidate = false ∧ ∃ field ∈ COMPUTE_FIELDS,
        sameLookup (valueAt baseline [field]) (valueAt candidate [field]) = false) ∧
      lit "CONFIG.TRAINING_PARAMETER_DIFFERENCE" = rule := by
  have differs : COMPUTE_FIELDS.filter (fun field =>
      !sameLookup (valueAt baseline [field]) (valueAt candidate [field])) = [] ↔
        ¬ ∃ field ∈ COMPUTE_FIELDS,
          sameLookup (valueAt baseline [field]) (valueAt candidate [field]) = false := by
    rw [List.filter_eq_nil_iff, not_exists]
    simp
  unfold trainingParameterFindings
  dsimp only
  split
  next same =>
    refine iff_of_false emits_nil fun h => ?_
    rcases same with none | mismatch
    · exact differs.mp none h.1.2
    · rw [h.1.1] at mismatch
      cases mismatch
  next different =>
    obtain ⟨some, matching⟩ := not_or.mp different
    rw [differs, not_not] at some
    rw [Bool.not_eq_true] at matching
    rw [emits_singleton]
    exact ⟨fun same => ⟨⟨matching, some⟩, same⟩, And.right⟩

theorem emits_learningRateFindings {baseline candidate : Config} {rule : Str} :
    Emits (learningRateFindings baseline candidate) rule ↔
      sameLookup (valueAt baseline ["learning_rate"]) (valueAt candidate ["learning_rate"]) = false ∧
        lit "CONFIG.LEARNING_RATE_DIFFERENCE" = rule := by
  unfold learningRateFindings
  dsimp only
  split
  next same => exact iff_of_false emits_nil fun h => by rw [h.1] at same; cases same
  next different => simp [emits_singleton, different]

theorem emits_modelFindings {baseline candidate : Config} {rule : Str} :
    Emits (modelFindings baseline candidate) rule ↔
      sameLookup (valueAt baseline ["model"]) (valueAt candidate ["model"]) = false ∧
        lit "CONFIG.MODEL_DIFFERENCE" = rule := by
  unfold modelFindings
  dsimp only
  split
  next same => exact iff_of_false emits_nil fun h => by rw [h.1] at same; cases same
  next different => simp [emits_singleton, different]

/-- The compute rule is reported on a mismatch. -/
theorem emits_computeMismatch (baseline candidate : Config) :
    Emits (checkConfigs baseline candidate) "CONFIG.COMPUTE_MISMATCH" ↔
      computeMismatch baseline candidate = true := by
  rw [emits_checkConfigs (by decide), emits_missingFieldsFindings, emits_computeFindings,
    emits_evaluationFindings, emits_trainingDatasetFindings, emits_trainingParameterFindings,
    emits_learningRateFindings, emits_modelFindings]
  constructor
  · rintro (⟨-, other⟩ | ⟨mismatch, -⟩ | ⟨-, other⟩ | ⟨-, other⟩ | ⟨-, other⟩ | ⟨-, other⟩ | ⟨-, other⟩)
    · exact absurd other (by decide)
    · exact mismatch
    · exact absurd other (by decide)
    · exact absurd other (by decide)
    · exact absurd other (by decide)
    · exact absurd other (by decide)
    · exact absurd other (by decide)
  · exact fun mismatch => Or.inr (Or.inl ⟨mismatch, rfl⟩)

/-- The compute of one config is a multiple of that of another on a basis. -/
def Scales (factor : ℚ) (config scaled : Config) (basis : Basis) : Prop :=
  exactCompute scaled basis = (exactCompute config basis).map (factor * ·)

/-- The check selects the first basis on which both configs declare positive amounts, it reports a
mismatch exactly if the exact ratio on it is at least three halves, and scaling both sides by one
positive factor does not change that. -/
theorem computeRule_exact (baseline candidate : Config) :
    (commonBasis baseline candidate).map Prod.fst = firstBasis baseline candidate ∧
      (Emits (checkConfigs baseline candidate) "CONFIG.COMPUTE_MISMATCH" ↔
        ExceedsCompute baseline candidate) ∧
      ∀ baseline' candidate' basis (factor : ℚ), 0 < factor →
        firstBasis baseline candidate = some basis → firstBasis baseline' candidate' = some basis →
        Scales factor baseline baseline' basis → Scales factor candidate candidate' basis →
          (Emits (checkConfigs baseline' candidate') "CONFIG.COMPUTE_MISMATCH" ↔
            Emits (checkConfigs baseline candidate) "CONFIG.COMPUTE_MISMATCH") := by
  refine ⟨?_, ?_, ?_⟩
  · rcases commonBasis_cases baseline candidate with
      ⟨none, first⟩ | ⟨basis, b, c, some, first, -⟩
    · rw [none, first, Option.map_none]
    · rw [some, first, Option.map_some]
  · rw [emits_computeMismatch, computeMismatch_exceeds]
  -- a common positive factor leaves the ratio as it is
  · intro baseline' candidate' basis factor positive first first' scales scales'
    rw [emits_computeMismatch, emits_computeMismatch, computeMismatch_exceeds, computeMismatch_exceeds]
    rcases commonBasis_cases baseline candidate with
      ⟨-, none⟩ | ⟨other, b, c, -, same, baselineRat, bpos, candidateRat, -⟩
    · rw [none] at first
      cases first
    · obtain rfl := Option.some.inj (first.symm.trans same)
      rw [Scales, baselineRat, Option.map_some] at scales
      rw [Scales, candidateRat, Option.map_some] at scales'
      have ratio : factor * c.toRat / (factor * b.toRat) = c.toRat / b.toRat :=
        mul_div_mul_left _ _ positive.ne'
      have exceeds {left right : Config} {x y : ℚ} (selected : firstBasis left right = some basis)
          (hx : exactCompute left basis = some x) (hy : exactCompute right basis = some y) :
          ExceedsCompute left right ↔ 3 / 2 ≤ y / x := by
        constructor
        · rintro ⟨other, x', y', selected', hx', hy', atLeast⟩
          obtain rfl := Option.some.inj (selected.symm.trans selected')
          rw [Option.some.inj (hx.symm.trans hx'), Option.some.inj (hy.symm.trans hy')]
          exact atLeast
        · exact fun atLeast => ⟨basis, x, y, selected, hx, hy, atLeast⟩
      rw [exceeds first' scales scales', exceeds first baselineRat candidateRat, ratio]

/-! ### An integer that Python does not write -/

/-- Steps, epochs and batch size. -/
def computeConfig (trainingSteps epochs batchSize : Int) : Config :=
  [(.str "training_steps", .int trainingSteps), (.str "epochs", .int epochs),
    (.str "batch_size", .int batchSize)]

theorem computeRule_exact_doubled :
    Emits (checkConfigs (computeConfig 20 1 8) (computeConfig 40 1 8)) "CONFIG.COMPUTE_MISMATCH" ↔
      Emits (checkConfigs (computeConfig 10 1 8) (computeConfig 20 1 8))
        "CONFIG.COMPUTE_MISMATCH" := by
  apply (computeRule_exact (computeConfig 10 1 8) (computeConfig 20 1 8)).2.2 _ _
    .trainingStepsBatchSize 2 (by norm_num)
  · decide +kernel
  · decide +kernel
  · unfold Scales
    decide +kernel
  · unfold Scales
    decide +kernel

/-- An integer that Python does not write is no number. -/
theorem positiveNumber_long {n : Int} (long : 10 ^ INT_MAX_STR_DIGITS ≤ n.natAbs) :
    positiveNumber (some (.int n)) = none := by
  have digits : ¬ (decimalDigits n.natAbs).length ≤ INT_MAX_STR_DIGITS := by
    intro short
    exact absurd ((digitCount_le_iff n.natAbs INT_MAX_STR_DIGITS (by decide)).mp short)
      (not_lt.mpr long)
  rw [positiveNumber, Option.bind_some, decimalNumber, intText, if_neg digits, Option.map_none]

/-- The steps of such configs are not compared, and their epochs are equal. -/
theorem computeMismatch_long {m n : Int} (left : 10 ^ INT_MAX_STR_DIGITS ≤ m.natAbs)
    (right : 10 ^ INT_MAX_STR_DIGITS ≤ n.natAbs) :
    computeMismatch (computeConfig m 1 1) (computeConfig n 1 1) = false := by
  have steps (k : Int) : valueAt (computeConfig k 1 1) ["training_steps"] = some (.int k) := rfl
  have epochs (k : Int) : valueAt (computeConfig k 1 1) ["epochs"] = some (.int 1) := rfl
  have batch (k : Int) : valueAt (computeConfig k 1 1) ["batch_size"] = some (.int 1) := rfl
  have one : ∃ d, positiveNumber (some (.int 1)) = some d ∧
      atLeastRatio (multiplyExact d d) (multiplyExact d d) COMPUTE_RATIO_THRESHOLD = false :=
    ⟨_, rfl, by decide +kernel⟩
  obtain ⟨d, number, below⟩ := one
  simp [computeMismatch, commonBasis, BASES, computeProxy, steps, epochs, batch,
    positiveNumber_long left, positiveNumber_long right, number, below]

/-- An integer of 4301 digits is no number of steps. -/
theorem exists_longNumber :
    ∃ n : Int, 0 < n ∧
      computeMismatch (computeConfig n 1 1) (computeConfig (2 * n) 1 1) = false := by
  obtain ⟨n, long⟩ : ∃ n : Nat, 10 ^ INT_MAX_STR_DIGITS ≤ n := ⟨_, le_rfl⟩
  have positive : 0 < n := Nat.lt_of_lt_of_le (Nat.pow_pos (by decide)) long
  have same : (n : Int).natAbs = n := Int.natAbs_natCast n
  have twice : n ≤ (2 * (n : Int)).natAbs := by
    clear long
    omega
  refine ⟨n, by exact_mod_cast positive, computeMismatch_long ?_ (Nat.le_trans long twice)⟩
  rw [same]
  exact long

/-- Twice as many training steps are no mismatch when their number has more digits than Python
writes: the compute is compared on the epochs. -/
theorem longSteps_not_exact :
    ¬ ∀ (baseline candidate : Config) (x y batch : Int), 0 < x → 0 < y → 0 < batch →
      valueAt baseline ["training_steps"] = some (.int x) →
      valueAt candidate ["training_steps"] = some (.int y) →
      valueAt baseline ["batch_size"] = some (.int batch) →
      valueAt candidate ["batch_size"] = some (.int batch) → 3 / 2 ≤ (y : ℚ) / x →
        Emits (checkConfigs baseline candidate) "CONFIG.COMPUTE_MISMATCH" := by
  intro exact'
  obtain ⟨n, positive, matching⟩ := exists_longNumber
  have twice : 3 / 2 ≤ ((2 * n : Int) : ℚ) / n := by
    have nonzero : (n : ℚ) ≠ 0 := by exact_mod_cast positive.ne'
    rw [Int.cast_mul, mul_div_assoc, div_self nonzero]
    norm_num
  have reported := exact' (computeConfig n 1 1) (computeConfig (2 * n) 1 1) n (2 * n) 1 positive
    (by omega) one_pos rfl rfl rfl rfl twice
  rw [emits_computeMismatch, matching] at reported
  cases reported

end ClaimCI
