import ClaimCI.BenchmarkCompletion
import ClaimCI.Python.Literals

/-!
# Benchmark derivation

The recomputed product of a deterministic derivation against the exact product of what the evidence
states: both operands are rounded when they are recovered, and so is their product.
-/

open Python

namespace ClaimCI

/-! ### Recovered operands -/

/-- A normalized number as its text is read again: zero has no sign. -/
def operandOf (canonical : Decimal) : Decimal :=
  if canonical.isZero then ⟨false, 0, 0⟩ else canonical

/-- What the derivation calculates with for a stated number. -/
def recoveredOperand (number : Decimal) : Option Decimal :=
  (DEFAULT_CONTEXT.normalize number).map operandOf

/-- The product that the derivation compares with the represented value. -/
def derivationProduct (unit quantity : Decimal) : Option Decimal := do
  let unitOperand ← recoveredOperand unit
  let quantityOperand ← recoveredOperand quantity
  DERIVATION_CONTEXT.mul unitOperand quantityOperand

theorem defaultContext_precision : 0 < DEFAULT_CONTEXT.precision := by decide

theorem defaultContext_range : DEFAULT_CONTEXT.etiny ≤ DEFAULT_CONTEXT.emax := by decide

theorem profileDecimalText_eq (canonical : Decimal) :
    profileDecimalText canonical = (operandOf canonical).spelling.render := by
  unfold profileDecimalText operandOf
  split
  · decide +kernel
  · rfl

theorem operandOf_representable {number canonical : Decimal}
    (normalized : DEFAULT_CONTEXT.normalize number = some canonical) :
    (operandOf canonical).Representable := by
  unfold operandOf
  split
  · decide
  · exact DecimalContext.representable_of_normalize defaultContext_precision defaultContext_range
      (by decide) (by decide) normalized

theorem toRat_operandOf (canonical : Decimal) : (operandOf canonical).toRat = canonical.toRat := by
  unfold operandOf
  split
  next zero =>
    have vanishes : canonical.coefficient = 0 := by simpa [Decimal.isZero] using zero
    rw [(Decimal.toRat_eq_zero_iff canonical).mpr vanishes]
    exact (Decimal.toRat_eq_zero_iff _).mpr rfl
  · rfl

section Recovery

variable {digit : CodePoint → Option Digit}

/-- A decimal field is no integer. -/
theorem canonicalProfileScalar_decimal {key : Str} (field : key ∈ DECIMAL_FIELDS)
    (value : JsonScalar) : canonicalProfileScalar digit key value = (do
      let number ← profileDecimal digit value
      let canonical ← DEFAULT_CONTEXT.normalize number
      some (some (.str (profileDecimalText canonical)))) := by
  have notInteger : (POSITIVE_INTEGER_FIELDS.contains key ||
      NONNEGATIVE_INTEGER_FIELDS.contains key) = false := by
    simp only [DECIMAL_FIELDS, List.mem_cons, List.not_mem_nil, or_false] at field
    rcases field with rfl | rfl <;>
      simp [UNIT_VALUE, QUANTITY, POSITIVE_INTEGER_FIELDS, NONNEGATIVE_INTEGER_FIELDS, lit_inj]
  rw [canonicalProfileScalar, notInteger, if_neg Bool.false_ne_true,
    if_pos (List.contains_iff_mem.mpr field)]

/-- A recovered decimal field is the text of its operand. -/
theorem recoverComponent_decimal {config : ConfigValue} (field : config.key ∈ DECIMAL_FIELDS)
    {value : JsonScalar} {canonical : Str}
    (recovered : recoverComponent digit config = .ok (value, canonical)) :
    ∃ number operand, profileDecimal digit config.value = some number ∧
      recoveredOperand number = some operand ∧ operand.Representable ∧
      value = some (.str operand.spelling.render) ∧
      canonicalText (.str operand.spelling.render) = some canonical := by
  unfold recoverComponent at recovered
  split at recovered
  · cases recovered
  next found scalar =>
    split at recovered
    · cases recovered
    next text written =>
      obtain ⟨rfl, rfl⟩ := Prod.mk.inj (Except.ok.inj recovered)
      rw [canonicalProfileScalar_decimal field] at scalar
      obtain ⟨number, read, scalar⟩ := Option.bind_eq_some_iff.mp scalar
      obtain ⟨normalized, rounded, scalar⟩ := Option.bind_eq_some_iff.mp scalar
      have same := Option.some.inj scalar
      rw [profileDecimalText_eq] at same
      subst same
      exact ⟨number, operandOf normalized, read, by rw [recoveredOperand, rounded]; rfl,
        operandOf_representable rounded, rfl, written⟩

/-- The canonical text of the text of a decimal tells the decimal. -/
theorem canonicalText_spelling {a b : Decimal} {text : Str}
    (left : canonicalText (.str a.spelling.render) = some text)
    (right : canonicalText (.str b.spelling.render) = some text) : a = b := by
  have kept : ∀ d : Decimal, (Json.str d.spelling.render).Kept identityStyle.ensureAscii := by
    intro d
    have plain : ∀ s : Str, s.all isNumeralCharacter = true → joinSurrogates s = s := by
      intro s
      induction s with
      | nil => exact fun _ => rfl
      | cons c rest ih =>
        intro numeral
        rw [List.all_cons, Bool.and_eq_true] at numeral
        obtain ⟨-, -, -, ascii⟩ := numeralCharacter_plain numeral.1
        have single : isHighSurrogate c.val = false := by simp [isHighSurrogate]; omega
        rw [joinSurrogates_cons single, ih numeral.2]
    exact plain _ (render_numeral _)
  have same := dumps_injective_of_kept identityStyle
    ⟨by simp [identityStyle], by simp [identityStyle]⟩ rfl _ _
    (by simp only [Json.DistinctKeys]) (by simp only [Json.DistinctKeys]) (kept a) (kept b)
    text left right
  exact Decimal.text_injective (Json.str.inj same)

/-- What the derivation reads for a stated decimal is its operand. -/
theorem exactDecimal_projection {evidence : List BenchmarkEvidence}
    {config : List (Str × JsonScalar)} (made : configProjection digit evidence = .ok config)
    {stated : ConfigValue} (member : stated ∈ benchmarkConfigs evidence)
    (field : stated.key ∈ DECIMAL_FIELDS) (label : Str) {number : Decimal}
    (states : profileDecimal digit stated.value = some number) :
    ∃ operand value, recoveredOperand number = some operand ∧
      lookupKey stated.key config = some value ∧ exactDecimal digit value label = .ok operand := by
  have profile : ∀ key ∈ DECIMAL_FIELDS, key ∈ BENCHMARK_PROFILE_FIELDS := by
    simp [DECIMAL_FIELDS, UNIT_VALUE, QUANTITY, BENCHMARK_PROFILE_FIELDS]
  obtain ⟨value, canonical, stored, source, recovered, found, -, named, again⟩ :=
    lookupKey_projection made member (profile _ field)
  obtain ⟨read, operand, reads, operates, -, rfl, written⟩ :=
    recoverComponent_decimal field recovered
  obtain ⟨-, other, -, -, limits, rfl, rewritten⟩ :=
    recoverComponent_decimal (named ▸ field) again
  obtain rfl := canonicalText_spelling written rewritten
  obtain rfl := Option.some.inj (reads.symm.trans states)
  refine ⟨operand, _, operates, found, ?_⟩
  rw [exactDecimal, profileDecimal, decimalOfText_spelling digit limits]

/-! ### The derivation of one role -/

def FORMULA_FAMILY : Str := "benchmark.evaluator.formula_family"

theorem canonicalProfileScalar_family {key : Str} (family : key = FORMULA_FAMILY)
    (value : JsonScalar) : canonicalProfileScalar digit key value = some value := by
  rw [family]
  apply canonicalProfileScalar_plain
  · simp [FORMULA_FAMILY, POSITIVE_INTEGER_FIELDS, lit_inj]
  · simp [FORMULA_FAMILY, NONNEGATIVE_INTEGER_FIELDS, lit_inj]
  · simp [FORMULA_FAMILY, DECIMAL_FIELDS, UNIT_VALUE, QUANTITY, lit_inj]

/-- The family is recovered as it is stated. -/
theorem recoverComponent_family {config : ConfigValue} (family : config.key = FORMULA_FAMILY)
    {value : JsonScalar} {canonical : Str}
    (recovered : recoverComponent digit config = .ok (value, canonical)) :
    value = config.value := by
  unfold recoverComponent at recovered
  rw [canonicalProfileScalar_family family] at recovered
  dsimp only at recovered
  split at recovered
  · cases recovered
  · exact (Prod.mk.inj (Except.ok.inj recovered)).1.symm

/-- The evidence of a role is in the form of a deterministic derivation: it states the family, a
unit value and a quantity. -/
structure StatesDerivation (digit : CodePoint → Option Digit) (evidence : List BenchmarkEvidence)
    (unit quantity : Decimal) : Prop where
  family : ∃ config ∈ benchmarkConfigs evidence, config.key = FORMULA_FAMILY
  families : ∀ config ∈ benchmarkConfigs evidence, config.key = FORMULA_FAMILY →
    config.value = some (.str "multiply_v1")
  unitValue : ∃ config ∈ benchmarkConfigs evidence, config.key = UNIT_VALUE ∧
    profileDecimal digit config.value = some unit
  quantity : ∃ config ∈ benchmarkConfigs evidence, config.key = QUANTITY ∧
    profileDecimal digit config.value = some quantity

theorem scalarsEqual_str (a b : Str) : scalarsEqual (some (.str a)) (some (.str b)) = (a == b) :=
  rfl

theorem derivationOperands_projection {evidence : List BenchmarkEvidence}
    {config : List (Str × JsonScalar)} (made : configProjection digit evidence = .ok config)
    {unit quantity : Decimal} (states : StatesDerivation digit evidence unit quantity)
    (role : Arm) :
    ∃ unitOperand quantityOperand, recoveredOperand unit = some unitOperand ∧
      recoveredOperand quantity = some quantityOperand ∧
      derivationOperands digit role config = .ok (unitOperand, quantityOperand) := by
  -- each field of the statement is found in the projection, and recovered there
  obtain ⟨stated, member, key⟩ := states.family
  have familyField : FORMULA_FAMILY ∈ BENCHMARK_PROFILE_FIELDS := by
    simp [FORMULA_FAMILY, BENCHMARK_PROFILE_FIELDS]
  obtain ⟨_, _, stored, source, _, found, inside, named, recovered⟩ :=
    lookupKey_projection made member (key ▸ familyField)
  have family : stored = some (.str "multiply_v1") := by
    rw [recoverComponent_family (named.trans key) recovered]
    exact states.families source inside (named.trans key)
  obtain ⟨unitConfig, unitMember, unitKey, unitReads⟩ := states.unitValue
  obtain ⟨quantityConfig, quantityMember, quantityKey, quantityReads⟩ := states.quantity
  obtain ⟨unitOperand, unitStored, unitRounded, unitFound, unitExact⟩ :=
    exactDecimal_projection made unitMember (by rw [unitKey]; simp [DECIMAL_FIELDS])
      (role.text ++ lit " unit value") unitReads
  obtain ⟨quantityOperand, quantityStored, quantityRounded, quantityFound, quantityExact⟩ :=
    exactDecimal_projection made quantityMember (by rw [quantityKey]; simp [DECIMAL_FIELDS])
      (role.text ++ lit " quantity") quantityReads
  refine ⟨unitOperand, quantityOperand, unitRounded, quantityRounded, ?_⟩
  have required : ∀ key value, lookupKey key config = some value →
      requiredValue config key = .ok value := by
    intro key value there
    rw [requiredValue, there]
  rw [key] at found
  rw [unitKey] at unitFound
  rw [quantityKey] at quantityFound
  -- the family is the only one that the code knows
  have supported : rejectIf (!scalarsEqual (some (.str "multiply_v1")) (some (.str "multiply_v1")))
      (Error.claimCI "deterministic formula family is unsupported") = .ok () := by
    rw [rejectIf_ok_iff, scalarsEqual_str, beq_self_eq_true]
    rfl
  unfold derivationOperands
  refine bind_ok_iff.mpr ⟨_, required _ _ (family ▸ found), ?_⟩
  refine bind_ok_iff.mpr ⟨_, supported, ?_⟩
  refine bind_ok_iff.mpr ⟨_, required _ _ unitFound, ?_⟩
  refine bind_ok_iff.mpr ⟨_, unitExact, ?_⟩
  refine bind_ok_iff.mpr ⟨_, required _ _ quantityFound, ?_⟩
  exact bind_ok_iff.mpr ⟨_, quantityExact, rfl⟩

end Recovery

/-! ### Mismatches -/

/-- The finding says that the derivation of the role does not match. -/
def IsDerivationMismatch (role : Arm) (finding : Finding) : Prop :=
  finding.ruleId = lit "BENCHMARK.DERIVATION_MISMATCH" ∧
    lookupKey (lit "role") finding.evidence = some (.str role.text)

/-- The audit emits a derivation mismatch for the role. -/
def EmitsMismatch (audit : BenchmarkAudit) (role : Arm) : Prop :=
  ∃ finding ∈ audit.result.findings, IsDerivationMismatch role finding

theorem armText_injective {role other : Arm} (same : role.text = other.text) : role = other := by
  cases role <;> cases other
  · rfl
  · exact absurd same (by decide)
  · exact absurd same (by decide)
  · rfl

theorem isDerivationMismatch_iff (role other : Arm) (represented recomputed : Binary64) :
    IsDerivationMismatch other (derivationMismatch role represented recomputed) ↔ other = role := by
  have evidence : lookupKey (lit "role") (derivationMismatch role represented recomputed).evidence =
      some (.str role.text) := rfl
  unfold IsDerivationMismatch
  rw [evidence]
  constructor
  · rintro ⟨-, same⟩
    exact (armText_injective (Value.str.inj (Option.some.inj same))).symm
  · rintro rfl
    exact ⟨rfl, rfl⟩

/-- A finding of other rules is no mismatch. -/
theorem not_isDerivationMismatch {rules : List Str} {bound : Nat} {findings : List Finding}
    (known : RulesIn rules bound findings)
    (other : lit "BENCHMARK.DERIVATION_MISMATCH" ∉ rules) (role : Arm) :
    ¬ ∃ finding ∈ findings, IsDerivationMismatch role finding := by
  rintro ⟨finding, member, named, -⟩
  exact other (named ▸ known.rule finding member)

section Role

variable {digit : CodePoint → Option Digit} {rt : Runtime} {claim : AuditClaimSpec} {role : Arm}
  {config : List (Str × JsonScalar)} {evidence : List BenchmarkEvidence}
  {found : List Finding × Option Binary64}

theorem value_not_mismatch : lit "BENCHMARK.DERIVATION_MISMATCH" ∉ VALUE_RULES := by
  simp [VALUE_RULES, lit_inj]

theorem protocol_not_mismatch : lit "BENCHMARK.DERIVATION_MISMATCH" ∉ PROTOCOL_RULES := by
  simp [PROTOCOL_RULES, MISMATCH_RULES, lit_inj]

theorem result_not_mismatch : lit "BENCHMARK.DERIVATION_MISMATCH" ∉ RESULT_RULES := by
  simp [RESULT_RULES, lit_inj]

/-- A derivation reports mismatches of its own role only. -/
theorem role_of_mismatch (made : deriveRole digit rt claim role config evidence = .ok found)
    {other : Arm} (emits : ∃ finding ∈ found.1, IsDerivationMismatch other finding) :
    other = role := by
  obtain ⟨finding, member, mismatch⟩ := emits
  rcases (deriveRole_findings made).2 finding member with value | ⟨represented, recomputed, rfl⟩
  · exact absurd (mismatch.1 ▸ value) value_not_mismatch
  · exact (isDerivationMismatch_iff role other represented recomputed).mp mismatch

/-- The derivation of a role with one represented value reports a mismatch exactly if the product,
as it is rounded, is a finite float and another number. -/
theorem mismatch_iff (made : deriveRole digit rt claim role config evidence = .ok found)
    {unit quantity : Decimal}
    (operands : derivationOperands digit role config = .ok (unit, quantity))
    {value : Binary64} (single : (singleMetricValue rt evidence claim.metric role).1 = some value) :
    ∃ product, DERIVATION_CONTEXT.mul unit quantity = some product ∧
      ((∃ finding ∈ found.1, IsDerivationMismatch role finding) ↔
        (Binary64.ofDecimal product).isSome = true ∧ product.toRat ≠ value.toDecimal.toRat) := by
  -- the findings on the single value are no mismatches
  have values := not_isDerivationMismatch (singleMetricValue_rules rt evidence claim.metric role)
    value_not_mismatch role
  have alone := not_isDerivationMismatch
    (procedureInsufficient_rules (role.text ++ lit " deterministic derivation"))
    value_not_mismatch role
  unfold deriveRole at made
  rw [operands] at made
  dsimp only at made
  cases rounded : DERIVATION_CONTEXT.mul unit quantity with
  | none =>
    rw [rounded] at made
    cases made
  | some product =>
    refine ⟨product, rfl, ?_⟩
    rw [rounded] at made
    dsimp only at made
    -- a product beyond the floats is reported as insufficient
    cases number : Binary64.ofDecimal product with
    | none =>
      rw [number] at made
      obtain rfl := Except.ok.inj made
      simpa [derivationInsufficient] using alone
    -- otherwise the code compares the exact values
    | some recomputed =>
      rw [number, single] at made
      obtain rfl := Except.ok.inj made
      simp only [Option.isSome_some, true_and, List.mem_append, or_and_right, exists_or]
      rw [or_iff_right values]
      split
      next same =>
        rw [Decimal.eq_iff] at same
        simp [same]
      next differ =>
        rw [Decimal.eq_iff] at differ
        simp [isDerivationMismatch_iff, Ne.symm differ]

end Role

/-! ### Exact products -/

section Exact

variable (unit quantity represented : Decimal)

/-- The exact product of what is stated. -/
def statedProduct : ℚ := unit.toRat * quantity.toRat

/-- Rounding carries a product that is not the represented value onto it. -/
def RoundedOnto : Prop :=
  statedProduct unit quantity ≠ represented.toRat ∧
    ∃ product ∈ derivationProduct unit quantity, product.toRat = represented.toRat

/-- Rounding carries a product that is the represented value off it. -/
def RoundedOff : Prop :=
  statedProduct unit quantity = represented.toRat ∧
    ∃ product ∈ derivationProduct unit quantity,
      (Binary64.ofDecimal product).isSome = true ∧ product.toRat ≠ represented.toRat

/-- The product is not the represented value, and larger than every float. -/
def BeyondFloats : Prop :=
  statedProduct unit quantity ≠ represented.toRat ∧
    ∃ product ∈ derivationProduct unit quantity, Binary64.ofDecimal product = none

end Exact

/-- A product whose operands and digits fit the contexts is not rounded. -/
theorem derivationProduct_exact {unit quantity product : Decimal}
    (unitHeld : DEFAULT_CONTEXT.Holds unit) (quantityHeld : DEFAULT_CONTEXT.Holds quantity)
    (held : DERIVATION_CONTEXT.Holds (unit.stripped.mulExact quantity.stripped))
    (made : derivationProduct unit quantity = some product) :
    product.toRat = statedProduct unit quantity := by
  unfold derivationProduct recoveredOperand at made
  rw [DecimalContext.normalize_of_holds unitHeld,
    DecimalContext.normalize_of_holds quantityHeld] at made
  change DERIVATION_CONTEXT.mul (operandOf unit.stripped) (operandOf quantity.stripped) = _ at made
  have values : (operandOf unit.stripped).toRat * (operandOf quantity.stripped).toRat =
      statedProduct unit quantity := by
    rw [toRat_operandOf, toRat_operandOf, Decimal.toRat_stripped, Decimal.toRat_stripped]
    rfl
  rw [← values, ← Decimal.toRat_mulExact]
  unfold DecimalContext.mul at made
  by_cases zero : ((operandOf unit.stripped).mulExact (operandOf quantity.stripped)).coefficient = 0
  · rw [(Decimal.toRat_eq_zero_iff _).mpr zero]
    rw [DecimalContext.finalize, if_pos zero] at made
    rw [← Option.some.inj made]
    exact (Decimal.toRat_eq_zero_iff _).mpr rfl
  · -- neither operand is zero, so both are the normalized numbers themselves
    have factors := mul_ne_zero_iff.mp zero
    have plain : ∀ d : Decimal, (operandOf d).coefficient ≠ 0 → operandOf d = d := by
      intro d nonzero
      unfold operandOf at nonzero ⊢
      split
      next isZero =>
        rw [if_pos isZero] at nonzero
        exact absurd rfl nonzero
      · rfl
    rw [plain _ factors.1, plain _ factors.2] at made ⊢
    rw [DecimalContext.finalize_of_holds held] at made
    rw [Option.some.inj made]

section Audit

variable {digit : CodePoint → Option Digit} {rt : Runtime} {claim : AuditClaimSpec}
  {selection : BenchmarkSelection} {baseline candidate reference : List BenchmarkEvidence}
  {context : Option BenchmarkMeasurementContext} {audit : BenchmarkAudit}

/-- The evidence of a role. -/
def roleEvidence (baseline candidate : List BenchmarkEvidence) : Arm → List BenchmarkEvidence
  | .baseline => baseline
  | .candidate => candidate

theorem singleMetricValue_single {evidence : List BenchmarkEvidence} {metric : Str}
    {value : Binary64} {seed : Option Int}
    (represents : metricRuns evidence metric = [(value, seed)])
    (role : Arm) : (singleMetricValue rt evidence metric role).1 = some value := by
  unfold singleMetricValue rawResults
  rw [represents]
  rfl

/-- In the form of a derivation, the audit reports what the derivation of the role reports. -/
theorem emitsMismatch_iff
    (made : auditBenchmark digit rt claim selection baseline candidate reference context =
      .ok audit) (form : selection.resultForm = some .deterministicDerivation) (role : Arm) :
    ∃ config found, configProjection digit (roleEvidence baseline candidate role) = .ok config ∧
      deriveRole digit rt claim role config (roleEvidence baseline candidate role) = .ok found ∧
      (EmitsMismatch audit role ↔ ∃ finding ∈ found.1, IsDerivationMismatch role finding) := by
  obtain ⟨threshold, configs, outcome, -, -, projected, compared, findings, -, -⟩ :=
    auditBenchmark_ok made
  have protocol := not_isDerivationMismatch
    (protocolFindings_rules configs selection baseline candidate) protocol_not_mismatch role
  unfold projectConfigs at projected
  obtain ⟨baselineConfig, baselineMade, projected⟩ := bind_ok_iff.mp projected
  obtain ⟨candidateConfig, candidateMade, projected⟩ := bind_ok_iff.mp projected
  obtain ⟨referenceConfig, -, projected⟩ := bind_ok_iff.mp projected
  obtain rfl := Except.ok.inj projected
  unfold compareResults at compared
  rw [form] at compared
  change deterministicDerivation _ _ _ _ _ _ _ = _ at compared
  unfold deterministicDerivation at compared
  obtain ⟨first, left, compared⟩ := bind_ok_iff.mp compared
  obtain ⟨second, right, compared⟩ := bind_ok_iff.mp compared
  have derived : (∃ finding ∈ outcome.findings, IsDerivationMismatch role finding) ↔
      ∃ finding ∈ first.1 ++ second.1, IsDerivationMismatch role finding := by
    dsimp only at compared
    split at compared
    · split at compared
      · cases compared
      next checked =>
        obtain rfl := Except.ok.inj compared
        have others := not_isDerivationMismatch (checkReportedAggregates_rules checked)
          result_not_mismatch role
        simp only [ResultOutcome.ofCheck, List.mem_append, or_and_right, exists_or, others,
          or_false]
    · obtain rfl := Except.ok.inj compared
      rfl
  have emitted : EmitsMismatch audit role ↔
      ∃ finding ∈ first.1 ++ second.1, IsDerivationMismatch role finding := by
    rw [EmitsMismatch, findings, ← derived]
    simp only [List.mem_append, or_and_right, exists_or, protocol, false_or]
  -- the derivation of the other role reports nothing about this one
  rw [emitted]
  simp only [List.mem_append, or_and_right, exists_or]
  cases role with
  | baseline =>
    refine ⟨baselineConfig, first, baselineMade, left, or_iff_left fun other => ?_⟩
    cases role_of_mismatch right other
  | candidate =>
    refine ⟨candidateConfig, second, candidateMade, right, or_iff_right fun other => ?_⟩
    cases role_of_mismatch left other

/-- The audit reports a derivation mismatch for a role exactly if the stated operands have another
product than the represented value, unless rounding makes the difference; and operands and products
that fit the contexts are not rounded. -/
theorem derivation_exact_iff
    (made : auditBenchmark digit rt claim selection baseline candidate reference context =
      .ok audit) (form : selection.resultForm = some .deterministicDerivation) (role : Arm)
    {unit quantity : Decimal}
    (states : StatesDerivation digit (roleEvidence baseline candidate role) unit quantity)
    {value : Binary64} {seed : Option Int}
    (represents : metricRuns (roleEvidence baseline candidate role) claim.metric =
      [(value, seed)]) :
    ((EmitsMismatch audit role ↔ unit.toRat * quantity.toRat ≠ value.toDecimal.toRat) ↔
      ¬ RoundedOnto unit quantity value.toDecimal ∧ ¬ RoundedOff unit quantity value.toDecimal ∧
        ¬ BeyondFloats unit quantity value.toDecimal) ∧
    (DEFAULT_CONTEXT.Holds unit → DEFAULT_CONTEXT.Holds quantity →
      DERIVATION_CONTEXT.Holds (unit.stripped.mulExact quantity.stripped) →
        ¬ RoundedOnto unit quantity value.toDecimal ∧
          ¬ RoundedOff unit quantity value.toDecimal) := by
  obtain ⟨config, found, projected, derived, emits⟩ := emitsMismatch_iff made form role
  obtain ⟨unitOperand, quantityOperand, unitRounded, quantityRounded, operands⟩ :=
    derivationOperands_projection projected states role
  obtain ⟨product, rounded, mismatch⟩ :=
    mismatch_iff derived operands (singleMetricValue_single represents role)
  -- the product that the audit computes is the one the conditions speak of
  have computed : derivationProduct unit quantity = some product := by
    rw [derivationProduct, unitRounded, quantityRounded]
    exact rounded
  have numbers : (Binary64.ofDecimal product).isSome = true ∨
      Binary64.ofDecimal product = none := by
    cases Binary64.ofDecimal product
    · exact .inr rfl
    · exact .inl rfl
  rw [emits, mismatch]
  unfold RoundedOnto RoundedOff BeyondFloats
  rw [computed]
  simp only [Option.mem_def, Option.some.injEq, exists_eq_left']
  constructor
  · change ((_ ↔ statedProduct unit quantity ≠ _) ↔ _)
    -- each way in which the comparison and the exact product can come apart
    rcases numbers with finite | infinite
    · have number : Binary64.ofDecimal product ≠ none := fun none => by simp [none] at finite
      tauto
    · have notFinite : ¬ (Binary64.ofDecimal product).isSome = true := by simp [infinite]
      tauto
  -- operands and product that the contexts hold are not rounded
  · intro unitHeld quantityHeld held
    have exact := derivationProduct_exact unitHeld quantityHeld held computed
    rw [exact]
    exact ⟨fun onto => onto.1 onto.2, fun off => off.2.2 off.1⟩

end Audit

/-! ### A sample -/

/-- Evidence in the form of a derivation, which represents the value. -/
def derivationEvidence (unit quantity : Str) (value : Binary64) : List BenchmarkEvidence :=
  [⟨⟨"derivation", [⟨some (lit "score", value), none,
    [⟨FORMULA_FAMILY, some (.str "multiply_v1")⟩,
      ⟨UNIT_VALUE, some (.str unit)⟩, ⟨QUANTITY, some (.str quantity)⟩]⟩]⟩, "derivation.json"⟩]

section Sample

variable {unitText quantityText : Str} {unit quantity : Decimal}

theorem statesDerivation_sample (unitReads : decimalOfText (fun _ => none) unitText = some unit)
    (quantityReads : decimalOfText (fun _ => none) quantityText = some quantity)
    (value : Binary64) : StatesDerivation (fun _ => none)
      (derivationEvidence unitText quantityText value) unit quantity where
  family := ⟨⟨FORMULA_FAMILY, some (.str "multiply_v1")⟩, List.mem_cons_self, rfl⟩
  families := by
    intro config member key
    change config ∈ [_, _, _] at member
    simp only [List.mem_cons, List.not_mem_nil, or_false] at member
    rcases member with rfl | rfl | rfl
    · rfl
    · exact absurd key (by simp [FORMULA_FAMILY, UNIT_VALUE, lit_inj])
    · exact absurd key (by simp [FORMULA_FAMILY, QUANTITY, lit_inj])
  unitValue := ⟨⟨UNIT_VALUE, some (.str unitText)⟩, List.mem_cons_of_mem _ List.mem_cons_self, rfl,
    unitReads⟩
  quantity := ⟨⟨QUANTITY, some (.str quantityText)⟩,
    List.mem_cons_of_mem _ (List.mem_cons_of_mem _ List.mem_cons_self), rfl, quantityReads⟩

theorem withoutConflict_derivation (value : Binary64) :
    WithoutConflict (fun _ => none)
      (benchmarkConfigs (derivationEvidence unitText quantityText value)) := by
  apply withoutConflict_of_nodup
  change [FORMULA_FAMILY, UNIT_VALUE, QUANTITY].Nodup
  simp [FORMULA_FAMILY, UNIT_VALUE, QUANTITY, lit_inj]

theorem recovered_decimal {key text : Str} (field : key ∈ DECIMAL_FIELDS) {number : Decimal}
    (reads : decimalOfText (fun _ => none) text = some number)
    (normalizes : (DEFAULT_CONTEXT.normalize number).isSome = true) :
    ∃ recovered, recoverComponent (fun _ => none) ⟨key, some (.str text)⟩ = .ok recovered := by
  obtain ⟨canonical, normalized⟩ := Option.isSome_iff_exists.mp normalizes
  have scalar : canonicalProfileScalar (fun _ => none) key (some (.str text)) =
      some (some (.str (profileDecimalText canonical))) := by
    rw [canonicalProfileScalar_decimal field, profileDecimal, reads]
    change (DEFAULT_CONTEXT.normalize number).bind _ = _
    rw [normalized]
    rfl
  unfold recoverComponent
  rw [scalar]
  exact ⟨_, rfl⟩

theorem allRecoverable_derivation (unitReads : decimalOfText (fun _ => none) unitText = some unit)
    (quantityReads : decimalOfText (fun _ => none) quantityText = some quantity)
    (unitFits : (DEFAULT_CONTEXT.normalize unit).isSome = true)
    (quantityFits : (DEFAULT_CONTEXT.normalize quantity).isSome = true) (value : Binary64) :
    AllRecoverable (fun _ => none)
      (benchmarkConfigs (derivationEvidence unitText quantityText value)) := by
  intro config member _
  change config ∈ [_, _, _] at member
  simp only [List.mem_cons, List.not_mem_nil, or_false] at member
  rcases member with rfl | rfl | rfl
  · unfold recoverComponent
    rw [canonicalProfileScalar_family rfl]
    exact ⟨_, rfl⟩
  · exact recovered_decimal (by simp [DECIMAL_FIELDS]) unitReads unitFits
  · exact recovered_decimal (by simp [DECIMAL_FIELDS]) quantityReads quantityFits

end Sample

/-- Twice a half, represented by the value. -/
def twoHalves (value : Binary64) : List BenchmarkEvidence := derivationEvidence "2" "0.5" value

theorem twoHalves_reads : decimalOfText (fun _ => none) "2" = some ⟨false, 2, 0⟩ ∧
    decimalOfText (fun _ => none) "0.5" = some ⟨false, 5, -1⟩ := by decide +kernel

theorem twoHalves_states (value : Binary64) :
    StatesDerivation (fun _ => none) (twoHalves value) ⟨false, 2, 0⟩ ⟨false, 5, -1⟩ :=
  statesDerivation_sample twoHalves_reads.1 twoHalves_reads.2 value

theorem twoHalves_operands {value : Binary64} {config : List (Str × JsonScalar)}
    (projected : configProjection (fun _ => none) (twoHalves value) = .ok config) (role : Arm) :
    derivationOperands (fun _ => none) role config = .ok (⟨false, 2, 0⟩, ⟨false, 5, -1⟩) := by
  obtain ⟨_, _, unitSame, quantitySame, operands⟩ :=
    derivationOperands_projection projected (twoHalves_states value) role
  obtain rfl := Option.some.inj (unitSame.symm.trans
    (by decide +kernel : recoveredOperand ⟨false, 2, 0⟩ = some ⟨false, 2, 0⟩))
  obtain rfl := Option.some.inj (quantitySame.symm.trans
    (by decide +kernel : recoveredOperand ⟨false, 5, -1⟩ = some ⟨false, 5, -1⟩))
  exact operands

/-- The product is one. -/
theorem twoHalves_product : ∃ product,
    derivationProduct ⟨false, 2, 0⟩ ⟨false, 5, -1⟩ = some product ∧
      DERIVATION_CONTEXT.mul ⟨false, 2, 0⟩ ⟨false, 5, -1⟩ = some product ∧
      Binary64.ofDecimal product = some floatOne := by
  have multiplied : (DERIVATION_CONTEXT.mul ⟨false, 2, 0⟩ ⟨false, 5, -1⟩).bind
      Binary64.ofDecimal = some floatOne := by decide +kernel
  obtain ⟨product, rounded, finite⟩ := Option.bind_eq_some_iff.mp multiplied
  refine ⟨product, ?_, rounded, finite⟩
  rw [← rounded]
  decide +kernel

theorem twoHalves_fits {value : Binary64} {config : List (Str × JsonScalar)}
    (projected : configProjection (fun _ => none) (twoHalves value) = .ok config) (role : Arm) :
    ProductFits (fun _ => none) role config ∧
      ∀ derived, DerivesValue (fun _ => none) plainRuntime.toRuntime scoreClaim role config
        (twoHalves value) derived → derived = floatOne := by
  obtain ⟨product, -, rounded, finite⟩ := twoHalves_product
  have operands := twoHalves_operands projected role
  constructor
  · intro _ _ again
    obtain ⟨rfl, rfl⟩ := Prod.mk.inj (Except.ok.inj (again.symm.trans operands))
    rw [rounded]
    rfl
  · rintro derived ⟨_, _, _, _, again, multiplied, number, -⟩
    obtain ⟨rfl, rfl⟩ := Prod.mk.inj (Except.ok.inj (again.symm.trans operands))
    obtain rfl := Option.some.inj (rounded.symm.trans multiplied)
    exact Option.some.inj (number.symm.trans finite)

theorem twoHalves_audited (value other : Binary64) : ∃ audit,
    auditBenchmark (fun _ => none) plainRuntime.toRuntime scoreClaim
      (formSelection .deterministicDerivation) (twoHalves value) (twoHalves other) [] none =
        .ok audit := by
  have fits : AuditFits (fun _ => none) plainRuntime.toRuntime scoreClaim
      (formSelection .deterministicDerivation) (twoHalves value) (twoHalves other) [] none := by
    refine ⟨rfl, ?_, fun configs projected => ⟨fun raw => (by cases raw), fun _ => ?_⟩,
      fun given => by cases given⟩
    · simp only [List.mem_cons, List.not_mem_nil, or_false, forall_eq_or_imp, forall_eq]
      have recoverable := allRecoverable_derivation twoHalves_reads.1 twoHalves_reads.2
        (by decide +kernel) (by decide +kernel)
      exact ⟨recoverable value, recoverable other, (conflictFree_of_empty rfl).2⟩
    · unfold projectConfigs at projected
      obtain ⟨first, left, projected⟩ := bind_ok_iff.mp projected
      obtain ⟨second, right, projected⟩ := bind_ok_iff.mp projected
      obtain ⟨third, -, projected⟩ := bind_ok_iff.mp projected
      obtain rfl := Except.ok.inj projected
      refine ⟨(twoHalves_fits left _).1, (twoHalves_fits right _).1, ?_⟩
      intro baselineValue candidateValue derived again
      rw [(twoHalves_fits left _).2 _ derived, (twoHalves_fits right _).2 _ again]
      change (Binary64.ofDecimal _).isSome = true
      decide +kernel
  refine (auditBenchmark_returns_iff rfl ?_).mpr fits
  simp only [List.mem_cons, List.not_mem_nil, or_false, forall_eq_or_imp, forall_eq]
  exact ⟨withoutConflict_derivation _, withoutConflict_derivation _, (conflictFree_of_empty rfl).1⟩

/-- Where twice a half is represented by one, no mismatch is reported; where it is represented by
zero, one is. -/
theorem derivation_exact_sample : ∃ audit,
    auditBenchmark (fun _ => none) plainRuntime.toRuntime scoreClaim
      (formSelection .deterministicDerivation) (twoHalves floatOne)
      (twoHalves (Binary64.zero false)) [] none = .ok audit ∧
    ¬ EmitsMismatch audit .baseline ∧ EmitsMismatch audit .candidate := by
  obtain ⟨audit, made⟩ := twoHalves_audited floatOne (Binary64.zero false)
  obtain ⟨product, computed, -, finite⟩ := twoHalves_product
  have one : (⟨false, 2, 0⟩ : Decimal).toRat * (⟨false, 5, -1⟩ : Decimal).toRat = 1 := by
    norm_num [Decimal.toRat, Decimal.signed]
  have represents (value : Binary64) :
      metricRuns (twoHalves value) scoreClaim.metric = [(value, none)] := by
    change (if lit "score" = lit "score" then some (value, none) else none).toList = _
    rw [if_pos rfl]
    rfl
  have law (role : Arm) (value : Binary64)
      (stated : roleEvidence (twoHalves floatOne) (twoHalves (Binary64.zero false)) role =
        twoHalves value) : EmitsMismatch audit role ↔ 1 ≠ value.toDecimal.toRat := by
    obtain ⟨exactly, held⟩ := derivation_exact_iff made rfl role
      (stated ▸ twoHalves_states value) (stated ▸ represents value)
    obtain ⟨onto, off⟩ := held (by decide +kernel) (by decide +kernel) (by decide +kernel)
    rw [← one]
    refine exactly.mpr ⟨onto, off, ?_⟩
    rintro ⟨-, again, member, beyond⟩
    obtain rfl := Option.some.inj (computed.symm.trans member)
    rw [finite] at beyond
    cases beyond
  refine ⟨audit, made, ?_, (law .candidate (Binary64.zero false) rfl).mpr ?_⟩
  · intro emits
    exact (law .baseline floatOne rfl).mp emits floatOne_value.symm
  · have zero : (Binary64.zero false).toDecimal.coefficient = 0 := by decide +kernel
    rw [(Decimal.toRat_eq_zero_iff _).mpr zero]
    exact one_ne_zero

end ClaimCI
