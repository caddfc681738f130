import ClaimCI.GitHub

/-!
# The payload fails closed

When `build_check_payload` completes with a payload, and when a success is warranted by the report:
in every case but two. A list or an object where a string is looked up in a set raises, and an
improvement that agrees with the difference of the means only after rounding is accepted.
-/

open Python

namespace ClaimCI

/-! ### Stretches of checks -/

def Check.Raises (check : Check) : Prop := ∃ error, check = .raised error

theorem Check.andThen_passed_iff (a b : Check) :
    a.andThen b = .passed ↔ a = .passed ∧ b = .passed := by
  cases a with
  | passed => simp [Check.andThen]
  | rejected reason => simp [Check.andThen]
  | raised error => simp [Check.andThen]

theorem Check.andThen_raises_iff (a b : Check) :
    (a.andThen b).Raises ↔ a.Raises ∨ a = .passed ∧ b.Raises := by
  cases a with
  | passed => simp [Check.andThen, Check.Raises]
  | rejected reason => simp [Check.andThen, Check.Raises]
  | raised error => simp [Check.andThen, Check.Raises]

theorem require_passed_iff (condition : Bool) (reason : String) :
    require condition reason = .passed ↔ condition = true := by
  cases condition with
  | false => simp [require]
  | true => simp [require]

theorem not_require_raises (condition : Bool) (reason : String) :
    ¬ (require condition reason).Raises := by
  rintro ⟨error, h⟩
  cases condition with
  | false => cases h
  | true => cases h

theorem requireOk_passed_iff (condition : Except Error Bool) (reason : String) :
    requireOk condition reason = .passed ↔ condition = .ok true := by
  cases condition with
  | error e => simp [requireOk]
  | ok b => cases b with
    | false => simp [requireOk]
    | true => simp [requireOk]

theorem requireOk_raises_iff (condition : Except Error Bool) (reason : String) :
    (requireOk condition reason).Raises ↔ ∃ error, condition = .error error := by
  cases condition with
  | error e => simp [requireOk, Check.Raises]
  | ok b => cases b with
    | false => simp [requireOk, Check.Raises]
    | true => simp [requireOk, Check.Raises]

/-! ### Set membership -/

/-- A list or an object, which has no hash. -/
def isContainer : Json → Bool
  | .array _ => true
  | .object _ => true
  | _ => false

theorem memberOf_raises_iff (choices : List Str) (value : Json) :
    (∃ error, memberOf choices value = .error error) ↔ isContainer value = true := by
  cases value <;> simp [memberOf, isContainer]

theorem memberOf_ok_iff (choices : List Str) (value : Json) :
    memberOf choices value = .ok true ↔ ∃ s ∈ choices, value = .str s := by
  cases value <;> simp [memberOf]

theorem isTextOf_iff (text : Str) (value : Json) : isTextOf text value = true ↔ value = .str text := by
  cases value <;> simp [isTextOf]

/-! ### Findings -/

structure ValidFinding (finding : Json) : Prop where
  mapping : isMapping finding = true
  ruleId : isNonBlank (field "rule_id" finding) = true
  severity : ∃ s ∈ SEVERITIES, field "severity" finding = .str s
  impact : ∃ s ∈ IMPACTS, field "impact" finding = .str s
  title : isText (field "title" finding) = true
  explanation : isText (field "explanation" finding) = true
  evidence : isMapping (field "evidence" finding) = true

/-- A finding whose severity, or else its impact, is a list or an object. -/
def UnhashableFinding (finding : Json) : Prop :=
  isMapping finding = true ∧ isNonBlank (field "rule_id" finding) = true ∧
    (isContainer (field "severity" finding) = true ∨
      (∃ s ∈ SEVERITIES, field "severity" finding = .str s) ∧
        isContainer (field "impact" finding) = true)

theorem validFinding_ok_iff (finding : Json) :
    validFinding finding = .ok true ↔ ValidFinding finding := by
  unfold validFinding
  constructor
  · intro h
    split at h
    next named =>
      simp only [Bool.and_eq_true] at named
      obtain ⟨severe, severity, h⟩ := bind_ok_iff.mp h
      split at h
      next isSevere =>
        obtain ⟨strong, impact, h⟩ := bind_ok_iff.mp h
        split at h
        next isStrong =>
          have rest := Except.ok.inj h
          simp only [Bool.and_eq_true] at rest
          rw [isSevere] at severity
          rw [isStrong] at impact
          exact ⟨named.1, named.2, (memberOf_ok_iff _ _).mp severity,
            (memberOf_ok_iff _ _).mp impact, rest.1.1, rest.1.2, rest.2⟩
        · cases h
      · cases h
    · cases h
  · intro h
    rw [h.mapping, h.ruleId, (memberOf_ok_iff _ _).mpr h.severity,
      (memberOf_ok_iff _ _).mpr h.impact, h.title, h.explanation, h.evidence]
    rfl

theorem validFinding_raises_iff (finding : Json) :
    (∃ error, validFinding finding = .error error) ↔ UnhashableFinding finding := by
  unfold validFinding UnhashableFinding
  cases mapping : isMapping finding with
  | false => simp
  | true =>
    cases named : isNonBlank (field "rule_id" finding) with
    | false => simp
    | true =>
      simp only [Bool.and_self, ↓reduceIte, true_and]
      rw [← memberOf_raises_iff SEVERITIES, ← memberOf_ok_iff, ← memberOf_raises_iff IMPACTS]
      cases memberOf SEVERITIES (field "severity" finding) with
      | error e => simp [bind, Except.bind]
      | ok severe =>
        cases severe with
        | false => simp [bind, Except.bind]
        | true =>
          cases memberOf IMPACTS (field "impact" finding) with
          | error e => simp [bind, Except.bind]
          | ok strong => cases strong <;> simp [bind, Except.bind]

theorem allFindingsValid_ok_iff (findings : List Json) :
    allFindingsValid findings = .ok true ↔ ∀ finding ∈ findings, ValidFinding finding := by
  induction findings with
  | nil => simp [allFindingsValid]
  | cons finding rest ih =>
    rw [List.forall_mem_cons, ← validFinding_ok_iff, ← ih]
    rw [allFindingsValid]
    cases validFinding finding with
    | error e => simp [bind, Except.bind]
    | ok valid => cases valid <;> simp [bind, Except.bind]

/-- The first finding that is not valid is one that raises. -/
def UnhashableAmong (findings : List Json) : Prop :=
  ∃ before finding after, findings = before ++ finding :: after ∧
    (∀ earlier ∈ before, ValidFinding earlier) ∧ UnhashableFinding finding

theorem unhashableAmong_cons_iff (finding : Json) (rest : List Json) :
    UnhashableAmong (finding :: rest) ↔
      UnhashableFinding finding ∨ ValidFinding finding ∧ UnhashableAmong rest := by
  constructor
  · rintro ⟨before, bad, after, split, earlier, unhashable⟩
    cases before with
    | nil =>
      obtain ⟨rfl, rfl⟩ := List.cons.inj split
      exact .inl unhashable
    | cons first before =>
      obtain ⟨rfl, tail⟩ := List.cons.inj split
      exact .inr ⟨earlier _ List.mem_cons_self, before, bad, after, tail,
        fun g member => earlier g (List.mem_cons_of_mem _ member), unhashable⟩
  · rintro (unhashable | ⟨valid, before, bad, after, split, earlier, unhashable⟩)
    · exact ⟨[], finding, rest, rfl, by simp, unhashable⟩
    · refine ⟨finding :: before, bad, after, by rw [split]; rfl, ?_, unhashable⟩
      exact List.forall_mem_cons.mpr ⟨valid, earlier⟩

theorem allFindingsValid_raises_iff (findings : List Json) :
    (∃ error, allFindingsValid findings = .error error) ↔ UnhashableAmong findings := by
  induction findings with
  | nil => simp [allFindingsValid, UnhashableAmong]
  | cons finding rest ih =>
    rw [unhashableAmong_cons_iff, ← validFinding_raises_iff, ← validFinding_ok_iff, ← ih]
    rw [allFindingsValid]
    cases validFinding finding with
    | error e => simp [bind, Except.bind]
    | ok valid => cases valid <;> simp [bind, Except.bind]

/-! ### Reports -/

structure ValidHeader (recursion : RecursionLimit) (report : Json) : Prop where
  mapping : isMapping report = true
  strict : strictJsonSafe recursion report = true
  verdict : isVerdict (field "verdict" report) = true
  manifest : isNonBlank (field "manifest" report) = true

/-- The claim section up to its direction. -/
structure ValidClaim (report : Json) : Prop where
  mapping : isMapping (field "claim" report) = true
  metric : isNonBlank (field "metric" (field "claim" report)) = true
  threshold : isNonNegative (field "minimum_improvement" (field "claim" report)) = true

def ValidDirection (report : Json) : Prop :=
  ∃ direction : Direction, reportDirection report = .str direction.value

structure ValidMetrics (report : Json) : Prop where
  mapping : isMapping (field "metrics" report) = true
  baseline : nullOr validMetricSummary (field "baseline" (field "metrics" report)) = true
  candidate : nullOr validMetricSummary (field "candidate" (field "metrics" report)) = true
  absolute : nullOr isFiniteNumber (field "absolute_improvement" (field "metrics" report)) = true
  relative : nullOr isFiniteNumber (field "relative_improvement" (field "metrics" report)) = true

def findingsOf (report : Json) : List Json := arrayItems (field "findings" report)

structure ValidFindings (report : Json) : Prop where
  array : isArray (field "findings" report) = true
  nonempty : (findingsOf report).isEmpty = false
  valid : ∀ finding ∈ findingsOf report, ValidFinding finding
  verdict : field "verdict" report = .str (expectedVerdict (findingsOf report)).value

structure ValidOverlaps (report : Json) : Prop where
  array : isArray (field "overlaps" report) = true
  valid : (arrayItems (field "overlaps" report)).all validOverlap = true

/-- Everything but the evidence of a supported report. -/
structure WellFormedReport (recursion : RecursionLimit) (report : Json) : Prop where
  header : ValidHeader recursion report
  claim : ValidClaim report
  direction : ValidDirection report
  metrics : ValidMetrics report
  findings : ValidFindings report
  overlaps : ValidOverlaps report

/-- What a supported report presents, whatever its numbers are. -/
structure MetricEvidence (report : Json) : Prop where
  baseline : validMetricSummary (field "baseline" (field "metrics" report)) = true
  candidate : validMetricSummary (field "candidate" (field "metrics" report)) = true
  improvement : isFiniteNumber (field "absolute_improvement" (field "metrics" report)) = true
  claimSupported : ∃ finding ∈ findingsOf report,
    field "rule_id" finding = .str (lit "RESULT.CLAIM_SUPPORTED")

/-- The four numbers of a supported report, as they are spelled. -/
def improvementOf (report : Json) : Decimal :=
  spelledDecimal (field "absolute_improvement" (field "metrics" report))

def thresholdOf (report : Json) : Decimal :=
  spelledDecimal (field "minimum_improvement" (field "claim" report))

def meanOf (arm : Arm) (report : Json) : Decimal :=
  spelledDecimal (field "mean" (field arm.text (field "metrics" report)))

/-- The difference of the reported means in the favorable direction, computed exactly. -/
def exactDifference (report : Json) : Decimal :=
  if isLower report then (meanOf .baseline report).addExact (meanOf .candidate report).neg
  else (meanOf .candidate report).addExact (meanOf .baseline report).neg

/-- The difference rounded to the 28 digits of the default decimal context. -/
def roundedDifference (report : Json) : Decimal := (exactDifference report).fix DEFAULT_PRECISION

theorem expectedImprovement_eq (report : Json) :
    expectedImprovement report = roundedDifference report := by
  unfold expectedImprovement roundedDifference exactDifference
  cases isLower report with
  | false => rfl
  | true => rfl

theorem headerCheck_passed_iff (recursion : RecursionLimit) (report : Json) :
    headerCheck recursion report = .passed ↔ ValidHeader recursion report := by
  simp only [headerCheck, Check.andThen_passed_iff, require_passed_iff]
  constructor
  · rintro ⟨mapping, strict, verdict, manifest⟩
    exact ⟨mapping, strict, verdict, manifest⟩
  · intro h
    exact ⟨h.mapping, h.strict, h.verdict, h.manifest⟩

theorem memberOf_direction_iff (report : Json) :
    memberOf [Direction.higher.value, Direction.lower.value] (reportDirection report) = .ok true ↔
      ValidDirection report := by
  rw [memberOf_ok_iff]
  constructor
  · rintro ⟨s, member, text⟩
    simp only [List.mem_cons, List.not_mem_nil, or_false] at member
    rcases member with rfl | rfl
    · exact ⟨.higher, text⟩
    · exact ⟨.lower, text⟩
  · rintro ⟨direction, text⟩
    refine ⟨direction.value, ?_, text⟩
    cases direction with
    | higher => simp
    | lower => simp

theorem claimCheck_passed_iff (report : Json) :
    claimCheck report = .passed ↔ ValidClaim report ∧ ValidDirection report := by
  simp only [claimCheck, Check.andThen_passed_iff, require_passed_iff, requireOk_passed_iff,
    memberOf_direction_iff]
  constructor
  · rintro ⟨mapping, metric, threshold, direction⟩
    exact ⟨⟨mapping, metric, threshold⟩, direction⟩
  · rintro ⟨h, direction⟩
    exact ⟨h.mapping, h.metric, h.threshold, direction⟩

theorem claimCheck_raises_iff (report : Json) :
    (claimCheck report).Raises ↔
      ValidClaim report ∧ isContainer (reportDirection report) = true := by
  simp only [claimCheck, Check.andThen_raises_iff, require_passed_iff, not_require_raises,
    requireOk_raises_iff, memberOf_raises_iff, false_or]
  constructor
  · rintro ⟨mapping, metric, threshold, direction⟩
    exact ⟨⟨mapping, metric, threshold⟩, direction⟩
  · rintro ⟨h, direction⟩
    exact ⟨h.mapping, h.metric, h.threshold, direction⟩

theorem metricsCheck_passed_iff (report : Json) :
    metricsCheck report = .passed ↔ ValidMetrics report := by
  simp only [metricsCheck, Check.andThen_passed_iff, require_passed_iff]
  constructor
  · rintro ⟨mapping, baseline, candidate, absolute, relative⟩
    exact ⟨mapping, baseline, candidate, absolute, relative⟩
  · intro h
    exact ⟨h.mapping, h.baseline, h.candidate, h.absolute, h.relative⟩

theorem metricsCheck_not_raises (report : Json) : ¬ (metricsCheck report).Raises := by
  simp [metricsCheck, Check.andThen_raises_iff, not_require_raises]

theorem findingsCheck_passed_iff (report : Json) :
    findingsCheck report = .passed ↔ ValidFindings report := by
  simp only [findingsCheck, Check.andThen_passed_iff, require_passed_iff, requireOk_passed_iff,
    allFindingsValid_ok_iff, isTextOf_iff, Bool.and_eq_true, Bool.not_eq_true']
  constructor
  · rintro ⟨⟨array, nonempty⟩, valid, verdict⟩
    exact ⟨array, nonempty, valid, verdict⟩
  · intro h
    exact ⟨⟨h.array, h.nonempty⟩, h.valid, h.verdict⟩

theorem findingsCheck_raises_iff (report : Json) :
    (findingsCheck report).Raises ↔
      isArray (field "findings" report) = true ∧ UnhashableAmong (findingsOf report) := by
  simp only [findingsCheck, Check.andThen_raises_iff, require_passed_iff, not_require_raises,
    requireOk_raises_iff, allFindingsValid_raises_iff, false_or, and_false, or_false,
    Bool.and_eq_true, Bool.not_eq_true']
  constructor
  · rintro ⟨⟨array, _⟩, unhashable⟩
    exact ⟨array, unhashable⟩
  · rintro ⟨array, unhashable⟩
    refine ⟨⟨array, ?_⟩, unhashable⟩
    obtain ⟨before, finding, after, split, _⟩ := unhashable
    change (findingsOf report).isEmpty = false
    rw [split]
    simp

/-- Whether the report claims support. -/
def ClaimsSupport (report : Json) : Prop :=
  field "verdict" report = .str Verdict.supported.value

/-- The arithmetic that a supported report has to pass. -/
structure AcceptedArithmetic (report : Json) : Prop where
  difference : (improvementOf report).eq (roundedDifference report) = true
  threshold : (improvementOf report).lt (thresholdOf report) = false

theorem supportedCheck_passed_iff (report : Json) :
    supportedCheck report = .passed ↔
      (ClaimsSupport report → MetricEvidence report ∧ AcceptedArithmetic report) := by
  rw [supportedCheck]
  split
  next supported =>
    have claims : ClaimsSupport report := (isTextOf_iff _ _).mp supported
    simp only [Check.andThen_passed_iff, require_passed_iff, Bool.and_eq_true, List.any_eq_true,
      isTextOf_iff, Bool.not_eq_true', expectedImprovement_eq]
    constructor
    · rintro ⟨⟨⟨⟨baseline, candidate⟩, improvement⟩, claimed⟩, difference, threshold⟩ _
      exact ⟨⟨baseline, candidate, improvement, claimed⟩, difference, threshold⟩
    · intro h
      obtain ⟨evidence, arithmetic⟩ := h claims
      exact ⟨⟨⟨⟨evidence.baseline, evidence.candidate⟩, evidence.improvement⟩,
        evidence.claimSupported⟩, arithmetic.difference, arithmetic.threshold⟩
  next unsupported =>
    have silent : ¬ ClaimsSupport report := by rwa [ClaimsSupport, ← isTextOf_iff]
    simp [silent]

theorem supportedCheck_not_raises (report : Json) : ¬ (supportedCheck report).Raises := by
  rw [supportedCheck]
  split
  · simp [Check.andThen_raises_iff, not_require_raises]
  · simp [Check.Raises]

theorem overlapsCheck_passed_iff (report : Json) :
    overlapsCheck report = .passed ↔ ValidOverlaps report := by
  simp only [overlapsCheck, require_passed_iff, Bool.and_eq_true]
  constructor
  · rintro ⟨array, valid⟩
    exact ⟨array, valid⟩
  · intro h
    exact ⟨h.array, h.valid⟩

/-- A report is accepted when it is well formed and, if it claims support, its evidence and its
arithmetic are in order. -/
theorem validReport_passed_iff (recursion : RecursionLimit) (report : Json) :
    validReport recursion report = .passed ↔ WellFormedReport recursion report ∧
      (ClaimsSupport report → MetricEvidence report ∧ AcceptedArithmetic report) := by
  simp only [validReport, Check.andThen_passed_iff, headerCheck_passed_iff, claimCheck_passed_iff,
    metricsCheck_passed_iff, findingsCheck_passed_iff, supportedCheck_passed_iff,
    overlapsCheck_passed_iff]
  constructor
  · rintro ⟨header, ⟨claim, direction⟩, metrics, findings, supported, overlaps⟩
    exact ⟨⟨header, claim, direction, metrics, findings, overlaps⟩, supported⟩
  · rintro ⟨h, supported⟩
    exact ⟨h.header, ⟨h.claim, h.direction⟩, h.metrics, h.findings, supported, h.overlaps⟩

/-- A membership test is reached with a list or an object: the direction, or the severity or the
impact of the first finding that is not valid. -/
def UnhashableReached (recursion : RecursionLimit) (report : Json) : Prop :=
  ValidHeader recursion report ∧ ValidClaim report ∧
    (isContainer (reportDirection report) = true ∨
      ValidDirection report ∧ ValidMetrics report ∧
        isArray (field "findings" report) = true ∧ UnhashableAmong (findingsOf report))

theorem validReport_raises_iff (recursion : RecursionLimit) (report : Json) :
    (validReport recursion report).Raises ↔ UnhashableReached recursion report := by
  have header : ¬ (headerCheck recursion report).Raises := by
    simp [headerCheck, Check.andThen_raises_iff, not_require_raises]
  have overlaps : ¬ (overlapsCheck report).Raises := not_require_raises _ _
  simp only [validReport, Check.andThen_raises_iff, header, metricsCheck_not_raises,
    supportedCheck_not_raises, overlaps, headerCheck_passed_iff, claimCheck_passed_iff,
    claimCheck_raises_iff, metricsCheck_passed_iff, findingsCheck_raises_iff, false_or, and_false,
    or_false, UnhashableReached]
  constructor
  · rintro ⟨header, ⟨claim, container⟩ | ⟨⟨claim, direction⟩, metrics, array, unhashable⟩⟩
    · exact ⟨header, claim, .inl container⟩
    · exact ⟨header, claim, .inr ⟨direction, metrics, array, unhashable⟩⟩
  · rintro ⟨header, claim, container | ⟨direction, metrics, array, unhashable⟩⟩
    · exact ⟨header, .inl ⟨claim, container⟩⟩
    · exact ⟨header, .inr ⟨⟨claim, direction⟩, metrics, array, unhashable⟩⟩

/-! ### Payloads -/

/-- A payload is a flat object of texts, which no recursion limit stops. -/
theorem strictJsonSafe_payload (recursion : RecursionLimit) (payload : CheckPayload) :
    strictJsonSafe recursion payload.toJson = true := by
  have dumpable : payload.toJson.dumpable = true := by
    cases url : payload.detailsUrl <;>
      simp [CheckPayload.toJson, url, Json.dumpable, Json.membersDumpable]
  have shallow : payload.toJson.depth ≤ 2 * MAX_NESTING_DEPTH := by
    cases url : payload.detailsUrl <;>
      simp [CheckPayload.toJson, url, Json.depth, Json.membersDepth, MAX_NESTING_DEPTH]
  simp [strictJsonSafe, dumpable, recursion.shallow _ shallow]

@[simp] theorem guardPayload_eq (recursion : RecursionLimit) (payload : CheckPayload) :
    guardPayload recursion payload = payload := by
  simp [guardPayload, strictJsonSafe_payload]

theorem draftPayload_status (report : Json) (markdown headSha detailsUrl : Value)
    (reasons : List Str) :
    (draftPayload report markdown headSha detailsUrl reasons).status = lit "completed" := by
  unfold draftPayload
  split <;> rfl

/-- Any reason at all makes the conclusion a failure. -/
theorem draftPayload_failure (report : Json) (markdown headSha detailsUrl : Value)
    {reasons : List Str} (h : reasons ≠ []) :
    (draftPayload report markdown headSha detailsUrl reasons).conclusion = .failure := by
  simp [draftPayload, h]

theorem draftPayload_conclusion (report : Json) (markdown headSha detailsUrl : Value) :
    (draftPayload report markdown headSha detailsUrl []).conclusion =
      verdictToConclusion (verdictText (field "verdict" report)) := by
  simp [draftPayload]

theorem verdictToConclusion_success_iff (text : Str) :
    verdictToConclusion text = .success ↔ text = Verdict.supported.value := by
  unfold verdictToConclusion
  split
  next supported => simp [supported]
  next other =>
    refine iff_of_false ?_ other
    split
    · decide
    · split <;> decide

theorem verdictText_eq_supported_iff (report : Json) :
    verdictText (field "verdict" report) = Verdict.supported.value ↔ ClaimsSupport report := by
  unfold ClaimsSupport
  cases field "verdict" report <;> simp [verdictText] <;> decide

/-- The other arguments can be published. -/
def ValidArguments (markdown headSha detailsUrl : Value) : Prop :=
  (nonBlankText markdown).isSome = true ∧ (normalizedHeadSha headSha).isSome = true ∧
    ∃ url, normalizedDetailsUrl detailsUrl = .ok url

theorem argumentReasons_eq_nil_iff (markdown headSha detailsUrl : Value) :
    argumentReasons markdown headSha detailsUrl = [] ↔
      ValidArguments markdown headSha detailsUrl := by
  unfold argumentReasons ValidArguments
  cases normalizedHeadSha headSha <;> cases nonBlankText markdown <;>
    cases normalizedDetailsUrl detailsUrl <;> simp

theorem buildCheckPayload_raises_iff (recursion : RecursionLimit) (report : Json)
    (markdown headSha detailsUrl : Value) :
    (∃ error, buildCheckPayload recursion report markdown headSha detailsUrl = .error error) ↔
      UnhashableReached recursion report := by
  rw [← validReport_raises_iff]
  unfold buildCheckPayload
  cases validReport recursion report with
  | passed => simp [reportReasons, bind, Except.bind, Check.Raises]
  | rejected reason => simp [reportReasons, bind, Except.bind, Check.Raises]
  | raised error => simp [reportReasons, bind, Except.bind, Check.Raises]

theorem buildCheckPayload_status (recursion : RecursionLimit) (report : Json)
    (markdown headSha detailsUrl : Value) {payload : CheckPayload}
    (h : buildCheckPayload recursion report markdown headSha detailsUrl = .ok payload) :
    payload.status = lit "completed" := by
  unfold buildCheckPayload at h
  obtain ⟨reasons, _, h⟩ := bind_ok_iff.mp h
  rw [← Except.ok.inj h, guardPayload_eq]
  exact draftPayload_status _ _ _ _ _

/-- A success is published exactly for an accepted report that claims support, with valid
arguments. -/
theorem buildCheckPayload_success_iff (recursion : RecursionLimit) (report : Json)
    (markdown headSha detailsUrl : Value) :
    (∃ payload, buildCheckPayload recursion report markdown headSha detailsUrl = .ok payload ∧
      payload.conclusion = .success) ↔
    ValidArguments markdown headSha detailsUrl ∧ WellFormedReport recursion report ∧
      ClaimsSupport report ∧ MetricEvidence report ∧ AcceptedArithmetic report := by
  rw [← argumentReasons_eq_nil_iff]
  constructor
  · rintro ⟨payload, h, success⟩
    unfold buildCheckPayload at h
    obtain ⟨reasons, checked, h⟩ := bind_ok_iff.mp h
    rw [← Except.ok.inj h, guardPayload_eq] at success
    have silent : reasons ++ argumentReasons markdown headSha detailsUrl = [] := by
      by_contra reason
      rw [draftPayload_failure _ _ _ _ reason] at success
      cases success
    rw [silent, draftPayload_conclusion, verdictToConclusion_success_iff,
      verdictText_eq_supported_iff] at success
    obtain ⟨rfl, arguments⟩ := List.append_eq_nil_iff.mp silent
    have passed : validReport recursion report = .passed := by
      cases outcome : validReport recursion report with
      | passed => rfl
      | rejected reason => rw [outcome] at checked; cases checked
      | raised error => rw [outcome] at checked; cases checked
    obtain ⟨wellFormed, supported⟩ := (validReport_passed_iff recursion report).mp passed
    exact ⟨arguments, wellFormed, success, supported success⟩
  · rintro ⟨arguments, wellFormed, claims, evidence, arithmetic⟩
    have passed : validReport recursion report = .passed :=
      (validReport_passed_iff recursion report).mpr ⟨wellFormed, fun _ => ⟨evidence, arithmetic⟩⟩
    refine ⟨draftPayload report markdown headSha detailsUrl [], ?_, ?_⟩
    · simp [buildCheckPayload, passed, reportReasons, arguments, bind, Except.bind]
    · rw [draftPayload_conclusion, verdictToConclusion_success_iff, verdictText_eq_supported_iff]
      exact claims

/-! ### Failing closed -/

/-- What a published success promises about the report: the numbers are compared exactly, as they
are spelled. -/
structure Substantiated (report : Json) : Prop where
  verdict : ClaimsSupport report
  impacts : ∀ finding ∈ findingsOf report,
    field "impact" finding ≠ .str Impact.invalidates.value ∧
      field "impact" finding ≠ .str Impact.insufficient.value
  evidence : MetricEvidence report
  difference : (improvementOf report).toRat =
    if isLower report then (meanOf .baseline report).toRat - (meanOf .candidate report).toRat
    else (meanOf .candidate report).toRat - (meanOf .baseline report).toRat
  threshold : (thresholdOf report).toRat ≤ (improvementOf report).toRat

/-- The call completes with a payload, and a success among them is substantiated. -/
def FailsClosed (recursion : RecursionLimit) (report : Json) (markdown headSha detailsUrl : Value) : Prop :=
  ∃ payload, buildCheckPayload recursion report markdown headSha detailsUrl = .ok payload ∧
    payload.status = lit "completed" ∧ (payload.conclusion = .success → Substantiated report)

/-- Only rounding makes the improvement agree with the difference of the means, in a report that
has nothing else wrong. -/
structure RoundedAway (recursion : RecursionLimit) (report : Json) (markdown headSha detailsUrl : Value) :
    Prop where
  arguments : ValidArguments markdown headSha detailsUrl
  wellFormed : WellFormedReport recursion report
  claims : ClaimsSupport report
  evidence : MetricEvidence report
  rounded : (improvementOf report).toRat = (roundedDifference report).toRat
  inexact : (roundedDifference report).toRat ≠ (exactDifference report).toRat
  threshold : (thresholdOf report).toRat ≤ (improvementOf report).toRat

theorem toRat_exactDifference (report : Json) :
    (exactDifference report).toRat =
      if isLower report then (meanOf .baseline report).toRat - (meanOf .candidate report).toRat
      else (meanOf .candidate report).toRat - (meanOf .baseline report).toRat := by
  unfold exactDifference
  split
  · rw [Decimal.toRat_addExact, Decimal.toRat_neg, sub_eq_add_neg]
  · rw [Decimal.toRat_addExact, Decimal.toRat_neg, sub_eq_add_neg]

theorem acceptedArithmetic_iff (report : Json) :
    AcceptedArithmetic report ↔
      (improvementOf report).toRat = (roundedDifference report).toRat ∧
        (thresholdOf report).toRat ≤ (improvementOf report).toRat := by
  have threshold : (improvementOf report).lt (thresholdOf report) = false ↔
      (thresholdOf report).toRat ≤ (improvementOf report).toRat := by
    rw [← not_lt, ← Decimal.lt_iff, Bool.not_eq_true]
  rw [← Decimal.eq_iff, ← threshold]
  exact ⟨fun h => ⟨h.difference, h.threshold⟩, fun h => ⟨h.1, h.2⟩⟩

/-- A supported verdict that agrees with the impacts leaves no finding that speaks against it. -/
theorem impacts_of_supported {report : Json} (findings : ValidFindings report)
    (claims : ClaimsSupport report) :
    ∀ finding ∈ findingsOf report,
      field "impact" finding ≠ .str Impact.invalidates.value ∧
        field "impact" finding ≠ .str Impact.insufficient.value := by
  have expected : (expectedVerdict (findingsOf report)).value = Verdict.supported.value :=
    Json.str.inj (findings.verdict.symm.trans claims)
  have invalidates : hasImpact .invalidates (findingsOf report) = false := by
    by_contra present
    rw [Bool.not_eq_false] at present
    rw [expectedVerdict, if_pos present] at expected
    exact absurd expected (by decide)
  have insufficient : hasImpact .insufficient (findingsOf report) = false := by
    by_contra present
    rw [Bool.not_eq_false] at present
    rw [expectedVerdict, if_neg (by simp [invalidates]), if_pos present] at expected
    exact absurd expected (by decide)
  intro finding member
  have absent : ∀ impact, hasImpact impact (findingsOf report) = false →
      field "impact" finding ≠ .str impact.value := by
    intro impact none text
    have present : hasImpact impact (findingsOf report) = true :=
      List.any_eq_true.mpr ⟨finding, member, (isTextOf_iff _ _).mpr text⟩
    rw [none] at present
    cases present
  exact ⟨absent _ invalidates, absent _ insufficient⟩

/-- The call fails closed unless a membership test meets a list or an object, or rounding alone
makes the arithmetic of the report agree. -/
theorem buildCheckPayload_failsClosed_iff (recursion : RecursionLimit) (report : Json)
    (markdown headSha detailsUrl : Value) :
    FailsClosed recursion report markdown headSha detailsUrl ↔
      ¬ UnhashableReached recursion report ∧
        ¬ RoundedAway recursion report markdown headSha detailsUrl := by
  constructor
  · rintro ⟨payload, returned, _, safe⟩
    -- what breaks the condition raises, or rounds the difference away
    refine ⟨?_, ?_⟩
    · intro unhashable
      obtain ⟨error, raised⟩ := (buildCheckPayload_raises_iff recursion report markdown headSha
        detailsUrl).mpr unhashable
      rw [returned] at raised
      cases raised
    · intro h
      obtain ⟨accepted, returned', success⟩ := (buildCheckPayload_success_iff recursion report
        markdown headSha detailsUrl).mpr ⟨h.arguments, h.wellFormed, h.claims, h.evidence,
          (acceptedArithmetic_iff report).mpr ⟨h.rounded, h.threshold⟩⟩
      obtain rfl := Except.ok.inj (returned.symm.trans returned')
      have exact' := (safe success).difference
      rw [← toRat_exactDifference, h.rounded] at exact'
      exact h.inexact exact'
  -- otherwise the payload is built, and a success is the exact comparison
  · rintro ⟨hashable, exactly⟩
    cases outcome : buildCheckPayload recursion report markdown headSha detailsUrl with
    | error error =>
      exact absurd ((buildCheckPayload_raises_iff _ _ _ _ _).mp ⟨error, outcome⟩) hashable
    | ok payload =>
      refine ⟨payload, outcome, buildCheckPayload_status _ _ _ _ _ outcome, ?_⟩
      intro success
      obtain ⟨arguments, wellFormed, claims, evidence, arithmetic⟩ :=
        (buildCheckPayload_success_iff recursion report markdown headSha detailsUrl).mp
          ⟨payload, outcome, success⟩
      obtain ⟨rounded, threshold⟩ := (acceptedArithmetic_iff report).mp arithmetic
      have unrounded : (roundedDifference report).toRat = (exactDifference report).toRat := by
        by_contra inexact
        exact exactly ⟨arguments, wellFormed, claims, evidence, rounded, inexact, threshold⟩
      refine ⟨claims, impacts_of_supported wellFormed.findings claims, evidence, ?_, threshold⟩
      rw [rounded, unrounded, toRat_exactDifference]

/-! ### Two reports that are not refused -/

/-- A limit of a thousand levels. -/
def sampleRecursion : RecursionLimit where
  fits value := value.depth ≤ 1000
  shallow value shallow := decide_eq_true (shallow.trans (by decide))

/-- A report that reaches the direction, which is a list. -/
def unhashableReport : Json :=
  .object [("verdict", .str "SUPPORTED"), ("manifest", .str "research.yaml"),
    ("claim", .object [("metric", .str "accuracy"), ("minimum_improvement", .int 0),
      ("direction", .array [])])]

/-- The difference of the means is `10^28 + 1`, which 28 digits cannot hold. -/
def roundedReport : Json :=
  .object [("verdict", .str "SUPPORTED"), ("manifest", .str "research.yaml"),
    ("claim", .object [("metric", .str "accuracy"), ("minimum_improvement", .int 0)]),
    ("metrics", .object [
      ("baseline", .object [("count", .int 2), ("mean", .int 0)]),
      ("candidate", .object [("count", .int 2), ("mean", .int (10 ^ 28 + 1))]),
      ("absolute_improvement", .int (10 ^ 28))]),
    ("findings", .array [.object [("rule_id", .str "RESULT.CLAIM_SUPPORTED"),
      ("severity", .str "VERIFIED"), ("impact", .str "NONE"), ("title", .str "t"),
      ("explanation", .str "e"), ("evidence", .object [])]]),
    ("overlaps", .array [])]

def sampleHeadSha : Value := .str (List.replicate 40 0x61)

def isSuccess : Except Error CheckPayload → Bool
  | .ok payload => payload.conclusion == .success
  | .error _ => false

/-- The list raises, and the rounded difference is published as a success. -/
theorem buildCheckPayload_not_failsClosed :
    ¬ FailsClosed sampleRecursion unhashableReport (.str "# Audit") sampleHeadSha .none ∧
    ¬ FailsClosed sampleRecursion roundedReport (.str "# Audit") sampleHeadSha .none := by
  constructor
  · rintro ⟨payload, returned, _⟩
    have raised : (buildCheckPayload sampleRecursion unhashableReport (.str "# Audit") sampleHeadSha
        .none).isOk = false := by decide +kernel
    rw [returned] at raised
    cases raised
  · rintro ⟨payload, returned, _, safe⟩
    have published : isSuccess (buildCheckPayload sampleRecursion roundedReport (.str "# Audit")
        sampleHeadSha .none) = true := by decide +kernel
    rw [returned] at published
    have difference := (safe (by simpa [isSuccess] using published)).difference
    have improvement : improvementOf roundedReport = ⟨false, 10 ^ 28, 0⟩ := by decide +kernel
    have baseline : meanOf .baseline roundedReport = ⟨false, 0, 0⟩ := by decide +kernel
    have candidate : meanOf .candidate roundedReport = ⟨false, 10 ^ 28 + 1, 0⟩ := by decide +kernel
    have higher : isLower roundedReport = false := by decide +kernel
    rw [improvement, baseline, candidate, higher] at difference
    norm_num [Decimal.toRat, Decimal.signed] at difference

end ClaimCI
