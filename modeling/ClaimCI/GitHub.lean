import ClaimCI.ResultCheck

/-!
# GitHub checks

The adapter that turns a parsed report and its Markdown summary into the payload of a Check Run.
The report is untrusted JSON: every field may hold any value.
-/

open Python

namespace ClaimCI

/-- `ClaimCI.github.MAX_SUMMARY_LENGTH`. -/
def MAX_SUMMARY_LENGTH : Nat := 65535

def CHECK_NAME : Str := "ClaimCI Audit"

def INTEGRATION_FAILURE_TITLE : Str := "ClaimCI Audit - integration failure"

inductive Conclusion where
  | success | failure | actionRequired
  deriving DecidableEq, Repr

def Conclusion.value : Conclusion → Str
  | success => "success"
  | failure => "failure"
  | actionRequired => "action_required"

/-- `verdict_to_conclusion`. -/
def verdictToConclusion (verdict : Str) : Conclusion :=
  if verdict = Verdict.supported.value then .success
  else if verdict = Verdict.notSupported.value then .failure
  else if verdict = Verdict.insufficientEvidence.value then .actionRequired
  else .failure

/-! ### Reading fields -/

/-- `value.get(key)`, asked of a mapping only. -/
def field (key : Str) : Json → Json
  | .object members => (lookupKey key members).getD .null
  | _ => .null

/-- `value.get(key, default)`. -/
def fieldOr (key : Str) (default : Json) : Json → Json
  | .object members => (lookupKey key members).getD default
  | _ => default

def isMapping : Json → Bool
  | .object _ => true
  | _ => false

def isText : Json → Bool
  | .str _ => true
  | _ => false

/-- The value is a string with a character that `strip` keeps. -/
def isNonBlank : Json → Bool
  | .str s => !isBlank s
  | _ => false

/-- `float(value)` of a number that is not a bool. -/
def toFloat : Json → Option Binary64
  | .int n => Binary64.ofInt n
  | .float x => some x
  | _ => none

/-- `_finite_number`; an integer that overflows a float is not finite. -/
def isFiniteNumber (value : Json) : Bool := (toFloat value).isSome

/-- `_finite_number(value) and float(value) >= 0.0`. -/
def isNonNegative (value : Json) : Bool :=
  match toFloat value with
  | some x => (Binary64.zero false).le x
  | none => false

/-- `Decimal(str(value))` of a finite number. -/
def spelledDecimal : Json → Decimal
  | .int n => Decimal.ofInt n
  | .float x => x.toDecimal
  | _ => Decimal.ofNat 0

/-- An integer, not a bool, that is at least `bound`. -/
def isIntAtLeast (bound : Int) : Json → Bool
  | .int n => bound ≤ n
  | _ => false

/-- `value in choices`, where `choices` is a set of strings: membership hashes the value first. -/
def memberOf (choices : List Str) : Json → Except Error Bool
  | .str s => .ok (choices.contains s)
  | .array _ => .error (.typeError "unhashable type: 'list'")
  | .object _ => .error (.typeError "unhashable type: 'dict'")
  | _ => .ok false

/-- `_strict_json_safe`. -/
def strictJsonSafe (recursion : RecursionLimit) (value : Json) : Bool :=
  value.dumpable && recursion.fits value

/-! ### The parts of a report -/

def validMetricSummary (value : Json) : Bool :=
  let deviation := field "standard_deviation" value
  isMapping value && isIntAtLeast 1 (field "count" value) &&
    isFiniteNumber (field "mean" value) &&
    (match deviation with
      | .null => true
      | deviation => isNonNegative deviation)

def SEVERITIES : List Str :=
  [Severity.critical.value, Severity.warning.value, Severity.verified.value, Severity.info.value]

def IMPACTS : List Str := [Impact.none.value, Impact.invalidates.value, Impact.insufficient.value]

def validFinding (value : Json) : Except Error Bool :=
  if isMapping value && isNonBlank (field "rule_id" value) then do
    if ← memberOf SEVERITIES (field "severity" value) then
      if ← memberOf IMPACTS (field "impact" value) then
        .ok (isText (field "title" value) && isText (field "explanation" value) &&
          isMapping (field "evidence" value))
      else .ok false
    else .ok false
  else .ok false

/-- `all(_valid_finding(finding) for finding in findings)`: the first bad finding ends it. -/
def allFindingsValid : List Json → Except Error Bool
  | [] => .ok true
  | finding :: rest => do
    if ← validFinding finding then allFindingsValid rest else .ok false

def intAtMost : Json → Json → Bool
  | .int a, .int b => a ≤ b
  | _, _ => false

/-- `_finite_number(value) and 0.0 <= float(value) <= 1.0`. -/
def isUnitInterval (value : Json) : Bool :=
  match toFloat value with
  -- 1.0 in units of the least positive double
  | some x => (Binary64.zero false).le x && x.units ≤ 2 ^ 1074
  | none => false

def isArray : Json → Bool
  | .array _ => true
  | _ => false

def validOverlap (value : Json) : Bool :=
  isMapping value &&
    ["train_count", "eval_count", "overlap_count"].all
      (fun name => isIntAtLeast 0 (field name value)) &&
    isNonBlank (field "experiment" value) && isUnitInterval (field "overlap_rate" value) &&
    intAtMost (field "overlap_count" value) (field "train_count" value) &&
    intAtMost (field "overlap_count" value) (field "eval_count" value) &&
    isArray (fieldOr "overlapping_hashes" (.array []) value)

/-! ### The report -/

/-- How a stretch of `_valid_report` ends: it goes on, returns a reason, or raises. -/
inductive Check where
  | passed
  | rejected (reason : Str)
  | raised (error : Error)

/-- The next stretch runs only when this one goes on. -/
def Check.andThen : Check → Check → Check
  | .passed, next => next
  | .rejected reason, _ => .rejected reason
  | .raised error, _ => .raised error

def require (condition : Bool) (reason : String) : Check :=
  if condition then .passed else .rejected (lit reason)

/-- A condition that may raise. -/
def requireOk (condition : Except Error Bool) (reason : String) : Check :=
  match condition with
  | .ok true => .passed
  | .ok false => .rejected (lit reason)
  | .error error => .raised error

def arrayItems : Json → List Json
  | .array items => items
  | _ => []

/-- The verdict is one of the public verdicts. -/
def isVerdict : Json → Bool
  | .str s => [Verdict.supported.value, Verdict.notSupported.value,
      Verdict.insufficientEvidence.value].contains s
  | _ => false

def headerCheck (recursion : RecursionLimit) (report : Json) : Check :=
  (require (isMapping report) "report is not a JSON object").andThen <|
  (require (strictJsonSafe recursion report) "report is not strict JSON").andThen <|
  (require (isVerdict (field "verdict" report)) "report has an unknown verdict").andThen <|
  require (isNonBlank (field "manifest" report)) "report is missing a valid manifest"

def reportDirection (report : Json) : Json :=
  fieldOr "direction" (.str Direction.higher.value) (field "claim" report)

def claimCheck (report : Json) : Check :=
  let claim := field "claim" report
  (require (isMapping claim) "report is missing a valid claim section").andThen <|
  (require (isNonBlank (field "metric" claim)) "report claim has an invalid metric").andThen <|
  (require (isNonNegative (field "minimum_improvement" claim))
    "report claim has an invalid minimum improvement").andThen <|
  requireOk (memberOf [Direction.higher.value, Direction.lower.value] (reportDirection report))
    "report claim has an invalid direction"

/-- An absent value, or one that `valid` accepts. -/
def nullOr (valid : Json → Bool) : Json → Bool
  | .null => true
  | value => valid value

def metricsCheck (report : Json) : Check :=
  let metrics := field "metrics" report
  (require (isMapping metrics) "report is missing a valid metrics section").andThen <|
  (require (nullOr validMetricSummary (field "baseline" metrics))
    "report has an invalid baseline metric summary").andThen <|
  (require (nullOr validMetricSummary (field "candidate" metrics))
    "report has an invalid candidate metric summary").andThen <|
  (require (nullOr isFiniteNumber (field "absolute_improvement" metrics))
    "report has an invalid absolute_improvement").andThen <|
  require (nullOr isFiniteNumber (field "relative_improvement" metrics))
    "report has an invalid relative_improvement"

def isTextOf (text : Str) : Json → Bool
  | .str s => s == text
  | _ => false

def hasImpact (impact : Impact) (findings : List Json) : Bool :=
  findings.any fun finding => isTextOf impact.value (field "impact" finding)

/-- The verdict that the impacts of the findings call for. -/
def expectedVerdict (findings : List Json) : Verdict :=
  if hasImpact .invalidates findings then .notSupported
  else if hasImpact .insufficient findings then .insufficientEvidence
  else .supported

def findingsCheck (report : Json) : Check :=
  let findings := arrayItems (field "findings" report)
  (require (isArray (field "findings" report) && !findings.isEmpty)
    "report is missing valid findings").andThen <|
  (requireOk (allFindingsValid findings) "report has an invalid finding").andThen <|
  require (isTextOf (expectedVerdict findings).value (field "verdict" report))
    "report verdict contradicts finding impacts"

/-- The claim's direction is `lower`. -/
def isLower (report : Json) : Bool := isTextOf Direction.lower.value (reportDirection report)

/-- `expected_improvement`, in the default decimal context. -/
def expectedImprovement (report : Json) : Decimal :=
  let metrics := field "metrics" report
  let baselineMean := spelledDecimal (field "mean" (field "baseline" metrics))
  let candidateMean := spelledDecimal (field "mean" (field "candidate" metrics))
  absoluteDecimal (if isLower report then .lower else .higher) baselineMean candidateMean

/-- The checks that only a supported report is put to. -/
def supportedCheck (report : Json) : Check :=
  let metrics := field "metrics" report
  let improvement := field "absolute_improvement" metrics
  let threshold := field "minimum_improvement" (field "claim" report)
  if isTextOf Verdict.supported.value (field "verdict" report) then
    (require (validMetricSummary (field "baseline" metrics) &&
        validMetricSummary (field "candidate" metrics) && isFiniteNumber improvement &&
        (arrayItems (field "findings" report)).any fun finding =>
          isTextOf "RESULT.CLAIM_SUPPORTED" (field "rule_id" finding))
      "supported report lacks verified metric evidence").andThen <|
    -- the difference is recomputed from the spelled metrics and rounded to 28 digits
    (require ((spelledDecimal improvement).eq (expectedImprovement report))
      "supported report has inconsistent improvement arithmetic").andThen <|
    require (!(spelledDecimal improvement).lt (spelledDecimal threshold))
      "supported report does not meet its claim threshold"
  else .passed

def overlapsCheck (report : Json) : Check :=
  require (isArray (field "overlaps" report) &&
    (arrayItems (field "overlaps" report)).all validOverlap)
    "report has invalid overlap summaries"

/-- `_valid_report`. -/
def validReport (recursion : RecursionLimit) (report : Json) : Check :=
  (headerCheck recursion report).andThen <|
  (claimCheck report).andThen <|
  (metricsCheck report).andThen <|
  (findingsCheck report).andThen <|
  (supportedCheck report).andThen <|
  overlapsCheck report

/-! ### The payload -/

/-- What truncation appends. -/
def truncationNotice : Str :=
  lit "\n\n> **ClaimCI:** summary truncated to satisfy the GitHub Check Run output limit."

/-- `_bounded_summary`. -/
def boundedSummary (summary : Str) : Str :=
  if summary.length ≤ MAX_SUMMARY_LENGTH then summary
  else summary.take (MAX_SUMMARY_LENGTH - truncationNotice.length) ++ truncationNotice

/-- `_failure_summary`. -/
def failureSummary (reason : Str) : Str :=
  lit "## ClaimCI Audit\n\n**FAILURE - ClaimCI could not publish a trustworthy audit verdict.**\n\n"
    ++ lit "Adapter validation: " ++ reason ++ lit ".\n"

def isHexDigit (c : CodePoint) : Bool :=
  (0x30 ≤ c.val && c.val ≤ 0x39) || (0x61 ≤ c.val && c.val ≤ 0x66) ||
    (0x41 ≤ c.val && c.val ≤ 0x46)

/-- A full match of `_HEAD_SHA`. -/
def isHeadSha (s : Str) : Bool := s.all isHexDigit && (s.length == 40 || s.length == 64)

structure CheckPayload where
  name : Str
  headSha : Str
  status : Str
  conclusion : Conclusion
  title : Str
  summary : Str
  detailsUrl : Option Str

/-- The payload as the dictionary the API is sent. -/
def CheckPayload.toJson (payload : CheckPayload) : Json :=
  let members : Members :=
    [("name", .str payload.name), ("head_sha", .str payload.headSha),
      ("status", .str payload.status), ("conclusion", .str payload.conclusion.value),
      ("output", .object [("title", .str payload.title), ("summary", .str payload.summary)])]
  .object (members ++ (payload.detailsUrl.map fun url => (lit "details_url", .str url)).toList)

/-- The text of an argument that is a string other than blanks. -/
def nonBlankText : Value → Option Str
  | .str s => if isBlank s then none else some s
  | _ => none

def normalizedHeadSha : Value → Option Str
  | .str s => if isHeadSha (strip s) then some (strip s) else none
  | _ => none

/-- The URL to send, or that the argument is invalid. -/
def normalizedDetailsUrl : Value → Except Unit (Option Str)
  | .none => .ok none
  | url =>
    match nonBlankText url with
    | some s => .ok (some (strip s))
    | none => .error ()

/-- `"; ".join(reasons)`. -/
def joinReasons : List Str → Str
  | [] => []
  | [reason] => reason
  | reason :: rest => reason ++ lit "; " ++ joinReasons rest

/-- Why the other arguments cannot be published, in the order they are looked at. -/
def argumentReasons (markdown headSha detailsUrl : Value) : List Str :=
  (if (normalizedHeadSha headSha).isNone then [lit "head SHA is missing or malformed"] else []) ++
  (if (nonBlankText markdown).isNone then [lit "Markdown summary is missing"] else []) ++
  (match normalizedDetailsUrl detailsUrl with
    | .ok _ => []
    | .error _ => [lit "details URL is invalid"])

/-- The reason of a rejected report; `none` while the report is acceptable. -/
def reportReasons (check : Check) : Except Error (List Str) :=
  match check with
  | .passed => .ok []
  | .rejected reason => .ok [reason]
  | .raised error => .error error

def verdictText : Json → Str
  | .str s => s
  | _ => []

/-- The URL of the payload, left out when it is absent or invalid. -/
def publishedUrl (detailsUrl : Value) : Option Str :=
  match normalizedDetailsUrl detailsUrl with
  | .ok url => url
  | .error _ => none

/-- The payload before the final guard. -/
def draftPayload (report : Json) (markdown headSha detailsUrl : Value) (reasons : List Str) :
    CheckPayload :=
  if reasons = [] then
    { name := CHECK_NAME
      headSha := (normalizedHeadSha headSha).getD []
      status := "completed"
      conclusion := verdictToConclusion (verdictText (field "verdict" report))
      title := lit "ClaimCI Audit - " ++ verdictText (field "verdict" report)
      summary := boundedSummary ((nonBlankText markdown).getD [])
      detailsUrl := publishedUrl detailsUrl }
  else
    -- any reason fails the check closed
    { name := CHECK_NAME
      headSha := (normalizedHeadSha headSha).getD []
      status := "completed"
      conclusion := .failure
      title := INTEGRATION_FAILURE_TITLE
      summary := boundedSummary (failureSummary (joinReasons reasons))
      detailsUrl := publishedUrl detailsUrl }

/-- The payload that replaces one the recursion does not take. -/
def guardPayload (recursion : RecursionLimit) (payload : CheckPayload) : CheckPayload :=
  if strictJsonSafe recursion payload.toJson then payload
  else
    { name := CHECK_NAME
      headSha := payload.headSha
      status := "completed"
      conclusion := .failure
      title := INTEGRATION_FAILURE_TITLE
      summary := failureSummary (lit "payload is not strict JSON")
      detailsUrl := none }

/-- `build_check_payload` of a parsed report. -/
def buildCheckPayload (recursion : RecursionLimit) (report : Json) (markdown headSha detailsUrl : Value) :
    Except Error CheckPayload := do
  let reasons ← reportReasons (validReport recursion report)
  .ok (guardPayload recursion (draftPayload report markdown headSha detailsUrl
    (reasons ++ argumentReasons markdown headSha detailsUrl)))

end ClaimCI
