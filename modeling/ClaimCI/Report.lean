import ClaimCI.DatasetCheck
import ClaimCI.Python.JsonAlphabet
import ClaimCI.Python.Sorting
import ClaimCI.Python.Template

/-!
# Report

The Markdown view of an audit. What texts that artifacts control can do to its structure.
-/

open Python

namespace ClaimCI

/-! ### Escaping -/

/-- `_markdown_text` and `_markdown_code` of an audit report, and `_markdown_text` of a review. -/
inductive Escaping where
  | text | code | review
  deriving DecidableEq

def textEntities : List (CodePoint × Str) :=
  [(0x7C, "&#124;"), (0x60, "&#96;"), (0x5B, "&#91;"), (0x5D, "&#93;"), (0x28, "&#40;"),
    (0x29, "&#41;"), (0x2A, "&#42;"), (0x5F, "&#95;"), (0x3A, "&#58;")]

def codeEntities : List (CodePoint × Str) :=
  [(0x7C, "&#124;"), (0x60, "&#96;"), (0x5B, "&#91;"), (0x5D, "&#93;"), (0x2A, "&#42;"),
    (0x5F, "&#95;"), (0x7E, "&#126;"), (0x3A, "&#58;")]

def reviewEntities : List (CodePoint × Str) :=
  [(0x7C, "&#124;"), (0x60, "&#96;"), (0x5B, "&#91;"), (0x5D, "&#93;"), (0x28, "&#40;"),
    (0x29, "&#41;"), (0x2A, "&#42;"), (0x5F, "&#95;"), (0x7E, "&#126;"), (0x3A, "&#58;")]

/-- `_unicode_safe`. -/
def unicodeSafe (s : Str) : Str :=
  s.flatMap fun c => if 0xD800 ≤ c.val ∧ c.val ≤ 0xDFFF then unicodeEscape c.val else [c]

/-- What a value is put into a page as; the tags around `code` belong to the page. -/
def escape : Escaping → Str → Str
  | .text, s => replaceBreaks (replaceAll textEntities (htmlEscape true s))
  | .code, s => replaceAll codeEntities (htmlEscape false s)
  | .review, s => replaceBreaks (replaceAll reviewEntities (htmlEscape true (unicodeSafe s)))

abbrev MarkdownLine := List (Fragment Escaping)

/-! ### Evidence -/

def MAX_REPORT_NESTING_DEPTH : Nat := 256

section Evidence

-- `str` of a normalized container, which a key can be
variable (containerText : Json → Str)

mutual

/-- `normalize` of `_json_safe`; `none` is a `ValueError`. -/
def jsonSafe (depth : Nat) (value : Value) : Option Json :=
  if MAX_REPORT_NESTING_DEPTH < depth then some (.str "<maximum report nesting depth>")
  else match value with
    | .none => some .null
    | .bool b => some (.bool b)
    | .int n => some (.int n)
    | .float x => some (.float x)
    | .infinity negative => some (.str (if negative then lit "-Infinity" else lit "Infinity"))
    | .nan _ => some (.str "NaN")
    | .str s => some (.str s)
    | .other _ text => some (.str text)
    | .list items => (jsonSafeItems depth items).map .array
    | .tuple items => (jsonSafeItems depth items).map .array
    | .set items => (jsonSafeItems depth items).map fun normalized =>
      -- members that cannot be encoded make the whole report fail
      .array (sortBy (fun item => (dumps canonicalStyle item).getD []) normalized)
    | .dict entries => (jsonSafeEntries depth entries).map fun members => .object (dictOf members)

def jsonSafeItems (depth : Nat) : List Value → Option (List Json)
  | [] => some []
  | item :: items => do
    let first ← jsonSafe (depth + 1) item
    let rest ← jsonSafeItems depth items
    some (first :: rest)

def jsonSafeEntries (depth : Nat) : List (Value × Value) → Option Members
  | [] => some []
  | (key, item) :: entries => do
    let label ← jsonKey key
    let first ← jsonSafe (depth + 1) item
    let rest ← jsonSafeEntries depth entries
    some ((label, first) :: rest)

/-- `_json_key`. -/
def jsonKey (key : Value) : Option Str :=
  match key with
  | .none => some "None"
  | .bool b => some (if b then lit "True" else lit "False")
  | .int n => intText n
  | .float x => some x.spelling.render
  | .infinity negative => some (if negative then lit "-Infinity" else lit "Infinity")
  | .nan _ => some "NaN"
  | .str s => some s
  | .other _ text => some text
  | .list items => (jsonSafeItems 0 items).map fun items => containerText (.array items)
  | .tuple items => (jsonSafeItems 0 items).map fun items => containerText (.array items)
  | .set items => (jsonSafeItems 0 items).map fun normalized =>
    containerText (.array (sortBy (fun item => (dumps canonicalStyle item).getD []) normalized))
  | .dict entries => (jsonSafeEntries 0 entries).map fun members =>
    containerText (.object (dictOf members))

end

/-- The evidence of a finding as one line of JSON. -/
def evidenceText (evidence : Evidence) : Option Str :=
  (jsonSafe containerText 0 (Value.ofMembers evidence)).bind (dumps canonicalStyle)

end Evidence

/-! ### The page -/

def numberText : Option Binary64 → Str
  | none => "unavailable"
  | some x => formatFixed 6 x

/-- `_markdown_stddev`. -/
def stddevText (summary : Option MetricSummary) : Str :=
  numberText (summary.bind MetricSummary.standardDeviation)

def countText : Option MetricSummary → Str
  | none => "unavailable"
  | some summary => natText summary.count

/-- `f"{x * 100:.2f}"`. -/
def hundredfoldText (x : Binary64) : Str :=
  match x.scale 100 with
  | some y => formatFixed 2 y
  | none => signText x.negative ++ lit "inf"

/-- `_verdict_presentation`. -/
def verdictPresentation : Verdict → Str × Str
  | .supported => ("PASS", "The declared claim is supported by every required check.")
  | .notSupported => ("FAIL", "The declared claim is not supported by the audited evidence.")
  | .insufficientEvidence =>
    ("ACTION REQUIRED", "More or valid evidence is required before this claim can pass.")

def directionLabel : Direction → Str
  | .higher => "higher is better"
  | .lower => "lower is better"

def SEVERITY_ORDER : List Severity := [.critical, .warning, .verified, .info]

section Page

-- `str.casefold`, and `str` of a normalized container
variable (casefold : Str → Str) (containerText : Json → Str)

def usesPercentagePoints (metric : Str) : Bool := casefold metric = lit "accuracy"

def thresholdText (metric : Str) (threshold : Binary64) : Str :=
  if usesPercentagePoints casefold metric then hundredfoldText threshold ++ lit " percentage points"
  else formatFixed 6 threshold ++ lit " metric units"

/-- `_markdown_finding`. -/
def markdownFinding (finding : Finding) : Option (Page Escaping) := do
  let evidence ← evidenceText containerText finding.evidence
  some [
    ["- `", .fixed finding.ruleId, "` - **", .hole .text finding.title, "**"],
    ["  - ", .hole .text finding.explanation],
    ["  - Evidence: ", "<code>", .hole .code evidence, "</code>"]]

def markdownFindings : List Finding → Option (Page Escaping)
  | [] => some []
  | finding :: findings => do
    let first ← markdownFinding containerText finding
    let rest ← markdownFindings findings
    some (first ++ rest)

def summaryLine (label : Str) (summary : Option MetricSummary) : MarkdownLine :=
  ["| ", .fixed label, " | ", .fixed (countText summary), " | ",
    .fixed (numberText (summary.map MetricSummary.mean)), " | ", .fixed (stddevText summary), " |"]

def absoluteLine (metric : Str) : Option Binary64 → MarkdownLine
  | none => ["- **Directional improvement:** unavailable"]
  | some x =>
    if usesPercentagePoints casefold metric then
      ["- **Directional improvement:** `", .fixed (formatFixed 6 x), "` (",
        .fixed (hundredfoldText x), " percentage points)"]
    else ["- **Directional improvement:** `", .fixed (formatFixed 6 x), "` metric units"]

def relativeLine : Option Binary64 → MarkdownLine
  | none => ["- **Relative improvement:** unavailable"]
  | some x =>
    ["- **Relative improvement:** `", .fixed (formatFixed 6 x), "` (", .fixed (formatPercent 2 x), ")"]

/-- What precedes the findings. -/
def claimLines (result : AuditResult) : Page Escaping := [
  ["## ClaimCI Audit"],
  [],
  ["### ", .fixed (verdictPresentation result.verdict).1, " `", .fixed result.verdict.value, "`"],
  [],
  [.fixed (verdictPresentation result.verdict).2],
  [],
  ["### Claim"],
  [],
  ["| Field | Value |"],
  ["|---|---:|"],
  ["| Metric | ", "<code>", .hole .code result.metric, "</code>", " |"],
  ["| Direction | `", .fixed result.direction.value, "` (", .fixed (directionLabel result.direction),
    ") |"],
  ["| Required directional improvement | ", "`", .fixed (formatFixed 6 result.minimumImprovement),
    "` ", "(", .hole .text (thresholdText casefold result.metric result.minimumImprovement), ") |"],
  [],
  ["### Recomputed metrics"],
  [],
  ["| Experiment | Runs | Mean | Sample standard deviation |"],
  ["|---|---:|---:|---:|"],
  summaryLine "Baseline" result.baselineMetrics,
  summaryLine "Candidate" result.candidateMetrics,
  [],
  absoluteLine casefold result.metric result.absoluteImprovement,
  relativeLine result.relativeImprovement]

/-- The findings that bear on the verdict. -/
def driverLines (findings : List Finding) : Option (Page Escaping) :=
  let drivers := findings.filter fun finding => finding.impact ≠ .none
  if drivers = [] then some [["- No invalidating or insufficient-evidence findings."]]
  else markdownFindings containerText drivers

/-- The findings of one severity under their heading. -/
def severityLines (findings : List Finding) (severity : Severity) : Option (Page Escaping) := do
  let grouped := findings.filter fun finding => finding.severity = severity
  if grouped = [] then some []
  else
    let lines ← markdownFindings containerText grouped
    some (["#### ", .fixed severity.value] :: [] :: (lines ++ [[]]))

def severitiesLines (findings : List Finding) : List Severity → Option (Page Escaping)
  | [] => some []
  | severity :: severities => do
    let first ← severityLines containerText findings severity
    let rest ← severitiesLines findings severities
    some (first ++ rest)

/-- What stands between the claim, the drivers, all findings and the end. -/
def driversHeading : Page Escaping := [[], ["### Decision drivers"], []]

def findingsHeading : Page Escaping :=
  [[], ["<details>"], ["<summary>All audit findings</summary>"], []]

def findingsEnd : Page Escaping := [["</details>"], []]

def markdownPage (result : AuditResult) : Option (Page Escaping) := do
  let drivers ← driverLines containerText result.findings
  let groups ← severitiesLines containerText result.findings SEVERITY_ORDER
  some (claimLines casefold result ++ driversHeading ++ drivers ++ findingsHeading ++ groups ++
    findingsEnd)

/-- `render_markdown`; `none` is the `ValueError` of evidence that cannot be encoded. -/
def renderMarkdown (result : AuditResult) : Option Str :=
  (markdownPage casefold containerText result).map (pageText escape)

end Page

end ClaimCI
