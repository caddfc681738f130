import ClaimCI.Report
import ClaimCI.Review.Orchestrator

/-!
# Review report

The Markdown view of a research review.
-/

open Python

namespace ClaimCI.Review

/-! ### Texts -/

def ReviewStatus.value : ReviewStatus → Str
  | .disabled => "DISABLED"
  | .unavailable => "UNAVAILABLE"
  | .partialReview => "PARTIAL"
  | .complete => "COMPLETE"

def ClaimType.value (claimType : ClaimType) : Str :=
  ((ClaimType.values.find? fun entry => entry.2 = claimType).map Prod.fst).getD []

/-- `_source_label`. -/
def sourceLabel (claim : ScientificClaim) : Str :=
  let path := match claim.source.path.val with
    | some path => lit " path=" ++ path
    | none => []
  claim.source.sourceId.val ++ lit " (" ++ claim.source.kind.value ++ path ++ lit ", lines " ++
    natText claim.source.startLine ++ lit "-" ++ natText claim.source.endLine ++ lit ")"

/-- `", ".join(texts)`. -/
def joinTexts (texts : List Str) : Str := (lit ", ").intercalate texts

/-- `str` of a decimal. -/
def decimalText (d : Decimal) : Str :=
  let digits := decimalDigits d.coefficient
  let left : Int := d.exponent + digits.length
  -- the place of the point among the digits
  let point : Int := if d.exponent ≤ 0 ∧ -6 < left then left else 1
  let number :=
    if point ≤ 0 then lit "0." ++ List.replicate (-point).toNat 0x30 ++ renderDigits digits
    else if digits.length ≤ point then
      renderDigits digits ++ List.replicate (point - digits.length).toNat 0x30
    else renderDigits (digits.take point.toNat) ++ DOT :: renderDigits (digits.drop point.toNat)
  let power :=
    if left = point then []
    else lit "E" ++ (if left < point then lit "-" else lit "+") ++ natText (left - point).natAbs
  signText d.negative ++ number ++ power

/-! ### Findings of an audit -/

def MAX_REPORT_DEPTH : Nat := 128

mutual

/-- `_json_safe`, on a frozen JSON value. -/
def reviewSafe (depth : Nat) (value : Json) : Json :=
  if MAX_REPORT_DEPTH < depth then .str "<maximum report nesting depth>"
  else match value with
    | .str s => .str (unicodeSafe s)
    | .infinity _ => .str "<non-finite number>"
    | .nan => .str "<non-finite number>"
    | .array items => .array (reviewSafeItems depth items)
    | .object members => .object (dictOf (reviewSafeMembers depth members))
    | plain => plain

def reviewSafeItems (depth : Nat) : List Json → List Json
  | [] => []
  | item :: items => reviewSafe (depth + 1) item :: reviewSafeItems depth items

def reviewSafeMembers (depth : Nat) : Members → Members
  | [] => []
  | (key, item) :: members =>
    (unicodeSafe key, reviewSafe (depth + 1) item) :: reviewSafeMembers depth members

end

/-- `json.dumps` with sorted keys and the default separators. -/
def evidenceStyle : DumpStyle := ⟨false, none, [SPACE], [SPACE], true⟩

/-- A field of a finding, which an audit hands over as a JSON object. -/
def findingField (key : Str) : Json → Json
  | .object members => (lookupKey key members).getD .null
  | _ => .null

def findingText (key : Str) (finding : Json) : Str :=
  match findingField key finding with
  | .str s => s
  | _ => []

/-! ### The page -/

def hole (value : Str) : Fragment Escaping := .hole .review value

def claimBlock (claim : ScientificClaim) : Page Escaping := [
  ["#### `", hole claim.claimId.val, "`"],
  [],
  ["- **Claim type:** ", hole claim.claimType.value],
  ["- **Subject:** ", hole claim.subject.val],
  ["- **Source:** ", hole (sourceLabel claim)],
  ["- **Original text:** ", hole claim.sourceText.val],
  ["- **Confidence:** ", hole claim.confidence.val.spelling.render],
  []]

/-- Lines, or a line that says that there are none. -/
def orElse (lines : Page Escaping) (none : String) : Page Escaping :=
  if lines = [] then [[.fixed (lit none)]] else lines

/-- `_claim_lines`. -/
def claimLines (review : ResearchReview) : Page Escaping :=
  orElse ((sortBy (fun claim => claim.claimId.val) review.claims).flatMap claimBlock)
    "- No claims were extracted."

/-- `none` is the `ValueError` of evidence that cannot be encoded. -/
def auditFinding (finding : Json) : Option (Page Escaping) := do
  let evidence ← dumps evidenceStyle (reviewSafe 0 (findingField "evidence" finding))
  some [
    ["  - [", hole (findingText "rule_id" finding), "] ",
      "**", hole (findingText "title" finding), "**: ", hole (findingText "explanation" finding)],
    ["    - Severity=", hole (findingText "severity" finding), ", ",
      "impact=", hole (findingText "impact" finding), "; evidence ", "`", hole evidence, "`"]]

def auditFindings : List Json → Option (Page Escaping)
  | [] => some []
  | finding :: findings => do
    let first ← auditFinding finding
    let rest ← auditFindings findings
    some (first ++ rest)

def auditBlock (audit : AuditSnapshot) : Option (Page Escaping) := do
  let findings ← auditFindings audit.findings
  some (["- Manifest `", hole audit.manifestPath, "`: ", "verdict **", hole audit.verdict,
    "**, metric ", "`", hole audit.metric, "`, direction ", "`", hole audit.direction, "`."] ::
    orElse findings "  - No deterministic findings.")

def auditBlocks : List AuditSnapshot → Option (Page Escaping)
  | [] => some []
  | audit :: audits => do
    let first ← auditBlock audit
    let rest ← auditBlocks audits
    some (first ++ rest)

/-- `_deterministic_lines`. -/
def deterministicLines (review : ResearchReview) : Option (Page Escaping) :=
  (auditBlocks (sortBy (fun audit => audit.manifestPath) review.deterministicAudits)).map fun lines =>
    orElse lines
      "- No deterministic ClaimCI audit snapshot was available for this bounded review scope."

/-- The interpretations in the order of their claims. -/
def interpretationsInOrder (review : ResearchReview) : List ClaimInterpretation :=
  sortBy ClaimInterpretation.claimId review.interpretations

def interpretationBlock (interpretation : ClaimInterpretation) : Page Escaping := [
  ["- **Claim `", hole interpretation.claimId, "`:** ", hole interpretation.interpretation],
  ["  - Citations: ", hole (if joinTexts interpretation.citations = [] then lit "none"
    else joinTexts interpretation.citations)]]

/-- `_interpretation_lines`. -/
def interpretationLines (review : ResearchReview) : Page Escaping :=
  orElse ((interpretationsInOrder review).flatMap interpretationBlock)
    "- No LLM interpretation was produced."

/-- The order of lists of texts. -/
def textsLe : List Str → List Str → Bool
  | [], _ => true
  | _ :: _, [] => false
  | a :: as, b :: bs => if a = b then textsLe as bs else strLe a b

def missingKey (item : MissingEvidence) : List Str :=
  [item.claimId, item.requestedPath.getD [], item.reason]

/-- Where the missing evidence was asked for, if anywhere. -/
def requestedPart (path : Str) : MarkdownLine :=
  if path = [] then [] else [" (requested `", hole path, "`)"]

def missingLine (item : MissingEvidence) : MarkdownLine :=
  .fixed (lit "- **Claim `") :: hole item.claimId :: .fixed (lit "`:** ") ::
    hole (if item.description = [] then item.reason else item.description) ::
    requestedPart (item.requestedPath.getD [])

def noteLine (claimId note : Str) : MarkdownLine :=
  ["- **Claim `", hole claimId, "` (LLM note):** ", hole note]

def unsupportedLine (claimId note : Str) : MarkdownLine :=
  ["- **Claim `", hole claimId, "`:** ", hole note]

/-- `_missing_lines`. -/
def missingLines (review : ResearchReview) : Page Escaping :=
  let missing := review.evidence.missing.insertionSort fun a b =>
    textsLe (missingKey a) (missingKey b) = true
  orElse (missing.map missingLine ++ (interpretationsInOrder review).flatMap fun interpretation =>
      interpretation.missingEvidence.map (noteLine interpretation.claimId))
    "- No missing evidence was recorded by deterministic discovery."

/-- `_unsupported_lines`. -/
def unsupportedLines (review : ResearchReview) : Page Escaping :=
  orElse ((interpretationsInOrder review).flatMap fun interpretation =>
      interpretation.unsupportedInferences.map (unsupportedLine interpretation.claimId))
    "- No unsupported inferences were recorded."

def yesNo (b : Bool) : Str := if b then lit "yes" else lit "no"

/-- What follows the claims of a reference. -/
def referenceDetails (reference : EvidenceReference) : MarkdownLine :=
  ["): ", "provenance **", hole reference.provenance.value, "**; ",
    "locality **", hole reference.locality.value, "**; ",
    "excerpt complete **", .fixed (yesNo reference.excerptComplete), "**; ",
    "`", hole reference.path, "` lines ",
    .fixed (natText reference.cut.startLine), "-", .fixed (natText reference.cut.endLine), "; ",
    "excerpt: ", hole reference.cut.text]

def referenceLine (reference : EvidenceReference) : MarkdownLine :=
  .fixed (lit "- Evidence `") :: hole reference.evidenceId :: .fixed (lit "` ") :: .fixed (lit "(") ::
    ((reference.claimIds.map hole).intersperse (.fixed (lit ", ")) ++ referenceDetails reference)

/-- A recorded amount. -/
def usageText (amount : Option Str) : Str := amount.getD (lit "unavailable")

def usageLine (review : ResearchReview) : MarkdownLine :=
  ["- Provider calls: ", .fixed (natText review.providerCalls.length), "; input tokens: ",
    hole (usageText (review.usage.inputTokens.map natText)), "; ",
    "output tokens: ", hole (usageText (review.usage.outputTokens.map natText)), "; ",
    "total tokens: ", hole (usageText (review.usage.totalTokens.map natText)), "; ",
    "estimated cost USD: ", hole (usageText (review.usage.estimatedCost.map decimalText)), "."]

def errorLines (review : ResearchReview) : Page Escaping :=
  let message := review.errorMessage.getD []
  if message = [] then [] else [[], ["**Review note:** ", hole message]]

def reviewHeading (review : ResearchReview) : Page Escaping := [
  ["## ClaimCI Research Review (Advisory)"],
  [],
  ["This review is advisory. Only the separate deterministic ClaimCI ",
    "Audit can block a pull request."],
  [],
  ["**Status:** `", hole review.status.value, "`"],
  [],
  ["### Claims"],
  []]

def missingHeading : Page Escaping := [
  [],
  ["### MISSING_EVIDENCE"],
  [],
  ["Evidence gaps are limited to ClaimCI's bounded analyzed snapshot; ",
    "they do not establish that evidence is absent from the original repository."],
  []]

def usageHeading (review : ResearchReview) : Page Escaping := [
  [],
  ["### Evidence and provider usage"],
  [],
  ["- Evidence references: ", .fixed (natText review.evidence.references.length), "; ",
    "bounded characters: ", .fixed (natText review.evidence.totalChars), "."],
  ["- Routing incomplete: ", .fixed (yesNo review.evidence.routingIncomplete), "."]]

/-- The headings between the other sections. -/
def sectionHeading (title : String) : Page Escaping := [[], [.fixed (lit title)], []]

def reviewPage (review : ResearchReview) : Option (Page Escaping) := do
  let deterministic ← deterministicLines review
  some (reviewHeading review ++ claimLines review ++ [.fixed (lit "### DETERMINISTIC_EVIDENCE")] ::
    [] :: (deterministic ++ sectionHeading "### LLM_INTERPRETATION" ++ interpretationLines review ++
    missingHeading ++ missingLines review ++ sectionHeading "### UNSUPPORTED_INFERENCE" ++
    unsupportedLines review ++ usageHeading review ++
    (sortBy EvidenceReference.evidenceId review.evidence.references).map referenceLine ++
    [usageLine review] ++ errorLines review))

/-- `render_review_markdown`; `none` is the `ValueError` of evidence that cannot be encoded. -/
def renderReviewMarkdown (review : ResearchReview) : Option Str :=
  (reviewPage review).map fun page => pageText escape page ++ [LF]

end ClaimCI.Review
