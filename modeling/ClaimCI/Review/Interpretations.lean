import ClaimCI.Review.Evidence

/-!
# Interpretations

The interpretations that a provider returns for the claims of a review: what the trusted evidence
forces them to say, and the checks that they pass.
-/

open Python

namespace ClaimCI.Review

structure ClaimInterpretation where
  claimId : Str
  interpretation : Str
  citations : List Str
  missingEvidence : List Str
  unsupportedInferences : List Str
  confidence : Binary64

/-- What an interpretation of a claim has to say and to cite. -/
structure InterpretationConstraint where
  kind : Str
  state : Str
  requiredInterpretation : Str
  requiredCitations : List Str

variable (lookup : Lookup)

/-! ### Test counts -/

/-- `text.split()`. -/
def wordsOf (text : Str) : List Str :=
  (text.splitBy fun a b => isSpace a == isSpace b).filter fun run => !run.all isSpace

/-- `_normalized_words`. -/
def normalizedWords (value : Str) : Str :=
  [SPACE].intercalate (wordsOf (lookup.tables.casefold value))

def TEST_COUNT_METRICS : List Str :=
  ["test", "tests", "test count", "test case", "test cases", "test case count"]

def TEST_COUNT_UNITS : List Str := ["case", "cases", "test", "tests", "test case", "test cases"]

/-- `_is_test_count_metric`. -/
def isTestCountMetric (metric : Str) : Bool :=
  let normalized := normalizedWords lookup metric
  TEST_COUNT_METRICS.contains normalized ||
    (lit "test cases covering ").isPrefixOf normalized || (lit "tests covering ").isPrefixOf normalized

inductive JavaState where
  | code | lineComment | blockComment | textBlock | string | character
  deriving DecidableEq

/-- `"` and `'`. -/
def APOSTROPHE : CodePoint := 0x27

def TEXT_BLOCK : Str := [QUOTE, QUOTE, QUOTE]

/-- A masked character: only line feeds stay. -/
def blank (c : CodePoint) : CodePoint := if c = LF then LF else SPACE

/-- The code of a Java source, with comments and literals masked; `none` is a malformed source. -/
def maskJava : Nat → JavaState → Str → Option Str
  | _, state, [] => if state = .code ∨ state = .lineComment then some [] else none
  | 0, _, _ :: _ => none
  | fuel + 1, .code, c :: rest =>
    if c = SLASH ∧ rest.head? = some SLASH then
      (maskJava fuel .lineComment rest.tail).map ([SPACE, SPACE] ++ ·)
    else if c = SLASH ∧ rest.head? = some 0x2A then
      (maskJava fuel .blockComment rest.tail).map ([SPACE, SPACE] ++ ·)
    else if TEXT_BLOCK.isPrefixOf (c :: rest) then
      (maskJava fuel .textBlock (rest.drop 2)).map ([SPACE, SPACE, SPACE] ++ ·)
    else if c = QUOTE then (maskJava fuel .string rest).map (SPACE :: ·)
    else if c = APOSTROPHE then (maskJava fuel .character rest).map (SPACE :: ·)
    else (maskJava fuel .code rest).map (c :: ·)
  | fuel + 1, .lineComment, c :: rest =>
    (maskJava fuel (if c = LF then .code else .lineComment) rest).map (blank c :: ·)
  | fuel + 1, .blockComment, c :: rest =>
    if c = 0x2A ∧ rest.head? = some SLASH then
      (maskJava fuel .code rest.tail).map ([SPACE, SPACE] ++ ·)
    else (maskJava fuel .blockComment rest).map (blank c :: ·)
  | fuel + 1, .textBlock, c :: rest =>
    -- an escaped triple quote ends the block too
    if TEXT_BLOCK.isPrefixOf (c :: rest) then
      (maskJava fuel .code (rest.drop 2)).map ([SPACE, SPACE, SPACE] ++ ·)
    else (maskJava fuel .textBlock rest).map (blank c :: ·)
  | fuel + 1, state, c :: rest =>
    let terminator := if state = .string then QUOTE else APOSTROPHE
    -- a literal does not go over the end of the line, not even behind a backslash
    if c = LF then none
    else if c = BACKSLASH then
      match rest with
      | [] => none
      | d :: rest => if d = LF then none else (maskJava fuel state rest).map ([SPACE, SPACE] ++ ·)
    else (maskJava fuel (if c = terminator then .code else state) rest).map (SPACE :: ·)

/-- `\\u+[0-9a-fA-F]{4}`. -/
def UNICODE_ESCAPE : Regex :=
  .sequence [.char (· == BACKSLASH), .plus (.char (· == LOWER_U)),
    .repeated (.char fun c => (hexDigit c).isSome) 4 (some 4)]

/-- `[ \t]*@Test[ \t]*`. -/
def isStandaloneTest (line : Str) : Bool :=
  let isBlank (c : CodePoint) : Bool := c == SPACE || c == 0x09
  (line.dropWhile isBlank).rdropWhile isBlank == lit "@Test"

/-- `_java_standalone_test_count`. -/
def javaStandaloneTestCount (text : Str) : Option Nat :=
  let normalized := universalNewlines text
  if (UNICODE_ESCAPE.search lookup.chars normalized).isSome then none
  else
    (maskJava (normalized.length + 1) .code normalized).map fun masked =>
      ((plainLines masked).filter isStandaloneTest).length

/-- `int(number)`. -/
def Number.toInt : Number → Int
  | int n => n
  | float x => truncated x

/-- The claimed number of tests of a claim that the whole-file count applies to. -/
def claimedTestCount (claim : ScientificClaim) : Option Int :=
  match claim.claimedMagnitude with
  | none => none
  | some magnitude =>
    match magnitude.value, magnitude.unit, claim.metric with
    | some number, some unit, some metric =>
      let counts := number.val.toFloat.any fun x => isInteger x && (Binary64.zero false).le x
      if claim.claimType = .implementationClaim ∧ magnitude.kind = .absolute ∧ counts ∧
          TEST_COUNT_UNITS.contains (normalizedWords lookup unit.val) ∧
          isTestCountMetric lookup metric.val then some number.val.toInt
      else none
    | _, _, _ => none

/-- The hinted Java files that are named like the subject. -/
def hintedJavaPaths (claim : ScientificClaim) : List Str :=
  (claim.evidenceHints.map Subtype.val).dedup.filter fun path =>
    let name := ((posixParts path).getLast?).getD []
    lookup.tables.casefold (pathSuffix name) == lit ".java" &&
      name.take (name.length - (pathSuffix name).length) == strip claim.subject.val

/-- The test count of the only reference, when it shows its whole file. -/
def observedTestCount (reference : Option EvidenceReference) : Option Nat :=
  match reference with
  | none => none
  | some reference =>
    if reference.excerptComplete = true ∧ reference.locality = .completeFile then
      javaStandaloneTestCount lookup reference.cut.text
    else none

/-- One entry of `_java_test_cardinality_constraints`. -/
def javaConstraint (evidence : EvidenceBundle) (claim : ScientificClaim) :
    Option InterpretationConstraint :=
  match claimedTestCount lookup claim, hintedJavaPaths lookup claim with
  | some claimed, [path] =>
    let references := evidence.references.filter fun reference =>
      reference.path == path && reference.kind == .test &&
        reference.claimIds.contains claim.claimId.val
    -- two references to one file count as none
    let reference := match references with
      | [reference] => some reference
      | _ => none
    let citations := (reference.map (·.evidenceId)).toList
    match observedTestCount lookup reference with
    | none => some ⟨"java_test_cardinality", "incomplete",
        lit "ClaimCI cannot verify the exact whole-file test count because " ++
          lit "complete claim-owned Java test evidence was not available in the " ++
          lit "analyzed snapshot.", []⟩
    | some observed =>
      if (observed : Int) ≠ claimed then some ⟨"java_test_cardinality", "contradicted",
        lit "The complete source contains " ++ natText observed ++ lit " standalone @Test " ++
          lit "annotation lines, contradicting the claimed count of " ++ renderInt claimed ++
          lit " test cases.", citations⟩
      else some ⟨"java_test_cardinality", "corroborated",
        lit "The complete source contains " ++ natText observed ++ lit " standalone @Test " ++
          lit "annotation lines, matching the claimed count of " ++ renderInt claimed ++
          lit " test cases; this is source support, not evidence that the tests were executed.",
        citations⟩
  | _, _ => none

/-! ### Constraints -/

/-- `_evidence_ids_by_claim_id`, of one claim. -/
def evidenceIdsOf (evidence : EvidenceBundle) (claimId : Str) : List Str :=
  sortBy id ((evidence.references.filter fun reference =>
    reference.claimIds.contains claimId && reference.isCitable).map (·.evidenceId))

/-- The claim has evidence, but none of it can be cited. -/
def unlocalizedConstraint (evidence : EvidenceBundle) (claim : ScientificClaim) :
    Option InterpretationConstraint :=
  let unlocalized := evidence.references.filter fun reference =>
    reference.claimIds.contains claim.claimId.val && !reference.isCitable
  if unlocalized.isEmpty = false ∧ evidenceIdsOf evidence claim.claimId.val = [] then
    some ⟨"unlocalized_evidence", "incomplete",
      lit "ClaimCI cannot verify this claim from the exact source/test " ++
        lit "evidence because the available bounded excerpts could not be " ++
        lit "localized to the material region.", []⟩
  else none

/-- The constraints of some claims by their identifiers. -/
def constraintsOf (constraint : ScientificClaim → Option InterpretationConstraint)
    (claims : List ScientificClaim) : List (Str × InterpretationConstraint) :=
  claims.filterMap fun claim => (constraint claim).map fun found => (claim.claimId.val, found)

/-- `_interpretation_constraints`: the count of a whole file takes precedence. -/
def interpretationConstraints (claims : List ScientificClaim) (evidence : EvidenceBundle) :
    List (Str × InterpretationConstraint) :=
  dictOf (constraintsOf (unlocalizedConstraint evidence) claims ++
    constraintsOf (javaConstraint lookup evidence) claims)

/-! ### Parsing -/

def MAX_PROVIDER_JSON_DEPTH : Nat := 64

mutual

/-- `_validate_depth`: no value is below more containers than this. -/
def withinDepth : Nat → Json → Bool
  | levels, .array items => itemsWithinDepth levels items
  | levels, .object members => membersWithinDepth levels members
  | _, _ => true

def itemsWithinDepth : Nat → List Json → Bool
  | _, [] => true
  | 0, _ :: _ => false
  | levels + 1, item :: items => withinDepth levels item && itemsWithinDepth (levels + 1) items

def membersWithinDepth : Nat → Members → Bool
  | _, [] => true
  | 0, _ :: _ => false
  | levels + 1, (_, item) :: members =>
    withinDepth levels item && membersWithinDepth (levels + 1) members

end

/-- `_parse_json`. The decoder raises its own texts for constants; nothing shows them. -/
def parseJson (text : Str) : Except Fault Json :=
  match (loads ⟨true, true⟩ text).filter lookup.recursion.fits with
  | none => reviewError "provider returned malformed structured output"
  | some value =>
    if withinDepth MAX_PROVIDER_JSON_DEPTH value then .ok value
    else reviewError "provider output exceeds maximum nesting depth"

def isSurrogate (c : CodePoint) : Bool := isHighSurrogate c.val || isLowSurrogate c.val

/-- `_string_tuple`. -/
def stringTuple (label : Str) : Json → Except Fault (List Str)
  | .array items =>
    if 64 < items.length then reviewError (label ++ lit " must be a bounded list")
    else
      match items.mapM listedText with
      | none => reviewError (label ++ lit " contains an invalid string")
      | some texts =>
        if texts.any (·.any isSurrogate) then
          reviewError (label ++ lit " contains an invalid Unicode surrogate")
        else .ok texts
  | _ => reviewError (label ++ lit " must be a bounded list")

/-- A set of member names. -/
def hasFields (expected : List Str) (members : Members) : Bool :=
  (members.map Prod.fst).all expected.contains && expected.all (members.map Prod.fst).contains

def INTERPRETATION_FIELDS : List Str :=
  ["claim_id", "interpretation", "citations", "missing_evidence", "unsupported_inferences",
    "confidence"]

/-- What the rows of a synthesis are checked against. -/
structure SynthesisContext where
  claims : List ScientificClaim
  evidence : EvidenceBundle
  constraints : List (Str × InterpretationConstraint)

/-- The claims of an issued evidence identifier: the last citable reference with it. -/
def SynthesisContext.evidenceClaims (context : SynthesisContext) (evidenceId : Str) :
    Option (List Str) :=
  ((context.evidence.references.filter (·.isCitable)).reverse.find? fun reference =>
    reference.evidenceId == evidenceId).map (·.claimIds)

/-- The members of a row with the fields of an interpretation. -/
def rowFields : Json → Except Fault Members
  | .object members =>
    if hasFields INTERPRETATION_FIELDS members then .ok members
    else reviewError "synthesis interpretation fields are invalid"
  | _ => reviewError "synthesis interpretation fields are invalid"

/-- The claim of a row: it is issued, and no earlier row is about it. -/
def rowClaim (context : SynthesisContext) (seen : List Str) : Json → Except Fault Str
  | .str claimId =>
    if (context.claims.any fun claim => claim.claimId.val == claimId) && !seen.contains claimId then
      .ok claimId
    else reviewError "synthesis cites an unknown or duplicate claim"
  | _ => reviewError "synthesis cites an unknown or duplicate claim"

def rowText : Json → Except Fault Str
  | .str text =>
    if strip text = [] ∨ 8000 < text.length then reviewError "synthesis interpretation text is invalid"
    else if text.any isSurrogate then
      reviewError "synthesis interpretation contains an invalid Unicode surrogate"
    else .ok text
  | _ => reviewError "synthesis interpretation text is invalid"

/-- The message of a citation that is not issued for the claim. -/
def CITATION_MESSAGE : Str := "synthesis cites unknown or claim-mismatched repository evidence"

/-- The claim, the text and the citations of a row: the checks before its confidence. -/
def rowHead (context : SynthesisContext) (seen : List Str) (row : Json) :
    Except Fault (Members × Str × Str × List Str) := do
  let fields ← rowFields row
  let claimId ← rowClaim context seen (item "claim_id" fields)
  let text ← rowText (item "interpretation" fields)
  let citations ← stringTuple "synthesis citations" (item "citations" fields)
  rejectWhen (citations.any fun citation =>
    !(context.evidenceClaims citation).any fun owners => owners.contains claimId) CITATION_MESSAGE
  rejectWhen ((lookupKey claimId context.constraints).any fun constraint =>
      text != constraint.requiredInterpretation || citations != constraint.requiredCitations)
    "synthesis violates a deterministic advisory interpretation constraint"
  pure (fields, claimId, text, citations)

/-- The confidence of a row; an integer that is too large for a float raises. -/
def rowConfidence (value : Json) : Except Fault Binary64 := do
  match ← finiteFloat value with
  | some x => if inUnitInterval x then pure x else reviewError "synthesis confidence is invalid"
  | none => reviewError "synthesis confidence is invalid"

/-- The rest of a row. -/
def rowTail (head : Members × Str × Str × List Str) : Except Fault ClaimInterpretation := do
  let confidence ← rowConfidence (item "confidence" head.1)
  let missingEvidence ← stringTuple "missing evidence" (item "missing_evidence" head.1)
  let unsupportedInferences ← stringTuple "unsupported inferences"
    (item "unsupported_inferences" head.1)
  pure ⟨head.2.1, head.2.2.1, head.2.2.2, missingEvidence, unsupportedInferences, confidence⟩

/-- One round over the rows. -/
def parseRow (context : SynthesisContext) (parsed : List ClaimInterpretation) (row : Json) :
    Except Fault (List ClaimInterpretation) := do
  let head ← rowHead context (parsed.map (·.claimId)) row
  let interpretation ← rowTail head
  pure (parsed ++ [interpretation])

/-- The rows of a synthesis. -/
def synthesisRows (context : SynthesisContext) : Json → Except Fault (List Json)
  | .object members =>
    if hasFields ["interpretations"] members then
      match item "interpretations" members with
      | .array rows =>
        if context.claims.length < rows.length then
          reviewError "synthesis interpretations must be a bounded list"
        else .ok rows
      | _ => reviewError "synthesis interpretations must be a bounded list"
    else reviewError "synthesis response must contain only interpretations"
  | _ => reviewError "synthesis response must contain only interpretations"

/-- `_parse_interpretations`. -/
def parseInterpretations (context : SynthesisContext) (value : Json) :
    Except Fault (List ClaimInterpretation) := do
  let rows ← synthesisRows context value
  let parsed ← rows.foldlM (parseRow context) []
  rejectWhen (context.claims.any fun claim =>
      !(parsed.map (·.claimId)).contains claim.claimId.val)
    "synthesis must interpret every accepted claim exactly once"
  pure parsed

end ClaimCI.Review
