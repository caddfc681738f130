import ClaimCI.Python.LineSpans
import ClaimCI.Review.Models
import ClaimCI.Analysis.Selectors

/-!
# Review sources

The sources of a review, cut to its limits, and the validation of the claims that a provider
extracts from them.
-/

open Python

namespace ClaimCI.Review

/-- What a review takes from its interpreter. -/
structure Host where
  /-- `hashlib.sha256(data).hexdigest()`. -/
  sha256 : Bytes → Str
  /-- `repr` of a decoded value. -/
  repr : Json → Str
  /-- The recursion limit, as the JSON encoder meets it. -/
  recursion : RecursionLimit

/-- `json.dumps(value, ensure_ascii=False, sort_keys=True, separators=(",", ":"))`. -/
def canonicalStyle : DumpStyle where
  ensureAscii := false
  indent := none
  afterComma := []
  afterColon := []
  sortKeys := true

/-- The canonical JSON of a value in UTF-8. -/
def canonicalBytes (host : Host) (value : Json) : Except Fault Bytes :=
  if host.recursion.fits value = false then .error .encoderError
  else
    match dumps canonicalStyle value with
    | none => .error .encoderError
    | some text =>
      match encodeUtf8 text with
      | none => .error .unicodeEncodeError
      | some bytes => .ok bytes

/-- A digest that names a value. -/
def shortDigest (host : Host) (bytes : Bytes) : Str := (host.sha256 bytes).take 16

/-! ### Collecting -/

/-- A checkout, as the passive file layer shows it. -/
structure Repository where
  /-- The regular files, sorted, as `_iter_regular_paths` lists them. -/
  paths : List Str
  /-- Those of them that can affect the review and differ from the base checkout. -/
  changed : List Str
  /-- The content of a confined regular file; `none` is a `PassiveFileError`. -/
  capture : Str → Option Bytes
  issued : changed ⊆ paths

/-- `Path(path).name`. -/
def pathName (path : Str) : Str := ((split SLASH path).getLast?).getD []

/-- `Path(path).suffix`: from the last dot, unless the name starts or ends with it. -/
def pathSuffix (path : Str) : Str :=
  let name := pathName path
  let tail := (name.reverse.takeWhile (· != DOT)).reverse
  let stem := name.take (name.length - tail.length - 1)
  if name.contains DOT && stem != [] && tail != [] then DOT :: tail else []

/-- `_eligible_document`. -/
def isEligibleDocument (tables : UnicodeTables) (path : Str) : Bool :=
  ([lit ".md", lit ".markdown"]).contains (tables.casefold (pathSuffix path)) ||
    tables.casefold (pathName path) == lit "paper.tex"

/-- `_source_id`. -/
def sourceIdOf (host : Host) (kind : SourceKind) (path : Option Str) (text : Str) :
    Except Fault Str := do
  let material ← canonicalBytes host (.object [("kind", .str kind.value),
    ("path", match path with | none => .null | some path => .str path), ("text", .str text)])
  pure (lit "source-" ++ shortDigest host material)

/-- `_record`. -/
def recordOf (host : Host) (kind : SourceKind) (path : Option Str) (text : Str) :
    Except Fault SourceRecord := do
  let sourceId ← sourceIdOf host kind path text
  match encodeUtf8 text with
  | none => .error .unicodeEncodeError
  | some bytes => sourceRecord sourceId kind path text (host.sha256 bytes)

/-- A pull request field within the remaining budget; an empty field issues nothing. -/
def fieldRecords (host : Host) (kind : SourceKind) (value : Str) (remaining : Nat) :
    Except Fault (List SourceRecord) :=
  if value = [] ∨ remaining = 0 then .ok []
  else do
    let record ← recordOf host kind none ((universalNewlines value).take remaining)
    pure [record]

/-- The characters of some sources. -/
def charsOf (sources : List SourceRecord) : Nat := (sources.map fun source => source.text.length).sum

/-- `_bounded_text`, before it is cut. -/
def documentText (repository : Repository) (path : Str) : Except Fault Str :=
  match (repository.capture path).bind decodeUtf8 with
  | none => reviewError (lit "could not read confined review source " ++ path)
  | some text => .ok (universalNewlines text)

/-- The changed documents, until the files or the characters run out. -/
def documentRecords (host : Host) (tables : UnicodeTables) (repository : Repository)
    (limits : Limits) : Nat → Nat → List Str → Except Fault (List SourceRecord)
  | _, _, [] => .ok []
  | selected, remaining, path :: paths =>
    if limits.maxFiles ≤ selected ∨ remaining = 0 then .ok []
    else if (isEligibleDocument tables path && repository.changed.contains path) = false then
      documentRecords host tables repository limits selected remaining paths
    else do
      let text ← documentText repository path
      let issued := text.take (min limits.maxFileChars remaining)
      let record ← recordOf host .repositoryFile (some path) issued
      let rest ← documentRecords host tables repository limits (selected + 1)
        (remaining - issued.length) paths
      pure (record :: rest)

/-- `collect_review_sources`. -/
def collectReviewSources (host : Host) (tables : UnicodeTables) (repository : Repository)
    (prTitle prDescription : Str) (limits : Limits) : Except Fault SourceBundle := do
  let title ← fieldRecords host .pullRequestTitle prTitle limits.maxContextChars
  let description ← fieldRecords host .pullRequestDescription prDescription
    (limits.maxContextChars - charsOf title)
  let documents ← documentRecords host tables repository limits 0
    (limits.maxContextChars - charsOf title - charsOf description) repository.paths
  pure ⟨title ++ description ++ documents, repository.paths, repository.changed,
    repository.issued⟩

/-! ### Quotes -/

/-- The lines of a source, which only LF separates. -/
def linesOf (text : Str) : List Str := split LF (universalNewlines text)

/-- `_quote`. -/
def quote (record : SourceRecord) (startLine endLine : Int) : Except Fault Str :=
  let lines := linesOf record.text
  if startLine < 1 ∨ endLine < startLine ∨ (lines.length : Int) < endLine then
    reviewError "claim source line span is outside the selected source"
  else .ok (joinLines (lineSpan lines startLine.toNat endLine.toNat))

/-- Where the quote occurs as complete consecutive lines, counted from zero. -/
def occurrences (lines quoteLines : List Str) : List Nat :=
  (List.range (lines.length + 1 - quoteLines.length)).filter fun index =>
    (lines.drop index).take quoteLines.length == quoteLines

/-- The candidate already quotes the lines that it names. -/
def isAtItsLocation (record : SourceRecord) (sourceText : Str) (source : Members) : Bool :=
  match lookupKey "start_line" source, lookupKey "end_line" source with
  | some (.int startLine), some (.int endLine) =>
    match quote record startLine endLine with
    | .ok text => sourceText == text
    | .error _ => false
  | _, _ => false

/-- The lines of a quote that can be searched for: none of them is empty. -/
def searchableLines (sourceText : Str) : Option (List Str) :=
  if (linesOf sourceText).any (· == []) then none else some (linesOf sourceText)

/-- `_recover_exact_quote_location`. -/
def recoverExactQuoteLocation (bundle : SourceBundle) (candidate : Json) : Json :=
  match candidate with
  | .object members =>
    match lookupKey "source" members, lookupKey "source_text" members with
    | some (.object source), some (.str sourceText) =>
      match lookupKey "source_id" source with
      | some (.str sourceId) =>
        match bundle.record sourceId with
        | none => candidate
        | some record =>
          -- a quote at its place is not searched for
          if sourceText = [] ∨ isAtItsLocation record sourceText source = true then candidate
          else
            match searchableLines sourceText with
            | none => candidate
            | some quoteLines =>
              match occurrences (linesOf record.text) quoteLines with
              -- only a unique occurrence moves the span
              | [index] =>
                let moved := setKey "end_line" (.int (index + quoteLines.length : Nat))
                  (setKey "start_line" (.int (index + 1 : Nat)) source)
                .object (setKey "source" (.object moved) members)
              | _ => candidate
      | _ => candidate
    | _, _ => candidate
  | _ => candidate

/-! ### Validation -/

/-- `repr` of a sorted list of strings. -/
def reprTexts (host : Host) (texts : List Str) : Str :=
  lit "[" ++ (lit ", ").intercalate
    ((texts.insertionSort fun a b => strLe a b = true).map fun text => host.repr (.str text)) ++
      lit "]"

/-- `_strict_fields`. -/
def strictFields (host : Host) (value : Json) (expected : List Str) (label : Str) :
    Except Fault Members :=
  match value with
  | .object members =>
    let fields := members.map Prod.fst
    let missing := expected.filter fun key => !fields.contains key
    let extra := fields.filter fun key => !expected.contains key
    if missing = [] ∧ extra = [] then .ok members
    else
      reviewError (label ++ lit " fields are invalid; missing=" ++ reprTexts host missing ++
        lit ", extra=" ++ reprTexts host extra.dedup)
  | _ => reviewError (label ++ lit " must be an object")

/-- `mapping[key]`, of a key that is there. -/
def item (key : Str) (members : Members) : Json := (lookupKey key members).getD .null

/-- A member of an enumeration by its value. -/
def enumMember {α : Type} (host : Host) (values : List (Str × α)) (label : Str) (value : Json) :
    Except Fault α :=
  match value with
  | .str text =>
    match lookupKey text values with
    | some found => .ok found
    | none => .error (.valueError (host.repr value ++ lit " is not a valid " ++ label))
  | _ => .error (.valueError (host.repr value ++ lit " is not a valid " ++ label))

/-- A bounded non-empty string of a list. -/
def listedText : Json → Option Str
  | .str s => if strip s ≠ [] ∧ s.length ≤ 4096 then some s else none
  | _ => none

/-- `_string_list`. -/
def stringList (label : Str) : Json → Except Fault (List Str)
  | .array items =>
    if 32 < items.length then reviewError (label ++ lit " must be a bounded list")
    else
      match items.mapM listedText with
      | some texts => .ok texts
      | none => reviewError (label ++ lit " must contain bounded non-empty strings")
  | _ => reviewError (label ++ lit " must be a bounded list")

/-- `_magnitude`. -/
def magnitude (host : Host) : Json → Except Fault (Option ClaimMagnitude)
  | .null => .ok none
  | value => do
    let fields ← strictFields host value ["raw", "value", "unit", "kind"] "claimed_magnitude"
    let kind ← enumMember host MagnitudeKind.values "MagnitudeKind" (item "kind" fields)
    let found ← claimMagnitude (item "raw" fields) (item "value" fields) (item "unit" fields) kind
    pure (some found)

/-- The fields of a claim candidate. -/
def CANDIDATE_FIELDS : List Str :=
  ["source_text", "claim_type", "subject", "metric", "direction", "claimed_magnitude",
    "qualifiers", "source", "confidence", "evidence_hints"]

def SOURCE_FIELDS : List Str := ["source_id", "start_line", "end_line"]

/-- A candidate that quotes the lines of a source it names. -/
structure LocatedCandidate where
  fields : Members
  sourceId : Str
  record : SourceRecord
  startLine : Int
  endLine : Int
  sourceText : Str

/-- `claim {index}`. -/
def claimLabel (index : Nat) : Str := lit "claim " ++ natText index

def lineNumber (label : Str) : Json → Except Fault Int
  | .int n => .ok n
  | _ => reviewError (lit "claim source " ++ label ++ lit " must be an integer")

/-- The source a candidate cites. -/
def citedRecord (bundle : SourceBundle) (index : Nat) (sourceId : Json) :
    Except Fault (Str × SourceRecord) :=
  match sourceId with
  | .str id =>
    match bundle.record id with
    | some record => .ok (id, record)
    | none => reviewError (claimLabel index ++ lit " cites an unknown source")
  | _ => reviewError (claimLabel index ++ lit " cites an unknown source")

/-- The text of a candidate, compared with the lines it names. -/
def quotedText (index : Nat) (record : SourceRecord) (startLine endLine : Int) (sourceText : Json) :
    Except Fault Str :=
  match sourceText with
  | .str text => do
    let quoted ← quote record startLine endLine
    rejectWhen (text != quoted)
      (claimLabel index ++ lit " source quote does not match the trusted source")
    pure text
  | _ => reviewError (claimLabel index ++ lit " source quote does not match the trusted source")

/-- The checks of a candidate up to its quote. -/
def locateCandidate (host : Host) (bundle : SourceBundle) (index : Nat) (value : Json) :
    Except Fault LocatedCandidate := do
  let fields ← strictFields host value CANDIDATE_FIELDS (claimLabel index)
  let source ← strictFields host (item "source" fields) SOURCE_FIELDS
    (claimLabel index ++ lit " source")
  let (sourceId, record) ← citedRecord bundle index (item "source_id" source)
  let startLine ← lineNumber "start_line" (item "start_line" source)
  let endLine ← lineNumber "end_line" (item "end_line" source)
  let sourceText ← quotedText index record startLine endLine (item "source_text" fields)
  pure ⟨fields, sourceId, record, startLine, endLine, sourceText⟩

/-- The confidence of a candidate as a float. -/
def candidateConfidence (value : Json) : Except Fault Binary64 := do
  match ← finiteFloat value with
  | some x => pure x
  | none => reviewError "claim confidence must be finite"

def candidateMetric : Json → Except Fault (Option Str)
  | .null => .ok none
  | .str s => .ok (some s)
  | _ => reviewError "claim metric must be a string or null"

/-- The trusted identifier of a candidate. -/
def claimIdOf (host : Host) (fields : Members) : Except Fault Str := do
  let bytes ← canonicalBytes host (.object fields)
  pure (lit "claim-" ++ shortDigest host bytes)

/-- The value objects of a candidate, in the order in which they are built. -/
def buildClaim (host : Host) (located : LocatedCandidate) (confidence : Binary64)
    (metric : Option Str) (claimId : Str) : Except Fault ScientificClaim := do
  let fields := located.fields
  let claimType ← enumMember host ClaimType.values "ClaimType" (item "claim_type" fields)
  let source ← sourceLocation located.sourceId located.record.kind located.record.path.val
    located.startLine located.endLine
  let direction ← enumMember host ClaimDirection.values "ClaimDirection" (item "direction" fields)
  let claimedMagnitude ← magnitude host (item "claimed_magnitude" fields)
  let qualifiers ← stringList "claim qualifiers" (item "qualifiers" fields)
  let evidenceHints ← stringList "evidence hints" (item "evidence_hints" fields)
  scientificClaim claimId located.sourceText claimType (item "subject" fields) source metric
    direction claimedMagnitude qualifiers confidence evidenceHints

/-- The block that turns a `ValueError` into a `ReviewError`; no other exception is caught. -/
def guarded {α : Type} (index : Nat) : Except Fault α → Except Fault α
  | .error (.reviewError message) =>
    reviewError (claimLabel index ++ lit " is invalid: " ++ message)
  | .error (.valueError message) =>
    reviewError (claimLabel index ++ lit " is invalid: " ++ message)
  | result => result

/-- One round of `validate_claim_candidates`. -/
def validateCandidate (host : Host) (bundle : SourceBundle) (accepted : List ScientificClaim)
    (index : Nat) (value : Json) : Except Fault ScientificClaim := do
  let located ← locateCandidate host bundle index value
  let confidence ← candidateConfidence (item "confidence" located.fields)
  let metric ← candidateMetric (item "metric" located.fields)
  let claimId ← claimIdOf host located.fields
  rejectWhen (accepted.any fun claim => claim.claimId.val == claimId)
    (claimLabel index ++ lit " duplicates an earlier claim")
  guarded index (buildClaim host located confidence metric claimId)

def validateLoop (host : Host) (bundle : SourceBundle) :
    List ScientificClaim → Nat → List Json → Except Fault (List ScientificClaim)
  | accepted, _, [] => .ok accepted
  | accepted, index, value :: rest => do
    let claim ← validateCandidate host bundle accepted index value
    validateLoop host bundle (accepted ++ [claim]) (index + 1) rest

def MAX_CLAIMS : Nat := 16

/-- The list of candidates of a response. -/
def responseCandidates (host : Host) (payload : Json) (maxClaims : Nat) :
    Except Fault (List Json) := do
  rejectWhen (maxClaims < 1 || MAX_CLAIMS < maxClaims)
    "max_claims must be an integer from 1 through 16"
  let root ← strictFields host payload ["claims"] "claim extraction response"
  match item "claims" root with
  | .array candidates =>
    if maxClaims < candidates.length then reviewError "claims must be a bounded list"
    else pure candidates
  | _ => reviewError "claims must be a bounded list"

/-- `validate_claim_candidates`. -/
def validateClaimCandidates (host : Host) (payload : Json) (bundle : SourceBundle)
    (maxClaims : Nat) : Except Fault (List ScientificClaim) := do
  let candidates ← responseCandidates host payload maxClaims
  validateLoop host bundle [] 0 candidates

/-- `needle in text`. -/
def containsText (needle text : Str) : Bool := text.tails.any needle.isPrefixOf

/-- `_claim_rejection_reason`. -/
def claimRejectionReason (message : Str) : Str :=
  if containsText "source quote does not match" message then "source_quote_mismatch"
  else if containsText "outside the selected source" message ||
      containsText "cites an unknown source" message || containsText "claim source" message then
    "source_location_invalid"
  else if containsText "duplicates an earlier claim" message then "duplicate_claim"
  else "invalid_claim_candidate"

structure ClaimCandidateValidation where
  claims : List ScientificClaim
  rejectionReasons : List Str

/-- The strict validation of one candidate on its own. -/
def validateAlone (host : Host) (bundle : SourceBundle) (candidate : Json) :
    Except Fault ScientificClaim := do
  let claims ← validateClaimCandidates host
    (.object [("claims", .array [recoverExactQuoteLocation bundle candidate])]) bundle 1
  match claims with
  | claim :: _ => pure claim
  | [] => .error .indexError

def bestEffortLoop (host : Host) (bundle : SourceBundle) :
    ClaimCandidateValidation → List Json → Except Fault ClaimCandidateValidation
  | state, [] => .ok state
  | state, candidate :: rest =>
    match validateAlone host bundle candidate with
    | .error (.reviewError message) =>
      bestEffortLoop host bundle
        { state with rejectionReasons := state.rejectionReasons ++ [claimRejectionReason message] }
        rest
    | .error fault => .error fault
    | .ok claim =>
      if state.claims.any (fun known => known.claimId == claim.claimId) = true then
        bestEffortLoop host bundle
          { state with rejectionReasons := state.rejectionReasons ++ [lit "duplicate_claim"] } rest
      else bestEffortLoop host bundle { state with claims := state.claims ++ [claim] } rest

/-- `validate_claim_candidates_best_effort`. -/
def validateClaimCandidatesBestEffort (host : Host) (payload : Json) (bundle : SourceBundle)
    (maxClaims : Nat) : Except Fault ClaimCandidateValidation := do
  let candidates ← responseCandidates host payload maxClaims
  bestEffortLoop host bundle ⟨[], []⟩ candidates

end ClaimCI.Review
