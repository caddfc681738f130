import ClaimCI.Review.Excerpts

/-!
# Evidence discovery

The evidence references that a review issues for its claims, within one budget of files and of
characters.
-/

open Python

namespace ClaimCI.Review

structure EvidenceReference where
  evidenceId : Str
  claimIds : List Str
  kind : EvidenceKind
  path : Str
  cut : Excerpt
  sha256 : Str
  size : Nat
  provenance : EvidenceProvenance
  excerptComplete : Bool
  locality : EvidenceLocality

structure MissingEvidence where
  claimId : Str
  reason : Str
  requestedPath : Option Str
  description : Str
  deriving DecidableEq

structure EvidenceBundle where
  references : List EvidenceReference
  missing : List MissingEvidence
  totalChars : Nat
  routingIncomplete : Bool

def EvidenceBundle.empty : EvidenceBundle := ⟨[], [], 0, false⟩

/-- The files under a root, as the passive file layer shows them. -/
structure FileView where
  /-- Why `_validate_regular` refuses a path; `none` is a regular file. -/
  refusal : Str → Option Str
  /-- `stat().st_size`; `none` is an `OSError`. -/
  statSize : Str → Option Nat
  /-- The content of a confined regular file; `none` is a `PassiveFileError`. -/
  capture : Str → Option Bytes

/-- What discovery works on. -/
structure Site where
  host : Host
  lookup : Lookup
  head : FileView
  base : Option FileView

/-- The arguments of a discovery. -/
structure EvidenceRequest where
  claims : List ScientificClaim
  repositoryPaths : List Str
  limits : Limits
  suggestedPaths : Str → List Str
  priorityPaths : List (Str × List Str)
  selectedPaths : List Str
  changedPaths : Option (List Str)

def MAX_EVIDENCE_FILE_BYTES : Nat := 16 * 1024 * 1024

/-- A set of strings in its order. -/
def sortedSet (items : List Str) : List Str := sortBy id items.dedup

/-! ### Excerpts of a file -/

def NOT_AVAILABLE : Str := "Evidence not available in the analyzed snapshot."

/-- The base text that the head is compared with: a file that the base lacks has none. Without a
readable base there is no comparison. -/
def baseTextOf (base : Option FileView) (relative : Str) : Option (Option Str) :=
  match base with
  | none => none
  | some base =>
    match base.refusal relative with
    | some reason => if reason = NOT_AVAILABLE then some none else none
    | none => ((base.capture relative).bind decodeUtf8).map fun text => some (universalNewlines text)

/-- `_changed_region_excerpt`. -/
def changedRegionExcerpt (base : Option FileView) (relative headText : Str) (charLimit : Nat) :
    Option Excerpt :=
  (baseTextOf base relative).bind fun baseText => changedLineWindow headText baseText charLimit

structure RegularExcerpt where
  cut : Excerpt
  complete : Bool
  locality : EvidenceLocality

/-- `_regular_excerpt`. -/
def regularExcerpt (base : Option FileView) (text relative : Str) (kind : EvidenceKind)
    (charLimit : Nat) (changed exactPaths : List Str) : RegularExcerpt :=
  if text.length ≤ charLimit then ⟨leadingExcerpt text, true, .completeFile⟩
  else if exactPaths.contains relative ∧ (kind = .source ∨ kind = .test) then
    if changed.contains relative then
      match changedRegionExcerpt base relative text charLimit with
      | some region => ⟨region, false, .changedRegion⟩
      | none => ⟨leadingExcerpt (text.take charLimit), false, .unlocalizedPrefix⟩
    else ⟨leadingExcerpt (text.take charLimit), false, .unlocalizedPrefix⟩
  else ⟨leadingExcerpt (text.take charLimit), false, .selectedRegion⟩

/-! ### Routing -/

/-- Paths that are indexed, by their normal spelling. -/
def indexOf (paths : List Str) : List Str := paths.filterMap safeRelative

/-- Every path is safe and indexed. -/
def indexedPaths (index : List Str) (message : Str) (paths : List Str) : Except Fault (List Str) :=
  paths.mapM fun raw =>
    match safeRelative raw with
    | none => reviewError message
    | some path => if index.contains path then .ok path else reviewError message

/-- Where the claims are routed. -/
structure Routing where
  /-- The claims that a path is evidence for. -/
  routes : List (Str × Str)
  priorityOrder : List Str
  missing : List MissingEvidence
  hintClaims : List Str
  /-- Source and test paths that a hint names exactly, with its claim. -/
  exactRoutes : List (Str × Str)

/-- The claims routed to a path. -/
def routedTo (path : Str) (routes : List (Str × Str)) : List Str :=
  (routes.filter fun route => route.1 == path).map Prod.snd

/-- What a hint comes to. -/
inductive RoutedHint where
  | missing (gap : MissingEvidence)
  | routed (path : Str) (exactly : Bool)

/-- One round over the hints of a claim. -/
def routeHint (site : Site) (index changed : List Str) (claim : ScientificClaim) (raw : Str) :
    RoutedHint :=
  let gap (reason description : Str) : RoutedHint :=
    .missing ⟨claim.claimId.val, reason, some raw, description⟩
  match safeRelative raw with
  | none => gap "unsafe_path" "Suggested evidence path is not a confined relative path."
  | some path =>
    if index.contains path = false then
      gap "unresolved_provider_hint" (lit "Provider-suggested evidence hint was unresolved because " ++
        lit "it did not exactly match an indexed repository path; no " ++
        lit "repository file availability conclusion was made.")
    else
      -- source and test files may be named exactly; anything else has to pass the heuristics
      let kind := kindOf site.lookup path
      let exactly := kind == .source || kind == .test
      if exactly = false ∧ matchesClaim site.lookup claim path changed = false then
        gap "route_mismatch" (lit "Suggested evidence path does not match the trusted " ++
          lit "routing rules for this claim type.")
      else
        match site.head.refusal path with
        | some reason =>
          gap "not_available" (if reason = [] then
            lit "Suggested path was not available in ClaimCI's bounded analyzed snapshot." else reason)
        | none => .routed path exactly

/-- The priority paths, claim by claim. -/
def priorityRoutes (request : EvidenceRequest) (index : List Str) :
    Except Fault (List (Str × Str)) := do
  rejectWhen (request.priorityPaths.any fun entry =>
      !request.claims.any fun claim => claim.claimId.val == entry.1)
    "priority evidence paths cite an unknown claim"
  let routed ← request.claims.mapM fun claim => do
    let paths ← indexedPaths index "priority evidence path is unsafe or not indexed"
      ((lookupKey claim.claimId.val request.priorityPaths).getD [])
    pure (paths.map fun path => (path, claim.claimId.val))
  pure routed.flatten

/-- One round over the claims: heuristic matches, then hints. -/
def routeClaim (site : Site) (request : EvidenceRequest) (index changed heuristic : List Str)
    (routing : Routing) (claim : ScientificClaim) : Routing :=
  let id := claim.claimId.val
  let found := heuristic.filter fun path => matchesClaim site.lookup claim path changed
  let hints := claim.evidenceHints.map Subtype.val ++ request.suggestedPaths id
  let start := { routing with
    routes := routing.routes ++ found.map fun path => (path, id)
    hintClaims := if hints = [] then routing.hintClaims else routing.hintClaims ++ [id] }
  hints.foldl (fun routing raw =>
    match routeHint site index changed claim raw with
    | .missing gap => { routing with missing := routing.missing ++ [gap] }
    | .routed path exactly => { routing with
        routes := routing.routes ++ [(path, id)]
        exactRoutes := if exactly then routing.exactRoutes ++ [(path, id)] else routing.exactRoutes })
    start

/-- What the loop over the paths reads. -/
structure Plan where
  claims : List ScientificClaim
  limits : Limits
  changed : List Str
  routing : Routing
  /-- Markdown files that may report measurements of claims with a magnitude. -/
  markdownPaths : List Str
  measuredClaims : List Str

/-- The markdown candidates of a path. -/
def Plan.candidates (plan : Plan) (path : Str) : List Str :=
  if plan.markdownPaths.contains path then plan.measuredClaims else []

/-- The order of the paths: priority, then routed, then Markdown only. -/
def Plan.orderedPaths (plan : Plan) : List Str :=
  let byPath := plan.routing.routes.map Prod.fst
  let candidates := if plan.measuredClaims = [] then [] else plan.markdownPaths
  plan.routing.priorityOrder ++
    sortedSet (byPath.filter fun path => !plan.routing.priorityOrder.contains path) ++
    sortedSet (candidates.filter fun path =>
      !byPath.contains path && !plan.routing.priorityOrder.contains path)

/-- `claims_by_id[id]`. -/
def Plan.claim (plan : Plan) (id : Str) : Option ScientificClaim :=
  plan.claims.reverse.find? fun claim => claim.claimId.val = id

/-! ### The loop -/

structure EvidenceState where
  selected : List Str
  remaining : Nat
  references : List EvidenceReference
  missing : List MissingEvidence
  /-- A claim for each of its paths that the file limit left out. -/
  omitted : List Str

/-- `text.encode("utf-8")`. -/
def encoded (text : Str) : Except Fault Bytes :=
  match encodeUtf8 text with
  | none => .error .unicodeEncodeError
  | some bytes => .ok bytes

/-- An identifier from the digest of a text. -/
def evidenceIdOf (host : Host) (material : Str) : Except Fault Str := do
  let bytes ← encoded material
  pure (lit "evidence-" ++ shortDigest host bytes)

/-- `{start}:{end}`. -/
def spanText (startLine endLine : Nat) : Str := natText startLine ++ COLON :: natText endLine

/-- A captured file. -/
structure CapturedText where
  text : Str
  sha256 : Str
  size : Nat

/-- The file, decoded; an error is the name of the exception. -/
def captureText (site : Site) (relative : Str) : Except Str CapturedText :=
  match site.head.capture relative with
  | none => .error "PassiveFileError"
  | some bytes =>
    if MAX_EVIDENCE_FILE_BYTES < bytes.length then .error "PassiveFileError"
    else
      match decodeUtf8 bytes with
      | none => .error "UnicodeDecodeError"
      | some text => .ok ⟨universalNewlines text, site.host.sha256 bytes, bytes.length⟩

/-- The tables of one file: what is left of the budget, their characters and claims, the references. -/
structure TableState where
  remaining : Nat
  chars : Nat
  claimIds : List Str
  references : List EvidenceReference

/-- The candidates that a table supports. -/
def Plan.matching (plan : Plan) (site : Site) (relative : Str) (table : MarkdownTable) : List Str :=
  (plan.candidates relative).filter fun id =>
    (plan.claim id).any fun claim => tableSupportsClaim site.lookup table claim relative

/-- One round over the tables of a file. -/
def issueTable (site : Site) (plan : Plan) (relative : Str) (file : CapturedText)
    (state : TableState) (table : MarkdownTable) : Except Fault TableState :=
  let matching := plan.matching site relative table
  -- a table that does not fit is passed over, a smaller one behind it may still be issued
  if matching = [] ∨ state.remaining < table.excerpt.length then .ok state
  else do
    let evidenceId ← evidenceIdOf site.host (relative ++ 0 :: file.sha256 ++
      0 :: spanText table.startLine table.endLine ++
      0 :: EvidenceProvenance.reportedMeasurement.value)
    pure {
      remaining := state.remaining - table.excerpt.length
      chars := state.chars + table.excerpt.length
      claimIds := state.claimIds ++ matching
      references := state.references ++ [{
        evidenceId
        claimIds := sortedSet matching
        kind := .benchmark
        path := relative
        cut := ⟨table.excerpt, table.startLine, table.endLine⟩
        sha256 := file.sha256
        size := file.size
        provenance := .reportedMeasurement
        excerptComplete := false
        locality := .selectedRegion }] }

/-- The regular reference of a file. -/
def regularReference (site : Site) (relative : Str) (file : CapturedText) (kind : EvidenceKind)
    (claimIds : List Str) (regular : RegularExcerpt) : Except Fault EvidenceReference := do
  let excerptBytes ← encoded regular.cut.text
  let evidenceId ← evidenceIdOf site.host (relative ++ 0 :: file.sha256 ++
    0 :: spanText regular.cut.startLine regular.cut.endLine ++ 0 :: regular.locality.value ++
    0 :: site.host.sha256 excerptBytes)
  pure {
    evidenceId
    claimIds := sortedSet claimIds
    kind
    path := relative
    cut := regular.cut
    sha256 := file.sha256
    size := file.size
    provenance := provenanceOf site.lookup relative kind regular.cut.text
    excerptComplete := regular.complete
    locality := regular.locality }

/-- A gap for each of some claims. -/
def gaps (claimIds : List Str) (relative reason description : Str) : List MissingEvidence :=
  (sortedSet claimIds).map fun id => ⟨id, reason, some relative, description⟩

/-- The exact path is there, but its excerpt shows no material region. -/
def localityGaps (plan : Plan) (relative : Str) (claimIds : List Str) (regular : RegularExcerpt) :
    List MissingEvidence :=
  if regular.locality = .unlocalizedPrefix then
    gaps ((routedTo relative plan.routing.exactRoutes).filter claimIds.contains) relative
      "excerpt_locality_unavailable"
      (lit "The exact source/test path was available in the " ++
        lit "analyzed snapshot, but its bounded excerpt could not " ++
        lit "be localized to the material region and cannot " ++
        lit "independently verify the claim.")
  else []

/-- The regular excerpt of a file after its tables. -/
def issueRegular (site : Site) (plan : Plan) (relative : Str) (file : CapturedText)
    (tables : TableState) (state : EvidenceState) : Except Fault EvidenceState :=
  -- a claim that a table of the file answers gets no excerpt of the same file
  let claimIds := (routedTo relative plan.routing.routes).filter fun id => !tables.claimIds.contains id
  let charLimit := min (plan.limits.maxFileChars - tables.chars) tables.remaining
  let tabled := { state with
    remaining := tables.remaining
    references := state.references ++ tables.references }
  if claimIds = [] ∨ charLimit = 0 then .ok tabled
  else
    let kind := kindOf site.lookup relative
    let regular := regularExcerpt site.base file.text relative kind charLimit plan.changed
      (plan.routing.exactRoutes.map Prod.fst)
    if regular.cut.text = [] then .ok tabled
    else do
      let reference ← regularReference site relative file kind claimIds regular
      pure { tabled with
        references := tabled.references ++ [reference]
        missing := tabled.missing ++ localityGaps plan relative claimIds regular
        remaining := tabled.remaining - regular.cut.text.length }

/-- What is issued of a captured file. -/
def issueFile (site : Site) (plan : Plan) (relative : Str) (file : CapturedText)
    (state : EvidenceState) : Except Fault EvidenceState := do
  let excerpt := file.text.take (min plan.limits.maxFileChars state.remaining)
  let kept := { state with selected := state.selected ++ [relative] }
  if excerpt = [] then pure kept
  else
    let found := if plan.markdownPaths.contains relative then markdownTables excerpt else []
    let tables ← found.foldlM (issueTable site plan relative file) ⟨state.remaining, 0, [], []⟩
    issueRegular site plan relative file tables kept

/-- One round over the ordered paths, while there are characters left. -/
def visitPath (site : Site) (plan : Plan) (state : EvidenceState) (relative : Str) :
    Except Fault EvidenceState :=
  let routed := routedTo relative plan.routing.routes
  let gapsOf (reason description : Str) : EvidenceState := { state with
    missing := state.missing ++ gaps (routed ++ plan.candidates relative) relative reason description }
  if state.remaining = 0 then .ok state
  -- the file slots are used up: the claims of this path are told, and nothing is read
  else if state.selected.contains relative = false ∧
      plan.limits.maxFiles ≤ state.selected.dedup.length then
    .ok { state with omitted := state.omitted ++ sortedSet routed }
  else
    match site.head.refusal relative with
    | some reason => .ok (gapsOf "not_available" reason)
    | none =>
      match site.head.statSize relative with
      -- a size that cannot be read is reported as one that is too large
      | none => .ok (gapsOf "too_large" "Evidence file exceeds the bounded inspection size.")
      | some size =>
        if MAX_EVIDENCE_FILE_BYTES < size then
          .ok (gapsOf "too_large" "Evidence file exceeds the bounded inspection size.")
        else
          match captureText site relative with
          | .error name =>
            .ok (gapsOf "unreadable" (lit "Evidence file could not be read: " ++ name ++ lit "."))
          | .ok file => issueFile site plan relative file state

/-! ### The bundle -/

def EvidenceReference.isCitable (reference : EvidenceReference) : Bool :=
  reference.locality != .unlocalizedPrefix

/-- A gap for each claim whose paths the file limit left out. -/
def fileLimitGaps (omitted : List Str) : List MissingEvidence :=
  (sortedSet omitted).map fun id => ⟨id, "file_limit", none,
    natText (omitted.count id) ++
      lit " matching evidence path(s) were not inspected because the global selected-file limit " ++
      lit "was reached."⟩

/-- The claims of the citable references of some provenances. -/
def claimsWith (references : List EvidenceReference) (provenances : List EvidenceProvenance) :
    List Str :=
  (references.filter fun reference =>
    reference.isCitable && provenances.contains reference.provenance).flatMap (·.claimIds)

/-- The claims of the citable references. -/
def coveredClaims (references : List EvidenceReference) : List Str :=
  (references.filter (·.isCitable)).flatMap (·.claimIds)

/-- Claims that are reported or defined, but without an executed result. -/
def unexecutedGaps (references : List EvidenceReference) : List MissingEvidence :=
  let executed := claimsWith references [.executedResultArtifact]
  (sortedSet ((claimsWith references [.reportedMeasurement, .executableBenchmarkDefinition]).filter
    fun id => !executed.contains id)).map fun id => ⟨id, "executed_result_not_available", none,
      lit "This claim could not be independently verified from the " ++
        lit "available artifacts in the analyzed snapshot; no executed " ++
        lit "result artifact was available to ClaimCI."⟩

/-- A gap for each claim without evidence that has no gap yet. -/
def unmatchedGaps (covered : List Str) :
    List MissingEvidence → List ScientificClaim → List MissingEvidence
  | missing, [] => missing
  | missing, claim :: claims =>
    let id := claim.claimId.val
    if covered.contains id = false ∧ missing.all (fun gap => gap.claimId != id) = true then
      unmatchedGaps covered (missing ++ [⟨id, "no_matching_evidence", none,
        lit "Evidence not available in the analyzed snapshot; no matching " ++
          lit "artifact was selected within ClaimCI's bounded review scope."⟩]) claims
    else unmatchedGaps covered missing claims

/-- The order of the gaps. -/
def gapLe (a b : MissingEvidence) : Bool :=
  if a.claimId ≠ b.claimId then strLe a.claimId b.claimId
  else if a.requestedPath.getD [] ≠ b.requestedPath.getD [] then
    strLe (a.requestedPath.getD []) (b.requestedPath.getD [])
  else strLe a.reason b.reason

/-- The bundle after the loop. -/
def evidenceBundle (plan : Plan) (state : EvidenceState) : EvidenceBundle :=
  let covered := coveredClaims state.references
  let missing := unmatchedGaps covered
    (plan.routing.missing ++ state.missing ++ fileLimitGaps state.omitted ++
      unexecutedGaps state.references) plan.claims
  { references := state.references
    missing := missing.insertionSort fun a b => gapLe a b = true
    totalChars := (state.references.map fun reference => reference.cut.text.length).sum
    routingIncomplete := plan.routing.hintClaims.any fun id => !covered.contains id }

/-- The changed paths by their normal spelling; without a base every indexed path is changed. -/
def changedIndex (request : EvidenceRequest) (index : List Str) : Except Fault (List Str) :=
  match request.changedPaths with
  | none => .ok (sortedSet index)
  | some paths =>
    indexedPaths index "changed evidence path is unsafe or not indexed" paths

/-- The plan of a discovery. -/
def planEvidence (site : Site) (request : EvidenceRequest) (selected changed index : List Str)
    (priority : List (Str × Str)) : Plan :=
  let heuristic := match request.changedPaths with
    | none => sortedSet index
    | some _ => (sortedSet index).filter changed.contains
  -- the priority paths come first, each of them once
  let routing := request.claims.foldl (routeClaim site request index changed heuristic)
    ⟨priority, (priority.map Prod.fst).reverse.dedup.reverse, [], [], []⟩
  let byPath := routing.routes.map Prod.fst
  { claims := request.claims
    limits := request.limits
    changed
    routing
    markdownPaths := heuristic.filter fun path =>
      isMarkdown site.lookup path && (selected.contains path || byPath.contains path ||
        (lit "readme").isPrefixOf (site.lookup.tables.casefold (pathName path)))
    measuredClaims := (request.claims.filter fun claim => claim.claimedMagnitude.isSome).map
      fun claim => claim.claimId.val }

/-- The message of the global file limit. -/
def FILE_LIMIT_MESSAGE : Str := "selected evidence paths exceed the global file limit"

/-- `discover_evidence`. -/
def discoverEvidence (site : Site) (request : EvidenceRequest) : Except Fault EvidenceBundle := do
  let index := indexOf request.repositoryPaths
  let selected ← indexedPaths index "selected evidence path is unsafe or not indexed"
    request.selectedPaths
  rejectWhen (request.limits.maxFiles < selected.dedup.length) FILE_LIMIT_MESSAGE
  let changed ← changedIndex request index
  let priority ← priorityRoutes request index
  let plan := planEvidence site request selected changed index priority
  let state ← plan.orderedPaths.foldlM (visitPath site plan)
    ⟨selected, request.limits.maxContextChars, [], [], []⟩
  pure (evidenceBundle plan state)

end ClaimCI.Review
