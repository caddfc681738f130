import ClaimCI.Measurement
import ClaimCI.Python.Sorting

/-!
# Review values

The value objects of the advisory review. What a provider says about claims passes through them.
-/

open Python

namespace ClaimCI.Review

/-- What a call of the review raises. `ReviewError` and the encoding error are `ValueError`s. -/
inductive Fault where
  | reviewError (message : Str)
  | valueError (message : Str)
  | indexError
  | overflowError
  | unicodeEncodeError
  /-- `json.dumps` of a number that is not finite, of an integer that is too long, or of a value
  that is nested too deeply. -/
  | encoderError
  /-- An exception of the YAML loader that no handler of the manifest audits names. -/
  | tag (fault : TagFault)
  deriving DecidableEq

def reviewError {α : Type} (message : Str) : Except Fault α := .error (.reviewError message)

/-- A check that raises a `ReviewError` when the condition holds. -/
def rejectWhen (condition : Bool) (message : Str) : Except Fault Unit :=
  if condition then reviewError message else .ok ()

@[simp] theorem rejectWhen_ok_iff {condition : Bool} {message : Str} {u : Unit} :
    rejectWhen condition message = .ok u ↔ condition = false := by
  cases condition <;> simp [rejectWhen, reviewError]

/-! ### Enumerations -/

inductive ClaimType where
  | metricImprovement | computeEquivalence | heldOutEvaluation | resourceReduction
  | componentCausality | noExternalReward | implementationClaim | otherScientific
  deriving DecidableEq, Repr

def ClaimType.values : List (Str × ClaimType) :=
  [("metric_improvement", .metricImprovement), ("compute_equivalence", .computeEquivalence),
    ("held_out_evaluation", .heldOutEvaluation), ("resource_reduction", .resourceReduction),
    ("component_causality", .componentCausality), ("no_external_reward", .noExternalReward),
    ("implementation_claim", .implementationClaim), ("other_scientific", .otherScientific)]

inductive ClaimDirection where
  | higher | lower | notApplicable
  deriving DecidableEq, Repr

def ClaimDirection.values : List (Str × ClaimDirection) :=
  [("higher", .higher), ("lower", .lower), ("not_applicable", .notApplicable)]

inductive MagnitudeKind where
  | absolute | relative | unspecified
  deriving DecidableEq, Repr

def MagnitudeKind.values : List (Str × MagnitudeKind) :=
  [("absolute", .absolute), ("relative", .relative), ("unspecified", .unspecified)]

inductive SourceKind where
  | pullRequestTitle | pullRequestDescription | repositoryFile
  deriving DecidableEq, Repr

def SourceKind.value : SourceKind → Str
  | pullRequestTitle => "pull_request_title"
  | pullRequestDescription => "pull_request_description"
  | repositoryFile => "repository_file"

/-! ### Texts and paths -/

/-- A string that is not blank and has at most `maximum` characters. -/
abbrev NonemptyText (maximum : Nat) := {s : Str // strip s ≠ [] ∧ s.length ≤ maximum}

/-- `_nonempty_text`. -/
def nonemptyText (label : Str) (maximum : Nat) (s : Str) : Except Fault (NonemptyText maximum) :=
  if blank : strip s = [] then reviewError (label ++ lit " must be a non-empty string")
  else if short : s.length ≤ maximum then .ok ⟨s, blank, short⟩
  else reviewError (label ++ lit " exceeds " ++ natText maximum ++ lit " characters")

theorem nonemptyText_ok_iff {label s : Str} {maximum : Nat} {text : NonemptyText maximum} :
    nonemptyText label maximum s = .ok text ↔ text.val = s := by
  constructor
  · intro h
    unfold nonemptyText at h
    split at h
    · cases h
    · split at h
      · rw [← Except.ok.inj h]
      · cases h
  · rintro rfl
    rw [nonemptyText, dif_neg text.property.1, dif_pos text.property.2]

/-- `_nonempty_text` of a decoded value. -/
def nonemptyJson (label : Str) (maximum : Nat) : Json → Except Fault (NonemptyText maximum)
  | .str s => nonemptyText label maximum s
  | _ => reviewError (label ++ lit " must be a non-empty string")

def SLASH : CodePoint := 0x2F

/-- `PureWindowsPath(text).is_absolute()` of a text without backslashes that does not start with a
slash: a drive letter, a colon and a slash. -/
def hasDriveRoot : Str → Bool
  | letter :: colon :: slash :: _ =>
    ((0x41 ≤ letter.val && letter.val ≤ 0x5A) || (0x61 ≤ letter.val && letter.val ≤ 0x7A)) &&
      colon == 0x3A && slash == SLASH
  | _ => false

/-- The parts of `PurePosixPath(text)` for a relative path: empty parts and dots disappear. -/
def posixParts (s : Str) : List Str :=
  (split SLASH s).filter fun part => part != [] && part != [0x2E]

/-- `_relative_path`. -/
def relativePath (label : Str) (s : Str) : Except Fault Str := do
  let _ ← nonemptyText label 4096 s
  rejectWhen (s.contains 0) (label ++ lit " contains NUL")
  rejectWhen (s.contains BACKSLASH) (label ++ lit " must use unambiguous forward slashes")
  rejectWhen (s.head? == some SLASH || hasDriveRoot s || (split SLASH s).contains [0x2E, 0x2E])
    (label ++ lit " must be a confined relative path")
  rejectWhen (posixParts s == []) (label ++ lit " must name a file")
  pure ([SLASH].intercalate (posixParts s))

/-- Only repository files have a path, and it is normalized. -/
def normalizePath (kind : SourceKind) (path : Option Str) : Except Fault (Option Str) :=
  match kind, path with
  | .repositoryFile, none => reviewError "source path must be a non-empty string"
  | .repositoryFile, some path => do
    let normalized ← relativePath "source path" path
    pure (some normalized)
  | _, none => pure none
  | _, some _ => reviewError "pull-request metadata sources cannot declare a path"

/-- The path of a source, as its constructor normalizes it. -/
abbrev SourcePath (kind : SourceKind) :=
  {path : Option Str // ∃ raw, normalizePath kind raw = .ok path}

def sourcePath (kind : SourceKind) (path : Option Str) : Except Fault (SourcePath kind) :=
  match located : normalizePath kind path with
  | .error fault => .error fault
  | .ok normalized => .ok ⟨normalized, path, located⟩

/-! ### Limits -/

/-- `ReviewLimits`, without the limits that only the provider call reads. -/
structure Limits where
  maxCalls : Nat
  maxContextChars : Nat
  maxOutputChars : Nat
  maxFiles : Nat
  maxFileChars : Nat
  maxClaims : Nat
  bounded : ∀ limit ∈ [(maxCalls, 2), (maxContextChars, 60000), (maxOutputChars, 24000),
    (maxFiles, 24), (maxFileChars, 16000), (maxClaims, 16)], 1 ≤ limit.1 ∧ limit.1 ≤ limit.2

/-- The default limits. -/
def Limits.default : Limits where
  maxCalls := 2
  maxContextChars := 60000
  maxOutputChars := 24000
  maxFiles := 24
  maxFileChars := 16000
  maxClaims := 16
  bounded := by decide

/-! ### Sources -/

structure SourceRecord where
  sourceId : NonemptyText 128
  kind : SourceKind
  path : SourcePath kind
  text : Str
  sha256 : {digest : Str // isSha256 digest = true}

/-- The constructor of a source record. -/
def sourceRecord (sourceId : Str) (kind : SourceKind) (path : Option Str) (text sha256 : Str) :
    Except Fault SourceRecord := do
  let sourceId ← nonemptyText "source_id" 128 sourceId
  let path ← sourcePath kind path
  if digest : isSha256 sha256 = true then pure ⟨sourceId, kind, path, text, sha256, digest⟩
  else reviewError "source sha256 must be a lowercase SHA-256 digest"

/-- The sources issued to the provider; changed paths are among the paths of the repository. -/
structure SourceBundle where
  sources : List SourceRecord
  repositoryPaths : List Str
  changedPaths : List Str
  issued : changedPaths ⊆ repositoryPaths

/-- A checkout without files. -/
theorem noneIssued : ([] : List Str) ⊆ [] := List.nil_subset []

def SourceBundle.totalChars (bundle : SourceBundle) : Nat :=
  (bundle.sources.map fun source => source.text.length).sum

/-- `{source.source_id: source for source in sources}.get(id)`: a later source replaces an earlier
one with its identifier. -/
def SourceBundle.record (bundle : SourceBundle) (id : Str) : Option SourceRecord :=
  bundle.sources.reverse.find? fun source => source.sourceId.val = id

theorem SourceBundle.record_some {bundle : SourceBundle} {id : Str} {source : SourceRecord}
    (h : bundle.record id = some source) : source ∈ bundle.sources ∧ source.sourceId.val = id :=
  ⟨List.mem_reverse.mp (List.mem_of_find?_eq_some h), by simpa using List.find?_some h⟩

structure SourceLocation where
  sourceId : NonemptyText 128
  kind : SourceKind
  path : SourcePath kind
  startLine : Nat
  endLine : Nat
  span : 1 ≤ startLine ∧ startLine ≤ endLine

/-- The constructor of a location; the lines come as integers. -/
def sourceLocation (sourceId : Str) (kind : SourceKind) (path : Option Str)
    (startLine endLine : Int) : Except Fault SourceLocation := do
  let sourceId ← nonemptyText "source_id" 128 sourceId
  let path ← sourcePath kind path
  if span : 1 ≤ startLine.toNat ∧ startLine.toNat ≤ endLine.toNat then
    pure ⟨sourceId, kind, path, startLine.toNat, endLine.toNat, span⟩
  else reviewError "source line span is invalid"

/-! ### Numbers -/

/-- A Python number that is not a bool. -/
inductive Number where
  | int (n : Int)
  | float (x : Binary64)
  deriving DecidableEq

/-- `float(value)`; `none` is an `OverflowError`. -/
def Number.toFloat : Number → Option Binary64
  | int n => Binary64.ofInt n
  | float x => some x

/-- The float of a decoded value that is a number; `none` is any other value, and a number that is
not finite. -/
def finiteFloat : Json → Except Fault (Option Binary64)
  | .int n =>
    match Binary64.ofInt n with
    | none => .error .overflowError
    | some x => .ok (some x)
  | .float x => .ok (some x)
  | _ => .ok none

/-- `0 <= value <= 1`, where one is `2 ^ 1074` times the least positive double. -/
def inUnitInterval (x : Binary64) : Bool := (Binary64.zero false).le x && x.units ≤ 2 ^ 1074

/-! ### Claims -/

structure ClaimMagnitude where
  raw : NonemptyText 512
  value : Option {number : Number // number.toFloat.isSome = true}
  unit : Option (NonemptyText 128)
  kind : MagnitudeKind

/-- A magnitude value that is not null. -/
def magnitudeNumber : Json → Except Fault {number : Number // number.toFloat.isSome = true}
  | .int n =>
    if fits : (Binary64.ofInt n).isSome = true then .ok ⟨.int n, fits⟩ else .error .overflowError
  | .float x => .ok ⟨.float x, rfl⟩
  | _ => reviewError "claimed magnitude value must be finite"

def magnitudeValue :
    Json → Except Fault (Option {number : Number // number.toFloat.isSome = true})
  | .null => .ok none
  | value => (magnitudeNumber value).map some

def magnitudeUnit : Json → Except Fault (Option (NonemptyText 128))
  | .null => .ok none
  | unit => (nonemptyJson "claimed magnitude unit" 128 unit).map some

/-- The constructor of a magnitude. -/
def claimMagnitude (raw value unit : Json) (kind : MagnitudeKind) : Except Fault ClaimMagnitude := do
  let raw ← nonemptyJson "claimed magnitude" 512 raw
  let value ← magnitudeValue value
  let unit ← magnitudeUnit unit
  pure ⟨raw, value, unit, kind⟩

structure ScientificClaim where
  claimId : NonemptyText 128
  sourceText : NonemptyText 16000
  claimType : ClaimType
  subject : NonemptyText 1024
  source : SourceLocation
  metric : Option (NonemptyText 256)
  direction : ClaimDirection
  claimedMagnitude : Option ClaimMagnitude
  qualifiers : List (NonemptyText 1024)
  confidence : {x : Binary64 // inUnitInterval x = true}
  evidenceHints : List (NonemptyText 4096)

/-- Every item is a bounded text. -/
def boundedItems (message : Str) (maximum : Nat) (items : List Str) :
    Except Fault (List (NonemptyText maximum)) :=
  items.mapM fun item =>
    if valid : strip item ≠ [] ∧ item.length ≤ maximum then .ok ⟨item, valid⟩
    else reviewError message

def optionalText (label : Str) (maximum : Nat) :
    Option Str → Except Fault (Option (NonemptyText maximum))
  | none => .ok none
  | some text => (nonemptyText label maximum text).map some

def unitConfidence (x : Binary64) : Except Fault {x : Binary64 // inUnitInterval x = true} :=
  if valid : inUnitInterval x = true then .ok ⟨x, valid⟩
  else reviewError "claim confidence must be finite from 0 through 1"

/-- The constructor of a claim, with its checks in their order. -/
def scientificClaim (claimId sourceText : Str) (claimType : ClaimType) (subject : Json)
    (source : SourceLocation) (metric : Option Str) (direction : ClaimDirection)
    (claimedMagnitude : Option ClaimMagnitude) (qualifiers : List Str) (confidence : Binary64)
    (evidenceHints : List Str) : Except Fault ScientificClaim := do
  let claimId ← nonemptyText "claim_id" 128 claimId
  let sourceText ← nonemptyText "claim source_text" 16000 sourceText
  let subject ← nonemptyJson "claim subject" 1024 subject
  let metric ← optionalText "claim metric" 256 metric
  let qualifiers ← boundedItems "claim qualifiers must be bounded non-empty strings" 1024 qualifiers
  let confidence ← unitConfidence confidence
  let evidenceHints ← boundedItems "evidence hints must be bounded non-empty strings" 4096
    evidenceHints
  pure ⟨claimId, sourceText, claimType, subject, source, metric, direction, claimedMagnitude,
    qualifiers, confidence, evidenceHints⟩

end ClaimCI.Review
