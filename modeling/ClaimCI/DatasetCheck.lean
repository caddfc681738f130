import ClaimCI.Models

/-!
# Dataset check

Exact train/evaluation overlap and evaluation alignment, from canonical JSON hashes.
-/

open Python

namespace ClaimCI

/-- The arguments `canonicalize_sample` gives `json.dumps`. -/
def canonicalStyle : DumpStyle := ⟨false, none, [], [], true⟩

/-- `canonicalize_sample`; `none` is an error of the encoder or of the UTF-8 encoding. -/
def canonicalizeSample (value : Json) : Option Bytes :=
  (dumps canonicalStyle value).bind encodeUtf8

/-- `hash_sample`. -/
def hashSample (rt : Runtime) (value : Json) : Option Str :=
  (canonicalizeSample value).map rt.sha256

/-- One record line: its canonical hash, or the text of the exception. -/
def loadRecord (rt : Runtime) (path line : Str) : Except Str Str :=
  match loads strictLoad line with
  | none => .error (rt.jsonErrorText line)
  | some sample =>
    match validateJsonGraph sample (lit "dataset " ++ path) with
    | .error error => .error error.text
    | .ok () =>
      match hashSample rt sample with
      | none => .error (rt.jsonErrorText line)
      | some digest => .ok digest

/-- The loop over the lines; blank ones are skipped. -/
def loadRecords (rt : Runtime) (path : Str) : Nat → List Str → Except Error (List Str)
  | _, [] => .ok []
  | lineNumber, line :: lines =>
    if isBlank line then loadRecords rt path (lineNumber + 1) lines
    else
      match loadRecord rt path line with
      | .error text => .error (.claimCI (lit "invalid JSON in dataset " ++ path ++ lit " at line " ++
          natText lineNumber ++ lit ": " ++ text))
      | .ok digest => do
        let rest ← loadRecords rt path (lineNumber + 1) lines
        .ok (digest :: rest)

/-- `path.read_text(encoding="utf-8")`, with the errors of a dataset file. -/
def readDataset (rt : Runtime) (path : Str) : Except Error Str :=
  let unreadable (text : Str) : Error :=
    .claimCI (lit "could not read dataset file " ++ path ++ lit ": " ++ text)
  match rt.readText path with
  | .ok text => .ok text
  | .error .notFound => .error (.claimCI (lit "dataset file not found: " ++ path))
  | .error (.unreadable text) => .error (unreadable text)
  | .error (.undecodable text) => .error (unreadable text)

def loadDataset (rt : Runtime) (path : Str) : Except Error DatasetHashes := do
  let text ← readDataset rt path
  let hashes ← loadRecords rt path 1 (split LF text)
  if hashes = [] then
    .error (.claimCI (lit "dataset file " ++ path ++ lit " contains no JSON records"))
  else
    match rt.resolve path with
    | .error text => .error (.osError text)
    | .ok resolved => .ok ⟨resolved, hashes⟩

/-! ### Counting -/

/-- The distinct hashes in `hashes`, in ascending order. -/
def sortedHashes (hashes : List Str) : List Str :=
  hashes.dedup.insertionSort fun a b => strLe a b = true

/-- The keys of `Counter(left) & Counter(right)`, sorted. -/
def intersectionHashes (left right : List Str) : List Str :=
  (sortedHashes left).filter fun h => right.contains h

/-- `Counter(left) - Counter(right)`, as sorted pairs with positive counts. -/
def hashDifference (left right : List Str) : List (Str × Nat) :=
  ((sortedHashes left).map fun h => (h, left.count h - right.count h)).filter fun p => 0 < p.2

/-- `_hash_count_evidence`. -/
def hashCountEvidence (counts : List (Str × Nat)) : Value :=
  .list (counts.map fun p => Value.ofMembers [("hash", .str p.1), ("count", countValue p.2)])

/-! ### Findings -/

def overlapRate (overlapCount evalCount : Nat) : Binary64 :=
  if evalCount = 0 then Binary64.zero false
  else (trueDivide overlapCount evalCount).getD (Binary64.zero false)

def leakageTitle (arm : Arm) : Str := arm.title ++ lit " evaluation data appears in training data"

def noLeakageTitle (arm : Arm) : Str := arm.title ++ lit " has no exact train/eval leakage"

def checkDatasetLeakage (arm : Arm) (train eval : DatasetHashes) : OverlapSummary × List Finding :=
  -- the overlap counts a record as often as both splits hold it
  let overlapCount := intersectionCount train.hashes eval.hashes
  let evalCount := eval.hashes.length
  let rate := overlapRate overlapCount evalCount
  let overlapping := intersectionHashes train.hashes eval.hashes
  let summary : OverlapSummary :=
    ⟨arm, train.hashes.length, evalCount, overlapCount, rate, overlapping⟩
  let counts : Evidence := [("experiment", .str arm.text),
    ("train_count", countValue train.hashes.length), ("eval_count", countValue evalCount)]
  if overlapCount ≠ 0 then
    (summary, [{
      ruleId := "DATASET.EXACT_LEAKAGE"
      severity := .critical
      title := leakageTitle arm
      explanation := lit "Found " ++ natText overlapCount ++
        lit " exact canonical overlap(s), covering " ++ formatPercent 1 rate ++
        lit " of evaluation records."
      evidence := counts ++ [(lit "overlap_count", countValue overlapCount),
        (lit "overlap_rate", .float rate), (lit "hashes", strValues overlapping)]
      impact := .invalidates }])
  else
    (summary, [{
      ruleId := "DATASET.NO_LEAKAGE"
      severity := .verified
      title := noLeakageTitle arm
      explanation := "No canonical evaluation record hash appears in the training split."
      evidence := counts ++ [(lit "overlap_count", countValue 0),
        (lit "overlap_rate", .float (Binary64.zero false))]
      impact := .none }])

def alignedFinding (evidence : Evidence) : Finding := {
  ruleId := "DATASET.EVALUATION_ALIGNED"
  severity := .verified
  title := "Baseline and candidate evaluation records are aligned"
  explanation := "Both evaluation datasets contain the same canonical record hash multiset."
  evidence := evidence
  impact := .none }

def mismatchFinding (evidence : Evidence) : Finding := {
  ruleId := "DATASET.EVALUATION_MISMATCH"
  severity := .critical
  title := "Baseline and candidate evaluation records differ"
  explanation := lit "A valid comparison requires both experiments to use the same " ++
    lit "canonical evaluation-record multiset."
  evidence := evidence
  impact := .invalidates }

def checkEvaluationAlignment (baselineEval candidateEval : DatasetHashes) : List Finding :=
  let baselineOnly := hashDifference baselineEval.hashes candidateEval.hashes
  let candidateOnly := hashDifference candidateEval.hashes baselineEval.hashes
  let evidence : Evidence := [
    ("baseline_eval_count", countValue baselineEval.hashes.length),
    ("candidate_eval_count", countValue candidateEval.hashes.length),
    ("matching_count", countValue (intersectionCount baselineEval.hashes candidateEval.hashes)),
    ("baseline_only_count", countValue (differenceCount baselineEval.hashes candidateEval.hashes)),
    ("candidate_only_count", countValue (differenceCount candidateEval.hashes baselineEval.hashes)),
    ("baseline_only", hashCountEvidence baselineOnly),
    ("candidate_only", hashCountEvidence candidateOnly)]
  if sameCounts baselineEval.hashes candidateEval.hashes then [alignedFinding evidence]
  else [mismatchFinding evidence]

end ClaimCI
