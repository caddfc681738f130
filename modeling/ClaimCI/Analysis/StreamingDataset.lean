import ClaimCI.Analysis.ArtifactSource
import ClaimCI.DatasetCheck
import ClaimCI.Python.CountTable

/-!
# Streaming datasets

The bounded index of dataset records: the spill store with its transactions, the scan of one
split, and the facts that SQL derives from the four splits. The database decides how each of its
operations goes.
-/

open Python

namespace ClaimCI

/-- The experiment and the split of a scan. -/
abbrev SplitKey := Arm × Split

abbrev SpillTable := CountTable SplitKey Str

/-! ### The store -/

/-- How the database takes a batch: each statement and the commit take effect or raise, and a
commit is followed by a measurement of the files. -/
inductive BatchOutcome where
  /-- The statement at this position raises. -/
  | statementRaised (position : Nat)
  | commitRaised
  | measured (size : Nat)

/-- How the database takes the operations of a run, counted from the first. -/
structure Database where
  batch : Nat → BatchOutcome
  /-- The deletion and its commit take effect. -/
  deletes : Nat → Bool

/-- `_DatasetSpill`: outside of a transaction, `working` is what was committed. -/
structure Spill where
  committed : SpillTable
  working : SpillTable
  exhausted : Bool
  peakBytes : Nat
  /-- How many operations the database has taken. -/
  operations : Nat

def Spill.rollback (store : Spill) : Spill := { store with working := store.committed }

def Spill.commit (store : Spill) : Spill := { store with committed := store.working }

/-- The rows of a batch: its distinct digests in ascending order, with their counts. -/
def batchParameters (digests : List Str) : List (Str × Nat) :=
  (sortedHashes digests).map fun digest => (digest, digests.count digest)

/-- `_measure`: whether the files are within the budget. -/
def Spill.measure (maximumBytes size : Nat) (store : Spill) : Spill × Bool :=
  let store := { store with peakBytes := max store.peakBytes size }
  if maximumBytes < size then ({ store with exhausted := true }, false) else (store, true)

/-- The transaction of a batch; it fails when a statement, the commit or the measurement raises. -/
def Spill.executeBatch (db : Database) (maximumBytes : Nat) (key : SplitKey)
    (parameters : List (Str × Nat)) (store : Spill) : Spill × Bool :=
  let next := { store with operations := store.operations + 1 }
  match db.batch store.operations with
  | .statementRaised position =>
    ({ next with working := next.working.upsertAll key (parameters.take position) }, false)
  | .commitRaised => ({ next with working := next.working.upsertAll key parameters }, false)
  | .measured size =>
    Spill.measure maximumBytes size
      (Spill.commit { next with working := next.working.upsertAll key parameters })

/-- `add_batch`; `none` is `_ScratchFull`. The rollback comes too late for what was committed. -/
def Spill.addBatch (db : Database) (maximumBytes : Nat) (key : SplitKey) (digests : List Str)
    (store : Spill) : Spill × Option Nat :=
  if digests = [] then (store, some 0)
  else if store.exhausted then (store, none)
  else
    match store.executeBatch db maximumBytes key (batchParameters digests) with
    | (store, true) => (store, some digests.length)
    | (store, false) => ({ store.rollback with exhausted := true }, none)

/-- `delete_split`; `none` when the database raises. -/
def Spill.deleteSplit (db : Database) (key : SplitKey) (store : Spill) : Option Spill :=
  if db.deletes store.operations then
    let table := store.working.deletePartition key
    some { store with
      committed := table, working := table, operations := store.operations + 1 }
  else none

/-! ### The scan of a split -/

/-- What a scan works with. -/
structure StreamRuntime where
  runtime : Runtime
  recursion : RecursionLimit
  database : Database
  limits : StreamingLimits

def BATCH_RECORDS : Nat := 128

/-- The locals of `_scan_dataset`, and the store. -/
structure ScanRun where
  store : Spill
  records : Nat
  indexed : Nat
  pending : List Str
  semanticBytes : Nat

/-- How the body of the scan ends. -/
inductive Ending where
  | finished
  | stopped (stop : ScanStop)
  /-- `_ScratchFull`. -/
  | scratchFull
  /-- Another error of the input, or of the source. -/
  | invalid

/-- `_parse_dataset_value`. -/
def parseDatasetValue (env : StreamRuntime) (raw : Bytes) : Except ScanStop Json :=
  match decodeUtf8 raw with
  | none => .error (.failed .invalidUtf8)
  | some text =>
    match loads strictLoad text with
    | none => .error (.failed .malformed)
    | some value =>
      if env.recursion.fits value then do
        validateRecordGraph env.limits value
        .ok value
      else .error (.failed .malformed)

/-- `_flush`, and whether the batch was indexed. -/
def flush (env : StreamRuntime) (key : SplitKey) (run : ScanRun) : ScanRun × Bool :=
  match run.store.addBatch env.database env.limits.maxScratchBytes key run.pending with
  | (store, some indexed) =>
    ({ run with store := store, indexed := run.indexed + indexed, pending := [] }, true)
  | (store, none) => ({ run with store := store }, false)

/-- A record whose digest is appended; a full batch is flushed. -/
def addRecord (env : StreamRuntime) (key : SplitKey) (digest : Str) (run : ScanRun) :
    ScanRun × Option Ending :=
  let run := { run with pending := run.pending ++ [digest], records := run.records + 1 }
  if BATCH_RECORDS ≤ run.pending.length then
    match flush env key run with
    | (run, true) => (run, none)
    | (run, false) => (run, some .scratchFull)
  else (run, none)

/-- One line; `none` when the loop goes on. -/
def scanLine (env : StreamRuntime) (key : SplitKey) (raw : Bytes) (physicalBytes : Nat)
    (run : ScanRun) : ScanRun × Option Ending :=
  let noted := { run with semanticBytes := run.semanticBytes + physicalBytes }
  if env.limits.maxSemanticBytes < run.semanticBytes + physicalBytes then
    (run, some (.stopped (.budget .semanticByteBudget)))
  else if isByteBlank raw then (noted, none)
  else if env.limits.maxSemanticRecords ≤ run.records then
    (run, some (.stopped (.budget .recordBudget)))
  else
    match parseDatasetValue env raw with
    | .error stop => (noted, some (.stopped stop))
    | .ok value =>
      match hashSample env.runtime value with
      | none => (noted, some .invalid)
      | some digest => addRecord env key digest noted

/-- The end of the loop: the last batch is flushed, and an empty dataset is malformed. -/
def finishLines (env : StreamRuntime) (key : SplitKey) (run : ScanRun) : ScanRun × Ending :=
  match flush env key run with
  | (run, true) => (run, if run.records = 0 then .stopped (.failed .malformed) else .finished)
  | (run, false) => (run, .scratchFull)

/-- The loop over the lines. -/
def scanLines (env : StreamRuntime) (key : SplitKey) : List LineEvent → ScanRun → ScanRun × Ending
  | [], run => finishLines env key run
  | .stop stop :: _, run => (run, .stopped stop)
  | .failed :: _, run => (run, .invalid)
  | .line raw physicalBytes :: rest, run =>
    match scanLine env key raw physicalBytes run with
    | (run, none) => scanLines env key rest run
    | (run, some ending) => (run, ending)

structure DatasetSplitScan where
  key : SplitKey
  path : Str
  artifactSha256 : Str
  completeness : ScanCompleteness
  indexedRecords : Nat

/-- `scan.finish` and the scan it is part of; an unverified source raises. -/
def finishScan (source : ArtifactSource) (attempt : Nat) (key : SplitKey) (run : ScanRun)
    (state : ScanState) (reason : ScanReason) (scratchBytes : Nat) :
    Except Error (Spill × DatasetSplitScan) :=
  if source.verifies attempt then
    .ok (run.store, ⟨key, source.path, source.sha256,
      ⟨state, reason, run.records, run.semanticBytes, scratchBytes⟩, run.indexed⟩)
  else .error (.valueError "artifact integrity mismatch")

/-- The scratch bytes a scan that did not finish reports. -/
def reportedScratch (env : StreamRuntime) (store : Spill) : Nat :=
  min store.peakBytes env.limits.maxScratchBytes

/-- What a failed scan does to the store: every row of the split goes. -/
def discardSplit (env : StreamRuntime) (source : ArtifactSource) (attempt : Nat) (key : SplitKey)
    (run : ScanRun) (reason : ScanReason) : Except Error (Spill × DatasetSplitScan) :=
  match run.store.deleteSplit env.database key with
  | none => .error (.osError "database error")
  | some store =>
    finishScan source attempt key { run with store := store, pending := [], indexed := 0 }
      .failed reason (reportedScratch env store)

/-- The handlers of `_scan_dataset`. -/
def handleEnding (env : StreamRuntime) (source : ArtifactSource) (key : SplitKey) (run : ScanRun) :
    Ending → Except Error (Spill × DatasetSplitScan)
  | .finished =>
    match finishScan source 0 key run .complete .complete run.store.peakBytes with
    | .ok result => .ok result
    -- a result that the constructor refuses discards the split
    | .error _ => discardSplit env source 1 key run .malformed
  | .scratchFull =>
    finishScan source 0 key run .incompleteBudget .scratchBudget (reportedScratch env run.store)
  | .invalid => discardSplit env source 0 key run .malformed
  | .stopped stop =>
    -- a stop within the limits keeps what was counted, a failure discards it
    if stop.state = .failed then discardSplit env source 0 key run stop.reason
    else
      match flush env key run with
      | (run, true) =>
        finishScan source 0 key run stop.state stop.reason (reportedScratch env run.store)
      | (run, false) =>
        finishScan source 0 key run .incompleteBudget .scratchBudget
          (reportedScratch env run.store)

/-- `_scan_dataset`. -/
def scanDataset (env : StreamRuntime) (key : SplitKey) (source : ArtifactSource) (store : Spill) :
    Except Error (Spill × DatasetSplitScan) :=
  let run : ScanRun := ⟨store, 0, 0, [], 0⟩
  let outcome :=
    if store.exhausted then (run, .stopped (.budget .scratchBudget))
    else scanLines env key (binaryLines env.limits 0 [] 0 source.reads) run
  handleEnding env source key outcome.1 outcome.2

/-! ### The context -/

/-- The four sources of a dataset audit. -/
abbrev DatasetSources := SplitKey → ArtifactSource

/-- The order in which the splits are scanned. -/
def splitKeys : List SplitKey :=
  [(.baseline, .train), (.baseline, .eval), (.candidate, .train), (.candidate, .eval)]

/-- The scans of the remaining splits, one after the other over one store. -/
def scanSplits (env : StreamRuntime) (sources : DatasetSources) :
    List SplitKey → Spill → Except Error (Spill × List DatasetSplitScan)
  | [], store => .ok (store, [])
  | key :: keys, store => do
    let (store, scan) ← scanDataset env key (sources key) store
    let (store, scans) ← scanSplits env sources keys store
    .ok (store, scan :: scans)

/-- A store right after its schema was created. -/
def Spill.initial (schemaBytes : Nat) : Spill := ⟨.empty, .empty, false, schemaBytes, 0⟩

/-- `DatasetScanAuditContext`. -/
structure DatasetScanAuditContext where
  scans : List DatasetSplitScan
  store : Spill
  previewLimit : Nat

/-- `stream_dataset_audit_context`, which measures the schema first. -/
def streamDatasetAuditContext (env : StreamRuntime) (schemaBytes : Nat) (sources : DatasetSources) :
    Except Error DatasetScanAuditContext :=
  if env.limits.maxScratchBytes < schemaBytes then
    .error (.valueError "dataset spill scratch budget cannot hold the fixed schema")
  else do
    let (store, scans) ← scanSplits env sources splitKeys (Spill.initial schemaBytes)
    .ok ⟨scans, store, env.limits.maxHashPreviews⟩

/-- `context.scan`: the one scan with the key. -/
def DatasetScanAuditContext.scan (context : DatasetScanAuditContext) (key : SplitKey) :
    Except Error DatasetSplitScan :=
  match context.scans.filter fun scan => scan.key = key with
  | [scan] => .ok scan
  | _ => .error (.valueError "dataset Audit scan key is invalid")

structure DatasetOverlapFact where
  trainScan : DatasetSplitScan
  evalScan : DatasetSplitScan
  trainCount : Nat
  evalCount : Nat
  overlapCount : Nat
  overlappingHashes : List Str
  overlappingDistinctCount : Nat

def DatasetOverlapFact.isComplete (fact : DatasetOverlapFact) : Bool :=
  fact.trainScan.completeness.isComplete && fact.evalScan.completeness.isComplete

/-- `ORDER BY digest`. -/
def orderByDigest (digests : List Str) : List Str :=
  digests.insertionSort fun a b => strLe a b = true

def orderPairs (pairs : List (Str × Nat)) : List (Str × Nat) :=
  pairs.insertionSort fun a b => strLe a.1 b.1 = true

/-- `overlap_fact`. -/
def overlapFact (context : DatasetScanAuditContext) (arm : Arm) :
    Except Error DatasetOverlapFact := do
  let trainScan ← context.scan (arm, .train)
  let evalScan ← context.scan (arm, .eval)
  let table := context.store.committed
  let joined := table.join (arm, .train) (arm, .eval)
  .ok ⟨trainScan, evalScan, table.total (arm, .train), table.total (arm, .eval),
    table.overlap (arm, .train) (arm, .eval),
    (orderByDigest (joined.map fun pair => pair.1.item)).take context.previewLimit, joined.length⟩

/-- `DatasetMultisetIdentity`. -/
structure MultisetIdentity where
  recordCount : Nat
  canonicalSha256 : Str
  deriving DecidableEq

/-- The arguments `multiset_identity` gives `json.dumps`. -/
def identityStyle : DumpStyle := ⟨true, none, [], [], true⟩

/-- The text of one row of the commitment. -/
def identityRow (row : Str × Nat) : Str :=
  (Json.object [("count", .int row.2), ("sha256", .str row.1)]).render identityStyle 0

/-- The text between commas. -/
def joinRows : List Str → Str
  | [] => []
  | [row] => row
  | row :: rest => row ++ COMMA :: joinRows rest

/-- The commitment that is hashed: the sorted rows as a JSON array, an ASCII text. -/
def identityMaterial (rows : List (Str × Nat)) : Str :=
  LEFT_BRACKET :: (joinRows (rows.map identityRow) ++ [RIGHT_BRACKET])

/-- The bytes of an ASCII text. -/
def asciiEncode (s : Str) : Bytes := s.map fun c => UInt8.ofNat c.val

/-- `multiset_identity`, which no empty partition has. -/
def multisetIdentity (rt : Runtime) (context : DatasetScanAuditContext) (key : SplitKey) :
    Except Error MultisetIdentity :=
  let rows := orderPairs ((context.store.committed.partition key).map fun row =>
    (row.item, row.multiplicity))
  let recordCount := (rows.map Prod.snd).sum
  if recordCount < 1 then .error (.valueError "dataset identity record count is invalid")
  else .ok ⟨recordCount, rt.sha256 (asciiEncode (identityMaterial rows))⟩

/-- `evaluation_identity`. -/
def evaluationIdentity (rt : Runtime) (context : DatasetScanAuditContext) (arm : Arm) :
    Except Error (Option MultisetIdentity) := do
  let scan ← context.scan (arm, .eval)
  if scan.completeness.isComplete then
    let identity ← multisetIdentity rt context (arm, .eval)
    .ok (some identity)
  else .ok none

structure DatasetAlignmentFact where
  baseline : MultisetIdentity
  candidate : MultisetIdentity
  matchingCount : Nat
  baselineOnlyCount : Nat
  candidateOnlyCount : Nat
  baselineOnly : List (Str × Nat)
  candidateOnly : List (Str × Nat)

/-- The preview of what one side holds beyond the other. -/
def sideOnlyPreview (context : DatasetScanAuditContext) (source other : SplitKey) :
    List (Str × Nat) :=
  (orderPairs ((context.store.committed.excess source other).filter fun pair => 0 < pair.2)).take
    context.previewLimit

/-- `alignment_fact`. -/
def alignmentFact (context : DatasetScanAuditContext) (baseline candidate : MultisetIdentity) :
    DatasetAlignmentFact :=
  let table := context.store.committed
  let left : SplitKey := (.baseline, .eval)
  let right : SplitKey := (.candidate, .eval)
  ⟨baseline, candidate, table.overlap left right, ((table.excess left right).map Prod.snd).sum,
    ((table.excess right left).map Prod.snd).sum, sideOnlyPreview context left right,
    sideOnlyPreview context right left⟩

/-- `evaluation_alignment_fact`. -/
def evaluationAlignmentFact (rt : Runtime) (context : DatasetScanAuditContext) :
    Except Error (Option DatasetAlignmentFact) := do
  let baseline ← evaluationIdentity rt context .baseline
  let candidate ← evaluationIdentity rt context .candidate
  .ok (baseline.bind fun baseline => candidate.map fun candidate =>
    alignmentFact context baseline candidate)

/-! ### The checks -/

/-- What every overlap finding says about its two scans. -/
def scanEvidence (fact : DatasetOverlapFact) : Evidence :=
  [("train_artifact_path", .str fact.trainScan.path),
    ("train_artifact_sha256", .str fact.trainScan.artifactSha256),
    ("eval_artifact_path", .str fact.evalScan.path),
    ("eval_artifact_sha256", .str fact.evalScan.artifactSha256),
    ("train_scan_state", .str fact.trainScan.completeness.state.value),
    ("eval_scan_state", .str fact.evalScan.completeness.state.value),
    ("integrity_verified", .bool true)]

/-- `DATASET.EXACT_LEAKAGE`. -/
def streamedLeakageFinding (arm : Arm) (fact : DatasetOverlapFact) (rate : Binary64) : Finding :=
  let counts : Evidence :=
    [("experiment", .str arm.text), ("train_count", countValue fact.trainCount),
      ("eval_count", countValue fact.evalCount), ("overlap_count", countValue fact.overlapCount),
      ("hashes", strValues fact.overlappingHashes),
      ("hash_preview_truncated",
        .bool (fact.overlappingHashes.length < fact.overlappingDistinctCount))]
  let scope : Evidence :=
    if fact.isComplete then [("overlap_rate", .float rate)]
    else [("scope", .str "inspected_exact_records_only"),
      ("train_records_scanned", countValue fact.trainScan.completeness.recordsScanned),
      ("eval_records_scanned", countValue fact.evalScan.completeness.recordsScanned)]
  { ruleId := "DATASET.EXACT_LEAKAGE"
    severity := .critical
    title := leakageTitle arm
    explanation := lit "Found " ++ natText fact.overlapCount ++ lit " exact canonical overlap(s)" ++
      (if fact.isComplete then
        lit ", covering " ++ formatPercent 1 rate ++ lit " of evaluation records."
      else
        lit " among inspected records bound to integrity-verified artifacts. " ++
          lit "No claim is made about unscanned records.")
    evidence := counts ++ scanEvidence fact ++ scope
    impact := .invalidates }

/-- `DATASET.NO_LEAKAGE`. -/
def streamedNoLeakageFinding (arm : Arm) (fact : DatasetOverlapFact) : Finding :=
  let counts : Evidence :=
    [("experiment", .str arm.text), ("train_count", countValue fact.trainCount),
      ("eval_count", countValue fact.evalCount), ("overlap_count", countValue 0),
      ("overlap_rate", .float (Binary64.zero false))]
  { ruleId := "DATASET.NO_LEAKAGE"
    severity := .verified
    title := noLeakageTitle arm
    explanation := "No canonical evaluation record hash appears in the training split."
    evidence := counts ++ scanEvidence fact
    impact := .none }

/-- `DATASET.SCAN_INCOMPLETE`. -/
def scanIncompleteFinding (arm : Arm) (fact : DatasetOverlapFact) : Finding :=
  let train := fact.trainScan.completeness
  let eval := fact.evalScan.completeness
  { ruleId := "DATASET.SCAN_INCOMPLETE"
    severity := .warning
    title := arm.title ++ lit " dataset scan is incomplete"
    explanation := lit "Exact artifact integrity was verified, but bounded semantic scanning did " ++
      lit "not establish complete dataset facts."
    evidence := [("experiment", .str arm.text), ("train_scan_state", .str train.state.value),
      ("train_scan_reason", .str train.reason.value),
      ("train_records_scanned", countValue train.recordsScanned),
      ("eval_scan_state", .str eval.state.value), ("eval_scan_reason", .str eval.reason.value),
      ("eval_records_scanned", countValue eval.recordsScanned), ("integrity_verified", .bool true),
      ("train_artifact_sha256", .str fact.trainScan.artifactSha256),
      ("eval_artifact_sha256", .str fact.evalScan.artifactSha256)]
    impact := .insufficient }

/-- What one experiment contributes. -/
def overlapFindings (arm : Arm) (fact : DatasetOverlapFact) : OverlapSummary × List Finding :=
  let rate := overlapRate fact.overlapCount fact.evalCount
  (⟨arm, fact.trainCount, fact.evalCount, fact.overlapCount, rate, fact.overlappingHashes⟩,
    (if fact.overlapCount ≠ 0 then [streamedLeakageFinding arm fact rate]
      else if fact.isComplete then [streamedNoLeakageFinding arm fact]
      else []) ++
    if fact.isComplete then [] else [scanIncompleteFinding arm fact])

/-- The findings on evaluation alignment, for complete evaluation scans. -/
def streamedAlignmentFindings (baselineScan candidateScan : DatasetSplitScan)
    (alignment : DatasetAlignmentFact) : List Finding :=
  let evidence : Evidence :=
    [("baseline_eval_count", countValue alignment.baseline.recordCount),
      ("candidate_eval_count", countValue alignment.candidate.recordCount),
      ("matching_count", countValue alignment.matchingCount),
      ("baseline_only_count", countValue alignment.baselineOnlyCount),
      ("candidate_only_count", countValue alignment.candidateOnlyCount),
      ("baseline_only", hashCountEvidence alignment.baselineOnly),
      ("candidate_only", hashCountEvidence alignment.candidateOnly),
      ("baseline_eval_sha256", .str baselineScan.artifactSha256),
      ("candidate_eval_sha256", .str candidateScan.artifactSha256),
      ("scan_state", .str ScanState.complete.value), ("integrity_verified", .bool true)]
  if alignment.baseline = alignment.candidate then [alignedFinding evidence]
  else [mismatchFinding evidence]

/-- The alignment findings of a context; none while an evaluation scan is incomplete. -/
def contextAlignmentFindings (rt : Runtime) (context : DatasetScanAuditContext) :
    Except Error (List Finding) := do
  let alignment ← evaluationAlignmentFact rt context
  let baselineScan ← context.scan (.baseline, .eval)
  let candidateScan ← context.scan (.candidate, .eval)
  .ok ((alignment.map (streamedAlignmentFindings baselineScan candidateScan)).getD [])

/-- `check_streaming_dataset_context`. -/
def checkStreamingDatasetContext (rt : Runtime) (context : DatasetScanAuditContext) :
    Except Error (List OverlapSummary × List Finding) := do
  let baselineFact ← overlapFact context .baseline
  let candidateFact ← overlapFact context .candidate
  let baseline := overlapFindings .baseline baselineFact
  let candidate := overlapFindings .candidate candidateFact
  let alignment ← contextAlignmentFindings rt context
  .ok ([baseline.1, candidate.1], baseline.2 ++ candidate.2 ++ alignment)

end ClaimCI
