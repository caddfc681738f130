import ClaimCI.Analysis.PartialScan

/-!
# Scans within the limits

A scan of a file within every limit, over a database that takes every statement, comes to one of
two ends: it passes the whole file, or it finds a line that is no record.
-/

open Python

namespace ClaimCI

/-- The database takes every statement, and its files stay within the scratch budget. -/
structure Reliable (env : StreamRuntime) : Prop where
  batches : ∀ operation, ∃ size, env.database.batch operation = .measured size ∧
    size ≤ env.limits.maxScratchBytes
  deletions : ∀ operation, env.database.deletes operation = true

/-- The record on a line, if there is one, is within the limits. -/
def LineFits (env : StreamRuntime) (raw : Bytes) : Prop :=
  ∀ value, lineRecord raw = some value →
    env.recursion.fits value = true ∧ validateRecordGraph env.limits value = .ok ()

/-- How many lines are not blank. -/
def filledLines (lines : List (Bytes × Nat)) : Nat :=
  (lines.filter fun line => !isByteBlank line.1).length

/-- A source that can be read and verified, with content within the limits. -/
structure WithinLimits (env : StreamRuntime) (source : ArtifactSource) : Prop where
  readable : ∀ read ∈ source.reads, ∃ content, read = .block content
  verified : ∀ attempt, source.verifies attempt = true
  integrity : source.content.length ≤ env.limits.maxIntegrityBytes
  semantic : source.content.length ≤ env.limits.maxSemanticBytes
  short : ∀ line ∈ contentLines source.content,
    line.1.length ≤ env.limits.maxLogicalRecordBytes
  few : filledLines (contentLines source.content) ≤ env.limits.maxSemanticRecords
  fits : ∀ line ∈ contentLines source.content, LineFits env line.1

/-- The scan ends because a line is no record, or because there is none. -/
def Rejects (ending : Ending) : Prop :=
  ending = .invalid ∨ ∃ reason, ending = .stopped (.failed reason)

/-! ### Steps -/

theorem addBatch_reliable {env : StreamRuntime} (reliable : Reliable env) (key : SplitKey)
    {store : Spill} (digests : List Str) (usable : store.exhausted = false) :
    ∃ after, store.addBatch env.database env.limits.maxScratchBytes key digests =
      (after, some digests.length) ∧ after.exhausted = false := by
  unfold Spill.addBatch
  split
  next empty => exact ⟨store, by rw [empty, List.length_nil], usable⟩
  · obtain ⟨size, measured, within⟩ := reliable.batches store.operations
    rw [usable, if_neg Bool.false_ne_true, Spill.executeBatch]
    simp only [measured, Spill.measure, Spill.commit, if_neg (Nat.not_lt.mpr within)]
    exact ⟨_, rfl, usable⟩

theorem flush_reliable {env : StreamRuntime} (reliable : Reliable env) (key : SplitKey)
    (run : ScanRun) (usable : run.store.exhausted = false) :
    ∃ after, flush env key run = (after, true) ∧ after.store.exhausted = false ∧
      after.records = run.records ∧ after.semanticBytes = run.semanticBytes := by
  obtain ⟨store, added, open'⟩ := addBatch_reliable reliable key run.pending usable
  let after : ScanRun :=
    { run with store := store, indexed := run.indexed + run.pending.length, pending := [] }
  exact ⟨after, by rw [flush, added], open', rfl, rfl⟩

theorem parseDatasetValue_fits {env : StreamRuntime} {raw : Bytes} (fits : LineFits env raw)
    (full : isByteBlank raw = false) :
    (∃ value, lineRecord raw = some value ∧ parseDatasetValue env raw = .ok value) ∨
      (lineRecord raw = none ∧ ∃ reason, parseDatasetValue env raw = .error (.failed reason)) := by
  unfold LineFits at fits
  rw [lineRecord, full, if_neg Bool.false_ne_true] at fits ⊢
  rw [parseDatasetValue]
  cases decoded : decodeUtf8 raw with
  | none => exact .inr ⟨rfl, _, rfl⟩
  | some text =>
    rw [decoded, Option.bind_some] at fits
    rw [Option.bind_some]
    cases parsed : loads strictLoad text with
    | none => exact .inr ⟨rfl, .malformed, by simp only [parsed]⟩
    | some value =>
      obtain ⟨shallow, valid⟩ := fits value parsed
      refine .inl ⟨value, rfl, ?_⟩
      simp only [parsed, shallow, if_true, valid]
      rfl

/-- One line: the loop goes on behind a blank line or a record, and rejects anything else. -/
theorem scanLine_fits {env : StreamRuntime} (reliable : Reliable env) (key : SplitKey)
    (raw : Bytes) (physicalBytes : Nat) {run : ScanRun} (usable : run.store.exhausted = false)
    (semantic : run.semanticBytes + physicalBytes ≤ env.limits.maxSemanticBytes)
    (few : isByteBlank raw = false → run.records < env.limits.maxSemanticRecords)
    (fits : LineFits env raw) :
    (Taken env.runtime raw ∧ ∃ after, scanLine env key raw physicalBytes run = (after, none) ∧
      after.store.exhausted = false ∧
      after.records = run.records + (if isByteBlank raw then 0 else 1) ∧
      after.semanticBytes = run.semanticBytes + physicalBytes) ∨
    (¬Taken env.runtime raw ∧ ∃ after ending,
      scanLine env key raw physicalBytes run = (after, some ending) ∧ Rejects ending ∧
      after.store.exhausted = false) := by
  rw [scanLine]
  simp only [if_neg (Nat.not_lt.mpr semantic)]
  cases blank : isByteBlank raw with
  | true => exact .inl ⟨.inl blank, _, rfl, usable, rfl, rfl⟩
  | false =>
    simp only [Bool.false_eq_true, if_false, if_neg (Nat.not_le.mpr (few blank))]
    rcases parseDatasetValue_fits fits blank with ⟨value, record, parsed⟩ | ⟨none, reason, failed⟩
    · have digest : lineDigest env.runtime raw = hashSample env.runtime value := by
        rw [lineDigest, record, Option.bind_some]
      simp only [parsed]
      cases hashed : hashSample env.runtime value with
      | none =>
        refine .inr ⟨?_, _, .invalid, rfl, .inl rfl, usable⟩
        simp [Taken, blank, digest, hashed]
      | some found =>
        refine .inl ⟨.inr (by rw [digest, hashed]; rfl), ?_⟩
        simp only [addRecord]
        -- a full batch is flushed, and nothing raises there
        split
        · obtain ⟨after, flushed, open', records, bytes⟩ := flush_reliable reliable key
            { run with
              pending := run.pending ++ [found], records := run.records + 1
              semanticBytes := run.semanticBytes + physicalBytes } usable
          rw [flushed]
          exact ⟨after, rfl, open', records, bytes⟩
        · exact ⟨_, rfl, usable, rfl, rfl⟩
    · simp only [failed]
      refine .inr ⟨?_, _, _, rfl, .inr ⟨reason, rfl⟩, usable⟩
      simp [Taken, blank, lineDigest, none]

/-! ### The loop -/

/-- The whole file is passed: every line is blank or a record, and there is a record. -/
def Passes (rt : Runtime) (lines : List (Bytes × Nat)) (records : Nat) : Prop :=
  (∀ line ∈ lines, Taken rt line.1) ∧ records + filledLines lines ≠ 0

theorem scanLines_fits {env : StreamRuntime} (reliable : Reliable env) (key : SplitKey)
    (lines : List (Bytes × Nat)) (run : ScanRun) (usable : run.store.exhausted = false)
    (semantic : run.semanticBytes + (lines.map Prod.snd).sum ≤ env.limits.maxSemanticBytes)
    (few : run.records + filledLines lines ≤ env.limits.maxSemanticRecords)
    (fits : ∀ line ∈ lines, LineFits env line.1) :
    ∃ after ending,
      scanLines env key (lines.map fun line => .line line.1 line.2) run = (after, ending) ∧
      after.store.exhausted = false ∧
      ((ending = .finished ∧ Passes env.runtime lines run.records) ∨
        (Rejects ending ∧ ¬Passes env.runtime lines run.records)) := by
  induction lines generalizing run with
  | nil =>
    obtain ⟨after, flushed, open', records, _⟩ := flush_reliable reliable key run usable
    rw [List.map_nil, scanLines, finishLines, flushed]
    simp only
    split
    next none =>
      refine ⟨after, _, rfl, open', .inr ⟨.inr ⟨.malformed, rfl⟩, ?_⟩⟩
      rw [records] at none
      simp [Passes, filledLines, none]
    next some =>
      rw [records] at some
      exact ⟨after, _, rfl, open', .inl ⟨rfl, by simp, some⟩⟩
  | cons line lines ih =>
    obtain ⟨first, others⟩ := List.forall_mem_cons.mp fits
    rw [List.map_cons, List.sum_cons] at semantic
    have filled : filledLines (line :: lines) =
        (if isByteBlank line.1 then 0 else 1) + filledLines lines := by
      rw [filledLines, List.filter_cons]
      cases isByteBlank line.1
      · exact Nat.add_comm _ _
      · exact (Nat.zero_add _).symm
    rw [List.map_cons, scanLines]
    rcases scanLine_fits reliable key line.1 line.2 usable (by omega)
      (fun full => by rw [filled, full] at few; simp at few; omega) first with
      ⟨taken, after, passed, open', records, bytes⟩ | ⟨refused, after, ending, ended, rejects, open'⟩
    · rw [passed]
      simp only
      have passes : Passes env.runtime (line :: lines) run.records ↔
          Passes env.runtime lines after.records := by
        rw [Passes, Passes, List.forall_mem_cons, filled, records, Nat.add_assoc]
        exact and_congr_left fun _ => and_iff_right taken
      rw [passes]
      exact ih after open' (by omega) (by rw [filled] at few; omega) others
    · rw [ended]
      refine ⟨after, ending, rfl, open', .inr ⟨rejects, fun passes => ?_⟩⟩
      exact refused ((List.forall_mem_cons.mp passes.1).1)

/-! ### The scan -/

theorem finishScan_verified {source : ArtifactSource} (verified : ∀ n, source.verifies n = true)
    (attempt : Nat) (key : SplitKey) (run : ScanRun) (state : ScanState) (reason : ScanReason)
    (scratchBytes : Nat) :
    ∃ scan, finishScan source attempt key run state reason scratchBytes = .ok (run.store, scan) ∧
      scan.key = key ∧ scan.completeness.state = state :=
  ⟨_, by rw [finishScan, if_pos (verified attempt)], rfl, rfl⟩

/-- A scan of a file within the limits returns; it is complete exactly when the file passes. -/
theorem scanDataset_fits {env : StreamRuntime} (reliable : Reliable env) (key : SplitKey)
    {source : ArtifactSource} (within : WithinLimits env source) {start : Spill}
    (usable : start.exhausted = false) :
    ∃ store scan, scanDataset env key source start = .ok (store, scan) ∧
      store.exhausted = false ∧ scan.key = key ∧
      (scan.completeness.isComplete = true ↔
        Passes env.runtime (contentLines source.content) 0) := by
  have events := binaryLines_all env.limits source.reads 0 [] within.readable
    (by rw [Nat.zero_add]; exact within.integrity) within.short
  have bytes := linesFrom_bytes [] source.content
  rw [List.length_nil, Nat.zero_add] at bytes
  obtain ⟨after, ending, scanned, open', outcome⟩ := scanLines_fits reliable key
    (contentLines source.content) ⟨start, 0, 0, [], 0⟩ usable
    (by rw [Nat.zero_add, contentLines, bytes]; exact within.semantic)
    (by rw [Nat.zero_add]; exact within.few) within.fits
  have lines : binaryLines env.limits 0 [] 0 source.reads =
      (contentLines source.content).map fun line => .line line.1 line.2 := events
  rw [scanDataset, usable]
  simp only [Bool.false_eq_true, if_false, lines, scanned]
  have discards : ∀ reason, ∃ store scan,
      discardSplit env source 0 key after reason = .ok (store, scan) ∧
      store.exhausted = false ∧ scan.key = key ∧ scan.completeness.state = .failed := by
    intro reason
    rw [discardSplit, Spill.deleteSplit, if_pos (reliable.deletions _)]
    obtain ⟨scan, finished, keyed, state⟩ := finishScan_verified within.verified 0 key _ _ reason _
    exact ⟨_, scan, finished, open', keyed, state⟩
  rcases outcome with ⟨rfl, passes⟩ | ⟨rejects, refused⟩
  · obtain ⟨scan, finished, keyed, state⟩ := finishScan_verified within.verified 0 key after
      .complete .complete after.store.peakBytes
    rw [handleEnding, finished]
    refine ⟨_, scan, rfl, open', keyed, iff_of_true ?_ passes⟩
    rw [ScanCompleteness.isComplete, state]
    rfl
  · have failed : ∃ store scan, handleEnding env source key after ending = .ok (store, scan) ∧
        store.exhausted = false ∧ scan.key = key ∧ scan.completeness.state = .failed := by
      rcases rejects with rfl | ⟨reason, rfl⟩
      · exact discards .malformed
      · rw [handleEnding, if_pos (show (ScanStop.failed reason).state = .failed from rfl)]
        exact discards _
    obtain ⟨store, scan, returned, open', keyed, state⟩ := failed
    refine ⟨store, scan, returned, open', keyed, iff_of_false ?_ refused⟩
    rw [ScanCompleteness.isComplete, state]
    decide

theorem scanSplits_fits {env : StreamRuntime} (reliable : Reliable env) {sources : DatasetSources}
    (within : ∀ key, WithinLimits env (sources key)) (keys : List SplitKey) (start : Spill)
    (usable : start.exhausted = false) :
    ∃ store scans, scanSplits env sources keys start = .ok (store, scans) ∧
      ∀ scan ∈ scans, scan.completeness.isComplete = true ↔
        Passes env.runtime (contentLines (sources scan.key).content) 0 := by
  induction keys generalizing start with
  | nil => exact ⟨start, [], rfl, by simp⟩
  | cons key keys ih =>
    obtain ⟨middle, scan, scanned, open', rfl, complete⟩ :=
      scanDataset_fits reliable key (within key) usable
    obtain ⟨store, scans, others, rest⟩ := ih middle open'
    refine ⟨store, scan :: scans, ?_, List.forall_mem_cons.mpr ⟨complete, rest⟩⟩
    rw [scanSplits, scanned]
    simp only [bind, Except.bind, others]

/-! ### The context -/

theorem mem_splitKeys (key : SplitKey) : key ∈ splitKeys := by
  obtain ⟨arm, split⟩ := key
  cases arm <;> cases split <;> decide

/-- The scan of a key in a context of a run over the four splits. -/
theorem scan_of_keyed (context : DatasetScanAuditContext)
    (keyed : context.scans.map DatasetSplitScan.key = splitKeys) (key : SplitKey) :
    ∃ scan, context.scan key = .ok scan := by
  have found : ∀ scans : List DatasetSplitScan, (scans.map DatasetSplitScan.key).Nodup →
      key ∈ scans.map DatasetSplitScan.key →
      ∃ scan, (scans.filter fun scan => scan.key = key) = [scan] := by
    intro scans distinct member
    induction scans with
    | nil => cases member
    | cons scan scans ih =>
      obtain ⟨fresh, distinct⟩ := List.nodup_cons.mp distinct
      by_cases same : scan.key = key
      · refine ⟨scan, ?_⟩
        rw [List.filter_cons_of_pos (by simpa using same), List.filter_eq_nil_iff.mpr]
        intro other present equal
        rw [same, ← of_decide_eq_true equal] at fresh
        exact fresh (List.mem_map_of_mem present)
      · rw [List.map_cons, List.mem_cons] at member
        rw [List.filter_cons_of_neg (by simpa using same)]
        exact ih distinct (member.resolve_left (Ne.symm same))
  obtain ⟨scan, only⟩ := found context.scans (by rw [keyed]; decide)
    (by rw [keyed]; exact mem_splitKeys key)
  exact ⟨scan, by rw [DatasetScanAuditContext.scan, only]⟩

/-- A context over files within the limits is opened; a split is complete in it exactly when its
file passes. -/
theorem streamDatasetAuditContext_fits {env : StreamRuntime} (reliable : Reliable env)
    {schemaBytes : Nat} (schema : schemaBytes ≤ env.limits.maxScratchBytes)
    {sources : DatasetSources} (within : ∀ key, WithinLimits env (sources key)) :
    ∃ context, streamDatasetAuditContext env schemaBytes sources = .ok context ∧
      ∀ key, ∃ scan, context.scan key = .ok scan ∧ (scan.completeness.isComplete = true ↔
        Passes env.runtime (contentLines (sources key).content) 0) := by
  obtain ⟨store, scans, scanned, complete⟩ := scanSplits_fits reliable within splitKeys
    (Spill.initial schemaBytes) rfl
  have leaves := scanSplits_leaves (by decide) rfl (fun _ _ _ => rfl) scanned
  refine ⟨⟨scans, store, env.limits.maxHashPreviews⟩, ?_, fun key => ?_⟩
  · rw [streamDatasetAuditContext, if_neg (Nat.not_lt.mpr schema), scanned]
    rfl
  · obtain ⟨scan, found⟩ := scan_of_keyed
      ⟨scans, store, env.limits.maxHashPreviews⟩ leaves.keyed key
    obtain ⟨member, rfl⟩ := scan_ok found
    exact ⟨scan, found, complete scan member⟩

end ClaimCI
