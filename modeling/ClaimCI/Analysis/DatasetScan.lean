import ClaimCI.Analysis.BinaryLines
import ClaimCI.Analysis.StreamingDataset

/-!
# What a scan leaves in the store

One step of the store adds a batch to its own split or leaves the table alone; a scan adds the
digests of a first part of the records of its file, and nothing if it fails.
-/

open Python
open Python.CountTable (Adds)

namespace ClaimCI

/-! ### The records of a file -/

/-- The record on a line: a blank line holds none. -/
def lineRecord (raw : Bytes) : Option Json :=
  if isByteBlank raw then none else (decodeUtf8 raw).bind (loads strictLoad)

/-- The records of a file, one to a line. -/
def recordsIn (content : Bytes) : List Json :=
  (contentLines content).filterMap fun line => lineRecord line.1

def lineDigest (rt : Runtime) (raw : Bytes) : Option Str := (lineRecord raw).bind (hashSample rt)

def lineDigests (rt : Runtime) (lines : List (Bytes × Nat)) : List Str :=
  lines.filterMap fun line => lineDigest rt line.1

/-- The digests of the records of a file, in order. -/
def digestsIn (rt : Runtime) (content : Bytes) : List Str := lineDigests rt (contentLines content)

theorem digestsIn_eq (rt : Runtime) (content : Bytes) :
    digestsIn rt content = (recordsIn content).filterMap (hashSample rt) := by
  rw [recordsIn, List.filterMap_filterMap]
  rfl

/-! ### Steps of the store -/

theorem sortedHashes_perm (digests : List Str) : (sortedHashes digests).Perm digests.dedup :=
  List.perm_insertionSort _ _

/-- The parameters of a batch count every digest once, with its multiplicity. -/
theorem batchParameters_sum (digests : List Str) (digest : Str) :
    (((batchParameters digests).filter fun pair => pair.1 = digest).map Prod.snd).sum =
      digests.count digest := by
  have counted : ∀ distinct : List Str, distinct.Nodup →
      (((distinct.map fun d => (d, digests.count d)).filter fun pair => pair.1 = digest).map
        Prod.snd).sum = if digest ∈ distinct then digests.count digest else 0 := by
    intro distinct nodup
    induction distinct with
    | nil => rfl
    | cons d rest ih =>
      obtain ⟨fresh, nodup⟩ := List.nodup_cons.mp nodup
      by_cases same : d = digest
      · subst same
        simp [ih nodup, fresh]
      · simp [ih nodup, same, Ne.symm same]
  have distinct : (sortedHashes digests).Nodup :=
    (sortedHashes_perm digests).nodup_iff.mpr (List.nodup_dedup digests)
  rw [batchParameters, counted _ distinct]
  by_cases present : digest ∈ digests
  · rw [if_pos ((sortedHashes_perm digests).mem_iff.mpr (List.mem_dedup.mpr present))]
  · rw [List.count_eq_zero_of_not_mem present, ite_self]

theorem adds_batch (key : SplitKey) (digests : List Str) (table : SpillTable) :
    Adds key digests table (table.upsertAll key (batchParameters digests)) := by
  intro other digest
  rw [CountTable.multiplicity_upsertAll, batchParameters_sum, count_of_lawful]

/-- A measurement after a commit may find the files over budget. -/
def OverBudget (db : Database) (maximumBytes : Nat) : Prop :=
  ∃ operation size, db.batch operation = .measured size ∧ maximumBytes < size

/-- No transaction is open, and since the start these digests were added to the split. -/
structure Synced (key : SplitKey) (start : SpillTable) (stored : List Str) (store : Spill) :
    Prop where
  clean : store.working = store.committed
  adds : Adds key stored start store.committed

/-- A transaction commits its rows and is within the budget, or it fails: before the commit, or
after it for the sake of the measurement. -/
theorem executeBatch_cases (db : Database) (maximumBytes : Nat) (key : SplitKey)
    (parameters : List (Str × Nat)) (store : Spill) :
    (∃ after, store.executeBatch db maximumBytes key parameters = (after, true) ∧
      after.working = after.committed ∧
      after.committed = store.working.upsertAll key parameters) ∨
    (∃ after, store.executeBatch db maximumBytes key parameters = (after, false) ∧
      (after.committed = store.committed ∨ OverBudget db maximumBytes ∧
        after.committed = store.working.upsertAll key parameters)) := by
  unfold Spill.executeBatch
  cases outcome : db.batch store.operations with
  | statementRaised position => exact .inr ⟨_, rfl, .inl rfl⟩
  | commitRaised => exact .inr ⟨_, rfl, .inl rfl⟩
  | measured size =>
    let table := store.working.upsertAll key parameters
    let peak := max store.peakBytes size
    by_cases exceeded : maximumBytes < size
    · refine .inr ⟨⟨table, table, true, peak, store.operations + 1⟩, ?_,
        .inr ⟨⟨_, size, outcome, exceeded⟩, rfl⟩⟩
      simp only [Spill.measure, Spill.commit, if_pos exceeded, table, peak]
    · refine .inl ⟨⟨table, table, store.exhausted, peak, store.operations + 1⟩, ?_, rfl, rfl⟩
      simp only [Spill.measure, Spill.commit, if_neg exceeded, table, peak]

/-- A batch is added, or the table is as before; a batch that fails is added all the same when
only the measurement after its commit raises. -/
theorem addBatch_cases (db : Database) (maximumBytes : Nat) (key : SplitKey) {start : SpillTable}
    {stored : List Str} {store : Spill} (digests : List Str)
    (synced : Synced key start stored store) :
    (∃ after, store.addBatch db maximumBytes key digests = (after, some digests.length) ∧
      Synced key start (stored ++ digests) after) ∨
    (∃ after, store.addBatch db maximumBytes key digests = (after, none) ∧
      (Synced key start stored after ∨
        OverBudget db maximumBytes ∧ Synced key start (stored ++ digests) after)) := by
  have added : Adds key (stored ++ digests) start
      (store.working.upsertAll key (batchParameters digests)) := by
    rw [synced.clean]
    exact synced.adds.trans (adds_batch key digests store.committed)
  by_cases empty : digests = []
  · subst empty
    exact .inl ⟨store, by simp [Spill.addBatch], by rwa [List.append_nil]⟩
  -- a store that was exhausted takes no more batches
  · by_cases exhausted : store.exhausted = true
    · exact .inr ⟨store, by simp [Spill.addBatch, empty, exhausted], .inl synced⟩
    · rcases executeBatch_cases db maximumBytes key (batchParameters digests) store with
        ⟨after, executed, clean, table⟩ | ⟨after, executed, table⟩
      · refine .inl ⟨after, by simp [Spill.addBatch, empty, exhausted, executed], clean, ?_⟩
        rwa [table]
      · refine .inr ⟨_, by simp [Spill.addBatch, empty, exhausted, executed]; rfl, ?_⟩
        -- the batch failed: what it wrote is rolled back, or the measurement after it raised
        rcases table with table | ⟨exceeded, table⟩
        · exact .inl ⟨rfl, by simpa [Spill.rollback, table] using synced.adds⟩
        · exact .inr ⟨exceeded, rfl, by simpa [Spill.rollback, table] using added⟩

/-- A deletion leaves the split without rows. -/
theorem deleteSplit_ok {db : Database} {key : SplitKey} {start : SpillTable} {stored : List Str}
    {store after : Spill} (synced : Synced key start stored store)
    (fresh : ∀ digest, start.multiplicity key digest = 0)
    (h : store.deleteSplit db key = some after) : Synced key start [] after := by
  unfold Spill.deleteSplit at h
  split at h
  · obtain rfl := Option.some.inj h
    refine ⟨rfl, ?_⟩
    rw [synced.clean]
    exact synced.adds.deletePartition fresh
  · cases h

/-! ### The scan -/

/-- The digests seen are those stored and those pending, and the counters agree. -/
def Progress (key : SplitKey) (start : SpillTable) (seen : List Str) (run : ScanRun) : Prop :=
  ∃ stored, seen = stored ++ run.pending ∧ Synced key start stored run.store ∧
    run.indexed = stored.length ∧ run.records = seen.length

/-- A first part of the digests seen is stored, and the counter agrees unless a measurement after
a commit raised. -/
def Interrupted (env : StreamRuntime) (key : SplitKey) (start : SpillTable) (seen : List Str)
    (run : ScanRun) : Prop :=
  ∃ stored, stored <+: seen ∧ Synced key start stored run.store ∧ run.records = seen.length ∧
    (run.indexed = stored.length ∨ OverBudget env.database env.limits.maxScratchBytes) ∧
    run.indexed ≤ run.records

/-- Either the pending digests are stored and counted, or the scan is interrupted. -/
theorem flush_cases (env : StreamRuntime) (key : SplitKey) {start : SpillTable} {seen : List Str}
    {run : ScanRun} (progress : Progress key start seen run) :
    (∃ after, flush env key run = (after, true) ∧ Progress key start seen after ∧
      after.pending = []) ∨
    (∃ after, flush env key run = (after, false) ∧ Interrupted env key start seen after) := by
  obtain ⟨stored, parts, synced, indexed, records⟩ := progress
  rcases addBatch_cases env.database env.limits.maxScratchBytes key run.pending synced with
    ⟨store, added, synced⟩ | ⟨store, failed, outcome⟩
  · let after : ScanRun :=
      { run with store := store, indexed := run.indexed + run.pending.length, pending := [] }
    refine .inl ⟨after, by rw [flush, added], ⟨seen, ?_, ?_, ?_, records⟩, rfl⟩
    · rw [List.append_nil]
    · rwa [← parts] at synced
    · rw [parts, List.length_append, ← indexed]
  · refine .inr ⟨{ run with store := store }, by rw [flush, failed], ?_⟩
    have counted : run.indexed ≤ run.records := by
      rw [records, parts, List.length_append]
      omega
    rcases outcome with synced | ⟨exceeded, synced⟩
    · exact ⟨stored, parts ▸ List.prefix_append _ _, synced, records, .inl indexed, counted⟩
    · refine ⟨seen, List.prefix_rfl, ?_, records, .inr exceeded, counted⟩
      rwa [← parts] at synced

/-- The parser reads the record on a line. -/
theorem parseDatasetValue_ok {env : StreamRuntime} {raw : Bytes} {value : Json}
    (h : parseDatasetValue env raw = .ok value) (full : isByteBlank raw = false) :
    lineRecord raw = some value := by
  unfold parseDatasetValue at h
  rw [lineRecord, if_neg (by simp [full])]
  cases decoded : decodeUtf8 raw with
  | none => rw [decoded] at h; cases h
  | some text =>
    rw [decoded] at h
    simp only at h
    rw [Option.bind_some]
    cases parsed : loads strictLoad text with
    | none => rw [parsed] at h; cases h
    | some found =>
      rw [parsed] at h
      simp only at h
      split at h
      · obtain ⟨_, _, h⟩ := bind_ok_iff.mp h
        rw [Except.ok.inj h]
      · cases h

/-- A line that is passed: blank, or a record with a digest. -/
def Taken (rt : Runtime) (raw : Bytes) : Prop :=
  isByteBlank raw = true ∨ (lineDigest rt raw).isSome = true

/-- One line: the loop goes on with the digest of its record, if it holds one, or it ends. -/
theorem scanLine_cases (env : StreamRuntime) (key : SplitKey) {start : SpillTable}
    {seen : List Str} {run : ScanRun} (progress : Progress key start seen run) (raw : Bytes)
    (physicalBytes : Nat) :
    (∃ after, scanLine env key raw physicalBytes run = (after, none) ∧
      Taken env.runtime raw ∧
      Progress key start (seen ++ (lineDigest env.runtime raw).toList) after) ∨
    (∃ after ending, scanLine env key raw physicalBytes run = (after, some ending) ∧
      ((Progress key start seen after ∧ ((∃ stop, ending = .stopped stop) ∨ ending = .invalid)) ∨
        (ending = .scratchFull ∧ Interrupted env key start
          (seen ++ (lineDigest env.runtime raw).toList) after))) := by
  unfold scanLine
  simp only
  split
  · exact .inr ⟨_, _, rfl, .inl ⟨progress, .inl ⟨_, rfl⟩⟩⟩
  · split
    next blank =>
      refine .inl ⟨_, rfl, .inl blank, ?_⟩
      have none : lineDigest env.runtime raw = none := by simp [lineDigest, lineRecord, blank]
      rw [none, Option.toList_none, List.append_nil]
      exact progress
    next full =>
      rw [Bool.not_eq_true] at full
      split
      · exact .inr ⟨_, _, rfl, .inl ⟨progress, .inl ⟨_, rfl⟩⟩⟩
      · split
        · exact .inr ⟨_, _, rfl, .inl ⟨progress, .inl ⟨_, rfl⟩⟩⟩
        next value parsed =>
          have record := parseDatasetValue_ok parsed full
          split
          · exact .inr ⟨_, _, rfl, .inl ⟨progress, .inr rfl⟩⟩
          next digest hashed =>
            have found : lineDigest env.runtime raw = some digest := by
              rw [lineDigest, record, Option.bind_some, hashed]
            rw [found, Option.toList_some]
            obtain ⟨stored, parts, synced, indexed, records⟩ := progress
            -- the digest joins the pending ones before the batch may be flushed
            let noted : ScanRun := { run with
              pending := run.pending ++ [digest], records := run.records + 1
              semanticBytes := run.semanticBytes + physicalBytes }
            have grown : Progress key start (seen ++ [digest]) noted := by
              refine ⟨stored, ?_, synced, indexed, ?_⟩
              · rw [parts, List.append_assoc]
              · rw [List.length_append, ← records]
                rfl
            unfold addRecord
            simp only
            split
            · rcases flush_cases env key grown with ⟨after, flushed, progress, _⟩ |
                ⟨after, failed, interrupted⟩
              · refine .inl ⟨after, ?_, .inr (by rw [found]; rfl), progress⟩
                simp only [noted] at flushed
                rw [flushed]
              · refine .inr ⟨after, .scratchFull, ?_, .inr ⟨rfl, interrupted⟩⟩
                simp only [noted] at failed
                rw [failed]
            · exact .inl ⟨_, rfl, .inr (by rw [found]; rfl), grown⟩

/-- What the loop has stored and counted when it ends. -/
inductive Ended (env : StreamRuntime) (key : SplitKey) (start : SpillTable) (seen : List Str)
    (lines : List (Bytes × Nat)) : ScanRun × Ending → Prop where
  | finished (run : ScanRun) (taken : ∀ line ∈ lines, Taken env.runtime line.1)
      (pending : run.pending = [])
      (progress : Progress key start (seen ++ lineDigests env.runtime lines) run)
      (nonempty : run.records ≠ 0) : Ended env key start seen lines (run, .finished)
  | scratchFull (run : ScanRun) (before : List Str)
      (first : before <+: seen ++ lineDigests env.runtime lines)
      (interrupted : Interrupted env key start before run) :
      Ended env key start seen lines (run, .scratchFull)
  | stopped (run : ScanRun) (before : List Str) (stop : ScanStop)
      (first : before <+: seen ++ lineDigests env.runtime lines)
      (progress : Progress key start before run) : Ended env key start seen lines (run, .stopped stop)
  | invalid (run : ScanRun) (before : List Str)
      (first : before <+: seen ++ lineDigests env.runtime lines)
      (progress : Progress key start before run) : Ended env key start seen lines (run, .invalid)

theorem lineDigests_cons (rt : Runtime) (raw : Bytes) (physicalBytes : Nat)
    (lines : List (Bytes × Nat)) :
    lineDigests rt ((raw, physicalBytes) :: lines) =
      (lineDigest rt raw).toList ++ lineDigests rt lines := by
  rw [lineDigests, List.filterMap_cons]
  cases lineDigest rt raw with
  | none => rfl
  | some digest => rfl

/-- What ends a loop behind a line ends the loop before it. -/
theorem Ended.cons {env : StreamRuntime} {key : SplitKey} {start : SpillTable} {seen : List Str}
    {raw : Bytes} {physicalBytes : Nat} {lines : List (Bytes × Nat)} {outcome : ScanRun × Ending}
    (taken : Taken env.runtime raw)
    (h : Ended env key start (seen ++ (lineDigest env.runtime raw).toList) lines outcome) :
    Ended env key start seen ((raw, physicalBytes) :: lines) outcome := by
  have digests : seen ++ lineDigests env.runtime ((raw, physicalBytes) :: lines) =
      seen ++ (lineDigest env.runtime raw).toList ++ lineDigests env.runtime lines := by
    rw [lineDigests_cons, List.append_assoc]
  cases h with
  | finished run others pending progress nonempty =>
    rw [← digests] at progress
    exact .finished run (List.forall_mem_cons.mpr ⟨taken, others⟩) pending progress nonempty
  | scratchFull run before first interrupted =>
    rw [← digests] at first
    exact .scratchFull run before first interrupted
  | stopped run before stop first progress =>
    rw [← digests] at first
    exact .stopped run before stop first progress
  | invalid run before first progress =>
    rw [← digests] at first
    exact .invalid run before first progress

/-- The run of the loop over the lines. -/
theorem scanLines_ended (env : StreamRuntime) (key : SplitKey) {start : SpillTable}
    {events : List LineEvent} {lines : List (Bytes × Nat)} (gives : Gives events lines)
    {seen : List Str} {run : ScanRun} (progress : Progress key start seen run) :
    Ended env key start seen lines (scanLines env key events run) := by
  -- induction on the events; `seen` are the digests of the lines before them
  induction gives generalizing seen run with
  -- the content is at its end: what is pending is flushed
  | all =>
    rw [scanLines, finishLines]
    rcases flush_cases env key progress with ⟨after, flushed, progress, pending⟩ |
      ⟨after, failed, interrupted⟩
    · rw [flushed]
      simp only
      have whole : seen ++ lineDigests env.runtime [] = seen := List.append_nil seen
      split
      · exact .stopped after seen _ (List.prefix_append _ _) progress
      next nonempty => exact .finished after (by simp) pending (by rwa [whole]) nonempty
    · rw [failed]
      exact .scratchFull after seen (List.prefix_append _ _) interrupted
  | stop reason lines =>
    rw [scanLines]
    exact .stopped run seen reason (List.prefix_append _ _) progress
  | failed lines =>
    rw [scanLines]
    exact .invalid run seen (List.prefix_append _ _) progress
  | line raw physicalBytes events lines rest ih =>
    rw [scanLines]
    -- the line was counted or ends the scan
    rcases scanLine_cases env key progress raw physicalBytes with
      ⟨after, passed, taken, progress⟩ | ⟨after, ending, ended, outcome⟩
    · rw [passed]
      exact (ih progress).cons taken
    · rw [ended]
      rcases outcome with ⟨progress, ⟨stop, rfl⟩ | rfl⟩ | ⟨rfl, interrupted⟩
      · exact .stopped after seen stop (List.prefix_append _ _) progress
      -- the record is malformed, the table is full, or the scan is interrupted
      · exact .invalid after seen (List.prefix_append _ _) progress
      · refine .scratchFull after _ ?_ interrupted
        rw [lineDigests_cons, ← List.append_assoc]
        exact List.prefix_append _ _

/-- What a scan that returned says about the store it leaves. -/
structure ScanLeaves (env : StreamRuntime) (key : SplitKey) (source : ArtifactSource)
    (start : SpillTable) (store : Spill) (scan : DatasetSplitScan) (stored : List Str) : Prop where
  keyed : scan.key = key
  synced : Synced key start stored store
  first : stored <+: digestsIn env.runtime source.content
  counted : scan.indexedRecords = stored.length ∨
    OverBudget env.database env.limits.maxScratchBytes
  failed : scan.completeness.state = .failed → stored = []
  complete : scan.completeness.isComplete = true →
    stored = digestsIn env.runtime source.content ∧ stored ≠ [] ∧
      scan.completeness.recordsScanned = stored.length ∧
      ∀ line ∈ contentLines source.content, Taken env.runtime line.1

theorem finishScan_ok {source : ArtifactSource} {attempt : Nat} {key : SplitKey} {run : ScanRun}
    {state : ScanState} {reason : ScanReason} {scratchBytes : Nat} {store : Spill}
    {scan : DatasetSplitScan}
    (h : finishScan source attempt key run state reason scratchBytes = .ok (store, scan)) :
    store = run.store ∧ scan = ⟨key, source.path, source.sha256,
      ⟨state, reason, run.records, run.semanticBytes, scratchBytes⟩, run.indexed⟩ := by
  unfold finishScan at h
  split at h
  · obtain ⟨rfl, rfl⟩ := Prod.mk.inj (Except.ok.inj h)
    exact ⟨rfl, rfl⟩
  · cases h

/-- A split that is discarded has nothing stored, and its scan failed. -/
theorem discardSplit_leaves {env : StreamRuntime} {source : ArtifactSource} {attempt : Nat}
    {key : SplitKey} {start : SpillTable} {stored : List Str} {run : ScanRun} {reason : ScanReason}
    {store : Spill} {scan : DatasetSplitScan} (synced : Synced key start stored run.store)
    (fresh : ∀ digest, start.multiplicity key digest = 0)
    (h : discardSplit env source attempt key run reason = .ok (store, scan)) :
    ScanLeaves env key source start store scan [] := by
  unfold discardSplit at h
  split at h
  · cases h
  next deleted found =>
    obtain ⟨rfl, rfl⟩ := finishScan_ok h
    exact ⟨rfl, deleteSplit_ok synced fresh found, List.nil_prefix, .inl rfl, fun _ => rfl,
      fun complete => by cases complete⟩

/-- A scan that ends early leaves a first part of the digests of the file. -/
theorem finishScan_leaves {env : StreamRuntime} {source : ArtifactSource} {attempt : Nat}
    {key : SplitKey} {start : SpillTable} {before : List Str} {run : ScanRun} {state : ScanState}
    {reason : ScanReason} {scratchBytes : Nat} {store : Spill} {scan : DatasetSplitScan}
    (interrupted : Interrupted env key start before run)
    (first : before <+: digestsIn env.runtime source.content)
    (partly : state ≠ .complete) (kept : state ≠ .failed)
    (h : finishScan source attempt key run state reason scratchBytes = .ok (store, scan)) :
    ∃ stored, ScanLeaves env key source start store scan stored := by
  obtain ⟨rfl, rfl⟩ := finishScan_ok h
  obtain ⟨stored, early, synced, _, counted, _⟩ := interrupted
  refine ⟨stored, rfl, synced, early.trans first, counted, fun failed => absurd failed kept, ?_⟩
  intro complete
  exact absurd (by simpa [ScanCompleteness.isComplete] using complete) partly

theorem Progress.interrupted {env : StreamRuntime} {key : SplitKey} {start : SpillTable}
    {seen : List Str} {run : ScanRun} (h : Progress key start seen run) :
    Interrupted env key start seen run := by
  obtain ⟨stored, parts, synced, indexed, records⟩ := h
  refine ⟨stored, parts ▸ List.prefix_append _ _, synced, records, .inl indexed, ?_⟩
  rw [records, parts, List.length_append]
  omega

/-- A scan that returns leaves a first part of the digests of its file: none when it failed, all
of them when it is complete. -/
theorem handleEnding_leaves {env : StreamRuntime} {source : ArtifactSource} {key : SplitKey}
    {start : SpillTable} (fresh : ∀ digest, start.multiplicity key digest = 0)
    {outcome : ScanRun × Ending}
    (ended : Ended env key start [] (contentLines source.content) outcome)
    {store : Spill} {scan : DatasetSplitScan}
    (h : handleEnding env source key outcome.1 outcome.2 = .ok (store, scan)) :
    ∃ stored, ScanLeaves env key source start store scan stored := by
  -- what is in the table after the handler, for each way in which the scan ends
  cases ended with
  | finished run taken pending progress nonempty =>
    rw [List.nil_append] at progress
    rw [handleEnding] at h
    obtain ⟨stored, parts, synced, indexed, records⟩ := progress
    split at h
    next result found =>
      obtain rfl := Except.ok.inj h
      obtain ⟨rfl, rfl⟩ := finishScan_ok found
      have whole : stored = digestsIn env.runtime source.content := by
        rw [digestsIn, parts, pending, List.append_nil]
      -- the scan ended at the end, so what is stored is what the content holds
      refine ⟨stored, rfl, synced, whole ▸ List.prefix_rfl, .inl indexed, nofun, ?_⟩
      intro _
      have counted : run.records = stored.length := by rw [records, whole]; rfl
      refine ⟨whole, ?_, counted, taken⟩
      intro empty
      rw [empty] at counted
      exact nonempty counted
    · exact ⟨[], discardSplit_leaves synced fresh h⟩
  | scratchFull run before first interrupted =>
    rw [handleEnding] at h
    exact finishScan_leaves interrupted first (by decide) (by decide) h
  | invalid run before first progress =>
    obtain ⟨stored, _, synced, _⟩ := progress
    exact ⟨[], discardSplit_leaves synced fresh h⟩
  -- a stopped scan keeps what it counted, unless the stop discards it
  | stopped run before stop first progress =>
    rw [handleEnding] at h
    split at h
    · obtain ⟨stored, _, synced, _⟩ := progress
      exact ⟨[], discardSplit_leaves synced fresh h⟩
    next kept =>
      rcases flush_cases env key progress with ⟨after, flushed, progress, _⟩ |
        ⟨after, failed, interrupted⟩
      · rw [flushed] at h
        exact finishScan_leaves progress.interrupted first stop.unfinished kept h
      · rw [failed] at h
        exact finishScan_leaves interrupted first (by decide) (by decide) h

theorem scanDataset_leaves {env : StreamRuntime} {key : SplitKey} {source : ArtifactSource}
    {start store : Spill} {scan : DatasetSplitScan} (clean : start.working = start.committed)
    (fresh : ∀ digest, start.committed.multiplicity key digest = 0)
    (h : scanDataset env key source start = .ok (store, scan)) :
    ∃ stored, ScanLeaves env key source start.committed store scan stored := by
  have progress : Progress key start.committed [] ⟨start, 0, 0, [], 0⟩ :=
    ⟨[], rfl, ⟨clean, .refl key _⟩, rfl, rfl⟩
  refine handleEnding_leaves fresh ?_ h
  split
  · exact .stopped _ [] _ (List.prefix_append _ _) progress
  · exact scanLines_ended env key (binaryLines_gives env.limits source.reads 0 []) progress

end ClaimCI
