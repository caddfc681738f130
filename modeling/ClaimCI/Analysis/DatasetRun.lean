import ClaimCI.Analysis.DatasetScan
import ClaimCI.Parsing

/-!
# Runs over the splits

The scans of the splits share one store. After each of them the rows of a split are the digests
its scan left, and, unless a measurement after a commit raises, as many as the scan counted.
-/

open Python

namespace ClaimCI

/-! ### The run -/

/-- The rows of the scanned split, and what the scan says about them. -/
structure StoredScan (env : StreamRuntime) (source : ArtifactSource) (table : SpillTable)
    (scan : DatasetSplitScan) (stored : List Str) : Prop where
  holds : table.Holds scan.key stored
  first : stored <+: digestsIn env.runtime source.content
  counted : scan.indexedRecords = stored.length ∨
    OverBudget env.database env.limits.maxScratchBytes
  failed : scan.completeness.state = .failed → stored = []
  complete : scan.completeness.isComplete = true →
    stored = digestsIn env.runtime source.content ∧ stored ≠ [] ∧
      scan.completeness.recordsScanned = stored.length ∧
      ∀ line ∈ contentLines source.content, Taken env.runtime line.1

/-- What a run over some splits leaves in the store. -/
structure RunLeaves (env : StreamRuntime) (sources : DatasetSources) (keys : List SplitKey)
    (start store : Spill) (scans : List DatasetSplitScan) : Prop where
  keyed : scans.map DatasetSplitScan.key = keys
  clean : store.working = store.committed
  others : ∀ key, key ∉ keys → ∀ digest,
    store.committed.multiplicity key digest = start.committed.multiplicity key digest
  stored : ∀ scan ∈ scans, ∃ stored, StoredScan env (sources scan.key) store.committed scan stored

theorem ScanLeaves.stored {env : StreamRuntime} {key : SplitKey} {source : ArtifactSource}
    {start : SpillTable} {store : Spill} {scan : DatasetSplitScan} {stored : List Str}
    (h : ScanLeaves env key source start store scan stored)
    (fresh : ∀ digest, start.multiplicity key digest = 0) :
    StoredScan env source store.committed scan stored := by
  refine ⟨?_, h.first, h.counted, h.failed, h.complete⟩
  rw [h.keyed]
  exact h.synced.adds.holds fresh

/-- One scan after the other, each over the rows of its own split. -/
theorem scanSplits_leaves {env : StreamRuntime} {sources : DatasetSources} {keys : List SplitKey}
    {start store : Spill} {scans : List DatasetSplitScan} (distinct : keys.Nodup)
    (clean : start.working = start.committed)
    (fresh : ∀ key ∈ keys, ∀ digest, start.committed.multiplicity key digest = 0)
    (h : scanSplits env sources keys start = .ok (store, scans)) :
    RunLeaves env sources keys start store scans := by
  induction keys generalizing start store scans with
  | nil =>
    obtain ⟨rfl, rfl⟩ := Prod.mk.inj (Except.ok.inj h)
    exact ⟨rfl, clean, fun _ _ _ => rfl, by simp⟩
  | cons key keys ih =>
    rw [scanSplits] at h
    obtain ⟨⟨middle, scan⟩, scanned, h⟩ := bind_ok_iff.mp h
    obtain ⟨⟨last, rest⟩, others, h⟩ := bind_ok_iff.mp h
    obtain ⟨rfl, rfl⟩ := Prod.mk.inj (Except.ok.inj h)
    obtain ⟨notAgain, distinct⟩ := List.nodup_cons.mp distinct
    obtain ⟨freshKey, freshRest⟩ := List.forall_mem_cons.mp fresh
    obtain ⟨stored, leaves⟩ := scanDataset_leaves clean freshKey scanned
    -- a scan changes the rows of its own split only
    have untouched : ∀ other, other ≠ key → ∀ digest,
        middle.committed.multiplicity other digest = start.committed.multiplicity other digest :=
      fun other different digest => leaves.synced.adds.other different digest
    have run := ih distinct leaves.synced.clean (by
      intro other member digest
      rw [untouched other (fun same => notAgain (same ▸ member)) digest]
      exact freshRest other member digest) others
    refine ⟨by rw [List.map_cons, leaves.keyed, run.keyed], run.clean, ?_, ?_⟩
    · intro other absent digest
      rw [List.mem_cons, not_or] at absent
      rw [run.others other absent.2, untouched other absent.1]
    · intro found member
      rcases List.mem_cons.mp member with rfl | later
      · -- the scans behind it do not touch the rows of this one
        refine ⟨stored, ?_⟩
        have first := leaves.stored freshKey
        have kept : ∀ digest, last.committed.multiplicity found.key digest =
            middle.committed.multiplicity found.key digest := by
          intro digest
          rw [leaves.keyed]
          exact run.others key notAgain digest
        rw [leaves.keyed]
        exact ⟨fun digest => (kept digest).trans (first.holds digest), first.first, first.counted,
          first.failed, first.complete⟩
      · exact run.stored found later

/-! ### The counters and the table stay in step -/

/-- The rows of the split are the records its scan counted as indexed, with multiplicity. -/
structure InStep (env : StreamRuntime) (sources : DatasetSources) (store : Spill)
    (scan : DatasetSplitScan) : Prop where
  counted : store.committed.total scan.key = scan.indexedRecords
  multiplicities : ∀ digest, store.committed.multiplicity scan.key digest =
    ((digestsIn env.runtime (sources scan.key).content).take scan.indexedRecords).count digest

def KeepsOthers (key : SplitKey) (before after : Spill) : Prop :=
  ∀ other, other ≠ key → ∀ digest,
    after.committed.multiplicity other digest = before.committed.multiplicity other digest

/-- The operations on a split, outside of a transaction, leave the rows of the others alone. -/
def TouchesOnly (env : StreamRuntime) (key : SplitKey) : Prop :=
  ∀ before : Spill, before.working = before.committed →
    (∀ digests, KeepsOthers key before
      (before.addBatch env.database env.limits.maxScratchBytes key digests).1) ∧
    (∀ run : ScanRun, run.store = before → KeepsOthers key before (flush env key run).1.store) ∧
    ∀ after, before.deleteSplit env.database key = some after → KeepsOthers key before after

theorem Synced.keepsOthers {key : SplitKey} {stored : List Str} {before after : Spill}
    (h : Synced key before.committed stored after) : KeepsOthers key before after :=
  fun _ different digest => h.adds.other different digest

theorem touchesOnly (env : StreamRuntime) (key : SplitKey) : TouchesOnly env key := by
  intro before clean
  have synced : Synced key before.committed [] before := ⟨clean, .refl key _⟩
  have batch : ∀ digests, KeepsOthers key before
      (before.addBatch env.database env.limits.maxScratchBytes key digests).1 := by
    intro digests
    rcases addBatch_cases env.database env.limits.maxScratchBytes key digests synced with
      ⟨after, added, synced⟩ | ⟨after, failed, synced | ⟨_, synced⟩⟩
    · rw [added]
      exact synced.keepsOthers
    · rw [failed]
      exact synced.keepsOthers
    · rw [failed]
      exact synced.keepsOthers
  refine ⟨batch, ?_, ?_⟩
  · rintro run rfl
    have kept := batch run.pending
    unfold flush
    split
    next store indexed added => rwa [added] at kept
    next store failed => rwa [failed] at kept
  · intro after deleted other different digest
    unfold Spill.deleteSplit at deleted
    split at deleted
    · obtain rfl := Option.some.inj deleted
      simp only [clean]
      rw [CountTable.multiplicity_deletePartition, if_neg different]
    · cases deleted

theorem StoredScan.inStep {env : StreamRuntime} {sources : DatasetSources} {store : Spill}
    {scan : DatasetSplitScan} {stored : List Str}
    (measured : ¬ OverBudget env.database env.limits.maxScratchBytes)
    (h : StoredScan env (sources scan.key) store.committed scan stored) :
    InStep env sources store scan := by
  have counted : scan.indexedRecords = stored.length := h.counted.resolve_right measured
  refine ⟨by rw [h.holds.total, counted], ?_⟩
  intro digest
  rw [h.holds digest, counted, ← List.prefix_iff_eq_take.mp h.first, count_of_lawful]

/-- In every run of scans over distinct splits in which no measurement after a commit raises, the
table is in step with what each scan that returned has counted, and no operation touches another
split. -/
theorem scanSplits_inStep (env : StreamRuntime) (sources : DatasetSources) (schemaBytes : Nat)
    (keys : List SplitKey) (store : Spill) (scans : List DatasetSplitScan)
    (distinct : keys.Nodup) (measured : ¬ OverBudget env.database env.limits.maxScratchBytes)
    (h : scanSplits env sources keys (Spill.initial schemaBytes) = .ok (store, scans)) :
    (∀ scan ∈ scans, InStep env sources store scan) ∧ ∀ key, TouchesOnly env key := by
  refine ⟨?_, touchesOnly env⟩
  have run := scanSplits_leaves distinct rfl (fun _ _ _ => rfl) h
  intro scan member
  obtain ⟨stored, found⟩ := run.stored scan member
  exact found.inStep measured

/-! ### A run of one record -/

/-- The commitment to a dataset whose one record is `1`. -/
def oneRecordMaterial : Str := identityMaterial
  [(hexdigest 0x6b86b273ff34fce19d6b804eff5a3f5747ada4eaa22f1d49c01e52ddb7875b4b, 1)]

/-- Files and YAML play no part in a scan; the digests are those of `1`, `2` and the commitment. -/
def streamSampleRuntime : Runtime where
  readBytes _ := .error .notFound
  pathExists _ := false
  parent path := path
  resolve path := .ok path
  join _ path := path
  isRelativeTo _ _ := true
  isWindowsAbsolute _ := false
  yamlLoad _ := .ok (.ofValue .none)
  sha256 raw :=
    if raw = [0x31] then hexdigest 0x6b86b273ff34fce19d6b804eff5a3f5747ada4eaa22f1d49c01e52ddb7875b4b
    else if raw = [0x32] then
      hexdigest 0xd4735e3a265e16eee03f59718b9b5d03019c07d8b6c51f90da3a666eec13ab35
    else if raw = asciiEncode oneRecordMaterial then
      hexdigest 0x39f485173783193fc1125d22f751f96001a0a6d58d122bff6eed4bcad0d1bfaa
    else []
  repr s := s
  decodeErrorText _ := []
  jsonErrorText _ := []

/-- A database whose files have this size after every commit. -/
def databaseOfSize (size : Nat) : Database := ⟨fun _ => .measured size, fun _ => true⟩

def streamSample (size : Nat) : StreamRuntime where
  runtime := streamSampleRuntime
  recursion := ⟨fun _ => true, fun _ _ => rfl⟩
  database := databaseOfSize size
  limits := .default

/-- The same file for every split: one record on one line. -/
def oneRecordSources : DatasetSources := fun _ =>
  ⟨"train.jsonl", hexdigest 0x4355a46b19d348dc2f57c046f8ef63d4538ebb936000f3c9ee954a27460dd865,
    [.block [0x31, 0x0A]], fun _ => true⟩

/-- The scan of the baseline training split alone. -/
def oneRecordRun (size : Nat) : Except Error (Spill × List DatasetSplitScan) :=
  scanSplits (streamSample size) oneRecordSources [(.baseline, .train)] (Spill.initial 8192)

/-- The rows of the baseline training split, and the indexed records of its scan. -/
def rowsAndIndexed : Except Error (Spill × List DatasetSplitScan) → Option (Nat × List Nat)
  | .ok (store, scans) =>
    some (store.committed.total (.baseline, .train), scans.map DatasetSplitScan.indexedRecords)
  | .error _ => none

theorem oneRecordRun_returns (size : Nat) (counts : Nat × List Nat)
    (h : rowsAndIndexed (oneRecordRun size) = some counts) :
    ∃ store scans, oneRecordRun size = .ok (store, scans) ∧
      store.committed.total (.baseline, .train) = counts.1 ∧
      scans.map DatasetSplitScan.indexedRecords = counts.2 := by
  cases found : oneRecordRun size with
  | error error => rw [found] at h; cases h
  | ok result =>
    rw [found] at h
    obtain rfl := Option.some.inj h
    exact ⟨result.1, result.2, rfl, rfl, rfl⟩

theorem scanSplits_inStep_sample :
    ∃ store scans, oneRecordRun 8192 = .ok (store, scans) ∧
      (∀ scan ∈ scans, InStep (streamSample 8192) oneRecordSources store scan) ∧
      ∀ key, TouchesOnly (streamSample 8192) key := by
  obtain ⟨store, scans, run, _⟩ := oneRecordRun_returns 8192 (1, [1]) (by decide +kernel)
  refine ⟨store, scans, run, scanSplits_inStep _ _ 8192 [(.baseline, .train)] store scans
    (by simp) ?_ run⟩
  rintro ⟨_, size, measured, exceeded⟩
  obtain rfl := BatchOutcome.measured.inj measured
  exact absurd exceeded (by decide)

/-- The files exceed the scratch budget once the record is committed: its row stays, and the scan
reports that nothing was indexed. -/
theorem oneRecordRun_not_inStep :
    ¬ ∀ store scans, oneRecordRun (1024 * 1024 * 1024) = .ok (store, scans) →
      ∀ scan ∈ scans, InStep (streamSample (1024 * 1024 * 1024)) oneRecordSources store scan := by
  intro claimed
  obtain ⟨store, scans, run, total, indexed⟩ :=
    oneRecordRun_returns (1024 * 1024 * 1024) (1, [0]) (by decide +kernel)
  have keyed := (scanSplits_leaves (by simp) rfl (fun _ _ _ => rfl) run).keyed
  obtain ⟨scan, rfl⟩ : ∃ scan, scans = [scan] := by
    rw [← List.length_eq_one_iff, ← List.length_map DatasetSplitScan.key, keyed]
    rfl
  have counted := (claimed store [scan] run scan (by simp)).counted
  rw [show scan.key = (.baseline, .train) from List.head_eq_of_cons_eq keyed, total,
    show scan.indexedRecords = 0 from List.head_eq_of_cons_eq indexed] at counted
  cases counted

end ClaimCI
