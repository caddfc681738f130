import ClaimCI.Analysis.DatasetLines
import ClaimCI.Analysis.PartialScan
import ClaimCI.Measurement
import ClaimCI.Python.JsonAlphabet

/-!
# Commitments to a dataset

The scan folds the sorted rows of its table into a hash, the measurement encodes the counts of the
loaded hashes. For a file that both accept the hashed text is the same, and it determines the
records up to their order.
-/

open Python

namespace ClaimCI

/-! ### The record budget -/

theorem flush_records {env : StreamRuntime} {key : SplitKey} {run after : ScanRun} {indexed : Bool}
    (h : flush env key run = (after, indexed)) : after.records = run.records := by
  unfold flush at h
  split at h <;> obtain ⟨rfl, _⟩ := Prod.mk.inj h <;> rfl

theorem scanLine_records {env : StreamRuntime} {key : SplitKey} {raw : Bytes} {physicalBytes : Nat}
    {run after : ScanRun} {ending : Option Ending}
    (within : run.records ≤ env.limits.maxSemanticRecords)
    (h : scanLine env key raw physicalBytes run = (after, ending)) :
    after.records ≤ env.limits.maxSemanticRecords := by
  unfold scanLine at h
  simp only at h
  split at h
  · obtain ⟨rfl, _⟩ := Prod.mk.inj h
    exact within
  split at h
  · obtain ⟨rfl, _⟩ := Prod.mk.inj h
    exact within
  split at h
  · obtain ⟨rfl, _⟩ := Prod.mk.inj h
    exact within
  next room =>
    split at h
    · obtain ⟨rfl, _⟩ := Prod.mk.inj h
      exact within
    split at h
    · obtain ⟨rfl, _⟩ := Prod.mk.inj h
      exact within
    -- the record that is added was within the budget
    · unfold addRecord at h
      simp only at h
      split at h
      · split at h
        next flushed =>
          obtain ⟨rfl, _⟩ := Prod.mk.inj h
          rw [flush_records flushed]
          exact Nat.not_le.mp room
        next flushed =>
          obtain ⟨rfl, _⟩ := Prod.mk.inj h
          rw [flush_records flushed]
          exact Nat.not_le.mp room
      · obtain ⟨rfl, _⟩ := Prod.mk.inj h
        exact Nat.not_le.mp room

theorem scanLines_records {env : StreamRuntime} {key : SplitKey} {events : List LineEvent}
    {run : ScanRun} (within : run.records ≤ env.limits.maxSemanticRecords) :
    (scanLines env key events run).1.records ≤ env.limits.maxSemanticRecords := by
  induction events generalizing run with
  | nil =>
    rw [scanLines, finishLines]
    split <;> exact (flush_records (by assumption)).trans_le within
  | cons event events ih =>
    cases event with
    | stop stop => exact within
    | failed => exact within
    | line raw physicalBytes =>
      rw [scanLines]
      split
      next passed => exact ih (scanLine_records within passed)
      next ended => exact scanLine_records within ended

theorem finishScan_records {source : ArtifactSource} {attempt : Nat} {key : SplitKey}
    {run : ScanRun} {state : ScanState} {reason : ScanReason} {scratchBytes : Nat}
    {result : Spill × DatasetSplitScan}
    (h : finishScan source attempt key run state reason scratchBytes = .ok result) :
    result.2.completeness.recordsScanned = run.records := by
  obtain ⟨store, scan⟩ := result
  rw [(finishScan_ok h).2]

theorem discardSplit_records {env : StreamRuntime} {source : ArtifactSource} {attempt : Nat}
    {key : SplitKey} {run : ScanRun} {reason : ScanReason} {result : Spill × DatasetSplitScan}
    (h : discardSplit env source attempt key run reason = .ok result) :
    result.2.completeness.recordsScanned = run.records := by
  unfold discardSplit at h
  split at h
  · cases h
  next store _ =>
    have reported := finishScan_records h
    exact reported

theorem handleEnding_records {env : StreamRuntime} {source : ArtifactSource} {key : SplitKey}
    {run : ScanRun} {ending : Ending} {result : Spill × DatasetSplitScan}
    (h : handleEnding env source key run ending = .ok result) :
    result.2.completeness.recordsScanned = run.records := by
  cases ending with
  | finished =>
    rw [handleEnding] at h
    split at h
    next finished =>
      obtain rfl := Except.ok.inj h
      exact finishScan_records finished
    · exact discardSplit_records h
  | scratchFull => exact finishScan_records h
  | invalid => exact discardSplit_records h
  | stopped stop =>
    rw [handleEnding] at h
    split at h
    · exact discardSplit_records h
    · split at h
      next flushed => exact (finishScan_records h).trans (flush_records flushed)
      next flushed => exact (finishScan_records h).trans (flush_records flushed)

/-- No scan reports more records than its budget allows. -/
theorem scanDataset_records {env : StreamRuntime} {key : SplitKey} {source : ArtifactSource}
    {store : Spill} {result : Spill × DatasetSplitScan}
    (h : scanDataset env key source store = .ok result) :
    result.2.completeness.recordsScanned ≤ env.limits.maxSemanticRecords := by
  rw [handleEnding_records h]
  split
  · exact Nat.zero_le _
  · exact scanLines_records (Nat.zero_le _)

theorem scanSplits_records {env : StreamRuntime} {sources : DatasetSources} {keys : List SplitKey}
    {start store : Spill} {scans : List DatasetSplitScan}
    (h : scanSplits env sources keys start = .ok (store, scans)) :
    ∀ scan ∈ scans, scan.completeness.recordsScanned ≤ env.limits.maxSemanticRecords := by
  induction keys generalizing start store scans with
  | nil =>
    obtain ⟨_, rfl⟩ := Prod.mk.inj (Except.ok.inj h)
    simp
  | cons key keys ih =>
    rw [scanSplits] at h
    obtain ⟨⟨middle, scan⟩, scanned, h⟩ := bind_ok_iff.mp h
    obtain ⟨⟨last, rest⟩, others, h⟩ := bind_ok_iff.mp h
    obtain ⟨_, rfl⟩ := Prod.mk.inj (Except.ok.inj h)
    exact List.forall_mem_cons.mpr ⟨scanDataset_records scanned, ih others⟩

theorem streamDatasetAuditContext_records {env : StreamRuntime} {schemaBytes : Nat}
    {sources : DatasetSources} {context : DatasetScanAuditContext}
    (h : streamDatasetAuditContext env schemaBytes sources = .ok context) :
    ∀ scan ∈ context.scans,
      scan.completeness.recordsScanned ≤ env.limits.maxSemanticRecords := by
  unfold streamDatasetAuditContext at h
  split at h
  · cases h
  · obtain ⟨⟨store, scans⟩, scanned, h⟩ := bind_ok_iff.mp h
    obtain rfl := Except.ok.inj h
    exact scanSplits_records scanned

/-! ### The hashed text -/

/-- The rows of a partition in ascending order are the counts of what it holds. -/
theorem orderedRows {table : SpillTable} {key : SplitKey} {digests : List Str}
    (holds : table.Holds key digests) :
    orderPairs ((table.partition key).map fun row => (row.item, row.multiplicity)) =
      batchParameters digests := by
  let counted := fun digest : Str => (digest, digests.count digest)
  have perm : ((table.partition key).map fun row => (row.item, row.multiplicity)).Perm
      (digests.dedup.map counted) := by
    simpa [counted, count_of_lawful] using holds.rows_perm
  have sorted := sortBy_eq_of_perm (fun row : Str × Nat => row.1) perm ?_
  · refine sorted.trans ?_
    exact (List.map_insertionSort _ _ counted digests.dedup fun _ _ _ _ => Iff.rfl).symm
  · intro a ha b hb same
    obtain ⟨x, _, rfl⟩ := List.mem_map.mp (perm.mem_iff.mp ha)
    obtain ⟨y, _, rfl⟩ := List.mem_map.mp (perm.mem_iff.mp hb)
    obtain rfl : x = y := same
    rfl

theorem batchParameters_total (hashes : List Str) :
    ((batchParameters hashes).map Prod.snd).sum = hashes.length := by
  rw [batchParameters, List.map_map]
  refine ((sortedHashes_perm hashes).map _).sum_eq.trans ?_
  simpa [Function.comp_def, count_of_lawful] using List.sum_map_count_dedup_eq_length hashes

theorem batchParameters_eq_of_perm {hashes others : List Str} (perm : hashes.Perm others) :
    batchParameters hashes = batchParameters others := by
  have sorted : sortedHashes hashes = sortedHashes others :=
    sortBy_eq_of_perm id perm.dedup fun _ _ _ _ same => same
  rw [batchParameters, batchParameters, sorted]
  exact List.map_congr_left fun digest _ => by rw [perm.count_eq]

/-- One row as the measurement writes it. -/
def materialRow (row : Str × Nat) : Json :=
  .object [("sha256", .str row.1), ("count", .int row.2)]

theorem multisetMaterial_eq (hashes : List Str) :
    multisetMaterial hashes = .array ((batchParameters hashes).map materialRow) := by
  rw [multisetMaterial, batchParameters, List.map_map]
  rfl

theorem materialRow_sorted (row : Str × Nat) :
    (materialRow row).sorted = .object [("count", .int row.2), ("sha256", .str row.1)] := by
  have later : strLe (lit "sha256") (lit "count") = false := by decide
  simp [materialRow, Json.sorted, Json.sortedMembers, later]

theorem joinRows_cons (row next : Str) (rest : List Str) :
    joinRows (row :: next :: rest) = row ++ COMMA :: joinRows (next :: rest) := rfl

theorem renderItems_rows (level : Nat) (rows : List (Str × Nat)) :
    Json.renderItems identityStyle level (Json.sortedItems (rows.map materialRow)) =
      joinRows (rows.map identityRow) := by
  induction rows with
  | nil => rfl
  | cons row rows ih =>
    rw [List.map_cons, Json.sortedItems, materialRow_sorted]
    cases rows with
    | nil => rfl
    | cons next rest =>
      rw [List.map_cons, Json.sortedItems] at ih ⊢
      rw [Json.renderItems, ih]
      · simp only [List.map_cons]
        rw [joinRows_cons (identityRow row)]
        rfl
      · simp

/-- The encoder writes what the scan hashes piece by piece. -/
theorem canonicalText_rows (rows : List (Str × Nat))
    (fits : ∀ row ∈ rows, (Json.int row.2).dumpable = true) :
    canonicalText (.array (rows.map materialRow)) = some (identityMaterial rows) := by
  have dumpable : (Json.array (rows.map materialRow)).dumpable = true := by
    rw [Json.dumpable]
    induction rows with
    | nil => rfl
    | cons row rows ih =>
      obtain ⟨first, others⟩ := List.forall_mem_cons.mp fits
      rw [List.map_cons, Json.itemsDumpable, ih others, materialRow]
      simp [Json.dumpable, Json.membersDumpable] at first ⊢
      exact first
  rw [canonicalText, dumps, if_pos dumpable, show identityStyle.sortKeys = true from rfl, if_pos rfl,
    Json.sorted]
  cases rows with
  | nil => rfl
  | cons row rest =>
    have items := renderItems_rows 1 (row :: rest)
    rw [List.map_cons, Json.sortedItems] at items
    have noNewline (level : Nat) : newline identityStyle level = [] := rfl
    rw [List.map_cons, Json.sortedItems, Json.render, items, noNewline, noNewline, List.nil_append,
      List.append_nil]
    rfl

/-- Counts within the record budget have few digits. -/
theorem count_dumpable {n : Nat} (small : n ≤ 10000000) : (Json.int n).dumpable = true := by
  have digits : (decimalDigits n).length ≤ 8 := by
    unfold decimalDigits
    split
    · simp
    · simp only [List.length_reverse, List.length_map]
      exact (Nat.digits_length_le_iff (by norm_num) n).mpr (by omega)
  rw [Json.dumpable, Int.natAbs_natCast, decide_eq_true_eq, INT_MAX_STR_DIGITS]
  omega

/-! ### One file, two paths -/

/-- The text a context commits to for a split. -/
def scannedMaterial (context : DatasetScanAuditContext) (key : SplitKey) : Str :=
  identityMaterial (orderPairs ((context.store.committed.partition key).map fun row =>
    (row.item, row.multiplicity)))

/-- The text the measurement commits to for loaded hashes. -/
def loadedMaterial (hashes : List Str) : Option Str := canonicalText (multisetMaterial hashes)

/-- The digest function gives what `hexdigest` gives: 64 lowercase hexadecimal digits. -/
def HexDigests (rt : Runtime) : Prop := ∀ raw, isSha256 (rt.sha256 raw) = true

/-- A file that both paths accept: the loader returns its hashes, and the scan of a source with the
same bytes is complete. -/
structure AcceptedByBoth (env : StreamRuntime) (schemaBytes : Nat) (sources : DatasetSources)
    (key : SplitKey) (path : Str) (dataset : DatasetHashes)
    (context : DatasetScanAuditContext) : Prop where
  bytes : env.runtime.readBytes path = .ok (sources key).content
  loaded : loadDataset env.runtime path = .ok dataset
  opened : streamDatasetAuditContext env schemaBytes sources = .ok context
  complete : ∃ scan, context.scan key = .ok scan ∧ scan.completeness.isComplete = true

theorem loadedMaterial_eq {hashes : List Str} (few : hashes.length ≤ 10000000) :
    loadedMaterial hashes = some (identityMaterial (batchParameters hashes)) := by
  rw [loadedMaterial, multisetMaterial_eq]
  refine canonicalText_rows _ fun row member => ?_
  obtain ⟨digest, _, rfl⟩ := List.mem_map.mp member
  exact count_dumpable (List.count_le_length.trans few)

/-- What the store of a context holds for a file that both paths accept. -/
theorem AcceptedByBoth.holds {env : StreamRuntime} {schemaBytes : Nat} {sources : DatasetSources}
    {key : SplitKey} {path : Str} {dataset : DatasetHashes} {context : DatasetScanAuditContext}
    (h : AcceptedByBoth env schemaBytes sources key path dataset context) :
    context.store.committed.Holds key dataset.hashes ∧ dataset.hashes ≠ [] ∧
      dataset.hashes.length ≤ 10000000 := by
  obtain ⟨scan, found, complete⟩ := h.complete
  obtain ⟨member, rfl⟩ := scan_ok found
  have run := streamDatasetAuditContext_ok h.opened
  obtain ⟨stored, leaves⟩ := run.stored scan member
  obtain ⟨whole, nonempty, counted, taken⟩ := leaves.complete complete
  have same : dataset.hashes = stored := by
    rw [loadDataset_hashes h.bytes h.loaded taken, whole]
  have budget := (env.limits.bounded (env.limits.maxSemanticRecords, 10000000) (by simp)).2
  have scanned := streamDatasetAuditContext_records h.opened scan member
  rw [same]
  exact ⟨leaves.holds, nonempty, by omega⟩

theorem AcceptedByBoth.material {env : StreamRuntime} {schemaBytes : Nat}
    {sources : DatasetSources} {key : SplitKey} {path : Str} {dataset : DatasetHashes}
    {context : DatasetScanAuditContext}
    (h : AcceptedByBoth env schemaBytes sources key path dataset context) :
    loadedMaterial dataset.hashes = some (scannedMaterial context key) := by
  obtain ⟨holds, _, few⟩ := h.holds
  rw [loadedMaterial_eq few, scannedMaterial, orderedRows holds]

/-- Both paths report one identity. -/
theorem AcceptedByBoth.identity {env : StreamRuntime} {schemaBytes : Nat}
    {sources : DatasetSources} {key : SplitKey} {path : Str} {dataset : DatasetHashes}
    {context : DatasetScanAuditContext}
    (h : AcceptedByBoth env schemaBytes sources key path dataset context) :
    ∃ identity, multisetIdentity env.runtime context key = .ok identity ∧
      loadedIdentity env.runtime dataset.hashes = some identity := by
  obtain ⟨holds, nonempty, _⟩ := h.holds
  refine ⟨⟨dataset.hashes.length, env.runtime.sha256 (asciiEncode (scannedMaterial context key))⟩,
    ?_, ?_⟩
  · have some : ¬dataset.hashes.length < 1 :=
      Nat.not_lt.mpr (List.length_pos_of_ne_nil nonempty)
    rw [multisetIdentity]
    simp only [scannedMaterial, orderedRows holds, batchParameters_total, if_neg some]
  · have material := h.material
    rw [loadedMaterial] at material
    rw [loadedIdentity, material, Option.map_some]

/-! ### What a commitment determines -/

theorem hash_of_loaded {rt : Runtime} {path : Str} {dataset : DatasetHashes}
    (h : loadDataset rt path = .ok dataset) : ∀ hash ∈ dataset.hashes, ∃ raw, hash = rt.sha256 raw := by
  obtain ⟨records, _, hashed, _⟩ := loadDataset_ok h
  obtain ⟨mapped, members⟩ := mapM_some_eq_map (hashSample rt) [] records dataset.hashes hashed
  intro hash member
  rw [mapped] at member
  obtain ⟨record, present, rfl⟩ := List.mem_map.mp member
  obtain ⟨digest, _, found⟩ := members record present
  obtain ⟨raw, _, rfl⟩ := Option.map_eq_some_iff.mp found
  exact ⟨raw, by rw [found, Option.getD_some]⟩

theorem small_of_isSha256 {s : Str} (h : isSha256 s = true) : ∀ c ∈ s, c.val < 0xD800 := by
  intro c member
  simp only [isSha256, Bool.and_eq_true, List.all_eq_true] at h
  have digit := h.2 c member
  simp only [Bool.or_eq_true, Bool.and_eq_true, decide_eq_true_eq] at digit
  omega

theorem multisetMaterial_distinctKeys (hashes : List Str) :
    (multisetMaterial hashes).DistinctKeys := by
  rw [multisetMaterial_eq, Json.DistinctKeys]
  induction batchParameters hashes with
  | nil => trivial
  | cons row rows ih =>
    refine ⟨?_, ih⟩
    have keys : lit "sha256" ≠ lit "count" := by decide
    simp [materialRow, Json.DistinctKeys, Json.membersDistinctKeys, keys]

theorem multisetMaterial_kept {hashes : List Str} (hex : ∀ hash ∈ hashes, isSha256 hash = true) :
    (multisetMaterial hashes).Kept true := by
  rw [multisetMaterial, Json.Kept, Json.itemsKept_iff]
  intro item member
  obtain ⟨digest, present, rfl⟩ := List.mem_map.mp member
  have digestHex := hex digest
    (List.mem_dedup.mp ((sortedHashes_perm hashes).mem_iff.mp present))
  have keys : rereadStr true (lit "sha256") = lit "sha256" ∧
      rereadStr true (lit "count") = lit "count" := by decide
  simp only [Json.Kept, Json.membersKept, and_true]
  exact ⟨keys.1, rereadStr_of_small true digest (small_of_isSha256 digestHex), keys.2⟩

private theorem materialRow_injective (rows others : List (Str × Nat))
    (h : Json.sortedItems (rows.map materialRow) = Json.sortedItems (others.map materialRow)) :
    rows = others := by
  induction rows generalizing others with
  | nil =>
    cases others with
    | nil => rfl
    | cons other others => cases h
  | cons row rows ih =>
    cases others with
    | nil => cases h
    | cons other others =>
      rw [List.map_cons, List.map_cons, Json.sortedItems, Json.sortedItems, materialRow_sorted,
        materialRow_sorted] at h
      obtain ⟨first, rest⟩ := List.cons.inj h
      obtain ⟨count, digest⟩ := List.cons.inj (Json.object.inj first)
      have sameCount : row.2 = other.2 := by simpa using (Prod.mk.inj count).2
      have sameDigest : row.1 = other.1 := by simpa using digest
      rw [Prod.ext sameDigest sameCount, ih others rest]

/-- Hashes with one commitment text are equal as multisets. -/
theorem perm_of_loadedMaterial {hashes others : List Str} {text : Str}
    (hex : ∀ hash ∈ hashes, isSha256 hash = true) (otherHex : ∀ hash ∈ others, isSha256 hash = true)
    (h : loadedMaterial hashes = some text) (g : loadedMaterial others = some text) :
    hashes.Perm others := by
  have sorted := dumps_injective_of_kept identityStyle ⟨by simp [identityStyle], by
    simp [identityStyle]⟩ rfl _ _ (multisetMaterial_distinctKeys hashes)
    (multisetMaterial_distinctKeys others) (multisetMaterial_kept hex)
    (multisetMaterial_kept otherHex) text h g
  rw [multisetMaterial_eq, multisetMaterial_eq, Json.sorted, Json.sorted] at sorted
  have rows := materialRow_injective _ _ (Json.array.inj sorted)
  rw [List.perm_iff_count]
  intro digest
  rw [← batchParameters_sum hashes digest, rows, batchParameters_sum]

theorem loadedIdentity_eq_of_perm (rt : Runtime) {hashes others : List Str}
    (perm : hashes.Perm others) : loadedIdentity rt hashes = loadedIdentity rt others := by
  rw [loadedIdentity, loadedIdentity, multisetMaterial_eq, multisetMaterial_eq,
    batchParameters_eq_of_perm perm, perm.length_eq]

/-- What holds between the commitment to a dataset and that to another one that loads. -/
structure DeterminesRecords (rt : Runtime) (path other : Str) (dataset others : DatasetHashes)
    (records otherRecords : List Json) : Prop where
  /-- The commitment depends on the multiset of record values alone. -/
  ofRecords : SameRecords records otherRecords →
    loadedMaterial dataset.hashes = loadedMaterial others.hashes ∧
      loadedIdentity rt dataset.hashes = loadedIdentity rt others.hashes
  /-- One commitment text means one multiset of record values. -/
  toRecords : DigestsDistinct rt (encodings rt path ++ encodings rt other) →
    loadedMaterial dataset.hashes = loadedMaterial others.hashes → SameRecords records otherRecords

/-- One commitment for both paths, which stands for the records of the file as a multiset. -/
structure FaithfulCommitment (rt : Runtime) (path : Str) (key : SplitKey)
    (dataset : DatasetHashes) (context : DatasetScanAuditContext) : Prop where
  material : loadedMaterial dataset.hashes = some (scannedMaterial context key)
  identity : ∃ identity, multisetIdentity rt context key = .ok identity ∧
    loadedIdentity rt dataset.hashes = some identity ∧
    ∀ evaluation, datasetValues rt evaluation (.loaded dataset.hashes) =
      datasetValues rt evaluation (.scanned identity)
  determines : ∀ records other others otherRecords, readRecords rt path = some records →
    loadDataset rt other = .ok others → readRecords rt other = some otherRecords →
    DeterminesRecords rt path other dataset others records otherRecords

/-- For a file that both paths accept, the scan and the measurement commit to one text and report
one identity, whatever the chunks, the batches and the order of the records; and the text
determines the records of the file as a multiset. -/
theorem multisetIdentity_faithful (env : StreamRuntime) (schemaBytes : Nat)
    (sources : DatasetSources) (key : SplitKey) (path : Str) (dataset : DatasetHashes)
    (context : DatasetScanAuditContext) (hex : HexDigests env.runtime)
    (accepted : AcceptedByBoth env schemaBytes sources key path dataset context) :
    FaithfulCommitment env.runtime path key dataset context := by
  -- what the loader hashes are digests, by the assumption on these texts
  have digits : ∀ {path dataset}, loadDataset env.runtime path = .ok dataset →
      ∀ hash ∈ dataset.hashes, isSha256 hash = true := by
    intro path dataset loaded hash member
    obtain ⟨raw, rfl⟩ := hash_of_loaded loaded hash member
    exact hex raw
  refine ⟨accepted.material, ?_, ?_⟩
  · obtain ⟨identity, scanned, loaded⟩ := accepted.identity
    obtain ⟨_, nonempty, _⟩ := accepted.holds
    refine ⟨identity, scanned, loaded, fun evaluation => ?_⟩
    have valid : ¬(dataset.hashes = [] ∨ dataset.hashes.all isSha256 = false) := by
      rw [not_or, Bool.not_eq_false, List.all_eq_true]
      exact ⟨nonempty, digits accepted.loaded⟩
    have same : EvaluationRecords.identity env.runtime (.loaded dataset.hashes) =
        .ok (some identity) := by
      rw [EvaluationRecords.identity, if_neg valid, loaded]
    rw [datasetValues, datasetValues, same]
    rfl
  · intro records other others otherRecords read loaded otherRead
    obtain ⟨_, ⟨_, held⟩, hashed, _⟩ := loadDataset_ok accepted.loaded
    obtain ⟨_, ⟨_, otherHeld⟩, otherHashed, _⟩ := loadDataset_ok loaded
    obtain rfl := Option.some.inj (held.symm.trans read)
    obtain rfl := Option.some.inj (otherHeld.symm.trans otherRead)
    -- equal identities are equal multisets of digests, and these of equal encodings
    constructor
    · intro same
      have perm : dataset.hashes.Perm others.hashes := by
        rw [(mapM_some_eq_map _ [] _ _ hashed).1, (mapM_some_eq_map _ [] _ _ otherHashed).1]
        exact same.hashes env.runtime
      refine ⟨?_, loadedIdentity_eq_of_perm env.runtime perm⟩
      rw [loadedMaterial, loadedMaterial, multisetMaterial_eq, multisetMaterial_eq,
        batchParameters_eq_of_perm perm]
    · intro distinct same
      have text := accepted.material
      have perm := perm_of_loadedMaterial (digits accepted.loaded) (digits loaded) text
        (same ▸ text)
      let raws := encodings env.runtime path ++ encodings env.runtime other
      have left : HashedRecords env.runtime raws _ dataset.hashes :=
        hashedRecords_of_loaded read hashed fun raw member => List.mem_append_left _ member
      have right : HashedRecords env.runtime raws _ others.hashes :=
        hashedRecords_of_loaded otherRead otherHashed fun raw member =>
          List.mem_append_right _ member
      exact (left.perm_iff distinct right).mp perm

/-! ### ASCII texts -/

theorem identityRow_ascii (row : Str × Nat) : ∀ c ∈ identityRow row, c.val < 128 := by
  have text : identityRow row = LEFT_BRACE :: (quoteString true (lit "count") ++ COLON ::
      (renderInt row.2 ++ COMMA :: (quoteString true (lit "sha256") ++ COLON ::
        (quoteString true row.1 ++ [RIGHT_BRACE])))) := by
    simp [identityRow, Json.render, Json.renderMembers, newline, identityStyle]
  rw [text]
  intro c member
  simp only [List.mem_cons, List.mem_append, List.not_mem_nil, or_false] at member
  rcases member with rfl | member | rfl | member | rfl | member | rfl | member | rfl
  · decide
  · exact quoteString_ascii _ c member
  · decide
  · exact renderInt_ascii _ c member
  · decide
  · exact quoteString_ascii _ c member
  · decide
  · exact quoteString_ascii _ c member
  · decide

theorem identityMaterial_ascii (rows : List (Str × Nat)) :
    ∀ c ∈ identityMaterial rows, c.val < 128 := by
  have joined : ∀ rows : List Str, (∀ row ∈ rows, ∀ c ∈ row, c.val < 128) →
      ∀ c ∈ joinRows rows, c.val < 128 := by
    intro rows small
    induction rows with
    | nil => intro c member; cases member
    | cons row rows ih =>
      obtain ⟨first, others⟩ := List.forall_mem_cons.mp small
      cases rows with
      | nil => exact first
      | cons next rest =>
        rw [joinRows_cons]
        intro c member
        rcases List.mem_append.mp member with member | member
        · exact first c member
        rcases List.mem_cons.mp member with rfl | member
        · decide
        · exact ih others c member
  intro c member
  rcases List.mem_cons.mp member with rfl | member
  · decide
  rcases List.mem_append.mp member with member | member
  · refine joined _ ?_ c member
    intro row inRows
    obtain ⟨pair, _, rfl⟩ := List.mem_map.mp inRows
    exact identityRow_ascii pair
  · obtain rfl := List.mem_singleton.mp member
    decide

theorem asciiEncode_injective {s t : Str} (hs : ∀ c ∈ s, c.val < 128) (ht : ∀ c ∈ t, c.val < 128)
    (h : asciiEncode s = asciiEncode t) : s = t := by
  induction s generalizing t with
  | nil =>
    cases t with
    | nil => rfl
    | cons d t => cases h
  | cons c s ih =>
    cases t with
    | nil => cases h
    | cons d t =>
      obtain ⟨hc, hs⟩ := List.forall_mem_cons.mp hs
      obtain ⟨hd, ht⟩ := List.forall_mem_cons.mp ht
      obtain ⟨first, rest⟩ := List.cons.inj h
      have value := congrArg UInt8.toNat first
      simp only [UInt8.toNat_ofNat'] at value
      rw [Nat.mod_eq_of_lt (by omega), Nat.mod_eq_of_lt (by omega)] at value
      rw [Fin.ext value, ih hs ht rest]

/-! ### A file of three records -/

def threeRecords : Bytes := [0x31, 0x0A, 0x32, 0x0A, 0x31, 0x0A]

/-- The digests of the records and of the commitment; other inputs play no part. -/
def commitmentRuntime : Runtime :=
  { streamSampleRuntime with
    readBytes := fun _ => .ok threeRecords
    sha256 := fun raw =>
      if raw = [0x31] then
        hexdigest 0x6b86b273ff34fce19d6b804eff5a3f5747ada4eaa22f1d49c01e52ddb7875b4b
      else if raw = [0x32] then
        hexdigest 0xd4735e3a265e16eee03f59718b9b5d03019c07d8b6c51f90da3a666eec13ab35
      else hexdigest 0xed729dd6d4d3375d5ed7bd9c0f461d635d30c54b17b2cce12199bed07e0d5d66 }

def commitmentStream : StreamRuntime := { streamSample 8192 with runtime := commitmentRuntime }

def threeRecordSources : DatasetSources := fun _ =>
  ⟨"eval.jsonl", hexdigest 0x57e50702eb22b4b06cac50993a5cb61dd3823023a76c735fd6925fa62fee0122,
    [.block [0x31, 0x0A, 0x32], .block [0x0A, 0x31, 0x0A]], fun _ => true⟩

theorem multisetIdentity_faithful_sample :
    ∃ dataset context, AcceptedByBoth commitmentStream 8192 threeRecordSources (.baseline, .eval)
        (lit "eval.jsonl") dataset context ∧
      FaithfulCommitment commitmentRuntime (lit "eval.jsonl") (.baseline, .eval) dataset
        context := by
  have hex : HexDigests commitmentRuntime := by
    intro raw
    simp only [commitmentRuntime]
    split
    · exact isSha256_hexdigest _
    split
    · exact isSha256_hexdigest _
    · exact isSha256_hexdigest _
  obtain ⟨dataset, loaded, -⟩ := ok_of_any (by decide +kernel :
    (loadDataset commitmentRuntime (lit "eval.jsonl")).toOption.any (fun _ => true) = true)
  obtain ⟨context, opened, scanned⟩ := ok_of_any (by decide +kernel :
    (streamDatasetAuditContext commitmentStream 8192 threeRecordSources).toOption.any
      (fun context => (context.scan (.baseline, .eval)).toOption.any
        fun scan => scan.completeness.isComplete) = true)
  obtain ⟨scan, found, whole⟩ := ok_of_any scanned
  have accepted : AcceptedByBoth commitmentStream 8192 threeRecordSources (.baseline, .eval)
      (lit "eval.jsonl") dataset context := ⟨rfl, loaded, opened, scan, found, whole⟩
  exact ⟨dataset, context, accepted,
    multisetIdentity_faithful commitmentStream 8192 threeRecordSources (.baseline, .eval) _
      dataset context hex accepted⟩

end ClaimCI
