import ClaimCI.Analysis.DatasetRun
import ClaimCI.DatasetRecords

/-!
# Authority of partial scans

A scan that is not complete supports only what more records cannot make false: that a record was
found on both sides.
-/

open Python

namespace ClaimCI

/-! ### Records and digests of a file -/

/-- The canonical encodings of the records of a file. -/
def encodingsIn (content : Bytes) : List Bytes := (recordsIn content).filterMap canonicalizeSample

theorem digestsIn_eq_map (rt : Runtime) (content : Bytes) :
    digestsIn rt content = (encodingsIn content).map rt.sha256 := by
  rw [digestsIn_eq, encodingsIn, List.map_filterMap]
  rfl

theorem recordsIn_distinctKeys (content : Bytes) :
    ∀ record ∈ recordsIn content, record.DistinctKeys := by
  intro record member
  obtain ⟨line, _, found⟩ := List.mem_filterMap.mp member
  unfold lineRecord at found
  split at found
  · cases found
  · obtain ⟨text, _, parsed⟩ := Option.bind_eq_some_iff.mp found
    exact loads_distinctKeys strictLoad rfl text record parsed

/-- A digest in both files is the digest of a record value in both, while the digests of their
encodings are distinct. -/
theorem common_record {rt : Runtime} {train eval : Bytes}
    (distinct : DigestsDistinct rt (encodingsIn train ++ encodingsIn eval)) {digest : Str}
    (inTrain : digest ∈ digestsIn rt train) (inEval : digest ∈ digestsIn rt eval) :
    ∃ v ∈ recordsIn train, ∃ w ∈ recordsIn eval, recordValue v = recordValue w := by
  rw [digestsIn_eq_map] at inTrain inEval
  obtain ⟨a, ha, rfl⟩ := List.mem_map.mp inTrain
  obtain ⟨b, hb, same⟩ := List.mem_map.mp inEval
  obtain rfl := distinct b (List.mem_append_right _ hb) a (List.mem_append_left _ ha) same
  obtain ⟨v, hv, encodedV⟩ := List.mem_filterMap.mp ha
  obtain ⟨w, hw, encodedW⟩ := List.mem_filterMap.mp hb
  exact ⟨v, hv, w, hw, canonicalizeSample_injective (recordsIn_distinctKeys train v hv)
    (recordsIn_distinctKeys eval w hw) encodedV encodedW⟩

/-! ### The facts of a context -/

theorem scan_ok {context : DatasetScanAuditContext} {key : SplitKey} {scan : DatasetSplitScan}
    (h : context.scan key = .ok scan) : scan ∈ context.scans ∧ scan.key = key := by
  unfold DatasetScanAuditContext.scan at h
  split at h
  next only found =>
    obtain rfl := Except.ok.inj h
    have member : only ∈ context.scans.filter fun scan => scan.key = key := by simp [found]
    simpa using List.mem_filter.mp member
  · cases h

/-- The counts of an overlap fact are queries of the table, about the two scans of the arm. -/
theorem overlapFact_ok {context : DatasetScanAuditContext} {arm : Arm} {fact : DatasetOverlapFact}
    (h : overlapFact context arm = .ok fact) :
    (fact.trainScan ∈ context.scans ∧ fact.trainScan.key = (arm, .train)) ∧
    (fact.evalScan ∈ context.scans ∧ fact.evalScan.key = (arm, .eval)) ∧
    fact.trainCount = context.store.committed.total (arm, .train) ∧
    fact.evalCount = context.store.committed.total (arm, .eval) ∧
    fact.overlapCount = context.store.committed.overlap (arm, .train) (arm, .eval) := by
  unfold overlapFact at h
  obtain ⟨train, trained, h⟩ := bind_ok_iff.mp h
  obtain ⟨eval, evaluated, h⟩ := bind_ok_iff.mp h
  obtain rfl := Except.ok.inj h
  exact ⟨scan_ok trained, scan_ok evaluated, rfl, rfl, rfl⟩

/-- Alignment findings come from complete evaluation scans only. -/
theorem contextAlignmentFindings_ok {rt : Runtime} {context : DatasetScanAuditContext}
    {findings : List Finding} (h : contextAlignmentFindings rt context = .ok findings) :
    findings = [] ∨ ∀ arm : Arm, ∃ scan ∈ context.scans, scan.key = (arm, .eval) ∧
      scan.completeness.isComplete = true := by
  unfold contextAlignmentFindings at h
  obtain ⟨alignment, aligned, h⟩ := bind_ok_iff.mp h
  obtain ⟨baselineScan, _, h⟩ := bind_ok_iff.mp h
  obtain ⟨candidateScan, _, h⟩ := bind_ok_iff.mp h
  obtain rfl := Except.ok.inj h
  cases alignment with
  | none => exact .inl rfl
  | some fact =>
    -- the fact rests on two identities, each of which needs a complete scan
    refine .inr ?_
    unfold evaluationAlignmentFact at aligned
    obtain ⟨baseline, left, aligned⟩ := bind_ok_iff.mp aligned
    obtain ⟨candidate, right, aligned⟩ := bind_ok_iff.mp aligned
    have both := Except.ok.inj aligned
    have present : ∀ arm (identity : MultisetIdentity),
        evaluationIdentity rt context arm = .ok (some identity) →
        ∃ scan ∈ context.scans, scan.key = (arm, .eval) ∧
          scan.completeness.isComplete = true := by
      intro arm identity found
      unfold evaluationIdentity at found
      obtain ⟨scan, scanned, found⟩ := bind_ok_iff.mp found
      split at found
      next complete => exact ⟨scan, (scan_ok scanned).1, (scan_ok scanned).2, complete⟩
      · cases Except.ok.inj found
    -- without one of the identities the fact says nothing
    intro arm
    cases baseline with
    | none => cases both
    | some baseline =>
      cases candidate with
      | none => cases both
      | some candidate =>
        cases arm with
        | baseline => exact present _ baseline left
        | candidate => exact present _ candidate right

theorem checkStreamingDatasetContext_ok {rt : Runtime} {context : DatasetScanAuditContext}
    {overlaps : List OverlapSummary} {findings : List Finding}
    (h : checkStreamingDatasetContext rt context = .ok (overlaps, findings)) :
    ∃ baselineFact candidateFact alignment, overlapFact context .baseline = .ok baselineFact ∧
      overlapFact context .candidate = .ok candidateFact ∧
      contextAlignmentFindings rt context = .ok alignment ∧
      overlaps = [(overlapFindings .baseline baselineFact).1,
        (overlapFindings .candidate candidateFact).1] ∧
      findings = (overlapFindings .baseline baselineFact).2 ++
        (overlapFindings .candidate candidateFact).2 ++ alignment := by
  unfold checkStreamingDatasetContext at h
  obtain ⟨baselineFact, left, h⟩ := bind_ok_iff.mp h
  obtain ⟨candidateFact, right, h⟩ := bind_ok_iff.mp h
  obtain ⟨alignment, aligned, h⟩ := bind_ok_iff.mp h
  obtain ⟨rfl, rfl⟩ := Prod.mk.inj (Except.ok.inj h)
  exact ⟨_, _, alignment, left, right, aligned, rfl, rfl⟩

/-! ### Findings -/

/-- The finding says it is about the experiment. -/
def Concerns (finding : Finding) (arm : Arm) : Prop :=
  lookupKey (lit "experiment") finding.evidence = some (.str arm.text)

theorem arm_text_injective {a b : Arm} (h : a.text = b.text) : a = b := by
  cases a <;> cases b <;> first | rfl | exact absurd h (by decide)

/-- The findings of one experiment: a leakage needs an overlap, and its absence complete scans. -/
theorem mem_overlapFindings {arm : Arm} {fact : DatasetOverlapFact} {finding : Finding}
    (h : finding ∈ (overlapFindings arm fact).2) : (∀ other, Concerns finding other → other = arm) ∧
      (finding.ruleId = lit "DATASET.EXACT_LEAKAGE" ∧ fact.overlapCount ≠ 0 ∨
        finding.ruleId = lit "DATASET.NO_LEAKAGE" ∧ fact.isComplete = true ∨
        finding.ruleId = lit "DATASET.SCAN_INCOMPLETE") := by
  have concerned : ∀ (first : Finding) (rest : Evidence),
      first.evidence = (lit "experiment", .str arm.text) :: rest →
      ∀ other, Concerns first other → other = arm := by
    intro first rest evidence other concerns
    rw [Concerns, evidence, lookupKey, if_pos rfl] at concerns
    exact arm_text_injective (Value.str.inj (Option.some.inj concerns)).symm
  unfold overlapFindings at h
  simp only at h
  rcases List.mem_append.mp h with overlapping | incomplete
  · split at overlapping
    next found =>
      obtain rfl := List.mem_singleton.mp overlapping
      exact ⟨concerned _ _ rfl, .inl ⟨rfl, found⟩⟩
    · split at overlapping
      next complete =>
        obtain rfl := List.mem_singleton.mp overlapping
        exact ⟨concerned _ _ rfl, .inr (.inl ⟨rfl, complete⟩)⟩
      · cases overlapping
  · split at incomplete
    · cases incomplete
    · obtain rfl := List.mem_singleton.mp incomplete
      exact ⟨concerned _ _ rfl, .inr (.inr rfl)⟩

theorem mem_contextAlignmentFindings {rt : Runtime} {context : DatasetScanAuditContext}
    {findings : List Finding} (h : contextAlignmentFindings rt context = .ok findings)
    {finding : Finding} (member : finding ∈ findings) :
    finding.ruleId = lit "DATASET.EVALUATION_ALIGNED" ∨
      finding.ruleId = lit "DATASET.EVALUATION_MISMATCH" := by
  unfold contextAlignmentFindings at h
  obtain ⟨alignment, _, h⟩ := bind_ok_iff.mp h
  obtain ⟨baselineScan, _, h⟩ := bind_ok_iff.mp h
  obtain ⟨candidateScan, _, h⟩ := bind_ok_iff.mp h
  obtain rfl := Except.ok.inj h
  cases alignment with
  | none => cases member
  | some fact =>
    rw [Option.map_some, Option.getD_some, streamedAlignmentFindings] at member
    split at member
    · obtain rfl := List.mem_singleton.mp member
      exact .inl rfl
    · obtain rfl := List.mem_singleton.mp member
      exact .inr rfl

/-! ### The authority of a streamed audit -/

/-- What a streamed dataset audit may say, whatever its scans covered. -/
structure ScanAuthority (sources : DatasetSources) (context : DatasetScanAuditContext)
    (overlaps : List OverlapSummary) (findings : List Finding) : Prop where
  /-- An incomplete scan of an experiment leaves its leakage open. -/
  noLeakage : ∀ scan ∈ context.scans, scan.completeness.isComplete = false →
    ∀ finding ∈ findings, finding.ruleId = lit "DATASET.NO_LEAKAGE" →
      ¬ Concerns finding scan.key.1
  /-- An incomplete scan of an evaluation split leaves the alignment open. -/
  alignment : ∀ scan ∈ context.scans, scan.key.2 = .eval → scan.completeness.isComplete = false →
    ∀ finding ∈ findings, finding.ruleId ≠ lit "DATASET.EVALUATION_ALIGNED" ∧
      finding.ruleId ≠ lit "DATASET.EVALUATION_MISMATCH"
  /-- A leakage that is found is one of the files. -/
  leakage : ∀ finding ∈ findings, finding.ruleId = lit "DATASET.EXACT_LEAKAGE" →
    ∀ arm, Concerns finding arm →
      ∃ v ∈ recordsIn (sources (arm, .train)).content,
        ∃ w ∈ recordsIn (sources (arm, .eval)).content, recordValue v = recordValue w
  /-- No overlap is reported beyond that of the complete files. -/
  overlap : ∀ summary ∈ overlaps, summary.overlapCount ≤
    intersectionCount (encodingsIn (sources (summary.experiment, .train)).content)
      (encodingsIn (sources (summary.experiment, .eval)).content)
  /-- A failed scan has no row in the store. -/
  failed : ∀ scan ∈ context.scans, scan.completeness.state = .failed →
    context.store.committed.partition scan.key = []

theorem streamDatasetAuditContext_ok {env : StreamRuntime} {schemaBytes : Nat}
    {sources : DatasetSources} {context : DatasetScanAuditContext}
    (h : streamDatasetAuditContext env schemaBytes sources = .ok context) :
    RunLeaves env sources splitKeys (Spill.initial schemaBytes) context.store context.scans := by
  unfold streamDatasetAuditContext at h
  split at h
  · cases h
  · obtain ⟨⟨store, scans⟩, scanned, h⟩ := bind_ok_iff.mp h
    obtain rfl := Except.ok.inj h
    exact scanSplits_leaves (by decide) rfl (fun _ _ _ => rfl) scanned

/-- The split of every key is scanned once. -/
theorem RunLeaves.unique {env : StreamRuntime} {sources : DatasetSources} {keys : List SplitKey}
    {start store : Spill} {scans : List DatasetSplitScan}
    (run : RunLeaves env sources keys start store scans) (distinct : keys.Nodup)
    {scan other : DatasetSplitScan} (hs : scan ∈ scans) (ho : other ∈ scans)
    (same : scan.key = other.key) : scan = other :=
  List.inj_on_of_nodup_map (run.keyed ▸ distinct) hs ho same

/-- The overlap of two stored splits is at most that of their files. -/
theorem overlap_le {env : StreamRuntime} {train eval : ArtifactSource} {table : SpillTable}
    {trainScan evalScan : DatasetSplitScan} {storedTrain storedEval : List Str}
    (left : StoredScan env train table trainScan storedTrain)
    (right : StoredScan env eval table evalScan storedEval)
    (distinct : DigestsDistinct env.runtime
      (encodingsIn train.content ++ encodingsIn eval.content)) :
    table.overlap trainScan.key evalScan.key ≤
      intersectionCount (encodingsIn train.content) (encodingsIn eval.content) := by
  rw [left.holds.overlap right.holds]
  calc intersectionCount storedTrain storedEval
      ≤ intersectionCount (digestsIn env.runtime train.content)
          (digestsIn env.runtime eval.content) :=
        intersectionCount_sublist left.first.sublist right.first.sublist
    _ = intersectionCount (encodingsIn train.content) (encodingsIn eval.content) := by
        rw [digestsIn_eq_map, digestsIn_eq_map]
        exact intersectionCount_map _ _ _ distinct

/-- The facts of an experiment, in a context that a run over the splits left. -/
theorem overlapFact_authority {env : StreamRuntime} {sources : DatasetSources} {arm : Arm}
    {start : Spill} {context : DatasetScanAuditContext} {fact : DatasetOverlapFact}
    (run : RunLeaves env sources splitKeys start context.store context.scans)
    (distinct : DigestsDistinct env.runtime (encodingsIn (sources (arm, .train)).content ++
      encodingsIn (sources (arm, .eval)).content))
    (h : overlapFact context arm = .ok fact) :
    fact.overlapCount ≤ intersectionCount (encodingsIn (sources (arm, .train)).content)
        (encodingsIn (sources (arm, .eval)).content) ∧
      (fact.overlapCount ≠ 0 → ∃ v ∈ recordsIn (sources (arm, .train)).content,
        ∃ w ∈ recordsIn (sources (arm, .eval)).content, recordValue v = recordValue w) := by
  obtain ⟨⟨trained, trainKey⟩, ⟨evaluated, evalKey⟩, _, _, counted⟩ := overlapFact_ok h
  obtain ⟨storedTrain, left⟩ := run.stored _ trained
  obtain ⟨storedEval, right⟩ := run.stored _ evaluated
  have bound := overlap_le left right (by rwa [trainKey, evalKey])
  rw [trainKey, evalKey] at bound
  refine ⟨counted ▸ bound, ?_⟩
  intro found
  rw [counted, ← trainKey, ← evalKey, left.holds.overlap right.holds, Ne,
    intersectionCount_eq_zero_iff] at found
  push Not at found
  obtain ⟨digest, inTrain, inEval⟩ := found
  rw [trainKey] at left
  rw [evalKey] at right
  exact common_record distinct (left.first.subset inTrain) (right.first.subset inEval)

/-- Every finding and every count of a streamed dataset audit is within the authority of its
scans: however the files are cut into blocks and batches, wherever each scan stops, and whenever
the database raises. -/
theorem streamedAudit_authority (env : StreamRuntime) (schemaBytes : Nat) (sources : DatasetSources)
    (context : DatasetScanAuditContext) (overlaps : List OverlapSummary) (findings : List Finding)
    (distinct : ∀ arm, DigestsDistinct env.runtime
      (encodingsIn (sources (arm, .train)).content ++ encodingsIn (sources (arm, .eval)).content))
    (scanned : streamDatasetAuditContext env schemaBytes sources = .ok context)
    (checked : checkStreamingDatasetContext env.runtime context = .ok (overlaps, findings)) :
    ScanAuthority sources context overlaps findings := by
  have run := streamDatasetAuditContext_ok scanned
  obtain ⟨baselineFact, candidateFact, aligned, left, right, alignment, rfl, rfl⟩ :=
    checkStreamingDatasetContext_ok checked
  -- an overlap finding comes from the facts of one experiment
  have origin : ∀ finding ∈ (overlapFindings .baseline baselineFact).2 ++
      (overlapFindings .candidate candidateFact).2 ++ aligned,
      (∃ arm fact, overlapFact context arm = .ok fact ∧ finding ∈ (overlapFindings arm fact).2) ∨
        finding ∈ aligned := by
    intro finding member
    rcases List.mem_append.mp member with member | member
    · rcases List.mem_append.mp member with member | member
      · exact .inl ⟨.baseline, baselineFact, left, member⟩
      · exact .inl ⟨.candidate, candidateFact, right, member⟩
    · exact .inr member
  refine ⟨?_, ?_, ?_, ?_, ?_⟩
  · intro scan member incomplete finding found rule concerns
    rcases origin finding found with ⟨arm, fact, facts, mine⟩ | mine
    · obtain ⟨about, ⟨other, _⟩ | ⟨_, complete⟩ | other⟩ := mem_overlapFindings mine
      · exact absurd (rule.symm.trans other) (by decide)
      · have same := about _ concerns
        obtain ⟨⟨trained, trainKey⟩, ⟨evaluated, evalKey⟩, _⟩ := overlapFact_ok facts
        rw [DatasetOverlapFact.isComplete, Bool.and_eq_true] at complete
        cases split : scan.key.2 with
        | train =>
          have key : scan.key = fact.trainScan.key := by rw [trainKey, ← same, ← split]
          rw [run.unique (by decide) member trained key, complete.1] at incomplete
          cases incomplete
        | eval =>
          have key : scan.key = fact.evalScan.key := by rw [evalKey, ← same, ← split]
          rw [run.unique (by decide) member evaluated key, complete.2] at incomplete
          cases incomplete
      · exact absurd (rule.symm.trans other) (by decide)
    · rcases mem_contextAlignmentFindings alignment mine with other | other
      · exact absurd (rule.symm.trans other) (by decide)
      · exact absurd (rule.symm.trans other) (by decide)
  · intro scan member split incomplete finding found
    rcases origin finding found with ⟨arm, fact, _, mine⟩ | mine
    · obtain ⟨_, ⟨rule, _⟩ | ⟨rule, _⟩ | rule⟩ := mem_overlapFindings mine
      · rw [rule]
        decide
      · rw [rule]
        decide
      · rw [rule]
        decide
    · rcases contextAlignmentFindings_ok alignment with rfl | complete
      · cases mine
      · obtain ⟨other, otherMember, key, whole⟩ := complete scan.key.1
        have same : scan.key = other.key := by rw [key, ← split]
        rw [run.unique (by decide) member otherMember same, whole] at incomplete
        cases incomplete
  · intro finding found rule arm concerns
    rcases origin finding found with ⟨other, fact, facts, mine⟩ | mine
    · obtain ⟨about, ⟨_, overlapping⟩ | ⟨different, _⟩ | different⟩ := mem_overlapFindings mine
      · obtain rfl := about arm concerns
        exact (overlapFact_authority run (distinct arm) facts).2 overlapping
      · exact absurd (rule.symm.trans different) (by decide)
      · exact absurd (rule.symm.trans different) (by decide)
    · rcases mem_contextAlignmentFindings alignment mine with different | different
      · exact absurd (rule.symm.trans different) (by decide)
      · exact absurd (rule.symm.trans different) (by decide)
  · intro summary member
    rcases List.mem_cons.mp member with rfl | member
    · exact (overlapFact_authority run (distinct .baseline) left).1
    · obtain rfl := List.mem_singleton.mp member
      exact (overlapFact_authority run (distinct .candidate) right).1
  · intro scan member failed
    obtain ⟨stored, leaves⟩ := run.stored scan member
    obtain rfl := leaves.failed failed
    have perm := leaves.holds.rows_perm
    simpa using perm

/-- The default budgets, but for one record. -/
def oneRecordLimits : StreamingLimits :=
  { StreamingLimits.default with maxSemanticRecords := 1, bounded := by decide }

/-- The baseline training file has a second record, behind the budget. -/
def partialSources : DatasetSources := fun key =>
  if key = (.baseline, .train) then
    ⟨"train.jsonl", hexdigest 0xa6e2b7a040683432de03a18fd8a1939a2fdf82585b364bfc874bdd4095c4cae1,
      [.block [0x31, 0x0A, 0x32, 0x0A]], fun _ => true⟩
  else oneRecordSources key

def partialContext : Except Error DatasetScanAuditContext :=
  streamDatasetAuditContext { streamSample 8192 with limits := oneRecordLimits } 8192 partialSources

theorem streamedAudit_authority_sample :
    ∃ context overlaps findings, partialContext = .ok context ∧
      (∃ scan ∈ context.scans, scan.completeness.isComplete = false) ∧
      checkStreamingDatasetContext streamSampleRuntime context = .ok (overlaps, findings) ∧
      ScanAuthority partialSources context overlaps findings := by
  have scanned : (match partialContext with
      | .ok context => context.scans.any (fun scan => !scan.completeness.isComplete) &&
          (checkStreamingDatasetContext streamSampleRuntime context).isOk
      | .error _ => false) = true := by decide +kernel
  split at scanned
  next context found =>
    rw [Bool.and_eq_true, List.any_eq_true] at scanned
    obtain ⟨⟨scan, member, incomplete⟩, returned⟩ := scanned
    cases checked : checkStreamingDatasetContext streamSampleRuntime context with
    | error error => rw [checked] at returned; cases returned
    | ok result =>
      have distinct : ∀ arm, DigestsDistinct streamSampleRuntime
          (encodingsIn (partialSources (arm, .train)).content ++
            encodingsIn (partialSources (arm, .eval)).content) := by
        intro arm
        cases arm <;> decide +kernel
      exact ⟨context, result.1, result.2, found, ⟨scan, member, by simpa using incomplete⟩, checked,
        streamedAudit_authority { streamSample 8192 with limits := oneRecordLimits } 8192
          partialSources context _ _ distinct found checked⟩
  · cases scanned

end ClaimCI
