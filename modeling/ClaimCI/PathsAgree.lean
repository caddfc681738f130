import ClaimCI.Analysis.ScanComplete
import ClaimCI.DatasetCommitment

/-!
# Agreement of the two dataset paths

Loading the four files and scanning them into a store lead to the same reports, unless a line of
text means different things to a reader of lines and a reader of text.
-/

open Python

namespace ClaimCI

/-! ### The reports -/

/-- What the native path reports on four loaded files. -/
def nativeDatasetChecks (datasets : SplitKey → DatasetHashes) :
    List OverlapSummary × List Finding :=
  let baseline := checkDatasetLeakage .baseline (datasets (.baseline, .train))
    (datasets (.baseline, .eval))
  let candidate := checkDatasetLeakage .candidate (datasets (.candidate, .train))
    (datasets (.candidate, .eval))
  ([baseline.1, candidate.1], baseline.2 ++ candidate.2 ++
    checkEvaluationAlignment (datasets (.baseline, .eval)) (datasets (.candidate, .eval)))

/-- The counts and the rate of an overlap. -/
def OverlapSummary.counts (summary : OverlapSummary) : Arm × Nat × Nat × Nat × Binary64 :=
  (summary.experiment, summary.trainCount, summary.evalCount, summary.overlapCount,
    summary.overlapRate)

/-- The fields of evidence that hold a count or a rate. -/
def COUNT_FIELDS : List Str :=
  ["train_count", "eval_count", "overlap_count", "overlap_rate", "baseline_eval_count",
    "candidate_eval_count", "matching_count", "baseline_only_count", "candidate_only_count"]

/-- What a finding says: its rule, its impact and the counts it rests on. -/
def Finding.says (finding : Finding) : Str × Impact × List (Option Value) :=
  (finding.ruleId, finding.impact, COUNT_FIELDS.map fun field => lookupKey field finding.evidence)

/-- Two reports with the same counts and rates, and the same rules, impacts and counts. -/
structure SameReport (native streamed : List OverlapSummary × List Finding) : Prop where
  overlaps : native.1.map OverlapSummary.counts = streamed.1.map OverlapSummary.counts
  findings : native.2.map Finding.says = streamed.2.map Finding.says

/-- The streaming path accepts the file of a split: its scan is complete. -/
def ScanAccepts (env : StreamRuntime) (schemaBytes : Nat) (sources : DatasetSources)
    (key : SplitKey) : Prop :=
  ∃ context scan, streamDatasetAuditContext env schemaBytes sources = .ok context ∧
    context.scan key = .ok scan ∧ scan.completeness.isComplete = true

/-- Both paths accept the same files; when they accept all four, both return the same report. -/
structure PathsAgree (env : StreamRuntime) (schemaBytes : Nat) (sources : DatasetSources)
    (paths : SplitKey → Str) : Prop where
  accepts : ∀ key, ScanAccepts env schemaBytes sources key ↔
    ∃ dataset, loadDataset env.runtime (paths key) = .ok dataset
  reports : ∀ datasets : SplitKey → DatasetHashes,
    (∀ key, loadDataset env.runtime (paths key) = .ok (datasets key)) →
    (∀ key, ScanAccepts env schemaBytes sources key) →
    ∃ context streamed, streamDatasetAuditContext env schemaBytes sources = .ok context ∧
      checkStreamingDatasetContext env.runtime context = .ok streamed ∧
      SameReport (nativeDatasetChecks datasets) streamed

/-! ### Limits, and where the paths part -/

/-- Four files within the size, record and nesting limits of both paths. -/
structure WithinBoth (env : StreamRuntime) (schemaBytes : Nat) (sources : DatasetSources)
    (paths : SplitKey → Str) : Prop where
  reliable : Reliable env
  schema : schemaBytes ≤ env.limits.maxScratchBytes
  scans : ∀ key, WithinLimits env (sources key)
  bytes : ∀ key, env.runtime.readBytes (paths key) = .ok (sources key).content
  resolves : ∀ key, ∃ resolved, env.runtime.resolve (paths key) = .ok resolved
  shallow : ∀ key text, decodeUtf8 (sources key).content = some text →
    ∀ line ∈ split LF text, ShallowLine line

/-- A file that one of the two readings takes, with a line that means different things to them:
a carriage return stands between two parts that are no whitespace, or the line holds nothing but
whitespace, and not only that of ASCII. -/
def AmbiguousFile (rt : Runtime) (content : Bytes) : Prop :=
  ∃ text, decodeUtf8 content = some text ∧ (∃ line ∈ split LF text, Ambiguous line) ∧
    ((LinesRead rt text ∧ (split LF text).filterMap (textDigest rt) ≠ []) ∨
      (PiecesRead rt text ∧ (pieces text).filterMap (pieceDigest rt) ≠ []))

/-- What the identity of an evaluation dataset is the digest of. -/
def evaluationMaterial (rt : Runtime) (sources : DatasetSources) (arm : Arm) : Bytes :=
  asciiEncode (identityMaterial (batchParameters (digestsIn rt (sources (arm, .eval)).content)))

/-! ### Acceptance -/

theorem filledLines_eq_zero_iff {rt : Runtime} {lines : List (Bytes × Nat)}
    (taken : ∀ line ∈ lines, Taken rt line.1) :
    filledLines lines = 0 ↔ lineDigests rt lines = [] := by
  rw [filledLines, List.length_eq_zero_iff, List.filter_eq_nil_iff, lineDigests,
    List.filterMap_eq_nil_iff]
  refine forall₂_congr fun line member => ?_
  rw [Bool.not_eq_true', Bool.not_eq_false]
  constructor
  · intro blank
    simp [lineDigest, lineRecord, blank]
  · intro none
    refine (taken line member).resolve_right ?_
    rw [none]
    exact Bool.false_ne_true

/-- A scan within the limits accepts the files whose lines read, at least one of them. -/
theorem passes_iff (rt : Runtime) (content : Bytes) :
    Passes rt (contentLines content) 0 ↔ ∃ text, decodeUtf8 content = some text ∧
      LinesRead rt text ∧ (split LF text).filterMap (textDigest rt) ≠ [] := by
  rw [Passes, Nat.zero_add]
  constructor
  · rintro ⟨taken, filled⟩
    obtain ⟨text, decoded, read⟩ := (allTaken_iff rt content).mp taken
    refine ⟨text, decoded, read, ?_⟩
    rw [← digestsIn_decoded rt decoded]
    exact fun none => filled ((filledLines_eq_zero_iff taken).mpr none)
  · rintro ⟨text, decoded, read, digests⟩
    have taken := (allTaken_iff rt content).mpr ⟨text, decoded, read⟩
    refine ⟨taken, fun none => digests ?_⟩
    rw [← digestsIn_decoded rt decoded]
    exact (filledLines_eq_zero_iff taken).mp none

theorem scanAccepts_iff {env : StreamRuntime} {schemaBytes : Nat} {sources : DatasetSources}
    {paths : SplitKey → Str} (within : WithinBoth env schemaBytes sources paths) (key : SplitKey) :
    ScanAccepts env schemaBytes sources key ↔
      ∃ text, decodeUtf8 (sources key).content = some text ∧ LinesRead env.runtime text ∧
        (split LF text).filterMap (textDigest env.runtime) ≠ [] := by
  obtain ⟨context, opened, scans⟩ := streamDatasetAuditContext_fits within.reliable within.schema
    within.scans
  obtain ⟨scan, found, complete⟩ := scans key
  rw [← passes_iff, ← complete]
  constructor
  · rintro ⟨other, otherScan, otherOpened, otherFound, accepted⟩
    obtain rfl := Except.ok.inj (opened.symm.trans otherOpened)
    obtain rfl := Except.ok.inj (found.symm.trans otherFound)
    exact accepted
  · exact fun accepted => ⟨context, scan, opened, found, accepted⟩

/-- The loader accepts the files whose pieces read, at least one of them. -/
theorem loadAccepts_iff {env : StreamRuntime} {schemaBytes : Nat} {sources : DatasetSources}
    {paths : SplitKey → Str} (within : WithinBoth env schemaBytes sources paths) (key : SplitKey) :
    (∃ dataset, loadDataset env.runtime (paths key) = .ok dataset) ↔
      ∃ text, decodeUtf8 (sources key).content = some text ∧ PiecesRead env.runtime text ∧
        (pieces text).filterMap (pieceDigest env.runtime) ≠ [] := by
  simp only [loadDataset_ok_iff (within.bytes key)]
  constructor
  · rintro ⟨dataset, _, nonempty, text, decoded, read, digests⟩
    exact ⟨text, decoded, read, digests ▸ nonempty⟩
  · rintro ⟨text, decoded, read, digests⟩
    obtain ⟨resolved, found⟩ := within.resolves key
    exact ⟨⟨resolved, _⟩, found, digests, text, decoded, read, rfl⟩

/-- The two readings of a text without ambiguous lines. -/
theorem read_iff_of_clear {rt : Runtime} {text : Str}
    (shallow : ∀ line ∈ split LF text, ShallowLine line)
    (clear : ∀ line ∈ split LF text, ¬ Ambiguous line) : LinesRead rt text ↔ PiecesRead rt text := by
  rw [piecesRead_iff]
  exact forall₂_congr fun line member => line_iff_of_clear (shallow line member) (clear line member)

/-- A text that both readings take has no ambiguous line. -/
theorem clear_of_both {rt : Runtime} {text : Str} (read : LinesRead rt text)
    (readPieces : PiecesRead rt text) : ∀ line ∈ split LF text, ¬ Ambiguous line := by
  rw [piecesRead_iff] at readPieces
  exact fun line member => (line_of_both (read line member) (readPieces line member)).1

theorem accepts_iff {env : StreamRuntime} {schemaBytes : Nat} {sources : DatasetSources}
    {paths : SplitKey → Str} (within : WithinBoth env schemaBytes sources paths) (key : SplitKey) :
    (ScanAccepts env schemaBytes sources key ↔
      ∃ dataset, loadDataset env.runtime (paths key) = .ok dataset) ↔
    ¬ AmbiguousFile env.runtime (sources key).content := by
  rw [scanAccepts_iff within, loadAccepts_iff within]
  constructor
  · rintro agree ⟨text, decoded, ⟨line, member, ambiguous⟩, taken⟩
    -- one reading takes the file, so both do, and then no line is ambiguous
    have both : LinesRead env.runtime text ∧ PiecesRead env.runtime text := by
      rcases taken with ⟨read, some⟩ | ⟨read, some⟩
      · obtain ⟨other, same, readPieces, _⟩ := agree.mp ⟨text, decoded, read, some⟩
        obtain rfl := Option.some.inj (decoded.symm.trans same)
        exact ⟨read, readPieces⟩
      · obtain ⟨other, same, readLines, _⟩ := agree.mpr ⟨text, decoded, read, some⟩
        obtain rfl := Option.some.inj (decoded.symm.trans same)
        exact ⟨readLines, read⟩
    exact clear_of_both both.1 both.2 line member ambiguous
  · intro unambiguous
    refine exists_congr fun text => and_congr_right fun decoded => ?_
    have shallow := within.shallow key text decoded
    constructor
    · rintro ⟨read, some⟩
      have clear : ∀ line ∈ split LF text, ¬ Ambiguous line := fun line member ambiguous =>
        unambiguous ⟨text, decoded, ⟨line, member, ambiguous⟩, .inl ⟨read, some⟩⟩
      have readPieces := (read_iff_of_clear shallow clear).mp read
      exact ⟨readPieces, by rwa [digests_of_both read readPieces]⟩
    · rintro ⟨readPieces, some⟩
      have clear : ∀ line ∈ split LF text, ¬ Ambiguous line := fun line member ambiguous =>
        unambiguous ⟨text, decoded, ⟨line, member, ambiguous⟩, .inr ⟨readPieces, some⟩⟩
      have read := (read_iff_of_clear shallow clear).mpr readPieces
      exact ⟨read, by rwa [← digests_of_both read readPieces]⟩

/-! ### The reports of accepted files -/

/-- The overlap of two splits is reported alike. -/
theorem overlap_same (arm : Arm) {train eval : DatasetHashes} {fact : DatasetOverlapFact}
    (complete : fact.isComplete = true) (trainCount : fact.trainCount = train.hashes.length)
    (evalCount : fact.evalCount = eval.hashes.length)
    (overlapCount : fact.overlapCount = intersectionCount train.hashes eval.hashes) :
    (checkDatasetLeakage arm train eval).1.counts = (overlapFindings arm fact).1.counts ∧
      (checkDatasetLeakage arm train eval).2.map Finding.says =
        (overlapFindings arm fact).2.map Finding.says := by
  unfold checkDatasetLeakage overlapFindings
  simp only [complete, if_true, List.append_nil, trainCount, evalCount, overlapCount]
  split
  · refine ⟨rfl, ?_⟩
    simp only [streamedLeakageFinding, complete, if_true, trainCount, evalCount, overlapCount]
    rfl
  · refine ⟨rfl, ?_⟩
    simp only [streamedNoLeakageFinding, trainCount, evalCount]
    rfl

/-- The alignment of the evaluation splits is reported alike. -/
theorem alignment_same {baseline candidate : DatasetHashes} (scan other : DatasetSplitScan)
    (fact : DatasetAlignmentFact)
    (baselineCount : fact.baseline.recordCount = baseline.hashes.length)
    (candidateCount : fact.candidate.recordCount = candidate.hashes.length)
    (matching : fact.matchingCount = intersectionCount baseline.hashes candidate.hashes)
    (baselineOnly : fact.baselineOnlyCount = differenceCount baseline.hashes candidate.hashes)
    (candidateOnly : fact.candidateOnlyCount = differenceCount candidate.hashes baseline.hashes)
    (aligned : fact.baseline = fact.candidate ↔ baseline.hashes.Perm candidate.hashes) :
    (checkEvaluationAlignment baseline candidate).map Finding.says =
      (streamedAlignmentFindings scan other fact).map Finding.says := by
  unfold checkEvaluationAlignment streamedAlignmentFindings
  simp only [baselineCount, candidateCount, matching, baselineOnly, candidateOnly]
  by_cases same : baseline.hashes.Perm candidate.hashes
  · rw [if_pos ((sameCounts_iff _ _).mpr same), if_pos (aligned.mpr same)]
    rfl
  · rw [if_neg fun counts => same ((sameCounts_iff _ _).mp counts),
      if_neg fun identity => same (aligned.mp identity)]
    rfl

/-! ### Agreement -/

/-- The digests of the materials that the identities of both evaluation datasets are made from. -/
def EvaluationDigestsDistinct (rt : Runtime) (sources : DatasetSources) : Prop :=
  DigestsDistinct rt [evaluationMaterial rt sources .baseline, evaluationMaterial rt sources .candidate]

/-- Two evaluation datasets have one identity exactly when their hashes agree as multisets. -/
theorem identity_eq_iff {rt : Runtime} {baseline candidate : DatasetHashes}
    {left right : MultisetIdentity} (hex : ∀ hash ∈ baseline.hashes, isSha256 hash = true)
    (otherHex : ∀ hash ∈ candidate.hashes, isSha256 hash = true)
    (few : baseline.hashes.length ≤ 10000000) (otherFew : candidate.hashes.length ≤ 10000000)
    (distinct : DigestsDistinct rt [
      asciiEncode (identityMaterial (batchParameters baseline.hashes)),
      asciiEncode (identityMaterial (batchParameters candidate.hashes))])
    (hl : loadedIdentity rt baseline.hashes = some left)
    (hr : loadedIdentity rt candidate.hashes = some right) :
    left = right ↔ baseline.hashes.Perm candidate.hashes := by
  have material := loadedMaterial_eq few
  have otherMaterial := loadedMaterial_eq otherFew
  rw [loadedMaterial] at material otherMaterial
  rw [loadedIdentity, material, Option.map_some] at hl
  rw [loadedIdentity, otherMaterial, Option.map_some] at hr
  constructor
  · intro same
    have digest : rt.sha256 (asciiEncode (identityMaterial (batchParameters baseline.hashes))) =
        rt.sha256 (asciiEncode (identityMaterial (batchParameters candidate.hashes))) := by
      have equal := same ▸ Option.some.inj hl
      rw [← Option.some.inj hr] at equal
      exact congrArg MultisetIdentity.canonicalSha256 equal
    have text := asciiEncode_injective (identityMaterial_ascii _) (identityMaterial_ascii _)
      (distinct _ (by simp) _ (by simp) digest)
    refine perm_of_loadedMaterial hex otherHex (loadedMaterial_eq few) ?_
    rw [loadedMaterial_eq otherFew, text]
  · intro perm
    have same := loadedIdentity_eq_of_perm rt perm
    rw [loadedIdentity, loadedIdentity, material, otherMaterial, Option.map_some, Option.map_some,
      hl, hr] at same
    exact Option.some.inj same

theorem evaluationIdentity_ok {rt : Runtime} {context : DatasetScanAuditContext} {arm : Arm}
    {scan : DatasetSplitScan} {identity : MultisetIdentity} (found : context.scan (arm, .eval) = .ok scan)
    (complete : scan.completeness.isComplete = true)
    (identified : multisetIdentity rt context (arm, .eval) = .ok identity) :
    evaluationIdentity rt context arm = .ok (some identity) := by
  rw [evaluationIdentity, found]
  simp only [bind, Except.bind, complete, if_true, identified]

theorem overlapFact_of_scans {context : DatasetScanAuditContext} {arm : Arm}
    {train eval : DatasetSplitScan} (foundTrain : context.scan (arm, .train) = .ok train)
    (foundEval : context.scan (arm, .eval) = .ok eval) :
    ∃ fact, overlapFact context arm = .ok fact ∧ fact.trainScan = train ∧ fact.evalScan = eval ∧
      fact.trainCount = context.store.committed.total (arm, .train) ∧
      fact.evalCount = context.store.committed.total (arm, .eval) ∧
      fact.overlapCount = context.store.committed.overlap (arm, .train) (arm, .eval) := by
  rw [overlapFact, foundTrain, foundEval]
  exact ⟨_, rfl, rfl, rfl, rfl, rfl, rfl⟩

theorem checkStreamingDatasetContext_of_facts {rt : Runtime} {context : DatasetScanAuditContext}
    {baselineFact candidateFact : DatasetOverlapFact} {baseline candidate : MultisetIdentity}
    {baselineScan candidateScan : DatasetSplitScan}
    (baselineFound : overlapFact context .baseline = .ok baselineFact)
    (candidateFound : overlapFact context .candidate = .ok candidateFact)
    (identifiedBaseline : evaluationIdentity rt context .baseline = .ok (some baseline))
    (identifiedCandidate : evaluationIdentity rt context .candidate = .ok (some candidate))
    (foundBaseline : context.scan (.baseline, .eval) = .ok baselineScan)
    (foundCandidate : context.scan (.candidate, .eval) = .ok candidateScan) :
    checkStreamingDatasetContext rt context =
      .ok ([(overlapFindings .baseline baselineFact).1, (overlapFindings .candidate candidateFact).1],
        (overlapFindings .baseline baselineFact).2 ++ (overlapFindings .candidate candidateFact).2 ++
          streamedAlignmentFindings baselineScan candidateScan
            (alignmentFact context baseline candidate)) := by
  have aligned : contextAlignmentFindings rt context = .ok (streamedAlignmentFindings baselineScan
      candidateScan (alignmentFact context baseline candidate)) := by
    rw [contextAlignmentFindings, evaluationAlignmentFact, identifiedBaseline, identifiedCandidate,
      foundBaseline, foundCandidate]
    rfl
  rw [checkStreamingDatasetContext, baselineFound, candidateFound, aligned]
  rfl

/-- For four files that both paths accept, the reports agree. -/
theorem sameReport {env : StreamRuntime} {schemaBytes : Nat} {sources : DatasetSources}
    {paths : SplitKey → Str} {datasets : SplitKey → DatasetHashes}
    {context : DatasetScanAuditContext} (hex : HexDigests env.runtime)
    (distinct : EvaluationDigestsDistinct env.runtime sources)
    (accepted : ∀ key, AcceptedByBoth env schemaBytes sources key (paths key) (datasets key) context) :
    ∃ streamed, checkStreamingDatasetContext env.runtime context = .ok streamed ∧
      SameReport (nativeDatasetChecks datasets) streamed := by
  have holds key := (accepted key).holds
  have digits : ∀ key, ∀ hash ∈ (datasets key).hashes, isSha256 hash = true := by
    intro key hash member
    obtain ⟨raw, rfl⟩ := hash_of_loaded (accepted key).loaded hash member
    exact hex raw
  -- the facts of one arm
  have facts : ∀ arm, ∃ fact, overlapFact context arm = .ok fact ∧ fact.isComplete = true ∧
      fact.trainCount = (datasets (arm, .train)).hashes.length ∧
      fact.evalCount = (datasets (arm, .eval)).hashes.length ∧
      fact.overlapCount = intersectionCount (datasets (arm, .train)).hashes
        (datasets (arm, .eval)).hashes := by
    intro arm
    obtain ⟨train, foundTrain, completeTrain⟩ := (accepted (arm, .train)).complete
    obtain ⟨eval, foundEval, completeEval⟩ := (accepted (arm, .eval)).complete
    obtain ⟨fact, found, ofTrain, ofEval, trainTotal, evalTotal, overlap⟩ :=
      overlapFact_of_scans foundTrain foundEval
    refine ⟨fact, found, ?_, trainTotal.trans (holds (arm, .train)).1.total,
      evalTotal.trans (holds (arm, .eval)).1.total,
      overlap.trans ((holds (arm, .train)).1.overlap (holds (arm, .eval)).1)⟩
    rw [DatasetOverlapFact.isComplete, ofTrain, ofEval, completeTrain, completeEval]
    rfl
  have identities : ∀ arm, ∃ scan identity, context.scan (arm, .eval) = .ok scan ∧
      evaluationIdentity env.runtime context arm = .ok (some identity) ∧
      loadedIdentity env.runtime (datasets (arm, .eval)).hashes = some identity := by
    intro arm
    obtain ⟨scan, found, complete⟩ := (accepted (arm, .eval)).complete
    obtain ⟨identity, identified, loaded⟩ := (accepted (arm, .eval)).identity
    exact ⟨scan, identity, found, evaluationIdentity_ok found complete identified, loaded⟩
  have counted : ∀ {arm identity},
      loadedIdentity env.runtime (datasets (arm, .eval)).hashes = some identity →
      identity.recordCount = (datasets (arm, .eval)).hashes.length := by
    intro arm identity loaded
    rw [loadedIdentity] at loaded
    obtain ⟨_, _, rfl⟩ := Option.map_eq_some_iff.mp loaded
    rfl
  have materials : ∀ arm, evaluationMaterial env.runtime sources arm =
      asciiEncode (identityMaterial (batchParameters (datasets (arm, .eval)).hashes)) := by
    intro arm
    obtain ⟨scan, found, complete⟩ := (accepted (arm, .eval)).complete
    obtain ⟨member, keyed⟩ := scan_ok found
    obtain ⟨stored, leaves⟩ := (streamDatasetAuditContext_ok (accepted (arm, .eval)).opened).stored
      scan member
    have taken := (leaves.complete complete).2.2.2
    rw [keyed] at taken
    rw [evaluationMaterial, loadDataset_hashes (accepted (arm, .eval)).bytes
      (accepted (arm, .eval)).loaded taken]
  obtain ⟨baselineFact, baselineFound, baselineComplete, baselineTrain, baselineEval,
    baselineOverlap⟩ := facts .baseline
  obtain ⟨candidateFact, candidateFound, candidateComplete, candidateTrain, candidateEval,
    candidateOverlap⟩ := facts .candidate
  obtain ⟨baselineScan, baseline, foundBaseline, identifiedBaseline, loadedBaseline⟩ :=
    identities .baseline
  obtain ⟨candidateScan, candidate, foundCandidate, identifiedCandidate, loadedCandidate⟩ :=
    identities .candidate
  have aligned := identity_eq_iff (digits (.baseline, .eval)) (digits (.candidate, .eval))
    (holds (.baseline, .eval)).2.2 (holds (.candidate, .eval)).2.2
    (by rw [← materials, ← materials]; exact distinct) loadedBaseline loadedCandidate
  have baselineSame := overlap_same .baseline baselineComplete baselineTrain baselineEval
    baselineOverlap
  have candidateSame := overlap_same .candidate candidateComplete candidateTrain
    candidateEval candidateOverlap
  have alignment := alignment_same baselineScan candidateScan
    (alignmentFact context baseline candidate) (counted loadedBaseline)
    (counted loadedCandidate) ((holds (.baseline, .eval)).1.overlap (holds (.candidate, .eval)).1)
    ((holds (.baseline, .eval)).1.excess_sum (holds (.candidate, .eval)).1)
    ((holds (.candidate, .eval)).1.excess_sum (holds (.baseline, .eval)).1) aligned
  refine ⟨_, checkStreamingDatasetContext_of_facts baselineFound candidateFound identifiedBaseline
    identifiedCandidate foundBaseline foundCandidate, ?_, ?_⟩
  · simp only [nativeDatasetChecks, List.map_cons, List.map_nil, baselineSame.1, candidateSame.1]
  · simp only [nativeDatasetChecks, List.map_append, baselineSame.2, candidateSame.2, alignment]

/-- Within the limits of both, the two paths agree exactly when no file holds an ambiguous line. -/
theorem pathsAgree_iff (env : StreamRuntime) (schemaBytes : Nat) (sources : DatasetSources)
    (paths : SplitKey → Str) (within : WithinBoth env schemaBytes sources paths)
    (hex : HexDigests env.runtime) (distinct : EvaluationDigestsDistinct env.runtime sources) :
    PathsAgree env schemaBytes sources paths ↔
      ∀ key, ¬ AmbiguousFile env.runtime (sources key).content := by
  constructor
  · exact fun agree key => (accepts_iff within key).mp (agree.accepts key)
  · intro clear
    refine ⟨fun key => (accepts_iff within key).mpr (clear key), ?_⟩
    intro datasets loaded scanned
    obtain ⟨context, _, opened, _, _⟩ := scanned (.baseline, .eval)
    have accepted : ∀ key,
        AcceptedByBoth env schemaBytes sources key (paths key) (datasets key) context := by
      intro key
      obtain ⟨other, scan, otherOpened, found, complete⟩ := scanned key
      obtain rfl := Except.ok.inj (opened.symm.trans otherOpened)
      exact ⟨within.bytes key, loaded key, opened, scan, found, complete⟩
    obtain ⟨streamed, checked, same⟩ := sameReport hex distinct accepted
    exact ⟨context, streamed, opened, checked, same⟩

/-! ### Files on which the paths agree, and one on which they do not -/

theorem lineFits_of_check {env : StreamRuntime} {raw : Bytes}
    (check : ((lineRecord raw).all fun value =>
      env.recursion.fits value && (validateRecordGraph env.limits value).isOk) = true) :
    LineFits env raw := by
  intro value found
  rw [found, Option.all_some, Bool.and_eq_true] at check
  refine ⟨check.1, ?_⟩
  cases valid : validateRecordGraph env.limits value with
  | error stop => rw [valid] at check; cases check.2
  | ok done => rfl

theorem shallowLine_of_check {line : Str}
    (check : (line :: split CR line).all (fun piece => (loads strictLoad piece).all fun value =>
      value.depth ≤ MAX_NESTING_DEPTH) = true) : ShallowLine line := by
  rw [List.all_eq_true] at check
  rintro value (found | ⟨piece, member, found⟩)
  · simpa [found] using check line List.mem_cons_self
  · simpa [found] using check piece (List.mem_cons_of_mem _ member)

/-- A lone carriage return between two records. -/
def carriageReturnRecords : Bytes := [0x31, 0x0D, 0x32, 0x0A]

def carriageReturnDigest : Str :=
  hexdigest 0x40d52ebd2d6130735af2e420e31a04e7b9095f43228134557a2b0c492c971dc8

def threeRecordsDigest : Str :=
  hexdigest 0x57e50702eb22b4b06cac50993a5cb61dd3823023a76c735fd6925fa62fee0122

/-- Every split is the file of three records, but for the one that is given. -/
def pathsSources (content : Bytes) (digest : Str) : DatasetSources := fun key =>
  if key = (.baseline, .train) then ⟨"train.jsonl", digest, [.block content], fun _ => true⟩
  else threeRecordSources key

def jsonlPaths : SplitKey → Str := fun key =>
  if key = (.baseline, .train) then lit "train.jsonl" else lit "eval.jsonl"

def pathsRuntime (content : Bytes) : Runtime :=
  { commitmentRuntime with
    readBytes := fun path => .ok (if path = lit "train.jsonl" then content else threeRecords) }

def pathsStream (content : Bytes) : StreamRuntime :=
  { commitmentStream with runtime := pathsRuntime content }

/-- What is checked of a sample file. -/
def sampleFits (content : Bytes) : Bool :=
  decide (content.length ≤ 6 ∧ filledLines (contentLines content) ≤ 6) &&
  (contentLines content).all (fun line => decide (line.1.length ≤ 6) &&
    (lineRecord line.1).all fun value => (validateRecordGraph .default value).isOk) &&
  (decodeUtf8 content).all fun text => (split LF text).all fun line =>
    (line :: split CR line).all fun piece => (loads strictLoad piece).all fun value =>
      value.depth ≤ MAX_NESTING_DEPTH

theorem withinBoth_sample (content : Bytes) (digest : Str) (fits : sampleFits content = true) :
    WithinBoth (pathsStream content) 8192 (pathsSources content digest) jsonlPaths := by
  have fit : ∀ key, sampleFits (pathsSources content digest key).content = true := by
    intro key
    have three : sampleFits threeRecords = true := by decide +kernel
    unfold pathsSources
    split
    · simpa [ArtifactSource.content, Read.content] using fits
    · exact three
  -- the default limits are far above the sample
  have defaults : 8192 ≤ StreamingLimits.default.maxScratchBytes ∧
      6 ≤ StreamingLimits.default.maxIntegrityBytes ∧
      6 ≤ StreamingLimits.default.maxSemanticBytes ∧
      6 ≤ StreamingLimits.default.maxLogicalRecordBytes ∧
      6 ≤ StreamingLimits.default.maxSemanticRecords := by decide
  obtain ⟨scratch, integrity, semantic, logical, records⟩ := defaults
  refine ⟨⟨fun _ => ⟨8192, rfl, scratch⟩, fun _ => rfl⟩, scratch, fun key => ?_, fun key => ?_,
    fun key => ⟨_, rfl⟩, fun key text decoded line member => ?_⟩
  · have checked := fit key
    simp only [sampleFits, Bool.and_eq_true, decide_eq_true_eq, List.all_eq_true] at checked
    obtain ⟨⟨⟨small, few⟩, lines⟩, _⟩ := checked
    refine ⟨?_, ?_, small.trans integrity, small.trans semantic,
      fun line member => (lines line member).1.trans logical, few.trans records,
      fun line member => lineFits_of_check ?_⟩
    · unfold pathsSources
      split
      · simp
      · simp [threeRecordSources]
    · unfold pathsSources
      split <;> exact fun _ => rfl
    · exact (lines line member).2
  · unfold pathsSources jsonlPaths
    split
    · exact congrArg Except.ok (List.append_nil content).symm
    · rfl
  · have checked := fit key
    rw [sampleFits, Bool.and_eq_true, decoded, Option.all_some, List.all_eq_true] at checked
    exact shallowLine_of_check (checked.2 line member)

theorem hexDigests_sample (content : Bytes) : HexDigests (pathsRuntime content) := by
  intro raw
  simp only [pathsRuntime, commitmentRuntime]
  split
  · exact isSha256_hexdigest _
  split
  · exact isSha256_hexdigest _
  · exact isSha256_hexdigest _

/-- The native path takes two records from the file, and the scan rejects it. -/
theorem carriageReturn_not_pathsAgree :
    WithinBoth (pathsStream carriageReturnRecords) 8192 (pathsSources carriageReturnRecords
        carriageReturnDigest) jsonlPaths ∧
      ¬ PathsAgree (pathsStream carriageReturnRecords) 8192 (pathsSources carriageReturnRecords
        carriageReturnDigest) jsonlPaths := by
  have within := withinBoth_sample carriageReturnRecords carriageReturnDigest (by decide +kernel)
  refine ⟨within, fun agree => ?_⟩
  have clear := (accepts_iff within (.baseline, .train)).mp (agree.accepts (.baseline, .train))
  have ambiguous : ∃ line ∈ split LF [0x31, CR, 0x32, LF], Ambiguous line := by decide +kernel
  have read : (pieces [0x31, CR, 0x32, LF]).all (fun piece => isBlank piece ||
      (pieceDigest (pathsRuntime carriageReturnRecords) piece).isSome) = true := by decide +kernel
  have some : (pieces [0x31, CR, 0x32, LF]).filterMap
      (pieceDigest (pathsRuntime carriageReturnRecords)) ≠ [] := by decide +kernel
  refine clear ⟨[0x31, CR, 0x32, LF], by decide +kernel, ambiguous, .inr ⟨?_, some⟩⟩
  intro piece member
  exact Bool.or_eq_true _ _ ▸ List.all_eq_true.mp read piece member

theorem pathsAgree_sample :
    PathsAgree (pathsStream threeRecords) 8192 (pathsSources threeRecords threeRecordsDigest)
      jsonlPaths := by
  refine (pathsAgree_iff _ _ _ _ (withinBoth_sample _ _ (by decide +kernel)) (hexDigests_sample _)
    ?_).mpr ?_
  · have same : evaluationMaterial (pathsStream threeRecords).runtime
          (pathsSources threeRecords threeRecordsDigest) .baseline =
        evaluationMaterial (pathsStream threeRecords).runtime
          (pathsSources threeRecords threeRecordsDigest) .candidate := rfl
    intro a ha b hb _
    rw [same] at ha hb
    simp only [List.mem_cons, List.not_mem_nil, or_false, or_self] at ha hb
    rw [ha, hb]
  · rintro key ⟨text, decoded, ⟨line, member, ambiguous⟩, _⟩
    have content : (pathsSources threeRecords threeRecordsDigest key).content = threeRecords := by
      unfold pathsSources
      split <;> rfl
    rw [content] at decoded
    have clear : (decodeUtf8 threeRecords).all (fun text =>
        (split LF text).all fun line => decide (¬ Ambiguous line)) = true := by decide +kernel
    rw [decoded, Option.all_some, List.all_eq_true] at clear
    exact of_decide_eq_true (clear line member) ambiguous

end ClaimCI
