import ClaimCI.AuditVerdict

/-!
# Exceptions of an audit

Which exceptions leave an audit. The handlers name the errors of files, of decoding, of JSON and of
YAML; the model here adds those the YAML loader raises for tagged scalars it cannot convert, and
the one that an existence check raises for a name the file system cannot represent.
-/

open Python

namespace ClaimCI

/-- The surroundings of an audit, with the exceptions that no handler of it names. -/
structure FaultyRuntime extends Runtime where
  /-- What `yaml.load` raises for the text instead of what `yamlLoad` has. -/
  yamlFault : Str → Option TagFault
  /-- The text of the `OSError` that `path.exists()` raises, if it raises one. -/
  existsFault : Str → Option Str

/-- An exception: one of those the audit knows, or one of the loader's. -/
inductive Raised where
  | error (error : Error)
  | fault (fault : TagFault)

/-- What `load_research_spec` makes of the manifest it read. -/
def manifestSpec (rt : Runtime) (manifestPath : Str) (root : Option Str) (manifest : Value) :
    Except Error ResearchSpec := do
  let payload ← manifestRoot manifest
  let claim ← manifestClaim payload
  let metric ← claimMetric claim
  let threshold ← claimThreshold claim
  let direction ← claimDirection claim
  let baseline ← manifestArm payload .baseline
  let candidate ← manifestArm payload .candidate
  let baselinePaths ← experimentPaths rt "baseline" baseline (rt.parent manifestPath) root
  let candidatePaths ← experimentPaths rt "candidate" candidate (rt.parent manifestPath) root
  .ok ⟨manifestPath, metric, threshold, baselinePaths, candidatePaths, direction⟩

namespace Raising

/-- A call that raises only what `Error` lists. -/
def known {α : Type} (result : Except Error α) : Except Raised α := result.mapError Raised.error

variable (ft : FaultyRuntime)

/-- The loader is given the text of the file, when there is one. -/
def convert (path : Str) : Except Raised Unit :=
  match ft.readText path with
  | .error _ => .ok ()
  | .ok source =>
    match ft.yamlFault source with
    | none => .ok ()
    | some fault => .error (.fault fault)

/-- The part of `load_research_spec` that reads the manifest. -/
def readManifest (manifestPath : Str) : Except Raised Value := do
  convert ft manifestPath
  known (ClaimCI.readManifest ft.toRuntime manifestPath)

def loadResearchSpec (path : Str) (artifactRoot : Option Str) : Except Raised ResearchSpec := do
  let resolved ← known (resolveManifest ft.toRuntime path artifactRoot)
  let manifest ← readManifest ft resolved.1
  known (manifestSpec ft.toRuntime resolved.1 resolved.2 manifest)

def loadConfig (path : Str) : Except Raised Config := do
  convert ft path
  known (ClaimCI.loadConfig ft.toRuntime path)

/-- `_artifact_failure`, which asks whether the artifact exists. -/
def artifactFailure (category : Category) (arm : Arm) (path message : Str) :
    Except Raised Finding :=
  match ft.existsFault path with
  | some text => .error (.error (.osError text))
  | none => .ok (ClaimCI.artifactFailure ft.toRuntime category arm path message)

/-- `try: load(...) except ClaimCIError`. -/
def attempt {α : Type} (category : Category) (arm : Arm) (path : Str) (load : Except Raised α) :
    Except Raised (Except Finding α) :=
  match load with
  | .ok loaded => .ok (.ok loaded)
  | .error (.error (.claimCI message)) => do
    let finding ← artifactFailure ft category arm path message
    .ok (.error finding)
  | .error raised => .error raised

def configSection (spec : ResearchSpec) : Except Raised (List Finding) := do
  let baseline ← attempt ft .config .baseline spec.baseline.config
    (loadConfig ft spec.baseline.config)
  let candidate ← attempt ft .config .candidate spec.candidate.config
    (loadConfig ft spec.candidate.config)
  .ok (failure baseline ++ failure candidate ++
    whenBoth (fun b c => configLoaded spec :: checkConfigs b c) baseline candidate)

/-- The comparison of two results that loaded, with its handler. -/
def compareLoaded (spec : ResearchSpec) (b c : LoadedResults) :
    Except Error (List Finding × Option ResultCheck) :=
  match checkResults b c spec.metric spec.minimumImprovement spec.direction with
  | .ok checked => .ok (checked.findings, some checked)
  | .error (.claimCI message) => .ok ([comparisonInvalid spec message], none)
  | .error error => .error error

def resultSection (spec : ResearchSpec) : Except Raised (List Finding × Option ResultCheck) := do
  let baseline ← attempt ft .result .baseline spec.baseline.results
    (known (loadResults ft.toRuntime spec.baseline.results spec.metric))
  let candidate ← attempt ft .result .candidate spec.candidate.results
    (known (loadResults ft.toRuntime spec.candidate.results spec.metric))
  match baseline, candidate with
  | .ok b, .ok c => known (compareLoaded spec b c)
  | _, _ => .ok (failure baseline ++ failure candidate, none)

def armDatasets (spec : ResearchSpec) (arm : Arm) : Except Raised ArmDatasets := do
  let paths := spec.arm arm
  let train ← attempt ft .dataset arm paths.trainDataset
    (known (loadDataset ft.toRuntime paths.trainDataset))
  let eval ← attempt ft .dataset arm paths.evalDataset
    (known (loadDataset ft.toRuntime paths.evalDataset))
  .ok ⟨eval.toOption, whenBoth (fun t e => [(checkDatasetLeakage arm t e).1]) train eval,
    failure train ++ failure eval ++
      whenBoth (fun t e => (checkDatasetLeakage arm t e).2) train eval⟩

def datasetSection (spec : ResearchSpec) : Except Raised (List Finding × List OverlapSummary) := do
  let baseline ← armDatasets ft spec .baseline
  let candidate ← armDatasets ft spec .candidate
  .ok (baseline.findings ++ candidate.findings ++ alignmentFindings baseline.eval candidate.eval,
    baseline.overlaps ++ candidate.overlaps)

/-- The audit of a loaded manifest. -/
def auditSpec (spec : ResearchSpec) : Except Raised AuditResult := do
  let configFindings ← configSection ft spec
  let results ← resultSection ft spec
  let datasets ← datasetSection ft spec
  let findings := configFindings ++ results.1 ++ datasets.1
  .ok {
    verdict := determineVerdict findings
    findings := findings
    manifestPath := spec.manifestPath
    metric := spec.metric
    minimumImprovement := spec.minimumImprovement
    baselineMetrics := results.2.map (·.baselineSummary)
    candidateMetrics := results.2.map (·.candidateSummary)
    absoluteImprovement := results.2.map (·.absoluteImprovement)
    relativeImprovement := results.2.bind (·.relativeImprovement)
    overlaps := datasets.2
    direction := spec.direction }

/-- `audit_research` without contexts. -/
def auditResearch (path : Str) (artifactRoot : Option Str) : Except Raised AuditResult := do
  let spec ← loadResearchSpec ft path artifactRoot
  auditSpec ft spec

end Raising

/-! ### Loaders raise only the audit's own error -/

/-- The call returns, or raises a `ClaimCIError`. -/
def Expected {α : Type} (result : Except Error α) : Prop :=
  ∀ error, result = .error error → ∃ message, error = .claimCI message

section Expected

variable {α β : Type}

theorem expected_ok (value : α) : Expected (.ok value : Except Error α) := by
  intro error h
  cases h

theorem expected_claimCI (message : Str) :
    Expected (.error (.claimCI message) : Except Error α) := by
  intro error h
  exact ⟨message, (Except.error.inj h).symm⟩

theorem Expected.bind {result : Except Error α} {next : α → Except Error β}
    (first : Expected result) (rest : ∀ value, result = .ok value → Expected (next value)) :
    Expected (result >>= next) := by
  cases result with
  | ok value => exact rest value rfl
  | error raised =>
    obtain ⟨message, rfl⟩ := first raised rfl
    exact expected_claimCI message

/-- A call that never raises anything else returns once its own errors are handled. -/
theorem Expected.cases {result : Except Error α} (h : Expected result) :
    (∃ value, result = .ok value) ∨ ∃ message, result = .error (.claimCI message) := by
  cases result with
  | ok value => exact .inl ⟨value, rfl⟩
  | error raised =>
    obtain ⟨message, rfl⟩ := h raised rfl
    exact .inr ⟨message, rfl⟩

end Expected

section Loaders

variable (rt : Runtime)

theorem expected_resolveManifest (path : Str) (root : Option Str) :
    Expected (resolveManifest rt path root) := by
  unfold resolveManifest
  split
  · exact expected_claimCI _
  split
  · exact expected_ok _
  split
  · exact expected_claimCI _
  split
  · exact expected_ok _
  · exact expected_claimCI _

theorem expected_readManifest (path : Str) : Expected (readManifest rt path) := by
  unfold readManifest
  split
  · exact expected_claimCI _
  · exact expected_claimCI _
  · exact expected_claimCI _
  split
  · exact expected_ok _
  · exact expected_claimCI _
  · exact expected_claimCI _

theorem expected_claimDirection (claim : List (Value × Value)) :
    Expected (claimDirection claim) := by
  unfold claimDirection
  split
  · exact expected_ok _
  split
  · exact expected_ok _
  · exact expected_claimCI _

theorem expected_experimentPath (label dir : Str) (root : Option Str) (field : Str)
    (raw : Option Value) : Expected (experimentPath rt label dir root field raw) := by
  unfold experimentPath
  split
  next rawPath =>
    split
    · exact expected_claimCI _
    split
    · exact expected_claimCI _
    split
    · exact expected_claimCI _
    split
    · exact expected_claimCI _
    split
    · exact expected_ok _
    split
    · exact expected_ok _
    · exact expected_claimCI _
  · exact expected_claimCI _

theorem expected_experimentPaths (label : Str) (value : Value) (dir : Str) (root : Option Str) :
    Expected (experimentPaths rt label value dir root) := by
  unfold experimentPaths
  split
  · have path := fun field raw => expected_experimentPath rt label dir root field raw
    apply (path _ _).bind fun _ _ => (path _ _).bind fun _ _ => (path _ _).bind fun _ _ =>
      (path _ _).bind fun _ _ => expected_ok _
  · exact expected_claimCI _

theorem expected_manifestSpec (manifestPath : Str) (root : Option Str) (manifest : Value) :
    Expected (manifestSpec rt manifestPath root manifest) := by
  -- each reader of a field raises nothing but a ClaimCIError, and so does their composition
  have rootOf : Expected (manifestRoot manifest) := by
    unfold manifestRoot
    split
    · exact expected_ok _
    · exact expected_claimCI _
  have claimOf : ∀ payload, Expected (manifestClaim payload) := by
    intro payload
    unfold manifestClaim
    split
    · exact expected_ok _
    · exact expected_claimCI _
  have metricOf : ∀ claim, Expected (claimMetric claim) := by
    intro claim
    unfold claimMetric
    split
    · split
      · exact expected_claimCI _
      · exact expected_ok _
    · exact expected_claimCI _
  have thresholdOf : ∀ claim, Expected (claimThreshold claim) := by
    intro claim
    unfold claimThreshold
    split
    · split
      · exact expected_claimCI _
      · exact expected_ok _
    · exact expected_claimCI _
  have armOf : ∀ payload arm, Expected (manifestArm payload arm) := by
    intro payload arm
    unfold manifestArm
    split
    · exact expected_ok _
    · exact expected_claimCI _
  exact rootOf.bind fun payload _ => (claimOf payload).bind fun claim _ =>
    (metricOf claim).bind fun _ _ => (thresholdOf claim).bind fun _ _ =>
    (expected_claimDirection claim).bind fun _ _ => (armOf payload .baseline).bind fun b _ =>
    (armOf payload .candidate).bind fun c _ => (expected_experimentPaths rt _ b _ root).bind
    fun _ _ => (expected_experimentPaths rt _ c _ root).bind fun _ _ => expected_ok _

/-- Loading a manifest is resolving it, reading it, and then what it says. -/
theorem loadResearchSpec_eq (path : Str) (root : Option Str) :
    loadResearchSpec rt path root =
      (resolveManifest rt path root >>= fun resolved =>
        readManifest rt resolved.1 >>= fun manifest =>
          manifestSpec rt resolved.1 resolved.2 manifest) := rfl

theorem expected_loadResearchSpec (path : Str) (root : Option Str) :
    Expected (loadResearchSpec rt path root) := by
  rw [loadResearchSpec_eq]
  exact (expected_resolveManifest rt path root).bind fun resolved _ =>
    (expected_readManifest rt resolved.1).bind fun manifest _ =>
      expected_manifestSpec rt resolved.1 resolved.2 manifest

theorem expected_loadConfig (path : Str) : Expected (loadConfig rt path) := by
  unfold loadConfig
  split
  · exact expected_claimCI _
  · exact expected_claimCI _
  · exact expected_claimCI _
  split
  · exact expected_claimCI _
  · exact expected_ok _
  · exact expected_claimCI _

theorem expected_finiteFloat (value : Decimal) (label : Str) :
    Expected (finiteFloat value label) := by
  unfold finiteFloat
  split
  · exact expected_claimCI _
  · exact expected_ok _

theorem expected_summarizeRuns (values : List Binary64) : Expected (summarizeRuns values) := by
  unfold summarizeRuns
  split
  · exact expected_claimCI _
  split
  · exact expected_claimCI _
  apply (expected_finiteFloat _ _).bind
  intro mean _
  split
  · split
    · exact expected_claimCI _
    · exact expected_ok _
  · exact expected_ok _

theorem expected_loadRun (path metric : Str) (index : Nat) (run : Json) :
    Expected (loadRun rt path metric index run) := by
  unfold loadRun
  split
  · split
    · exact expected_claimCI _
    split
    · exact expected_claimCI _
    split
    · exact expected_ok _
    · exact expected_ok _
  · exact expected_claimCI _

theorem expected_loadRuns (path metric : Str) (runs : List Json) (index : Nat) :
    Expected (loadRuns rt path metric index runs) := by
  induction runs generalizing index with
  | nil => exact expected_ok _
  | cons run runs ih =>
    exact (expected_loadRun rt path metric index run).bind fun _ _ =>
      (ih (index + 1)).bind fun _ _ => expected_ok _

theorem expected_loadClaimedSummary (path metric : Str) (payload : Members) :
    Expected (loadClaimedSummary rt path metric payload) := by
  unfold loadClaimedSummary
  split
  · exact expected_ok _
  · exact expected_ok _
  · dsimp only
    split
    · exact expected_ok _
    · exact expected_ok _
    split
    · exact expected_ok _
    · exact expected_claimCI _
  · exact expected_claimCI _

theorem expected_loadResults (path metric : Str) : Expected (loadResults rt path metric) := by
  -- reading, parsing and the runs each raise a ClaimCIError at most
  have read : Expected (readResults rt path) := by
    unfold readResults
    split
    · exact expected_ok _
    · exact expected_claimCI _
    · exact expected_claimCI _
    · exact expected_claimCI _
  have parse : ∀ raw, Expected (parseResults rt path raw) := by
    intro raw
    unfold parseResults
    split
    · exact expected_claimCI _
    split
    · exact expected_claimCI _
    split
    · exact expected_ok _
    · exact expected_claimCI _
  have declared : ∀ payload, Expected (declaredRuns path payload) := by
    intro payload
    unfold declaredRuns
    split
    · exact expected_ok _
    · exact expected_claimCI _
  apply read.bind fun raw _ => (parse raw).bind fun payload _ => (declared payload).bind
    fun runs _ => (expected_loadRuns rt path metric runs 1).bind fun loaded _ =>
    (expected_loadClaimedSummary rt path metric payload).bind fun _ _ =>
    (expected_summarizeRuns _).bind fun _ _ => ?_
  split
  · exact expected_claimCI _
  · exact expected_ok _

theorem expected_checkResults (b c : LoadedResults) (metric : Str) (minimum : Binary64)
    (direction : Direction) : Expected (checkResults b c metric minimum direction) := by
  have compare : ∀ baseline candidate : MetricSummary,
      Expected (metricSummaryComparison baseline candidate metric minimum direction) := by
    intro baseline candidate
    unfold metricSummaryComparison
    split
    · exact expected_claimCI _
    · exact (expected_finiteFloat _ _).bind fun _ _ => expected_ok _
  exact (expected_summarizeRuns _).bind fun _ _ => (expected_summarizeRuns _).bind fun _ _ =>
    (compare _ _).bind fun _ _ => expected_ok _

/-- A file that was read has a path that resolves. -/
def ReadableResolves (rt : Runtime) : Prop :=
  ∀ path raw, rt.readBytes path = .ok raw → ∃ resolved, rt.resolve path = .ok resolved

theorem expected_loadRecords (path : Str) (lines : List Str) (lineNumber : Nat) :
    Expected (loadRecords rt path lineNumber lines) := by
  induction lines generalizing lineNumber with
  | nil => exact expected_ok _
  | cons line lines ih =>
    unfold loadRecords
    split
    · exact ih (lineNumber + 1)
    split
    · exact expected_claimCI _
    · exact (ih (lineNumber + 1)).bind fun _ _ => expected_ok _

theorem expected_loadDataset (files : ReadableResolves rt) (path : Str) :
    Expected (loadDataset rt path) := by
  have read : Expected (readDataset rt path) := by
    unfold readDataset
    split
    · exact expected_ok _
    · exact expected_claimCI _
    · exact expected_claimCI _
    · exact expected_claimCI _
  apply read.bind fun text loaded => (expected_loadRecords rt path _ 1).bind fun hashes _ => ?_
  split
  · exact expected_claimCI _
  split
  next text failed =>
    -- The text was read from the file, so its path resolves.
    have bytes : ∃ raw, rt.readBytes path = .ok raw := by
      unfold readDataset Runtime.readText at loaded
      cases h : rt.readBytes path with
      | ok raw => exact ⟨raw, rfl⟩
      | error reason =>
        rw [h] at loaded
        cases reason <;> cases loaded
    obtain ⟨raw, bytes⟩ := bytes
    obtain ⟨resolved, resolves⟩ := files path raw bytes
    cases failed.symm.trans resolves
  · exact expected_ok _

end Loaders

/-! ### When an audit returns -/

/-- The loader converts every tagged scalar of the file. -/
def Convertible (ft : FaultyRuntime) (path : Str) : Prop :=
  ∀ source, ft.readText path = .ok source → ft.yamlFault source = none

/-- If the loader of an artifact fails, its existence can be checked. -/
def Checkable {α : Type} (ft : FaultyRuntime) (path : Str) (load : Except Error α) : Prop :=
  (∃ message, load = .error (.claimCI message)) → ft.existsFault path = none

/-- What the artifacts of one arm must be like. -/
structure ArmTractable (ft : FaultyRuntime) (spec : ResearchSpec) (arm : Arm) : Prop where
  converts : Convertible ft (spec.arm arm).config
  config : Checkable ft (spec.arm arm).config (loadConfig ft.toRuntime (spec.arm arm).config)
  results : Checkable ft (spec.arm arm).results
    (loadResults ft.toRuntime (spec.arm arm).results spec.metric)
  train : Checkable ft (spec.arm arm).trainDataset
    (loadDataset ft.toRuntime (spec.arm arm).trainDataset)
  eval : Checkable ft (spec.arm arm).evalDataset
    (loadDataset ft.toRuntime (spec.arm arm).evalDataset)

/-- No tagged scalar of the manifest or of a config is beyond the YAML loader, and the existence of
every artifact that does not load can be checked. -/
structure Tractable (ft : FaultyRuntime) (path : Str) (root : Option Str) : Prop where
  manifest : ∀ resolved, resolveManifest ft.toRuntime path root = .ok resolved →
    Convertible ft resolved.1
  arms : ∀ spec, loadResearchSpec ft.toRuntime path root = .ok spec →
    ∀ arm, ArmTractable ft spec arm

/-- The audit returns or raises its own error, and returns once the manifest has loaded. -/
def Contained (ft : FaultyRuntime) (path : Str) (root : Option Str) : Prop :=
  ((∃ result, Raising.auditResearch ft path root = .ok result) ∨
      ∃ message, Raising.auditResearch ft path root = .error (.error (.claimCI message))) ∧
    ∀ spec, Raising.loadResearchSpec ft path root = .ok spec →
      ∃ result, Raising.auditResearch ft path root = .ok result

namespace Raising

section Steps

variable {α β : Type} {ft : FaultyRuntime}

theorem known_ok_iff {result : Except Error α} {value : α} :
    known result = .ok value ↔ result = .ok value := by
  cases result with
  | ok other => simp [known, Except.mapError]
  | error raised => simp [known, Except.mapError]

theorem convert_ok_iff {path : Str} : convert ft path = .ok () ↔ Convertible ft path := by
  unfold convert Convertible
  split
  next unread =>
    simp [unread]
  next source read =>
    split
    next converts =>
      simp [read, converts]
    next fault raised =>
      simp [read, raised]

/-- A text the loader does not convert makes it raise one of its own exceptions. -/
theorem convert_fault {path : Str} (faulty : ¬Convertible ft path) :
    ∃ fault, convert ft path = .error (.fault fault) := by
  have notOk : convert ft path ≠ .ok () := fun h => faulty (convert_ok_iff.mp h)
  unfold convert at notOk ⊢
  split
  next unread => simp [unread] at notOk
  next source read =>
    split
    next converts => simp [read, converts] at notOk
    next fault raised => exact ⟨fault, rfl⟩

/-- A call of a loader is handled exactly when the existence of a failing artifact can be
checked. -/
theorem attempt_known (category : Category) (arm : Arm) (path : Str) {load : Except Error α}
    (expected : Expected load) :
    (∃ outcome, attempt ft category arm path (known load) = .ok outcome) ↔
      Checkable ft path load := by
  rcases expected.cases with ⟨value, rfl⟩ | ⟨message, rfl⟩
  · simp [attempt, known, Except.mapError, Checkable]
  · simp only [attempt, known, Except.mapError, artifactFailure, Checkable]
    cases exists_fault : ft.existsFault path with
    | none => simp [bind, Except.bind]
    | some text => simp [bind, Except.bind]

theorem attempt_loadConfig {arm : Arm} {path : Str} :
    (∃ outcome, attempt ft .config arm path (loadConfig ft path) = .ok outcome) ↔
      Convertible ft path ∧ Checkable ft path (ClaimCI.loadConfig ft.toRuntime path) := by
  by_cases converts : Convertible ft path
  · have loaded : loadConfig ft path = known (ClaimCI.loadConfig ft.toRuntime path) := by
      rw [loadConfig, convert_ok_iff.mpr converts]
      rfl
    rw [loaded, attempt_known .config arm path (expected_loadConfig ft.toRuntime path)]
    simp only [converts, true_and]
  · -- The fault passes the handler, which names only the audit's own error.
    obtain ⟨fault, faulty⟩ := convert_fault converts
    have escapes : attempt ft .config arm path (loadConfig ft path) = .error (.fault fault) := by
      rw [loadConfig, faulty]
      rfl
    simp only [converts, false_and, iff_false, escapes]
    rintro ⟨outcome, h⟩
    cases h

end Steps

section Sequence

variable {ε α β : Type}

/-- The call raises nothing. -/
def Returns (result : Except ε α) : Prop := ∃ value, result = .ok value

theorem returns_ok (value : α) : Returns (.ok value : Except ε α) := ⟨value, rfl⟩

/-- A sequence returns exactly when its first call does and what follows does. -/
theorem returns_bind_iff {result : Except ε α} {next : α → Except ε β} {p : Prop}
    (rest : ∀ value, result = .ok value → (Returns (next value) ↔ p)) :
    Returns (result >>= next) ↔ Returns result ∧ p := by
  constructor
  · rintro ⟨last, h⟩
    obtain ⟨value, first, h⟩ := bind_ok_iff.mp h
    exact ⟨⟨value, first⟩, (rest value first).mp ⟨last, h⟩⟩
  · rintro ⟨⟨value, first⟩, holds⟩
    obtain ⟨last, h⟩ := (rest value first).mpr holds
    exact ⟨last, bind_ok_iff.mpr ⟨value, first, h⟩⟩

end Sequence

section Sections

variable {ft : FaultyRuntime} (spec : ResearchSpec)

theorem configSection_returns :
    Returns (configSection ft spec) ↔
      (Convertible ft spec.baseline.config ∧
        Checkable ft spec.baseline.config (ClaimCI.loadConfig ft.toRuntime spec.baseline.config)) ∧
      (Convertible ft spec.candidate.config ∧
        Checkable ft spec.candidate.config
          (ClaimCI.loadConfig ft.toRuntime spec.candidate.config)) := by
  rw [← attempt_loadConfig, ← attempt_loadConfig]
  apply returns_bind_iff
  intro baseline _
  rw [returns_bind_iff fun candidate _ => iff_true_intro (returns_ok _), and_true]
  rfl

/-- The comparison of two results is handled. -/
theorem compareLoaded_returns (b c : LoadedResults) :
    Returns (known (compareLoaded spec b c)) := by
  unfold compareLoaded
  rcases (expected_checkResults b c spec.metric spec.minimumImprovement spec.direction).cases with
    ⟨checked, h⟩ | ⟨message, h⟩
  · rw [h]
    exact returns_ok _
  · rw [h]
    exact returns_ok _

theorem resultSection_returns :
    Returns (resultSection ft spec) ↔
      Checkable ft spec.baseline.results
        (loadResults ft.toRuntime spec.baseline.results spec.metric) ∧
      Checkable ft spec.candidate.results
        (loadResults ft.toRuntime spec.candidate.results spec.metric) := by
  have loads := fun path => expected_loadResults ft.toRuntime path spec.metric
  rw [← attempt_known .result .baseline _ (loads spec.baseline.results),
    ← attempt_known .result .candidate _ (loads spec.candidate.results)]
  apply returns_bind_iff
  intro baseline _
  rw [returns_bind_iff fun candidate _ => iff_true_intro ?_, and_true]
  · rfl
  · split
    · exact compareLoaded_returns spec _ _
    · exact returns_ok _

theorem armDatasets_returns (files : ReadableResolves ft.toRuntime) (arm : Arm) :
    Returns (armDatasets ft spec arm) ↔
      Checkable ft (spec.arm arm).trainDataset
        (loadDataset ft.toRuntime (spec.arm arm).trainDataset) ∧
      Checkable ft (spec.arm arm).evalDataset
        (loadDataset ft.toRuntime (spec.arm arm).evalDataset) := by
  have loads := expected_loadDataset ft.toRuntime files
  rw [← attempt_known .dataset arm _ (loads (spec.arm arm).trainDataset),
    ← attempt_known .dataset arm _ (loads (spec.arm arm).evalDataset)]
  apply returns_bind_iff
  intro train _
  rw [returns_bind_iff fun eval _ => iff_true_intro (returns_ok _), and_true]
  rfl

/-- The audit of a loaded manifest returns exactly when both arms are tractable. -/
theorem auditSpec_returns (files : ReadableResolves ft.toRuntime) :
    Returns (auditSpec ft spec) ↔ ∀ arm, ArmTractable ft spec arm := by
  have datasets : Returns (datasetSection ft spec) ↔
      Returns (armDatasets ft spec .baseline) ∧ Returns (armDatasets ft spec .candidate) := by
    apply returns_bind_iff
    intro baseline _
    rw [returns_bind_iff fun candidate _ => iff_true_intro (returns_ok _), and_true]
  -- the three sections run one after the other, and each raises on its own
  have sections : Returns (auditSpec ft spec) ↔
      Returns (configSection ft spec) ∧ Returns (resultSection ft spec) ∧
        Returns (datasetSection ft spec) := by
    apply returns_bind_iff
    intro configs _
    apply returns_bind_iff
    intro results _
    rw [returns_bind_iff fun datasets _ => iff_true_intro (returns_ok _), and_true]
  rw [sections, configSection_returns, resultSection_returns, datasets,
    armDatasets_returns spec files, armDatasets_returns spec files]
  constructor
  · rintro ⟨⟨⟨bv, bc⟩, cv, cc⟩, ⟨br, cr⟩, ⟨bt, be⟩, ct, ce⟩ arm
    cases arm with
    | baseline => exact ⟨bv, bc, br, bt, be⟩
    | candidate => exact ⟨cv, cc, cr, ct, ce⟩
  · intro arms
    have b := arms .baseline
    have c := arms .candidate
    exact ⟨⟨⟨b.converts, b.config⟩, c.converts, c.config⟩, ⟨b.results, c.results⟩,
      ⟨b.train, b.eval⟩, c.train, c.eval⟩

end Sections

/-! ### The manifest -/

section Manifest

variable {ft : FaultyRuntime} {path : Str} {root : Option Str}

/-- With a manifest the loader converts, loading is what it was without faults. -/
theorem loadResearchSpec_known
    (converts : ∀ resolved, resolveManifest ft.toRuntime path root = .ok resolved →
      Convertible ft resolved.1) :
    loadResearchSpec ft path root = known (ClaimCI.loadResearchSpec ft.toRuntime path root) := by
  rw [loadResearchSpec_eq, loadResearchSpec]
  cases resolve : resolveManifest ft.toRuntime path root with
  | error raised => rfl
  | ok resolved =>
    have converted := convert_ok_iff.mpr (converts resolved resolve)
    change (readManifest ft resolved.1 >>= fun manifest =>
      known (manifestSpec ft.toRuntime resolved.1 resolved.2 manifest)) = _
    rw [readManifest, converted]
    change (known (ClaimCI.readManifest ft.toRuntime resolved.1) >>= fun manifest =>
      known (manifestSpec ft.toRuntime resolved.1 resolved.2 manifest)) =
        known (ClaimCI.readManifest ft.toRuntime resolved.1 >>= fun manifest =>
          manifestSpec ft.toRuntime resolved.1 resolved.2 manifest)
    cases ClaimCI.readManifest ft.toRuntime resolved.1 with
    | error raised => rfl
    | ok manifest => rfl

/-- A manifest that loads in spite of the faults is loaded without them. -/
theorem loadResearchSpec_plain {spec : ResearchSpec} (h : loadResearchSpec ft path root = .ok spec) :
    ClaimCI.loadResearchSpec ft.toRuntime path root = .ok spec := by
  obtain ⟨resolved, located, h⟩ := bind_ok_iff.mp h
  obtain ⟨manifest, read, h⟩ := bind_ok_iff.mp h
  obtain ⟨⟨⟩, -, read⟩ := bind_ok_iff.mp read
  rw [loadResearchSpec_eq]
  exact bind_ok_iff.mpr ⟨resolved, known_ok_iff.mp located,
    bind_ok_iff.mpr ⟨manifest, known_ok_iff.mp read, known_ok_iff.mp h⟩⟩

/-- A manifest the loader does not convert makes the audit raise the loader's exception. -/
theorem auditResearch_fault {resolved : Str × Option Str}
    (resolve : resolveManifest ft.toRuntime path root = .ok resolved)
    (faulty : ¬Convertible ft resolved.1) :
    ∃ fault, auditResearch ft path root = .error (.fault fault) := by
  obtain ⟨fault, raised⟩ := convert_fault faulty
  refine ⟨fault, ?_⟩
  rw [auditResearch, loadResearchSpec, resolve]
  change (readManifest ft resolved.1 >>= _) >>= _ = _
  rw [readManifest, raised]
  rfl

end Manifest

end Raising

/-- Every audit is contained, and returns once the manifest has loaded, exactly when the YAML
loader converts the manifest and both configs and the existence of every artifact that does not
load can be checked. -/
theorem auditResearch_contained_iff (ft : FaultyRuntime) (path : Str) (root : Option Str)
    (files : ReadableResolves ft.toRuntime) :
    Contained ft path root ↔ Tractable ft path root := by
  constructor
  · rintro ⟨outcome, returns⟩
    -- a manifest that does not convert raises before any arm is read
    have manifest : ∀ resolved, resolveManifest ft.toRuntime path root = .ok resolved →
        Convertible ft resolved.1 := by
      intro resolved resolve
      by_contra faulty
      obtain ⟨fault, escapes⟩ := Raising.auditResearch_fault resolve faulty
      rcases outcome with ⟨result, h⟩ | ⟨message, h⟩
      · cases escapes.symm.trans h
      · cases escapes.symm.trans h
    refine ⟨manifest, fun spec loaded => ?_⟩
    have raising : Raising.loadResearchSpec ft path root = .ok spec := by
      rw [Raising.loadResearchSpec_known manifest, Raising.known_ok_iff]
      exact loaded
    obtain ⟨result, h⟩ := returns spec raising
    rw [Raising.auditResearch, raising] at h
    exact (Raising.auditSpec_returns spec files).mp ⟨result, h⟩
  · rintro ⟨manifest, arms⟩
    have loading := Raising.loadResearchSpec_known manifest
    have after : ∀ spec, Raising.loadResearchSpec ft path root = .ok spec →
        ∃ result, Raising.auditResearch ft path root = .ok result := by
      intro spec loaded
      have plain : loadResearchSpec ft.toRuntime path root = .ok spec :=
        Raising.known_ok_iff.mp (loading.symm.trans loaded)
      obtain ⟨result, h⟩ := (Raising.auditSpec_returns spec files).mpr (arms spec plain)
      refine ⟨result, ?_⟩
      rw [Raising.auditResearch, loaded]
      exact h
    refine ⟨?_, after⟩
    -- the readers of the fields raise a ClaimCIError, which the CLI reports
    rcases (expected_loadResearchSpec ft.toRuntime path root).cases with
      ⟨spec, loaded⟩ | ⟨message, failed⟩
    · exact .inl (after spec (loading.trans (Raising.known_ok_iff.mpr loaded)))
    · refine .inr ⟨message, ?_⟩
      rw [Raising.auditResearch, loading, failed]
      rfl

/-- The sample audit, whose existence checks and YAML texts raise nothing. -/
def plainRuntime : FaultyRuntime := {
  sampleRuntime (sampleResults "0.5" "0.6") (sampleResults "0.7" "0.8") with
  yamlFault := fun _ => none
  existsFault := fun _ => none }

theorem auditResearch_contained_sample :
    ReadableResolves plainRuntime.toRuntime ∧ Contained plainRuntime "research.yaml" none := by
  have files : ReadableResolves plainRuntime.toRuntime := fun path _ _ => ⟨path, rfl⟩
  have tractable : Tractable plainRuntime "research.yaml" none :=
    ⟨fun _ _ _ _ => rfl, fun _ _ _ => ⟨fun _ _ => rfl, fun _ => rfl, fun _ => rfl, fun _ => rfl,
      fun _ => rfl⟩⟩
  exact ⟨files, (auditResearch_contained_iff plainRuntime "research.yaml" none files).mpr tractable⟩

/-- A config with a tag that promises a truth value and a scalar that is none. -/
def taggedConfigText : Str := "epochs: !!bool x
"

/-- The files of the sample audit, with that config. -/
def taggedFiles (path : Str) : Except ReadError Bytes :=
  if path = lit "config.yaml" then .ok (asciiBytes taggedConfigText)
  else (sampleRuntime (sampleResults "0.5" "0.6") (sampleResults "0.7" "0.8")).readBytes path

/-- The loader raises `KeyError` for the config. -/
def taggedFault (source : Str) : Option TagFault :=
  if source = taggedConfigText then some (.keyError "'x'") else none

def taggedRuntime : FaultyRuntime := {
  sampleRuntime (sampleResults "0.5" "0.6") (sampleResults "0.7" "0.8") with
  readBytes := taggedFiles
  yamlFault := taggedFault
  existsFault := fun _ => none }

/-- The text of a file, from its bytes. -/
theorem readText_of_bytes {rt : Runtime} {path : Str} {raw : Bytes} {text : Str}
    (bytes : rt.readBytes path = .ok raw)
    (decoded : (decodeUtf8 raw).map universalNewlines = some text) :
    rt.readText path = .ok text := by
  obtain ⟨source, decodes, rfl⟩ := Option.map_eq_some_iff.mp decoded
  rw [Runtime.readText, bytes]
  simp only [decodes]

theorem tagged_manifestText :
    taggedRuntime.readText (lit "research.yaml") = .ok sampleManifestText := by
  have bytes : taggedFiles (lit "research.yaml") = .ok (asciiBytes sampleManifestText) := by
    rw [taggedFiles, if_neg (by decide +kernel), sampleRuntime]
    dsimp only
    rw [if_pos rfl]
  exact readText_of_bytes bytes (by decide +kernel)

theorem tagged_configText :
    taggedRuntime.readText (lit "config.yaml") = .ok taggedConfigText := by
  have bytes : taggedFiles (lit "config.yaml") = .ok (asciiBytes taggedConfigText) := if_pos rfl
  exact readText_of_bytes bytes (by decide +kernel)

/-- The manifest loads, and the audit raises the loader's exception. -/
theorem taggedConfig_not_contained : ¬Contained taggedRuntime "research.yaml" none := by
  rintro ⟨_, returns⟩
  have manifest : ∀ resolved,
      resolveManifest taggedRuntime.toRuntime (lit "research.yaml") none = .ok resolved →
        Convertible taggedRuntime resolved.1 := by
    intro resolved resolve source read
    obtain rfl := Except.ok.inj resolve
    have same : sampleManifestText = source :=
      Except.ok.inj (tagged_manifestText.symm.trans read)
    have converts : taggedRuntime.yamlFault = taggedFault := rfl
    rw [converts, ← same, taggedFault]
    exact if_neg (by decide +kernel)
  -- the tagged scalar is in a configuration, so the manifest still loads
  have plain : loadResearchSpec taggedRuntime.toRuntime (lit "research.yaml") none =
      .ok sampleSpec := by decide +kernel
  have loaded : Raising.loadResearchSpec taggedRuntime (lit "research.yaml") none =
      .ok sampleSpec := by
    rw [Raising.loadResearchSpec_known manifest]
    exact Raising.known_ok_iff.mpr plain
  obtain ⟨result, h⟩ := returns sampleSpec loaded
  rw [Raising.auditResearch, loaded] at h
  obtain ⟨spec, same, h⟩ := bind_ok_iff.mp h
  obtain rfl := Except.ok.inj same
  have files : ReadableResolves taggedRuntime.toRuntime := fun path _ _ => ⟨path, rfl⟩
  have arm := (Raising.auditSpec_returns sampleSpec files).mp ⟨result, h⟩ .baseline
  have raised : taggedFault taggedConfigText = some (.keyError "'x'") := if_pos rfl
  cases raised.symm.trans (arm.converts taggedConfigText tagged_configText)

end ClaimCI
