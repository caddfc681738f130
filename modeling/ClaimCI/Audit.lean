import ClaimCI.ConfigCheck
import ClaimCI.DatasetCheck
import ClaimCI.ResultCheck

/-!
# Audit

Load a research manifest and orchestrate all deterministic checks.
-/

open Python

namespace ClaimCI

/-- `REQUIRED_ARTIFACTS`. -/
def REQUIRED_ARTIFACTS : List Str := ["config", "results", "train_dataset", "eval_dataset"]

/-- `_number`, on a value read from a manifest. -/
def number : Option Value → Option Binary64
  | some (.int n) => Binary64.ofInt n
  | some (.float x) => some x
  | _ => none

/-- `s.replace("\\", "/")`. -/
def forwardSlashes (s : Str) : Str := s.map fun c => if c = BACKSLASH then 0x2F else c

/-- One declared path, confined to the artifact root when there is one. -/
def experimentPath (rt : Runtime) (label : Str) (manifestDir : Str) (artifactRoot : Option Str)
    (field : Str) (raw : Option Value) : Except Error Str :=
  let name := label ++ lit "." ++ field
  let fail (text : Str) : Except Error Str := .error (.claimCI (name ++ text))
  match raw with
  | some (.str rawPath) =>
    if isBlank rawPath then fail " must be a non-empty path string"
    -- a parent step is refused before the path is looked at, whatever it would lead to
    else if artifactRoot.isSome ∧ (split 0x2F (forwardSlashes rawPath)).contains (lit "..") then
      fail " contains parent traversal outside artifact root"
    else if artifactRoot.isSome ∧
        (rawPath.head? = some 0x2F ∨ rt.isWindowsAbsolute rawPath = true) then
      fail " must be relative to the artifact root"
    else
      -- a link may lead outside, so what the path resolves to is checked as well
      match rt.resolve (rt.join manifestDir rawPath) with
      | .error text => fail (lit " is not a valid path: " ++ text)
      | .ok resolved =>
        match artifactRoot with
        | none => .ok resolved
        | some root =>
          if rt.isRelativeTo resolved root then .ok resolved
          else fail (lit " resolves outside artifact root " ++ root)
  | _ => fail " must be a non-empty path string"

def experimentPaths (rt : Runtime) (label : Str) (value : Value) (manifestDir : Str)
    (artifactRoot : Option Str) : Except Error ExperimentPaths :=
  match value with
  | .dict entries => do
    let path (field : Str) : Except Error Str :=
      experimentPath rt label manifestDir artifactRoot field (Value.get field entries)
    let config ← path "config"
    let results ← path "results"
    let trainDataset ← path "train_dataset"
    let evalDataset ← path "eval_dataset"
    .ok ⟨config, results, trainDataset, evalDataset⟩
  | _ => .error (.claimCI (label ++ lit " must be a mapping"))

/-- The resolved manifest path, and the resolved artifact root it lies under. -/
def resolveManifest (rt : Runtime) (path : Str) (artifactRoot : Option Str) :
    Except Error (Str × Option Str) :=
  match rt.resolve path with
  | .error text => .error (.claimCI (lit "invalid research manifest path: " ++ text))
  | .ok manifestPath =>
    match artifactRoot with
    | none => .ok (manifestPath, none)
    | some root =>
      -- a root that cannot be resolved is reported like a manifest outside it
      let outside : Except Error (Str × Option Str) :=
        .error (.claimCI (lit "research manifest resolves outside artifact root " ++ root))
      match rt.resolve root with
      | .error _ => outside
      | .ok resolvedRoot =>
        if rt.isRelativeTo manifestPath resolvedRoot then .ok (manifestPath, some resolvedRoot)
        else outside

def readManifest (rt : Runtime) (manifestPath : Str) : Except Error Value :=
  let unreadable (text : Str) : Error :=
    .claimCI (lit "could not read research manifest " ++ manifestPath ++ lit ": " ++ text)
  match rt.readText manifestPath with
  | .error .notFound => .error (.claimCI (lit "research manifest not found: " ++ manifestPath))
  | .error (.unreadable text) => .error (unreadable text)
  | .error (.undecodable text) => .error (unreadable text)
  | .ok source =>
    match rt.loadUniqueYaml source with
    | .ok payload => .ok payload
    | .error (.value text) => .error (unreadable text)
    | .error (.invalid text) => .error (.claimCI (lit "invalid YAML in research manifest " ++
        manifestPath ++ lit ": " ++ text))

/-- The declared direction; higher when it is not declared. -/
def claimDirection (claim : List (Value × Value)) : Except Error Direction :=
  match Value.get "direction" claim with
  | none => .ok .higher
  | some value =>
    match coerceDirection value "direction" with
    | .ok direction => .ok direction
    | .error error => .error (.claimCI (lit "claim.direction " ++ error.text))

/-- The root mapping of a manifest. -/
def manifestRoot : Value → Except Error (List (Value × Value))
  | .dict entries => .ok entries
  | _ => .error (.claimCI "research manifest root must be a mapping")

def manifestClaim (payload : List (Value × Value)) : Except Error (List (Value × Value)) :=
  match Value.get "claim" payload with
  | some (.dict entries) => .ok entries
  | _ => .error (.claimCI "claim must be a mapping")

def claimMetric (claim : List (Value × Value)) : Except Error Str :=
  match Value.get "metric" claim with
  | some (.str s) =>
    if isBlank s then .error (.claimCI "claim.metric must be a non-empty string") else .ok (strip s)
  | _ => .error (.claimCI "claim.metric must be a non-empty string")

def claimThreshold (claim : List (Value × Value)) : Except Error Binary64 :=
  let invalid : Error :=
    .claimCI "claim.minimum_improvement must be a finite non-negative number"
  match number (Value.get "minimum_improvement" claim) with
  | some x => if x.lt (Binary64.zero false) then .error invalid else .ok x
  | none => .error invalid

/-- The declaration of one arm. -/
def manifestArm (payload : List (Value × Value)) (arm : Arm) : Except Error Value :=
  match Value.get arm.text payload with
  | some value => .ok value
  | none => .error (.claimCI (lit "research manifest is missing " ++ arm.text))

def loadResearchSpec (rt : Runtime) (path : Str) (artifactRoot : Option Str) :
    Except Error ResearchSpec := do
  let (manifestPath, root) ← resolveManifest rt path artifactRoot
  let manifest ← readManifest rt manifestPath
  let payload ← manifestRoot manifest
  let claim ← manifestClaim payload
  let metric ← claimMetric claim
  let threshold ← claimThreshold claim
  let direction ← claimDirection claim
  let baseline ← manifestArm payload .baseline
  let candidate ← manifestArm payload .candidate
  let baselinePaths ← experimentPaths rt "baseline" baseline (rt.parent manifestPath) root
  let candidatePaths ← experimentPaths rt "candidate" candidate (rt.parent manifestPath) root
  .ok ⟨manifestPath, metric, threshold, baselinePaths, candidatePaths, direction⟩

def determineVerdict (findings : List Finding) : Verdict :=
  if findings.any fun f => f.impact = .invalidates then .notSupported
  else if findings.any fun f => f.impact = .insufficient then .insufficientEvidence
  else .supported

/-- The artifact categories of failure findings. -/
inductive Category where
  | config | result | dataset
  deriving DecidableEq, Repr

def Category.text : Category → Str
  | config => "CONFIG"
  | result => "RESULT"
  | dataset => "DATASET"

def Category.lower : Category → Str
  | config => "config"
  | result => "result"
  | dataset => "dataset"

def artifactFailure (rt : Runtime) (category : Category) (arm : Arm) (path message : Str) :
    Finding := {
  ruleId := category.text ++ (if rt.pathExists path then lit ".INVALID" else lit ".MISSING")
  severity := .critical
  title := arm.title ++ lit " " ++ category.lower ++ lit " artifact is unavailable"
  explanation := message
  evidence := [("experiment", .str arm.text), ("path", .str path)]
  impact := .insufficient }

/-- `try: load(...) except ClaimCIError`: the loaded artifact or a failure finding. -/
def attempt {α : Type} (rt : Runtime) (category : Category) (arm : Arm) (path : Str)
    (load : Except Error α) : Except Error (Except Finding α) :=
  match load with
  | .ok loaded => .ok (.ok loaded)
  | .error (.claimCI message) => .ok (.error (artifactFailure rt category arm path message))
  | .error error => .error error

/-- The failure finding of an attempt that failed. -/
def failure {α : Type} : Except Finding α → List Finding
  | .ok _ => []
  | .error finding => [finding]

/-- What is said when both artifacts loaded. -/
def whenBoth {α β γ : Type} (check : α → β → List γ) :
    Except Finding α → Except Finding β → List γ
  | .ok a, .ok b => check a b
  | _, _ => []

/-- `CONFIG.LOADED`. -/
def configLoaded (spec : ResearchSpec) : Finding := {
  ruleId := "CONFIG.LOADED"
  severity := .verified
  title := "Config files loaded successfully"
  explanation := "Both declared YAML config artifacts were parsed as mappings."
  evidence := [("baseline", .str spec.baseline.config), ("candidate", .str spec.candidate.config)]
  impact := .none }

def configSection (rt : Runtime) (spec : ResearchSpec) : Except Error (List Finding) := do
  let baseline ← attempt rt .config .baseline spec.baseline.config
    (loadConfig rt spec.baseline.config)
  let candidate ← attempt rt .config .candidate spec.candidate.config
    (loadConfig rt spec.candidate.config)
  .ok (failure baseline ++ failure candidate ++
    whenBoth (fun b c => configLoaded spec :: checkConfigs b c) baseline candidate)

/-- `RESULT.INVALID` for a comparison that could not be computed. -/
def comparisonInvalid (spec : ResearchSpec) (message : Str) : Finding := {
  ruleId := "RESULT.INVALID"
  severity := .critical
  title := "Result comparison could not be computed"
  explanation := message
  evidence := [("experiment", .str "comparison"), ("baseline_path", .str spec.baseline.results),
    ("candidate_path", .str spec.candidate.results)]
  impact := .insufficient }

/-- The findings about results, and the comparison when it could be computed. -/
def resultSection (rt : Runtime) (spec : ResearchSpec) :
    Except Error (List Finding × Option ResultCheck) := do
  let baseline ← attempt rt .result .baseline spec.baseline.results
    (loadResults rt spec.baseline.results spec.metric)
  let candidate ← attempt rt .result .candidate spec.candidate.results
    (loadResults rt spec.candidate.results spec.metric)
  match baseline, candidate with
  | .ok b, .ok c =>
    match checkResults b c spec.metric spec.minimumImprovement spec.direction with
    | .ok checked => .ok (checked.findings, some checked)
    | .error (.claimCI message) => .ok ([comparisonInvalid spec message], none)
    | .error error => .error error
  | _, _ => .ok (failure baseline ++ failure candidate, none)

/-- The datasets of one arm that loaded, the findings about them, and the overlap of the two. -/
structure ArmDatasets where
  eval : Option DatasetHashes
  overlaps : List OverlapSummary
  findings : List Finding

def armDatasets (rt : Runtime) (spec : ResearchSpec) (arm : Arm) : Except Error ArmDatasets := do
  let paths := spec.arm arm
  let train ← attempt rt .dataset arm paths.trainDataset (loadDataset rt paths.trainDataset)
  let eval ← attempt rt .dataset arm paths.evalDataset (loadDataset rt paths.evalDataset)
  .ok ⟨eval.toOption, whenBoth (fun t e => [(checkDatasetLeakage arm t e).1]) train eval,
    failure train ++ failure eval ++ whenBoth (fun t e => (checkDatasetLeakage arm t e).2) train eval⟩

/-- The alignment of two evaluation datasets that both loaded. -/
def alignmentFindings : Option DatasetHashes → Option DatasetHashes → List Finding
  | some baseline, some candidate => checkEvaluationAlignment baseline candidate
  | _, _ => []

def datasetSection (rt : Runtime) (spec : ResearchSpec) :
    Except Error (List Finding × List OverlapSummary) := do
  let baseline ← armDatasets rt spec .baseline
  let candidate ← armDatasets rt spec .candidate
  .ok (baseline.findings ++ candidate.findings ++ alignmentFindings baseline.eval candidate.eval,
    baseline.overlaps ++ candidate.overlaps)

/-- The audit of a loaded manifest. -/
def auditSpec (rt : Runtime) (spec : ResearchSpec) : Except Error AuditResult := do
  let configFindings ← configSection rt spec
  let (resultFindings, checked) ← resultSection rt spec
  let (datasetFindings, overlaps) ← datasetSection rt spec
  let findings := configFindings ++ resultFindings ++ datasetFindings
  .ok {
    verdict := determineVerdict findings
    findings := findings
    manifestPath := spec.manifestPath
    metric := spec.metric
    minimumImprovement := spec.minimumImprovement
    baselineMetrics := checked.map (·.baselineSummary)
    candidateMetrics := checked.map (·.candidateSummary)
    absoluteImprovement := checked.map (·.absoluteImprovement)
    relativeImprovement := checked.bind (·.relativeImprovement)
    overlaps := overlaps
    direction := spec.direction }

/-- `audit_research` without the optional measurement, metric-identity and scan contexts. -/
def auditResearch (rt : Runtime) (path : Str) (artifactRoot : Option Str) :
    Except Error AuditResult := do
  let spec ← loadResearchSpec rt path artifactRoot
  auditSpec rt spec

end ClaimCI
