import ClaimCI.Analysis.ManifestPaths
import ClaimCI.Analysis.MappingOrder
import ClaimCI.AuditExceptions
import ClaimCI.PassiveFiles

/-!
# Manifest hints

The mapping that discovery reads out of a research manifest, and what its handler lets through: the
exceptions of the loader that are no YAML errors, and the overflow of a threshold that is too large
for a float.
-/

open Python

namespace ClaimCI

/-- `ArtifactIssue`. -/
structure ArtifactIssue where
  path : RepositoryPath
  reason : Str

structure DiscoveryLimits where
  maxArtifactBytes : Nat
  maxStreamArtifactBytes : Nat

structure InspectedArtifact where
  path : RepositoryPath
  sha256 : Str
  size : Nat

/-- What a passive read raises. -/
inductive ReadFault where
  /-- `PassiveFileError`, with its code. -/
  | passive (code : Str)
  | osError
  | valueError (text : Str)

/-- The files under the root of a repository, as discovery reads them. -/
structure RepositoryFiles where
  /-- `_confined_regular_file` finds the file. -/
  isConfined : RepositoryPath → Bool
  /-- `resolved.stat().st_size`; `none` is an `OSError`. -/
  statSize : RepositoryPath → Option Nat
  /-- `capture_confined_regular_file`. -/
  capture : RepositoryPath → Nat → Except ReadFault PassiveFileCapture
  /-- `inspect_confined_regular_file`. -/
  inspect : RepositoryPath → Nat → Except ReadFault PassiveFileInspection
  /-- `str.casefold`. -/
  casefold : Str → Str

/-- What leaves a step of a hint. -/
inductive HintRaised where
  /-- `DiscoveryError`, `AnalysisContractError`, `ClaimCIError` and other `ValueError`s. -/
  | value (text : Str)
  | yaml (text : Str)
  | overflow
  | tag (fault : TagFault)
  | osError

/-- The exceptions that the handler of `_manifest_hint` names. -/
def HintRaised.isHandled : HintRaised → Bool
  | value _ => true
  | yaml _ => true
  | _ => false

def discoveryError (text : Str) : HintRaised := .value text

section Hint

variable {ut : UnicodeTables} (ft : FaultyRuntime) (files : RepositoryFiles)
  (limits : DiscoveryLimits) (index : List RepositoryPath)

/-! ### Reading and inspecting -/

def unusableIssue (path : RepositoryPath) : ArtifactIssue :=
  ⟨path, "artifact changed or is not a confined regular file"⟩

/-- The issue of a `PassiveFileError`. -/
def passiveIssue (path : RepositoryPath) (code : Str) (bound : Nat) : ArtifactIssue :=
  if code = lit "too_large" then
    ⟨path, lit "artifact exceeds the " ++ natText bound ++ lit "-byte discovery limit"⟩
  else unusableIssue path

def notIndexed : HintRaised := discoveryError "artifact path is not an indexed repository path"

/-- `read_artifact_text`. -/
def readArtifactText (path : RepositoryPath) : Except HintRaised (Str ⊕ ArtifactIssue) :=
  if !index.contains path then .error notIndexed
  else
    match files.capture path limits.maxArtifactBytes with
    | .error (.passive code) => .ok (.inr (passiveIssue path code limits.maxArtifactBytes))
    | .error .osError => .error .osError
    | .error (.valueError text) => .error (.value text)
    | .ok capture =>
      match decodeUtf8 capture.content with
      | none => .ok (.inr ⟨path, "artifact is not valid UTF-8 text"⟩)
      | some text => .ok (.inl (universalNewlines text))

def STREAMABLE_SUFFIXES : List Str := [".jsonl", ".csv", ".tsv"]

/-- What a read of `inspect_artifact` found, with the budget that is left. -/
def inspected (path : RepositoryPath) (remaining : Int) (read : Except ReadFault (Nat × Str)) :
    Except HintRaised ((InspectedArtifact ⊕ ArtifactIssue) × Int) :=
  match read with
  | .ok (size, sha256) => .ok (.inl ⟨path, sha256, size⟩, remaining)
  -- the bound of the message is set after the call
  | .error (.passive code) => .ok (.inr (passiveIssue path code limits.maxArtifactBytes), remaining)
  | .error .osError => .ok (.inr (unusableIssue path), remaining)
  | .error (.valueError text) => .error (.value text)

/-- `inspect_artifact`, with a budget. -/
def inspectArtifact (remaining : Int) (path : RepositoryPath) :
    Except HintRaised ((InspectedArtifact ⊕ ArtifactIssue) × Int) :=
  if !index.contains path then .error notIndexed
  else if !files.isConfined path then
    .ok (.inr ⟨path, "artifact is not a confined regular file"⟩, remaining)
  else
    match files.statSize path with
    | none => .ok (.inr (unusableIssue path), remaining)
    | some observed =>
      -- only files of a streamable suffix may be larger than an artifact, and they cost budget
      if limits.maxArtifactBytes < observed ∧
          STREAMABLE_SUFFIXES.contains (files.casefold path.suffix) then
        if remaining < observed then
          .ok (.inr ⟨path, "artifact exceeds the streaming discovery work budget"⟩, remaining)
        else
          match files.inspect path limits.maxStreamArtifactBytes with
          | .ok found =>
            inspected limits path (remaining - found.size) (.ok (found.size, found.sha256))
          | .error fault => inspected limits path remaining (.error fault)
      else
        inspected limits path remaining
          ((files.capture path limits.maxArtifactBytes).map fun found => (found.size, found.sha256))

/-! ### The manifest -/

/-- `load_unique_yaml`. -/
def loadHintYaml (text : Str) : Except HintRaised Value :=
  match ft.yamlFault text with
  | some fault => .error (.tag fault)
  | none =>
    match ft.loadUniqueYaml text with
    | .ok payload => .ok payload
    | .error (.invalid text) => .error (.yaml text)
    | .error (.value text) => .error (.value text)

/-- A value that has to be a mapping. -/
def hintMapping (text : Str) : Option Value → Except HintRaised (List (Value × Value))
  | some (.dict entries) => .ok entries
  | _ => .error (discoveryError text)

def hintMetric : Option Value → Except HintRaised Unit
  | some (.str s) =>
    if isBlank s then .error (discoveryError "manifest metric is invalid") else .ok ()
  | _ => .error (discoveryError "manifest metric is invalid")

/-- The check of the threshold; `float` of an integer may overflow. -/
def hintThreshold : Option Value → Except HintRaised Unit
  | some (.int n) =>
    match Binary64.ofInt n with
    | none => .error .overflow
    | some x =>
      if x.lt (Binary64.zero false) then .error (discoveryError "manifest threshold is invalid")
      else .ok ()
  | some (.float x) =>
    if x.lt (Binary64.zero false) then .error (discoveryError "manifest threshold is invalid")
    else .ok ()
  | _ => .error (discoveryError "manifest threshold is invalid")

/-- `coerce_direction(claim.get("direction", "higher"))`. -/
def hintDirection (claim : List (Value × Value)) : Except HintRaised Unit :=
  match coerceDirection ((Value.get "direction" claim).getD (.str "higher")) "direction" with
  | .ok _ => .ok ()
  | .error error => .error (.value error.text)

/-- `_ARTIFACT_FIELDS`. -/
def HINT_FIELDS : List (Str × ArtifactKind × Option DatasetSplit) :=
  [("config", .config, none), ("results", .results, none), ("train_dataset", .dataset, some .train),
    ("eval_dataset", .dataset, some .eval)]

def HINT_ROLES : List (Str × ExperimentRole) :=
  [("baseline", .baseline), ("candidate", .candidate)]

theorem no_targets : (([] : List (FieldMapping ut)).map FieldMapping.targetField).Nodup :=
  List.nodup_nil

/-- The artifact of one field of an experiment. -/
def hintBinding (manifest : RepositoryPath) (provenance : FieldProvenance) (role : ExperimentRole)
    (experiment : List (Value × Value)) (remaining : Int)
    (field : Str × ArtifactKind × Option DatasetSplit) :
    Except HintRaised (ArtifactBinding ut × Int) :=
  -- a field that is absent is resolved as None, which is refused
  match Discovery.resolveManifestPath manifest ((Value.get field.1 experiment).getD .none) with
  | .error error => .error (.value error.text)
  | .ok path =>
    if !index.contains path then .error (discoveryError "manifest artifact is not indexed")
    else do
      let (inspection, remaining) ← inspectArtifact files limits index remaining path
      match inspection with
      | .inr _ => .error (discoveryError "manifest artifact is not usable")
      | .inl _ =>
        if split : field.2.1 ≠ .dataset → field.2.2 = none then
          .ok (⟨path.text, field.2.1, role, none, [], provenance, field.2.2, no_targets, split⟩,
            remaining)
        else .error (.value "only a dataset binding may carry a dataset split")

/-- The artifacts of one experiment. -/
def hintFields (manifest : RepositoryPath) (provenance : FieldProvenance) (role : ExperimentRole)
    (experiment : List (Value × Value)) (remaining : Int) :
    List (Str × ArtifactKind × Option DatasetSplit) →
      Except HintRaised (List (ArtifactBinding ut) × Int)
  | [] => .ok ([], remaining)
  | field :: rest => do
    let (binding, remaining) ←
      hintBinding files limits index manifest provenance role experiment remaining field
    let (others, remaining) ← hintFields manifest provenance role experiment remaining rest
    pure (binding :: others, remaining)

/-- The artifacts of the experiments. -/
def hintRoles (manifest : RepositoryPath) (provenance : FieldProvenance)
    (payload : List (Value × Value)) (remaining : Int) :
    List (Str × ExperimentRole) → Except HintRaised (List (ArtifactBinding ut) × Int)
  | [] => .ok ([], remaining)
  | (name, role) :: rest => do
    let experiment ← hintMapping "manifest experiment mapping is invalid" (Value.get name payload)
    let (bindings, remaining) ←
      hintFields files limits index manifest provenance role experiment remaining HINT_FIELDS
    let (others, remaining) ← hintRoles manifest provenance payload remaining rest
    pure (bindings ++ others, remaining)

/-! ### The candidate -/

/-- One path in both roles, which bindings without table selectors cannot share. -/
def rolesConflict (bindings : List (ArtifactBinding ut)) : Bool :=
  bindings.any fun first => bindings.any fun second =>
    first.path == second.path && first.role == .baseline && second.role == .candidate

/-- The material of the mapping id. -/
def hintMaterial (manifest : RepositoryPath) (bindings : List (ArtifactBinding ut)) : Json :=
  .object [("manifest", .str manifest.text), ("bindings", .array (bindings.map fun binding =>
    .array [.str binding.path, .str binding.kind.value, .str binding.role.value,
      (binding.datasetSplit.map fun split => Json.str split.value).getD .null]))]

/-- `"mapping-manifest-"` and the first half of a digest; the texts of the material can be
dumped. -/
def hintMappingId (manifest : RepositoryPath) (bindings : List (ArtifactBinding ut)) : Str :=
  lit "mapping-manifest-" ++
    (ft.sha256 (asciiEncode ((canonicalText (hintMaterial manifest bindings)).getD []))).take 16

/-- `0.99`. -/
def hintConfidence : Binary64 := (Binary64.ofDecimal ⟨false, 99, -2⟩).getD (Binary64.zero false)

theorem hintConfidence_bounded : (Binary64.zero false).le hintConfidence = true ∧
    hintConfidence.units ≤ 2 ^ 1074 := by decide +kernel

theorem hint_trusted {kind : ProvenanceKind} (hinted : kind = .manifestHint) :
    CandidateTrust .manifestHint kind := .inl ⟨rfl, hinted⟩

/-- The constructor of `MappingCandidate`. -/
def hintCandidate (manifest : RepositoryPath) (provenance : FieldProvenance)
    (bindings : List (ArtifactBinding ut)) : Except HintRaised (MappingCandidate ut) :=
  if filled : bindings ≠ [] then
    if distinct : (bindings.map ArtifactBinding.slot).Nodup then
      if rolesConflict bindings then
        .error (.value (lit "mapping bindings cannot assign one path to conflicting baseline " ++
          lit "and candidate roles"))
      else if hinted : provenance.kind = .manifestHint then
        .ok ⟨hintMappingId ft manifest bindings, bindings, ⟨hintConfidence, hintConfidence_bounded⟩,
          .manifestHint, provenance, filled, distinct, hint_trusted hinted⟩
      else .error (.value "manifest-hint mapping requires manifest-hint provenance")
    else .error (.value "mapping bindings must not contain duplicate bindings")
  else .error (.value "mapping bindings must be a non-empty tuple of ArtifactBinding values")

/-- The provenance of a hint. -/
def hintProvenance (manifest : RepositoryPath) : Except HintRaised FieldProvenance :=
  match fieldProvenance .manifestHint (lit "passive mapping declared by " ++ manifest.text)
      (some manifest.text) (some (lit "manifest:" ++ manifest.text)) with
  | .ok provenance => .ok provenance
  | .error error => .error (.value error.text)

/-- The body of the `try` in `_manifest_hint`, of a loaded manifest. -/
def hintOf (manifest : RepositoryPath) (budget : Int) (payload : Value) :
    Except HintRaised (MappingCandidate ut) := do
  let payload ← hintMapping "manifest root must be a mapping" (some payload)
  let claim ← hintMapping "manifest claim must be a mapping" (Value.get "claim" payload)
  hintMetric (Value.get "metric" claim)
  hintThreshold (Value.get "minimum_improvement" claim)
  hintDirection claim
  let provenance ← hintProvenance manifest
  let (bindings, _) ← hintRoles files limits index manifest provenance payload budget HINT_ROLES
  hintCandidate ft manifest provenance bindings

/-- The handler of `_manifest_hint`. -/
def handleHint (manifest : RepositoryPath) (body : Except HintRaised (MappingCandidate ut)) :
    Except HintRaised ((MappingCandidate ut) ⊕ ArtifactIssue) :=
  match body with
  | .ok mapping => .ok (.inl mapping)
  | .error raised =>
    if raised.isHandled then
      .ok (.inr ⟨manifest, "manifest is not a valid confined mapping hint"⟩)
    else .error raised

/-- `_manifest_hint`: a mapping or an issue. -/
def manifestHint (manifest : RepositoryPath) (budget : Int) :
    Except HintRaised ((MappingCandidate ut) ⊕ ArtifactIssue) := do
  match ← readArtifactText files limits index manifest with
  | .inr issue => pure (.inr issue)
  | .inl text =>
    handleHint manifest do
      let payload ← loadHintYaml ft text
      hintOf ft files limits index manifest budget payload

end Hint

/-! ### What the handler lets through -/

/-- Whatever is raised is handled. -/
def RaisesHandled {α : Type} (step : Except HintRaised α) : Prop :=
  ∀ raised, step = .error raised → raised.isHandled = true

theorem raisesHandled_ok {α : Type} (a : α) : RaisesHandled (.ok a : Except HintRaised α) :=
  fun _ raises => nomatch raises

theorem raisesHandled_value {α : Type} (text : Str) :
    RaisesHandled (.error (.value text) : Except HintRaised α) := by
  intro raised raises
  rw [← Except.error.inj raises]
  rfl

theorem RaisesHandled.bind {α β : Type} {step : Except HintRaised α}
    {next : α → Except HintRaised β} (first : RaisesHandled step)
    (rest : ∀ a, step = .ok a → RaisesHandled (next a)) :
    RaisesHandled (step >>= next) := by
  cases step with
  | error raised =>
    intro other raises
    exact first other (congrArg Except.error (Except.error.inj raises))
  | ok a => exact rest a rfl

theorem hintMapping_handled (text : Str) (value : Option Value) :
    RaisesHandled (hintMapping text value) := by
  rw [hintMapping.eq_def]
  split
  · exact raisesHandled_ok _
  · exact raisesHandled_value _

theorem hintMetric_handled (value : Option Value) : RaisesHandled (hintMetric value) := by
  rw [hintMetric.eq_def]
  split
  · split
    · exact raisesHandled_value _
    · exact raisesHandled_ok _
  · exact raisesHandled_value _

theorem hintDirection_handled (claim : List (Value × Value)) :
    RaisesHandled (hintDirection claim) := by
  rw [hintDirection]
  split
  · exact raisesHandled_ok _
  · exact raisesHandled_value _

theorem hintProvenance_handled (manifest : RepositoryPath) :
    RaisesHandled (hintProvenance manifest) := by
  rw [hintProvenance]
  split
  · exact raisesHandled_ok _
  · exact raisesHandled_value _

/-- The threshold is handled unless it is an integer that is too large for a float. -/
theorem hintThreshold_handled_iff (value : Option Value) :
    RaisesHandled (hintThreshold value) ↔
      ¬ ∃ n, value = some (.int n) ∧ Binary64.ofInt n = none := by
  rw [hintThreshold.eq_def]
  split
  next n =>
    -- the conversion of an integer to a float overflows, which the handler does not name
    cases fits : Binary64.ofInt n with
    | none =>
      refine iff_of_false (fun contained => ?_) (not_not.mpr ⟨n, rfl, fits⟩)
      exact absurd (contained .overflow rfl) Bool.false_ne_true
    | some x =>
      refine iff_of_true ?_ ?_
      · dsimp only
        split
        · exact raisesHandled_value _
        · exact raisesHandled_ok _
      · rintro ⟨m, same, large⟩
        obtain rfl : n = m := by simpa using same
        rw [fits] at large
        cases large
  next x =>
    refine iff_of_true ?_ ?_
    · split
      · exact raisesHandled_value _
      · exact raisesHandled_ok _
    · rintro ⟨n, same, -⟩
      cases same
  next other _ =>
    refine iff_of_true (raisesHandled_value _) ?_
    rintro ⟨n, same, -⟩
    exact other n same

section Bindings

variable {ut : UnicodeTables} (ft : FaultyRuntime) (files : RepositoryFiles)
  (limits : DiscoveryLimits) (index : List RepositoryPath)

theorem inspected_handled (path : RepositoryPath) (remaining : Int)
    (read : Except ReadFault (Nat × Str)) : RaisesHandled (inspected limits path remaining read) := by
  rw [inspected.eq_def]
  split
  · exact raisesHandled_ok _
  · exact raisesHandled_ok _
  · exact raisesHandled_ok _
  · exact raisesHandled_value _

theorem inspectArtifact_handled (remaining : Int) (path : RepositoryPath) :
    RaisesHandled (inspectArtifact files limits index remaining path) := by
  rw [inspectArtifact]
  split
  · exact raisesHandled_value _
  split
  · exact raisesHandled_ok _
  split
  · exact raisesHandled_ok _
  split
  · split
    · exact raisesHandled_ok _
    · split <;> exact inspected_handled limits path _ _
  · exact inspected_handled limits path _ _

theorem hintBinding_handled (manifest : RepositoryPath) (provenance : FieldProvenance)
    (role : ExperimentRole) (experiment : List (Value × Value)) (remaining : Int)
    (field : Str × ArtifactKind × Option DatasetSplit) :
    RaisesHandled (hintBinding files limits index manifest provenance role experiment remaining field :
      Except HintRaised (ArtifactBinding ut × Int)) := by
  rw [hintBinding]
  split
  · exact raisesHandled_value _
  split
  · exact raisesHandled_value _
  apply RaisesHandled.bind (inspectArtifact_handled files limits index remaining _)
  rintro ⟨inspection, after⟩ -
  dsimp only
  split
  · exact raisesHandled_value _
  split
  · exact raisesHandled_ok _
  · exact raisesHandled_value _

theorem hintFields_handled (manifest : RepositoryPath) (provenance : FieldProvenance)
    (role : ExperimentRole) (experiment : List (Value × Value)) (remaining : Int)
    (fields : List (Str × ArtifactKind × Option DatasetSplit)) :
    RaisesHandled (hintFields files limits index manifest provenance role experiment remaining fields :
      Except HintRaised (List (ArtifactBinding ut) × Int)) := by
  induction fields generalizing remaining with
  | nil => exact raisesHandled_ok _
  | cons field fields ih =>
    rw [hintFields]
    apply RaisesHandled.bind (hintBinding_handled files limits index manifest provenance role
      experiment remaining field)
    rintro ⟨binding, after⟩ -
    apply RaisesHandled.bind (ih after)
    rintro ⟨others, last⟩ -
    exact raisesHandled_ok _

theorem hintRoles_handled (manifest : RepositoryPath) (provenance : FieldProvenance)
    (payload : List (Value × Value)) (remaining : Int) (roles : List (Str × ExperimentRole)) :
    RaisesHandled (hintRoles files limits index manifest provenance payload remaining roles :
      Except HintRaised (List (ArtifactBinding ut) × Int)) := by
  induction roles generalizing remaining with
  | nil => exact raisesHandled_ok _
  | cons role roles ih =>
    obtain ⟨name, role⟩ := role
    rw [hintRoles]
    apply RaisesHandled.bind (hintMapping_handled _ _)
    intro experiment _
    apply RaisesHandled.bind (hintFields_handled files limits index manifest provenance role
      experiment remaining HINT_FIELDS)
    rintro ⟨bindings, after⟩ -
    apply RaisesHandled.bind (ih after)
    rintro ⟨others, last⟩ -
    exact raisesHandled_ok _

theorem hintCandidate_handled (manifest : RepositoryPath) (provenance : FieldProvenance)
    (bindings : List (ArtifactBinding ut)) :
    RaisesHandled (hintCandidate ft manifest provenance bindings) := by
  rw [hintCandidate]
  split
  · split
    · split
      · exact raisesHandled_value _
      · split
        · exact raisesHandled_ok _
        · exact raisesHandled_value _
    · exact raisesHandled_value _
  · exact raisesHandled_value _

/-- The threshold of a manifest is reached and is an integer that no float can hold. -/
def HugeThreshold (payload : Value) : Prop :=
  ∃ entries claim metric n, payload = .dict entries ∧
    Value.get "claim" entries = some (.dict claim) ∧
    Value.get "metric" claim = some (.str metric) ∧ isBlank metric = false ∧
    Value.get "minimum_improvement" claim = some (.int n) ∧ Binary64.ofInt n = none

theorem hintMapping_ok_iff {text : Str} {value : Option Value} {entries : List (Value × Value)} :
    hintMapping text value = .ok entries ↔ value = some (.dict entries) := by
  rw [hintMapping.eq_def]
  split
  next found => simp
  next other =>
    refine iff_of_false (by rintro ⟨⟩) fun same => ?_
    exact other entries same

theorem hintMetric_ok_iff {value : Option Value} :
    hintMetric value = .ok () ↔ ∃ metric, value = some (.str metric) ∧ isBlank metric = false := by
  rw [hintMetric.eq_def]
  split
  next metric =>
    by_cases blank : isBlank metric = true
    · rw [if_pos blank]
      refine iff_of_false (by rintro ⟨⟩) ?_
      rintro ⟨other, same, filled⟩
      obtain rfl : metric = other := by simpa using same
      rw [blank] at filled
      cases filled
    · rw [if_neg blank]
      exact iff_of_true rfl ⟨metric, rfl, Bool.eq_false_iff.mpr blank⟩
  next other =>
    refine iff_of_false (by rintro ⟨⟩) ?_
    rintro ⟨metric, same, -⟩
    exact other metric same

theorem hintOf_overflow (manifest : RepositoryPath) (budget : Int) {payload : Value}
    (huge : HugeThreshold payload) :
    (hintOf ft files limits index manifest budget payload :
      Except HintRaised (MappingCandidate ut)) = .error .overflow := by
  obtain ⟨entries, claim, metric, n, rfl, claimed, named, filled, declared, large⟩ := huge
  have mapping : hintMapping "manifest root must be a mapping" (some (.dict entries)) =
      .ok entries := rfl
  have claimOk : hintMapping "manifest claim must be a mapping" (Value.get "claim" entries) =
      .ok claim := hintMapping_ok_iff.mpr claimed
  have metricOk : hintMetric (Value.get "metric" claim) = .ok () :=
    hintMetric_ok_iff.mpr ⟨metric, named, filled⟩
  have overflows : hintThreshold (Value.get "minimum_improvement" claim) = .error .overflow := by
    rw [declared, hintThreshold, large]
  rw [hintOf, mapping]
  simp only [bind, Except.bind, claimOk, metricOk, overflows]

theorem hintOf_handled_iff (manifest : RepositoryPath) (budget : Int) (payload : Value) :
    RaisesHandled (hintOf ft files limits index manifest budget payload :
      Except HintRaised (MappingCandidate ut)) ↔ ¬ HugeThreshold payload := by
  constructor
  -- a threshold that overflows escapes before the bindings are read
  · intro handled huge
    have escapes := handled .overflow
      (hintOf_overflow ft files limits index manifest budget huge)
    exact Bool.false_ne_true escapes
  · intro small
    rw [hintOf]
    apply RaisesHandled.bind (hintMapping_handled _ _)
    -- the fields in the order in which the code reads them
    intro entries root
    apply RaisesHandled.bind (hintMapping_handled _ _)
    intro claim claimed
    apply RaisesHandled.bind (hintMetric_handled _)
    intro _ named
    apply RaisesHandled.bind ((hintThreshold_handled_iff _).mpr ?_)
    · intro _ _
      apply RaisesHandled.bind (hintDirection_handled _)
      intro _ _
      apply RaisesHandled.bind (hintProvenance_handled _)
      intro provenance _
      apply RaisesHandled.bind (hintRoles_handled files limits index manifest provenance entries
        budget HINT_ROLES)
      rintro ⟨bindings, after⟩ -
      exact hintCandidate_handled ft manifest provenance bindings
    · rintro ⟨n, declared, large⟩
      obtain ⟨metric, named, filled⟩ := hintMetric_ok_iff.mp named
      exact small ⟨entries, claim, metric, n, Option.some.inj (hintMapping_ok_iff.mp root),
        hintMapping_ok_iff.mp claimed, named, filled, declared, large⟩

/-! ### The bindings of a returned mapping -/

/-- The roles, kinds and splits of the eight declared artifacts. -/
def HINT_SLOTS : List (ExperimentRole × ArtifactKind × Option DatasetSplit) :=
  HINT_ROLES.flatMap fun role => HINT_FIELDS.map fun field => (role.2, field.2)

def ArtifactBinding.declaredSlot (binding : ArtifactBinding ut) :
    ExperimentRole × ArtifactKind × Option DatasetSplit :=
  (binding.role, binding.kind, binding.datasetSplit)

/-- A binding names an indexed file that the inspection accepted. -/
def NamesInspected (binding : ArtifactBinding ut) : Prop :=
  ∃ path ∈ index, path.text = binding.path ∧ ∃ remaining inspection after,
    inspectArtifact files limits index remaining path = .ok (.inl inspection, after)

theorem hintBinding_ok {manifest : RepositoryPath} {provenance : FieldProvenance}
    {role : ExperimentRole} {experiment : List (Value × Value)} {remaining after : Int}
    {field : Str × ArtifactKind × Option DatasetSplit} {binding : ArtifactBinding ut}
    (returned : hintBinding files limits index manifest provenance role experiment remaining field =
      .ok (binding, after)) :
    binding.declaredSlot = (role, field.2) ∧ NamesInspected files limits index binding := by
  rw [hintBinding] at returned
  split at returned
  · cases returned
  next path _ =>
  split at returned
  · cases returned
  next indexed =>
  obtain ⟨⟨inspection, left⟩, inspects, rest⟩ := bind_ok_iff.mp returned
  dsimp only at rest
  split at rest
  · cases rest
  next found =>
  split at rest
  · obtain ⟨rfl, -⟩ := Prod.mk.inj (Except.ok.inj rest)
    refine ⟨rfl, path, ?_, rfl, remaining, found, left, inspects⟩
    simpa using indexed
  · cases rest

theorem hintFields_ok {manifest : RepositoryPath} {provenance : FieldProvenance}
    {role : ExperimentRole} {experiment : List (Value × Value)} {remaining after : Int}
    {fields : List (Str × ArtifactKind × Option DatasetSplit)}
    {bindings : List (ArtifactBinding ut)}
    (returned : hintFields files limits index manifest provenance role experiment remaining fields =
      .ok (bindings, after)) :
    bindings.map ArtifactBinding.declaredSlot = fields.map (fun field => (role, field.2)) ∧
      ∀ binding ∈ bindings, NamesInspected files limits index binding := by
  induction fields generalizing remaining after bindings with
  | nil =>
    obtain ⟨rfl, -⟩ := Prod.mk.inj (Except.ok.inj returned)
    exact ⟨rfl, List.forall_mem_nil _⟩
  | cons field fields ih =>
    rw [hintFields] at returned
    obtain ⟨⟨binding, left⟩, first, returned⟩ := bind_ok_iff.mp returned
    obtain ⟨⟨others, last⟩, rest, returned⟩ := bind_ok_iff.mp returned
    obtain ⟨rfl, -⟩ := Prod.mk.inj (Except.ok.inj returned)
    obtain ⟨slot, names⟩ := hintBinding_ok files limits index first
    obtain ⟨slots, all⟩ := ih rest
    exact ⟨by rw [List.map_cons, List.map_cons, slot, slots],
      List.forall_mem_cons.mpr ⟨names, all⟩⟩

theorem hintRoles_ok {manifest : RepositoryPath} {provenance : FieldProvenance}
    {payload : List (Value × Value)} {remaining after : Int} {roles : List (Str × ExperimentRole)}
    {bindings : List (ArtifactBinding ut)}
    (returned : hintRoles files limits index manifest provenance payload remaining roles =
      .ok (bindings, after)) :
    bindings.map ArtifactBinding.declaredSlot =
        roles.flatMap (fun role => HINT_FIELDS.map fun field => (role.2, field.2)) ∧
      ∀ binding ∈ bindings, NamesInspected files limits index binding := by
  -- induction on the roles; the budget goes on from one to the next
  induction roles generalizing remaining after bindings with
  | nil =>
    obtain ⟨rfl, -⟩ := Prod.mk.inj (Except.ok.inj returned)
    exact ⟨rfl, List.forall_mem_nil _⟩
  | cons role roles ih =>
    obtain ⟨name, role⟩ := role
    rw [hintRoles] at returned
    obtain ⟨experiment, -, returned⟩ := bind_ok_iff.mp returned
    obtain ⟨⟨here, left⟩, first, returned⟩ := bind_ok_iff.mp returned
    obtain ⟨⟨others, last⟩, rest, returned⟩ := bind_ok_iff.mp returned
    obtain ⟨rfl, -⟩ := Prod.mk.inj (Except.ok.inj returned)
    obtain ⟨slots, names⟩ := hintFields_ok files limits index first
    obtain ⟨otherSlots, all⟩ := ih rest
    refine ⟨by rw [List.map_append, slots, otherSlots, List.flatMap_cons], ?_⟩
    intro binding member
    rcases List.mem_append.mp member with member | member
    · exact names binding member
    · exact all binding member

theorem hintCandidate_bindings {manifest : RepositoryPath} {provenance : FieldProvenance}
    {bindings : List (ArtifactBinding ut)} {mapping : MappingCandidate ut}
    (returned : hintCandidate ft manifest provenance bindings = .ok mapping) :
    mapping.bindings = bindings := by
  rw [hintCandidate] at returned
  split at returned
  · split at returned
    · split at returned
      · cases returned
      · split at returned
        · rw [← Except.ok.inj returned]
        · cases returned
    · cases returned
  · cases returned

/-- The eight bindings of a mapping, in their order, name inspected files of the index. -/
structure DeclaresEight (mapping : MappingCandidate ut) : Prop where
  slots : mapping.bindings.map ArtifactBinding.declaredSlot = HINT_SLOTS
  files : ∀ binding ∈ mapping.bindings, NamesInspected files limits index binding

theorem hintOf_ok {manifest : RepositoryPath} {budget : Int} {payload : Value}
    {mapping : MappingCandidate ut}
    (returned : hintOf ft files limits index manifest budget payload = .ok mapping) :
    DeclaresEight files limits index mapping := by
  rw [hintOf] at returned
  obtain ⟨entries, -, returned⟩ := bind_ok_iff.mp returned
  obtain ⟨claim, -, returned⟩ := bind_ok_iff.mp returned
  obtain ⟨_, -, returned⟩ := bind_ok_iff.mp returned
  obtain ⟨_, -, returned⟩ := bind_ok_iff.mp returned
  obtain ⟨_, -, returned⟩ := bind_ok_iff.mp returned
  obtain ⟨provenance, -, returned⟩ := bind_ok_iff.mp returned
  obtain ⟨⟨bindings, after⟩, roles, returned⟩ := bind_ok_iff.mp returned
  obtain ⟨slots, names⟩ := hintRoles_ok files limits index roles
  have same := hintCandidate_bindings ft returned
  exact ⟨by rw [same]; exact slots, by rw [same]; exact names⟩

/-! ### When a hint returns -/

/-- What makes a hint return: the manifest is indexed and read without an error of its descriptor,
its text raises none of the exceptions of converted tags, and its threshold fits a float. -/
structure HintReturns (manifest : RepositoryPath) : Prop where
  indexed : manifest ∈ index
  reads : ∀ fault, files.capture manifest limits.maxArtifactBytes = .error fault →
    ∃ code, fault = .passive code
  converts : ∀ capture text, files.capture manifest limits.maxArtifactBytes = .ok capture →
    decodeUtf8 capture.content = some text → ft.yamlFault (universalNewlines text) = none
  fits : ∀ capture text payload, files.capture manifest limits.maxArtifactBytes = .ok capture →
    decodeUtf8 capture.content = some text → ft.yamlFault (universalNewlines text) = none →
      ft.loadUniqueYaml (universalNewlines text) = .ok payload → ¬ HugeThreshold payload

theorem handleHint_ok_iff (manifest : RepositoryPath)
    (body : Except HintRaised (MappingCandidate ut)) :
    (∃ result, handleHint manifest body = .ok result) ↔ RaisesHandled body := by
  rw [handleHint.eq_def]
  cases body with
  | ok mapping => exact iff_of_true ⟨_, rfl⟩ (raisesHandled_ok mapping)
  | error raised =>
    dsimp only
    by_cases handled : raised.isHandled = true
    · rw [if_pos handled]
      refine iff_of_true ⟨_, rfl⟩ fun other raises => ?_
      rw [← Except.error.inj raises]
      exact handled
    · rw [if_neg handled]
      refine iff_of_false ?_ fun contained => handled (contained raised rfl)
      rintro ⟨result, returned⟩
      cases returned

theorem loadHintYaml_handled_iff (text : Str) :
    RaisesHandled (loadHintYaml ft text) ↔ ft.yamlFault text = none := by
  rw [loadHintYaml]
  cases ft.yamlFault text with
  | some fault =>
    refine iff_of_false (fun contained => ?_) (Option.some_ne_none fault)
    exact absurd (contained (.tag fault) rfl) Bool.false_ne_true
  | none =>
    refine iff_of_true ?_ rfl
    cases ft.loadUniqueYaml text with
    | ok payload => exact raisesHandled_ok payload
    | error error =>
      cases error with
      | invalid text =>
        intro raised raises
        rw [← Except.error.inj raises]
        rfl
      | value text => exact raisesHandled_value text

theorem loadHintYaml_ok_iff {text : Str} {payload : Value} :
    loadHintYaml ft text = .ok payload ↔
      ft.yamlFault text = none ∧ ft.loadUniqueYaml text = .ok payload := by
  rw [loadHintYaml]
  cases ft.yamlFault text with
  | some fault =>
    exact iff_of_false (by rintro ⟨⟩) (by rintro ⟨⟨⟩, -⟩)
  | none =>
    cases ft.loadUniqueYaml text with
    | ok found => simp
    | error error => cases error <;> simp

theorem manifestHint_of_text {manifest : RepositoryPath} {text : Str}
    (read : readArtifactText files limits index manifest = .ok (.inl text)) (budget : Int) :
    (manifestHint ft files limits index manifest budget :
      Except HintRaised (MappingCandidate ut ⊕ ArtifactIssue)) =
        handleHint manifest (loadHintYaml ft text >>= fun payload =>
          hintOf ft files limits index manifest budget payload) := by
  rw [manifestHint, read]
  rfl

theorem manifestHint_overflow {manifest : RepositoryPath} {text : Str} {payload : Value}
    (read : readArtifactText files limits index manifest = .ok (.inl text))
    (loads : loadHintYaml ft text = .ok payload) (huge : HugeThreshold payload) (budget : Int) :
    (manifestHint ft files limits index manifest budget :
      Except HintRaised (MappingCandidate ut ⊕ ArtifactIssue)) = .error .overflow := by
  have body : (loadHintYaml ft text >>= fun payload =>
      (hintOf ft files limits index manifest budget payload :
        Except HintRaised (MappingCandidate ut))) = .error .overflow := by
    rw [loads]
    exact hintOf_overflow ft files limits index manifest budget huge
  rw [manifestHint_of_text ft files limits index read, body]
  rfl

theorem body_handled_iff (manifest : RepositoryPath) (budget : Int) (text : Str) :
    RaisesHandled (loadHintYaml ft text >>= fun payload =>
        (hintOf ft files limits index manifest budget payload :
          Except HintRaised (MappingCandidate ut))) ↔
      ft.yamlFault text = none ∧
        ∀ payload, ft.yamlFault text = none → ft.loadUniqueYaml text = .ok payload →
          ¬ HugeThreshold payload := by
  constructor
  · intro contained
    have loads : ft.yamlFault text = none := by
      refine (loadHintYaml_handled_iff ft text).mp fun raised raises => ?_
      rw [raises] at contained
      exact contained raised rfl
    refine ⟨loads, fun payload _ loaded => ?_⟩
    rw [(loadHintYaml_ok_iff ft).mpr ⟨loads, loaded⟩] at contained
    exact (hintOf_handled_iff ft files limits index manifest budget payload).mp contained
  · rintro ⟨loads, small⟩
    apply RaisesHandled.bind ((loadHintYaml_handled_iff ft text).mpr loads)
    intro payload loaded
    exact (hintOf_handled_iff ft files limits index manifest budget payload).mpr
      (small payload loads ((loadHintYaml_ok_iff ft).mp loaded).2)

/-- A hint returns exactly under `HintReturns`, and a mapping that it returns has eight bindings to
inspected files of the index. -/
theorem manifestHint_returns_iff (manifest : RepositoryPath) (budget : Int) :
    ((∃ result : MappingCandidate ut ⊕ ArtifactIssue,
        manifestHint ft files limits index manifest budget = .ok result) ↔
      HintReturns ft files limits index manifest) ∧
    ∀ mapping : MappingCandidate ut,
      manifestHint ft files limits index manifest budget = .ok (.inl mapping) →
        DeclaresEight files limits index mapping := by
  constructor
  · rw [manifestHint, readArtifactText]
    by_cases indexed : manifest ∈ index
    · rw [if_neg (by simp [indexed])]
      cases captured : files.capture manifest limits.maxArtifactBytes with
      -- a capture that fails is reported for a passive code, and escapes otherwise
      | error fault =>
        have noText : ∀ capture, ¬ files.capture manifest limits.maxArtifactBytes = .ok capture := by
          rw [captured]
          rintro _ ⟨⟩
        cases fault with
        | passive code =>
          refine iff_of_true ⟨_, rfl⟩ ⟨indexed, fun fault same => ?_, ?_, ?_⟩
          · rw [captured] at same
            exact ⟨code, (Except.error.inj same).symm⟩
          · exact fun capture _ same => absurd same (noText capture)
          · exact fun capture _ _ same => absurd same (noText capture)
        | osError =>
          refine iff_of_false (by rintro ⟨_, ⟨⟩⟩) fun returns => ?_
          obtain ⟨code, other⟩ := returns.reads _ captured
          cases other
        | valueError text =>
          refine iff_of_false (by rintro ⟨_, ⟨⟩⟩) fun returns => ?_
          obtain ⟨code, other⟩ := returns.reads _ captured
          cases other
      | ok capture =>
        have only : ∀ fault, ¬ files.capture manifest limits.maxArtifactBytes = .error fault := by
          rw [captured]
          rintro _ ⟨⟩
        have same {other : PassiveFileCapture}
            (found : files.capture manifest limits.maxArtifactBytes = .ok other) :
            other = capture := by
          rw [captured] at found
          exact (Except.ok.inj found).symm
        dsimp only
        cases decoded : decodeUtf8 capture.content with
        -- not UTF-8: an issue
        | none =>
          refine iff_of_true ⟨_, rfl⟩ ⟨indexed, fun fault h => absurd h (only fault), ?_, ?_⟩
          · rintro other text found reads
            rw [same found, decoded] at reads
            cases reads
          · rintro other text payload found reads
            rw [same found, decoded] at reads
            cases reads
        | some text =>
          -- what runs under the try raises, or returns a mapping or an issue
          have run : (∃ result : MappingCandidate ut ⊕ ArtifactIssue, handleHint manifest
              (loadHintYaml ft (universalNewlines text) >>= fun payload =>
                hintOf ft files limits index manifest budget payload) = .ok result) ↔ _ :=
            (handleHint_ok_iff manifest _).trans
              (body_handled_iff ft files limits index manifest budget (universalNewlines text))
          refine Iff.trans run ?_
          constructor
          · rintro ⟨loads, small⟩
            refine ⟨indexed, fun fault h => absurd h (only fault), ?_, ?_⟩
            · rintro other read found reads
              rw [same found, decoded] at reads
              rw [← Option.some.inj reads]
              exact loads
            · rintro other read payload found reads
              rw [same found, decoded] at reads
              rw [← Option.some.inj reads]
              exact small payload
          · intro returns
            exact ⟨returns.converts capture text captured decoded,
              fun payload => returns.fits capture text payload captured decoded⟩
    -- outside the index the reader raises
    · rw [if_pos (by simp [indexed])]
      refine iff_of_false (by rintro ⟨_, ⟨⟩⟩) fun returns => ?_
      exact indexed returns.indexed
  -- a mapping comes out of the body only
  · intro mapping returned
    obtain ⟨read, -, returned⟩ := bind_ok_iff.mp returned
    cases read with
    | inr issue => cases returned
    | inl text =>
      dsimp only at returned
      rw [handleHint.eq_def] at returned
      split at returned
      next found body =>
        obtain rfl := Sum.inl.inj (Except.ok.inj returned)
        obtain ⟨payload, -, hint⟩ := bind_ok_iff.mp body
        exact hintOf_ok ft files limits index hint
      next raised _ =>
        split at returned
        · cases returned
        · cases returned

end Bindings

/-! ### A manifest of eight files -/

/-- The experiment of a manifest whose artifacts lie in one directory. -/
def armText (role place : Str) : Str :=
  role ++ lit ": \x7bconfig: " ++ place ++ lit "/c.yaml, results: " ++ place ++ lit "/r.json,\n" ++
    lit "  train_dataset: " ++ place ++ lit "/t.jsonl,\n  eval_dataset: " ++ place ++
    lit "/e.jsonl\x7d\n"

/-- A manifest that declares eight files. -/
def pairManifest : Str :=
  lit "claim: \x7bmetric: acc, " ++ lit "minimum_improvement: 0\x7d\n" ++
    armText (lit "baseline") (lit "b") ++ armText (lit "candidate") (lit "c")

def armValue (place : Str) : Value := Value.ofMembers
  [("config", .str (place ++ lit "/c.yaml")), ("results", .str (place ++ lit "/r.json")),
    ("train_dataset", .str (place ++ lit "/t.jsonl")),
    ("eval_dataset", .str (place ++ lit "/e.jsonl"))]

def pairPayload : Value := Value.ofMembers
  [("claim", Value.ofMembers [("metric", .str "acc"), ("minimum_improvement", .int 0)]),
    ("baseline", armValue (lit "b")), ("candidate", armValue (lit "c"))]

/-- The files that the manifest declares. -/
def pairPaths : List Str :=
  [lit "b", lit "c"].flatMap fun place =>
    [place ++ lit "/c.yaml", place ++ lit "/r.json", place ++ lit "/t.jsonl", place ++ lit "/e.jsonl"]

def pairIndex : List RepositoryPath :=
  rootManifest :: pairPaths.filterMap fun path =>
    if valid : isRepositoryPath path = true then some ⟨path, valid⟩ else none

/-- The manifest, and files without content. -/
def pairFiles : RepositoryFiles where
  isConfined _ := true
  statSize _ := some 0
  capture path _ :=
    if path = rootManifest then .ok ⟨asciiEncode pairManifest, pairManifest.length, []⟩
    else .ok ⟨[], 0, hexdigest 0xe3b0c44298fc1c149afbf4c8996fb92427ae41e4649b934ca495991b7852b855⟩
  inspect _ _ := .error .osError
  casefold s := s

/-- A loader that knows the manifest, and the digest of the material of the mapping. -/
def pairRuntime : FaultyRuntime :=
  { plainRuntime with
    yamlLoad := fun text =>
      if text = pairManifest then .ok (.ofValue pairPayload) else .error (.yaml (.invalid []))
    yamlFault := fun _ => none
    sha256 := fun _ =>
      hexdigest 0x9c34e2a4fd17cfc02fec24e46811c60b40967e5c1ce0e53dad15032b0169e3d9 }

/-- The hint of a manifest that declares eight files. -/
theorem manifestHint_pair :
    ∃ mapping : MappingCandidate plainTables,
      manifestHint pairRuntime pairFiles ⟨16777216, 1073741824⟩ pairIndex rootManifest 4294967296 =
          .ok (.inl mapping) ∧
        DeclaresEight pairFiles ⟨16777216, 1073741824⟩ pairIndex mapping ∧
        mapping.bindings.map ArtifactBinding.path = pairPaths := by
  have decoded : decodeUtf8 (asciiEncode pairManifest) = some pairManifest := by decide +kernel
  have lines : universalNewlines pairManifest = pairManifest := by decide +kernel
  have read : readArtifactText pairFiles ⟨16777216, 1073741824⟩ pairIndex rootManifest =
      .ok (.inl pairManifest) := by
    rw [readArtifactText, if_neg (by simp [pairIndex])]
    simp only [pairFiles, if_true, decoded, lines]
  have loads : loadHintYaml pairRuntime pairManifest = .ok pairPayload := by
    refine (loadHintYaml_ok_iff pairRuntime).mpr ⟨rfl, loadUniqueYaml_ofValue ?_ (by decide)⟩
    simp only [pairRuntime, if_true]
  obtain ⟨mapping, hinted, paths⟩ := ok_of_any (by decide +kernel :
    (hintOf pairRuntime pairFiles ⟨16777216, 1073741824⟩ pairIndex rootManifest 4294967296
      pairPayload).toOption.any (fun mapping : MappingCandidate plainTables =>
        decide (mapping.bindings.map ArtifactBinding.path = pairPaths)) = true)
  have returned : (manifestHint pairRuntime pairFiles ⟨16777216, 1073741824⟩ pairIndex rootManifest
      4294967296 : Except HintRaised (MappingCandidate plainTables ⊕ ArtifactIssue)) =
        .ok (.inl mapping) := by
    refine bind_ok_iff.mpr ⟨_, read, ?_⟩
    dsimp only
    rw [bind_ok_iff.mpr ⟨pairPayload, loads, hinted⟩, handleHint]
  exact ⟨mapping, returned, (manifestHint_returns_iff pairRuntime pairFiles ⟨16777216, 1073741824⟩
    pairIndex rootManifest 4294967296).2 mapping returned, of_decide_eq_true paths⟩

/-! ### A threshold of more than three hundred digits -/

/-- A manifest with a threshold that no float can hold. -/
def hugeManifest : Str :=
  lit "claim: \x7bmetric: accuracy, minimum_improvement: 1" ++ List.replicate 309 (codePoint 0x30) ++
    lit "\x7d\n"

def hugePayload : Value :=
  .dict [(.str "claim", .dict [(.str "metric", .str "accuracy"),
    (.str "minimum_improvement", .int (10 ^ 309))])]

/-- The one manifest, which is all that is read. -/
def hugeFiles : RepositoryFiles where
  isConfined _ := true
  statSize _ := none
  capture _ _ := .ok ⟨asciiEncode hugeManifest, 359, []⟩
  inspect _ _ := .error .osError
  casefold s := s

/-- A loader that knows the manifest. -/
def hugeRuntime : FaultyRuntime :=
  { plainRuntime with
    yamlLoad := fun text =>
      if text = hugeManifest then .ok (.ofValue hugePayload) else .error (.yaml (.invalid []))
    yamlFault := fun _ => none }

/-- The overflow of the conversion is no exception that the handler names. -/
theorem hugeThreshold_raises :
    (manifestHint hugeRuntime hugeFiles ⟨16777216, 1073741824⟩ [rootManifest] rootManifest
        4294967296 : Except HintRaised (MappingCandidate plainTables ⊕ ArtifactIssue)) =
      .error .overflow := by
  have decoded : decodeUtf8 (asciiEncode hugeManifest) = some hugeManifest := by decide +kernel
  have lines : universalNewlines hugeManifest = hugeManifest := by decide +kernel
  have read : readArtifactText hugeFiles ⟨16777216, 1073741824⟩ [rootManifest] rootManifest =
      .ok (.inl hugeManifest) := by
    rw [readArtifactText, if_neg (by simp)]
    simp only [hugeFiles, decoded, lines]
  have loads : loadHintYaml hugeRuntime hugeManifest = .ok hugePayload := by
    refine (loadHintYaml_ok_iff hugeRuntime).mpr ⟨rfl, loadUniqueYaml_ofValue ?_ (by decide)⟩
    simp only [hugeRuntime, if_true]
  have large : Binary64.ofInt (10 ^ 309) = none := by decide +kernel
  have huge : HugeThreshold hugePayload :=
    ⟨_, _, "accuracy", 10 ^ 309, rfl, rfl, rfl, by decide +kernel, rfl, large⟩
  exact manifestHint_overflow hugeRuntime hugeFiles _ _ read loads huge _

end ClaimCI
