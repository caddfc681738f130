import ClaimCI.Analysis.MappingOrder
import ClaimCI.Analysis.PointerLeaves
import ClaimCI.Analysis.StructuredAdapters
import ClaimCI.Analysis.TraceBundle
import ClaimCI.MeasurementDrift

/-!
# Structured extraction

When the mappings that a probe of results infers can be extracted from the same bytes: the roles of
the leaves are chosen by their keys and, for JSON lines, by the types they share, while extraction
checks the values of every record.
-/

open Python

namespace ClaimCI

/-! ### Values that fit a field -/

/-- A text that `_bounded_id` takes. -/
def isBoundedId (maximum : Nat) (s : Str) : Bool :=
  !isBlank s && s.length ≤ maximum && s == strip s && !hasControl s

/-- A text that may name a metric. -/
def isMetricName (s : Str) : Bool := !isBlank s && s.length ≤ 256

/-- A value that may be a run. -/
def isRunValue : Json → Bool
  | .str s => isBoundedId 256 s
  | .int n => (intText n).any (isBoundedId 256)
  | _ => false

/-- A value that may be a seed. -/
def isSeedValue : Json → Bool
  | .str s => isBoundedId 128 s
  | .int _ => true
  | _ => false

theorem boundedText_ok_iff {label value : Str} {maximum : Nat} :
    boundedText label value maximum = .ok () ↔ isBlank value = false ∧ value.length ≤ maximum := by
  rw [boundedText, rejectIf_then_iff, rejectIf_ok_iff, beq_eq_false_iff_ne, ne_eq, strip_eq_nil_iff,
    Bool.not_eq_true, decide_eq_false_iff_not, not_lt]

theorem check_then_iff {α : Type} {check : Except Error Unit} {next : Except Error α} {result : α} :
    (do check; next) = .ok result ↔ check = .ok () ∧ next = .ok result := by
  rw [bind_ok_iff]
  constructor
  · rintro ⟨_, checked, rest⟩
    exact ⟨checked, rest⟩
  · rintro ⟨checked, rest⟩
    exact ⟨(), checked, rest⟩

theorem boundedId_ok_iff {label value : Str} {maximum : Nat} :
    boundedId label value maximum = .ok () ↔ isBoundedId maximum value = true := by
  rw [boundedId, check_then_iff, boundedText_ok_iff]
  simp only [rejectIf_ok_iff, isBoundedId, Bool.and_eq_true,
    Bool.not_eq_true', decide_eq_true_eq, Bool.or_eq_false_iff, bne_eq_false_iff_eq, beq_iff_eq,
    and_assoc]

/-- The value of a record under a pointer. -/
def leafAt (record : Json) (pointer : Str) : Option Json := lookupKey pointer (pointerLeaves record)

section Fits

variable (lower : Str → Str)

/-- The values of a record fit the roles that its pointers have in the inferred leaves. -/
structure Extractable (leaves : List (Str × Json)) (record : Json) : Prop where
  nested : isNested record = true
  metric : ∀ pointer, metricPointer lower leaves = some pointer →
    (leafAt record pointer).any isMetricNumber = true
  named : ∀ pointer, uniqueNamedPointer lower leaves METRIC_NAME_NAMES = some pointer →
    ∃ name, leafAt record pointer = some (.str name) ∧ isMetricName name = true
  derived : uniqueNamedPointer lower leaves METRIC_NAME_NAMES = none →
    ∀ pointer, metricPointer lower leaves = some pointer →
      isMetricName (pointerTerminal pointer) = true
  run : ∀ pointer, uniqueNamedPointer lower leaves RUN_NAMES = some pointer →
    (leafAt record pointer).any isRunValue = true
  seed : ∀ pointer, uniqueNamedPointer lower leaves SEED_NAMES = some pointer →
    (leafAt record pointer).any isSeedValue = true

/-- A text that may name a metric. -/
def isNameValue : Json → Bool
  | .str name => isMetricName name
  | _ => false

theorem any_isNameValue {value : Option Json} :
    value.any isNameValue = true ↔ ∃ name, value = some (.str name) ∧ isMetricName name = true := by
  rw [Option.any_eq_true]
  constructor
  · rintro ⟨value, rfl, named⟩
    cases value with
    | str name => exact ⟨name, rfl, named⟩
    | _ => cases named
  · rintro ⟨name, rfl, fits⟩
    exact ⟨.str name, rfl, fits⟩

instance (leaves : List (Str × Json)) (record : Json) : Decidable (Extractable lower leaves record) :=
  decidable_of_iff (isNested record = true ∧
      (∀ pointer ∈ metricPointer lower leaves, (leafAt record pointer).any isMetricNumber = true) ∧
      (∀ pointer ∈ uniqueNamedPointer lower leaves METRIC_NAME_NAMES,
        (leafAt record pointer).any isNameValue = true) ∧
      (uniqueNamedPointer lower leaves METRIC_NAME_NAMES = none →
        ∀ pointer ∈ metricPointer lower leaves, isMetricName (pointerTerminal pointer) = true) ∧
      (∀ pointer ∈ uniqueNamedPointer lower leaves RUN_NAMES,
        (leafAt record pointer).any isRunValue = true) ∧
      ∀ pointer ∈ uniqueNamedPointer lower leaves SEED_NAMES,
        (leafAt record pointer).any isSeedValue = true) <| by
    simp only [any_isNameValue, Option.mem_def]
    constructor
    · rintro ⟨nested, metric, named, derived, run, seed⟩
      exact ⟨nested, metric, named, derived, run, seed⟩
    · rintro ⟨nested, metric, named, derived, run, seed⟩
      exact ⟨nested, metric, named, derived, run, seed⟩

/-- An observation has the metric of its record. -/
def Observes (leaves : List (Str × Json)) (record : Json) (observation : ExtractedObservation) :
    Prop :=
  ∃ pointer name value, metricPointer lower leaves = some pointer ∧
    observation.metric = some (name, value) ∧
    (leafAt record pointer).bind finiteNumber = some value

end Fits

/-! ### Provenances -/

section Core

variable {ut : UnicodeTables} (rt : Runtime) (artifact : PassiveArtifact)

/-- A provenance names the path and the digest of the artifact. -/
def BoundTo (provenance : FieldProvenance) : Prop :=
  provenance.sourcePath = some artifact.path.text ∧ artifact.sha256.text <:+: provenance.detail

theorem checkBound_ok_iff {label : Str} {provenance : FieldProvenance} :
    checkBound artifact label provenance = .ok () ↔ BoundTo artifact provenance := by
  rw [checkBound, rejectIf_then_iff, rejectIf_ok_iff, bne_eq_false_iff_eq, Bool.not_eq_false',
    decide_eq_true_iff, BoundTo]

theorem fieldProvenance_eq {kind : ProvenanceKind} {detail : Str} {sourcePath sourceId : Option Str}
    {provenance : FieldProvenance}
    (built : fieldProvenance kind detail sourcePath sourceId = .ok provenance) :
    provenance.detail = detail ∧ provenance.sourcePath = sourcePath := by
  rw [fieldProvenance] at built
  split at built
  · cases built
  · rw [← Except.ok.inj built]
    exact ⟨rfl, rfl⟩

theorem fieldProvenance_isOk {kind : ProvenanceKind} {detail : Str}
    {sourcePath sourceId : Option Str} (checked : FieldProvenance.check detail sourceId = .ok ()) :
    ∃ provenance, fieldProvenance kind detail sourcePath sourceId = .ok provenance := by
  rw [fieldProvenance]
  split
  next refused =>
    rw [checked] at refused
    cases refused
  · exact ⟨_, rfl⟩

theorem adapterProvenance_bound {adapterId selector : Str} {inferred : Bool}
    {provenance : FieldProvenance}
    (built : adapterProvenance artifact adapterId selector inferred = .ok provenance) :
    BoundTo artifact provenance := by
  obtain ⟨detail, path⟩ := fieldProvenance_eq built
  refine ⟨path, detail ▸ ?_⟩
  exact ⟨_, _, (List.append_assoc _ _ _).symm⟩

theorem fieldProvenance_checked {kind : ProvenanceKind} {detail : Str}
    {sourcePath sourceId : Option Str} {provenance : FieldProvenance}
    (built : fieldProvenance kind detail sourcePath sourceId = .ok provenance) :
    FieldProvenance.check detail sourceId = .ok () := by
  rw [fieldProvenance] at built
  split at built
  · cases built
  next checked => exact checked

/-- An adapter that builds one provenance builds those of all selectors that are short enough. -/
theorem adapterProvenance_isOk {adapterId selector other : Str} {inferred inferredToo : Bool}
    {provenance : FieldProvenance}
    (built : adapterProvenance artifact adapterId selector inferred = .ok provenance)
    (short : adapterId.length + other.length ≤ 3072) :
    ∃ another, adapterProvenance artifact adapterId other inferredToo = .ok another := by
  obtain ⟨-, source⟩ := check_then_iff.mp (fieldProvenance_checked built)
  have digest : artifact.sha256.text.length = 64 := by
    have valid := artifact.sha256.valid
    simp only [isSha256, Bool.and_eq_true, beq_iff_eq] at valid
    exact valid.1
  refine fieldProvenance_isOk (check_then_iff.mpr ⟨boundedText_ok_iff.mpr ⟨?_, ?_⟩, source⟩)
  · simp only [List.append_assoc]
    exact Bool.eq_false_iff.mpr fun blank =>
      absurd (List.all_eq_true.mp blank 0x61 List.mem_cons_self) (by decide)
  · have marker : (lit "adapter=").length = 8 ∧ (lit "; selector=").length = 11 ∧
        (lit "; sha256=").length = 9 ∧ (lit "; inferred=").length = 11 := by decide
    have flag : (if inferredToo then lit "true" else lit "false").length ≤ 5 := by
      cases inferredToo <;> decide
    simp only [List.length_append]
    omega

/-! ### Inferred mappings -/

/-- A mapping as a probe issues it for a target and a pointer. -/
structure IssuedMapping (selector : Str × Str) (mapping : FieldMapping ut) : Prop where
  target : mapping.targetField = selector.1
  kind : mapping.selector.kind = .jsonPointer
  expression : mapping.selector.expression = selector.2
  short : selector.2.length ≤ 1024
  bound : BoundTo artifact mapping.provenance
  selectorBound : BoundTo artifact mapping.selector.provenance

theorem evidenceSelector_eq {kind : SelectorKind} {expression : Str} {provenance : FieldProvenance}
    {selector : EvidenceSelector}
    (built : evidenceSelector kind expression provenance = .ok selector) :
    selector.kind = kind ∧ selector.expression = expression ∧ selector.provenance = provenance ∧
      expression.length ≤ 1024 := by
  rw [evidenceSelector] at built
  split at built
  · cases built
  next checked =>
    obtain ⟨text, -⟩ := check_then_iff.mp checked
    rw [← Except.ok.inj built]
    exact ⟨rfl, rfl, rfl, (boundedText_ok_iff.mp text).2⟩

theorem adapterMapping_issued {adapterId target pointer : Str} {mapping : FieldMapping ut}
    (built : adapterMapping artifact adapterId target .jsonPointer pointer = .ok mapping) :
    IssuedMapping artifact (target, pointer) mapping := by
  obtain ⟨provenance, made, built⟩ := bind_ok_iff.mp built
  obtain ⟨selector, selected, built⟩ := bind_ok_iff.mp built
  obtain ⟨kind, expression, inside, short⟩ := evidenceSelector_eq selected
  have bound := adapterProvenance_bound artifact made
  rw [← Except.ok.inj built]
  exact ⟨rfl, kind, expression, short, bound, inside ▸ bound⟩

/-- The mapping that is found for a target is the one of the match with it. -/
theorem mappingFor_eq_some_iff {target : Str} {mapping : FieldMapping ut}
    {mappings : List (FieldMapping ut)} (distinct : (mappings.map FieldMapping.targetField).Nodup) :
    mappingFor target mappings = some mapping ↔
      mapping ∈ mappings ∧ mapping.targetField = target := by
  constructor
  · intro found
    exact ⟨List.mem_of_find?_eq_some found, by simpa using List.find?_some found⟩
  · rintro ⟨member, same⟩
    cases found : mappingFor target mappings with
    | none =>
      have none := List.find?_eq_none.mp found mapping member
      simp [same] at none
    | some other =>
      have named : other.targetField = target := by simpa using List.find?_some found
      have inside : other ∈ mappings := List.mem_of_find?_eq_some found
      rw [List.inj_on_of_nodup_map distinct inside member (named.trans same.symm)]

variable (lower : Str → Str)

/-- What a probe of results returns for its leaves. -/
structure Inferred (adapterId : Str) (leaves : List (Str × Json)) (found : ProbeMatch ut) :
    Prop where
  adapter : found.adapterId = adapterId
  path : found.path = artifact.path
  evidence : ∀ provenance ∈ found.matchEvidence, BoundTo artifact provenance
  issued : ∀ mapping ∈ found.mappings,
    ∃ selector ∈ resultSelectors lower leaves, IssuedMapping artifact selector mapping
  complete : ∀ selector ∈ resultSelectors lower leaves,
    ∃ mapping ∈ found.mappings, IssuedMapping artifact selector mapping
  provenance : ∃ inferred built,
    adapterProvenance artifact adapterId "<artifact>" inferred = .ok built

theorem resultMappings_issued {adapterId : Str} {leaves : List (Str × Json)}
    {mappings : List (FieldMapping ut)}
    (built : resultMappings lower artifact adapterId leaves = .ok mappings) :
    (∀ mapping ∈ mappings, ∃ selector ∈ resultSelectors lower leaves,
        IssuedMapping artifact selector mapping) ∧
      ∀ selector ∈ resultSelectors lower leaves, ∃ mapping ∈ mappings,
        IssuedMapping artifact selector mapping := by
  obtain ⟨unsorted, created, built⟩ := bind_ok_iff.mp built
  rw [← Except.ok.inj built]
  have same (mapping : FieldMapping ut) :
      mapping ∈ sortBy FieldMapping.targetField unsorted ↔ mapping ∈ unsorted :=
    (sortBy_perm_self FieldMapping.targetField unsorted).mem_iff
  obtain ⟨back, forth⟩ := mapM_ok created
  constructor
  · intro mapping member
    obtain ⟨selector, inside, made⟩ := back mapping ((same mapping).mp member)
    exact ⟨selector, inside, adapterMapping_issued artifact made⟩
  · intro selector member
    obtain ⟨mapping, inside, made⟩ := forth selector member
    exact ⟨mapping, (same mapping).mpr inside, adapterMapping_issued artifact made⟩

theorem mapError_ok_iff {α ε δ : Type} {f : ε → δ} {x : Except ε α} {a : α} :
    x.mapError f = .ok a ↔ x = .ok a := by
  cases x with
  | error error => exact iff_of_false (by rintro ⟨⟩) (by rintro ⟨⟩)
  | ok found => rw [Except.mapError, Except.ok.injEq, Except.ok.injEq]

theorem probeLeaves_inferred {adapterId label : Str} {leaves : List (Str × Json)}
    {found : ProbeMatch ut}
    (probed : probeLeaves lower artifact adapterId label leaves = .ok found) :
    Inferred artifact lower adapterId leaves found := by
  obtain ⟨mappings, built, matched⟩ := bind_ok_iff.mp probed
  obtain ⟨issued, complete⟩ := resultMappings_issued artifact lower (mapError_ok_iff.mp built)
  obtain ⟨evidence, made, matched⟩ := bind_ok_iff.mp matched
  obtain ⟨confidence, -, matched⟩ := bind_ok_iff.mp matched
  split at matched
  next targets =>
    rw [← Except.ok.inj matched]
    refine ⟨rfl, rfl, ?_, issued, complete, _, evidence, made⟩
    intro provenance member
    rw [List.mem_singleton.mp member]
    exact adapterProvenance_bound artifact made
  · cases matched

theorem mem_resultSelectors {leaves : List (Str × Json)} {target pointer : Str} :
    (target, pointer) ∈ resultSelectors lower leaves ↔
      (target = "metric_value" ∧ metricPointer lower leaves = some pointer) ∨
      (target = "metric_name" ∧ uniqueNamedPointer lower leaves METRIC_NAME_NAMES = some pointer) ∨
      (target = "run_id" ∧ uniqueNamedPointer lower leaves RUN_NAMES = some pointer) ∨
      (target = "seed" ∧ uniqueNamedPointer lower leaves SEED_NAMES = some pointer) := by
  have one (name : Str) (pointers : Option Str) :
      (target, pointer) ∈ pointers.toList.map (name, ·) ↔
        target = name ∧ pointers = some pointer := by
    cases pointers <;> simp [eq_comm, and_comm]
  rw [resultSelectors, List.mem_append, List.mem_append, List.mem_append, one, one, one, one,
    or_assoc, or_assoc]

section Match

variable {artifact lower} {adapterId : Str} {leaves : List (Str × Json)} {found : ProbeMatch ut}

/-- A match passes the checks of the adapter that inferred it. -/
theorem Inferred.validates (inferred : Inferred artifact lower adapterId leaves found) :
    validateMatch rt artifact found adapterId .jsonPointer RESULT_TARGETS = .ok found.mappings := by
  refine rejectIf_then_iff.mpr ⟨bne_eq_false_iff_eq.mpr inferred.adapter, ?_⟩
  refine rejectIf_then_iff.mpr ⟨bne_eq_false_iff_eq.mpr inferred.path, ?_⟩
  refine check_then_iff.mpr ⟨forM_ok_iff.mpr fun provenance member => ?_, ?_⟩
  · exact (checkBound_ok_iff artifact).mpr (inferred.evidence provenance member)
  refine check_then_iff.mpr ⟨forM_ok_iff.mpr fun mapping member => ?_, rfl⟩
  obtain ⟨⟨target, pointer⟩, inside, issued⟩ := inferred.issued mapping member
  have allowed : RESULT_TARGETS.contains mapping.targetField = true := by
    rw [issued.target]
    change RESULT_TARGETS.contains target = true
    rcases (mem_resultSelectors lower).mp inside with ⟨rfl, -⟩ | ⟨rfl, -⟩ | ⟨rfl, -⟩ | ⟨rfl, -⟩ <;>
      decide
  refine rejectIf_then_iff.mpr ⟨by rw [allowed]; rfl, ?_⟩
  refine rejectIf_then_iff.mpr ⟨bne_eq_false_iff_eq.mpr issued.kind, ?_⟩
  exact check_then_iff.mpr ⟨(checkBound_ok_iff artifact).mpr issued.bound,
    (checkBound_ok_iff artifact).mpr issued.selectorBound⟩

/-- The mapping of a target selects the pointer that was inferred for it. -/
theorem Inferred.selects (inferred : Inferred artifact lower adapterId leaves found) {target : Str}
    {pointers : Option Str}
    (only : ∀ pointer, (target, pointer) ∈ resultSelectors lower leaves ↔ pointers = some pointer) :
    (mappingFor target found.mappings).map (fun mapping => mapping.selector.expression) =
      pointers := by
  cases pointers with
  | none =>
    cases here : mappingFor target found.mappings with
    | none => rfl
    | some mapping =>
      obtain ⟨member, named⟩ := (mappingFor_eq_some_iff found.targets).mp here
      obtain ⟨⟨name, pointer⟩, inside, issued⟩ := inferred.issued mapping member
      have same : name = target := issued.target.symm.trans named
      subst same
      cases (only pointer).mp inside
  | some pointer =>
    obtain ⟨mapping, member, issued⟩ := inferred.complete _ ((only pointer).mpr rfl)
    rw [(mappingFor_eq_some_iff found.targets).mpr ⟨member, issued.target⟩, Option.map_some,
      issued.expression]

theorem Inferred.metric (inferred : Inferred artifact lower adapterId leaves found) :
    (mappingFor "metric_value" found.mappings).map (fun mapping => mapping.selector.expression) =
      metricPointer lower leaves :=
  inferred.selects fun pointer => by
    rw [mem_resultSelectors]
    simp +decide

theorem Inferred.name (inferred : Inferred artifact lower adapterId leaves found) :
    (mappingFor "metric_name" found.mappings).map (fun mapping => mapping.selector.expression) =
      uniqueNamedPointer lower leaves METRIC_NAME_NAMES :=
  inferred.selects fun pointer => by
    rw [mem_resultSelectors]
    simp +decide

theorem Inferred.run (inferred : Inferred artifact lower adapterId leaves found) :
    (mappingFor "run_id" found.mappings).map (fun mapping => mapping.selector.expression) =
      uniqueNamedPointer lower leaves RUN_NAMES :=
  inferred.selects fun pointer => by
    rw [mem_resultSelectors]
    simp +decide

theorem Inferred.seed (inferred : Inferred artifact lower adapterId leaves found) :
    (mappingFor "seed" found.mappings).map (fun mapping => mapping.selector.expression) =
      uniqueNamedPointer lower leaves SEED_NAMES :=
  inferred.selects fun pointer => by
    rw [mem_resultSelectors]
    simp +decide

end Match

/-! ### One observation -/

/-- An identifier that is resolved to a text may be missing. -/
def FitsWhenPresent {α : Type} (step : Except Error (Option α)) (fits : α → Prop) : Prop :=
  ∃ found, step = .ok found ∧ ∀ a, found = some a → fits a

/-- What the constructor of an observation asks of a seed. -/
def Seed.Fits : Seed → Prop
  | .text spelled => isBoundedId 128 spelled = true
  | .int _ => True

theorem checkObservation_ok_iff {name : Str} {value : Binary64} {runId : Option Str}
    {seed : Option Seed} :
    checkObservation (some (name, value)) runId seed [] = .ok () ↔
      isMetricName name = true ∧ (∀ run, runId = some run → isBoundedId 256 run = true) ∧
        ∀ s, seed = some s → s.Fits := by
  have metric : boundedText "metric name" name 256 = .ok () ↔ isMetricName name = true := by
    rw [boundedText_ok_iff, isMetricName, Bool.and_eq_true, Bool.not_eq_true', decide_eq_true_iff]
  rw [checkObservation]
  -- each part that is present is checked on its own
  cases runId with
  | none =>
    cases seed with
    | none => simp [check_then_iff, metric, rejectIf_ok_iff]
    | some s =>
      cases s with
      | text spelled => simp [check_then_iff, metric, rejectIf_ok_iff, boundedId_ok_iff, Seed.Fits]
      | int n => simp [check_then_iff, metric, rejectIf_ok_iff, Seed.Fits]
  | some run =>
    cases seed with
    | none => simp [check_then_iff, metric, rejectIf_ok_iff, boundedId_ok_iff]
    | some s =>
      cases s with
      | text spelled => simp [check_then_iff, metric, rejectIf_ok_iff, boundedId_ok_iff, Seed.Fits]
      | int n => simp [check_then_iff, metric, rejectIf_ok_iff, boundedId_ok_iff, Seed.Fits]

theorem extractedObservation_isOk_iff {provenance : FieldProvenance}
    {metric : Option (Str × Binary64)} {runId : Option Str} {seed : Option Seed}
    {configValues : List ExtractedConfigValue} :
    (∃ observation, extractedObservation provenance metric runId seed configValues =
      .ok observation) ↔ checkObservation metric runId seed configValues = .ok () := by
  rw [extractedObservation]
  split
  next refused =>
    rw [refused]
    exact iff_of_false (by rintro ⟨_, ⟨⟩⟩) (by rintro ⟨⟩)
  next checked => exact iff_of_true ⟨_, rfl⟩ checked

theorem extractedObservation_metric {provenance : FieldProvenance}
    {metric : Option (Str × Binary64)} {runId : Option Str} {seed : Option Seed}
    {configValues : List ExtractedConfigValue}
    {observation : ExtractedObservation}
    (built : extractedObservation provenance metric runId seed configValues = .ok observation) :
    observation.metric = metric := by
  rw [extractedObservation] at built
  split at built
  · cases built
  · rw [← Except.ok.inj built]

theorem identifiedObservation_isOk_iff {record : Json} {mappings : List (FieldMapping ut)}
    {metric : FieldMapping ut} {provenance : FieldProvenance} {value : Binary64} :
    (∃ observation, identifiedObservation rt record mappings metric provenance value =
        .ok observation) ↔
      (∃ name, structuredMetricName rt record mappings metric = .ok name ∧
        isMetricName name = true) ∧
      FitsWhenPresent (structuredRunId rt record mappings)
        (fun run => isBoundedId 256 run = true) ∧
      FitsWhenPresent (structuredSeed rt record mappings) Seed.Fits := by
  constructor
  · rintro ⟨observation, built⟩
    obtain ⟨name, named, built⟩ := bind_ok_iff.mp built
    obtain ⟨runId, run, built⟩ := bind_ok_iff.mp built
    obtain ⟨seed, seeded, built⟩ := bind_ok_iff.mp built
    obtain ⟨fits, runs, seeds⟩ := checkObservation_ok_iff.mp
      (extractedObservation_isOk_iff.mp ⟨observation, built⟩)
    exact ⟨⟨name, named, fits⟩, ⟨runId, run, runs⟩, seed, seeded, seeds⟩
  · rintro ⟨⟨name, named, fits⟩, ⟨runId, run, runs⟩, seed, seeded, seeds⟩
    obtain ⟨observation, built⟩ : ∃ observation,
        extractedObservation provenance (some (name, value)) runId seed [] = .ok observation :=
      extractedObservation_isOk_iff.mpr (checkObservation_ok_iff.mpr ⟨fits, runs, seeds⟩)
    exact ⟨observation, bind_ok_iff.mpr ⟨name, named, bind_ok_iff.mpr
      ⟨runId, run, bind_ok_iff.mpr ⟨seed, seeded, built⟩⟩⟩⟩

/-- What a record has under a pointer is what the pointer resolves to. -/
theorem resolve_leafAt {record leaf : Json} {pointer : Str} (nested : isNested record = true)
    (distinct : record.DistinctKeys) (found : leafAt record pointer = some leaf) :
    resolveJsonPointer rt record pointer = .ok leaf :=
  resolveJsonPointer_leaf rt nested distinct (mem_of_lookupKey found)

theorem isMetricName_filled {name : Str} (fits : isMetricName name = true) :
    isBlank name = false := by
  rw [isMetricName, Bool.and_eq_true, Bool.not_eq_true'] at fits
  exact fits.1

section Record

variable {artifact lower} {adapterId : Str} {leaves : List (Str × Json)} {found : ProbeMatch ut}
  {record : Json} {metric : FieldMapping ut}

variable (lower) in
/-- The record has the pointers of all inferred mappings. -/
def HasSelected (leaves : List (Str × Json)) (record : Json) : Prop :=
  ∀ selector ∈ resultSelectors lower leaves, ∃ leaf, leafAt record selector.2 = some leaf

variable (inferred : Inferred artifact lower adapterId leaves found)
  (nested : isNested record = true) (distinct : record.DistinctKeys)
  (has : HasSelected lower leaves record)

include inferred nested distinct has

theorem structuredMetricName_iff :
    (∃ name, structuredMetricName rt record found.mappings metric = .ok name ∧
        isMetricName name = true) ↔
      (∀ pointer, uniqueNamedPointer lower leaves METRIC_NAME_NAMES = some pointer →
        ∃ name, leafAt record pointer = some (.str name) ∧ isMetricName name = true) ∧
      (uniqueNamedPointer lower leaves METRIC_NAME_NAMES = none →
        isMetricName (pointerTerminal metric.selector.expression) = true) := by
  rw [structuredMetricName]
  have names := inferred.name
  cases explicit : mappingFor "metric_name" found.mappings with
  -- no column names the metric: its name is the last token of the pointer
  | none =>
    rw [explicit] at names
    rw [← names]
    simp only [Option.map_none, reduceCtorEq, false_implies, implies_true, true_and, forall_const]
    constructor
    · rintro ⟨name, returned, fits⟩
      obtain ⟨-, same⟩ := rejectIf_then_iff.mp returned
      rw [Except.ok.inj same]
      exact fits
    · intro fits
      refine ⟨_, rejectIf_then_iff.mpr ⟨?_, rfl⟩, fits⟩
      rw [List.isEmpty_eq_false_iff]
      intro empty
      rw [empty] at fits
      exact absurd fits (by decide)
  -- the selector of the name was found in the leaves, so it resolves here to a text or to nothing
  -- usable
  | some mapping =>
    rw [explicit, Option.map_some] at names
    rw [← names]
    obtain ⟨leaf, here⟩ := has ("metric_name", mapping.selector.expression)
      ((mem_resultSelectors lower).mpr (.inr (.inl ⟨rfl, names.symm⟩)))
    have resolved := resolve_leafAt rt nested distinct here
    dsimp only
    rw [resolved]
    simp only [Option.some.injEq, forall_eq', here, reduceCtorEq, false_implies, and_true]
    cases leaf with
    | str text =>
      constructor
      · rintro ⟨name, returned, fits⟩
        obtain ⟨-, same⟩ := rejectIf_then_iff.mp returned
        exact ⟨name, congrArg (fun t => Json.str t) (Except.ok.inj same), fits⟩
      · rintro ⟨name, same, fits⟩
        obtain rfl := Json.str.inj same
        exact ⟨text, rejectIf_then_iff.mpr ⟨isMetricName_filled fits, rfl⟩, fits⟩
    -- a name that is not a text is refused
    | null | bool | int | float | infinity | nan | array | object =>
      exact iff_of_false (by rintro ⟨_, ⟨⟩, -⟩) (by rintro ⟨_, ⟨⟩, -⟩)

theorem structuredRunId_iff :
    FitsWhenPresent (structuredRunId rt record found.mappings)
        (fun run => isBoundedId 256 run = true) ↔
      ∀ pointer, uniqueNamedPointer lower leaves RUN_NAMES = some pointer →
        (leafAt record pointer).any isRunValue = true := by
  rw [structuredRunId]
  have runs := inferred.run
  cases selected : mappingFor "run_id" found.mappings with
  -- without a selector there is no run
  | none =>
    rw [selected] at runs
    rw [← runs]
    exact iff_of_true ⟨none, rfl, by rintro _ ⟨⟩⟩ (by rintro _ ⟨⟩)
  | some mapping =>
    rw [selected, Option.map_some] at runs
    rw [← runs]
    obtain ⟨leaf, here⟩ := has ("run_id", mapping.selector.expression)
      ((mem_resultSelectors lower).mpr (.inr (.inr (.inl ⟨rfl, runs.symm⟩))))
    have resolved := resolve_leafAt rt nested distinct here
    dsimp only
    rw [resolved]
    simp only [Option.some.injEq, forall_eq', here, Option.any_some]
    cases leaf with
    | str text =>
      constructor
      · rintro ⟨run, returned, fits⟩
        exact fits text (Except.ok.inj returned).symm
      · intro fits
        exact ⟨some text, rfl, fun run same => Option.some.inj same ▸ fits⟩
    -- an integer is written out, unless it has too many digits
    | int n =>
      have texts : (do
          let selected ← (.ok (.int n) : Except Error Json)
          let run ← textOrInteger "run_id" selected
          let text ← run.textOf
          pure (some text)) = Seed.textOf (.int n) >>= fun text => pure (some text) := rfl
      rw [texts, Seed.textOf, isRunValue]
      cases intText n with
      | none => exact iff_of_false (by rintro ⟨_, ⟨⟩, -⟩) (by rintro ⟨⟩)
      | some text =>
        constructor
        · rintro ⟨run, returned, fits⟩
          exact fits text (Except.ok.inj returned).symm
        · intro fits
          exact ⟨some text, rfl, fun run same => Option.some.inj same ▸ fits⟩
    -- every other leaf is refused
    | null | bool | float | infinity | nan | array | object =>
      exact iff_of_false (by rintro ⟨_, ⟨⟩, -⟩) (by rintro ⟨⟩)

theorem structuredSeed_iff :
    FitsWhenPresent (structuredSeed rt record found.mappings) Seed.Fits ↔
      ∀ pointer, uniqueNamedPointer lower leaves SEED_NAMES = some pointer →
        (leafAt record pointer).any isSeedValue = true := by
  rw [structuredSeed]
  have seeds := inferred.seed
  cases selected : mappingFor "seed" found.mappings with
  -- without a selector there is no seed
  | none =>
    rw [selected] at seeds
    rw [← seeds]
    exact iff_of_true ⟨none, rfl, by rintro _ ⟨⟩⟩ (by rintro _ ⟨⟩)
  | some mapping =>
    rw [selected, Option.map_some] at seeds
    rw [← seeds]
    obtain ⟨leaf, here⟩ := has ("seed", mapping.selector.expression)
      ((mem_resultSelectors lower).mpr (.inr (.inr (.inr ⟨rfl, seeds.symm⟩))))
    have resolved := resolve_leafAt rt nested distinct here
    dsimp only
    rw [resolved]
    simp only [Option.some.injEq, forall_eq', here, Option.any_some]
    cases leaf with
    | str text =>
      constructor
      · rintro ⟨seed, returned, fits⟩
        exact fits (.text text) (Except.ok.inj returned).symm
      · intro fits
        refine ⟨some (.text text), rfl, fun seed same => ?_⟩
        rw [← Option.some.inj same]
        exact fits
    -- an integer is a seed as it stands
    | int n =>
      refine iff_of_true ⟨some (.int n), rfl, fun seed same => ?_⟩ rfl
      rw [← Option.some.inj same]
      trivial
    | null | bool | float | infinity | nan | array | object =>
      exact iff_of_false (by rintro ⟨_, ⟨⟩, -⟩) (by rintro ⟨⟩)

/-- A record is extracted exactly when its values fit their roles. -/
theorem structuredObservation_isOk_iff {provenance : FieldProvenance}
    (selected : mappingFor "metric_value" found.mappings = some metric) :
    (∃ observation, structuredObservation rt record found.mappings metric provenance =
      .ok observation) ↔ Extractable lower leaves record := by
  have metrics := inferred.metric
  rw [selected, Option.map_some] at metrics
  obtain ⟨leaf, here⟩ := has ("metric_value", metric.selector.expression)
    ((mem_resultSelectors lower).mpr (.inl ⟨rfl, metrics.symm⟩))
  rw [structuredObservation, resolve_leafAt rt nested distinct here]
  have names : (∃ name, structuredMetricName rt record found.mappings metric = .ok name ∧
      isMetricName name = true) ↔ _ := structuredMetricName_iff rt inferred nested distinct has
  have runs := structuredRunId_iff rt inferred nested distinct has
  have seeds := structuredSeed_iff rt inferred nested distinct has
  -- the parts of Extractable, read at the leaf that the metric selects
  have fits : Extractable lower leaves record ↔ isMetricNumber leaf = true ∧
      ((∃ name, structuredMetricName rt record found.mappings metric = .ok name ∧
        isMetricName name = true) ∧
      FitsWhenPresent (structuredRunId rt record found.mappings)
        (fun run => isBoundedId 256 run = true) ∧
      FitsWhenPresent (structuredSeed rt record found.mappings) Seed.Fits) := by
    rw [names, runs, seeds]
    constructor
    · intro fits
      have number := fits.metric _ metrics.symm
      rw [here] at number
      exact ⟨number, ⟨fits.named, fun none => fits.derived none _ metrics.symm⟩, fits.run,
        fits.seed⟩
    · rintro ⟨number, ⟨named, derived⟩, run, seed⟩
      refine ⟨nested, fun pointer same => ?_, named, fun none pointer same => ?_, run, seed⟩
      · rw [← metrics, Option.some.injEq] at same
        rw [← same, here]
        exact number
      · rw [← metrics, Option.some.injEq] at same
        rw [← same]
        exact derived none
  rw [fits, isMetricNumber]
  dsimp only [bind, Except.bind]
  cases finiteNumber leaf with
  -- no number at the leaf
  | none => exact iff_of_false (by rintro ⟨_, ⟨⟩⟩) (by rintro ⟨⟨⟩, -⟩)
  | some value =>
    simp only [mapError_ok_iff, Option.isSome_some, true_and]
    exact identifiedObservation_isOk_iff rt

theorem structuredObservation_observes {provenance : FieldProvenance}
    (selected : mappingFor "metric_value" found.mappings = some metric)
    {observation : ExtractedObservation}
    (returned : structuredObservation rt record found.mappings metric provenance =
      .ok observation) : Observes lower leaves record observation := by
  have metrics := inferred.metric
  rw [selected, Option.map_some] at metrics
  obtain ⟨leaf, here⟩ := has ("metric_value", metric.selector.expression)
    ((mem_resultSelectors lower).mpr (.inl ⟨rfl, metrics.symm⟩))
  rw [structuredObservation, resolve_leafAt rt nested distinct here] at returned
  obtain ⟨_, same, returned⟩ := bind_ok_iff.mp returned
  obtain rfl := Except.ok.inj same
  cases number : finiteNumber leaf with
  | none =>
    rw [number] at returned
    cases returned
  | some value =>
    rw [number] at returned
    obtain ⟨name, -, built⟩ := bind_ok_iff.mp (mapError_ok_iff.mp returned)
    obtain ⟨runId, -, built⟩ := bind_ok_iff.mp built
    obtain ⟨seed, -, built⟩ := bind_ok_iff.mp built
    refine ⟨_, name, value, metrics.symm, extractedObservation_metric built, ?_⟩
    rw [here, Option.bind_some, number]

end Record

/-! ### The pointers of records -/

theorem selector_mem_leaves {leaves : List (Str × Json)} {selector : Str × Str}
    (member : selector ∈ resultSelectors lower leaves) : selector.2 ∈ keysOf leaves := by
  -- a name stands for one leaf, or for none
  have named (names : List Str) (pointer : Str)
      (unique : uniqueNamedPointer lower leaves names = some pointer) :
      pointer ∈ keysOf leaves := by
    rw [uniqueNamedPointer] at unique
    split at unique
    next only =>
      obtain rfl := Option.some.inj unique
      have inside := only.symm ▸ List.mem_singleton_self _
      obtain ⟨leaf, kept, rfl⟩ := List.mem_map.mp inside
      exact List.mem_map_of_mem (List.mem_filter.mp kept).1
    · cases unique
  obtain ⟨target, pointer⟩ := selector
  rcases (mem_resultSelectors lower).mp member with
    ⟨-, metric⟩ | ⟨-, unique⟩ | ⟨-, unique⟩ | ⟨-, unique⟩
  · rw [metricPointer] at metric
    split at metric
    next only =>
      obtain rfl := Option.some.inj metric
      have inside := only.symm ▸ List.mem_singleton_self _
      obtain ⟨leaf, kept, same⟩ := List.mem_map.mp inside
      rw [← same]
      exact List.mem_map_of_mem (List.mem_filter.mp kept).1
    · cases metric
  · exact named _ _ unique
  · exact named _ _ unique
  · exact named _ _ unique

theorem hasSelected_self (record : Json) :
    HasSelected lower (pointerLeaves record) record := by
  intro selector member
  rw [← Option.isSome_iff_exists, Option.isSome_iff_ne_none, leafAt, ne_eq, lookupKey_eq_none_iff,
    not_not]
  exact selector_mem_leaves lower member

theorem valuesAt_some {pointer : Str} {dicts : List (List (Str × Json))} {values : List Json}
    (found : valuesAt pointer dicts = some values) :
    ∀ dict ∈ dicts, ∃ value, lookupKey pointer dict = some value := by
  induction dicts generalizing values with
  | nil => exact List.forall_mem_nil _
  | cons dict dicts ih =>
    rw [valuesAt, List.mapM_cons, Option.bind_eq_bind, Option.bind_eq_some_iff] at found
    obtain ⟨value, here, found⟩ := found
    obtain ⟨others, rest, -⟩ := Option.bind_eq_some_iff.mp found
    exact List.forall_mem_cons.mpr ⟨⟨value, here⟩, ih rest⟩

/-- A common leaf has its pointer in every record. -/
theorem commonLeaves_shared {records : List Json} {leaf : Str × Json}
    (member : leaf ∈ commonLeaves records) :
    ∀ record ∈ records, ∃ value, leafAt record leaf.1 = some value := by
  rw [commonLeaves] at member
  split at member
  · cases member
  obtain ⟨pointer, -, common⟩ := List.mem_filterMap.mp member
  rw [commonLeaf] at common
  split at common
  next first others found =>
    split at common
    · obtain rfl := Option.some.inj common
      intro record inside
      obtain ⟨value, here⟩ := valuesAt_some found _ (List.mem_map_of_mem inside)
      change lookupKey pointer (assignAll (pointerLeaves record) []) = some value at here
      rw [lookupKey_assignAll] at here
      rw [← Option.isSome_iff_exists, Option.isSome_iff_ne_none, leafAt, ne_eq,
        lookupKey_eq_none_iff, not_not]
      by_contra absent
      have missing : lookupKey pointer (pointerLeaves record).reverse = none := by
        rw [lookupKey_eq_none_iff, keysOf, List.map_reverse, List.mem_reverse]
        exact absent
      rw [missing] at here
      cases here
    · cases common
  · cases common

theorem hasSelected_common {records : List Json} {record : Json} (member : record ∈ records) :
    HasSelected lower (commonLeaves records) record := by
  intro selector inside
  obtain ⟨leaf, common, same⟩ := List.mem_map.mp (selector_mem_leaves lower inside)
  rw [← same]
  exact commonLeaves_shared common record member

/-! ### The records of an artifact -/

theorem parseJsonText_distinct {text : Str} {value : Json}
    (parsed : parseJsonText rt text = .ok value) : value.DistinctKeys := by
  rw [parseJsonText] at parsed
  split at parsed
  · cases parsed
  next loaded =>
    obtain ⟨_, -, same⟩ := bind_ok_iff.mp parsed
    rw [← Except.ok.inj same]
    exact loads_distinctKeys strictLoad rfl _ _ loaded

theorem parseJsonArtifact_distinct {content : Bytes} {value : Json}
    (parsed : parseJsonArtifact rt content = .ok value) : value.DistinctKeys := by
  rw [parseJsonArtifact] at parsed
  split at parsed
  · cases parsed
  · exact parseJsonText_distinct rt parsed

theorem jsonlRecord_object {number : Nat} {line : Str} {record : Json}
    (read : jsonlRecord rt number line = .ok record) :
    isNested record = true ∧ record.DistinctKeys := by
  obtain ⟨-, read⟩ := rejectIf_then_iff.mp read
  obtain ⟨-, read⟩ := rejectIf_then_iff.mp read
  obtain ⟨value, parsed, read⟩ := bind_ok_iff.mp read
  split at read
  · rw [← Except.ok.inj read]
    exact ⟨rfl, parseJsonText_distinct rt parsed⟩
  · cases read

theorem jsonlLoop_objects {number nodes : Nat} {lines : List Str} {records : List Json}
    (read : jsonlLoop rt number nodes lines = .ok records) :
    records.length = lines.length ∧
      ∀ record ∈ records, isNested record = true ∧ record.DistinctKeys := by
  induction lines generalizing number nodes records with
  | nil =>
    obtain rfl := Except.ok.inj read
    exact ⟨rfl, List.forall_mem_nil _⟩
  | cons line lines ih =>
    obtain ⟨record, first, read⟩ := bind_ok_iff.mp read
    obtain ⟨-, read⟩ := rejectIf_then_iff.mp read
    obtain ⟨others, rest, read⟩ := bind_ok_iff.mp read
    rw [← Except.ok.inj read]
    obtain ⟨same, objects⟩ := ih rest
    exact ⟨congrArg (· + 1) same, List.forall_mem_cons.mpr ⟨jsonlRecord_object rt first, objects⟩⟩

theorem jsonlRecords_objects {content : Bytes} {records : List Json}
    (read : jsonlRecords rt content = .ok records) :
    records.length ≤ MAX_RECORDS ∧
      ∀ record ∈ records, isNested record = true ∧ record.DistinctKeys := by
  rw [jsonlRecords] at read
  split at read
  · cases read
  · obtain ⟨-, read⟩ := rejectIf_then_iff.mp read
    obtain ⟨few, read⟩ := rejectIf_then_iff.mp read
    obtain ⟨same, objects⟩ := jsonlLoop_objects rt read
    exact ⟨same.trans_le (not_lt.mp (of_decide_eq_false few)), objects⟩

/-- The one pointer of a scalar document does not resolve. -/
theorem resolve_scalar {record : Json} {pointer : Str} (scalar : isNested record = false)
    (inside : pointer ∈ keysOf (pointerLeaves record)) :
    ∀ value, resolveJsonPointer rt record pointer ≠ .ok value := by
  cases record with
  | array | object => cases scalar
  | null | bool | int | float | infinity | nan | str =>
    obtain rfl := List.mem_singleton.mp inside
    rintro value ⟨⟩

/-! ### Whole artifacts -/

theorem natText_short {n : Nat} (few : n < MAX_RECORDS) : (natText n).length ≤ 4 := by
  rw [natText, renderDigits, List.length_map]
  exact (digitCount_le_iff n 4 (by decide)).mpr few

theorem extractRecords_observes {adapterId : Str} {leaves : List (Str × Json)}
    {found : ProbeMatch ut} {metric : FieldMapping ut}
    (inferred : Inferred artifact lower adapterId leaves found)
    (selected : mappingFor "metric_value" found.mappings = some metric) {index : Nat}
    {records : List Json}
    (objects : ∀ record ∈ records, isNested record = true ∧ record.DistinctKeys)
    (has : ∀ record ∈ records, HasSelected lower leaves record)
    {observations : List ExtractedObservation}
    (returned : extractRecords rt artifact found.mappings metric index records = .ok observations) :
    List.Forall₂ (Observes lower leaves) records observations ∧
      ∀ record ∈ records, Extractable lower leaves record := by
  induction records generalizing index observations with
  | nil =>
    obtain rfl := Except.ok.inj returned
    exact ⟨.nil, List.forall_mem_nil _⟩
  | cons record records ih =>
    obtain ⟨⟨nested, distinct⟩, others⟩ := List.forall_mem_cons.mp objects
    obtain ⟨here, rest⟩ := List.forall_mem_cons.mp has
    obtain ⟨observation, first, returned⟩ := bind_ok_iff.mp returned
    obtain ⟨observations, later, returned⟩ := bind_ok_iff.mp returned
    rw [← Except.ok.inj returned]
    obtain ⟨provenance, -, observed⟩ := bind_ok_iff.mp first
    obtain ⟨all, fit⟩ := ih others rest later
    have observes :=
      structuredObservation_observes rt inferred nested distinct here selected observed
    have fits := (structuredObservation_isOk_iff rt inferred nested distinct here selected).mp
      ⟨observation, observed⟩
    exact ⟨.cons observes all, List.forall_mem_cons.mpr ⟨fits, fit⟩⟩

theorem extractRecords_isOk {leaves : List (Str × Json)} {found : ProbeMatch ut}
    {metric : FieldMapping ut} (inferred : Inferred artifact lower JSONL_ADAPTER leaves found)
    (selected : mappingFor "metric_value" found.mappings = some metric) {index : Nat}
    {records : List Json} (few : index + records.length ≤ MAX_RECORDS)
    (objects : ∀ record ∈ records, isNested record = true ∧ record.DistinctKeys)
    (has : ∀ record ∈ records, HasSelected lower leaves record)
    (fits : ∀ record ∈ records, Extractable lower leaves record) :
    ∃ observations, extractRecords rt artifact found.mappings metric index records =
      .ok observations := by
  -- induction on the records; `few` keeps their numbers short enough for the provenance
  induction records generalizing index with
  | nil => exact ⟨[], rfl⟩
  | cons record records ih =>
    rw [List.length_cons] at few
    obtain ⟨⟨nested, distinct⟩, others⟩ := List.forall_mem_cons.mp objects
    obtain ⟨here, rest⟩ := List.forall_mem_cons.mp has
    obtain ⟨fit, fits⟩ := List.forall_mem_cons.mp fits
    obtain ⟨observations, later⟩ : ∃ observations, extractRecords rt artifact found.mappings metric
        (index + 1) records = .ok observations := ih (by omega) others rest fits
    obtain ⟨flag, built, made⟩ := inferred.provenance
    have pointer : metricPointer lower leaves = some metric.selector.expression := by
      rw [← inferred.metric, selected]
      rfl
    obtain ⟨mapping, inside, issued⟩ := inferred.complete
      ("metric_value", metric.selector.expression)
      ((mem_resultSelectors lower).mpr (.inl ⟨rfl, pointer⟩))
    have short : JSONL_ADAPTER.length + (lit "record[" ++ natText index ++ lit "]" ++
        metric.selector.expression).length ≤ 3072 := by
      have number : (natText index).length ≤ 4 := natText_short (by omega)
      have expression : metric.selector.expression.length ≤ 1024 := issued.short
      have marker : JSONL_ADAPTER.length = 16 ∧ (lit "record[").length = 7 ∧
          (lit "]").length = 1 := by decide
      simp only [List.length_append]
      omega
    obtain ⟨provenance, record⟩ : ∃ provenance, adapterProvenance artifact JSONL_ADAPTER
        (lit "record[" ++ natText index ++ lit "]" ++ metric.selector.expression)
        (decide (lit "inferred=true" <:+: metric.provenance.detail)) = .ok provenance :=
      adapterProvenance_isOk artifact made short
    obtain ⟨observation, observed⟩ :=
      (structuredObservation_isOk_iff rt inferred nested distinct here selected).mpr fit
    refine ⟨observation :: observations, bind_ok_iff.mpr ⟨observation, ?_, ?_⟩⟩
    · exact bind_ok_iff.mpr ⟨provenance, record, observed⟩
    · exact bind_ok_iff.mpr ⟨observations, later, rfl⟩

end Core

/-- The two structured formats. -/
inductive StructuredFormat where
  | json | jsonl
  deriving DecidableEq, Repr

namespace StructuredFormat

variable {ut : UnicodeTables} (rt : Runtime) (lower : Str → Str) (artifact : PassiveArtifact)

/-- The records that an adapter reads of an artifact. -/
def records : StructuredFormat → Except Error (List Json)
  | json => do
    let value ← parseJsonArtifact rt artifact.content
    pure [value]
  | jsonl => jsonlRecords rt artifact.content

/-- The leaves that a probe infers the fields of results from. -/
def leaves : StructuredFormat → List Json → List (Str × Json)
  | json, records => records.flatMap pointerLeaves
  | jsonl, records => commonLeaves records

def probe : StructuredFormat → Except Error (Option (ProbeMatch ut))
  | json => probeJson rt lower artifact
  | jsonl => probeJsonLines rt lower artifact

def extract (found : ProbeMatch ut) : StructuredFormat → Except Error (ExtractedEvidence ut)
  | json => extractJson rt artifact found
  | jsonl => extractJsonLines rt artifact found

end StructuredFormat

section Whole

variable {ut : UnicodeTables} (rt : Runtime) (lower : Str → Str) (artifact : PassiveArtifact)

theorem structuredMatch_mappings {adapterId : Str} {mappings : List (FieldMapping ut)}
    {hundredths : Nat} {found : ProbeMatch ut}
    (built : structuredMatch artifact adapterId mappings hundredths = .ok found) :
    found.mappings = mappings := by
  obtain ⟨_, -, built⟩ := bind_ok_iff.mp built
  obtain ⟨_, -, built⟩ := bind_ok_iff.mp built
  split at built
  · rw [← Except.ok.inj built]
  · cases built

/-- The fields of a config have targets of their own. -/
theorem probeConfig_targets {value : Json} {found : ProbeMatch ut}
    (probed : probeConfig rt artifact value = .ok found) :
    mappingFor "metric_value" found.mappings = none := by
  obtain ⟨entries, -, probed⟩ := bind_ok_iff.mp probed
  obtain ⟨mappings, created, probed⟩ := bind_ok_iff.mp probed
  obtain ⟨-, probed⟩ := rejectIf_then_iff.mp probed
  rw [structuredMatch_mappings artifact probed]
  refine List.find?_eq_none.mpr fun mapping member => ?_
  obtain ⟨entry, -, made⟩ := (mapM_ok created).1 mapping member
  obtain ⟨target, named, made⟩ := bind_ok_iff.mp made
  have issued := adapterMapping_issued artifact (mapError_ok_iff.mp made)
  rw [issued.target]
  rw [configTarget] at named
  split at named
  · cases named
  · rw [← Except.ok.inj named]
    simp only [beq_iff_eq]
    intro same
    have first := congrArg List.head? same
    have head : (lit "config.k").head? = some 0x63 := by decide
    rw [List.head?_append, head, Option.some_or] at first
    exact absurd first (by decide)

theorem extractJson_iff {found : ProbeMatch ut}
    (probed : probeJson rt lower artifact = .ok (some found))
    (metric : (mappingFor "metric_value" found.mappings).isSome = true) :
    ∃ value, parseJsonArtifact rt artifact.content = .ok value ∧
      ((∃ evidence, extractJson rt artifact found = .ok evidence ∧
          List.Forall₂ (Observes lower (pointerLeaves value)) [value] evidence.observations) ↔
        Extractable lower (pointerLeaves value) value) := by
  rw [probeJson] at probed
  split at probed
  · obtain ⟨sound, probed⟩ := check_then_iff.mp probed
    obtain ⟨value, read, probed⟩ := bind_ok_iff.mp probed
    dsimp only at probed
    -- a config target has no metric value
    by_cases config : artifact.kind = .config
    · rw [if_pos config] at probed
      obtain ⟨inside, probe, probed⟩ := bind_ok_iff.mp probed
      obtain rfl := Option.some.inj (Except.ok.inj probed)
      rw [probeConfig_targets rt artifact probe] at metric
      cases metric
    rw [if_neg config] at probed
    obtain ⟨inside, probe, probed⟩ := bind_ok_iff.mp probed
    obtain rfl := Option.some.inj (Except.ok.inj probed)
    have inferred := probeLeaves_inferred artifact lower probe
    have distinct := parseJsonArtifact_distinct rt read
    obtain ⟨mapping, selected⟩ := Option.isSome_iff_exists.mp metric
    refine ⟨value, read, ?_⟩
    -- after the integrity check and the probe only the observation can fail
    have run : extractJson rt artifact inside =
        (structuredObservation rt value inside.mappings mapping mapping.provenance >>=
          fun observation => pure ⟨structuredEvidenceId rt artifact JSON_ADAPTER "1"
            inside.mappings, artifact, inside, [observation]⟩) := by
      rw [extractJson, sound, read]
      dsimp only [bind, Except.bind]
      rw [if_neg config, extractResult]
      dsimp only [bind, Except.bind]
      rw [inferred.validates rt]
      dsimp only
      rw [selected]
    rw [run]
    cases nested : isNested value with
    | true =>
      have has := hasSelected_self lower value
      have fits : (∃ observation, structuredObservation rt value inside.mappings mapping
          mapping.provenance = .ok observation) ↔ Extractable lower (pointerLeaves value) value :=
        structuredObservation_isOk_iff rt inferred nested distinct has selected
      rw [← fits]
      constructor
      · rintro ⟨evidence, returned, -⟩
        obtain ⟨observation, observed, -⟩ := bind_ok_iff.mp returned
        exact ⟨observation, observed⟩
      · rintro ⟨observation, observed⟩
        refine ⟨_, bind_ok_iff.mpr ⟨observation, observed, rfl⟩, .cons ?_ .nil⟩
        exact structuredObservation_observes rt inferred nested distinct has selected observed
    -- a scalar document has no leaf for the selector
    | false =>
      refine iff_of_false ?_ ?_
      · rintro ⟨evidence, returned, -⟩
        obtain ⟨observation, observed, -⟩ := bind_ok_iff.mp returned
        obtain ⟨leaf, resolved, -⟩ := bind_ok_iff.mp observed
        have pointer := inferred.metric
        rw [selected, Option.map_some] at pointer
        have member := selector_mem_leaves lower ((mem_resultSelectors lower).mpr
          (.inl ⟨rfl, pointer.symm⟩))
        exact resolve_scalar rt nested member leaf resolved
      · intro fits
        rw [fits.nested] at nested
        cases nested
  · cases probed

theorem extractJsonLines_iff {found : ProbeMatch ut}
    (probed : probeJsonLines rt lower artifact = .ok (some found))
    (metric : (mappingFor "metric_value" found.mappings).isSome = true) :
    ∃ records, jsonlRecords rt artifact.content = .ok records ∧
      ((∃ evidence, extractJsonLines rt artifact found = .ok evidence ∧
          List.Forall₂ (Observes lower (commonLeaves records)) records evidence.observations) ↔
        ∀ record ∈ records, Extractable lower (commonLeaves records) record) := by
  rw [probeJsonLines] at probed
  split at probed
  · obtain ⟨sound, probed⟩ := check_then_iff.mp probed
    obtain ⟨records, read, probed⟩ := bind_ok_iff.mp probed
    obtain ⟨inside, inferred, probed⟩ := bind_ok_iff.mp probed
    obtain rfl := Option.some.inj (Except.ok.inj probed)
    have inferred := probeLeaves_inferred artifact lower inferred
    obtain ⟨few, objects⟩ := jsonlRecords_objects rt read
    have has : ∀ record ∈ records, HasSelected lower (commonLeaves records) record :=
      fun record member => hasSelected_common lower member
    obtain ⟨mapping, selected⟩ := Option.isSome_iff_exists.mp metric
    refine ⟨records, read, ?_⟩
    -- after the integrity check and the probe only the records can fail
    have run : extractJsonLines rt artifact inside =
        (extractRecords rt artifact inside.mappings mapping 0 records >>= fun observations =>
          pure ⟨structuredEvidenceId rt artifact JSONL_ADAPTER "1" inside.mappings, artifact,
            inside, observations⟩) := by
      rw [extractJsonLines, sound, read]
      dsimp only [bind, Except.bind]
      rw [inferred.validates rt]
      dsimp only
      rw [selected]
    rw [run]
    constructor
    · rintro ⟨evidence, returned, -⟩
      obtain ⟨observations, extracted, -⟩ := bind_ok_iff.mp returned
      exact (extractRecords_observes rt artifact lower inferred selected objects has extracted).2
    · intro fits
      obtain ⟨observations, extracted⟩ := extractRecords_isOk rt artifact lower inferred selected
        ((Nat.zero_add _).trans_le few) objects has fits
      refine ⟨_, bind_ok_iff.mpr ⟨observations, extracted, rfl⟩, ?_⟩
      exact (extractRecords_observes rt artifact lower inferred selected objects has extracted).1
  · cases probed

/-- What a probe infers with a metric is extracted, with one metric for each record, exactly when
the values of every record fit their roles. -/
theorem structuredExtraction_iff (format : StructuredFormat) (found : ProbeMatch ut)
    (probed : format.probe rt lower artifact = .ok (some found))
    (metric : (mappingFor "metric_value" found.mappings).isSome = true) :
    ∃ records, format.records rt artifact = .ok records ∧
      ((∃ evidence, format.extract rt artifact found = .ok evidence ∧
          List.Forall₂ (Observes lower (format.leaves records)) records evidence.observations) ↔
        ∀ record ∈ records, Extractable lower (format.leaves records) record) := by
  cases format with
  | json =>
    obtain ⟨value, read, fits⟩ := extractJson_iff rt lower artifact probed metric
    refine ⟨[value], bind_ok_iff.mpr ⟨value, read, rfl⟩, ?_⟩
    have leaves : StructuredFormat.leaves .json [value] = pointerLeaves value :=
      List.flatMap_singleton _ _
    rw [leaves, List.forall_mem_singleton]
    exact fits
  | jsonl => exact extractJsonLines_iff rt lower artifact probed metric

end Whole

/-! ### Two results files -/

/-- A key that is the metric and its name. -/
def doubleRole : Bytes := asciiEncode (lit "\x7b\"metric\": 0.9\x7d")

def twoRuns : Bytes :=
  asciiEncode (lit "\x7b\"accuracy\": 0.9, \"run\": 1\x7d\n\x7b\"accuracy\": 0.8, \"run\": 2\x7d\n")

/-- The digests of the two files; other inputs play no part. -/
def resultsRuntime : Runtime :=
  { streamSampleRuntime with
    sha256 := fun raw =>
      if raw = doubleRole then
        hexdigest 0xfa4aa471c3642679122bac1dea101c76584379c36cbb76096817443eb90d9994
      else if raw = twoRuns then
        hexdigest 0x4ee9570acc7ca65fb03218f0c91728eabc2e756184e3cb0648bd4b67c0c530f7
      else [] }

theorem resultsRepository :
    isRepositoryComponent "o" = true ∧ isRepositoryComponent "r" = true := by
  decide

theorem resultsCommit : isGitCommit (List.replicate 40 0x61) = true := by decide

def resultsArtifact (content : Bytes) (path : RepositoryPath) (sha256 : Sha256Digest) :
    PassiveArtifact :=
  ⟨⟨"o", "r", resultsRepository⟩, .head, ⟨List.replicate 40 0x61, resultsCommit⟩, path, .results,
    sha256, content.length, content⟩

theorem jsonPath : isRepositoryPath "results.json" = true := by decide +kernel

theorem doubleRoleDigest :
    isSha256 (hexdigest 0xfa4aa471c3642679122bac1dea101c76584379c36cbb76096817443eb90d9994) = true :=
  isSha256_hexdigest _

def doubleRoleArtifact : PassiveArtifact :=
  resultsArtifact doubleRole ⟨"results.json", jsonPath⟩ ⟨_, doubleRoleDigest⟩

theorem jsonlPath : isRepositoryPath "results.jsonl" = true := by decide +kernel

theorem twoRunsDigest :
    isSha256 (hexdigest 0x4ee9570acc7ca65fb03218f0c91728eabc2e756184e3cb0648bd4b67c0c530f7) = true :=
  isSha256_hexdigest _

def twoRunsArtifact : PassiveArtifact :=
  resultsArtifact twoRuns ⟨"results.jsonl", jsonlPath⟩ ⟨_, twoRunsDigest⟩

/-- A name that is a number is inferred and refused. -/
theorem doubleRole_refused :
    ∃ found : ProbeMatch plainTables, probeJson resultsRuntime id doubleRoleArtifact =
        .ok (some found) ∧ (mappingFor "metric_value" found.mappings).isSome = true ∧
      ¬ ∃ evidence, extractJson resultsRuntime doubleRoleArtifact found = .ok evidence := by
  obtain ⟨result, probed, run⟩ := ok_of_any (by decide +kernel :
    (probeJson resultsRuntime id doubleRoleArtifact).toOption.any
      (fun result : Option (ProbeMatch plainTables) => result.any fun found =>
        (mappingFor "metric_value" found.mappings).isSome &&
          (extractJson resultsRuntime doubleRoleArtifact found).toOption.isNone) = true)
  obtain ⟨found, rfl, run⟩ := (Option.any_eq_true _ _).mp run
  obtain ⟨metric, refused⟩ := Bool.and_eq_true_iff.mp run
  refine ⟨found, probed, metric, ?_⟩
  rintro ⟨evidence, returned⟩
  rw [returned] at refused
  cases refused

/-- The metric of an observation with the text of its value, and the run. -/
def ExtractedObservation.shown (observation : ExtractedObservation) : Option (Str × Str) × Option Str :=
  (observation.metric.map fun metric => (metric.1, metric.2.spelling.render), observation.runId)

/-- The metrics and the runs that the lines hold. -/
def twoRunsShown : List (Option (Str × Str) × Option Str) :=
  [(some (lit "accuracy", lit "0.9"), some (lit "1")),
    (some (lit "accuracy", lit "0.8"), some (lit "2"))]

/-- The metrics and the runs of two lines are extracted. -/
theorem structuredExtraction_twoRuns :
    ∃ (found : ProbeMatch plainTables) (evidence : ExtractedEvidence plainTables),
      StructuredFormat.jsonl.probe resultsRuntime id twoRunsArtifact = .ok (some found) ∧
        StructuredFormat.jsonl.extract resultsRuntime twoRunsArtifact found = .ok evidence ∧
        evidence.observations.map ExtractedObservation.shown = twoRunsShown ∧
        ∃ records, StructuredFormat.jsonl.records resultsRuntime twoRunsArtifact = .ok records ∧
          List.Forall₂ (Observes id (StructuredFormat.jsonl.leaves records)) records
            evidence.observations := by
  obtain ⟨result, probed, run⟩ := ok_of_any (by decide +kernel :
    (StructuredFormat.jsonl.probe resultsRuntime id twoRunsArtifact).toOption.any
      (fun result : Option (ProbeMatch plainTables) => result.any fun found =>
        (mappingFor "metric_value" found.mappings).isSome &&
          (StructuredFormat.jsonl.extract resultsRuntime twoRunsArtifact found).toOption.any fun evidence =>
            evidence.observations.map ExtractedObservation.shown = twoRunsShown) = true)
  obtain ⟨found, rfl, run⟩ := (Option.any_eq_true _ _).mp run
  obtain ⟨metric, extracted⟩ := Bool.and_eq_true_iff.mp run
  obtain ⟨evidence, returned, shown⟩ := ok_of_any extracted
  obtain ⟨records, read, law⟩ :=
    structuredExtraction_iff resultsRuntime id twoRunsArtifact .jsonl found probed metric
  have fits : ∀ record ∈ records, Extractable id (StructuredFormat.jsonl.leaves records) record := by
    obtain ⟨others, again, fits⟩ := ok_of_any (by decide +kernel :
      (StructuredFormat.jsonl.records resultsRuntime twoRunsArtifact).toOption.any (fun records =>
        decide (∀ record ∈ records, Extractable id (StructuredFormat.jsonl.leaves records) record)) =
          true)
    obtain rfl := Except.ok.inj (again.symm.trans read)
    exact of_decide_eq_true fits
  obtain ⟨same, extracted, observes⟩ := law.mpr fits
  obtain rfl := Except.ok.inj (extracted.symm.trans returned)
  exact ⟨found, same, probed, returned, of_decide_eq_true shown, records, read, observes⟩

end ClaimCI
