import ClaimCI.ComputeComparison
import ClaimCI.Python.YamlEquality

/-!
# Config comparison

The config check against equality of YAML values: which findings about the evaluation mapping and
about declared differences it reports for the contents of two loaded configs.
-/

open Python

namespace ClaimCI

/-- Two declared values are the same YAML value; a missing one only if both are missing. -/
def sameYamlLookup (v w : Option Value) : Bool :=
  match v, w with
  | none, none => true
  | some v, some w => v.sameYaml w
  | _, _ => false

/-- The NaN objects in a declared value. -/
def lookupNans (v : Option Value) : List Nat := (v.map Value.nans).getD []

/-- A declared value is itself a NaN. -/
def lookupIsNan (v : Option Value) : Bool := (v.map Value.isNan).getD false

/-- The contents come from two loads: they share no NaN object but the loader's own, and as Python
keeps them, no mapping has two equal keys and no set two equal members. -/
structure LoadedApart (baseline candidate : Config) : Prop where
  apart : Value.Apart (Value.nans (.dict baseline)) (Value.nans (.dict candidate))
  distinct : Value.Distinct (.dict baseline)

section Comparison

variable (baseline candidate : Config)

/-- Both configs declare every field of their evaluation mapping. -/
def EvaluationsComplete : Prop :=
  evaluationMappingComplete baseline = true ∧ evaluationMappingComplete candidate = true

/-- Both configs declare the same YAML value at a path. -/
def SameYamlAt (path : List Str) : Prop :=
  sameYamlLookup (valueAt baseline path) (valueAt candidate path) = true

/-- Both configs declare the same value at a path once booleans are read as numbers. -/
def SameNumbersAt (path : List Str) : Prop :=
  sameYamlLookup ((valueAt baseline path).map Value.numbers)
    ((valueAt candidate path).map Value.numbers) = true

/-- The values at a path hold no NaN but the loader's own. -/
def SharedNansAt (path : List Str) : Prop :=
  Value.SharedNans (lookupNans (valueAt baseline path)) ∧
    Value.SharedNans (lookupNans (valueAt candidate path))

/-- The value at a path is not itself a NaN. -/
def NotNanAt (path : List Str) : Prop := lookupIsNan (valueAt baseline path) = false

/-- The evaluation mismatch is reported exactly if both mappings are complete and differ as YAML
values, and a difference only if the declared values differ. -/
structure ComparesAsYaml : Prop where
  evaluation : Emits (checkConfigs baseline candidate) "CONFIG.EVALUATION_MISMATCH" ↔
    EvaluationsComplete baseline candidate ∧ ¬ SameYamlAt baseline candidate ["evaluation"]
  trainingDataset : Emits (checkConfigs baseline candidate) "CONFIG.TRAINING_DATASET_MISMATCH" →
    ¬ (SameYamlAt baseline candidate ["dataset", "identifier"] ∧
      SameYamlAt baseline candidate ["dataset", "version"])
  trainingParameters :
    Emits (checkConfigs baseline candidate) "CONFIG.TRAINING_PARAMETER_DIFFERENCE" →
      ∃ field ∈ COMPUTE_FIELDS, ¬ SameYamlAt baseline candidate [field]
  learningRate : Emits (checkConfigs baseline candidate) "CONFIG.LEARNING_RATE_DIFFERENCE" →
    ¬ SameYamlAt baseline candidate ["learning_rate"]
  model : Emits (checkConfigs baseline candidate) "CONFIG.MODEL_DIFFERENCE" →
    ¬ SameYamlAt baseline candidate ["model"]

/-- Equal values that are compared hold no NaN but the loader's own, those compared on their own are
no NaN, and complete evaluation mappings do not differ in booleans and numbers only. -/
structure PlainContents : Prop where
  evaluationNan : EvaluationsComplete baseline candidate →
    SameYamlAt baseline candidate ["evaluation"] → SharedNansAt baseline candidate ["evaluation"]
  evaluationBoolean : EvaluationsComplete baseline candidate →
    SharedNansAt baseline candidate ["evaluation"] →
      SameNumbersAt baseline candidate ["evaluation"] → SameYamlAt baseline candidate ["evaluation"]
  trainingDataset : SameYamlAt baseline candidate ["dataset", "identifier"] →
    SameYamlAt baseline candidate ["dataset", "version"] →
      SharedNansAt baseline candidate ["dataset", "identifier"] ∧
        SharedNansAt baseline candidate ["dataset", "version"]
  trainingParameters : ¬ ExceedsCompute baseline candidate →
    (∀ field ∈ COMPUTE_FIELDS, SameYamlAt baseline candidate [field]) →
      ∀ field ∈ COMPUTE_FIELDS,
        SharedNansAt baseline candidate [field] ∧ NotNanAt baseline [field]
  learningRate : SameYamlAt baseline candidate ["learning_rate"] →
    SharedNansAt baseline candidate ["learning_rate"] ∧ NotNanAt baseline ["learning_rate"]
  model : SameYamlAt baseline candidate ["model"] →
    SharedNansAt baseline candidate ["model"] ∧ NotNanAt baseline ["model"]

end Comparison

/-! ### Declared values -/

theorem nans_get {key : Str} {entries : List (Value × Value)} {v : Value}
    (found : Value.get key entries = some v) : v.nans ⊆ Value.entryNans entries := by
  induction entries with
  | nil => cases found
  | cons entry entries ih =>
    obtain ⟨k, w⟩ := entry
    have later (found : Value.get key entries = some v) :
        v.nans ⊆ Value.entryNans ((k, w) :: entries) :=
      List.Subset.trans (ih found) (List.subset_append_right _ _)
    have here : w.nans ⊆ Value.entryNans ((k, w) :: entries) :=
      List.Subset.trans (List.subset_append_right k.nans _) (List.subset_append_left _ _)
    unfold Value.get at found
    split at found
    · split at found
      · exact Option.some.inj found ▸ here
      · exact later found
    · exact later found

theorem nans_valueAt (path : List Str) {config : Config} {v : Value}
    (found : valueAt config path = some v) : v.nans ⊆ Value.nans (.dict config) := by
  induction path generalizing config with
  | nil =>
    obtain rfl := Option.some.inj found
    exact List.Subset.refl _
  | cons part path ih =>
    cases path with
    | nil => exact nans_get found
    | cons next path =>
      rw [valueAt] at found
      · split at found
        next entries nested =>
          exact List.Subset.trans (ih found) (nans_get nested)
        · cases found
      · simp

theorem lookupNans_valueAt (config : Config) (path : List Str) :
    lookupNans (valueAt config path) ⊆ Value.nans (.dict config) := by
  cases found : valueAt config path with
  | none => exact List.nil_subset _
  | some v => exact nans_valueAt path found

theorem distinct_get {key : Str} {entries : List (Value × Value)} {v : Value}
    (distinct : Value.EntriesDistinct entries) (found : Value.get key entries = some v) :
    v.Distinct := by
  induction entries with
  | nil => cases found
  | cons entry entries ih =>
    obtain ⟨k, w⟩ := entry
    rw [Value.EntriesDistinct] at distinct
    unfold Value.get at found
    split at found
    · split at found
      · exact Option.some.inj found ▸ distinct.1
      · exact ih distinct.2 found
    · exact ih distinct.2 found

theorem distinct_valueAt (path : List Str) {config : Config} {v : Value}
    (distinct : Value.Distinct (.dict config)) (found : valueAt config path = some v) :
    v.Distinct := by
  induction path generalizing config with
  | nil => exact Option.some.inj found ▸ distinct
  | cons part path ih =>
    rw [Value.Distinct] at distinct
    cases path with
    | nil => exact distinct_get distinct.2.2 found
    | cons next path =>
      rw [valueAt] at found
      · split at found
        next entries nested => exact ih (distinct_get distinct.2.2 nested) found
        · cases found
      · simp

/-- Declared values of two loads are the same object or equal in Python exactly if they are equal
once booleans are read as numbers, and hold no NaN but the loader's own. -/
theorem sameMember_iff {v w : Option Value} (distinct : ∀ u, v = some u → u.Distinct)
    (apart : Value.Apart (lookupNans v) (lookupNans w)) :
    sameMember v w = true ↔
      sameYamlLookup (v.map Value.numbers) (w.map Value.numbers) = true ∧
        Value.SharedNans (lookupNans v) ∧ Value.SharedNans (lookupNans w) := by
  cases v with
  | none => cases w <;> simp [sameMember, sameYamlLookup, lookupNans]
  | some v =>
    cases w with
    | none => simp [sameMember, sameYamlLookup]
    | some w => exact Value.same_iff (distinct v rfl) apart

/-- A value compared on its own is unequal to everything if it is a NaN. -/
theorem sameLookup_eq (v w : Option Value) :
    sameLookup v w = true ↔ sameMember v w = true ∧ lookupIsNan v = false := by
  cases v with
  | none => cases w <;> simp [sameLookup, sameMember, lookupIsNan]
  | some v =>
    cases w with
    | none => simp [sameLookup, sameMember]
    | some w => exact Value.eq_iff v w

theorem sameYamlLookup_numbers {v w : Option Value} (same : sameYamlLookup v w = true) :
    sameYamlLookup (v.map Value.numbers) (w.map Value.numbers) = true := by
  cases v with
  | none => cases w <;> exact same
  | some v =>
    cases w with
    | none => exact same
    | some w => exact Value.sameYaml_numbers v w same

/-- A complete evaluation mapping is no number. -/
theorem notNanAt_of_complete {config : Config} (complete : evaluationMappingComplete config = true) :
    NotNanAt config ["evaluation"] := by
  unfold evaluationMappingComplete at complete
  split at complete
  next entries found => simp [NotNanAt, lookupIsNan, found, Value.isNan]
  · cases complete

section Loaded

variable {baseline candidate : Config} (loaded : LoadedApart baseline candidate)

include loaded

theorem sameMember_at (path : List Str) :
    sameMember (valueAt baseline path) (valueAt candidate path) = true ↔
      SameNumbersAt baseline candidate path ∧ SharedNansAt baseline candidate path :=
  sameMember_iff (fun _ found => distinct_valueAt path loaded.distinct found)
    (loaded.apart.mono (lookupNans_valueAt baseline path) (lookupNans_valueAt candidate path))

theorem sameLookup_at (path : List Str) :
    sameLookup (valueAt baseline path) (valueAt candidate path) = true ↔
      (SameNumbersAt baseline candidate path ∧ SharedNansAt baseline candidate path) ∧
        NotNanAt baseline path := by
  rw [sameLookup_eq, sameMember_at loaded, NotNanAt]

/-- The evaluation mismatch compares complete mappings with Python's equality. -/
theorem emits_evaluation :
    Emits (checkConfigs baseline candidate) "CONFIG.EVALUATION_MISMATCH" ↔
      EvaluationsComplete baseline candidate ∧
        ¬ (SameNumbersAt baseline candidate ["evaluation"] ∧
          SharedNansAt baseline candidate ["evaluation"]) := by
  have mapping (complete : EvaluationsComplete baseline candidate) :
      NotNanAt baseline ["evaluation"] := notNanAt_of_complete complete.1
  rw [emits_checkConfigs (by decide), emits_missingFieldsFindings, emits_computeFindings,
    emits_evaluationFindings, emits_trainingDatasetFindings, emits_trainingParameterFindings,
    emits_learningRateFindings, emits_modelFindings, ← Bool.not_eq_true, sameLookup_at loaded]
  simp +decide only [and_false, false_or, or_false, and_true]
  constructor
  · rintro ⟨left, right, differ⟩
    exact ⟨⟨left, right⟩, fun equal => differ ⟨equal, mapping ⟨left, right⟩⟩⟩
  · rintro ⟨⟨left, right⟩, differ⟩
    exact ⟨left, right, fun equal => differ equal.1⟩

/-- The difference of the training datasets. -/
theorem emits_trainingDataset :
    Emits (checkConfigs baseline candidate) "CONFIG.TRAINING_DATASET_MISMATCH" ↔
      ¬ ((SameNumbersAt baseline candidate ["dataset", "identifier"] ∧
            SharedNansAt baseline candidate ["dataset", "identifier"]) ∧
          SameNumbersAt baseline candidate ["dataset", "version"] ∧
            SharedNansAt baseline candidate ["dataset", "version"]) := by
  rw [emits_checkConfigs (by decide), emits_missingFieldsFindings, emits_computeFindings,
    emits_evaluationFindings, emits_trainingDatasetFindings, emits_trainingParameterFindings,
    emits_learningRateFindings, emits_modelFindings, ← sameMember_at loaded, ← sameMember_at loaded]
  simp +decide only [and_false, false_or, or_false, and_true]

/-- The difference of the training parameters, unless the compute rule covers it. -/
theorem emits_trainingParameters :
    Emits (checkConfigs baseline candidate) "CONFIG.TRAINING_PARAMETER_DIFFERENCE" ↔
      ¬ ExceedsCompute baseline candidate ∧ ∃ field ∈ COMPUTE_FIELDS,
        ¬ ((SameNumbersAt baseline candidate [field] ∧ SharedNansAt baseline candidate [field]) ∧
          NotNanAt baseline [field]) := by
  rw [emits_checkConfigs (by decide), emits_missingFieldsFindings, emits_computeFindings,
    emits_evaluationFindings, emits_trainingDatasetFindings, emits_trainingParameterFindings,
    emits_learningRateFindings, emits_modelFindings, ← computeMismatch_exceeds, Bool.not_eq_true]
  simp +decide only [and_false, false_or, or_false, and_true, ← sameLookup_at loaded,
    Bool.not_eq_true]

theorem emits_learningRate :
    Emits (checkConfigs baseline candidate) "CONFIG.LEARNING_RATE_DIFFERENCE" ↔
      ¬ ((SameNumbersAt baseline candidate ["learning_rate"] ∧
        SharedNansAt baseline candidate ["learning_rate"]) ∧ NotNanAt baseline ["learning_rate"]) := by
  rw [emits_checkConfigs (by decide), emits_missingFieldsFindings, emits_computeFindings,
    emits_evaluationFindings, emits_trainingDatasetFindings, emits_trainingParameterFindings,
    emits_learningRateFindings, emits_modelFindings, ← sameLookup_at loaded, Bool.not_eq_true]
  simp +decide only [and_false, false_or, or_false, and_true]

theorem emits_model :
    Emits (checkConfigs baseline candidate) "CONFIG.MODEL_DIFFERENCE" ↔
      ¬ ((SameNumbersAt baseline candidate ["model"] ∧ SharedNansAt baseline candidate ["model"]) ∧
        NotNanAt baseline ["model"]) := by
  rw [emits_checkConfigs (by decide), emits_missingFieldsFindings, emits_computeFindings,
    emits_evaluationFindings, emits_trainingDatasetFindings, emits_trainingParameterFindings,
    emits_learningRateFindings, emits_modelFindings, ← sameLookup_at loaded, Bool.not_eq_true]
  simp +decide only [and_false, false_or, and_true]

end Loaded

/-- Of the contents of two loads, exactly the plain ones are compared as YAML values. -/
theorem comparesAsYaml_iff {baseline candidate : Config} (loaded : LoadedApart baseline candidate) :
    ComparesAsYaml baseline candidate ↔ PlainContents baseline candidate := by
  constructor
  -- what is emitted tells the condition, finding by finding
  · intro compares
    refine ⟨?_, ?_, ?_, ?_, ?_, ?_⟩
    · intro complete same
      by_contra nan
      have reported := (emits_evaluation loaded).mpr ⟨complete, fun plain => nan plain.2⟩
      exact (compares.evaluation.mp reported).2 same
    · intro complete plain numbers
      by_contra differ
      have reported := compares.evaluation.mpr ⟨complete, differ⟩
      exact ((emits_evaluation loaded).mp reported).2 ⟨numbers, plain⟩
    · intro identifier version
      by_contra nan
      refine compares.trainingDataset ((emits_trainingDataset loaded).mpr ?_) ⟨identifier, version⟩
      exact fun plain => nan ⟨plain.1.2, plain.2.2⟩
    -- one field that differs is enough for the finding
    · intro below same
      by_contra nan
      rw [not_forall] at nan
      obtain ⟨field, nan⟩ := nan
      rw [Classical.not_imp] at nan
      obtain ⟨other, member, differ⟩ := compares.trainingParameters
        ((emits_trainingParameters loaded).mpr
          ⟨below, field, nan.1, fun plain => nan.2 ⟨plain.1.2, plain.2⟩⟩)
      exact differ (same other member)
    · intro same
      by_contra nan
      refine compares.learningRate ((emits_learningRate loaded).mpr fun plain => ?_) same
      exact nan ⟨plain.1.2, plain.2⟩
    · intro same
      by_contra nan
      refine compares.model ((emits_model loaded).mpr fun plain => ?_) same
      exact nan ⟨plain.1.2, plain.2⟩
  -- from the conditions, equal YAML values are equal to Python and conversely
  · intro plain
    refine ⟨?_, ?_, ?_, ?_, ?_⟩
    · rw [emits_evaluation loaded]
      refine and_congr_right fun complete => not_congr ⟨fun equal => ?_, fun same => ?_⟩
      · exact plain.evaluationBoolean complete equal.2 equal.1
      · exact ⟨sameYamlLookup_numbers same, plain.evaluationNan complete same⟩
    · rintro reported ⟨identifier, version⟩
      obtain ⟨plainIdentifier, plainVersion⟩ := plain.trainingDataset identifier version
      exact (emits_trainingDataset loaded).mp reported
        ⟨⟨sameYamlLookup_numbers identifier, plainIdentifier⟩,
          sameYamlLookup_numbers version, plainVersion⟩
    · intro reported
      by_contra none
      have same : ∀ field ∈ COMPUTE_FIELDS, SameYamlAt baseline candidate [field] := by
        intro field member
        by_contra differ
        exact none ⟨field, member, differ⟩
      obtain ⟨below, field, member, differ⟩ := (emits_trainingParameters loaded).mp reported
      obtain ⟨shared, number⟩ := plain.trainingParameters below same field member
      exact differ ⟨⟨sameYamlLookup_numbers (same field member), shared⟩, number⟩
    · intro reported same
      obtain ⟨shared, number⟩ := plain.learningRate same
      exact (emits_learningRate loaded).mp reported ⟨⟨sameYamlLookup_numbers same, shared⟩, number⟩
    · intro reported same
      obtain ⟨shared, number⟩ := plain.model same
      exact (emits_model loaded).mp reported ⟨⟨sameYamlLookup_numbers same, shared⟩, number⟩

/-! ### One document for both configs -/

theorem get_reload (fresh : Nat → Nat) (key : Str) (entries : List (Value × Value)) :
    Value.get key (Value.reloadEntries fresh entries) =
      (Value.get key entries).map (Value.reload fresh) := by
  induction entries with
  | nil => rfl
  | cons entry entries ih =>
    obtain ⟨k, v⟩ := entry
    cases k with
    | str name =>
      simp only [Value.reloadEntries, Value.reload, Value.get]
      split
      · rfl
      · exact ih
    | _ => simpa only [Value.reloadEntries, Value.reload, Value.get] using ih

/-- Another load of a document declares the same YAML values. -/
theorem sameYamlAt_reload (fresh : Nat → Nat) (config : Config) (path : List Str) :
    SameYamlAt config (Value.reloadEntries fresh config) path := by
  have declared : valueAt (Value.reloadEntries fresh config) path =
      (valueAt config path).map (Value.reload fresh) := by
    induction path generalizing config with
    | nil => rw [valueAt, valueAt, Option.map_some, Value.reload]
    | cons part path ih =>
      cases path with
      | nil => exact get_reload fresh part config
      | cons next path =>
        simp only [valueAt, get_reload]
        cases Value.get part config with
        | none => rfl
        | some v =>
          cases v with
          | dict entries => simpa only [Option.map_some, Value.reload] using ih entries
          | _ => rfl
  rw [SameYamlAt, declared]
  cases valueAt config path with
  | none => rfl
  | some v => exact Value.sameYaml_reload fresh v

/-- Where values are compared as YAML values, a document loaded for both configs yields no
mismatch and no difference. -/
theorem reload_emits_nothing {fresh : Nat → Nat} {config : Config}
    (compares : ComparesAsYaml config (Value.reloadEntries fresh config)) :
    ∀ rule ∈ ["CONFIG.EVALUATION_MISMATCH", "CONFIG.TRAINING_DATASET_MISMATCH",
        "CONFIG.TRAINING_PARAMETER_DIFFERENCE", "CONFIG.LEARNING_RATE_DIFFERENCE",
        "CONFIG.MODEL_DIFFERENCE"],
      ¬ Emits (checkConfigs config (Value.reloadEntries fresh config)) (lit rule) := by
  have same := sameYamlAt_reload fresh config
  intro rule member reported
  simp only [List.mem_cons, List.not_mem_nil, or_false] at member
  rcases member with rfl | rfl | rfl | rfl | rfl
  · exact (compares.evaluation.mp reported).2 (same _)
  · exact compares.trainingDataset reported ⟨same _, same _⟩
  · obtain ⟨field, -, differ⟩ := compares.trainingParameters reported
    exact differ (same _)
  · exact compares.learningRate reported (same _)
  · exact compares.model reported (same _)

/-! ### A seed that is no number, and one that is a boolean -/

/-- A config with a complete evaluation mapping and a value that is not checked. -/
def evaluationConfig (seed : Value) : Config :=
  [(.str "evaluation", .dict [(.str "dataset_identifier", .str "d"), (.str "dataset_version", .str "1"),
    (.str "split", .str "test"), (.str "seed", seed)])]

theorem evaluationConfig_complete (seed other : Value) :
    EvaluationsComplete (evaluationConfig seed) (evaluationConfig other) :=
  ⟨rfl, rfl⟩

theorem nans_evaluationConfig (seed : Value) : Value.nans (.dict (evaluationConfig seed)) = seed.nans := by
  simp [evaluationConfig, Value.nans, Value.entryNans]

theorem evaluationConfig_loaded {seed other : Value} (apart : Value.Apart seed.nans other.nans)
    (distinct : seed.Distinct) : LoadedApart (evaluationConfig seed) (evaluationConfig other) := by
  refine ⟨by rwa [nans_evaluationConfig, nans_evaluationConfig], ?_⟩
  have keys : [lit "dataset_identifier", lit "dataset_version", lit "split", lit "seed"].Pairwise
      fun k l => Value.sameScalar (.str k) (.str l) = false := by decide +kernel
  simp only [List.pairwise_cons, List.mem_cons, List.not_mem_nil, or_false, forall_eq_or_imp,
    forall_eq, false_imp_iff, forall_const, List.Pairwise.nil, and_true] at keys
  simp [evaluationConfig, Value.Distinct, Value.EntriesDistinct, Value.atomic, Value.same, keys,
    distinct]

/-- Different seeds are a mismatch, and a `.nan` of both configs is none. -/
theorem comparesAsYaml_evaluation :
    ComparesAsYaml (evaluationConfig (.int 1)) (evaluationConfig (.int 2)) ∧
      ComparesAsYaml (evaluationConfig (.nan Value.NAN_VALUE))
        (evaluationConfig (.nan Value.NAN_VALUE)) := by
  have shared (seed : Value) (only : Value.SharedNans seed.nans) (path : List Str) :
      Value.SharedNans (lookupNans (valueAt (evaluationConfig seed) path)) :=
    fun object member => only object
      (nans_evaluationConfig seed ▸ lookupNans_valueAt (evaluationConfig seed) path member)
  have absent (seed : Value) {field : Str} (other : field ≠ "evaluation") :
      NotNanAt (evaluationConfig seed) [field] := by
    have missing : valueAt (evaluationConfig seed) [field] = none := by
      simp [valueAt, evaluationConfig, Value.get, Ne.symm other]
    simp [NotNanAt, missing, lookupIsNan]
  have fields : ∀ field ∈ COMPUTE_FIELDS, field ≠ lit "evaluation" := by decide +kernel
  -- `1` against `2` differ in both senses, and the loader's own NaN agrees with itself
  constructor
  · have none (seed : Nat) := shared (.int seed) (by simp [Value.nans])
    refine (comparesAsYaml_iff (evaluationConfig_loaded ?_ ?_)).mpr
      ⟨fun _ _ => ⟨none 1 _, none 2 _⟩, fun _ _ numbers => ?_,
        fun _ _ => ⟨⟨none 1 _, none 2 _⟩, none 1 _, none 2 _⟩,
        fun _ _ field member => ⟨⟨none 1 _, none 2 _⟩, absent _ (fields field member)⟩,
        fun _ => ⟨⟨none 1 _, none 2 _⟩, absent _ (by decide +kernel)⟩,
        fun _ => ⟨⟨none 1 _, none 2 _⟩, absent _ (by decide +kernel)⟩⟩
    · simp [Value.Apart, Value.nans]
    · simp [Value.Distinct]
    · unfold SameNumbersAt at numbers
      exact absurd numbers (by decide +kernel)
  · have own := shared (.nan Value.NAN_VALUE) (by simp [Value.nans, Value.SharedNans])
    refine (comparesAsYaml_iff (evaluationConfig_loaded ?_ ?_)).mpr
      ⟨fun _ _ => ⟨own _, own _⟩, fun _ _ _ => ?_, fun _ _ => ⟨⟨own _, own _⟩, own _, own _⟩,
        fun _ _ field member => ⟨⟨own _, own _⟩, absent _ (fields field member)⟩,
        fun _ => ⟨⟨own _, own _⟩, absent _ (by decide +kernel)⟩,
        fun _ => ⟨⟨own _, own _⟩, absent _ (by decide +kernel)⟩⟩
    · simp [Value.Apart, Value.nans]
    · simp [Value.Distinct]
    · unfold SameYamlAt
      decide +kernel

/-- A `.nan` learning rate loaded for both configs is a difference, a seed that each load builds its
own NaN for is a mismatch, and a boolean in place of a number is none. -/
theorem evaluation_not_yaml :
    ¬ ComparesAsYaml [(.str "learning_rate", .nan Value.NAN_VALUE)]
        [(.str "learning_rate", .nan Value.NAN_VALUE)] ∧
      ¬ ComparesAsYaml (evaluationConfig (.nan 1)) (evaluationConfig (.nan 2)) ∧
      ¬ ComparesAsYaml (evaluationConfig (.bool true)) (evaluationConfig (.int 1)) := by
  refine ⟨fun compares => ?_, fun compares => ?_, fun compares => ?_⟩
  -- a NaN that is compared on its own is unequal to itself
  · have loaded : LoadedApart [(.str "learning_rate", .nan Value.NAN_VALUE)]
        [(.str "learning_rate", .nan Value.NAN_VALUE)] := by
      constructor <;> simp [Value.Apart, Value.nans, Value.entryNans, Value.Distinct,
        Value.EntriesDistinct, Value.atomic]
    have reported := (emits_learningRate loaded).mpr
      fun plain => absurd plain.2 (by unfold NotNanAt; decide +kernel)
    apply compares.learningRate reported
    unfold SameYamlAt
    decide +kernel
  -- `!!float nan` makes a new object in each load
  · have loaded : LoadedApart (evaluationConfig (.nan 1)) (evaluationConfig (.nan 2)) :=
      evaluationConfig_loaded (by simp [Value.Apart, Value.nans]) (by simp [Value.Distinct])
    have own : 1 ∈ lookupNans (valueAt (evaluationConfig (.nan 1)) ["evaluation"]) := by
      decide +kernel
    have reported := (emits_evaluation loaded).mpr
      ⟨evaluationConfig_complete _ _, fun plain => absurd (plain.2.1 1 own) (by decide)⟩
    apply (compares.evaluation.mp reported).2
    unfold SameYamlAt
    decide +kernel
  -- Python takes `True` for `1`
  · have loaded : LoadedApart (evaluationConfig (.bool true)) (evaluationConfig (.int 1)) :=
      evaluationConfig_loaded (by simp [Value.Apart, Value.nans]) (by simp [Value.Distinct])
    have differ : ¬ SameYamlAt (evaluationConfig (.bool true)) (evaluationConfig (.int 1))
        ["evaluation"] := by
      unfold SameYamlAt
      decide +kernel
    have reported := compares.evaluation.mpr ⟨evaluationConfig_complete _ _, differ⟩
    apply ((emits_evaluation loaded).mp reported).2
    refine ⟨by unfold SameNumbersAt; decide +kernel, ?_, ?_⟩ <;>
      exact fun object member => absurd
        (nans_evaluationConfig _ ▸ lookupNans_valueAt (evaluationConfig _) _ member)
        (by simp [Value.nans])

end ClaimCI
