import ClaimCI.Analysis.ObligationBundle
import ClaimCI.Analysis.TabularAdapters
import ClaimCI.Python.Literals

/-!
# Extraction of inferred columns

What the probe of a captured table infers can be extracted again: one observation for each row, and
exactly when the cells of its run and of its seed can be identifiers.
-/

open Python

namespace ClaimCI

/-! ### Steps over a list -/

theorem mapM_ok_iff {ε α β : Type} {f : α → Except ε β} {items : List α} {results : List β} :
    items.mapM f = .ok results ↔ List.Forall₂ (fun item result => f item = .ok result) items results
    := by
  induction items generalizing results with
  | nil =>
    rw [List.mapM_nil, List.forall₂_nil_left_iff]
    constructor
    · intro made
      exact (Except.ok.inj made).symm
    · rintro rfl
      rfl
  | cons item items ih =>
    rw [List.mapM_cons, List.forall₂_cons_left_iff]
    constructor
    · intro made
      obtain ⟨first, here, made⟩ := bind_ok_iff.mp made
      obtain ⟨others, there, made⟩ := bind_ok_iff.mp made
      exact ⟨first, others, here, ih.mp there, (Except.ok.inj made).symm⟩
    · rintro ⟨first, others, here, there, rfl⟩
      exact bind_ok_iff.mpr ⟨first, here, bind_ok_iff.mpr ⟨others, ih.mpr there, rfl⟩⟩

theorem exists_mapM_ok_iff {ε α β : Type} {f : α → Except ε β} {items : List α} :
    (∃ results, items.mapM f = .ok results) ↔ ∀ item ∈ items, ∃ result, f item = .ok result := by
  induction items with
  | nil => exact iff_of_true ⟨[], rfl⟩ (List.forall_mem_nil _)
  | cons item items ih =>
    rw [List.forall_mem_cons, ← ih]
    constructor
    · rintro ⟨results, made⟩
      obtain ⟨first, others, here, there, -⟩ := List.forall₂_cons_left_iff.mp (mapM_ok_iff.mp made)
      exact ⟨⟨first, here⟩, others, mapM_ok_iff.mpr there⟩
    · rintro ⟨⟨first, here⟩, others, there⟩
      exact ⟨first :: others, mapM_ok_iff.mpr (.cons here (mapM_ok_iff.mp there))⟩

/-! ### What a row holds -/

/-- A text that may be a seed: an identifier, or an integer that is not too long to be converted. -/
def isSeedText (text : Str) : Bool :=
  match integerText text with
  | none => isBoundedId 128 text
  | some (_, digits) => digits.length ≤ INT_MAX_STR_DIGITS

section Rows

variable (digit : CodePoint → Option Digit) (lower : Str → Str)

/-- The cells of the run and of the seed can be identifiers. -/
structure RowRepresentable (table : DelimitedTable) (row : List Str) : Prop where
  run : ∀ column ∈ uniqueNamedHeader lower table.header RUN_NAMES,
    isBoundedId 256 (strip (table.cell row column)) = true
  seed : ∀ column ∈ uniqueNamedHeader lower table.header SEED_NAMES,
    isSeedText (strip (table.cell row column)) = true

instance (table : DelimitedTable) (row : List Str) : Decidable (RowRepresentable lower table row) :=
  decidable_of_iff ((∀ column ∈ uniqueNamedHeader lower table.header RUN_NAMES,
      isBoundedId 256 (strip (table.cell row column)) = true) ∧
    ∀ column ∈ uniqueNamedHeader lower table.header SEED_NAMES,
      isSeedText (strip (table.cell row column)) = true)
    ⟨fun fits => ⟨fits.1, fits.2⟩, fun fits => ⟨fits.run, fits.seed⟩⟩

/-- An observation holds the metric, the run and the seed of a row. -/
structure RowObserved (table : DelimitedTable) (row : List Str) (observation : ExtractedObservation) :
    Prop where
  metric : ∃ column value, metricHeader digit lower table = some column ∧
    floatOfText digit (table.cell row column) = some value ∧
    observation.metric = some (column, value)
  run : observation.runId =
    (uniqueNamedHeader lower table.header RUN_NAMES).map fun column => strip (table.cell row column)
  seed : ∀ seed, observation.seed = some seed ↔
    ∃ column ∈ uniqueNamedHeader lower table.header SEED_NAMES,
      rowSeed (strip (table.cell row column)) = .ok seed
  configValues : observation.configValues = []

end Rows

theorem isBoundedId_filled {maximum : Nat} {text : Str} (fits : isBoundedId maximum text = true) :
    text ≠ [] := by
  rintro rfl
  cases fits

/-- No text of an integer is empty. -/
theorem isSeedText_filled {text : Str} (fits : isSeedText text = true) : text ≠ [] := by
  rintro rfl
  cases fits

/-- The seeds that can be observed are those whose texts are seeds. -/
theorem rowSeed_fits_iff {text : Str} :
    (∃ seed, rowSeed text = .ok seed ∧ seed.Fits) ↔ isSeedText text = true := by
  unfold rowSeed isSeedText
  cases integerText text with
  | none =>
    constructor
    · rintro ⟨seed, made, fits⟩
      rw [← Except.ok.inj made] at fits
      exact fits
    · intro fits
      exact ⟨.text text, rfl, fits⟩
  | some read =>
    obtain ⟨negative, digits⟩ := read
    simp only [decide_eq_true_eq]
    split
    next long =>
      constructor
      · rintro ⟨seed, made, -⟩
        cases made
      · intro short
        omega
    next short => exact iff_of_true ⟨_, rfl, trivial⟩ (by omega)

section Probe

variable {ut : UnicodeTables} (rt : Runtime) (digit : CodePoint → Option Digit) (lower : Str → Str)
  (errorText : Str → Str) (dialect : Dialect) (artifact : PassiveArtifact)

/-! ### Inferred mappings -/

/-- A mapping as a probe issues it for a target and a column. -/
structure IssuedColumn (selected : Str × Str) (mapping : FieldMapping ut) : Prop where
  target : mapping.targetField = selected.1
  field : ∃ selector, mapping.selector = .field selector ∧ selector.kind = .column ∧
    selector.expression = selected.2
  bound : BoundTo artifact mapping.provenance
  selectorBound : BoundTo artifact mapping.selector.provenance

theorem adapterMapping_column {adapterId target column : Str} {mapping : FieldMapping ut}
    (built : adapterMapping artifact adapterId target .column column = .ok mapping) :
    IssuedColumn artifact (target, column) mapping := by
  obtain ⟨provenance, made, built⟩ := bind_ok_iff.mp built
  obtain ⟨selector, selected, built⟩ := bind_ok_iff.mp built
  obtain ⟨kind, expression, inside, -⟩ := evidenceSelector_eq selected
  have bound := adapterProvenance_bound artifact made
  rw [← Except.ok.inj built]
  exact ⟨rfl, ⟨selector, rfl, kind, expression⟩, bound, inside ▸ bound⟩

/-- What a probe returns for a table. -/
structure InferredColumns (table : DelimitedTable) (found : ProbeMatch ut) : Prop where
  adapter : found.adapterId = dialect.adapterId
  path : found.path = artifact.path
  evidence : ∀ provenance ∈ found.matchEvidence, BoundTo artifact provenance
  issued : List.Forall₂ (IssuedColumn artifact) (columnSelectors digit lower table) found.mappings
  provenance : ∃ selector inferred built,
    adapterProvenance artifact dialect.adapterId selector inferred = .ok built

theorem tabularMatch_inferred {table : DelimitedTable} {mappings : List (FieldMapping ut)}
    {found : ProbeMatch ut} (generated : generatedMappings digit lower dialect artifact table =
      .ok mappings) (matched : tabularMatch dialect artifact mappings = .ok found) :
    InferredColumns digit lower dialect artifact table found := by
  have issued : List.Forall₂ (IssuedColumn artifact) (columnSelectors digit lower table) mappings :=
    (mapM_ok_iff.mp generated).imp fun _ _ => adapterMapping_column artifact
  obtain ⟨evidence, made, matched⟩ := bind_ok_iff.mp matched
  obtain ⟨confidence, -, matched⟩ := bind_ok_iff.mp matched
  split at matched
  next targets =>
    rw [← Except.ok.inj matched]
    refine ⟨rfl, rfl, ?_, issued, _, _, evidence, made⟩
    intro provenance member
    rw [List.mem_singleton.mp member]
    exact adapterProvenance_bound artifact made
  · cases matched

theorem mem_columnSelectors {table : DelimitedTable} {target column : Str} :
    (target, column) ∈ columnSelectors digit lower table ↔
      (target = lit "metric_value" ∧ metricHeader digit lower table = some column) ∨
      (target = lit "run_id" ∧ uniqueNamedHeader lower table.header RUN_NAMES = some column) ∨
      (target = lit "seed" ∧ uniqueNamedHeader lower table.header SEED_NAMES = some column) := by
  have one (name : Str) (columns : Option Str) :
      (target, column) ∈ columns.toList.map (name, ·) ↔ target = name ∧ columns = some column := by
    cases columns <;> simp [eq_comm, and_comm]
  rw [columnSelectors, List.mem_append, List.mem_append, one, one, one, or_assoc]

theorem uniqueNamedHeader_mem {header names : List Str} {column : Str}
    (named : uniqueNamedHeader lower header names = some column) : column ∈ header := by
  unfold uniqueNamedHeader at named
  split at named
  next item only =>
    have member : item ∈ header.filter fun item => names.contains (lower item) := by
      rw [only]
      exact List.mem_singleton_self item
    rw [← Option.some.inj named]
    exact (List.mem_filter.mp member).1
  · cases named

theorem metricHeader_mem {table : DelimitedTable} {column : Str}
    (named : metricHeader digit lower table = some column) :
    column ∈ table.header ∧ numericColumn digit table column = true := by
  unfold metricHeader at named
  split at named
  next item only =>
    have member : item ∈ metricHeaders digit lower table := by simp [only]
    obtain ⟨inside, fits⟩ := List.mem_filter.mp member
    rw [← Option.some.inj named]
    exact ⟨inside, (Bool.and_eq_true_iff.mp fits).2⟩
  · cases named

/-- Every inferred column is in the header. -/
theorem column_mem_header {table : DelimitedTable} {selected : Str × Str}
    (member : selected ∈ columnSelectors digit lower table) : selected.2 ∈ table.header := by
  rcases (mem_columnSelectors digit lower).mp member with ⟨-, named⟩ | ⟨-, named⟩ | ⟨-, named⟩
  · exact (metricHeader_mem digit lower named).1
  · exact uniqueNamedHeader_mem lower named
  · exact uniqueNamedHeader_mem lower named

theorem target_known {table : DelimitedTable} {selected : Str × Str}
    (member : selected ∈ columnSelectors digit lower table) :
    selected.1 ∈ [lit "metric_value", lit "run_id", lit "seed"] := by
  rcases (mem_columnSelectors digit lower).mp member with ⟨named, -⟩ | ⟨named, -⟩ | ⟨named, -⟩ <;>
    simp [named]

/-- The inferred targets are not fields of a profile. -/
theorem target_not_profile : ∀ target ∈ [lit "metric_value", lit "run_id", lit "seed"],
    target ∉ BENCHMARK_PROFILE_FIELDS := by
  simp [BENCHMARK_PROFILE_FIELDS, lit_inj]

section Match

variable {digit lower dialect artifact} {table : DelimitedTable} {found : ProbeMatch ut}

theorem InferredColumns.mapping
    (inferred : InferredColumns digit lower dialect artifact table found)
    {mapping : FieldMapping ut} (member : mapping ∈ found.mappings) :
    ∃ selected ∈ columnSelectors digit lower table, IssuedColumn artifact selected mapping := by
  obtain ⟨selected, inside, issued⟩ := mem_forall₂_right inferred.issued member
  exact ⟨selected, inside, issued⟩

/-- A match passes the checks of the adapter that inferred it. -/
theorem InferredColumns.validates
    (inferred : InferredColumns digit lower dialect artifact table found) :
    validateMatch rt artifact found dialect.adapterId .column TABLE_TARGETS =
      .ok found.mappings := by
  refine rejectIf_then_iff.mpr ⟨bne_eq_false_iff_eq.mpr inferred.adapter, ?_⟩
  refine rejectIf_then_iff.mpr ⟨bne_eq_false_iff_eq.mpr inferred.path, ?_⟩
  refine check_then_iff.mpr ⟨forM_ok_iff.mpr fun provenance member => ?_, ?_⟩
  · exact (checkBound_ok_iff artifact).mpr (inferred.evidence provenance member)
  refine check_then_iff.mpr ⟨forM_ok_iff.mpr fun mapping member => ?_, rfl⟩
  obtain ⟨selected, inside, issued⟩ := inferred.mapping member
  obtain ⟨selector, field, kind, -⟩ := issued.field
  have allowed : TABLE_TARGETS.contains mapping.targetField = true := by
    rw [issued.target, List.contains_iff_mem]
    exact List.mem_append_left _ (target_known digit lower inside)
  refine rejectIf_then_iff.mpr ⟨by rw [allowed]; rfl, ?_⟩
  refine rejectIf_then_iff.mpr ⟨bne_eq_false_iff_eq.mpr ?_, ?_⟩
  · rw [field]
    exact kind
  · exact check_then_iff.mpr ⟨(checkBound_ok_iff artifact).mpr issued.bound,
      (checkBound_ok_iff artifact).mpr issued.selectorBound⟩

/-- The mapping of a target selects the column that was inferred for it. -/
theorem InferredColumns.selects
    (inferred : InferredColumns digit lower dialect artifact table found) {target : Str}
    {columns : Option Str}
    (only : ∀ column, (target, column) ∈ columnSelectors digit lower table ↔ columns = some column) :
    (mappingFor target found.mappings).map (fun mapping => mapping.selector.expression) =
      columns := by
  have expression {selected : Str × Str} {mapping : FieldMapping ut}
      (issued : IssuedColumn artifact selected mapping) :
      mapping.selector.expression = selected.2 := by
    obtain ⟨selector, field, -, same⟩ := issued.field
    rw [field]
    exact same
  -- the mapping for a target was made from its column
  cases columns with
  | none =>
    cases here : mappingFor target found.mappings with
    | none => rfl
    | some mapping =>
      obtain ⟨member, named⟩ := (mappingFor_eq_some_iff found.targets).mp here
      obtain ⟨⟨name, column⟩, inside, issued⟩ := inferred.mapping member
      have same : name = target := issued.target.symm.trans named
      subst same
      cases (only column).mp inside
  | some column =>
    obtain ⟨mapping, member, issued⟩ :=
      mem_forall₂_left inferred.issued ((only column).mpr rfl)
    rw [(mappingFor_eq_some_iff found.targets).mpr ⟨member, issued.target⟩, Option.map_some,
      expression issued]

theorem InferredColumns.metric
    (inferred : InferredColumns digit lower dialect artifact table found) :
    (mappingFor (lit "metric_value") found.mappings).map
      (fun mapping => mapping.selector.expression) = metricHeader digit lower table :=
  inferred.selects fun column => by
    rw [mem_columnSelectors]
    simp [lit_inj]

theorem InferredColumns.run
    (inferred : InferredColumns digit lower dialect artifact table found) :
    (mappingFor (lit "run_id") found.mappings).map (fun mapping => mapping.selector.expression) =
      uniqueNamedHeader lower table.header RUN_NAMES :=
  inferred.selects fun column => by
    rw [mem_columnSelectors]
    simp [lit_inj]

theorem InferredColumns.seed
    (inferred : InferredColumns digit lower dialect artifact table found) :
    (mappingFor (lit "seed") found.mappings).map (fun mapping => mapping.selector.expression) =
      uniqueNamedHeader lower table.header SEED_NAMES :=
  inferred.selects fun column => by
    rw [mem_columnSelectors]
    simp [lit_inj]

/-- No inferred mapping selects rows, and none is for a field of a profile. -/
theorem InferredColumns.plain
    (inferred : InferredColumns digit lower dialect artifact table found) :
    (∀ mapping ∈ found.mappings, mapping.selector.isTable = false) ∧
      profileMappings found.mappings = [] := by
  constructor
  · intro mapping member
    obtain ⟨selected, -, issued⟩ := inferred.mapping member
    obtain ⟨selector, field, -, -⟩ := issued.field
    rw [field]
    rfl
  · apply List.filter_eq_nil_iff.mpr
    intro mapping member
    obtain ⟨selected, inside, issued⟩ := inferred.mapping member
    rw [issued.target, List.contains_iff_mem]
    exact target_not_profile _ (target_known digit lower inside)

theorem InferredColumns.columns
    (inferred : InferredColumns digit lower dialect artifact table found) :
    checkColumns rt dialect table found.mappings = .ok () := by
  apply forM_ok_iff.mpr
  intro mapping member
  obtain ⟨selected, inside, issued⟩ := inferred.mapping member
  obtain ⟨selector, field, -, same⟩ := issued.field
  rw [field]
  have known : table.header.contains selector.expression = true := by
    rw [List.contains_iff_mem, same]
    exact column_mem_header digit lower inside
  exact rejectIf_ok_iff.mpr (by rw [known]; rfl)

/-- The extraction of an inferred match observes every row. -/
theorem InferredColumns.extracts
    (inferred : InferredColumns digit lower dialect artifact table found)
    {metric : FieldMapping ut}
    (selected : mappingFor (lit "metric_value") found.mappings = some metric) :
    extractRows rt digit dialect artifact table found found.mappings =
      ((List.range table.rows.length).mapM
        (rowObservation rt digit dialect artifact table found.mappings metric) >>=
        fun observations => pure ⟨structuredEvidenceId rt artifact dialect.adapterId "1"
          found.mappings, artifact, found, observations⟩) := by
  obtain ⟨plain, profile⟩ := inferred.plain
  obtain ⟨member, -⟩ := (mappingFor_eq_some_iff found.targets).mp selected
  have field := plain metric member
  -- inferred columns select whole columns, never cells of a table
  have anyTable : (found.mappings.any fun mapping => mapping.selector.isTable) = false := by
    rw [List.any_eq_false]
    intro mapping inside
    rw [plain mapping inside]
    exact Bool.false_ne_true
  have identifiers : (found.mappings.any fun mapping =>
      [lit "run_id", lit "seed"].contains mapping.targetField && mapping.selector.isTable) =
        false := by
    rw [List.any_eq_false]
    intro mapping inside
    rw [plain mapping inside, Bool.and_false]
    exact Bool.false_ne_true
  have selectors : checkProfileSelectors metric.selector found.mappings = .ok () := by
    -- a selector of a column takes every row
    cases selector : metric.selector with
    | field s => rw [checkProfileSelectors, profile]; rfl
    | table s =>
      rw [selector] at field
      cases field
  have rows : metricRows table metric.selector = .ok (List.range table.rows.length) := by
    cases selector : metric.selector with
    | field s => rfl
    | table s =>
      rw [selector] at field
      cases field
  have canonical : canonicalTableMatch rt dialect artifact found = .ok found := by
    rw [canonicalTableMatch, anyTable]
    rfl
  rw [extractRows, selected]
  dsimp only
  rw [inferred.columns rt, identifiers, selectors, rows, canonical]
  dsimp only [bind, Except.bind, rejectIf]
  rw [selected]
  rfl

/-! ### One observation -/

/-- A mapped identifier of a row is the text of its column, which is not empty. -/
theorem rowIdentifier_ok_iff {mappings : List (FieldMapping ut)} {target : Str} {columns : Option Str}
    (named : (mappingFor target mappings).map (fun mapping => mapping.selector.expression) = columns)
    {row : List Str} {text : Option Str} :
    rowIdentifier table row mappings target = .ok text ↔
      text = columns.map (fun column => strip (table.cell row column)) ∧
        ∀ column ∈ columns, strip (table.cell row column) ≠ [] := by
  subst named
  unfold rowIdentifier
  cases mappingFor target mappings with
  | none =>
    constructor
    · intro made
      exact ⟨(Except.ok.inj made).symm, fun column named => by cases named⟩
    · rintro ⟨rfl, -⟩
      rfl
  | some mapping =>
    dsimp only
    -- an empty cell is refused
    by_cases empty : strip (table.cell row mapping.selector.expression) = []
    · rw [if_pos empty]
      refine iff_of_false (by rintro ⟨⟩) ?_
      rintro ⟨-, filled⟩
      exact filled _ rfl empty
    · rw [if_neg empty]
      constructor
      · intro made
        refine ⟨(Except.ok.inj made).symm, fun column named => ?_⟩
        rw [← Option.some.inj named]
        exact empty
      · rintro ⟨rfl, -⟩
        rfl

theorem isMetricName_of_column {column : Str} (named : isColumnName column = true) :
    isMetricName column = true := by
  simp only [isColumnName, Bool.and_eq_true, decide_eq_true_eq] at named
  obtain ⟨⟨first, -⟩, short⟩ := named
  rw [isMetricName, Bool.and_eq_true, decide_eq_true_eq]
  refine ⟨?_, short⟩
  cases column with
  | nil => cases first
  | cons c rest =>
    -- the first character is a letter, a digit or an underscore
    have visible : isSpace c = false := by
      simp only [List.head?_cons, Option.any_some, Bool.or_eq_true, List.contains_iff_mem] at first
      rcases first with letter | underscore
      · simp only [isAsciiAlphanumeric, Bool.or_eq_true, Bool.and_eq_true, decide_eq_true_eq]
          at letter
        have ascii : 48 ≤ c.val ∧ c.val ≤ 122 := by omega
        simp only [isSpace, Bool.or_eq_false_iff, Bool.and_eq_false_iff, decide_eq_false_iff_not,
          beq_eq_false_iff_ne]
        omega
      · rw [List.mem_singleton.mp (show c ∈ [codePoint 0x5F] from underscore)]
        decide
    rw [isBlank, List.all_cons, visible, Bool.false_and]
    rfl

section Row

variable {metric : FieldMapping ut} {index : Nat}

/-- The steps of the observation of a row of an inferred match. -/
theorem InferredColumns.rowObservation_ok_iff
    (inferred : InferredColumns digit lower dialect artifact table found)
    {row : List Str} (there : table.rows[index]? = some row) {observation : ExtractedObservation} :
    rowObservation rt digit dialect artifact table found.mappings metric index = .ok observation ↔
      (∀ column ∈ uniqueNamedHeader lower table.header RUN_NAMES,
        strip (table.cell row column) ≠ []) ∧
      (∀ column ∈ uniqueNamedHeader lower table.header SEED_NAMES,
        strip (table.cell row column) ≠ []) ∧
      ∃ seed provenance value,
        ((uniqueNamedHeader lower table.header SEED_NAMES).map fun column =>
          strip (table.cell row column)).mapM rowSeed = .ok seed ∧
        adapterProvenance artifact dialect.adapterId
          (lit "row[" ++ natText index ++ lit "]." ++ metric.selector.expression)
          (decide (lit "inferred=true" <:+: metric.provenance.detail)) = .ok provenance ∧
        floatOfText digit (table.cell row metric.selector.expression) = some value ∧
        extractedObservation provenance (some (metric.selector.expression, value))
          ((uniqueNamedHeader lower table.header RUN_NAMES).map fun column =>
            strip (table.cell row column)) seed [] = .ok observation := by
  -- the cell is read by `float`, and no other value is read of the row
  have number {label : Str} {value : Binary64} {text : Str} :
      finiteCsvNumber digit label text = .ok value ↔ floatOfText digit text = some value := by
    unfold finiteCsvNumber
    cases floatOfText digit text with
    | none => exact iff_of_false (by rintro ⟨⟩) (by rintro ⟨⟩)
    | some number => rw [Except.ok.injEq, Option.some.injEq]
  have noValues (provenance : FieldProvenance) :
      rowConfigValues rt table row provenance found.mappings = .ok [] := by
    rw [rowConfigValues, inferred.plain.2]
    rfl
  have same : table.rows.getD index [] = row := by
    rw [List.getD_eq_getElem?_getD, there]
    rfl
  unfold rowObservation
  simp only [same, bind_ok_iff, rowIdentifier_ok_iff inferred.run, rowIdentifier_ok_iff inferred.seed,
    noValues, number, mapError_ok_iff, Except.ok.injEq]
  constructor
  · rintro ⟨_, ⟨rfl, run⟩, _, ⟨rfl, seedCell⟩, seed, seeded, provenance, made, _, rfl, value, read,
      built⟩
    exact ⟨run, seedCell, seed, provenance, value, seeded, made, read, built⟩
  · rintro ⟨run, seedCell, seed, provenance, value, seeded, made, read, built⟩
    exact ⟨_, ⟨rfl, run⟩, _, ⟨rfl, seedCell⟩, seed, seeded, provenance, made, _, rfl, value, read,
      built⟩

theorem mapM_rowSeed_ok_iff {texts : Option Str} {seed : Option Seed} :
    texts.mapM rowSeed = .ok seed ↔
      (texts = none ∧ seed = none) ∨
        ∃ text s, texts = some text ∧ rowSeed text = .ok s ∧ seed = some s := by
  cases texts with
  | none =>
    constructor
    · intro made
      exact .inl ⟨rfl, (Except.ok.inj made).symm⟩
    · rintro (⟨-, rfl⟩ | ⟨_, _, same, -⟩)
      · rfl
      · cases same
  | some text =>
    cases seeded : rowSeed text with
    | error error =>
      refine iff_of_false ?_ ?_
      · rw [Option.mapM_some, seeded]
        rintro ⟨⟩
      · rintro (⟨same, -⟩ | ⟨_, _, same, made, -⟩)
        · cases same
        · rw [← Option.some.inj same, seeded] at made
          cases made
    | ok s =>
      rw [Option.mapM_some, seeded]
      constructor
      · intro made
        exact .inr ⟨text, s, rfl, seeded, (Except.ok.inj made).symm⟩
      · rintro (⟨same, -⟩ | ⟨_, _, same, made, rfl⟩)
        · cases same
        · rw [← Option.some.inj same, seeded] at made
          rw [Except.ok.inj made]
          rfl

/-- The metric of an inferred match is read in the only metric column. -/
theorem InferredColumns.metricColumn
    (inferred : InferredColumns digit lower dialect artifact table found)
    (selected : mappingFor (lit "metric_value") found.mappings = some metric) :
    metricHeader digit lower table = some metric.selector.expression := by
  rw [← inferred.metric, selected]
  rfl

/-- A row is observed exactly if its run and its seed can be represented. -/
theorem InferredColumns.observes_iff
    (inferred : InferredColumns digit lower dialect artifact table found)
    (selected : mappingFor (lit "metric_value") found.mappings = some metric)
    (columns : ∀ item ∈ table.header, isColumnName item = true)
    {row : List Str} (there : table.rows[index]? = some row)
    (located : ∃ provenance, adapterProvenance artifact dialect.adapterId
      (lit "row[" ++ natText index ++ lit "]." ++ metric.selector.expression)
      (decide (lit "inferred=true" <:+: metric.provenance.detail)) = .ok provenance) :
    (∃ observation, rowObservation rt digit dialect artifact table found.mappings metric index =
      .ok observation) ↔ RowRepresentable lower table row := by
  have column := inferred.metricColumn selected
  obtain ⟨known, numeric⟩ := metricHeader_mem digit lower column
  simp only [inferred.rowObservation_ok_iff rt there]
  constructor
  -- the seed was converted, so its text fits
  · rintro ⟨observation, run, seedCell, seed, provenance, value, seeded, -, -, built⟩
    obtain ⟨-, runFits, seedFits⟩ := checkObservation_ok_iff.mp
      (extractedObservation_isOk_iff.mp ⟨observation, built⟩)
    refine ⟨fun column named => ?_, fun column named => ?_⟩
    · exact runFits _ (by rw [Option.mem_def.mp named]; rfl)
    · apply rowSeed_fits_iff.mp
      rcases mapM_rowSeed_ok_iff.mp seeded with ⟨absent, -⟩ | ⟨text, s, text_eq, made, rfl⟩
      · rw [Option.mem_def.mp named] at absent
        cases absent
      · rw [Option.mem_def.mp named] at text_eq
        rw [← Option.some.inj text_eq] at made
        exact ⟨s, made, seedFits s rfl⟩
  -- the metric column is numeric in every row of the sample
  · rintro ⟨run, seedText⟩
    obtain ⟨provenance, made⟩ := located
    obtain ⟨value, read⟩ := Option.isSome_iff_exists.mp
      (List.all_eq_true.mp numeric row (List.mem_of_getElem? there))
    have seeded : ∃ seed, ((uniqueNamedHeader lower table.header SEED_NAMES).map fun column =>
        strip (table.cell row column)).mapM rowSeed = .ok seed ∧ ∀ s, seed = some s → s.Fits := by
      cases named : uniqueNamedHeader lower table.header SEED_NAMES with
      | none => exact ⟨none, rfl, fun s same => by cases same⟩
      | some column =>
        obtain ⟨s, converted, fits⟩ := rowSeed_fits_iff.mpr (seedText column named)
        refine ⟨some s, mapM_rowSeed_ok_iff.mpr (.inr ⟨_, s, rfl, converted, rfl⟩), ?_⟩
        intro other same
        rw [← Option.some.inj same]
        exact fits
    obtain ⟨seed, seeded, seedFits⟩ := seeded
    have checked : checkObservation (some (metric.selector.expression, value))
        ((uniqueNamedHeader lower table.header RUN_NAMES).map fun column =>
          strip (table.cell row column)) seed [] = .ok () := by
      refine checkObservation_ok_iff.mpr ⟨isMetricName_of_column (columns _ known), ?_, seedFits⟩
      intro text same
      obtain ⟨column, named, rfl⟩ := Option.map_eq_some_iff.mp same
      exact run column named
    obtain ⟨observation, built⟩ := extractedObservation_isOk_iff.mpr checked
    exact ⟨observation, fun column named => isBoundedId_filled (run column named),
      fun column named => isSeedText_filled (seedText column named), seed, provenance, value, seeded,
      made, read, built⟩

/-- What is observed of a row is what the row holds. -/
theorem InferredColumns.observed
    (inferred : InferredColumns digit lower dialect artifact table found)
    (selected : mappingFor (lit "metric_value") found.mappings = some metric)
    {row : List Str} (there : table.rows[index]? = some row) {observation : ExtractedObservation}
    (made : rowObservation rt digit dialect artifact table found.mappings metric index =
      .ok observation) : RowObserved digit lower table row observation := by
  obtain ⟨-, -, seed, provenance, value, seeded, -, read, built⟩ :=
    (inferred.rowObservation_ok_iff rt there).mp made
  have fields : observation.metric = some (metric.selector.expression, value) ∧
      observation.runId = ((uniqueNamedHeader lower table.header RUN_NAMES).map fun column =>
        strip (table.cell row column)) ∧ observation.seed = seed ∧ observation.configValues = [] := by
    rw [extractedObservation] at built
    split at built
    · cases built
    · rw [← Except.ok.inj built]
      exact ⟨rfl, rfl, rfl, rfl⟩
  refine ⟨⟨_, value, inferred.metricColumn selected, read, fields.1⟩, fields.2.1, ?_, fields.2.2.2⟩
  intro s
  rw [fields.2.2.1]
  -- the seed comes from the cell of its column, or there is none
  rcases mapM_rowSeed_ok_iff.mp seeded with ⟨absent, rfl⟩ | ⟨text, other, text_eq, converted, rfl⟩
  · constructor
    · intro same
      cases same
    · rintro ⟨column, named, -⟩
      rw [Option.mem_def.mp named] at absent
      cases absent
  · obtain ⟨column, named, rfl⟩ := Option.map_eq_some_iff.mp text_eq
    constructor
    · intro same
      exact ⟨column, named, Option.some.inj same ▸ converted⟩
    · rintro ⟨column', named', converted'⟩
      obtain rfl := Option.some.inj (named.symm.trans named')
      rw [Except.ok.inj (converted.symm.trans converted')]

end Row

end Match

/-! ### Whole tables -/

theorem parse_ok {table : DelimitedTable} {content : Bytes}
    (parsed : dialect.parse errorText content = .ok table) :
    (∀ item ∈ table.header, isColumnName item = true) ∧ table.rows.length ≤ MAX_RECORDS := by
  unfold Dialect.parse at parsed
  split at parsed
  · cases parsed
  next text decoded =>
    obtain ⟨-, parsed⟩ := check_then_iff.mp parsed
    split at parsed
    · cases parsed
    · cases parsed
    next header rows failed _ =>
      unfold Dialect.tableOf at parsed
      split at parsed
      · cases parsed
      next named =>
        split at parsed
        · cases parsed
        next fit =>
          obtain ⟨-, parsed⟩ := check_then_iff.mp parsed
          obtain ⟨-, parsed⟩ := check_then_iff.mp parsed
          rw [← Except.ok.inj parsed]
          refine ⟨((dialect.checkHeader_ok_iff).mp named).2.2.2.2, ?_⟩
          change rows.length ≤ MAX_RECORDS
          rcases ((dialect.checkRows_ok_iff).mp fit).1 with none | few
          · rw [none]
            exact Nat.zero_le _
          · omega

end Probe

section Whole

variable {ut : UnicodeTables} (rt : Runtime) (digit : CodePoint → Option Digit) (lower : Str → Str)
  (errorText : Str → Str) (artifact : PassiveArtifact)

theorem dialect_short (format : TabularFormat) : format.dialect.adapterId.length = 14 := by
  cases format <;> rfl

/-- The provenance of every row can be built. -/
theorem rowProvenance_isOk (format : TabularFormat) {table : DelimitedTable} {found : ProbeMatch ut}
    (inferred : InferredColumns digit lower format.dialect artifact table found) {column : Str}
    (named : isColumnName column = true) {index : Nat} (few : index < MAX_RECORDS) (flag : Bool) :
    ∃ provenance, adapterProvenance artifact format.dialect.adapterId
      (lit "row[" ++ natText index ++ lit "]." ++ column) flag = .ok provenance := by
  obtain ⟨selector, inferredFlag, built, made⟩ := inferred.provenance
  apply adapterProvenance_isOk artifact made
  have number : (natText index).length ≤ 4 := natText_short few
  have marker : (lit "row[").length = 4 ∧ (lit "].").length = 2 := by decide
  have name : column.length ≤ 256 := by
    simp only [isColumnName, Bool.and_eq_true, decide_eq_true_eq] at named
    exact named.2
  rw [dialect_short]
  simp only [List.length_append]
  omega

/-- What the probe of a table infers with a metric is extracted exactly if the run and the seed of
every row can be represented, and then every row is observed as it is. -/
theorem tabularExtraction_iff (format : TabularFormat) (found : ProbeMatch ut)
    (probed : probeTable rt digit lower errorText format.dialect artifact = .ok (some found))
    (metric : (mappingFor (lit "metric_value") found.mappings).isSome = true) :
    ∃ table, format.dialect.parse errorText artifact.content = .ok table ∧
      ((∃ evidence, extractTable rt digit errorText format.dialect artifact found = .ok evidence) ↔
        ∀ row ∈ table.rows, RowRepresentable lower table row) ∧
      ∀ evidence, extractTable rt digit errorText format.dialect artifact found = .ok evidence →
        List.Forall₂ (RowObserved digit lower table) table.rows evidence.observations := by
  rw [probeTable] at probed
  split at probed
  · obtain ⟨sound, probed⟩ := check_then_iff.mp probed
    obtain ⟨table, read, probed⟩ := bind_ok_iff.mp probed
    obtain ⟨mappings, generated, probed⟩ := bind_ok_iff.mp probed
    obtain ⟨inside, matched, probed⟩ := bind_ok_iff.mp probed
    obtain rfl : inside = found := Option.some.inj (Except.ok.inj probed)
    have inferred := tabularMatch_inferred digit lower format.dialect artifact generated matched
    obtain ⟨mapping, selected⟩ := Option.isSome_iff_exists.mp metric
    obtain ⟨columns, few⟩ := parse_ok errorText format.dialect read
    have column := (metricHeader_mem digit lower (inferred.metricColumn selected)).1
    refine ⟨table, read, ?_⟩
    -- after the integrity check and the probe only the rows can fail
    have run : extractTable rt digit errorText format.dialect artifact inside =
        ((List.range table.rows.length).mapM
          (rowObservation rt digit format.dialect artifact table inside.mappings mapping) >>=
          fun observations => pure ⟨structuredEvidenceId rt artifact format.dialect.adapterId "1"
            inside.mappings, artifact, inside, observations⟩) := by
      rw [extractTable, sound, read]
      dsimp only [bind, Except.bind]
      rw [inferred.validates rt]
      exact inferred.extracts rt selected
    rw [run]
    have rowAt : ∀ index ∈ List.range table.rows.length, ∃ row, table.rows[index]? = some row :=
      fun index member => ⟨_, List.getElem?_eq_getElem (List.mem_range.mp member)⟩
    constructor
    · have made : (∃ evidence, ((List.range table.rows.length).mapM
          (rowObservation rt digit format.dialect artifact table inside.mappings mapping) >>=
          fun observations => pure (⟨structuredEvidenceId rt artifact format.dialect.adapterId "1"
            inside.mappings, artifact, inside, observations⟩ : ExtractedEvidence ut)) =
            .ok evidence) ↔
          ∃ observations, (List.range table.rows.length).mapM (rowObservation rt digit
            format.dialect artifact table inside.mappings mapping) = .ok observations := by
        constructor
        · rintro ⟨evidence, returned⟩
          obtain ⟨observations, extracted, -⟩ := bind_ok_iff.mp returned
          exact ⟨observations, extracted⟩
        · rintro ⟨observations, extracted⟩
          exact ⟨_, bind_ok_iff.mpr ⟨observations, extracted, rfl⟩⟩
      rw [made, exists_mapM_ok_iff]
      constructor
      -- an observation for each row exists exactly if each row is representable
      · intro all row member
        obtain ⟨index, short, rfl⟩ := List.mem_iff_getElem.mp member
        have located := rowProvenance_isOk digit lower artifact format inferred (columns _ column)
          (short.trans_le few) (decide (lit "inferred=true" <:+: mapping.provenance.detail))
        exact (inferred.observes_iff rt selected columns (List.getElem?_eq_getElem short)
          located).mp (all index (List.mem_range.mpr short))
      · intro all index member
        obtain ⟨row, there⟩ := rowAt index member
        have located := rowProvenance_isOk digit lower artifact format inferred (columns _ column)
          ((List.mem_range.mp member).trans_le few)
          (decide (lit "inferred=true" <:+: mapping.provenance.detail))
        exact (inferred.observes_iff rt selected columns there located).mpr
          (all row (List.mem_of_getElem? there))
    -- the observations are those of the rows, in order
    · intro evidence returned
      obtain ⟨observations, extracted, returned⟩ := bind_ok_iff.mp returned
      rw [← Except.ok.inj returned]
      have each := mapM_ok_iff.mp extracted
      rw [List.forall₂_iff_get] at each ⊢
      obtain ⟨length, each⟩ := each
      rw [List.length_range] at length
      refine ⟨length, fun index short other => ?_⟩
      have here := each index (by rwa [List.length_range]) other
      rw [List.get_eq_getElem, List.getElem_range] at here
      exact inferred.observed rt selected (List.getElem?_eq_getElem short) here
  · cases probed

end Whole

/-! ### A table of two runs -/

def twoRows : Bytes := asciiEncode (lit "accuracy,run\n0.9,a\n0.8,b\n")

/-- The digest of the file; other inputs play no part. -/
def twoRowsRuntime : Runtime :=
  { streamSampleRuntime with
    sha256 := fun raw =>
      if raw = twoRows then
        hexdigest 0x795ee0f5b5737f687110048f2f85a7691b5bc065bba552ad5b8f25999b29284d
      else [] }

theorem csvPath : isRepositoryPath "results.csv" = true := by decide +kernel

theorem twoRowsDigest :
    isSha256 (hexdigest 0x795ee0f5b5737f687110048f2f85a7691b5bc065bba552ad5b8f25999b29284d) = true :=
  isSha256_hexdigest _

def twoRowsArtifact : PassiveArtifact :=
  resultsArtifact twoRows ⟨"results.csv", csvPath⟩ ⟨_, twoRowsDigest⟩

/-- The metrics and the runs that the file holds. -/
def twoRowsShown : List (Option (Str × Str) × Option Str) :=
  [(some (lit "accuracy", lit "0.9"), some (lit "a")),
    (some (lit "accuracy", lit "0.8"), some (lit "b"))]

theorem twoRows_probed : ∃ found : ProbeMatch plainTables,
    probeTable twoRowsRuntime (fun _ => none) id id TabularFormat.csv.dialect twoRowsArtifact =
        .ok (some found) ∧ (mappingFor (lit "metric_value") found.mappings).isSome = true ∧
      ∀ evidence ∈ (extractTable twoRowsRuntime (fun _ => none) id TabularFormat.csv.dialect
          twoRowsArtifact found).toOption,
        evidence.observations.map ExtractedObservation.shown = twoRowsShown := by
  obtain ⟨result, probed, run⟩ := ok_of_any (by decide +kernel :
    (probeTable twoRowsRuntime (fun _ => none) id id TabularFormat.csv.dialect
      twoRowsArtifact).toOption.any (fun result : Option (ProbeMatch plainTables) =>
        result.any fun found => (mappingFor (lit "metric_value") found.mappings).isSome &&
          decide (∀ evidence ∈ (extractTable twoRowsRuntime (fun _ => none) id
              TabularFormat.csv.dialect twoRowsArtifact found).toOption,
            evidence.observations.map ExtractedObservation.shown = twoRowsShown)) = true)
  obtain ⟨found, rfl, run⟩ := (Option.any_eq_true _ _).mp run
  obtain ⟨metric, shown⟩ := Bool.and_eq_true_iff.mp run
  exact ⟨found, probed, metric, of_decide_eq_true shown⟩

/-- The metrics and the runs of two rows are extracted. -/
theorem tabularExtraction_twoRows :
    ∃ (found : ProbeMatch plainTables) (evidence : ExtractedEvidence plainTables),
      probeTable twoRowsRuntime (fun _ => none) id id TabularFormat.csv.dialect twoRowsArtifact =
          .ok (some found) ∧
        extractTable twoRowsRuntime (fun _ => none) id TabularFormat.csv.dialect twoRowsArtifact found =
          .ok evidence ∧
        evidence.observations.map ExtractedObservation.shown = twoRowsShown ∧
        ∃ table, TabularFormat.csv.dialect.parse id twoRowsArtifact.content = .ok table ∧
          List.Forall₂ (RowObserved (fun _ => none) id table) table.rows evidence.observations := by
  obtain ⟨found, probed, metric, shown⟩ := twoRows_probed
  obtain ⟨table, read, returns, observed⟩ := tabularExtraction_iff twoRowsRuntime (fun _ => none) id id
    twoRowsArtifact .csv found probed metric
  have fits : ∀ row ∈ table.rows, RowRepresentable id table row := by
    obtain ⟨other, again, fits⟩ := ok_of_any (by decide +kernel :
      (TabularFormat.csv.dialect.parse id twoRowsArtifact.content).toOption.any (fun table =>
        decide (∀ row ∈ table.rows, RowRepresentable id table row)) = true)
    obtain rfl := Except.ok.inj (again.symm.trans read)
    exact of_decide_eq_true fits
  obtain ⟨evidence, returned⟩ := returns.mpr fits
  refine ⟨found, evidence, probed, returned, shown evidence ?_, table, read, observed evidence returned⟩
  rw [returned]
  rfl

end ClaimCI
