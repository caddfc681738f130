import ClaimCI.Analysis.SelectorOverlap
import ClaimCI.Analysis.TabularExtraction
import ClaimCI.Python.FirstOccurrences

/-!
# Cells of the two roles

The bindings of a mapping may read the baseline and the candidate from one table when their selectors
prove that they read different cells. What an accepted mapping extracts for the two roles comes from
different cells of the table.
-/

open Python

namespace ClaimCI

section Bindings

variable {ut : UnicodeTables}

/-! ### Validation -/

/-- The table selectors of the mappings. -/
def tableSelectors (mappings : List (FieldMapping ut)) : List (TableSelector ut) :=
  mappings.filterMap fun mapping =>
    match mapping.selector with
    | .field _ => none
    | .table selector => some selector

/-- The identities of the table selectors of a binding, in their order. -/
def exactTableIdentity (binding : ArtifactBinding ut) : List (Str × SelectorIdentity) :=
  fieldMappingProjection (binding.mappings.filter fun mapping => mapping.selector.isTable)

/-- The table selectors of all bindings of a role. -/
def roleSelectors (role : ExperimentRole) (bindings : List (ArtifactBinding ut)) :
    List (TableSelector ut) :=
  (bindings.filter fun binding => binding.role == role).flatMap fun binding =>
    tableSelectors binding.mappings

/-- Some cell may be read for both roles. -/
def overlappingCells (bindings : List (ArtifactBinding ut)) : Bool :=
  (roleSelectors .baseline bindings).any fun baseline =>
    (roleSelectors .candidate bindings).any fun candidate =>
      baseline.column == candidate.column && !rowDisjoint baseline candidate

/-- The bindings of one path conflict. -/
def conflictingRoles (bindings : List (ArtifactBinding ut)) : Bool :=
  let roles := bindings.filter fun binding => [.baseline, .candidate].contains binding.role
  (roles.any fun binding => binding.role == .baseline) &&
    (roles.any fun binding => binding.role == .candidate) &&
    ((roles.any fun binding => (exactTableIdentity binding).isEmpty) ||
      !decide (roles.map exactTableIdentity).Nodup || overlappingCells roles)

/-- `_validate_bindings`. -/
def validateBindings (bindings : List (ArtifactBinding ut)) (label : Str) : Except Error Unit := do
  rejectIf bindings.isEmpty
    (.typeError (label ++ lit " must be a non-empty tuple of ArtifactBinding values"))
  rejectIf (!decide (bindings.map ArtifactBinding.slot).Nodup)
    (contractError (label ++ lit " must not contain duplicate bindings"))
  (firstOccurrences ArtifactBinding.path bindings).forM fun first =>
    rejectIf (conflictingRoles (bindings.filter fun binding => binding.path == first.path))
      (contractError (label ++
        lit " cannot assign one path to conflicting baseline and candidate roles"))

theorem mem_tableSelectors {mappings : List (FieldMapping ut)} {selector : TableSelector ut} :
    selector ∈ tableSelectors mappings ↔ ∃ mapping ∈ mappings, mapping.selector = .table selector := by
  rw [tableSelectors, List.mem_filterMap]
  refine exists_congr fun mapping => and_congr_right fun _ => ?_
  cases mapping.selector <;> simp

theorem mem_roleSelectors {role : ExperimentRole} {bindings : List (ArtifactBinding ut)}
    {selector : TableSelector ut} : selector ∈ roleSelectors role bindings ↔
      ∃ binding ∈ bindings, binding.role = role ∧ selector ∈ tableSelectors binding.mappings := by
  simp [roleSelectors, and_assoc]

/-- A binding with an identity of table selectors has a table selector. -/
theorem tableSelectors_of_identity {binding : ArtifactBinding ut}
    (named : (exactTableIdentity binding).isEmpty = false) : tableSelectors binding.mappings ≠ [] := by
  intro none
  have absent : (binding.mappings.filter fun mapping => mapping.selector.isTable) = [] := by
    rw [List.filter_eq_nil_iff]
    intro mapping member table
    cases selector : mapping.selector with
    | field s =>
      rw [selector] at table
      cases table
    | table s =>
      have found := mem_tableSelectors.mpr ⟨mapping, member, selector⟩
      rw [none] at found
      cases found
  rw [exactTableIdentity, absent] at named
  cases named

section Accepted

variable {bindings : List (ArtifactBinding ut)} {label : Str} {baseline candidate : ArtifactBinding ut}

/-- Bindings of one path in the two roles have table selectors, which select different rows where
they select one column. -/
theorem validateBindings_roles (accepted : validateBindings bindings label = .ok ())
    (inside : baseline ∈ bindings) (inside' : candidate ∈ bindings)
    (role : baseline.role = .baseline) (role' : candidate.role = .candidate)
    (path : baseline.path = candidate.path) :
    tableSelectors baseline.mappings ≠ [] ∧ tableSelectors candidate.mappings ≠ [] ∧
      ∀ s ∈ tableSelectors baseline.mappings, ∀ t ∈ tableSelectors candidate.mappings,
        s.column = t.column → rowDisjoint s t = true := by
  obtain ⟨-, accepted⟩ := rejectIf_then_iff.mp accepted
  obtain ⟨-, accepted⟩ := rejectIf_then_iff.mp accepted
  -- the check runs once for each path, at the first binding that has it
  obtain ⟨first, member, same⟩ : ∃ first ∈ firstOccurrences ArtifactBinding.path bindings,
      first.path = baseline.path := exists_mem_firstsFrom inside List.not_mem_nil
  have free := rejectIf_ok_iff.mp (forM_ok_iff.mp accepted first member)
  have here : baseline ∈ bindings.filter fun binding => binding.path == first.path := by
    simp [inside, same]
  have here' : candidate ∈ bindings.filter fun binding => binding.path == first.path := by
    simp [inside', same, path]
  generalize bindings.filter (fun binding => binding.path == first.path) = shared at free here here'
  have among : baseline ∈ shared.filter fun binding =>
      [.baseline, .candidate].contains binding.role := by
    simp [here, role]
  have among' : candidate ∈ shared.filter fun binding =>
      [.baseline, .candidate].contains binding.role := by
    simp [here', role']
  unfold conflictingRoles at free
  generalize shared.filter (fun binding => [.baseline, .candidate].contains binding.role) = roles
    at free among among'
  -- both roles are there, so an unnamed selector or an overlap would have been refused
  have both : (roles.any fun binding => binding.role == .baseline) = true ∧
      (roles.any fun binding => binding.role == .candidate) = true :=
    ⟨List.any_eq_true.mpr ⟨_, among, beq_iff_eq.mpr role⟩,
      List.any_eq_true.mpr ⟨_, among', beq_iff_eq.mpr role'⟩⟩
  simp only [both, Bool.true_and, Bool.or_eq_false_iff] at free
  obtain ⟨⟨named, -⟩, apart⟩ := free
  have identity (binding) (member : binding ∈ roles) :
      (exactTableIdentity binding).isEmpty = false := by
    simpa using List.any_eq_false.mp named binding member
  refine ⟨tableSelectors_of_identity (identity _ among),
    tableSelectors_of_identity (identity _ among'), fun s member t member' column => ?_⟩
  have left := mem_roleSelectors.mpr ⟨baseline, among, role, member⟩
  have right := mem_roleSelectors.mpr ⟨candidate, among', role', member'⟩
  have separate := List.any_eq_false.mp apart s left
  simp only [Bool.not_eq_true, List.any_eq_false] at separate
  simpa [column] using separate t right

end Accepted

/-! ### Cells that are read -/

/-- The metric is read in this cell. -/
def ReadsMetric (table : DelimitedTable) (mappings : List (FieldMapping ut)) (row : Nat)
    (column : Str) : Prop :=
  ∃ metric rows, mappingFor (lit "metric_value") mappings = some metric ∧
    metricRows table metric.selector = .ok rows ∧ row ∈ rows ∧ metric.selector.expression = column

/-- A profile value is read in this cell. -/
def ReadsProfile (table : DelimitedTable) (mappings : List (FieldMapping ut)) (row : Nat)
    (column : Str) : Prop :=
  ∃ metric rows, mappingFor (lit "metric_value") mappings = some metric ∧
    metricRows table metric.selector = .ok rows ∧ row ∈ rows ∧
      ∃ mapping ∈ profileMappings mappings, mapping.selector.expression = column

section Read

variable (digit : CodePoint → Option Digit) (table : DelimitedTable)
  (mappings : List (FieldMapping ut))

/-- The cell of a row in the column of a mapping. -/
def mappedCell (index : Nat) (mapping : FieldMapping ut) : Str :=
  table.cell (table.rows.getD index []) mapping.selector.expression

/-- The metric and the profile values of an observation are those of the cells of one row. -/
structure ObservationRead (metric : FieldMapping ut) (index : Nat) (observation : ExtractedObservation) :
    Prop where
  metric : ∃ value, floatOfText digit (mappedCell table index metric) = some value ∧
    observation.metric = some (metric.selector.expression, value)
  configValues : observation.configValues.map (fun item => (item.key, item.value)) =
    (sortBy FieldMapping.targetField (profileMappings mappings)).map fun mapping =>
      (mapping.targetField, Json.str (mappedCell table index mapping))

/-- The metric and the profile values of all observations are those of the selected rows. -/
def EvidenceRead (evidence : ExtractedEvidence ut) : Prop :=
  ∃ metric rows, mappingFor (lit "metric_value") mappings = some metric ∧
    metricRows table metric.selector = .ok rows ∧
      List.Forall₂ (ObservationRead digit table mappings metric) rows evidence.observations

end Read

/-- What the cells of a mapping depend on. -/
def FieldMapping.place (mapping : FieldMapping ut) : Str × Str :=
  (mapping.targetField, mapping.selector.expression)

section Places

variable {mappings others : List (FieldMapping ut)}

theorem places_profile (same : mappings.map FieldMapping.place = others.map FieldMapping.place) :
    (profileMappings mappings).map FieldMapping.place =
      (profileMappings others).map FieldMapping.place := by
  have filtered (items : List (FieldMapping ut)) : (profileMappings items).map FieldMapping.place =
      (items.map FieldMapping.place).filter fun place => BENCHMARK_PROFILE_FIELDS.contains place.1 := by
    rw [List.filter_map]
    rfl
  rw [filtered, filtered, same]

theorem places_sorted (same : mappings.map FieldMapping.place = others.map FieldMapping.place) :
    (sortBy FieldMapping.targetField mappings).map FieldMapping.place =
      (sortBy FieldMapping.targetField others).map FieldMapping.place := by
  have sorted (items : List (FieldMapping ut)) :
      (sortBy FieldMapping.targetField items).map FieldMapping.place =
        sortBy Prod.fst (items.map FieldMapping.place) :=
    List.map_insertionSort _ _ _ _ fun _ _ _ _ => Iff.rfl
  rw [sorted, sorted, same]

theorem places_mappingFor (same : mappings.map FieldMapping.place = others.map FieldMapping.place)
    (target : Str) : (mappingFor target mappings).map FieldMapping.place =
      (mappingFor target others).map FieldMapping.place := by
  have found (items : List (FieldMapping ut)) : (mappingFor target items).map FieldMapping.place =
      (items.map FieldMapping.place).find? fun place => place.1 == target := by
    rw [List.find?_map]
    rfl
  rw [found, found, same]

end Places

/-! ### Extraction -/

section Extraction

variable {rt : Runtime} {digit : CodePoint → Option Digit} {errorText : Str → Str} {dialect : Dialect}
  {artifact : PassiveArtifact} {table : DelimitedTable} {found canonical : ProbeMatch ut}
  {mappings : List (FieldMapping ut)}

theorem canonicalTableMapping_place {mapping made : FieldMapping ut}
    (built : canonicalTableMapping rt dialect artifact mapping = .ok made) :
    made.place = mapping.place := by
  unfold canonicalTableMapping at built
  split at built
  · rw [Except.ok.inj built]
  next s selector =>
    obtain ⟨provenance, -, built⟩ := bind_ok_iff.mp built
    rw [← Except.ok.inj built, FieldMapping.place, FieldMapping.place, selector]
    rfl

theorem map_eq_of_mapM {ε α β γ : Type} {f : α → Except ε β} {g : α → γ} {h : β → γ}
    (each : ∀ item result, f item = .ok result → h result = g item) {items : List α}
    {results : List β} (made : items.mapM f = .ok results) : results.map h = items.map g := by
  have steps := mapM_ok_iff.mp made
  induction steps with
  | nil => rfl
  | cons here _ ih => rw [List.map_cons, List.map_cons, each _ _ here, ih (mapM_ok_iff.mpr ‹_›)]

theorem canonicalTableMatch_places
    (made : canonicalTableMatch rt dialect artifact found = .ok canonical) :
    canonical.mappings.map FieldMapping.place = found.mappings.map FieldMapping.place := by
  unfold canonicalTableMatch at made
  split at made
  · split at made
    · cases made
    next mappings built =>
      obtain ⟨evidence, -, made⟩ := bind_ok_iff.mp made
      rw [← Except.ok.inj made]
      exact map_eq_of_mapM (fun _ _ => canonicalTableMapping_place) built
  · rw [Except.ok.inj made]

theorem rowConfigValues_read {row : List Str} {provenance : FieldProvenance}
    {values : List ExtractedConfigValue}
    (made : rowConfigValues rt table row provenance mappings = .ok values) :
    values.map (fun item => (item.key, item.value)) =
      (sortBy FieldMapping.targetField (profileMappings mappings)).map fun mapping =>
        (mapping.targetField, Json.str (table.cell row mapping.selector.expression)) := by
  refine map_eq_of_mapM (fun mapping value built => ?_) made
  obtain ⟨-, built⟩ := rejectIf_then_iff.mp built
  obtain ⟨-, built⟩ := rejectIf_then_iff.mp built
  obtain ⟨-, built⟩ := check_then_iff.mp built
  rw [← Except.ok.inj built]

theorem rowObservation_read {metric : FieldMapping ut} {index : Nat}
    {observation : ExtractedObservation}
    (made : rowObservation rt digit dialect artifact table mappings metric index = .ok observation) :
    ObservationRead digit table mappings metric index observation := by
  obtain ⟨run, -, made⟩ := bind_ok_iff.mp made
  obtain ⟨seedText, -, made⟩ := bind_ok_iff.mp made
  obtain ⟨seed, -, made⟩ := bind_ok_iff.mp made
  obtain ⟨provenance, -, made⟩ := bind_ok_iff.mp made
  obtain ⟨configValues, profile, made⟩ := bind_ok_iff.mp made
  obtain ⟨value, number, made⟩ := bind_ok_iff.mp made
  have built := (mapError_ok_iff).mp made
  have read : floatOfText digit (mappedCell table index metric) = some value := by
    unfold finiteCsvNumber at number
    split at number
    · cases number
    next x same =>
      rw [← Except.ok.inj number]
      exact same
  rw [extractedObservation] at built
  split at built
  · cases built
  · rw [← Except.ok.inj built]
    exact ⟨⟨value, read, rfl⟩, rowConfigValues_read profile⟩

/-- A row that is read with mappings of the same places is read with these. -/
theorem ObservationRead.congr {others : List (FieldMapping ut)} {metric other : FieldMapping ut} {index : Nat}
    {observation : ExtractedObservation}
    (read : ObservationRead digit table others other index observation)
    (same : others.map FieldMapping.place = mappings.map FieldMapping.place)
    (place : other.place = metric.place) :
    ObservationRead digit table mappings metric index observation := by
  have expression : other.selector.expression = metric.selector.expression := congrArg Prod.snd place
  refine ⟨?_, ?_⟩
  · obtain ⟨value, number, metric⟩ := read.metric
    rw [mappedCell, expression] at number
    exact ⟨value, number, expression ▸ metric⟩
  · -- the values are a function of the places
    have values (items : List (FieldMapping ut)) : (items.map fun mapping =>
        (mapping.targetField, Json.str (mappedCell table index mapping))) =
        (items.map FieldMapping.place).map fun place =>
          (place.1, Json.str (table.cell (table.rows.getD index []) place.2)) := by
      rw [List.map_map]
      rfl
    rw [read.configValues, values, values, places_sorted (places_profile same)]

theorem extractRows_read {evidence : ExtractedEvidence ut}
    (made : extractRows rt digit dialect artifact table found found.mappings = .ok evidence) :
    ∃ metric, mappingFor (lit "metric_value") found.mappings = some metric ∧
      (∀ mapping ∈ found.mappings, mapping.targetField ∈ [lit "run_id", lit "seed"] →
        mapping.selector.isTable = false) ∧
      checkProfileSelectors metric.selector found.mappings = .ok () ∧
      EvidenceRead digit table found.mappings evidence := by
  unfold extractRows at made
  split at made
  · cases made
  next metric selected =>
    obtain ⟨-, made⟩ := check_then_iff.mp made
    obtain ⟨identifiers, made⟩ := rejectIf_then_iff.mp made
    obtain ⟨profile, made⟩ := check_then_iff.mp made
    obtain ⟨rows, chosen, made⟩ := bind_ok_iff.mp made
    obtain ⟨canonical, built, made⟩ := bind_ok_iff.mp made
    split at made
    · cases made
    next other selected' =>
      obtain ⟨observations, each, made⟩ := bind_ok_iff.mp made
      have places := canonicalTableMatch_places built
      have place : other.place = metric.place := by
        have same := places_mappingFor places (lit "metric_value")
        rw [selected, selected'] at same
        exact Option.some.inj same
      refine ⟨metric, selected, fun mapping member target => ?_, profile, metric, rows, selected, chosen,
        ?_⟩
      · have plain := List.any_eq_false.mp identifiers mapping member
        rw [Bool.and_eq_true_iff, List.contains_iff_mem] at plain
        exact Bool.eq_false_iff.mpr fun isTable => plain ⟨target, isTable⟩
      · rw [← Except.ok.inj made]
        exact (mapM_ok_iff.mp each).imp fun _ _ read => (rowObservation_read read).congr places place

/-- The metric and the profile values are read in the rows that one table selector selects. -/
def ExactRows (mappings : List (FieldMapping ut)) : Prop :=
  ∃ metric s, mappingFor (lit "metric_value") mappings = some metric ∧ metric.selector = .table s ∧
    ∀ mapping ∈ profileMappings mappings, ∃ t, mapping.selector = .table t ∧
      predicatesEq t.predicates s.predicates = true

theorem validateMatch_ok {adapterId : Str} {kind : SelectorKind} {allowed : List Str}
    (valid : validateMatch rt artifact found adapterId kind allowed = .ok mappings) :
    mappings = found.mappings ∧ ∀ mapping ∈ found.mappings, mapping.targetField ∈ allowed := by
  obtain ⟨-, valid⟩ := rejectIf_then_iff.mp valid
  obtain ⟨-, valid⟩ := rejectIf_then_iff.mp valid
  obtain ⟨-, valid⟩ := check_then_iff.mp valid
  obtain ⟨each, valid⟩ := check_then_iff.mp valid
  refine ⟨(Except.ok.inj valid).symm, fun mapping member => ?_⟩
  obtain ⟨allowed, -⟩ := rejectIf_then_iff.mp (forM_ok_iff.mp each mapping member)
  simpa using allowed

/-- A selection of profile cells goes with a metric that selects the same rows. -/
theorem exactRows_of_checked {metric : FieldMapping ut} (exact : tableSelectors mappings ≠ [])
    (distinct : (mappings.map FieldMapping.targetField).Nodup)
    (selected : mappingFor (lit "metric_value") mappings = some metric)
    (known : ∀ mapping ∈ mappings, mapping.targetField ∈ TABLE_TARGETS)
    (identifiers : ∀ mapping ∈ mappings, mapping.targetField ∈ [lit "run_id", lit "seed"] →
      mapping.selector.isTable = false)
    (checked : checkProfileSelectors metric.selector mappings = .ok ()) : ExactRows mappings := by
  cases selector : metric.selector with
  | table s =>
    refine ⟨metric, s, selected, selector, fun mapping member => ?_⟩
    rw [selector] at checked
    obtain ⟨tables, checked⟩ := rejectIf_then_iff.mp checked
    have same := List.any_eq_false.mp (rejectIf_ok_iff.mp checked) mapping member
    cases profile : mapping.selector with
    | field t =>
      rw [profile] at same
      exact absurd rfl same
    | table t =>
      rw [profile] at same
      refine ⟨t, rfl, ?_⟩
      simp only [Bool.or_eq_true, not_or] at same
      simpa using same.1
  | field s =>
    -- then no mapping is for a profile, and the others have no table selector
    exfalso
    rw [selector] at checked
    have noProfile : profileMappings mappings = [] := by simpa using rejectIf_ok_iff.mp checked
    obtain ⟨t, inside⟩ := List.exists_mem_of_ne_nil _ exact
    obtain ⟨mapping, member, table⟩ := mem_tableSelectors.mp inside
    have isTable : mapping.selector.isTable = true := by rw [table]; rfl
    rcases List.mem_append.mp (known mapping member) with plain | profile
    · rcases List.mem_cons.mp plain with target | identifier
      · have same := (mappingFor_eq_some_iff distinct).mpr ⟨member, target⟩
        rw [selected] at same
        rw [← Option.some.inj same, selector] at table
        cases table
      · rw [identifiers mapping member identifier] at isTable
        cases isTable
    · have among : mapping ∈ profileMappings mappings :=
        List.mem_filter.mpr ⟨member, List.contains_iff_mem.mpr profile⟩
      rw [noProfile] at among
      cases among

theorem extractTable_read {evidence : ExtractedEvidence ut}
    (made : extractTable rt digit errorText dialect artifact found = .ok evidence)
    (exact : tableSelectors found.mappings ≠ []) :
    ∃ table, dialect.parse errorText artifact.content = .ok table ∧
      EvidenceRead digit table found.mappings evidence ∧ ExactRows found.mappings := by
  obtain ⟨-, made⟩ := check_then_iff.mp made
  obtain ⟨table, parsed, made⟩ := bind_ok_iff.mp made
  obtain ⟨mappings, valid, made⟩ := bind_ok_iff.mp made
  obtain ⟨rfl, known⟩ := validateMatch_ok valid
  obtain ⟨metric, selected, identifiers, checked, read⟩ := extractRows_read made
  exact ⟨table, parsed, read,
    exactRows_of_checked exact found.targets selected known identifiers checked⟩

end Extraction

/-! ### Isolation of the roles -/

/-- Equal predicates of the table selectors have one canonical value; an integer and a float that
are equal need not. -/
def CanonicalPredicates (mappings : List (FieldMapping ut)) : Prop :=
  ∀ s ∈ tableSelectors mappings, ∀ t ∈ tableSelectors mappings,
    predicatesEq s.predicates t.predicates = true →
      s.predicates.map TablePredicate.canonicalValue = t.predicates.map TablePredicate.canonicalValue

theorem tableCellMatches_of_canonical {p q : TablePredicate ut} (same : p.eq q = true)
    (canonical : p.canonicalValue = q.canonicalValue) (cell : Str) :
    tableCellMatches cell p = .ok true ↔ tableCellMatches cell q = .ok true := by
  simp only [TablePredicate.eq, Bool.and_eq_true, beq_iff_eq] at same
  obtain ⟨⟨column, kind⟩, -⟩ := same
  cases left : p.scalarType with
  | string =>
    rw [tableCellMatches_plain (.inl left), tableCellMatches_plain (.inl (kind ▸ left)), canonical]
  | boolean =>
    rw [tableCellMatches_plain (.inr left), tableCellMatches_plain (.inr (kind ▸ left)), canonical]
  | number => rw [tableCellMatches_congr left (kind ▸ left) column canonical]
  | null =>
    exact iff_of_false (tableCellMatches_null left) (tableCellMatches_null (kind ▸ left))

/-- Equal predicates with equal canonical values match the same rows. -/
theorem rowMatches_of_canonical {ps qs : List (TablePredicate ut)} (same : predicatesEq ps qs = true)
    (canonical : ps.map TablePredicate.canonicalValue = qs.map TablePredicate.canonicalValue)
    (cell : Str → Str) : (∀ p ∈ ps, tableCellMatches (cell p.column) p = .ok true) ↔
      ∀ q ∈ qs, tableCellMatches (cell q.column) q = .ok true := by
  induction ps generalizing qs with
  | nil =>
    cases qs with
    | nil => rfl
    | cons q qs => cases same
  | cons p ps ih =>
    cases qs with
    | nil => cases same
    | cons q qs =>
      obtain ⟨here, later⟩ := Bool.and_eq_true_iff.mp same
      obtain ⟨head, tail⟩ := List.cons.inj canonical
      have column : p.column = q.column := by
        simp only [TablePredicate.eq, Bool.and_eq_true, beq_iff_eq] at here
        exact here.1.1
      rw [List.forall_mem_cons, List.forall_mem_cons, ih later tail, column,
        tableCellMatches_of_canonical here head]

section Isolation

variable {table : DelimitedTable} {mappings : List (FieldMapping ut)} {row : Nat} {column : Str}

theorem ReadsMetric.selector (exact : ExactRows mappings)
    (read : ReadsMetric table mappings row column) :
    ∃ s ∈ tableSelectors mappings, s.column = column ∧ s.MeetsRow table row := by
  obtain ⟨metric, s, selected, selector, -⟩ := exact
  obtain ⟨other, rows, again, chosen, inside, named⟩ := read
  obtain rfl := Option.some.inj (selected.symm.trans again)
  rw [selector] at chosen named
  exact ⟨s, mem_tableSelectors.mpr ⟨metric, List.mem_of_find?_eq_some selected, selector⟩, named,
    selectedRow chosen inside⟩

theorem ReadsProfile.selector (exact : ExactRows mappings)
    (canonical : CanonicalPredicates mappings) (read : ReadsProfile table mappings row column) :
    ∃ s ∈ tableSelectors mappings, s.column = column ∧ s.MeetsRow table row := by
  obtain ⟨metric, s, selected, selector, profile⟩ := exact
  obtain ⟨other, rows, again, chosen, inside, mapping, member, named⟩ := read
  obtain rfl := Option.some.inj (selected.symm.trans again)
  obtain ⟨t, table, same⟩ := profile mapping member
  have known := mem_tableSelectors.mpr ⟨metric, List.mem_of_find?_eq_some selected, selector⟩
  have known' := mem_tableSelectors.mpr ⟨mapping, (List.mem_filter.mp member).1, table⟩
  rw [selector] at chosen
  rw [table] at named
  obtain ⟨cells, there, meets⟩ := selectedRow chosen inside
  exact ⟨t, known', named, cells, there,
    (rowMatches_of_canonical same (canonical t known' s known same) _).mpr meets⟩

end Isolation

/-- What an accepted mapping extracts of one file for the two roles is what the file has in the cells
that are read for each. No cell gives both roles their metrics. If equal predicates of a role have one
canonical value, no cell gives both a metric or a profile value. -/
theorem roleIsolation {bindings : List (ArtifactBinding ut)} {label : Str}
    {baseline candidate : ArtifactBinding ut} (accepted : validateBindings bindings label = .ok ())
    (inside : baseline ∈ bindings) (inside' : candidate ∈ bindings)
    (role : baseline.role = .baseline) (role' : candidate.role = .candidate)
    (path : baseline.path = candidate.path) {rt : Runtime} {digit : CodePoint → Option Digit}
    {errorText : Str → Str} {dialect : Dialect} {artifact : PassiveArtifact} {found other : ProbeMatch ut}
    (mapped : found.mappings = baseline.mappings) (mapped' : other.mappings = candidate.mappings)
    {evidence others : ExtractedEvidence ut}
    (made : extractTable rt digit errorText dialect artifact found = .ok evidence)
    (made' : extractTable rt digit errorText dialect artifact other = .ok others) :
    ∃ table, dialect.parse errorText artifact.content = .ok table ∧
      EvidenceRead digit table baseline.mappings evidence ∧
      EvidenceRead digit table candidate.mappings others ∧
      ∀ row column,
        ¬ (ReadsMetric table baseline.mappings row column ∧
          ReadsMetric table candidate.mappings row column) ∧
        (CanonicalPredicates baseline.mappings → CanonicalPredicates candidate.mappings →
          ¬ ((ReadsMetric table baseline.mappings row column ∨
              ReadsProfile table baseline.mappings row column) ∧
            (ReadsMetric table candidate.mappings row column ∨
              ReadsProfile table candidate.mappings row column))) := by
  obtain ⟨exact, exact', apart⟩ := validateBindings_roles accepted inside inside' role role' path
  rw [← mapped] at exact apart ⊢
  rw [← mapped'] at exact' apart ⊢
  obtain ⟨table, parsed, read, rows⟩ := extractTable_read made exact
  obtain ⟨again, parsed', read', rows'⟩ := extractTable_read made' exact'
  obtain rfl := Except.ok.inj (parsed.symm.trans parsed')
  -- selectors of one column select different rows
  have separate {row : Nat} {column : Str}
      (left : ∃ s ∈ tableSelectors found.mappings, s.column = column ∧ s.MeetsRow table row)
      (right : ∃ t ∈ tableSelectors other.mappings, t.column = column ∧ t.MeetsRow table row) :
      False := by
    obtain ⟨s, member, named, meets⟩ := left
    obtain ⟨t, member', named', meets'⟩ := right
    exact rowDisjoint_sound (apart s member t member' (named.trans named'.symm)) meets meets'
  refine ⟨table, parsed, read, read', fun row column => ⟨?_, fun canonical canonical' => ?_⟩⟩
  · rintro ⟨left, right⟩
    exact separate (left.selector rows) (right.selector rows')
  · rintro ⟨left, right⟩
    exact separate (left.elim (ReadsMetric.selector rows) (ReadsProfile.selector rows canonical))
      (right.elim (ReadsMetric.selector rows') (ReadsProfile.selector rows' canonical'))

end Bindings

/-! ### One table for both roles -/

/-- The provenance of the selections in the file. -/
def rowsProvenance : FieldProvenance :=
  (adapterProvenance twoRowsArtifact "claimci-csv-v1" [] false).toOption.getD
    (lossWhere tenEpochs).provenance

/-- The run of a name. -/
def runPredicate (name : Str)
    (checked : predicateCanonical asciiTables .string (.str name) = .ok name) :
    TablePredicate asciiTables :=
  ⟨"run", .string, .str name, name, by decide, checked⟩

def firstRun : TablePredicate asciiTables := runPredicate "a" rfl

def secondRun : TablePredicate asciiTables := runPredicate "b" rfl

/-- The accuracy in the one row that meets a predicate. -/
def accuracyWhere (predicate : TablePredicate asciiTables) : TableSelector asciiTables :=
  { lossWhere predicate with
    column := "accuracy"
    columnNamed := by decide
    provenance := rowsProvenance }

def accuracyMapping (target : Str) (predicate : TablePredicate asciiTables) :
    FieldMapping asciiTables :=
  ⟨target, .table (accuracyWhere predicate), rowsProvenance⟩

def roleBinding (role : ExperimentRole) (mappings : List (FieldMapping asciiTables))
    (targets : (mappings.map FieldMapping.targetField).Nodup) : ArtifactBinding asciiTables :=
  ⟨"results.csv", .results, role, some "claimci-csv-v1", mappings, rowsProvenance, none, targets,
    fun _ => rfl⟩

/-- The name of the run in that row. -/
def runWhere (predicate : TablePredicate asciiTables) : TableSelector asciiTables :=
  { accuracyWhere predicate with
    column := "run"
    columnNamed := by decide }

/-- The metric and a profile value of one row. -/
def runMappings (predicate : TablePredicate asciiTables) : List (FieldMapping asciiTables) :=
  [accuracyMapping "metric_value" predicate,
    ⟨"benchmark.subject.id", .table (runWhere predicate), rowsProvenance⟩]

theorem runMappings_targets (predicate : TablePredicate asciiTables) :
    ((runMappings predicate).map FieldMapping.targetField).Nodup := by
  simp [runMappings, accuracyMapping, lit_inj]

/-- Both selectors have the same predicate. -/
theorem runMappings_canonical (predicate : TablePredicate asciiTables) :
    CanonicalPredicates (runMappings predicate) := by
  have only : ∀ s ∈ tableSelectors (runMappings predicate), s.predicates = [predicate] := by
    simp [tableSelectors, runMappings, accuracyMapping, accuracyWhere, runWhere, lossWhere]
  intro s member t member' _
  rw [only s member, only t member']

theorem runMappings_profile (predicate : TablePredicate asciiTables) :
    profileMappings (runMappings predicate) =
      [⟨"benchmark.subject.id", .table (runWhere predicate), rowsProvenance⟩] := by
  simp [profileMappings, runMappings, accuracyMapping, BENCHMARK_PROFILE_FIELDS, lit_inj]

def runMatch (predicate : TablePredicate asciiTables) : ProbeMatch asciiTables :=
  ⟨⟨"claimci-csv-v1", runMappings predicate, runMappings_targets predicate⟩,
    ⟨"results.csv", csvPath⟩, ⟨Binary64.zero false, by decide⟩, []⟩

def rowsTable : DelimitedTable :=
  ⟨["accuracy", "run"], [["0.9", "a"], ["0.8", "b"]], by decide, by decide⟩

theorem rowsTable_parsed : TabularFormat.csv.dialect.parse id twoRows = .ok rowsTable := by
  obtain ⟨table, parsed, read⟩ := ok_of_any (by decide +kernel :
    (TabularFormat.csv.dialect.parse id twoRows).toOption.any (fun table =>
      decide (table.header = rowsTable.header ∧ table.rows = rowsTable.rows)) = true)
  obtain ⟨header, rows⟩ := of_decide_eq_true read
  cases table
  cases header
  cases rows
  exact parsed

/-- The accuracies and the names of two runs come from different cells. -/
theorem roleIsolation_runs :
    ∃ evidence others : ExtractedEvidence asciiTables,
      extractTable twoRowsRuntime (fun _ => none) id TabularFormat.csv.dialect twoRowsArtifact
        (runMatch firstRun) = .ok evidence ∧
      extractTable twoRowsRuntime (fun _ => none) id TabularFormat.csv.dialect twoRowsArtifact
        (runMatch secondRun) = .ok others ∧
      EvidenceRead (fun _ => none) rowsTable (runMappings firstRun) evidence ∧
      EvidenceRead (fun _ => none) rowsTable (runMappings secondRun) others ∧
      ReadsMetric rowsTable (runMappings firstRun) 0 "accuracy" ∧
      ReadsProfile rowsTable (runMappings firstRun) 0 "run" ∧
      ∀ row column, ¬ ((ReadsMetric rowsTable (runMappings firstRun) row column ∨
          ReadsProfile rowsTable (runMappings firstRun) row column) ∧
        (ReadsMetric rowsTable (runMappings secondRun) row column ∨
          ReadsProfile rowsTable (runMappings secondRun) row column)) := by
  have checked : validateBindings [
        roleBinding .baseline (runMappings firstRun) (runMappings_targets _),
        roleBinding .candidate (runMappings secondRun) (runMappings_targets _)]
          "mapping bindings" = .ok () ∧
      selectedRowIndices rowsTable (accuracyWhere firstRun) = .ok [0] := by
    decide +kernel
  obtain ⟨accepted, first⟩ := checked
  obtain ⟨evidence, made, -⟩ := ok_of_any (by decide +kernel :
    (extractTable twoRowsRuntime (fun _ => none) id TabularFormat.csv.dialect twoRowsArtifact
      (runMatch firstRun)).toOption.any (fun _ => true) = true)
  obtain ⟨others, made', -⟩ := ok_of_any (by decide +kernel :
    (extractTable twoRowsRuntime (fun _ => none) id TabularFormat.csv.dialect twoRowsArtifact
      (runMatch secondRun)).toOption.any (fun _ => true) = true)
  -- the general theorem, at one table bound in both roles
  obtain ⟨table, parsed, read, read', apart⟩ := roleIsolation accepted List.mem_cons_self
    (List.mem_cons_of_mem _ List.mem_cons_self) rfl rfl rfl rfl rfl made made'
  obtain rfl := Except.ok.inj (parsed.symm.trans rowsTable_parsed)
  refine ⟨evidence, others, made, made', read, read', ?_, ?_, fun row column =>
    (apart row column).2 (runMappings_canonical firstRun) (runMappings_canonical secondRun)⟩
  · exact ⟨_, [0], rfl, first, List.mem_cons_self, rfl⟩
  · exact ⟨_, [0], rfl, first, List.mem_cons_self, _,
      by rw [runMappings_profile]; exact List.mem_cons_self, rfl⟩

/-! ### An integer and an equal float -/

theorem integer_canonical : canonicalTableNumber (.int (2 ^ 60)) = .ok "1152921504606846976" := by
  decide +kernel

def integerEpochs : TablePredicate asciiTables :=
  epochPredicate asciiTables (.int (2 ^ 60)) "1152921504606846976" integer_canonical

theorem float_canonical :
    canonicalTableNumber (.float ((Binary64.ofInt (2 ^ 60)).getD (Binary64.zero false))) =
      .ok "1.152921504606847E+18" := by
  decide +kernel

def floatEpochs : TablePredicate asciiTables :=
  epochPredicate asciiTables (.float ((Binary64.ofInt (2 ^ 60)).getD (Binary64.zero false)))
    "1.152921504606847E+18" float_canonical

/-- The loss where the epochs are an integer, and a profile value where they are an equal float. -/
def mixedMappings : List (FieldMapping asciiTables) :=
  [⟨"metric_value", .table (lossWhere integerEpochs), rowsProvenance⟩,
    accuracyMapping "benchmark.subject.id" floatEpochs]

theorem mixedMappings_targets : (mixedMappings.map FieldMapping.targetField).Nodup := by
  simp [mixedMappings, accuracyMapping, lit_inj]

def mixedTable : DelimitedTable :=
  ⟨["epochs", "loss", "accuracy"], [["1152921504606846976", "0.5", "0.9"]], by decide, by decide⟩

/-- Without one canonical value, the profile value of the baseline may be the metric of the
candidate. -/
theorem roleIsolation_mixed :
    validateBindings [roleBinding .baseline mixedMappings mixedMappings_targets,
        roleBinding .candidate [accuracyMapping "metric_value" integerEpochs]
          (List.nodup_singleton _)] "mapping bindings" = .ok () ∧
      checkProfileSelectors (.table (lossWhere integerEpochs)) mixedMappings = .ok () ∧
      ReadsProfile mixedTable mixedMappings 0 "accuracy" ∧
      ReadsMetric mixedTable [accuracyMapping "metric_value" integerEpochs] 0 "accuracy" := by
  have profile : profileMappings mixedMappings =
      [accuracyMapping "benchmark.subject.id" floatEpochs] := by
    simp [profileMappings, mixedMappings, accuracyMapping, BENCHMARK_PROFILE_FIELDS, lit_inj]
  have checked : (validateBindings [roleBinding .baseline mixedMappings mixedMappings_targets,
        roleBinding .candidate [accuracyMapping "metric_value" integerEpochs]
          (List.nodup_singleton _)] "mapping bindings" = .ok () ∧
      predicatesEq [floatEpochs] [integerEpochs] = true) ∧
      selectedRowIndices mixedTable (lossWhere integerEpochs) = .ok [0] := by
    decide +kernel
  obtain ⟨⟨accepted, equal⟩, rows⟩ := checked
  refine ⟨accepted, ?_, ?_, ?_⟩
  · rw [checkProfileSelectors, profile]
    refine rejectIf_then_iff.mpr ⟨rfl, rejectIf_ok_iff.mpr ?_⟩
    simp [accuracyMapping, accuracyWhere, lossWhere, equal]
  · exact ⟨_, [0], rfl, rows, List.mem_cons_self, _, by rw [profile]; exact List.mem_cons_self, rfl⟩
  · exact ⟨_, [0], rfl, rows, List.mem_cons_self, rfl⟩

end ClaimCI
