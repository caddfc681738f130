import ClaimCI.BenchmarkAudit

/-!
# Benchmark projection

What the projection of the config values of one role holds, and when there is one: every value is
recovered, and values of one key have one canonical text.
-/

open Python

namespace ClaimCI

section Projection

variable {digit : CodePoint → Option Digit}

/-- The dictionary of `_config_projection` after some config values: every one of them is there with
its canonical text, and nothing else is. -/
structure Projected (digit : CodePoint → Option Digit) (configs : List ConfigValue)
    (values : List (Str × JsonScalar × Str)) : Prop where
  recovered : ∀ config ∈ configs, config.key ∈ BENCHMARK_PROFILE_FIELDS →
    ∃ value stored canonical, recoverComponent digit config = .ok (value, canonical) ∧
      lookupKey config.key values = some (stored, canonical)
  stated : ∀ key value canonical, lookupKey key values = some (value, canonical) →
    key ∈ BENCHMARK_PROFILE_FIELDS ∧
      ∃ config ∈ configs, config.key = key ∧ recoverComponent digit config = .ok (value, canonical)

theorem Projected.nil : Projected digit [] [] where
  recovered := by simp
  stated := by simp [lookupKey]

/-- The config value is recovered, and its canonical text is the one that is there already. -/
def Admitted (digit : CodePoint → Option Digit) (values : List (Str × JsonScalar × Str))
    (config : ConfigValue) : Prop :=
  config.key ∈ BENCHMARK_PROFILE_FIELDS → ∃ value canonical,
    recoverComponent digit config = .ok (value, canonical) ∧
      ∀ previous ∈ lookupKey config.key values, previous.2 = canonical

variable (digit) in
/-- What one config value does to the dictionary. -/
theorem projectConfig_cases (values : List (Str × JsonScalar × Str)) (config : ConfigValue) :
    (Admitted digit values config ∧
      ((config.key ∉ BENCHMARK_PROFILE_FIELDS ∧ projectConfig digit values config = .ok values) ∨
        ∃ value canonical, config.key ∈ BENCHMARK_PROFILE_FIELDS ∧
          recoverComponent digit config = .ok (value, canonical) ∧
          projectConfig digit values config =
            .ok (setKey config.key (value, canonical) values))) ∨
      (¬ Admitted digit values config ∧
        ∃ error, projectConfig digit values config = .error error) := by
  unfold projectConfig Admitted
  -- a key outside the profile is kept as it is
  by_cases field : config.key ∈ BENCHMARK_PROFILE_FIELDS
  · rw [if_neg (by simp [field])]
    cases found : recoverComponent digit config with
    | error error =>
      right
      refine ⟨fun admitted => ?_, error, rfl⟩
      obtain ⟨value, canonical, recovered, -⟩ := admitted field
      cases recovered
    | ok recovered =>
      obtain ⟨value, canonical⟩ := recovered
      -- the first statement of a field stands, a later one has to agree
      cases there : lookupKey config.key values with
      | none =>
        left
        exact ⟨fun _ => ⟨value, canonical, rfl, by simp⟩, .inr ⟨value, canonical, field, rfl, rfl⟩⟩
      | some previous =>
        by_cases same : previous.2 = canonical
        · left
          refine ⟨fun _ => ⟨value, canonical, rfl, ?_⟩, .inr ⟨value, canonical, field, rfl, ?_⟩⟩
          · intro other member
            cases member
            exact same
          · change (if previous.2 ≠ canonical then _ else _) = _
            rw [if_neg (not_not.mpr same)]
        · right
          refine ⟨fun admitted => ?_, conflictingComponent config.key, if_pos same⟩
          obtain ⟨_, _, recovered, agrees⟩ := admitted field
          cases recovered
          exact same (agrees previous rfl)
  · left
    rw [if_pos (by simp [field])]
    exact ⟨fun inside => absurd inside field, .inl ⟨field, rfl⟩⟩

theorem Projected.step {configs : List ConfigValue} {values result : List (Str × JsonScalar × Str)}
    {config : ConfigValue} (projected : Projected digit configs values)
    (made : projectConfig digit values config = .ok result) :
    Projected digit (configs ++ [config]) result := by
  rcases projectConfig_cases digit values config with
    ⟨admitted, kept | added⟩ | ⟨-, error, failed⟩
  · -- the key is no field of the profile
    obtain ⟨outside, same⟩ := kept
    obtain rfl := Except.ok.inj (same.symm.trans made)
    constructor
    · intro other member field
      rcases List.mem_append.mp member with old | new
      · exact projected.recovered other old field
      · obtain rfl := List.mem_singleton.mp new
        exact absurd field outside
    · intro key value canonical found
      obtain ⟨field, source, member, named, recovered⟩ := projected.stated key value canonical found
      exact ⟨field, source, List.mem_append_left _ member, named, recovered⟩
  -- the field is set; what an earlier evidence stated of it is canonically the same
  · obtain ⟨value, canonical, field, recovered, set⟩ := added
    obtain rfl := Except.ok.inj (set.symm.trans made)
    obtain ⟨again, text, repeated, agrees⟩ := admitted field
    obtain ⟨-, rfl⟩ := Prod.mk.inj (Except.ok.inj (recovered.symm.trans repeated))
    constructor
    · intro other member inside
      rw [lookupKey_setKey]
      rcases List.mem_append.mp member with old | new
      · obtain ⟨otherValue, stored, text, found, there⟩ := projected.recovered other old inside
        split
        next same =>
          have equal : text = canonical := agrees _ (same ▸ there)
          exact ⟨otherValue, value, text, found, by rw [equal]⟩
        · exact ⟨otherValue, stored, text, found, there⟩
      · obtain rfl := List.mem_singleton.mp new
        exact ⟨value, value, canonical, recovered, by rw [if_pos rfl]⟩
    · intro key other text found
      rw [lookupKey_setKey] at found
      split at found
      next same =>
        obtain ⟨rfl, rfl⟩ := Prod.mk.inj (Option.some.inj found)
        subst same
        exact ⟨field, config, List.mem_append_right _ (List.mem_singleton_self _), rfl, recovered⟩
      · obtain ⟨inside, source, member, named, again⟩ := projected.stated key other text found
        exact ⟨inside, source, List.mem_append_left _ member, named, again⟩
  · rw [failed] at made
    cases made

/-- A run of the projection, from any dictionary. -/
theorem Projected.run {done : List ConfigValue} (rest : List ConfigValue)
    {values result : List (Str × JsonScalar × Str)} (projected : Projected digit done values)
    (made : rest.foldlM (projectConfig digit) values = .ok result) :
    Projected digit (done ++ rest) result := by
  induction rest generalizing done values with
  | nil =>
    obtain rfl := Except.ok.inj made
    rwa [List.append_nil]
  | cons config rest ih =>
    rw [List.foldlM_cons] at made
    obtain ⟨next, first, made⟩ := bind_ok_iff.mp made
    have more := ih (projected.step first) made
    rwa [List.append_assoc, List.singleton_append] at more

/-! ### When there is a projection -/

/-- A field without a number semantics is recovered as it is stated. -/
theorem canonicalProfileScalar_plain {key : Str} (notPositive : key ∉ POSITIVE_INTEGER_FIELDS)
    (notNonnegative : key ∉ NONNEGATIVE_INTEGER_FIELDS) (notDecimal : key ∉ DECIMAL_FIELDS)
    (value : JsonScalar) : canonicalProfileScalar digit key value = some value := by
  rw [canonicalProfileScalar, if_neg, if_neg]
  · simpa using notDecimal
  · simp [notPositive, notNonnegative]

/-- Every field of the profile that the evidence states is recovered. -/
def AllRecoverable (digit : CodePoint → Option Digit) (configs : List ConfigValue) : Prop :=
  ∀ config ∈ configs, config.key ∈ BENCHMARK_PROFILE_FIELDS →
    ∃ recovered, recoverComponent digit config = .ok recovered

/-- No two values of one field have different canonical texts. -/
def WithoutConflict (digit : CodePoint → Option Digit) (configs : List ConfigValue) : Prop :=
  ∀ config ∈ configs, ∀ other ∈ configs, config.key = other.key →
    config.key ∈ BENCHMARK_PROFILE_FIELDS → ∀ recovered again,
      recoverComponent digit config = .ok recovered → recoverComponent digit other = .ok again →
        recovered.2 = again.2

/-- Values of distinct fields are without a conflict. -/
theorem withoutConflict_of_nodup {configs : List ConfigValue}
    (distinct : (configs.map fun config => config.key).Nodup) : WithoutConflict digit configs := by
  intro config member other inside same _ recovered again first second
  obtain rfl := List.inj_on_of_nodup_map distinct member inside same
  rw [Except.ok.inj (first.symm.trans second)]

theorem run_returns {done : List ConfigValue} (rest : List ConfigValue)
    {values : List (Str × JsonScalar × Str)} (projected : Projected digit done values)
    (recoverable : AllRecoverable digit rest)
    (conflictFree : WithoutConflict digit (done ++ rest)) :
    ∃ result, rest.foldlM (projectConfig digit) values = .ok result := by
  induction rest generalizing done values with
  | nil => exact ⟨values, rfl⟩
  | cons config rest ih =>
    rw [List.foldlM_cons]
    have here : config ∈ done ++ config :: rest :=
      List.mem_append_right _ List.mem_cons_self
    have admitted : Admitted digit values config := by
      intro field
      obtain ⟨⟨value, canonical⟩, recovered⟩ := recoverable config List.mem_cons_self field
      refine ⟨value, canonical, recovered, ?_⟩
      rintro ⟨stored, text⟩ there
      obtain ⟨-, source, member, named, again⟩ := projected.stated config.key stored text there
      exact conflictFree source (List.mem_append_left _ member) config here named
        (named ▸ field) _ _ again recovered
    have made : ∃ next, projectConfig digit values config = .ok next := by
      rcases projectConfig_cases digit values config with
        ⟨-, ⟨-, same⟩ | ⟨_, _, _, _, set⟩⟩ | ⟨refused, -⟩
      · exact ⟨_, same⟩
      · exact ⟨_, set⟩
      · exact absurd admitted refused
    obtain ⟨next, first⟩ := made
    rw [first]
    apply ih (projected.step first)
    · exact fun other member => recoverable other (List.mem_cons_of_mem _ member)
    · rwa [List.append_assoc, List.singleton_append]

theorem Projected.allRecoverable {configs : List ConfigValue}
    {values : List (Str × JsonScalar × Str)} (projected : Projected digit configs values) :
    AllRecoverable digit configs := by
  intro config member field
  obtain ⟨value, -, canonical, recovered, -⟩ := projected.recovered config member field
  exact ⟨_, recovered⟩

theorem configProjection_ok {evidence : List BenchmarkEvidence} {config : List (Str × JsonScalar)}
    (made : configProjection digit evidence = .ok config) :
    ∃ values, Projected digit (benchmarkConfigs evidence) values ∧
      config = values.map fun entry => (entry.1, entry.2.1) := by
  unfold configProjection at made
  obtain ⟨values, run, made⟩ := bind_ok_iff.mp made
  exact ⟨values, Projected.nil.run _ run, (Except.ok.inj made).symm⟩

/-- Evidence without conflicting values is projected exactly if every field is recovered. -/
theorem configProjection_returns_iff {evidence : List BenchmarkEvidence}
    (conflictFree : WithoutConflict digit (benchmarkConfigs evidence)) :
    (∃ config, configProjection digit evidence = .ok config) ↔
      AllRecoverable digit (benchmarkConfigs evidence) := by
  constructor
  · rintro ⟨config, made⟩
    obtain ⟨values, projected, -⟩ := configProjection_ok made
    exact projected.allRecoverable
  · intro recoverable
    obtain ⟨values, run⟩ := run_returns (benchmarkConfigs evidence) Projected.nil recoverable
      conflictFree
    exact ⟨_, by rw [configProjection, run]; rfl⟩

theorem lookupKey_map {α β : Type} (f : α → β) (key : Str) (dict : List (Str × α)) :
    lookupKey key (dict.map fun entry => (entry.1, f entry.2)) = (lookupKey key dict).map f := by
  induction dict with
  | nil => rfl
  | cons entry dict ih =>
    rw [List.map_cons, lookupKey_cons, lookupKey_cons, ih]
    split <;> rfl

/-- A stated field is looked up as a value with the same canonical text, and that value is itself
recovered from the evidence. -/
theorem lookupKey_projection {evidence : List BenchmarkEvidence} {config : List (Str × JsonScalar)}
    (made : configProjection digit evidence = .ok config) {stated : ConfigValue}
    (member : stated ∈ benchmarkConfigs evidence)
    (field : stated.key ∈ BENCHMARK_PROFILE_FIELDS) :
    ∃ value canonical stored source, recoverComponent digit stated = .ok (value, canonical) ∧
      lookupKey stated.key config = some stored ∧ source ∈ benchmarkConfigs evidence ∧
      source.key = stated.key ∧ recoverComponent digit source = .ok (stored, canonical) := by
  obtain ⟨values, projected, rfl⟩ := configProjection_ok made
  obtain ⟨value, stored, canonical, recovered, there⟩ := projected.recovered stated member field
  obtain ⟨-, source, inside, named, again⟩ := projected.stated _ _ _ there
  refine ⟨value, canonical, stored, source, recovered, ?_, inside, named, again⟩
  rw [lookupKey_map, there, Option.map_some]

end Projection

end ClaimCI
