import ClaimCI.AuditExceptions
import ClaimCI.Measurement
import ClaimCI.Python.Dictionary
import ClaimCI.Review.ManifestAudits

/-!
# Audits of repository trees

The planner reads a manifest and joins the declared paths as texts; the audit reads it again and
resolves the paths through the file system. Both name the same files of a tree that stays as it is,
and what the audit says depends on nothing else of the tree.
-/

open Python

namespace ClaimCI.Review

/-! ### POSIX paths -/

/-- The text of an absolute path. -/
def absolutePath (parts : List Str) : Str := SLASH :: [SLASH].intercalate parts

/-- `directory / path`. -/
def joinPath (directory path : Str) : Str :=
  if path.head? = some SLASH then absolutePath (posixParts path)
  else absolutePath (posixParts directory ++ posixParts path)

/-- `path.parent` of an absolute path. -/
def parentPath (path : Str) : Str := absolutePath (posixParts path).dropLast

/-- `path.relative_to(root)` succeeds. -/
def isBelow (path root : Str) : Bool := (posixParts root).isPrefixOf (posixParts path)

/-- A part that names a file or a directory. -/
structure IsName (part : Str) : Prop where
  filled : part ≠ []
  other : part ≠ [0x2E]
  lower : part ≠ [0x2E, 0x2E]
  single : SLASH ∉ part

/-! ### Trees -/

/-- What the audit uses besides the files. -/
structure AuditEnvironment where
  isWindowsAbsolute : Str → Bool
  yamlLoad : Str → Except YamlLoadError YamlDocument
  /-- What `yaml.load` raises for the text instead of what `yamlLoad` has. -/
  yamlFault : Str → Option TagFault
  sha256 : Bytes → Str
  repr : Str → Str
  decodeErrorText : Bytes → Str
  jsonErrorText : Str → Str
  casefold : Str → Str
  /-- `repr` of a member of a set; an integer may have too many digits. -/
  valueRepr : Value → Except Error Str

/-- The files under a root, by absolute paths, while nothing changes. -/
structure RepositoryTree where
  /-- The parts of the resolved root. -/
  rootParts : List Str
  readBytes : Str → Except ReadError Bytes
  pathExists : Str → Bool
  resolve : Str → Except Str Str
  /-- `path.is_symlink()`; `none` is an error. -/
  isSymlink : Str → Option Bool
  /-- The size of a regular file; `none` is any other file, or an `OSError`. -/
  statSize : Str → Option Nat
  /-- How many characters a read of at most so many returns; `none` is an error. -/
  readChars : Str → Nat → Option Nat
  /-- The path resolves to a regular file under the root. -/
  isConfinedFile : Str → Bool
  named : ∀ part ∈ rootParts, IsName part
  /-- A path through no link is not resolved to another path. -/
  resolves : ∀ parts resolved, (∀ part ∈ parts, IsName part) →
    (∀ before, before <+: parts → before ≠ [] →
      isSymlink (absolutePath (rootParts ++ before)) = some false) →
    resolve (absolutePath (rootParts ++ parts)) = .ok resolved →
      resolved = absolutePath (rootParts ++ parts)

section Tree

variable (env : AuditEnvironment) (tree : RepositoryTree)

/-- `root / relative`. -/
def RepositoryTree.at (relative : Str) : Str := absolutePath (tree.rootParts ++ posixParts relative)

def RepositoryTree.root : Str := absolutePath tree.rootParts

/-- The surroundings of an audit in the tree. -/
def RepositoryTree.runtime : Runtime where
  readBytes := tree.readBytes
  pathExists := tree.pathExists
  parent := parentPath
  resolve := tree.resolve
  join := joinPath
  isRelativeTo := isBelow
  isWindowsAbsolute := env.isWindowsAbsolute
  yamlLoad := env.yamlLoad
  sha256 := env.sha256
  repr := env.repr
  decodeErrorText := env.decodeErrorText
  jsonErrorText := env.jsonErrorText

/-- The same with the loader's own exceptions; a name that the file system cannot represent is never
planned. -/
def RepositoryTree.faulty : FaultyRuntime :=
  { tree.runtime env with
    yamlFault := env.yamlFault
    existsFault := fun _ => none }

/-- The loop of `_has_symlink_component`; an error counts as a link. -/
def RepositoryTree.linkedFrom (cursor : List Str) : List Str → Bool
  | [] => false
  | part :: rest =>
    match tree.isSymlink (absolutePath (cursor ++ [part])) with
    | some false => RepositoryTree.linkedFrom (cursor ++ [part]) rest
    | _ => true

/-- `_has_symlink_component`. -/
def RepositoryTree.isLinked (relative : Str) : Bool :=
  tree.linkedFrom tree.rootParts (posixParts relative)

/-- A declared path, as the planner reads it. -/
def declaredText : Value → Json
  | .str raw => .str raw
  | _ => .null

def declaredExperiment : Value → Json
  | .dict entries => .object (ARTIFACT_FIELDS.filterMap fun field =>
      ((Value.get field entries).map declaredText).map fun value => (field, value))
  | _ => .null

/-- What `_declared_artifact_paths` reads of a manifest. -/
def declaredManifest : Value → Json
  | .dict entries => .object ([lit "baseline", lit "candidate"].filterMap fun name =>
      ((Value.get name entries).map declaredExperiment).map fun value => (name, value))
  | _ => .null

/-- A call whose handler names every exception but the loader's own. -/
def handled {α : Type} : Except Raised α → Except TagFault (Option α)
  | .ok value => .ok (some value)
  | .error (.error _) => .ok none
  | .error (.fault fault) => .error fault

/-- `load_unique_yaml(manifest_path.read_text(encoding="utf-8"))`; `none` is an error that is
handled. -/
def RepositoryTree.manifest (relative : Str) : Except TagFault (Option Value) :=
  match (tree.runtime env).readText (tree.at relative) with
  | .error _ => .ok none
  | .ok text =>
    match env.yamlFault text with
    | some fault => .error fault
    | none => .ok ((tree.runtime env).loadUniqueYaml text).toOption

mutual

/-- `_freeze`, as the reports read it: dates and times are their texts. -/
def freeze : Value → Except Error Json
  | .none => .ok .null
  | .bool b => .ok (.bool b)
  | .int n => .ok (.int n)
  | .float x => .ok (.float x)
  | .infinity negative => .ok (.infinity negative)
  | .nan _ => .ok .nan
  | .str s => .ok (.str s)
  | .other _ text => .ok (.str text)
  | .list items => (freezeItems items).map .array
  | .tuple items => (freezeItems items).map .array
  | .set items => do
    let frozen ← freezeItems items
    let spelled ← items.mapM env.valueRepr
    -- The members are ordered by their `repr`.
    pure (.array ((sortBy Prod.fst (spelled.zip frozen)).map Prod.snd))
  | .dict entries => do
    let members ← freezeEntries entries
    pure (.object (dictOf members))

def freezeItems : List Value → Except Error (List Json)
  | [] => .ok []
  | item :: items => do
    let frozen ← freeze item
    let rest ← freezeItems items
    pure (frozen :: rest)

def freezeEntries : List (Value × Value) → Except Error Members
  | [] => .ok []
  | (key, item) :: entries => do
    let name ← keyText key
    let frozen ← freeze item
    let rest ← freezeEntries entries
    pure ((name, frozen) :: rest)

end

/-- A finding in `snapshot_audit_result`. -/
def frozenFinding (finding : Finding) : Except Error Json := do
  let evidence ← freeze env (Value.ofMembers finding.evidence)
  pure (.object
    [("rule_id", .str finding.ruleId), ("severity", .str finding.severity.value),
      ("impact", .str finding.impact.value), ("title", .str finding.title),
      ("explanation", .str finding.explanation), ("evidence", evidence)])

/-- What a snapshot takes of an audit. -/
def auditOutcome (result : AuditResult) : Except Error AuditOutcome := do
  let findings ← result.findings.mapM (frozenFinding env)
  pure ⟨result.verdict.value, result.metric, result.minimumImprovement, result.direction.value,
    findings⟩

/-- `audit_research(root / relative, artifact_root=root)`, as far as a snapshot of it is taken. -/
def RepositoryTree.audit (relative : Str) : Except TagFault (Option AuditOutcome) := do
  let result ← handled
    (Raising.auditResearch (tree.faulty env) (tree.at relative) (some tree.root))
  pure (result.bind fun result => (auditOutcome env result).toOption)

theorem handled_some {α : Type} {result : Except Raised α} {value : α}
    (h : handled result = .ok (some value)) : result = .ok value := by
  unfold handled at h
  split at h
  · rw [Option.some.inj (Except.ok.inj h)]
  · cases h
  · cases h

/-- The deterministic tools in a tree. -/
def RepositoryTree.tools : ManifestTools where
  casefold := env.casefold
  isConfinedFile relative := tree.isConfinedFile (tree.at relative)
  isLinked := tree.isLinked
  exists' relative := tree.pathExists (tree.at relative)
  sizeOf relative := tree.statSize (tree.at relative)
  readChars relative := tree.readChars (tree.at relative)
  payload relative := (tree.manifest env relative).map (Option.map declaredManifest)
  loadsSpec relative := (handled
    (Raising.loadResearchSpec (tree.faulty env) (tree.at relative) (some tree.root))).map
      Option.isSome
  audit := tree.audit env

end Tree

/-! ### Parts -/

theorem posixParts_of_names {parts : List Str} (names : ∀ part ∈ parts, IsName part) :
    posixParts ([SLASH].intercalate parts) = parts := by
  by_cases empty : parts = []
  · rw [empty]
    rfl
  · rw [posixParts, split_intercalate empty fun part member => (names part member).single]
    refine List.filter_eq_self.mpr fun part member => ?_
    simp [(names part member).filled, (names part member).other]

theorem posixParts_absolute {parts : List Str} (names : ∀ part ∈ parts, IsName part) :
    posixParts (absolutePath parts) = parts := by
  rw [absolutePath, posixParts, split_sep_cons, List.filter_cons_of_neg (by simp)]
  exact posixParts_of_names names

/-- The parts of a text whose segments do not climb. -/
theorem names_of_posixParts {path : Str}
    (flat : (split SLASH path).contains [0x2E, 0x2E] = false) :
    ∀ part ∈ posixParts path, IsName part := by
  intro part member
  obtain ⟨segment, kept⟩ := List.mem_filter.mp member
  simp only [Bool.and_eq_true, bne_iff_ne] at kept
  refine ⟨kept.1, kept.2, ?_, not_mem_of_mem_split SLASH path part segment⟩
  rintro rfl
  rw [List.contains_iff_mem.mpr segment] at flat
  cases flat

/-- What `_relative` accepts. -/
theorem safeRelative_spec {raw path : Str} (read : safeRelative raw = some path) :
    (∀ part ∈ posixParts (portable raw), IsName part) ∧
      posixParts path = posixParts (portable raw) ∧ (portable raw).head? ≠ some SLASH := by
  rw [safeRelative] at read
  split at read
  · cases read
  split at read
  · cases read
  next relative =>
    split at read
    · cases read
    next filled =>
      obtain ⟨start, other⟩ := not_or.mp relative
      obtain ⟨-, flat⟩ := not_or.mp other
      have names := names_of_posixParts (Bool.eq_false_iff.mpr flat)
      rw [← Option.some.inj read]
      exact ⟨names, posixParts_of_names names, start⟩

theorem safeRelative_names {raw path : Str} (read : safeRelative raw = some path) :
    ∀ part ∈ posixParts path, IsName part := by
  obtain ⟨names, same, -⟩ := safeRelative_spec read
  rw [same]
  exact names

/-! ### Unlinked paths -/

section Tree

variable (env : AuditEnvironment) (tree : RepositoryTree)

theorem linkedFrom_eq_false {cursor parts : List Str}
    (free : tree.linkedFrom cursor parts = false) :
    ∀ before, before <+: parts → before ≠ [] →
      tree.isSymlink (absolutePath (cursor ++ before)) = some false := by
  induction parts generalizing cursor with
  | nil =>
    intro before first some
    exact absurd (List.prefix_nil.mp first) some
  | cons part parts ih =>
    rw [RepositoryTree.linkedFrom] at free
    split at free
    next plain =>
      intro before first some
      rcases List.prefix_cons_iff.mp first with rfl | ⟨rest, rfl, shorter⟩
      · exact absurd rfl some
      · cases rest with
        | nil => exact plain
        | cons next rest =>
          have step := ih free _ shorter (List.cons_ne_nil _ _)
          rwa [List.append_assoc, List.singleton_append] at step
    · cases free

/-- A path through no link resolves to itself. -/
theorem resolve_unlinked {relative resolved : Str}
    (names : ∀ part ∈ posixParts relative, IsName part)
    (free : tree.isLinked relative = false)
    (returned : tree.resolve (tree.at relative) = .ok resolved) : resolved = tree.at relative :=
  tree.resolves _ _ names (linkedFrom_eq_false tree free) returned

theorem absolute_names {relative : Str} (names : ∀ part ∈ posixParts relative, IsName part) :
    ∀ part ∈ tree.rootParts ++ posixParts relative, IsName part := by
  intro part member
  rcases List.mem_append.mp member with member | member
  · exact tree.named part member
  · exact names part member

/-- The path that the audit joins is the one that the planner declares. -/
theorem join_declared {manifest raw joined : Str}
    (names : ∀ part ∈ posixParts manifest, IsName part) (normal : IsNormal manifest)
    (declared : declaredPath manifest (some (.str raw)) = some joined) :
    joinPath (parentPath (tree.at manifest)) raw = tree.at joined ∧
      ∀ part ∈ posixParts joined, IsName part := by
  rw [declaredPath] at declared
  split at declared
  · cases declared
  next slashes =>
    have clean : BACKSLASH ∉ raw := fun inside => slashes (List.contains_iff_mem.mpr inside)
    split at declared
    · cases declared
    next artifact read =>
      obtain ⟨artifactNames, same, relative⟩ := safeRelative_spec read
      rw [portable_of_not_mem clean] at artifactNames same relative
      -- the declared text is read relative to the directory of the manifest
      have joinedNames : ∀ part ∈ (posixParts manifest).dropLast ++ posixParts artifact,
          IsName part := by
        intro part member
        rcases List.mem_append.mp member with member | member
        · exact names part (List.dropLast_subset _ member)
        · rw [same] at member
          exact artifactNames part member
      have noSlashes : BACKSLASH ∉ [SLASH].intercalate
          ((posixParts manifest).dropLast ++ posixParts artifact) := by
        intro inside
        rcases mem_intercalate inside with slash | ⟨part, member, inside⟩
        · exact absurd slash (by decide)
        · rcases List.mem_append.mp member with member | member
          · exact normal.plain (mem_of_mem_posixParts (List.dropLast_subset _ member) inside)
          · rw [same] at member
            exact clean (mem_of_mem_posixParts member inside)
      obtain ⟨-, parts, -⟩ := safeRelative_spec declared
      rw [portable_of_not_mem noSlashes, posixParts_of_names joinedNames] at parts
      constructor
      -- the joined path ends at the same parts below the root
      · have directory : (tree.rootParts ++ posixParts manifest).dropLast =
            tree.rootParts ++ (posixParts manifest).dropLast :=
          List.dropLast_append_of_ne_nil normal.parts
        have directoryNames : ∀ part ∈ tree.rootParts ++ (posixParts manifest).dropLast,
            IsName part := by
          rw [← directory]
          exact fun part member => absolute_names tree names part (List.dropLast_subset _ member)
        rw [joinPath, if_neg relative, parentPath, RepositoryTree.at, RepositoryTree.at,
          posixParts_absolute (absolute_names tree names), directory,
          posixParts_absolute directoryNames, parts, same, List.append_assoc]
      · rw [parts]
        exact joinedNames

/-! ### The paths of an audit -/

/-- The four artifacts in the order of their fields. -/
def artifactsOf (paths : ExperimentPaths) : List Str :=
  [paths.config, paths.results, paths.trainDataset, paths.evalDataset]

theorem experimentPath_ok {rt : Runtime} {label directory root field resolved : Str}
    {raw : Option Value}
    (returned : experimentPath rt label directory (some root) field raw = .ok resolved) :
    ∃ path, raw = some (.str path) ∧ rt.resolve (rt.join directory path) = .ok resolved := by
  rw [experimentPath.eq_def] at returned
  dsimp only at returned
  split at returned
  next path =>
    refine ⟨path, rfl, ?_⟩
    -- each check that fails raises; what is left resolves the joined path
    split at returned
    · cases returned
    split at returned
    · cases returned
    split at returned
    · cases returned
    split at returned
    · cases returned
    next found resolves =>
      split at returned
      · rw [← Except.ok.inj returned]
        exact resolves
      · cases returned
  · cases returned

/-- What the planner reads of the members of a mapping. -/
theorem lookupKey_readings {α : Type} (read : Str → Option α) {names : List Str} {name : Str}
    (listed : name ∈ names) :
    lookupKey name (names.filterMap fun name => (read name).map fun value => (name, value)) =
      read name := by
  induction names with
  | nil => cases listed
  | cons other names ih =>
    -- the first name that is read decides
    by_cases same : other = name
    · subst same
      cases here : read other with
      | some value =>
        rw [List.filterMap_cons_some (by rw [here]; rfl), lookupKey_cons, if_pos rfl]
      | none =>
        rw [List.filterMap_cons_none (by rw [here]; rfl)]
        rw [lookupKey_eq_none_iff, keysOf, List.mem_map]
        rintro ⟨entry, member, rfl⟩
        obtain ⟨field, -, found⟩ := List.mem_filterMap.mp member
        obtain ⟨value, present, rfl⟩ := Option.map_eq_some_iff.mp found
        dsimp only at here
        rw [here] at present
        cases present
    · have rest := ih ((List.mem_cons.mp listed).resolve_left (Ne.symm same))
      cases here : read other with
      | some value =>
        rw [List.filterMap_cons_some (by rw [here]; rfl), lookupKey_cons, if_neg same, rest]
      | none => rw [List.filterMap_cons_none (by rw [here]; rfl), rest]

/-- One declared path of an experiment, as the planner and the audit take it. -/
theorem experimentPath_declared {label manifest field resolved : Str} {joined : Str}
    {entries : List (Value × Value)} {root : Str}
    (names : ∀ part ∈ posixParts manifest, IsName part) (normal : IsNormal manifest)
    (declared : declaredPath manifest ((Value.get field entries).map declaredText) = some joined)
    (free : tree.isLinked joined = false)
    (returned : experimentPath (tree.runtime env) label (parentPath (tree.at manifest)) (some root)
      field (Value.get field entries) = .ok resolved) :
    resolved = tree.at joined ∧ tree.resolve (tree.at joined) = .ok (tree.at joined) := by
  obtain ⟨path, text, resolves⟩ := experimentPath_ok returned
  rw [text] at declared
  obtain ⟨same, joinedNames⟩ := join_declared tree names normal declared
  change tree.resolve (joinPath (parentPath (tree.at manifest)) path) = .ok resolved at resolves
  rw [same] at resolves
  have itself := resolve_unlinked tree joinedNames free resolves
  exact ⟨itself, itself ▸ resolves⟩

theorem experimentPaths_declared {label manifest root : Str} {value : Value}
    {paths : ExperimentPaths} {declared : List Str}
    (names : ∀ part ∈ posixParts manifest, IsName part) (normal : IsNormal manifest)
    (read : declaredOf manifest (some (declaredExperiment value)) = some declared)
    (free : ∀ path ∈ declared, tree.isLinked path = false)
    (returned : experimentPaths (tree.runtime env) label value (parentPath (tree.at manifest))
      (some root) = .ok paths) :
    artifactsOf paths = declared.map tree.at ∧
      ∀ path ∈ declared, tree.resolve (tree.at path) = .ok (tree.at path) := by
  cases value with
  | dict entries =>
    obtain ⟨config, configPath, returned⟩ := bind_ok_iff.mp returned
    obtain ⟨results, resultsPath, returned⟩ := bind_ok_iff.mp returned
    obtain ⟨train, trainPath, returned⟩ := bind_ok_iff.mp returned
    obtain ⟨eval, evalPath, returned⟩ := bind_ok_iff.mp returned
    rw [← Except.ok.inj returned]
    -- the four fields are declared one after another
    have read : (ARTIFACT_FIELDS.mapM fun field =>
        declaredPath manifest ((Value.get field entries).map declaredText)) = some declared := by
      rw [← read]
      have same (field : Str) (listed : field ∈ ARTIFACT_FIELDS) :=
        lookupKey_readings (fun name => (Value.get name entries).map declaredText) listed
      rw [declaredExperiment, declaredOf]
      simp only [ARTIFACT_FIELDS, List.mem_cons, List.not_mem_nil, or_false, forall_eq_or_imp,
        forall_eq] at same ⊢
      obtain ⟨config, results, train, eval⟩ := same
      simp only [List.mapM_cons, List.mapM_nil, config, results, train, eval]
    have four : ARTIFACT_FIELDS =
        [lit "config", lit "results", lit "train_dataset", lit "eval_dataset"] := rfl
    rw [four] at read
    simp only [List.mapM_cons, List.mapM_nil, Option.bind_eq_bind, Option.bind_eq_some_iff,
      Option.pure_def, Option.some.injEq] at read
    obtain ⟨first, configRead, -, ⟨second, resultsRead, -, ⟨third, trainRead, -, ⟨fourth, evalRead,
      -, rfl, rfl⟩, rfl⟩, rfl⟩, rfl⟩ := read
    -- no link on the way: each path resolves to itself
    simp only [List.forall_mem_cons] at free
    obtain ⟨firstFree, secondFree, thirdFree, fourthFree, -⟩ := free
    obtain ⟨rfl, configSame⟩ :=
      experimentPath_declared env tree names normal configRead firstFree configPath
    obtain ⟨rfl, resultsSame⟩ :=
      experimentPath_declared env tree names normal resultsRead secondFree resultsPath
    obtain ⟨rfl, trainSame⟩ :=
      experimentPath_declared env tree names normal trainRead thirdFree trainPath
    obtain ⟨rfl, evalSame⟩ :=
      experimentPath_declared env tree names normal evalRead fourthFree evalPath
    refine ⟨rfl, ?_⟩
    simp only [List.forall_mem_cons]
    exact ⟨configSame, resultsSame, trainSame, evalSame, List.forall_mem_nil _⟩
  | none | bool | int | float | infinity | nan | str | other | list | tuple | set => cases returned

theorem resolveManifest_ok {rt : Runtime} {path root manifestPath : Str} {resolvedRoot : Option Str}
    (returned : resolveManifest rt path (some root) = .ok (manifestPath, resolvedRoot)) :
    rt.resolve path = .ok manifestPath ∧ ∃ root', resolvedRoot = some root' := by
  rw [resolveManifest] at returned
  split at returned
  · cases returned
  next resolves =>
    dsimp only at returned
    split at returned
    · cases returned
    next root' _ =>
      split at returned
      · obtain ⟨rfl, rfl⟩ := Prod.mk.inj (Except.ok.inj returned)
        exact ⟨resolves, root', rfl⟩
      · cases returned

/-- What the planner reads of a manifest is what the audit reads. -/
theorem manifest_eq {manifest : Str} {found : Option Value} {payload : Value}
    (planned : tree.manifest env manifest = .ok found)
    (read : readManifest (tree.runtime env) (tree.at manifest) = .ok payload) :
    found = some payload := by
  rw [readManifest] at read
  rw [RepositoryTree.manifest] at planned
  split at read
  · cases read
  · cases read
  · cases read
  next source text =>
    rw [text] at planned
    dsimp only at planned
    split at planned
    · cases planned
    · split at read
      next value loaded =>
        obtain rfl := Except.ok.inj read
        rw [loaded] at planned
        exact (Except.ok.inj planned).symm
      · cases read
      · cases read

theorem manifestArm_ok {payload : List (Value × Value)} {arm : Arm} {value : Value}
    (returned : manifestArm payload arm = .ok value) : Value.get arm.text payload = some value := by
  rw [manifestArm] at returned
  split at returned
  next found => rw [← Except.ok.inj returned, found]
  · cases returned

/-- What a loaded manifest says, apart from its paths. -/
structure ClaimTerms where
  metric : Str
  threshold : Binary64
  direction : Direction

/-- The terms and the experiments of a manifest. -/
structure Declares (payload : Value) (terms : ClaimTerms) (baseline candidate : Value) : Prop where
  terms : ∃ entries claim, payload = .dict entries ∧ manifestClaim entries = .ok claim ∧
    claimMetric claim = .ok terms.metric ∧ claimThreshold claim = .ok terms.threshold ∧
    claimDirection claim = .ok terms.direction
  experiments : ∃ entries, payload = .dict entries ∧
    Value.get (lit "baseline") entries = some baseline ∧
    Value.get (lit "candidate") entries = some candidate

theorem loadResearchSpec_ok {manifest : Str} {spec : ResearchSpec}
    (names : ∀ part ∈ posixParts manifest, IsName part) (free : tree.isLinked manifest = false)
    (loaded : loadResearchSpec (tree.runtime env) (tree.at manifest) (some tree.root) = .ok spec) :
    ∃ payload baseline candidate root,
      readManifest (tree.runtime env) (tree.at manifest) = .ok payload ∧
      Declares payload ⟨spec.metric, spec.minimumImprovement, spec.direction⟩ baseline candidate ∧
      spec.manifestPath = tree.at manifest ∧
      experimentPaths (tree.runtime env) "baseline" baseline (parentPath (tree.at manifest))
        (some root) = .ok spec.baseline ∧
      experimentPaths (tree.runtime env) "candidate" candidate (parentPath (tree.at manifest))
        (some root) = .ok spec.candidate := by
  -- one step of the loader at a time
  obtain ⟨⟨manifestPath, resolvedRoot⟩, located, loaded⟩ := bind_ok_iff.mp loaded
  obtain ⟨resolves, root, rfl⟩ := resolveManifest_ok located
  obtain rfl := resolve_unlinked tree names free resolves
  obtain ⟨payload, read, loaded⟩ := bind_ok_iff.mp loaded
  obtain ⟨entries, rooted, loaded⟩ := bind_ok_iff.mp loaded
  obtain ⟨claim, claimed, loaded⟩ := bind_ok_iff.mp loaded
  obtain ⟨metric, named, loaded⟩ := bind_ok_iff.mp loaded
  obtain ⟨threshold, bounded, loaded⟩ := bind_ok_iff.mp loaded
  obtain ⟨direction, directed, loaded⟩ := bind_ok_iff.mp loaded
  obtain ⟨baseline, first, loaded⟩ := bind_ok_iff.mp loaded
  obtain ⟨candidate, second, loaded⟩ := bind_ok_iff.mp loaded
  obtain ⟨baselinePaths, firstPaths, loaded⟩ := bind_ok_iff.mp loaded
  obtain ⟨candidatePaths, secondPaths, loaded⟩ := bind_ok_iff.mp loaded
  rw [← Except.ok.inj loaded]
  have mapping : payload = .dict entries := by
    rw [manifestRoot.eq_def] at rooted
    split at rooted
    · rw [Except.ok.inj rooted]
    · cases rooted
  exact ⟨payload, baseline, candidate, root, read,
    ⟨⟨entries, claim, mapping, claimed, named, bounded, directed⟩,
      ⟨entries, mapping, manifestArm_ok first, manifestArm_ok second⟩⟩,
    rfl, firstPaths, secondPaths⟩

/-- The audit resolves the manifest and the paths that the planner declares. -/
theorem spec_declared {manifest : Str} {spec : ResearchSpec} {artifacts : List Str}
    (names : ∀ part ∈ posixParts manifest, IsName part) (normal : IsNormal manifest)
    (free : tree.isLinked manifest = false)
    (declared : declaredArtifactPaths (tree.tools env) manifest = .ok (some artifacts))
    (frees : ∀ path ∈ artifacts, tree.isLinked path = false)
    (loaded : loadResearchSpec (tree.runtime env) (tree.at manifest) (some tree.root) = .ok spec) :
    spec.manifestPath = tree.at manifest ∧
      artifactsOf spec.baseline ++ artifactsOf spec.candidate = artifacts.map tree.at ∧
      ∀ path ∈ artifacts, tree.resolve (tree.at path) = .ok (tree.at path) := by
  obtain ⟨payload, baseline, candidate, root, read, declares, located, first, second⟩ :=
    loadResearchSpec_ok env tree names free loaded
  obtain ⟨entries, rfl, baselineValue, candidateValue⟩ := declares.experiments
  refine ⟨located, ?_⟩
  obtain ⟨json, payload, declared⟩ := map_ok_iff.mp declared
  obtain ⟨found, planned, rfl⟩ := map_ok_iff.mp payload
  obtain rfl := manifest_eq env tree planned read
  have member (name : Str) (listed : name ∈ [lit "baseline", lit "candidate"]) :=
    lookupKey_readings (fun name => (Value.get name entries).map declaredExperiment) listed
  rw [Option.map_some, declaredManifest, declaredArtifacts] at declared
  rw [member _ List.mem_cons_self, member _ (List.mem_cons_of_mem _ List.mem_cons_self),
    baselineValue, candidateValue] at declared
  obtain ⟨one, firstRead, declared⟩ := Option.bind_eq_some_iff.mp declared
  obtain ⟨other, secondRead, declared⟩ := Option.bind_eq_some_iff.mp declared
  obtain rfl := Option.some.inj declared
  obtain ⟨firstPaths, firstSame⟩ := experimentPaths_declared env tree names normal firstRead
    (fun path inside => frees path (List.mem_append_left _ inside)) first
  obtain ⟨secondPaths, secondSame⟩ := experimentPaths_declared env tree names normal secondRead
    (fun path inside => frees path (List.mem_append_right _ inside)) second
  refine ⟨by rw [List.map_append, firstPaths, secondPaths], fun path member => ?_⟩
  exact (List.mem_append.mp member).elim (firstSame path) (secondSame path)

end Tree

/-! ### What an audit depends on -/

/-- Surroundings that an audit of some files cannot tell apart. -/
structure AuditsAlike (ft other : FaultyRuntime) (paths : List Str) : Prop where
  yaml : ft.yamlLoad = other.yamlLoad
  faults : ft.yamlFault = other.yamlFault
  sha256 : ft.sha256 = other.sha256
  repr : ft.repr = other.repr
  decodeErrorText : ft.decodeErrorText = other.decodeErrorText
  jsonErrorText : ft.jsonErrorText = other.jsonErrorText
  reads : ∀ path ∈ paths, ft.readBytes path = other.readBytes path
  existence : ∀ path ∈ paths, ft.pathExists path = other.pathExists path
  existsFaults : ∀ path ∈ paths, ft.existsFault path = other.existsFault path
  resolves : ∀ path ∈ paths, ft.resolve path = other.resolve path

section Alike

variable {ft other : FaultyRuntime} {paths : List Str} (alike : AuditsAlike ft other paths)
  {path : Str} (listed : path ∈ paths)

include alike

theorem loadUniqueYaml_alike : ft.loadUniqueYaml = other.loadUniqueYaml := by
  funext source
  rw [Runtime.loadUniqueYaml, Runtime.loadUniqueYaml, alike.yaml]

theorem loadRuns_alike (metric : Str) (index : Nat) (runs : List Json) :
    loadRuns ft.toRuntime path metric index runs =
      loadRuns other.toRuntime path metric index runs := by
  have one (index : Nat) (run : Json) : loadRun ft.toRuntime path metric index run =
      loadRun other.toRuntime path metric index run := by
    simp only [loadRun, alike.repr]
  induction runs generalizing index with
  | nil => rfl
  | cons run runs ih => rw [loadRuns, loadRuns, one, ih]

theorem loadRecords_alike (number : Nat) (lines : List Str) :
    loadRecords ft.toRuntime path number lines = loadRecords other.toRuntime path number lines := by
  have one (line : Str) : loadRecord ft.toRuntime path line = loadRecord other.toRuntime path line := by
    simp only [loadRecord, hashSample, alike.jsonErrorText, alike.sha256]
  induction lines generalizing number with
  | nil => rfl
  | cons line lines ih => rw [loadRecords, loadRecords, one, ih]

include listed

theorem readText_alike : ft.readText path = other.readText path := by
  rw [Runtime.readText, Runtime.readText, alike.reads path listed, alike.decodeErrorText]

theorem loadConfig_alike : Raising.loadConfig ft path = Raising.loadConfig other path := by
  have plain : loadConfig ft.toRuntime path = loadConfig other.toRuntime path := by
    rw [loadConfig, loadConfig, readText_alike alike listed, alike.repr,
      loadUniqueYaml_alike alike]
  rw [Raising.loadConfig, Raising.loadConfig, Raising.convert, Raising.convert, plain,
    readText_alike alike listed, alike.faults]

theorem loadResults_alike (metric : Str) :
    loadResults ft.toRuntime path metric = loadResults other.toRuntime path metric := by
  have parse (raw : Str) : parseResults ft.toRuntime path raw =
      parseResults other.toRuntime path raw := by
    simp only [parseResults, alike.jsonErrorText]
  have claimed (payload : Members) : loadClaimedSummary ft.toRuntime path metric payload =
      loadClaimedSummary other.toRuntime path metric payload := by
    simp only [loadClaimedSummary, alike.repr]
  simp only [loadResults, readResults, readText_alike alike listed, parse, claimed,
    loadRuns_alike alike, alike.resolves path listed]

theorem loadDataset_alike : loadDataset ft.toRuntime path = loadDataset other.toRuntime path := by
  simp only [loadDataset, readDataset, readText_alike alike listed, loadRecords_alike alike,
    alike.resolves path listed]

theorem attempt_alike {α : Type} (category : Category) (arm : Arm)
    {load otherLoad : Except Raised α} (same : load = otherLoad) :
    Raising.attempt ft category arm path load =
      Raising.attempt other category arm path otherLoad := by
  have failures (message : Str) : Raising.artifactFailure ft category arm path message =
      Raising.artifactFailure other category arm path message := by
    rw [Raising.artifactFailure, Raising.artifactFailure, alike.existsFaults path listed,
      artifactFailure, artifactFailure, alike.existence path listed]
  rw [same, Raising.attempt.eq_def, Raising.attempt.eq_def]
  simp only [failures]

end Alike

section Sections

variable {ft other : FaultyRuntime} {files : List Str} (alike : AuditsAlike ft other files)
  {paths : ExperimentPaths} (listed : ∀ path ∈ artifactsOf paths, path ∈ files) (arm : Arm)

include alike listed

theorem configAttempt_alike :
    Raising.attempt ft .config arm paths.config (Raising.loadConfig ft paths.config) =
      Raising.attempt other .config arm paths.config (Raising.loadConfig other paths.config) := by
  have inside := listed paths.config (by simp [artifactsOf])
  exact attempt_alike alike inside .config arm (loadConfig_alike alike inside)

theorem resultAttempt_alike (metric : Str) :
    Raising.attempt ft .result arm paths.results
        (Raising.known (loadResults ft.toRuntime paths.results metric)) =
      Raising.attempt other .result arm paths.results
        (Raising.known (loadResults other.toRuntime paths.results metric)) := by
  have inside := listed paths.results (by simp [artifactsOf])
  exact attempt_alike alike inside .result arm
    (congrArg Raising.known (loadResults_alike alike inside metric))

theorem trainAttempt_alike :
    Raising.attempt ft .dataset arm paths.trainDataset
        (Raising.known (loadDataset ft.toRuntime paths.trainDataset)) =
      Raising.attempt other .dataset arm paths.trainDataset
        (Raising.known (loadDataset other.toRuntime paths.trainDataset)) := by
  have inside := listed paths.trainDataset (by simp [artifactsOf])
  exact attempt_alike alike inside .dataset arm
    (congrArg Raising.known (loadDataset_alike alike inside))

theorem evalAttempt_alike :
    Raising.attempt ft .dataset arm paths.evalDataset
        (Raising.known (loadDataset ft.toRuntime paths.evalDataset)) =
      Raising.attempt other .dataset arm paths.evalDataset
        (Raising.known (loadDataset other.toRuntime paths.evalDataset)) := by
  have inside := listed paths.evalDataset (by simp [artifactsOf])
  exact attempt_alike alike inside .dataset arm
    (congrArg Raising.known (loadDataset_alike alike inside))

end Sections

/-- An audit depends on the files of its manifest only. -/
theorem auditSpec_alike {ft other : FaultyRuntime} {spec : ResearchSpec}
    (alike : AuditsAlike ft other (artifactsOf spec.baseline ++ artifactsOf spec.candidate)) :
    Raising.auditSpec ft spec = Raising.auditSpec other spec := by
  have inBaseline : ∀ path ∈ artifactsOf spec.baseline,
      path ∈ artifactsOf spec.baseline ++ artifactsOf spec.candidate :=
    fun path inside => List.mem_append_left _ inside
  have inCandidate : ∀ path ∈ artifactsOf spec.candidate,
      path ∈ artifactsOf spec.baseline ++ artifactsOf spec.candidate :=
    fun path inside => List.mem_append_right _ inside
  -- an arm reads its own four files only
  have inArm (arm : Arm) : ∀ path ∈ artifactsOf (spec.arm arm),
      path ∈ artifactsOf spec.baseline ++ artifactsOf spec.candidate := by
    cases arm with
    | baseline => exact inBaseline
    | candidate => exact inCandidate
  have configs : Raising.configSection ft spec = Raising.configSection other spec := by
    rw [Raising.configSection, Raising.configSection, configAttempt_alike alike inBaseline,
      configAttempt_alike alike inCandidate]
  have results : Raising.resultSection ft spec = Raising.resultSection other spec := by
    rw [Raising.resultSection, Raising.resultSection, resultAttempt_alike alike inBaseline,
      resultAttempt_alike alike inCandidate]
  have datasets (arm : Arm) : Raising.armDatasets ft spec arm =
      Raising.armDatasets other spec arm := by
    rw [Raising.armDatasets, Raising.armDatasets, trainAttempt_alike alike (inArm arm),
      evalAttempt_alike alike (inArm arm)]
  rw [Raising.auditSpec, Raising.auditSpec, configs, results, Raising.datasetSection,
    Raising.datasetSection, datasets, datasets]

/-! ### Plans -/

section Plans

variable (tools : ManifestTools)

/-- `plan_manifest_audits`, around paths that are selected before. -/
def planAroundSelected (limits : Limits) (selectedPaths manifests : List Str) :
    Except Fault (List ManifestAuditPlan) :=
  match selectedPaths.mapM safeRelative with
  | none => reviewError "selected manifest path is unsafe"
  | some selected =>
    if limits.maxFiles < selected.dedup.length then
      reviewError "selected paths exceed the global review file limit"
    else
      ((manifests.foldlM (planManifest tools limits) (selected, [])).map Prod.snd).mapError Fault.tag

theorem planAroundSelected_mem {limits : Limits} {selectedPaths manifests : List Str}
    {plans : List ManifestAuditPlan} {plan : ManifestAuditPlan}
    (returned : planAroundSelected tools limits selectedPaths manifests = .ok plans)
    (member : plan ∈ plans) :
    ∃ raw ∈ manifests, bundleOf tools limits raw = .ok (some plan) := by
  rw [planAroundSelected] at returned
  split at returned
  · cases returned
  split at returned
  · cases returned
  next selected spelled room =>
    cases run : manifests.foldlM (planManifest tools limits) (selected, []) with
    | error fault =>
      rw [run] at returned
      cases returned
    | ok state =>
      rw [run] at returned
      obtain rfl := Except.ok.inj returned
      -- every plan that a round adds is that of its manifest
      have planned := foldlM_keeps
        (p := fun state : List Str × List ManifestAuditPlan => ∀ plan ∈ state.2,
          ∃ raw ∈ manifests, bundleOf tools limits raw = .ok (some plan))
        (List.forall_mem_nil _) ?_ run
      · exact planned plan member
      · intro raw listed state next before step
        rcases planManifest_ok tools step with rfl | ⟨added, bundle, -, rfl⟩
        · exact before
        · intro other inside
          rcases List.mem_append.mp inside with old | new
          · exact before other old
          · obtain rfl := List.mem_singleton.mp new
            exact ⟨raw, listed, bundle⟩

/-- What makes a plan. -/
structure Planned (limits : Limits) (plan : ManifestAuditPlan) (artifacts : List Str) : Prop where
  normal : IsNormal plan.manifestPath
  names : ∀ part ∈ posixParts plan.manifestPath, IsName part
  declared : declaredArtifactPaths tools plan.manifestPath = .ok (some artifacts)
  loads : tools.loadsSpec plan.manifestPath = .ok true
  paths : ∀ path, path ∈ plan.paths ↔ path = plan.manifestPath ∨ path ∈ artifacts
  free : ∀ path ∈ plan.paths, tools.isLinked path = false
  bounded : ∀ path ∈ plan.paths, isBounded tools limits path = true

theorem bundleOf_planned {limits : Limits} {raw : Str} {plan : ManifestAuditPlan}
    (bundle : bundleOf tools limits raw = .ok (some plan)) :
    ∃ artifacts, Planned tools limits plan artifacts := by
  obtain ⟨artifacts, bundled⟩ := bundleOf_some tools bundle
  refine ⟨artifacts, safeRelative_normal bundled.spelled, safeRelative_names bundled.spelled,
    bundled.declared, bundled.loads, bundled.paths, fun path member => ?_, fun path member => ?_⟩
  · rcases (bundled.paths path).mp member with rfl | member
    · exact bundled.free
    · exact bundled.frees path member
  · rcases (bundled.paths path).mp member with rfl | member
    · exact bundled.bounded
    · exact bundled.bounds path member

end Plans

/-! ### Two trees -/

section Trees

variable (env : AuditEnvironment) (tree : RepositoryTree)

/-- A plan lists the files that the audit of its manifest reads, inside the root, through no link,
and within the bounds where they exist. -/
structure PlanExact (limits : Limits) (plan : ManifestAuditPlan) : Prop where
  reads : ∃ spec,
    loadResearchSpec (tree.runtime env) (tree.at plan.manifestPath) (some tree.root) = .ok spec ∧
      ∀ path, path ∈ plan.paths.map tree.at ↔
        path ∈ spec.manifestPath :: (artifactsOf spec.baseline ++ artifactsOf spec.candidate)
  inside : ∀ path ∈ plan.paths, ∀ part ∈ posixParts path, IsName part
  free : ∀ path ∈ plan.paths, tree.isLinked path = false
  bounded : ∀ path ∈ plan.paths, tree.pathExists (tree.at path) = true →
    ∃ size chars, tree.statSize (tree.at path) = some size ∧ size ≤ limits.maxFileChars * 4 ∧
      tree.readChars (tree.at path) (limits.maxFileChars + 1) = some chars ∧
        chars ≤ limits.maxFileChars

theorem isBounded_existing {limits : Limits} {path : Str}
    (bounded : isBounded (tree.tools env) limits path = true)
    (existing : tree.pathExists (tree.at path) = true) :
    ∃ size chars, tree.statSize (tree.at path) = some size ∧ size ≤ limits.maxFileChars * 4 ∧
      tree.readChars (tree.at path) (limits.maxFileChars + 1) = some chars ∧
        chars ≤ limits.maxFileChars := by
  rw [isBounded] at bounded
  split at bounded
  · cases bounded
  split at bounded
  next missing =>
    change (!tree.pathExists (tree.at path)) = true at missing
    rw [existing] at missing
    cases missing
  split at bounded
  · cases bounded
  next size stat =>
    split at bounded
    · cases bounded
    next small =>
      obtain ⟨chars, read, few⟩ := (Option.any_eq_true _ _).mp bounded
      exact ⟨size, chars, stat, not_lt.mp small, read, of_decide_eq_true few⟩

theorem planned_spec {limits : Limits} {plan : ManifestAuditPlan} {artifacts : List Str}
    (planned : Planned (tree.tools env) limits plan artifacts) :
    ∃ spec, Raising.loadResearchSpec (tree.faulty env) (tree.at plan.manifestPath)
        (some tree.root) = .ok spec ∧
      loadResearchSpec (tree.runtime env) (tree.at plan.manifestPath) (some tree.root) =
        .ok spec ∧
      spec.manifestPath = tree.at plan.manifestPath ∧
      artifactsOf spec.baseline ++ artifactsOf spec.candidate = artifacts.map tree.at ∧
      ∀ path ∈ artifacts, tree.resolve (tree.at path) = .ok (tree.at path) := by
  obtain ⟨found, loads, some⟩ := map_ok_iff.mp planned.loads
  obtain ⟨spec, rfl⟩ := Option.isSome_iff_exists.mp some
  have raising := handled_some loads
  have loaded := Raising.loadResearchSpec_plain raising
  refine ⟨spec, raising, loaded, spec_declared env tree planned.names planned.normal ?_
    planned.declared ?_ loaded⟩
  · exact planned.free _ ((planned.paths _).mpr (.inl rfl))
  · exact fun path member => planned.free path ((planned.paths path).mpr (.inr member))

theorem planned_exact {limits : Limits} {plan : ManifestAuditPlan} {artifacts : List Str}
    (planned : Planned (tree.tools env) limits plan artifacts) :
    PlanExact env tree limits plan := by
  obtain ⟨spec, -, loaded, located, listed, -⟩ := planned_spec env tree planned
  refine ⟨⟨spec, loaded, fun path => ?_⟩, ?_, planned.free, ?_⟩
  · rw [located, listed, List.mem_cons, List.mem_map, List.mem_map]
    constructor
    · rintro ⟨relative, member, rfl⟩
      exact ((planned.paths relative).mp member).imp (congrArg _)
        fun inside => ⟨relative, inside, rfl⟩
    · rintro (rfl | ⟨relative, member, rfl⟩)
      · exact ⟨_, (planned.paths _).mpr (.inl rfl), rfl⟩
      · exact ⟨relative, (planned.paths _).mpr (.inr member), rfl⟩
  · intro path member
    rcases (planned.paths path).mp member with rfl | member
    · exact planned.names
    · obtain ⟨raw, read⟩ := declaredArtifactPaths_relative _ planned.declared member
      exact safeRelative_names read
  · exact fun path member existing =>
      isBounded_existing env tree (planned.bounded path member) existing

/-- The deterministic snapshot of a plan. -/
def RepositoryTree.snapshot (plan : ManifestAuditPlan) : Except TagFault (Option AuditSnapshot) :=
  (tree.audit env plan.manifestPath).map (Option.map (snapshotAuditResult plan.manifestPath))

/-- Two trees under one root in which the files exist and read alike, errors included. -/
structure ReadAlike (tree other : RepositoryTree) (paths : List Str) : Prop where
  root : tree.rootParts = other.rootParts
  existence : ∀ path ∈ paths, tree.pathExists (tree.at path) = other.pathExists (other.at path)
  reads : ∀ path ∈ paths, tree.readBytes (tree.at path) = other.readBytes (other.at path)

theorem Declares.terms_eq {payload baseline candidate baseline' candidate' : Value}
    {terms terms' : ClaimTerms} (declares : Declares payload terms baseline candidate)
    (again : Declares payload terms' baseline' candidate') : terms = terms' := by
  obtain ⟨entries, claim, rfl, claimed, metric, threshold, direction⟩ := declares.terms
  obtain ⟨entries', claim', same, claimed', metric', threshold', direction'⟩ := again.terms
  obtain rfl := Value.dict.inj same
  rw [claimed] at claimed'
  obtain rfl := Except.ok.inj claimed'
  rw [metric] at metric'
  rw [threshold] at threshold'
  rw [direction] at direction'
  cases terms
  cases terms'
  rw [ClaimTerms.mk.injEq]
  exact ⟨Except.ok.inj metric', Except.ok.inj threshold', Except.ok.inj direction'⟩

theorem artifactsOf_inj {paths others : ExperimentPaths}
    (same : artifactsOf paths = artifactsOf others) : paths = others := by
  cases paths
  cases others
  simpa [artifactsOf] using same

variable {env tree} {other : RepositoryTree} {limits limits' : Limits} {plan : ManifestAuditPlan}
  {artifacts artifacts' : List Str}

theorem manifest_alike {paths : List Str} (alike : ReadAlike tree other paths) {manifest : Str}
    (listed : manifest ∈ paths) : tree.manifest env manifest = other.manifest env manifest := by
  have read : (tree.runtime env).readText (tree.at manifest) =
      (other.runtime env).readText (other.at manifest) := by
    have bytes := alike.reads manifest listed
    change (tree.runtime env).readBytes (tree.at manifest) =
      (other.runtime env).readBytes (other.at manifest) at bytes
    rw [Runtime.readText, Runtime.readText, bytes]
    rfl
  rw [RepositoryTree.manifest, RepositoryTree.manifest, read]
  rfl

/-- The audits of one plan in two such trees are the same. -/
theorem audit_alike (planned : Planned (tree.tools env) limits plan artifacts)
    (again : Planned (other.tools env) limits' plan artifacts')
    (alike : ReadAlike tree other plan.paths) :
    tree.audit env plan.manifestPath = other.audit env plan.manifestPath := by
  -- the same texts lie at the same places, so the same manifest is read
  have listed : plan.manifestPath ∈ plan.paths := (planned.paths _).mpr (.inl rfl)
  have places (path : Str) : tree.at path = other.at path := by
    rw [RepositoryTree.at, RepositoryTree.at, alike.root]
  have manifests : tree.manifest env plan.manifestPath = other.manifest env plan.manifestPath :=
    manifest_alike alike listed
  have payloads : (tree.tools env).payload plan.manifestPath =
      (other.tools env).payload plan.manifestPath :=
    congrArg (Except.map (Option.map declaredManifest)) manifests
  obtain rfl : artifacts = artifacts' := by
    have declared := planned.declared
    rw [declaredArtifactPaths, payloads] at declared
    exact Option.some.inj (Except.ok.inj (declared.symm.trans again.declared))
  obtain ⟨spec, raising, loaded, located, files, resolved⟩ := planned_spec env tree planned
  obtain ⟨spec', raising', loaded', located', files', resolved'⟩ := planned_spec env other again
  -- the specification is what the manifest declares
  obtain rfl : spec = spec' := by
    obtain ⟨payload, baseline, candidate, root, read, declares, -⟩ :=
      loadResearchSpec_ok env tree planned.names (planned.free _ listed) loaded
    obtain ⟨payload', baseline', candidate', root', read', declares', -⟩ :=
      loadResearchSpec_ok env other again.names (again.free _ listed) loaded'
    obtain ⟨json, payloadRead, -⟩ := map_ok_iff.mp planned.declared
    obtain ⟨found, manifest, -⟩ := map_ok_iff.mp payloadRead
    have same := manifest_eq env tree manifest read
    have same' := manifest_eq env other (manifests.symm.trans manifest) read'
    obtain rfl := Option.some.inj (same.symm.trans same')
    have terms := ClaimTerms.mk.inj (declares.terms_eq declares')
    have same : artifactsOf spec.baseline ++ artifactsOf spec.candidate =
        artifactsOf spec'.baseline ++ artifactsOf spec'.candidate := by
      rw [files, files']
      exact List.map_congr_left fun path _ => places path
    obtain ⟨baselines, candidates⟩ := List.append_inj same rfl
    cases spec
    cases spec'
    rw [ResearchSpec.mk.injEq]
    exact ⟨located.trans ((places _).trans located'.symm), terms.1, terms.2.1,
      artifactsOf_inj baselines, artifactsOf_inj candidates, terms.2.2⟩
  -- the arms read only the declared artifacts
  have surroundings : AuditsAlike (tree.faulty env) (other.faulty env)
      (artifactsOf spec.baseline ++ artifactsOf spec.candidate) := by
    refine ⟨rfl, rfl, rfl, rfl, rfl, rfl, ?_, ?_, fun _ _ => rfl, ?_⟩ <;> rw [files] <;>
      intro path member <;>
      obtain ⟨relative, inside, rfl⟩ := List.mem_map.mp member
    · have same := alike.reads relative ((planned.paths _).mpr (.inr inside))
      rw [← places] at same
      exact same
    · have same := alike.existence relative ((planned.paths _).mpr (.inr inside))
      rw [← places] at same
      exact same
    · have same := resolved' relative inside
      rw [← places] at same
      exact (resolved relative inside).trans same.symm
  rw [RepositoryTree.audit, RepositoryTree.audit, Raising.auditResearch, Raising.auditResearch,
    raising, raising']
  change (handled (Raising.auditSpec (tree.faulty env) spec) >>= _) =
    (handled (Raising.auditSpec (other.faulty env) spec) >>= _)
  rw [auditSpec_alike surroundings]

end Trees

/-- Every plan lists exactly the files of its audit, and trees in which the plan is made and its
files read alike have the same snapshot. -/
theorem plans_exact (env : AuditEnvironment) (tree : RepositoryTree) (limits : Limits)
    (selectedPaths manifests : List Str) (plans : List ManifestAuditPlan)
    (returned : planAroundSelected (tree.tools env) limits selectedPaths manifests = .ok plans) :
    ∀ plan ∈ plans, PlanExact env tree limits plan ∧
      ∀ (other : RepositoryTree) (otherLimits : Limits) (otherSelected otherManifests : List Str)
        (otherPlans : List ManifestAuditPlan),
        planAroundSelected (other.tools env) otherLimits otherSelected otherManifests =
          .ok otherPlans → plan ∈ otherPlans → ReadAlike tree other plan.paths →
            tree.snapshot env plan = other.snapshot env plan := by
  intro plan member
  obtain ⟨raw, -, bundle⟩ := planAroundSelected_mem _ returned member
  obtain ⟨artifacts, planned⟩ := bundleOf_planned _ bundle
  refine ⟨planned_exact env tree planned, ?_⟩
  intro other otherLimits otherSelected otherManifests otherPlans otherReturned otherMember alike
  obtain ⟨raw', -, bundle'⟩ := planAroundSelected_mem _ otherReturned otherMember
  obtain ⟨artifacts', again⟩ := bundleOf_planned _ bundle'
  rw [RepositoryTree.snapshot, RepositoryTree.snapshot, audit_alike planned again alike]

/-! ### A manifest without its artifacts -/

def bareManifest : Str :=
  lit "claim: \x7bmetric: accuracy, minimum_improvement: 0\x7d\n" ++
    lit "baseline: \x7bconfig: data/a.yaml, results: data/a.json, train_dataset: data/t.jsonl, " ++
    lit "eval_dataset: data/e.jsonl\x7d\n" ++
    lit "candidate: \x7bconfig: data/b.yaml, results: data/b.json, train_dataset: data/t.jsonl, " ++
    lit "eval_dataset: data/e.jsonl\x7d\n"

def bareExperiment (config results : Str) : Value :=
  .dict [(.str "config", .str config), (.str "results", .str results),
    (.str "train_dataset", .str "data/t.jsonl"), (.str "eval_dataset", .str "data/e.jsonl")]

def barePayload : Value :=
  .dict [(.str "claim", .dict [(.str "metric", .str "accuracy"),
      (.str "minimum_improvement", .int 0)]),
    (.str "baseline", bareExperiment "data/a.yaml" "data/a.json"),
    (.str "candidate", bareExperiment "data/b.yaml" "data/b.json")]

/-- A loader that knows the manifest; nothing is hashed, and no set is frozen. -/
def bareEnvironment : AuditEnvironment where
  isWindowsAbsolute _ := false
  yamlLoad text :=
    if text = bareManifest then .ok (.ofValue barePayload) else .error (.yaml (.invalid []))
  yamlFault _ := none
  sha256 _ := []
  repr s := lit "'" ++ s ++ lit "'"
  decodeErrorText _ := []
  jsonErrorText _ := []
  casefold s := s
  valueRepr _ := .error intTextError

theorem repoNamed : ∀ part ∈ [lit "repo"], IsName part := by
  intro part member
  rw [List.mem_singleton.mp member]
  exact ⟨by decide, by decide, by decide, by decide⟩

/-- The manifest alone, with what a read of any other path raises. -/
def bareTree (missing : Str → ReadError) : RepositoryTree where
  rootParts := [lit "repo"]
  readBytes path :=
    if path = lit "/repo/research.yaml" then .ok (asciiEncode bareManifest)
    else .error (missing path)
  pathExists path := path == lit "/repo/research.yaml"
  resolve path := .ok path
  isSymlink _ := some false
  statSize path := if path = lit "/repo/research.yaml" then some bareManifest.length else none
  readChars path most :=
    if path = lit "/repo/research.yaml" then some (min most bareManifest.length) else none
  isConfinedFile path := path == lit "/repo/research.yaml"
  named := repoNamed
  resolves _ _ _ _ returned := (Except.ok.inj returned).symm

/-- There is no `data`. -/
def noDirectory : RepositoryTree := bareTree fun _ => .notFound

/-- `data` is a regular file. -/
def fileForDirectory : RepositoryTree :=
  bareTree fun path => .other (lit "[Errno 20] Not a directory: '" ++ path ++ lit "'")

def barePlan : ManifestAuditPlan :=
  ⟨lit "research.yaml", [lit "research.yaml", lit "data/a.yaml", lit "data/a.json",
    lit "data/t.jsonl", lit "data/e.jsonl", lit "data/b.yaml", lit "data/b.json"]⟩

/-- The same files and another one. -/
def withReadme : RepositoryTree :=
  { noDirectory with
    pathExists := fun path => noDirectory.pathExists path || path == lit "/repo/README.md" }

def planBare (tree : RepositoryTree) : Except Fault (List ManifestAuditPlan) :=
  planAroundSelected (tree.tools bareEnvironment) Limits.default [] [lit "research.yaml"]

theorem planBare_eq {tree : RepositoryTree} (planned : (planBare tree).toOption = some [barePlan]) :
    planAroundSelected (tree.tools bareEnvironment) Limits.default [] [lit "research.yaml"] =
      .ok [barePlan] :=
  toOption_eq_some planned

/-- A file that no manifest names changes nothing. -/
theorem plans_exact_bare :
    PlanExact bareEnvironment noDirectory Limits.default barePlan ∧
      noDirectory.snapshot bareEnvironment barePlan =
        withReadme.snapshot bareEnvironment barePlan := by
  have planned := planBare_eq
    (by decide +kernel : (planBare noDirectory).toOption = some [barePlan])
  have again := planBare_eq
    (by decide +kernel : (planBare withReadme).toOption = some [barePlan])
  obtain ⟨exact', same⟩ := plans_exact bareEnvironment noDirectory Limits.default []
    [lit "research.yaml"] [barePlan] planned barePlan (List.mem_singleton_self _)
  refine ⟨exact', same withReadme Limits.default [] [lit "research.yaml"] [barePlan] again
    (List.mem_singleton_self _) ⟨rfl, ?_, ?_⟩⟩
  · decide +kernel
  · exact fun _ _ => rfl

/-- The explanation of the first finding. -/
def firstExplanation (snapshot : AuditSnapshot) : Option Str :=
  match snapshot.findings.head? with
  | some (.object members) =>
    match lookupKey "explanation" members with
    | some (.str text) => some text
    | _ => none
  | _ => none

/-- A missing directory and a file in its place are told apart by what the audit says. -/
theorem snapshots_differ :
    planAroundSelected (noDirectory.tools bareEnvironment) Limits.default []
        [lit "research.yaml"] = .ok [barePlan] ∧
      noDirectory.rootParts = fileForDirectory.rootParts ∧
      (∀ path ∈ barePlan.paths,
        noDirectory.pathExists (noDirectory.at path) =
            fileForDirectory.pathExists (fileForDirectory.at path) ∧
          (noDirectory.readBytes (noDirectory.at path)).toOption =
            (fileForDirectory.readBytes (fileForDirectory.at path)).toOption) ∧
      noDirectory.snapshot bareEnvironment barePlan ≠
        fileForDirectory.snapshot bareEnvironment barePlan := by
  refine ⟨planBare_eq (by decide +kernel), rfl, by decide +kernel, fun same => ?_⟩
  have explained := congrArg (fun snapshot => snapshot.toOption.join.bind firstExplanation) same
  exact absurd explained (by decide +kernel)

end ClaimCI.Review
