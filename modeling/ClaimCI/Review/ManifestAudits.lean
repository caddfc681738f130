import ClaimCI.Review.Evidence

/-!
# Manifest audits

Which manifests of a checkout are audited, the files that each audit reserves, and that planning the
chosen manifests again reserves the same files.
-/

open Python

namespace ClaimCI.Review

/-- What a deterministic audit found. -/
structure AuditOutcome where
  verdict : Str
  metric : Str
  minimumImprovement : Binary64
  direction : Str
  findings : List Json

structure AuditSnapshot extends AuditOutcome where
  manifestPath : Str

/-- A manifest with the files it declares, reserved for an audit. -/
structure ManifestAuditPlan where
  manifestPath : Str
  paths : List Str
  deriving DecidableEq

/-- An audit with the files it read. -/
structure ManifestAuditBundle where
  snapshot : AuditSnapshot
  paths : List Str

/-- What the deterministic tools find under the repository root. -/
structure ManifestTools where
  casefold : Str → Str
  /-- The path resolves to a regular file under the root. -/
  isConfinedFile : Str → Bool
  /-- `_has_symlink_component`. -/
  isLinked : Str → Bool
  /-- `path.exists()`. -/
  exists' : Str → Bool
  /-- The size of a regular file; `none` is any other file, or an `OSError`. -/
  sizeOf : Str → Option Nat
  /-- How many characters a read of at most so many returns; `none` is an error. -/
  readChars : Str → Nat → Option Nat
  /-- The manifest, loaded; `none` is an error that is handled. -/
  payload : Str → Except TagFault (Option Json)
  /-- `load_research_spec` accepts the manifest. -/
  loadsSpec : Str → Except TagFault Bool
  /-- `audit_research`, of the manifest at a path; `none` is an error that is handled. -/
  audit : Str → Except TagFault (Option AuditOutcome)

variable (tools : ManifestTools)

/-! ### Discovery -/

/-- `discover_manifests`, of candidates sorted by depth and name. -/
def discoverManifests (repositoryPaths : List Str) (maxManifests : Nat) : List Str :=
  let candidates := (repositoryPaths.filterMap safeRelative).filter fun path =>
    [lit "research.yaml", lit "research.yml"].contains (tools.casefold (pathName path)) &&
      tools.isConfinedFile path
  (candidates.dedup.insertionSort fun a b =>
    let depths := ((posixParts a).length, (posixParts b).length)
    if depths.1 ≠ depths.2 then depths.1 < depths.2
    else if tools.casefold a ≠ tools.casefold b then strLe (tools.casefold a) (tools.casefold b) = true
    else strLe a b = true).take maxManifests

/-! ### Planning -/

/-- `_bounded_text`: a missing file passes. -/
def isBounded (limits : Limits) (path : Str) : Bool :=
  if tools.isLinked path then false
  else if !tools.exists' path then true
  else
    match tools.sizeOf path with
    | none => false
    | some size =>
      if limits.maxFileChars * 4 < size then false
      else (tools.readChars path (limits.maxFileChars + 1)).any fun chars =>
        chars ≤ limits.maxFileChars

def ARTIFACT_FIELDS : List Str := ["config", "results", "train_dataset", "eval_dataset"]

/-- A declared artifact, relative to the directory of the manifest. -/
def declaredPath (manifest : Str) : Option Json → Option Str
  | some (.str raw) =>
    if raw.contains BACKSLASH then none
    else
      match safeRelative raw with
      | none => none
      | some artifact =>
        safeRelative ([SLASH].intercalate ((posixParts manifest).dropLast ++ posixParts artifact))
  | _ => none

/-- The artifacts of one experiment. -/
def declaredOf (manifest : Str) : Option Json → Option (List Str)
  | some (.object experiment) =>
    ARTIFACT_FIELDS.mapM fun field => declaredPath manifest (lookupKey field experiment)
  | _ => none

/-- The artifacts that a loaded manifest declares. -/
def declaredArtifacts (manifest : Str) : Option Json → Option (List Str)
  | some (.object members) => do
    let baseline ← declaredOf manifest (lookupKey "baseline" members)
    let candidate ← declaredOf manifest (lookupKey "candidate" members)
    pure (baseline ++ candidate)
  | _ => none

/-- `_declared_artifact_paths`. -/
def declaredArtifactPaths (manifest : Str) : Except TagFault (Option (List Str)) :=
  (tools.payload manifest).map (declaredArtifacts manifest)

/-- The plan of one manifest, apart from the file limit. -/
def bundleOf (limits : Limits) (raw : Str) : Except TagFault (Option ManifestAuditPlan) :=
  match safeRelative raw with
  | none => .ok none
  | some relative =>
    if tools.isLinked relative || !isBounded tools limits relative then .ok none
    else do
      match ← declaredArtifactPaths tools relative with
      | none => pure none
      | some artifacts =>
        if artifacts.any tools.isLinked then pure none
        else do
          let loads ← tools.loadsSpec relative
          if !loads || artifacts.any (fun path => !isBounded tools limits path) then pure none
          else pure (some ⟨relative, (relative :: artifacts).reverse.dedup.reverse⟩)

/-- One round over the manifests: a plan that exceeds the file limit is left out. -/
def planManifest (limits : Limits) (state : List Str × List ManifestAuditPlan) (raw : Str) :
    Except TagFault (List Str × List ManifestAuditPlan) := do
  match ← bundleOf tools limits raw with
  | none => pure state
  | some plan =>
    if limits.maxFiles < (state.1 ++ plan.paths).dedup.length then pure state
    else pure (state.1 ++ plan.paths, state.2 ++ [plan])

/-- `plan_manifest_audits`, without paths that are selected before. -/
def planManifestAudits (limits : Limits) (manifests : List Str) :
    Except TagFault (List ManifestAuditPlan) :=
  (manifests.foldlM (planManifest tools limits) ([], [])).map Prod.snd

/-- `select_relevant_manifest_audit_plans`. -/
def selectRelevantPlans (plans : List ManifestAuditPlan) (changedPaths : List Str) :
    Except Fault (List ManifestAuditPlan) :=
  match changedPaths.mapM safeRelative with
  | none => reviewError "changed manifest path is unsafe"
  | some changed => .ok (plans.filter fun plan => plan.paths.any fun path => changed.contains path)

/-- `snapshot_audit_result`: no link leads to the manifest of a plan, so that it resolves to itself. -/
def snapshotAuditResult (manifestPath : Str) (outcome : AuditOutcome) : AuditSnapshot :=
  { outcome with manifestPath }

/-- The audit of a plan; one that raises what the handler names is left out. -/
def executePlan (plan : ManifestAuditPlan) : Except TagFault (Option ManifestAuditBundle) :=
  (tools.audit plan.manifestPath).map fun outcome =>
    outcome.map fun outcome => ⟨snapshotAuditResult plan.manifestPath outcome, plan.paths⟩

/-- `collect_manifest_audits`. -/
def collectManifestAudits (limits : Limits) (manifests : List Str) :
    Except TagFault (List ManifestAuditBundle) := do
  let plans ← planManifestAudits tools limits manifests
  let executed ← plans.mapM (executePlan tools)
  pure executed.reduceOption

/-- `run_manifest_audits`. -/
def runManifestAudits (limits : Limits) (manifests : List Str) :
    Except TagFault (List AuditSnapshot) := do
  let bundles ← collectManifestAudits tools limits manifests
  pure (bundles.map (·.snapshot))

/-! ### Paths in their normal spelling -/

/-- A normal path is the spelling of its own parts. -/
theorem posixParts_intercalate {path : Str} (some : posixParts path ≠ []) :
    posixParts ([SLASH].intercalate (posixParts path)) = posixParts path := by
  have apart : ∀ part ∈ posixParts path, SLASH ∉ part := fun part member =>
    not_mem_of_mem_split SLASH path part (List.mem_of_mem_filter member)
  conv_lhs => rw [posixParts, split_intercalate some apart]
  exact List.filter_eq_self.mpr fun part member => (List.mem_filter.mp member).2

/-- No backslash. -/
theorem portable_of_not_mem {path : Str} (plain : BACKSLASH ∉ path) : portable path = path := by
  rw [portable]
  conv_rhs => rw [← List.map_id path]
  exact List.map_congr_left fun c member =>
    if_neg fun backslash : c = BACKSLASH => plain (backslash ▸ member)

theorem not_mem_portable (path : Str) : BACKSLASH ∉ portable path := by
  intro member
  obtain ⟨c, -, image⟩ := List.mem_map.mp member
  split at image
  · exact absurd image (by decide)
  next other => exact other image

theorem mem_intercalate {sep c : CodePoint} {parts : List Str} (h : c ∈ [sep].intercalate parts) :
    c = sep ∨ ∃ part ∈ parts, c ∈ part := by
  induction parts with
  | nil => cases h
  | cons part parts ih =>
    cases parts with
    | nil =>
      rw [List.intercalate_singleton] at h
      exact Or.inr ⟨part, List.mem_cons_self, h⟩
    | cons next parts =>
      rw [List.intercalate_cons_cons, List.append_assoc, List.singleton_append, List.mem_append,
        List.mem_cons] at h
      rcases h with here | rfl | later
      · exact Or.inr ⟨part, List.mem_cons_self, here⟩
      · exact Or.inl rfl
      · exact (ih later).imp_right fun ⟨other, member, inside⟩ =>
          ⟨other, List.mem_cons_of_mem part member, inside⟩

theorem mem_of_mem_posixParts {path part : Str} {c : CodePoint} (member : part ∈ posixParts path)
    (inside : c ∈ part) : c ∈ path := by
  have piece := List.mem_of_mem_filter member
  clear member
  induction path generalizing part with
  | nil =>
    rw [split, List.mem_singleton] at piece
    rw [piece] at inside
    cases inside
  | cons d path ih =>
    by_cases sep : d = SLASH
    · rw [split, if_pos sep, List.mem_cons] at piece
      rcases piece with rfl | later
      · cases inside
      · exact List.mem_cons_of_mem d (ih inside later)
    · obtain ⟨first, rest, cut, whole⟩ := split_cons_of_ne sep path
      rw [whole, List.mem_cons] at piece
      rcases piece with rfl | later
      · rcases List.mem_cons.mp inside with rfl | inside
        · exact List.mem_cons_self
        · exact List.mem_cons_of_mem d (ih inside (cut ▸ List.mem_cons_self))
      · exact List.mem_cons_of_mem d (ih inside (cut ▸ List.mem_cons_of_mem first later))

/-- A normal spelling: it joins its parts, and has no backslash. -/
structure IsNormal (path : Str) : Prop where
  plain : BACKSLASH ∉ path
  parts : posixParts path ≠ []
  joined : [SLASH].intercalate (posixParts path) = path

theorem isNormal_intercalate {path : Str} (plain : BACKSLASH ∉ path) (some : posixParts path ≠ []) :
    IsNormal ([SLASH].intercalate (posixParts path)) := by
  have same := posixParts_intercalate some
  refine ⟨fun member => ?_, by rwa [same], by rw [same]⟩
  rcases mem_intercalate member with slash | ⟨part, listed, inside⟩
  · exact absurd slash (by decide)
  · exact plain (mem_of_mem_posixParts listed inside)

theorem safeRelative_normal {raw path : Str} (h : safeRelative raw = some path) : IsNormal path := by
  unfold safeRelative at h
  dsimp only at h
  split at h
  · cases h
  · split at h
    · cases h
    · split at h
      · cases h
      next filled =>
        rw [← Option.some.inj h]
        exact isNormal_intercalate (not_mem_portable raw) filled

/-- Normalizing again changes nothing, when it is allowed. -/
theorem IsNormal.safeRelative_eq {path other : Str} (normal : IsNormal path)
    (h : safeRelative path = some other) : other = path := by
  unfold safeRelative at h
  rw [portable_of_not_mem normal.plain] at h
  dsimp only at h
  split at h
  · cases h
  · split at h
    · cases h
    · split at h
      · cases h
      · rw [← Option.some.inj h, normal.joined]

/-! ### The file limit -/

/-- What a successful `mapM` lists comes from the list. -/
theorem mem_of_mapM_some {α β : Type} {f : α → Option β} {items : List α} {found : List β} {b : β}
    (h : items.mapM f = some found) (member : b ∈ found) : ∃ a ∈ items, f a = some b := by
  induction items generalizing found with
  | nil =>
    obtain rfl := Option.some.inj h
    cases member
  | cons a items ih =>
    rw [List.mapM_cons] at h
    obtain ⟨first, read, h⟩ := Option.bind_eq_some_iff.mp h
    obtain ⟨rest, later, h⟩ := Option.bind_eq_some_iff.mp h
    obtain rfl := Option.some.inj h
    rcases List.mem_cons.mp member with rfl | member
    · exact ⟨a, List.mem_cons_self, read⟩
    · exact (ih later member).imp fun other there => there.imp_left (List.mem_cons_of_mem a)

theorem map_ok_iff {ε α β : Type} {x : Except ε α} {f : α → β} {b : β} :
    x.map f = .ok b ↔ ∃ a, x = .ok a ∧ f a = b := by
  cases x with
  | error raised => simp [Except.map]
  | ok a => simp [Except.map]

/-- Declared artifacts are paths that were made relative. -/
theorem declaredArtifactPaths_relative {manifest path : Str} {artifacts : List Str}
    (h : declaredArtifactPaths tools manifest = .ok (some artifacts)) (member : path ∈ artifacts) :
    ∃ raw, safeRelative raw = some path := by
  have one {value : Option Json} {declared : List Str} (found : declaredOf manifest value = some declared)
      (listed : path ∈ declared) : ∃ raw, safeRelative raw = some path := by
    unfold declaredOf at found
    split at found
    next experiment =>
      obtain ⟨field, -, read⟩ := mem_of_mapM_some found listed
      unfold declaredPath at read
      split at read
      next raw =>
        split at read
        · cases read
        · split at read
          · cases read
          · exact ⟨_, read⟩
      · cases read
    · cases found
  obtain ⟨payload, -, h⟩ := map_ok_iff.mp h
  unfold declaredArtifacts at h
  split at h
  · obtain ⟨baseline, first, h⟩ := Option.bind_eq_some_iff.mp h
    obtain ⟨candidate, second, h⟩ := Option.bind_eq_some_iff.mp h
    obtain rfl := Option.some.inj h
    exact (List.mem_append.mp member).elim (one first) (one second)
  · cases h

/-- Declared artifacts are spelled normally. -/
theorem declaredArtifactPaths_normal {manifest path : Str} {artifacts : List Str}
    (h : declaredArtifactPaths tools manifest = .ok (some artifacts)) (member : path ∈ artifacts) :
    IsNormal path := by
  obtain ⟨raw, read⟩ := declaredArtifactPaths_relative tools h member
  exact safeRelative_normal read

/-- What a manifest must pass to be planned, and what its plan lists. -/
structure Bundled (limits : Limits) (raw : Str) (plan : ManifestAuditPlan) (artifacts : List Str) :
    Prop where
  spelled : safeRelative raw = some plan.manifestPath
  free : tools.isLinked plan.manifestPath = false
  bounded : isBounded tools limits plan.manifestPath = true
  declared : declaredArtifactPaths tools plan.manifestPath = .ok (some artifacts)
  frees : ∀ path ∈ artifacts, tools.isLinked path = false
  loads : tools.loadsSpec plan.manifestPath = .ok true
  bounds : ∀ path ∈ artifacts, isBounded tools limits path = true
  paths : ∀ path, path ∈ plan.paths ↔ path = plan.manifestPath ∨ path ∈ artifacts

theorem bundleOf_some {limits : Limits} {raw : Str} {plan : ManifestAuditPlan}
    (h : bundleOf tools limits raw = .ok (some plan)) :
    ∃ artifacts, Bundled tools limits raw plan artifacts := by
  unfold bundleOf at h
  split at h
  · cases h
  next relative spelled =>
    split at h
    · cases h
    next usable =>
      obtain ⟨found, declared, h⟩ := bind_ok_iff.mp h
      split at h
      · cases h
      next artifacts =>
        split at h
        · cases h
        next frees =>
          obtain ⟨loads, loaded, h⟩ := bind_ok_iff.mp h
          split at h
          · cases h
          next loadable =>
            obtain rfl := Option.some.inj (Except.ok.inj h)
            simp only [Bool.or_eq_true, Bool.not_eq_true', List.any_eq_true, not_or, not_exists,
              not_and, Bool.not_eq_true, Bool.not_eq_false] at usable frees loadable
            refine ⟨artifacts, spelled, usable.1, usable.2, declared, frees, loadable.1 ▸ loaded,
              loadable.2, fun path => ?_⟩
            rw [List.mem_reverse, List.mem_dedup, List.mem_reverse, List.mem_cons]

theorem bundleOf_normal {limits : Limits} {raw path : Str} {plan : ManifestAuditPlan}
    (h : bundleOf tools limits raw = .ok (some plan)) (member : path ∈ plan.paths) :
    IsNormal path := by
  obtain ⟨artifacts, bundled⟩ := bundleOf_some tools h
  rcases (bundled.paths path).mp member with rfl | listed
  · exact safeRelative_normal bundled.spelled
  · exact declaredArtifactPaths_normal tools bundled.declared listed

theorem bundleOf_manifest {limits : Limits} {raw : Str} {plan : ManifestAuditPlan}
    (h : bundleOf tools limits raw = .ok (some plan)) :
    safeRelative raw = some plan.manifestPath :=
  (bundleOf_some tools h).choose_spec.spelled

/-- A manifest has one plan, however it is spelled. -/
theorem bundleOf_unique {limits : Limits} {raw raw' : Str} {plan plan' : ManifestAuditPlan}
    (h : bundleOf tools limits raw = .ok (some plan))
    (h' : bundleOf tools limits raw' = .ok (some plan'))
    (same : plan.manifestPath = plan'.manifestPath) : plan = plan' := by
  have spelled : safeRelative raw = safeRelative raw' := by
    rw [bundleOf_manifest tools h, bundleOf_manifest tools h', same]
  have equal : bundleOf tools limits raw = bundleOf tools limits raw' := by
    unfold bundleOf
    rw [spelled]
  exact Option.some.inj (Except.ok.inj (h.symm.trans (equal.trans h')))

/-- A manifest that has a plan under a normal spelling has the same plan under any. -/
theorem bundleOf_again {limits : Limits} {raw : Str} {plan again : ManifestAuditPlan}
    (h : bundleOf tools limits raw = .ok (some plan))
    (h' : bundleOf tools limits plan.manifestPath = .ok (some again)) : again = plan := by
  have normal := safeRelative_normal (bundleOf_manifest tools h)
  exact bundleOf_unique tools h' h (normal.safeRelative_eq (bundleOf_manifest tools h'))

/-- A round that returns leaves its state, or adds a plan that keeps to the limit. -/
theorem planManifest_ok {limits : Limits} {state next : List Str × List ManifestAuditPlan}
    {raw : Str} (h : planManifest tools limits state raw = .ok next) :
    next = state ∨ ∃ plan, bundleOf tools limits raw = .ok (some plan) ∧
      (state.1 ++ plan.paths).dedup.length ≤ limits.maxFiles ∧
      next = (state.1 ++ plan.paths, state.2 ++ [plan]) := by
  obtain ⟨bundle, found, h⟩ := bind_ok_iff.mp h
  split at h
  · exact .inl (Except.ok.inj h).symm
  next plan =>
    split at h
    · exact .inl (Except.ok.inj h).symm
    next room => exact .inr ⟨plan, found, Nat.le_of_not_lt room, (Except.ok.inj h).symm⟩

/-- What the first state has and every round keeps, the last state has. -/
theorem foldlM_keeps {ε α β : Type} {p : β → Prop} {f : β → α → Except ε β} {items : List α}
    {start last : β} (first : p start)
    (keeps : ∀ item ∈ items, ∀ state next, p state → f state item = .ok next → p next)
    (h : items.foldlM f start = .ok last) : p last := by
  induction items generalizing start with
  | nil =>
    obtain rfl := Except.ok.inj h
    exact first
  | cons item items ih =>
    obtain ⟨next, step, h⟩ := bind_ok_iff.mp (List.foldlM_cons.symm.trans h)
    exact ih (keeps item List.mem_cons_self start next first step)
      (fun other member => keeps other (List.mem_cons_of_mem item member)) h

/-- The plans so far reserve the selected files, which keep to the limit; each is new or comes from
one of the manifests. -/
structure Reserved (limits : Limits) (manifests : List Str)
    (state : List Str × List ManifestAuditPlan) : Prop where
  files : state.1 = state.2.flatMap (·.paths)
  within : state.1.dedup.length ≤ limits.maxFiles
  planned : ∀ plan ∈ state.2, ∃ raw ∈ manifests, bundleOf tools limits raw = .ok (some plan)

theorem planManifest_reserved {limits : Limits} {manifests : List Str}
    {state next : List Str × List ManifestAuditPlan} (reserved : Reserved tools limits manifests state)
    {raw : Str} (listed : raw ∈ manifests) (h : planManifest tools limits state raw = .ok next) :
    Reserved tools limits manifests next := by
  rcases planManifest_ok tools h with rfl | ⟨plan, bundle, room, rfl⟩
  · exact reserved
  · refine ⟨?_, room, fun other member => ?_⟩
    · rw [List.flatMap_append, List.flatMap_singleton, reserved.files]
    · rcases List.mem_append.mp member with old | new
      · exact reserved.planned other old
      · obtain rfl := List.mem_singleton.mp new
        exact ⟨raw, listed, bundle⟩

theorem planManifests_reserved {limits : Limits} {manifests : List Str}
    {state : List Str × List ManifestAuditPlan}
    (h : manifests.foldlM (planManifest tools limits) ([], []) = .ok state) :
    Reserved tools limits manifests state :=
  foldlM_keeps ⟨rfl, Nat.zero_le _, List.forall_mem_nil _⟩
    (fun _ listed _ _ reserved step => planManifest_reserved tools reserved listed step) h

theorem length_dedup_le_of_subset {left right : List Str} (h : left ⊆ right) :
    left.dedup.length ≤ right.dedup.length :=
  (List.subperm_of_subset (List.nodup_dedup left) fun _ member =>
    List.mem_dedup.mpr (h (List.mem_dedup.mp member))).length_le

variable {limits : Limits} {manifests : List Str} {plans : List ManifestAuditPlan}

/-- The plans together keep to the file limit. -/
theorem planManifestAudits_within (h : planManifestAudits tools limits manifests = .ok plans) :
    (plans.flatMap (·.paths)).dedup.length ≤ limits.maxFiles := by
  obtain ⟨state, run, rfl⟩ := map_ok_iff.mp h
  have reserved := planManifests_reserved tools run
  rw [← reserved.files]
  exact reserved.within

theorem planManifestAudits_mem (h : planManifestAudits tools limits manifests = .ok plans)
    {plan : ManifestAuditPlan} (member : plan ∈ plans) :
    ∃ raw ∈ manifests, bundleOf tools limits raw = .ok (some plan) := by
  obtain ⟨state, run, rfl⟩ := map_ok_iff.mp h
  exact (planManifests_reserved tools run).planned plan member

/-- A collected audit returned for one of the plans. -/
theorem collectManifestAudits_mem {bundles : List ManifestAuditBundle}
    (h : collectManifestAudits tools limits manifests = .ok bundles) {bundle : ManifestAuditBundle}
    (member : bundle ∈ bundles) :
    ∃ plan outcome, (∃ raw ∈ manifests, bundleOf tools limits raw = .ok (some plan)) ∧
      tools.audit plan.manifestPath = .ok (some outcome) ∧
      bundle = ⟨snapshotAuditResult plan.manifestPath outcome, plan.paths⟩ := by
  obtain ⟨plans, planned, h⟩ := bind_ok_iff.mp h
  obtain ⟨executed, run, h⟩ := bind_ok_iff.mp h
  obtain rfl := Except.ok.inj h
  obtain ⟨plan, listed, found⟩ := (mapM_ok run).1 _ (List.reduceOption_mem_iff.mp member)
  obtain ⟨outcome, audited, made⟩ := map_ok_iff.mp found
  obtain ⟨result, rfl, rfl⟩ := Option.map_eq_some_iff.mp made
  exact ⟨plan, result, planManifestAudits_mem tools planned listed, audited, rfl⟩

/-- An audit that is executed for the chosen plans read the files of one of them. -/
theorem collectManifestAudits_paths {chosen : List ManifestAuditPlan}
    (planned : planManifestAudits tools limits manifests = .ok plans) (known : chosen ⊆ plans)
    {bundles : List ManifestAuditBundle}
    (h : collectManifestAudits tools limits (chosen.map (·.manifestPath)) = .ok bundles)
    {bundle : ManifestAuditBundle} (member : bundle ∈ bundles) :
    ∃ plan ∈ chosen, bundle.paths = plan.paths ∧
      bundle.snapshot.manifestPath = plan.manifestPath := by
  obtain ⟨again, outcome, ⟨raw, listed, bundle'⟩, -, rfl⟩ := collectManifestAudits_mem tools h member
  obtain ⟨plan, here, rfl⟩ := List.mem_map.mp listed
  obtain ⟨first, -, before⟩ := planManifestAudits_mem tools planned (known here)
  obtain rfl := bundleOf_again tools before bundle'
  exact ⟨again, here, rfl, rfl⟩

end ClaimCI.Review
