import ClaimCI.Review.EvidenceReferences
import ClaimCI.Review.Orchestrator
import ClaimCI.Review.SourceQuotes

/-!
# The file budget

One limit of files and one of characters for the whole review: what the reservation of sources, the
manifest audits and the evidence routing spend of them together.
-/

open Python

namespace ClaimCI.Review

/-! ### Normal paths -/

theorem relativePath_normal {label raw path : Str} (h : relativePath label raw = .ok path) :
    IsNormal path := by
  obtain ⟨text, -, h⟩ := bind_ok_iff.mp h
  obtain ⟨⟨⟩, -, h⟩ := bind_ok_iff.mp h
  obtain ⟨⟨⟩, plain, h⟩ := bind_ok_iff.mp h
  obtain ⟨⟨⟩, -, h⟩ := bind_ok_iff.mp h
  obtain ⟨⟨⟩, filled, h⟩ := bind_ok_iff.mp h
  rw [← Except.ok.inj h]
  exact isNormal_intercalate (by simpa using rejectWhen_ok_iff.mp plain)
    (by simpa using rejectWhen_ok_iff.mp filled)

/-- The paths of sources are spelled normally. -/
theorem SourceRecord.path_normal {source : SourceRecord} {path : Str}
    (h : source.path.val = some path) : IsNormal path := by
  obtain ⟨raw, normalized⟩ := source.path.property
  rw [h] at normalized
  unfold normalizePath at normalized
  split at normalized
  · cases normalized
  · obtain ⟨text, relative, same⟩ := bind_ok_iff.mp normalized
    obtain rfl := Option.some.inj (Except.ok.inj same)
    exact relativePath_normal relative
  · cases normalized
  · cases normalized

theorem indexedPaths_ok {index paths found : List Str} {message : Str}
    (h : indexedPaths index message paths = .ok found) : paths.map safeRelative = found.map some := by
  induction paths generalizing found with
  | nil =>
    obtain rfl := Except.ok.inj h
    rfl
  | cons raw paths ih =>
    rw [indexedPaths, List.mapM_cons] at h
    obtain ⟨path, read, h⟩ := bind_ok_iff.mp h
    obtain ⟨rest, later, h⟩ := bind_ok_iff.mp h
    obtain rfl := Except.ok.inj h
    rw [List.map_cons, List.map_cons, ih later]
    congr 1
    split at read
    · cases read
    next path' normal =>
      split at read
      · rw [normal, Except.ok.inj read]
      · cases read

/-- Indexing normal paths finds these paths. -/
theorem indexedPaths_normal {index paths found : List Str} {message : Str}
    (normal : ∀ path ∈ paths, IsNormal path)
    (h : indexedPaths index message paths = .ok found) : found = paths := by
  have spelled := indexedPaths_ok h
  clear h
  induction paths generalizing found with
  | nil => exact List.map_eq_nil_iff.mp (spelled.symm.trans List.map_nil)
  | cons path paths ih =>
    cases found with
    | nil => cases spelled
    | cons first found =>
      rw [List.map_cons, List.map_cons] at spelled
      obtain ⟨head, tail⟩ := List.cons.inj spelled
      rw [(normal path List.mem_cons_self).safeRelative_eq head,
        ih (fun other member => normal other (List.mem_cons_of_mem path member)) tail]

/-! ### The reservation -/

/-- The kept sources have slots, and the slots keep to the limit. -/
structure HasSlots (maxFiles : Nat) (reserved : List Str) (state : List SourceRecord × List Str) :
    Prop where
  reserved : reserved ⊆ state.2
  within : state.2.dedup.length ≤ maxFiles
  kept : ∀ source ∈ state.1, ∀ path, source.path.val = some path → path ∈ state.2

theorem keepSource_slots {maxFiles : Nat} {reserved : List Str}
    {state : List SourceRecord × List Str} (slots : HasSlots maxFiles reserved state)
    (source : SourceRecord) : HasSlots maxFiles reserved (keepSource maxFiles state source) := by
  have keep {selected : List Str} (grows : state.2 ⊆ selected)
      (located : ∀ path, source.path.val = some path → path ∈ selected) :
      ∀ other ∈ state.1 ++ [source], ∀ path, other.path.val = some path → path ∈ selected := by
    intro other member path there
    rcases List.mem_append.mp member with old | new
    · exact grows (slots.kept other old path there)
    · obtain rfl := List.mem_singleton.mp new
      exact located path there
  unfold keepSource
  split
  -- title and description need no slot
  next metadata =>
    refine ⟨slots.reserved, slots.within, keep (List.Subset.refl _) fun path there => ?_⟩
    rw [metadata] at there
    cases there
  next path located =>
    -- a file that has a slot keeps it
    split
    next known =>
      refine ⟨slots.reserved, slots.within, keep (List.Subset.refl _) fun other there => ?_⟩
      obtain rfl : path = other := Option.some.inj (located.symm.trans there)
      simpa using known
    · split
      · exact slots
      next free =>
        have atMost := (length_dedup_concat state.2 path).1
        refine ⟨fun other member => List.mem_append_left [path] (slots.reserved member), ?_,
          keep (List.subset_append_left state.2 [path]) fun other there => ?_⟩
        · dsimp only
          omega
        · obtain rfl : path = other := Option.some.inj (located.symm.trans there)
          exact List.mem_append_right state.2 List.mem_cons_self

theorem keepSources_slots {maxFiles : Nat} {reserved : List Str} (sources : List SourceRecord)
    {state : List SourceRecord × List Str} (slots : HasSlots maxFiles reserved state) :
    HasSlots maxFiles reserved (sources.foldl (keepSource maxFiles) state) := by
  induction sources generalizing state with
  | nil => exact slots
  | cons source sources ih =>
    rw [List.foldl_cons]
    exact ih (keepSource_slots slots source)

variable {review : ReviewSite} {prTitle prDescription : Str} {prepared : Prepared}

theorem escaping_ok_iff {α : Type} {result : Except TagFault α} {value : α} :
    escaping result = .ok value ↔ result = .ok value := by
  cases result with
  | ok other => simp [escaping, Except.mapError]
  | error fault => simp [escaping, Except.mapError]

/-- What preparation reserves: the plans are among those of discovered manifests, and there are slots
for their files and for the kept sources. -/
theorem prepare_ok (h : prepare review prTitle prDescription = .ok prepared) :
    (∃ planned, planManifestAudits review.tools review.limits (discoverManifests review.tools
        prepared.sources.repositoryPaths (min 4 review.limits.maxFiles)) = .ok planned ∧
        prepared.plans ⊆ planned) ∧
      ∃ slots : List Str, slots.dedup.length ≤ review.limits.maxFiles ∧
        prepared.plans.flatMap (·.paths) ⊆ slots ∧ sourcePaths prepared.sources ⊆ slots := by
  obtain ⟨sources, -, h⟩ := bind_ok_iff.mp h
  obtain ⟨planned, reserve, h⟩ := bind_ok_iff.mp h
  obtain ⟨plans, relevant, h⟩ := bind_ok_iff.mp h
  obtain rfl := Except.ok.inj h
  have reserve := escaping_ok_iff.mp reserve
  -- the relevant plans are among the planned ones
  have chosen : plans ⊆ planned := by
    unfold selectRelevantPlans at relevant
    split at relevant
    · cases relevant
    · rw [← Except.ok.inj relevant]
      exact List.filter_sublist.subset
  have within : (plans.flatMap (·.paths)).dedup.length ≤ review.limits.maxFiles := by
    refine (length_dedup_le_of_subset fun path member => ?_).trans
      (planManifestAudits_within review.tools reserve)
    obtain ⟨plan, listed, inside⟩ := List.mem_flatMap.mp member
    exact List.mem_flatMap.mpr ⟨plan, chosen listed, inside⟩
  -- the audits' own paths are reserved before a source is read
  have start : HasSlots review.limits.maxFiles (plans.flatMap (·.paths))
      ([], plans.flatMap (·.paths)) :=
    ⟨List.Subset.refl _, within, fun source member => (nomatch member)⟩
  obtain ⟨reserved, room, kept⟩ := keepSources_slots sources.sources start
  refine ⟨⟨planned, reserve, chosen⟩, _, room, reserved, fun path member => ?_⟩
  obtain ⟨source, listed, located⟩ := List.mem_filterMap.mp member
  exact kept source listed path located

/-- Every plan is that of a discovered manifest. -/
theorem prepare_bundleOf (h : prepare review prTitle prDescription = .ok prepared)
    {plan : ManifestAuditPlan} (member : plan ∈ prepared.plans) :
    ∃ manifest ∈ discoverManifests review.tools prepared.sources.repositoryPaths
        (min 4 review.limits.maxFiles),
      bundleOf review.tools review.limits manifest = .ok (some plan) := by
  obtain ⟨⟨planned, reserve, chosen⟩, -⟩ := prepare_ok h
  exact planManifestAudits_mem review.tools reserve (chosen member)

/-! ### What is selected for evidence -/

/-- The plans are spelled normally. -/
theorem plan_normal (h : prepare review prTitle prDescription = .ok prepared)
    {plan : ManifestAuditPlan} (member : plan ∈ prepared.plans) {path : Str}
    (inside : path ∈ plan.paths) : IsNormal path := by
  obtain ⟨raw, -, bundle⟩ := prepare_bundleOf h member
  exact bundleOf_normal review.tools bundle inside

/-- An executed audit read the files of a plan, and the bundles for routing list them. -/
theorem executedAudits_ok (h : prepare review prTitle prDescription = .ok prepared)
    {executed : List ManifestAuditBundle} (run : executedAudits review prepared = .ok executed)
    {audit : ManifestAuditBundle} (member : audit ∈ executed) :
    ∃ plan ∈ prepared.plans, audit.paths = plan.paths ∧
      audit.snapshot.manifestPath = plan.manifestPath ∧
      ∃ bundle ∈ auditBundles prepared.plans (executed.map (·.snapshot)),
        bundle.paths = plan.paths := by
  obtain ⟨⟨planned, reserve, chosen⟩, -⟩ := prepare_ok h
  obtain ⟨plan, listed, paths, manifest⟩ := collectManifestAudits_paths review.tools reserve chosen
    (escaping_ok_iff.mp run) member
  refine ⟨plan, listed, paths, manifest, ?_⟩
  have named : plan.manifestPath == audit.snapshot.manifestPath := by rw [manifest, beq_self_eq_true]
  obtain ⟨found, there⟩ : ∃ found, prepared.plans.reverse.find?
      (fun plan => plan.manifestPath == audit.snapshot.manifestPath) = some found :=
    Option.isSome_iff_exists.mp (List.find?_isSome.mpr ⟨plan, List.mem_reverse.mpr listed, named⟩)
  have same : found.manifestPath = plan.manifestPath := by
    rw [← manifest]
    simpa using List.find?_some there
  obtain ⟨raw, -, bundle⟩ := prepare_bundleOf h listed
  obtain ⟨raw', -, bundle'⟩ :=
    prepare_bundleOf h (List.mem_reverse.mp (List.mem_of_find?_eq_some there))
  obtain rfl := bundleOf_unique review.tools bundle' bundle same
  refine ⟨⟨audit.snapshot, found.paths⟩, List.mem_filterMap.mpr
    ⟨audit.snapshot, List.mem_map_of_mem member, ?_⟩, rfl⟩
  rw [there]
  rfl

/-- The bundles for routing have the files of plans. -/
theorem auditBundles_paths {plans : List ManifestAuditPlan} {audits : List AuditSnapshot}
    {bundle : ManifestAuditBundle} (member : bundle ∈ auditBundles plans audits) :
    ∃ plan ∈ plans, bundle.paths = plan.paths := by
  obtain ⟨snapshot, -, found⟩ := List.mem_filterMap.mp member
  obtain ⟨plan, there, rfl⟩ := Option.map_eq_some_iff.mp found
  exact ⟨plan, List.mem_reverse.mp (List.mem_of_find?_eq_some there), rfl⟩

theorem mem_sortedSet {items : List Str} {item : Str} : item ∈ sortedSet items ↔ item ∈ items := by
  rw [sortedSet, (sortBy_perm_self id items.dedup).mem_iff, List.mem_dedup]

theorem nodup_sortedSet (items : List Str) : (sortedSet items).Nodup :=
  (sortBy_perm_self id items.dedup).nodup_iff.mpr (List.nodup_dedup items)

/-- A selected path is spelled normally, and is that of a kept source or an indexed file of a plan. -/
theorem selectedPaths_ok (h : prepare review prTitle prDescription = .ok prepared)
    {executed : List ManifestAuditBundle} {claims : List ScientificClaim} {path : Str}
    (member : path ∈ (evidenceRequest review prepared executed claims).selectedPaths) :
    IsNormal path ∧
      (path ∈ sourcePaths prepared.sources ∨ path ∈ prepared.plans.flatMap (·.paths)) := by
  rcases List.mem_append.mp (mem_sortedSet.mp member) with source | audited
  · obtain ⟨record, -, located⟩ := List.mem_filterMap.mp source
    exact ⟨SourceRecord.path_normal located, Or.inl source⟩
  · obtain ⟨bundle, listed, inside⟩ := List.mem_flatMap.mp (List.mem_of_mem_filter audited)
    obtain ⟨plan, planned, paths⟩ := auditBundles_paths listed
    rw [paths] at inside
    exact ⟨plan_normal h planned inside, Or.inr (List.mem_flatMap.mpr ⟨plan, planned, inside⟩)⟩

theorem selectedPaths_within (h : prepare review prTitle prDescription = .ok prepared)
    (executed : List ManifestAuditBundle) (claims : List ScientificClaim) :
    (evidenceRequest review prepared executed claims).selectedPaths.dedup.length ≤
      review.limits.maxFiles := by
  obtain ⟨-, slots, room, reserved, kept⟩ := prepare_ok h
  refine (length_dedup_le_of_subset fun path member => ?_).trans room
  exact (selectedPaths_ok h member).2.elim (fun source => kept source) fun planned => reserved planned

/-! ### The order of the paths -/

theorem foldl_keeps {α β γ : Type} (round : β → α → β) (view : β → γ)
    (keeps : ∀ state item, view (round state item) = view state) (items : List α) (state : β) :
    view (items.foldl round state) = view state := by
  induction items generalizing state with
  | nil => rfl
  | cons item items ih =>
    rw [List.foldl_cons, ih]
    exact keeps state item

theorem routeClaim_priorityOrder (site : Site) (request : EvidenceRequest)
    (index changed heuristic : List Str) (routing : Routing) (claim : ScientificClaim) :
    (routeClaim site request index changed heuristic routing claim).priorityOrder =
      routing.priorityOrder := by
  unfold routeClaim
  dsimp only
  rw [foldl_keeps _ Routing.priorityOrder]
  intro routing raw
  split <;> rfl

theorem routeClaims_priorityOrder (site : Site) (request : EvidenceRequest)
    (index changed heuristic : List Str) (claims : List ScientificClaim) (routing : Routing) :
    (claims.foldl (routeClaim site request index changed heuristic) routing).priorityOrder =
      routing.priorityOrder :=
  foldl_keeps _ Routing.priorityOrder
    (routeClaim_priorityOrder site request index changed heuristic) claims routing

/-- No path is visited twice. -/
theorem orderedPaths_nodup {plan : Plan} (priority : plan.routing.priorityOrder.Nodup) :
    plan.orderedPaths.Nodup := by
  unfold Plan.orderedPaths
  dsimp only
  refine List.nodup_append'.mpr ⟨List.nodup_append'.mpr ⟨priority, nodup_sortedSet _, ?_⟩,
    nodup_sortedSet _, ?_⟩
  · intro path first routed
    have fresh := (List.mem_filter.mp (mem_sortedSet.mp routed)).2
    simp [first] at fresh
  · intro path earlier markdown
    have fresh := (List.mem_filter.mp (mem_sortedSet.mp markdown)).2
    rcases List.mem_append.mp earlier with first | routed
    · simp [first] at fresh
    · have known := List.mem_of_mem_filter (mem_sortedSet.mp routed)
      simp only [Bool.and_eq_true, Bool.not_eq_true', List.contains_eq_mem, decide_eq_false_iff_not]
        at fresh
      exact fresh.1 known

theorem planEvidence_nodup (site : Site) (request : EvidenceRequest)
    (selected changed index : List Str) (priority : List (Str × Str)) :
    (planEvidence site request selected changed index priority).orderedPaths.Nodup := by
  apply orderedPaths_nodup
  unfold planEvidence
  dsimp only
  rw [routeClaims_priorityOrder]
  exact List.nodup_reverse.mpr (List.nodup_dedup _)

/-! ### The global file limit -/

/-- What evidence discovery raises apart from the global file limit. -/
def OtherFault (fault : Fault) : Prop := fault ≠ .reviewError FILE_LIMIT_MESSAGE

theorem encoded_other {text : Str} : Raises OtherFault (encoded text) := by
  unfold encoded
  split
  · exact raises_error.mpr (by simp [OtherFault])
  · exact raises_ok

theorem evidenceIdOf_other {host : Host} {material : Str} :
    Raises OtherFault (evidenceIdOf host material) :=
  raises_bind.mpr ⟨encoded_other, fun _ _ => raises_ok⟩

theorem issueTable_other {site : Site} {plan : Plan} {relative : Str} {file : CapturedText}
    {state : TableState} {table : MarkdownTable} :
    Raises OtherFault (issueTable site plan relative file state table) := by
  unfold issueTable
  dsimp only
  split
  · exact raises_ok
  · exact raises_bind.mpr ⟨evidenceIdOf_other, fun _ _ => raises_ok⟩

theorem regularReference_other {site : Site} {relative : Str} {file : CapturedText}
    {kind : EvidenceKind} {claimIds : List Str} {regular : RegularExcerpt} :
    Raises OtherFault (regularReference site relative file kind claimIds regular) :=
  raises_bind.mpr ⟨encoded_other, fun _ _ =>
    raises_bind.mpr ⟨evidenceIdOf_other, fun _ _ => raises_ok⟩⟩

theorem issueRegular_other {site : Site} {plan : Plan} {relative : Str} {file : CapturedText}
    {tables : TableState} {state : EvidenceState} :
    Raises OtherFault (issueRegular site plan relative file tables state) := by
  unfold issueRegular
  dsimp only
  split
  · exact raises_ok
  · split
    · exact raises_ok
    · exact raises_bind.mpr ⟨regularReference_other, fun _ _ => raises_ok⟩

theorem issueFile_other {site : Site} {plan : Plan} {relative : Str} {file : CapturedText}
    {state : EvidenceState} : Raises OtherFault (issueFile site plan relative file state) := by
  unfold issueFile
  dsimp only
  split
  · exact raises_ok
  · apply raises_bind.mpr ⟨?_, fun _ _ => issueRegular_other⟩
    exact raises_foldlM (fun _ _ => issueTable_other) _

theorem visitPath_other {site : Site} {plan : Plan} {state : EvidenceState} {relative : Str} :
    Raises OtherFault (visitPath site plan state relative) := by
  unfold visitPath
  dsimp only
  repeat' split
  all_goals first | exact raises_ok | exact issueFile_other

theorem indexedPaths_other {index paths : List Str} {message : Str}
    (other : message ≠ FILE_LIMIT_MESSAGE) : Raises OtherFault (indexedPaths index message paths) := by
  have refused : ∀ {α : Type}, Raises OtherFault (reviewError message : Except Fault α) :=
    raises_error.mpr fun same => other (Fault.reviewError.inj same)
  apply raises_mapM
  intro raw _
  split
  · exact refused
  · split
    · exact raises_ok
    · exact refused

theorem changedIndex_other {request : EvidenceRequest} {index : List Str} :
    Raises OtherFault (changedIndex request index) := by
  unfold changedIndex
  split
  · exact raises_ok
  · exact indexedPaths_other (by decide)

theorem priorityRoutes_other {request : EvidenceRequest} {index : List Str} :
    Raises OtherFault (priorityRoutes request index) := by
  refine raises_bind.mpr ⟨raises_rejectWhen fun same => ?_, fun _ _ => raises_bind.mpr ⟨?_, ?_⟩⟩
  · exact absurd (Fault.reviewError.inj same) (by decide)
  · apply raises_mapM
    intro claim _
    exact raises_bind.mpr ⟨indexedPaths_other (by decide), fun _ _ => raises_ok⟩
  · exact fun _ _ => raises_ok

/-- Discovery keeps to the global file limit when what is selected does. -/
theorem discoverEvidence_other (site : Site) (request : EvidenceRequest)
    (normal : ∀ path ∈ request.selectedPaths, IsNormal path)
    (within : request.selectedPaths.dedup.length ≤ request.limits.maxFiles) :
    Raises OtherFault (discoverEvidence site request) := by
  apply raises_bind.mpr ⟨indexedPaths_other (by decide), fun selected chosen => ?_⟩
  obtain rfl := indexedPaths_normal normal chosen
  -- The one check with this message passes.
  refine raises_bind.mpr ⟨?_, fun _ _ => raises_bind.mpr ⟨changedIndex_other, fun _ _ =>
    raises_bind.mpr ⟨priorityRoutes_other, fun _ _ => raises_bind.mpr ⟨?_, ?_⟩⟩⟩⟩
  · rw [rejectWhen, if_neg (by simpa using within)]
    exact raises_ok
  · exact raises_foldlM (fun _ _ => visitPath_other) _
  · exact fun _ _ => raises_ok

/-! ### The budget of a review -/

/-- References keep to the limits of characters, together and of each file. -/
def KeepsCharacters (limits : Limits) (references : List EvidenceReference) : Prop :=
  shownChars references ≤ limits.maxContextChars ∧
    ∀ path, shownChars (referencesOf path references) ≤ limits.maxFileChars

/-- The files that a review has spent: the issued sources, those of the executed audits, and those of
its evidence. -/
def spentFiles (prepared : Prepared) (executed : List ManifestAuditBundle)
    (evidence : EvidenceBundle) : List Str :=
  sourcePaths prepared.sources ++ executed.flatMap (·.paths) ++ evidence.references.map (·.path)

/-- Every file of an indexed manifest whose audit returns is indexed. -/
def AuditsIndexed (review : ReviewSite) : Prop :=
  ∀ raw ∈ review.repository.paths, ∀ plan outcome,
    bundleOf review.tools review.limits raw = .ok (some plan) →
      review.tools.audit plan.manifestPath = .ok (some outcome) →
        plan.paths ⊆ review.repository.paths

/-- A discovered manifest is an indexed path in its normal spelling. -/
theorem discoverManifests_mem {tools : ManifestTools} {repositoryPaths : List Str}
    {maxManifests : Nat} {manifest : Str}
    (member : manifest ∈ discoverManifests tools repositoryPaths maxManifests) :
    ∃ raw ∈ repositoryPaths, safeRelative raw = some manifest := by
  have sorted := (List.perm_insertionSort _ _).mem_iff.mp (List.mem_of_mem_take member)
  exact List.mem_filterMap.mp (List.mem_of_mem_filter (List.mem_dedup.mp sorted))

/-- Its plan is that of the indexed path. -/
theorem bundleOf_indexed {tools : ManifestTools} {limits : Limits} {raw manifest : Str}
    {plan : ManifestAuditPlan} (spelled : safeRelative raw = some manifest)
    (h : bundleOf tools limits manifest = .ok (some plan)) :
    bundleOf tools limits raw = .ok (some plan) := by
  have again := bundleOf_manifest tools h
  have same := (safeRelative_normal spelled).safeRelative_eq again
  rw [← h]
  unfold bundleOf
  rw [spelled, again, same]

theorem collectReviewSources_paths {host : Host} {tables : UnicodeTables} {repository : Repository}
    {limits : Limits} {bundle : SourceBundle}
    (h : collectReviewSources host tables repository prTitle prDescription limits = .ok bundle) :
    bundle.repositoryPaths = repository.paths := by
  obtain ⟨_, _, h⟩ := bind_ok_iff.mp h
  obtain ⟨_, _, h⟩ := bind_ok_iff.mp h
  obtain ⟨_, _, h⟩ := bind_ok_iff.mp h
  rw [← Except.ok.inj h]

theorem prepare_paths (h : prepare review prTitle prDescription = .ok prepared) :
    prepared.sources.repositoryPaths = review.repository.paths := by
  obtain ⟨sources, collected, h⟩ := bind_ok_iff.mp h
  obtain ⟨planned, -, h⟩ := bind_ok_iff.mp h
  obtain ⟨plans, -, h⟩ := bind_ok_iff.mp h
  rw [← Except.ok.inj h]
  exact (collectReviewSources_paths collected : sources.repositoryPaths = review.repository.paths)

/-- Sources and indexed files of executed audits are selected before evidence is. -/
theorem spent_selected (h : prepare review prTitle prDescription = .ok prepared)
    {executed : List ManifestAuditBundle} (run : executedAudits review prepared = .ok executed)
    (indexed : AuditsIndexed review) (claims : List ScientificClaim) :
    sourcePaths prepared.sources ++ executed.flatMap (·.paths) ⊆
      (evidenceRequest review prepared executed claims).selectedPaths := by
  intro path member
  apply mem_sortedSet.mpr
  rcases List.mem_append.mp member with source | audited
  · exact List.mem_append_left _ source
  -- an audited path is spent only if the index has it
  · obtain ⟨audit, listed, inside⟩ := List.mem_flatMap.mp audited
    obtain ⟨plan, planned, paths, manifest, bundle, routed, same⟩ := executedAudits_ok h run listed
    obtain ⟨spelled, found, reserved⟩ := prepare_bundleOf h planned
    obtain ⟨raw, there, normal⟩ := discoverManifests_mem found
    rw [prepare_paths h] at there
    obtain ⟨again, outcome, -, returned, rfl⟩ :=
      collectManifestAudits_mem review.tools (escaping_ok_iff.mp run) listed
    have returned : review.tools.audit plan.manifestPath = .ok (some outcome) := manifest ▸ returned
    apply List.mem_append_right
    refine List.mem_filter.mpr ⟨List.mem_flatMap.mpr ⟨bundle, routed, ?_⟩, ?_⟩
    · rw [same, ← paths]
      exact inside
    · rw [prepare_paths h]
      simpa using indexed raw there plan outcome (bundleOf_indexed normal reserved) returned
        (paths ▸ inside)

/-- In every review the evidence keeps to the character limits and its discovery never meets the
global file limit; if its audits read indexed files only, all files together keep to the file limit. -/
theorem reviewBudget_kept (review : ReviewSite) (prTitle prDescription : Str) (prepared : Prepared)
    (h : prepare review prTitle prDescription = .ok prepared) :
    (∀ executed claims, executedAudits review prepared = .ok executed →
      discoverEvidence review.site (evidenceRequest review prepared executed claims) ≠
        .error (.reviewError FILE_LIMIT_MESSAGE)) ∧
      ∀ response routed, routeClaims review prepared response = .ok routed →
        KeepsCharacters review.limits routed.findings.evidence.references ∧
          ∃ executed, executedAudits review prepared = .ok executed ∧
            (AuditsIndexed review →
              (spentFiles prepared executed routed.findings.evidence).dedup.length ≤
                review.limits.maxFiles) := by
  -- the selected paths are normal and within the limit before discovery starts
  refine ⟨fun executed claims _ raised => ?_, fun response routed returned => ?_⟩
  · exact discoverEvidence_other review.site (evidenceRequest review prepared executed claims)
      (fun path member => (selectedPaths_ok h member).1) (selectedPaths_within h executed claims) _
      raised rfl
  · obtain ⟨⟨⟩, -, returned⟩ := bind_ok_iff.mp returned
    obtain ⟨validation, -, returned⟩ := bind_ok_iff.mp returned
    obtain ⟨executed, run, returned⟩ := bind_ok_iff.mp returned
    obtain ⟨evidence, discovered, returned⟩ := bind_ok_iff.mp returned
    obtain rfl := Except.ok.inj returned
    obtain ⟨selected, changed, priority, state, issued, chosen, within, visits, references⟩ :=
      discoverEvidence_ok discovered
    obtain rfl := indexedPaths_normal (fun path member => (selectedPaths_ok h member).1) chosen
    dsimp only
    rw [references]
    refine ⟨⟨?_, fun path => visits.perFile (planEvidence_nodup ..) path⟩, executed, run,
      fun indexed => ?_⟩
    · have budget := visits.budget
      dsimp only at budget
      exact Nat.le_of_add_left_le budget.le
    -- every file that is spent has a slot among the selected paths
    · refine (length_dedup_le_of_subset fun path member => ?_).trans (visits.slots within)
      rcases List.mem_append.mp member with before | shown
      · exact visits.selected (spent_selected h run indexed validation.claims before)
      · obtain ⟨reference, listed, rfl⟩ := List.mem_map.mp shown
        exact (visits.content reference (references ▸ listed)).2.1

/-! ### Artifacts that are not indexed -/

/-- A manifest that declares an artifact for each side and field. -/
def manifestPayload (declared : Str → Str → Str) : Json :=
  let experiment (side : Str) : Json := .object (ARTIFACT_FIELDS.map fun field =>
    (field, .str (declared side field)))
  .object [("baseline", experiment "baseline"), ("candidate", experiment "candidate")]

/-- The tools of a checkout with one manifest, whose audit returns. -/
def manifestTools (declared : Str → Str → Str) : ManifestTools where
  casefold := id
  isConfinedFile path := path == lit "research.yaml"
  isLinked _ := false
  exists' _ := true
  sizeOf _ := some 1
  readChars _ _ := some 1
  payload path :=
    .ok (if path = lit "research.yaml" then some (manifestPayload declared) else none)
  loadsSpec _ := .ok true
  audit _ := .ok (some ⟨"SUPPORTED", "accuracy", Binary64.zero false, "higher", []⟩)

def resultPaths : List Str := ["research.yaml", "results.json"]

/-- Two files of two bytes. -/
def resultFiles : FileView where
  refusal path := if resultPaths.contains path then none else some NOT_AVAILABLE
  statSize _ := some 2
  capture path := if resultPaths.contains path then some [0x7B, 0x7D] else none

theorem resultPaths_issued : resultPaths ⊆ resultPaths := List.Subset.refl resultPaths

def resultRepository : Repository := ⟨resultPaths, resultPaths, resultFiles.capture, resultPaths_issued⟩

/-- The default limits with nine files. -/
def nineFiles : Limits := { Limits.default with
  maxFiles := 9
  bounded := by decide }

def resultReview (declared : Str → Str → Str) : ReviewSite where
  site := ⟨sampleHost, sampleLookup, resultFiles, none⟩
  tools := manifestTools declared
  repository := resultRepository
  limits := nineFiles
  sameFiles := rfl
  faultName _ := "ReviewError"
  sumCosts _ := none

/-- The extraction of one claim. -/
def titleResponse (title : Str) : ProviderResponse where
  outputText := (response [titleCandidate title]).render canonicalStyle 0
  provider := "local"
  model := "model"
  requestId := none
  usage := .unknown
  complete := true
  incompleteReason := none

def resultTitle : Str := "Accuracy improves by 2%"

/-- What a review of the title executes and routes. -/
def routedTitle (review : ReviewSite) : Option (Prepared × List ManifestAuditBundle × Routed) := do
  let prepared ← (prepare review resultTitle []).toOption
  let executed ← (executedAudits review prepared).toOption
  let routed ← (routeClaims review prepared (titleResponse resultTitle)).toOption
  pure (prepared, executed, routed)

theorem routedTitle_some {review : ReviewSite} {prepared : Prepared}
    {executed : List ManifestAuditBundle} {routed : Routed}
    (h : routedTitle review = some (prepared, executed, routed)) :
    prepare review resultTitle [] = .ok prepared ∧ executedAudits review prepared = .ok executed ∧
      routeClaims review prepared (titleResponse resultTitle) = .ok routed := by
  obtain ⟨first, found, h⟩ := Option.bind_eq_some_iff.mp h
  obtain ⟨second, found', h⟩ := Option.bind_eq_some_iff.mp h
  obtain ⟨third, found'', h⟩ := Option.bind_eq_some_iff.mp h
  obtain ⟨rfl, rfl, rfl⟩ := Prod.mk.inj (Option.some.inj h) |>.imp_right Prod.mk.inj
  exact ⟨toOption_eq_some found, toOption_eq_some found', toOption_eq_some found''⟩

/-- All artifacts are one indexed file. -/
def oneArtifact (_ _ : Str) : Str := "results.json"

/-- Artifacts in a directory that the index leaves out. -/
def cachedArtifact (side field : Str) : Str := lit "__pycache__/" ++ side ++ SLASH :: field

theorem auditsIndexed_oneArtifact : AuditsIndexed (resultReview oneArtifact) := by
  have indexed : (resultPaths.filterMap fun raw =>
      (bundleOf (manifestTools oneArtifact) nineFiles raw).toOption.join).all
        (fun plan => plan.paths.all resultPaths.contains) = true := by decide +kernel
  intro raw member plan _ bundle _ path inside
  have listed : plan ∈ resultPaths.filterMap fun raw =>
      (bundleOf (manifestTools oneArtifact) nineFiles raw).toOption.join := by
    refine List.mem_filterMap.mpr ⟨raw, member, ?_⟩
    change bundleOf (manifestTools oneArtifact) nineFiles raw = _ at bundle
    rw [bundle]
    rfl
  have there := List.all_eq_true.mp (List.all_eq_true.mp indexed plan listed) path inside
  exact List.contains_iff_mem.mp there

theorem reviewBudget_kept_oneArtifact :
    ∃ (prepared : Prepared) (executed : List ManifestAuditBundle) (routed : Routed),
      prepare (resultReview oneArtifact) resultTitle [] = .ok prepared ∧
      executedAudits (resultReview oneArtifact) prepared = .ok executed ∧ executed ≠ [] ∧
      routed.findings.evidence.references ≠ [] ∧
      KeepsCharacters nineFiles routed.findings.evidence.references ∧
      (spentFiles prepared executed routed.findings.evidence).dedup.length ≤ 9 := by
  have run : (routedTitle (resultReview oneArtifact)).any (fun found =>
      !found.2.1.isEmpty && !found.2.2.findings.evidence.references.isEmpty) = true := by
    decide +kernel
  cases returned : routedTitle (resultReview oneArtifact) with
  | none =>
    rw [returned] at run
    cases run
  | some found =>
    obtain ⟨prepared, executed, routed⟩ := found
    obtain ⟨first, second, third⟩ := routedTitle_some returned
    obtain ⟨characters, same, again, files⟩ := (reviewBudget_kept (resultReview oneArtifact)
      resultTitle [] prepared first).2 (titleResponse resultTitle) routed third
    obtain rfl := Except.ok.inj (second.symm.trans again)
    rw [returned, Option.any_some, Bool.and_eq_true] at run
    refine ⟨prepared, executed, routed, first, second, fun none => ?_, fun none => ?_, characters,
      files auditsIndexed_oneArtifact⟩
    · simp [none] at run
    · simp [none] at run

/-- The files of an executed audit that are not indexed are not counted when evidence takes slots. -/
theorem cachedArtifacts_exceed :
    ¬ ∀ (review : ReviewSite) (prTitle prDescription : Str) (prepared : Prepared)
      (response : ProviderResponse) (executed : List ManifestAuditBundle) (routed : Routed),
      prepare review prTitle prDescription = .ok prepared →
      executedAudits review prepared = .ok executed →
      routeClaims review prepared response = .ok routed →
        (spentFiles prepared executed routed.findings.evidence).dedup.length ≤
          review.limits.maxFiles := by
  intro kept
  have run : (routedTitle (resultReview cachedArtifact)).map (fun found =>
      (spentFiles found.1 found.2.1 found.2.2.findings.evidence).dedup.length) = some 10 := by
    decide +kernel
  cases returned : routedTitle (resultReview cachedArtifact) with
  | none =>
    rw [returned] at run
    cases run
  | some found =>
    obtain ⟨prepared, executed, routed⟩ := found
    obtain ⟨first, second, third⟩ := routedTitle_some returned
    rw [returned] at run
    have spent := Option.some.inj run
    have limit : (resultReview cachedArtifact).limits.maxFiles = 9 := rfl
    have within := kept (resultReview cachedArtifact) resultTitle [] prepared
      (titleResponse resultTitle) executed routed first second third
    dsimp only at spent
    omega

end ClaimCI.Review
