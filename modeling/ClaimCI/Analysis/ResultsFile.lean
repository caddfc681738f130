import ClaimCI.Analysis.DatasetRun
import ClaimCI.Analysis.NativePayloads
import ClaimCI.Python.JsonCanonical
import ClaimCI.Python.JsonJoined
import ClaimCI.Python.LineSpans
import ClaimCI.ResultComparison

/-!
# Results file

The results that materialization writes for one arm, read back by the native audit.
-/

open Python

namespace ClaimCI

/-- How the results of an arm are encoded. -/
def resultsStyle : DumpStyle := ⟨true, none, [], [], true⟩

/-- The content of `results.json`. -/
def resultsBytes (payload : Json) : Option Bytes :=
  (dumps resultsStyle payload).bind fun text => encodeUtf8 (text ++ [LF])

/-- The observations of a metric: the value and the seed of each, in order. -/
def metricObservations (evidence : List NormalizedEvidence) (metric : Str) :
    List (Binary64 × Option Seed) :=
  (observationsInOrder evidence).filterMap fun observation =>
    (observation.metric.filter fun m => m.1 = metric).map fun m => (m.2, observation.seed)

/-- The integer that a seed is. -/
def Seed.toInt : Seed → Option Int
  | .int n => some n
  | .text _ => none

/-- A run as the native audit reads it. -/
def nativeRun (observation : Binary64 × Option Seed) : Binary64 × Option Int :=
  (observation.1, observation.2.bind Seed.toInt)

/-- No integer seed is recorded under the metric's own key. -/
def SeedApart (metric : Str) (observations : List (Binary64 × Option Seed)) : Prop :=
  metric = lit "seed" → ∀ o ∈ observations, (nativeRun o).2 = none

/-! ### The runs that are written -/

/-- The members that a run has when its two keys differ or it has no seed. -/
def runMembers (metric : Str) (run : Binary64 × Option Int) : Members :=
  (metric, .float run.1) :: (run.2.map fun n => (lit "seed", Json.int n)).toList

def runObject (metric : Str) (run : Binary64 × Option Int) : Json := .object (runMembers metric run)

theorem observationRun_eq {metric : Str} {value : Binary64} {seed : Option Seed} {run : Members}
    (apart : metric = lit "seed" → (nativeRun (value, seed)).2 = none)
    (written : observationRun metric value seed = .ok run) :
    seed = (nativeRun (value, seed)).2.map Seed.int ∧
      .object run = runObject metric (nativeRun (value, seed)) := by
  cases seed with
  | none =>
    rw [← Except.ok.inj written]
    exact ⟨rfl, rfl⟩
  | some seed =>
    cases seed with
    | text s => cases written
    | int n =>
      have other : metric ≠ lit "seed" := by
        intro same
        cases apart same
      rw [← Except.ok.inj written, setKey, if_neg other]
      exact ⟨rfl, rfl⟩

/-- The runs are the observations of the metric, one object for each, and the seeds are integers. -/
theorem observationRuns_eq {metric : Str} (observations : List NormalizedObservation)
    {runs : List Json} {found : List (Binary64 × Option Seed)}
    (listed : found = observations.filterMap fun observation =>
      (observation.metric.filter fun m => m.1 = metric).map fun m => (m.2, observation.seed))
    (apart : SeedApart metric found) (written : observationRuns metric observations = .ok runs) :
    (∀ o ∈ found, o.2 = (nativeRun o).2.map Seed.int) ∧
      runs = (found.map nativeRun).map (runObject metric) := by
  -- induction on the observations; those of another metric are passed over
  induction observations generalizing runs found with
  | nil =>
    rw [listed, ← Except.ok.inj written]
    exact ⟨List.forall_mem_nil _, rfl⟩
  | cons observation rest ih =>
    rw [observationRuns.eq_def] at written
    cases named : observation.metric with
    | none =>
      rw [List.filterMap_cons_none (by rw [named]; rfl)] at listed
      simp only [named] at written
      exact ih listed apart written
    | some pair =>
      obtain ⟨name, value⟩ := pair
      simp only [named] at written
      by_cases same : name = metric
      · rw [List.filterMap_cons_some (b := (value, observation.seed))
          (by rw [named, Option.filter_some_pos (by simpa using same)]; rfl)] at listed
        rw [if_pos same] at written
        obtain ⟨run, first, written⟩ := bind_ok_iff.mp written
        obtain ⟨others, later, written⟩ := bind_ok_iff.mp written
        rw [listed] at apart ⊢
        obtain ⟨seedHere, object⟩ :=
          observationRun_eq (fun h => apart h _ List.mem_cons_self) first
        obtain ⟨seeds, objects⟩ := ih rfl (fun h o ho => apart h o (List.mem_cons_of_mem _ ho)) later
        refine ⟨List.forall_mem_cons.mpr ⟨seedHere, seeds⟩, ?_⟩
        rw [← Except.ok.inj written, object, objects, List.map_cons, List.map_cons]
      · rw [List.filterMap_cons_none (by
          rw [named, Option.filter_some_neg (by simpa using same)]; rfl)] at listed
        rw [if_neg same] at written
        exact ih listed apart written

/-! ### The text of the file -/

theorem encodeUtf8_of_ascii {s : Str} (ascii : Ascii s) : ∃ raw, encodeUtf8 s = some raw := by
  induction s with
  | nil => exact ⟨[], rfl⟩
  | cons c rest ih =>
    obtain ⟨small, others⟩ := List.forall_mem_cons.mp ascii
    obtain ⟨raw, encoded⟩ := ih others
    obtain ⟨parts, each, _⟩ := Option.map_eq_some_iff.mp encoded
    have first : encodeCodePoint c = some [UInt8.ofNat c.val] := by
      rw [encodeCodePoint, if_pos (by omega)]
    rw [encodeUtf8, List.mapM_cons, first, each]
    exact ⟨_, rfl⟩

theorem resultsStyle_ascii : resultsStyle.Ascii := ⟨rfl, .nil, .nil⟩

theorem resultsStyle_spaced : resultsStyle.Spaced := by
  constructor <;> simp [resultsStyle]

theorem resultsStyle_visible : resultsStyle.Writes fun c => 0x20 ≤ c.val :=
  DumpStyle.writes_visible rfl (List.forall_mem_nil _) (List.forall_mem_nil _)

theorem sortedItems_map {α : Type} (f : α → Json) (items : List α) :
    Json.sortedItems (items.map f) = items.map fun item => (f item).sorted := by
  induction items with
  | nil => rfl
  | cons item items ih => rw [List.map_cons, List.map_cons, Json.sortedItems, ih]

/-! ### The runs that are read -/

theorem runMembers_nodup {metric : Str} {run : Binary64 × Option Int}
    (apart : metric = lit "seed" → run.2 = none) : (keysOf (runMembers metric run)).Nodup := by
  obtain ⟨value, seed⟩ := run
  cases seed with
  | none => exact List.nodup_singleton _
  | some n =>
    have other : metric ≠ lit "seed" := by
      intro same
      cases apart same
    simpa [runMembers, keysOf] using other

theorem runObject_sorted (metric : Str) (run : Binary64 × Option Int) :
    (runObject metric run).sorted = .object (sortBy Prod.fst (runMembers metric run)) := by
  obtain ⟨value, seed⟩ := run
  cases seed <;> rfl

/-- A run object is read as the run it was written for. -/
theorem loadRun_runObject (rt : Runtime) (path : Str) {metric : Str} (index : Nat)
    {run : Binary64 × Option Int} (apart : metric = lit "seed" → run.2 = none) :
    loadRun rt path metric index (runObject metric run).sorted = .ok run := by
  have distinct := runMembers_nodup apart
  have value : lookupKey metric (runMembers metric run) = some (.float run.1) := by
    rw [runMembers, lookupKey_cons, if_pos rfl]
  rw [runObject_sorted, loadRun]
  simp only [lookupKey_sortBy _ distinct, value, finiteNumber]
  obtain ⟨value, seed⟩ := run
  by_cases same : metric = lit "seed"
  · obtain rfl : seed = none := apart same
    subst same
    rfl
  · cases seed with
    | none => simp [runMembers, lookupKey, same]
    | some n => simp [runMembers, lookupKey, same]

theorem loadRuns_runObjects (rt : Runtime) (path : Str) {metric : Str} (index : Nat)
    {runs : List (Binary64 × Option Int)} (apart : metric = lit "seed" → ∀ r ∈ runs, r.2 = none) :
    loadRuns rt path metric index (runs.map fun r => (runObject metric r).sorted) = .ok runs := by
  induction runs generalizing index with
  | nil => rfl
  | cons run runs ih =>
    have first := loadRun_runObject rt path index fun h => apart h run List.mem_cons_self
    have rest := ih (index + 1) fun h r hr => apart h r (List.mem_cons_of_mem run hr)
    rw [List.map_cons, loadRuns]
    exact bind_ok_iff.mpr ⟨run, first, bind_ok_iff.mpr ⟨runs, rest, rfl⟩⟩

/-! ### The value that is read -/

theorem runObject_distinctKeys {metric : Str} {run : Binary64 × Option Int}
    (apart : metric = lit "seed" → run.2 = none) : (runObject metric run).DistinctKeys := by
  rw [runObject, Json.DistinctKeys, Json.membersDistinctKeys_iff]
  refine ⟨runMembers_nodup apart, ?_⟩
  obtain ⟨value, seed⟩ := run
  cases seed <;> simp [runMembers, Json.DistinctKeys]

theorem runObject_kept {metric : Str} (joined : joinSurrogates metric = metric)
    (run : Binary64 × Option Int) : (runObject metric run).Kept true := by
  have seedKept : joinSurrogates (lit "seed") = lit "seed" := by decide
  rw [runObject, Json.Kept, Json.membersKept_iff]
  obtain ⟨value, seed⟩ := run
  cases seed <;> simp [runMembers, Json.Kept, rereadStr, joined, seedKept]

theorem itemsDistinctKeys_of_forall {items : List Json} (h : ∀ item ∈ items, item.DistinctKeys) :
    Json.itemsDistinctKeys items := by
  induction items with
  | nil => exact trivial
  | cons item items ih =>
    obtain ⟨first, rest⟩ := List.forall_mem_cons.mp h
    exact ⟨first, ih rest⟩

theorem itemsDepth_le {items : List Json} {bound : Nat} (h : ∀ item ∈ items, item.depth ≤ bound) :
    Json.itemsDepth items ≤ bound + 1 := by
  induction items with
  | nil => exact Nat.zero_le _
  | cons item items ih =>
    obtain ⟨first, rest⟩ := List.forall_mem_cons.mp h
    rw [Json.itemsDepth]
    exact max_le (Nat.succ_le_succ first) (ih rest)

theorem membersDepth_le {members : Members} {bound : Nat} (h : ∀ m ∈ members, m.2.depth ≤ bound) :
    Json.membersDepth members ≤ bound + 1 := by
  induction members with
  | nil => exact Nat.zero_le _
  | cons member members ih =>
    obtain ⟨first, rest⟩ := List.forall_mem_cons.mp h
    rw [Json.membersDepth]
    exact max_le (Nat.succ_le_succ first) (ih rest)

theorem runObject_depth (metric : Str) (run : Binary64 × Option Int) :
    (runObject metric run).sorted.depth ≤ 1 := by
  have flat : ∀ m ∈ runMembers metric run, m.2.depth ≤ 0 := by
    obtain ⟨value, seed⟩ := run
    cases seed <;> simp [runMembers, Json.depth]
  rw [runObject_sorted, Json.depth]
  exact membersDepth_le fun m hm => flat m ((sortBy_perm_self Prod.fst _).mem_iff.mp hm)

/-- What the decoder yields for the runs of a file. -/
def readRuns (metric : Str) (runs : List (Binary64 × Option Int)) : Json :=
  .object [("runs", .array (runs.map fun r => (runObject metric r).sorted))]

theorem runsPayload_sorted (metric : Str) (runs : List (Binary64 × Option Int)) :
    (Json.object [("runs", .array (runs.map (runObject metric)))]).sorted =
      readRuns metric runs := by
  have items : Json.sortedItems (runs.map (runObject metric)) =
      runs.map fun r => (runObject metric r).sorted := sortedItems_map _ runs
  rw [readRuns, ← items]
  rfl

theorem readRuns_distinctKeys {metric : Str} {runs : List (Binary64 × Option Int)}
    (apart : metric = lit "seed" → ∀ r ∈ runs, r.2 = none) : (readRuns metric runs).DistinctKeys := by
  rw [readRuns, Json.DistinctKeys, Json.membersDistinctKeys_iff]
  refine ⟨List.nodup_singleton _, ?_⟩
  intro m hm
  obtain rfl := List.mem_singleton.mp hm
  rw [Json.DistinctKeys]
  apply itemsDistinctKeys_of_forall
  intro item member
  obtain ⟨run, hrun, rfl⟩ := List.mem_map.mp member
  exact (runObject metric run).sorted_distinctKeys (runObject_distinctKeys fun h => apart h run hrun)

theorem readRuns_kept {metric : Str} (joined : joinSurrogates metric = metric)
    (runs : List (Binary64 × Option Int)) : (readRuns metric runs).Kept true := by
  rw [readRuns, Json.Kept, Json.membersKept_iff]
  intro m hm
  obtain rfl := List.mem_singleton.mp hm
  have key : rereadStr true (lit "runs") = lit "runs" := by decide
  refine ⟨key, ?_⟩
  rw [Json.Kept, Json.itemsKept_iff]
  intro item member
  obtain ⟨run, _, rfl⟩ := List.mem_map.mp member
  exact (runObject metric run).sorted_kept true (runObject_kept joined run)

theorem readRuns_depth (metric : Str) (runs : List (Binary64 × Option Int)) :
    (readRuns metric runs).depth ≤ 3 := by
  rw [readRuns, Json.depth]
  apply membersDepth_le
  intro m hm
  obtain rfl := List.mem_singleton.mp hm
  rw [Json.depth]
  apply itemsDepth_le
  intro item member
  obtain ⟨run, _, rfl⟩ := List.mem_map.mp member
  exact runObject_depth metric run

/-- The file is decoded to the runs that were written. -/
theorem loads_resultsText {metric : Str} {runs : List (Binary64 × Option Int)}
    (apart : metric = lit "seed" → ∀ r ∈ runs, r.2 = none) (joined : joinSurrogates metric = metric)
    {text : Str} (encoded : dumps resultsStyle
      (.object [("runs", .array (runs.map (runObject metric)))]) = some text) :
    loads strictLoad (text ++ [LF]) = some (readRuns metric runs) := by
  rw [dumps] at encoded
  split at encoded
  next fits =>
    have sorts : resultsStyle.sortKeys = true := rfl
    rw [← Option.some.inj encoded, if_pos sorts, runsPayload_sorted]
    have fits' : (readRuns metric runs).dumpable = true := by
      rw [← runsPayload_sorted, Json.sorted_dumpable, fits]
    rw [loads_render_newline strictLoad resultsStyle resultsStyle_spaced _ fits']
    exact Json.reread_of_kept true true _ (readRuns_distinctKeys apart) (readRuns_kept joined runs)
  · cases encoded

/-- A results file holding the observations of a metric is read as these observations, unless their
summary statistics are refused. -/
theorem loadResults_readBack {metric : Str} {runs : List (Binary64 × Option Int)}
    (nonempty : runs ≠ []) (apart : metric = lit "seed" → ∀ r ∈ runs, r.2 = none)
    (joined : joinSurrogates metric = metric) {text : Str}
    (encoded : dumps resultsStyle
      (.object [("runs", .array (runs.map (runObject metric)))]) = some text)
    {raw : Bytes} (utf8 : encodeUtf8 (text ++ [LF]) = some raw) {rt : Runtime} {path resolved : Str}
    (held : rt.readBytes path = .ok raw) (resolves : rt.resolve path = .ok resolved) :
    loadResults rt path metric = (summarizeRuns (runs.map Prod.fst)).map fun _ =>
      ⟨resolved, runs.map Prod.fst, runs.map Prod.snd, none⟩ := by
  have ascii : Ascii (text ++ [LF]) :=
    (dumps_ascii resultsStyle_ascii encoded).append (.cons (by decide) .nil)
  -- the text is ASCII without CR, so it is read back as it was written
  have noReturn : CR ∉ text ++ [LF] := by
    intro member
    rcases List.mem_append.mp member with member | member
    · have visible := dumps_forall resultsStyle_visible encoded CR member
      exact absurd visible (by decide)
    · exact absurd (List.mem_singleton.mp member) (by decide)
  have read : readResults rt path = .ok (text ++ [LF]) := by
    rw [readResults, Runtime.readText, held]
    simp only [decodeUtf8_encodeUtf8 _ _ utf8, universalNewlines_of_not_mem noReturn]
  have parsed : parseResults rt path (text ++ [LF]) =
      .ok [("runs", .array (runs.map fun r => (runObject metric r).sorted))] := by
    have shallow : ¬ MAX_NESTING_DEPTH < (readRuns metric runs).depth := by
      have := readRuns_depth metric runs
      rw [MAX_NESTING_DEPTH]
      omega
    rw [parseResults]
    simp only [loads_resultsText apart joined encoded, validateJsonGraph, if_neg shallow]
    rfl
  have declared : declaredRuns path [("runs", .array (runs.map fun r => (runObject metric r).sorted))] =
      .ok (runs.map fun r => (runObject metric r).sorted) := by
    cases runs with
    | nil => exact absurd rfl nonempty
    | cons run rest => rfl
  -- each run is read with the metric and the seed that were written
  have loaded := loadRuns_runObjects rt path 1 apart
  simp only [loadResults, read, parsed, declared, loaded, resolves, bind, Except.bind]
  cases summarizeRuns (runs.map Prod.fst) <;> rfl

/-! ### Reading the file back -/

/-- The results file of the accepted observations of a metric, read by the native audit, holds
exactly their values and seeds, unless the audit refuses their summary statistics. This is so for
every metric name that JSON keeps, where a metric `seed` has no integer seeds. -/
theorem resultsFile_exact (rt : Runtime) (evidence : List NormalizedEvidence) (metric : Str)
    (payload : Json) (accepted : resultsPayload rt evidence metric = .ok payload)
    (apart : SeedApart metric (metricObservations evidence metric))
    (joined : joinSurrogates metric = metric) :
    (∀ o ∈ metricObservations evidence metric, o.2 = (nativeRun o).2.map Seed.int) ∧
    ∃ raw, resultsBytes payload = some raw ∧
      ∀ (reader : Runtime) (path resolved : Str), reader.readBytes path = .ok raw →
        reader.resolve path = .ok resolved →
          loadResults reader path metric =
            (summarizeRuns ((metricObservations evidence metric).map Prod.fst)).map fun _ =>
              ⟨resolved, (metricObservations evidence metric).map Prod.fst,
                (metricObservations evidence metric).map fun o => (nativeRun o).2, none⟩ := by
  obtain ⟨runs, written, accepted⟩ := bind_ok_iff.mp accepted
  obtain ⟨seeds, listed⟩ := observationRuns_eq _ rfl apart written
  refine ⟨seeds, ?_⟩
  by_cases empty : runs = []
  · rw [if_pos empty] at accepted
    cases accepted
  rw [if_neg empty] at accepted
  split at accepted
  next fits =>
    have runsEq : runs = ((metricObservations evidence metric).map nativeRun).map
        (runObject metric) := listed
    rw [← Except.ok.inj accepted, runsEq]
    rw [runsEq] at fits empty
    have dumpable : (Json.object [("runs", .array
        (((metricObservations evidence metric).map nativeRun).map (runObject metric)))]).dumpable =
          true := by
      rw [Json.dumpable, Json.membersDumpable_iff]
      exact List.forall_mem_singleton.mpr fits
    obtain ⟨text, encoded⟩ : ∃ text, dumps resultsStyle (.object [("runs", .array
        (((metricObservations evidence metric).map nativeRun).map (runObject metric)))]) =
          some text := ⟨_, if_pos dumpable⟩
    obtain ⟨raw, utf8⟩ := encodeUtf8_of_ascii
      ((dumps_ascii resultsStyle_ascii encoded).append (.cons (by decide) .nil) : Ascii (text ++ [LF]))
    -- the bytes are written, and the loader reads them back
    refine ⟨raw, ?_, ?_⟩
    · rw [resultsBytes, encoded]
      exact utf8
    · intro reader path resolved held resolves
      have nonempty : (metricObservations evidence metric).map nativeRun ≠ [] :=
        fun none => empty (List.map_eq_nil_iff.mpr none)
      have none : metric = lit "seed" →
          ∀ r ∈ (metricObservations evidence metric).map nativeRun, r.2 = none := by
        intro named r member
        obtain ⟨o, ho, rfl⟩ := List.mem_map.mp member
        exact apart named o ho
      have read := loadResults_readBack nonempty none joined encoded utf8 held resolves
      rw [List.map_map, List.map_map] at read
      exact read
  · cases accepted

/-- One result file with these observations of one metric. -/
def metricEvidence (metric : Str) (observations : List (Binary64 × Option Seed)) :
    List NormalizedEvidence :=
  [⟨"results", observations.map fun o => ⟨some (metric, o.1), o.2, []⟩⟩]

/-- A file system where every file has this content. -/
def fileRuntime (content : Bytes) : Runtime :=
  { streamSampleRuntime with readBytes := fun _ => .ok content }

def lossPayload : Json :=
  .object [("runs", .array [.object [("loss", .float floatOne), ("seed", .int 7)]])]

theorem resultsFile_exact_loss :
    ∃ raw, resultsBytes lossPayload = some raw ∧
      ∃ loaded, loadResults (fileRuntime raw) "results.json" "loss" = .ok loaded ∧
        loaded.values = [floatOne] ∧ loaded.seeds = [some 7] := by
  have apart : SeedApart "loss" (metricObservations
      (metricEvidence "loss" [(floatOne, some (.int 7))]) "loss") :=
    fun named => absurd named (by decide)
  obtain ⟨raw, written, read⟩ := (resultsFile_exact streamSampleRuntime
    (metricEvidence "loss" [(floatOne, some (.int 7))]) "loss" lossPayload rfl apart (by decide)).2
  have summarized : (summarizeRuns ((metricObservations
      (metricEvidence "loss" [(floatOne, some (.int 7))]) "loss").map Prod.fst)).isOk = true := by
    decide +kernel
  have loaded := read (fileRuntime raw) "results.json" "results.json" rfl rfl
  refine ⟨raw, written, ?_⟩
  cases returned : summarizeRuns ((metricObservations
      (metricEvidence "loss" [(floatOne, some (.int 7))]) "loss").map Prod.fst) with
  | error error =>
    rw [returned] at summarized
    cases summarized
  | ok summary =>
    rw [returned] at loaded
    exact ⟨_, loaded, rfl, rfl⟩

/-! ### Files that are not read back -/

/-- Whatever is written for the metric is read as its observations. -/
def ReadsBack (rt : Runtime) (evidence : List NormalizedEvidence) (metric : Str) : Prop :=
  ∀ payload, resultsPayload rt evidence metric = .ok payload →
    ∃ raw, resultsBytes payload = some raw ∧
      ∀ (reader : Runtime) (path resolved : Str), reader.readBytes path = .ok raw →
        reader.resolve path = .ok resolved →
          loadResults reader path metric =
            .ok ⟨resolved, (metricObservations evidence metric).map Prod.fst,
              (metricObservations evidence metric).map fun o => (nativeRun o).2, none⟩

/-- The values that are read where the observations are written. -/
def valuesRead (evidence : List NormalizedEvidence) (metric : Str) : Option (List Binary64) :=
  ((resultsPayload streamSampleRuntime evidence metric).toOption.bind resultsBytes).bind fun raw =>
    (loadResults (fileRuntime raw) "results.json" metric).toOption.map LoadedResults.values

theorem ReadsBack.valuesRead {evidence : List NormalizedEvidence} {metric : Str}
    (h : ReadsBack streamSampleRuntime evidence metric)
    (accepted : (resultsPayload streamSampleRuntime evidence metric).isOk = true) :
    valuesRead evidence metric = some ((metricObservations evidence metric).map Prod.fst) := by
  cases written : resultsPayload streamSampleRuntime evidence metric with
  | error error =>
    rw [written] at accepted
    cases accepted
  | ok payload =>
    obtain ⟨raw, encoded, read⟩ := h payload written
    have loaded := read (fileRuntime raw) "results.json" "results.json" rfl rfl
    rw [ClaimCI.valuesRead, written, Except.toOption, Option.bind_some, encoded, Option.bind_some,
      loaded]
    rfl

/-- The summary of two values is not finite; and a seed takes the place of the metric value. -/
theorem resultsFile_not_exact :
    ¬ ReadsBack streamSampleRuntime
        (metricEvidence "loss" [(floatLargest false, none), (floatLargest false, none)]) "loss" ∧
      ¬ ReadsBack streamSampleRuntime (metricEvidence "seed" [(floatOne, some (.int 7))]) "seed" := by
  constructor
  · intro h
    exact absurd (h.valuesRead (by decide +kernel)) (by decide +kernel)
  · intro h
    exact absurd (h.valuesRead (by decide +kernel)) (by decide +kernel)

end ClaimCI
