import ClaimCI.ObjectGraph

/-!
# Parsing

`load_unique_yaml`: what `yaml.load` builds is accepted when its containers form a tree within the
nesting limit, and is read as the value of its root.
-/

open Python

namespace ClaimCI

/-- What the validator sees of an object. -/
def YamlObject.shape : YamlObject → PyObject ObjectId
  | scalar _ _ => .scalar
  | list items => .sequence items
  | tuple items => .sequence items
  | set items => .sequence items
  | dict entries => .mapping entries

namespace YamlDocument

variable (document : YamlDocument)

def heap : ObjectHeap ObjectId := fun object => (document.objects object).shape

/-- The value of an object, down to so many levels. -/
def valueAt : Nat → ObjectId → Value
  | 0, _ => .none
  | levels + 1, object =>
    match document.objects object with
    | .scalar value _ => value
    | .list items => .list (items.map (valueAt levels))
    | .tuple items => .tuple (items.map (valueAt levels))
    | .set items => .set (items.map (valueAt levels))
    | .dict entries =>
      .dict (entries.map fun entry => (valueAt levels entry.1, valueAt levels entry.2))

/-- The value of a document that the validator accepts. -/
def value : Value := document.valueAt (MAX_NESTING_DEPTH + 1) document.root

end YamlDocument

/-- `load_unique_yaml`. -/
def Runtime.loadUniqueYaml (rt : Runtime) (source : Str) : Except YamlError Value :=
  match rt.yamlLoad source with
  | .error (.yaml error) => .error error
  -- The loader itself may recurse too deeply; the text is that of the validator.
  | .error .recursionError => .error (.invalid (lit "YAML" ++ ObjectHeap.nestingText))
  | .ok document => do
    document.heap.validateYamlGraph document.root
    pure document.value

/-! ### What is accepted -/

namespace YamlDocument

open Graph

variable (document : YamlDocument)

/-- Levels below the deepest object add nothing. -/
theorem valueAt_fits {levels : Nat} {object : ObjectId}
    (fits : Fits document.heap.below levels object) {more : Nat} (enough : levels ≤ more) :
    document.valueAt more object = document.valueAt levels object := by
  induction levels generalizing object more with
  | zero => exact fits.elim
  | succ levels ih =>
    obtain ⟨more, rfl⟩ := Nat.exists_eq_add_one_of_ne_zero (Nat.ne_zero_of_lt enough)
    have below (child : ObjectId) (member : child ∈ document.heap.below object) :
        document.valueAt more child = document.valueAt levels child :=
      ih (fits child member) (Nat.le_of_succ_le_succ enough)
    rw [ObjectHeap.below, heap] at below
    rw [valueAt, valueAt]
    cases found : document.objects object with
    | scalar value atomic => rfl
    | list items | tuple items | set items =>
      rw [found] at below
      simp only [YamlObject.shape, PyObject.children] at below
      simp only [List.map_congr_left below]
    | dict entries =>
      rw [found] at below
      simp only [YamlObject.shape, PyObject.children, List.mem_flatMap, List.mem_cons,
        List.not_mem_nil, or_false] at below
      have both : ∀ entry ∈ entries,
          (document.valueAt more entry.1, document.valueAt more entry.2) =
            (document.valueAt levels entry.1, document.valueAt levels entry.2) := by
        intro entry member
        rw [below entry.1 ⟨entry, member, .inl rfl⟩, below entry.2 ⟨entry, member, .inr rfl⟩]
      simp only [List.map_congr_left both]

end YamlDocument

/-- A text loads exactly if its document is a tree of containers within the limit, and then the value
is that of the root, however far down it is read. -/
theorem loadUniqueYaml_ok_iff (rt : Runtime) (source : Str) (value : Value) :
    rt.loadUniqueYaml source = .ok value ↔ ∃ document, rt.yamlLoad source = .ok document ∧
      document.heap.ContainersFormTree document.root ∧ document.heap.WithinDepth document.root ∧
      ∀ levels, MAX_NESTING_DEPTH < levels → document.valueAt levels document.root = value := by
  rw [Runtime.loadUniqueYaml]
  cases loaded : rt.yamlLoad source with
  | error error => cases error <;> simp
  | ok document =>
    have accepted : (do
        document.heap.validateYamlGraph document.root
        pure document.value) = Except.ok value ↔
      document.heap.validateYamlGraph document.root = .ok () ∧ document.value = value := by
      cases document.heap.validateYamlGraph document.root with
      | error error => simp [bind, Except.bind]
      | ok _ => simp [bind, Except.bind, pure, Except.pure]
    refine accepted.trans ?_
    rw [ObjectHeap.validateYamlGraph_ok_iff]
    constructor
    · rintro ⟨⟨tree, within⟩, rfl⟩
      refine ⟨document, rfl, tree, within, fun levels more => ?_⟩
      exact document.valueAt_fits (document.heap.withinDepth_iff.mp within) more
    · rintro ⟨other, same, tree, within, reads⟩
      obtain rfl := Except.ok.inj same
      exact ⟨⟨tree, within⟩, reads _ (Nat.lt_succ_self _)⟩

/-! ### The document of a value -/

/-- The part of a container at a position; the keys and the values of a mapping alternate. -/
def partOf : Value → Nat → Value
  | .list items, i => items.getD i .none
  | .tuple items, i => items.getD i .none
  | .set items, i => items.getD i .none
  | .dict entries, i =>
    if i % 2 = 0 then (entries.getD (i / 2) (.none, .none)).1
    else (entries.getD (i / 2) (.none, .none)).2
  | _, _ => .none

/-- The part of a value at the end of a path. -/
def partAt : Value → ObjectId → Value
  | value, [] => value
  | value, i :: path => partAt (partOf value i) path

/-- The containers of a value are nested at most so many levels. -/
def NestedWithin : Nat → Value → Bool
  | 0, _ => false
  | levels + 1, .list items => items.all (NestedWithin levels)
  | levels + 1, .tuple items => items.all (NestedWithin levels)
  | levels + 1, .set items => items.all (NestedWithin levels)
  | levels + 1, .dict entries =>
    entries.all fun entry => NestedWithin levels entry.1 && NestedWithin levels entry.2
  | _ + 1, _ => true

/-- The object of a part, whose own parts go by longer paths. -/
def objectOf (path : ObjectId) (part : Value) : YamlObject :=
  let ids (count : Nat) := (List.range count).map fun i => path ++ [i]
  if scalar : part.atomic = true then .scalar part scalar
  else
    match part with
    | .list items => .list (ids items.length)
    | .tuple items => .tuple (ids items.length)
    | .set items => .set (ids items.length)
    | .dict entries => .dict ((List.range entries.length).map fun i =>
        (path ++ [2 * i], path ++ [2 * i + 1]))
    | _ => .scalar .none rfl

/-- The document of a value, whose objects are its parts under their paths. -/
def YamlDocument.ofValue (value : Value) : YamlDocument where
  objects path := objectOf path (partAt value path)
  root := []

theorem partAt_concat (value : Value) (path : ObjectId) (i : Nat) :
    partAt value (path ++ [i]) = partOf (partAt value path) i := by
  induction path generalizing value with
  | nil => rfl
  | cons j path ih =>
    rw [List.cons_append, partAt, partAt]
    exact ih (partOf value j)

/-- The identities of the parts are the paths that are longer by one. -/
theorem ofValue_below (value : Value) (path : ObjectId) :
    ∃ count, (YamlDocument.ofValue value).heap.below path =
      (List.range count).map fun i => path ++ [i] := by
  have pairs (count : Nat) :
      ((List.range count).map fun i => (path ++ [2 * i], path ++ [2 * i + 1])).flatMap
          (fun entry => [entry.1, entry.2]) =
        (List.range (2 * count)).map fun i => path ++ [i] := by
    induction count with
    | zero => rfl
    | succ count ih =>
      rw [Nat.mul_succ, List.range_succ, List.range_succ, List.range_succ, List.map_append,
        List.flatMap_append, ih]
      simp
  rw [ObjectHeap.below, YamlDocument.heap]
  simp only [YamlDocument.ofValue, objectOf]
  split
  · exact ⟨0, rfl⟩
  split
  · exact ⟨_, rfl⟩
  · exact ⟨_, rfl⟩
  · exact ⟨_, rfl⟩
  · exact ⟨_, pairs _⟩
  · exact ⟨0, rfl⟩

open Graph in
/-- A path from an object leads to the object under the longer path. -/
theorem ofValue_walk {value : Value} {start path object : ObjectId}
    (ends : walk (YamlDocument.ofValue value).heap.below path start = some object) :
    object = start ++ path := by
  induction path generalizing start with
  | nil =>
    rw [List.append_nil]
    exact (Option.some.inj ends).symm
  | cons i path ih =>
    obtain ⟨child, chosen, rest⟩ := walk_cons.mp ends
    obtain ⟨count, below⟩ := ofValue_below value start
    rw [below, List.getElem?_map, Option.map_eq_some_iff] at chosen
    obtain ⟨j, found, rfl⟩ := chosen
    obtain rfl : i = j := by
      obtain ⟨inside, rfl⟩ := List.getElem?_eq_some_iff.mp found
      simp
    rw [ih rest, List.append_assoc]
    rfl

theorem ofValue_objects (value : Value) (path : ObjectId) :
    (YamlDocument.ofValue value).objects path = objectOf path (partAt value path) := rfl

/-- The identities of a container's parts stand for these parts. -/
theorem valueAt_ofValue {levels : Nat} {value : Value} {path : ObjectId}
    (nested : NestedWithin levels (partAt value path) = true) :
    (YamlDocument.ofValue value).valueAt levels path = partAt value path := by
  induction levels generalizing path with
  | zero => cases nested
  | succ levels ih =>
    have part (i : Nat) (inside : NestedWithin levels (partOf (partAt value path) i) = true) :
        (YamlDocument.ofValue value).valueAt levels (path ++ [i]) =
          partOf (partAt value path) i := by
      rw [ih (by rwa [partAt_concat]), partAt_concat]
    rw [YamlDocument.valueAt, ofValue_objects]
    generalize partAt value path = here at nested part
    have listed (items : List Value) (all : items.all (NestedWithin levels) = true)
        (parts : ∀ i, partOf here i = items.getD i .none) :
        ((List.range items.length).map fun i => path ++ [i]).map
          ((YamlDocument.ofValue value).valueAt levels) = items := by
      refine List.ext_getElem (by simp) fun i inside _ => ?_
      have inside : i < items.length := by simpa using inside
      have deeper := List.all_eq_true.mp all items[i] (List.getElem_mem inside)
      have same : partOf here i = items[i] := by
        rw [parts, List.getD_eq_getElem?_getD, List.getElem?_eq_getElem inside, Option.getD_some]
      simp only [List.getElem_map, List.getElem_range]
      rw [part i (same ▸ deeper), same]
    cases here with
    | list items => exact congrArg Value.list (listed items nested fun _ => rfl)
    | tuple items => exact congrArg Value.tuple (listed items nested fun _ => rfl)
    | set items => exact congrArg Value.set (listed items nested fun _ => rfl)
    | dict entries =>
      refine congrArg Value.dict ?_
      refine List.ext_getElem (by simp) fun i inside _ => ?_
      have inside : i < entries.length := by simpa using inside
      have deeper := List.all_eq_true.mp nested entries[i] (List.getElem_mem inside)
      rw [Bool.and_eq_true] at deeper
      have key : partOf (.dict entries) (2 * i) = entries[i].1 := by
        simp [partOf, inside]
      have item : partOf (.dict entries) (2 * i + 1) = entries[i].2 := by
        have half : (2 * i + 1) / 2 = i := by omega
        have odd : (2 * i + 1) % 2 = 1 := by omega
        simp [partOf, half, odd, inside]
      simp only [List.getElem_map, List.getElem_range]
      rw [part (2 * i) (key ▸ deeper.1), part (2 * i + 1) (item ▸ deeper.2), key, item]
    | none | bool | int | float | infinity | nan | str | other => rfl

/-- The parts of a nested value are nested one level less. -/
theorem nestedWithin_partOf {levels : Nat} {value : Value}
    (nested : NestedWithin (levels + 1) value = true)
    {path child : ObjectId} (member : child ∈ (objectOf path value).shape.children) :
    ∃ i, child = path ++ [i] ∧ NestedWithin levels (partOf value i) = true := by
  have listed (items : List Value) (all : items.all (NestedWithin levels) = true)
      (inside : child ∈ (List.range items.length).map fun i => path ++ [i]) :
      ∃ i, child = path ++ [i] ∧ NestedWithin levels (items.getD i .none) = true := by
    obtain ⟨i, known, rfl⟩ := List.mem_map.mp inside
    have bound := List.mem_range.mp known
    refine ⟨i, rfl, ?_⟩
    rw [List.getD_eq_getElem?_getD, List.getElem?_eq_getElem bound, Option.getD_some]
    exact List.all_eq_true.mp all items[i] (List.getElem_mem bound)
  cases value with
  | list items | tuple items | set items => exact listed items nested member
  | dict entries =>
    obtain ⟨pair, known, either⟩ := List.mem_flatMap.mp member
    obtain ⟨i, range, rfl⟩ := List.mem_map.mp known
    have bound := List.mem_range.mp range
    have deeper := List.all_eq_true.mp nested entries[i] (List.getElem_mem bound)
    rw [Bool.and_eq_true] at deeper
    simp only [List.mem_cons, List.not_mem_nil, or_false] at either
    rcases either with rfl | rfl
    · exact ⟨2 * i, rfl, by simpa [partOf, bound] using deeper.1⟩
    · have half : (2 * i + 1) / 2 = i := by omega
      have odd : (2 * i + 1) % 2 = 1 := by omega
      exact ⟨2 * i + 1, rfl, by simpa [partOf, half, odd, bound] using deeper.2⟩
  | none | bool | int | float | infinity | nan | str | other => cases member

open Graph in
theorem ofValue_fits {levels : Nat} {value : Value} {path : ObjectId}
    (nested : NestedWithin levels (partAt value path) = true) :
    Fits (YamlDocument.ofValue value).heap.below levels path := by
  induction levels generalizing path with
  | zero => cases nested
  | succ levels ih =>
    intro child member
    obtain ⟨i, rfl, deeper⟩ := nestedWithin_partOf nested member
    exact ih (by rwa [partAt_concat])

/-- A text whose document is a value loads as that value, when it is nested within the limit. -/
theorem loadUniqueYaml_ofValue {rt : Runtime} {source : Str} {value : Value}
    (loaded : rt.yamlLoad source = .ok (YamlDocument.ofValue value))
    (nested : NestedWithin (MAX_NESTING_DEPTH + 1) value = true) :
    rt.loadUniqueYaml source = .ok value := by
  have fits : Graph.Fits (YamlDocument.ofValue value).heap.below (MAX_NESTING_DEPTH + 1) [] :=
    ofValue_fits nested
  refine (loadUniqueYaml_ok_iff rt source value).mpr ⟨_, loaded, ?_, ?_, fun levels more => ?_⟩
  · -- every object goes by the path that leads to it
    intro path object reached _
    refine ⟨path, reached, fun way again => ?_⟩
    exact List.append_cancel_left ((ofValue_walk again).symm.trans (ofValue_walk reached))
  · exact (ObjectHeap.withinDepth_iff _).mpr fits
  · exact (YamlDocument.valueAt_fits _ fits more).trans (valueAt_ofValue nested)

end ClaimCI
