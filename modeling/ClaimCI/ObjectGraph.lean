import ClaimCI.Graph.Paths
import ClaimCI.Models

/-!
# Object graphs

The validators of decoded values, over objects that may share containers and may contain themselves:
the one for YAML accepts the values whose containers form a tree, the one for JSON those without
a cycle, both within the nesting limit.
-/

open Python

namespace ClaimCI

/-- What a validator sees of one object. A mapping, a sequence or a set is a container. -/
inductive PyObject (ι : Type) where
  | mapping (items : List (ι × ι))
  | sequence (items : List ι)
  | scalar

def PyObject.isContainer {ι : Type} : PyObject ι → Bool
  | mapping _ => true
  | sequence _ => true
  | scalar => false

/-- The keys and the values of a mapping, or the items of a sequence. -/
def PyObject.children {ι : Type} : PyObject ι → List ι
  | mapping items => items.flatMap fun item => [item.1, item.2]
  | sequence items => items
  | scalar => []

/-- The objects under their identities. -/
abbrev ObjectHeap (ι : Type) := ι → PyObject ι

namespace ObjectHeap

variable {ι : Type}

/-- The identities that a container refers to, in the order of the iteration. -/
def below (heap : ObjectHeap ι) (value : ι) : List ι := (heap value).children

def isContainer (heap : ObjectHeap ι) (value : ι) : Bool := (heap value).isContainer

def nestingText : Str :=
  lit " nesting exceeds maximum supported depth " ++ natText MAX_NESTING_DEPTH

variable [DecidableEq ι]

/-- The checks of a container before its children. -/
def enterYaml (active completed : List ι) (value : ι) : Except YamlError Unit :=
  if value ∈ active then .error (.invalid "recursive or cyclic YAML alias graph")
  else if value ∈ completed then
    .error (.invalid "repeated YAML container aliases are not supported")
  else .ok ()

/-- `_validate_yaml_graph` with the levels that the limit still allows, `MAX_NESTING_DEPTH + 1 -
depth`; it gives the completed containers. -/
def validateYamlAt (heap : ObjectHeap ι) :
    Nat → List ι → List ι → ι → Except YamlError (List ι)
  | 0, _, _, _ => .error (.invalid (lit "YAML" ++ nestingText))
  | levels + 1, active, completed, value =>
    match heap value with
    | .scalar => .ok completed
    | .mapping items => do
      enterYaml active completed value
      -- key and value of an item are walked in turn
      let completed ← items.foldlM (fun completed item => do
        let completed ← validateYamlAt heap levels (value :: active) completed item.1
        validateYamlAt heap levels (value :: active) completed item.2) completed
      pure (value :: completed)
    | .sequence items => do
      enterYaml active completed value
      let completed ← items.foldlM (validateYamlAt heap levels (value :: active)) completed
      pure (value :: completed)

/-- `_validate_yaml_graph`. -/
def validateYamlGraph (heap : ObjectHeap ι) (value : ι) : Except YamlError Unit := do
  let _ ← heap.validateYamlAt (MAX_NESTING_DEPTH + 1) [] [] value

/-- The check of a container before its children. -/
def enterJson (label : Str) (active : List ι) (value : ι) : Except Error Unit :=
  if value ∈ active then .error (.valueError (lit "recursive or cyclic " ++ label ++ lit " value"))
  else .ok ()

/-- `walk` of `validate_json_graph`. -/
def walkJson (heap : ObjectHeap ι) (label : Str) : Nat → List ι → ι → Except Error Unit
  | 0, _, _ => .error (.valueError (label ++ nestingText))
  | levels + 1, active, value =>
    match heap value with
    | .scalar => .ok ()
    | .mapping items => do
      enterJson label active value
      items.forM fun item => do
        walkJson heap label levels (value :: active) item.1
        walkJson heap label levels (value :: active) item.2
    | .sequence items => do
      enterJson label active value
      items.forM (walkJson heap label levels (value :: active))

/-- `validate_json_graph`. -/
def validateJsonGraph (heap : ObjectHeap ι) (value : ι) (label : Str) : Except Error Unit :=
  heap.walkJson label (MAX_NESTING_DEPTH + 1) [] value

/-! ### One container -/

omit [DecidableEq ι] in
/-- The loop over the items of a mapping is one over its keys and values. -/
theorem foldlM_items {ε β : Type} (f : β → ι → Except ε β) (items : List (ι × ι)) (start : β) :
    items.foldlM (fun found item => do
        let found ← f found item.1
        f found item.2) start =
      (items.flatMap fun item => [item.1, item.2]).foldlM f start := by
  induction items generalizing start with
  | nil => rfl
  | cons item items ih =>
    simp only [List.foldlM_cons, List.flatMap_cons, List.cons_append, List.nil_append, bind_assoc,
      ih]

omit [DecidableEq ι] in
theorem forM_items {ε : Type} (f : ι → Except ε Unit) (items : List (ι × ι)) :
    items.forM (fun item => do
        f item.1
        f item.2) =
      (items.flatMap fun item => [item.1, item.2]).forM f := by
  induction items with
  | nil => rfl
  | cons item items ih =>
    simp only [List.forM, List.flatMap_cons, List.cons_append, List.nil_append, bind_assoc, ih]

variable (heap : ObjectHeap ι)

theorem validateYamlAt_scalar (levels : Nat) (active completed : List ι) {value : ι}
    (scalar : heap.isContainer value = false) :
    heap.validateYamlAt (levels + 1) active completed value = .ok completed := by
  rw [isContainer] at scalar
  rw [validateYamlAt]
  cases object : heap value with
  | scalar => rfl
  | mapping items | sequence items =>
    rw [object] at scalar
    cases scalar

theorem validateYamlAt_container (levels : Nat) (active completed : List ι) {value : ι}
    (container : heap.isContainer value = true) :
    heap.validateYamlAt (levels + 1) active completed value = (do
      enterYaml active completed value
      let completed ← (heap.below value).foldlM
        (heap.validateYamlAt levels (value :: active)) completed
      pure (value :: completed)) := by
  rw [isContainer] at container
  rw [validateYamlAt, below]
  cases object : heap value with
  | scalar =>
    rw [object] at container
    cases container
  | mapping items =>
    simp only [PyObject.children]
    rw [foldlM_items]
  | sequence items => rfl

theorem walkJson_scalar (label : Str) (levels : Nat) (active : List ι) {value : ι}
    (scalar : heap.isContainer value = false) :
    heap.walkJson label (levels + 1) active value = .ok () := by
  rw [isContainer] at scalar
  rw [walkJson]
  cases object : heap value with
  | scalar => rfl
  | mapping items | sequence items =>
    rw [object] at scalar
    cases scalar

theorem walkJson_container (label : Str) (levels : Nat) (active : List ι) {value : ι}
    (container : heap.isContainer value = true) :
    heap.walkJson label (levels + 1) active value = (do
      enterJson label active value
      (heap.below value).forM (heap.walkJson label levels (value :: active))) := by
  rw [isContainer] at container
  rw [walkJson, below]
  cases object : heap value with
  | scalar =>
    rw [object] at container
    cases container
  | mapping items =>
    simp only [PyObject.children]
    rw [forM_items]
  | sequence items => rfl

omit [DecidableEq ι] in
theorem below_scalar {value : ι} (scalar : heap.isContainer value = false) :
    heap.below value = [] := by
  rw [isContainer] at scalar
  rw [below]
  cases object : heap value with
  | scalar => rfl
  | mapping items | sequence items =>
    rw [object] at scalar
    cases scalar

/-! ### What the YAML validator accepts -/

open Graph

/-- The containers on the paths from a value, once for each path. -/
def containersOn (levels : Nat) (value : ι) : List ι :=
  occurrences heap.below heap.isContainer levels value

/-- What is needed so that containers can still be entered: each occurs once, and none is active or
completed. -/
structure Enterable (found active completed : List ι) : Prop where
  once : found.Nodup
  inactive : found.Disjoint active
  incomplete : found.Disjoint completed

/-- The validator accepts a value exactly if its paths fit and its containers can be entered, and
then these are the ones that it completes. -/
def AcceptsYaml (levels : Nat) (value : ι) : Prop :=
  ∀ active completed,
    ((∃ after, heap.validateYamlAt levels active completed value = .ok after) ↔
      Fits heap.below levels value ∧
        Enterable (heap.containersOn levels value) active completed) ∧
    ∀ after, heap.validateYamlAt levels active completed value = .ok after →
      ∀ y, y ∈ after ↔ y ∈ heap.containersOn levels value ∨ y ∈ completed

/-- The children of a container one after the other, each with what those before it completed. -/
theorem foldlM_accepts {levels : Nat} (accepts : ∀ value, heap.AcceptsYaml levels value)
    (active : List ι) (values completed : List ι) :
    ((∃ after, values.foldlM (heap.validateYamlAt levels active) completed = .ok after) ↔
      (∀ value ∈ values, Fits heap.below levels value) ∧
        Enterable (values.flatMap (heap.containersOn levels)) active completed) ∧
    ∀ after, values.foldlM (heap.validateYamlAt levels active) completed = .ok after →
      ∀ y, y ∈ after ↔ y ∈ values.flatMap (heap.containersOn levels) ∨ y ∈ completed := by
  induction values generalizing completed with
  | nil =>
    constructor
    · refine iff_of_true ⟨completed, rfl⟩ ⟨List.forall_mem_nil _, List.nodup_nil, ?_, ?_⟩
      · exact List.disjoint_nil_left _
      · exact List.disjoint_nil_left _
    · intro after returned y
      obtain rfl := Except.ok.inj returned
      simp
  | cons value values ih =>
    obtain ⟨first, members⟩ := accepts value active completed
    rw [List.foldlM_cons, List.flatMap_cons]
    cases here : heap.validateYamlAt levels active completed value with
    | error error =>
      -- the first child is refused
      have refused : ¬ (Fits heap.below levels value ∧
          Enterable (heap.containersOn levels value) active completed) := by
        rw [← first, here]
        rintro ⟨after, returned⟩
        cases returned
      constructor
      · refine iff_of_false ?_ ?_
        · rintro ⟨after, returned⟩
          cases returned
        · rintro ⟨fits, once, inactive, incomplete⟩
          refine refused ⟨fits value List.mem_cons_self, once.of_append_left, ?_, ?_⟩
          · exact (List.disjoint_append_left.mp inactive).1
          · exact (List.disjoint_append_left.mp incomplete).1
      · intro after returned
        cases returned
    | ok next =>
      obtain ⟨fits, once, inactive, incomplete⟩ := first.mp ⟨next, here⟩
      have completes := members next here
      obtain ⟨rest, gathers⟩ := ih next
      change ((∃ after, values.foldlM (heap.validateYamlAt levels active) next = .ok after) ↔ _) ∧
        ∀ after, values.foldlM (heap.validateYamlAt levels active) next = .ok after → _
      constructor
      · rw [rest]
        constructor
        · rintro ⟨others, othersOnce, othersInactive, othersIncomplete⟩
          refine ⟨List.forall_mem_cons.mpr ⟨fits, others⟩, ?_, ?_, ?_⟩
          · refine once.append othersOnce fun y mine theirs => ?_
            exact othersIncomplete theirs ((completes y).mpr (.inl mine))
          · exact List.disjoint_append_left.mpr ⟨inactive, othersInactive⟩
          · refine List.disjoint_append_left.mpr ⟨incomplete, fun y theirs done => ?_⟩
            exact othersIncomplete theirs ((completes y).mpr (.inr done))
        · rintro ⟨all, allOnce, allInactive, allIncomplete⟩
          refine ⟨(List.forall_mem_cons.mp all).2, allOnce.of_append_right, ?_, ?_⟩
          · exact (List.disjoint_append_left.mp allInactive).2
          · intro y theirs done
            rcases (completes y).mp done with mine | before
            · exact List.disjoint_of_nodup_append allOnce mine theirs
            · exact (List.disjoint_append_left.mp allIncomplete).2 theirs before
      · intro after returned y
        rw [gathers after returned y, completes y, List.mem_append]
        tauto

theorem enterYaml_ok_iff {active completed : List ι} {value : ι} :
    enterYaml active completed value = .ok () ↔ value ∉ active ∧ value ∉ completed := by
  by_cases cyclic : value ∈ active
  · simp [enterYaml, cyclic]
  · by_cases repeated : value ∈ completed
    · simp [enterYaml, cyclic, repeated]
    · simp [enterYaml, cyclic, repeated]

-- induction on the levels; the containers met so far are those with a path from the root
theorem acceptsYaml (levels : Nat) (value : ι) : heap.AcceptsYaml levels value := by
  induction levels generalizing value with
  | zero =>
    intro active completed
    constructor
    · refine iff_of_false ?_ fun fits => fits.1.elim
      rintro ⟨after, returned⟩
      cases returned
    · intro after returned
      cases returned
  | succ levels ih =>
    -- a container is entered once, a scalar never
    intro active completed
    by_cases container : heap.isContainer value = true
    · rw [heap.validateYamlAt_container levels active completed container]
      have found : heap.containersOn (levels + 1) value =
          value :: (heap.below value).flatMap (heap.containersOn levels) := by
        rw [containersOn, occurrences, if_pos container]
        rfl
      rw [found]
      obtain ⟨children, gathers⟩ :=
        heap.foldlM_accepts ih (value :: active) (heap.below value) completed
      -- known or active: the graph has a cycle or a shared container
      cases entered : enterYaml active completed value with
      | error error =>
        have closed : ¬ (value ∉ active ∧ value ∉ completed) := by
          rw [← enterYaml_ok_iff, entered]
          rintro ⟨⟩
        constructor
        · refine iff_of_false ?_ ?_
          · rintro ⟨after, returned⟩
            cases returned
          · rintro ⟨-, -, inactive, incomplete⟩
            exact closed ⟨inactive List.mem_cons_self, incomplete List.mem_cons_self⟩
        · intro after returned
          cases returned
      | ok passed =>
        have opened : value ∉ active ∧ value ∉ completed := enterYaml_ok_iff.mp entered
        -- the children one after another, each against what the earlier ones completed
        cases walked : (heap.below value).foldlM (heap.validateYamlAt levels (value :: active))
            completed with
        | error error =>
          have refused := mt children.mpr (by
            rw [walked]
            rintro ⟨after, returned⟩
            cases returned)
          constructor
          · refine iff_of_false ?_ ?_
            · rintro ⟨after, returned⟩
              cases returned
            · rintro ⟨fits, once, inactive, incomplete⟩
              rw [List.nodup_cons] at once
              rw [List.disjoint_cons_left] at inactive incomplete
              refine refused ⟨fits, once.2, ?_, incomplete.2⟩
              exact List.disjoint_cons_right.mpr ⟨once.1, inactive.2⟩
          · intro after returned
            cases returned
        | ok inner =>
          obtain ⟨fits, once, inactive, incomplete⟩ := children.mp ⟨inner, walked⟩
          rw [List.disjoint_cons_right] at inactive
          constructor
          · refine iff_of_true ⟨value :: inner, rfl⟩ ⟨fits, ?_, ?_, ?_⟩
            · exact List.nodup_cons.mpr ⟨inactive.1, once⟩
            · exact List.disjoint_cons_left.mpr ⟨opened.1, inactive.2⟩
            · exact List.disjoint_cons_left.mpr ⟨opened.2, incomplete⟩
          · intro after returned y
            obtain rfl := Except.ok.inj returned
            rw [List.mem_cons, gathers inner walked y, List.mem_cons, or_assoc]
    · rw [Bool.not_eq_true] at container
      rw [heap.validateYamlAt_scalar levels active completed container]
      have found : heap.containersOn (levels + 1) value = [] := by
        rw [containersOn, occurrences, container, heap.below_scalar container]
        rfl
      have fits : Fits heap.below (levels + 1) value := by
        rw [Fits, heap.below_scalar container]
        exact List.forall_mem_nil _
      rw [found]
      constructor
      · refine iff_of_true ⟨completed, rfl⟩ ⟨fits, List.nodup_nil, ?_, ?_⟩
        · exact List.disjoint_nil_left _
        · exact List.disjoint_nil_left _
      · intro after returned y
        obtain rfl := Except.ok.inj returned
        simp

theorem validateYamlGraph_fits (value : ι) :
    heap.validateYamlGraph value = .ok () ↔ Fits heap.below (MAX_NESTING_DEPTH + 1) value ∧
      UniquePaths heap.below heap.isContainer value := by
  obtain ⟨accepts, -⟩ := heap.acceptsYaml (MAX_NESTING_DEPTH + 1) value [] []
  have returns : heap.validateYamlGraph value = .ok () ↔
      ∃ after, heap.validateYamlAt (MAX_NESTING_DEPTH + 1) [] [] value = .ok after := by
    rw [validateYamlGraph]
    cases heap.validateYamlAt (MAX_NESTING_DEPTH + 1) [] [] value with
    | error error => simp [bind, Except.bind]
    | ok after => simp [bind, Except.bind, pure, Except.pure]
  rw [returns, accepts]
  refine and_congr_right fun fits => ?_
  rw [← occurrences_nodup_iff fits]
  refine ⟨Enterable.once, fun once => ⟨once, ?_, ?_⟩⟩
  · exact List.disjoint_nil_right _
  · exact List.disjoint_nil_right _

/-! ### What the JSON validator accepts -/

theorem enterJson_ok_iff {label : Str} {active : List ι} {value : ι} :
    enterJson label active value = .ok () ↔ value ∉ active := by
  by_cases cyclic : value ∈ active
  · simp [enterJson, cyclic]
  · simp [enterJson, cyclic]

omit [DecidableEq ι] in
theorem forM_ok_iff {ε : Type} (f : ι → Except ε Unit) (values : List ι) :
    values.forM f = .ok () ↔ ∀ value ∈ values, f value = .ok () := by
  induction values with
  | nil => simp [pure, Except.pure]
  | cons value values ih =>
    rw [List.forM, List.forall_mem_cons, ← ih]
    cases f value with
    | error error => simp [bind, Except.bind]
    | ok _ => simp [bind, Except.bind]

/-- The walk accepts what fits and does not come back to an active container. -/
theorem walkJson_ok_iff (label : Str) {levels : Nat} {active : List ι} {value : ι} :
    heap.walkJson label levels active value = .ok () ↔ Fits heap.below levels value ∧
      (heap.containersOn levels value).Disjoint active := by
  -- a container may be shared here, but is never below itself
  induction levels generalizing active value with
  | zero => exact iff_of_false (by rintro ⟨⟩) fun fits => fits.1.elim
  | succ levels ih =>
    by_cases container : heap.isContainer value = true
    · have found : heap.containersOn (levels + 1) value =
          value :: (heap.below value).flatMap (heap.containersOn levels) := by
        rw [containersOn, occurrences, if_pos container]
        rfl
      have steps : heap.walkJson label (levels + 1) active value = .ok () ↔
          value ∉ active ∧ ∀ child ∈ heap.below value,
            heap.walkJson label levels (value :: active) child = .ok () := by
        rw [heap.walkJson_container label levels active container, ← forM_ok_iff,
          ← (enterJson_ok_iff : enterJson label active value = .ok () ↔ value ∉ active)]
        cases enterJson label active value with
        | error error => simp [bind, Except.bind]
        | ok _ => simp [bind, Except.bind]
      rw [steps, found, List.disjoint_cons_left, Fits]
      constructor
      · rintro ⟨fresh, children⟩
        refine ⟨fun child member => (ih.mp (children child member)).1, fresh, ?_⟩
        intro y below
        obtain ⟨child, member, inside⟩ := List.mem_flatMap.mp below
        exact (List.disjoint_cons_right.mp (ih.mp (children child member)).2).2 inside
      · rintro ⟨fits, fresh, apart⟩
        refine ⟨fresh, fun child member => ih.mpr ⟨fits child member, ?_⟩⟩
        refine List.disjoint_cons_right.mpr ⟨fun inside => ?_, fun y inside => ?_⟩
        · -- a container below itself has paths of every length
          obtain ⟨-, path, -, back⟩ := mem_occurrences.mp inside
          obtain ⟨i, chosen⟩ := List.mem_iff_getElem?.mp member
          have bounded : Fits heap.below (levels + 1) value := fits
          exact absurd (bounded.no_return (walk_cons.mpr ⟨child, chosen, back⟩))
            (List.cons_ne_nil i path)
        · exact apart (List.mem_flatMap.mpr ⟨child, member, inside⟩)
    · rw [Bool.not_eq_true] at container
      rw [heap.walkJson_scalar label levels active container]
      have found : heap.containersOn (levels + 1) value = [] := by
        rw [containersOn, occurrences, container, heap.below_scalar container]
        rfl
      rw [found, Fits, heap.below_scalar container]
      exact iff_of_true rfl ⟨List.forall_mem_nil _, List.disjoint_nil_left _⟩

/-! ### Trees and acyclic values -/

/-- The node at the end of a path of positions from a root. -/
def nodeAt (root : ι) (path : List Nat) : Option ι := walk heap.below path root

/-- No node is deeper than the limit. -/
def WithinDepth (root : ι) : Prop :=
  ∀ path node, heap.nodeAt root path = some node → path.length ≤ MAX_NESTING_DEPTH

/-- No container that is reached from the root is reached again from itself. -/
def Acyclic (root : ι) : Prop :=
  ∀ path node, heap.nodeAt root path = some node → heap.isContainer node = true →
    ∀ further, heap.nodeAt node further = some node → further = []

/-- Every container that is reached from the root is reached by exactly one path. -/
def ContainersFormTree (root : ι) : Prop :=
  ∀ path node, heap.nodeAt root path = some node → heap.isContainer node = true →
    ∃! way, heap.nodeAt root way = some node

omit [DecidableEq ι] in
theorem withinDepth_iff {root : ι} :
    heap.WithinDepth root ↔ Fits heap.below (MAX_NESTING_DEPTH + 1) root := by
  rw [fits_iff]
  exact forall₃_congr fun path node _ => Nat.lt_succ_iff.symm

/-- The YAML validator accepts the trees of containers within the limit. -/
theorem validateYamlGraph_ok_iff (root : ι) : heap.validateYamlGraph root = .ok () ↔
    heap.ContainersFormTree root ∧ heap.WithinDepth root := by
  rw [validateYamlGraph_fits, withinDepth_iff, and_comm]
  refine and_congr_left fun _ => ?_
  constructor
  · intro unique path node reached container
    exact ⟨path, reached, fun way again => unique node container way path again reached⟩
  · intro tree node container p q here there
    obtain ⟨way, -, only⟩ := tree p node here container
    rw [only p here, only q there]

/-- Over every object graph the YAML validator accepts exactly the trees of containers, and the JSON
validator exactly the values without a cycle, within the limit. -/
theorem validators_exact (root : ι) (label : Str) :
    (heap.validateYamlGraph root = .ok () ↔
      heap.ContainersFormTree root ∧ heap.WithinDepth root) ∧
    (heap.validateJsonGraph root label = .ok () ↔
      heap.Acyclic root ∧ heap.WithinDepth root) := by
  constructor
  · exact heap.validateYamlGraph_ok_iff root
  · rw [validateJsonGraph, walkJson_ok_iff, withinDepth_iff]
    constructor
    · rintro ⟨fits, -⟩
      refine ⟨fun path node reached _ further back => ?_, fits⟩
      exact (fits.walk reached).no_return back
    · rintro ⟨-, fits⟩
      exact ⟨fits, List.disjoint_nil_right _⟩

/-- Two references to one empty list. -/
example : (validateYamlGraph (fun n : Nat => .sequence (if n = 0 then [1, 1] else [])) 0).isOk = false ∧
    (validateJsonGraph (fun n : Nat => .sequence (if n = 0 then [1, 1] else [])) 0 "JSON").isOk =
      true := by
  decide +kernel

end ObjectHeap

end ClaimCI
