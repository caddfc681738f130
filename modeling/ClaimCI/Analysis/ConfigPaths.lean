import ClaimCI.Analysis.NativePayloads
import ClaimCI.DottedLeaves

/-!
# Config paths

What a config built from dotted paths holds: exactly the inserted values at their paths, in whatever
order they are inserted, unless a null stands on the way to another value.
-/

open Python

namespace ClaimCI

/-! ### Inserting one value -/

/-- No leaf stands on the way to a path, and nothing at it. -/
def PathFree (current : ConfigEntries) (parts : List Str) : Prop :=
  (∀ through v, through <+: parts → Nested.node (.dict current) through ≠ some (.leaf v)) ∧
    Nested.node (.dict current) parts = none

/-- No null stands on the way to a path. -/
def NoNullBefore (current : ConfigEntries) (parts : List Str) : Prop :=
  ∀ through, through <+: parts → through ≠ parts →
    Nested.node (.dict current) through ≠ some (.leaf none)

theorem insertParts_dumpable {value : JsonScalar} {parts : List Str} {current t : ConfigEntries}
    (nonempty : parts ≠ []) (inserted : insertParts value parts current = .ok t) :
    value.toJson.dumpable = true := by
  induction parts generalizing current t with
  | nil => exact absurd rfl nonempty
  | cons part parts ih =>
    cases parts with
    | nil =>
      rw [insertParts] at inserted
      split at inserted
      · cases inserted
      · split at inserted
        next written => exact written
        · cases inserted
    | cons next parts =>
      rw [insertParts] at inserted
      split at inserted
      · obtain ⟨child, below, -⟩ := bind_ok_iff.mp inserted
        exact ih (List.cons_ne_nil _ _) below
      · obtain ⟨child, below, -⟩ := bind_ok_iff.mp inserted
        exact ih (List.cons_ne_nil _ _) below
      · obtain ⟨child, below, -⟩ := bind_ok_iff.mp inserted
        exact ih (List.cons_ne_nil _ _) below
      · cases inserted

/-- What stands in a mapping after one of its entries has been set. -/
theorem node_setKey (part : Str) (child : Nested JsonScalar) (current : ConfigEntries) (key : Str)
    (path : List Str) :
    Nested.node (.dict (setKey part child current)) (key :: path) =
      if part = key then Nested.node child path else Nested.node (.dict current) (key :: path) := by
  rw [Nested.node_dict_cons, lookupKey_setKey, Nested.node_dict_cons]
  split <;> rfl

/-- What stands in a mapping after a value has been inserted below one of its entries. -/
theorem node_insertedBelow {part : Str} {parts : List Str} {value : JsonScalar}
    {current existing child : ConfigEntries}
    (below : ∀ path, Nested.node (.dict child) path =
      if path = parts then some (.leaf value)
      else if path <+: parts then some .dict
      else Nested.node (.dict existing) path)
    (same : ∀ path, path ≠ [] →
      Nested.node (.dict current) (part :: path) = Nested.node (.dict existing) path) :
    ∀ path, Nested.node (.dict (setKey part (.dict child) current)) path =
      if path = part :: parts then some (.leaf value)
      else if path <+: part :: parts then some .dict
      else Nested.node (.dict current) path := by
  -- by whether the path goes through the part, and then through the whole path
  intro path
  cases path with
  | nil => simp
  | cons key path =>
    rw [node_setKey]
    split
    next here =>
      subst here
      rw [below]
      simp only [List.cons.injEq, List.cons_prefix_cons, true_and]
      split
      · rfl
      · split
        · rfl
        next aside =>
          have nonempty : path ≠ [] := by
            rintro rfl
            exact aside (List.nil_prefix)
          exact (same path nonempty).symm
    next other =>
      have differs : key :: path ≠ part :: parts := fun h => other (List.cons.inj h).1.symm
      have aside : ¬ key :: path <+: part :: parts := fun h =>
        other (List.cons_prefix_cons.mp h).1.symm
      rw [if_neg differs, if_neg aside]

theorem node_empty (key : Str) (path : List Str) :
    Nested.node (.dict ([] : ConfigEntries)) (key :: path) = none := by
  rw [Nested.node_dict_cons]
  rfl

theorem node_found {part : Str} {current existing : ConfigEntries}
    (found : lookupKey part current = some (.dict existing)) (path : List Str) :
    Nested.node (.dict current) (part :: path) = Nested.node (.dict existing) path := by
  rw [Nested.node_dict_cons, found, Option.bind_some]

/-- A value can be inserted at a path exactly if the path is free, and then it stands there, with
mappings on the way to it and everything else as it was. -/
theorem insertParts_spec {value : JsonScalar} (written : value.toJson.dumpable = true)
    {parts : List Str} (nonempty : parts ≠ []) {current : ConfigEntries}
    (noNull : NoNullBefore current parts) :
    ((∃ t, insertParts value parts current = .ok t) ↔ PathFree current parts) ∧
      ∀ t, insertParts value parts current = .ok t → ∀ path, Nested.node (.dict t) path =
        if path = parts then some (.leaf value)
        else if path <+: parts then some .dict
        else Nested.node (.dict current) path := by
  -- induction on the parts; each one goes a mapping deeper
  induction parts generalizing current with
  | nil => exact absurd rfl nonempty
  | cons part parts ih =>
    cases parts with
    | nil =>
      have free : PathFree current [part] ↔ lookupKey part current = none := by
        have ends : Nested.node (.dict current) [part] = none ↔ lookupKey part current = none := by
          rw [Nested.node_dict_cons]
          cases lookupKey part current with
          | none => simp
          | some child =>
            have stands := Nested.node_nil_isSome child
            simp [Option.isSome_iff_ne_none.mp stands]
        constructor
        · exact fun h => ends.mp h.2
        · intro missing
          refine ⟨fun through v before => ?_, ends.mpr missing⟩
          rcases List.prefix_cons_iff.mp before with rfl | ⟨rest, rfl, nil⟩
          · simp
          · rw [List.prefix_nil.mp nil, ends.mpr missing]
            simp
      rw [free, insertParts]
      cases known : lookupKey part current with
      | some child => exact ⟨by simp, fun t inserted => by cases inserted⟩
      -- an existing entry is never overwritten
      | none =>
        rw [if_pos written]
        refine ⟨by simp, ?_⟩
        rintro t inserted path
        obtain rfl := Except.ok.inj inserted
        cases path with
        | nil => simp
        | cons key path =>
          rw [node_setKey]
          simp only [List.cons.injEq, List.cons_prefix_cons, List.prefix_nil]
          by_cases here : part = key
          · subst here
            cases path with
            | nil => simp
            | cons next path => simp [Nested.node_dict_cons, known]
          · simp [here, Ne.symm here]
    | cons next parts =>
      rw [insertParts]
      cases known : lookupKey part current with
      -- a new mapping holds nothing, so every path below is free
      | none =>
        have empty : NoNullBefore [] (next :: parts) := by
          intro through before other
          cases through with
          | nil => simp
          | cons key path => simp [node_empty]
        obtain ⟨accepted, stands⟩ := ih (List.cons_ne_nil _ _) empty
        have freeBelow : PathFree [] (next :: parts) := by
          refine ⟨fun through v before => ?_, node_empty _ _⟩
          cases through with
          | nil => simp
          | cons key path => simp [node_empty]
        have freeHere : PathFree current (part :: next :: parts) := by
          have absent (path : List Str) : Nested.node (.dict current) (part :: path) = none := by
            rw [Nested.node_dict_cons, known, Option.bind_none]
          refine ⟨fun through v before => ?_, absent _⟩
          rcases List.prefix_cons_iff.mp before with rfl | ⟨rest, rfl, -⟩
          · simp
          · simp [absent]
        obtain ⟨child, inserted⟩ := accepted.mpr freeBelow
        simp only [inserted]
        refine ⟨⟨fun _ => freeHere, fun _ => ⟨_, rfl⟩⟩, ?_⟩
        intro t made
        obtain rfl := Except.ok.inj made
        refine node_insertedBelow (stands child inserted) fun path path_ne => ?_
        obtain ⟨key, path, rfl⟩ := List.exists_cons_of_ne_nil path_ne
        rw [Nested.node_dict_cons, known, Option.bind_none, node_empty]
      | some child =>
        cases child with
        -- a leaf stands where the path wants to go on
        | leaf v =>
          have leafHere : Nested.node (.dict current) [part] = some (.leaf v) := by
            rw [Nested.node_dict_cons, known, Option.bind_some, Nested.node_leaf_nil]
          have before : [part] <+: part :: next :: parts := by simp
          cases v with
          | none => exact absurd leafHere (noNull [part] before (by simp))
          | some v =>
            have taken : ¬ PathFree current (part :: next :: parts) :=
              fun free => free.1 [part] (some v) before leafHere
            exact ⟨by simp [taken], fun t inserted => by cases inserted⟩
        -- the path goes on below an existing mapping
        | dict existing =>
          have same := node_found known
          have noNullBelow : NoNullBefore existing (next :: parts) := by
            intro through before other
            rw [← same]
            exact noNull (part :: through) (List.cons_prefix_cons.mpr ⟨rfl, before⟩) (by simpa using other)
          obtain ⟨accepted, stands⟩ := ih (List.cons_ne_nil _ _) noNullBelow
          have free : PathFree current (part :: next :: parts) ↔ PathFree existing (next :: parts) := by
            constructor
            · rintro ⟨leaves, ends⟩
              refine ⟨fun through v before => ?_, by rw [← same]; exact ends⟩
              rw [← same]
              exact leaves (part :: through) v (List.cons_prefix_cons.mpr ⟨rfl, before⟩)
            · rintro ⟨leaves, ends⟩
              refine ⟨fun through v before => ?_, by rw [same]; exact ends⟩
              rcases List.prefix_cons_iff.mp before with rfl | ⟨rest, rfl, below⟩
              · simp
              · rw [same]
                exact leaves rest v below
          rw [free, ← accepted]
          refine ⟨⟨?_, ?_⟩, ?_⟩
          · rintro ⟨t, made⟩
            obtain ⟨child, inserted, -⟩ := bind_ok_iff.mp made
            exact ⟨child, inserted⟩
          · rintro ⟨child, inserted⟩
            exact ⟨_, bind_ok_iff.mpr ⟨child, inserted, rfl⟩⟩
          · intro t made
            obtain ⟨child, inserted, made⟩ := bind_ok_iff.mp made
            obtain rfl := Except.ok.inj made
            exact node_insertedBelow (stands child inserted) fun path _ => same path

/-! ### Inserting a list of values -/

/-- A value under its path. -/
def pathOf (value : ConfigValue) : List Str × JsonScalar := (value.parts, value.value)

/-- The key and the value can be written. -/
def Writable (value : ConfigValue) : Prop :=
  value.parts.all isConfigSegment = true ∧ value.value.toJson.dumpable = true

/-- No null stands on the way to another value. -/
def NullsAside (values : List ConfigValue) : Prop :=
  ∀ null ∈ values, null.value = none → ∀ other ∈ values, null.parts <+: other.parts →
    null.parts = other.parts

theorem parts_ne_nil (value : ConfigValue) : value.parts ≠ [] := split_ne_nil DOT value.key

/-- In a mapping that holds a list of values, a path is free if it keeps apart from theirs. -/
theorem pathFree_iff {current : ConfigEntries} {leaves : List (List Str × JsonScalar)}
    (holds : HoldsExactly current leaves) {parts : List Str} (nonempty : parts ≠ []) :
    PathFree current parts ↔ ∀ leaf ∈ leaves, ¬ leaf.1 <+: parts ∧ ¬ parts <+: leaf.1 := by
  constructor
  -- what is free neither passes a leaf nor ends at a mapping
  · rintro ⟨noLeaf, noNode⟩ ⟨path, v⟩ member
    refine ⟨fun before => noLeaf path v before ((holds path (.leaf v)).mpr member), fun behind => ?_⟩
    by_cases same : parts = path
    · have stands := (holds path (.leaf v)).mpr member
      rw [← same, noNode] at stands
      cases stands
    · have stands := (holds parts .dict).mpr (Or.inr ⟨(path, v), member, behind, same⟩)
      rw [noNode] at stands
      cases stands
  · intro apart
    refine ⟨fun through v before stands => ?_, ?_⟩
    · exact (apart (through, v) ((holds through (.leaf v)).mp stands)).1 before
    · cases stands : Nested.node (.dict current) parts with
      | none => rfl
      | some n =>
        have described := (holds parts n).mp stands
        -- a node at the path itself would be a leaf or lie above one
        cases n with
        | leaf v => exact absurd (List.prefix_refl parts) (apart (parts, v) described).1
        | dict =>
          rcases described with empty | ⟨leaf, member, behind, -⟩
          · exact absurd empty nonempty
          · exact absurd behind (apart leaf member).2

/-- One value of a list whose nulls stand aside. -/
theorem insertConfig_spec {current : ConfigEntries} {done : List ConfigValue} {value : ConfigValue}
    (holds : HoldsExactly current (done.map pathOf)) (nulls : NullsAside (done ++ [value])) :
    ((∃ t, insertConfig current value = .ok t) ↔
        Writable value ∧ ∀ leaf ∈ done.map pathOf, ¬ leaf.1 <+: value.parts ∧ ¬ value.parts <+: leaf.1) ∧
      ∀ t, insertConfig current value = .ok t → HoldsExactly t ((done ++ [value]).map pathOf) := by
  have nonempty := parts_ne_nil value
  -- a null that the path would pass is aside by assumption
  have noNull : NoNullBefore current value.parts := by
    intro through before other stands
    obtain ⟨null, member, same⟩ := List.mem_map.mp ((holds through (.leaf none)).mp stands)
    obtain ⟨rfl, empty⟩ := Prod.mk.inj same
    exact other (nulls null (List.mem_append_left _ member) empty value (by simp) before)
  unfold insertConfig
  by_cases native : value.parts.all isConfigSegment = true
  · rw [if_pos native]
    by_cases written : value.value.toJson.dumpable = true
    · obtain ⟨accepted, stands⟩ := insertParts_spec written nonempty noNull
      rw [accepted, pathFree_iff holds nonempty]
      refine ⟨⟨fun apart => ⟨⟨native, written⟩, apart⟩, And.right⟩, fun t inserted => ?_⟩
      have apart := (pathFree_iff holds nonempty).mp (accepted.mp ⟨t, inserted⟩)
      rw [List.map_append]
      exact holds.snoc nonempty apart (stands t inserted)
    · have never (t : ConfigEntries) : insertParts value.value value.parts current ≠ .ok t :=
        fun inserted => written (insertParts_dumpable nonempty inserted)
      exact ⟨⟨fun ⟨t, inserted⟩ => absurd inserted (never t), fun h => absurd h.1.2 written⟩,
        fun t inserted => absurd inserted (never t)⟩
  · rw [if_neg native]
    exact ⟨⟨fun ⟨t, inserted⟩ => (by cases inserted), fun h => absurd h.1.1 native⟩,
      fun t inserted => (by cases inserted)⟩

/-- The whole list: it is inserted if every value can be written and their paths keep apart. -/
theorem foldlM_insertConfig {current : ConfigEntries} (done rest : List ConfigValue)
    (holds : HoldsExactly current (done.map pathOf)) (apart : PathsApart (done.map pathOf))
    (nulls : NullsAside (done ++ rest)) :
    ((∃ t, rest.foldlM insertConfig current = .ok t) ↔
        (∀ value ∈ rest, Writable value) ∧ PathsApart ((done ++ rest).map pathOf)) ∧
      ∀ t, rest.foldlM insertConfig current = .ok t → HoldsExactly t ((done ++ rest).map pathOf) := by
  -- induction on what is left; `done` is what the mapping holds already
  induction rest generalizing done current with
  | nil =>
    rw [List.append_nil, List.foldlM_nil]
    refine ⟨⟨fun _ => ⟨by simp, apart⟩, fun _ => ⟨current, rfl⟩⟩, fun t inserted => ?_⟩
    rw [← Except.ok.inj inserted]
    exact holds
  | cons value rest ih =>
    have regroup : done ++ value :: rest = done ++ [value] ++ rest := by simp
    have nullsHere : NullsAside (done ++ [value]) := by
      intro null member empty other inside
      rw [regroup] at nulls
      exact nulls null (List.mem_append_left _ member) empty other (List.mem_append_left _ inside)
    obtain ⟨accepted, stands⟩ := insertConfig_spec holds nullsHere
    have apartHere : (∀ leaf ∈ done.map pathOf, ¬ leaf.1 <+: value.parts ∧ ¬ value.parts <+: leaf.1) ↔
        PathsApart ((done ++ [value]).map pathOf) := by
      rw [List.map_append, PathsApart, List.pairwise_append]
      simp only [List.map_cons, List.map_nil, List.pairwise_singleton, List.mem_singleton, forall_eq,
        true_and]
      exact ⟨fun h => ⟨apart, h⟩, And.right⟩
    rw [regroup, List.foldlM_cons]
    rw [regroup] at nulls
    constructor
    · constructor
      · rintro ⟨t, inserted⟩
        obtain ⟨next, first, later⟩ := bind_ok_iff.mp inserted
        obtain ⟨written, separate⟩ := accepted.mp ⟨next, first⟩
        obtain ⟨others, together⟩ :=
          (ih (done ++ [value]) (stands next first) (apartHere.mp separate) nulls).1.mp ⟨t, later⟩
        exact ⟨List.forall_mem_cons.mpr ⟨written, others⟩, together⟩
      · rintro ⟨written, together⟩
        -- what is inserted together is inserted in any prefix
        have sub : ((done ++ [value]).map pathOf).Sublist ((done ++ [value] ++ rest).map pathOf) :=
          (List.sublist_append_left _ _).map _
        have separate : PathsApart ((done ++ [value]).map pathOf) := together.sublist sub
        obtain ⟨next, first⟩ := accepted.mpr ⟨(List.forall_mem_cons.mp written).1, apartHere.mpr separate⟩
        obtain ⟨t, later⟩ := (ih (done ++ [value]) (stands next first) separate nulls).1.mpr
          ⟨(List.forall_mem_cons.mp written).2, together⟩
        exact ⟨t, bind_ok_iff.mpr ⟨next, first, later⟩⟩
    · intro t inserted
      obtain ⟨next, first, later⟩ := bind_ok_iff.mp inserted
      have separate := apartHere.mp (accepted.mp ⟨next, first⟩).2
      exact (ih (done ++ [value]) (stands next first) separate nulls).2 t later

/-- The payload of a list whose nulls stand aside. -/
theorem configPayload_spec {evidence : List NormalizedEvidence}
    (nulls : NullsAside (configuredValues evidence)) :
    ((∃ t, configPayload evidence = .ok t) ↔
        configuredValues evidence ≠ [] ∧ (∀ value ∈ configuredValues evidence, Writable value) ∧
          PathsApart ((configuredValues evidence).map pathOf)) ∧
      ∀ t, configPayload evidence = .ok t → HoldsExactly t ((configuredValues evidence).map pathOf) := by
  obtain ⟨accepted, stands⟩ := foldlM_insertConfig [] (configuredValues evidence)
    holdsExactly_nil List.Pairwise.nil nulls
  rw [List.nil_append] at accepted stands
  unfold configPayload
  -- without values there is no payload
  by_cases none : configuredValues evidence = []
  · constructor
    · refine ⟨fun ⟨t, made⟩ => ?_, fun h => absurd none h.1⟩
      obtain ⟨payload, -, made⟩ := bind_ok_iff.mp made
      rw [if_pos none] at made
      cases made
    · intro t made
      obtain ⟨payload, -, made⟩ := bind_ok_iff.mp made
      rw [if_pos none] at made
      cases made
  · constructor
    · rw [← accepted]
      constructor
      · rintro ⟨t, made⟩
        obtain ⟨payload, inserted, -⟩ := bind_ok_iff.mp made
        exact ⟨none, payload, inserted⟩
      · rintro ⟨-, payload, inserted⟩
        exact ⟨payload, bind_ok_iff.mpr ⟨payload, inserted, if_neg none⟩⟩
    · intro t made
      obtain ⟨payload, inserted, made⟩ := bind_ok_iff.mp made
      rw [if_neg none] at made
      rw [← Except.ok.inj made]
      exact stands payload inserted

/-! ### The leaves of a mapping -/

/-- A JSON scalar as a value of a mapping. -/
def scalarValue : JsonScalar → Value
  | none => .none
  | some scalar => scalar.toValue

mutual

/-- A nested mapping of scalars as a value. -/
def treeValue : Nested JsonScalar → Value
  | .leaf v => scalarValue v
  | .dict entries => .dict (entryValues entries)

def entryValues : ConfigEntries → List (Value × Value)
  | [] => []
  | (key, child) :: entries => (.str key, treeValue child) :: entryValues entries

end

mutual

/-- Every key of a nested mapping is a segment of a native path. -/
def keysNative : Nested JsonScalar → Bool
  | .leaf _ => true
  | .dict entries => entriesNative entries

def entriesNative : ConfigEntries → Bool
  | [] => true
  | (key, child) :: entries => isConfigSegment key && keysNative child && entriesNative entries

end

/-- A leaf as the adapter reports it below a path. -/
def labelled (parts : List Str) (leaf : List Str × JsonScalar) : Str × Value :=
  (dottedLabel (parts ++ leaf.1), scalarValue leaf.2)

theorem walkLeaves_scalar {parts : List Str} (nonempty : parts ≠ []) (v : JsonScalar) :
    walkLeaves parts (scalarValue v) = .ok ([(dottedLabel parts, scalarValue v)], []) := by
  cases v with
  | none => simp [scalarValue, walkLeaves, nonempty]
  | some scalar => cases scalar <;> simp [scalarValue, Scalar.toValue, walkLeaves, nonempty]

mutual

/-- Below a path an adapter finds the leaves of a mapping with native keys, and nothing that is not
supported. -/
theorem walkLeaves_tree : ∀ (t : Nested JsonScalar) (parts : List Str), keysNative t = true →
    (parts ≠ [] ∨ ∃ entries, t = .dict entries) →
    ∃ found, walkLeaves parts (treeValue t) = .ok (found, []) ∧
      found.Perm ((Nested.leaves t).map (labelled parts))
  | .leaf v, parts, _, inside => by
    have nonempty : parts ≠ [] := by
      rcases inside with nonempty | ⟨entries, other⟩
      · exact nonempty
      · cases other
    rw [treeValue, walkLeaves_scalar nonempty]
    refine ⟨_, rfl, ?_⟩
    simp [Nested.leaves, labelled]
  | .dict entries, parts, native, _ => by
    rw [keysNative] at native
    obtain ⟨scans, walked, supported, leaves⟩ := walkEntries_tree entries parts native
    have inOrder := sortBy_perm_self Prod.fst scans
    refine ⟨(sortBy Prod.fst scans).flatMap fun scan => scan.2.1, ?_, ?_⟩
    · rw [treeValue, walkLeaves, walked]
      have none : ((sortBy Prod.fst scans).flatMap fun scan => scan.2.2) = [] := by
        rw [List.flatMap_eq_nil_iff]
        exact fun scan member => supported scan (inOrder.mem_iff.mp member)
      exact congrArg (fun rest => Except.ok (_, rest)) none
    · rw [Nested.leaves]
      exact (inOrder.flatMap_right _).trans leaves

theorem walkEntries_tree : ∀ (entries : ConfigEntries) (parts : List Str),
    entriesNative entries = true →
    ∃ scans, walkEntries parts (entryValues entries) = .ok scans ∧
      (∀ scan ∈ scans, scan.2.2 = []) ∧
      (scans.flatMap fun scan => scan.2.1).Perm ((Nested.entryLeaves entries).map (labelled parts))
  | [], parts, _ => by
    refine ⟨[], ?_, by simp, ?_⟩
    · rw [entryValues, walkEntries]
    · rw [Nested.entryLeaves]
      exact List.Perm.refl _
  | (key, child) :: entries, parts, native => by
    rw [entriesNative, Bool.and_eq_true, Bool.and_eq_true] at native
    obtain ⟨found, walked, leaves⟩ := walkLeaves_tree child (parts ++ [key]) native.1.2
      (Or.inl (by simp))
    obtain ⟨scans, later, supported, others⟩ := walkEntries_tree entries parts native.2
    have segment : isDottedSegment key = true := native.1.1
    refine ⟨(key, found, []) :: scans, ?_, List.forall_mem_cons.mpr ⟨rfl, supported⟩, ?_⟩
    · rw [entryValues, walkEntries]
      simp only [keyText, segment, if_true, walked, later]
      rfl
    · rw [Nested.entryLeaves, List.flatMap_cons, List.map_append, List.map_map]
      refine List.Perm.append ?_ others
      refine leaves.trans (List.Perm.of_eq ?_)
      apply List.map_congr_left
      intro leaf _
      simp [labelled]

end

/-- The leaves that an adapter reports for a mapping with native keys. -/
theorem scalarLeaves_tree (entries : ConfigEntries) (native : entriesNative entries = true) :
    ∃ found, scalarLeaves (treeValue (.dict entries)) = .ok (found, []) ∧
      found.Perm ((Nested.entryLeaves entries).map (labelled [])) := by
  obtain ⟨found, walked, leaves⟩ := walkLeaves_tree (.dict entries) []
    (by rw [keysNative]; exact native) (Or.inr ⟨entries, rfl⟩)
  rw [Nested.leaves] at leaves
  refine ⟨found, ?_, leaves⟩
  rw [scalarLeaves, walked]
  rfl

theorem dot_not_mem {s : Str} (segment : isConfigSegment s = true) : DOT ∉ s := by
  intro dot
  have allowed := List.all_eq_true.mp (Bool.and_eq_true _ _ ▸ segment).2 DOT dot
  exact absurd allowed (by decide)

/-- A dotted path splits into its parts again. -/
theorem split_dottedLabel {path : List Str} (nonempty : path ≠ [])
    (native : path.all isConfigSegment = true) : split DOT (dottedLabel path) = path := by
  induction path with
  | nil => exact absurd rfl nonempty
  | cons part path ih =>
    rw [List.all_cons, Bool.and_eq_true] at native
    have plain := dot_not_mem native.1
    cases path with
    | nil =>
      have single : dottedLabel [part] = part := by simp [dottedLabel, List.intercalate]
      rw [single]
      exact split_of_not_mem DOT part plain
    | cons next path =>
      have step : dottedLabel (part :: next :: path) = part ++ DOT :: dottedLabel (next :: path) := by
        simp [dottedLabel, List.intercalate, List.intersperse]
      rw [step, split_append_sep DOT part _ plain, ih (List.cons_ne_nil _ _) native.2]

mutual

/-- The paths of the leaves consist of the keys. -/
theorem native_of_leaf : ∀ t : Nested JsonScalar, keysNative t = true → ∀ leaf ∈ Nested.leaves t,
    leaf.1.all isConfigSegment = true
  | .leaf v, _, leaf, member => by
    rw [Nested.leaves, List.mem_singleton] at member
    rw [member]
    rfl
  | .dict entries, native, leaf, member => by
    rw [keysNative] at native
    rw [Nested.leaves] at member
    exact (native_of_entryLeaf entries native leaf member).1

theorem native_of_entryLeaf : ∀ entries : ConfigEntries, entriesNative entries = true →
    ∀ leaf ∈ Nested.entryLeaves entries, leaf.1.all isConfigSegment = true ∧ leaf.1 ≠ []
  | [], _, leaf, member => by
    rw [Nested.entryLeaves] at member
    cases member
  | (key, child) :: entries, native, leaf, member => by
    rw [entriesNative, Bool.and_eq_true, Bool.and_eq_true] at native
    rw [Nested.entryLeaves] at member
    rcases List.mem_append.mp member with here | later
    · obtain ⟨below, inside, rfl⟩ := List.mem_map.mp here
      refine ⟨?_, List.cons_ne_nil _ _⟩
      rw [List.all_cons, Bool.and_eq_true]
      exact ⟨native.1.1, native_of_leaf child native.1.2 below inside⟩
    · exact native_of_entryLeaf entries native.2 leaf later

end

/-- The scalar of a value. -/
def valueScalar : Value → JsonScalar
  | .none => none
  | v => Scalar.ofValue v

theorem valueScalar_scalarValue (v : JsonScalar) : valueScalar (scalarValue v) = v := by
  cases v with
  | none => rfl
  | some scalar => cases scalar <;> rfl

/-- Config values under the labels of the leaves have the paths and values of the leaves. -/
theorem pathOf_perm {entries : ConfigEntries} (native : entriesNative entries = true)
    {values : List ConfigValue}
    (labels : (values.map fun v => (v.key, scalarValue v.value)).Perm
      ((Nested.entryLeaves entries).map (labelled []))) :
    (values.map pathOf).Perm (Nested.entryLeaves entries) := by
  have read := labels.map fun label : Str × Value => (split DOT label.1, valueScalar label.2)
  rw [List.map_map, List.map_map] at read
  have left : values.map ((fun label : Str × Value => (split DOT label.1, valueScalar label.2)) ∘
      fun v => (v.key, scalarValue v.value)) = values.map pathOf := by
    apply List.map_congr_left
    intro v _
    simp [pathOf, ConfigValue.parts, valueScalar_scalarValue]
  have right : (Nested.entryLeaves entries).map
      ((fun label : Str × Value => (split DOT label.1, valueScalar label.2)) ∘ labelled []) =
        Nested.entryLeaves entries := by
    conv_rhs => rw [← List.map_id (Nested.entryLeaves entries)]
    apply List.map_congr_left
    intro leaf member
    obtain ⟨segments, nonempty⟩ := native_of_entryLeaf entries native leaf member
    simp [labelled, split_dottedLabel nonempty segments, valueScalar_scalarValue]
  rwa [left, right] at read

/-- Inserting the leaves of a mapping gives the mapping back, apart from empty mappings. -/
theorem configPayload_leaves {entries : ConfigEntries}
    (distinct : Nested.KeysDistinct (.dict entries)) (native : entriesNative entries = true)
    (written : ∀ leaf ∈ Nested.entryLeaves entries, leaf.2.toJson.dumpable = true)
    (leaf : Nested.entryLeaves entries ≠ []) {evidence : List NormalizedEvidence}
    (labels : ((configuredValues evidence).map fun v => (v.key, scalarValue v.value)).Perm
      ((Nested.entryLeaves entries).map (labelled []))) :
    ∃ t, configPayload evidence = .ok t ∧
      ∀ path n, Nested.node (.dict t) path = some n ↔ Nested.Keeps (.dict entries) path n := by
  have paths := pathOf_perm native labels
  have apart : PathsApart ((configuredValues evidence).map pathOf) := by
    -- the leaves of a tree are apart, and so are the paths that name them
    have leaves := Nested.pathsApart_leaves (.dict entries) distinct
    rw [Nested.leaves] at leaves
    exact (PathsApart.perm paths).mpr leaves
  have nulls : NullsAside (configuredValues evidence) := by
    intro null member _ other inside before
    by_contra differs
    exact apart.not_prefix (List.mem_map_of_mem member) (List.mem_map_of_mem inside)
      (fun same => differs (Prod.mk.inj same).1) before
  obtain ⟨accepted, stands⟩ := configPayload_spec nulls
  have values : configuredValues evidence ≠ [] := by
    intro empty
    rw [empty, List.map_nil] at paths
    exact leaf (List.nil_perm.mp paths)
  have writable : ∀ value ∈ configuredValues evidence, Writable value := by
    intro value member
    have inside := paths.mem_iff.mp (List.mem_map_of_mem member)
    exact ⟨(native_of_entryLeaf entries native _ inside).1, written _ inside⟩
  obtain ⟨t, made⟩ := accepted.mpr ⟨values, writable, apart⟩
  refine ⟨t, made, fun path n => ?_⟩
  rw [stands t made, describes_perm paths, ← Nested.describes_leaves distinct, Nested.leaves]

/-! ### Any order, and back -/

/-- A payload of values whose nulls stand aside holds exactly these values, whatever their order;
and the leaves of a mapping with native keys give the mapping back. -/
theorem configPayload_faithful :
    (∀ evidence, NullsAside (configuredValues evidence) →
      (∀ t, configPayload evidence = .ok t → HoldsExactly t ((configuredValues evidence).map pathOf)) ∧
        ∀ other, (configuredValues other).Perm (configuredValues evidence) →
          ((∃ t, configPayload other = .ok t) ↔ ∃ t, configPayload evidence = .ok t) ∧
            ∀ t t', configPayload evidence = .ok t → configPayload other = .ok t' →
              ∀ path, Nested.node (.dict t') path = Nested.node (.dict t) path) ∧
      ∀ entries : ConfigEntries, Nested.KeysDistinct (.dict entries) → entriesNative entries = true →
        (∀ leaf ∈ Nested.entryLeaves entries, leaf.2.toJson.dumpable = true) →
          Nested.entryLeaves entries ≠ [] →
            ∃ found, scalarLeaves (treeValue (.dict entries)) = .ok (found, []) ∧
              ∀ evidence, ((configuredValues evidence).map fun v => (v.key, scalarValue v.value)).Perm found →
                ∃ t, configPayload evidence = .ok t ∧
                  ∀ path n, Nested.node (.dict t) path = some n ↔
                    Nested.Keeps (.dict entries) path n := by
  constructor
  · intro evidence nulls
    obtain ⟨accepted, stands⟩ := configPayload_spec nulls
    -- the order does not matter: both runs hold the same paths
    refine ⟨stands, fun other perm => ?_⟩
    have nulls' : NullsAside (configuredValues other) := fun null member empty value inside =>
      nulls null (perm.mem_iff.mp member) empty value (perm.mem_iff.mp inside)
    obtain ⟨accepted', stands'⟩ := configPayload_spec nulls'
    constructor
    · have empty : configuredValues other = [] ↔ configuredValues evidence = [] :=
        ⟨fun h => List.nil_perm.mp (h ▸ perm), fun h => List.perm_nil.mp (h ▸ perm)⟩
      rw [accepted, accepted', PathsApart.perm (perm.map pathOf), Ne, empty]
      simp only [perm.mem_iff]
    · intro t t' made made' path
      apply Option.ext
      intro n
      rw [stands t made, stands' t' made', describes_perm (perm.map pathOf)]
  -- what a native payload yields is what was written
  · intro entries distinct native written leaf
    obtain ⟨found, scanned, labels⟩ := scalarLeaves_tree entries native
    exact ⟨found, scanned, fun evidence values =>
      configPayload_leaves distinct native written leaf (values.trans labels)⟩

/-! ### A null on the way, and a key with a space -/

/-- Evidence with config values. -/
def configEvidence (values : List ConfigValue) : List NormalizedEvidence := [⟨"e", [⟨none, none, values⟩]⟩]

theorem configuredValues_configEvidence (values : List ConfigValue) :
    configuredValues (configEvidence values) = values := by
  simp [configuredValues, configEvidence, observationsInOrder, sortBy]

/-- A null and a boolean in one mapping. -/
def nestedValues : List ConfigValue := [⟨"a.b", none⟩, ⟨"a.c", some (.bool true)⟩]

theorem configPayload_faithful_nested :
    ∀ t, configPayload (configEvidence nestedValues) = .ok t →
      HoldsExactly t (nestedValues.map pathOf) := by
  have nulls : NullsAside (configuredValues (configEvidence nestedValues)) := by
    rw [configuredValues_configEvidence]
    unfold NullsAside
    decide +kernel
  have stands := (configPayload_faithful.1 (configEvidence nestedValues) nulls).1
  rwa [configuredValues_configEvidence] at stands

/-- A mapping overwrites a null that was inserted before; and a key with a space is no leaf. -/
theorem configPayload_not_faithful :
    (¬ ∀ evidence t, configPayload evidence = .ok t →
        HoldsExactly t ((configuredValues evidence).map pathOf)) ∧
      ¬ ∀ entries : ConfigEntries, Nested.KeysDistinct (.dict entries) →
        (∀ entry ∈ entries, DOT ∉ entry.1) →
          (∀ leaf ∈ Nested.entryLeaves entries, leaf.2.toJson.dumpable = true) →
            Nested.entryLeaves entries ≠ [] →
              ∃ found, scalarLeaves (treeValue (.dict entries)) = .ok (found, []) := by
  constructor
  -- a null is overwritten by the mapping that needs its place
  · intro exact'
    have made : configPayload (configEvidence [⟨"a", none⟩, ⟨"a.b", some (.bool true)⟩]) =
        .ok [(lit "a", .dict [(lit "b", .leaf (some (.bool true)))])] := by rfl
    have holds := exact' _ _ made [lit "a"] (.leaf none)
    rw [configuredValues_configEvidence] at holds
    have described : Describes ([⟨"a", none⟩, ⟨"a.b", some (.bool true)⟩].map pathOf) [lit "a"]
        (Node.leaf (none : JsonScalar)) := List.mem_cons_self
    have stands := holds.mpr described
    cases stands
  -- a key with a blank is written and not read back
  · intro back
    obtain ⟨found, scanned⟩ := back [(lit "a b", .leaf (some (.bool true)))]
      (by simp [Nested.KeysDistinct, Nested.EntriesDistinct]) (by decide)
      (by simp [Nested.entryLeaves, Nested.leaves]; rfl) (by simp [Nested.entryLeaves, Nested.leaves])
    have unsupported : scalarLeaves (treeValue (.dict [(lit "a b", .leaf (some (.bool true)))])) =
        .ok ([], [lit "a b"]) := by rfl
    rw [unsupported] at scanned
    cases scanned

end ClaimCI
