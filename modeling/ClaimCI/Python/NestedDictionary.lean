import ClaimCI.Python.Dictionary

/-!
# Nested dictionaries

Dictionaries whose values are leaves or dictionaries again: what stands at a path, the leaves under
their paths, and which dictionaries a list of leaves describes.
-/

namespace Python

/-- A leaf, or a dictionary of further values. -/
inductive Nested (α : Type) where
  | leaf (value : α)
  | dict (entries : List (Str × Nested α))

/-- What stands at a path, apart from what it holds. -/
inductive Node (α : Type) where
  | leaf (value : α)
  | dict
  deriving DecidableEq

variable {α : Type}

namespace Nested

/-- The node at a path. -/
def node : Nested α → List Str → Option (Node α)
  | .leaf v, [] => some (.leaf v)
  | .leaf _, _ :: _ => none
  | .dict _, [] => some .dict
  | .dict entries, key :: path =>
    match lookupKey key entries with
    | some child => node child path
    | none => none

mutual

/-- The leaves under their paths, in the order of the entries. -/
def leaves : Nested α → List (List Str × α)
  | .leaf v => [([], v)]
  | .dict entries => entryLeaves entries

def entryLeaves : List (Str × Nested α) → List (List Str × α)
  | [] => []
  | (key, child) :: entries =>
    (leaves child).map (fun leaf => (key :: leaf.1, leaf.2)) ++ entryLeaves entries

end

mutual

/-- No dictionary holds a key twice. -/
def KeysDistinct : Nested α → Prop
  | .leaf _ => True
  | .dict entries => (keysOf entries).Nodup ∧ EntriesDistinct entries

def EntriesDistinct : List (Str × Nested α) → Prop
  | [] => True
  | (_, child) :: entries => KeysDistinct child ∧ EntriesDistinct entries

end

@[simp] theorem node_leaf_nil (v : α) : node (.leaf v) [] = some (.leaf v) := by rw [node]

@[simp] theorem node_leaf_cons (v : α) (key : Str) (path : List Str) :
    node (.leaf v) (key :: path) = none := by rw [node]

@[simp] theorem node_dict_nil (entries : List (Str × Nested α)) :
    node (.dict entries) [] = some .dict := by rw [node]

theorem node_dict_cons (entries : List (Str × Nested α)) (key : Str) (path : List Str) :
    node (.dict entries) (key :: path) =
      (lookupKey key entries).bind fun child => node child path := by
  rw [node]
  cases lookupKey key entries <;> rfl

theorem node_nil_isSome (t : Nested α) : (node t []).isSome := by
  cases t <;> simp

end Nested

/-! ### Lists of leaves -/

/-- The node that a list of leaves describes at a path: one of the leaves, or a dictionary on the
way to one. -/
def Describes (leaves : List (List Str × α)) (path : List Str) : Node α → Prop
  | .leaf v => (path, v) ∈ leaves
  | .dict => path = [] ∨ ∃ leaf ∈ leaves, path <+: leaf.1 ∧ path ≠ leaf.1

/-- No path leads to or through another. -/
def PathsApart (leaves : List (List Str × α)) : Prop :=
  leaves.Pairwise fun a b => ¬ a.1 <+: b.1 ∧ ¬ b.1 <+: a.1

theorem PathsApart.perm {leaves others : List (List Str × α)} (perm : leaves.Perm others) :
    PathsApart leaves ↔ PathsApart others :=
  perm.pairwise_iff fun apart => ⟨apart.2, apart.1⟩

/-- Different leaves of the list are not on the way to each other. -/
theorem PathsApart.not_prefix {leaves : List (List Str × α)} (apart : PathsApart leaves)
    {a b : List Str × α} (left : a ∈ leaves) (right : b ∈ leaves) (differs : a ≠ b) :
    ¬ a.1 <+: b.1 := by
  have symmetric : Std.Symm fun a b : List Str × α => ¬ a.1 <+: b.1 ∧ ¬ b.1 <+: a.1 :=
    ⟨fun _ _ h => ⟨h.2, h.1⟩⟩
  exact (List.Pairwise.forall apart left right differs).1

theorem describes_perm {leaves others : List (List Str × α)} (perm : leaves.Perm others)
    (path : List Str) (n : Node α) : Describes leaves path n ↔ Describes others path n := by
  cases n with
  | leaf v => exact perm.mem_iff
  | dict => simp only [Describes, perm.mem_iff]

/-- The dictionary holds exactly what the leaves describe. -/
def HoldsExactly (entries : List (Str × Nested α)) (leaves : List (List Str × α)) : Prop :=
  ∀ path n, Nested.node (.dict entries) path = some n ↔ Describes leaves path n

theorem holdsExactly_nil : HoldsExactly ([] : List (Str × Nested α)) [] := by
  intro path n
  cases path with
  | nil => cases n <;> simp [Describes]
  | cons key path => cases n <;> simp [Nested.node_dict_cons, lookupKey, Describes]

/-- A further leaf of which no other is a prefix adds itself and the dictionaries on its way. -/
theorem HoldsExactly.snoc {entries others : List (Str × Nested α)} {leaves : List (List Str × α)}
    {parts : List Str} {v : α} (holds : HoldsExactly entries leaves) (nonempty : parts ≠ [])
    (apart : ∀ leaf ∈ leaves, ¬ leaf.1 <+: parts ∧ ¬ parts <+: leaf.1)
    (inserted : ∀ path, Nested.node (.dict others) path =
      if path = parts then some (.leaf v)
      else if path <+: parts then some .dict
      else Nested.node (.dict entries) path) : HoldsExactly others (leaves ++ [(parts, v)]) := by
  intro path n
  rw [inserted]
  split
  next same =>
    subst same
    cases n with
    | leaf w =>
      have fresh : (path, w) ∉ leaves := fun member => (apart _ member).1 (List.prefix_refl _)
      simp [Describes, fresh, eq_comm]
    | dict =>
      simp only [Option.some.injEq, reduceCtorEq, Describes, nonempty, false_or, false_iff, not_exists,
        not_and, List.mem_append, List.mem_singleton]
      rintro leaf (member | rfl) through
      · exact absurd through (apart leaf member).2
      · simp
  next other =>
    split
    next through =>
      cases n with
      | leaf w =>
        have absent : (path, w) ∉ leaves := fun member => (apart _ member).1 through
        simp [Describes, absent, other]
      | dict =>
        simp only [Describes, true_iff]
        exact Or.inr ⟨(parts, v), by simp, through, other⟩
    next aside =>
      rw [holds]
      cases n with
      | leaf w => simp [Describes, other]
      | dict => simp [Describes, or_and_right, exists_or, aside]

/-! ### The leaves of a nested dictionary -/

namespace Nested

theorem mem_entryLeaves {entries : List (Str × Nested α)} {path : List Str} {v : α} :
    (path, v) ∈ entryLeaves entries ↔
      ∃ key child below, (key, child) ∈ entries ∧ (below, v) ∈ leaves child ∧ path = key :: below := by
  induction entries with
  | nil => simp [entryLeaves]
  | cons entry entries ih =>
    obtain ⟨key, child⟩ := entry
    rw [entryLeaves, List.mem_append, ih, List.mem_map]
    constructor
    · rintro (⟨leaf, member, same⟩ | ⟨key', child', below, member, leaf, same⟩)
      · obtain ⟨rfl, rfl⟩ := Prod.mk.inj same
        exact ⟨key, child, leaf.1, List.mem_cons_self, member, rfl⟩
      · exact ⟨key', child', below, List.mem_cons_of_mem _ member, leaf, same⟩
    · rintro ⟨key', child', below, member, leaf, rfl⟩
      rcases List.mem_cons.mp member with here | later
      · obtain ⟨rfl, rfl⟩ := Prod.mk.inj here
        exact Or.inl ⟨(below, v), leaf, rfl⟩
      · exact Or.inr ⟨key', child', below, later, leaf, rfl⟩

theorem EntriesDistinct.child {entries : List (Str × Nested α)} (distinct : EntriesDistinct entries)
    {key : Str} {child : Nested α} (member : (key, child) ∈ entries) : KeysDistinct child := by
  induction entries with
  | nil => cases member
  | cons entry entries ih =>
    rw [EntriesDistinct] at distinct
    rcases List.mem_cons.mp member with rfl | later
    · exact distinct.1
    · exact ih distinct.2 later

/-- The leaves are what stands at their paths. -/
theorem mem_leaves_iff {t : Nested α} (distinct : KeysDistinct t) {path : List Str} {v : α} :
    (path, v) ∈ leaves t ↔ node t path = some (.leaf v) := by
  induction path generalizing t with
  | nil =>
    cases t with
    | leaf w => simp [leaves, eq_comm]
    | dict entries => simp [leaves, mem_entryLeaves]
  | cons key path ih =>
    cases t with
    | leaf w => simp [leaves]
    | dict entries =>
      rw [KeysDistinct] at distinct
      rw [leaves, mem_entryLeaves, node_dict_cons, Option.bind_eq_some_iff]
      constructor
      · rintro ⟨key', child, below, member, leaf, same⟩
        obtain ⟨rfl, rfl⟩ := List.cons.inj same
        exact ⟨child, (lookupKey_eq_some_iff distinct.1).mpr member,
          (ih (distinct.2.child member)).mp leaf⟩
      · rintro ⟨child, found, leaf⟩
        have member := (lookupKey_eq_some_iff distinct.1).mp found
        exact ⟨key, child, path, member, (ih (distinct.2.child member)).mpr leaf, rfl⟩

/-- Leaves below one key keep apart below it. -/
private theorem pathsApart_map_cons (key : Str) {below : List (List Str × α)}
    (apart : PathsApart below) : PathsApart (below.map fun leaf => (key :: leaf.1, leaf.2)) := by
  refine apart.map _ fun a b separate => ⟨fun through => ?_, fun through => ?_⟩
  · exact separate.1 (List.cons_prefix_cons.mp through).2
  · exact separate.2 (List.cons_prefix_cons.mp through).2

mutual

/-- No leaf stands on the way to another. -/
theorem pathsApart_leaves : ∀ t : Nested α, KeysDistinct t → PathsApart (leaves t)
  | .leaf v, _ => by
    rw [leaves]
    exact List.pairwise_singleton _ _
  | .dict entries, distinct => by
    rw [KeysDistinct] at distinct
    rw [leaves]
    exact pathsApart_entryLeaves entries distinct.1 distinct.2

theorem pathsApart_entryLeaves : ∀ entries : List (Str × Nested α), (keysOf entries).Nodup →
    EntriesDistinct entries → PathsApart (entryLeaves entries)
  | [], _, _ => by
    rw [entryLeaves]
    exact List.Pairwise.nil
  | (key, child) :: entries, distinct, below => by
    obtain ⟨fresh, distinct⟩ := List.nodup_cons.mp distinct
    rw [EntriesDistinct] at below
    rw [entryLeaves]
    apply List.pairwise_append.mpr
    refine ⟨pathsApart_map_cons key (pathsApart_leaves child below.1),
      pathsApart_entryLeaves entries distinct below.2, ?_⟩
    -- leaves of different entries start with different keys
    rintro a here ⟨path, v⟩ there
    obtain ⟨leaf, -, rfl⟩ := List.mem_map.mp here
    obtain ⟨key', child', rest, member, -, rfl⟩ := mem_entryLeaves.mp there
    have other : key ≠ key' := by
      rintro rfl
      exact fresh (List.mem_map.mpr ⟨_, member, rfl⟩)
    exact ⟨fun through => other (List.cons_prefix_cons.mp through).1,
      fun through => other (List.cons_prefix_cons.mp through).1.symm⟩

end

/-- What stands at a path once dictionaries that hold no leaf at any depth are dropped. -/
def Keeps (t : Nested α) (path : List Str) (n : Node α) : Prop :=
  node t path = some n ∧
    (n = .dict → path = [] ∨ ∃ rest v, node t (path ++ rest) = some (.leaf v))

/-- On the way to a node there are dictionaries. -/
theorem node_of_append {t : Nested α} {path rest : List Str} (nonempty : rest ≠ [])
    (found : (node t (path ++ rest)).isSome) : node t path = some .dict := by
  induction path generalizing t with
  | nil =>
    obtain ⟨key, rest, rfl⟩ := List.exists_cons_of_ne_nil nonempty
    cases t with
    | leaf v => simp at found
    | dict entries => exact node_dict_nil entries
  | cons key path ih =>
    cases t with
    | leaf v => simp at found
    | dict entries =>
      rw [List.cons_append, node_dict_cons] at found
      rw [node_dict_cons]
      cases known : lookupKey key entries with
      | none => simp [known] at found
      | some child =>
        rw [known, Option.bind_some] at found
        rw [Option.bind_some]
        exact ih found

/-- The leaves of a nested dictionary describe it, apart from empty dictionaries. -/
theorem describes_leaves {entries : List (Str × Nested α)} (distinct : KeysDistinct (.dict entries))
    (path : List Str) (n : Node α) :
    Describes (leaves (.dict entries)) path n ↔ Keeps (.dict entries) path n := by
  cases n with
  | leaf v => simp [Describes, Keeps, mem_leaves_iff distinct]
  | dict =>
    simp only [Describes, Keeps, forall_const]
    constructor
    · rintro (rfl | ⟨⟨longer, v⟩, member, ⟨rest, rfl⟩, other⟩)
      · exact ⟨node_dict_nil entries, Or.inl rfl⟩
      · have found := (mem_leaves_iff distinct).mp member
        have nonempty : rest ≠ [] := by
          rintro rfl
          exact other (List.append_nil path).symm
        exact ⟨node_of_append nonempty (by rw [found]; rfl), Or.inr ⟨rest, v, found⟩⟩
    · rintro ⟨here, rfl | ⟨rest, v, found⟩⟩
      · exact Or.inl rfl
      · refine Or.inr ⟨(path ++ rest, v), (mem_leaves_iff distinct).mpr found,
          List.prefix_append _ _, ?_⟩
        intro same
        have nil : rest = [] := by simpa using same
        rw [nil, List.append_nil, here] at found
        cases found

end Nested

end Python
