import ClaimCI.Measurement
import ClaimCI.Python.Dictionary
import ClaimCI.Python.JsonJoined

/-!
# Dotted leaves

What flattening a nested evaluation mapping keeps: its leaves under dotted keys. The loop over a
stack is reduced to a recursion over the mapping, and its result is compared across orders of the
keys and across mappings.
-/

open Python

namespace ClaimCI

/-! ### Leaves of a mapping -/

mutual

/-- The leaves of a value under their dotted keys, in the order of the document. -/
def leavesOf (key : Str) : Value → List (Str × Value)
  | .dict entries => entryLeaves key entries
  | v => [(key, v)]

def entryLeaves (key : Str) : List (Value × Value) → List (Str × Value)
  | [] => []
  | (.str childKey, v) :: rest => leavesOf (key ++ DOT :: childKey) v ++ entryLeaves key rest
  | _ :: rest => entryLeaves key rest

end

/-- What the loop demands of one node. -/
def nodeFits (key : Str) (depth : Nat) : Bool :=
  depth ≤ FLATTEN_DEPTH && key ≠ [] && key.length ≤ 256

mutual

/-- No node of a value stops the loop. -/
def flattens (key : Str) (depth : Nat) : Value → Bool
  | .dict entries => nodeFits key depth && entriesFlatten key depth entries
  | v => nodeFits key depth && (jsonScalar v).isSome

def entriesFlatten (key : Str) (depth : Nat) : List (Value × Value) → Bool
  | [] => true
  | (.str childKey, v) :: rest =>
    childKey ≠ [] && flattens (key ++ DOT :: childKey) (depth + 1) v && entriesFlatten key depth rest
  | _ => false

end

mutual

def nodeCount : Value → Nat
  | .dict entries => entryCount entries + 1
  | _ => 1

def entryCount : List (Value × Value) → Nat
  | [] => 0
  | (_, v) :: rest => nodeCount v + entryCount rest

end

/-- The scalar a leaf is kept as. -/
def leafScalar (leaf : Str × Value) : Str × Scalar := (leaf.1, (jsonScalar leaf.2).getD (.bool false))

def itemLeaves (item : FlattenItem) : List (Str × Value) := leavesOf item.1 item.2.1

def itemFlattens (item : FlattenItem) : Bool := flattens item.1 item.2.2 item.2.1

def itemCount (item : FlattenItem) : Nat := nodeCount item.2.1

def itemsCount (items : List FlattenItem) : Nat := (items.map itemCount).sum

theorem itemsCount_append (items others : List FlattenItem) :
    itemsCount (items ++ others) = itemsCount items + itemsCount others := by
  simp [itemsCount]

theorem itemsCount_reverse (items : List FlattenItem) : itemsCount items.reverse = itemsCount items := by
  simp [itemsCount]

/-! ### The loop -/

theorem childItems_some {key : Str} {depth : Nat} {entries : List (Value × Value)}
    {items : List FlattenItem} (h : childItems key depth entries = some items) :
    items.all itemFlattens = entriesFlatten key depth entries ∧
      itemsCount items = entryCount entries ∧ items.flatMap itemLeaves = entryLeaves key entries := by
  induction entries generalizing items with
  | nil =>
    obtain rfl := Option.some.inj h
    exact ⟨rfl, rfl, rfl⟩
  | cons entry rest ih =>
    obtain ⟨k, v⟩ := entry
    cases k with
    | str childKey =>
      rw [childItems] at h
      split at h
      · cases h
      next nonempty =>
        obtain ⟨others, found, rfl⟩ := Option.map_eq_some_iff.mp h
        obtain ⟨flat, count, leaves⟩ := ih found
        refine ⟨?_, ?_, ?_⟩
        · simp [itemFlattens, entriesFlatten, nonempty, flat]
        · simp [itemsCount, itemCount, entryCount, ← count]
        · simp [itemLeaves, entryLeaves, ← leaves]
    | _ => cases h

theorem childItems_none {key : Str} {depth : Nat} {entries : List (Value × Value)}
    (h : childItems key depth entries = none) : entriesFlatten key depth entries = false := by
  induction entries with
  | nil => cases h
  | cons entry rest ih =>
    obtain ⟨k, v⟩ := entry
    cases k with
    | str childKey =>
      rw [childItems] at h
      split at h
      next empty => simp [entriesFlatten, empty]
      next => simp [entriesFlatten, ih (Option.map_eq_none_iff.mp h)]
    | _ => rfl

theorem nodeFits_iff {key : Str} {depth : Nat} : nodeFits key depth = true ↔
    ¬FLATTEN_DEPTH < depth ∧ ¬(key = [] ∨ 256 < key.length) := by
  simp only [nodeFits, Bool.and_eq_true, decide_eq_true_eq, not_or, not_lt, ne_eq]
  exact and_assoc

/-- The leaves of the items of a stack, in the order the loop reaches them. -/
def stackLeaves (stack : List FlattenItem) : List (Str × Value) :=
  stack.flatMap fun item => (itemLeaves item).reverse

/-- What the loop returns: every leaf is kept under its key, if no node stops it. -/
def flattened (nodes : Nat) (stack : List FlattenItem) (before : Scalars) : Option Scalars :=
  if stack.all itemFlattens = true ∧ itemsCount stack ≤ nodes then
    some (assignAll ((stackLeaves stack).map leafScalar) before)
  else none

theorem nodeCount_pos (v : Value) : 0 < nodeCount v := by
  cases v <;> simp [nodeCount]

theorem flattened_stop {nodes : Nat} {item : FlattenItem} {stack : List FlattenItem}
    {before : Scalars} (h : itemFlattens item = false) :
    flattened nodes (item :: stack) before = none := by
  rw [flattened, if_neg]
  simp [h]

/-- A mapping on the stack stands for its items. -/
theorem flattened_dict {nodes : Nat} {key : Str} {depth : Nat} {entries : List (Value × Value)}
    {items stack : List FlattenItem} {before : Scalars} (fits : nodeFits key depth = true)
    (found : childItems key depth entries = some items) :
    flattened (nodes + 1) ((key, .dict entries, depth) :: stack) before =
      flattened nodes (items.reverse ++ stack) before := by
  obtain ⟨flat, count, leaves⟩ := childItems_some found
  have same : stackLeaves ((key, .dict entries, depth) :: stack) =
      stackLeaves (items.reverse ++ stack) := by
    have reversed : (items.reverse.flatMap fun item => (itemLeaves item).reverse) =
        (entryLeaves key entries).reverse := by
      rw [← leaves, List.reverse_flatMap]
      rfl
    rw [stackLeaves, stackLeaves, List.flatMap_cons, List.flatMap_append, reversed]
    rfl
  have size : itemsCount ((key, .dict entries, depth) :: stack) =
      itemsCount (items.reverse ++ stack) + 1 := by
    rw [itemsCount_append, itemsCount_reverse, count]
    simp [itemsCount, itemCount, nodeCount]
    omega
  have all : ((key, Value.dict entries, depth) :: stack).all itemFlattens =
      (items.reverse ++ stack).all itemFlattens := by
    rw [List.all_cons, List.all_append, List.all_reverse, flat]
    simp [itemFlattens, flattens, fits]
  rw [flattened, flattened, same, size, all]
  simp only [Nat.add_le_add_iff_right]

/-- A leaf on the stack is kept. -/
theorem flattened_leaf {nodes : Nat} {key : Str} {depth : Nat} {v : Value} {s : Scalar}
    {stack : List FlattenItem} {before : Scalars} (fits : nodeFits key depth = true)
    (leaf : ∀ entries, v ≠ .dict entries) (scalar : jsonScalar v = some s) :
    flattened (nodes + 1) ((key, v, depth) :: stack) before =
      flattened nodes stack (setKey key s before) := by
  have leaves : leavesOf key v = [(key, v)] := by
    cases v <;> first | rfl | exact absurd rfl (leaf _)
  have flat : flattens key depth v = true := by
    have scalars : (jsonScalar v).isSome = true := by rw [scalar]; rfl
    cases v <;> first | exact absurd rfl (leaf _) | simp only [flattens, fits, scalars, Bool.and_self]
  have count : nodeCount v = 1 := by
    cases v <;> first | rfl | exact absurd rfl (leaf _)
  have kept : leafScalar (key, v) = (key, s) := by rw [leafScalar, scalar]; rfl
  have size : itemsCount ((key, v, depth) :: stack) = itemsCount stack + 1 := by
    simp [itemsCount, itemCount, count]
    omega
  have all : ((key, v, depth) :: stack).all itemFlattens = stack.all itemFlattens := by
    simp [itemFlattens, flat]
  have reached : stackLeaves ((key, v, depth) :: stack) = (key, v) :: stackLeaves stack := by
    simp [stackLeaves, itemLeaves, leaves]
  rw [flattened, flattened, size, all, reached, List.map_cons, kept, assignAll_cons]
  simp only [Nat.add_le_add_iff_right]

theorem flattenItems_eq (nodes : Nat) (stack : List FlattenItem) (before : Scalars) :
    flattenItems nodes stack before = flattened nodes stack before := by
  -- induction on the remaining nodes; the stack is what is still to be flattened
  induction nodes generalizing stack before with
  | zero =>
    cases stack with
    | nil => rfl
    | cons item stack =>
      have := nodeCount_pos item.2.1
      rw [flattened, if_neg (by simp only [itemsCount, List.map_cons, List.sum_cons, itemCount]; omega)]
      rfl
  | succ nodes ih =>
    cases stack with
    | nil => simp [flattenItems, flattened, itemsCount, stackLeaves, assignAll]
    | cons item stack =>
      obtain ⟨key, v, depth⟩ := item
      rw [flattenItems.eq_def]
      by_cases fits : nodeFits key depth = true
      · obtain ⟨shallow, named⟩ := nodeFits_iff.mp fits
        simp only [if_neg shallow, if_neg named]
        -- a mapping puts its items on the stack, anything else has to be a scalar
        cases v with
        | dict entries =>
          simp only
          cases found : childItems key depth entries with
          | none =>
            rw [flattened_stop]
            simp [itemFlattens, flattens, childItems_none found]
          | some items =>
            rw [flattened_dict fits found]
            exact ih _ _
        | _ =>
          simp only
          split
          next scalar =>
            rw [flattened_stop]
            simp only [itemFlattens, flattens, scalar, Option.isSome_none, Bool.and_false]
          next s scalar =>
            rw [flattened_leaf fits (by intro _ same; cases same) scalar]
            exact ih _ _
      -- the node does not fit: the code stops here, and so does the specification
      · have stops : itemFlattens (key, v, depth) = false := by
          cases v <;> simp [itemFlattens, flattens, fits]
        rw [flattened_stop stops]
        rw [nodeFits_iff, not_and_or, not_not, not_not] at fits
        by_cases deep : FLATTEN_DEPTH < depth
        · simp only [if_pos deep]
        · simp only [if_neg deep, if_pos (fits.resolve_left deep)]

/-! ### The evaluation mapping -/

/-- `str(key)`, of a key at the top of the mapping. -/
def topKey (key : Value) : Str :=
  match keyText key with
  | .ok text => text
  | .error _ => []

def topItem (entry : Value × Value) : FlattenItem := (topKey entry.1, entry.2, 1)

/-- The leaves of an evaluation mapping, in the order of the document. -/
def topLeaves (evaluation : List (Value × Value)) : List (Str × Value) :=
  evaluation.flatMap fun entry => leavesOf (topKey entry.1) entry.2

/-- The loop keeps every leaf of the mapping. -/
def Flattens (evaluation : List (Value × Value)) : Prop :=
  (evaluation.map topItem).all itemFlattens = true ∧
    itemsCount (evaluation.map topItem) ≤ FLATTEN_NODES

instance (evaluation : List (Value × Value)) : Decidable (Flattens evaluation) :=
  inferInstanceAs (Decidable (_ ∧ _))

/-- The fields of a mapping the loop keeps every leaf of. -/
def flattenedFields (evaluation : List (Value × Value)) : Scalars :=
  sortBy Prod.fst (assignAll ((topLeaves evaluation).reverse.map leafScalar) [])

/-- The evaluation mapping of a config that loaded. -/
def evaluationOf (config : Option Config) : Option (List (Value × Value)) :=
  match config.bind (Value.get (lit "evaluation")) with
  | some (.dict evaluation) => some evaluation
  | _ => none

theorem evaluationItems_ok {evaluation : List (Value × Value)} {items : List FlattenItem}
    (h : evaluationItems evaluation = .ok items) :
    items = evaluation.map topItem ∧ ∀ entry ∈ evaluation, ∃ text, keyText entry.1 = .ok text := by
  induction evaluation generalizing items with
  | nil =>
    obtain rfl := Except.ok.inj h
    exact ⟨rfl, by simp⟩
  | cons entry rest ih =>
    rw [evaluationItems] at h
    obtain ⟨text, named, h⟩ := bind_ok_iff.mp h
    obtain ⟨others, found, h⟩ := bind_ok_iff.mp h
    obtain rfl := Except.ok.inj h
    obtain ⟨rfl, keyed⟩ := ih found
    refine ⟨?_, List.forall_mem_cons.mpr ⟨⟨text, named⟩, keyed⟩⟩
    rw [List.map_cons, topItem, topKey, named]

theorem evaluationItems_total {evaluation : List (Value × Value)}
    (h : ∀ entry ∈ evaluation, ∃ text, keyText entry.1 = .ok text) :
    evaluationItems evaluation = .ok (evaluation.map topItem) := by
  induction evaluation with
  | nil => rfl
  | cons entry rest ih =>
    obtain ⟨⟨text, named⟩, keyed⟩ := List.forall_mem_cons.mp h
    rw [evaluationItems, named, ih keyed, List.map_cons, topItem, topKey, named]
    rfl

theorem flattenItems_top (evaluation : List (Value × Value)) :
    (flattenItems FLATTEN_NODES (evaluation.map topItem).reverse []).map (sortBy Prod.fst) =
      if Flattens evaluation then some (flattenedFields evaluation) else none := by
  have reached : stackLeaves (evaluation.map topItem).reverse = (topLeaves evaluation).reverse := by
    rw [topLeaves, List.reverse_flatMap, stackLeaves, ← List.map_reverse, List.flatMap_map]
    rfl
  have same : ((evaluation.map topItem).reverse.all itemFlattens = true ∧
      itemsCount (evaluation.map topItem).reverse ≤ FLATTEN_NODES) ↔ Flattens evaluation := by
    rw [List.all_reverse, itemsCount_reverse]
    rfl
  rw [flattenItems_eq, flattened, reached]
  simp only [same]
  split
  · rfl
  · rfl

/-- What flattening returns, from the mapping. -/
theorem flattenEvaluation_ok {config : Option Config} {flat : Option Scalars}
    (h : flattenEvaluation config = .ok flat) :
    flat = (evaluationOf config).bind fun evaluation =>
      if Flattens evaluation then some (flattenedFields evaluation) else none := by
  rw [flattenEvaluation] at h
  split at h
  next evaluation found =>
    obtain ⟨items, built, h⟩ := bind_ok_iff.mp h
    obtain ⟨rfl, _⟩ := evaluationItems_ok built
    rw [flattenItems_top] at h
    rw [evaluationOf, found]
    exact (Except.ok.inj h).symm
  next absent =>
    obtain rfl := Except.ok.inj h
    rw [evaluationOf]
    split
    next evaluation found => exact absurd found (absent evaluation)
    · rfl

theorem flattenEvaluation_total {config : Option Config} {evaluation : List (Value × Value)}
    (found : evaluationOf config = some evaluation)
    (keyed : ∀ entry ∈ evaluation, ∃ text, keyText entry.1 = .ok text) :
    flattenEvaluation config =
      .ok (if Flattens evaluation then some (flattenedFields evaluation) else none) := by
  rw [evaluationOf] at found
  split at found
  next entries value =>
    obtain rfl := Option.some.inj found
    rw [flattenEvaluation, value]
    simp only [evaluationItems_total keyed, ← flattenItems_top]
    rfl
  · cases found

/-! ### One key, one value -/

/-- No two leaves of the mapping with one dotted key have different values. -/
def Unambiguous (evaluation : List (Value × Value)) : Prop :=
  ∀ first ∈ topLeaves evaluation, ∀ second ∈ topLeaves evaluation, first.1 = second.1 →
    leafScalar first = leafScalar second

instance (evaluation : List (Value × Value)) : Decidable (Unambiguous evaluation) :=
  inferInstanceAs (Decidable (∀ first ∈ topLeaves evaluation, ∀ second ∈ topLeaves evaluation, _))

theorem lookupKey_leafScalar (key : Str) (leaves : List (Str × Value)) :
    lookupKey key (leaves.map leafScalar) =
      (lookupKey key leaves).map fun v => (leafScalar (key, v)).2 := by
  induction leaves with
  | nil => rfl
  | cons leaf leaves ih =>
    rw [List.map_cons, lookupKey_cons, leafScalar, lookupKey_cons, ih]
    split
    · rfl
    · rfl

private theorem assigned_nodup (evaluation : List (Value × Value)) :
    (keysOf (assignAll ((topLeaves evaluation).reverse.map leafScalar) [])).Nodup :=
  assignAll_nodup _ List.nodup_nil

/-- A dotted key is looked up as the first leaf of the document that has it. -/
theorem lookupKey_flattenedFields (key : Str) (evaluation : List (Value × Value)) :
    lookupKey key (flattenedFields evaluation) =
      (lookupKey key (topLeaves evaluation)).map fun v => (leafScalar (key, v)).2 := by
  rw [flattenedFields, lookupKey_sortBy key (assigned_nodup evaluation), lookupKey_assignAll,
    ← List.map_reverse, List.reverse_reverse, lookupKey_leafScalar]
  exact Option.or_none

theorem flattenedFields_nodup (evaluation : List (Value × Value)) :
    (keysOf (flattenedFields evaluation)).Nodup :=
  ((sortBy_perm_self Prod.fst _).map Prod.fst).nodup_iff.mpr (assigned_nodup evaluation)

/-- Without ambiguity the fields are the leaves, whatever their order. -/
theorem mem_flattenedFields {evaluation : List (Value × Value)} (one : Unambiguous evaluation)
    {field : Str × Scalar} :
    field ∈ flattenedFields evaluation ↔ ∃ leaf ∈ topLeaves evaluation, leafScalar leaf = field := by
  obtain ⟨key, s⟩ := field
  rw [← lookupKey_eq_some_iff (flattenedFields_nodup evaluation), lookupKey_flattenedFields,
    Option.map_eq_some_iff]
  constructor
  · rintro ⟨v, found, rfl⟩
    exact ⟨(key, v), mem_of_lookupKey found, rfl⟩
  · rintro ⟨⟨named, w⟩, member, kept⟩
    obtain rfl : named = key := congrArg Prod.fst kept
    cases found : lookupKey named (topLeaves evaluation) with
    | none => exact absurd (List.mem_map_of_mem member) (lookupKey_eq_none_iff.mp found)
    | some v =>
      refine ⟨v, rfl, ?_⟩
      rw [one (named, v) (mem_of_lookupKey found) (named, w) member rfl, kept]

theorem flattenedFields_eq_iff {evaluation others : List (Value × Value)} :
    flattenedFields evaluation = flattenedFields others ↔
      ∀ key, lookupKey key (flattenedFields evaluation) = lookupKey key (flattenedFields others) := by
  refine ⟨fun same key => by rw [same], fun same => ?_⟩
  apply sortBy_eq_of_lookup (assigned_nodup _) (assigned_nodup _)
  intro key
  rw [← lookupKey_sortBy key (assigned_nodup _), ← lookupKey_sortBy key (assigned_nodup _)]
  exact same key

/-! ### Other orders of the keys -/

/-- The same value, with the entries of its mappings in another order. -/
inductive Reordered : Value → Value → Prop
  | refl (v : Value) : Reordered v v
  | permuted {entries others : List (Value × Value)} (perm : entries.Perm others) :
      Reordered (.dict entries) (.dict others)
  | inside (front : List (Value × Value)) (key : Value) {v w : Value}
      (back : List (Value × Value)) (below : Reordered v w) :
      Reordered (.dict (front ++ (key, v) :: back)) (.dict (front ++ (key, w) :: back))
  | trans {u v w : Value} (first : Reordered u v) (second : Reordered v w) : Reordered u w

def entriesOf : Value → List (Value × Value)
  | .dict entries => entries
  | _ => []

/-- What flattening reads of a value, up to the order of its leaves. -/
structure FlattenedAlike (v w : Value) : Prop where
  leaves : ∀ key, (leavesOf key v).Perm (leavesOf key w)
  flat : ∀ key depth, flattens key depth v = flattens key depth w
  count : nodeCount v = nodeCount w
  top : (topLeaves (entriesOf v)).Perm (topLeaves (entriesOf w))
  topFlat : Flattens (entriesOf v) ↔ Flattens (entriesOf w)
  keyed : (entriesOf v).map (fun entry => entry.1) |>.Perm
    ((entriesOf w).map fun entry => entry.1)

/-- The leaves below one entry of a nested mapping. -/
def childLeaves (key : Str) (entry : Value × Value) : List (Str × Value) :=
  match entry.1 with
  | .str childKey => leavesOf (key ++ DOT :: childKey) entry.2
  | _ => []

def childFlattens (key : Str) (depth : Nat) (entry : Value × Value) : Bool :=
  match entry.1 with
  | .str childKey => childKey ≠ [] && flattens (key ++ DOT :: childKey) (depth + 1) entry.2
  | _ => false

theorem entryLeaves_eq (key : Str) (entries : List (Value × Value)) :
    entryLeaves key entries = entries.flatMap (childLeaves key) := by
  induction entries with
  | nil => rfl
  | cons entry rest ih =>
    obtain ⟨k, v⟩ := entry
    cases k <;> simp [entryLeaves, childLeaves, ih]

theorem entriesFlatten_eq (key : Str) (depth : Nat) (entries : List (Value × Value)) :
    entriesFlatten key depth entries = entries.all (childFlattens key depth) := by
  induction entries with
  | nil => rfl
  | cons entry rest ih =>
    obtain ⟨k, v⟩ := entry
    cases k <;> simp [entriesFlatten, childFlattens, ih]

theorem entryCount_eq (entries : List (Value × Value)) :
    entryCount entries = (entries.map fun entry => nodeCount entry.2).sum := by
  induction entries with
  | nil => rfl
  | cons entry rest ih =>
    rw [entryCount, ih]
    rfl

theorem Reordered.alike {v w : Value} (h : Reordered v w) : FlattenedAlike v w := by
  -- a permutation of the entries, or the same change below one of them
  induction h with
  | refl v => exact ⟨fun _ => .refl _, fun _ _ => rfl, rfl, .refl _, .rfl, .refl _⟩
  | @permuted entries others perm =>
    refine ⟨fun key => ?_, fun key depth => ?_, ?_, perm.flatMap_right _, ?_, perm.map _⟩
    · rw [leavesOf, leavesOf, entryLeaves_eq, entryLeaves_eq]
      exact perm.flatMap_right _
    · rw [flattens, flattens, entriesFlatten_eq, entriesFlatten_eq, perm.all_eq]
    · rw [nodeCount, nodeCount, entryCount_eq, entryCount_eq, (perm.map _).sum_eq]
    · simp only [entriesOf, Flattens, itemsCount, (perm.map topItem).all_eq,
        ((perm.map topItem).map itemCount).sum_eq]
  | @inside front key v w back below ih =>
    refine ⟨fun outer => ?_, fun outer depth => ?_, ?_, ?_, ?_, ?_⟩
    · rw [leavesOf, leavesOf, entryLeaves_eq, entryLeaves_eq, List.flatMap_append,
        List.flatMap_append, List.flatMap_cons, List.flatMap_cons]
      refine .append_left _ (.append_right _ ?_)
      cases key <;> first | exact ih.leaves _ | exact .refl _
    · have same : childFlattens outer depth (key, v) = childFlattens outer depth (key, w) := by
        cases key <;> simp [childFlattens, ih.flat]
      rw [flattens, flattens, entriesFlatten_eq, entriesFlatten_eq, List.all_append, List.all_append,
        List.all_cons, List.all_cons, same]
    · simp only [nodeCount, entryCount_eq, List.map_append, List.map_cons, ih.count]
    · simp only [entriesOf, topLeaves, List.flatMap_append, List.flatMap_cons]
      exact .append_left _ (.append_right _ (ih.leaves _))
    · have flat : itemFlattens (topItem (key, v)) = itemFlattens (topItem (key, w)) := ih.flat _ _
      have count : itemCount (topItem (key, v)) = itemCount (topItem (key, w)) := ih.count
      simp only [entriesOf, Flattens, itemsCount, List.map_append, List.map_cons, List.all_append,
        List.all_cons, flat, count]
    · simp only [entriesOf, List.map_append, List.map_cons]
      exact .refl _
  | trans _ _ first second =>
    exact ⟨fun key => (first.leaves key).trans (second.leaves key),
      fun key depth => (first.flat key depth).trans (second.flat key depth),
      first.count.trans second.count, first.top.trans second.top,
      first.topFlat.trans second.topFlat, first.keyed.trans second.keyed⟩

/-- Without ambiguity the fields do not depend on the order of the keys. -/
theorem flattenedFields_reordered {evaluation others : List (Value × Value)}
    (one : Unambiguous evaluation) (h : Reordered (.dict evaluation) (.dict others)) :
    flattenedFields others = flattenedFields evaluation := by
  have perm : (topLeaves evaluation).Perm (topLeaves others) := h.alike.top
  have oneOther : Unambiguous others := fun first here second there =>
    one first (perm.mem_iff.mpr here) second (perm.mem_iff.mpr there)
  rw [flattenedFields_eq_iff]
  intro key
  ext s
  rw [lookupKey_eq_some_iff (flattenedFields_nodup _), lookupKey_eq_some_iff (flattenedFields_nodup _),
    mem_flattenedFields oneOther, mem_flattenedFields one]
  simp only [perm.mem_iff]

mutual

/-- Some order of the keys has any given leaf in the first place. -/
theorem leaf_first (key : Str) : ∀ (v : Value) (leaf : Str × Value), leaf ∈ leavesOf key v →
    ∃ w rest, Reordered v w ∧ leavesOf key w = leaf :: rest
  | .dict entries, leaf, member => by
    obtain ⟨front, childKey, v, w, back, rest, rfl, below, first⟩ :=
      entry_first key entries leaf member
    refine ⟨.dict ((.str childKey, w) :: (front ++ back)), rest ++ entryLeaves key (front ++ back),
      ?_, ?_⟩
    · exact (Reordered.permuted List.perm_middle).trans (.inside [] _ _ below)
    · rw [leavesOf, entryLeaves, first, List.cons_append]
  | .none, _, member | .bool _, _, member | .int _, _, member | .float _, _, member
  | .infinity _, _, member | .nan _, _, member | .str _, _, member | .other _ _, _, member
  | .list _, _, member | .tuple _, _, member | .set _, _, member =>
    ⟨_, [], .refl _, by rw [List.mem_singleton.mp member]; rfl⟩

theorem entry_first (key : Str) : ∀ (entries : List (Value × Value)) (leaf : Str × Value),
    leaf ∈ entryLeaves key entries → ∃ front childKey v w back rest,
      entries = front ++ (.str childKey, v) :: back ∧ Reordered v w ∧
      leavesOf (key ++ DOT :: childKey) w = leaf :: rest
  | [], _, member => by cases member
  | (k, v) :: entries, leaf, member => by
    have later : leaf ∈ entryLeaves key entries → ∃ front childKey u w back rest,
        (k, v) :: entries = front ++ (.str childKey, u) :: back ∧ Reordered u w ∧
        leavesOf (key ++ DOT :: childKey) w = leaf :: rest := by
      intro there
      obtain ⟨front, childKey, u, w, back, rest, rfl, below, first⟩ := entry_first key entries leaf there
      exact ⟨(k, v) :: front, childKey, u, w, back, rest, rfl, below, first⟩
    cases k with
    | str childKey =>
      rcases List.mem_append.mp member with here | there
      · obtain ⟨w, rest, below, first⟩ := leaf_first (key ++ DOT :: childKey) v leaf here
        exact ⟨[], childKey, v, w, entries, rest, rfl, below, first⟩
      · exact later there
    | _ => exact later member

end

theorem topLeaf_first {evaluation : List (Value × Value)} {leaf : Str × Value}
    (member : leaf ∈ topLeaves evaluation) :
    ∃ others rest, Reordered (.dict evaluation) (.dict others) ∧ topLeaves others = leaf :: rest := by
  obtain ⟨⟨key, v⟩, inside, below⟩ := List.mem_flatMap.mp member
  obtain ⟨w, rest, reordered, first⟩ := leaf_first _ v leaf below
  obtain ⟨front, back, rfl⟩ := List.append_of_mem inside
  refine ⟨(key, w) :: (front ++ back), rest ++ topLeaves (front ++ back), ?_, ?_⟩
  · exact (Reordered.permuted List.perm_middle).trans (.inside [] _ _ reordered)
  · rw [topLeaves, List.flatMap_cons, first, List.cons_append, topLeaves]

/-- With an ambiguous key, some order of the keys gives other fields. -/
theorem flattenedFields_differ {evaluation : List (Value × Value)}
    (ambiguous : ¬Unambiguous evaluation) :
    ∃ others, Reordered (.dict evaluation) (.dict others) ∧
      flattenedFields others ≠ flattenedFields evaluation := by
  rw [Unambiguous] at ambiguous
  push Not at ambiguous
  obtain ⟨first, here, second, there, named, differ⟩ := ambiguous
  have looked : ∀ leaf ∈ topLeaves evaluation, ∃ others, Reordered (.dict evaluation) (.dict others) ∧
      lookupKey leaf.1 (flattenedFields others) = some (leafScalar leaf).2 := by
    intro leaf member
    obtain ⟨others, rest, reordered, leaves⟩ := topLeaf_first member
    refine ⟨others, reordered, ?_⟩
    rw [lookupKey_flattenedFields, leaves, lookupKey_cons, if_pos rfl]
    rfl
  obtain ⟨ones, onesReordered, one⟩ := looked first here
  obtain ⟨others, othersReordered, other⟩ := looked second there
  by_contra same
  push Not at same
  rw [same ones onesReordered] at one
  rw [same others othersReordered, ← named, one] at other
  exact differ (Prod.ext named (Option.some.inj other))

/-! ### Mappings that nest alike -/

/-- The scalar, as far as the text of a component tells. -/
def Scalar.joined : Scalar → Scalar
  | .str s => .str (joinSurrogates s)
  | v => v

/-- A leaf, as far as the text of a component tells. -/
def writtenLeaf (leaf : Str × Value) : Str × Scalar := (leaf.1, (leafScalar leaf).2.joined)

def written (fields : Scalars) : Scalars := fields.map fun field => (field.1, field.2.joined)

/-- Two strings that differ only in that one has a surrogate pair for a character of the other. -/
def confused : Value → Value → Bool
  | .str s, .str t => s ≠ t && joinSurrogates s = joinSurrogates t
  | _, _ => false

mutual

/-- Mappings stand where mappings stand, with the same keys, and no leaf is confused with the other
one in its place. -/
def sameNesting : Value → Value → Bool
  | .dict vs, .dict ws => vs.length == ws.length && subNesting vs ws
  | .dict _, _ => false
  | _, .dict _ => false
  | v, w => !confused v w

def subNesting : List (Value × Value) → List (Value × Value) → Bool
  | [], _ => true
  | (k, v) :: vs, ws => ws.any (fun w => Value.same k w.1 && sameNesting v w.2) && subNesting vs ws

end

/-- The entries of two evaluation mappings correspond to each other: the keys are equal, and the
values are equal unless the keys have one text and the values nest alike. -/
def aligned (vs ws : List (Value × Value)) : Bool :=
  vs.length == ws.length && vs.all fun v => ws.any fun w => Value.same v.1 w.1 &&
    (Value.same v.2 w.2 || (decide (topKey v.1 = topKey w.1) && sameNesting v.2 w.2))

/-- Leaves of two mappings with one dotted key are written alike. -/
def LeavesAgree (vs ws : List (Str × Value)) : Prop :=
  ∀ v ∈ vs, ∀ w ∈ ws, v.1 = w.1 → writtenLeaf v = writtenLeaf w

theorem LeavesAgree.mono {vs ws vs' ws' : List (Str × Value)} (h : LeavesAgree vs ws)
    (left : vs' ⊆ vs) (right : ws' ⊆ ws) : LeavesAgree vs' ws' :=
  fun v hv w hw => h v (left hv) w (right hw)

/-- The value that is kept as a scalar. -/
def Scalar.toValue : Scalar → Value
  | .str s => .str s
  | .bool b => .bool b
  | .int n => .int n
  | .float x => .float x

theorem value_of_jsonScalar {v : Value} {s : Scalar} (h : jsonScalar v = some s) : v = s.toValue := by
  have kept : Scalar.ofValue v = some s := (Option.filter_eq_some_iff.mp h).1
  cases v <;> cases kept <;> rfl

theorem same_of_joined {s t : Scalar} (clear : confused s.toValue t.toValue = false)
    (h : s.joined = t.joined) : Value.same s.toValue t.toValue = true := by
  have same : s = t := by
    cases s with
    | str a =>
      cases t with
      | str b =>
        have joined : joinSurrogates a = joinSurrogates b := Scalar.str.inj h
        simp only [Scalar.toValue, confused, joined, decide_true, Bool.and_true,
          decide_eq_false_iff_not, not_not] at clear
        rw [clear]
      | _ => cases h
    | _ => cases t <;> cases h <;> rfl
  have number : ∀ d : Decimal, d.eq d = true := fun d => (Decimal.eq_iff d d).mpr rfl
  subst same
  cases s <;> simp [Scalar.toValue, Value.same, Value.sameScalar, Value.number, number]

theorem flattens_jsonScalar {key : Str} {depth : Nat} {v : Value} (h : flattens key depth v = true)
    (leaf : ∀ entries, v ≠ .dict entries) : (jsonScalar v).isSome = true := by
  cases v with
  | dict entries => exact absurd rfl (leaf entries)
  | _ => exact (Bool.and_eq_true _ _ ▸ h).2

theorem leavesOf_leaf (key : Str) {v : Value} (leaf : ∀ entries, v ≠ .dict entries) :
    leavesOf key v = [(key, v)] := by
  cases v with
  | dict entries => exact absurd rfl (leaf entries)
  | _ => rfl

theorem same_of_leaves {key : Str} {depth : Nat} {v w : Value} (hv : flattens key depth v = true)
    (hw : flattens key depth w = true) (leaf : ∀ entries, v ≠ .dict entries)
    (other : ∀ entries, w ≠ .dict entries) (clear : confused v w = false)
    (agree : LeavesAgree (leavesOf key v) (leavesOf key w)) : Value.same v w = true := by
  have some := flattens_jsonScalar hv leaf
  have others := flattens_jsonScalar hw other
  rw [leavesOf_leaf key leaf, leavesOf_leaf key other] at agree
  have kept := agree _ (List.mem_singleton.mpr rfl) _ (List.mem_singleton.mpr rfl) rfl
  obtain ⟨s, hs⟩ := Option.isSome_iff_exists.mp some
  obtain ⟨t, ht⟩ := Option.isSome_iff_exists.mp others
  simp only [writtenLeaf, leafScalar, hs, ht, Option.getD_some, Prod.mk.injEq, true_and] at kept
  rw [value_of_jsonScalar hs, value_of_jsonScalar ht] at clear ⊢
  exact same_of_joined clear kept

theorem str_of_entriesFlatten {key : Str} {depth : Nat} {entries : List (Value × Value)}
    (h : entriesFlatten key depth entries = true) {entry : Value × Value} (member : entry ∈ entries) :
    ∃ childKey, entry.1 = .str childKey ∧
      flattens (key ++ DOT :: childKey) (depth + 1) entry.2 = true := by
  rw [entriesFlatten_eq, List.all_eq_true] at h
  have fits := h entry member
  rw [childFlattens] at fits
  split at fits
  next childKey named => exact ⟨childKey, named, (Bool.and_eq_true _ _ ▸ fits).2⟩
  · cases fits

mutual

theorem leaf_jsonScalar (key : Str) (depth : Nat) : ∀ v : Value, flattens key depth v = true →
    ∀ leaf ∈ leavesOf key v, (jsonScalar leaf.2).isSome = true
  | .dict entries, h, leaf, member => by
    rw [flattens, Bool.and_eq_true] at h
    exact entry_jsonScalar key depth entries h.2 leaf member
  | .none, h, _, member | .bool _, h, _, member | .int _, h, _, member | .float _, h, _, member
  | .infinity _, h, _, member | .nan _, h, _, member | .str _, h, _, member
  | .other _ _, h, _, member | .list _, h, _, member | .tuple _, h, _, member
  | .set _, h, _, member => by
    rw [List.mem_singleton.mp member]
    exact flattens_jsonScalar h (by intro _ same; cases same)

theorem entry_jsonScalar (key : Str) (depth : Nat) : ∀ entries : List (Value × Value),
    entriesFlatten key depth entries = true →
    ∀ leaf ∈ entryLeaves key entries, (jsonScalar leaf.2).isSome = true
  | [], _, _, member => by cases member
  | (k, v) :: entries, h, leaf, member => by
    cases k with
    | str childKey =>
      rw [entriesFlatten, Bool.and_eq_true, Bool.and_eq_true] at h
      rcases List.mem_append.mp member with here | there
      · exact leaf_jsonScalar _ _ v h.1.2 leaf here
      · exact entry_jsonScalar key depth entries h.2 leaf there
    | _ => cases h

end

/-- Every leaf of a mapping that flattens is kept as a bounded scalar. -/
theorem Flattens.bounded {evaluation : List (Value × Value)} (h : Flattens evaluation) :
    ∀ leaf ∈ topLeaves evaluation, (leafScalar leaf).2.bounded = true := by
  intro leaf member
  obtain ⟨entry, inside, below⟩ := List.mem_flatMap.mp member
  have flat : flattens (topKey entry.1) 1 entry.2 = true :=
    List.all_eq_true.mp h.1 (topItem entry) (List.mem_map_of_mem inside)
  obtain ⟨s, scalar⟩ := Option.isSome_iff_exists.mp (leaf_jsonScalar _ _ _ flat leaf below)
  have kept := (Option.filter_eq_some_iff.mp scalar).2
  rw [leafScalar, scalar]
  exact kept

mutual

/-- Values that nest alike and whose leaves agree are equal. -/
theorem same_of_nesting (key : Str) (depth : Nat) : ∀ v w : Value, flattens key depth v = true →
    flattens key depth w = true → sameNesting v w = true →
    LeavesAgree (leavesOf key v) (leavesOf key w) → Value.same v w = true
  | .dict vs, w, hv, hw, nests, agree => by
    cases w with
    | dict ws =>
      rw [sameNesting, Bool.and_eq_true] at nests
      rw [flattens, Bool.and_eq_true] at hv hw
      rw [Value.same, Bool.and_eq_true]
      exact ⟨nests.1, same_of_subNesting key depth vs ws hv.2 hw.2 nests.2 agree⟩
    | _ => cases nests
  | .none, w, hv, hw, nests, agree | .bool _, w, hv, hw, nests, agree
  | .int _, w, hv, hw, nests, agree | .float _, w, hv, hw, nests, agree
  | .infinity _, w, hv, hw, nests, agree | .nan _, w, hv, hw, nests, agree
  | .str _, w, hv, hw, nests, agree | .other _ _, w, hv, hw, nests, agree
  | .list _, w, hv, hw, nests, agree | .tuple _, w, hv, hw, nests, agree
  | .set _, w, hv, hw, nests, agree =>
    same_of_leaves hv hw (by intro _ h; cases h) (by rintro _ rfl; cases nests)
      (by cases w <;> first | exact Bool.not_eq_true' _ ▸ nests | cases nests) agree

theorem same_of_subNesting (key : Str) (depth : Nat) : ∀ vs ws : List (Value × Value),
    entriesFlatten key depth vs = true → entriesFlatten key depth ws = true →
    subNesting vs ws = true → LeavesAgree (entryLeaves key vs) (entryLeaves key ws) →
    Value.subdict vs ws = true
  | [], _, _, _, _, _ => by rw [Value.subdict]
  | (k, v) :: vs, ws, hv, hw, nests, agree => by
    obtain ⟨childKey, rfl, flat⟩ := str_of_entriesFlatten hv List.mem_cons_self
    have rest : entriesFlatten key depth vs = true := by
      rw [entriesFlatten_eq, List.all_cons, Bool.and_eq_true] at hv
      rw [entriesFlatten_eq]
      exact hv.2
    rw [subNesting, Bool.and_eq_true, List.any_eq_true] at nests
    obtain ⟨⟨⟨k', w⟩, member, matched⟩, later⟩ := nests
    obtain ⟨otherKey, rfl, otherFlat⟩ := str_of_entriesFlatten hw member
    rw [Bool.and_eq_true] at matched
    obtain ⟨sameKey, nested⟩ := matched
    have named : childKey = otherKey := by simpa [Value.same, Value.sameScalar, Value.number] using sameKey
    subst named
    have right : leavesOf (key ++ DOT :: childKey) w ⊆ entryLeaves key ws := by
      intro leaf below
      rw [entryLeaves_eq]
      exact List.mem_flatMap.mpr ⟨_, member, below⟩
    rw [entryLeaves] at agree
    rw [Value.subdict, Bool.and_eq_true, List.any_eq_true]
    refine ⟨⟨(.str childKey, w), member, ?_⟩, ?_⟩
    · rw [Bool.and_eq_true]
      exact ⟨sameKey, same_of_nesting _ _ v w flat otherFlat nested
        (agree.mono (List.subset_append_left _ _) right)⟩
    · exact same_of_subNesting key depth vs ws rest hw later
        (agree.mono (List.subset_append_right _ _) (List.Subset.refl _))

end

theorem eq_dict (vs ws : List (Value × Value)) :
    Value.eq (.dict vs) (.dict ws) = (vs.length == ws.length && Value.subdict vs ws) := by
  simp only [Value.eq, Value.same]

/-- Aligned mappings whose leaves agree are equal. -/
theorem eq_of_aligned {vs ws : List (Value × Value)} (hv : Flattens vs) (hw : Flattens ws)
    (entries : aligned vs ws = true) (agree : LeavesAgree (topLeaves vs) (topLeaves ws)) :
    Value.eq (.dict vs) (.dict ws) = true := by
  rw [aligned, Bool.and_eq_true, List.all_eq_true] at entries
  obtain ⟨lengths, entries⟩ := entries
  rw [eq_dict, lengths, Bool.true_and]
  have matched : ∀ v ∈ vs, ∃ w ∈ ws, Value.same v.1 w.1 = true ∧ Value.same v.2 w.2 = true := by
    intro v here
    obtain ⟨w, there, matched⟩ := List.any_eq_true.mp (entries v here)
    rw [Bool.and_eq_true, Bool.or_eq_true, Bool.and_eq_true, decide_eq_true_eq] at matched
    obtain ⟨sameKey, equal | ⟨sameText, nested⟩⟩ := matched
    · exact ⟨w, there, sameKey, equal⟩
    · have flatLeft : flattens (topKey v.1) 1 v.2 = true :=
        List.all_eq_true.mp hv.1 (topItem v) (List.mem_map_of_mem here)
      have flatRight : flattens (topKey w.1) 1 w.2 = true :=
        List.all_eq_true.mp hw.1 (topItem w) (List.mem_map_of_mem there)
      rw [← sameText] at flatRight
      have left : leavesOf (topKey v.1) v.2 ⊆ topLeaves vs :=
        fun leaf below => List.mem_flatMap.mpr ⟨v, here, below⟩
      have right : leavesOf (topKey v.1) w.2 ⊆ topLeaves ws := by
        intro leaf below
        rw [sameText] at below
        exact List.mem_flatMap.mpr ⟨w, there, below⟩
      exact ⟨w, there, sameKey,
        same_of_nesting _ _ v.2 w.2 flatLeft flatRight nested (agree.mono left right)⟩
  clear entries lengths agree hv hw
  induction vs with
  | nil => rw [Value.subdict]
  | cons v vs ih =>
    obtain ⟨⟨w, there, sameKey, sameValue⟩, rest⟩ := List.forall_mem_cons.mp matched
    rw [Value.subdict, ih rest, Bool.and_true, List.any_eq_true]
    exact ⟨w, there, by rw [sameKey, sameValue, Bool.and_self]⟩

theorem aligned_of_eq {vs ws : List (Value × Value)}
    (h : Value.eq (.dict vs) (.dict ws) = true) : aligned vs ws = true := by
  rw [eq_dict, Bool.and_eq_true] at h
  obtain ⟨lengths, entries⟩ := h
  rw [aligned, lengths, Bool.true_and]
  clear lengths
  induction vs with
  | nil => rfl
  | cons v vs ih =>
    rw [Value.subdict, Bool.and_eq_true, List.any_eq_true] at entries
    obtain ⟨⟨w, there, matched⟩, rest⟩ := entries
    rw [Bool.and_eq_true] at matched
    rw [List.all_cons, ih rest, Bool.and_true, List.any_eq_true]
    exact ⟨w, there, by rw [matched.1, matched.2]; rfl⟩

theorem mem_written {evaluation : List (Value × Value)} (one : Unambiguous evaluation)
    {field : Str × Scalar} : field ∈ written (flattenedFields evaluation) ↔
      ∃ leaf ∈ topLeaves evaluation, writtenLeaf leaf = field := by
  rw [written, List.mem_map]
  constructor
  · rintro ⟨kept, member, rfl⟩
    obtain ⟨leaf, here, rfl⟩ := (mem_flattenedFields one).mp member
    exact ⟨leaf, here, rfl⟩
  · rintro ⟨leaf, here, rfl⟩
    exact ⟨leafScalar leaf, (mem_flattenedFields one).mpr ⟨leaf, here, rfl⟩, rfl⟩

/-- Without ambiguity, fields that are written alike are leaves that agree. -/
theorem leavesAgree_of_written {vs ws : List (Value × Value)} (one : Unambiguous vs)
    (other : Unambiguous ws) (h : written (flattenedFields vs) = written (flattenedFields ws)) :
    LeavesAgree (topLeaves vs) (topLeaves ws) := by
  intro v hv w hw named
  have field : writtenLeaf v ∈ written (flattenedFields ws) := by
    rw [← h]
    exact (mem_written one).mpr ⟨v, hv, rfl⟩
  obtain ⟨u, hu, kept⟩ := (mem_written other).mp field
  have same : (writtenLeaf u).1 = (writtenLeaf v).1 := congrArg Prod.fst kept
  have scalar : leafScalar u = leafScalar w := other u hu w hw (same.trans named)
  have wrote : writtenLeaf u = writtenLeaf w := by
    rw [writtenLeaf, writtenLeaf, scalar]
    exact congrArg (·, _) (same.trans named)
  rw [← kept, wrote]

/-- The leaves of two mappings are written as the same pairs of a dotted key and a value. -/
def SameLeaves (vs ws : List (Value × Value)) : Prop :=
  (∀ v ∈ topLeaves vs, ∃ w ∈ topLeaves ws, writtenLeaf w = writtenLeaf v) ∧
    ∀ w ∈ topLeaves ws, ∃ v ∈ topLeaves vs, writtenLeaf v = writtenLeaf w

instance (vs ws : List (Value × Value)) : Decidable (SameLeaves vs ws) :=
  inferInstanceAs (Decidable ((∀ v ∈ topLeaves vs, ∃ w ∈ topLeaves ws, _) ∧
    ∀ w ∈ topLeaves ws, ∃ v ∈ topLeaves vs, _))

/-- Written fields are in the order of their keys, which are distinct. -/
theorem written_sorted (evaluation : List (Value × Value)) :
    (keysOf (written (flattenedFields evaluation))).Nodup ∧
      sortBy Prod.fst (written (flattenedFields evaluation)) =
        written (flattenedFields evaluation) := by
  have keys : keysOf (written (flattenedFields evaluation)) =
      keysOf (flattenedFields evaluation) := by
    rw [keysOf, written, List.map_map]
    rfl
  refine ⟨keys ▸ flattenedFields_nodup evaluation, ?_⟩
  apply List.Pairwise.insertionSort_eq
  rw [written, List.pairwise_map]
  exact sortBy_pairwise Prod.fst _

theorem written_eq_iff {vs ws : List (Value × Value)} (one : Unambiguous vs)
    (other : Unambiguous ws) :
    written (flattenedFields vs) = written (flattenedFields ws) ↔ SameLeaves vs ws := by
  constructor
  · intro h
    constructor
    · intro v hv
      exact (mem_written other).mp (h ▸ (mem_written one).mpr ⟨v, hv, rfl⟩)
    · intro w hw
      exact (mem_written one).mp (h ▸ (mem_written other).mpr ⟨w, hw, rfl⟩)
  · rintro ⟨left, right⟩
    obtain ⟨distinct, sorted⟩ := written_sorted vs
    obtain ⟨otherDistinct, otherSorted⟩ := written_sorted ws
    rw [← sorted, ← otherSorted]
    apply sortBy_eq_of_lookup distinct otherDistinct
    intro key
    ext s
    rw [lookupKey_eq_some_iff distinct, lookupKey_eq_some_iff otherDistinct, mem_written one,
      mem_written other]
    constructor
    · rintro ⟨v, hv, kept⟩
      obtain ⟨w, hw, same⟩ := left v hv
      exact ⟨w, hw, same.trans kept⟩
    · rintro ⟨w, hw, kept⟩
      obtain ⟨v, hv, same⟩ := right w hw
      exact ⟨v, hv, same.trans kept⟩

end ClaimCI
