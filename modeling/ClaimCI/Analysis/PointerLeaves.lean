import ClaimCI.Analysis.DatasetRun
import ClaimCI.Analysis.JsonPointers

/-!
# Leaves of a document

The leaves that `_pointer_leaves` lists are the scalars of the document, each once, under pairwise
distinct pointers that resolve to them.
-/

open Python

namespace ClaimCI

/-! ### Scalars -/

mutual

/-- The scalars of a document in its own order. -/
def scalarsOf : Json → List Json
  | .array items => itemScalars items
  | .object members => memberScalars members
  | scalar => [scalar]

def itemScalars : List Json → List Json
  | [] => []
  | item :: rest => scalarsOf item ++ itemScalars rest

def memberScalars : Members → List Json
  | [] => []
  | (_, value) :: rest => scalarsOf value ++ memberScalars rest

end

theorem map_under (token : Str) (leaves : List (List Str × Json)) :
    (leaves.map fun leaf => (token :: leaf.1, leaf.2)).map Prod.snd = leaves.map Prod.snd := by
  rw [List.map_map]
  rfl

mutual

theorem tokenLeaves_scalars : ∀ value : Json, (tokenLeaves value).map Prod.snd = scalarsOf value
  | .array items => by
    rw [tokenLeaves, scalarsOf]
    exact itemTokens_scalars 0 items
  | .object members => by
    rw [tokenLeaves, scalarsOf]
    exact memberTokens_scalars members
  | .null | .bool _ | .int _ | .float _ | .infinity _ | .nan | .str _ => rfl

theorem itemTokens_scalars : ∀ (index : Nat) (items : List Json),
    (itemTokens index items).map Prod.snd = itemScalars items
  | _, [] => rfl
  | index, item :: rest => by
    rw [itemTokens, itemScalars, List.map_append, map_under, tokenLeaves_scalars item,
      itemTokens_scalars (index + 1) rest]

theorem memberTokens_scalars : ∀ members : Members,
    (memberTokens members).map Prod.snd = memberScalars members
  | [] => rfl
  | (key, value) :: rest => by
    rw [memberTokens, memberScalars, List.map_append, map_under, tokenLeaves_scalars value,
      memberTokens_scalars rest]

end

theorem memberScalars_eq (members : Members) :
    memberScalars members = members.flatMap fun member => scalarsOf member.2 := by
  induction members with
  | nil => rfl
  | cons member members ih =>
    rw [memberScalars, List.flatMap_cons, ih]

mutual

/-- Sorting the members of the objects reorders the scalars. -/
theorem scalarsOf_sorted : ∀ value : Json, (scalarsOf value.sorted).Perm (scalarsOf value)
  | .array items => by
    rw [Json.sorted, scalarsOf, scalarsOf]
    exact itemScalars_sorted items
  | .object members => by
    rw [Json.sorted, scalarsOf, scalarsOf]
    refine List.Perm.trans ?_ (memberScalars_sorted members)
    rw [memberScalars_eq, memberScalars_eq]
    exact (List.perm_insertionSort _ _).flatMap_right _
  | .null | .bool _ | .int _ | .float _ | .infinity _ | .nan | .str _ => List.Perm.refl _

theorem itemScalars_sorted : ∀ items : List Json,
    (itemScalars (Json.sortedItems items)).Perm (itemScalars items)
  | [] => List.Perm.refl _
  | item :: rest => by
    rw [Json.sortedItems, itemScalars, itemScalars]
    exact (scalarsOf_sorted item).append (itemScalars_sorted rest)

theorem memberScalars_sorted : ∀ members : Members,
    (memberScalars (Json.sortedMembers members)).Perm (memberScalars members)
  | [] => List.Perm.refl _
  | (key, value) :: rest => by
    rw [Json.sortedMembers, memberScalars, memberScalars]
    exact (scalarsOf_sorted value).append (memberScalars_sorted rest)

end

/-! ### Distinct pointers -/

theorem encodePointerToken_injective : Function.Injective encodePointerToken := by
  intro a b same
  have decoded := decodePointerToken_encode a
  rw [same, decodePointerToken_encode b] at decoded
  exact (Except.ok.inj decoded).symm

theorem natText_inj {m n : Nat} (same : natText m = natText n) : m = n := by
  have index := canonicalIndex_natText m
  rw [same, canonicalIndex_natText n] at index
  exact (Option.some.inj index).symm

/-- Leaves below one token are as distinct as they were, and apart from those below others. -/
theorem nodup_under {token : Str} {leaves others : List (List Str × Json)}
    (here : (leaves.map Prod.fst).Nodup) (there : (others.map Prod.fst).Nodup)
    (apart : ∀ other ∈ others, other.1.head? ≠ some token) :
    ((leaves.map (fun leaf => (token :: leaf.1, leaf.2)) ++ others).map Prod.fst).Nodup := by
  rw [List.map_append, List.map_map]
  refine List.Nodup.append ?_ there ?_
  · have distinct := here.map (List.cons_injective (a := token))
    rwa [List.map_map] at distinct
  · intro path inside outside
    obtain ⟨leaf, -, rfl⟩ := List.mem_map.mp inside
    obtain ⟨other, member, same⟩ := List.mem_map.mp outside
    exact apart other member (congrArg List.head? same)

mutual

/-- The paths of the leaves are distinct where the keys of the objects are. -/
theorem tokenLeaves_nodup : ∀ value : Json, value.DistinctKeys →
    ((tokenLeaves value).map Prod.fst).Nodup
  | .array items, distinct => by
    rw [Json.DistinctKeys] at distinct
    rw [tokenLeaves]
    exact itemTokens_nodup 0 items distinct
  | .object members, distinct => by
    rw [Json.DistinctKeys] at distinct
    rw [tokenLeaves]
    exact memberTokens_nodup members distinct.1 distinct.2
  | .null, _ | .bool _, _ | .int _, _ | .float _, _ | .infinity _, _ | .nan, _ | .str _, _ =>
    List.nodup_singleton _

theorem itemTokens_nodup : ∀ (index : Nat) (items : List Json), Json.itemsDistinctKeys items →
    ((itemTokens index items).map Prod.fst).Nodup
  | _, [], _ => List.nodup_nil
  | index, item :: rest, distinct => by
    rw [Json.itemsDistinctKeys] at distinct
    rw [itemTokens]
    refine nodup_under (tokenLeaves_nodup item distinct.1)
      (itemTokens_nodup (index + 1) rest distinct.2) ?_
    -- a later item has a larger index
    intro other member same
    obtain ⟨later, -, -, below, -, rfl⟩ := mem_itemTokens.mp member
    have equal := natText_inj (Option.some.inj same)
    omega

theorem memberTokens_nodup : ∀ members : Members, (members.map Prod.fst).Nodup →
    Json.membersDistinctKeys members → ((memberTokens members).map Prod.fst).Nodup
  | [], _, _ => List.nodup_nil
  | (key, value) :: rest, keys, distinct => by
    rw [Json.membersDistinctKeys] at distinct
    rw [List.map_cons, List.nodup_cons] at keys
    rw [memberTokens]
    refine nodup_under (tokenLeaves_nodup value distinct.1)
      (memberTokens_nodup rest keys.2 distinct.2) ?_
    intro other member same
    obtain ⟨⟨name, below⟩, inside, leaf, -, rfl⟩ := mem_memberTokens.mp member
    have equal := encodePointerToken_injective (Option.some.inj same)
    exact keys.1 (List.mem_map.mpr ⟨(name, below), inside, equal⟩)

end

/-- Paths of slash-free tokens are read back from their pointers. -/
theorem pointerText_inj {tokens others : List Str} (some : tokens ≠ []) (others_some : others ≠ [])
    (apart : ∀ token ∈ tokens, POINTER_SLASH ∉ token)
    (others_apart : ∀ token ∈ others, POINTER_SLASH ∉ token)
    (same : pointerText tokens = pointerText others) : tokens = others := by
  have parts := congrArg (split POINTER_SLASH) (List.cons.inj same).2
  rwa [split_intercalate some apart, split_intercalate others_some others_apart] at parts

theorem pointerLeaves_nodup {value : Json} (container : isNested value = true)
    (distinct : value.DistinctKeys) : ((pointerLeaves value).map Prod.fst).Nodup := by
  have paths := tokenLeaves_nodup value.sorted (value.sorted_distinctKeys distinct)
  rw [pointerLeaves, List.map_map]
  refine List.Nodup.map_on ?_ (List.Nodup.of_map _ paths)
  intro leaf inside other member same
  have tokens := pointerText_inj (tokens_ne_nil container inside) (tokens_ne_nil container member)
    (slash_notMem_tokens _ _ inside) (slash_notMem_tokens _ _ member) same
  exact List.inj_on_of_nodup_map paths inside member tokens

/-- The leaves of an array or an object are its scalars, each once, under distinct pointers that
resolve to them. -/
theorem pointerLeaves_exact (rt : Runtime) {value : Json} (container : isNested value = true)
    (distinct : value.DistinctKeys) :
    ((pointerLeaves value).map Prod.fst).Nodup ∧
      ((pointerLeaves value).map Prod.snd).Perm (scalarsOf value) ∧
      ∀ leaf ∈ pointerLeaves value, resolveJsonPointer rt value leaf.1 = .ok leaf.2 := by
  refine ⟨pointerLeaves_nodup container distinct, ?_, ?_⟩
  · rw [pointerLeaves, List.map_map]
    change ((tokenLeaves value.sorted).map Prod.snd).Perm _
    rw [tokenLeaves_scalars]
    exact scalarsOf_sorted value
  · exact fun leaf inside => resolveJsonPointer_leaf rt container distinct inside

/-- An object with a slash, a tilde, digits and nothing in its keys. -/
def spelledKeys : Json :=
  .object [("a/b", .int 1), ("~1", .array [.null, .str "x"]), ("0", .bool true), ("", .nan)]

theorem spelledKeys_distinct : spelledKeys.DistinctKeys := by
  simp only [spelledKeys, Json.DistinctKeys, Json.membersDistinctKeys, Json.itemsDistinctKeys]
  decide

/-- The leaves of `spelledKeys` are found under their escaped pointers. -/
theorem pointerLeaves_exact_spelled :
    (pointerLeaves spelledKeys).map Prod.fst = ["/", "/0", "/a~1b", "/~01/0", "/~01/1"] ∧
      ((pointerLeaves spelledKeys).map Prod.fst).Nodup ∧
      ((pointerLeaves spelledKeys).map Prod.snd).Perm (scalarsOf spelledKeys) ∧
      ∀ leaf ∈ pointerLeaves spelledKeys,
        resolveJsonPointer streamSampleRuntime spelledKeys leaf.1 = .ok leaf.2 :=
  ⟨by decide +kernel, pointerLeaves_exact streamSampleRuntime rfl spelledKeys_distinct⟩

end ClaimCI
