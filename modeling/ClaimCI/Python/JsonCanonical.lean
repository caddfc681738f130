import ClaimCI.Python.JsonRoundTrip

/-!
# Canonical encodings

Sorting the members of every object gives a normal form of JSON values. The encoding with sorted
keys determines that normal form, so it identifies a value exactly.
-/

namespace Python

mutual

/-- No object in the value repeats a key. -/
def Json.DistinctKeys : Json → Prop
  | .array items => itemsDistinctKeys items
  | .object members => (members.map Prod.fst).Nodup ∧ membersDistinctKeys members
  | _ => True

def Json.itemsDistinctKeys : List Json → Prop
  | [] => True
  | item :: rest => item.DistinctKeys ∧ itemsDistinctKeys rest

def Json.membersDistinctKeys : Members → Prop
  | [] => True
  | (_, value) :: rest => value.DistinctKeys ∧ membersDistinctKeys rest

end

theorem Json.membersDistinctKeys_iff (members : Members) :
    membersDistinctKeys members ↔ ∀ m ∈ members, m.2.DistinctKeys := by
  induction members with
  | nil => simp [membersDistinctKeys]
  | cons member members ih => obtain ⟨key, value⟩ := member; simp [membersDistinctKeys, ih]

theorem Json.membersDumpable_iff (members : Members) :
    membersDumpable members = true ↔ ∀ m ∈ members, m.2.dumpable = true := by
  induction members with
  | nil => simp [membersDumpable]
  | cons member members ih => obtain ⟨key, value⟩ := member; simp [membersDumpable, ih]

private theorem sortedMembers_keys (members : Members) :
    (Json.sortedMembers members).map Prod.fst = members.map Prod.fst := by
  induction members with
  | nil => rfl
  | cons member members ih => obtain ⟨key, value⟩ := member; simp [Json.sortedMembers, ih]

mutual

theorem Json.sorted_distinctKeys : ∀ v : Json, v.DistinctKeys → v.sorted.DistinctKeys
  | .array items, h => by
    simp only [Json.DistinctKeys] at h
    simpa only [Json.sorted, Json.DistinctKeys] using sortedItems_distinctKeys items h
  | .object members, h => by
    simp only [Json.DistinctKeys] at h
    have perm := List.perm_insertionSort (fun a b : Str × Json => strLe a.1 b.1 = true)
      (Json.sortedMembers members)
    have inner := sortedMembers_distinctKeys members h.2
    rw [Json.membersDistinctKeys_iff] at inner
    simp only [Json.sorted, Json.DistinctKeys, Json.membersDistinctKeys_iff]
    refine ⟨?_, fun m hm => inner m (perm.mem_iff.mp hm)⟩
    rw [(perm.map Prod.fst).nodup_iff, sortedMembers_keys]
    exact h.1
  | .null, _ | .bool _, _ | .int _, _ | .float _, _ | .infinity _, _ | .nan, _ | .str _, _ => by
    simp only [Json.sorted, Json.DistinctKeys]

private theorem sortedItems_distinctKeys : ∀ items : List Json,
    Json.itemsDistinctKeys items → Json.itemsDistinctKeys (Json.sortedItems items)
  | [], _ => by simp only [Json.sortedItems, Json.itemsDistinctKeys]
  | item :: items, h => by
    simp only [Json.itemsDistinctKeys] at h
    simp only [Json.sortedItems, Json.itemsDistinctKeys]
    exact ⟨item.sorted_distinctKeys h.1, sortedItems_distinctKeys items h.2⟩

private theorem sortedMembers_distinctKeys : ∀ members : Members,
    Json.membersDistinctKeys members → Json.membersDistinctKeys (Json.sortedMembers members)
  | [], _ => by simp only [Json.sortedMembers, Json.membersDistinctKeys]
  | (key, value) :: members, h => by
    simp only [Json.membersDistinctKeys] at h
    simp only [Json.sortedMembers, Json.membersDistinctKeys]
    exact ⟨value.sorted_distinctKeys h.1, sortedMembers_distinctKeys members h.2⟩

end

mutual

theorem Json.sorted_dumpable : ∀ v : Json, v.sorted.dumpable = v.dumpable
  | .array items => by simp only [Json.sorted, Json.dumpable, sortedItems_dumpable items]
  | .object members => by
    have perm := List.perm_insertionSort (fun a b : Str × Json => strLe a.1 b.1 = true)
      (Json.sortedMembers members)
    have inner := sortedMembers_dumpable members
    rw [Bool.eq_iff_iff] at inner ⊢
    simp only [Json.sorted, Json.dumpable, Json.membersDumpable_iff] at inner ⊢
    rw [← inner]
    exact ⟨fun h m hm => h m (perm.mem_iff.mpr hm), fun h m hm => h m (perm.mem_iff.mp hm)⟩
  | .null | .bool _ | .int _ | .float _ | .infinity _ | .nan | .str _ => by simp only [Json.sorted]

private theorem sortedItems_dumpable : ∀ items : List Json,
    Json.itemsDumpable (Json.sortedItems items) = Json.itemsDumpable items
  | [] => by simp only [Json.sortedItems]
  | item :: items => by
    simp only [Json.sortedItems, Json.itemsDumpable, item.sorted_dumpable,
      sortedItems_dumpable items]

private theorem sortedMembers_dumpable : ∀ members : Members,
    Json.membersDumpable (Json.sortedMembers members) = Json.membersDumpable members
  | [] => by simp only [Json.sortedMembers]
  | (key, value) :: members => by
    simp only [Json.sortedMembers, Json.membersDumpable, value.sorted_dumpable,
      sortedMembers_dumpable members]

end

/-! ### Strings an encoder keeps -/

mutual

/-- Every string in the value is read back as it was written. -/
def Json.Kept (ensureAscii : Bool) : Json → Prop
  | .str s => rereadStr ensureAscii s = s
  | .array items => itemsKept ensureAscii items
  | .object members => membersKept ensureAscii members
  | _ => True

def Json.itemsKept (ensureAscii : Bool) : List Json → Prop
  | [] => True
  | item :: rest => item.Kept ensureAscii ∧ itemsKept ensureAscii rest

def Json.membersKept (ensureAscii : Bool) : Members → Prop
  | [] => True
  | (key, value) :: rest =>
    rereadStr ensureAscii key = key ∧ value.Kept ensureAscii ∧ membersKept ensureAscii rest

end

theorem Json.itemsKept_iff (ensureAscii : Bool) (items : List Json) :
    itemsKept ensureAscii items ↔ ∀ item ∈ items, item.Kept ensureAscii := by
  induction items with
  | nil => simp [itemsKept]
  | cons item items ih => simp [itemsKept, ih]

theorem Json.membersKept_iff (ensureAscii : Bool) (members : Members) :
    membersKept ensureAscii members ↔
      ∀ m ∈ members, rereadStr ensureAscii m.1 = m.1 ∧ m.2.Kept ensureAscii := by
  induction members with
  | nil => simp [membersKept]
  | cons member members ih => obtain ⟨key, value⟩ := member; simp [membersKept, ih, and_assoc]

/-- Text without surrogates is read back as it was written. -/
theorem rereadStr_of_small (ensureAscii : Bool) (s : Str) (small : ∀ c ∈ s, c.val < 0xD800) :
    rereadStr ensureAscii s = s := by
  unfold rereadStr
  split
  · induction s using joinSurrogates.induct with
    | case1 => rfl
    | case2 c => rfl
    | case3 a b rest pair ih =>
      have high := small a List.mem_cons_self
      simp only [isHighSurrogate, Bool.and_eq_true, decide_eq_true_eq] at pair
      omega
    | case4 a b rest other ih =>
      rw [joinSurrogates, if_neg other, ih fun c hc => small c (List.mem_cons_of_mem a hc)]
  · rfl

mutual

/-- Every string is kept by an encoder that leaves non-ASCII characters alone. -/
theorem Json.kept_raw : ∀ v : Json, v.Kept false
  | .array items => by simpa only [Json.Kept] using itemsKept_raw items
  | .object members => by simpa only [Json.Kept] using membersKept_raw members
  | .null | .bool _ | .int _ | .float _ | .infinity _ | .nan | .str _ => by
    simp [Json.Kept, rereadStr]

private theorem itemsKept_raw : ∀ items : List Json, Json.itemsKept false items
  | [] => by simp only [Json.itemsKept]
  | item :: items => by
    simp only [Json.itemsKept]
    exact ⟨item.kept_raw, itemsKept_raw items⟩

private theorem membersKept_raw : ∀ members : Members, Json.membersKept false members
  | [] => by simp only [Json.membersKept]
  | (key, value) :: members => by
    simp only [Json.membersKept]
    exact ⟨by simp [rereadStr], value.kept_raw, membersKept_raw members⟩

end

mutual

theorem Json.sorted_kept (ensureAscii : Bool) :
    ∀ v : Json, v.Kept ensureAscii → v.sorted.Kept ensureAscii
  | .array items, h => by
    simp only [Json.Kept] at h
    simpa only [Json.sorted, Json.Kept] using sortedItems_kept ensureAscii items h
  | .object members, h => by
    simp only [Json.Kept] at h
    have perm := List.perm_insertionSort (fun a b : Str × Json => strLe a.1 b.1 = true)
      (Json.sortedMembers members)
    have inner := sortedMembers_kept ensureAscii members h
    rw [Json.membersKept_iff] at inner
    simp only [Json.sorted, Json.Kept, Json.membersKept_iff]
    exact fun m hm => inner m (perm.mem_iff.mp hm)
  | .null, _ | .bool _, _ | .int _, _ | .float _, _ | .infinity _, _ | .nan, _ | .str _, _ => by
    simpa only [Json.sorted]

private theorem sortedItems_kept (ensureAscii : Bool) : ∀ items : List Json,
    Json.itemsKept ensureAscii items → Json.itemsKept ensureAscii (Json.sortedItems items)
  | [], _ => by simp only [Json.sortedItems, Json.itemsKept]
  | item :: items, h => by
    simp only [Json.itemsKept] at h
    simp only [Json.sortedItems, Json.itemsKept]
    exact ⟨item.sorted_kept ensureAscii h.1, sortedItems_kept ensureAscii items h.2⟩

private theorem sortedMembers_kept (ensureAscii : Bool) : ∀ members : Members,
    Json.membersKept ensureAscii members →
      Json.membersKept ensureAscii (Json.sortedMembers members)
  | [], _ => by simp only [Json.sortedMembers, Json.membersKept]
  | (key, value) :: members, h => by
    simp only [Json.membersKept] at h
    simp only [Json.sortedMembers, Json.membersKept]
    exact ⟨h.1, value.sorted_kept ensureAscii h.2.1, sortedMembers_kept ensureAscii members h.2.2⟩

end

mutual

/-- With every string kept and no repeated keys, nothing is lost in the text. -/
theorem Json.reread_of_kept (constants ensureAscii : Bool) : ∀ v : Json, v.DistinctKeys →
    v.Kept ensureAscii → v.reread ⟨constants, true⟩ ensureAscii = some v
  | .array items, h, kept => by
    simp only [Json.DistinctKeys] at h
    simp only [Json.Kept] at kept
    rw [Json.reread, rereadItems_of_kept constants ensureAscii items h kept]
    rfl
  | .object members, h, kept => by
    simp only [Json.DistinctKeys] at h
    simp only [Json.Kept] at kept
    rw [Json.reread, rereadMembers_of_kept constants ensureAscii members h.2 kept]
    simp only [buildObject, if_true, if_pos h.1]
  | .str s, _, kept => by
    simp only [Json.Kept] at kept
    rw [Json.reread, kept]
  | .null, _, _ | .bool _, _, _ | .int _, _, _ | .float _, _, _ | .infinity _, _, _
  | .nan, _, _ => by simp [Json.reread]

private theorem rereadItems_of_kept (constants ensureAscii : Bool) : ∀ items : List Json,
    Json.itemsDistinctKeys items → Json.itemsKept ensureAscii items →
      Json.rereadItems ⟨constants, true⟩ ensureAscii items = some items
  | [], _, _ => by rw [Json.rereadItems]
  | item :: items, h, kept => by
    simp only [Json.itemsDistinctKeys] at h
    simp only [Json.itemsKept] at kept
    simp only [Json.rereadItems, item.reread_of_kept constants ensureAscii h.1 kept.1,
      rereadItems_of_kept constants ensureAscii items h.2 kept.2, Option.map_some]

private theorem rereadMembers_of_kept (constants ensureAscii : Bool) : ∀ members : Members,
    Json.membersDistinctKeys members → Json.membersKept ensureAscii members →
      Json.rereadMembers ⟨constants, true⟩ ensureAscii members = some members
  | [], _, _ => by rw [Json.rereadMembers]
  | (key, value) :: members, h, kept => by
    simp only [Json.membersDistinctKeys] at h
    simp only [Json.membersKept] at kept
    simp only [Json.rereadMembers, value.reread_of_kept constants ensureAscii h.1 kept.2.1,
      rereadMembers_of_kept constants ensureAscii members h.2 kept.2.2, Option.map_some, kept.1]

end

/-- The encoding of a value with sorted keys, whose strings it keeps, determines the value up to the
order of members. -/
theorem dumps_injective_of_kept (style : DumpStyle) (spaced : style.Spaced)
    (sorts : style.sortKeys = true) (v w : Json) (hv : v.DistinctKeys) (hw : w.DistinctKeys)
    (kv : v.Kept style.ensureAscii) (kw : w.Kept style.ensureAscii) (text : Str)
    (ev : dumps style v = some text) (ew : dumps style w = some text) : v.sorted = w.sorted := by
  have read : ∀ u : Json, u.DistinctKeys → u.Kept style.ensureAscii →
      dumps style u = some text → loads ⟨true, true⟩ text = some u.sorted := by
    intro u distinct kept encoded
    unfold dumps at encoded
    rw [if_pos sorts] at encoded
    split at encoded
    next fits =>
      rw [← Option.some.inj encoded, loads_render _ style spaced _ (by rw [u.sorted_dumpable, fits]),
        Json.reread_of_kept true _ _ (u.sorted_distinctKeys distinct)
          (u.sorted_kept style.ensureAscii kept)]
    · cases encoded
  exact Option.some.inj ((read v hv kv ev).symm.trans (read w hw kw ew))

/-- The encoding of a value with sorted keys determines the value up to the order of members. -/
theorem dumps_injective (style : DumpStyle) (spaced : style.Spaced)
    (raw : style.ensureAscii = false) (sorts : style.sortKeys = true) (v w : Json)
    (hv : v.DistinctKeys) (hw : w.DistinctKeys) (text : Str)
    (ev : dumps style v = some text) (ew : dumps style w = some text) : v.sorted = w.sorted :=
  dumps_injective_of_kept style spaced sorts v w hv hw (raw ▸ v.kept_raw) (raw ▸ w.kept_raw) text
    ev ew

/-! ### What the decoder builds -/

private theorem buildObject_distinctKeys (options : LoadOptions)
    (strict : options.rejectDuplicates = true) (pairs : Members) (v : Json)
    (inner : Json.membersDistinctKeys pairs) (h : buildObject options pairs = some v) :
    v.DistinctKeys := by
  rw [buildObject, if_pos strict] at h
  split at h
  next nodup =>
    rw [← Option.some.inj h, Json.DistinctKeys]
    exact ⟨nodup, inner⟩
  · cases h

private theorem scanWord_distinctKeys (options : LoadOptions) (s rest : Str) (v : Json)
    (h : scanWord options s = some (v, rest)) : v.DistinctKeys := by
  -- a word has no members
  have number : ∀ v rest, scanNumber s = some (v, rest) → v.DistinctKeys := by
    intro v rest h
    unfold scanNumber at h
    split at h
    · cases h
    next n _ _ =>
      unfold Numeral.toJson at h
      split at h
      · split at h
        · cases h
        · cases h; simp only [Json.DistinctKeys]
      · split at h
        · cases h; simp only [Json.DistinctKeys]
        · cases h; simp only [Json.DistinctKeys]
  have constant : ∀ (value : Json) (r : Str), value.DistinctKeys →
      parseConstant options value r = some (v, rest) → v.DistinctKeys := by
    intro value r distinct h
    unfold parseConstant at h
    split at h
    · cases h
    · cases h; exact distinct
  unfold scanWord at h
  split at h
  · cases h; simp only [Json.DistinctKeys]
  split at h
  · cases h; simp only [Json.DistinctKeys]
  split at h
  · cases h; simp only [Json.DistinctKeys]
  split at h
  · exact constant _ _ (by simp only [Json.DistinctKeys]) h
  split at h
  · exact constant _ _ (by simp only [Json.DistinctKeys]) h
  split at h
  · exact constant _ _ (by simp only [Json.DistinctKeys]) h
  · exact number v rest h

private theorem scan_distinctKeys (options : LoadOptions)
    (strict : options.rejectDuplicates = true) (fuel : Nat) :
    (∀ s v rest, scanValue options fuel s = some (v, rest) → v.DistinctKeys) ∧
    (∀ s items rest, scanItems options fuel s = some (items, rest) →
      Json.itemsDistinctKeys items) ∧
    (∀ s members rest, scanMembers options fuel s = some (members, rest) →
      Json.membersDistinctKeys members) := by
  induction fuel with
  | zero => simp [scanValue, scanItems, scanMembers]
  | succ fuel ih =>
    obtain ⟨values, items, members⟩ := ih
    -- values, items and members; only an object is checked
    refine ⟨?_, ?_, ?_⟩
    · intro s v rest h
      cases s with
      | nil => simp [scanValue] at h
      | cons c s =>
        rw [scanValue] at h
        split at h
        · obtain ⟨r, _, h⟩ := Option.map_eq_some_iff.mp h
          cases h
          simp only [Json.DistinctKeys]
        split at h
        · split at h
          · cases h
          split at h
          · obtain ⟨w, built, h⟩ := Option.map_eq_some_iff.mp h
            cases h
            exact buildObject_distinctKeys options strict [] _ (by
              simp only [Json.membersDistinctKeys]) built
          · split at h
            · cases h
            next scanned =>
              obtain ⟨w, built, h⟩ := Option.map_eq_some_iff.mp h
              cases h
              exact buildObject_distinctKeys options strict _ _ (members _ _ _ scanned) built
        split at h
        · split at h
          · cases h
          split at h
          · cases h
            simp only [Json.DistinctKeys, Json.itemsDistinctKeys]
          · obtain ⟨r, scanned, h⟩ := Option.map_eq_some_iff.mp h
            cases h
            simp only [Json.DistinctKeys]
            exact items _ _ _ scanned
        · exact scanWord_distinctKeys options _ _ _ h
    · intro s found rest h
      rw [scanItems] at h
      split at h
      · cases h
      next scanned =>
        split at h
        · cases h
        split at h
        · cases h
          simp only [Json.itemsDistinctKeys, and_true]
          exact values _ _ _ scanned
        split at h
        · obtain ⟨r, remaining, h⟩ := Option.map_eq_some_iff.mp h
          cases h
          simp only [Json.itemsDistinctKeys]
          exact ⟨values _ _ _ scanned, items _ _ _ remaining⟩
        · cases h
    · intro s found rest h
      cases s with
      | nil => simp [scanMembers] at h
      | cons c s =>
        rw [scanMembers] at h
        split at h
        · cases h
        split at h
        · cases h
        split at h
        · cases h
        split at h
        · cases h
        split at h
        · cases h
        next scanned =>
          split at h
          · cases h
          split at h
          · cases h
            simp only [Json.membersDistinctKeys, and_true]
            exact values _ _ _ scanned
          split at h
          · obtain ⟨r, remaining, h⟩ := Option.map_eq_some_iff.mp h
            cases h
            simp only [Json.membersDistinctKeys]
            exact ⟨values _ _ _ scanned, members _ _ _ remaining⟩
          · cases h

/-- A decoder that rejects repeated keys builds values without them. -/
theorem loads_distinctKeys (options : LoadOptions) (strict : options.rejectDuplicates = true)
    (s : Str) (v : Json) (h : loads options s = some v) : v.DistinctKeys := by
  unfold loads at h
  split at h
  · cases h
  split at h
  · cases h
  next scanned =>
    split at h
    · cases h
      exact (scan_distinctKeys options strict _).1 _ _ _ scanned
    · cases h

end Python
