import ClaimCI.Python.Json
import ClaimCI.Python.Sorting

/-!
# Dictionaries

Dictionaries with string keys, as lists of entries: what a run of assignments leaves.
-/

namespace Python

variable {β : Type}

/-- The keys of a dictionary. -/
abbrev keysOf (dict : List (Str × β)) : List Str := dict.map Prod.fst

theorem lookupKey_cons (key k : Str) (v : β) (rest : List (Str × β)) :
    lookupKey key ((k, v) :: rest) = if k = key then some v else lookupKey key rest := rfl

theorem lookupKey_append (key : Str) (dict others : List (Str × β)) :
    lookupKey key (dict ++ others) = (lookupKey key dict).or (lookupKey key others) := by
  induction dict with
  | nil => simp [lookupKey]
  | cons entry dict ih =>
    rw [List.cons_append, lookupKey_cons, lookupKey_cons, ih]
    split
    · rfl
    · rfl

theorem lookupKey_eq_none_iff {key : Str} {dict : List (Str × β)} :
    lookupKey key dict = none ↔ key ∉ keysOf dict := by
  induction dict with
  | nil => simp [lookupKey]
  | cons entry dict ih =>
    rw [lookupKey_cons, keysOf, List.map_cons, List.mem_cons, not_or, ← keysOf, ← ih]
    split
    next same => simp [same]
    next other => simp [Ne.symm other]

theorem mem_of_lookupKey {key : Str} {v : β} {dict : List (Str × β)}
    (h : lookupKey key dict = some v) : (key, v) ∈ dict := by
  induction dict with
  | nil => cases h
  | cons entry dict ih =>
    rw [lookupKey_cons] at h
    split at h
    next same =>
      obtain rfl := Option.some.inj h
      rw [← same]
      exact List.mem_cons_self
    · exact List.mem_cons_of_mem _ (ih h)

/-- With distinct keys, an entry of the dictionary is what its key is looked up as. -/
theorem lookupKey_eq_some_iff {key : Str} {v : β} {dict : List (Str × β)}
    (distinct : (keysOf dict).Nodup) : lookupKey key dict = some v ↔ (key, v) ∈ dict := by
  refine ⟨mem_of_lookupKey, fun member => ?_⟩
  induction dict with
  | nil => cases member
  | cons entry dict ih =>
    obtain ⟨fresh, distinct⟩ := List.nodup_cons.mp distinct
    rw [lookupKey_cons]
    rcases List.mem_cons.mp member with rfl | member
    · exact if_pos rfl
    · have other : entry.1 ≠ key := by
        rintro rfl
        exact fresh (List.mem_map.mpr ⟨_, member, rfl⟩)
      rw [if_neg other, ih distinct member]

theorem lookupKey_setKey (key other : Str) (value : β) (dict : List (Str × β)) :
    lookupKey other (setKey key value dict) =
      if key = other then some value else lookupKey other dict := by
  induction dict with
  | nil => rfl
  | cons entry dict ih =>
    rw [setKey]
    split
    next same =>
      rw [lookupKey_cons, lookupKey_cons, same]
      split
      · rfl
      · rfl
    next different =>
      rw [lookupKey_cons, lookupKey_cons, ih]
      by_cases here : entry.1 = other
      · rw [if_pos here, if_pos here, if_neg (fun same => different (here.trans same.symm))]
      · rw [if_neg here, if_neg here]

theorem mem_keysOf_setKey {key other : Str} {value : β} {dict : List (Str × β)} :
    other ∈ keysOf (setKey key value dict) ↔ other = key ∨ other ∈ keysOf dict := by
  rw [← not_iff_not, ← lookupKey_eq_none_iff, lookupKey_setKey, not_or, ← lookupKey_eq_none_iff]
  split
  next same => simp [same]
  next different => simp [Ne.symm different]

theorem setKey_nodup (key : Str) (value : β) {dict : List (Str × β)}
    (distinct : (keysOf dict).Nodup) : (keysOf (setKey key value dict)).Nodup := by
  induction dict with
  | nil => simp [setKey]
  | cons entry dict ih =>
    obtain ⟨fresh, rest⟩ := List.nodup_cons.mp distinct
    rw [setKey]
    split
    next same =>
      exact List.nodup_cons.mpr ⟨same ▸ fresh, rest⟩
    next different =>
      refine List.nodup_cons.mpr ⟨?_, ih rest⟩
      rw [mem_keysOf_setKey, not_or]
      exact ⟨different, fresh⟩

/-- `for key, value in assignments: dict[key] = value`. -/
def assignAll (assignments dict : List (Str × β)) : List (Str × β) :=
  assignments.foldl (fun dict entry => setKey entry.1 entry.2 dict) dict

theorem assignAll_cons (entry : Str × β) (assignments dict : List (Str × β)) :
    assignAll (entry :: assignments) dict = assignAll assignments (setKey entry.1 entry.2 dict) :=
  rfl

theorem assignAll_nodup (assignments : List (Str × β)) {dict : List (Str × β)}
    (distinct : (keysOf dict).Nodup) : (keysOf (assignAll assignments dict)).Nodup := by
  induction assignments generalizing dict with
  | nil => exact distinct
  | cons entry assignments ih => exact ih (setKey_nodup entry.1 entry.2 distinct)

/-- The last assignment to a key counts. -/
theorem lookupKey_assignAll (key : Str) (assignments dict : List (Str × β)) :
    lookupKey key (assignAll assignments dict) =
      (lookupKey key assignments.reverse).or (lookupKey key dict) := by
  induction assignments generalizing dict with
  | nil => rfl
  | cons entry assignments ih =>
    rw [assignAll_cons, ih, lookupKey_setKey, List.reverse_cons, lookupKey_append, lookupKey_cons,
      Option.or_assoc]
    congr 1
    split
    · rfl
    · rfl

/-- Two sorted dictionaries are one when every key is looked up as the same in both. -/
theorem sortBy_eq_of_lookup {dict others : List (Str × β)} (distinct : (keysOf dict).Nodup)
    (otherDistinct : (keysOf others).Nodup)
    (same : ∀ key, lookupKey key dict = lookupKey key others) :
    sortBy Prod.fst dict = sortBy Prod.fst others := by
  have perm : dict.Perm others := by
    rw [List.perm_ext_iff_of_nodup distinct.of_map otherDistinct.of_map]
    rintro ⟨key, v⟩
    rw [← lookupKey_eq_some_iff distinct, ← lookupKey_eq_some_iff otherDistinct, same]
  apply sortBy_eq_of_perm _ perm
  rintro ⟨key, v⟩ here ⟨_, w⟩ there rfl
  have found := (lookupKey_eq_some_iff distinct).mpr here
  rw [(lookupKey_eq_some_iff distinct).mpr there] at found
  rw [Option.some.inj found]

theorem lookupKey_sortBy (key : Str) {dict : List (Str × β)} (distinct : (keysOf dict).Nodup) :
    lookupKey key (sortBy Prod.fst dict) = lookupKey key dict := by
  have perm := sortBy_perm_self Prod.fst dict
  have sortedDistinct : (keysOf (sortBy Prod.fst dict)).Nodup :=
    (perm.map Prod.fst).nodup_iff.mpr distinct
  ext v
  rw [lookupKey_eq_some_iff sortedDistinct, lookupKey_eq_some_iff distinct, perm.mem_iff]

end Python
