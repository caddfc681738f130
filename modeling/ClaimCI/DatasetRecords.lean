import ClaimCI.DatasetCheck

/-!
# Dataset records

The records a dataset file holds, as JSON values, and what their hashes say about them: as long as
the digest function does not collide on the encodings at hand, hashes identify records up to the
order of object members.
-/

open Python

namespace ClaimCI

/-- The lines of a text that hold a record. -/
def recordLines (text : Str) : List Str := (split LF text).filter fun line => !isBlank line

/-- The records of a dataset file, in order. -/
def readRecords (rt : Runtime) (path : Str) : Option (List Json) :=
  match rt.readText path with
  | .ok text => (recordLines text).mapM (loads strictLoad)
  | .error _ => none

/-- A record apart from the order of its object members. -/
abbrev recordValue (record : Json) : Json := record.sorted

/-- The canonical encodings of the records of a dataset file. -/
def encodings (rt : Runtime) (path : Str) : List Bytes :=
  ((readRecords rt path).getD []).filterMap canonicalizeSample

/-- The digest function tells the encodings in a list apart. -/
def DigestsDistinct (rt : Runtime) (raws : List Bytes) : Prop :=
  ∀ a ∈ raws, ∀ b ∈ raws, rt.sha256 a = rt.sha256 b → a = b

instance (rt : Runtime) (raws : List Bytes) : Decidable (DigestsDistinct rt raws) :=
  inferInstanceAs (Decidable (∀ a ∈ raws, ∀ b ∈ raws, _))

/-- The dataset file loads, and these are its records. -/
structure DatasetHolds (rt : Runtime) (path : Str) (records : List Json) : Prop where
  loaded : ∃ dataset, loadDataset rt path = .ok dataset
  records : readRecords rt path = some records

/-! ### Loading -/

private theorem loadRecord_ok {rt : Runtime} {path line digest : Str}
    (h : loadRecord rt path line = .ok digest) :
    ∃ record, loads strictLoad line = some record ∧ hashSample rt record = some digest := by
  unfold loadRecord at h
  split at h
  · cases h
  next record found =>
    split at h
    · cases h
    · split at h
      · cases h
      next hashed => exact ⟨record, found, by rw [hashed, Except.ok.inj h]⟩

private theorem loadRecords_ok (rt : Runtime) (path : Str) (lines : List Str) (n : Nat)
    (hashes : List Str) (h : loadRecords rt path n lines = .ok hashes) :
    ∃ records, (lines.filter fun line => !isBlank line).mapM (loads strictLoad) = some records ∧
      records.mapM (hashSample rt) = some hashes := by
  induction lines generalizing n hashes with
  | nil =>
    obtain rfl : [] = hashes := Except.ok.inj h
    exact ⟨[], rfl, rfl⟩
  | cons line lines ih =>
    rw [loadRecords] at h
    split at h
    next blank =>
      obtain ⟨records, parsed, hashed⟩ := ih (n + 1) hashes h
      exact ⟨records, by simpa [blank] using parsed, hashed⟩
    next full =>
      split at h
      · cases h
      next digest loaded =>
        obtain ⟨rest, remaining, h⟩ := bind_ok_iff.mp h
        obtain rfl := Except.ok.inj h
        obtain ⟨record, parsed, hashed⟩ := loadRecord_ok loaded
        obtain ⟨records, parsedRest, hashedRest⟩ := ih (n + 1) rest remaining
        refine ⟨record :: records, ?_, ?_⟩
        · simp [full, parsed, parsedRest]
        · simp [hashed, hashedRest]

/-- A dataset that loads holds records, and its hashes are theirs. -/
theorem loadDataset_ok {rt : Runtime} {path : Str} {dataset : DatasetHashes}
    (h : loadDataset rt path = .ok dataset) : ∃ records, DatasetHolds rt path records ∧
      records.mapM (hashSample rt) = some dataset.hashes ∧ dataset.hashes ≠ [] := by
  have loaded := h
  unfold loadDataset at h
  obtain ⟨text, read, h⟩ := bind_ok_iff.mp h
  obtain ⟨hashes, lines, h⟩ := bind_ok_iff.mp h
  have source : rt.readText path = .ok text := by
    unfold readDataset at read
    split at read
    next found => rw [found, Except.ok.inj read]
    · cases read
    · cases read
    · cases read
  split at h
  · cases h
  next nonempty =>
    split at h
    · cases h
    · obtain rfl := Except.ok.inj h
      obtain ⟨records, parsed, hashed⟩ := loadRecords_ok rt path _ 1 hashes lines
      exact ⟨records, ⟨⟨_, loaded⟩, by rw [readRecords, source]; exact parsed⟩, hashed, nonempty⟩

/-! ### Identity of records -/

theorem canonicalStyle_spaced : canonicalStyle.Spaced := ⟨by simp [canonicalStyle],
  by simp [canonicalStyle]⟩

/-- Equal canonical bytes come from records that differ in the order of members at most. -/
theorem canonicalizeSample_injective {v w : Json} (hv : v.DistinctKeys) (hw : w.DistinctKeys)
    {raw : Bytes} (ev : canonicalizeSample v = some raw) (ew : canonicalizeSample w = some raw) :
    recordValue v = recordValue w := by
  obtain ⟨s, dumpedV, encodedV⟩ := Option.bind_eq_some_iff.mp ev
  obtain ⟨t, dumpedW, encodedW⟩ := Option.bind_eq_some_iff.mp ew
  obtain rfl := encodeUtf8_injective encodedV encodedW
  exact dumps_injective canonicalStyle canonicalStyle_spaced rfl rfl v w hv hw s dumpedV dumpedW

/-- The canonical bytes do not depend on the order of members. -/
theorem canonicalizeSample_congr {v w : Json} (h : recordValue v = recordValue w) :
    canonicalizeSample v = canonicalizeSample w := by
  have dumpable : v.dumpable = w.dumpable := by
    rw [← v.sorted_dumpable, ← w.sorted_dumpable]
    exact congrArg Json.dumpable h
  have text : dumps canonicalStyle v = dumps canonicalStyle w := by
    simp only [dumps, dumpable, canonicalStyle, if_true]
    rw [show v.sorted = w.sorted from h]
  rw [canonicalizeSample, canonicalizeSample, text]

/-- Records that were read and hashed, from files whose encodings have distinct digests. -/
structure HashedRecords (rt : Runtime) (raws : List Bytes) (records : List Json)
    (hashes : List Str) : Prop where
  distinctKeys : ∀ record ∈ records, record.DistinctKeys
  encoded : ∀ record ∈ records, ∃ raw ∈ raws, canonicalizeSample record = some raw
  hashes : hashes = records.map fun record => (hashSample rt record).getD []

theorem mapM_some_eq_map {α β : Type} (f : α → Option β) (default : β) (l : List α) (m : List β)
    (h : l.mapM f = some m) : m = l.map (fun a => (f a).getD default) ∧
      ∀ a ∈ l, ∃ b ∈ m, f a = some b := by
  induction l generalizing m with
  | nil =>
    obtain rfl : [] = m := Option.some.inj h
    exact ⟨rfl, by simp⟩
  | cons a l ih =>
    simp only [List.mapM_cons, Option.bind_eq_bind, Option.bind_eq_some_iff, Option.pure_def,
      Option.some.injEq] at h
    obtain ⟨b, hb, rest, hrest, rfl⟩ := h
    obtain ⟨mapped, members⟩ := ih rest hrest
    refine ⟨by simp [hb, ← mapped], ?_⟩
    intro c hc
    rcases List.mem_cons.mp hc with rfl | hc
    · exact ⟨b, by simp, hb⟩
    · obtain ⟨d, hd, found⟩ := members c hc
      exact ⟨d, by simp [hd], found⟩

private theorem readRecords_distinctKeys {rt : Runtime} {path : Str} {records : List Json}
    (h : readRecords rt path = some records) : ∀ record ∈ records, record.DistinctKeys := by
  unfold readRecords at h
  split at h
  next text _ =>
    have parsed : ∀ (lines : List Str) (found : List Json),
        lines.mapM (loads strictLoad) = some found → ∀ r ∈ found, r.DistinctKeys := by
      intro lines
      induction lines with
      | nil =>
        intro found h
        obtain rfl : [] = found := Option.some.inj h
        simp
      | cons line lines ih =>
        intro found h
        simp only [List.mapM_cons, Option.bind_eq_bind, Option.bind_eq_some_iff, Option.pure_def,
          Option.some.injEq] at h
        obtain ⟨record, loaded, rest, hrest, rfl⟩ := h
        intro r hr
        rcases List.mem_cons.mp hr with rfl | hr
        · exact loads_distinctKeys strictLoad rfl line r loaded
        · exact ih rest hrest r hr
    exact parsed _ records h
  · cases h

/-- The records of a loaded dataset, with its hashes. -/
theorem hashedRecords_of_loaded {rt : Runtime} {path : Str} {records : List Json}
    {hashes : List Str} {raws : List Bytes} (read : readRecords rt path = some records)
    (hashed : records.mapM (hashSample rt) = some hashes)
    (sub : ∀ raw ∈ encodings rt path, raw ∈ raws) : HashedRecords rt raws records hashes := by
  obtain ⟨mapped, members⟩ := mapM_some_eq_map (hashSample rt) [] records hashes hashed
  refine ⟨readRecords_distinctKeys read, ?_, mapped⟩
  intro record hr
  obtain ⟨_, _, found⟩ := members record hr
  obtain ⟨raw, encoded, _⟩ := Option.map_eq_some_iff.mp found
  refine ⟨raw, sub raw ?_, encoded⟩
  simp only [encodings, read, Option.getD_some, List.mem_filterMap]
  exact ⟨record, hr, encoded⟩

/-- Two hashed records have one hash exactly when they are one record value. -/
theorem HashedRecords.hash_eq_iff {rt : Runtime} {raws : List Bytes} (distinct : DigestsDistinct rt raws)
    {rs ss : List Json} {hs gs : List Str} (hr : HashedRecords rt raws rs hs)
    (hg : HashedRecords rt raws ss gs) {v w : Json} (hv : v ∈ rs) (hw : w ∈ ss) :
    (hashSample rt v).getD [] = (hashSample rt w).getD [] ↔ recordValue v = recordValue w := by
  obtain ⟨a, ha, ea⟩ := hr.encoded v hv
  obtain ⟨b, hb, eb⟩ := hg.encoded w hw
  simp only [hashSample, ea, eb, Option.map_some, Option.getD_some]
  constructor
  · intro same
    have raw := distinct a ha b hb same
    exact canonicalizeSample_injective (hr.distinctKeys v hv) (hg.distinctKeys w hw) ea (raw ▸ eb)
  · intro same
    have raw : some a = some b := by rw [← ea, ← eb, canonicalizeSample_congr same]
    rw [Option.some.inj raw]

/-- No hash is shared exactly when no record value is. -/
theorem HashedRecords.disjoint_iff {rt : Runtime} {raws : List Bytes}
    (distinct : DigestsDistinct rt raws) {rs ss : List Json} {hs gs : List Str}
    (hr : HashedRecords rt raws rs hs) (hg : HashedRecords rt raws ss gs) :
    (∀ h ∈ hs, h ∉ gs) ↔ ∀ v ∈ rs, ∀ w ∈ ss, recordValue v ≠ recordValue w := by
  rw [hr.hashes, hg.hashes]
  simp only [List.mem_map, forall_exists_index, and_imp, forall_apply_eq_imp_iff₂, not_exists,
    not_and]
  constructor
  · intro h v hv w hw same
    exact h v hv w hw ((hr.hash_eq_iff distinct hg hv hw).mpr same).symm
  · intro h v hv w hw same
    exact h v hv w hw ((hr.hash_eq_iff distinct hg hv hw).mp same.symm)

/-- The two lists are equal as multisets of record values. -/
def SameRecords (left right : List Json) : Prop :=
  (left.map recordValue).Perm (right.map recordValue)

/-- Hash multisets agree exactly when record multisets do. -/
theorem HashedRecords.perm_iff {rt : Runtime} {raws : List Bytes}
    (distinct : DigestsDistinct rt raws) {rs ss : List Json} {hs gs : List Str}
    (hr : HashedRecords rt raws rs hs) (hg : HashedRecords rt raws ss gs) :
    hs.Perm gs ↔ SameRecords rs ss := by
  classical
  have both : HashedRecords rt raws (rs ++ ss) (hs ++ gs) := by
    refine ⟨?_, ?_, ?_⟩
    · intro v hv
      rcases List.mem_append.mp hv with hv | hv
      · exact hr.distinctKeys v hv
      · exact hg.distinctKeys v hv
    · intro v hv
      rcases List.mem_append.mp hv with hv | hv
      · exact hr.encoded v hv
      · exact hg.encoded v hv
    · rw [List.map_append, ← hr.hashes, ← hg.hashes]
  rw [hr.hashes, hg.hashes]
  exact perm_map_iff _ _ rs ss fun v hv w hw => both.hash_eq_iff distinct both hv hw

/-- Equal multisets of record values have equal multisets of hashes, whatever the digests. -/
theorem SameRecords.hashes (rt : Runtime) {rs ss : List Json} (same : SameRecords rs ss) :
    (rs.map fun record => (hashSample rt record).getD []).Perm
      (ss.map fun record => (hashSample rt record).getD []) := by
  -- the hash of a record is that of any record with the same value
  have factors : (fun record => (hashSample rt record).getD []) =
      (fun value => (hashSample rt (Function.invFun recordValue value)).getD []) ∘ recordValue := by
    funext record
    have value : recordValue (Function.invFun recordValue (recordValue record)) =
        recordValue record := Function.invFun_eq ⟨record, rfl⟩
    simp only [Function.comp, hashSample, canonicalizeSample_congr value]
  rw [factors, ← List.map_map, ← List.map_map]
  exact same.map _

end ClaimCI
