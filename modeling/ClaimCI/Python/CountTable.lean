import ClaimCI.Python.Counter

/-!
# Count tables

A database table that counts items by partition: one row for a partition and an item, with a
positive multiplicity. A partition of the table holds a list when it counts what the list counts;
the queries over partitions are then the counter operations on the lists.
-/

namespace Python

structure CountRow (κ α : Type) where
  partition : κ
  item : α
  multiplicity : Nat
  deriving DecidableEq

variable {κ α : Type} [DecidableEq κ] [DecidableEq α]

/-- The primary key. -/
def CountRow.key (row : CountRow κ α) : κ × α := (row.partition, row.item)

structure CountTable (κ α : Type) [DecidableEq κ] [DecidableEq α] where
  rows : List (CountRow κ α)
  primaryKey : (rows.map CountRow.key).Nodup
  positive : ∀ row ∈ rows, 0 < row.multiplicity

namespace CountTable

omit [DecidableEq κ] [DecidableEq α] in
theorem key_eq_iff (row : CountRow κ α) (k : κ) (a : α) :
    row.key = (k, a) ↔ row.partition = k ∧ row.item = a := by
  simp [CountRow.key]

def empty : CountTable κ α := ⟨[], by simp, by simp⟩

/-! ### Statements -/

/-- `INSERT ... ON CONFLICT DO UPDATE SET multiplicity = multiplicity + excluded.multiplicity`. -/
def upsertRows (k : κ) (a : α) (n : Nat) : List (CountRow κ α) → List (CountRow κ α)
  | [] => [⟨k, a, n⟩]
  | row :: rows =>
    if row.key = (k, a) then { row with multiplicity := row.multiplicity + n } :: rows
    else row :: upsertRows k a n rows

theorem mem_keys_upsertRows (k : κ) (a : α) (n : Nat) (rows : List (CountRow κ α)) (key : κ × α)
    (h : key ∈ (upsertRows k a n rows).map CountRow.key) :
    key = (k, a) ∨ key ∈ rows.map CountRow.key := by
  induction rows with
  | nil => simpa [upsertRows, CountRow.key] using h
  | cons row rows ih =>
    rw [upsertRows] at h
    split at h
    next same =>
      rcases List.mem_cons.mp h with rfl | rest
      · exact .inr (by simp [CountRow.key])
      · exact .inr (List.mem_cons_of_mem _ rest)
    next other =>
      rcases List.mem_cons.mp h with rfl | rest
      · exact .inr (by simp)
      · exact (ih rest).imp_right (List.mem_cons_of_mem _)

theorem upsertRows_nodup (k : κ) (a : α) (n : Nat) (rows : List (CountRow κ α))
    (h : (rows.map CountRow.key).Nodup) : ((upsertRows k a n rows).map CountRow.key).Nodup := by
  induction rows with
  | nil => simp [upsertRows]
  | cons row rows ih =>
    obtain ⟨fresh, rest⟩ := List.nodup_cons.mp h
    rw [upsertRows]
    split
    next same => exact h
    next other =>
      refine List.nodup_cons.mpr ⟨?_, ih rest⟩
      intro member
      exact (mem_keys_upsertRows k a n rows _ member).elim other fresh

theorem upsertRows_positive (k : κ) (a : α) {n : Nat} (hn : 0 < n) (rows : List (CountRow κ α))
    (h : ∀ row ∈ rows, 0 < row.multiplicity) :
    ∀ row ∈ upsertRows k a n rows, 0 < row.multiplicity := by
  induction rows with
  | nil => simpa [upsertRows] using hn
  | cons row rows ih =>
    obtain ⟨first, rest⟩ := List.forall_mem_cons.mp h
    rw [upsertRows]
    split
    · exact List.forall_mem_cons.mpr ⟨by simp only; omega, rest⟩
    · exact List.forall_mem_cons.mpr ⟨first, ih rest⟩

/-- One upsert statement; the counts of a list are never zero. -/
def upsert (table : CountTable κ α) (k : κ) (a : α) (n : Nat) : CountTable κ α :=
  if hn : 0 < n then
    { rows := upsertRows k a n table.rows
      primaryKey := upsertRows_nodup k a n table.rows table.primaryKey
      positive := upsertRows_positive k a hn table.rows table.positive }
  else table

/-- `executemany` of the upsert statement. -/
def upsertAll (table : CountTable κ α) (k : κ) (counts : List (α × Nat)) : CountTable κ α :=
  counts.foldl (fun table pair => table.upsert k pair.1 pair.2) table

/-- `DELETE ... WHERE partition = k`. -/
def deletePartition (table : CountTable κ α) (k : κ) : CountTable κ α where
  rows := table.rows.filter fun row => row.partition ≠ k
  primaryKey := table.primaryKey.sublist (List.filter_sublist.map _)
  positive row h := table.positive row (List.mem_of_mem_filter h)

/-! ### Queries -/

/-- The rows of a partition. -/
def partition (table : CountTable κ α) (k : κ) : List (CountRow κ α) :=
  table.rows.filter fun row => row.partition = k

/-- The multiplicity stored for an item, or zero: `COALESCE(multiplicity, 0)`. -/
def multiplicity (table : CountTable κ α) (k : κ) (a : α) : Nat :=
  ((table.rows.find? fun row => row.key = (k, a)).map CountRow.multiplicity).getD 0

/-- `SELECT SUM(multiplicity) ... WHERE partition = k`. -/
def total (table : CountTable κ α) (k : κ) : Nat :=
  ((table.partition k).map CountRow.multiplicity).sum

/-- The join of two partitions on their items. -/
def join (table : CountTable κ α) (k l : κ) : List (CountRow κ α × CountRow κ α) :=
  (table.partition k).flatMap fun left =>
    ((table.partition l).filter fun right => right.item = left.item).map fun right => (left, right)

/-- The sum of the smaller multiplicities over a join. -/
def overlap (table : CountTable κ α) (k l : κ) : Nat :=
  ((table.join k l).map fun pair => min pair.1.multiplicity pair.2.multiplicity).sum

/-- The rows of one partition with what they count beyond the other partition. -/
def excess (table : CountTable κ α) (k l : κ) : List (α × Nat) :=
  (table.partition k).map fun row => (row.item, row.multiplicity - table.multiplicity l row.item)

/-! ### What a partition holds -/

/-- The partition counts what the list counts. -/
def Holds (table : CountTable κ α) (k : κ) (items : List α) : Prop :=
  ∀ a, table.multiplicity k a = items.count a

theorem multiplicity_eq_of_mem (table : CountTable κ α) {row : CountRow κ α}
    (h : row ∈ table.rows) : table.multiplicity row.partition row.item = row.multiplicity := by
  have found : table.rows.find? (fun r => r.key = (row.partition, row.item)) = some row := by
    have unique := table.primaryKey
    revert unique h
    induction table.rows with
    | nil => intro h; cases h
    | cons first rows ih =>
      intro h unique
      obtain ⟨fresh, rest⟩ := List.nodup_cons.mp unique
      rw [List.find?_cons]
      rcases List.mem_cons.mp h with rfl | member
      · simp [CountRow.key]
      · have other : first.key ≠ (row.partition, row.item) := by
          intro same
          exact fresh (same ▸ List.mem_map_of_mem member)
        simpa [other] using ih member rest
  rw [multiplicity, found]
  rfl

theorem multiplicity_pos_iff (table : CountTable κ α) (k : κ) (a : α) :
    0 < table.multiplicity k a ↔ a ∈ (table.partition k).map CountRow.item := by
  constructor
  · intro h
    unfold multiplicity at h
    cases found : table.rows.find? (fun row => row.key = (k, a)) with
    | none => rw [found] at h; cases h
    | some row =>
      have key : row.key = (k, a) := by simpa using List.find?_some found
      obtain ⟨rfl, rfl⟩ := (key_eq_iff row k a).mp key
      refine List.mem_map.mpr ⟨row, ?_, rfl⟩
      simp [partition, List.mem_of_find?_eq_some found]
  · intro h
    obtain ⟨row, member, rfl⟩ := List.mem_map.mp h
    simp only [partition, List.mem_filter, decide_eq_true_eq] at member
    obtain ⟨member, rfl⟩ := member
    rw [multiplicity_eq_of_mem table member]
    exact table.positive row member

theorem multiplicity_empty (k : κ) (a : α) :
    (empty : CountTable κ α).multiplicity k a = 0 := rfl

theorem multiplicity_upsert (table : CountTable κ α) (k l : κ) (a b : α) (n : Nat) :
    (table.upsert k a n).multiplicity l b =
      table.multiplicity l b + if (k, a) = (l, b) then n else 0 := by
  rw [upsert]
  split
  case isFalse zero =>
    obtain rfl : n = 0 := by omega
    simp
  unfold multiplicity
  simp only
  induction table.rows with
  | nil =>
    by_cases same : (k, a) = (l, b)
    · have parts : k = l ∧ a = b := by simpa using same
      simp [upsertRows, CountRow.key, parts.1, parts.2]
    · have parts : ¬ (k = l ∧ a = b) := by simpa using same
      simp [upsertRows, CountRow.key, parts]
  | cons row rows ih =>
    rw [upsertRows]
    by_cases stored : row.key = (k, a)
    · rw [if_pos stored, List.find?_cons, List.find?_cons]
      have kept : ({ row with multiplicity := row.multiplicity + n } : CountRow κ α).key = (k, a) :=
        stored
      by_cases same : (k, a) = (l, b)
      · simp [kept, stored, same]
      · simp [kept, stored, same]
    · rw [if_neg stored, List.find?_cons, List.find?_cons]
      by_cases asked : row.key = (l, b)
      · have other : (k, a) ≠ (l, b) := fun same => stored (asked.trans same.symm)
        simp [asked, other]
      · simpa [asked] using ih

/-- A batch of counts of distinct items adds each count once. -/
theorem multiplicity_upsertAll (table : CountTable κ α) (k l : κ) (counts : List (α × Nat)) (b : α) :
    (table.upsertAll k counts).multiplicity l b = table.multiplicity l b +
      if k = l then ((counts.filter fun pair => pair.1 = b).map Prod.snd).sum else 0 := by
  unfold upsertAll
  induction counts generalizing table with
  | nil => simp
  | cons pair counts ih =>
    rw [List.foldl_cons, ih, multiplicity_upsert]
    by_cases same : k = l
    · by_cases item : pair.1 = b
      · simp [same, item, Nat.add_assoc]
      · simp [same, item]
    · simp [same]

theorem multiplicity_deletePartition (table : CountTable κ α) (k l : κ) (a : α) :
    (table.deletePartition k).multiplicity l a =
      if l = k then 0 else table.multiplicity l a := by
  unfold multiplicity deletePartition
  simp only
  induction table.rows with
  | nil => simp
  | cons row rows ih =>
    rw [List.filter_cons, List.find?_cons]
    by_cases deleted : row.partition = k
    · rw [if_neg (by simp [deleted]), ih]
      by_cases same : l = k
      · rw [if_pos same, if_pos same]
      · have other : row.key ≠ (l, a) := fun asked =>
          same (((key_eq_iff row l a).mp asked).1.symm.trans deleted)
        simp [same, other]
    · rw [if_pos (by simp [deleted]), List.find?_cons]
      by_cases asked : row.key = (l, a)
      · have kept : l ≠ k := fun same => deleted (((key_eq_iff row l a).mp asked).1.trans same)
        simp [asked, kept]
      · simpa [asked] using ih

/-- The table after a step counts these items more in one partition, and is otherwise the same. -/
def Adds (k : κ) (items : List α) (before after : CountTable κ α) : Prop :=
  ∀ other a, after.multiplicity other a =
    before.multiplicity other a + if k = other then items.count a else 0

theorem Adds.refl (k : κ) (table : CountTable κ α) : Adds k [] table table := by
  intro other a
  simp

theorem Adds.trans {k : κ} {first second : List α} {t u v : CountTable κ α}
    (htu : Adds k first t u) (huv : Adds k second u v) : Adds k (first ++ second) t v := by
  intro other a
  rw [huv, htu, List.count_append]
  split <;> omega

/-- Other partitions are not touched. -/
theorem Adds.other {k other : κ} {items : List α} {before after : CountTable κ α}
    (h : Adds k items before after) (different : other ≠ k) (a : α) :
    after.multiplicity other a = before.multiplicity other a := by
  rw [h, if_neg different.symm, Nat.add_zero]

/-- A partition that was empty holds what was added to it. -/
theorem Adds.holds {k : κ} {items : List α} {before after : CountTable κ α}
    (h : Adds k items before after) (fresh : ∀ a, before.multiplicity k a = 0) :
    after.Holds k items := by
  intro a
  rw [h, if_pos rfl, fresh, Nat.zero_add]

/-- Deleting a partition that was empty undoes what was added to it. -/
theorem Adds.deletePartition {k : κ} {items : List α} {before after : CountTable κ α}
    (h : Adds k items before after) (fresh : ∀ a, before.multiplicity k a = 0) :
    Adds k [] before (after.deletePartition k) := by
  intro other a
  rw [multiplicity_deletePartition, List.count_nil, ite_self, Nat.add_zero]
  split
  next same => rw [same, fresh]
  next different => exact h.other different a

theorem Holds.nil : (empty : CountTable κ α).Holds k [] := fun a => by
  rw [multiplicity_empty, List.count_nil]

/-- The rows of a partition are the counts of what it holds, in some order. -/
theorem Holds.rows_perm {table : CountTable κ α} {k : κ} {items : List α}
    (h : table.Holds k items) :
    ((table.partition k).map fun row => (row.item, row.multiplicity)).Perm
      (items.dedup.map fun a => (a, items.count a)) := by
  have counted : ∀ row ∈ table.partition k, row.multiplicity = items.count row.item := by
    intro row member
    simp only [partition, List.mem_filter, decide_eq_true_eq] at member
    obtain ⟨member, rfl⟩ := member
    rw [← multiplicity_eq_of_mem table member, h]
  have distinct : ((table.partition k).map CountRow.item).Nodup := by
    have keys : ((table.partition k).map CountRow.key).Nodup :=
      table.primaryKey.sublist (List.filter_sublist.map _)
    have labelled : (table.partition k).map CountRow.key =
        ((table.partition k).map CountRow.item).map fun a => (k, a) := by
      rw [List.map_map]
      refine List.map_congr_left fun row member => ?_
      simp only [partition, List.mem_filter, decide_eq_true_eq] at member
      simp [CountRow.key, member.2]
    rw [labelled] at keys
    exact keys.of_map
  have same : ((table.partition k).map CountRow.item).Perm items.dedup := by
    rw [List.perm_ext_iff_of_nodup distinct (List.nodup_dedup items)]
    intro a
    rw [← multiplicity_pos_iff, h, List.count_pos_iff, List.mem_dedup]
  have pairs : ((table.partition k).map fun row => (row.item, row.multiplicity)) =
      ((table.partition k).map CountRow.item).map fun a => (a, items.count a) := by
    rw [List.map_map]
    exact List.map_congr_left fun row member => by simp [counted row member]
  rw [pairs]
  exact same.map _

theorem Holds.total {table : CountTable κ α} {k : κ} {items : List α} (h : table.Holds k items) :
    table.total k = items.length := by
  have sum : table.total k = ((items.dedup.map fun a => (a, items.count a)).map Prod.snd).sum := by
    rw [← (h.rows_perm.map Prod.snd).sum_eq, List.map_map]
    rfl
  rw [sum, List.map_map]
  exact List.sum_map_count_dedup_eq_length items

/-- The primary key leaves at most one row with a partition and an item. -/
theorem partition_filter_item (table : CountTable κ α) (k : κ) (a : α) :
    ((table.partition k).filter fun row => row.item = a) =
      (table.rows.find? fun row => row.key = (k, a)).toList := by
  have keyed : ((table.partition k).filter fun row => row.item = a) =
      table.rows.filter fun row => row.key = (k, a) := by
    rw [partition, List.filter_filter]
    refine List.filter_congr fun row _ => ?_
    simp [CountRow.key, Bool.and_comm]
  rw [keyed]
  have unique := table.primaryKey
  revert unique
  induction table.rows with
  | nil => intro _; rfl
  | cons row rows ih =>
    intro unique
    obtain ⟨fresh, rest⟩ := List.nodup_cons.mp unique
    by_cases asked : row.key = (k, a)
    · have none : rows.filter (fun row => row.key = (k, a)) = [] := by
        rw [List.filter_eq_nil_iff]
        intro other member same
        have key : other.key = (k, a) := by simpa using same
        rw [asked, ← key] at fresh
        exact fresh (List.mem_map_of_mem member)
      simp [asked, none]
    · simpa [asked] using ih rest

/-- What one row contributes to a join. -/
theorem join_row (table : CountTable κ α) (l : κ) (row : CountRow κ α) :
    ((((table.partition l).filter fun other => other.item = row.item).map
      fun other => (row, other)).map fun pair => min pair.1.multiplicity pair.2.multiplicity).sum =
      min row.multiplicity (table.multiplicity l row.item) := by
  rw [partition_filter_item, multiplicity]
  cases table.rows.find? fun other => other.key = (l, row.item) with
  | none => simp
  | some other => simp

theorem Holds.overlap {table : CountTable κ α} {k l : κ} {left right : List α}
    (hl : table.Holds k left) (hr : table.Holds l right) :
    table.overlap k l = intersectionCount left right := by
  have pairs := (hl.rows_perm.map fun p => min p.2 (right.count p.1)).sum_eq
  rw [List.map_map, List.map_map] at pairs
  rw [intersectionCount, CountTable.overlap, join, List.map_flatMap, List.flatMap_def,
    List.sum_flatten, List.map_map]
  refine Eq.trans ?_ pairs
  congr 1
  refine List.map_congr_left fun row _ => ?_
  rw [Function.comp_apply, join_row, hr]
  rfl

theorem Holds.excess {table : CountTable κ α} {k l : κ} {left right : List α}
    (hl : table.Holds k left) (hr : table.Holds l right) :
    (table.excess k l).Perm (left.dedup.map fun a => (a, left.count a - right.count a)) := by
  have pairs := hl.rows_perm.map fun p => (p.1, p.2 - right.count p.1)
  rw [List.map_map, List.map_map] at pairs
  refine List.Perm.trans ?_ pairs
  rw [CountTable.excess]
  refine List.Perm.of_eq (List.map_congr_left fun row _ => ?_)
  rw [hr]
  rfl

theorem Holds.excess_sum {table : CountTable κ α} {k l : κ} {left right : List α}
    (hl : table.Holds k left) (hr : table.Holds l right) :
    ((table.excess k l).map Prod.snd).sum = differenceCount left right := by
  rw [((hl.excess hr).map Prod.snd).sum_eq, List.map_map]
  rfl

end CountTable

end Python
