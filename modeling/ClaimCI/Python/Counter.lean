import ClaimCI.Python.Json

/-!
# Counters

Lists counted with multiplicity, as `collections.Counter` does: intersection, difference and
equality of counts, and how they relate to lists up to permutation.
-/

namespace Python

section Counter

variable {α β γ : Type} [DecidableEq α] [DecidableEq β] [DecidableEq γ]

/-- `sum((Counter(left) & Counter(right)).values())`. -/
def intersectionCount (left right : List α) : Nat :=
  (left.dedup.map fun a => min (left.count a) (right.count a)).sum

/-- `sum((Counter(left) - Counter(right)).values())`. -/
def differenceCount (left right : List α) : Nat :=
  (left.dedup.map fun a => left.count a - right.count a).sum

/-- `Counter(left) == Counter(right)`. -/
def sameCounts (left right : List α) : Bool :=
  left.all (fun a => left.count a == right.count a) &&
    right.all (fun a => left.count a == right.count a)

/-- Counting does not depend on which lawful test for equality is used. -/
theorem count_of_lawful [BEq α] [LawfulBEq α] (l : List α) (a : α) :
    @List.count α instBEqOfDecidableEq a l = l.count a := by
  induction l with
  | nil => rfl
  | cons b l ih => simp only [List.count_cons, ih, beq_iff_eq]

theorem sameCounts_iff (left right : List α) :
    sameCounts left right = true ↔ left.Perm right := by
  simp only [sameCounts, Bool.and_eq_true, List.all_eq_true, beq_iff_eq, List.perm_iff_count]
  constructor
  · rintro ⟨hl, hr⟩ a
    by_cases inLeft : a ∈ left
    · exact hl a inLeft
    · by_cases inRight : a ∈ right
      · exact hr a inRight
      · rw [List.count_eq_zero_of_not_mem inLeft, List.count_eq_zero_of_not_mem inRight]
  · exact fun h => ⟨fun a _ => h a, fun a _ => h a⟩

theorem intersectionCount_eq_zero_iff (left right : List α) :
    intersectionCount left right = 0 ↔ ∀ a ∈ left, a ∉ right := by
  simp only [intersectionCount, List.sum_eq_zero_iff, List.mem_map, forall_exists_index, and_imp,
    forall_apply_eq_imp_iff₂, List.mem_dedup, Nat.min_eq_zero_iff, List.count_eq_zero]
  constructor
  · intro h a ha
    rcases h a ha with absent | absent
    · exact absurd ha absent
    · exact absent
  · exact fun h a ha => .inr (h a ha)

theorem intersectionCount_eq_sum (left right : List α) :
    intersectionCount left right =
      ∑ a ∈ left.toFinset, min (left.count a) (right.count a) := by
  have distinct : left.toFinset = left.dedup.toFinset := by
    ext a
    simp
  rw [distinct, List.sum_toFinset _ (List.nodup_dedup left)]
  rfl

/-- Lists that count less have less in common. -/
theorem intersectionCount_mono {left right left' right' : List α}
    (hl : ∀ a, left.count a ≤ left'.count a) (hr : ∀ a, right.count a ≤ right'.count a) :
    intersectionCount left right ≤ intersectionCount left' right' := by
  rw [intersectionCount_eq_sum, intersectionCount_eq_sum]
  have sub : left.toFinset ⊆ left'.toFinset := by
    intro a ha
    rw [List.mem_toFinset, ← List.count_pos_iff] at ha ⊢
    exact ha.trans_le (hl a)
  calc ∑ a ∈ left.toFinset, min (left.count a) (right.count a)
      ≤ ∑ a ∈ left.toFinset, min (left'.count a) (right'.count a) :=
        Finset.sum_le_sum fun a _ => min_le_min (hl a) (hr a)
    _ ≤ ∑ a ∈ left'.toFinset, min (left'.count a) (right'.count a) :=
        Finset.sum_le_sum_of_subset sub

theorem intersectionCount_sublist {left right left' right' : List α} (hl : left.Sublist left')
    (hr : right.Sublist right') : intersectionCount left right ≤ intersectionCount left' right' :=
  intersectionCount_mono (fun a => hl.count_le a) fun a => hr.count_le a

omit [DecidableEq α] in
/-- Two labelings that identify the same items of a list count alike. -/
theorem count_map_eq (f : α → β) (g : α → γ) (l : List α) (a : α)
    (same : ∀ b ∈ l, f b = f a ↔ g b = g a) :
    (l.map f).count (f a) = (l.map g).count (g a) := by
  induction l with
  | nil => rfl
  | cons b l ih =>
    have first := same b (by simp)
    have rest := ih fun c hc => same c (by simp [hc])
    simp only [List.map_cons, List.count_cons, rest, beq_iff_eq, first]

omit [DecidableEq α] in
/-- Permutation does not depend on which of two labelings the items carry. -/
theorem perm_map_iff (f : α → β) (g : α → γ) (l m : List α)
    (same : ∀ a ∈ l ++ m, ∀ b ∈ l ++ m, f a = f b ↔ g a = g b) :
    (l.map f).Perm (m.map f) ↔ (l.map g).Perm (m.map g) := by
  have forward : ∀ {δ ε : Type} [DecidableEq δ] [DecidableEq ε] (f : α → δ) (g : α → ε),
      (∀ a ∈ l ++ m, ∀ b ∈ l ++ m, f a = f b ↔ g a = g b) →
      (l.map f).Perm (m.map f) → (l.map g).Perm (m.map g) := by
    intro δ ε _ _ f g same perm
    rw [List.perm_iff_count] at perm ⊢
    intro c
    by_cases present : ∃ a ∈ l ++ m, g a = c
    · obtain ⟨a, ha, rfl⟩ := present
      rw [← count_map_eq f g l a fun b hb => same b (by simp [hb]) a ha,
        ← count_map_eq f g m a fun b hb => same b (by simp [hb]) a ha, perm]
    · have absent : ∀ k : List α, (∀ a ∈ k, a ∈ l ++ m) → (k.map g).count c = 0 := by
        intro k sub
        rw [List.count_eq_zero, List.mem_map]
        rintro ⟨a, ha, rfl⟩
        exact present ⟨a, sub a ha, rfl⟩
      rw [absent l fun a ha => by simp [ha], absent m fun a ha => by simp [ha]]
  exact ⟨forward f g same, forward g f fun a ha b hb => (same a ha b hb).symm⟩

/-- A labeling that tells the items apart keeps what two lists have in common. -/
theorem intersectionCount_map (f : α → β) (left right : List α)
    (apart : ∀ a ∈ left ++ right, ∀ b ∈ left ++ right, f a = f b → a = b) :
    intersectionCount (left.map f) (right.map f) = intersectionCount left right := by
  have counts : ∀ l : List α, (∀ b ∈ l, b ∈ left ++ right) → ∀ a ∈ left ++ right,
      (l.map f).count (f a) = l.count a := by
    intro l sub a ha
    have same := count_map_eq f id l a fun b hb =>
      ⟨apart b (sub b hb) a ha, congrArg f⟩
    rwa [List.map_id] at same
  have labels : (left.map f).toFinset = left.toFinset.image f := by
    ext b
    simp
  have injective : Set.InjOn f left.toFinset := by
    intro a ha b hb same
    rw [Finset.mem_coe, List.mem_toFinset] at ha hb
    exact apart a (List.mem_append_left _ ha) b (List.mem_append_left _ hb) same
  rw [intersectionCount_eq_sum, intersectionCount_eq_sum, labels, Finset.sum_image injective]
  refine Finset.sum_congr rfl fun a ha => ?_
  have member : a ∈ left ++ right := List.mem_append_left _ (List.mem_toFinset.mp ha)
  rw [counts left (fun b hb => List.mem_append_left _ hb) a member,
    counts right (fun b hb => List.mem_append_right _ hb) a member]

end Counter

end Python
