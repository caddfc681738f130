import Mathlib

/-!
# First occurrences

The elements of a list whose key does not occur before them, as a loop with a set of keys finds
them, and when a coarser key finds the same ones.
-/

namespace Python

variable {α κ μ : Type} [DecidableEq κ] [DecidableEq μ]

/-- The elements whose key is neither in `seen` nor the one of an earlier element. -/
def firstsFrom (key : α → κ) : List κ → List α → List α
  | _, [] => []
  | seen, x :: xs =>
    if key x ∈ seen then firstsFrom key seen xs else x :: firstsFrom key (key x :: seen) xs

/-- The first occurrences by a key. -/
def firstOccurrences (key : α → κ) (items : List α) : List α := firstsFrom key [] items

/-- Only which keys were seen matters. -/
theorem firstsFrom_congr {key : α → κ} {seen others : List κ} (same : ∀ k, k ∈ seen ↔ k ∈ others)
    (items : List α) : firstsFrom key seen items = firstsFrom key others items := by
  induction items generalizing seen others with
  | nil => rfl
  | cons x xs ih =>
    rw [firstsFrom, firstsFrom]
    by_cases known : key x ∈ seen
    · rw [if_pos known, if_pos ((same _).mp known), ih same]
    · rw [if_neg known, if_neg (fun h => known ((same _).mpr h))]
      congr 1
      apply ih
      intro k
      rw [List.mem_cons, List.mem_cons, same]

theorem mem_of_mem_firstsFrom {key : α → κ} {seen : List κ} {items : List α} {x : α}
    (h : x ∈ firstsFrom key seen items) : x ∈ items := by
  induction items generalizing seen with
  | nil => exact h
  | cons y ys ih =>
    rw [firstsFrom] at h
    split at h
    · exact List.mem_cons_of_mem _ (ih h)
    · rcases List.mem_cons.mp h with rfl | later
      · exact List.mem_cons_self
      · exact List.mem_cons_of_mem _ (ih later)

/-- Every key that was not seen has a first occurrence. -/
theorem exists_mem_firstsFrom {key : α → κ} {seen : List κ} {items : List α} {x : α}
    (member : x ∈ items) (unseen : key x ∉ seen) :
    ∃ first ∈ firstsFrom key seen items, key first = key x := by
  induction items generalizing seen with
  | nil => cases member
  | cons y ys ih =>
    rw [firstsFrom]
    by_cases same : key y = key x
    · rw [if_neg (same ▸ unseen)]
      exact ⟨y, List.mem_cons_self, same⟩
    · have later : x ∈ ys := by
        rcases List.mem_cons.mp member with rfl | later
        · exact absurd rfl same
        · exact later
      split
      · exact ih later unseen
      · obtain ⟨first, found, named⟩ := ih later (show key x ∉ key y :: seen by
          rw [List.mem_cons, not_or]
          exact ⟨Ne.symm same, unseen⟩)
        exact ⟨first, List.mem_cons_of_mem _ found, named⟩

theorem firstsFrom_map {β : Type} {f : α → β} {key : β → κ} {seen : List κ}
    {items : List α} :
    firstsFrom key seen (items.map f) = (firstsFrom (key ∘ f) seen items).map f := by
  induction items generalizing seen with
  | nil => rfl
  | cons x xs ih =>
    rw [List.map_cons, firstsFrom, firstsFrom]
    by_cases known : key (f x) ∈ seen
    · rw [if_pos known, if_pos (show (key ∘ f) x ∈ seen from known), ih]
    · rw [if_neg known, if_neg (show ¬ (key ∘ f) x ∈ seen from known), ih, List.map_cons]
      rfl

/-- Keys that agree on the elements find the same first occurrences. -/
theorem firstsFrom_key_congr {key : α → κ}
    {value : κ → μ} {other : α → μ} (injective : Function.Injective value) {seen : List κ}
    {items : List α} (same : ∀ x ∈ items, other x = value (key x)) :
    firstsFrom key seen items = firstsFrom other (seen.map value) items := by
  induction items generalizing seen with
  | nil => rfl
  | cons x xs ih =>
    have known : other x ∈ seen.map value ↔ key x ∈ seen := by
      rw [same x List.mem_cons_self]
      exact List.mem_map_of_injective injective
    have later := fun y member => same y (List.mem_cons_of_mem _ member)
    rw [firstsFrom, firstsFrom]
    simp only [known]
    split
    · exact ih later
    · have step := @ih (key x :: seen) later
      rw [List.map_cons, ← same x List.mem_cons_self] at step
      rw [step]

/-- There is one first occurrence for each new key. -/
theorem length_firstsFrom (key : α → κ) (seen : List κ) (items : List α) :
    (firstsFrom key seen items).length = ((items.map key).toFinset \ seen.toFinset).card := by
  -- a key that was seen adds nothing, a fresh one adds itself
  induction items generalizing seen with
  | nil => simp [firstsFrom]
  | cons x xs ih =>
    rw [firstsFrom]
    split
    next known =>
      rw [ih, List.map_cons, List.toFinset_cons]
      congr 1
      ext k
      simp only [Finset.mem_sdiff, Finset.mem_insert, List.mem_toFinset]
      constructor
      · exact fun h => ⟨.inr h.1, h.2⟩
      · rintro ⟨rfl | h, new⟩
        · exact absurd known new
        · exact ⟨h, new⟩
    next new =>
      have fresh : key x ∉ (xs.map key).toFinset \ (key x :: seen).toFinset := by simp
      rw [List.length_cons, ih, ← Finset.card_insert_of_notMem fresh]
      congr 1
      ext k
      simp only [Finset.mem_sdiff, Finset.mem_insert, List.mem_toFinset, List.map_cons,
        List.mem_cons, not_or]
      constructor
      · rintro (rfl | ⟨h, _, other⟩)
        · exact ⟨.inl rfl, new⟩
        · exact ⟨.inr h, other⟩
      · rintro ⟨rfl | h, other⟩
        · exact .inl rfl
        · by_cases same : k = key x
          · exact .inl same
          · exact .inr ⟨h, same, other⟩

/-- With a coarser key that still tells the keys apart, the first occurrences are the same. -/
theorem firstsFrom_comp {key : α → κ} {coarse : κ → μ} {seen : List κ} {items : List α}
    (apart : Set.InjOn coarse {k | k ∈ seen ∨ k ∈ items.map key}) :
    firstsFrom (coarse ∘ key) (seen.map coarse) items = firstsFrom key seen items := by
  induction items generalizing seen with
  | nil => rfl
  | cons x xs ih =>
    -- the coarser key was seen exactly if the finer one was
    have known : (coarse ∘ key) x ∈ seen.map coarse ↔ key x ∈ seen := by
      constructor
      · intro h
        obtain ⟨k, member, same⟩ := List.mem_map.mp h
        rw [← apart (.inl member) (.inr List.mem_cons_self) same]
        exact member
      · exact fun h => List.mem_map_of_mem h
    rw [firstsFrom, firstsFrom]
    simp only [known]
    split
    · apply ih
      intro a ha b hb
      exact apart (ha.imp_right (List.mem_cons_of_mem _)) (hb.imp_right (List.mem_cons_of_mem _))
    · congr 1
      have step := @ih (key x :: seen) fun a ha b hb same => by
        have widen : ∀ k, (k ∈ key x :: seen ∨ k ∈ xs.map key) →
            k ∈ seen ∨ k ∈ (x :: xs).map key := by
          intro k h
          rcases h with h | h
          · rcases List.mem_cons.mp h with rfl | h
            · exact .inr List.mem_cons_self
            · exact .inl h
          · exact .inr (List.mem_cons_of_mem _ h)
        exact apart (widen a ha) (widen b hb) same
      exact step

/-- A coarser key finds the same first occurrences when it tells the keys apart. -/
theorem firstOccurrences_comp {key : α → κ} {coarse : κ → μ} {items : List α}
    (apart : Set.InjOn coarse {k | k ∈ items.map key}) :
    firstOccurrences (coarse ∘ key) items = firstOccurrences key items := by
  have step := @firstsFrom_comp α κ μ _ _ key coarse [] items fun a ha b hb =>
    apart (ha.resolve_left List.not_mem_nil) (hb.resolve_left List.not_mem_nil)
  exact step

/-- And only then does it find as many. -/
theorem injOn_of_length_firstOccurrences {key : α → κ} {coarse : κ → μ} {items : List α}
    (same : (firstOccurrences (coarse ∘ key) items).length = (firstOccurrences key items).length) :
    Set.InjOn coarse {k | k ∈ items.map key} := by
  rw [firstOccurrences, firstOccurrences, length_firstsFrom, length_firstsFrom] at same
  simp only [List.toFinset_nil, Finset.sdiff_empty, ← List.map_map] at same
  have image : ((items.map key).map coarse).toFinset = (items.map key).toFinset.image coarse := by
    ext k
    simp
  rw [image, Finset.card_image_iff] at same
  simpa [Set.InjOn] using same

end Python
