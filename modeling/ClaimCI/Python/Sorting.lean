import ClaimCI.Python.Json

/-!
# Sorting by a string

Code point order is a total order, so sorting by a string that tells the elements apart does not
depend on the order they come in.
-/

namespace Python

theorem strLe_total (s t : Str) : strLe s t = true ∨ strLe t s = true := by
  induction s generalizing t with
  | nil => exact .inl rfl
  | cons c s ih =>
    cases t with
    | nil => exact .inr rfl
    | cons d t =>
      rw [strLe, strLe]
      by_cases same : c = d
      · rw [if_pos same, if_pos same.symm]
        exact ih t
      · rw [if_neg same, if_neg (Ne.symm same), decide_eq_true_eq, decide_eq_true_eq]
        exact lt_or_gt_of_ne same

theorem strLe_antisymm {s t : Str} (h : strLe s t = true) (g : strLe t s = true) : s = t := by
  induction s generalizing t with
  | nil =>
    cases t with
    | nil => rfl
    | cons d t => cases g
  | cons c s ih =>
    cases t with
    | nil => cases h
    | cons d t =>
      rw [strLe] at h g
      by_cases same : c = d
      · rw [if_pos same] at h
        rw [if_pos same.symm] at g
        rw [same, ih h g]
      · rw [if_neg same, decide_eq_true_eq] at h
        rw [if_neg (Ne.symm same), decide_eq_true_eq] at g
        exact absurd g (lt_asymm h)

theorem strLe_trans {s t u : Str} (h : strLe s t = true) (g : strLe t u = true) :
    strLe s u = true := by
  induction s generalizing t u with
  | nil => rfl
  | cons c s ih =>
    cases t with
    | nil => cases h
    | cons d t =>
      cases u with
      | nil => cases g
      | cons e u =>
        rw [strLe] at h g ⊢
        by_cases first : c = d
        · rw [if_pos first] at h
          subst first
          by_cases second : c = e
          · rw [if_pos second] at g ⊢
            exact ih h g
          · rw [if_neg second] at g ⊢
            exact g
        · rw [if_neg first, decide_eq_true_eq] at h
          by_cases second : d = e
          · subst second
            rw [if_neg first, decide_eq_true_eq]
            exact h
          · rw [if_neg second, decide_eq_true_eq] at g
            rw [if_neg (ne_of_lt (lt_trans h g)), decide_eq_true_eq]
            exact lt_trans h g

section SortBy

variable {α : Type} (key : α → Str)

/-- `sorted(items, key=key)`. -/
def sortBy (items : List α) : List α :=
  items.insertionSort fun a b => strLe (key a) (key b) = true

theorem sortBy_perm_self (items : List α) : (sortBy key items).Perm items :=
  List.perm_insertionSort _ _

theorem sortBy_pairwise (items : List α) :
    (sortBy key items).Pairwise fun a b => strLe (key a) (key b) = true := by
  have total : Std.Total fun a b : α => strLe (key a) (key b) = true :=
    ⟨fun a b => strLe_total (key a) (key b)⟩
  have trans : IsTrans α fun a b => strLe (key a) (key b) = true :=
    ⟨fun a b c h g => strLe_trans h g⟩
  exact List.pairwise_insertionSort _ items

/-- Sorting by a key that tells the elements apart does not depend on their order. -/
theorem sortBy_eq_of_perm {items others : List α} (perm : items.Perm others)
    (distinct : ∀ a ∈ items, ∀ b ∈ items, key a = key b → a = b) :
    sortBy key items = sortBy key others := by
  have both : (sortBy key items).Perm (sortBy key others) :=
    ((sortBy_perm_self key items).trans perm).trans (sortBy_perm_self key others).symm
  refine List.Perm.eq_of_pairwise ?_ (sortBy_pairwise key items) (sortBy_pairwise key others) both
  intro a b ha hb le ge
  have inItems : ∀ c, c ∈ sortBy key items → c ∈ items := fun c hc =>
    (sortBy_perm_self key items).mem_iff.mp hc
  exact distinct a (inItems a ha) b (inItems b (both.symm.mem_iff.mp hb)) (strLe_antisymm le ge)

end SortBy

end Python
