import ClaimCI.Python.Sorting

/-!
# Sorting by keys that may be `None`

Tuples of texts in which some components are `None` are compared component by component, and `None`
cannot be compared with a text. A sort by such keys raises exactly if it is given two that cannot be
compared.
-/

namespace Python

/-- A tuple of texts, some of which are `None`. -/
abbrev OptionalKey := List (Option Str)

/-- Two different components: `None` and a text cannot be compared. -/
def componentLess : Option Str → Option Str → Option Bool
  | some s, some t => some (strLe s t)
  | _, _ => none

/-- `a < b`; `none` is the `TypeError` of `None` and a text. -/
def keyLess : OptionalKey → OptionalKey → Option Bool
  | [], [] => some false
  | [], _ :: _ => some true
  | _ :: _, [] => some false
  | a :: as, b :: bs =>
    if a = b then keyLess as bs else componentLess a b

/-- Comparing the two does not raise. -/
def Comparable (a b : OptionalKey) : Prop := (keyLess a b).isSome = true

instance (a b : OptionalKey) : Decidable (Comparable a b) :=
  inferInstanceAs (Decidable (_ = true))

/-- The first does not come after the second. -/
def KeyLe (a b : OptionalKey) : Prop := keyLess b a = some false

/-! ### The order -/

theorem keyLess_swap {a b : OptionalKey} (h : keyLess a b = some true) : keyLess b a = some false := by
  induction a generalizing b with
  | nil =>
    cases b with
    | nil => cases h
    | cons b bs => rfl
  | cons a as ih =>
    cases b with
    | nil => cases h
    | cons b bs =>
      rw [keyLess] at h ⊢
      by_cases same : a = b
      · rw [if_pos same] at h
        rw [if_pos same.symm]
        exact ih h
      · rw [if_neg same] at h
        rw [if_neg (Ne.symm same)]
        cases a with
        | none => cases h
        | some s =>
          cases b with
          | none => cases h
          | some t =>
            -- Of two different texts only one comes first.
            have first : strLe s t = true := Option.some.inj h
            have other : strLe t s = false := by
              rw [← Bool.not_eq_true]
              exact fun second => same (congrArg some (strLe_antisymm first second))
            exact congrArg some other

theorem Comparable.symm {a b : OptionalKey} (h : Comparable a b) : Comparable b a := by
  induction a generalizing b with
  | nil => cases b <;> rfl
  | cons a as ih =>
    cases b with
    | nil => rfl
    | cons b bs =>
      rw [Comparable, keyLess] at h ⊢
      by_cases same : a = b
      · rw [if_pos same] at h
        rw [if_pos same.symm]
        exact ih h
      · rw [if_neg same] at h
        rw [if_neg (Ne.symm same)]
        cases a with
        | none => cases h
        | some s =>
          cases b with
          | none => cases h
          | some t => rfl

theorem KeyLe.comparable {a b : OptionalKey} (h : KeyLe a b) : Comparable a b := by
  apply Comparable.symm
  rw [Comparable, h]
  rfl

theorem KeyLe.trans {a b c : OptionalKey} (h : KeyLe a b) (g : KeyLe b c) : KeyLe a c := by
  induction a generalizing b c with
  | nil => cases c <;> rfl
  | cons a as ih =>
    cases b with
    | nil => cases h
    | cons b bs =>
      cases c with
      | nil => cases g
      | cons c cs =>
        rw [KeyLe, keyLess] at h g ⊢
        -- by the first components of the three keys
        by_cases first : b = a
        · rw [if_pos first] at h
          subst first
          by_cases second : c = b
          · rw [if_pos second] at g ⊢
            exact ih h g
          · rw [if_neg second] at g ⊢
            exact g
        · rw [if_neg first] at h
          by_cases second : c = b
          · subst second
            rw [if_neg first]
            exact h
          · rw [if_neg second] at g
            -- two components that differ compare as texts only
            cases a with
            | none =>
              cases b with
              | none => exact absurd rfl first
              | some t => cases h
            | some s =>
              cases b with
              | none => cases h
              | some t =>
                cases c with
                | none => cases g
                | some u =>
                  have le : strLe s t = true := (strLe_total s t).resolve_right
                    (Bool.eq_false_iff.mp (Option.some.inj h))
                  have le' : strLe t u = true := (strLe_total t u).resolve_right
                    (Bool.eq_false_iff.mp (Option.some.inj g))
                  have different : some u ≠ some s := by
                    intro same
                    rw [Option.some.inj same] at le'
                    exact first (congrArg some (strLe_antisymm le' le))
                  rw [if_neg different]
                  have notBefore : strLe u s = false := by
                    rw [← Bool.not_eq_true]
                    exact fun before => different
                      (congrArg some (strLe_antisymm before (strLe_trans le le')))
                  exact congrArg some notBefore

/-! ### Sorting -/

section Sorted

variable {α : Type} (key : α → OptionalKey)

/-- A stable insertion into a sorted list, before the first element that is not less. -/
def insertByKey (x : α) : List α → Option (List α)
  | [] => some [x]
  | y :: ys =>
    (keyLess (key y) (key x)).bind fun less =>
      if less then (insertByKey x ys).map (y :: ·) else some (x :: y :: ys)

/-- `sorted(items, key=key)`; `none` is the `TypeError` of a comparison. -/
def sortedByKey : List α → Option (List α)
  | [] => some []
  | x :: xs => (sortedByKey xs).bind (insertByKey key x)

variable {key}

theorem insertByKey_some {x : α} {ys sorted : List α}
    (ordered : ys.Pairwise fun a b => KeyLe (key a) (key b)) (h : insertByKey key x ys = some sorted) :
    sorted.Perm (x :: ys) ∧ sorted.Pairwise fun a b => KeyLe (key a) (key b) := by
  induction ys generalizing sorted with
  | nil =>
    rw [← Option.some.inj h]
    exact ⟨List.Perm.refl [x], List.pairwise_singleton _ x⟩
  | cons y ys ih =>
    obtain ⟨after, ordered'⟩ := List.pairwise_cons.mp ordered
    obtain ⟨less, compared, h⟩ := Option.bind_eq_some_iff.mp h
    cases less with
    | true =>
      obtain ⟨rest, inserted, rfl⟩ := Option.map_eq_some_iff.mp h
      obtain ⟨perm, pairs⟩ := ih ordered' inserted
      refine ⟨(perm.cons y).trans (List.Perm.swap x y ys), List.pairwise_cons.mpr ⟨?_, pairs⟩⟩
      intro z member
      rcases List.mem_cons.mp (perm.mem_iff.mp member) with rfl | later
      · exact keyLess_swap compared
      · exact after z later
    | false =>
      rw [← Option.some.inj h]
      refine ⟨List.Perm.refl _, List.pairwise_cons.mpr ⟨?_, ordered⟩⟩
      intro z member
      rcases List.mem_cons.mp member with rfl | later
      · exact compared
      · exact KeyLe.trans compared (after z later)

theorem sortedByKey_some {items sorted : List α} (h : sortedByKey key items = some sorted) :
    sorted.Perm items ∧ sorted.Pairwise fun a b => KeyLe (key a) (key b) := by
  induction items generalizing sorted with
  | nil =>
    rw [← Option.some.inj h]
    exact ⟨List.Perm.refl [], List.Pairwise.nil⟩
  | cons x items ih =>
    obtain ⟨rest, earlier, inserted⟩ := Option.bind_eq_some_iff.mp h
    obtain ⟨perm, ordered⟩ := ih earlier
    obtain ⟨perm', ordered'⟩ := insertByKey_some ordered inserted
    exact ⟨perm'.trans (perm.cons x), ordered'⟩

theorem insertByKey_isSome {x : α} {ys : List α}
    (comparable : ∀ y ∈ ys, Comparable (key y) (key x)) : (insertByKey key x ys).isSome = true := by
  induction ys with
  | nil => rfl
  | cons y ys ih =>
    rw [List.forall_mem_cons] at comparable
    obtain ⟨less, compared⟩ := Option.isSome_iff_exists.mp comparable.1
    rw [insertByKey, compared, Option.bind_some]
    split
    · rw [Option.isSome_map]
      exact ih comparable.2
    · rfl

/-- A sort raises exactly if two of its keys cannot be compared. -/
theorem sortedByKey_isSome_iff {items : List α} : (sortedByKey key items).isSome = true ↔
    items.Pairwise fun a b => Comparable (key a) (key b) := by
  constructor
  · intro sorts
    obtain ⟨sorted, h⟩ := Option.isSome_iff_exists.mp sorts
    obtain ⟨perm, ordered⟩ := sortedByKey_some h
    refine (perm.pairwise_iff fun {_ _} h => Comparable.symm h).mp ?_
    exact ordered.imp KeyLe.comparable
  · intro pairs
    induction items with
    | nil => rfl
    | cons x items ih =>
      obtain ⟨first, rest⟩ := List.pairwise_cons.mp pairs
      obtain ⟨sorted, h⟩ := Option.isSome_iff_exists.mp (ih rest)
      rw [sortedByKey, h, Option.bind_some]
      apply insertByKey_isSome
      intro y member
      exact (first y ((sortedByKey_some h).1.mem_iff.mp member)).symm

end Sorted

end Python
