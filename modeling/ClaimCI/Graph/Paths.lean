import Mathlib

/-!
# Paths of a graph

The nodes of a graph under the paths that lead to them from a root, when the graph is given by the
children of each node in their order. A node may be a child twice, and may be below itself.
-/

namespace Graph

variable {α : Type} (children : α → List α)

/-- The node at the end of a path, which chooses one child after another. -/
def walk : List Nat → α → Option α
  | [], x => some x
  | i :: path, x => (children x)[i]?.bind (walk path)

/-- Every path from a node is shorter than the bound. -/
def Fits : Nat → α → Prop
  | 0, _ => False
  | n + 1, x => ∀ child ∈ children x, Fits n child

/-- The nodes of a kind at the ends of the paths that are shorter than the bound, one for each
path. -/
def occurrences (kind : α → Bool) : Nat → α → List α
  | 0, _ => []
  | n + 1, x => (if kind x then [x] else []) ++ (children x).flatMap (occurrences kind n)

variable {children}

theorem walk_cons {i : Nat} {path : List Nat} {x y : α} :
    walk children (i :: path) x = some y ↔
      ∃ child, (children x)[i]? = some child ∧ walk children path child = some y := by
  rw [walk, Option.bind_eq_some_iff]

theorem walk_append {p q : List Nat} {x y z : α} (here : walk children p x = some y)
    (there : walk children q y = some z) : walk children (p ++ q) x = some z := by
  induction p generalizing x with
  | nil =>
    obtain rfl := Option.some.inj here
    exact there
  | cons i p ih =>
    obtain ⟨child, chosen, rest⟩ := walk_cons.mp here
    exact walk_cons.mpr ⟨child, chosen, ih rest⟩

theorem fits_iff {n : Nat} {x : α} :
    Fits children n x ↔ ∀ path y, walk children path x = some y → path.length < n := by
  induction n generalizing x with
  | zero =>
    refine iff_of_false not_false fun short => ?_
    exact Nat.not_lt_zero _ (short [] x rfl)
  | succ n ih =>
    constructor
    · intro fits path y ends
      cases path with
      | nil => exact Nat.succ_pos n
      | cons i path =>
        obtain ⟨child, chosen, rest⟩ := walk_cons.mp ends
        exact Nat.succ_lt_succ (ih.mp (fits child (List.mem_of_getElem? chosen)) path y rest)
    · intro short child member
      obtain ⟨i, chosen⟩ := List.mem_iff_getElem?.mp member
      refine ih.mpr fun path y rest => ?_
      exact Nat.lt_of_succ_lt_succ (short (i :: path) y (walk_cons.mpr ⟨child, chosen, rest⟩))

/-- A node whose paths are bounded is not below itself, as going round lengthens a path. -/
theorem Fits.no_return {n : Nat} {x : α} (fits : Fits children n x) {path : List Nat}
    (cycle : walk children path x = some x) : path = [] := by
  by_contra nonempty
  have round (k : Nat) : ∃ long, k ≤ long.length ∧ walk children long x = some x := by
    induction k with
    | zero => exact ⟨[], Nat.zero_le _, rfl⟩
    | succ k ih =>
      obtain ⟨long, enough, back⟩ := ih
      refine ⟨path ++ long, ?_, walk_append cycle back⟩
      have := List.length_pos_iff.mpr nonempty
      rw [List.length_append]
      omega
  obtain ⟨long, enough, back⟩ := round n
  exact absurd (fits_iff.mp fits long x back) (by omega)

theorem Fits.walk {n : Nat} {x y : α} (fits : Fits children n x) {path : List Nat}
    (ends : walk children path x = some y) : Fits children n y := by
  refine fits_iff.mpr fun further z there => ?_
  have := fits_iff.mp fits _ z (walk_append ends there)
  rw [List.length_append] at this
  omega

section Occurrences

variable {kind : α → Bool}

theorem mem_occurrences {n : Nat} {x y : α} :
    y ∈ occurrences children kind n x ↔
      kind y = true ∧ ∃ path, path.length < n ∧ walk children path x = some y := by
  induction n generalizing x with
  | zero => simp [occurrences]
  | succ n ih =>
    rw [occurrences, List.mem_append, List.mem_flatMap]
    constructor
    · rintro (here | ⟨child, member, below⟩)
      · by_cases kept : kind x = true
        · rw [if_pos kept, List.mem_singleton] at here
          subst here
          exact ⟨kept, [], Nat.succ_pos n, rfl⟩
        · rw [if_neg kept] at here
          exact absurd here List.not_mem_nil
      · obtain ⟨kept, path, short, ends⟩ := ih.mp below
        obtain ⟨i, chosen⟩ := List.mem_iff_getElem?.mp member
        exact ⟨kept, i :: path, Nat.succ_lt_succ short, walk_cons.mpr ⟨child, chosen, ends⟩⟩
    · rintro ⟨kept, path, short, ends⟩
      cases path with
      | nil =>
        obtain rfl := Option.some.inj ends
        rw [if_pos kept]
        exact .inl (List.mem_singleton.mpr rfl)
      | cons i path =>
        obtain ⟨child, chosen, rest⟩ := walk_cons.mp ends
        exact .inr ⟨child, List.mem_of_getElem? chosen,
          ih.mpr ⟨kept, path, Nat.lt_of_succ_lt_succ short, rest⟩⟩

/-- At most one path leads to each node of the kind. -/
def UniquePaths (children : α → List α) (kind : α → Bool) (x : α) : Prop :=
  ∀ y, kind y = true → ∀ p q, walk children p x = some y → walk children q x = some y → p = q

theorem UniquePaths.child {x child : α} {i : Nat} (unique : UniquePaths children kind x)
    (chosen : (children x)[i]? = some child) : UniquePaths children kind child := by
  intro y kept p q here there
  have same := unique y kept (i :: p) (i :: q) (walk_cons.mpr ⟨child, chosen, here⟩)
    (walk_cons.mpr ⟨child, chosen, there⟩)
  exact (List.cons.inj same).2

/-- The nodes of a kind occur once each if and only if their paths are unique. -/
theorem occurrences_nodup_iff {n : Nat} {x : α} (fits : Fits children n x) :
    (occurrences children kind n x).Nodup ↔ UniquePaths children kind x := by
  -- induction on the length of the paths
  induction n generalizing x with
  | zero => exact fits.elim
  | succ n ih =>
    have below {y : α} (member : y ∈ (children x).flatMap (occurrences children kind n)) :
        kind y = true ∧ ∃ i path, walk children (i :: path) x = some y := by
      obtain ⟨child, inside, found⟩ := List.mem_flatMap.mp member
      obtain ⟨i, chosen⟩ := List.mem_iff_getElem?.mp inside
      obtain ⟨kept, path, -, ends⟩ := mem_occurrences.mp found
      exact ⟨kept, i, path, walk_cons.mpr ⟨child, chosen, ends⟩⟩
    rw [occurrences, List.nodup_append', List.nodup_flatMap]
    constructor
    -- a path starts at one child, and two children have nothing in common
    · rintro ⟨-, ⟨each, apart⟩, outside⟩ y kept p q here there
      cases p with
      | nil =>
        obtain rfl := Option.some.inj here
        exact (fits.no_return there).symm
      | cons i p =>
        cases q with
        | nil =>
          obtain rfl := Option.some.inj there
          exact fits.no_return here
        | cons j q =>
          obtain ⟨child, chosen, here⟩ := walk_cons.mp here
          obtain ⟨other, picked, there⟩ := walk_cons.mp there
          have member := List.mem_of_getElem? chosen
          have occurs {c : α} {path : List Nat} (inside : c ∈ children x)
              (ends : walk children path c = some y) : y ∈ occurrences children kind n c :=
            mem_occurrences.mpr ⟨kept, path, fits_iff.mp (fits c inside) path y ends, ends⟩
          obtain ⟨hi, rfl⟩ := List.getElem?_eq_some_iff.mp chosen
          obtain ⟨hj, rfl⟩ := List.getElem?_eq_some_iff.mp picked
          rcases Nat.lt_trichotomy i j with lt | rfl | gt
          · have disjoint := List.pairwise_iff_getElem.mp apart i j hi hj lt
            exact absurd (occurs (List.getElem_mem hj) there)
              (disjoint (occurs (List.getElem_mem hi) here))
          · have unique := (ih (fits _ member)).mp (each _ member)
            rw [unique y kept p q here there]
          · have disjoint := List.pairwise_iff_getElem.mp apart j i hj hi gt
            exact absurd (occurs (List.getElem_mem hi) here)
              (disjoint (occurs (List.getElem_mem hj) there))
    · intro unique
      refine ⟨?_, ⟨?_, ?_⟩, ?_⟩
      · split <;> simp
      · intro child member
        obtain ⟨i, chosen⟩ := List.mem_iff_getElem?.mp member
        exact (ih (fits child member)).mpr (unique.child chosen)
      · refine List.pairwise_iff_getElem.mpr fun i j hi hj lt y first second => ?_
        obtain ⟨kept, p, -, here⟩ := mem_occurrences.mp first
        obtain ⟨-, q, -, there⟩ := mem_occurrences.mp second
        have same := unique y kept (i :: p) (j :: q)
          (walk_cons.mpr ⟨_, List.getElem?_eq_getElem hi, here⟩)
          (walk_cons.mpr ⟨_, List.getElem?_eq_getElem hj, there⟩)
        exact absurd (List.cons.inj same).1 (by omega)
      · intro y here member
        obtain ⟨kept, i, path, ends⟩ := below member
        have root : y = x := by
          split at here
          · exact List.mem_singleton.mp here
          · exact absurd here List.not_mem_nil
        subst root
        exact absurd (unique y kept [] (i :: path) rfl ends) (List.cons_ne_nil i path).symm

end Occurrences

end Graph
