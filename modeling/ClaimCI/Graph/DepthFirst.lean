import Mathlib

/-!
# Depth-first search for cycles

A depth-first visit of a finite graph, given by the children of each node. The nodes on the way
to the current one are being visited; coming back to one of them is a cycle.
-/

namespace Graph

open Relation (TransGen)

variable {α : Type} [DecidableEq α] (children : α → List α)

/-- Visits a node and what is below it, and gives the nodes that were visited; `none` is a cycle.
The fuel bounds the length of the way. -/
def visit : Nat → List α → List α → α → Option (List α)
  | 0, _, _, _ => none
  | fuel + 1, visiting, visited, x =>
    if x ∈ visiting then none
    else if x ∈ visited then some visited
    else
      ((children x).foldlM (fun visited child => visit fuel (x :: visiting) visited child)
        visited).map (x :: ·)

/-- Visits one node after the other. -/
def visitAll (fuel : Nat) (nodes : List α) : Option (List α) :=
  nodes.foldlM (visit children fuel []) []

/-- The first node is a child of the second. -/
def ChildOf (x y : α) : Prop := x ∈ children y

/-- The first node is below the second. -/
def Below : α → α → Prop := TransGen (ChildOf children)

variable {children}

theorem foldlM_cons_some {β γ : Type} {f : γ → β → Option γ} {init : γ} {b : β} {bs : List β}
    {result : γ} (h : (b :: bs).foldlM f init = some result) :
    ∃ next, f init b = some next ∧ bs.foldlM f next = some result := by
  rw [List.foldlM_cons] at h
  exact Option.bind_eq_some_iff.mp h

/-- A node from which no way goes on forever is not below itself. -/
theorem not_below_self {x : α} (h : Acc (ChildOf children) x) : ¬ Below children x x := by
  intro cycle
  have ways : Acc (Below children) x := acc_transGen_iff.mpr h
  induction ways with
  | intro y _ ih => exact ih y cycle h cycle

/-- What a visit finds has no endless way down, if what was visited before has none. -/
theorem visit_acc {fuel : Nat} {visiting visited after : List α} {x : α}
    (before : ∀ v ∈ visited, Acc (ChildOf children) v)
    (h : visit children fuel visiting visited x = some after) :
    x ∈ after ∧ visited ⊆ after ∧ ∀ v ∈ after, Acc (ChildOf children) v := by
  induction fuel generalizing visiting visited after x with
  | zero => cases h
  | succ fuel ih =>
    rw [visit] at h
    split at h
    · cases h
    · split at h
      next known =>
        obtain rfl := Option.some.inj h
        exact ⟨known, List.Subset.refl _, before⟩
      · obtain ⟨found, folded, rfl⟩ := Option.map_eq_some_iff.mp h
        -- the children one after the other, each with what those before it found
        have walk : ∀ (rest visited found : List α), (∀ v ∈ visited, Acc (ChildOf children) v) →
            rest.foldlM (fun visited child => visit children fuel (x :: visiting) visited child)
              visited = some found →
            rest ⊆ found ∧ visited ⊆ found ∧ ∀ v ∈ found, Acc (ChildOf children) v := by
          intro rest
          induction rest with
          | nil =>
            intro visited found before folded
            obtain rfl := Option.some.inj folded
            exact ⟨List.nil_subset _, List.Subset.refl _, before⟩
          | cons y rest ihRest =>
            intro visited found before folded
            obtain ⟨next, visitedChild, folded⟩ := foldlM_cons_some folded
            obtain ⟨found', kept, acc⟩ := ih before visitedChild
            obtain ⟨foundRest, keptRest, accRest⟩ := ihRest next found acc folded
            exact ⟨List.cons_subset.mpr ⟨keptRest found', foundRest⟩,
              List.Subset.trans kept keptRest, accRest⟩
        obtain ⟨below, kept, acc⟩ := walk _ _ _ before folded
        refine ⟨List.mem_cons_self, fun v hv => List.mem_cons_of_mem _ (kept hv), ?_⟩
        exact List.forall_mem_cons.mpr ⟨⟨x, fun y child => acc y (below child)⟩, acc⟩

/-- What is needed so that a visit goes through: every node is known, no node is below itself, and
the fuel is enough for the nodes that are not being visited. -/
structure Visitable (children : α → List α) (known : List α) (fuel : Nat) (visiting : List α)
    (x : α) : Prop where
  member : x ∈ known
  inside : visiting ⊆ known
  distinct : visiting.Nodup
  above : ∀ v ∈ visiting, Below children x v
  fuel : known.length < fuel + visiting.length

/-- A visit goes through in a graph without cycles. -/
theorem visit_some {known : List α} (closed : ∀ x ∈ known, children x ⊆ known)
    (acyclic : ∀ x ∈ known, ¬ Below children x x) {fuel : Nat} {visiting visited : List α} {x : α}
    (ready : Visitable children known fuel visiting x) :
    ∃ after, visit children fuel visiting visited x = some after := by
  -- the fuel covers what is not being visited; a cycle would visit `x` again
  induction fuel generalizing visiting visited x with
  | zero =>
    have := (ready.distinct.subperm ready.inside).length_le
    have := ready.fuel
    omega
  | succ fuel ih =>
    have fresh : x ∉ visiting := fun again => acyclic x ready.member (ready.above x again)
    rw [visit, if_neg fresh]
    split
    · exact ⟨_, rfl⟩
    -- the children, one after another
    · have walk : ∀ (rest visited : List α), rest ⊆ children x →
          ∃ found, rest.foldlM (fun visited child => visit children fuel (x :: visiting) visited child)
            visited = some found := by
        intro rest
        induction rest with
        | nil => exact fun visited _ => ⟨visited, rfl⟩
        | cons y rest ihRest =>
          intro visited sub
          obtain ⟨child, sub⟩ := List.cons_subset.mp sub
          have step : ChildOf children y x := child
          obtain ⟨next, visitedChild⟩ := @ih (x :: visiting) visited y {
            member := closed x ready.member child
            inside := List.cons_subset.mpr ⟨ready.member, ready.inside⟩
            distinct := List.nodup_cons.mpr ⟨fresh, ready.distinct⟩
            above := List.forall_mem_cons.mpr
              ⟨.single step, fun v hv => .head step (ready.above v hv)⟩
            fuel := by
              have := ready.fuel
              rw [List.length_cons]
              omega }
          obtain ⟨found, folded⟩ := ihRest next sub
          exact ⟨found, by rw [List.foldlM_cons, visitedChild]; exact folded⟩
      obtain ⟨found, folded⟩ := walk _ visited (List.Subset.refl _)
      exact ⟨x :: found, by rw [folded]; rfl⟩

/-- The search accepts exactly the graphs in which no node is below itself. -/
theorem visitAll_isSome_iff {known : List α} (closed : ∀ x ∈ known, children x ⊆ known) :
    (visitAll children (known.length + 1) known).isSome = true ↔
      ∀ x ∈ known, ¬ Below children x x := by
  -- a visit that returns has reached only what is accessible
  constructor
  · intro h
    obtain ⟨after, found⟩ := Option.isSome_iff_exists.mp h
    have walk : ∀ (rest visited found : List α), (∀ v ∈ visited, Acc (ChildOf children) v) →
        rest.foldlM (visit children (known.length + 1) []) visited = some found →
        visited ⊆ found ∧ rest ⊆ found ∧ ∀ v ∈ found, Acc (ChildOf children) v := by
      intro rest
      induction rest with
      | nil =>
        intro visited found before folded
        obtain rfl := Option.some.inj folded
        exact ⟨List.Subset.refl _, List.nil_subset _, before⟩
      | cons y rest ih =>
        intro visited found before folded
        obtain ⟨next, visitedNode, folded⟩ := foldlM_cons_some folded
        obtain ⟨found', kept, acc⟩ := visit_acc before visitedNode
        obtain ⟨keptRest, foundRest, accRest⟩ := ih next found acc folded
        exact ⟨List.Subset.trans kept keptRest,
          List.cons_subset.mpr ⟨keptRest found', foundRest⟩, accRest⟩
    obtain ⟨_, visited, acc⟩ := walk known [] after (by simp) found
    exact fun x member => not_below_self (acc x (visited member))
  -- without a cycle the fuel suffices for each visit
  · intro acyclic
    have walk : ∀ (rest visited : List α), rest ⊆ known →
        ∃ found, rest.foldlM (visit children (known.length + 1) []) visited = some found := by
      intro rest
      induction rest with
      | nil => exact fun visited _ => ⟨visited, rfl⟩
      | cons y rest ih =>
        intro visited sub
        obtain ⟨member, sub⟩ := List.cons_subset.mp sub
        obtain ⟨next, visitedNode⟩ := @visit_some _ _ _ _ closed acyclic (known.length + 1) []
          visited y ⟨member, List.nil_subset _, List.nodup_nil, by simp, by simp⟩
        obtain ⟨found, folded⟩ := ih next sub
        exact ⟨found, by rw [List.foldlM_cons, visitedNode]; exact folded⟩
    obtain ⟨found, folded⟩ := walk known [] (List.Subset.refl _)
    rw [visitAll, folded]
    rfl

/-- In a finite graph without cycles no way goes on forever. -/
theorem acc_of_acyclic {known : List α} (closed : ∀ x ∈ known, children x ⊆ known)
    (acyclic : ∀ x ∈ known, ¬ Below children x x) {x : α} (member : x ∈ known) :
    Acc (ChildOf children) x := by
  obtain ⟨after, found⟩ := @visit_some _ _ _ _ closed acyclic (known.length + 1) [] [] x
    ⟨member, List.nil_subset _, List.nodup_nil, by simp, by simp⟩
  obtain ⟨visited, _, acc⟩ := visit_acc (by simp) found
  exact acc x visited

end Graph
