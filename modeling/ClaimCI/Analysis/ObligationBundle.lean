import ClaimCI.Analysis.Obligations

/-!
# Compiled bundles

The decision of a bundle is a function of its graph: of its leaves, and of what lies below each
composite.
-/

open Python

namespace ClaimCI

open Graph (Below ChildOf Visitable)

/-! ### Graphs that are accepted -/

/-- Every dependency is an obligation of the bundle. -/
def NoDangling (obligations : List EvidenceObligation) : Prop :=
  ∀ item ∈ obligations, ∀ dependency ∈ item.dependencyIds, dependency ∈ obligationIds obligations

/-- One obligation is below another. -/
abbrev BelowIn (obligations : List EvidenceObligation) : Str → Str → Prop :=
  Below (dependenciesOf obligations)

/-- No obligation is below itself. -/
def NoCycle (obligations : List EvidenceObligation) : Prop :=
  ∀ id ∈ obligationIds obligations, ¬ BelowIn obligations id id

structure ValidGraph (obligations : List EvidenceObligation) : Prop where
  distinct : (obligationIds obligations).Nodup
  noDangling : NoDangling obligations
  noCycle : NoCycle obligations

theorem findObligation_some {obligations : List EvidenceObligation} {id : Str}
    {item : EvidenceObligation} (h : findObligation obligations id = some item) :
    item ∈ obligations ∧ item.obligationId = id :=
  ⟨List.mem_of_find?_eq_some h, by simpa using List.find?_some h⟩

theorem mem_obligationIds {obligations : List EvidenceObligation} {id : Str} :
    id ∈ obligationIds obligations ↔ ∃ item, findObligation obligations id = some item := by
  rw [← Option.isSome_iff_exists, findObligation, List.find?_isSome, obligationIds, List.mem_map]
  simp

/-- With distinct identifiers an obligation is found under its own. -/
theorem findObligation_self {obligations : List EvidenceObligation}
    (distinct : (obligationIds obligations).Nodup) {item : EvidenceObligation}
    (member : item ∈ obligations) : findObligation obligations item.obligationId = some item := by
  obtain ⟨found, h⟩ := mem_obligationIds.mp (List.mem_map_of_mem member)
  obtain ⟨present, same⟩ := findObligation_some h
  rw [h, List.inj_on_of_nodup_map distinct present member same]

theorem dependenciesOf_closed {obligations : List EvidenceObligation}
    (noDangling : NoDangling obligations) :
    ∀ id ∈ obligationIds obligations, dependenciesOf obligations id ⊆ obligationIds obligations := by
  intro id member dependency h
  obtain ⟨item, found⟩ := mem_obligationIds.mp member
  rw [dependenciesOf, found] at h
  exact noDangling item (findObligation_some found).1 dependency h

theorem validateGraph_ok_iff (obligations : List EvidenceObligation) :
    validateGraph obligations = .ok () ↔ ValidGraph obligations := by
  have length : obligations.length = (obligationIds obligations).length := by
    rw [obligationIds, List.length_map]
  rw [validateGraph]
  constructor
  · intro h
    obtain ⟨_, unique, h⟩ := bind_ok_iff.mp h
    obtain ⟨_, known, acyclic⟩ := bind_ok_iff.mp h
    rw [rejectIf_ok_iff] at unique known acyclic
    have noDangling : NoDangling obligations := by simpa [NoDangling] using known
    refine ⟨by simpa using unique, noDangling, ?_⟩
    apply (Graph.visitAll_isSome_iff (dependenciesOf_closed noDangling)).mp
    rw [← length]
    simpa using acyclic
  · intro valid
    have acyclic := (Graph.visitAll_isSome_iff (dependenciesOf_closed valid.noDangling)).mpr
      valid.noCycle
    rw [← length] at acyclic
    refine bind_ok_iff.mpr ⟨(), rejectIf_ok_iff.mpr ?_, bind_ok_iff.mpr ⟨(), rejectIf_ok_iff.mpr ?_,
      rejectIf_ok_iff.mpr ?_⟩⟩
    · simpa using valid.distinct
    · simpa [NoDangling] using valid.noDangling
    · simpa using acyclic

/-! ### What a composite is derived from -/

/-- The second obligation is the first one, derived from what the graph has below it. -/
inductive Derives (obligations : List EvidenceObligation) :
    EvidenceObligation → EvidenceObligation → Prop where
  | leaf (item : EvidenceObligation) (target : item.target ≠ none) : Derives obligations item item
  | composite (item : EvidenceObligation) (target : item.target = none)
      (raw derived : Str → EvidenceObligation)
      (found : ∀ id ∈ item.dependencyIds, findObligation obligations id = some (raw id))
      (children : ∀ id ∈ item.dependencyIds, Derives obligations (raw id) (derived id)) :
      Derives obligations item (item.derive target (item.dependencyIds.map derived))

/-- There is one way to derive an obligation. -/
theorem Derives.unique {obligations : List EvidenceObligation} {item v w : EvidenceObligation}
    (hv : Derives obligations item v) (hw : Derives obligations item w) : v = w := by
  induction hv generalizing w with
  | leaf item target =>
    cases hw with
    | leaf => rfl
    | composite _ composite => exact absurd composite target
  | composite item target raw derived found children ih =>
    cases hw with
    | leaf _ leaf => exact absurd target leaf
    | composite _ _ raw' derived' found' children' =>
      congr 1
      apply List.map_congr_left
      intro id member
      have same : raw id = raw' id := Option.some.inj ((found id member).symm.trans (found' id member))
      exact ih id member (same ▸ children' id member)

/-- Only the state, the reason and the effect of a composite are derived. -/
theorem derive_fields (item : EvidenceObligation) (composite : item.target = none)
    (children : List EvidenceObligation) : ∃ state reason effect,
      (item.derive composite children).toObligationFields =
        { item.toObligationFields with state := state, reason := reason, effect := effect } := by
  change ∃ state reason effect, derivedFields _ _ = _
  unfold derivedFields
  split
  · exact ⟨_, _, _, rfl⟩
  · split
    · exact ⟨_, _, _, rfl⟩
    · split
      · exact ⟨_, _, _, rfl⟩
      · exact ⟨_, _, _, rfl⟩

theorem Derives.same {obligations : List EvidenceObligation} {item v : EvidenceObligation}
    (h : Derives obligations item v) : v.obligationId = item.obligationId ∧
      v.target = item.target ∧ v.dependencyIds = item.dependencyIds ∧
      v.supportReferences = item.supportReferences := by
  cases h with
  | leaf => exact ⟨rfl, rfl, rfl, rfl⟩
  | composite _ composite raw derived found children =>
    obtain ⟨state, reason, effect, fields⟩ :=
      derive_fields item composite (item.dependencyIds.map derived)
    rw [fields]
    exact ⟨rfl, rfl, rfl, rfl⟩

/-! ### The worst state -/

/-- How bad a state is. -/
def EvidenceObligationState.rank : EvidenceObligationState → Nat
  | satisfied => 0
  | ambiguous => 1
  | missing => 2
  | unsupported => 3

theorem EvidenceObligationState.rank_injective : Function.Injective rank := by
  intro a b h
  cases a <;> cases b <;> first | rfl | cases h

theorem EvidenceObligationState.rank_le (state : EvidenceObligationState) : state.rank ≤ 3 := by
  cases state <;> decide

theorem EvidenceObligationState.rank_le_of_ne (state : EvidenceObligationState)
    (h : state ≠ .unsupported) : state.rank ≤ 2 := by
  cases state <;> first | decide | exact absurd rfl h

/-- Worse states are larger. -/
instance : LinearOrder EvidenceObligationState :=
  LinearOrder.lift' EvidenceObligationState.rank EvidenceObligationState.rank_injective

/-- The state of a composite is the worst state of its children. -/
theorem derive_state (item : EvidenceObligation) (composite : item.target = none)
    (children : List EvidenceObligation) (nonempty : children ≠ []) :
    IsGreatest {state | ∃ child ∈ children, child.state = state}
      (item.derive composite children).state := by
  change IsGreatest _ (derivedFields _ _).state
  -- the derived state is attained and bounds every child
  have worst : ∀ state : EvidenceObligationState, (∃ child ∈ children, child.state = state) →
      (∀ child ∈ children, child.state.rank ≤ state.rank) →
      IsGreatest {state | ∃ child ∈ children, child.state = state} state := by
    intro state attained bound
    refine ⟨attained, ?_⟩
    rintro _ ⟨child, member, rfl⟩
    exact bound child member
  unfold derivedFields
  split
  next unsupported =>
    refine worst .unsupported (by simpa using unsupported) ?_
    intro child _
    exact child.state.rank_le
  next noUnsupported =>
    -- each branch adds what no child is
    have below : ∀ child ∈ children, child.state ≠ .unsupported := by simpa using noUnsupported
    split
    next missing =>
      refine worst .missing (by simpa using missing) ?_
      intro child member
      exact child.state.rank_le_of_ne (below child member)
    next noMissing =>
      have present : ∀ child ∈ children, child.state ≠ .missing := by simpa using noMissing
      have blocked : ∀ child ∈ children, child.state = .satisfied ∨ child.state = .ambiguous := by
        intro child member
        have supported := below child member
        have found := present child member
        cases state : child.state with
        | satisfied => exact .inl rfl
        | ambiguous => exact .inr rfl
        | missing => exact absurd state found
        | unsupported => exact absurd state supported
      split
      next ambiguous found =>
        refine worst .ambiguous
          ⟨ambiguous, List.mem_of_find?_eq_some found, by simpa using List.find?_some found⟩ ?_
        intro child member
        rcases blocked child member with state | state <;> rw [state] <;> decide
      -- nothing is left but satisfied
      next none =>
        rw [List.find?_eq_none] at none
        have satisfied : ∀ child ∈ children, child.state = .satisfied := by
          intro child member
          rcases blocked child member with state | state
          · exact state
          · exact absurd (by simpa using state) (none child member)
        obtain ⟨child, rest, rfl⟩ := List.exists_cons_of_ne_nil nonempty
        refine worst .satisfied ⟨child, by simp, satisfied child (by simp)⟩ ?_
        intro child member
        rw [satisfied child member]

/-- An ambiguous composite requires mapping exactly when nothing below it blocks. -/
theorem derive_requiresMapping (item : EvidenceObligation) (composite : item.target = none)
    (children : List EvidenceObligation)
    (ambiguous : (item.derive composite children).state = .ambiguous) :
    (item.derive composite children).effect = .requiresMapping ↔
      ∀ child ∈ children, child.state = .satisfied ∨ child.effect = .requiresMapping := by
  change (derivedFields _ _).state = _ at ambiguous
  change (derivedFields _ _).effect = _ ↔ _
  unfold derivedFields at ambiguous ⊢
  split
  next h => rw [if_pos h] at ambiguous; cases ambiguous
  next h =>
    rw [if_neg h] at ambiguous
    split
    next h => rw [if_pos h] at ambiguous; cases ambiguous
    next h =>
      rw [if_neg h] at ambiguous
      split
      · simp [or_iff_not_imp_left]
      next none =>
        rw [none] at ambiguous
        cases ambiguous

/-- The leaves at or below an obligation. -/
def LeafUnder (obligations : List EvidenceObligation) (id : Str) (leaf : EvidenceObligation) :
    Prop :=
  leaf ∈ obligations ∧ leaf.isLeaf = true ∧
    (leaf.obligationId = id ∨ BelowIn obligations leaf.obligationId id)

/-- A composite has dependencies, and a leaf has none. -/
theorem EvidenceObligation.dependencyIds_eq_nil_iff (item : EvidenceObligation) :
    item.dependencyIds = [] ↔ item.target ≠ none := by
  have shape := item.checkShape_ok
  rw [ObligationFields.checkShape] at shape
  obtain ⟨_, _, shape⟩ := bind_ok_iff.mp shape
  obtain ⟨_, _, shape⟩ := bind_ok_iff.mp shape
  obtain ⟨_, _, shape⟩ := bind_ok_iff.mp shape
  obtain ⟨_, _, shape⟩ := bind_ok_iff.mp shape
  obtain ⟨_, _, shape⟩ := bind_ok_iff.mp shape
  obtain ⟨_, _, shape⟩ := bind_ok_iff.mp shape
  obtain ⟨_, _, shape⟩ := bind_ok_iff.mp shape
  obtain ⟨_, _, shape⟩ := bind_ok_iff.mp shape
  rw [rejectIf_ok_iff] at shape
  cases target : item.target <;> simp [target] at shape ⊢ <;> exact shape

theorem childOf_iff {obligations : List EvidenceObligation} {item : EvidenceObligation}
    (found : findObligation obligations item.obligationId = some item) (id : Str) :
    ChildOf (dependenciesOf obligations) id item.obligationId ↔ id ∈ item.dependencyIds := by
  rw [ChildOf, dependenciesOf, found]

/-- The leaves under a composite are those under its children. -/
theorem leafUnder_composite {obligations : List EvidenceObligation} {item : EvidenceObligation}
    (found : findObligation obligations item.obligationId = some item)
    (composite : item.target = none) (leaf : EvidenceObligation)
    (distinct : (obligationIds obligations).Nodup) :
    LeafUnder obligations item.obligationId leaf ↔
      ∃ id ∈ item.dependencyIds, LeafUnder obligations id leaf := by
  constructor
  · rintro ⟨member, target, same | below⟩
    · have self := findObligation_self distinct member
      rw [same, found] at self
      obtain rfl := Option.some.inj self
      rw [EvidenceObligation.isLeaf, composite] at target
      cases target
    -- the last step of the way is to a child
    · rcases Relation.TransGen.tail'_iff.mp below with ⟨id, way, step⟩
      refine ⟨id, (childOf_iff found id).mp step, member, target, ?_⟩
      rcases Relation.reflTransGen_iff_eq_or_transGen.mp way with same | below
      · exact .inl same.symm
      · exact .inr below
  · rintro ⟨id, child, member, target, way⟩
    have step := (childOf_iff found id).mpr child
    refine ⟨member, target, .inr ?_⟩
    rcases way with same | below
    · exact .single (same ▸ step)
    · exact .tail below step

/-- The state of a derived obligation is the worst state of the leaves under it. -/
theorem Derives.worst {obligations : List EvidenceObligation}
    (distinct : (obligationIds obligations).Nodup) {item v : EvidenceObligation}
    (h : Derives obligations item v) (found : findObligation obligations item.obligationId = some item) :
    IsGreatest {state | ∃ leaf, LeafUnder obligations item.obligationId leaf ∧ leaf.state = state}
      v.state := by
  induction h with
  | leaf item target =>
    have alone : ∀ leaf, LeafUnder obligations item.obligationId leaf → leaf = item := by
      rintro leaf ⟨member, _, same | below⟩
      · have self := findObligation_self distinct member
        rw [same, found] at self
        exact (Option.some.inj self).symm
      · rcases Relation.TransGen.tail'_iff.mp below with ⟨id, _, step⟩
        have child := (childOf_iff found id).mp step
        rw [item.dependencyIds_eq_nil_iff.mpr target] at child
        cases child
    refine ⟨⟨item, ⟨(findObligation_some found).1, Option.isSome_iff_ne_none.mpr target, .inl rfl⟩,
      rfl⟩, ?_⟩
    rintro _ ⟨leaf, under, rfl⟩
    rw [alone leaf under]
  | composite item composite raw derived founds children ih =>
    have nonempty : item.dependencyIds ≠ [] := fun none =>
      item.dependencyIds_eq_nil_iff.mp none composite
    obtain ⟨attained, bound⟩ := derive_state item composite (item.dependencyIds.map derived)
      (by simpa using nonempty)
    -- a child stands for the leaves under it
    have worst : ∀ id ∈ item.dependencyIds,
        IsGreatest {state | ∃ leaf, LeafUnder obligations id leaf ∧ leaf.state = state}
          (derived id).state := by
      intro id member
      have same := (findObligation_some (founds id member)).2
      have := ih id member (by rw [same]; exact founds id member)
      rwa [same] at this
    constructor
    · obtain ⟨_, member, state⟩ := attained
      obtain ⟨id, child, rfl⟩ := List.mem_map.mp member
      obtain ⟨leaf, under, leafState⟩ := (worst id child).1
      exact ⟨leaf, (leafUnder_composite found composite leaf distinct).mpr ⟨id, child, under⟩,
        leafState.trans state⟩
    · rintro _ ⟨leaf, under, rfl⟩
      obtain ⟨id, child, under⟩ := (leafUnder_composite found composite leaf distinct).mp under
      exact le_trans ((worst id child).2 ⟨leaf, under, rfl⟩)
        (bound ⟨derived id, List.mem_map_of_mem child, rfl⟩)

/-! ### The evaluation with a cache -/

/-- What the cache holds is derived. -/
def CacheSound (obligations : List EvidenceObligation) (cache : DerivedCache) : Prop :=
  ∀ id v, lookupKey id cache = some v →
    ∃ item, findObligation obligations id = some item ∧ Derives obligations item v

theorem CacheSound.cons {obligations : List EvidenceObligation} {cache : DerivedCache}
    (sound : CacheSound obligations cache) {item v : EvidenceObligation}
    (found : findObligation obligations item.obligationId = some item)
    (derives : Derives obligations item v) :
    CacheSound obligations ((item.obligationId, v) :: cache) := by
  intro id w h
  rw [lookupKey] at h
  split at h
  next same =>
    obtain rfl := Option.some.inj h
    exact ⟨item, same ▸ found, derives⟩
  · exact sound id w h

/-- One more obligation, derived behind the ones before it. -/
def deriveNext (obligations : List EvidenceObligation) (fuel : Nat)
    (state : List EvidenceObligation × DerivedCache) (item : EvidenceObligation) :
    Option (List EvidenceObligation × DerivedCache) :=
  (derivedComposite obligations fuel state.2 item).bind fun result =>
    some (state.1 ++ [result.1], result.2)

def deriveChild (obligations : List EvidenceObligation) (fuel : Nat)
    (state : List EvidenceObligation × DerivedCache) (dependency : Str) :
    Option (List EvidenceObligation × DerivedCache) :=
  (findObligation obligations dependency).bind (deriveNext obligations fuel state)

theorem derivedComposite_eq {obligations : List EvidenceObligation} {fuel : Nat}
    {cache after : DerivedCache} {item : EvidenceObligation} {children : List EvidenceObligation}
    (cached : lookupKey item.obligationId cache = none) (composite : item.target = none)
    (h : item.dependencyIds.foldlM (deriveChild obligations fuel) ([], cache) =
      some (children, after)) :
    derivedComposite obligations (fuel + 1) cache item = some (item.derive composite children,
      (item.obligationId, item.derive composite children) :: after) := by
  rw [derivedComposite, cached]
  simp only [composite, ↓reduceDIte]
  exact congrArg (Option.bind · _) h

/-- In a valid graph an obligation that is found is derived, whatever was derived before. -/
theorem derivedComposite_derives {obligations : List EvidenceObligation}
    (valid : ValidGraph obligations) {fuel : Nat} {visiting : List Str} {cache : DerivedCache}
    {item : EvidenceObligation}
    (found : findObligation obligations item.obligationId = some item)
    (ready : Visitable (dependenciesOf obligations) (obligationIds obligations) fuel visiting
      item.obligationId) (sound : CacheSound obligations cache) :
    ∃ v after, derivedComposite obligations fuel cache item = some (v, after) ∧
      Derives obligations item v ∧ CacheSound obligations after := by
  induction fuel generalizing visiting cache item with
  | zero =>
    have := (ready.distinct.subperm ready.inside).length_le
    have := ready.fuel
    omega
  | succ fuel ih =>
    cases cached : lookupKey item.obligationId cache with
    | some v =>
      obtain ⟨stored, again, derives⟩ := sound _ _ cached
      obtain rfl := Option.some.inj (found.symm.trans again)
      exact ⟨v, cache, by rw [derivedComposite, cached], derives, sound⟩
    | none =>
      by_cases composite : item.target = none
      · -- the children one after the other, with the cache the ones before them leave
        have walk : ∀ (rest : List Str) (before : List EvidenceObligation) (cache : DerivedCache),
            rest ⊆ item.dependencyIds → CacheSound obligations cache →
            ∃ (raw derived : Str → EvidenceObligation) (after : DerivedCache),
              rest.foldlM (deriveChild obligations fuel) (before, cache) =
                some (before ++ rest.map derived, after) ∧
              (∀ id ∈ rest, findObligation obligations id = some (raw id) ∧
                Derives obligations (raw id) (derived id)) ∧
              CacheSound obligations after := by
          intro rest
          induction rest with
          | nil =>
            intro before cache _ sound
            exact ⟨fun _ => item, fun _ => item, cache, by simp, by simp, sound⟩
          | cons id rest ihRest =>
            intro before cache sub sound
            obtain ⟨member, sub⟩ := List.cons_subset.mp sub
            have step : ChildOf (dependenciesOf obligations) id item.obligationId :=
              (childOf_iff found id).mpr member
            have known : id ∈ obligationIds obligations :=
              dependenciesOf_closed valid.noDangling _ ready.member step
            obtain ⟨child, childFound⟩ := mem_obligationIds.mp known
            have same := (findObligation_some childFound).2
            have fresh : item.obligationId ∉ visiting := fun again =>
              valid.noCycle _ ready.member (ready.above _ again)
            obtain ⟨v, next, computed, derives, soundNext⟩ :=
              @ih (item.obligationId :: visiting) cache child (by rw [same]; exact childFound) {
                member := same ▸ known
                inside := List.cons_subset.mpr ⟨ready.member, ready.inside⟩
                distinct := List.nodup_cons.mpr ⟨fresh, ready.distinct⟩
                above := List.forall_mem_cons.mpr
                  ⟨same ▸ .single step, fun w hw => same ▸ .head step (ready.above w hw)⟩
                fuel := by
                  have := ready.fuel
                  rw [List.length_cons]
                  omega } sound
            obtain ⟨raw, derived, after, folded, children, soundAfter⟩ :=
              ihRest (before ++ [v]) next sub soundNext
            -- the functions may answer for the identifier again further on, with the same result
            refine ⟨fun x => if x = id then child else raw x,
              fun x => if x = id then v else derived x, after, ?_, ?_, soundAfter⟩
            · rw [List.foldlM_cons, deriveChild, childFound]
              simp only [Option.bind_eq_bind, Option.bind_some, deriveNext, computed]
              rw [folded, List.append_assoc]
              have repeated : ∀ x ∈ rest, derived x = if x = id then v else derived x := by
                intro x hx
                split
                next same =>
                  subst same
                  obtain ⟨foundRaw, derivesRaw⟩ := children x hx
                  obtain rfl := Option.some.inj (childFound.symm.trans foundRaw)
                  exact derivesRaw.unique derives
                · rfl
              rw [List.map_cons, if_pos rfl, List.singleton_append, List.map_congr_left repeated]
            · intro x hx
              by_cases same : x = id
              · subst same
                simp only [if_true]
                exact ⟨childFound, derives⟩
              · simp only [if_neg same]
                exact children x ((List.mem_cons.mp hx).resolve_left same)
        obtain ⟨raw, derived, after, folded, children, soundAfter⟩ :=
          walk item.dependencyIds [] cache (List.Subset.refl _) sound
        have derives : Derives obligations item (item.derive composite (item.dependencyIds.map derived)) :=
          .composite item composite raw derived (fun id member => (children id member).1)
            fun id member => (children id member).2
        exact ⟨_, _, derivedComposite_eq cached composite folded, derives,
          soundAfter.cons found derives⟩
      · refine ⟨item, (item.obligationId, item) :: cache, ?_, .leaf item composite,
          sound.cons found (.leaf item composite)⟩
        rw [derivedComposite, cached]
        simp only [composite, ↓reduceDIte]

/-- The obligations of a valid graph are all derived. -/
theorem derivedAll_derives {obligations : List EvidenceObligation} (valid : ValidGraph obligations) :
    ∃ derived cache, derivedAll obligations = some (derived, cache) ∧
      List.Forall₂ (Derives obligations) obligations derived := by
  -- induction on the obligations, with one cache for all of them
  have walk : ∀ (rest : List EvidenceObligation) (before : List EvidenceObligation)
      (cache : DerivedCache), rest ⊆ obligations → CacheSound obligations cache →
      ∃ derived after, rest.foldlM (deriveNext obligations (obligations.length + 1))
          (before, cache) = some (before ++ derived, after) ∧
        List.Forall₂ (Derives obligations) rest derived := by
    intro rest
    induction rest with
    | nil => exact fun before cache _ _ => ⟨[], cache, by simp, .nil⟩
    | cons item rest ih =>
      intro before cache sub sound
      obtain ⟨member, sub⟩ := List.cons_subset.mp sub
      have found := findObligation_self valid.distinct member
      obtain ⟨v, next, computed, derives, soundNext⟩ :=
        @derivedComposite_derives obligations valid (obligations.length + 1) [] cache item found
          ⟨mem_obligationIds.mpr ⟨item, found⟩, List.nil_subset _, List.nodup_nil, by simp,
            by simp [obligationIds]⟩ sound
      obtain ⟨derived, after, folded, all⟩ := ih (before ++ [v]) next sub soundNext
      refine ⟨v :: derived, after, ?_, .cons derives all⟩
      rw [List.foldlM_cons, deriveNext]
      simp only [Option.bind_eq_bind, Option.bind_some, computed]
      rw [folded, List.append_assoc, List.singleton_append]
  have empty : CacheSound obligations [] := by
    intro id w stored
    cases stored
  obtain ⟨derived, after, folded, all⟩ := walk obligations [] [] (List.Subset.refl _) empty
  exact ⟨derived, after, folded, all⟩

/-! ### Any order of the input -/

theorem findObligation_perm {obligations others : List EvidenceObligation}
    (perm : obligations.Perm others) (distinct : (obligationIds obligations).Nodup) (id : Str) :
    findObligation obligations id = findObligation others id := by
  have distinct' : (obligationIds others).Nodup := (perm.map _).nodup_iff.mp distinct
  cases found : findObligation obligations id with
  | some item =>
    obtain ⟨member, rfl⟩ := findObligation_some found
    exact (findObligation_self distinct' (perm.mem_iff.mp member)).symm
  | none =>
    cases other : findObligation others id with
    | none => rfl
    | some item =>
      obtain ⟨member, rfl⟩ := findObligation_some other
      rw [findObligation_self distinct (perm.mem_iff.mpr member)] at found
      cases found

theorem dependenciesOf_perm {obligations others : List EvidenceObligation}
    (perm : obligations.Perm others) (distinct : (obligationIds obligations).Nodup) :
    dependenciesOf obligations = dependenciesOf others := by
  funext id
  rw [dependenciesOf, dependenciesOf, findObligation_perm perm distinct]

theorem ValidGraph.perm {obligations others : List EvidenceObligation}
    (perm : obligations.Perm others) (valid : ValidGraph obligations) : ValidGraph others := by
  have ids : (obligationIds obligations).Perm (obligationIds others) := perm.map _
  refine ⟨ids.nodup_iff.mp valid.distinct, ?_, ?_⟩
  · intro item member dependency child
    exact ids.mem_iff.mp (valid.noDangling item (perm.mem_iff.mpr member) dependency child)
  · intro id member
    rw [BelowIn, ← dependenciesOf_perm perm valid.distinct]
    exact valid.noCycle id (ids.mem_iff.mpr member)

theorem Derives.perm {obligations others : List EvidenceObligation}
    (perm : obligations.Perm others) (distinct : (obligationIds obligations).Nodup)
    {item v : EvidenceObligation} (h : Derives obligations item v) : Derives others item v := by
  induction h with
  | leaf item target => exact .leaf item target
  | composite item composite raw derived found children ih =>
    refine .composite item composite raw derived (fun id member => ?_) ih
    rw [← findObligation_perm perm distinct]
    exact found id member

/-- A valid graph has derived obligations, the same whatever its order. -/
theorem derivedObligations_ok {obligations : List EvidenceObligation}
    (valid : ValidGraph obligations) : ∃ derived, derivedObligations obligations = .ok derived ∧
      ∃ unsorted, List.Forall₂ (Derives obligations) obligations unsorted ∧
        derived = sortById unsorted := by
  obtain ⟨derived, cache, computed, all⟩ := derivedAll_derives valid
  refine ⟨sortById derived, ?_, derived, all, rfl⟩
  rw [derivedObligations, computed]

/-- What of an obligation is never derived. -/
def EvidenceObligation.fixedPart (item : EvidenceObligation) :
    Str × Option ObligationTarget × List Str × List ObligationSupport :=
  (item.obligationId, item.target, item.dependencyIds, item.supportReferences)

theorem fixedPart_derived {obligations items derived : List EvidenceObligation}
    (all : List.Forall₂ (Derives obligations) items derived) :
    derived.map EvidenceObligation.fixedPart = items.map EvidenceObligation.fixedPart := by
  induction all with
  | nil => rfl
  | cons derives _ ih =>
    obtain ⟨id, target, dependencies, support⟩ := derives.same
    rw [List.map_cons, List.map_cons, ih, EvidenceObligation.fixedPart, id, target, dependencies,
      support]
    rfl

theorem obligationIds_derived {obligations items derived : List EvidenceObligation}
    (all : List.Forall₂ (Derives obligations) items derived) :
    obligationIds derived = obligationIds items := by
  have := congrArg (List.map Prod.fst) (fixedPart_derived all)
  rwa [List.map_map, List.map_map] at this

theorem derivedObligations_perm {obligations others : List EvidenceObligation}
    (perm : obligations.Perm others) (valid : ValidGraph obligations) :
    derivedObligations obligations = derivedObligations others := by
  obtain ⟨derived, computed, unsorted, all, rfl⟩ := derivedObligations_ok valid
  obtain ⟨derived', computed', unsorted', all', rfl⟩ := derivedObligations_ok (valid.perm perm)
  rw [computed, computed']
  -- the derived obligations of a permuted input are a permutation of the derived ones
  obtain ⟨middle, ahead, same⟩ : Relation.Comp (List.Forall₂ (Derives others)) List.Perm others
      unsorted := List.perm_comp_forall₂ perm.symm
    (all.imp fun _ _ h => h.perm perm valid.distinct)
  have right : Relator.RightUnique (Derives others) := fun _ _ _ h g => h.unique g
  obtain rfl := List.right_unique_forall₂' right all' ahead
  congr 1
  refine sortBy_eq_of_perm _ same.symm ?_
  intro a ha b hb ids
  have distinct : (obligationIds unsorted).Nodup := by
    rw [obligationIds_derived all]
    exact valid.distinct
  exact List.inj_on_of_nodup_map distinct ha hb ids

/-! ### The compiled decision -/

/-- What a compiled bundle says about the obligations it was built from. -/
structure Compiled (compilerSupported : Bool) (obligations : List EvidenceObligation)
    (mappingQuestionId : Option Str) (bundle : EvidenceObligationBundle) : Prop where
  /-- The bundle holds the obligations; only composites may change, in state, reason, effect. -/
  items : (bundle.obligations.map EvidenceObligation.fixedPart).Perm
    (obligations.map EvidenceObligation.fixedPart)
  leaves : ∀ leaf, leaf.isLeaf = true → (leaf ∈ bundle.obligations ↔ leaf ∈ obligations)
  ready : bundle.decision = .ready ↔ compilerSupported = true ∧
    ∀ leaf ∈ obligations, leaf.isLeaf = true → leaf.state = .satisfied
  mappingNeeded : bundle.decision = .mappingNeeded ↔ compilerSupported = true ∧
    (∀ leaf ∈ obligations, leaf.isLeaf = true → leaf.state ≠ .satisfied →
      leaf.effect ≠ .blocksPartial) ∧
    (∃ leaf ∈ obligations, leaf.isLeaf = true ∧ leaf.effect = .requiresMapping) ∧
    mappingQuestionId ≠ none
  blockers : ∀ id, id ∈ bundle.blockingObligationIds ↔
    ∃ leaf ∈ obligations, leaf.isLeaf = true ∧ leaf.state ≠ .satisfied ∧ leaf.obligationId = id
  blockersOnce : bundle.blockingObligationIds.Nodup
  worst : ∀ item ∈ bundle.obligations, item.isLeaf = false →
    IsGreatest {state | ∃ leaf ∈ obligations, leaf.isLeaf = true ∧
      BelowIn obligations leaf.obligationId item.obligationId ∧ leaf.state = state} item.state
  requiresMapping : ∀ item ∈ bundle.obligations, item.isLeaf = false → item.state = .ambiguous →
    (item.effect = .requiresMapping ↔ ∀ child ∈ bundle.obligations,
      child.obligationId ∈ item.dependencyIds →
        child.state = .satisfied ∨ child.effect = .requiresMapping)

theorem EvidenceObligation.effect_none_iff (item : EvidenceObligation) :
    item.effect = .none ↔ item.state = .satisfied := by
  obtain ⟨satisfied, missing, unsupported, ambiguous⟩ := item.consistent
  refine ⟨fun effect => ?_, fun state => (satisfied state).1⟩
  cases state : item.state with
  | satisfied => rfl
  | missing => rw [(missing state).1] at effect; cases effect
  | unsupported => rw [(unsupported state).1] at effect; cases effect
  | ambiguous => exact absurd effect (ambiguous state).2.1

theorem compileDecision_ready_iff (compilerSupported : Bool) (leaves : List EvidenceObligation)
    (question : Option Str) : (compileDecision compilerSupported leaves question).1 = .ready ↔
      compilerSupported = true ∧ ∀ leaf ∈ leaves, leaf.effect = .none := by
  have none_iff (leaf : EvidenceObligation) : leaf.effect = .none ↔
      leaf.effect ≠ .blocksPartial ∧ leaf.effect ≠ .requiresMapping := by
    cases leaf.effect <;> simp
  unfold compileDecision
  split
  -- the compiler or a leaf blocks: no decision is ready
  next blocked =>
    simp only [Bool.or_eq_true, Bool.not_eq_true', List.any_eq_true, decide_eq_true_eq] at blocked
    refine iff_of_false nofun ?_
    rintro ⟨supported, none⟩
    rcases blocked with unsupported | ⟨leaf, member, effect⟩
    · rw [supported] at unsupported
      cases unsupported
    · rw [none leaf member] at effect
      cases effect
  -- nothing blocks, so only a mapping may still be asked for
  next free =>
    simp only [Bool.or_eq_true, Bool.not_eq_true', List.any_eq_true, decide_eq_true_eq, not_or,
      Bool.not_eq_false, not_exists, not_and] at free
    split
    next mapping =>
      simp only [List.any_eq_true, decide_eq_true_eq] at mapping
      obtain ⟨leaf, member, effect⟩ := mapping
      refine iff_of_false (by cases question <;> nofun) ?_
      rintro ⟨_, none⟩
      rw [none leaf member] at effect
      cases effect
    next plain =>
      simp only [List.any_eq_true, decide_eq_true_eq, not_exists, not_and] at plain
      exact iff_of_true rfl ⟨free.1, fun leaf member =>
        (none_iff leaf).mpr ⟨free.2 leaf member, plain leaf member⟩⟩

theorem compileDecision_mappingNeeded_iff (compilerSupported : Bool)
    (leaves : List EvidenceObligation) (question : Option Str) :
    (compileDecision compilerSupported leaves question).1 = .mappingNeeded ↔
      compilerSupported = true ∧ (∀ leaf ∈ leaves, leaf.effect ≠ .blocksPartial) ∧
      (∃ leaf ∈ leaves, leaf.effect = .requiresMapping) ∧ question ≠ none := by
  unfold compileDecision
  split
  next blocked =>
    simp only [Bool.or_eq_true, Bool.not_eq_true', List.any_eq_true, decide_eq_true_eq] at blocked
    refine iff_of_false nofun ?_
    rintro ⟨supported, none, _⟩
    rcases blocked with unsupported | ⟨leaf, member, effect⟩
    · rw [supported] at unsupported
      cases unsupported
    · exact none leaf member effect
  next free =>
    simp only [Bool.or_eq_true, Bool.not_eq_true', List.any_eq_true, decide_eq_true_eq, not_or,
      Bool.not_eq_false, not_exists, not_and] at free
    split
    next mapping =>
      simp only [List.any_eq_true, decide_eq_true_eq] at mapping
      cases question with
      | none => exact iff_of_false nofun fun h => h.2.2.2 rfl
      | some question => exact iff_of_true rfl ⟨free.1, free.2, mapping, nofun⟩
    next plain =>
      simp only [List.any_eq_true, decide_eq_true_eq, not_exists, not_and] at plain
      refine iff_of_false nofun ?_
      rintro ⟨_, _, ⟨leaf, member, effect⟩, _⟩
      exact plain leaf member effect

/-- What a bundle that was built is made of. -/
theorem buildObligationBundle_ok {claimId policyId : Str} {compilerSupported : Bool}
    {obligations : List EvidenceObligation} {mappingQuestionId : Option Str}
    {bundle : EvidenceObligationBundle}
    (h : buildObligationBundle claimId policyId compilerSupported obligations mappingQuestionId =
      .ok bundle) : ValidGraph obligations ∧
      derivedObligations obligations = .ok bundle.obligations ∧
      bundle.blockingObligationIds = ((bundle.obligations.filter EvidenceObligation.isLeaf).filter
        fun item => item.state ≠ .satisfied).map (fun item => item.obligationId) ∧
      bundle.decision = (compileDecision compilerSupported
        (bundle.obligations.filter EvidenceObligation.isLeaf) mappingQuestionId).1 := by
  rw [buildObligationBundle] at h
  obtain ⟨_, _, h⟩ := bind_ok_iff.mp h
  obtain ⟨_, _, h⟩ := bind_ok_iff.mp h
  obtain ⟨_, _, h⟩ := bind_ok_iff.mp h
  obtain ⟨_, _, h⟩ := bind_ok_iff.mp h
  obtain ⟨_, graph, h⟩ := bind_ok_iff.mp h
  obtain ⟨derived, computed, h⟩ := bind_ok_iff.mp h
  obtain ⟨_, _, h⟩ := bind_ok_iff.mp h
  obtain rfl := Except.ok.inj h
  exact ⟨(validateGraph_ok_iff obligations).mp graph, computed, rfl, rfl⟩

theorem mem_forall₂_right {α β : Type} {r : α → β → Prop} {l : List α} {m : List β}
    (h : List.Forall₂ r l m) {b : β} (member : b ∈ m) : ∃ a ∈ l, r a b := by
  induction h with
  | nil => cases member
  | cons related _ ih =>
    rcases List.mem_cons.mp member with rfl | member
    · exact ⟨_, List.mem_cons_self, related⟩
    · obtain ⟨a, ha, related⟩ := ih member
      exact ⟨a, List.mem_cons_of_mem _ ha, related⟩

theorem mem_forall₂_left {α β : Type} {r : α → β → Prop} {l : List α} {m : List β}
    (h : List.Forall₂ r l m) {a : α} (member : a ∈ l) : ∃ b ∈ m, r a b :=
  mem_forall₂_right h.flip member

theorem buildObligationBundle_compiled {claimId policyId : Str} {compilerSupported : Bool}
    {obligations : List EvidenceObligation} {mappingQuestionId : Option Str}
    {bundle : EvidenceObligationBundle}
    (h : buildObligationBundle claimId policyId compilerSupported obligations mappingQuestionId =
      .ok bundle) : Compiled compilerSupported obligations mappingQuestionId bundle := by
  obtain ⟨valid, computed, blocking, decided⟩ := buildObligationBundle_ok h
  obtain ⟨derived, again, unsorted, all, rfl⟩ := derivedObligations_ok valid
  have sorted : bundle.obligations = sortById unsorted :=
    Except.ok.inj (computed.symm.trans again)
  have perm : (sortById unsorted).Perm unsorted := sortBy_perm_self _ _
  have member : ∀ v, v ∈ bundle.obligations ↔ ∃ item ∈ obligations, Derives obligations item v := by
    intro v
    rw [sorted, perm.mem_iff]
    constructor
    · exact mem_forall₂_right all
    · rintro ⟨item, mem, derives⟩
      obtain ⟨w, mem, derives'⟩ := mem_forall₂_left all mem
      rwa [derives.unique derives']
  have leaves : ∀ leaf, leaf.isLeaf = true → (leaf ∈ bundle.obligations ↔ leaf ∈ obligations) := by
    intro leaf target
    rw [member]
    constructor
    · rintro ⟨item, mem, derives⟩
      have same := derives.same.2.1
      cases derives with
      | leaf => exact mem
      | composite _ composite =>
        rw [EvidenceObligation.isLeaf, same, composite] at target
        cases target
    · intro mem
      exact ⟨leaf, mem, .leaf leaf (Option.isSome_iff_ne_none.mp target)⟩
  have filtered : ∀ leaf, leaf ∈ bundle.obligations.filter EvidenceObligation.isLeaf ↔
      leaf ∈ obligations ∧ leaf.isLeaf = true := by
    intro leaf
    rw [List.mem_filter]
    exact ⟨fun h => ⟨(leaves leaf h.2).mp h.1, h.2⟩, fun h => ⟨(leaves leaf h.2).mpr h.1, h.2⟩⟩
  have ids : (obligationIds bundle.obligations).Perm (obligationIds obligations) := by
    rw [sorted, ← obligationIds_derived all]
    exact perm.map _
  have notLeaf : ∀ item : EvidenceObligation, item.isLeaf = false → item.target = none := by
    intro item composite
    simpa [EvidenceObligation.isLeaf] using composite
  refine ⟨?_, leaves, ?_, ?_, ?_, ?_, ?_, ?_⟩
  · rw [sorted, ← fixedPart_derived all]
    exact perm.map _
  · rw [decided, compileDecision_ready_iff]
    simp only [filtered, and_imp, EvidenceObligation.effect_none_iff]
  · rw [decided, compileDecision_mappingNeeded_iff]
    simp only [filtered, and_imp, and_assoc]
    refine and_congr_right fun _ => and_congr_left fun _ => ?_
    refine forall₃_congr fun leaf mem target => ⟨fun free _ => free, fun free blocked => ?_⟩
    refine free ?_ blocked
    rw [Ne, ← leaf.effect_none_iff, blocked]
    nofun
  · intro id
    rw [blocking, List.mem_map]
    constructor
    · rintro ⟨leaf, mem, rfl⟩
      obtain ⟨mem, blocked⟩ := List.mem_filter.mp mem
      obtain ⟨mem, target⟩ := (filtered leaf).mp mem
      exact ⟨leaf, mem, target, by simpa using blocked, rfl⟩
    · rintro ⟨leaf, mem, target, blocked, rfl⟩
      exact ⟨leaf, List.mem_filter.mpr ⟨(filtered leaf).mpr ⟨mem, target⟩, by simpa using blocked⟩,
        rfl⟩
  · rw [blocking]
    have distinct : (obligationIds bundle.obligations).Nodup := ids.nodup_iff.mpr valid.distinct
    exact distinct.sublist ((List.filter_sublist.trans List.filter_sublist).map _)
  · intro item mem composite
    obtain ⟨raw, rawMem, derives⟩ := (member item).mp mem
    have found := findObligation_self valid.distinct rawMem
    have rawComposite : raw.target = none := by
      rw [← derives.same.2.1]
      exact notLeaf item composite
    have worst := derives.worst valid.distinct found
    rw [derives.same.1]
    -- under a composite means strictly below it
    have strict : ∀ leaf, LeafUnder obligations raw.obligationId leaf ↔ leaf ∈ obligations ∧
        leaf.isLeaf = true ∧ BelowIn obligations leaf.obligationId raw.obligationId := by
      intro leaf
      refine and_congr_right fun leafMem => and_congr_right fun target => ?_
      refine or_iff_right_of_imp fun same => ?_
      have self := findObligation_self valid.distinct leafMem
      rw [same, found] at self
      obtain rfl := Option.some.inj self
      rw [EvidenceObligation.isLeaf, rawComposite] at target
      cases target
    simpa only [strict, and_assoc] using worst
  · intro item mem composite ambiguous
    obtain ⟨raw, rawMem, derives⟩ := (member item).mp mem
    cases derives with
    | leaf _ target => exact absurd (notLeaf _ composite) target
    | composite _ rawComposite raws derived founds children =>
      rw [derive_requiresMapping _ _ _ ambiguous]
      have dependencies : (raw.derive rawComposite (raw.dependencyIds.map derived)).dependencyIds =
          raw.dependencyIds :=
        (Derives.composite raw rawComposite raws derived founds children).same.2.2.1
      rw [dependencies, List.forall_mem_map]
      constructor
      · intro satisfied child childMem dependency
        obtain ⟨rawChild, rawChildMem, derivesChild⟩ := (member child).mp childMem
        have childFound := findObligation_self valid.distinct rawChildMem
        rw [← derivesChild.same.1, founds _ dependency] at childFound
        obtain rfl := Option.some.inj childFound
        rw [derivesChild.unique (children _ dependency)]
        exact satisfied _ dependency
      · intro satisfied id dependency
        refine satisfied (derived id) ?_ ?_
        · exact (member _).mpr ⟨raws id, (findObligation_some (founds id dependency)).1,
            children id dependency⟩
        · rw [(children id dependency).same.1, (findObligation_some (founds id dependency)).2]
          exact dependency

theorem validateGraph_perm {obligations others : List EvidenceObligation}
    (perm : obligations.Perm others) : validateGraph obligations = validateGraph others := by
  have ids : (obligationIds obligations).Perm (obligationIds others) := perm.map _
  have unique : (obligationIds obligations).Nodup ↔ (obligationIds others).Nodup := ids.nodup_iff
  have known : NoDangling obligations ↔ NoDangling others := by
    simp only [NoDangling, perm.mem_iff, ids.mem_iff]
  have dangling (graph : List EvidenceObligation) : (graph.any fun item =>
      item.dependencyIds.any fun dependency => !(obligationIds graph).contains dependency) = false ↔
      NoDangling graph := by
    simp [NoDangling]
  by_cases valid : validateGraph obligations = .ok ()
  · have graph := (validateGraph_ok_iff obligations).mp valid
    rw [valid, (validateGraph_ok_iff others).mpr (graph.perm perm)]
  · have other : ¬ validateGraph others = .ok () := by
      intro ok
      refine valid ((validateGraph_ok_iff obligations).mpr ?_)
      exact ((validateGraph_ok_iff others).mp ok).perm perm.symm
    rw [validateGraph] at valid other ⊢
    rw [validateGraph]
    -- both fail at the same check
    by_cases distinct : (obligationIds obligations).Nodup
    · have distinct' := unique.mp distinct
      by_cases noDangling : NoDangling obligations
      · rw [(dangling obligations).mpr noDangling] at valid ⊢
        rw [(dangling others).mpr (known.mp noDangling)] at other ⊢
        simp only [distinct, distinct', decide_true, Bool.not_true, rejectIf, Bool.false_eq_true,
          if_false, bind, Except.bind] at valid other ⊢
        split at valid
        next cyclic =>
          split at other
          next cyclic' => rw [if_pos cyclic, if_pos cyclic']
          · exact absurd rfl other
        · exact absurd rfl valid
      · rw [Bool.eq_true_of_not_eq_false fun h => noDangling ((dangling obligations).mp h),
          Bool.eq_true_of_not_eq_false fun h => noDangling (known.mpr ((dangling others).mp h))]
        simp [distinct, distinct', rejectIf, bind, Except.bind]
    · have distinct' : ¬ (obligationIds others).Nodup := fun h => distinct (unique.mpr h)
      simp [distinct, distinct', rejectIf, bind, Except.bind]

/-- A bundle does not depend on the order of its obligations, not even in what it raises. -/
theorem buildObligationBundle_perm (claimId policyId : Str) (compilerSupported : Bool)
    {obligations others : List EvidenceObligation} (mappingQuestionId : Option Str)
    (perm : obligations.Perm others) :
    buildObligationBundle claimId policyId compilerSupported obligations mappingQuestionId =
      buildObligationBundle claimId policyId compilerSupported others mappingQuestionId := by
  have support : (obligations.map fun item => item.supportReferences.length).sum =
      (others.map fun item => item.supportReferences.length).sum := (perm.map _).sum_eq
  rw [buildObligationBundle, buildObligationBundle, perm.length_eq, support,
    validateGraph_perm perm]
  cases graph : validateGraph others with
  | error error => rfl
  | ok unit =>
    have valid := ((validateGraph_ok_iff others).mp graph).perm perm.symm
    rw [derivedObligations_perm perm valid]

/-- A leaf that is satisfied, a leaf that needs a mapping, and the composite over both. -/
def sampleObligations : List EvidenceObligation :=
  [⟨⟨lit "claim", none, .missing, .dependencyMissing, .blocksPartial, [],
      [lit "metric", lit "train"]⟩, by decide +kernel⟩,
    ⟨⟨lit "train", some (.artifactSlot .dataset .candidate (some .train)), .ambiguous,
      .explicitMappingApprovalRequired, .requiresMapping, [], []⟩, by decide +kernel⟩,
    ⟨⟨lit "metric", some (.claimField .metric none), .satisfied, .validatedSupportBound, .none,
      [.claimField (lit "support") (lit "claim-1") .metric none], []⟩, by decide +kernel⟩]

/-- For every set of obligations, in every order: the bundle that is built is a function of their
graph, and a graph with a cycle or a dangling child has none. -/
theorem buildObligationBundle_sound (claimId policyId : Str) (compilerSupported : Bool)
    (obligations : List EvidenceObligation) (mappingQuestionId : Option Str) :
    (∀ bundle, buildObligationBundle claimId policyId compilerSupported obligations
        mappingQuestionId = .ok bundle →
      Compiled compilerSupported obligations mappingQuestionId bundle) ∧
    (∀ others : List EvidenceObligation, obligations.Perm others →
      buildObligationBundle claimId policyId compilerSupported others mappingQuestionId =
        buildObligationBundle claimId policyId compilerSupported obligations mappingQuestionId) ∧
    (¬ NoDangling obligations ∨ ¬ NoCycle obligations →
      ∃ error, buildObligationBundle claimId policyId compilerSupported obligations
        mappingQuestionId = .error error) := by
  refine ⟨fun bundle h => buildObligationBundle_compiled h, ?_, ?_⟩
  · intro others perm
    exact (buildObligationBundle_perm claimId policyId compilerSupported mappingQuestionId perm).symm
  · intro broken
    cases built : buildObligationBundle claimId policyId compilerSupported obligations
        mappingQuestionId with
    | error error => exact ⟨error, rfl⟩
    | ok bundle =>
      have valid := (buildObligationBundle_ok built).1
      rcases broken with dangling | cyclic
      · exact absurd valid.noDangling dangling
      · exact absurd valid.noCycle cyclic

example : (buildObligationBundle (lit "claim-1") (lit "policy") true sampleObligations
    (some (lit "question"))).toOption.map (fun bundle => (bundle.decision,
      bundle.obligations.map fun item => (item.state, item.effect))) =
    some (.mappingNeeded, [(.ambiguous, .requiresMapping), (.satisfied, .none),
      (.ambiguous, .requiresMapping)]) := by decide +kernel

end ClaimCI
