import ClaimCI.Python.Value

/-!
# Equality of YAML values

Values of a document compared as the document means them: booleans are no numbers, and a NaN is a
NaN whichever load built it. Python's own equality agrees up to these two.
-/

namespace Python

namespace Value

/-- Equality of YAML values that hold no others. -/
def yamlScalar (v w : Value) : Bool :=
  match v, w with
  | .bool a, .bool b => a == b
  | .bool _, _ => false
  | _, .bool _ => false
  | .nan _, .nan _ => true
  | v, w => sameScalar v w

mutual

/-- Equality of YAML values. -/
def sameYaml : Value → Value → Bool
  | .list vs, .list ws => sameYamlItems vs ws
  | .tuple vs, .tuple ws => sameYamlItems vs ws
  | .set vs, .set ws => vs.length == ws.length && yamlSubset vs ws
  | .dict vs, .dict ws => vs.length == ws.length && yamlSubdict vs ws
  | v, w => yamlScalar v w

def sameYamlItems : List Value → List Value → Bool
  | [], [] => true
  | v :: vs, w :: ws => sameYaml v w && sameYamlItems vs ws
  | _, _ => false

def yamlSubset : List Value → List Value → Bool
  | [], _ => true
  | v :: vs, ws => ws.any (fun w => sameYaml v w) && yamlSubset vs ws

def yamlSubdict : List (Value × Value) → List (Value × Value) → Bool
  | [], _ => true
  | (k, v) :: vs, ws => ws.any (fun w => sameYaml k w.1 && sameYaml v w.2) && yamlSubdict vs ws

end

mutual

/-- Every boolean in a value read as the number that Python takes it for. -/
def numbers : Value → Value
  | .bool b => .int (if b then 1 else 0)
  | .list items => .list (itemNumbers items)
  | .tuple items => .tuple (itemNumbers items)
  | .set items => .set (itemNumbers items)
  | .dict entries => .dict (entryNumbers entries)
  | v => v

def itemNumbers : List Value → List Value
  | [] => []
  | v :: vs => numbers v :: itemNumbers vs

def entryNumbers : List (Value × Value) → List (Value × Value)
  | [] => []
  | (k, v) :: entries => (numbers k, numbers v) :: entryNumbers entries

end

mutual

/-- The NaN objects in a value. -/
def nans : Value → List Nat
  | .nan object => [object]
  | .list items => itemNans items
  | .tuple items => itemNans items
  | .set items => itemNans items
  | .dict entries => entryNans entries
  | _ => []

def itemNans : List Value → List Nat
  | [] => []
  | v :: vs => nans v ++ itemNans vs

def entryNans : List (Value × Value) → List Nat
  | [] => []
  | (k, v) :: entries => nans k ++ nans v ++ entryNans entries

end

/-- The one NaN object of the loader's class: every `.nan` of every load is this object. Only a tag
that parses the text as a float, as `!!float nan` does, builds others. -/
def NAN_VALUE : Nat := 0

mutual

/-- The same content from another load, which shares the loader's own NaN object and builds the
others anew. -/
def reload (fresh : Nat → Nat) : Value → Value
  | .nan object => .nan (if object = NAN_VALUE then NAN_VALUE else fresh object)
  | .list items => .list (reloadItems fresh items)
  | .tuple items => .tuple (reloadItems fresh items)
  | .set items => .set (reloadItems fresh items)
  | .dict entries => .dict (reloadEntries fresh entries)
  | v => v

def reloadItems (fresh : Nat → Nat) : List Value → List Value
  | [] => []
  | v :: vs => reload fresh v :: reloadItems fresh vs

def reloadEntries (fresh : Nat → Nat) : List (Value × Value) → List (Value × Value)
  | [] => []
  | (k, v) :: entries => (reload fresh k, reload fresh v) :: reloadEntries fresh entries

end

/-- Every NaN is the loader's own. -/
def SharedNans (objects : List Nat) : Prop := ∀ object ∈ objects, object = NAN_VALUE

/-- The loader's own is the only NaN object of one value that the other can hold. -/
def Apart (xs ys : List Nat) : Prop := ∀ object ∈ xs, object ∈ ys → object = NAN_VALUE

/-- What equality tells apart in values that hold no others. -/
inductive ScalarKey where
  | none
  | number (value : ℚ)
  | infinity (negative : Bool)
  | nan (object : Nat)
  | str (s : Str)
  | other (key : Nat)

def scalarKey : Value → Option ScalarKey
  | .none => some .none
  | .bool b => some (.number (Decimal.ofNat (if b then 1 else 0)).toRat)
  | .int n => some (.number (Decimal.ofInt n).toRat)
  | .float x => some (.number (⟨x.negative, x.exactDecimal.1, x.exactDecimal.2⟩ : Decimal).toRat)
  | .infinity negative => some (.infinity negative)
  | .nan object => some (.nan object)
  | .str s => some (.str s)
  | .other key _ => some (.other key)
  | _ => Option.none

mutual

/-- No two members of a set and no two keys of a mapping are equal. -/
def Distinct : Value → Prop
  | .list items => ItemsDistinct items
  | .tuple items => ItemsDistinct items
  | .set items =>
    (∀ v ∈ items, v.atomic = true) ∧ items.Pairwise fun v w => same v w = false
  | .dict entries =>
    (∀ e ∈ entries, e.1.atomic = true) ∧ (entries.Pairwise fun e f => same e.1 f.1 = false) ∧
      EntriesDistinct entries
  | _ => True

def ItemsDistinct : List Value → Prop
  | [] => True
  | v :: vs => Distinct v ∧ ItemsDistinct vs

def EntriesDistinct : List (Value × Value) → Prop
  | [] => True
  | (_, v) :: entries => Distinct v ∧ EntriesDistinct entries

end

/-! ### Lists of values -/

theorem itemNumbers_eq (items : List Value) : itemNumbers items = items.map numbers := by
  induction items with
  | nil => rfl
  | cons v vs ih => rw [itemNumbers, ih, List.map_cons]

theorem entryNumbers_eq (entries : List (Value × Value)) :
    entryNumbers entries = entries.map fun e => (numbers e.1, numbers e.2) := by
  induction entries with
  | nil => rfl
  | cons e entries ih => rw [entryNumbers, ih, List.map_cons]

theorem nans_of_item {items : List Value} {v : Value} (member : v ∈ items) :
    nans v ⊆ itemNans items := by
  induction items with
  | nil => cases member
  | cons w ws ih =>
    rcases List.mem_cons.mp member with rfl | later
    · exact List.subset_append_left _ _
    · exact List.Subset.trans (ih later) (List.subset_append_right _ _)

theorem nans_of_entry {entries : List (Value × Value)} {e : Value × Value} (member : e ∈ entries) :
    nans e.1 ++ nans e.2 ⊆ entryNans entries := by
  induction entries with
  | nil => cases member
  | cons w ws ih =>
    rcases List.mem_cons.mp member with rfl | later
    · exact List.subset_append_left _ _
    · exact List.Subset.trans (ih later) (List.subset_append_right _ _)

theorem Apart.mono {xs ys xs' ys' : List Nat} (apart : Apart xs ys) (left : xs' ⊆ xs)
    (right : ys' ⊆ ys) : Apart xs' ys' :=
  fun object member other => apart object (left member) (right other)

theorem Apart.symm {xs ys : List Nat} (apart : Apart xs ys) : Apart ys xs :=
  fun object member other => apart object other member

@[simp] theorem SharedNans.nil : SharedNans [] := fun _ member => nomatch member

@[simp] theorem sharedNans_append {xs ys : List Nat} :
    SharedNans (xs ++ ys) ↔ SharedNans xs ∧ SharedNans ys :=
  List.forall_mem_append

theorem sharedNans_item {items : List Value} (shared : SharedNans (itemNans items)) {v : Value}
    (member : v ∈ items) : SharedNans (nans v) :=
  fun object inside => shared object (nans_of_item member inside)

theorem sharedNans_entry {entries : List (Value × Value)} (shared : SharedNans (entryNans entries))
    {e : Value × Value} (member : e ∈ entries) : SharedNans (nans e.1) ∧ SharedNans (nans e.2) :=
  sharedNans_append.mp fun object inside => shared object (nans_of_entry member inside)

/-- A relation that takes every member of a list into another of the same length, and no two of them
to one, reaches all of the other. -/
theorem reached_of_pairwise {α β : Type} {R : α → β → Prop} {xs : List α} {ys : List β}
    (lengths : xs.length = ys.length) (total : ∀ x ∈ xs, ∃ y ∈ ys, R x y)
    (apart : xs.Pairwise fun x x' => ∀ y, R x y → ¬ R x' y) : ∀ y ∈ ys, ∃ x ∈ xs, R x y := by
  induction xs generalizing ys with
  | nil =>
    obtain rfl : ys = [] := List.length_eq_zero_iff.mp lengths.symm
    intro y member
    cases member
  | cons x xs ih =>
    obtain ⟨others, apart⟩ := List.pairwise_cons.mp apart
    obtain ⟨image, member, related⟩ := total x List.mem_cons_self
    obtain ⟨before, after, rfl⟩ := List.append_of_mem member
    -- The images of the others are not the image of `x`, so they lie in what is left.
    have rest : ∀ y ∈ before ++ after, ∃ x' ∈ xs, R x' y := by
      refine ih ?_ (fun x' inside => ?_) apart
      · simp only [List.length_cons, List.length_append] at lengths ⊢
        omega
      · obtain ⟨y, found, relates⟩ := total x' (List.mem_cons_of_mem _ inside)
        have other : y ≠ image := fun same => others x' inside image related (same ▸ relates)
        refine ⟨y, ?_, relates⟩
        simp only [List.mem_append, List.mem_cons] at found ⊢
        tauto
    intro y inside
    by_cases here : y = image
    · exact ⟨x, List.mem_cons_self, here ▸ related⟩
    · have left : y ∈ before ++ after := by
        simp only [List.mem_append, List.mem_cons] at inside ⊢
        tauto
      obtain ⟨x', member, relates⟩ := rest y left
      exact ⟨x', List.mem_cons_of_mem _ member, relates⟩

/-! ### Python's equality -/

/-- A number in place of a boolean has its value. -/
theorem number_numbers (v : Value) : (numbers v).number = v.number := by
  cases v with
  | bool b => cases b <;> rfl
  | _ => rfl

theorem same_of_atomic {v : Value} (w : Value) (plain : v.atomic = true) :
    same v w = sameScalar v w := by
  cases v <;> first | (simp [atomic] at plain; done) | (cases w <;> simp [same])

theorem sameScalar_iff (v w : Value) :
    sameScalar v w = true ↔ v.scalarKey.isSome = true ∧ v.scalarKey = w.scalarKey := by
  cases v <;> cases w <;> simp [sameScalar, number, scalarKey]

theorem sameScalar_atomic {v w : Value} (equal : sameScalar v w = true) : v.atomic = true := by
  obtain ⟨found, -⟩ := (sameScalar_iff v w).mp equal
  cases v <;> first | rfl | cases found

theorem sameScalar_symm {v w : Value} (equal : sameScalar v w = true) : sameScalar w v = true := by
  obtain ⟨found, same⟩ := (sameScalar_iff v w).mp equal
  exact (sameScalar_iff w v).mpr ⟨same ▸ found, same.symm⟩

/-- Two values that are equal to a third are equal. -/
theorem sameScalar_left {u v w : Value} (first : sameScalar u w = true)
    (second : sameScalar v w = true) : sameScalar u v = true := by
  obtain ⟨found, left⟩ := (sameScalar_iff u w).mp first
  obtain ⟨-, right⟩ := (sameScalar_iff v w).mp second
  exact (sameScalar_iff u v).mpr ⟨found, left.trans right.symm⟩

/-- No value is a member of a set, or a key of a mapping, twice. -/
theorem pairwise_apart {α : Type} {key : α → Value} {xs : List α}
    (plain : ∀ x ∈ xs, (key x).atomic = true)
    (distinct : xs.Pairwise fun x y => same (key x) (key y) = false) :
    xs.Pairwise fun x y => ∀ w, same (key x) w = true → ¬ same (key y) w = true := by
  refine distinct.imp_of_mem fun {x y} left right differ w first second => ?_
  rw [same_of_atomic _ (plain x left)] at differ first
  rw [same_of_atomic _ (plain y right)] at second
  rw [sameScalar_left first second] at differ
  cases differ

theorem same_symm_scalar {v w : Value} (left : same v w = sameScalar v w)
    (equal : same v w = true) : same w v = true := by
  have scalars := left ▸ equal
  rw [same_of_atomic _ (sameScalar_atomic (sameScalar_symm scalars))]
  exact sameScalar_symm scalars

theorem subset_true_iff (vs ws : List Value) :
    subset vs ws = true ↔ ∀ v ∈ vs, ∃ w ∈ ws, same v w = true := by
  induction vs with
  | nil => simp [subset]
  | cons v vs ih => simp [subset, ih]

theorem subdict_true_iff (vs ws : List (Value × Value)) :
    subdict vs ws = true ↔ ∀ e ∈ vs, ∃ f ∈ ws, same e.1 f.1 = true ∧ same e.2 f.2 = true := by
  induction vs with
  | nil => simp [subdict]
  | cons e vs ih =>
    obtain ⟨k, v⟩ := e
    simp [subdict, ih]

mutual

/-- Equality is symmetric: equally many different members that all match leave none unmatched. -/
theorem same_symm : ∀ v w : Value, Distinct v → same v w = true → same w v = true
  | .list vs, w, distinct, equal => by
    -- containers of one kind by their parts, anything else as scalars
    cases w with
    | list ws =>
      rw [same] at equal ⊢
      exact sameItems_symm vs ws (by simpa only [Distinct] using distinct) equal
    | _ => exact same_symm_scalar (by simp [same]) equal
  | .tuple vs, w, distinct, equal => by
    cases w with
    | tuple ws =>
      rw [same] at equal ⊢
      exact sameItems_symm vs ws (by simpa only [Distinct] using distinct) equal
    | _ => exact same_symm_scalar (by simp [same]) equal
  | .set vs, w, distinct, equal => by
    cases w with
    | set ws =>
      rw [Distinct] at distinct
      rw [same, Bool.and_eq_true, beq_iff_eq, subset_true_iff] at equal
      rw [same, Bool.and_eq_true, beq_iff_eq, subset_true_iff]
      -- as many distinct members on both sides: the injection is onto
      refine ⟨equal.1.symm, fun w member => ?_⟩
      obtain ⟨v, inside, matched⟩ := reached_of_pairwise equal.1 equal.2
        (pairwise_apart distinct.1 distinct.2) w member
      exact ⟨v, inside, same_symm_scalar (same_of_atomic _ (distinct.1 v inside)) matched⟩
    | _ => exact same_symm_scalar (by simp [same]) equal
  | .dict vs, w, distinct, equal => by
    cases w with
    | dict ws =>
      rw [Distinct] at distinct
      obtain ⟨plain, keys, values⟩ := distinct
      rw [same, Bool.and_eq_true, beq_iff_eq, subdict_true_iff] at equal
      rw [same, Bool.and_eq_true, beq_iff_eq, subdict_true_iff]
      refine ⟨equal.1.symm, fun f member => ?_⟩
      have apart : vs.Pairwise fun e e' => ∀ f : Value × Value,
          (same e.1 f.1 = true ∧ same e.2 f.2 = true) →
            ¬ (same e'.1 f.1 = true ∧ same e'.2 f.2 = true) :=
        (pairwise_apart plain keys).imp fun differ f left right => differ f.1 left.1 right.1
      obtain ⟨e, inside, key, value⟩ := reached_of_pairwise
        (R := fun e f : Value × Value => same e.1 f.1 = true ∧ same e.2 f.2 = true)
        equal.1 equal.2 apart f member
      exact ⟨e, inside, same_symm_scalar (same_of_atomic _ (plain e inside)) key,
        entries_symm vs values e inside f.2 value⟩
    | _ => exact same_symm_scalar (by simp [same]) equal
  | .none, _, _, equal | .bool _, _, _, equal | .int _, _, _, equal | .float _, _, _, equal
  | .infinity _, _, _, equal | .nan _, _, _, equal | .str _, _, _, equal
  | .other _ _, _, _, equal => same_symm_scalar (same_of_atomic _ rfl) equal

theorem sameItems_symm : ∀ vs ws : List Value, ItemsDistinct vs → sameItems vs ws = true →
    sameItems ws vs = true
  | [], [], _, equal => equal
  | [], _ :: _, _, equal => by simp [sameItems] at equal
  | _ :: _, [], _, equal => by simp [sameItems] at equal
  | v :: vs, w :: ws, distinct, equal => by
    rw [ItemsDistinct] at distinct
    rw [sameItems, Bool.and_eq_true] at equal ⊢
    exact ⟨same_symm v w distinct.1 equal.1, sameItems_symm vs ws distinct.2 equal.2⟩

theorem entries_symm : ∀ vs : List (Value × Value), EntriesDistinct vs →
    ∀ e ∈ vs, ∀ w, same e.2 w = true → same w e.2 = true
  | [], _, _, member, _, _ => nomatch member
  | (k, v) :: vs, distinct, e, member, w, equal => by
    rw [EntriesDistinct] at distinct
    rcases List.mem_cons.mp member with rfl | later
    · exact same_symm v w distinct.1 equal
    · exact entries_symm vs distinct.2 e later w equal

end

/-- A NaN that equals something of the other load is the loader's own. -/
theorem sharedNans_of_sameScalar {v w : Value} (apart : Apart (nans v) (nans w))
    (equal : sameScalar v w = true) : SharedNans (nans v) := by
  have plain := sameScalar_atomic equal
  cases v with
  | nan object =>
    cases w with
    | nan other =>
      obtain rfl : object = other := by simpa [sameScalar, number] using equal
      simp only [nans] at apart ⊢
      exact fun n member => apart n member member
    | _ => simp [sameScalar, number] at equal
  | _ => first | (simp [atomic] at plain; done) | simp [nans]

mutual

/-- Of a value that equals one of another load, every NaN is the loader's own. -/
theorem sharedNans_of_same : ∀ v w : Value, Apart (nans v) (nans w) → same v w = true →
    SharedNans (nans v)
  | .list vs, w, apart, equal => by
    cases w with
    | list ws =>
      -- unequal unless the other is a list too
      simp only [same, nans] at *
      exact sharedNans_of_sameItems vs ws apart equal
    | _ => exact sharedNans_of_sameScalar apart (by simpa [same] using equal)
  | .tuple vs, w, apart, equal => by
    cases w with
    | tuple ws =>
      simp only [same, nans] at *
      exact sharedNans_of_sameItems vs ws apart equal
    | _ => exact sharedNans_of_sameScalar apart (by simpa [same] using equal)
  | .set vs, w, apart, equal => by
    cases w with
    | set ws =>
      simp only [same, nans, Bool.and_eq_true] at *
      exact sharedNans_of_subset vs ws apart equal.2
    | _ => exact sharedNans_of_sameScalar apart (by simpa [same] using equal)
  | .dict vs, w, apart, equal => by
    cases w with
    | dict ws =>
      simp only [same, nans, Bool.and_eq_true] at *
      exact sharedNans_of_subdict vs ws apart equal.2
    | _ => exact sharedNans_of_sameScalar apart (by simpa [same] using equal)
  | .none, _, apart, equal | .bool _, _, apart, equal | .int _, _, apart, equal
  | .float _, _, apart, equal | .infinity _, _, apart, equal | .nan _, _, apart, equal
  | .str _, _, apart, equal | .other _ _, _, apart, equal =>
    sharedNans_of_sameScalar apart ((same_of_atomic _ rfl).symm.trans equal)

theorem sharedNans_of_sameItems : ∀ vs ws : List Value, Apart (itemNans vs) (itemNans ws) →
    sameItems vs ws = true → SharedNans (itemNans vs)
  | [], _, _, _ => by simp [itemNans]
  | _ :: _, [], _, equal => by simp [sameItems] at equal
  | v :: vs, w :: ws, apart, equal => by
    rw [sameItems, Bool.and_eq_true] at equal
    rw [itemNans, sharedNans_append]
    rw [itemNans, itemNans] at apart
    exact ⟨sharedNans_of_same v w
        (apart.mono (List.subset_append_left _ _) (List.subset_append_left _ _)) equal.1,
      sharedNans_of_sameItems vs ws
        (apart.mono (List.subset_append_right _ _) (List.subset_append_right _ _)) equal.2⟩

theorem sharedNans_of_subset : ∀ vs ws : List Value, Apart (itemNans vs) (itemNans ws) →
    subset vs ws = true → SharedNans (itemNans vs)
  | [], _, _, _ => by simp [itemNans]
  | v :: vs, ws, apart, equal => by
    rw [subset, Bool.and_eq_true, List.any_eq_true] at equal
    obtain ⟨⟨w, member, matched⟩, rest⟩ := equal
    rw [itemNans] at apart ⊢
    rw [sharedNans_append]
    exact ⟨sharedNans_of_same v w
        (apart.mono (List.subset_append_left _ _) (nans_of_item member)) matched,
      sharedNans_of_subset vs ws
        (apart.mono (List.subset_append_right _ _) (List.Subset.refl _)) rest⟩

theorem sharedNans_of_subdict : ∀ vs ws : List (Value × Value),
    Apart (entryNans vs) (entryNans ws) → subdict vs ws = true → SharedNans (entryNans vs)
  | [], _, _, _ => by simp [entryNans]
  | (k, v) :: vs, ws, apart, equal => by
    rw [subdict, Bool.and_eq_true, List.any_eq_true] at equal
    obtain ⟨⟨w, member, matched⟩, rest⟩ := equal
    rw [Bool.and_eq_true] at matched
    rw [entryNans] at apart ⊢
    have entry := apart.mono (List.subset_append_left _ _) (nans_of_entry member)
    rw [sharedNans_append, sharedNans_append]
    exact ⟨⟨sharedNans_of_same k w.1
          (entry.mono (List.subset_append_left _ _) (List.subset_append_left _ _)) matched.1,
        sharedNans_of_same v w.2
          (entry.mono (List.subset_append_right _ _) (List.subset_append_right _ _)) matched.2⟩,
      sharedNans_of_subdict vs ws
        (apart.mono (List.subset_append_right _ _) (List.Subset.refl _)) rest⟩

end

/-- With the loader's own NaN alone, Python compares values that hold no others as YAML does once
booleans are numbers. -/
theorem yamlScalar_numbers {v w : Value} (left : SharedNans (nans v)) (right : SharedNans (nans w)) :
    yamlScalar (numbers v) (numbers w) = sameScalar v w := by
  have numbered := number_numbers v
  have numbered' := number_numbers w
  cases v <;> cases w <;> first
    | rfl
    | (simp only [numbers, yamlScalar, sameScalar] at *; simp only [numbered, numbered'])
    | skip
  case nan.nan object other =>
    obtain rfl : object = NAN_VALUE := left object (by simp [nans])
    obtain rfl : other = NAN_VALUE := right other (by simp [nans])
    rfl

/-- Where both equalities compare values that hold no others. -/
private theorem same_eq_scalar {v w : Value} (left : SharedNans (nans v))
    (right : SharedNans (nans w)) (python : same v w = sameScalar v w)
    (yaml : sameYaml (numbers v) (numbers w) = yamlScalar (numbers v) (numbers w)) :
    same v w = sameYaml (numbers v) (numbers w) := by
  rw [python, yaml, yamlScalar_numbers left right]

mutual

/-- With the loader's own NaN alone, Python's equality is that of YAML once booleans are numbers. -/
theorem same_eq_yaml : ∀ v w : Value, SharedNans (nans v) → SharedNans (nans w) →
    same v w = sameYaml (numbers v) (numbers w)
  | .list vs, w, left, right => by
    cases w with
    | list ws =>
      simp only [same, numbers, sameYaml, nans] at *
      exact sameItems_eq_yaml vs ws left right
    | _ => exact same_eq_scalar left right (by simp [same]) (by simp [sameYaml, numbers])
  | .tuple vs, w, left, right => by
    cases w with
    | tuple ws =>
      simp only [same, numbers, sameYaml, nans] at *
      exact sameItems_eq_yaml vs ws left right
    | _ => exact same_eq_scalar left right (by simp [same]) (by simp [sameYaml, numbers])
  | .set vs, w, left, right => by
    cases w with
    | set ws =>
      simp only [nans] at left right
      -- the lengths agree already; the members are read as numbers one by one
      have parts := subset_eq_yaml vs ws left right
      simp only [same, numbers, sameYaml, itemNumbers_eq, List.length_map] at parts ⊢
      rw [parts]
    | _ => exact same_eq_scalar left right (by simp [same]) (by simp [sameYaml, numbers])
  | .dict vs, w, left, right => by
    cases w with
    | dict ws =>
      simp only [nans] at left right
      have parts := subdict_eq_yaml vs ws left right
      simp only [same, numbers, sameYaml, entryNumbers_eq, List.length_map] at parts ⊢
      rw [parts]
    | _ => exact same_eq_scalar left right (by simp [same]) (by simp [sameYaml, numbers])
  | .none, w, left, right | .bool _, w, left, right | .int _, w, left, right
  | .float _, w, left, right | .infinity _, w, left, right | .nan _, w, left, right
  | .str _, w, left, right | .other _ _, w, left, right =>
    same_eq_scalar left right (same_of_atomic _ rfl) (by cases w <;> simp [sameYaml, numbers])

theorem sameItems_eq_yaml : ∀ vs ws : List Value, SharedNans (itemNans vs) →
    SharedNans (itemNans ws) →
    sameItems vs ws = sameYamlItems (itemNumbers vs) (itemNumbers ws)
  | [], [], _, _ => by simp [sameItems, sameYamlItems, itemNumbers]
  | [], _ :: _, _, _ => by simp [sameItems, sameYamlItems, itemNumbers]
  | _ :: _, [], _, _ => by simp [sameItems, sameYamlItems, itemNumbers]
  | v :: vs, w :: ws, left, right => by
    rw [itemNans, sharedNans_append] at left right
    rw [sameItems, itemNumbers, itemNumbers, sameYamlItems, same_eq_yaml v w left.1 right.1,
      sameItems_eq_yaml vs ws left.2 right.2]

theorem subset_eq_yaml : ∀ vs ws : List Value, SharedNans (itemNans vs) →
    SharedNans (itemNans ws) → subset vs ws = yamlSubset (itemNumbers vs) (itemNumbers ws)
  | [], _, _, _ => by simp [subset, yamlSubset, itemNumbers]
  | v :: vs, ws, left, right => by
    rw [itemNans, sharedNans_append] at left
    have found : (∃ w ∈ ws, same v w = true) ↔
        ∃ w ∈ ws, sameYaml (numbers v) (numbers w) = true :=
      exists_congr fun w => and_congr_right fun member => by
        rw [same_eq_yaml v w left.1 (sharedNans_item right member)]
    rw [Bool.eq_iff_iff, subset, itemNumbers, yamlSubset, subset_eq_yaml vs ws left.2 right]
    simp only [itemNumbers_eq, Bool.and_eq_true, List.any_eq_true, List.any_map,
      Function.comp_apply, found]

theorem subdict_eq_yaml : ∀ vs ws : List (Value × Value), SharedNans (entryNans vs) →
    SharedNans (entryNans ws) → subdict vs ws = yamlSubdict (entryNumbers vs) (entryNumbers ws)
  | [], _, _, _ => by simp [subdict, yamlSubdict, entryNumbers]
  | (k, v) :: vs, ws, left, right => by
    rw [entryNans, sharedNans_append, sharedNans_append] at left
    have found : (∃ w ∈ ws, same k w.1 = true ∧ same v w.2 = true) ↔
        ∃ w ∈ ws, sameYaml (numbers k) (numbers w.1) = true ∧
          sameYaml (numbers v) (numbers w.2) = true :=
      exists_congr fun w => and_congr_right fun member => by
        obtain ⟨key, value⟩ := sharedNans_entry right member
        rw [same_eq_yaml k w.1 left.1.1 key, same_eq_yaml v w.2 left.1.2 value]
    rw [Bool.eq_iff_iff, subdict, entryNumbers, yamlSubdict, subdict_eq_yaml vs ws left.2 right]
    simp only [entryNumbers_eq, Bool.and_eq_true, List.any_eq_true, List.any_map,
      Function.comp_apply, found]

end

/-- Python finds two values of different loads equal exactly if YAML does once booleans are read as
numbers, and both hold no NaN but the loader's own. -/
theorem same_iff {v w : Value} (distinct : Distinct v) (apart : Apart (nans v) (nans w)) :
    same v w = true ↔ sameYaml (numbers v) (numbers w) = true ∧
      SharedNans (nans v) ∧ SharedNans (nans w) := by
  constructor
  · intro equal
    have left := sharedNans_of_same v w apart equal
    have right := sharedNans_of_same w v apart.symm (same_symm v w distinct equal)
    exact ⟨(same_eq_yaml v w left right).symm.trans equal, left, right⟩
  · rintro ⟨equal, left, right⟩
    exact (same_eq_yaml v w left right).trans equal

/-- A value that is itself a NaN; `==` finds it unequal to everything, itself included. -/
def isNan : Value → Bool
  | .nan _ => true
  | _ => false

theorem eq_iff (v w : Value) : eq v w = true ↔ same v w = true ∧ v.isNan = false := by
  cases v <;> simp [eq, isNan]

mutual

/-- Reading booleans as numbers keeps YAML values equal. -/
theorem sameYaml_numbers : ∀ v w : Value, sameYaml v w = true →
    sameYaml (numbers v) (numbers w) = true
  | .list vs, w, equal => by
    cases w with
    | list ws =>
      rw [sameYaml] at equal
      rw [numbers, numbers, sameYaml]
      exact sameYamlItems_numbers vs ws equal
    | _ => simp [sameYaml, yamlScalar, sameScalar, number] at equal
  | .tuple vs, w, equal => by
    cases w with
    | tuple ws =>
      rw [sameYaml] at equal
      rw [numbers, numbers, sameYaml]
      exact sameYamlItems_numbers vs ws equal
    | _ => simp [sameYaml, yamlScalar, sameScalar, number] at equal
  | .set vs, w, equal => by
    cases w with
    | set ws =>
      rw [sameYaml, Bool.and_eq_true] at equal
      rw [numbers, numbers, sameYaml, Bool.and_eq_true, itemNumbers_eq vs, itemNumbers_eq ws,
        List.length_map, List.length_map, ← itemNumbers_eq, ← itemNumbers_eq]
      exact ⟨equal.1, yamlSubset_numbers vs ws equal.2⟩
    | _ => simp [sameYaml, yamlScalar, sameScalar, number] at equal
  | .dict vs, w, equal => by
    cases w with
    | dict ws =>
      rw [sameYaml, Bool.and_eq_true] at equal
      rw [numbers, numbers, sameYaml, Bool.and_eq_true, entryNumbers_eq vs, entryNumbers_eq ws,
        List.length_map, List.length_map, ← entryNumbers_eq, ← entryNumbers_eq]
      exact ⟨equal.1, yamlSubdict_numbers vs ws equal.2⟩
    | _ => simp [sameYaml, yamlScalar, sameScalar, number] at equal
  | .bool b, w, equal => by
    cases w with
    | bool c =>
      -- a boolean is equal as YAML only to itself, and reads as a number only afterwards
      obtain rfl : b = c := by simpa [sameYaml, yamlScalar] using equal
      simp [numbers, sameYaml, yamlScalar, sameScalar, number]
    | _ => simp [sameYaml, yamlScalar] at equal
  | .none, w, equal | .int _, w, equal | .float _, w, equal | .infinity _, w, equal
  | .nan _, w, equal | .str _, w, equal | .other _ _, w, equal => by
    cases w with
    | bool c => simp [sameYaml, yamlScalar] at equal
    | list ws => simp [sameYaml, yamlScalar, sameScalar, number] at equal
    | tuple ws => simp [sameYaml, yamlScalar, sameScalar, number] at equal
    | set ws => simp [sameYaml, yamlScalar, sameScalar, number] at equal
    | dict ws => simp [sameYaml, yamlScalar, sameScalar, number] at equal
    | _ => exact equal

theorem sameYamlItems_numbers : ∀ vs ws : List Value, sameYamlItems vs ws = true →
    sameYamlItems (itemNumbers vs) (itemNumbers ws) = true
  | [], [], _ => by rw [itemNumbers, sameYamlItems]
  | [], _ :: _, equal => by simp [sameYamlItems] at equal
  | _ :: _, [], equal => by simp [sameYamlItems] at equal
  | v :: vs, w :: ws, equal => by
    rw [sameYamlItems, Bool.and_eq_true] at equal
    rw [itemNumbers, itemNumbers, sameYamlItems, Bool.and_eq_true]
    exact ⟨sameYaml_numbers v w equal.1, sameYamlItems_numbers vs ws equal.2⟩

theorem yamlSubset_numbers : ∀ vs ws : List Value, yamlSubset vs ws = true →
    yamlSubset (itemNumbers vs) (itemNumbers ws) = true
  | [], _, _ => by rw [itemNumbers, yamlSubset]
  | v :: vs, ws, equal => by
    rw [yamlSubset, Bool.and_eq_true, List.any_eq_true] at equal
    obtain ⟨⟨w, member, matched⟩, rest⟩ := equal
    rw [itemNumbers, yamlSubset, Bool.and_eq_true, List.any_eq_true]
    refine ⟨⟨numbers w, ?_, sameYaml_numbers v w matched⟩, yamlSubset_numbers vs ws rest⟩
    rw [itemNumbers_eq]
    exact List.mem_map_of_mem member

theorem yamlSubdict_numbers : ∀ vs ws : List (Value × Value), yamlSubdict vs ws = true →
    yamlSubdict (entryNumbers vs) (entryNumbers ws) = true
  | [], _, _ => by rw [entryNumbers, yamlSubdict]
  | (k, v) :: vs, ws, equal => by
    rw [yamlSubdict, Bool.and_eq_true, List.any_eq_true] at equal
    obtain ⟨⟨w, member, matched⟩, rest⟩ := equal
    rw [Bool.and_eq_true] at matched
    rw [entryNumbers, yamlSubdict, Bool.and_eq_true, List.any_eq_true]
    refine ⟨⟨(numbers w.1, numbers w.2), ?_, ?_⟩, yamlSubdict_numbers vs ws rest⟩
    · rw [entryNumbers_eq]
      exact List.mem_map_of_mem (f := fun e : Value × Value => (numbers e.1, numbers e.2)) member
    · rw [Bool.and_eq_true]
      exact ⟨sameYaml_numbers k w.1 matched.1, sameYaml_numbers v w.2 matched.2⟩

end

/-! ### Two loads of one document -/

theorem reloadItems_eq (fresh : Nat → Nat) (items : List Value) :
    reloadItems fresh items = items.map (reload fresh) := by
  induction items with
  | nil => rfl
  | cons v vs ih => rw [reloadItems, ih, List.map_cons]

theorem reloadEntries_eq (fresh : Nat → Nat) (entries : List (Value × Value)) :
    reloadEntries fresh entries = entries.map fun e => (reload fresh e.1, reload fresh e.2) := by
  induction entries with
  | nil => rfl
  | cons e entries ih => rw [reloadEntries, ih, List.map_cons]

mutual

/-- Two loads of one document build equal values. -/
theorem sameYaml_reload (fresh : Nat → Nat) : ∀ v : Value, sameYaml v (reload fresh v) = true
  | .list vs => by
    rw [reload, sameYaml]
    exact sameYamlItems_reload fresh vs
  | .tuple vs => by
    rw [reload, sameYaml]
    exact sameYamlItems_reload fresh vs
  | .set vs => by
    rw [reload, sameYaml, Bool.and_eq_true]
    refine ⟨?_, yamlSubset_reload fresh vs _ fun v member => ?_⟩
    · rw [reloadItems_eq, List.length_map]
      exact beq_self_eq_true _
    · rw [reloadItems_eq]
      exact List.mem_map_of_mem member
  | .dict vs => by
    rw [reload, sameYaml, Bool.and_eq_true]
    refine ⟨?_, yamlSubdict_reload fresh vs _ fun e member => ?_⟩
    · rw [reloadEntries_eq, List.length_map]
      exact beq_self_eq_true _
    · rw [reloadEntries_eq]
      exact List.mem_map_of_mem (f := fun e : Value × Value => (reload fresh e.1, reload fresh e.2))
        member
  | .bool _ => by simp [reload, sameYaml, yamlScalar]
  | .none | .int _ | .float _ | .infinity _ | .nan _ | .str _ | .other _ _ => by
    simp [reload, sameYaml, yamlScalar, sameScalar, number]

theorem sameYamlItems_reload (fresh : Nat → Nat) : ∀ vs : List Value,
    sameYamlItems vs (reloadItems fresh vs) = true
  | [] => by rw [reloadItems, sameYamlItems]
  | v :: vs => by
    rw [reloadItems, sameYamlItems, Bool.and_eq_true]
    exact ⟨sameYaml_reload fresh v, sameYamlItems_reload fresh vs⟩

theorem yamlSubset_reload (fresh : Nat → Nat) : ∀ vs ws : List Value,
    (∀ v ∈ vs, reload fresh v ∈ ws) → yamlSubset vs ws = true
  | [], _, _ => by rw [yamlSubset]
  | v :: vs, ws, inside => by
    rw [yamlSubset, Bool.and_eq_true, List.any_eq_true]
    exact ⟨⟨reload fresh v, inside v List.mem_cons_self, sameYaml_reload fresh v⟩,
      yamlSubset_reload fresh vs ws fun w member => inside w (List.mem_cons_of_mem _ member)⟩

theorem yamlSubdict_reload (fresh : Nat → Nat) : ∀ vs ws : List (Value × Value),
    (∀ e ∈ vs, (reload fresh e.1, reload fresh e.2) ∈ ws) → yamlSubdict vs ws = true
  | [], _, _ => by rw [yamlSubdict]
  | (k, v) :: vs, ws, inside => by
    rw [yamlSubdict, Bool.and_eq_true, List.any_eq_true]
    refine ⟨⟨(reload fresh k, reload fresh v), inside (k, v) List.mem_cons_self, ?_⟩,
      yamlSubdict_reload fresh vs ws fun e member => inside e (List.mem_cons_of_mem _ member)⟩
    rw [Bool.and_eq_true]
    exact ⟨sameYaml_reload fresh k, sameYaml_reload fresh v⟩

end

end Value

end Python
