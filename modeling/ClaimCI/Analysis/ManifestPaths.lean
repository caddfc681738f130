import ClaimCI.Analysis.RepositoryPaths
import ClaimCI.Python.Json
import ClaimCI.Python.Lines
import ClaimCI.Review.Models

/-!
# Manifest paths

The two resolvers of the artifact paths that a research manifest declares: the native adapter checks
every segment of the text, discovery only the path it arrives at.
-/

open Python
open ClaimCI.Review (SLASH posixParts)

namespace ClaimCI

def PARENT : Str := [DOT, DOT]

/-- `PurePosixPath(path).parent.parts` of a canonical path. -/
def RepositoryPath.parentParts (path : RepositoryPath) : List Str := (split SLASH path.text).dropLast

/-- `PurePosixPath(path).suffix`: the name from its last dot, unless the name starts with it. -/
def RepositoryPath.suffix (path : RepositoryPath) : Str :=
  let name := ((split SLASH path.text).getLast?).getD []
  let tail := name.rtakeWhile (· != DOT)
  -- the parts of a repository path do not end with a dot
  if tail.length + 1 < name.length then DOT :: tail else []

/-- `PurePosixPath(text).is_absolute()`. -/
def isPosixAbsolute (s : Str) : Bool := s.head? == some SLASH

/-- `PureWindowsPath(text).drive` of a text without backslashes that is not absolute for POSIX: a
letter of ASCII before a colon. Without a drive the path is not absolute for Windows. -/
def hasWindowsDrive : Str → Bool
  | letter :: colon :: _ =>
    ((0x41 ≤ letter.val && letter.val ≤ 0x5A) || (0x61 ≤ letter.val && letter.val ≤ 0x7A)) &&
      colon == COLON
  | _ => false

/-! ### The native adapter -/

namespace Native

/-- The loop of `_resolve_manifest_path`. -/
def climb (stack : List Str) : List Str → Except Error (List Str)
  | [] => .ok stack
  | segment :: rest =>
    if segment = [] then .error (contractError "manifest artifact path is not canonical")
    else if segment = [DOT] then climb stack rest
    else if segment = PARENT then
      if stack = [] then .error (contractError "manifest artifact path would escape repository")
      else climb stack.dropLast rest
    else
      match repositoryPath segment with
      | .error _ => .error (contractError "manifest artifact path is not portable")
      | .ok _ => climb (stack ++ [segment]) rest

/-- `_resolve_manifest_path`. -/
def resolveManifestPath (manifest : RepositoryPath) : Value → Except Error RepositoryPath
  | .str declared => do
    rejectIf (declared == [] || declared != strip declared)
      (contractError "manifest artifact path must be non-empty portable text")
    rejectIf (declared.contains BACKSLASH || declared.contains 0 || hasControl declared ||
        isPosixAbsolute declared || hasWindowsDrive declared)
      (contractError "manifest artifact path must be portable and relative")
    let stack ← climb manifest.parentParts (split SLASH declared)
    rejectIf stack.isEmpty
      (contractError "manifest artifact path must resolve to a repository file")
    (repositoryPath ([SLASH].intercalate stack)).mapError fun _ =>
      contractError "manifest artifact path is not repository-confined"
  | _ => .error (contractError "manifest artifact path must be non-empty portable text")

end Native

/-! ### Discovery -/

namespace Discovery

/-- The loop of `_resolve_manifest_path`. -/
def climb (parts : List Str) : List Str → Except Error (List Str)
  | [] => .ok parts
  | part :: rest =>
    if part = [] ∨ part = [DOT] then climb parts rest
    else if part = PARENT then
      if parts = [] then .error (.valueError "manifest artifact escapes repository root")
      else climb parts.dropLast rest
    else climb (parts ++ [part]) rest

/-- `_resolve_manifest_path`. -/
def resolveManifestPath (manifest : RepositoryPath) : Value → Except Error RepositoryPath
  | .str raw => do
    rejectIf (raw == [] || raw != strip raw || raw.contains 0 || raw.contains BACKSLASH ||
        isPosixAbsolute raw || hasWindowsDrive raw)
      (.valueError "manifest artifact path is unsafe")
    let parts ← climb manifest.parentParts (posixParts raw)
    rejectIf parts.isEmpty (.valueError "manifest artifact path is empty")
    repositoryPath ([SLASH].intercalate parts)
  | _ => .error (.valueError "manifest artifact path is unsafe")

end Discovery

/-! ### The walk of a path -/

/-- A walk from a directory along the segments of a path, which stays at or below the root. -/
inductive Walks : List Str → List Str → List Str → Prop
  | done (directory : List Str) : Walks directory [] directory
  | stay {directory rest final : List Str} {segment : Str} (same : segment = [] ∨ segment = [DOT])
      (after : Walks directory rest final) : Walks directory (segment :: rest) final
  | up {directory rest final : List Str} (below : directory ≠ [])
      (after : Walks directory.dropLast rest final) : Walks directory (PARENT :: rest) final
  | down {directory rest final : List Str} {segment : Str} (name : segment ≠ [])
      (other : segment ≠ [DOT]) (lower : segment ≠ PARENT)
      (after : Walks (directory ++ [segment]) rest final) : Walks directory (segment :: rest) final

theorem walks_nil {directory final : List Str} : Walks directory [] final ↔ directory = final := by
  constructor
  · rintro ⟨⟩
    rfl
  · rintro rfl
    exact .done _

theorem walks_stay {directory rest final : List Str} {segment : Str}
    (same : segment = [] ∨ segment = [DOT]) :
    Walks directory (segment :: rest) final ↔ Walks directory rest final := by
  refine ⟨fun walk => ?_, .stay same⟩
  cases walk with
  | stay _ after => exact after
  | up below after => rcases same with same | same <;> cases same
  | down name other lower after =>
    rcases same with same | same
    · exact absurd same name
    · exact absurd same other

theorem walks_up {directory rest final : List Str} :
    Walks directory (PARENT :: rest) final ↔
      directory ≠ [] ∧ Walks directory.dropLast rest final := by
  refine ⟨fun walk => ?_, fun walk => .up walk.1 walk.2⟩
  cases walk with
  | stay same after => rcases same with same | same <;> cases same
  | up below after => exact ⟨below, after⟩
  | down name other lower after => exact absurd rfl lower

theorem walks_down {directory rest final : List Str} {segment : Str} (name : segment ≠ [])
    (other : segment ≠ [DOT]) (lower : segment ≠ PARENT) :
    Walks directory (segment :: rest) final ↔ Walks (directory ++ [segment]) rest final := by
  refine ⟨fun walk => ?_, .down name other lower⟩
  cases walk with
  | stay same after =>
    rcases same with same | same
    · exact absurd same name
    · exact absurd same other
  | up below after => exact absurd rfl lower
  | down _ _ _ after => exact after

/-- A segment that the native adapter takes on its own. -/
def PlainSegment (segment : Str) : Prop :=
  segment = [DOT] ∨ segment = PARENT ∨ isRepositoryPath segment = true

theorem repositoryPath_of_valid {s : Str} (valid : isRepositoryPath s = true) :
    repositoryPath s = .ok ⟨s, valid⟩ := repositoryPath_ok_iff.mpr rfl

theorem not_plain_nil : ¬ PlainSegment [] := by
  rintro (same | same | valid)
  · cases same
  · cases same
  · exact absurd valid (by decide)

namespace Native

/-- The loop walks along plain segments, and stops at any other. -/
theorem climb_ok_iff {stack segments final : List Str} :
    climb stack segments = .ok final ↔
      (∀ segment ∈ segments, PlainSegment segment) ∧ Walks stack segments final := by
  -- induction on the segments; the stack is the directory of the walk
  induction segments generalizing stack with
  | nil =>
    rw [climb, Except.ok.injEq, walks_nil]
    exact (and_iff_right (List.forall_mem_nil _)).symm
  | cons segment rest ih =>
    rw [climb, List.forall_mem_cons]
    by_cases empty : segment = []
    · rw [if_pos empty, empty]
      exact iff_of_false (by rintro ⟨⟩) fun h => not_plain_nil h.1.1
    rw [if_neg empty]
    by_cases dot : segment = [DOT]
    · rw [if_pos dot, ih, walks_stay (.inr dot)]
      exact and_congr_left fun _ => (and_iff_right (Or.inl dot)).symm
    rw [if_neg dot]
    by_cases parent : segment = PARENT
    · subst parent
      rw [if_pos rfl, walks_up]
      by_cases root : stack = []
      · rw [if_pos root]
        exact iff_of_false (by rintro ⟨⟩) fun h => h.2.1 root
      · rw [if_neg root, ih]
        constructor
        · rintro ⟨plain, walk⟩
          exact ⟨⟨.inr (.inl rfl), plain⟩, root, walk⟩
        · rintro ⟨⟨-, plain⟩, -, walk⟩
          exact ⟨plain, walk⟩
    rw [if_neg parent, walks_down empty dot parent]
    -- a segment that stays has to be a path on its own
    have plain : PlainSegment segment ↔ isRepositoryPath segment = true := by
      simp only [PlainSegment, dot, parent, false_or]
    cases valid : isRepositoryPath segment with
    | true =>
      rw [repositoryPath_of_valid valid, ih]
      exact and_congr_left fun _ => (and_iff_right (plain.mpr valid)).symm
    | false =>
      cases checked : repositoryPath segment with
      | ok path =>
        have := repositoryPath_isOk_iff.mp ⟨path, checked⟩
        rw [valid] at this
        cases this
      | error error =>
        refine iff_of_false (by rintro ⟨⟩) fun h => ?_
        have := plain.mp h.1.1
        rw [valid] at this
        cases this

end Native

namespace Discovery

/-- The loop over the parts of the text walks along its segments. -/
theorem climb_ok_iff {parts segments final : List Str} :
    climb parts (segments.filter fun part => part != [] && part != [DOT]) = .ok final ↔
      Walks parts segments final := by
  induction segments generalizing parts with
  | nil =>
    rw [List.filter_nil, climb, Except.ok.injEq, walks_nil]
  | cons segment rest ih =>
    by_cases skipped : segment = [] ∨ segment = [DOT]
    · rw [walks_stay skipped, ← ih, List.filter_cons_of_neg]
      rcases skipped with skipped | skipped <;> simp [skipped]
    have name : segment ≠ [] := fun h => skipped (.inl h)
    have other : segment ≠ [DOT] := fun h => skipped (.inr h)
    rw [List.filter_cons_of_pos (by simp [name, other]), climb, if_neg skipped]
    by_cases parent : segment = PARENT
    · subst parent
      rw [if_pos rfl, walks_up]
      by_cases root : parts = []
      · rw [if_pos root]
        exact iff_of_false (by rintro ⟨⟩) fun h => h.1 root
      · rw [if_neg root, ih]
        exact (and_iff_right root).symm
    · rw [if_neg parent, ih, walks_down name other parent]

end Discovery

/-! ### What the resolvers accept -/

/-- A text that both resolvers take for a relative path: it is not blank at an end, has neither NUL
nor backslash, and starts neither at a root nor at a drive. -/
def IsRelativeText (s : Str) : Prop :=
  s ≠ [] ∧ s = strip s ∧ 0 ∉ s ∧ BACKSLASH ∉ s ∧ isPosixAbsolute s = false ∧
    hasWindowsDrive s = false

/-- A declared text leads from the directory of the manifest to a path. -/
def LeadsTo (manifest : RepositoryPath) (declared : Str) (path : RepositoryPath) : Prop :=
  ∃ final, Walks manifest.parentParts (split SLASH declared) final ∧ final ≠ [] ∧
    path.text = [SLASH].intercalate final

theorem rejectIf_then_iff {α : Type} {condition : Bool} {error : Error} {next : Except Error α}
    {result : α} : (do rejectIf condition error; next) = .ok result ↔
      condition = false ∧ next = .ok result := by
  rw [bind_ok_iff, ← (rejectIf_ok_iff : rejectIf condition error = .ok () ↔ condition = false)]
  constructor
  · rintro ⟨_, checked, rest⟩
    exact ⟨checked, rest⟩
  · rintro ⟨checked, rest⟩
    exact ⟨(), checked, rest⟩

theorem unsafe_eq_false_iff {s : Str} :
    (s == [] || s != strip s || s.contains 0 || s.contains BACKSLASH || isPosixAbsolute s ||
      hasWindowsDrive s) = false ↔ IsRelativeText s := by
  simp only [IsRelativeText, Bool.or_eq_false_iff, beq_eq_false_iff_ne, bne_eq_false_iff_eq,
    List.contains_eq_mem, decide_eq_false_iff_not, and_assoc, ne_eq]

theorem Discovery.resolve_ok_iff {manifest path : RepositoryPath} {declared : Str} :
    Discovery.resolveManifestPath manifest (.str declared) = .ok path ↔
      IsRelativeText declared ∧ LeadsTo manifest declared path := by
  rw [Discovery.resolveManifestPath, rejectIf_then_iff, unsafe_eq_false_iff, bind_ok_iff]
  refine and_congr_right fun _ => exists_congr fun final => ?_
  have parts : posixParts declared =
      (split SLASH declared).filter fun part => part != [] && part != [DOT] := rfl
  rw [rejectIf_then_iff, repositoryPath_ok_iff, List.isEmpty_eq_false_iff, parts,
    Discovery.climb_ok_iff]

/-- Every segment of the text is plain. -/
def PlainText (s : Str) : Prop := ∀ segment ∈ split SLASH s, PlainSegment segment

theorem mem_some_segment {s : Str} {c : CodePoint} (inside : c ∈ s) (other : c ≠ SLASH) :
    ∃ segment ∈ split SLASH s, c ∈ segment := by
  induction s with
  | nil => cases inside
  | cons d rest ih =>
    by_cases slash : d = SLASH
    · subst slash
      rw [split_sep_cons]
      rcases List.mem_cons.mp inside with same | inside
      · exact absurd same other
      · obtain ⟨segment, member, found⟩ := ih inside
        exact ⟨segment, List.mem_cons_of_mem _ member, found⟩
    · obtain ⟨first, others, pieces, whole⟩ := split_cons_of_ne slash rest
      rw [whole]
      rcases List.mem_cons.mp inside with same | inside
      · exact ⟨d :: first, List.mem_cons_self, same ▸ List.mem_cons_self⟩
      · obtain ⟨segment, member, found⟩ := ih inside
        rw [pieces] at member
        rcases List.mem_cons.mp member with rfl | member
        · exact ⟨d :: segment, List.mem_cons_self, List.mem_cons_of_mem d found⟩
        · exact ⟨segment, List.mem_cons_of_mem _ member, found⟩

/-- A plain text has no control characters. -/
theorem PlainText.no_control {s : Str} (plain : PlainText s) : hasControl s = false := by
  refine List.any_eq_false.mpr fun c inside control => ?_
  have other : c ≠ SLASH := by
    rintro rfl
    exact absurd control (by decide)
  obtain ⟨segment, member, found⟩ := mem_some_segment inside other
  rcases plain segment member with dot | parent | valid
  · rw [dot, List.mem_singleton] at found
    subst found
    exact absurd control (by decide)
  · have dots : c = DOT := by
      rw [parent] at found
      simpa [PARENT] using found
    subst dots
    exact absurd control (by decide)
  · simp only [isRepositoryPath, Bool.and_eq_true, Bool.not_eq_true'] at valid
    exact List.any_eq_false.mp valid.1.1.2 c found control

theorem Native.resolve_ok_iff {manifest path : RepositoryPath} {declared : Str} :
    Native.resolveManifestPath manifest (.str declared) = .ok path ↔
      PlainText declared ∧ IsRelativeText declared ∧ LeadsTo manifest declared path := by
  have portable (plain : PlainText declared) :
      (declared == [] || declared != strip declared) = false ∧
        (declared.contains BACKSLASH || declared.contains 0 || hasControl declared ||
          isPosixAbsolute declared || hasWindowsDrive declared) = false ↔
      IsRelativeText declared := by
    rw [← unsafe_eq_false_iff, plain.no_control]
    simp only [Bool.or_eq_false_iff]
    tauto
  rw [Native.resolveManifestPath, rejectIf_then_iff, rejectIf_then_iff, bind_ok_iff]
  -- the last check only renames the error
  have mapped (final : List Str) :
      ((repositoryPath ([SLASH].intercalate final)).mapError fun _ =>
        contractError "manifest artifact path is not repository-confined") = .ok path ↔
      path.text = [SLASH].intercalate final := by
    rw [← repositoryPath_ok_iff]
    cases repositoryPath ([SLASH].intercalate final) with
    | error error => exact iff_of_false (by rintro ⟨⟩) (by rintro ⟨⟩)
    | ok found => exact Iff.rfl
  constructor
  · rintro ⟨filled, relative, final, climbed, rest⟩
    obtain ⟨plain, walk⟩ := Native.climb_ok_iff.mp climbed
    obtain ⟨some, joined⟩ := rejectIf_then_iff.mp rest
    refine ⟨plain, (portable plain).mp ⟨filled, relative⟩, final, walk, ?_, ?_⟩
    · exact List.isEmpty_eq_false_iff.mp some
    · exact (mapped final).mp joined
  · rintro ⟨plain, relative, final, walk, some, joined⟩
    obtain ⟨filled, portable⟩ := (portable plain).mpr relative
    refine ⟨filled, portable, final, Native.climb_ok_iff.mpr ⟨plain, walk⟩, ?_⟩
    refine rejectIf_then_iff.mpr ⟨List.isEmpty_eq_false_iff.mpr some, ?_⟩
    exact (mapped final).mpr joined

/-! ### Inside the root -/

/-- How often a walk goes up. -/
def climbs (segments : List Str) : Nat := segments.count PARENT

/-- How often a walk goes down into a name. -/
def descents (segments : List Str) : Nat :=
  segments.countP fun segment => segment != [] && segment != [DOT] && segment != PARENT

/-- Where a walk is after some of its segments is as deep as they say. -/
theorem Walks.depth {directory segments final : List Str} (walk : Walks directory segments final)
    (before : List Str) (first : before <+: segments) :
    climbs before ≤ directory.length + descents before := by
  induction walk generalizing before with
  | done directory =>
    obtain rfl := List.prefix_nil.mp first
    exact Nat.zero_le _
  | stay same after ih =>
    rcases List.prefix_cons_iff.mp first with rfl | ⟨rest, rfl, shorter⟩
    · exact Nat.zero_le _
    · have step := ih rest shorter
      rcases same with rfl | rfl <;> simpa [climbs, descents, PARENT] using step
  | @up directory rest final below after ih =>
    rcases List.prefix_cons_iff.mp first with rfl | ⟨rest, rfl, shorter⟩
    · exact Nat.zero_le _
    · have step := ih rest shorter
      have deep := List.length_pos_iff.mpr below
      rw [List.length_dropLast] at step
      simp only [climbs, descents, List.count_cons_self, List.countP_cons, bne_self_eq_false,
        Bool.and_false, Bool.false_eq_true, if_false] at step ⊢
      omega
  | down name other lower after ih =>
    rcases List.prefix_cons_iff.mp first with rfl | ⟨rest, rfl, shorter⟩
    · exact Nat.zero_le _
    · have step := ih rest shorter
      rw [List.length_append, List.length_singleton] at step
      simp [climbs, descents, name, other, lower] at step ⊢
      omega

/-- The path is inside the repository, and no prefix of the declared text is above its root. -/
structure Confined (manifest : RepositoryPath) (declared : Str) (path : RepositoryPath) : Prop where
  inside : ∀ part ∈ split SLASH path.text, part ≠ [] ∧ part ≠ [DOT] ∧ part ≠ PARENT
  below : ∀ before, before <+: split SLASH declared →
    climbs before ≤ manifest.parentParts.length + descents before

theorem RepositoryPath.parts_names (path : RepositoryPath) :
    ∀ part ∈ split SLASH path.text, part ≠ [] ∧ part ≠ [DOT] ∧ part ≠ PARENT := by
  have valid := path.valid
  simp only [isRepositoryPath, Bool.and_eq_true] at valid
  intro part member
  have named := List.all_eq_true.mp valid.2 part member
  simp only [isPathPart, Bool.and_eq_true, bne_iff_ne] at named
  exact ⟨named.1.1.1.1.1, named.1.1.1.1.2, named.1.1.1.2⟩

theorem LeadsTo.confined {manifest path : RepositoryPath} {declared : Str}
    (leads : LeadsTo manifest declared path) : Confined manifest declared path := by
  obtain ⟨final, walk, -, -⟩ := leads
  exact ⟨path.parts_names, walk.depth⟩

/-! ### Agreement -/

/-- Both reject, or both return the same path. -/
def Agree (first second : Except Error RepositoryPath) : Prop :=
  ((∃ error, first = .error error) ∧ ∃ error, second = .error error) ∨
    ∃ path, first = .ok path ∧ second = .ok path

theorem agree_iff {first second : Except Error RepositoryPath} :
    Agree first second ↔ ∀ path, first = .ok path ↔ second = .ok path := by
  cases first with
  | error error =>
    cases second with
    | error other => simp [Agree]
    | ok path => simp [Agree]
  | ok path =>
    cases second with
    | error other => simp [Agree]
    | ok other => simp [Agree, eq_comm]

/-- The resolvers agree on the texts whose segments are all plain, and on those that lead to no path
inside the repository. What they return is confined. -/
theorem resolvers_agree_iff (manifest : RepositoryPath) (declared : Str) :
    (Agree (Native.resolveManifestPath manifest (.str declared))
        (Discovery.resolveManifestPath manifest (.str declared)) ↔
      PlainText declared ∨
        ¬ (IsRelativeText declared ∧ ∃ path, LeadsTo manifest declared path)) ∧
    (∀ path, Native.resolveManifestPath manifest (.str declared) = .ok path →
      Confined manifest declared path) ∧
    ∀ path, Discovery.resolveManifestPath manifest (.str declared) = .ok path →
      Confined manifest declared path := by
  refine ⟨?_, fun path returned => ?_, fun path returned => ?_⟩
  · rw [agree_iff]
    simp only [Native.resolve_ok_iff, Discovery.resolve_ok_iff]
    constructor
    · intro agree
      by_contra neither
      obtain ⟨uneven, leads⟩ := not_or.mp neither
      obtain ⟨relative, path, leads⟩ := not_not.mp leads
      exact uneven ((agree path).mpr ⟨relative, leads⟩).1
    · rintro (plain | nowhere) path
      · exact and_iff_right plain
      · have none : ¬ (IsRelativeText declared ∧ LeadsTo manifest declared path) :=
          fun both => nowhere ⟨both.1, path, both.2⟩
        exact iff_of_false (fun h => none h.2) none
  · exact (Native.resolve_ok_iff.mp returned).2.2.confined
  · exact (Discovery.resolve_ok_iff.mp returned).2.confined

def rootManifest : RepositoryPath := ⟨"research.yaml", by decide +kernel⟩

/-- Discovery takes a doubled slash, a reserved name that is left again, and a digit before a colon,
which is no drive. -/
theorem resolvers_disagree :
    ¬ Agree (Native.resolveManifestPath rootManifest (.str "results//run.json"))
        (Discovery.resolveManifestPath rootManifest (.str "results//run.json")) ∧
      ¬ Agree (Native.resolveManifestPath rootManifest (.str "con/../run.json"))
        (Discovery.resolveManifestPath rootManifest (.str "con/../run.json")) ∧
      ¬ Agree (Native.resolveManifestPath rootManifest (.str "1:/../run.json"))
        (Discovery.resolveManifestPath rootManifest (.str "1:/../run.json")) := by
  have differ (declared : Str)
      (refused : (Native.resolveManifestPath rootManifest (.str declared)).isOk = false)
      (returned : (Discovery.resolveManifestPath rootManifest (.str declared)).isOk = true) :
      ¬ Agree (Native.resolveManifestPath rootManifest (.str declared))
        (Discovery.resolveManifestPath rootManifest (.str declared)) := by
    rintro (⟨-, error, second⟩ | ⟨path, first, -⟩)
    · rw [second] at returned
      cases returned
    · rw [first] at refused
      cases refused
  exact ⟨differ _ (by decide +kernel) (by decide +kernel),
    differ _ (by decide +kernel) (by decide +kernel), differ _ (by decide +kernel) (by decide +kernel)⟩

end ClaimCI
