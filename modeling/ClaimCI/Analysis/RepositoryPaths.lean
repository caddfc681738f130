import ClaimCI.Analysis.MetricIdentity

/-!
# Repository paths

Canonical relative paths, and the digests that identify passive artifacts.
-/

open Python

namespace ClaimCI

/-- `_WINDOWS_FORBIDDEN_PATH_CHARACTERS`. -/
def WINDOWS_FORBIDDEN_PATH_CHARACTERS : Str := lit "<>:\"|?*"

/-- `_WINDOWS_RESERVED_BASENAMES`. -/
def WINDOWS_RESERVED_BASENAMES : List Str :=
  (["CON", "PRN", "AUX", "NUL", "CONIN$", "CONOUT$"] : List Str) ++
    (["COM", "LPT"] : List Str).flatMap fun device =>
      (lit "123456789" ++ lit "¹²³").map fun number => device ++ [number]

/-- One character of `text.upper()`, as far as a reserved name can come out of it: apart from the
ASCII letters only the dotless i has an upper case that occurs in one. -/
def upperReserved (c : CodePoint) : CodePoint :=
  if 0x61 ≤ c.val ∧ c.val ≤ 0x7A then codePoint (c.val - 0x20)
  else if c.val = 0x131 then codePoint 0x49
  else c

def isReservedBasename (part : Str) : Bool :=
  WINDOWS_RESERVED_BASENAMES.contains ((part.takeWhile (· != DOT)).map upperReserved)

/-- What `RepositoryPath` asks of one component. -/
def isPathPart (part : Str) : Bool :=
  part != [] && part != [DOT] && part != [DOT, DOT] && part == strip part &&
    part.getLast? != some DOT && !isReservedBasename part

/-- `RepositoryPath`. An absolute path has an empty first part, and a drive of Windows has a colon
or two empty parts. -/
def isRepositoryPath (s : Str) : Bool :=
  s != [] && s == strip s && !s.contains BACKSLASH && !hasControl s &&
    !(s.any fun c => WINDOWS_FORBIDDEN_PATH_CHARACTERS.contains c) &&
    (split (codePoint 0x2F) s).all isPathPart

structure RepositoryPath where
  text : Str
  valid : isRepositoryPath text = true
  deriving DecidableEq

/-- The messages of `RepositoryPath`, in the order of its checks. -/
def repositoryPath (s : Str) : Except Error RepositoryPath :=
  if s == [] || s != strip s then
    .error (contractError "repository path must be non-empty and canonical")
  else if s.contains 0 then .error (contractError "repository path contains NUL")
  else if s.contains BACKSLASH then
    .error (contractError "repository path must use forward slashes")
  else if h : isRepositoryPath s = true then .ok ⟨s, h⟩
  else .error (contractError "repository path must be a canonical confined relative file path")

/-- The constructor accepts exactly the valid texts. -/
theorem repositoryPath_ok_iff {s : Str} {path : RepositoryPath} :
    repositoryPath s = .ok path ↔ path.text = s := by
  constructor
  · intro h
    unfold repositoryPath at h
    split at h
    · cases h
    · split at h
      · cases h
      · split at h
        · cases h
        · split at h
          · rw [← Except.ok.inj h]
          · cases h
  · intro same
    subst same
    have valid := path.valid
    simp only [isRepositoryPath, Bool.and_eq_true, bne_iff_ne, beq_iff_eq, Bool.not_eq_true']
      at valid
    obtain ⟨⟨⟨⟨⟨filled, stripped⟩, slashes⟩, clean⟩, _⟩, _⟩ := valid
    have noNul : path.text.contains 0 = false := by
      rw [List.contains_eq_any_beq]
      apply List.any_eq_false.mpr
      intro c hc isNul
      have low := List.any_eq_false.mp clean c hc
      rw [← beq_iff_eq.mp isNul] at low
      exact low (by decide)
    have unequal : (path.text == [] || path.text != strip path.text) = false := by
      rw [beq_eq_false_iff_ne.mpr filled, bne_eq_false_iff_eq.mpr stripped, Bool.or_false]
    rw [repositoryPath, unequal, noNul, slashes]
    exact dif_pos path.valid

/-- The constructor raises exactly on the other texts. -/
theorem repositoryPath_isOk_iff {s : Str} :
    (∃ path, repositoryPath s = .ok path) ↔ isRepositoryPath s = true := by
  constructor
  · rintro ⟨path, h⟩
    rw [← repositoryPath_ok_iff.mp h]
    exact path.valid
  · exact fun valid => ⟨⟨s, valid⟩, repositoryPath_ok_iff.mpr rfl⟩

example : isRepositoryPath "runs/con.txt" = false ∧ isRepositoryPath "runs/icon.txt" = true := by
  decide

/-- A lowercase hexadecimal digest. -/
structure Sha256Digest where
  text : Str
  valid : isSha256 text = true
  deriving DecidableEq

end ClaimCI
