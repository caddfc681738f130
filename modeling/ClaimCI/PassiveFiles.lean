import ClaimCI.Analysis.ManifestPaths
import ClaimCI.Python.Lockstep

/-!
# Passive files

The capture and the inspection of a confined regular file, over an operating system that may answer
every call in any way: they make the same calls and end alike.
-/

open Python
open Programs
open ClaimCI.Review (posixParts)

namespace ClaimCI

/-- What `os.stat_result` is read for. -/
structure FileStat where
  dev : Nat
  ino : Nat
  mode : Nat
  size : Nat
  mtimeNs : Int
  ctimeNs : Int
  deriving DecidableEq

namespace FileStat

/-- `stat.S_IFMT`, shifted down. -/
def kind (stat : FileStat) : Nat := stat.mode / 0o10000 % 0o20

/-- `stat.S_ISLNK`. -/
def isLink (stat : FileStat) : Bool := stat.kind == 0o12

/-- `stat.S_ISDIR`. -/
def isDirectory (stat : FileStat) : Bool := stat.kind == 0o4

/-- `stat.S_ISREG`. -/
def isRegular (stat : FileStat) : Bool := stat.kind == 0o10

/-- `_path_identity`. -/
def pathIdentity (stat : FileStat) : Nat × Nat × Nat := (stat.dev, stat.ino, stat.mode)

/-- `_file_path_identity`. -/
def filePathIdentity (stat : FileStat) : Nat × Nat × Nat × Nat × Int × Int :=
  (stat.dev, stat.ino, stat.mode, stat.size, stat.mtimeNs, stat.ctimeNs)

/-- `_file_open_identity`. -/
def fileOpenIdentity (stat : FileStat) : Nat × Nat × Nat × Nat × Int :=
  (stat.dev, stat.ino, stat.mode, stat.size, stat.mtimeNs)

end FileStat

/-- What a call to the operating system, or the library around it, raises. -/
inductive OsFault where
  | osError | runtimeError | valueError
  deriving DecidableEq

/-- What the functions raise. -/
inductive PassiveFault where
  /-- `PassiveFileError`. -/
  | passive (message code : Str)
  | typeError (message : Str)
  | fault (fault : OsFault)
  deriving DecidableEq

/-- The code of a `PassiveFileError`; another exception is its own. -/
def PassiveFault.code : PassiveFault → Str ⊕ PassiveFault
  | passive _ code => .inl code
  | other => .inr other

/-- The parts of an absolute path. -/
abbrev PathParts := List Str

/-- The answers of an operating system in its states. -/
structure OperatingSystem (σ : Type) where
  /-- `path.resolve(strict=True)`. -/
  resolve : PathParts → σ → Except OsFault PathParts × σ
  lstat : PathParts → σ → Except OsFault FileStat × σ
  /-- `_open_passive`. -/
  open' : PathParts → σ → Except OsFault Nat × σ
  fstat : Nat → σ → Except OsFault FileStat × σ
  read : Nat → Nat → σ → Except OsFault Bytes × σ
  close : Nat → σ → Except OsFault Unit × σ

/-- A call. -/
def call {σ α : Type} (answer : σ → Except OsFault α × σ) : Program σ PassiveFault α := fun s =>
  ((answer s).1.mapError .fault, (answer s).2)

def passiveError (message code : Str) : PassiveFault := .passive message code

/-- The handler of `OSError`, `RuntimeError` and `ValueError`. -/
def anyFault (message code : Str) : PassiveFault → PassiveFault
  | .fault _ => passiveError message code
  | other => other

/-- The handler of `OSError`. -/
def osErrors (message code : Str) : PassiveFault → PassiveFault
  | .fault .osError => passiveError message code
  | other => other

section Protocol

variable {σ : Type} (os : OperatingSystem σ)

/-! ### Before the file is read -/

/-- What the opening of a file leaves in the local variables. -/
structure OpenedFile where
  confinedRoot : PathParts
  rootBefore : FileStat
  current : PathParts
  components : List (PathParts × FileStat)
  before : FileStat
  descriptor : Nat

/-- The checks of the arguments. -/
def checkArguments (relative : Str) (maxBytes : Int) : Program σ PassiveFault Unit := do
  Program.raiseIf (decide (maxBytes < 0))
    (.typeError "passive file byte bound must be a non-negative integer")
  Program.raiseIf (relative == [] || relative.contains BACKSLASH)
    (passiveError "passive file path is not portable" "unsafe_path")
  Program.raiseIf (isPosixAbsolute relative || (posixParts relative).contains PARENT)
    (passiveError "passive file path is not confined" "unsafe_path")

/-- The walk along the components, with what was observed of each. -/
def walkComponents (current : PathParts) : List Str →
    Program σ PassiveFault (PathParts × List (PathParts × FileStat))
  | [] => pure (current, [])
  | component :: rest => do
    let next := current ++ [component]
    let observed ← call (os.lstat next)
    Program.raiseIf observed.isLink
      (passiveError "passive file path contains a symbolic link" "symlink")
    -- the last component may be anything but a link
    Program.raiseIf (!rest.isEmpty && !observed.isDirectory)
      (passiveError "passive file parent is not a directory" "not_regular")
    let (last, others) ← walkComponents next rest
    pure (last, (next, observed) :: others)

/-- The steps under the second handler, from the walk to the open. -/
def openComponents (confinedRoot : PathParts) (rootBefore : FileStat) (relative : Str)
    (maxBytes : Int) : Program σ PassiveFault OpenedFile := do
  let (current, components) ← walkComponents os confinedRoot (posixParts relative)
  let resolved ← call (os.resolve current)
  -- `relative_to` raises a `ValueError`
  Program.raiseIf (!confinedRoot.isPrefixOf resolved) (.fault .valueError)
  Program.raiseIf (resolved != current)
    (passiveError "passive file path is not a direct confined path" "outside")
  let before ← call (os.lstat current)
  Program.raiseIf (!before.isRegular)
    (passiveError "passive file is not a regular file" "not_regular")
  Program.raiseIf (decide (maxBytes < before.size))
    (passiveError "passive file exceeds the byte bound" "too_large")
  let descriptor ← call (os.open' current)
  pure ⟨confinedRoot, rootBefore, current, components, before, descriptor⟩

/-- What both functions do until the file is open, in the same words. -/
def openConfined (root : PathParts) (relative : Str) (maxBytes : Int) :
    Program σ PassiveFault OpenedFile := do
  checkArguments relative maxBytes
  let (confinedRoot, rootBefore) ←
    Program.handle (anyFault "passive file root is unavailable" "unavailable") do
      let confinedRoot ← call (os.resolve root)
      let rootBefore ← call (os.lstat confinedRoot)
      pure (confinedRoot, rootBefore)
  Program.raiseIf (rootBefore.isLink || !rootBefore.isDirectory)
    (passiveError "passive file root is not a trusted directory" "symlink")
  Program.handle (anyFault "passive file could not be opened" "unavailable")
    (openComponents os confinedRoot rootBefore relative maxBytes)

/-! ### The read loops -/

/-- The loop of `capture_confined_regular_file` over the remaining bytes. Every block takes some of
them, so as many rounds as there are bytes suffice. -/
def captureBlocks (descriptor : Nat) : Nat → Nat → List Bytes →
    Program σ PassiveFault (List Bytes)
  | 0, _, chunks => pure chunks
  | rounds + 1, remaining, chunks =>
    if remaining = 0 then pure chunks
    else do
      let block ← call (os.read descriptor (min (64 * 1024) remaining))
      if block.isEmpty then pure chunks
      else captureBlocks descriptor rounds (remaining - block.length) (chunks ++ [block])

/-- `hashlib.sha256()` knows the bytes that it was updated with. -/
structure RunningDigest where
  fed : Bytes

def RunningDigest.update (digest : RunningDigest) (block : Bytes) : RunningDigest :=
  ⟨digest.fed ++ block⟩

def RunningDigest.hexdigest (sha256 : Bytes → Str) (digest : RunningDigest) : Str :=
  sha256 digest.fed

/-- The loop of `inspect_confined_regular_file` over the size so far. -/
def inspectBlocks (descriptor maxBytes : Nat) : Nat → Nat → RunningDigest →
    Program σ PassiveFault (Nat × RunningDigest)
  | 0, size, digest => pure (size, digest)
  | rounds + 1, size, digest =>
    if maxBytes < size then pure (size, digest)
    else do
      let block ← call (os.read descriptor (min (64 * 1024) (maxBytes + 1 - size)))
      if block.isEmpty then pure (size, digest)
      else inspectBlocks descriptor maxBytes rounds (size + block.length) (digest.update block)

/-- What a function does between opening and closing a descriptor, around its loop: `sizeOf` gives
the bytes that the loop read. -/
def readOpened {α : Type} (activity : Str) (file : OpenedFile) (maxBytes : Nat)
    (loop : Program σ PassiveFault α) (sizeOf : α → Nat) :
    Program σ PassiveFault (FileStat × FileStat × α) :=
  Program.withCleanup (call (os.close file.descriptor))
    (Program.handle (osErrors "passive file read failed" "unavailable") do
      -- the file may be replaced between the check of the path and the open
      let opened ← call (os.fstat file.descriptor)
      Program.raiseIf (!opened.isRegular)
        (passiveError "passive file descriptor is not regular" "not_regular")
      Program.raiseIf (opened.fileOpenIdentity != file.before.fileOpenIdentity)
        (passiveError "passive file identity changed during open" "changed")
      let found ← loop
      Program.raiseIf (decide (maxBytes < sizeOf found))
        (passiveError "passive file changed beyond the byte bound" "too_large")
      -- what is read is kept only if the descriptor still names the same state
      let openedAfter ← call (os.fstat file.descriptor)
      Program.raiseIf (openedAfter.fileOpenIdentity != opened.fileOpenIdentity)
        (passiveError (lit "passive file descriptor changed during " ++ activity) "changed")
      pure (opened, openedAfter, found))

/-! ### After the file was read -/

/-- The parents are observed again. -/
def recheckParents (activity : Str) : List (PathParts × FileStat) → Program σ PassiveFault Unit
  | [] => pure ()
  | (component, observed) :: rest => do
    let again ← call (os.lstat component)
    Program.raiseIf (again.pathIdentity != observed.pathIdentity)
      (passiveError (lit "passive file parent identity changed during " ++ activity) "changed")
    recheckParents activity rest

/-- The observations after the descriptor is closed, under their handler. -/
def observeAgain (activity : Str) (file : OpenedFile) : Program σ PassiveFault FileStat :=
  Program.handle (osErrors "passive file identity could not be rechecked" "changed") do
    let rootAfter ← call (os.lstat file.confinedRoot)
    Program.raiseIf (rootAfter.pathIdentity != file.rootBefore.pathIdentity)
      (passiveError (lit "passive file root identity changed during " ++ activity) "changed")
    -- the file itself is not compared with what the walk observed
    recheckParents os activity file.components.dropLast
    call (os.lstat file.current)

/-- The last checks, with the size that was read. -/
def recheck (activity : Str) (file : OpenedFile) (opened openedAfter : FileStat) (size : Nat) :
    Program σ PassiveFault FileStat := do
  let after ← observeAgain os activity file
  Program.raiseIf (after.filePathIdentity != file.before.filePathIdentity)
    (passiveError (lit "passive file pathname changed during " ++ activity) "changed")
  Program.raiseIf (after.fileOpenIdentity != openedAfter.fileOpenIdentity)
    (passiveError (lit "passive file identity changed during " ++ activity) "changed")
  Program.raiseIf (size != opened.size)
    (passiveError (lit "passive file size changed during " ++ activity) "changed")
  pure after

/-! ### The two functions -/

/-- The observations of the file that are kept in local variables. -/
structure FileObservations where
  file : OpenedFile
  opened : FileStat
  openedAfter : FileStat
  after : FileStat

/-- A function around its loop, with its observations. -/
def observeFile {α : Type} (activity : Str) (root : PathParts) (relative : Str) (maxBytes : Int)
    (loop : Nat → Program σ PassiveFault α) (sizeOf : α → Nat) :
    Program σ PassiveFault (FileObservations × α) := do
  let file ← openConfined os root relative maxBytes
  let (opened, openedAfter, found) ←
    readOpened os activity file maxBytes.toNat (loop file.descriptor) sizeOf
  let after ← recheck os activity file opened openedAfter (sizeOf found)
  pure (⟨file, opened, openedAfter, after⟩, found)

structure PassiveFileCapture where
  content : Bytes
  size : Nat
  sha256 : Str

structure PassiveFileInspection where
  size : Nat
  sha256 : Str

variable (sha256 : Bytes → Str) (root : PathParts) (relative : Str) (maxBytes : Int)

/-- The observations of a capture, with the content that it read. -/
def captureObserved : Program σ PassiveFault (FileObservations × Bytes) :=
  observeFile os "capture" root relative maxBytes
    (fun descriptor => do
      let chunks ← captureBlocks os descriptor (maxBytes.toNat + 1) (maxBytes.toNat + 1) []
      pure chunks.flatten)
    List.length

/-- `capture_confined_regular_file`. -/
def captureConfinedRegularFile : Program σ PassiveFault PassiveFileCapture := do
  let (_, content) ← captureObserved os root relative maxBytes
  pure ⟨content, content.length, sha256 content⟩

/-- The observations of an inspection, with the size and the digest that it found. -/
def inspectObserved : Program σ PassiveFault (FileObservations × Nat × RunningDigest) :=
  observeFile os "inspection" root relative maxBytes
    (fun descriptor =>
      inspectBlocks os descriptor maxBytes.toNat (maxBytes.toNat + 1) 0 ⟨[]⟩)
    Prod.fst

/-- `inspect_confined_regular_file`. -/
def inspectConfinedRegularFile : Program σ PassiveFault PassiveFileInspection := do
  let (_, size, digest) ← inspectObserved os root relative maxBytes
  pure ⟨size, digest.hexdigest sha256⟩

end Protocol

/-! ### Agreement -/

/-- The same code, or the same exception without one. -/
def SameCode (e e' : PassiveFault) : Prop := e.code = e'.code

theorem sameCode_refl (e : PassiveFault) : SameCode e e := rfl

theorem sameCode_passive (message message' code : Str) :
    SameCode (passiveError message code) (passiveError message' code) := rfl

/-- A handler keeps faults with one code together. -/
theorem sameCode_osErrors (message code : Str) {e e' : PassiveFault} (same : SameCode e e') :
    SameCode (osErrors message code e) (osErrors message code e') := by
  cases e with
  | passive text other =>
    cases e' with
    | passive text' other' => exact same
    | typeError text' => cases same
    | fault fault' => cases same
  | typeError text =>
    obtain rfl : .typeError text = e' := by
      cases e' with
      | passive text' other' => cases same
      | typeError text' => exact Sum.inr.inj same
      | fault fault' => cases Sum.inr.inj same
    exact sameCode_refl _
  | fault fault =>
    obtain rfl : .fault fault = e' := by
      cases e' with
      | passive text' other' => cases same
      | typeError text' => cases Sum.inr.inj same
      | fault fault' => exact Sum.inr.inj same
    exact sameCode_refl _

section Agreement

variable {σ : Type} (os : OperatingSystem σ)

/-- More rounds than there are remaining bytes change nothing. -/
theorem captureBlocks_rounds (descriptor : Nat) {rounds remaining : Nat} (chunks : List Bytes)
    (enough : remaining ≤ rounds) :
    captureBlocks os descriptor rounds remaining chunks =
      captureBlocks os descriptor remaining remaining chunks := by
  induction rounds using Nat.strong_induction_on generalizing remaining chunks with
  | _ rounds ih =>
    cases remaining with
    | zero => cases rounds <;> rfl
    | succ remaining =>
      cases rounds with
      | zero => exact absurd enough (Nat.not_succ_le_zero remaining)
      | succ rounds =>
        rw [captureBlocks, captureBlocks, if_neg (Nat.succ_ne_zero remaining),
          if_neg (Nat.succ_ne_zero remaining)]
        congr 1
        funext block
        by_cases ended : block.isEmpty = true
        · rw [if_pos ended, if_pos ended]
        · rw [if_neg ended, if_neg ended]
          -- a block takes at least one byte
          have taken : 0 < block.length := by
            rw [List.isEmpty_iff] at ended
            exact List.length_pos_iff.mpr ended
          rw [ih rounds (Nat.lt_succ_self rounds) _ (by omega),
            ih remaining (by omega) _ (by omega)]

/-- The loops read the same blocks: what remains to one is what the other still allows. -/
theorem blocks_lockstep (descriptor maxBytes rounds : Nat) {remaining size : Nat}
    {chunks : List Bytes} {digest : RunningDigest} (left : remaining = maxBytes + 1 - size)
    (read : size = chunks.flatten.length) (fed : digest.fed = chunks.flatten) :
    Lockstep SameCode
      (fun (chunks : List Bytes) (found : Nat × RunningDigest) =>
        found.1 = chunks.flatten.length ∧ found.2.fed = chunks.flatten)
      (captureBlocks os descriptor rounds remaining chunks)
      (inspectBlocks os descriptor maxBytes rounds size digest) := by
  induction rounds generalizing remaining size chunks digest with
  | zero => exact Lockstep.pure ⟨read, fed⟩
  | succ rounds ih =>
    rw [captureBlocks, inspectBlocks]
    -- both loops stop when the bound is passed, and at the same block
    by_cases beyond : maxBytes < size
    · rw [if_pos beyond, if_pos (by omega)]
      exact Lockstep.pure ⟨read, fed⟩
    rw [if_neg beyond, if_neg (by omega), ← left]
    apply Lockstep.bind (Lockstep.refl sameCode_refl _)
    rintro block _ rfl
    by_cases ended : block.isEmpty = true
    · rw [if_pos ended, if_pos ended]
      exact Lockstep.pure ⟨read, fed⟩
    · rw [if_neg ended, if_neg ended]
      have joined : (chunks ++ [block]).flatten = chunks.flatten ++ block := by
        rw [List.flatten_append, List.flatten_singleton]
      apply ih
      · omega
      · rw [joined, List.length_append, read]
      · rw [joined, RunningDigest.update, fed]

theorem recheckParents_lockstep (activity activity' : Str)
    (components : List (PathParts × FileStat)) :
    Lockstep SameCode (fun _ _ => True) (recheckParents os activity components)
      (recheckParents os activity' components) := by
  induction components with
  | nil => exact Lockstep.pure trivial
  | cons component rest ih =>
    apply Lockstep.bind (Lockstep.refl sameCode_refl _)
    rintro again _ rfl
    apply Lockstep.bind (Lockstep.raiseIf _ (sameCode_passive _ _ _))
    exact fun _ _ _ => ih

theorem observeAgain_lockstep (activity activity' : Str) (file : OpenedFile) :
    Lockstep SameCode (fun after after' => after = after') (observeAgain os activity file)
      (observeAgain os activity' file) := by
  refine Lockstep.handle ?_ fun _ _ => sameCode_osErrors _ _
  apply Lockstep.bind (Lockstep.refl sameCode_refl _)
  rintro rootAfter _ rfl
  apply Lockstep.bind (Lockstep.raiseIf _ (sameCode_passive _ _ _))
  intro _ _ _
  apply Lockstep.bind (recheckParents_lockstep os activity activity' _)
  exact fun _ _ _ => Lockstep.refl sameCode_refl _

theorem recheck_lockstep (activity activity' : Str) (file : OpenedFile)
    (opened openedAfter : FileStat) (size : Nat) :
    Lockstep SameCode (fun after after' => after = after')
      (recheck os activity file opened openedAfter size)
      (recheck os activity' file opened openedAfter size) := by
  apply Lockstep.bind (observeAgain_lockstep os activity activity' file)
  rintro after _ rfl
  apply Lockstep.bind (Lockstep.raiseIf _ (sameCode_passive _ _ _))
  intro _ _ _
  apply Lockstep.bind (Lockstep.raiseIf _ (sameCode_passive _ _ _))
  intro _ _ _
  apply Lockstep.bind (Lockstep.raiseIf _ (sameCode_passive _ _ _))
  exact fun _ _ _ => Lockstep.pure rfl

section Loops

variable {α β : Type} {R : α → β → Prop} {sizeOf : α → Nat} {sizeOf' : β → Nat}

theorem readOpened_lockstep (activity activity' : Str) (file : OpenedFile) (maxBytes : Nat)
    {loop : Program σ PassiveFault α} {loop' : Program σ PassiveFault β}
    (loops : Lockstep SameCode R loop loop') (sizes : ∀ a b, R a b → sizeOf a = sizeOf' b) :
    Lockstep SameCode
      (fun read read' => read.1 = read'.1 ∧ read.2.1 = read'.2.1 ∧ R read.2.2 read'.2.2)
      (readOpened os activity file maxBytes loop sizeOf)
      (readOpened os activity' file maxBytes loop' sizeOf') := by
  refine Lockstep.withCleanup (Lockstep.handle ?_ fun _ _ => sameCode_osErrors _ _) sameCode_refl
  apply Lockstep.bind (Lockstep.refl sameCode_refl _)
  rintro opened _ rfl
  apply Lockstep.bind (Lockstep.raiseIf _ (sameCode_passive _ _ _))
  intro _ _ _
  apply Lockstep.bind (Lockstep.raiseIf _ (sameCode_passive _ _ _))
  intro _ _ _
  apply Lockstep.bind loops
  intro found found' related
  rw [sizes found found' related]
  apply Lockstep.bind (Lockstep.raiseIf _ (sameCode_passive _ _ _))
  intro _ _ _
  apply Lockstep.bind (Lockstep.refl sameCode_refl _)
  rintro openedAfter _ rfl
  apply Lockstep.bind (Lockstep.raiseIf _ (sameCode_passive _ _ _))
  exact fun _ _ _ => Lockstep.pure ⟨rfl, rfl, related⟩

/-- Around loops in lockstep the functions are in lockstep, with the same observations. -/
theorem observeFile_lockstep (activity activity' : Str) (root : PathParts) (relative : Str)
    (maxBytes : Int) {loop : Nat → Program σ PassiveFault α}
    {loop' : Nat → Program σ PassiveFault β}
    (loops : ∀ descriptor, Lockstep SameCode R (loop descriptor) (loop' descriptor))
    (sizes : ∀ a b, R a b → sizeOf a = sizeOf' b) :
    Lockstep SameCode (fun seen seen' => seen.1 = seen'.1 ∧ R seen.2 seen'.2)
      (observeFile os activity root relative maxBytes loop sizeOf)
      (observeFile os activity' root relative maxBytes loop' sizeOf') := by
  apply Lockstep.bind (Lockstep.refl sameCode_refl _)
  rintro file _ rfl
  apply Lockstep.bind (readOpened_lockstep os activity activity' file _ (loops _) sizes)
  rintro ⟨opened, openedAfter, found⟩ ⟨_, _, found'⟩ ⟨rfl, rfl, related⟩
  simp only [sizes found found' related]
  apply Lockstep.bind (recheck_lockstep os activity activity' file opened openedAfter _)
  rintro after _ rfl
  exact Lockstep.pure ⟨rfl, related⟩

end Loops

/-- The inspection found the size and the digest of the captured content. -/
def InspectionOf (captured : PassiveFileCapture) (inspected : PassiveFileInspection) : Prop :=
  inspected.size = captured.size ∧ inspected.sha256 = captured.sha256

theorem capture_lockstep (sha256 : Bytes → Str) (root : PathParts) (relative : Str)
    (maxBytes : Int) :
    Lockstep SameCode InspectionOf
      (captureConfinedRegularFile os sha256 root relative maxBytes)
      (inspectConfinedRegularFile os sha256 root relative maxBytes) := by
  have loops (descriptor : Nat) : Lockstep SameCode
      (fun (content : Bytes) (found : Nat × RunningDigest) =>
        found.1 = content.length ∧ found.2.fed = content)
      (do
        let chunks ← captureBlocks os descriptor (maxBytes.toNat + 1) (maxBytes.toNat + 1) []
        pure chunks.flatten)
      (inspectBlocks os descriptor maxBytes.toNat (maxBytes.toNat + 1) 0 ⟨[]⟩) := by
    have blocks : Lockstep SameCode _
        (captureBlocks os descriptor (maxBytes.toNat + 1) (maxBytes.toNat + 1) [])
        (inspectBlocks os descriptor maxBytes.toNat (maxBytes.toNat + 1) 0 ⟨[]⟩) :=
      blocks_lockstep os descriptor maxBytes.toNat _ rfl rfl rfl
    exact Lockstep.map_left blocks fun chunks found related => related
  apply Lockstep.bind (observeFile_lockstep os "capture" "inspection" root relative maxBytes loops
    fun content found related => related.1.symm)
  rintro ⟨seen, content⟩ ⟨seen', size, digest⟩ ⟨-, sized, fed⟩
  refine Lockstep.pure ⟨sized, ?_⟩
  exact congrArg sha256 fed

/-! ### What a capture ensures -/

/-- From the observation before the open to the last one the identity of the file is the same. -/
structure FileObservations.Unchanged (seen : FileObservations) : Prop where
  opened : seen.opened.fileOpenIdentity = seen.file.before.fileOpenIdentity
  openedAfter : seen.openedAfter.fileOpenIdentity = seen.opened.fileOpenIdentity
  after : seen.after.fileOpenIdentity = seen.openedAfter.fileOpenIdentity
  path : seen.after.filePathIdentity = seen.file.before.filePathIdentity

theorem openConfined_ensures (root : PathParts) (relative : Str) (maxBytes : Int) :
    Ensures (openConfined os root relative maxBytes) fun _ => 0 ≤ maxBytes := by
  have arguments : Ensures (checkArguments relative maxBytes : Program σ PassiveFault Unit)
      fun _ => 0 ≤ maxBytes := by
    refine Ensures.bind Ensures.raiseIf ?_
    intro _ bounded
    exact Ensures.of_forall fun _ => Int.not_lt.mp (decide_eq_false_iff_not.mp bounded)
  refine Ensures.bind arguments ?_
  exact fun _ bounded => Ensures.of_forall fun _ => bounded

theorem readOpened_ensures {α : Type} (activity : Str) (file : OpenedFile) (maxBytes : Nat)
    (loop : Program σ PassiveFault α) (sizeOf : α → Nat) :
    Ensures (readOpened os activity file maxBytes loop sizeOf) fun read =>
      read.1.fileOpenIdentity = file.before.fileOpenIdentity ∧
        read.2.1.fileOpenIdentity = read.1.fileOpenIdentity ∧ sizeOf read.2.2 ≤ maxBytes := by
  refine Ensures.withCleanup (Ensures.handle ?_)
  refine Ensures.bind (Ensures.of_forall fun _ => trivial) ?_
  intro opened _
  refine Ensures.bind Ensures.raiseIf ?_
  intro _ _
  refine Ensures.bind Ensures.raiseIf ?_
  intro _ same
  refine Ensures.bind (Ensures.of_forall fun _ => trivial) ?_
  intro found _
  refine Ensures.bind Ensures.raiseIf ?_
  intro _ bounded
  refine Ensures.bind (Ensures.of_forall fun _ => trivial) ?_
  intro openedAfter _
  refine Ensures.bind Ensures.raiseIf ?_
  intro _ stayed
  refine Ensures.pure ⟨?_, ?_, ?_⟩
  · exact bne_eq_false_iff_eq.mp same
  · exact bne_eq_false_iff_eq.mp stayed
  · exact Nat.not_lt.mp (decide_eq_false_iff_not.mp bounded)

theorem recheck_ensures (activity : Str) (file : OpenedFile) (opened openedAfter : FileStat)
    (size : Nat) :
    Ensures (recheck os activity file opened openedAfter size) fun after =>
      after.filePathIdentity = file.before.filePathIdentity ∧
        after.fileOpenIdentity = openedAfter.fileOpenIdentity ∧ size = opened.size := by
  refine Ensures.bind (Ensures.of_forall fun _ => trivial) ?_
  intro after _
  refine Ensures.bind Ensures.raiseIf ?_
  intro _ path
  refine Ensures.bind Ensures.raiseIf ?_
  intro _ identity
  refine Ensures.bind Ensures.raiseIf ?_
  intro _ sized
  refine Ensures.pure ⟨?_, ?_, ?_⟩
  · exact bne_eq_false_iff_eq.mp path
  · exact bne_eq_false_iff_eq.mp identity
  · exact bne_eq_false_iff_eq.mp sized

theorem captureObserved_ensures (root : PathParts) (relative : Str) (maxBytes : Int) :
    Ensures (captureObserved os root relative maxBytes) fun captured =>
      (captured.2.length : Int) ≤ maxBytes ∧ captured.2.length = captured.1.opened.size ∧
        captured.1.Unchanged := by
  refine Ensures.bind (openConfined_ensures os root relative maxBytes) ?_
  intro file bounded
  refine Ensures.bind (readOpened_ensures os "capture" file maxBytes.toNat _ List.length) ?_
  rintro ⟨opened, openedAfter, content⟩ ⟨same, stayed, short⟩
  refine Ensures.bind (recheck_ensures os "capture" file opened openedAfter content.length) ?_
  rintro after ⟨path, identity, sized⟩
  refine Ensures.pure ⟨?_, sized, same, stayed, identity, path⟩
  exact (Int.ofNat_le.mpr short).trans_eq (Int.toNat_of_nonneg bounded)

/-- What a returned capture says: its content is the one that was read, within the bound, of the size
observed at the open, and between observations of one identity. -/
structure CaptureFaithful (sha256 : Bytes → Str) (root : PathParts) (relative : Str)
    (maxBytes : Int) (s : σ) (captured : PassiveFileCapture) : Prop where
  size : captured.size = captured.content.length
  digest : captured.sha256 = sha256 captured.content
  bounded : (captured.content.length : Int) ≤ maxBytes
  observed : ∃ seen, (captureObserved os root relative maxBytes s).1 = .ok (seen, captured.content) ∧
    captured.content.length = seen.opened.size ∧ seen.Unchanged

/-- The capture and the inspection agree over every operating system: from every state they come to
the same state and both fail with one code, or the inspection found the size and the digest of the
captured content, which is what `CaptureFaithful` says. -/
theorem capture_inspect_agree (sha256 : Bytes → Str) (root : PathParts) (relative : Str)
    (maxBytes : Int) :
    Lockstep SameCode InspectionOf
      (captureConfinedRegularFile os sha256 root relative maxBytes)
      (inspectConfinedRegularFile os sha256 root relative maxBytes) ∧
    ∀ s captured, (captureConfinedRegularFile os sha256 root relative maxBytes s).1 = .ok captured →
      CaptureFaithful os sha256 root relative maxBytes s captured := by
  refine ⟨capture_lockstep os sha256 root relative maxBytes, fun s captured returned => ?_⟩
  have ensured := captureObserved_ensures os root relative maxBytes s
  rw [captureConfinedRegularFile, Program.bind_eq, Program.andThen] at returned
  cases run : captureObserved os root relative maxBytes s with
  | mk result s' =>
    rw [run] at returned ensured
    cases result with
    | error e => cases returned
    | ok read =>
      obtain ⟨seen, content⟩ := read
      obtain ⟨bounded, sized, unchanged⟩ := ensured _ rfl
      obtain rfl := Except.ok.inj returned
      exact ⟨rfl, rfl, bounded, seen, by rw [run], sized, unchanged⟩

end Agreement

/-! ### A file that is replaced in front of the open -/

def directoryStat : FileStat := ⟨1, 1, 0o40755, 4096, 0, 0⟩
def emptyFileStat (ino : Nat) : FileStat := ⟨1, ino, 0o100644, 0, 0, 0⟩

/-- An operating system that counts the observations of paths; after the second of them the file is
another one. -/
def replacingSystem : OperatingSystem Nat where
  resolve path count := (.ok path, count)
  lstat path count :=
    (.ok (if path.length = 1 then directoryStat
      else emptyFileStat (if count < 2 then 10 else 11)), count + 1)
  open' _ count := (.ok 3, count)
  fstat _ count := (.ok (emptyFileStat 11), count)
  read _ _ count := (.ok [], count)
  close _ count := (.ok (), count)

/-- What the walk observed of the file is not what the last observation found, and the capture
returns. -/
theorem capture_replaced :
    ∃ seen captured,
      (captureConfinedRegularFile replacingSystem (fun _ => []) ["repo"] "f" 0 0).1 = .ok captured ∧
      (captureObserved replacingSystem ["repo"] "f" 0 0).1 = .ok (seen, captured.content) ∧
      ∃ path walked, seen.file.components.getLast? = some (path, walked) ∧
        path = seen.file.current ∧ walked.fileOpenIdentity ≠ seen.after.fileOpenIdentity := by
  refine ⟨_, _, rfl, rfl, _, _, rfl, rfl, ?_⟩
  decide

end ClaimCI
