import ClaimCI.Models

/-!
# Streamed artifacts

The bounded pass over one artifact: the work budgets, the line splitter that works on blocks as
they are read, and the limits on a decoded record. What a pass establishes is a completeness
report.
-/

open Python

namespace ClaimCI

inductive ScanState where
  | complete | incompleteBudget | incompleteLimit | failed
  deriving DecidableEq, Repr

def ScanState.value : ScanState → Str
  | complete => "complete"
  | incompleteBudget => "incomplete_budget"
  | incompleteLimit => "incomplete_limit"
  | failed => "failed"

/-- The reasons a scan of dataset records reports. -/
inductive ScanReason where
  | complete | semanticByteBudget | recordBudget | logicalRecordLimit | nodeLimit | depthLimit
  | scratchBudget | malformed | invalidUtf8
  deriving DecidableEq, Repr

def ScanReason.value : ScanReason → Str
  | complete => "complete"
  | semanticByteBudget => "semantic_byte_budget"
  | recordBudget => "record_budget"
  | logicalRecordLimit => "logical_record_limit"
  | nodeLimit => "node_limit"
  | depthLimit => "depth_limit"
  | scratchBudget => "scratch_budget"
  | malformed => "malformed"
  | invalidUtf8 => "invalid_utf8"

def MAX_STREAM_BYTES : Nat := 16 * 1024 * 1024 * 1024

/-- The work budgets of a streamed artifact; each one is positive and has a fixed maximum. -/
structure StreamingLimits where
  maxIntegrityBytes : Nat
  maxSemanticBytes : Nat
  maxSemanticRecords : Nat
  maxLogicalRecordBytes : Nat
  maxDepth : Nat
  maxNodesPerRecord : Nat
  maxScratchBytes : Nat
  maxHashPreviews : Nat
  bounded : ∀ budget ∈ [(maxIntegrityBytes, MAX_STREAM_BYTES), (maxSemanticBytes, MAX_STREAM_BYTES),
    (maxSemanticRecords, 10000000), (maxLogicalRecordBytes, 16 * 1024 * 1024), (maxDepth, 64),
    (maxNodesPerRecord, 1000000), (maxScratchBytes, MAX_STREAM_BYTES), (maxHashPreviews, 1024)],
    1 ≤ budget.1 ∧ budget.1 ≤ budget.2

/-- The default budgets. -/
def StreamingLimits.default : StreamingLimits where
  maxIntegrityBytes := 1024 * 1024 * 1024
  maxSemanticBytes := 512 * 1024 * 1024
  maxSemanticRecords := 250000
  maxLogicalRecordBytes := 1024 * 1024
  maxDepth := 64
  maxNodesPerRecord := 100000
  maxScratchBytes := 512 * 1024 * 1024
  maxHashPreviews := 128
  bounded := by decide

/-- What a scan reports about its coverage; every report is issued after the integrity of the
whole artifact was verified. -/
structure ScanCompleteness where
  state : ScanState
  reason : ScanReason
  recordsScanned : Nat
  semanticBytes : Nat
  scratchBytes : Nat
  deriving DecidableEq

def ScanCompleteness.isComplete (report : ScanCompleteness) : Bool := report.state == .complete

/-- `_ScanStop`; no stop is called complete. -/
structure ScanStop where
  state : ScanState
  reason : ScanReason
  unfinished : state ≠ .complete
  deriving DecidableEq

def ScanStop.failed (reason : ScanReason) : ScanStop := ⟨.failed, reason, by decide⟩

def ScanStop.budget (reason : ScanReason) : ScanStop := ⟨.incompleteBudget, reason, by decide⟩

def ScanStop.limit (reason : ScanReason) : ScanStop := ⟨.incompleteLimit, reason, by decide⟩

/-- What one call of `os.read` gives before the end of the file. -/
inductive Read where
  | block (content : Bytes)
  | failed

/-- A source that was issued for one candidate. -/
structure ArtifactSource where
  path : Str
  sha256 : Str
  reads : List Read
  /-- Whether the `n`th attempt to finish drains the source and finds its size, its digest and its
  identity as they were issued. -/
  verifies : Nat → Bool

def Read.content : Read → Bytes
  | block content => content
  | failed => []

/-- The bytes of the artifact. -/
def ArtifactSource.content (source : ArtifactSource) : Bytes := source.reads.flatMap Read.content

/-! ### Lines -/

/-- What the line splitter gives its consumer next. -/
inductive LineEvent where
  | line (raw : Bytes) (physicalBytes : Nat)
  | stop (reason : ScanStop)
  /-- `read_chunk` raises: a read failed, or the integrity budget is exceeded. -/
  | failed

/-- The byte of a line feed, and of a carriage return. -/
def LF_BYTE : UInt8 := 0x0A
def CR_BYTE : UInt8 := 0x0D

/-- A line without the carriage return it ends with, if it does. -/
def stripCarriageReturn (line : Bytes) : Bytes :=
  if line.getLast? = some CR_BYTE then line.dropLast else line

/-- The segments of a block and whether a line feed ends them: `current` is what was passed since
the cursor. -/
def segments (current : Bytes) : Bytes → List (Bytes × Bool)
  | [] => if current = [] then [] else [(current, false)]
  | b :: rest =>
    if b = LF_BYTE then (current, true) :: segments [] rest else segments (current ++ [b]) rest

def logicalRecordLimit : LineEvent := .stop (.limit .logicalRecordLimit)

/-- The lines that end in a block; `next` goes on with the unfinished line behind it. -/
def blockLines (maximum : Nat) (next : Bytes → Nat → List LineEvent) (line : Bytes)
    (physicalBytes : Nat) : List (Bytes × Bool) → List LineEvent
  | [] => next line physicalBytes
  | (segment, terminated) :: rest =>
    if maximum + 1 < line.length + segment.length then [logicalRecordLimit]
    else if terminated then
      let raw := stripCarriageReturn (line ++ segment)
      if maximum < raw.length then [logicalRecordLimit]
      else
        .line raw (physicalBytes + segment.length + 1) :: blockLines maximum next [] 0 rest
    else next (line ++ segment) (physicalBytes + segment.length)

/-- `_binary_lines`, from the integrity bytes read so far and an unfinished line. -/
def binaryLines (limits : StreamingLimits) (integrityBytes : Nat) (line : Bytes)
    (physicalBytes : Nat) : List Read → List LineEvent
  | [] =>
    if line = [] then []
    else if limits.maxLogicalRecordBytes < line.length then [logicalRecordLimit]
    else [.line line physicalBytes]
  | .failed :: _ => [.failed]
  | .block content :: rest =>
    if limits.maxIntegrityBytes < integrityBytes + content.length then [.failed]
    else
      blockLines limits.maxLogicalRecordBytes
        (fun line physicalBytes =>
          binaryLines limits (integrityBytes + content.length) line physicalBytes rest)
        line physicalBytes (segments [] content)

/-! ### Records -/

/-- One more node of a record. -/
def visitNode (limits : StreamingLimits) (nodes : Nat) : Except ScanStop Nat :=
  if limits.maxNodesPerRecord < nodes + 1 then .error (.limit .nodeLimit)
  else .ok (nodes + 1)

/-- One more node, which is a container at a depth. -/
def visitContainer (limits : StreamingLimits) (depth nodes : Nat) : Except ScanStop Nat := do
  let nodes ← visitNode limits nodes
  if limits.maxDepth < depth then .error (.limit .depthLimit) else .ok nodes

mutual

/-- The traversal of a decoded value, counting nodes; containers come before what they hold. -/
def visitValue (limits : StreamingLimits) (depth nodes : Nat) : Json → Except ScanStop Nat
  | .null => visitNode limits nodes
  | .bool _ => visitNode limits nodes
  | .int _ => visitNode limits nodes
  | .float _ => visitNode limits nodes
  -- a number that is not finite counts as a node before it is refused
  | .infinity _ => do
    let _ ← visitNode limits nodes
    .error (.failed .malformed)
  | .nan => do
    let _ ← visitNode limits nodes
    .error (.failed .malformed)
  | .str _ => visitNode limits nodes
  | .array items => do
    let nodes ← visitContainer limits depth nodes
    visitItems limits (depth + 1) nodes items
  | .object members => do
    let nodes ← visitContainer limits depth nodes
    visitMembers limits (depth + 1) nodes members

def visitItems (limits : StreamingLimits) (depth nodes : Nat) :
    List Json → Except ScanStop Nat
  | [] => .ok nodes
  | item :: rest => do
    let nodes ← visitValue limits depth nodes item
    visitItems limits depth nodes rest

/-- A key is a node of its own, before its value. -/
def visitMembers (limits : StreamingLimits) (depth nodes : Nat) :
    Members → Except ScanStop Nat
  | [] => .ok nodes
  | (_, value) :: rest => do
    let nodes ← visitNode limits nodes
    let nodes ← visitValue limits depth nodes value
    visitMembers limits depth nodes rest

end

/-- `_validate_record_graph`: objects are traversed in the order of their sorted keys. -/
def validateRecordGraph (limits : StreamingLimits) (value : Json) : Except ScanStop Unit := do
  let _ ← visitValue limits 1 0 value.sorted
  .ok ()

end ClaimCI
