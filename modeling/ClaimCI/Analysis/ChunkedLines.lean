import ClaimCI.Analysis.BinaryLines

/-!
# Lines and the reads they come from

The line splitter works on the blocks that single reads give. Its events are a function of the
content alone, defined here one byte at a time: how the reads cut the content, in the middle of a
terminator or at a limit, is not seen.
-/

open Python

namespace ClaimCI

def READ_CHUNK_BYTES : Nat := 64 * 1024

/-- The number of bytes the next `os.read` is asked for. -/
def readRequest (limits : StreamingLimits) (integrityBytes : Nat) : Nat :=
  min READ_CHUNK_BYTES (max 1 (limits.maxIntegrityBytes - integrityBytes))

/-- Every read succeeds and gives at least one byte and at most what it was asked for. -/
def Answers (limits : StreamingLimits) : Nat → List Read → Prop
  | _, [] => True
  | _, .failed :: _ => False
  | integrityBytes, .block content :: rest =>
    content ≠ [] ∧ content.length ≤ readRequest limits integrityBytes ∧
      Answers limits (integrityBytes + content.length) rest

/-- The events of a content, behind the integrity bytes read and an unfinished line. -/
def contentEvents (limits : StreamingLimits) (integrityBytes : Nat) (line : Bytes) :
    Bytes → List LineEvent
  | [] =>
    if line = [] then []
    else if limits.maxLogicalRecordBytes < line.length then [logicalRecordLimit]
    else [.line line line.length]
  | b :: rest =>
    if limits.maxIntegrityBytes ≤ integrityBytes then [.failed]
    else if b = LF_BYTE then
      if limits.maxLogicalRecordBytes < (stripCarriageReturn line).length then [logicalRecordLimit]
      else
        .line (stripCarriageReturn line) (line.length + 1) ::
          contentEvents limits (integrityBytes + 1) [] rest
    else if limits.maxLogicalRecordBytes < line.length then [logicalRecordLimit]
    else contentEvents limits (integrityBytes + 1) (line ++ [b]) rest

section Blocks

variable {limits : StreamingLimits}

/-- Without a line feed, the bytes of a block join the unfinished line unless it gets too long. -/
theorem contentEvents_segment (integrityBytes : Nat) (line segment rest : Bytes)
    (noLineFeed : LF_BYTE ∉ segment) (short : line.length ≤ limits.maxLogicalRecordBytes + 1)
    (within : integrityBytes + segment.length ≤ limits.maxIntegrityBytes) :
    contentEvents limits integrityBytes line (segment ++ rest) =
      if limits.maxLogicalRecordBytes + 1 < line.length + segment.length then [logicalRecordLimit]
      else contentEvents limits (integrityBytes + segment.length) (line ++ segment) rest := by
  induction segment generalizing integrityBytes line with
  | nil => simp [short]
  | cons b segment ih =>
    rw [List.mem_cons, not_or] at noLineFeed
    rw [List.length_cons] at within ⊢
    rw [List.cons_append, contentEvents, if_neg (by omega), if_neg (Ne.symm noLineFeed.1)]
    split
    next long => rw [if_pos (by omega)]
    next fits =>
      rw [ih (integrityBytes + 1) (line ++ [b]) noLineFeed.2 (by simp; omega) (by omega),
        List.append_assoc, List.singleton_append, List.length_append, List.length_singleton,
        show line.length + 1 + segment.length = line.length + (segment.length + 1) by omega,
        show integrityBytes + 1 + segment.length = integrityBytes + (segment.length + 1) by omega]

/-- A block within the integrity budget is split as its bytes one by one. -/
theorem blockLines_eq (next : Bytes → Nat → List LineEvent) (rest block line current : Bytes)
    (integrityBytes : Nat) (noLineFeed : LF_BYTE ∉ current)
    (short : line.length ≤ limits.maxLogicalRecordBytes + 1)
    (within : integrityBytes + current.length + block.length ≤ limits.maxIntegrityBytes)
    (following : ∀ line, line.length ≤ limits.maxLogicalRecordBytes + 1 → next line line.length =
      contentEvents limits (integrityBytes + current.length + block.length) line rest) :
    blockLines limits.maxLogicalRecordBytes next line line.length (segments current block) =
      contentEvents limits integrityBytes line (current ++ block ++ rest) := by
  -- induction on the block; the bytes of `current` are counted when its line ends
  induction block generalizing line current integrityBytes with
  | nil =>
    rw [List.length_nil, Nat.add_zero] at following within
    rw [List.append_nil, contentEvents_segment integrityBytes line current rest noLineFeed short within,
      segments]
    split
    next empty =>
      rw [empty, List.length_nil, Nat.add_zero] at following
      rw [empty, if_neg (by simp; omega), List.length_nil, Nat.add_zero, List.append_nil]
      exact following line short
    next =>
      rw [blockLines]
      split
      · rfl
      · rw [if_neg (by simp), ← List.length_append]
        apply following
        rw [List.length_append]
        omega
  -- a line feed ends the line, and the two limits are checked before it is given
  | cons b block ih =>
    rw [List.length_cons] at within following
    rw [segments]
    split
    next newline =>
      rw [List.append_assoc, contentEvents_segment integrityBytes line current _ noLineFeed short
        (by omega), blockLines]
      split
      · rfl
      · have inside : ¬ limits.maxIntegrityBytes ≤ integrityBytes + current.length := by omega
        rw [if_pos rfl, List.cons_append, contentEvents, if_neg inside, if_pos newline]
        simp only
        split
        · rfl
        · rw [List.length_append]
          have tail := ih [] [] (integrityBytes + current.length + 1) (by simp) (by simp)
            (by simp; omega) (by
              intro line fits
              rw [following line fits]
              congr 1
              simp
              omega)
          rw [List.length_nil, List.nil_append] at tail
          rw [tail]
    next other =>
      rw [ih line (current ++ [b]) integrityBytes (by simp [noLineFeed, Ne.symm other]) short
        (by simp; omega) (by
          intro line fits
          rw [following line fits]
          congr 1
          simp
          omega)]
      simp

/-- The splitter's events are those of the content. -/
theorem binaryLines_eq (reads : List Read) (integrityBytes : Nat) (line : Bytes)
    (answers : Answers limits integrityBytes reads)
    (short : line.length ≤ limits.maxLogicalRecordBytes + 1)
    (within : integrityBytes ≤ limits.maxIntegrityBytes) :
    binaryLines limits integrityBytes line line.length reads =
      contentEvents limits integrityBytes line (reads.flatMap Read.content) := by
  induction reads generalizing integrityBytes line with
  | nil => rfl
  | cons read reads ih =>
    cases read with
    | failed => cases answers
    | block content =>
      obtain ⟨nonempty, asked, later⟩ := answers
      have size := List.length_pos_iff.mpr nonempty
      rw [readRequest] at asked
      rw [binaryLines, List.flatMap_cons, Read.content]
      by_cases full : limits.maxIntegrityBytes = integrityBytes
      · -- one byte is asked for behind the budget, and it is too much
        obtain ⟨b, others, cut⟩ := List.exists_cons_of_ne_nil nonempty
        rw [if_pos (by omega), cut, List.cons_append, contentEvents, if_pos full.le]
      · rw [if_neg (by omega)]
        have split := @blockLines_eq limits
          (fun line physicalBytes =>
            binaryLines limits (integrityBytes + content.length) line physicalBytes reads)
          (reads.flatMap Read.content) content line [] integrityBytes (by simp) short
          (by simp; omega) (by
            intro line fits
            rw [List.length_nil, Nat.add_zero]
            exact ih (integrityBytes + content.length) line later fits (by omega))
        rw [List.nil_append] at split
        exact split

end Blocks

/-! ### The bytes of the lines -/

/-- The bytes of a line with its terminator, from how many it takes up. -/
def encodedLine (raw : Bytes) (physicalBytes : Nat) : Bytes :=
  if physicalBytes = raw.length + 2 then raw ++ [CR_BYTE, LF_BYTE]
  else if physicalBytes = raw.length + 1 then raw ++ [LF_BYTE]
  else raw

/-- The lines among the events. -/
def eventLines : List LineEvent → List (Bytes × Nat)
  | [] => []
  | .line raw physicalBytes :: rest => (raw, physicalBytes) :: eventLines rest
  | .stop _ :: _ => []
  | .failed :: _ => []

/-- The events are lines only: nothing stopped the splitter. -/
def RanThrough (events : List LineEvent) : Prop :=
  events = (eventLines events).map fun line => .line line.1 line.2

theorem encodedLine_strip (line : Bytes) :
    encodedLine (stripCarriageReturn line) (line.length + 1) = line ++ [LF_BYTE] := by
  unfold stripCarriageReturn
  split
  next ends =>
    have nonempty : line ≠ [] := by
      rintro rfl
      cases ends
    have last : line.getLast nonempty = CR_BYTE := by
      rw [List.getLast?_eq_some_getLast nonempty] at ends
      exact Option.some.inj ends
    have size := List.length_pos_iff.mpr nonempty
    rw [encodedLine, List.length_dropLast, if_pos (by omega)]
    conv_rhs => rw [← List.dropLast_append_getLast nonempty, last]
    rw [List.append_assoc, List.singleton_append]
  next =>
    rw [encodedLine, if_neg (by omega), if_pos rfl]

theorem encodedLine_whole (line : Bytes) : encodedLine line line.length = line := by
  rw [encodedLine, if_neg (by omega), if_neg (by omega)]

/-- The bytes of lines with their terminators. -/
def linesBytes (lines : List (Bytes × Nat)) : Bytes :=
  lines.flatMap fun line => encodedLine line.1 line.2

theorem linesBytes_cons (line : Bytes × Nat) (lines : List (Bytes × Nat)) :
    linesBytes (line :: lines) = encodedLine line.1 line.2 ++ linesBytes lines := by
  rw [linesBytes, List.flatMap_cons]
  rfl

theorem linesBytes_append (lines others : List (Bytes × Nat)) :
    linesBytes (lines ++ others) = linesBytes lines ++ linesBytes others := by
  rw [linesBytes, List.flatMap_append]
  rfl

/-- The lines are those of a prefix of the content, the whole of it when nothing stops the splitter,
and each takes up as many bytes as it has with its terminator. -/
theorem contentEvents_lines (limits : StreamingLimits) (integrityBytes : Nat) (line content : Bytes) :
    linesBytes (eventLines (contentEvents limits integrityBytes line content)) <+: line ++ content ∧
      (RanThrough (contentEvents limits integrityBytes line content) →
        linesBytes (eventLines (contentEvents limits integrityBytes line content)) =
          line ++ content) ∧
      ∀ found ∈ eventLines (contentEvents limits integrityBytes line content),
        (encodedLine found.1 found.2).length = found.2 := by
  -- induction on the content, byte by byte
  induction content generalizing integrityBytes line with
  | nil =>
    rw [contentEvents]
    split
    next empty => simp [eventLines, linesBytes, empty]
    · split
      · simp [eventLines, linesBytes, logicalRecordLimit, RanThrough]
      · simp [eventLines, linesBytes, encodedLine_whole]
  | cons b content ih =>
    rw [contentEvents]
    split
    · simp [eventLines, linesBytes, RanThrough]
    · split
      next newline =>
        split
        · simp [eventLines, linesBytes, logicalRecordLimit, RanThrough]
        · obtain ⟨below, whole, sizes⟩ := ih (integrityBytes + 1) []
          have bytes : ∀ lines, linesBytes ((stripCarriageReturn line, line.length + 1) :: lines) =
              line ++ b :: linesBytes lines := by
            intro lines
            rw [linesBytes_cons, encodedLine_strip, newline, List.append_assoc]
            rfl
          rw [eventLines, bytes]
          refine ⟨?_, ?_, ?_⟩
          · exact (List.prefix_append_right_inj line).mpr ((List.prefix_cons_inj b).mpr below)
          · intro ran
            rw [RanThrough, eventLines, List.map_cons, List.cons.injEq] at ran
            rw [whole ran.2, List.nil_append]
          · rw [List.forall_mem_cons]
            refine ⟨?_, sizes⟩
            rw [encodedLine_strip, List.length_append, List.length_singleton]
      · split
        · simp [eventLines, linesBytes, logicalRecordLimit, RanThrough]
        · have longer := ih (integrityBytes + 1) (line ++ [b])
          rwa [List.append_assoc, List.singleton_append] at longer

theorem sum_eq_linesBytes {lines : List (Bytes × Nat)}
    (sizes : ∀ found ∈ lines, (encodedLine found.1 found.2).length = found.2) :
    (lines.map Prod.snd).sum = (linesBytes lines).length := by
  induction lines with
  | nil => rfl
  | cons line lines ih =>
    rw [List.forall_mem_cons] at sizes
    rw [List.map_cons, List.sum_cons, ih sizes.2, linesBytes_cons, List.length_append, sizes.1]

end ClaimCI
