import ClaimCI.Analysis.ArtifactSource

/-!
# Lines of a streamed artifact

However an artifact is cut into blocks, the splitter gives the lines of the whole content, up to
the point where it stops.
-/

open Python

namespace ClaimCI

/-! ### The lines of a content -/

/-- The lines of a content behind an unfinished line, each with the bytes it takes up. -/
def linesFrom (line : Bytes) : Bytes → List (Bytes × Nat)
  | [] => if line = [] then [] else [(line, line.length)]
  | b :: rest =>
    if b = LF_BYTE then (stripCarriageReturn line, line.length + 1) :: linesFrom [] rest
    else linesFrom (line ++ [b]) rest

/-- The lines of a file. -/
def contentLines (content : Bytes) : List (Bytes × Nat) := linesFrom [] content

/-- No line takes up more bytes than there are. -/
theorem linesFrom_bytes (line rest : Bytes) :
    ((linesFrom line rest).map Prod.snd).sum = line.length + rest.length := by
  induction rest generalizing line with
  | nil =>
    rw [linesFrom]
    split
    next empty => simp [empty]
    · simp
  | cons b rest ih =>
    rw [linesFrom]
    split
    · rw [List.map_cons, List.sum_cons, ih]
      simp
      omega
    · rw [ih, List.length_append, List.length_cons, List.length_cons]
      simp
      omega

theorem length_stripCarriageReturn (line : Bytes) :
    line.length ≤ (stripCarriageReturn line).length + 1 := by
  unfold stripCarriageReturn
  split
  · rw [List.length_dropLast]
    omega
  · omega

/-- An unfinished line is at most one byte longer than the line it becomes. -/
theorem length_le_of_linesFrom (maximum : Nat) (line rest : Bytes)
    (short : ∀ found ∈ linesFrom line rest, found.1.length ≤ maximum) :
    line.length ≤ maximum + 1 := by
  induction rest generalizing line with
  | nil =>
    rw [linesFrom] at short
    split at short
    next empty => simp [empty]
    · have whole : line.length ≤ maximum := short _ List.mem_cons_self
      omega
  | cons b rest ih =>
    rw [linesFrom] at short
    split at short
    · have stripped : (stripCarriageReturn line).length ≤ maximum := short _ List.mem_cons_self
      have := length_stripCarriageReturn line
      omega
    · have longer := ih (line ++ [b]) short
      rw [List.length_append] at longer
      omega

/-! ### What the splitter gives -/

/-- The events are these lines, and nothing else. -/
def AllLines (events : List LineEvent) (lines : List (Bytes × Nat)) : Prop :=
  events = lines.map fun line => .line line.1 line.2

/-- The events are the lines, or the first of them and then a stop or a failure. -/
inductive Gives : List LineEvent → List (Bytes × Nat) → Prop where
  | all : Gives [] []
  | stop (reason : ScanStop) (lines : List (Bytes × Nat)) : Gives [.stop reason] lines
  | failed (lines : List (Bytes × Nat)) : Gives [.failed] lines
  | line (raw : Bytes) (physicalBytes : Nat) (events : List LineEvent)
      (lines : List (Bytes × Nat)) (rest : Gives events lines) :
      Gives (.line raw physicalBytes :: events) ((raw, physicalBytes) :: lines)

/-- Within a block: the splitter gives the lines that end in it, then what comes next. -/
theorem blockLines_gives (maximum : Nat) (next : Bytes → Nat → List LineEvent) (rest : Bytes)
    (following : ∀ line, Gives (next line line.length) (linesFrom line rest))
    (block line current : Bytes) :
    Gives (blockLines maximum next line line.length (segments current block))
      (linesFrom (line ++ current) (block ++ rest)) := by
  -- induction on the block; `current` is what of it stands before the next line feed
  induction block generalizing line current with
  | nil =>
    rw [segments]
    split
    next empty =>
      rw [empty, List.append_nil]
      exact following line
    next =>
      rw [blockLines]
      split
      · exact .stop _ _
      · rw [if_neg (by simp), ← List.length_append]
        exact following (line ++ current)
  | cons b block ih =>
    rw [segments, List.cons_append, linesFrom]
    split
    next =>
      rw [blockLines]
      split
      · exact .stop _ _
      · rw [if_pos rfl]
        simp only
        split
        · exact .stop _ _
        · rw [← List.length_append]
          exact .line _ _ _ _ (ih [] [])
    next =>
      rw [List.append_assoc]
      exact ih line (current ++ [b])

/-- The splitter gives the lines of what is still to be read. -/
theorem binaryLines_gives (limits : StreamingLimits) (reads : List Read) (integrityBytes : Nat)
    (line : Bytes) :
    Gives (binaryLines limits integrityBytes line line.length reads)
      (linesFrom line (reads.flatMap Read.content)) := by
  induction reads generalizing integrityBytes line with
  | nil =>
    rw [binaryLines, List.flatMap_nil, linesFrom]
    split
    · exact .all
    · split
      · exact .stop _ _
      · exact .line _ _ _ _ .all
  | cons read reads ih =>
    cases read with
    | failed => exact .failed _
    | block content =>
      rw [binaryLines]
      split
      · exact .failed _
      -- the block is split, and the reads behind it go on with the line it leaves unfinished
      · let next (line : Bytes) (physicalBytes : Nat) : List LineEvent :=
          binaryLines limits (integrityBytes + content.length) line physicalBytes reads
        have following : ∀ line, Gives (next line line.length)
            (linesFrom line (reads.flatMap Read.content)) := ih (integrityBytes + content.length)
        have lines := blockLines_gives limits.maxLogicalRecordBytes next _ following content line []
        rw [List.append_nil] at lines
        exact lines

/-! ### Within the limits -/

/-- Nothing stops the splitter while every line is short enough. -/
theorem blockLines_all (maximum : Nat) (next : Bytes → Nat → List LineEvent) (rest : Bytes)
    (block line current : Bytes)
    (short : ∀ found ∈ linesFrom (line ++ current) (block ++ rest), found.1.length ≤ maximum)
    (following : ∀ line, (∀ found ∈ linesFrom line rest, found.1.length ≤ maximum) →
      AllLines (next line line.length) (linesFrom line rest)) :
    AllLines (blockLines maximum next line line.length (segments current block))
      (linesFrom (line ++ current) (block ++ rest)) := by
  have unfinished : line.length + current.length ≤ maximum + 1 := by
    rw [← List.length_append]
    exact length_le_of_linesFrom maximum _ _ short
  -- a line that the limit admits stays within it on the way
  induction block generalizing line current with
  | nil =>
    rw [segments]
    split
    next empty =>
      rw [empty, List.append_nil] at short ⊢
      exact following line short
    next =>
      rw [blockLines, if_neg (by omega), if_neg (by simp), ← List.length_append]
      exact following (line ++ current) short
  | cons b block ih =>
    rw [segments]
    rw [List.cons_append, linesFrom] at short ⊢
    split
    next newline =>
      rw [if_pos newline] at short
      obtain ⟨first, others⟩ := List.forall_mem_cons.mp short
      rw [blockLines, if_neg (by omega), if_pos rfl]
      simp only at first ⊢
      rw [if_neg (by omega), ← List.length_append]
      have tail := ih [] [] others (by simp)
      exact congrArg (LineEvent.line _ _ :: ·) tail
    next other =>
      rw [if_neg other] at short
      rw [List.append_assoc] at short ⊢
      refine ih line (current ++ [b]) short ?_
      have := length_le_of_linesFrom maximum _ _ short
      simpa using this

/-- Every line of an artifact within the limits is given. -/
theorem binaryLines_all (limits : StreamingLimits) (reads : List Read) (integrityBytes : Nat)
    (line : Bytes) (readable : ∀ read ∈ reads, ∃ content, read = .block content)
    (integrity : integrityBytes + (reads.flatMap Read.content).length ≤ limits.maxIntegrityBytes)
    (short : ∀ found ∈ linesFrom line (reads.flatMap Read.content),
      found.1.length ≤ limits.maxLogicalRecordBytes) :
    AllLines (binaryLines limits integrityBytes line line.length reads)
      (linesFrom line (reads.flatMap Read.content)) := by
  induction reads generalizing integrityBytes line with
  | nil =>
    rw [List.flatMap_nil, linesFrom] at short ⊢
    rw [binaryLines]
    split
    next => rfl
    next nonempty =>
      rw [if_neg nonempty] at short
      have := short _ List.mem_cons_self
      rw [if_neg (by simpa using this)]
      rfl
  | cons read reads ih =>
    obtain ⟨⟨content, rfl⟩, others⟩ := List.forall_mem_cons.mp readable
    rw [List.flatMap_cons] at short integrity ⊢
    simp only [Read.content, List.length_append] at short integrity ⊢
    rw [binaryLines, if_neg (by omega)]
    have lines := blockLines_all limits.maxLogicalRecordBytes
      (fun line physicalBytes =>
        binaryLines limits (integrityBytes + content.length) line physicalBytes reads)
      (reads.flatMap Read.content) content line [] (by rwa [List.append_nil])
      fun line short => ih (integrityBytes + content.length) line others (by omega) short
    rw [List.append_nil] at lines
    exact lines

end ClaimCI
