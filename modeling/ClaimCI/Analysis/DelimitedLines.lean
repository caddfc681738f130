import ClaimCI.Analysis.ChunkedLines
import ClaimCI.Python.Csv

/-!
# Rows of a streamed table

The delimited reader pulls physical lines one by one and counts their bytes; a row takes up the
lines it spans and no others.
-/

open Python

namespace ClaimCI

/-- The counters of a delimited scan: the bytes of the row being read, and of all lines given. -/
structure PhysicalLines where
  logicalBytes : Nat
  semanticBytes : Nat
  deriving DecidableEq

/-- `_DelimitedPhysicalLines.__next__`, for one line of the splitter. -/
def PhysicalLines.nextLine (limits : StreamingLimits) (physical : PhysicalLines) (raw : Bytes)
    (physicalBytes : Nat) : Except ScanStop (Str × PhysicalLines) :=
  if limits.maxLogicalRecordBytes < physical.logicalBytes + physicalBytes then
    .error (.limit .logicalRecordLimit)
  else if limits.maxSemanticBytes < physical.semanticBytes + physicalBytes then
    .error (.budget .semanticByteBudget)
  else
    match decodeUtf8 (encodedLine raw physicalBytes) with
    | none => .error (.failed .invalidUtf8)
    | some text =>
      if text.contains 0 then .error (.failed .malformed)
      else
        .ok (text, ⟨physical.logicalBytes + physicalBytes, physical.semanticBytes + physicalBytes⟩)

/-- What one call of `_reader_row` comes to. -/
inductive RowRead where
  | row (fields : List Str) (physical : PhysicalLines) (rest : List LineEvent)
  /-- `StopIteration`. -/
  | exhausted
  | stop (reason : ScanStop)
  | failed

/-- `_reader_row`, in the middle of a record: lines are pulled until the record is complete. -/
def readerRow (limits : StreamingLimits) (delimiter : CodePoint) (record : CsvRecord)
    (physical : PhysicalLines) : List LineEvent → RowRead
  | [] => if record.unfinished then .stop (.failed .malformed) else .exhausted
  | .stop reason :: _ => .stop reason
  | .failed :: _ => .failed
  | .line raw physicalBytes :: rest =>
    match physical.nextLine limits raw physicalBytes with
    | .error reason => .stop reason
    | .ok (text, physical) =>
      match record.feedLine delimiter limits.maxLogicalRecordBytes text with
      | none => .stop (.failed .malformed)
      | some record =>
        if record.state = .startRecord then .row record.fields { physical with logicalBytes := 0 } rest
        else readerRow limits delimiter record physical rest

/-- Rows read one after the other. -/
inductive RowsRead (limits : StreamingLimits) (delimiter : CodePoint) :
    PhysicalLines → List LineEvent → List (List Str) → PhysicalLines → List LineEvent → Prop where
  | none (physical : PhysicalLines) (events : List LineEvent) :
    RowsRead limits delimiter physical events [] physical events
  | row {physical after last : PhysicalLines} {events rest final : List LineEvent}
    {fields : List Str} {rows : List (List Str)}
    (read : readerRow limits delimiter .start physical events = .row fields after rest)
    (others : RowsRead limits delimiter after rest rows last final) :
    RowsRead limits delimiter physical events (fields :: rows) last final

/-- The events that lines are. -/
def lineEvents (lines : List (Bytes × Nat)) : List LineEvent :=
  lines.map fun line => .line line.1 line.2

/-- The texts of these lines. -/
def Decodes (lines : List (Bytes × Nat)) (texts : List Str) : Prop :=
  List.Forall₂ (fun line text => decodeUtf8 (encodedLine line.1 line.2) = some text) lines texts

/-- A row is what these lines hold, and it needs all of them. -/
def RowSpan (limits : StreamingLimits) (delimiter : CodePoint) (span : List (Bytes × Nat))
    (fields : List Str) : Prop :=
  ∃ texts, Decodes span texts ∧
    CsvSpans delimiter limits.maxLogicalRecordBytes .start texts fields

section Rows

variable {limits : StreamingLimits} {delimiter : CodePoint}

theorem nextLine_ok {physical after : PhysicalLines} {raw : Bytes} {physicalBytes : Nat} {text : Str}
    (h : physical.nextLine limits raw physicalBytes = .ok (text, after)) :
    decodeUtf8 (encodedLine raw physicalBytes) = some text ∧
      after.semanticBytes = physical.semanticBytes + physicalBytes ∧
      after.logicalBytes = physical.logicalBytes + physicalBytes ∧
      after.logicalBytes ≤ limits.maxLogicalRecordBytes := by
  unfold PhysicalLines.nextLine at h
  split at h
  · cases h
  next logical =>
    split at h
    · cases h
    · split at h
      · cases h
      next decoded =>
        split at h
        · cases h
        · cases h
          exact ⟨decoded, rfl, rfl, not_lt.mp logical⟩

/-- One row takes the lines it spans, and its bytes are counted. -/
theorem readerRow_row {record : CsvRecord} {physical after : PhysicalLines}
    {events rest : List LineEvent} {fields : List Str}
    (h : readerRow limits delimiter record physical events = .row fields after rest) :
    ∃ span texts, events = lineEvents span ++ rest ∧ Decodes span texts ∧
      CsvSpans delimiter limits.maxLogicalRecordBytes record texts fields ∧
      after.semanticBytes = physical.semanticBytes + (span.map Prod.snd).sum ∧
      after.logicalBytes = 0 := by
  -- induction on the events; the record goes on until the line that completes it
  induction events generalizing record physical with
  | nil =>
    rw [readerRow] at h
    split at h <;> cases h
  | cons event events ih =>
    cases event with
    | stop reason => cases h
    | failed => cases h
    | line raw physicalBytes =>
      rw [readerRow] at h
      split at h
      · cases h
      next text pulled next =>
        obtain ⟨decoded, semantic, -, -⟩ := nextLine_ok next
        split at h
        · cases h
        next fed =>
          split at h
          next complete =>
            cases h
            refine ⟨[(raw, physicalBytes)], [text], rfl, .cons decoded .nil, ?_, ?_, rfl⟩
            · exact ⟨_, fed, complete, rfl⟩
            · simpa using semantic
          next incomplete =>
            obtain ⟨span, texts, cut, decodes, spans, bytes, reset⟩ := ih h
            refine ⟨(raw, physicalBytes) :: span, text :: texts, ?_, .cons decoded decodes, ?_, ?_,
              reset⟩
            · rw [cut]
              rfl
            · -- the record goes on, so there is a next line
              cases texts with
              | nil => cases spans
              | cons next texts => exact ⟨_, fed, incomplete, spans⟩
            · rw [bytes, semantic, List.map_cons, List.sum_cons, Nat.add_assoc]

/-- Rows take the lines they span, one behind the other. -/
theorem rowsRead_spans {physical after : PhysicalLines} {events rest : List LineEvent}
    {rows : List (List Str)} (run : RowsRead limits delimiter physical events rows after rest) :
    ∃ spans : List (List (Bytes × Nat)), events = lineEvents spans.flatten ++ rest ∧
      List.Forall₂ (RowSpan limits delimiter) spans rows ∧
      after.semanticBytes = physical.semanticBytes + (spans.flatten.map Prod.snd).sum := by
  induction run with
  | none physical events => exact ⟨[], rfl, .nil, rfl⟩
  | row read _ ih =>
    obtain ⟨span, texts, cut, decodes, row, bytes, -⟩ := readerRow_row read
    obtain ⟨spans, others, rows, total⟩ := ih
    refine ⟨span :: spans, ?_, .cons ⟨texts, decodes, row⟩ rows, ?_⟩
    · rw [cut, others, List.flatten_cons, lineEvents, lineEvents, lineEvents, List.map_append,
        List.append_assoc]
    · rw [total, bytes, List.flatten_cons, List.map_append, List.sum_append, Nat.add_assoc]

theorem eventLines_append (lines : List (Bytes × Nat)) (rest : List LineEvent) :
    eventLines (lineEvents lines ++ rest) = lines ++ eventLines rest := by
  induction lines with
  | nil => rfl
  | cons line lines ih =>
    rw [List.cons_append, ← ih]
    rfl

end Rows

/-- However the reads cut a content: the splitter gives the same events, its lines are those of a
prefix of the content and count its bytes, and rows of the delimited reader are what consecutive runs
of these lines hold. -/
theorem streamedLines (limits : StreamingLimits) (reads others : List Read)
    (answers : Answers limits 0 reads) (answers' : Answers limits 0 others)
    (same : reads.flatMap Read.content = others.flatMap Read.content) :
    let events := binaryLines limits 0 [] 0 reads
    events = binaryLines limits 0 [] 0 others ∧
      linesBytes (eventLines events) <+: reads.flatMap Read.content ∧
      (RanThrough events → linesBytes (eventLines events) = reads.flatMap Read.content) ∧
      ((eventLines events).map Prod.snd).sum = (linesBytes (eventLines events)).length ∧
      ∀ delimiter rows physical rest, RowsRead limits delimiter ⟨0, 0⟩ events rows physical rest →
        ∃ spans : List (List (Bytes × Nat)), events = lineEvents spans.flatten ++ rest ∧
          List.Forall₂ (RowSpan limits delimiter) spans rows ∧
          linesBytes spans.flatten <+: reads.flatMap Read.content ∧
          physical.semanticBytes = (linesBytes spans.flatten).length := by
  intro events
  -- both reads give the events of their content, which is the same
  have content := binaryLines_eq reads 0 [] answers (Nat.zero_le _) (Nat.zero_le _)
  have content' := binaryLines_eq others 0 [] answers' (Nat.zero_le _) (Nat.zero_le _)
  have agree : events = contentEvents limits 0 [] (reads.flatMap Read.content) := content
  obtain ⟨below, whole, sizes⟩ := contentEvents_lines limits 0 [] (reads.flatMap Read.content)
  rw [← agree, List.nil_append] at below whole
  rw [← agree] at sizes
  refine ⟨?_, below, whole, sum_eq_linesBytes sizes, ?_⟩
  · rw [agree, same]
    exact content'.symm
  · intro delimiter rows physical rest run
    obtain ⟨spans, cut, hold, bytes⟩ := rowsRead_spans run
    have front : eventLines events = spans.flatten ++ eventLines rest := by
      rw [cut, eventLines_append]
    refine ⟨spans, cut, hold, ?_, ?_⟩
    · rw [front, linesBytes_append] at below
      exact (List.prefix_append _ _).trans below
    · rw [bytes, Nat.zero_add]
      apply sum_eq_linesBytes
      intro line inside
      exact sizes line (front ▸ List.mem_append_left _ inside)

/-- A terminator that two reads share. -/
theorem streamedLines_cut :
    binaryLines .default 0 [] 0 [.block [0x61, CR_BYTE], .block [LF_BYTE, 0x62]] =
        binaryLines .default 0 [] 0 [.block [0x61, CR_BYTE, LF_BYTE, 0x62]] ∧
      ∃ rest, ∃ spans : List (List (Bytes × Nat)),
        binaryLines .default 0 [] 0 [.block [0x61, CR_BYTE], .block [LF_BYTE, 0x62]] =
          lineEvents spans.flatten ++ rest ∧
        List.Forall₂ (RowSpan .default COMMA) spans [["a"]] := by
  have law := streamedLines .default [.block [0x61, CR_BYTE], .block [LF_BYTE, 0x62]]
    [.block [0x61, CR_BYTE, LF_BYTE, 0x62]] (by simp [Answers, readRequest, READ_CHUNK_BYTES,
      StreamingLimits.default]) (by simp [Answers, readRequest, READ_CHUNK_BYTES,
      StreamingLimits.default]) rfl
  obtain ⟨spans, cut, rows, -⟩ := law.2.2.2.2 COMMA [["a"]] ⟨0, 3⟩ [.line [0x62] 1]
    (.row rfl (.none _ _))
  exact ⟨law.1, _, spans, cut, rows⟩

end ClaimCI
