import ClaimCI.Analysis.ChunkedLines
import ClaimCI.Analysis.TraceContracts

/-!
# Scans of artifacts

The pass over one open artifact: what its consumer reads is hashed on the way, and finishing drains
the rest before the size, the digest and the limits are judged.
-/

open Python

namespace ClaimCI

/-! ### Reports -/

/-- `ScanCompleteness.__post_init__`. -/
def scanCompleteness (purpose : ScanPurpose) (state : ScanState) (reason : TraceScanReason)
    (recordsScanned semanticBytes integrityBytes expectedBytes : Nat) (integrityVerified : Bool)
    (peakBufferBytes scratchBytes : Nat) : Except Error TraceScan :=
  if size : integrityVerified = true ∧ integrityBytes ≠ expectedBytes then
    .error (contractError "verified scan byte count must equal expected bytes")
  else if semantic : integrityBytes < semanticBytes then
    .error (contractError "scan semantic bytes cannot exceed integrity bytes")
  else if complete : state = .complete ∧
      (integrityVerified = false ∨ reason ≠ .records .complete) then
    .error (contractError "complete scan requires verified integrity and complete reason")
  else if incomplete : state ≠ .complete ∧ reason = .records .complete then
    .error (contractError "incomplete or failed scan cannot use the complete reason")
  else
    .ok {
      purpose, state, reason, recordsScanned, semanticBytes, integrityBytes, expectedBytes,
      integrityVerified, peakBufferBytes, scratchBytes
      exact := by
        intro verified
        by_contra different
        exact size ⟨verified, different⟩
      covered := not_lt.mp semantic
      complete := by
        intro full
        by_contra unverified
        exact complete ⟨full, .inl (Bool.eq_false_iff.mpr unverified)⟩
      reasonAgrees := by
        constructor
        · intro full
          by_contra other
          exact complete ⟨full, .inr other⟩
        · intro agrees
          by_contra partly
          exact incomplete ⟨partly, agrees⟩ }

/-! ### One scan -/

/-- The file an open descriptor is bound to, and what was issued for it. -/
structure ScannedFile where
  content : Bytes
  /-- `candidate.size`. -/
  size : Nat
  /-- `candidate.sha256`. -/
  sha256 : Str

/-- The state of one pass. -/
structure ArtifactScan where
  /-- The offset of the descriptor. -/
  offset : Nat
  integrityBytes : Nat
  semanticBytes : Nat
  peakBufferBytes : Nat
  /-- The blocks the digest was updated with, in order. -/
  hashed : Bytes
  eof : Bool
  finished : Bool
  closed : Bool
  deriving DecidableEq

def ArtifactScan.opened : ArtifactScan := ⟨0, 0, 0, 0, [], false, false, false⟩

/-- What `finish` is called with. -/
structure FinishRequest where
  recordsScanned : Nat
  semanticComplete : Bool
  state : Option ScanState
  reason : Option TraceScanReason
  scratchBytes : Nat

section Scan

variable (sha256 : Bytes → Str) (limits : StreamingLimits) (file : ScannedFile)

/-- `os.read`: at least one byte and at most as many as are asked for, nothing behind the end;
`none` is an `OSError`. How many bytes come is not for the caller to choose. -/
def osRead (offset request : Nat) (given : Option Nat) : Option Bytes :=
  given.map fun count => (file.content.drop offset).take (max 1 (min count request))

namespace ArtifactScan

/-- A block is counted and hashed. -/
def advance (scan : ArtifactScan) (block : Bytes) : ArtifactScan :=
  { scan with
    offset := scan.offset + block.length
    integrityBytes := scan.integrityBytes + block.length
    hashed := scan.hashed ++ block }

/-- `read_chunk`. -/
def readChunk (maximum : Nat) (given : Option Nat) (scan : ArtifactScan) :
    Except Error Bytes × ArtifactScan :=
  if scan.closed ∨ scan.finished then
    (.error (contractError "artifact scan is not readable"), scan)
  else if maximum < 1 ∨ READ_CHUNK_BYTES < maximum then
    (.error (contractError "stream read request exceeds the chunk bound"), scan)
  else
    let request := min maximum (max 1 (limits.maxIntegrityBytes - scan.integrityBytes))
    match osRead file scan.offset request given with
    | none => (.error (contractError "artifact source read failed"), scan)
    | some [] => (.ok [], { scan with eof := true })
    | some block =>
      if limits.maxIntegrityBytes < (scan.advance block).integrityBytes then
        (.error (contractError "artifact exceeds the integrity-I/O budget"), scan.advance block)
      else (.ok block, scan.advance block)

/-- `note_semantic_bytes`. -/
def noteSemanticBytes (count buffered : Nat) (scan : ArtifactScan) : ArtifactScan :=
  { scan with
    semanticBytes := scan.semanticBytes + count
    peakBufferBytes := max scan.peakBufferBytes buffered }

/-- `_drain`, at most so many reads of it. -/
def drain (answers : Nat → Option Nat) : Nat → ArtifactScan → Except Error Unit × ArtifactScan
  | 0, scan => (.ok (), scan)
  | reads + 1, scan =>
    if scan.eof then (.ok (), scan)
    else
      match scan.readChunk limits file READ_CHUNK_BYTES (answers reads) with
      | (.error error, read) => (.error error, read)
      | (.ok _, read) => drain answers reads read

/-- The state and the reason `finish` reports. -/
def resolve (request : FinishRequest) : Except Error (ScanState × TraceScanReason) :=
  if request.semanticComplete then .ok (.complete, .records .complete)
  else
    let state := request.state.getD .incompleteBudget
    if state = .complete then
      .error (contractError "an incomplete semantic scan cannot claim complete state")
    else .ok (state, request.reason.getD (.records .semanticByteBudget))

/-- What `finish` does when the rest is drained. -/
def report (purpose : ScanPurpose) (request : FinishRequest) (stable : Bool) (scan : ArtifactScan) :
    Except Error TraceScan := do
  rejectIf (!stable) (contractError "artifact source pathname changed during scan")
  rejectIf (scan.integrityBytes != file.size) (contractError "artifact integrity size mismatch")
  rejectIf (sha256 scan.hashed != file.sha256) (contractError "artifact integrity sha256 mismatch")
  let (state, reason) ← resolve request
  scanCompleteness purpose state reason request.recordsScanned scan.semanticBytes
    scan.integrityBytes file.size true scan.peakBufferBytes request.scratchBytes

/-- `finish`; a file of `n` bytes is drained by at most `n + 1` reads. -/
def finish (purpose : ScanPurpose) (request : FinishRequest) (answers : Nat → Option Nat)
    (stable : Bool) (scan : ArtifactScan) : Except Error TraceScan × ArtifactScan :=
  if scan.closed ∨ scan.finished then
    (.error (contractError "artifact scan cannot be finished twice"), scan)
  else
    match scan.drain limits file answers (file.content.length + 1) with
    | (.error error, drained) => (.error error, drained)
    | (.ok _, drained) =>
      match drained.report sha256 file purpose request stable with
      | .error error => (.error error, drained)
      | .ok report => (.ok report, { drained with finished := true })

end ArtifactScan

/-! ### Runs -/

/-- A call of the consumer, with what the operating system does meanwhile. -/
inductive ScanCall where
  | readChunk (maximum : Nat) (given : Option Nat)
  | noteSemanticBytes (count buffered : Nat)
  | finish (request : FinishRequest) (answers : Nat → Option Nat) (stable : Bool)
  | close

/-- A pass with what came of it: the bytes its consumer was given and the reports it got. -/
structure ScanPass where
  scan : ArtifactScan
  seen : Bytes
  reports : List TraceScan

def ScanPass.start : ScanPass := ⟨.opened, [], []⟩

variable (purpose : ScanPurpose)

/-- One call; an exception leaves the consumer free to call again. -/
def ScanPass.step (pass : ScanPass) : ScanCall → ScanPass
  | .readChunk maximum given =>
    match pass.scan.readChunk limits file maximum given with
    | (.error _, scan) => { pass with scan }
    | (.ok block, scan) => { pass with scan, seen := pass.seen ++ block }
  | .noteSemanticBytes count buffered =>
    { pass with scan := pass.scan.noteSemanticBytes count buffered }
  | .finish request answers stable =>
    match pass.scan.finish sha256 limits file purpose request answers stable with
    | (.error _, scan) => { pass with scan }
    | (.ok report, scan) => { pass with scan, reports := pass.reports ++ [report] }
  | .close => { pass with scan := { pass.scan with closed := true } }

def ScanPass.steps (pass : ScanPass) (calls : List ScanCall) : ScanPass :=
  calls.foldl (ScanPass.step sha256 limits file purpose) pass

/-- What a call is safe on: no call reads behind a budget that is already exceeded, and the bytes
noted are among those the consumer was given. -/
def ScanPass.Admits (pass : ScanPass) : ScanCall → Prop
  | .readChunk _ _ => pass.scan.integrityBytes ≤ limits.maxIntegrityBytes
  | .noteSemanticBytes count _ => pass.scan.semanticBytes + count ≤ pass.seen.length
  | .finish _ _ _ => pass.scan.integrityBytes ≤ limits.maxIntegrityBytes
  | .close => True

/-- Every call of the run is safe where it is made. -/
def ScanPass.AdmitsAll (pass : ScanPass) : List ScanCall → Prop
  | [] => True
  | call :: rest =>
    pass.Admits limits call ∧ (pass.step sha256 limits file purpose call).AdmitsAll rest

end Scan

section Invariants

variable {sha256 : Bytes → Str} {limits : StreamingLimits} {file : ScannedFile}
  {purpose : ScanPurpose}

/-- The digest has seen the file up to the offset, which is the number of bytes counted. -/
structure ArtifactScan.InStep (file : ScannedFile) (scan : ArtifactScan) : Prop where
  counted : scan.integrityBytes = scan.offset
  inside : scan.offset ≤ file.content.length
  hashed : scan.hashed = file.content.take scan.offset
  eof : scan.eof = true → scan.offset = file.content.length

theorem ArtifactScan.InStep.advance {scan : ArtifactScan} (inStep : scan.InStep file)
    {block rest : Bytes} (next : file.content.drop scan.offset = block ++ rest) (nonempty : block ≠ []) :
    (scan.advance block).InStep file := by
  have size : file.content.length - scan.offset = block.length + rest.length := by
    rw [← List.length_drop, next, List.length_append]
  have filled := List.length_pos_iff.mpr nonempty
  have inside := inStep.inside
  refine ⟨?_, ?_, ?_, ?_⟩
  · simp only [ArtifactScan.advance, inStep.counted]
  · simp only [ArtifactScan.advance]
    omega
  · simp only [ArtifactScan.advance]
    rw [List.take_add, next, List.take_left, inStep.hashed]
  · intro eof
    have ended := inStep.eof eof
    omega

/-- Everything one read can come to. -/
theorem readChunk_cases (limits : StreamingLimits) (file : ScannedFile) (maximum : Nat)
    (given : Option Nat) (scan : ArtifactScan) :
    (∃ error, scan.readChunk limits file maximum given = (.error error, scan)) ∨
      scan.finished = false ∧
        (file.content.drop scan.offset = [] ∧
            scan.readChunk limits file maximum given = (.ok [], { scan with eof := true }) ∨
          ∃ block rest, block ≠ [] ∧ file.content.drop scan.offset = block ++ rest ∧
            ((scan.advance block).integrityBytes ≤ limits.maxIntegrityBytes ∧
                scan.readChunk limits file maximum given = (.ok block, scan.advance block) ∨
              ∃ error, scan.readChunk limits file maximum given =
                (.error error, scan.advance block))) := by
  unfold ArtifactScan.readChunk
  -- a finished or closed scan, a limit that is reached, or a system that fails
  split
  · exact .inl ⟨_, rfl⟩
  next open_ =>
    rw [not_or, Bool.not_eq_true, Bool.not_eq_true] at open_
    split
    · exact .inl ⟨_, rfl⟩
    · cases given with
      | none => exact .inl ⟨_, rfl⟩
      | some count =>
        right
        refine ⟨open_.2, ?_⟩
        simp only [osRead, Option.map_some]
        set wanted := max 1 (min count (min maximum
          (max 1 (limits.maxIntegrityBytes - scan.integrityBytes)))) with hwanted
        have some_ : 1 ≤ wanted := le_max_left _ _
        cases taken : (file.content.drop scan.offset).take wanted with
        | nil =>
          left
          rw [List.take_eq_nil_iff] at taken
          exact ⟨taken.resolve_left (by omega), rfl⟩
        | cons b block =>
          right
          refine ⟨b :: block, (file.content.drop scan.offset).drop wanted, List.cons_ne_nil _ _, ?_, ?_⟩
          · rw [← taken, List.take_append_drop]
          · simp only
            split
            · exact .inr ⟨_, rfl⟩
            next within => exact .inl ⟨not_lt.mp within, rfl⟩

/-- Draining goes on reading to the end of the file, and a budget that is kept before it is kept
behind it. -/
theorem drain_ok (answers : Nat → Option Nat) (reads : Nat) {scan drained : ArtifactScan}
    (inStep : scan.InStep file) (enough : file.content.length - scan.offset < reads)
    (h : scan.drain limits file answers reads = (.ok (), drained)) :
    drained.offset = file.content.length ∧
      (scan.integrityBytes ≤ limits.maxIntegrityBytes →
        drained.integrityBytes ≤ limits.maxIntegrityBytes) := by
  -- induction on the reads: each one that returns a block shortens what is left
  induction reads generalizing scan with
  | zero => omega
  | succ reads ih =>
    rw [ArtifactScan.drain] at h
    split at h
    next eof =>
      cases h
      exact ⟨inStep.eof eof, id⟩
    · rcases readChunk_cases limits file READ_CHUNK_BYTES (answers reads) scan with
        ⟨error, failed⟩ | ⟨-, ⟨ended, read⟩ | ⟨block, rest, nonempty, next, outcome⟩⟩
      · rw [failed] at h
        cases h
      · -- the read that finds the end lets the loop stop
        rw [read] at h
        have finished : file.content.length ≤ scan.offset := List.drop_eq_nil_iff.mp ended
        have stopped : ({ scan with eof := true } : ArtifactScan).drain limits file answers reads =
            (.ok (), { scan with eof := true }) := by
          cases reads <;> rfl
        have same : { scan with eof := true } = drained := by
          have equal := stopped.symm.trans h
          cases equal
          rfl
        rw [← same]
        exact ⟨le_antisymm inStep.inside finished, id⟩
      -- the block counts before the limit is checked
      · rcases outcome with ⟨within, read⟩ | ⟨error, failed⟩
        · rw [read] at h
          have size : file.content.length - scan.offset = block.length + rest.length := by
            rw [← List.length_drop, next, List.length_append]
          have filled := List.length_pos_iff.mpr nonempty
          have shorter : file.content.length - (scan.advance block).offset < reads := by
            simp only [ArtifactScan.advance]
            omega
          obtain ⟨ended, kept⟩ := ih (inStep.advance next nonempty) shorter h
          exact ⟨ended, fun _ => kept within⟩
        · rw [failed] at h
          cases h

/-- Draining only reads: it hashes more of the file and leaves the other counters alone. -/
theorem drain_inStep (answers : Nat → Option Nat) (reads : Nat) {scan : ArtifactScan}
    (inStep : scan.InStep file) :
    (scan.drain limits file answers reads).2.InStep file ∧
      (scan.drain limits file answers reads).2.semanticBytes = scan.semanticBytes ∧
      scan.hashed <+: (scan.drain limits file answers reads).2.hashed := by
  induction reads generalizing scan with
  | zero => exact ⟨inStep, rfl, List.prefix_rfl⟩
  | succ reads ih =>
    rw [ArtifactScan.drain]
    split
    · exact ⟨inStep, rfl, List.prefix_rfl⟩
    · rcases readChunk_cases limits file READ_CHUNK_BYTES (answers reads) scan with
        ⟨error, failed⟩ | ⟨-, ⟨ended, read⟩ | ⟨block, rest, nonempty, next, outcome⟩⟩
      · rw [failed]
        exact ⟨inStep, rfl, List.prefix_rfl⟩
      · rw [read]
        have finished : file.content.length ≤ scan.offset := List.drop_eq_nil_iff.mp ended
        have ended : ({ scan with eof := true } : ArtifactScan).InStep file :=
          ⟨inStep.counted, inStep.inside, inStep.hashed, fun _ => le_antisymm inStep.inside finished⟩
        exact ih ended
      · have advanced := inStep.advance next nonempty
        rcases outcome with ⟨-, read⟩ | ⟨error, failed⟩
        · rw [read]
          obtain ⟨later, semantic, more⟩ := ih advanced
          exact ⟨later, semantic, (List.prefix_append _ _).trans more⟩
        · rw [failed]
          exact ⟨advanced, rfl, List.prefix_append _ _⟩

/-- A report is issued only for the whole file, of the size and with the digest expected. -/
theorem report_ok {request : FinishRequest} {stable : Bool} {scan : ArtifactScan} {report : TraceScan}
    (h : scan.report sha256 file purpose request stable = .ok report) :
    scan.integrityBytes = file.size ∧ sha256 scan.hashed = file.sha256 ∧
      report.integrityVerified = true ∧ report.integrityBytes = scan.integrityBytes ∧
      report.semanticBytes = scan.semanticBytes := by
  unfold ArtifactScan.report at h
  -- stability, size and digest are checked in this order
  cases stable with
  | false => cases h
  | true =>
    by_cases size : scan.integrityBytes = file.size
    · by_cases digest : sha256 scan.hashed = file.sha256
      · simp only [Bool.not_true, size, digest, bne_self_eq_false, rejectIf, Bool.false_eq_true, if_false,
          bind, Except.bind] at h
        cases resolved : ArtifactScan.resolve request with
        | error error =>
          rw [resolved] at h
          cases h
        | ok resolution =>
          rw [resolved] at h
          unfold scanCompleteness at h
          simp only at h
          split at h
          · cases h
          · split at h
            · cases h
            · split at h
              · cases h
              · split at h
                · cases h
                · cases h
                  exact ⟨size, digest, rfl, size.symm, rfl⟩
      · have mismatch : (sha256 scan.hashed != file.sha256) = true := by simpa using digest
        simp only [Bool.not_true, size, mismatch, bne_self_eq_false, rejectIf, Bool.false_eq_true,
          if_false, if_true, bind, Except.bind] at h
        cases h
    · have mismatch : (scan.integrityBytes != file.size) = true := by simpa using size
      simp only [Bool.not_true, mismatch, rejectIf, Bool.false_eq_true, if_false, if_true, bind,
        Except.bind] at h
      cases h

variable (sha256 limits purpose) in
/-- Everything a call of `finish` can come to. -/
theorem finish_cases (request : FinishRequest) (answers : Nat → Option Nat) (stable : Bool)
    {scan : ArtifactScan} (inStep : scan.InStep file) :
    (∃ error, scan.finish sha256 limits file purpose request answers stable = (.error error, scan)) ∨
      scan.finished = false ∧ ∃ drained : ArtifactScan, drained.InStep file ∧
        drained.semanticBytes = scan.semanticBytes ∧ scan.hashed <+: drained.hashed ∧
        ((∃ error, scan.finish sha256 limits file purpose request answers stable =
            (.error error, drained)) ∨
          ∃ report, scan.finish sha256 limits file purpose request answers stable =
              (.ok report, { drained with finished := true }) ∧
            drained.offset = file.content.length ∧
            (scan.integrityBytes ≤ limits.maxIntegrityBytes →
              drained.integrityBytes ≤ limits.maxIntegrityBytes) ∧
            drained.report sha256 file purpose request stable = .ok report) := by
  unfold ArtifactScan.finish
  split
  · exact .inl ⟨_, rfl⟩
  next open_ =>
    rw [not_or, Bool.not_eq_true, Bool.not_eq_true] at open_
    right
    refine ⟨open_.2, ?_⟩
    have reads := @drain_inStep limits file answers (file.content.length + 1) scan inStep
    cases drains : scan.drain limits file answers (file.content.length + 1) with
    | mk outcome drained =>
      rw [drains] at reads
      refine ⟨drained, reads.1, reads.2.1, reads.2.2, ?_⟩
      cases outcome with
      | error error => exact .inl ⟨error, rfl⟩
      | ok _ =>
        obtain ⟨ended, kept⟩ := drain_ok answers _ inStep (by omega) drains
        cases issued : drained.report sha256 file purpose request stable with
        | error error => exact .inl ⟨error, by simp only [issued]⟩
        | ok report => exact .inr ⟨report, by simp only [issued], ended, kept, rfl⟩

/-- What is true of every pass: the digest is in step with the file, the consumer was given parts of
what was hashed, and a report stands for the whole file. -/
structure ScanPass.Sound (sha256 : Bytes → Str) (file : ScannedFile) (pass : ScanPass) : Prop where
  inStep : pass.scan.InStep file
  seen : pass.seen.Sublist pass.scan.hashed
  reported : ∀ report ∈ pass.reports, pass.scan.finished = true ∧
    pass.scan.hashed = file.content ∧ sha256 file.content = file.sha256 ∧
    file.size = file.content.length ∧ report.integrityVerified = true ∧
    report.integrityBytes = file.content.length

theorem ScanPass.Sound.noReports {pass : ScanPass} (sound : pass.Sound sha256 file)
    (running : pass.scan.finished = false) : pass.reports = [] := by
  apply List.eq_nil_iff_forall_not_mem.mpr
  intro report issued
  rw [(sound.reported report issued).1] at running
  cases running

theorem ScanPass.Sound.step {pass : ScanPass} (sound : pass.Sound sha256 file) (call : ScanCall) :
    (pass.step sha256 limits file purpose call).Sound sha256 file := by
  cases call with
  | readChunk maximum given =>
    rw [ScanPass.step]
    -- a chunk: refused, at the end, read, or read past the limit
    rcases readChunk_cases limits file maximum given pass.scan with
      ⟨error, failed⟩ | ⟨running, ⟨ended, read⟩ | ⟨block, rest, nonempty, next, outcome⟩⟩
    · rw [failed]
      exact sound
    · rw [read]
      have none := sound.noReports running
      have stops : file.content.length ≤ pass.scan.offset := List.drop_eq_nil_iff.mp ended
      refine ⟨⟨sound.inStep.counted, sound.inStep.inside, sound.inStep.hashed,
        fun _ => le_antisymm sound.inStep.inside stops⟩, ?_, ?_⟩
      · simpa using sound.seen
      · rw [none]
        exact fun _ => False.elim ∘ List.not_mem_nil
    · have none := sound.noReports running
      have advanced := sound.inStep.advance next nonempty
      rcases outcome with ⟨-, read⟩ | ⟨error, failed⟩
      · rw [read]
        refine ⟨advanced, sound.seen.append (List.Sublist.refl block), ?_⟩
        rw [none]
        exact fun _ => False.elim ∘ List.not_mem_nil
      · rw [failed]
        refine ⟨advanced, sound.seen.trans (List.sublist_append_left _ _), ?_⟩
        rw [none]
        exact fun _ => False.elim ∘ List.not_mem_nil
  | noteSemanticBytes count buffered =>
    exact ⟨⟨sound.inStep.counted, sound.inStep.inside, sound.inStep.hashed, sound.inStep.eof⟩,
      sound.seen, sound.reported⟩
  | close =>
    exact ⟨⟨sound.inStep.counted, sound.inStep.inside, sound.inStep.hashed, sound.inStep.eof⟩,
      sound.seen, sound.reported⟩
  -- the finish drains the rest before it judges
  | finish request answers stable =>
    rw [ScanPass.step]
    rcases finish_cases sha256 limits purpose request answers stable
      sound.inStep with ⟨error, failed⟩ | ⟨running, drained, inStep, -, more, outcome⟩
    · rw [failed]
      exact sound
    · have none := sound.noReports running
      rcases outcome with ⟨error, failed⟩ | ⟨report, issued, ended, -, judged⟩
      · rw [failed]
        refine ⟨inStep, sound.seen.trans more.sublist, ?_⟩
        rw [none]
        exact fun _ => False.elim ∘ List.not_mem_nil
      · rw [issued]
        refine ⟨⟨inStep.counted, inStep.inside, inStep.hashed, inStep.eof⟩,
          sound.seen.trans more.sublist, ?_⟩
        simp only [none, List.nil_append, List.forall_mem_singleton]
        obtain ⟨size, digest, verified, bytes, -⟩ := report_ok judged
        -- what is drained to the end is the whole file
        have whole : drained.hashed = file.content := by
          rw [inStep.hashed, ended, List.take_length]
        refine ⟨trivial, whole, whole ▸ digest, ?_, verified, ?_⟩
        · rw [← size, inStep.counted, ended]
        · rw [bytes, inStep.counted, ended]

theorem ScanPass.Sound.steps {pass : ScanPass} (sound : pass.Sound sha256 file)
    (calls : List ScanCall) : (pass.steps sha256 limits file purpose calls).Sound sha256 file := by
  induction calls generalizing pass with
  | nil => exact sound
  | cons call calls ih => exact ih (sound.step call)

theorem ScanPass.start_sound : ScanPass.start.Sound sha256 file :=
  ⟨⟨rfl, Nat.zero_le _, rfl, by simp [ScanPass.start, ArtifactScan.opened]⟩, List.Sublist.refl _,
    fun _ => False.elim ∘ List.not_mem_nil⟩

/-- What is true while every call is safe: no more bytes are noted than the consumer was given, and a
report stands for a file within the budget. -/
structure ScanPass.Within (limits : StreamingLimits) (file : ScannedFile) (pass : ScanPass) :
    Prop where
  noted : pass.scan.semanticBytes ≤ pass.seen.length
  reported : ∀ report ∈ pass.reports, file.content.length ≤ limits.maxIntegrityBytes ∧
    (report.semanticBytes = report.integrityBytes → pass.seen = file.content)

theorem ScanPass.Within.step {pass : ScanPass} (sound : pass.Sound sha256 file)
    (within : pass.Within limits file) {call : ScanCall} (admits : pass.Admits limits call) :
    (pass.step sha256 limits file purpose call).Within limits file := by
  cases call with
  | readChunk maximum given =>
    rw [ScanPass.step]
    rcases readChunk_cases limits file maximum given pass.scan with
      ⟨error, failed⟩ | ⟨running, ⟨ended, read⟩ | ⟨block, rest, nonempty, next, outcome⟩⟩
    · rw [failed]
      exact within
    · rw [read]
      refine ⟨?_, ?_⟩
      · simpa using within.noted
      · rw [sound.noReports running]
        exact fun _ => False.elim ∘ List.not_mem_nil
    · have none := sound.noReports running
      rcases outcome with ⟨-, read⟩ | ⟨error, failed⟩
      · rw [read]
        refine ⟨?_, ?_⟩
        · have noted := within.noted
          simp only [ArtifactScan.advance, List.length_append]
          omega
        · rw [none]
          exact fun _ => False.elim ∘ List.not_mem_nil
      · rw [failed]
        refine ⟨within.noted, ?_⟩
        rw [none]
        exact fun _ => False.elim ∘ List.not_mem_nil
  | noteSemanticBytes count buffered => exact ⟨admits, within.reported⟩
  | close => exact ⟨within.noted, within.reported⟩
  | finish request answers stable =>
    rw [ScanPass.step]
    rcases finish_cases sha256 limits purpose request answers stable
      sound.inStep with ⟨error, failed⟩ | ⟨running, drained, inStep, semantic, more, outcome⟩
    · rw [failed]
      exact within
    · have none := sound.noReports running
      rcases outcome with ⟨error, failed⟩ | ⟨report, issued, ended, kept, judged⟩
      · rw [failed]
        refine ⟨semantic.trans_le within.noted, ?_⟩
        rw [none]
        exact fun _ => False.elim ∘ List.not_mem_nil
      · rw [issued]
        refine ⟨semantic.trans_le within.noted, ?_⟩
        simp only [none, List.nil_append, List.forall_mem_singleton]
        obtain ⟨-, -, -, bytes, noted⟩ := report_ok judged
        have budget := kept admits
        have whole : drained.hashed = file.content := by
          rw [inStep.hashed, ended, List.take_length]
        refine ⟨by rwa [inStep.counted, ended] at budget, ?_⟩
        intro all
        -- the consumer was given as many bytes as the file has, in the order of the file
        apply (whole ▸ sound.seen.trans more.sublist : pass.seen.Sublist file.content).eq_of_length_le
        rw [← ended, ← inStep.counted, ← bytes, ← all, noted, semantic]
        exact within.noted

theorem ScanPass.Within.steps {pass : ScanPass} (sound : pass.Sound sha256 file)
    (within : pass.Within limits file) (calls : List ScanCall)
    (admits : pass.AdmitsAll sha256 limits file purpose calls) :
    (pass.steps sha256 limits file purpose calls).Within limits file := by
  induction calls generalizing pass with
  | nil => exact within
  | cons call calls ih => exact ih (sound.step call) (within.step sound admits.1) admits.2

theorem ScanPass.start_within : ScanPass.start.Within limits file :=
  ⟨le_rfl, fun _ => False.elim ∘ List.not_mem_nil⟩

end Invariants

/-- Whatever the consumer does, a report stands for a file that was hashed as a whole, once and in
order, with the digest and the size expected. While every call is safe, it also stands for a file
within the budget, and as many semantic as integrity bytes mean that the consumer was given all. -/
theorem verifiedScan (sha256 : Bytes → Str) (limits : StreamingLimits) (file : ScannedFile)
    (purpose : ScanPurpose) (calls : List ScanCall)
    (admits : ScanPass.start.AdmitsAll sha256 limits file purpose calls) :
    let pass := ScanPass.start.steps sha256 limits file purpose calls
    (∀ report ∈ pass.reports, report.integrityVerified = true ∧ pass.scan.hashed = file.content ∧
      sha256 pass.scan.hashed = file.sha256 ∧ report.semanticBytes ≤ report.integrityBytes ∧
      report.integrityBytes = file.content.length ∧
      (report.semanticBytes = report.integrityBytes → pass.seen = file.content)) ∧
    (limits.maxIntegrityBytes < file.content.length ∨ file.size ≠ file.content.length ∨
      sha256 file.content ≠ file.sha256 → pass.reports = []) := by
  intro pass
  have sound : pass.Sound sha256 file := ScanPass.start_sound.steps calls
  have within : pass.Within limits file := ScanPass.start_within.steps ScanPass.start_sound calls admits
  constructor
  · intro report issued
    obtain ⟨-, hashed, digest, -, verified, bytes⟩ := sound.reported report issued
    exact ⟨verified, hashed, hashed ▸ digest, report.covered, bytes, (within.reported report issued).2⟩
  · intro differs
    apply List.eq_nil_iff_forall_not_mem.mpr
    intro report issued
    obtain ⟨-, -, digest, size, -⟩ := sound.reported report issued
    rcases differs with large | other | forged
    · exact absurd (within.reported report issued).1 (not_le.mpr large)
    · exact other size
    · exact forged digest

/-- The limits of a scan that may read five bytes. -/
def fiveByteLimits : StreamingLimits :=
  { StreamingLimits.default with maxIntegrityBytes := 5, bounded := by decide }

/-- Five bytes and their digest. -/
def fiveBytes : ScannedFile :=
  ⟨[7, 8, 9, 10, 11], 5, hexdigest 0xb07609b75542750450530ab8eab8735de2cce2de21aac35025dbec058215470c⟩

/-- The digest of the five bytes. -/
def fiveBytesDigest (raw : Bytes) : Str := if raw = fiveBytes.content then fiveBytes.sha256 else []

/-- A consumer that stops after three bytes; the rest comes byte by byte. -/
def readPart : List ScanCall := [
  .readChunk 2 (some 2),
  .readChunk 2 (some 1),
  .noteSemanticBytes 3 2,
  .finish ⟨0, false, none, none, 0⟩ (fun _ => some 1) true,
  .close]

theorem verifiedScan_drained :
    let pass := ScanPass.start.steps fiveBytesDigest fiveByteLimits fiveBytes .schema readPart
    pass.seen = [7, 8, 9] ∧ ∃ report ∈ pass.reports, report.integrityVerified = true ∧
      pass.scan.hashed = [7, 8, 9, 10, 11] ∧ report.integrityBytes = 5 ∧
      report.semanticBytes ≠ report.integrityBytes := by
  intro pass
  have safe : ScanPass.start.AdmitsAll fiveBytesDigest fiveByteLimits fiveBytes .schema readPart := by
    refine ⟨?_, ?_, ?_, ?_, trivial, trivial⟩
    · exact (by decide : 0 ≤ 5)
    · exact (by decide : 2 ≤ 5)
    · exact (by decide : 3 ≤ 3)
    · exact (by decide : 3 ≤ 5)
  have seen : pass.seen = [7, 8, 9] := by decide +kernel
  obtain ⟨report, issued⟩ : ∃ report, pass.reports = [report] :=
    List.length_eq_one_iff.mp (by decide +kernel)
  have member : report ∈ pass.reports := issued ▸ List.mem_cons_self
  obtain ⟨verified, hashed, -, -, bytes, whole⟩ :=
    (verifiedScan fiveBytesDigest fiveByteLimits fiveBytes .schema readPart safe).1 report member
  refine ⟨seen, report, member, verified, hashed, bytes, ?_⟩
  intro all
  exact absurd ((whole all).symm.trans seen) (by decide)

/-- The limits of a scan that may read one byte. -/
def oneByteLimits : StreamingLimits :=
  { StreamingLimits.default with maxIntegrityBytes := 1, bounded := by decide }

/-- A file under a digest that is always empty. -/
def plainFile (content : Bytes) : ScannedFile := ⟨content, content.length, []⟩

/-- A consumer that finishes the scan although a read went over the budget. -/
def finishAnyway : List ScanCall :=
  [.readChunk 1 (some 1), .readChunk 1 (some 1), .finish ⟨0, true, none, none, 0⟩ (fun _ => some 1) true]

/-- The report is then issued for a file that is one byte too long. -/
theorem verifiedScan_over :
    ¬ ∀ (sha256 : Bytes → Str) (limits : StreamingLimits) (file : ScannedFile) (purpose : ScanPurpose)
      (calls : List ScanCall), limits.maxIntegrityBytes < file.content.length →
        (ScanPass.start.steps sha256 limits file purpose calls).reports = [] := by
  intro raises
  have none := raises (fun _ => []) oneByteLimits (plainFile [7, 8]) .schema finishAnyway (by decide)
  cases none

end ClaimCI
