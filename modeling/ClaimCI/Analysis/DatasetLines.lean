import ClaimCI.Analysis.DatasetScan
import ClaimCI.Python.JsonLines

/-!
# Two readings of a dataset file

The native loader decodes the whole file and reads it with universal newlines; the streaming scan
takes the bytes between line feeds. Both come down to the lines of the decoded text.
-/

open Python

namespace ClaimCI

/-! ### The streaming reading -/

/-- Reading line by line is splitting, for what does not look at a carriage return at the end. -/
theorem linesFrom_filterMap {β : Type} (f : Bytes → Option β) (empty : f [] = none)
    (strip : ∀ line, f (stripCarriageReturn line) = f line) (line rest : Bytes)
    (unfinished : LF_BYTE ∉ line) :
    (linesFrom line rest).filterMap (fun found => f found.1) =
      (split LF_BYTE (line ++ rest)).filterMap f := by
  induction rest generalizing line with
  | nil =>
    rw [List.append_nil, split_of_not_mem LF_BYTE line unfinished, linesFrom]
    split
    next none => simp [none, empty]
    · rfl
  | cons b rest ih =>
    rw [linesFrom]
    split
    next newline =>
      rw [newline, split_append_sep LF_BYTE line rest unfinished, List.filterMap_cons,
        List.filterMap_cons, ih [] (List.not_mem_nil), strip]
      rfl
    next other =>
      rw [ih (line ++ [b]) (by simp [unfinished, Ne.symm other]), List.append_assoc]
      rfl

theorem linesFrom_forall (holds : Bytes → Prop) (empty : holds [])
    (strip : ∀ line, holds (stripCarriageReturn line) ↔ holds line) (line rest : Bytes)
    (unfinished : LF_BYTE ∉ line) :
    (∀ found ∈ linesFrom line rest, holds found.1) ↔
      ∀ found ∈ split LF_BYTE (line ++ rest), holds found := by
  induction rest generalizing line with
  | nil =>
    rw [List.append_nil, split_of_not_mem LF_BYTE line unfinished, linesFrom]
    split
    next none => simp [none, empty]
    · simp
  | cons b rest ih =>
    rw [linesFrom]
    split
    next newline =>
      rw [newline, split_append_sep LF_BYTE line rest unfinished, List.forall_mem_cons,
        List.forall_mem_cons, ih [] (List.not_mem_nil), strip]
      rfl
    next other =>
      rw [ih (line ++ [b]) (by simp [unfinished, Ne.symm other]), List.append_assoc]
      rfl

theorem stripCarriageReturn_cases (line : Bytes) :
    stripCarriageReturn line = line ∨ line = stripCarriageReturn line ++ [CR_BYTE] := by
  rw [stripCarriageReturn]
  split
  next last =>
    refine .inr ?_
    obtain ⟨front, rfl⟩ := List.getLast?_eq_some_iff.mp last
    simp
  · exact .inl rfl

theorem decodeUtf8_append_CR (raw : Bytes) :
    decodeUtf8 (raw ++ [CR_BYTE]) = (decodeUtf8 raw).map (· ++ [CR]) := by
  rw [decodeUtf8_append_ascii (by decide)]
  cases decodeUtf8 raw <;> rfl

/-- A carriage return behind a line does not change what the line says. -/
theorem loads_append_CR (options : LoadOptions) (text : Str) :
    loads options (text ++ [CR]) = loads options text := by
  have trimmed := @loads_trim options [] [CR] text (by simp) (by simp [isJsonSpace_CR])
    (.inr ⟨[], rfl⟩)
  exact trimmed

theorem isByteBlank_append_CR (raw : Bytes) :
    isByteBlank (raw ++ [CR_BYTE]) = isByteBlank raw := by
  rw [isByteBlank, List.all_append]
  simp [isByteBlank, isByteSpace, CR_BYTE]

theorem lineRecord_append_CR (raw : Bytes) : lineRecord (raw ++ [CR_BYTE]) = lineRecord raw := by
  rw [lineRecord, lineRecord, isByteBlank_append_CR, decodeUtf8_append_CR]
  split
  · rfl
  · cases decodeUtf8 raw with
    | none => rfl
    | some text => exact loads_append_CR strictLoad text

theorem lineDigest_strip (rt : Runtime) (raw : Bytes) :
    lineDigest rt (stripCarriageReturn raw) = lineDigest rt raw := by
  rcases stripCarriageReturn_cases raw with same | stripped
  · rw [same]
  · conv_rhs => rw [stripped]
    rw [lineDigest, lineDigest, lineRecord_append_CR]

theorem taken_strip (rt : Runtime) (raw : Bytes) :
    Taken rt (stripCarriageReturn raw) ↔ Taken rt raw := by
  rw [Taken, Taken, lineDigest_strip]
  rcases stripCarriageReturn_cases raw with same | stripped
  · rw [same]
  · have blank := isByteBlank_append_CR (stripCarriageReturn raw)
    rw [← stripped] at blank
    rw [blank]

/-- The digest of the record a line of text is. -/
def textDigest (rt : Runtime) (line : Str) : Option Str := (loads strictLoad line).bind (hashSample rt)

/-- Every line is a record, or blank in ASCII. -/
def LinesRead (rt : Runtime) (text : Str) : Prop :=
  ∀ line ∈ split LF text, line.all isAsciiSpace = true ∨ (textDigest rt line).isSome = true

theorem isBlank_of_asciiSpace {line : Str} (h : line.all isAsciiSpace = true) :
    isBlank line = true :=
  List.all_eq_true.mpr fun c hc => isSpace_of_asciiSpace (List.all_eq_true.mp h c hc)

theorem lineDigest_decoded (rt : Runtime) {raw : Bytes} {text : Str}
    (h : decodeUtf8 raw = some text) : lineDigest rt raw = textDigest rt text := by
  rw [lineDigest, lineRecord, textDigest, h, isByteBlank_iff h]
  split
  next blank =>
    cases decoded : loads strictLoad text with
    | none => rfl
    | some v =>
      have := not_isBlank_of_loads decoded
      rw [isBlank_of_asciiSpace blank] at this
      cases this
  · rfl

theorem taken_decoded (rt : Runtime) {raw : Bytes} {text : Str} (h : decodeUtf8 raw = some text) :
    Taken rt raw ↔ text.all isAsciiSpace = true ∨ (textDigest rt text).isSome = true := by
  rw [Taken, isByteBlank_iff h, lineDigest_decoded rt h]

/-- A line that is passed decodes. -/
theorem decodes_of_taken {rt : Runtime} {raw : Bytes} (h : Taken rt raw) :
    ∃ text, decodeUtf8 raw = some text := by
  rcases h with blank | digest
  · exact decodeUtf8_of_blank blank
  · rw [lineDigest, lineRecord] at digest
    split at digest
    · cases digest
    · cases decoded : decodeUtf8 raw with
      | none => rw [decoded] at digest; cases digest
      | some text => exact ⟨text, rfl⟩

theorem codePoint_LF_BYTE : codePoint LF_BYTE.toNat = LF := by decide

/-- The scan passes every line exactly when the file decodes and every line reads. -/
theorem allTaken_iff (rt : Runtime) (content : Bytes) :
    (∀ line ∈ contentLines content, Taken rt line.1) ↔
      ∃ text, decodeUtf8 content = some text ∧ LinesRead rt text := by
  have split_iff := linesFrom_forall (Taken rt) (.inl rfl) (taken_strip rt) [] content
    List.not_mem_nil
  rw [contentLines, split_iff, List.nil_append]
  have ascii : LF_BYTE.toNat < 0x80 := by decide
  -- the lines of the bytes are the lines of the text, one for one
  have lines : ∀ text, decodeUtf8 content = some text →
      ((∀ line ∈ split LF_BYTE content, Taken rt line) ↔ LinesRead rt text) := by
    intro text decoded
    have pairs := decodeUtf8_split ascii content text decoded
    rw [codePoint_LF_BYTE] at pairs
    rw [LinesRead]
    generalize split LF_BYTE content = raws at pairs ⊢
    generalize split LF text = texts at pairs ⊢
    induction raws generalizing texts with
    | nil =>
      cases texts with
      | nil => simp
      | cons text texts => cases pairs
    | cons raw raws ih =>
      cases texts with
      | nil => cases pairs
      | cons text texts =>
        obtain ⟨first, others⟩ := List.cons.inj pairs
        rw [List.forall_mem_cons, List.forall_mem_cons, taken_decoded rt first]
        exact and_congr_right fun _ => ih texts others
  constructor
  · intro taken
    obtain ⟨text, decoded⟩ := decodeUtf8_of_split ascii content fun line member =>
      decodes_of_taken (taken line member)
    exact ⟨text, decoded, (lines text decoded).mp taken⟩
  · rintro ⟨text, decoded, read⟩
    exact (lines text decoded).mpr read

/-- The digests of a file are those of its lines of text. -/
theorem digestsIn_decoded (rt : Runtime) {content : Bytes} {text : Str}
    (h : decodeUtf8 content = some text) :
    digestsIn rt content = (split LF text).filterMap (textDigest rt) := by
  have pairs := decodeUtf8_split (by decide : LF_BYTE.toNat < 0x80) content text h
  rw [codePoint_LF_BYTE] at pairs
  rw [digestsIn, lineDigests, contentLines, linesFrom_filterMap (lineDigest rt) rfl
    (lineDigest_strip rt) [] content List.not_mem_nil, List.nil_append]
  generalize split LF_BYTE content = raws at pairs ⊢
  generalize split LF text = texts at pairs ⊢
  induction raws generalizing texts with
  | nil =>
    cases texts with
    | nil => rfl
    | cons text texts => cases pairs
  | cons raw raws ih =>
    cases texts with
    | nil => cases pairs
    | cons text texts =>
      obtain ⟨first, others⟩ := List.cons.inj pairs
      rw [List.filterMap_cons, List.filterMap_cons, lineDigest_decoded rt first, ih texts others]

/-! ### The native reading -/

/-- The digest the loader takes from a piece that is not blank. -/
def pieceDigest (rt : Runtime) (piece : Str) : Option Str :=
  (textValue strictLoad piece).bind fun value =>
    if value.depth ≤ MAX_NESTING_DEPTH then hashSample rt value else none

/-- Every piece is a record the loader takes, or blank. -/
def PiecesRead (rt : Runtime) (text : Str) : Prop :=
  ∀ piece ∈ pieces text, isBlank piece = true ∨ (pieceDigest rt piece).isSome = true

theorem validateJsonGraph_shallow {value : Json} (label : Str)
    (h : value.depth ≤ MAX_NESTING_DEPTH) : validateJsonGraph value label = .ok () :=
  if_neg (by omega)

theorem validateJsonGraph_deep {value : Json} (label : Str) (h : MAX_NESTING_DEPTH < value.depth) :
    ∃ error, validateJsonGraph value label = .error error :=
  ⟨_, if_pos h⟩

theorem loadRecord_ok_iff {rt : Runtime} {path piece digest : Str} (filled : isBlank piece = false) :
    loadRecord rt path piece = .ok digest ↔ pieceDigest rt piece = some digest := by
  rw [loadRecord, pieceDigest, textValue, filled]
  simp only [Bool.false_eq_true, if_false]
  cases loads strictLoad piece with
  | none => simp
  | some value =>
    simp only [Option.bind_some]
    by_cases deep : MAX_NESTING_DEPTH < value.depth
    · obtain ⟨error, rejected⟩ := validateJsonGraph_deep (lit "dataset " ++ path) deep
      rw [rejected, if_neg (by omega)]
      simp
    · rw [validateJsonGraph_shallow (lit "dataset " ++ path) (by omega), if_pos (by omega)]
      cases hashSample rt value <;> simp

theorem loadRecords_ok_iff (rt : Runtime) (path : Str) (lineNumber : Nat) (lines hashes : List Str) :
    loadRecords rt path lineNumber lines = .ok hashes ↔
      (∀ piece ∈ lines, isBlank piece = true ∨ (pieceDigest rt piece).isSome = true) ∧
        hashes = lines.filterMap (pieceDigest rt) := by
  -- induction on the pieces; blank ones count a line and no record
  induction lines generalizing lineNumber hashes with
  | nil =>
    rw [loadRecords, List.filterMap_nil]
    exact ⟨fun h => ⟨by simp, (Except.ok.inj h).symm⟩, fun h => by rw [h.2]⟩
  | cons piece lines ih =>
    rw [loadRecords, List.forall_mem_cons]
    cases blank : isBlank piece with
    | true =>
      have none : pieceDigest rt piece = none := by
        rw [pieceDigest, textValue_of_isBlank strictLoad blank]
        rfl
      rw [if_pos rfl, ih, List.filterMap_cons, none]
      simp
    | false =>
      rw [if_neg Bool.false_ne_true]
      cases loaded : loadRecord rt path piece with
      | error text =>
        have none : pieceDigest rt piece = none := by
          cases found : pieceDigest rt piece with
          | none => rfl
          | some digest =>
            rw [(loadRecord_ok_iff blank).mpr found] at loaded
            cases loaded
        simp [none]
      | ok digest =>
        have found := (loadRecord_ok_iff blank).mp loaded
        simp only [bind_ok_iff, ih, List.filterMap_cons, found]
        constructor
        · rintro ⟨rest, ⟨others, rfl⟩, h⟩
          exact ⟨⟨.inr rfl, others⟩, (Except.ok.inj h).symm⟩
        · rintro ⟨⟨_, others⟩, rfl⟩
          exact ⟨_, ⟨others, rfl⟩, rfl⟩

/-- The loader does not look at empty pieces. -/
theorem universalNewlines_read (rt : Runtime) (text : Str) :
    ((∀ piece ∈ split LF (universalNewlines text),
        isBlank piece = true ∨ (pieceDigest rt piece).isSome = true) ↔ PiecesRead rt text) ∧
      (split LF (universalNewlines text)).filterMap (pieceDigest rt) =
        (pieces text).filterMap (pieceDigest rt) := by
  have same := (universalNewlines_pieces text).filter
  have drop (l : List Str) :
      l.filterMap (pieceDigest rt) = (l.filter (· ≠ [])).filterMap (pieceDigest rt) := by
    rw [List.filterMap_filter]
    apply List.filterMap_congr
    intro piece _
    by_cases empty : piece = []
    · subst empty
      rfl
    · simp [empty]
  have keep (l : List Str) :
      (∀ piece ∈ l, isBlank piece = true ∨ (pieceDigest rt piece).isSome = true) ↔
      ∀ piece ∈ l.filter (· ≠ []), isBlank piece = true ∨ (pieceDigest rt piece).isSome = true := by
    simp only [List.mem_filter, decide_eq_true_eq, and_imp]
    refine ⟨fun h piece member _ => h piece member, fun h piece member => ?_⟩
    by_cases empty : piece = []
    · exact .inl (by rw [empty]; rfl)
    · exact h piece member empty
  exact ⟨by rw [keep, same, ← keep]; rfl, by rw [drop, same, ← drop]⟩

/-- What the loader makes of a file. -/
theorem loadDataset_ok_iff {rt : Runtime} {path : Str} {content : Bytes}
    (bytes : rt.readBytes path = .ok content) (dataset : DatasetHashes) :
    loadDataset rt path = .ok dataset ↔
      rt.resolve path = .ok dataset.path ∧ dataset.hashes ≠ [] ∧
      ∃ text, decodeUtf8 content = some text ∧ PiecesRead rt text ∧
        dataset.hashes = (pieces text).filterMap (pieceDigest rt) := by
  rw [loadDataset, readDataset, Runtime.readText, bytes]
  simp only
  cases decoded : decodeUtf8 content with
  | none => simp [bind, Except.bind]
  | some text =>
    obtain ⟨read, digests⟩ := universalNewlines_read rt text
    simp only [bind_ok_iff, Except.ok.injEq, exists_eq_left', loadRecords_ok_iff, digests, read]
    constructor
    · rintro ⟨hashes, ⟨readable, rfl⟩, h⟩
      split at h
      · cases h
      next nonempty =>
        cases resolved : rt.resolve path with
        | error text => rw [resolved] at h; cases h
        | ok found =>
          rw [resolved] at h
          obtain rfl := Except.ok.inj h
          exact ⟨rfl, nonempty, text, rfl, readable, rfl⟩
    · rintro ⟨resolved, nonempty, _, same, readable, digested⟩
      obtain rfl := Option.some.inj same
      refine ⟨_, ⟨readable, rfl⟩, ?_⟩
      rw [← digested, if_neg nonempty, resolved]

/-! ### Both readings -/

/-- The line is a record, or blank in ASCII. -/
def LineRead (rt : Runtime) (line : Str) : Prop :=
  line.all isAsciiSpace = true ∨ (textDigest rt line).isSome = true

/-- The pieces of the line are records the loader takes, or blank. -/
def LinePiecesRead (rt : Runtime) (line : Str) : Prop :=
  ∀ piece ∈ split CR line, isBlank piece = true ∨ (pieceDigest rt piece).isSome = true

theorem piecesRead_iff (rt : Runtime) (text : Str) :
    PiecesRead rt text ↔ ∀ line ∈ split LF text, LinePiecesRead rt line := by
  simp only [PiecesRead, LinePiecesRead, pieces, List.mem_flatMap, forall_exists_index, and_imp]
  exact ⟨fun h line member piece inLine => h piece line member inLine,
    fun h piece line member inLine => h line member piece inLine⟩

theorem pieceDigest_of_isBlank (rt : Runtime) {piece : Str} (h : isBlank piece = true) :
    pieceDigest rt piece = none := by
  rw [pieceDigest, textValue_of_isBlank strictLoad h]
  rfl

/-- What the loader takes from a piece, the scan takes from the same text. -/
theorem pieceDigest_some {rt : Runtime} {piece digest : Str}
    (h : pieceDigest rt piece = some digest) : textDigest rt piece = some digest := by
  obtain ⟨value, decoded, h⟩ := Option.bind_eq_some_iff.mp h
  rw [textDigest, (textValue_eq_some_iff strictLoad piece value).mp decoded, Option.bind_some]
  split at h
  · exact h
  · cases h

theorem textDigest_none_of_blank (rt : Runtime) {line : Str} (h : line.all isAsciiSpace = true) :
    textDigest rt line = none := by
  rw [textDigest]
  cases decoded : loads strictLoad line with
  | none => rfl
  | some value =>
    have := not_isBlank_of_loads decoded
    rw [isBlank_of_asciiSpace h] at this
    cases this

theorem mem_of_mem_split {α : Type} [DecidableEq α] {sep : α} {s piece : List α} {c : α}
    (h : piece ∈ split sep s) (member : c ∈ piece) : c ∈ s := by
  induction s generalizing piece with
  | nil =>
    rw [split, List.mem_singleton] at h
    rw [h] at member
    cases member
  | cons d s ih =>
    by_cases same : d = sep
    · rw [same, split_sep_cons] at h
      rcases List.mem_cons.mp h with rfl | h
      · cases member
      · exact List.mem_cons_of_mem _ (ih h member)
    · obtain ⟨first, rest, found, next⟩ := split_cons_of_ne same s
      rw [next] at h
      rw [found] at ih
      rcases List.mem_cons.mp h with rfl | h
      · rcases List.mem_cons.mp member with rfl | member
        · exact List.mem_cons_self
        · exact List.mem_cons_of_mem _ (ih List.mem_cons_self member)
      · exact List.mem_cons_of_mem _ (ih (List.mem_cons_of_mem _ h) member)

/-- The pieces of a blank line are blank. -/
theorem isBlank_of_mem_split {line piece : Str} (h : line.all isAsciiSpace = true)
    (member : piece ∈ split CR line) : isBlank piece = true :=
  List.all_eq_true.mpr fun c hc =>
    isSpace_of_asciiSpace (List.all_eq_true.mp h c (mem_of_mem_split member hc))

/-- A line with one filled piece: the loader takes from its pieces what it takes from that one. -/
theorem filterMap_pieceDigest (rt : Runtime) {line piece : Str}
    (h : filledPieces line = [piece]) :
    (split CR line).filterMap (pieceDigest rt) = (pieceDigest rt piece).toList := by
  have none (other : Str) (blank : isJsonBlank other = true) : pieceDigest rt other = none :=
    pieceDigest_of_isBlank rt (isBlank_of_isJsonBlank blank)
  calc (split CR line).filterMap (pieceDigest rt)
      = (filledPieces line).filterMap (pieceDigest rt) := by
        rw [filledPieces, List.filterMap_filter]
        apply List.filterMap_congr
        intro other _
        cases blank : isJsonBlank other with
        | true => rw [none other blank]; rfl
        | false => rfl
    _ = (pieceDigest rt piece).toList := by
        rw [h, List.filterMap_cons]
        cases pieceDigest rt piece <;> rfl

/-- A line that reads well both ways is clear, and gives the same digest both ways. -/
theorem line_of_both {rt : Runtime} {line : Str} (read : LineRead rt line)
    (readPieces : LinePiecesRead rt line) : ¬ Ambiguous line ∧
      (split CR line).filterMap (pieceDigest rt) = (textDigest rt line).toList := by
  -- a blank line is no record for either path
  rcases read with blank | digest
  · have clear : ¬ Ambiguous line := by
      rintro ⟨filled, _⟩
      rw [blank] at filled
      cases filled
    refine ⟨clear, ?_⟩
    rw [textDigest_none_of_blank rt blank, Option.toList_none, List.filterMap_eq_nil_iff]
    intro piece member
    exact pieceDigest_of_isBlank rt (isBlank_of_mem_split blank member)
  · obtain ⟨value, decoded, hashed⟩ : ∃ value, loads strictLoad line = some value ∧
        (hashSample rt value).isSome = true := by
      rw [textDigest] at digest
      cases decoded : loads strictLoad line with
      | none => rw [decoded] at digest; cases digest
      | some value => rw [decoded] at digest; exact ⟨value, rfl, digest⟩
    -- each piece between carriage returns would be a value of its own
    have values : ∀ piece ∈ split CR line, isBlank piece = true ∨
        ∃ w, loads strictLoad piece = some w := by
      intro piece member
      refine (readPieces piece member).imp_right fun digest => ?_
      obtain ⟨digest, found⟩ := Option.isSome_iff_exists.mp digest
      obtain ⟨w, decoded, _⟩ := Option.bind_eq_some_iff.mp (pieceDigest_some found)
      exact ⟨w, decoded⟩
    obtain ⟨piece, one, filled⟩ := filledPieces_of_loads decoded values
    refine ⟨(values_of_both decoded values).1, ?_⟩
    rw [filterMap_pieceDigest rt one]
    have member : piece ∈ split CR line := (List.mem_filter.mp (by
      rw [← filledPieces, one]
      exact List.mem_cons_self)).1
    rcases readPieces piece member with blank | taken
    · rw [blank] at filled
      cases filled
    · obtain ⟨digest, found⟩ := Option.isSome_iff_exists.mp taken
      rw [found, textDigest, loads_filledPiece strictLoad one]
      exact congrArg _ (pieceDigest_some found).symm

/-- The values read from the line and its pieces are not nested too deeply for the loader. -/
def ShallowLine (line : Str) : Prop :=
  ∀ value, (loads strictLoad line = some value ∨
    ∃ piece ∈ split CR line, loads strictLoad piece = some value) → value.depth ≤ MAX_NESTING_DEPTH

/-- A clear line reads well one way exactly when it does the other way. -/
theorem line_iff_of_clear {rt : Runtime} {line : Str} (shallow : ShallowLine line)
    (clear : ¬ Ambiguous line) : LineRead rt line ↔ LinePiecesRead rt line := by
  cases blank : line.all isAsciiSpace with
  | true =>
    exact iff_of_true (.inl blank) fun piece member => .inl (isBlank_of_mem_split blank member)
  | false =>
    obtain ⟨piece, one, filled⟩ := filledPieces_of_not_ambiguous blank clear
    have member : piece ∈ split CR line := (List.mem_filter.mp (by
      rw [← filledPieces, one]
      exact List.mem_cons_self)).1
    have same : textDigest rt line = pieceDigest rt piece := by
      rw [textDigest, pieceDigest, textValue, filled, loads_filledPiece strictLoad one]
      simp only [Bool.false_eq_true, if_false]
      cases decoded : loads strictLoad piece with
      | none => rfl
      | some value =>
        rw [Option.bind_some, Option.bind_some, if_pos]
        exact shallow value (.inr ⟨piece, member, decoded⟩)
    rw [LineRead, blank, same]
    constructor
    · intro read other present
      rcases isBlank_or_filled present with space | inside
      · exact .inl space
      · rw [one, List.mem_singleton] at inside
        exact .inr (inside ▸ read.resolve_left Bool.false_ne_true)
    · intro read
      rcases read piece member with space | taken
      · rw [space] at filled
        cases filled
      · exact .inr taken

/-- A file that reads well both ways gives the same digests in the same order. -/
theorem digests_of_both {rt : Runtime} {text : Str} (read : LinesRead rt text)
    (readPieces : PiecesRead rt text) :
    (pieces text).filterMap (pieceDigest rt) = (split LF text).filterMap (textDigest rt) := by
  rw [piecesRead_iff] at readPieces
  rw [LinesRead] at read
  rw [pieces, List.filterMap_flatMap]
  generalize split LF text = lines at read readPieces ⊢
  induction lines with
  | nil => rfl
  | cons line lines ih =>
    obtain ⟨first, others⟩ := List.forall_mem_cons.mp read
    obtain ⟨firstPieces, otherPieces⟩ := List.forall_mem_cons.mp readPieces
    rw [List.flatMap_cons, (line_of_both first firstPieces).2, ih others otherPieces,
      List.filterMap_cons]
    cases textDigest rt line <;> rfl

/-- A dataset that loads and that a complete scan passes has the same digests both ways. -/
theorem loadDataset_hashes {rt : Runtime} {path : Str} {content : Bytes} {dataset : DatasetHashes}
    (bytes : rt.readBytes path = .ok content) (loaded : loadDataset rt path = .ok dataset)
    (taken : ∀ line ∈ contentLines content, Taken rt line.1) :
    dataset.hashes = digestsIn rt content := by
  obtain ⟨_, _, text, decoded, readPieces, digests⟩ := (loadDataset_ok_iff bytes dataset).mp loaded
  obtain ⟨text', decoded', read⟩ := (allTaken_iff rt content).mp taken
  obtain rfl := Option.some.inj (decoded.symm.trans decoded')
  rw [digests, digestsIn_decoded rt decoded, digests_of_both read readPieces]

end ClaimCI
