import ClaimCI.Review.ClaimCandidates
import ClaimCI.Review.Evidence

/-!
# Issued references

What one round of evidence discovery can issue, and from it what every reference of a bundle shows of
its file.
-/

open Python

namespace ClaimCI.Review

/-! ### Tables -/

theorem eligibleLines_lines (fence : Option (CodePoint × Nat)) (lines : List Str) :
    (eligibleLines fence lines).map Prod.fst = lines := by
  induction lines generalizing fence with
  | nil => cases fence <;> rfl
  | cons line lines ih =>
    cases fence with
    | some fence => rw [eligibleLines, List.map_cons, ih]
    | none =>
      rw [eligibleLines]
      split <;> rw [List.map_cons, ih]

/-- The characters of some tables. -/
def tableChars (tables : List MarkdownTable) : Nat :=
  (tables.map fun table => table.excerpt.length).sum

/-- Tables do not share lines. -/
theorem tablesFrom_chars (fuel index : Nat) (lines : List (Str × Bool)) :
    tableChars (tablesFrom fuel index lines) ≤ charsOfLines (lines.map Prod.fst) := by
  induction fuel generalizing index lines with
  | zero => exact Nat.zero_le _
  | succ fuel ih =>
    match lines with
    | [] => exact Nat.zero_le _
    | [_] => exact Nat.zero_le _
    | first :: second :: lines =>
      have skipped : tableChars (tablesFrom fuel (index + 1) (second :: lines)) ≤
          charsOfLines ((first :: second :: lines).map Prod.fst) :=
        (ih (index + 1) (second :: lines)).trans (Nat.le_add_left _ _)
      rw [tablesFrom]
      split
      · exact skipped
      next header _ =>
        dsimp only
        split
        · exact skipped
        · -- The table takes its lines, and the following tables take theirs from the rest.
          have later := ih (index + 2 + (tableRows header.length lines).length)
            (lines.drop (tableRows header.length lines).length)
          have taken : tableRows header.length lines ++
              lines.drop (tableRows header.length lines).length = lines :=
            List.prefix_iff_eq_append.mp (List.takeWhile_prefix _)
          have cut : charsOfLines (lines.map Prod.fst) =
              charsOfLines ((tableRows header.length lines).map Prod.fst) +
                charsOfLines ((lines.drop (tableRows header.length lines).length).map Prod.fst) := by
            conv_lhs => rw [← taken]
            simp [charsOfLines]
          simp only [tableChars, List.map_cons, List.sum_cons, length_flatten_eq, charsOfLines]
            at later cut ⊢
          omega

theorem markdownTables_chars (text : Str) : tableChars (markdownTables text) ≤ text.length := by
  have bound := tablesFrom_chars (splitLines text).length 0 (eligibleLines none (splitLines text))
  rw [eligibleLines_lines, ← length_flatten_eq, splitLines_flatten] at bound
  exact bound

/-! ### One file -/

/-- The characters that some references show. -/
def shownChars (references : List EvidenceReference) : Nat :=
  (references.map fun reference => reference.cut.text.length).sum

theorem shownChars_append (some more : List EvidenceReference) :
    shownChars (some ++ more) = shownChars some + shownChars more := by
  simp [shownChars]

/-- A reference that is the regular excerpt of a file. -/
structure IsRegular (site : Site) (plan : Plan) (relative : Str) (file : CapturedText)
    (reference : EvidenceReference) : Prop where
  path : reference.path = relative
  digest : reference.sha256 = file.sha256
  size : reference.size = file.size
  cut : ∃ charLimit, charLimit ≠ 0 ∧ reference.cut.text ≠ [] ∧
    regularExcerpt site.base file.text relative reference.kind charLimit plan.changed
      (plan.routing.exactRoutes.map Prod.fst) =
        ⟨reference.cut, reference.excerptComplete, reference.locality⟩

/-- What some references of one file have in common: they are its tables, and its regular excerpt. -/
def AreIssued (site : Site) (plan : Plan) (relative : Str) (file : CapturedText)
    (references : List EvidenceReference) : Prop :=
  ∀ reference ∈ references, reference.path = relative ∧
    (reference.provenance = .reportedMeasurement ∨ IsRegular site plan relative file reference)

/-- A table costs the characters that it shows. -/
theorem issueTable_ok {site : Site} {plan : Plan} {relative : Str} {file : CapturedText}
    {state next : TableState} {table : MarkdownTable}
    (h : issueTable site plan relative file state table = .ok next) :
    ∃ issued, next.references = state.references ++ issued ∧
      next.remaining + shownChars issued = state.remaining ∧
      next.chars = state.chars + shownChars issued ∧ shownChars issued ≤ table.excerpt.length ∧
      ∀ reference ∈ issued, reference.path = relative ∧
        reference.provenance = .reportedMeasurement := by
  unfold issueTable at h
  dsimp only at h
  split at h
  · obtain rfl := Except.ok.inj h
    exact ⟨[], (List.append_nil _).symm, rfl, rfl, Nat.zero_le _, fun _ member => nomatch member⟩
  -- the excerpt is taken from what remains
  next room =>
    obtain ⟨evidenceId, -, h⟩ := bind_ok_iff.mp h
    obtain rfl := Except.ok.inj h
    refine ⟨_, rfl, ?_, ?_, ?_, fun reference member => ?_⟩
    · simp only [shownChars, List.map_cons, List.map_nil, List.sum_singleton]
      omega
    · simp [shownChars]
    · simp [shownChars]
    · obtain rfl := List.mem_singleton.mp member
      exact ⟨rfl, rfl⟩

/-- The tables of a file cost the characters that they show. -/
theorem issueTables_ok {site : Site} {plan : Plan} {relative : Str} {file : CapturedText}
    {tables : List MarkdownTable} {state next : TableState}
    (h : tables.foldlM (issueTable site plan relative file) state = .ok next) :
    ∃ issued, next.references = state.references ++ issued ∧
      next.remaining + shownChars issued = state.remaining ∧
      next.chars = state.chars + shownChars issued ∧ shownChars issued ≤ tableChars tables ∧
      ∀ reference ∈ issued, reference.path = relative ∧
        reference.provenance = .reportedMeasurement := by
  induction tables generalizing state with
  | nil =>
    obtain rfl := Except.ok.inj h
    exact ⟨[], (List.append_nil _).symm, rfl, rfl, Nat.zero_le _, fun _ member => nomatch member⟩
  | cons table tables ih =>
    rw [List.foldlM_cons] at h
    obtain ⟨between, first, later⟩ := bind_ok_iff.mp h
    obtain ⟨some, added, left, chars, fits, tabled⟩ := issueTable_ok first
    obtain ⟨more, added', left', chars', fits', tabled'⟩ := ih later
    refine ⟨some ++ more, ?_, ?_, ?_, ?_, fun reference member => ?_⟩
    · rw [added', added, List.append_assoc]
    · rw [shownChars_append]
      omega
    · rw [shownChars_append]
      omega
    · rw [shownChars_append, tableChars, List.map_cons, List.sum_cons]
      exact Nat.add_le_add fits fits'
    · exact (List.mem_append.mp member).elim (tabled reference) (tabled' reference)

theorem regularReference_ok {site : Site} {plan : Plan} {relative : Str} {file : CapturedText}
    {kind : EvidenceKind} {claimIds : List Str} {regular : RegularExcerpt}
    {reference : EvidenceReference} {charLimit : Nat} (positive : charLimit ≠ 0)
    (cut : regularExcerpt site.base file.text relative kind charLimit plan.changed
      (plan.routing.exactRoutes.map Prod.fst) = regular) (filled : regular.cut.text ≠ [])
    (h : regularReference site relative file kind claimIds regular = .ok reference) :
    IsRegular site plan relative file reference ∧ reference.cut = regular.cut := by
  obtain ⟨bytes, -, h⟩ := bind_ok_iff.mp h
  obtain ⟨evidenceId, -, h⟩ := bind_ok_iff.mp h
  obtain rfl := Except.ok.inj h
  exact ⟨⟨rfl, rfl, rfl, charLimit, positive, filled, cut⟩, rfl⟩

/-- What is left of the budget after a file, and what the file was issued for it. -/
structure Issues (site : Site) (plan : Plan) (relative : Str) (file : CapturedText)
    (state next : EvidenceState) (issued : List EvidenceReference) : Prop where
  references : next.references = state.references ++ issued
  budget : next.remaining + shownChars issued = state.remaining
  perFile : shownChars issued ≤ plan.limits.maxFileChars
  content : AreIssued site plan relative file issued

/-- A regular excerpt fits into its limit. -/
theorem regularExcerpt_length (base : Option FileView) (text relative : Str) (kind : EvidenceKind)
    (charLimit : Nat) (changed exactPaths : List Str) :
    (regularExcerpt base text relative kind charLimit changed exactPaths).cut.text.length ≤
      charLimit := by
  have cut : (text.take charLimit).length ≤ charLimit := List.length_take_le charLimit text
  rw [regularExcerpt]
  split
  next fits => exact fits
  · split
    · split
      · split
        next region found =>
          obtain ⟨baseText, -, window⟩ := Option.bind_eq_some_iff.mp found
          exact (changedLineWindow_some window).2.2.2.2.2.1
        · exact cut
      · exact cut
    · exact cut

theorem issueRegular_ok {site : Site} {plan : Plan} {relative : Str} {file : CapturedText}
    {tables : TableState} {state next : EvidenceState}
    (h : issueRegular site plan relative file tables state = .ok next) :
    next.selected = state.selected ∧ ∃ issued,
      next.references = state.references ++ tables.references ++ issued ∧
      next.remaining + shownChars issued = tables.remaining ∧
      shownChars issued ≤ plan.limits.maxFileChars - tables.chars ∧
      ∀ reference ∈ issued, IsRegular site plan relative file reference := by
  unfold issueRegular at h
  dsimp only at h
  split at h
  · obtain rfl := Except.ok.inj h
    exact ⟨rfl, [], (List.append_nil _).symm, rfl, Nat.zero_le _, fun _ member => nomatch member⟩
  -- a regular excerpt takes what the tables of the file have left
  next room =>
    split at h
    · obtain rfl := Except.ok.inj h
      exact ⟨rfl, [], (List.append_nil _).symm, rfl, Nat.zero_le _, fun _ member => nomatch member⟩
    next filled =>
      obtain ⟨reference, made, h⟩ := bind_ok_iff.mp h
      obtain rfl := Except.ok.inj h
      obtain ⟨regular, cut⟩ := regularReference_ok (fun none => room (Or.inr none)) rfl filled made
      have short := regularExcerpt_length site.base file.text relative (kindOf site.lookup relative)
        (min (plan.limits.maxFileChars - tables.chars) tables.remaining) plan.changed
        (plan.routing.exactRoutes.map Prod.fst)
      have alone : shownChars [reference] = reference.cut.text.length := by simp [shownChars]
      refine ⟨rfl, [reference], rfl, ?_, ?_, fun other member => ?_⟩
      · rw [alone, cut]
        exact Nat.sub_add_cancel (short.trans (Nat.min_le_right _ _))
      · rw [alone, cut]
        exact short.trans (Nat.min_le_left _ _)
      · obtain rfl := List.mem_singleton.mp member
        exact regular

/-- What the round over one file can do. -/
theorem issueFile_ok {site : Site} {plan : Plan} {relative : Str} {file : CapturedText}
    {state next : EvidenceState} (h : issueFile site plan relative file state = .ok next) :
    next.selected = state.selected ++ [relative] ∧
      ∃ issued, Issues site plan relative file state next issued := by
  unfold issueFile at h
  dsimp only at h
  split at h
  · obtain rfl := Except.ok.inj h
    exact ⟨rfl, [], (List.append_nil _).symm, rfl, Nat.zero_le _, fun _ member => nomatch member⟩
  · obtain ⟨tables, tabled, h⟩ := bind_ok_iff.mp h
    obtain ⟨some, added, left, chars, fits, areTables⟩ := issueTables_ok tabled
    obtain ⟨selected, more, added', left', fits', areRegular⟩ := issueRegular_ok h
    -- The tables stand in the part of the file that the limit lets through.
    have cut : shownChars some ≤ plan.limits.maxFileChars := by
      refine fits.trans ?_
      split
      · refine (markdownTables_chars _).trans ((List.length_take_le _ _).trans ?_)
        exact Nat.min_le_left _ _
      · exact Nat.zero_le _
    simp only [List.nil_append, Nat.zero_add] at added chars left
    refine ⟨selected, some ++ more, ?_, ?_, ?_, fun reference member => ?_⟩
    · rw [added', added, List.append_assoc]
    · rw [shownChars_append]
      omega
    · rw [shownChars_append]
      omega
    · rcases List.mem_append.mp member with table | regular
      · exact (areTables reference table).imp_right Or.inl
      · exact ⟨(areRegular reference regular).path, Or.inr (areRegular reference regular)⟩

/-- What one round of the loop can do: nothing is issued, or a captured file is, which is selected and
takes a slot unless it has one. -/
theorem visitPath_ok {site : Site} {plan : Plan} {state next : EvidenceState} {relative : Str}
    (h : visitPath site plan state relative = .ok next) :
    (next.selected = state.selected ∧ next.references = state.references ∧
      next.remaining = state.remaining) ∨
    ((relative ∈ state.selected ∨ state.selected.dedup.length < plan.limits.maxFiles) ∧
      next.selected = state.selected ++ [relative] ∧ ∃ file issued,
        captureText site relative = .ok file ∧ Issues site plan relative file state next issued) := by
  unfold visitPath at h
  dsimp only at h
  split at h
  -- a path that is excluded, known, too large or unreadable changes nothing
  · obtain rfl := Except.ok.inj h
    exact Or.inl ⟨rfl, rfl, rfl⟩
  · split at h
    · obtain rfl := Except.ok.inj h
      exact Or.inl ⟨rfl, rfl, rfl⟩
    next slot =>
      split at h
      · obtain rfl := Except.ok.inj h
        exact Or.inl ⟨rfl, rfl, rfl⟩
      · split at h
        · obtain rfl := Except.ok.inj h
          exact Or.inl ⟨rfl, rfl, rfl⟩
        · split at h
          · obtain rfl := Except.ok.inj h
            exact Or.inl ⟨rfl, rfl, rfl⟩
          · split at h
            · obtain rfl := Except.ok.inj h
              exact Or.inl ⟨rfl, rfl, rfl⟩
            next file captured =>
              obtain ⟨selected, issued, issues⟩ := issueFile_ok h
              refine Or.inr ⟨?_, selected, file, issued, captured, issues⟩
              by_contra full
              rw [not_or, Nat.not_lt] at full
              exact slot ⟨by simpa using full.1, full.2⟩

/-! ### All files -/

/-- The references of one path. -/
def referencesOf (path : Str) (references : List EvidenceReference) : List EvidenceReference :=
  references.filter fun reference => reference.path == path

/-- What the loop over some paths did. -/
structure Visits (site : Site) (plan : Plan) (paths : List Str) (state next : EvidenceState)
    (issued : List EvidenceReference) : Prop where
  references : next.references = state.references ++ issued
  budget : next.remaining + shownChars issued = state.remaining
  content : ∀ reference ∈ issued, reference.path ∈ paths ∧ reference.path ∈ next.selected ∧
    ∃ file, captureText site reference.path = .ok file ∧
      (reference.provenance = .reportedMeasurement ∨
        IsRegular site plan reference.path file reference)
  perFile : paths.Nodup → ∀ path, shownChars (referencesOf path issued) ≤ plan.limits.maxFileChars
  selected : state.selected ⊆ next.selected
  slots : state.selected.dedup.length ≤ plan.limits.maxFiles →
    next.selected.dedup.length ≤ plan.limits.maxFiles

theorem referencesOf_append (path : Str) (some more : List EvidenceReference) :
    referencesOf path (some ++ more) = referencesOf path some ++ referencesOf path more :=
  List.filter_append some more

/-- References of other paths only. -/
theorem referencesOf_eq_nil {path : Str} {references : List EvidenceReference}
    (others : ∀ reference ∈ references, reference.path ≠ path) : referencesOf path references = [] :=
  List.filter_eq_nil_iff.mpr fun reference member => by simpa using others reference member

theorem shownChars_referencesOf_le (path : Str) (references : List EvidenceReference) :
    shownChars (referencesOf path references) ≤ shownChars references :=
  List.Sublist.sum_le_sum (List.filter_sublist.map _) fun _ _ => Nat.zero_le _

/-- Another selected path takes at most one slot. -/
theorem length_dedup_concat (selected : List Str) (path : Str) :
    (selected ++ [path]).dedup.length ≤ selected.dedup.length + 1 ∧
      (path ∈ selected → (selected ++ [path]).dedup.length = selected.dedup.length) := by
  have same : (selected ++ [path]).dedup.Perm (path :: selected).dedup :=
    (List.perm_append_singleton path selected).dedup
  rw [same.length_eq]
  by_cases known : path ∈ selected
  · rw [List.dedup_cons_of_mem known]
    exact ⟨Nat.le_succ _, fun _ => rfl⟩
  · rw [List.dedup_cons_of_notMem known]
    exact ⟨Nat.le_refl _, fun there => absurd there known⟩

/-- The loop keeps to its budgets, and every reference is issued by the round of its path. -/
theorem visitPaths_ok {site : Site} {plan : Plan} {paths : List Str} {state next : EvidenceState}
    (h : paths.foldlM (visitPath site plan) state = .ok next) :
    ∃ issued, Visits site plan paths state next issued := by
  -- induction on the paths; `visits` speaks of the later rounds and `issues` of this one
  induction paths generalizing state with
  | nil =>
    obtain rfl := Except.ok.inj h
    exact ⟨[], (List.append_nil _).symm, rfl, fun _ member => (nomatch member),
      fun _ _ => Nat.zero_le _, List.Subset.refl _, id⟩
  | cons relative paths ih =>
    rw [List.foldlM_cons] at h
    obtain ⟨between, first, later⟩ := bind_ok_iff.mp h
    obtain ⟨more, visits⟩ := ih later
    rcases visitPath_ok first with ⟨selected, references, remaining⟩ |
      ⟨slot, selected, file, some, captured, issues⟩
    · refine ⟨more, ?_, ?_, fun reference member => ?_, fun nodup => ?_, ?_, ?_⟩
      · rw [visits.references, references]
      · rw [visits.budget, remaining]
      · exact (visits.content reference member).imp_left (List.mem_cons_of_mem relative)
      · exact visits.perFile (List.nodup_cons.mp nodup).2
      · exact selected ▸ visits.selected
      · exact selected ▸ visits.slots
    -- this path is issued, and the rounds after it start from its state
    · refine ⟨some ++ more, ?_, ?_, fun reference member => ?_, fun nodup path => ?_, ?_, ?_⟩
      · rw [visits.references, issues.references, List.append_assoc]
      · have left := visits.budget
        have right := issues.budget
        rw [shownChars_append]
        omega
      · rcases List.mem_append.mp member with here | there
        · obtain ⟨path, content⟩ := issues.content reference here
          refine ⟨path ▸ List.mem_cons_self, visits.selected ?_, file, path ▸ captured, path ▸ content⟩
          rw [selected, path]
          exact List.mem_append_right state.selected List.mem_cons_self
        · exact (visits.content reference there).imp_left (List.mem_cons_of_mem relative)
      · obtain ⟨fresh, nodup'⟩ := List.nodup_cons.mp nodup
        rw [referencesOf_append, shownChars_append]
        by_cases here : path = relative
        · -- No later round issues this path again.
          have none : referencesOf path more = [] :=
            referencesOf_eq_nil fun reference member same =>
              fresh (here ▸ same ▸ (visits.content reference member).1)
          rw [none]
          exact (shownChars_referencesOf_le path some).trans issues.perFile
        · have none : referencesOf path some = [] :=
            referencesOf_eq_nil fun reference member same =>
              here (same.symm.trans (issues.content reference member).1)
          rw [none, show shownChars ([] : List EvidenceReference) = 0 from rfl, Nat.zero_add]
          exact visits.perFile nodup' path
      · intro path member
        exact visits.selected (selected ▸ List.mem_append_left [relative] member)
      · intro within
        apply visits.slots
        rw [selected]
        obtain ⟨atMost, known⟩ := length_dedup_concat state.selected relative
        rcases slot with there | free
        · rw [known there]
          exact within
        · exact atMost.trans free

/-! ### What a reference shows of its file -/

/-- The reference carries the digest and the size of the captured bytes, whose text this is. -/
def OfFile (site : Site) (reference : EvidenceReference) (text : Str) : Prop :=
  ∃ bytes raw, site.head.capture reference.path = some bytes ∧ decodeUtf8 bytes = some raw ∧
    text = universalNewlines raw ∧ reference.sha256 = site.host.sha256 bytes ∧
    reference.size = bytes.length

/-- The excerpt has a line that is outside the longest common prefix of the head and the base, and
outside the longest common suffix of what follows that. -/
def HoldsChange (site : Site) (reference : EvidenceReference) (text : Str) : Prop :=
  ∃ baseText, baseTextOf site.base reference.path = some baseText ∧ ∃ index,
    reference.cut.startLine ≤ index + 1 ∧ index + 1 ≤ reference.cut.endLine ∧
    (changeBounds (splitLines text) (baseText.map splitLines)).1 ≤ index ∧
    index < (changeBounds (splitLines text) (baseText.map splitLines)).2

/-- The excerpt is the lines that a quote of its span resolves to, with their terminators. -/
def ResolvesIn (text : Str) (cut : Excerpt) : Prop :=
  cut.IsExact text ∧ ∃ tail, (tail = [] ∨ tail = [LF]) ∧
    cut.text = joinLines (lineSpan (linesOf text) cut.startLine cut.endLine) ++ tail

/-- Whose bytes a reference carries, whether it says that it shows all of them, and what a changed
region holds. -/
structure ShowsFile (site : Site) (reference : EvidenceReference) (text : Str) : Prop where
  file : OfFile site reference text
  complete : reference.excerptComplete = true ↔ reference.cut.text = text
  changed : reference.locality = .changedRegion → HoldsChange site reference text

/-- The excerpt is the lines it names; only the prefix localities may end inside their last line. -/
def CitesItsSpan (reference : EvidenceReference) (text : Str) : Prop :=
  match reference.locality with
  | .completeFile | .changedRegion => ResolvesIn text reference.cut
  | .unlocalizedPrefix | .selectedRegion => reference.cut.IsLeading text

theorem Excerpt.IsExact.resolves {cut : Excerpt} {raw : Str}
    (exactly : cut.IsExact (universalNewlines raw)) : ResolvesIn (universalNewlines raw) cut := by
  refine ⟨exactly, ?_⟩
  rw [linesOf, universalNewlines_of_not_mem (not_mem_universalNewlines raw)]
  exact exactly.quoted

theorem captureText_ok {site : Site} {relative : Str} {file : CapturedText}
    (h : captureText site relative = .ok file) :
    ∃ bytes raw, site.head.capture relative = some bytes ∧ decodeUtf8 bytes = some raw ∧
      file = ⟨universalNewlines raw, site.host.sha256 bytes, bytes.length⟩ := by
  unfold captureText at h
  split at h
  · cases h
  next bytes captured =>
    split at h
    · cases h
    · split at h
      · cases h
      next raw decodes => exact ⟨bytes, raw, captured, decodes, (Except.ok.inj h).symm⟩

/-- The regular excerpt of a file shows it, and names its lines unless a changed region's file has
other boundaries. -/
theorem IsRegular.showsFile {site : Site} {plan : Plan} {file : CapturedText}
    {reference : EvidenceReference} (captured : captureText site reference.path = .ok file)
    (regular : IsRegular site plan reference.path file reference) :
    ShowsFile site reference file.text ∧
      ((reference.locality = .changedRegion → FeedsOnly file.text) →
        CitesItsSpan reference file.text) := by
  obtain ⟨bytes, raw, there, decodes, rfl⟩ := captureText_ok captured
  obtain ⟨charLimit, positive, filled, cut⟩ := regular.cut
  have ofFile : OfFile site reference (universalNewlines raw) :=
    ⟨bytes, raw, there, decodes, rfl, regular.digest, regular.size⟩
  unfold CitesItsSpan
  dsimp only at cut ⊢
  unfold regularExcerpt at cut
  split at cut
  · obtain ⟨whole, complete, locality⟩ := RegularExcerpt.mk.inj cut
    have text : reference.cut.text = universalNewlines raw := whole ▸ rfl
    rw [← locality]
    refine ⟨⟨ofFile, ⟨fun _ => text, fun _ => complete.symm⟩, fun changed => ?_⟩, fun _ => ?_⟩
    · rw [← locality] at changed
      cases changed
    · rw [← whole]
      exact (leadingExcerpt_exact (text ▸ filled)).resolves
  next long =>
    -- Every other excerpt is shorter than the file.
    have notWhole : reference.cut.text.length ≤ charLimit → ¬ reference.cut.text = universalNewlines raw :=
      fun short same => long (same ▸ short)
    have prefixShows {locality : EvidenceLocality}
        (h : RegularExcerpt.mk (leadingExcerpt ((universalNewlines raw).take charLimit)) false locality =
          ⟨reference.cut, reference.excerptComplete, reference.locality⟩)
        (isPrefix : locality = .unlocalizedPrefix ∨ locality = .selectedRegion) :
        ShowsFile site reference (universalNewlines raw) ∧
          ((reference.locality = .changedRegion → FeedsOnly (universalNewlines raw)) →
            CitesItsSpan reference (universalNewlines raw)) := by
      obtain ⟨part, complete, same⟩ := RegularExcerpt.mk.inj h
      have text : reference.cut.text = (universalNewlines raw).take charLimit := part ▸ rfl
      have partly := notWhole (text ▸ List.length_take_le _ _)
      refine ⟨⟨ofFile, by simp [← complete, partly], fun changed => ?_⟩, fun _ => ?_⟩
      · rw [← same] at changed
        rcases isPrefix with rfl | rfl <;> cases changed
      · rw [CitesItsSpan, ← same, ← part]
        rcases isPrefix with rfl | rfl <;> exact leadingExcerpt_leading (text ▸ filled)
    split at cut
    · split at cut
      · split at cut
        next region found =>
          obtain ⟨part, complete, locality⟩ := RegularExcerpt.mk.inj cut
          obtain ⟨baseText, base, window⟩ := Option.bind_eq_some_iff.mp found
          rw [part] at window
          obtain ⟨-, -, -, -, -, short, change⟩ := changedLineWindow_some window
          refine ⟨⟨ofFile, by simp [← complete, notWhole short],
            fun _ => ⟨baseText, base, change⟩⟩, fun feeds => ?_⟩
          rw [← locality]
          exact (changedLineWindow_exact (feeds locality.symm) window).resolves
        · exact prefixShows cut (Or.inl rfl)
      · exact prefixShows cut (Or.inl rfl)
    · exact prefixShows cut (Or.inr rfl)

/-- The loop of a discovery that returns. -/
theorem discoverEvidence_ok {site : Site} {request : EvidenceRequest} {bundle : EvidenceBundle}
    (h : discoverEvidence site request = .ok bundle) :
    ∃ selected changed priority state issued,
      indexedPaths (indexOf request.repositoryPaths)
        "selected evidence path is unsafe or not indexed" request.selectedPaths = .ok selected ∧
      selected.dedup.length ≤ request.limits.maxFiles ∧
      Visits site
        (planEvidence site request selected changed (indexOf request.repositoryPaths) priority)
        (planEvidence site request selected changed (indexOf request.repositoryPaths)
          priority).orderedPaths
        ⟨selected, request.limits.maxContextChars, [], [], []⟩ state issued ∧
      bundle.references = issued := by
  obtain ⟨selected, chosen, h⟩ := bind_ok_iff.mp h
  obtain ⟨⟨⟩, within, h⟩ := bind_ok_iff.mp h
  obtain ⟨changed, -, h⟩ := bind_ok_iff.mp h
  obtain ⟨priority, -, h⟩ := bind_ok_iff.mp h
  obtain ⟨state, loop, h⟩ := bind_ok_iff.mp h
  obtain rfl := Except.ok.inj h
  obtain ⟨issued, visits⟩ := visitPaths_ok loop
  refine ⟨selected, changed, priority, state, issued, chosen, ?_, visits, ?_⟩
  · simpa using rejectWhen_ok_iff.mp within
  · exact visits.references.trans (List.nil_append issued)

/-- Every reference but a reported table shows its file and, if no changed region is cut from a file
with another boundary than LF before its end, names the lines it shows; in a head file with such a
boundary some changed region is misplaced. -/
theorem evidenceReferences_show (site : Site) (request : EvidenceRequest) :
    (∀ bundle, discoverEvidence site request = .ok bundle → ∀ reference ∈ bundle.references,
      reference.provenance ≠ .reportedMeasurement → ∃ text, ShowsFile site reference text ∧
        ((reference.locality = .changedRegion → FeedsOnly text) → CitesItsSpan reference text)) ∧
    ∀ headText, CR ∉ headText →
      ((∀ baseText charLimit window, changedLineWindow headText baseText charLimit = some window →
        window.IsExact headText) ↔ FeedsOnly headText) := by
  constructor
  · intro bundle returned reference member regular
    obtain ⟨selected, changed, priority, state, issued, -, -, visits, rfl⟩ :=
      discoverEvidence_ok returned
    obtain ⟨-, -, file, captured, content⟩ := visits.content reference member
    exact ⟨file.text, IsRegular.showsFile captured (content.resolve_left regular)⟩
  · exact fun headText normalized => changedLineWindows_exact_iff normalized

/-! ### A form feed -/

/-- The ASCII part of the Unicode database. -/
def asciiChars : CharTables := ⟨charDigit, fun c => isAsciiLetter c || isAsciiDigit c, isAsciiDigit⟩

def sampleLookup : Lookup := ⟨⟨id, fun _ => false⟩, asciiChars, fun x => x.spelling.render,
  ⟨fun value => value.depth ≤ 1000, thousandLevels⟩⟩

/-- A checkout with one file. -/
def fileView (content : Bytes) : FileView where
  refusal path := if path = lit "src/a.py" then none else some NOT_AVAILABLE
  statSize _ := some content.length
  capture path := if path = lit "src/a.py" then some content else none

/-- A form feed on a line of its own, and an assignment. -/
def formFeedFile (digit : UInt8) : Bytes := [0x0C, 0x0A, 0x78, 0x20, 0x3D, 0x20, digit, 0x0A]

/-- The assignment changes from zero to one. -/
def formFeedSite : Site :=
  ⟨sampleHost, sampleLookup, fileView (formFeedFile 0x31), some (fileView (formFeedFile 0x30))⟩

theorem titleText : strip (lit "Adds x") ≠ [] ∧ (lit "Adds x").length ≤ 16000 := by decide

theorem subjectText : strip (lit "Adds x") ≠ [] ∧ (lit "Adds x").length ≤ 1024 := by decide

theorem hintText : strip (lit "src/a.py") ≠ [] ∧ (lit "src/a.py").length ≤ 4096 := by decide

theorem firstLine : 1 ≤ 1 ∧ 1 ≤ 1 := by decide

theorem zeroConfidence : inUnitInterval (Binary64.zero false) = true := by decide

/-- A claim that names the file. -/
def sampleClaim : ScientificClaim where
  claimId := ⟨lit "source-1", sampleId_text⟩
  sourceText := ⟨lit "Adds x", titleText⟩
  claimType := .implementationClaim
  subject := ⟨lit "Adds x", subjectText⟩
  source := ⟨⟨lit "source-1", sampleId_text⟩, .pullRequestTitle, ⟨none, titlePath⟩, 1, 1, firstLine⟩
  metric := none
  direction := .notApplicable
  claimedMagnitude := none
  qualifiers := []
  confidence := ⟨Binary64.zero false, zeroConfidence⟩
  evidenceHints := [⟨lit "src/a.py", hintText⟩]

/-- The default limits with excerpts of six characters. -/
def shortLimits : Limits := { Limits.default with
  maxFileChars := 6
  bounded := by decide }

def formFeedRequest (limits : Limits) : EvidenceRequest :=
  ⟨[sampleClaim], ["src/a.py"], limits, fun _ => [], [], [], some ["src/a.py"]⟩

/-- What a discovery shows: the paths, the cuts, the localities and the provenances. -/
def shownBy (site : Site) (request : EvidenceRequest) :
    Option (List (Str × Excerpt × EvidenceLocality × EvidenceProvenance)) :=
  (discoverEvidence site request).toOption.map fun bundle =>
    bundle.references.map fun reference =>
      (reference.path, reference.cut, reference.locality, reference.provenance)

/-- A comment on the first line, and the assignment. -/
def commentedFile (digit : UInt8) : Bytes := [0x23, 0x0A, 0x78, 0x20, 0x3D, 0x20, digit, 0x0A]

def commentedSite : Site :=
  ⟨sampleHost, sampleLookup, fileView (commentedFile 0x31), some (fileView (commentedFile 0x30))⟩

theorem references_of_shownBy {site : Site} {request : EvidenceRequest}
    {entry : Str × Excerpt × EvidenceLocality × EvidenceProvenance}
    (shown : shownBy site request = some [entry]) :
    ∃ bundle reference, discoverEvidence site request = .ok bundle ∧
      bundle.references = [reference] ∧
      (reference.path, reference.cut, reference.locality, reference.provenance) = entry := by
  unfold shownBy at shown
  cases returned : discoverEvidence site request with
  | error fault =>
    rw [returned] at shown
    cases shown
  | ok bundle =>
    rw [returned] at shown
    obtain ⟨reference, references, same⟩ := List.map_eq_singleton_iff.mp (Option.some.inj shown)
    exact ⟨bundle, reference, rfl, references, same⟩

/-- A file with a form feed is shown whole; of a file without, the changed line is cut. -/
theorem evidenceReferences_show_formFeed :
    (∃ bundle, discoverEvidence formFeedSite (formFeedRequest Limits.default) = .ok bundle ∧
      bundle.references ≠ [] ∧ ∀ reference ∈ bundle.references,
        reference.provenance ≠ .reportedMeasurement → ∃ text,
          ShowsFile formFeedSite reference text ∧
            ((reference.locality = .changedRegion → FeedsOnly text) →
              CitesItsSpan reference text)) ∧
    ∃ bundle reference, discoverEvidence commentedSite (formFeedRequest shortLimits) = .ok bundle ∧
      bundle.references = [reference] ∧ reference.locality = .changedRegion ∧
      reference.cut = ⟨lit "x = 1" ++ [LF], 2, 2⟩ ∧
      ShowsFile commentedSite reference (lit "#" ++ [LF] ++ lit "x = 1" ++ [LF]) ∧
      CitesItsSpan reference (lit "#" ++ [LF] ++ lit "x = 1" ++ [LF]) := by
  constructor
  · have run : (shownBy formFeedSite (formFeedRequest Limits.default)).any (fun shown =>
        !shown.isEmpty) = true := by decide +kernel
    unfold shownBy at run
    cases returned : discoverEvidence formFeedSite (formFeedRequest Limits.default) with
    | error fault =>
      rw [returned] at run
      cases run
    | ok bundle =>
      rw [returned] at run
      refine ⟨bundle, rfl, fun none => ?_, (evidenceReferences_show formFeedSite
        (formFeedRequest Limits.default)).1 bundle returned⟩
      simp [Except.toOption, none] at run
  · have run : shownBy commentedSite (formFeedRequest shortLimits) =
        some [(lit "src/a.py", ⟨lit "x = 1" ++ [LF], 2, 2⟩, .changedRegion, .supportingArtifact)] := by
      decide +kernel
    have content : commentedSite.head.capture "src/a.py" = some (commentedFile 0x31) := by
      decide +kernel
    have decodes : decodeUtf8 (commentedFile 0x31) =
        some (lit "#" ++ [LF] ++ lit "x = 1" ++ [LF]) := by decide +kernel
    obtain ⟨bundle, reference, returned, references, shown⟩ := references_of_shownBy run
    simp only [Prod.mk.injEq] at shown
    obtain ⟨path, cut, locality, provenance⟩ := shown
    obtain ⟨text, shows', cites⟩ := (evidenceReferences_show commentedSite
      (formFeedRequest shortLimits)).1 bundle returned reference (references ▸ List.mem_cons_self)
      (provenance ▸ by decide)
    -- the file that is shown is the captured one
    obtain rfl : text = lit "#" ++ [LF] ++ lit "x = 1" ++ [LF] := by
      obtain ⟨bytes, raw, captured, decoded, rfl, -, -⟩ := shows'.file
      rw [path, content] at captured
      rw [← Option.some.inj captured, decodes] at decoded
      rw [← Option.some.inj decoded]
      decide +kernel
    have feeds : ((lit "#" ++ [LF] ++ lit "x = 1" ++ [LF]).dropLast.all fun c =>
        !isLineBoundary c || c == LF) = true := by decide +kernel
    refine ⟨bundle, reference, returned, references, locality, cut, shows', cites fun _ => ?_⟩
    intro c member boundary
    have plain := List.all_eq_true.mp feeds c member
    rw [boundary, Bool.not_true, Bool.false_or, beq_iff_eq] at plain
    exact plain

/-- The assignment is on the second line of the file, and its region names the third. -/
theorem formFeed_misplaced :
    ¬ ∀ (site : Site) (request : EvidenceRequest) (bundle : EvidenceBundle),
      discoverEvidence site request = .ok bundle → ∀ reference ∈ bundle.references,
        reference.provenance ≠ .reportedMeasurement → ∃ text,
          ShowsFile site reference text ∧ CitesItsSpan reference text := by
  intro promised
  have run : shownBy formFeedSite (formFeedRequest shortLimits) =
      some [(lit "src/a.py", ⟨lit "x = 1" ++ [LF], 3, 3⟩, .changedRegion, .supportingArtifact)] := by
    decide +kernel
  have content : formFeedSite.head.capture "src/a.py" = some (formFeedFile 0x31) := by decide +kernel
  have decodes : decodeUtf8 (formFeedFile 0x31) = some ([0x0C, LF] ++ lit "x = 1" ++ [LF]) := by
    decide +kernel
  obtain ⟨bundle, reference, returned, references, shown⟩ := references_of_shownBy run
  simp only [Prod.mk.injEq] at shown
  obtain ⟨path, cut, locality, provenance⟩ := shown
  obtain ⟨text, shows', cites⟩ := promised formFeedSite (formFeedRequest shortLimits) bundle returned
    reference (references ▸ List.mem_cons_self) (provenance ▸ by decide)
  obtain ⟨bytes, raw, captured, decoded', rfl, -, -⟩ := shows'.file
  rw [path, content] at captured
  rw [← Option.some.inj captured, decodes] at decoded'
  rw [CitesItsSpan, locality, ← Option.some.inj decoded', cut] at cites
  exact absurd cites.1.2.2.1 (by decide +kernel)

end ClaimCI.Review
