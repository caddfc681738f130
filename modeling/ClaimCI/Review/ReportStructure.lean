import ClaimCI.ReportStructure
import ClaimCI.Review.EvidenceReferences
import ClaimCI.Review.Report

/-!
# Review report structure

No text of a review changes the lines of its report.
-/

open Python

namespace ClaimCI.Review

/-- A line that breaks nowhere and whose values are no more than text. -/
def Sound (line : MarkdownLine) : Prop := Level line ∧ LineInert line

theorem sound_nil : Sound [] := ⟨level_nil, lineInert_nil⟩

theorem sound_fixed {s : Str} (h : ∀ c ∈ s, IsPrintable c) (line : MarkdownLine) :
    Sound (.fixed s :: line) ↔ Sound line := by
  rw [Sound, Level, lineBreaks_cons, breaks_fixed h, Nat.zero_add, lineInert_fixed]
  rfl

theorem sound_word (s : String) (h : ((lit s).all fun c => decide (IsPrintable c)) = true)
    (line : MarkdownLine) : Sound (.fixed (lit s) :: line) ↔ Sound line :=
  sound_fixed (printable_of_all h) line

theorem sound_hole (value : Str) (line : MarkdownLine) : Sound (hole value :: line) ↔ Sound line := by
  have inert := review_inert value
  rw [Sound, Level, lineBreaks_cons, hole, breaks_hole, Nat.zero_add, lineInert_hole]
  exact ⟨fun h => ⟨h.1, h.2.2⟩, fun h => ⟨h.1, inert, h.2⟩⟩

theorem natText_printable (n : Nat) : ∀ c ∈ natText n, IsPrintable c := renderDigits_printable _

theorem yesNo_printable (b : Bool) : ∀ c ∈ yesNo b, IsPrintable c := by
  cases b <;> exact printable_of_all (by decide)

/-! ### The lines of the sections -/

theorem claimBlock_sound (claim : ScientificClaim) : ∀ line ∈ claimBlock claim, Sound line := by
  simp (disch := decide) only [claimBlock, List.forall_mem_cons, sound_word, sound_hole, sound_nil,
    List.not_mem_nil, false_implies, implies_true, and_true]

theorem interpretationBlock_sound (interpretation : ClaimInterpretation) :
    ∀ line ∈ interpretationBlock interpretation, Sound line := by
  simp (disch := decide) only [interpretationBlock, List.forall_mem_cons, sound_word, sound_hole,
    sound_nil, List.not_mem_nil, false_implies, implies_true, and_true]

theorem auditFinding_sound {finding : Json} {page : Page Escaping}
    (h : auditFinding finding = some page) : page.length = 2 ∧ ∀ line ∈ page, Sound line := by
  obtain ⟨evidence, _, h⟩ := Option.bind_eq_some_iff.mp h
  rw [← Option.some.inj h]
  refine ⟨rfl, ?_⟩
  simp (disch := decide) only [List.forall_mem_cons, sound_word, sound_hole, sound_nil,
    List.not_mem_nil, false_implies, implies_true, and_true]

theorem missingLine_sound (item : MissingEvidence) : Sound (missingLine item) := by
  have requested : Sound (requestedPart (item.requestedPath.getD [])) := by
    rw [requestedPart]
    split
    · exact sound_nil
    · simp (disch := decide) only [sound_word, sound_hole, sound_nil]
  simp (disch := decide) only [missingLine, sound_word, sound_hole, requested]

theorem noteLine_sound (claimId note : Str) : Sound (noteLine claimId note) := by
  simp (disch := decide) only [noteLine, sound_word, sound_hole, sound_nil]

theorem unsupportedLine_sound (claimId note : Str) : Sound (unsupportedLine claimId note) := by
  simp (disch := decide) only [unsupportedLine, sound_word, sound_hole, sound_nil]

theorem usageLine_sound (review : ResearchReview) : Sound (usageLine review) := by
  simp (disch := decide) only [usageLine, sound_word, sound_hole, sound_nil,
    sound_fixed (natText_printable _)]

theorem sound_append {line other : MarkdownLine} (h : Sound line) (h' : Sound other) :
    Sound (line ++ other) := by
  refine ⟨?_, ?_⟩
  · have breaks : lineBreaks (line ++ other) = lineBreaks line + lineBreaks other := by
      rw [lineBreaks, List.map_append, List.sum_append, lineBreaks, lineBreaks]
    rw [Level, breaks, h.1, h'.1]
  · intro escaping value member
    rcases List.mem_append.mp member with member | member
    · exact h.2 escaping value member
    · exact h'.2 escaping value member

/-- The claims of a reference, with commas between them. -/
theorem joined_sound (claimIds : List Str) :
    Sound ((claimIds.map hole).intersperse (.fixed (lit ", "))) := by
  induction claimIds with
  | nil => exact sound_nil
  | cons claimId claimIds ih =>
    cases claimIds with
    | nil => exact (sound_hole _ _).mpr sound_nil
    | cons next rest =>
      rw [List.map_cons, List.map_cons, List.intersperse_cons_cons, sound_hole, sound_word _ (by decide)]
      exact ih

theorem referenceLine_sound (reference : EvidenceReference) : Sound (referenceLine reference) := by
  have details : Sound (referenceDetails reference) := by
    simp (disch := decide) only [referenceDetails, sound_word, sound_hole, sound_nil,
      sound_fixed (natText_printable _), sound_fixed (yesNo_printable _)]
  simp (disch := decide) only [referenceLine, sound_word, sound_hole]
  exact sound_append (joined_sound _) details

theorem errorLines_sound (review : ResearchReview) : ∀ line ∈ errorLines review, Sound line := by
  rw [errorLines]
  split
  · exact List.forall_mem_nil _
  · simp (disch := decide) only [List.forall_mem_cons, sound_word, sound_hole, sound_nil,
      List.not_mem_nil, false_implies, implies_true, and_true]

theorem orElse_sound {lines : Page Escaping} {none : String}
    (h : ((lit none).all fun c => decide (IsPrintable c)) = true) (sound : ∀ line ∈ lines, Sound line) :
    ∀ line ∈ orElse lines none, Sound line := by
  rw [orElse]
  split
  · exact List.forall_mem_singleton.mpr ((sound_word none h _).mpr sound_nil)
  · exact sound

theorem orElse_length (lines : Page Escaping) (none : String) :
    (orElse lines none).length = max 1 lines.length := by
  rw [orElse]
  split
  next empty => rw [empty]; rfl
  next some =>
    have := List.length_pos_of_ne_nil some
    omega

/-! ### The sections -/

theorem auditFindings_sound {findings : List Json} {page : Page Escaping}
    (h : auditFindings findings = some page) :
    page.length = 2 * findings.length ∧ ∀ line ∈ page, Sound line := by
  induction findings generalizing page with
  | nil =>
    rw [← Option.some.inj h]
    exact ⟨rfl, List.forall_mem_nil _⟩
  | cons finding findings ih =>
    obtain ⟨first, here, h⟩ := Option.bind_eq_some_iff.mp h
    obtain ⟨rest, later, h⟩ := Option.bind_eq_some_iff.mp h
    obtain ⟨two, sound⟩ := auditFinding_sound here
    obtain ⟨others, sounds⟩ := ih later
    rw [← Option.some.inj h, List.length_append, two, others, List.length_cons]
    exact ⟨by omega, List.forall_mem_append.mpr ⟨sound, sounds⟩⟩

/-- How many lines an audit takes. -/
def auditSize (audit : AuditSnapshot) : Nat := 1 + max 1 (2 * audit.findings.length)

theorem auditBlocks_sound {audits : List AuditSnapshot} {page : Page Escaping}
    (h : auditBlocks audits = some page) :
    page.length = (audits.map auditSize).sum ∧ ∀ line ∈ page, Sound line := by
  induction audits generalizing page with
  | nil =>
    rw [← Option.some.inj h]
    exact ⟨rfl, List.forall_mem_nil _⟩
  | cons audit audits ih =>
    obtain ⟨first, here, h⟩ := Option.bind_eq_some_iff.mp h
    obtain ⟨rest, later, h⟩ := Option.bind_eq_some_iff.mp h
    obtain ⟨findings, written, here⟩ := Option.bind_eq_some_iff.mp here
    obtain ⟨size, sound⟩ := auditFindings_sound written
    obtain ⟨others, sounds⟩ := ih later
    rw [← Option.some.inj h, ← Option.some.inj here, List.length_append, others, List.length_cons,
      orElse_length, size, List.map_cons, List.sum_cons, auditSize]
    refine ⟨by omega, List.forall_mem_append.mpr ⟨List.forall_mem_cons.mpr ⟨?_, ?_⟩, sounds⟩⟩
    · simp (disch := decide) only [sound_word, sound_hole, sound_nil]
    · exact orElse_sound (by decide) sound

/-- Sorting does not change a sum. -/
theorem sum_sortBy {α : Type} (key : α → Str) (size : α → Nat) (items : List α) :
    ((sortBy key items).map size).sum = (items.map size).sum :=
  ((sortBy_perm_self key items).map size).sum_eq

/-- The lines of a report depend on how many claims, findings and other items a review has. -/
def reviewSize (review : ResearchReview) : Nat :=
  8 + max 1 (8 * review.claims.length) + 2 +
    max 1 (review.deterministicAudits.map auditSize).sum + 3 +
    max 1 (2 * review.interpretations.length) + 5 +
    max 1 (review.evidence.missing.length +
      (review.interpretations.map fun i => i.missingEvidence.length).sum) + 3 +
    max 1 (review.interpretations.map fun i => i.unsupportedInferences.length).sum + 5 +
    review.evidence.references.length + 1 +
    if review.errorMessage.getD [] = [] then 0 else 2

theorem length_flatMap_sortBy {α : Type} (key : α → Str) (block : α → Page Escaping) (items : List α) :
    ((sortBy key items).flatMap block).length = (items.map fun item => (block item).length).sum := by
  rw [List.length_flatMap]
  exact sum_sortBy key (fun item => (block item).length) items

theorem forall_mem_flatMap {α : Type} {items : List α} {block : α → Page Escaping}
    (sound : ∀ item, ∀ line ∈ block item, Sound line) :
    ∀ line ∈ items.flatMap block, Sound line := by
  intro line member
  obtain ⟨item, _, inside⟩ := List.mem_flatMap.mp member
  exact sound item line inside

theorem forall_mem_map {α : Type} {items : List α} {line : α → MarkdownLine}
    (sound : ∀ item, Sound (line item)) : ∀ other ∈ items.map line, Sound other := by
  intro other member
  obtain ⟨item, _, rfl⟩ := List.mem_map.mp member
  exact sound item

theorem claimLines_sound (review : ResearchReview) :
    (claimLines review).length = max 1 (8 * review.claims.length) ∧
      ∀ line ∈ claimLines review, Sound line := by
  have eight : (review.claims.map fun claim => (claimBlock claim).length).sum =
      8 * review.claims.length := by
    simp [claimBlock, mul_comm]
  refine ⟨?_, orElse_sound (by decide) (forall_mem_flatMap claimBlock_sound)⟩
  rw [claimLines, orElse_length, length_flatMap_sortBy, eight]

theorem interpretationLines_sound (review : ResearchReview) :
    (interpretationLines review).length = max 1 (2 * review.interpretations.length) ∧
      ∀ line ∈ interpretationLines review, Sound line := by
  have two : (review.interpretations.map fun i => (interpretationBlock i).length).sum =
      2 * review.interpretations.length := by
    simp [interpretationBlock, mul_comm]
  refine ⟨?_, orElse_sound (by decide) (forall_mem_flatMap interpretationBlock_sound)⟩
  rw [interpretationLines, orElse_length, interpretationsInOrder, length_flatMap_sortBy, two]

theorem missingLines_sound (review : ResearchReview) :
    (missingLines review).length = max 1 (review.evidence.missing.length +
        (review.interpretations.map fun i => i.missingEvidence.length).sum) ∧
      ∀ line ∈ missingLines review, Sound line := by
  constructor
  · rw [missingLines, orElse_length, List.length_append, List.length_map,
      (List.perm_insertionSort _ _).length_eq, interpretationsInOrder, length_flatMap_sortBy]
    simp only [List.length_map]
  · apply orElse_sound (by decide)
    exact List.forall_mem_append.mpr ⟨forall_mem_map missingLine_sound,
      forall_mem_flatMap fun i => forall_mem_map (noteLine_sound i.claimId)⟩

theorem unsupportedLines_sound (review : ResearchReview) :
    (unsupportedLines review).length =
        max 1 (review.interpretations.map fun i => i.unsupportedInferences.length).sum ∧
      ∀ line ∈ unsupportedLines review, Sound line := by
  constructor
  · rw [unsupportedLines, orElse_length, interpretationsInOrder, length_flatMap_sortBy]
    simp only [List.length_map]
  · apply orElse_sound (by decide)
    exact forall_mem_flatMap fun i => forall_mem_map (unsupportedLine_sound i.claimId)

theorem errorLines_length (review : ResearchReview) :
    (errorLines review).length = if review.errorMessage.getD [] = [] then 0 else 2 := by
  rw [errorLines]
  split <;> rfl

theorem headings_sound (review : ResearchReview) :
    (∀ line ∈ reviewHeading review, Sound line) ∧ (∀ line ∈ missingHeading, Sound line) ∧
      ∀ line ∈ usageHeading review, Sound line := by
  simp (disch := decide) only [reviewHeading, missingHeading, usageHeading, List.forall_mem_cons,
    sound_word, sound_hole, sound_nil, sound_fixed (natText_printable _),
    sound_fixed (yesNo_printable _), List.not_mem_nil, false_implies, implies_true, and_true]

theorem sectionHeading_sound (title : String)
    (h : ((lit title).all fun c => decide (IsPrintable c)) = true) :
    ∀ line ∈ sectionHeading title, Sound line := by
  simp only [sectionHeading, List.forall_mem_cons, sound_word title h, sound_nil,
    List.not_mem_nil, false_implies, implies_true, and_true]

theorem reviewPage_sound {review : ResearchReview} {page : Page Escaping}
    (h : reviewPage review = some page) :
    page.length = reviewSize review ∧ ∀ line ∈ page, Sound line := by
  obtain ⟨deterministic, audited, h⟩ := Option.bind_eq_some_iff.mp h
  obtain ⟨audits, written, rfl⟩ := Option.map_eq_some_iff.mp audited
  obtain ⟨auditsLength, auditsSound⟩ := auditBlocks_sound written
  rw [sum_sortBy] at auditsLength
  obtain ⟨claims, claimsSound⟩ := claimLines_sound review
  obtain ⟨interpretations, interpretationsSound⟩ := interpretationLines_sound review
  obtain ⟨missing, missingSound⟩ := missingLines_sound review
  obtain ⟨unsupported, unsupportedSound⟩ := unsupportedLines_sound review
  obtain ⟨start, missingStart, usageStart⟩ := headings_sound review
  have references : ((sortBy EvidenceReference.evidenceId review.evidence.references).map
      referenceLine).length = review.evidence.references.length := by
    rw [List.length_map, (sortBy_perm_self _ _).length_eq]
  rw [← Option.some.inj h]
  constructor
  · simp only [List.length_append, List.length_cons, claims, orElse_length, auditsLength,
      interpretations, missing, unsupported, references, errorLines_length, reviewHeading,
      missingHeading, usageHeading, sectionHeading, List.length_nil, reviewSize]
    omega
  · simp (disch := decide) only [List.forall_mem_append, List.forall_mem_cons, sound_word, sound_nil]
    exact ⟨⟨start, claimsSound⟩, trivial, trivial, ⟨⟨⟨⟨⟨⟨⟨⟨⟨orElse_sound (by decide) auditsSound,
      sectionHeading_sound _ (by decide)⟩, interpretationsSound⟩, missingStart⟩, missingSound⟩,
      sectionHeading_sound _ (by decide)⟩, unsupportedSound⟩, usageStart⟩,
      forall_mem_map referenceLine_sound⟩, usageLine_sound review, List.forall_mem_nil _⟩,
      errorLines_sound review⟩

/-! ### Reports with other texts -/

/-- Two reviews with lists of the same lengths, which both have a note or both have none. -/
structure SameShape (review other : ResearchReview) : Prop where
  claims : review.claims.length = other.claims.length
  audits : review.deterministicAudits.map (fun audit => audit.findings.length) =
    other.deterministicAudits.map fun audit => audit.findings.length
  interpretations : review.interpretations.map (fun i =>
      (i.missingEvidence.length, i.unsupportedInferences.length)) =
    other.interpretations.map fun i => (i.missingEvidence.length, i.unsupportedInferences.length)
  missing : review.evidence.missing.length = other.evidence.missing.length
  references : review.evidence.references.length = other.evidence.references.length
  noted : review.errorMessage.getD [] = [] ↔ other.errorMessage.getD [] = []

theorem reviewSize_congr {review other : ResearchReview} (same : SameShape review other) :
    reviewSize review = reviewSize other := by
  have audits : (review.deterministicAudits.map auditSize).sum =
      (other.deterministicAudits.map auditSize).sum := by
    have sizes := congrArg (List.map fun n => 1 + max 1 (2 * n)) same.audits
    rw [List.map_map, List.map_map] at sizes
    exact congrArg List.sum sizes
  have count : review.interpretations.length = other.interpretations.length := by
    simpa using congrArg List.length same.interpretations
  have notes := congrArg (List.map Prod.fst) same.interpretations
  have inferences := congrArg (List.map Prod.snd) same.interpretations
  rw [List.map_map, List.map_map] at notes inferences
  have notes : (review.interpretations.map fun i => i.missingEvidence.length).sum =
      (other.interpretations.map fun i => i.missingEvidence.length).sum := congrArg List.sum notes
  have inferences : (review.interpretations.map fun i => i.unsupportedInferences.length).sum =
      (other.interpretations.map fun i => i.unsupportedInferences.length).sum :=
    congrArg List.sum inferences
  simp only [reviewSize, same.claims, audits, count, notes, inferences, same.missing,
    same.references, same.noted]

theorem lineCount_closed (text : Str) : lineCount (text ++ [LF]) = lineCount text + 1 := by
  rw [lineCount_eq, lineCount_eq, List.count_append]
  rfl

/-- Texts of a review never disturb its report. -/
theorem review_undisturbed {review other : ResearchReview} {page otherPage : Page Escaping}
    (same : SameShape review other) (h : reviewPage review = some page)
    (h' : reviewPage other = some otherPage) :
    Undisturbed (pageText escape page ++ [LF]) (pageText escape otherPage ++ [LF]) page otherPage := by
  have lines {review : ResearchReview} {page : Page Escaping} (h : reviewPage review = some page) :
      lineCount (pageText escape page ++ [LF]) = reviewSize review + 1 ∧
        ∀ line ∈ page, LineInert line := by
    obtain ⟨size, sound⟩ := reviewPage_sound h
    have nonempty : page ≠ [] := by
      rintro rfl
      rw [reviewSize] at size
      simp only [List.length_nil] at size
      omega
    have level : (page.map lineBreaks).sum = 0 :=
      List.sum_eq_zero fun n member => by
        obtain ⟨line, inside, rfl⟩ := List.mem_map.mp member
        exact (sound line inside).1
    refine ⟨?_, fun line member => (sound line member).2⟩
    rw [lineCount_closed, lineCount_pageText nonempty, level, size, Nat.add_zero]
    rintro escaping value ⟨line, member, inside⟩
    exact ((sound line member).2 escaping value inside).oneLine.2
  obtain ⟨here, inert⟩ := lines h
  obtain ⟨there, inert'⟩ := lines h'
  refine ⟨?_, inert, inert'⟩
  rw [here, there, reviewSize_congr same]

/-- Two audit reports with the same identifiers and enumerated values keep their structure exactly if
no metric name has a line break; and two review reports with lists of the same lengths always do. -/
theorem markdown_structure (casefold : Str → Str) (containerText : Json → Str) :
    (∀ (result other : AuditResult) (page otherPage : Page Escaping) (text otherText : Str),
      result.findings.map Finding.label = other.findings.map Finding.label →
        markdownPage casefold containerText result = some page →
          markdownPage casefold containerText other = some otherPage →
            renderMarkdown casefold containerText result = some text →
              renderMarkdown casefold containerText other = some otherText →
                (Undisturbed text otherText page otherPage ↔
                  OneLine result.metric ∧ OneLine other.metric)) ∧
      ∀ (review other : ResearchReview) (page otherPage : Page Escaping) (text otherText : Str),
        SameShape review other → reviewPage review = some page → reviewPage other = some otherPage →
          renderReviewMarkdown review = some text → renderReviewMarkdown other = some otherText →
            Undisturbed text otherText page otherPage := by
  constructor
  · intro result other page otherPage text otherText same h h' rendered rendered'
    rw [renderMarkdown_eq casefold containerText h rendered,
      renderMarkdown_eq casefold containerText h' rendered']
    exact undisturbed_iff casefold containerText same h h'
  · intro review other page otherPage text otherText same h h' rendered rendered'
    rw [renderReviewMarkdown, h] at rendered
    rw [renderReviewMarkdown, h'] at rendered'
    rw [← Option.some.inj rendered, ← Option.some.inj rendered']
    exact review_undisturbed same h h'

/-- An audit without findings. -/
def bareResult (metric : Str) : AuditResult :=
  ⟨.insufficientEvidence, [], "research.yaml", metric, Binary64.zero false, none, none, none, none, [],
    .higher⟩

/-- An audit that fails for one reason and notes another, in words of an artifact. -/
def notedResult (metric words : Str) : AuditResult := { bareResult metric with
  verdict := .notSupported
  findings := [
    ⟨"DATA001", .critical, words, words, [(lit "path", .str words), (lit "rows", .list [.int 2])],
      .invalidates⟩,
    ⟨"CFG000", .verified, "Config", words, [(words, .none)], .none⟩] }

/-- A review of one claim with an audit, an interpretation and missing evidence. -/
def notedReview (subject : NonemptyText 1024) (words : Str) : ResearchReview where
  status := .complete
  claims := [{ sampleClaim with subject := subject }]
  interpretations := [⟨"source-1", words, [words], [words, "none"], [words], Binary64.zero false⟩]
  evidence := ⟨[], [⟨"source-1", words, some words, []⟩], 0, false⟩
  deterministicAudits := [⟨⟨"NOT_SUPPORTED", words, Binary64.zero false, "higher",
    [.object [(lit "rule_id", .str (lit "DATA001")), (lit "title", .str words),
      (lit "evidence", .object [(lit "path", .str words)])]]⟩, "research.yaml"⟩]
  providerCalls := []
  usage := ProviderUsage.unknown
  errorCode := none
  errorMessage := some words

theorem markupSubject_text : strip (lit "# up |\n") ≠ [] ∧ (lit "# up |\n").length ≤ 1024 := by decide

theorem markdown_structure_noted :
    (∃ page otherPage text otherText,
      renderMarkdown id (fun _ => []) (notedResult "loss" "slow") = some text ∧
        renderMarkdown id (fun _ => []) (notedResult "accuracy | _x_" "a\n</details>") =
          some otherText ∧ Undisturbed text otherText page otherPage) ∧
      ∃ page otherPage text otherText,
        renderReviewMarkdown (notedReview sampleClaim.subject "slow") = some text ∧
          renderReviewMarkdown (notedReview ⟨"# up |\n", markupSubject_text⟩ "down\n### Claims") =
            some otherText ∧ Undisturbed text otherText page otherPage := by
  constructor
  -- both results render, and the second finding changes no line of structure
  · obtain ⟨page, written⟩ := Option.isSome_iff_exists.mp (by decide +kernel :
      (markdownPage id (fun _ => []) (notedResult "loss" "slow")).isSome)
    obtain ⟨otherPage, otherWritten⟩ := Option.isSome_iff_exists.mp (by decide +kernel :
      (markdownPage id (fun _ => []) (notedResult "accuracy | _x_" "a\n</details>")).isSome)
    have rendered := congrArg (Option.map (pageText escape)) written
    have otherRendered := congrArg (Option.map (pageText escape)) otherWritten
    refine ⟨page, otherPage, _, _, rendered, otherRendered,
      ((markdown_structure id fun _ => []).1 (notedResult "loss" "slow")
        (notedResult "accuracy | _x_" "a\n</details>") page otherPage _ _ rfl written otherWritten
        rendered otherRendered).mpr ?_⟩
    unfold OneLine
    decide +kernel
  -- the same for the review, with its claims and interpretations
  · obtain ⟨page, written⟩ := Option.isSome_iff_exists.mp (by decide +kernel :
      (reviewPage (notedReview sampleClaim.subject "slow")).isSome)
    obtain ⟨otherPage, otherWritten⟩ := Option.isSome_iff_exists.mp (by decide +kernel :
      (reviewPage (notedReview ⟨"# up |\n", markupSubject_text⟩ "down\n### Claims")).isSome)
    have rendered : renderReviewMarkdown _ = _ :=
      congrArg (Option.map fun page => pageText escape page ++ [LF]) written
    have otherRendered : renderReviewMarkdown _ = _ :=
      congrArg (Option.map fun page => pageText escape page ++ [LF]) otherWritten
    exact ⟨page, otherPage, _, _, rendered, otherRendered,
      (markdown_structure id fun _ => []).2 (notedReview sampleClaim.subject "slow")
        (notedReview ⟨"# up |\n", markupSubject_text⟩ "down\n### Claims") page otherPage _ _
        ⟨rfl, rfl, rfl, rfl, rfl, by decide +kernel⟩ written otherWritten rendered otherRendered⟩

/-- A metric name with a line break adds a line to an audit report. -/
theorem markdown_injected :
    ¬ ∀ (casefold : Str → Str) (containerText : Json → Str) (result other : AuditResult)
      (text otherText : Str), result.findings.map Finding.label = other.findings.map Finding.label →
        renderMarkdown casefold containerText result = some text →
          renderMarkdown casefold containerText other = some otherText →
            lineCount text = lineCount otherText := by
  intro stable
  have same := stable id (fun _ => []) (bareResult "loss") (bareResult "loss\n### PASS") _ _ rfl rfl rfl
  exact absurd same (by decide +kernel)

end ClaimCI.Review
