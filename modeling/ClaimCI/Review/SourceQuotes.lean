import ClaimCI.Review.ClaimCandidates
import ClaimCI.Python.Dictionary

/-!
# Source quotes

What a retained claim quotes: lines of the text that was issued for its source, which the limits of
the review may have cut.
-/

open Python

namespace ClaimCI.Review

/-! ### The issued texts -/

section Collecting

variable {host : Host} {tables : UnicodeTables} {repository : Repository}
  {prTitle prDescription : Str} {limits : Limits}

/-- The normalised text of a source before any limit is applied: a field of the pull request, or
the document at the path of the source. -/
inductive IsOriginal (repository : Repository) (prTitle prDescription : Str)
    (record : SourceRecord) : Str → Prop
  | title : record.kind = .pullRequestTitle →
      IsOriginal repository prTitle prDescription record (universalNewlines prTitle)
  | description : record.kind = .pullRequestDescription →
      IsOriginal repository prTitle prDescription record (universalNewlines prDescription)
  | document (path text : Str) : record.kind = .repositoryFile → path ∈ repository.paths →
      normalizePath .repositoryFile (some path) = .ok record.path.val →
      documentText repository path = .ok text →
      IsOriginal repository prTitle prDescription record text

theorem recordOf_ok {kind : SourceKind} {path : Option Str} {text : Str} {record : SourceRecord}
    (h : recordOf host kind path text = .ok record) :
    record.kind = kind ∧ normalizePath kind path = .ok record.path.val ∧ record.text = text := by
  obtain ⟨sourceId, _, h⟩ := bind_ok_iff.mp h
  split at h
  · cases h
  · obtain ⟨id, _, h⟩ := bind_ok_iff.mp h
    obtain ⟨normalized, located, h⟩ := bind_ok_iff.mp h
    split at h
    · obtain rfl := Except.ok.inj h
      refine ⟨rfl, ?_, rfl⟩
      unfold sourcePath at located
      split at located
      · cases located
      next found => rw [found, ← Except.ok.inj located]
    · cases h

/-- The original of a document is its text with normalised line ends. -/
theorem documentText_normalized {path text : Str} (h : documentText repository path = .ok text) :
    universalNewlines text = text := by
  unfold documentText at h
  split at h
  · cases h
  · rw [← Except.ok.inj h]
    exact universalNewlines_of_not_mem (not_mem_universalNewlines _)

/-- The text of an issued source is a beginning of its original. -/
def IsIssued (repository : Repository) (prTitle prDescription : Str) (record : SourceRecord) :
    Prop :=
  ∃ original budget, IsOriginal repository prTitle prDescription record original ∧
    universalNewlines original = original ∧ record.text = original.take budget

theorem fieldRecords_issued {kind : SourceKind} {value : Str} {remaining : Nat}
    {records : List SourceRecord} (h : fieldRecords host kind value remaining = .ok records) :
    ∀ record ∈ records, record.kind = kind ∧
      record.text = (universalNewlines value).take remaining := by
  unfold fieldRecords at h
  split at h
  · obtain rfl := Except.ok.inj h
    exact fun record member => absurd member List.not_mem_nil
  · obtain ⟨record, issued, h⟩ := bind_ok_iff.mp h
    obtain rfl := Except.ok.inj h
    intro other member
    obtain rfl := List.mem_singleton.mp member
    obtain ⟨sameKind, _, text⟩ := recordOf_ok issued
    exact ⟨sameKind, text⟩

theorem documentRecords_issued {paths : List Str} {selected remaining : Nat}
    {records : List SourceRecord} (listed : paths ⊆ repository.paths)
    (h : documentRecords host tables repository limits selected remaining paths = .ok records) :
    ∀ record ∈ records, IsIssued repository prTitle prDescription record := by
  induction paths generalizing selected remaining records with
  | nil =>
    obtain rfl := Except.ok.inj h
    exact fun record member => absurd member List.not_mem_nil
  | cons path paths ih =>
    obtain ⟨present, later⟩ := List.cons_subset.mp listed
    unfold documentRecords at h
    split at h
    · obtain rfl := Except.ok.inj h
      exact fun record member => absurd member List.not_mem_nil
    · split at h
      · exact ih later h
      · obtain ⟨text, read, h⟩ := bind_ok_iff.mp h
        obtain ⟨record, issued, h⟩ := bind_ok_iff.mp h
        obtain ⟨rest, collected, h⟩ := bind_ok_iff.mp h
        obtain rfl := Except.ok.inj h
        obtain ⟨kind, located, cut⟩ := recordOf_ok issued
        have first : IsIssued repository prTitle prDescription record :=
          ⟨text, _, .document path text kind present located read, documentText_normalized read,
            cut⟩
        exact List.forall_mem_cons.mpr ⟨first, ih later collected⟩

/-- Every source of a collected bundle is a beginning of its original. -/
theorem collectReviewSources_issued {bundle : SourceBundle}
    (h : collectReviewSources host tables repository prTitle prDescription limits = .ok bundle) :
    ∀ record ∈ bundle.sources, IsIssued repository prTitle prDescription record := by
  obtain ⟨title, titled, h⟩ := bind_ok_iff.mp h
  obtain ⟨description, described, h⟩ := bind_ok_iff.mp h
  obtain ⟨documents, documented, h⟩ := bind_ok_iff.mp h
  obtain rfl := Except.ok.inj h
  have normalized : ∀ value : Str, universalNewlines (universalNewlines value) =
      universalNewlines value :=
    fun value => universalNewlines_of_not_mem (not_mem_universalNewlines value)
  intro record member
  rcases List.mem_append.mp member with member | member
  · rcases List.mem_append.mp member with member | member
    · obtain ⟨kind, text⟩ := fieldRecords_issued titled record member
      exact ⟨_, _, .title kind, normalized prTitle, text⟩
    · obtain ⟨kind, text⟩ := fieldRecords_issued described record member
      exact ⟨_, _, .description kind, normalized prDescription, text⟩
  · exact documentRecords_issued (List.Subset.refl _) documented record member

end Collecting

/-! ### Locations that are recovered -/

/-- A candidate that is moved: where its quote was found, and what it becomes. -/
structure Moved (bundle : SourceBundle) (candidate : Json) (members source : Members)
    (sourceText sourceId : Str) (record : SourceRecord) (index : Nat) : Prop where
  object : candidate = .object members
  cited : lookupKey "source" members = some (.object source)
  quotes : lookupKey "source_text" members = some (.str sourceText)
  identified : lookupKey "source_id" source = some (.str sourceId)
  known : bundle.record sourceId = some record
  once : occurrences (linesOf record.text) (linesOf sourceText) = [index]
  becomes : recoverExactQuoteLocation bundle candidate = .object (setKey "source" (.object
    (setKey "end_line" (.int (index + (linesOf sourceText).length : Nat))
      (setKey "start_line" (.int (index + 1 : Nat)) source))) members)

theorem recover_cases (bundle : SourceBundle) (candidate : Json) :
    recoverExactQuoteLocation bundle candidate = candidate ∨
      ∃ members source sourceText sourceId record index,
        Moved bundle candidate members source sourceText sourceId record index := by
  generalize recovered : recoverExactQuoteLocation bundle candidate = result
  have given := recovered
  unfold recoverExactQuoteLocation at given
  split at given
  -- only a quote that stands at exactly one place moves the candidate
  next members =>
    split at given
    next source sourceText cited quotes =>
      split at given
      next sourceId identified =>
        split at given
        · exact .inl given.symm
        next record known =>
          split at given
          · exact .inl given.symm
          · split at given
            · exact .inl given.symm
            next quoteLines searchable =>
              split at given
              next index once =>
                have lines : quoteLines = linesOf sourceText := by
                  unfold searchableLines at searchable
                  split at searchable
                  · cases searchable
                  · exact (Option.some.inj searchable).symm
                rw [lines] at once given
                exact .inr ⟨members, source, sourceText, sourceId, record, index, rfl, cited,
                  quotes, identified, known, once, recovered.trans given.symm⟩
              · exact .inl given.symm
      · exact .inl given.symm
    · exact .inl given.symm
  · exact .inl given.symm

/-- What moving a candidate establishes: its quote occurs exactly once in the issued text, at the
location it is moved to. -/
theorem recover_moves {bundle : SourceBundle} {candidate : Json} {located : LocatedCandidate}
    (moved : recoverExactQuoteLocation bundle candidate ≠ candidate)
    (cites : CitesItsLines bundle (recoverExactQuoteLocation bundle candidate) located) :
    ∃ index : Nat, occurrences (linesOf located.record.text) (linesOf located.sourceText) = [index] ∧
      located.startLine.toNat = index + 1 ∧
      located.endLine.toNat = index + (linesOf located.sourceText).length := by
  obtain ⟨members, source, sourceText, sourceId, record, index, found⟩ :=
    (recover_cases bundle candidate).resolve_left moved
  have fields := Json.object.inj (found.becomes.symm.trans cites.object)
  obtain ⟨source', isSource, _, identified, starts, ends⟩ := cites.source
  -- the moved source has the new lines and everything else of the old one
  rw [← fields, item, lookupKey_setKey, if_pos rfl, Option.getD_some] at isSource
  obtain rfl := Json.object.inj isSource
  have text := cites.text
  rw [← fields, item, lookupKey_setKey, if_neg (by decide), found.quotes, Option.getD_some] at text
  rw [item, lookupKey_setKey, if_neg (by decide), lookupKey_setKey, if_neg (by decide),
    found.identified, Option.getD_some] at identified
  rw [item, lookupKey_setKey, if_neg (by decide), lookupKey_setKey, if_pos rfl,
    Option.getD_some] at starts
  rw [item, lookupKey_setKey, if_pos rfl, Option.getD_some] at ends
  have sameRecord := cites.record
  rw [← Json.str.inj identified, found.known] at sameRecord
  rw [← Option.some.inj sameRecord, ← Json.str.inj text, ← Json.int.inj starts,
    ← Json.int.inj ends]
  exact ⟨index, found.once, rfl, rfl⟩

/-! ### Retained claims -/

/-- A retained claim comes from a candidate that is validated on its own. -/
theorem retained_candidate {host : Host} {bundle : SourceBundle} {payload : Json} {maxClaims : Nat}
    {result : ClaimCandidateValidation}
    (h : validateClaimCandidatesBestEffort host payload bundle maxClaims = .ok result)
    {claim : ScientificClaim} (retained : claim ∈ result.claims) :
    ∃ candidates, responseCandidates host payload maxClaims = .ok candidates ∧
      ∃ candidate ∈ candidates, validateAlone host bundle candidate = .ok claim := by
  obtain ⟨candidates, listed, run⟩ := bind_ok_iff.mp h
  obtain ⟨other, again, kept, _⟩ :=
    bestEffortLoop_ok candidates ⟨[], []⟩ (bestEffortLoop_raises run)
  obtain rfl := Except.ok.inj (again.symm.trans run)
  rw [kept, List.nil_append] at retained
  obtain ⟨candidate, member, valid⟩ := List.mem_filterMap.mp (mem_of_mem_firstsFrom retained)
  refine ⟨candidates, listed, candidate, member, ?_⟩
  rw [validClaim] at valid
  cases validated : validateAlone host bundle candidate with
  | error fault =>
    rw [validated] at valid
    cases valid
  | ok found =>
    rw [validated] at valid
    rw [Option.some.inj valid]

theorem quote_ok {record : SourceRecord} {startLine endLine : Int} {text : Str}
    (h : quote record startLine endLine = .ok text) :
    endLine.toNat ≤ (linesOf record.text).length ∧
      text = joinLines (lineSpan (linesOf record.text) startLine.toNat endLine.toNat) := by
  unfold quote at h
  dsimp only at h
  split at h
  · cases h
  next inside =>
    refine ⟨?_, (Except.ok.inj h).symm⟩
    push Not at inside
    have bound := inside.2.2
    omega

/-- What a claim quotes: the complete lines it names of the issued text. They are the lines of the
original unless the text was cut and the last of them is its last one; then that line is a
beginning of the line of the original. -/
structure QuotesIssuedLines (issued original : Str) (claim : ScientificClaim) : Prop where
  inside : claim.source.endLine ≤ (split LF issued).length
  quoted : claim.sourceText.val =
    joinLines (lineSpan (split LF issued) claim.source.startLine claim.source.endLine)
  whole : issued = original ∨ claim.source.endLine < (split LF issued).length →
    claim.sourceText.val =
      joinLines (lineSpan (split LF original) claim.source.startLine claim.source.endLine)
  above : lineSpan (split LF issued) claim.source.startLine (claim.source.endLine - 1) =
    lineSpan (split LF original) claim.source.startLine (claim.source.endLine - 1)
  last : ∀ line, (split LF issued)[claim.source.endLine - 1]? = some line →
    ∃ full, (split LF original)[claim.source.endLine - 1]? = some full ∧ line <+: full

theorem quotesIssuedLines_of_cut {original : Str} {budget : Nat} {claim : ScientificClaim}
    (inside : claim.source.endLine ≤ (split LF (original.take budget)).length)
    (quoted : claim.sourceText.val = joinLines (lineSpan (split LF (original.take budget))
      claim.source.startLine claim.source.endLine)) :
    QuotesIssuedLines (original.take budget) original claim := by
  refine ⟨inside, quoted, ?_, ?_, fun line found => line_of_take found⟩
  · rintro (uncut | above)
    · rw [uncut] at quoted
      exact quoted
    · rw [quoted, lineSpan_take above]
  · apply lineSpan_take
    have := claim.source.span
    omega

/-- Every retained claim quotes complete lines of the text that was issued for its source, and a
candidate is moved only to the one place where its quote occurs in that text. -/
theorem retainedClaim_quotes {host : Host} {tables : UnicodeTables} {repository : Repository}
    {prTitle prDescription : Str} {limits : Limits} {payload : Json} {maxClaims : Nat}
    {bundle : SourceBundle} {result : ClaimCandidateValidation} {claim : ScientificClaim}
    (collected : collectReviewSources host tables repository prTitle prDescription limits =
      .ok bundle)
    (validated : validateClaimCandidatesBestEffort host payload bundle maxClaims = .ok result)
    (retained : claim ∈ result.claims) :
    ∃ candidates, responseCandidates host payload maxClaims = .ok candidates ∧
      ∃ candidate ∈ candidates, validateAlone host bundle candidate = .ok claim ∧
        ∃ record ∈ bundle.sources, record.sourceId.val = claim.source.sourceId.val ∧
          (∃ original budget, IsOriginal repository prTitle prDescription record original ∧
            record.text = original.take budget ∧ QuotesIssuedLines record.text original claim) ∧
          (recoverExactQuoteLocation bundle candidate ≠ candidate →
            occurrences (split LF record.text) (linesOf claim.sourceText.val) =
              [claim.source.startLine - 1]) := by
  obtain ⟨candidates, listed, candidate, member, alone⟩ := retained_candidate validated retained
  refine ⟨candidates, listed, candidate, member, alone, ?_⟩
  rw [validateAlone_eq] at alone
  obtain ⟨located, cites, belongs⟩ := validateCandidate_ok alone
  obtain ⟨present, identified⟩ := SourceBundle.record_some cites.record
  obtain ⟨original, budget, isOriginal, normalized, cut⟩ :=
    collectReviewSources_issued collected located.record present
  -- records hold no CR, so their lines end at line feeds
  have lines : linesOf located.record.text = split LF located.record.text := by
    rw [linesOf, cut, ← normalized, universalNewlines_take]
  obtain ⟨inside, quoted⟩ := quote_ok cites.quoted
  rw [lines, ← belongs.endLine] at inside
  rw [lines, ← belongs.startLine, ← belongs.endLine, ← belongs.sourceText] at quoted
  refine ⟨located.record, present, identified.trans belongs.sourceId.symm, ?_, ?_⟩
  · refine ⟨original, budget, isOriginal, cut, ?_⟩
    rw [cut] at inside quoted ⊢
    exact quotesIssuedLines_of_cut inside quoted
  · intro moved
    obtain ⟨index, once, starts, _⟩ := recover_moves moved cites
    rw [← lines, belongs.sourceText, belongs.startLine, starts]
    exact once

/-! ### A title that is cut inside a number -/

def noTables : UnicodeTables := ⟨id, fun _ => false⟩

def emptyRepository : Repository := ⟨[], [], fun _ => none, noneIssued⟩

/-- The default limits with a context of twenty characters. -/
def cutLimits : Limits := { Limits.default with
  maxContextChars := 20
  bounded := by decide }

/-- A candidate for the first line of the only issued source. -/
def titleCandidate (sourceText : Str) : Json := .object [
  ("source_text", .str sourceText), ("claim_type", .str "metric_improvement"),
  ("subject", .str "model"), ("metric", .str "accuracy"), ("direction", .str "higher"),
  ("claimed_magnitude", .null), ("qualifiers", .array []),
  ("source", .object [("source_id", .str "source-aaaaaaaaaaaaaaaa"), ("start_line", .int 1),
    ("end_line", .int 1)]),
  ("confidence", .int 1), ("evidence_hints", .array [])]

/-- What a review of a title keeps of one candidate. -/
def reviewedTitle (prTitle sourceText : Str) : Except Fault (List ScientificClaim) := do
  let bundle ← collectReviewSources sampleHost noTables emptyRepository prTitle [] cutLimits
  let result ← validateClaimCandidatesBestEffort sampleHost
    (response [titleCandidate sourceText]) bundle MAX_CLAIMS
  pure result.claims

theorem reviewedTitle_ok {prTitle sourceText : Str} {claims : List ScientificClaim}
    (h : reviewedTitle prTitle sourceText = .ok claims) :
    ∃ bundle result, collectReviewSources sampleHost noTables emptyRepository prTitle [] cutLimits =
      .ok bundle ∧ validateClaimCandidatesBestEffort sampleHost
        (response [titleCandidate sourceText]) bundle MAX_CLAIMS = .ok result ∧
      result.claims = claims := by
  obtain ⟨bundle, collected, h⟩ := bind_ok_iff.mp h
  obtain ⟨result, validated, h⟩ := bind_ok_iff.mp h
  exact ⟨bundle, result, collected, validated, Except.ok.inj h⟩

/-- One claim is kept of the title whose last digit the context limit cuts off. -/
theorem reviewedTitle_cut : ∃ claim, reviewedTitle "Accuracy reaches 0.95" "Accuracy reaches 0.9" =
    .ok [claim] ∧ claim.sourceText.val = lit "Accuracy reaches 0.9" := by
  have kept : ((reviewedTitle "Accuracy reaches 0.95" "Accuracy reaches 0.9").toOption.map
      fun claims => claims.map fun claim => claim.sourceText.val) =
        some [lit "Accuracy reaches 0.9"] := by decide +kernel
  cases reviewed : reviewedTitle "Accuracy reaches 0.95" "Accuracy reaches 0.9" with
  | error fault =>
    rw [reviewed] at kept
    cases kept
  | ok claims =>
    rw [reviewed] at kept
    obtain ⟨claim, only, text⟩ := List.map_eq_singleton_iff.mp (Option.some.inj kept)
    exact ⟨claim, by rw [only], text⟩

theorem retainedClaim_quotes_cut :
    ∃ bundle result claim, collectReviewSources sampleHost noTables emptyRepository
        "Accuracy reaches 0.95" [] cutLimits = .ok bundle ∧
      validateClaimCandidatesBestEffort sampleHost
        (response [titleCandidate "Accuracy reaches 0.9"]) bundle MAX_CLAIMS = .ok result ∧
      claim ∈ result.claims ∧ claim.sourceText.val = lit "Accuracy reaches 0.9" ∧
      ∃ record ∈ bundle.sources, ∃ original, QuotesIssuedLines record.text original claim := by
  obtain ⟨claim, reviewed, text⟩ := reviewedTitle_cut
  obtain ⟨bundle, result, collected, validated, claims⟩ := reviewedTitle_ok reviewed
  have retained : claim ∈ result.claims := by
    rw [claims]
    exact List.mem_singleton.mpr rfl
  obtain ⟨_, _, _, _, _, record, present, _, ⟨original, _, _, _, quotes⟩, _⟩ :=
    retainedClaim_quotes collected validated retained
  exact ⟨bundle, result, claim, collected, validated, retained, text, record, present, original,
    quotes⟩

/-- The claim that is kept of the cut title does not quote a complete line of the title. -/
theorem cutTitle_not_complete :
    ¬ ∀ (host : Host) (tables : UnicodeTables) (repository : Repository)
      (prTitle prDescription : Str) (limits : Limits) (payload : Json) (maxClaims : Nat)
      (bundle : SourceBundle) (result : ClaimCandidateValidation) (claim : ScientificClaim),
      collectReviewSources host tables repository prTitle prDescription limits = .ok bundle →
      validateClaimCandidatesBestEffort host payload bundle maxClaims = .ok result →
      claim ∈ result.claims →
        ∃ record ∈ bundle.sources, ∃ original,
          IsOriginal repository prTitle prDescription record original ∧
          claim.sourceText.val = joinLines
            (lineSpan (split LF original) claim.source.startLine claim.source.endLine) := by
  intro complete
  obtain ⟨claim, reviewed, text⟩ := reviewedTitle_cut
  obtain ⟨bundle, result, collected, validated, claims⟩ := reviewedTitle_ok reviewed
  obtain ⟨record, present, original, isOriginal, quoted⟩ :=
    complete _ _ _ _ _ _ _ _ bundle result claim collected validated (by simp [claims])
  have kinds : ((collectReviewSources sampleHost noTables emptyRepository "Accuracy reaches 0.95" []
      cutLimits).toOption.map fun bundle => bundle.sources.map SourceRecord.kind) =
        some [.pullRequestTitle] := by decide +kernel
  rw [collected] at kinds
  have kind : record.kind = .pullRequestTitle := by
    have single : bundle.sources.map SourceRecord.kind = [.pullRequestTitle] :=
      Option.some.inj kinds
    have listed : record.kind ∈ bundle.sources.map SourceRecord.kind := List.mem_map_of_mem present
    rw [single] at listed
    exact List.mem_singleton.mp listed
  -- the title has one line, which does not end after the first digit
  have single : split LF (universalNewlines "Accuracy reaches 0.95") =
      [lit "Accuracy reaches 0.95"] := by decide +kernel
  have whole : ∀ start stop, joinLines (lineSpan [lit "Accuracy reaches 0.95"] start stop) = [] ∨
      joinLines (lineSpan [lit "Accuracy reaches 0.95"] start stop) =
        lit "Accuracy reaches 0.95" := by
    intro start stop
    rw [lineSpan]
    cases stop with
    | zero => exact .inl (by rw [List.take_zero, List.drop_nil]; rfl)
    | succ stop =>
      rw [List.take_succ_cons, List.take_nil]
      cases start - 1 with
      | zero => exact .inr (by simp [joinLines, List.intercalate])
      | succ n => exact .inl (by rw [List.drop_succ_cons, List.drop_nil]; rfl)
  cases isOriginal with
  | title _ =>
    rw [single, text] at quoted
    rcases whole claim.source.startLine claim.source.endLine with empty | full
    · rw [empty] at quoted
      revert quoted
      decide
    · rw [full] at quoted
      revert quoted
      decide +kernel
  | description other =>
    rw [kind] at other
    cases other
  | document _ _ other =>
    rw [kind] at other
    cases other

end ClaimCI.Review
