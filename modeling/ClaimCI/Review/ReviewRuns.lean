import ClaimCI.Review.FileBudget

/-!
# Runs of a review

What a review returns, whatever its provider does: how many calls it makes, what a complete review
holds, and how two synthesis outputs after the same extraction compare.
-/

open Python

namespace ClaimCI.Review

/-! ### What the parser of a synthesis raises -/

theorem stringTuple_review {label : Str} {value : Json} :
    Raises Fault.IsReview (stringTuple label value) := by
  unfold stringTuple
  split
  · split
    · exact reviewError_review
    · split
      · exact reviewError_review
      · split
        · exact reviewError_review
        · exact raises_ok
  · exact reviewError_review

theorem rowFields_review {row : Json} : Raises Fault.IsReview (rowFields row) := by
  unfold rowFields
  split
  · split
    · exact raises_ok
    · exact reviewError_review
  · exact reviewError_review

theorem rowClaim_review {context : SynthesisContext} {seen : List Str} {value : Json} :
    Raises Fault.IsReview (rowClaim context seen value) := by
  unfold rowClaim
  split
  · split
    · exact raises_ok
    · exact reviewError_review
  · exact reviewError_review

theorem rowText_review {value : Json} : Raises Fault.IsReview (rowText value) := by
  unfold rowText
  split
  · split
    · exact reviewError_review
    · split
      · exact reviewError_review
      · exact raises_ok
  · exact reviewError_review

/-- The checks before the confidence of a row raise nothing else. -/
theorem rowHead_review {context : SynthesisContext} {seen : List Str} {row : Json} :
    Raises Fault.IsReview (rowHead context seen row) := by
  apply raises_bind.mpr ⟨rowFields_review, fun _ _ => ?_⟩
  apply raises_bind.mpr ⟨rowClaim_review, fun _ _ => ?_⟩
  apply raises_bind.mpr ⟨rowText_review, fun _ _ => ?_⟩
  apply raises_bind.mpr ⟨stringTuple_review, fun _ _ => ?_⟩
  apply raises_bind.mpr ⟨rejectWhen_review, fun _ _ => ?_⟩
  exact raises_bind.mpr ⟨rejectWhen_review, fun _ _ => raises_ok⟩

theorem rowConfidence_review_iff {value : Json} :
    Raises Fault.IsReview (rowConfidence value) ↔ ConvertsToFloat value := by
  rw [← finiteFloat_review_iff, rowConfidence, raises_bind]
  refine ⟨fun h => h.1, fun h => ⟨h, fun found _ => ?_⟩⟩
  cases found with
  | none => exact reviewError_review
  | some x =>
    dsimp only
    split
    · exact raises_ok
    · exact reviewError_review

/-- Only the conversion of the confidence raises another exception. -/
theorem rowTail_review_iff {head : Members × Str × Str × List Str} :
    Raises Fault.IsReview (rowTail head) ↔ ConvertsToFloat (item "confidence" head.1) := by
  rw [← rowConfidence_review_iff, rowTail, raises_bind]
  refine ⟨fun h => h.1, fun h => ⟨h, fun _ _ => ?_⟩⟩
  apply raises_bind.mpr ⟨stringTuple_review, fun _ _ => ?_⟩
  exact raises_bind.mpr ⟨stringTuple_review, fun _ _ => raises_ok⟩

theorem parseRow_review_iff {context : SynthesisContext} {parsed : List ClaimInterpretation}
    {row : Json} : Raises Fault.IsReview (parseRow context parsed row) ↔
      ∀ head, rowHead context (parsed.map (·.claimId)) row = .ok head →
        ConvertsToFloat (item "confidence" head.1) := by
  rw [parseRow, raises_bind]
  constructor
  · intro h head read
    exact rowTail_review_iff.mp (raises_bind.mp (h.2 head read)).1
  · intro h
    refine ⟨rowHead_review, fun head read => ?_⟩
    exact raises_bind.mpr ⟨rowTail_review_iff.mpr (h head read), fun _ _ => raises_ok⟩

/-- No row that the parser reaches has an integer as its confidence that is too large for a float. -/
def RowsConvert (context : SynthesisContext) (parsed : List ClaimInterpretation)
    (rows : List Json) : Prop :=
  ∀ before row after, rows = before ++ row :: after → ∀ earlier,
    before.foldlM (parseRow context) parsed = .ok earlier → ∀ head,
      rowHead context (earlier.map (·.claimId)) row = .ok head →
        ConvertsToFloat (item "confidence" head.1)

theorem rowsConvert_cons {context : SynthesisContext} {parsed : List ClaimInterpretation}
    {row : Json} {rows : List Json} :
    RowsConvert context parsed (row :: rows) ↔
      Raises Fault.IsReview (parseRow context parsed row) ∧
        ∀ next, parseRow context parsed row = .ok next → RowsConvert context next rows := by
  constructor
  · intro convert
    refine ⟨parseRow_review_iff.mpr (convert [] row rows rfl parsed rfl), ?_⟩
    intro next first before other after cut earlier read
    apply convert (row :: before) other after (by rw [cut, List.cons_append])
    rw [List.foldlM_cons, first]
    exact read
  -- the first row is read before any other, the rest start from what it gives
  · rintro ⟨first, later⟩ before other after cut earlier read
    cases before with
    | nil =>
      obtain ⟨rfl, rfl⟩ := List.cons.inj cut
      obtain rfl := Except.ok.inj read
      exact parseRow_review_iff.mp first
    | cons head before =>
      obtain ⟨rfl, rfl⟩ := List.cons.inj cut
      rw [List.foldlM_cons] at read
      obtain ⟨next, parsed', read⟩ := bind_ok_iff.mp read
      exact later next parsed' before other after rfl earlier read

theorem parseRows_review_iff {context : SynthesisContext} {parsed : List ClaimInterpretation}
    {rows : List Json} :
    Raises Fault.IsReview (rows.foldlM (parseRow context) parsed) ↔
      RowsConvert context parsed rows := by
  induction rows generalizing parsed with
  | nil =>
    refine ⟨fun _ before row after cut => ?_, fun _ => raises_ok⟩
    cases before <;> cases cut
  | cons row rows ih =>
    rw [List.foldlM_cons, raises_bind, rowsConvert_cons]
    exact and_congr_right fun _ => forall_congr' fun next => forall_congr' fun _ => ih

theorem synthesisRows_review {context : SynthesisContext} {value : Json} :
    Raises Fault.IsReview (synthesisRows context value) := by
  unfold synthesisRows
  split
  · split
    · split
      · split
        · exact reviewError_review
        · exact raises_ok
      · exact reviewError_review
    · exact reviewError_review
  · exact reviewError_review

theorem parseJson_review {lookup : Lookup} {text : Str} :
    Raises Fault.IsReview (parseJson lookup text) := by
  unfold parseJson
  split
  · exact reviewError_review
  · split
    · exact raises_ok
    · exact reviewError_review

/-- No interpretation that a synthesis output brings before the parser has a confidence that is an
integer too large for a float. -/
def ConfidencesConvert (review : ReviewSite) (routed : Routed) (output : Str) : Prop :=
  ∀ value, parseJson review.site.lookup output = .ok value →
    ∀ rows, synthesisRows (routed.context review) value = .ok rows →
      RowsConvert (routed.context review) [] rows

/-- Only such a confidence is not an invalid synthesis. -/
theorem synthesisOf_review_iff {review : ReviewSite} {routed : Routed} {output : Str} :
    Raises Fault.IsReview (synthesisOf review routed output) ↔
      ConfidencesConvert review routed output := by
  rw [synthesisOf, raises_bind]
  constructor
  · intro h value decoded rows listed
    exact parseRows_review_iff.mp (raises_bind.mp ((raises_bind.mp (h.2 value decoded)).2 rows listed)).1
  · intro convert
    refine ⟨parseJson_review, fun value decoded => ?_⟩
    refine raises_bind.mpr ⟨synthesisRows_review, fun rows listed => ?_⟩
    refine raises_bind.mpr ⟨parseRows_review_iff.mpr (convert value decoded rows listed), ?_⟩
    exact fun _ _ => raises_bind.mpr ⟨rejectWhen_review, fun _ _ => raises_ok⟩

/-! ### Accepted interpretations -/

/-- An interpretation is about an issued claim, cites citable references that this claim owns, and
says what the deterministic constraints of the claim require. -/
structure KeepsToEvidence (context : SynthesisContext) (interpretation : ClaimInterpretation) :
    Prop where
  claim : ∃ claim ∈ context.claims, claim.claimId.val = interpretation.claimId
  cites : ∀ citation ∈ interpretation.citations, ∃ reference ∈ context.evidence.references,
    reference.evidenceId = citation ∧ reference.isCitable = true ∧
      interpretation.claimId ∈ reference.claimIds
  obeys : ∀ constraint, lookupKey interpretation.claimId context.constraints = some constraint →
    interpretation.interpretation = constraint.requiredInterpretation ∧
      interpretation.citations = constraint.requiredCitations

theorem evidenceClaims_some {context : SynthesisContext} {evidenceId : Str} {owners : List Str}
    (h : context.evidenceClaims evidenceId = some owners) :
    ∃ reference ∈ context.evidence.references, reference.evidenceId = evidenceId ∧
      reference.isCitable = true ∧ reference.claimIds = owners := by
  obtain ⟨reference, found, rfl⟩ := Option.map_eq_some_iff.mp h
  obtain ⟨listed, citable⟩ := List.mem_filter.mp
    (List.mem_reverse.mp (List.mem_of_find?_eq_some found))
  exact ⟨reference, listed, by simpa using List.find?_some found, citable, rfl⟩

theorem rowClaim_ok {context : SynthesisContext} {seen : List Str} {value : Json} {claimId : Str}
    (h : rowClaim context seen value = .ok claimId) :
    (∃ claim ∈ context.claims, claim.claimId.val = claimId) ∧ claimId ∉ seen := by
  unfold rowClaim at h
  split at h
  · split at h
    next known =>
      rw [← Except.ok.inj h]
      simpa using known
    · cases h
  · cases h

/-- One round adds an interpretation of a claim that has none yet. -/
theorem parseRow_ok {context : SynthesisContext} {parsed next : List ClaimInterpretation}
    {row : Json} (h : parseRow context parsed row = .ok next) :
    ∃ interpretation, next = parsed ++ [interpretation] ∧
      KeepsToEvidence context interpretation ∧
      interpretation.claimId ∉ parsed.map (·.claimId) := by
  obtain ⟨head, read, h⟩ := bind_ok_iff.mp h
  obtain ⟨interpretation, tail, h⟩ := bind_ok_iff.mp h
  obtain rfl := Except.ok.inj h
  obtain ⟨fields, -, read⟩ := bind_ok_iff.mp read
  obtain ⟨claimId, issued, read⟩ := bind_ok_iff.mp read
  obtain ⟨text, -, read⟩ := bind_ok_iff.mp read
  obtain ⟨citations, -, read⟩ := bind_ok_iff.mp read
  obtain ⟨⟨⟩, cited, read⟩ := bind_ok_iff.mp read
  obtain ⟨⟨⟩, constrained, read⟩ := bind_ok_iff.mp read
  obtain rfl := Except.ok.inj read
  obtain ⟨confidence, -, tail⟩ := bind_ok_iff.mp tail
  obtain ⟨missingEvidence, -, tail⟩ := bind_ok_iff.mp tail
  obtain ⟨unsupportedInferences, -, tail⟩ := bind_ok_iff.mp tail
  obtain rfl := Except.ok.inj tail
  obtain ⟨known, fresh⟩ := rowClaim_ok issued
  refine ⟨_, rfl, ⟨known, fun citation member => ?_, fun constraint there => ?_⟩, fresh⟩
  -- every citation belongs to the claim of the row
  · have owned := List.any_eq_false.mp (rejectWhen_ok_iff.mp cited) citation member
    cases owners : context.evidenceClaims citation with
    | none => simp [owners] at owned
    | some claims =>
      obtain ⟨reference, listed, same, citable, rfl⟩ := evidenceClaims_some owners
      exact ⟨reference, listed, same, citable, by simpa [owners] using owned⟩
  · have required := rejectWhen_ok_iff.mp constrained
    rw [there] at required
    simpa using required

/-- All rounds keep the claims distinct and the interpretations accepted. -/
theorem parseRows_ok {context : SynthesisContext} {rows : List Json}
    {start parsed : List ClaimInterpretation}
    (h : rows.foldlM (parseRow context) start = .ok parsed)
    (distinct : (start.map (·.claimId)).Nodup)
    (accepted : ∀ known ∈ start, KeepsToEvidence context known) :
    (parsed.map (·.claimId)).Nodup ∧ ∀ known ∈ parsed, KeepsToEvidence context known := by
  induction rows generalizing start with
  | nil =>
    obtain rfl := Except.ok.inj h
    exact ⟨distinct, accepted⟩
  | cons row rows ih =>
    rw [List.foldlM_cons] at h
    obtain ⟨next, first, later⟩ := bind_ok_iff.mp h
    obtain ⟨interpretation, rfl, keeps, fresh⟩ := parseRow_ok first
    apply ih later
    · rw [List.map_append, List.map_singleton]
      exact List.nodup_append'.mpr ⟨distinct, List.nodup_singleton _, by simpa using fresh⟩
    · intro known member
      rcases List.mem_append.mp member with old | new
      · exact accepted known old
      · exact List.mem_singleton.mp new ▸ keeps

/-- The interpretations of a synthesis that is accepted: one for each claim. -/
theorem parseInterpretations_ok {context : SynthesisContext} {value : Json}
    {interpretations : List ClaimInterpretation}
    (h : parseInterpretations context value = .ok interpretations) :
    (∀ claim ∈ context.claims, (interpretations.map (·.claimId)).count claim.claimId.val = 1) ∧
      ∀ interpretation ∈ interpretations, KeepsToEvidence context interpretation := by
  obtain ⟨rows, -, h⟩ := bind_ok_iff.mp h
  obtain ⟨parsed, read, h⟩ := bind_ok_iff.mp h
  obtain ⟨⟨⟩, covered, h⟩ := bind_ok_iff.mp h
  obtain rfl := Except.ok.inj h
  obtain ⟨distinct, accepted⟩ := parseRows_ok read List.nodup_nil fun _ member => (nomatch member)
  refine ⟨fun claim member => List.count_eq_one_of_mem distinct ?_, accepted⟩
  simpa using List.any_eq_false.mp (rejectWhen_ok_iff.mp covered) claim member

/-! ### The run -/

/-- What the first half of a review comes to when it asks for a synthesis. -/
def Extracted (review : ReviewSite) (provider : Provider) (prTitle prDescription : Str)
    (routed : Routed) (record : ProviderCallRecord) (inputChars : Nat) : Prop :=
  ∃ prepared extractionChars response, prepare review prTitle prDescription = .ok prepared ∧
    provider.extractionChars prepared = .ok extractionChars ∧
    extractionChars ≤ review.limits.maxContextChars ∧
    provider.extractClaims prepared = .returned response ∧
    recordCall "extract_claims" response extractionChars = .ok record ∧
    response.complete = true ∧ routeClaims review prepared response = .ok routed ∧
    2 ≤ review.limits.maxCalls ∧ provider.synthesisChars routed = .ok inputChars ∧
    inputChars ≤ review.limits.maxContextChars

/-- What becomes of the second call. -/
def synthesisResult (review : ReviewSite) (provider : Provider) (routed : Routed)
    (record : ProviderCallRecord) (inputChars : Nat) : ResearchReview :=
  match provider.synthesizeReview routed with
  | .raised name => unavailable review [record] name
  | .foreign => unavailable review [record] "ReviewError"
  | .returned response => receiveSynthesis review routed [record] inputChars response

variable {review : ReviewSite} {provider : Provider} {prTitle prDescription : Str}

/-- A review that asks for a synthesis returns what becomes of it. -/
theorem runReview_extracted {routed : Routed} {record : ProviderCallRecord} {inputChars : Nat}
    (h : Extracted review provider prTitle prDescription routed record inputChars) :
    runReview review provider prTitle prDescription =
      ⟨synthesisResult review provider routed record inputChars, 2⟩ := by
  obtain ⟨prepared, extractionChars, response, first, sized, fits, extracted, recorded, complete,
    routes, twice, sized', fits'⟩ := h
  unfold runReview
  rw [first]
  dsimp only
  rw [sized]
  dsimp only
  rw [if_neg (Nat.not_lt.mpr fits), extracted]
  dsimp only
  unfold receiveExtraction
  rw [recorded]
  dsimp only
  rw [complete, if_neg Bool.true_eq_false.mp, routes]
  dsimp only
  unfold synthesize
  rw [if_neg (Nat.not_lt.mpr twice), sized']
  dsimp only
  rw [if_neg (Nat.not_lt.mpr fits'), synthesisResult]
  cases provider.synthesizeReview routed <;> rfl

/-- A run makes one call at most and is not complete, or it asks for a synthesis. -/
theorem runReview_cases (review : ReviewSite) (provider : Provider) (prTitle prDescription : Str) :
    ((runReview review provider prTitle prDescription).calls ≤ 1 ∧
      (runReview review provider prTitle prDescription).result.status ≠ .complete) ∨
    ∃ routed record inputChars,
      Extracted review provider prTitle prDescription routed record inputChars := by
  -- every way out before the second call returns no complete review
  unfold runReview
  split
  · exact Or.inl ⟨Nat.zero_le 1, by simp [unavailable, resultOf]⟩
  next prepared first =>
    split
    · exact Or.inl ⟨Nat.zero_le 1, by simp [unavailable, resultOf]⟩
    next extractionChars sized =>
      split
      · exact Or.inl ⟨Nat.zero_le 1, by simp [resultOf]⟩
      next fits =>
        split
        · exact Or.inl ⟨Nat.le_refl 1, by simp [unavailable, resultOf]⟩
        · exact Or.inl ⟨Nat.le_refl 1, by simp [unavailable, resultOf]⟩
        next response extracted =>
          unfold receiveExtraction
          split
          · exact Or.inl ⟨Nat.le_refl 1, by simp [unavailable, resultOf]⟩
          next record recorded =>
            split
            · exact Or.inl ⟨Nat.le_refl 1, by simp [resultOf]⟩
            next complete =>
              split
              · exact Or.inl ⟨Nat.le_refl 1, by simp [unavailable, resultOf]⟩
              next routed routes =>
                unfold synthesize
                split
                · exact Or.inl ⟨Nat.le_refl 1, by simp [resultOf]⟩
                next twice =>
                  split
                  · exact Or.inl ⟨Nat.le_refl 1, by simp [unavailable, resultOf]⟩
                  next inputChars sized' =>
                    split
                    · exact Or.inl ⟨Nat.le_refl 1, by simp [resultOf]⟩
                    -- both inputs fit, so the second call is made
                    next fits' =>
                      exact Or.inr ⟨routed, record, inputChars, prepared, extractionChars, response,
                        first, sized, Nat.not_lt.mp fits, extracted, recorded, by simpa using complete,
                        routes, Nat.not_lt.mp twice, sized', Nat.not_lt.mp fits'⟩

/-! ### The law of a review -/

/-- What a complete review holds: every claim has one interpretation, and all of them keep to the
evidence and to its constraints. -/
structure IsComplete (review : ReviewSite) (result : ResearchReview) : Prop where
  once : ∀ claim ∈ result.claims,
    (result.interpretations.map (·.claimId)).count claim.claimId.val = 1
  accepted : ∀ interpretation ∈ result.interpretations, KeepsToEvidence
    ⟨result.claims, result.evidence,
      interpretationConstraints review.site.lookup result.claims result.evidence⟩ interpretation

theorem judgeSynthesis_complete {routed : Routed} {calls : List ProviderCallRecord} {output : Str}
    (h : (judgeSynthesis review routed calls output).status = .complete) :
    IsComplete review (judgeSynthesis review routed calls output) := by
  unfold judgeSynthesis at h ⊢
  cases parsed : synthesisOf review routed output with
  | error fault => cases fault <;> simp [parsed, unavailable, resultOf] at h
  | ok interpretations =>
    obtain ⟨value, -, read⟩ := bind_ok_iff.mp parsed
    obtain ⟨once, accepted⟩ := parseInterpretations_ok read
    dsimp only
    unfold acceptSynthesis
    split
    · exact ⟨once, accepted⟩
    · split
      · exact ⟨once, accepted⟩
      · exact ⟨once, accepted⟩

theorem receiveSynthesis_complete {routed : Routed} {calls : List ProviderCallRecord}
    {inputChars : Nat} {response : ProviderResponse}
    (h : (receiveSynthesis review routed calls inputChars response).status = .complete) :
    IsComplete review (receiveSynthesis review routed calls inputChars response) := by
  unfold receiveSynthesis at h ⊢
  split at h
  · simp [unavailable, resultOf] at h
  next record recorded =>
    dsimp only at h ⊢
    split at h
    · simp [resultOf] at h
    next complete =>
      split at h
      · simp [resultOf] at h
      next within =>
        rw [if_neg complete, if_neg within]
        exact judgeSynthesis_complete h

/-- The provider with an answer to the synthesis request. -/
def Provider.answering (provider : Provider) (response : ProviderResponse) : Provider :=
  { provider with synthesizeReview := fun _ => .returned response }

theorem runReview_answering {routed : Routed} {record : ProviderCallRecord} {inputChars : Nat}
    (h : Extracted review provider prTitle prDescription routed record inputChars)
    (response : ProviderResponse) :
    (runReview review (provider.answering response) prTitle prDescription).result =
      receiveSynthesis review routed [record] inputChars response := by
  have again : Extracted review (provider.answering response) prTitle prDescription routed record
    inputChars := h
  rw [runReview_extracted again]
  rfl

/-- A complete synthesis output that keeps to the output limit together with the extraction. -/
structure IsWithin (review : ReviewSite) (record : ProviderCallRecord)
    (response : ProviderResponse) : Prop where
  complete : response.complete = true
  within : record.outputChars + response.outputText.length ≤ review.limits.maxOutputChars

/-- The envelope of a response passes the checks of a call record. -/
def IsRecordable (inputChars : Nat) (response : ProviderResponse) : Prop :=
  ∃ record, recordCall "synthesize_review" response inputChars = .ok record

theorem recordCall_ok {task : Str} {response : ProviderResponse} {inputChars : Nat}
    {record : ProviderCallRecord} (h : recordCall task response inputChars = .ok record) :
    record.outputChars = response.outputText.length := by
  obtain ⟨_, -, h⟩ := bind_ok_iff.mp h
  obtain ⟨_, -, h⟩ := bind_ok_iff.mp h
  obtain ⟨_, -, h⟩ := bind_ok_iff.mp h
  rw [← Except.ok.inj h]

/-- The results agree on claims, evidence and deterministic audits. -/
def SameFindings (first second : ResearchReview) : Prop :=
  first.claims = second.claims ∧ first.evidence = second.evidence ∧
    first.deterministicAudits = second.deterministicAudits

/-- If the output is no valid synthesis, the result is partial and has no interpretation. -/
def InvalidIsPartial (review : ReviewSite) (routed : Routed) (output : Str)
    (result : ResearchReview) : Prop :=
  (∀ interpretations, synthesisOf review routed output ≠ .ok interpretations) →
    result.status = .partialReview ∧ result.interpretations = []

/-- What was found before the synthesis. -/
def HasFindings (findings : Findings) (result : ResearchReview) : Prop :=
  result.claims = findings.claims ∧ result.evidence = findings.evidence ∧
    result.deterministicAudits = findings.deterministicAudits

/-- An output whose confidences convert is judged on what was found. -/
theorem judgeSynthesis_converts {routed : Routed} (calls : List ProviderCallRecord) {output : Str}
    (convert : ConfidencesConvert review routed output) :
    HasFindings routed.findings (judgeSynthesis review routed calls output) ∧
      InvalidIsPartial review routed output (judgeSynthesis review routed calls output) := by
  have review' := synthesisOf_review_iff.mpr convert
  unfold judgeSynthesis
  cases parsed : synthesisOf review routed output with
  | error fault =>
    rw [parsed] at review'
    obtain ⟨message, rfl⟩ := raises_error.mp review'
    exact ⟨⟨rfl, rfl, rfl⟩, fun _ => ⟨rfl, rfl⟩⟩
  | ok interpretations =>
    refine ⟨?_, fun invalid => absurd parsed (invalid interpretations)⟩
    dsimp only
    unfold acceptSynthesis
    split
    · exact ⟨rfl, rfl, rfl⟩
    · split
      · exact ⟨rfl, rfl, rfl⟩
      · exact ⟨rfl, rfl, rfl⟩

/-- Any other output is invalid, and the handler drops what was found. -/
theorem judgeSynthesis_not_converts {routed : Routed} {calls : List ProviderCallRecord}
    {output : Str} (huge : ¬ ConfidencesConvert review routed output) :
    ¬ InvalidIsPartial review routed output (judgeSynthesis review routed calls output) := by
  intro handled
  cases parsed : synthesisOf review routed output with
  | ok interpretations =>
    apply huge
    apply synthesisOf_review_iff.mp
    rw [parsed]
    exact raises_ok
  | error fault =>
    have dropped := (handled fun interpretations valid => by rw [parsed] at valid; cases valid).1
    unfold judgeSynthesis at dropped
    rw [parsed] at dropped
    cases fault with
    | reviewError message =>
      apply huge
      apply synthesisOf_review_iff.mp
      rw [parsed]
      exact reviewError_review
    | _ => simp [unavailable, resultOf] at dropped

theorem receiveSynthesis_judged (routed : Routed) {record : ProviderCallRecord} {inputChars : Nat}
    {response : ProviderResponse} (within : IsWithin review record response)
    (recordable : IsRecordable inputChars response) :
    ∃ calls, receiveSynthesis review routed [record] inputChars response =
      judgeSynthesis review routed calls response.outputText := by
  obtain ⟨second, recorded⟩ := recordable
  refine ⟨[record] ++ [second], ?_⟩
  have sum : (([record] ++ [second]).map (·.outputChars)).sum =
      record.outputChars + response.outputText.length := by
    rw [← recordCall_ok recorded]
    simp
  unfold receiveSynthesis
  rw [recorded]
  dsimp only
  rw [if_neg (by simp [within.complete]), sum, if_neg (Nat.not_lt.mpr within.within)]

theorem receiveSynthesis_unrecorded (routed : Routed) (calls : List ProviderCallRecord)
    {inputChars : Nat} {response : ProviderResponse} (refused : ¬ IsRecordable inputChars response) :
    ∃ name, receiveSynthesis review routed calls inputChars response =
      unavailable review calls name := by
  unfold receiveSynthesis
  split
  · exact ⟨_, rfl⟩
  next record recorded => exact absurd ⟨record, recorded⟩ refused

/-- A review keeps to its calls, and a complete one to its evidence. Two complete synthesis outputs
after one extraction agree, and an invalid one is partial, exactly if neither has a confidence that is
an integer too large for a float; a response that no call record takes makes the review unavailable. -/
theorem runReview_handled (review : ReviewSite) (provider : Provider) (prTitle prDescription : Str) :
    ((runReview review provider prTitle prDescription).calls ≤ review.limits.maxCalls ∧
      ((runReview review provider prTitle prDescription).result.status = .complete →
        IsComplete review (runReview review provider prTitle prDescription).result)) ∧
    ∀ routed record inputChars,
      Extracted review provider prTitle prDescription routed record inputChars →
      ∀ first second, IsWithin review record first → IsWithin review record second →
        (IsRecordable inputChars first → IsRecordable inputChars second →
          (SameFindings
              (runReview review (provider.answering first) prTitle prDescription).result
              (runReview review (provider.answering second) prTitle prDescription).result ∧
            InvalidIsPartial review routed first.outputText
              (runReview review (provider.answering first) prTitle prDescription).result ∧
            InvalidIsPartial review routed second.outputText
              (runReview review (provider.answering second) prTitle prDescription).result ↔
          ConfidencesConvert review routed first.outputText ∧
            ConfidencesConvert review routed second.outputText)) ∧
        (¬ IsRecordable inputChars first →
          (runReview review (provider.answering first) prTitle prDescription).result.status =
            .unavailable ∧ HasFindings .none
              (runReview review (provider.answering first) prTitle prDescription).result) := by
  refine ⟨?_, fun routed record inputChars extracted first second within within' => ⟨?_, ?_⟩⟩
  · have atLeastOne : 1 ≤ review.limits.maxCalls :=
      (review.limits.bounded (review.limits.maxCalls, 2) List.mem_cons_self).1
    -- at most one call leaves no complete review
    rcases runReview_cases review provider prTitle prDescription with
      ⟨calls, incomplete⟩ | ⟨routed, record, inputChars, extracted⟩
    · exact ⟨calls.trans atLeastOne, fun complete => absurd complete incomplete⟩
    · rw [runReview_extracted extracted]
      obtain ⟨_, _, _, -, -, -, -, -, -, -, twice, -⟩ := extracted
      refine ⟨twice, fun complete => ?_⟩
      dsimp only at complete ⊢
      unfold synthesisResult at complete ⊢
      split at complete
      · simp [unavailable, resultOf] at complete
      · simp [unavailable, resultOf] at complete
      · exact receiveSynthesis_complete complete
  · intro recordable recordable'
    obtain ⟨calls, judged⟩ := receiveSynthesis_judged routed within recordable
    obtain ⟨calls', judged'⟩ := receiveSynthesis_judged routed within' recordable'
    rw [runReview_answering extracted, runReview_answering extracted, judged, judged']
    constructor
    -- a confidence that does not convert would escape from the run
    · rintro ⟨-, handled, handled'⟩
      constructor
      · by_contra huge
        exact judgeSynthesis_not_converts huge handled
      · by_contra huge
        exact judgeSynthesis_not_converts huge handled'
    · rintro ⟨convert, convert'⟩
      obtain ⟨⟨claims, evidence, audits⟩, handled⟩ := judgeSynthesis_converts calls convert
      obtain ⟨⟨claims', evidence', audits'⟩, handled'⟩ :=
        judgeSynthesis_converts calls' convert'
      exact ⟨⟨claims.trans claims'.symm, evidence.trans evidence'.symm, audits.trans audits'.symm⟩,
        handled, handled'⟩
  -- a response that is refused leaves the findings without their interpretations
  · intro refused
    obtain ⟨name, result⟩ := receiveSynthesis_unrecorded routed [record] refused
    rw [runReview_answering extracted, result]
    exact ⟨rfl, rfl, rfl, rfl⟩

/-! ### An integer that is too large -/

/-- A provider that extracts one claim of the title. -/
def titleProvider : Provider where
  extractionChars _ := .ok 0
  extractClaims _ := .returned (titleResponse resultTitle)
  synthesisChars _ := .ok 0
  synthesizeReview _ := .foreign

/-- What a call raises. -/
def faultOf {α : Type} : Except Fault α → Option Fault
  | .error fault => some fault
  | .ok _ => none

theorem faultOf_eq_some {α : Type} {x : Except Fault α} {fault : Fault}
    (h : faultOf x = some fault) : x = .error fault := by
  cases x with
  | error other => rw [Option.some.inj h]
  | ok a => cases h

/-- A synthesis of the claim of the title. -/
def titleSynthesis (confidence : Json) : Json := .object [("interpretations", .array [.object [
  ("claim_id", .str "claim-aaaaaaaaaaaaaaaa"), ("interpretation", .str "The results show it."),
  ("citations", .array []), ("missing_evidence", .array []),
  ("unsupported_inferences", .array []), ("confidence", confidence)]])]

/-- The response with another output. -/
def synthesisResponse (output : Str) : ProviderResponse :=
  { titleResponse resultTitle with outputText := output }

/-- What a run of the title asks a synthesis for. -/
theorem extracted_title {review : ReviewSite} {prepared : Prepared}
    {executed : List ManifestAuditBundle} {routed : Routed}
    (context : 0 ≤ review.limits.maxContextChars) (twice : 2 ≤ review.limits.maxCalls)
    (h : routedTitle review = some (prepared, executed, routed)) :
    ∃ record, record.outputChars = (titleResponse resultTitle).outputText.length ∧
      Extracted review titleProvider resultTitle [] routed record 0 := by
  obtain ⟨first, -, routes⟩ := routedTitle_some h
  have recorded : (recordCall "extract_claims" (titleResponse resultTitle) 0).toOption.isSome = true := by
    decide +kernel
  obtain ⟨record, taken⟩ := Option.isSome_iff_exists.mp recorded
  have taken := toOption_eq_some taken
  exact ⟨record, recordCall_ok taken, prepared, 0, titleResponse resultTitle, first, rfl, context,
    rfl, taken, rfl, routes, twice, rfl, context⟩

theorem isRecordable_synthesis (output : Str) : IsRecordable 0 (synthesisResponse output) :=
  ⟨⟨"synthesize_review", "local", "model", none, .unknown, 0, output.length⟩, rfl⟩

/-- The output of a synthesis of the title. -/
def titleOutput (confidence : Json) : Str := (titleSynthesis confidence).render canonicalStyle 0

theorem runReview_handled_title : ∃ (routed : Routed) (record : ProviderCallRecord),
    Extracted (resultReview oneArtifact) titleProvider resultTitle [] routed record 0 ∧
      SameFindings
        (runReview (resultReview oneArtifact) (titleProvider.answering
          (synthesisResponse (titleOutput (.int 1)))) resultTitle []).result
        (runReview (resultReview oneArtifact) (titleProvider.answering
          (synthesisResponse (lit "no synthesis"))) resultTitle []).result ∧
      (runReview (resultReview oneArtifact) (titleProvider.answering
        (synthesisResponse (lit "no synthesis"))) resultTitle []).result.status = .partialReview := by
  have run : (routedTitle (resultReview oneArtifact)).any (fun found =>
      (synthesisOf (resultReview oneArtifact) found.2.2 (titleOutput (.int 1))).toOption.isSome) = true :=
    by decide +kernel
  have malformed : (parseJson sampleLookup (lit "no synthesis")).toOption.isSome = false := by
    decide +kernel
  -- the run is evaluated once, and its parts are read off
  cases returned : routedTitle (resultReview oneArtifact) with
  | none =>
    rw [returned] at run
    cases run
  | some found =>
    obtain ⟨prepared, executed, routed⟩ := found
    rw [returned, Option.any_some] at run
    obtain ⟨interpretations, valid⟩ := Option.isSome_iff_exists.mp run
    have unread : ∀ value, parseJson sampleLookup (lit "no synthesis") ≠ .ok value := by
      intro value decoded
      rw [decoded] at malformed
      cases malformed
    obtain ⟨record, chars, extracted⟩ := extracted_title (Nat.zero_le _) (by decide) returned
    have short : IsWithin (resultReview oneArtifact) record
        (synthesisResponse (titleOutput (.int 1))) :=
      ⟨rfl, by rw [chars]; decide +kernel⟩
    have short' : IsWithin (resultReview oneArtifact) record
        (synthesisResponse (lit "no synthesis")) :=
      ⟨rfl, by rw [chars]; decide +kernel⟩
    obtain ⟨same, -, handled⟩ := (((runReview_handled (resultReview oneArtifact) titleProvider
      resultTitle []).2 routed record 0 extracted _ _ short short').1
        (isRecordable_synthesis _) (isRecordable_synthesis _)).mpr
      ⟨synthesisOf_review_iff.mp (toOption_eq_some valid ▸ raises_ok),
        fun value decoded => absurd decoded (unread value)⟩
    refine ⟨routed, record, extracted, same, (handled fun interpretations valid' => ?_).1⟩
    obtain ⟨value, decoded, -⟩ := bind_ok_iff.mp valid'
    exact unread value decoded

/-- A confidence over the range of floats is not handled as an invalid synthesis. -/
theorem hugeConfidence_dropped :
    ¬ ∀ (review : ReviewSite) (provider : Provider) (prTitle prDescription : Str) (routed : Routed)
      (record : ProviderCallRecord) (inputChars : Nat),
      Extracted review provider prTitle prDescription routed record inputChars →
      ∀ first second, IsWithin review record first → IsWithin review record second →
        SameFindings
            (runReview review (provider.answering first) prTitle prDescription).result
            (runReview review (provider.answering second) prTitle prDescription).result ∧
          InvalidIsPartial review routed first.outputText
            (runReview review (provider.answering first) prTitle prDescription).result := by
  intro handled
  have run : (routedTitle (resultReview oneArtifact)).any (fun found =>
      faultOf (synthesisOf (resultReview oneArtifact) found.2.2 (titleOutput (.int (10 ^ 309)))) =
        some .overflowError) = true := by decide +kernel
  cases returned : routedTitle (resultReview oneArtifact) with
  | none =>
    rw [returned] at run
    cases run
  | some found =>
    obtain ⟨prepared, executed, routed⟩ := found
    rw [returned] at run
    obtain ⟨record, chars, extracted⟩ := extracted_title (Nat.zero_le _) (by decide) returned
    have short : IsWithin (resultReview oneArtifact) record
        (synthesisResponse (titleOutput (.int (10 ^ 309)))) :=
      ⟨rfl, by rw [chars]; decide +kernel⟩
    have partly := (handled _ _ _ _ _ _ _ extracted _ _ short short).2
    obtain ⟨calls, judged⟩ := receiveSynthesis_judged routed short
      (isRecordable_synthesis _)
    rw [runReview_answering extracted, judged] at partly
    refine judgeSynthesis_not_converts (fun convert => ?_) partly
    have review := synthesisOf_review_iff.mpr convert
    rw [Option.any_some, decide_eq_true_eq] at run
    obtain ⟨message, other⟩ := review _ (faultOf_eq_some run)
    cases other

end ClaimCI.Review
