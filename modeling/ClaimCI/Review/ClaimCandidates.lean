import ClaimCI.Review.Sources
import ClaimCI.Python.FirstOccurrences

/-!
# Claim candidates

The best-effort validation of an extraction response, candidate by candidate: which candidates
take the whole response down, and what is kept of it when none does.
-/

open Python

namespace ClaimCI.Review

/-! ### Which exceptions a step raises -/

/-- Every exception of the result satisfies the predicate. -/
def Raises {α : Type} (p : Fault → Prop) (x : Except Fault α) : Prop :=
  ∀ fault, x = .error fault → p fault

def Fault.IsReview (fault : Fault) : Prop := ∃ message, fault = .reviewError message

/-- What `except (TypeError, ValueError)` catches. -/
def Fault.IsValue (fault : Fault) : Prop :=
  fault.IsReview ∨ ∃ message, fault = .valueError message

theorem raises_ok {α : Type} {p : Fault → Prop} {a : α} : Raises p (.ok a : Except Fault α) := by
  intro fault h
  cases h

theorem raises_error {α : Type} {p : Fault → Prop} {fault : Fault} :
    Raises p (.error fault : Except Fault α) ↔ p fault :=
  ⟨fun h => h fault rfl, fun h _ same => Except.error.inj same ▸ h⟩

theorem raises_bind {α β : Type} {p : Fault → Prop} {x : Except Fault α}
    {f : α → Except Fault β} :
    Raises p (x >>= f) ↔ Raises p x ∧ ∀ a, x = .ok a → Raises p (f a) := by
  cases x with
  | error fault =>
    have stops : ((.error fault : Except Fault α) >>= f) = .error fault := rfl
    rw [stops, raises_error, raises_error]
    refine ⟨fun h => ⟨h, ?_⟩, fun h => h.1⟩
    intro a impossible
    cases impossible
  | ok a =>
    refine ⟨fun h => ⟨raises_ok, ?_⟩, fun h => h.2 a rfl⟩
    intro b same
    rw [← Except.ok.inj same]
    exact h

theorem raises_map {α β : Type} {p : Fault → Prop} {x : Except Fault α} {f : α → β} :
    Raises p (x.map f) ↔ Raises p x := by
  cases x with
  | error fault =>
    have stops : (.error fault : Except Fault α).map f = .error fault := rfl
    rw [stops, raises_error, raises_error]
  | ok a => exact ⟨fun _ => raises_ok, fun _ => raises_ok⟩

theorem raises_mono {α : Type} {p q : Fault → Prop} (weaker : ∀ fault, p fault → q fault)
    {x : Except Fault α} (h : Raises p x) : Raises q x :=
  fun fault same => weaker fault (h fault same)

theorem raises_mapM {α β : Type} {p : Fault → Prop} {f : α → Except Fault β} {items : List α}
    (each : ∀ a ∈ items, Raises p (f a)) : Raises p (items.mapM f) := by
  induction items with
  | nil => exact raises_ok
  | cons a items ih =>
    rw [List.mapM_cons]
    apply raises_bind.mpr ⟨each a List.mem_cons_self, fun b _ => raises_bind.mpr ⟨?_, ?_⟩⟩
    · exact ih fun other member => each other (List.mem_cons_of_mem a member)
    · exact fun rest _ => raises_ok

theorem raises_foldlM {α β : Type} {p : Fault → Prop} {f : β → α → Except Fault β} {items : List α}
    (each : ∀ state a, Raises p (f state a)) (state : β) : Raises p (items.foldlM f state) := by
  induction items generalizing state with
  | nil => exact raises_ok
  | cons a items ih =>
    rw [List.foldlM_cons]
    exact raises_bind.mpr ⟨each state a, fun next _ => ih next⟩

theorem raises_rejectWhen {p : Fault → Prop} {condition : Bool} {message : Str}
    (expected : p (.reviewError message)) : Raises p (rejectWhen condition message) := by
  cases condition with
  | true => exact raises_error.mpr expected
  | false => exact raises_ok

theorem reviewError_review {α : Type} {message : Str} :
    Raises Fault.IsReview (reviewError message : Except Fault α) :=
  raises_error.mpr ⟨message, rfl⟩

theorem rejectWhen_review {condition : Bool} {message : Str} :
    Raises Fault.IsReview (rejectWhen condition message) := by
  cases condition with
  | true => exact reviewError_review
  | false => exact raises_ok

theorem nonemptyText_review {label s : Str} {maximum : Nat} :
    Raises Fault.IsReview (nonemptyText label maximum s) := by
  unfold nonemptyText
  split
  · exact reviewError_review
  · split
    · exact raises_ok
    · exact reviewError_review

theorem nonemptyJson_review {label : Str} {maximum : Nat} {value : Json} :
    Raises Fault.IsReview (nonemptyJson label maximum value) := by
  cases value with
  | str s => exact nonemptyText_review
  | _ => exact reviewError_review

theorem relativePath_review {label s : Str} : Raises Fault.IsReview (relativePath label s) := by
  apply raises_bind.mpr ⟨nonemptyText_review, fun _ _ => ?_⟩
  apply raises_bind.mpr ⟨rejectWhen_review, fun _ _ => ?_⟩
  apply raises_bind.mpr ⟨rejectWhen_review, fun _ _ => ?_⟩
  apply raises_bind.mpr ⟨rejectWhen_review, fun _ _ => ?_⟩
  exact raises_bind.mpr ⟨rejectWhen_review, fun _ _ => raises_ok⟩

theorem normalizePath_review {kind : SourceKind} {path : Option Str} :
    Raises Fault.IsReview (normalizePath kind path) := by
  unfold normalizePath
  split
  · exact reviewError_review
  · exact raises_bind.mpr ⟨relativePath_review, fun _ _ => raises_ok⟩
  · exact raises_ok
  · exact reviewError_review

theorem sourcePath_review {kind : SourceKind} {path : Option Str} :
    Raises Fault.IsReview (sourcePath kind path) := by
  unfold sourcePath
  split
  next fault same => exact raises_error.mpr (normalizePath_review fault same)
  · exact raises_ok

theorem sourceLocation_review {sourceId : Str} {kind : SourceKind} {path : Option Str}
    {startLine endLine : Int} :
    Raises Fault.IsReview (sourceLocation sourceId kind path startLine endLine) := by
  apply raises_bind.mpr ⟨nonemptyText_review, fun _ _ => ?_⟩
  apply raises_bind.mpr ⟨sourcePath_review, fun _ _ => ?_⟩
  split
  · exact raises_ok
  · exact reviewError_review

theorem strictFields_review {host : Host} {value : Json} {expected : List Str} {label : Str} :
    Raises Fault.IsReview (strictFields host value expected label) := by
  unfold strictFields
  split
  · dsimp only
    split
    · exact raises_ok
    · exact reviewError_review
  · exact reviewError_review

theorem quote_review {record : SourceRecord} {startLine endLine : Int} :
    Raises Fault.IsReview (quote record startLine endLine) := by
  unfold quote
  dsimp only
  split
  · exact reviewError_review
  · exact raises_ok

theorem lineNumber_review {label : Str} {value : Json} :
    Raises Fault.IsReview (lineNumber label value) := by
  cases value with
  | int n => exact raises_ok
  | _ => exact reviewError_review

theorem citedRecord_review {bundle : SourceBundle} {index : Nat} {sourceId : Json} :
    Raises Fault.IsReview (citedRecord bundle index sourceId) := by
  unfold citedRecord
  split
  · split
    · exact raises_ok
    · exact reviewError_review
  · exact reviewError_review

theorem quotedText_review {index : Nat} {record : SourceRecord} {startLine endLine : Int}
    {sourceText : Json} :
    Raises Fault.IsReview (quotedText index record startLine endLine sourceText) := by
  unfold quotedText
  split
  · apply raises_bind.mpr ⟨quote_review, fun _ _ => ?_⟩
    exact raises_bind.mpr ⟨rejectWhen_review, fun _ _ => raises_ok⟩
  · exact reviewError_review

theorem locateCandidate_review {host : Host} {bundle : SourceBundle} {index : Nat} {value : Json} :
    Raises Fault.IsReview (locateCandidate host bundle index value) := by
  apply raises_bind.mpr ⟨strictFields_review, fun _ _ => ?_⟩
  apply raises_bind.mpr ⟨strictFields_review, fun _ _ => ?_⟩
  apply raises_bind.mpr ⟨citedRecord_review, fun _ _ => ?_⟩
  apply raises_bind.mpr ⟨lineNumber_review, fun _ _ => ?_⟩
  apply raises_bind.mpr ⟨lineNumber_review, fun _ _ => ?_⟩
  exact raises_bind.mpr ⟨quotedText_review, fun _ _ => raises_ok⟩

theorem candidateMetric_review {value : Json} : Raises Fault.IsReview (candidateMetric value) := by
  cases value with
  | null => exact raises_ok
  | str s => exact raises_ok
  | _ => exact reviewError_review

theorem stringList_review {label : Str} {value : Json} :
    Raises Fault.IsReview (stringList label value) := by
  unfold stringList
  split
  · split
    · exact reviewError_review
    · split
      · exact raises_ok
      · exact reviewError_review
  · exact reviewError_review

theorem enumMember_value {α : Type} {host : Host} {values : List (Str × α)} {label : Str}
    {value : Json} : Raises Fault.IsValue (enumMember host values label value) := by
  unfold enumMember
  split
  · split
    · exact raises_ok
    · exact raises_error.mpr (.inr ⟨_, rfl⟩)
  · exact raises_error.mpr (.inr ⟨_, rfl⟩)

theorem boundedItems_review {message : Str} {maximum : Nat} {items : List Str} :
    Raises Fault.IsReview (boundedItems message maximum items) := by
  unfold boundedItems
  induction items with
  | nil => exact raises_ok
  | cons item rest ih =>
    rw [List.mapM_cons]
    refine raises_bind.mpr ⟨?_, fun _ _ => raises_bind.mpr ⟨ih, fun _ _ => raises_ok⟩⟩
    split
    · exact raises_ok
    · exact reviewError_review

theorem optionalText_review {label : Str} {maximum : Nat} {text : Option Str} :
    Raises Fault.IsReview (optionalText label maximum text) := by
  cases text with
  | none => exact raises_ok
  | some text => exact raises_map.mpr nonemptyText_review

theorem unitConfidence_review {x : Binary64} : Raises Fault.IsReview (unitConfidence x) := by
  unfold unitConfidence
  split
  · exact raises_ok
  · exact reviewError_review

theorem scientificClaim_review {claimId sourceText : Str} {claimType : ClaimType} {subject : Json}
    {source : SourceLocation} {metric : Option Str} {direction : ClaimDirection}
    {claimedMagnitude : Option ClaimMagnitude} {qualifiers : List Str} {confidence : Binary64}
    {evidenceHints : List Str} :
    Raises Fault.IsReview (scientificClaim claimId sourceText claimType subject source metric
      direction claimedMagnitude qualifiers confidence evidenceHints) := by
  apply raises_bind.mpr ⟨nonemptyText_review, fun _ _ => ?_⟩
  apply raises_bind.mpr ⟨nonemptyText_review, fun _ _ => ?_⟩
  apply raises_bind.mpr ⟨nonemptyJson_review, fun _ _ => ?_⟩
  apply raises_bind.mpr ⟨optionalText_review, fun _ _ => ?_⟩
  apply raises_bind.mpr ⟨boundedItems_review, fun _ _ => ?_⟩
  apply raises_bind.mpr ⟨unitConfidence_review, fun _ _ => ?_⟩
  exact raises_bind.mpr ⟨boundedItems_review, fun _ _ => raises_ok⟩

/-! ### Where a candidate takes the response down -/

/-- A number that `float` converts, or no integer at all. -/
def ConvertsToFloat (value : Json) : Prop := ∀ n, value = .int n → (Binary64.ofInt n).isSome = true

theorem convertsToFloat_of_not_int {value : Json} (other : ∀ n, value ≠ .int n) :
    ConvertsToFloat value :=
  fun n same => absurd same (other n)

/-- A value the encoder writes and UTF-8 can represent. -/
def Encodable (host : Host) (value : Json) : Prop :=
  host.recursion.fits value = true ∧ value.dumpable = true ∧
    (encodeUtf8 (value.sorted.render canonicalStyle 0)).isSome = true

theorem finiteFloat_review_iff {value : Json} :
    Raises Fault.IsReview (finiteFloat value) ↔ ConvertsToFloat value := by
  unfold finiteFloat
  split
  next n =>
    cases converted : Binary64.ofInt n with
    | none =>
      refine ⟨fun h => ?_, fun h => ?_⟩
      · obtain ⟨_, impossible⟩ := raises_error.mp h
        cases impossible
      · have fits := h n rfl
        rw [converted] at fits
        cases fits
    | some x =>
      refine ⟨fun _ m same => ?_, fun _ => raises_ok⟩
      rw [← Json.int.inj same, converted]
      rfl
  · exact ⟨fun _ => convertsToFloat_of_not_int (by simp), fun _ => raises_ok⟩
  next other _ => exact ⟨fun _ => convertsToFloat_of_not_int other, fun _ => raises_ok⟩

theorem candidateConfidence_review_iff {value : Json} :
    Raises Fault.IsReview (candidateConfidence value) ↔ ConvertsToFloat value := by
  rw [← finiteFloat_review_iff, candidateConfidence, raises_bind]
  refine ⟨fun h => h.1, fun h => ⟨h, fun found _ => ?_⟩⟩
  cases found with
  | some x => exact raises_ok
  | none => exact reviewError_review

theorem canonicalBytes_review_iff {host : Host} {value : Json} :
    Raises Fault.IsReview (canonicalBytes host value) ↔ Encodable host value := by
  unfold canonicalBytes Encodable
  have escapes : ∀ {fault : Fault}, ¬ fault.IsReview →
      ¬ Raises Fault.IsReview (.error fault : Except Fault Bytes) :=
    fun h raised => h (raises_error.mp raised)
  split
  -- too deep: the recursion error escapes
  next deep =>
    rw [deep]
    refine ⟨fun h => absurd h (escapes (by rintro ⟨_, h⟩; cases h)), fun h => ?_⟩
    exact absurd h.1 (by decide)
  next fits =>
    rw [Bool.not_eq_false] at fits
    rw [dumps]
    split
    -- what JSON cannot represent raises a ValueError, which escapes too
    next found =>
      split at found
      · cases found
      next finite =>
        refine ⟨fun h => absurd h (escapes (by rintro ⟨_, h⟩; cases h)), fun h => ?_⟩
        exact absurd h.2.1 finite
    next text found =>
      split at found
      next finite =>
        obtain rfl : value.sorted.render canonicalStyle 0 = text := Option.some.inj found
        cases encoded : encodeUtf8 (value.sorted.render canonicalStyle 0) with
        -- lone surrogates cannot be encoded
        | none =>
          refine ⟨fun h => absurd h (escapes (by rintro ⟨_, h⟩; cases h)), fun h => ?_⟩
          exact absurd h.2.2 (by decide)
        | some bytes => exact ⟨fun _ => ⟨fits, finite, rfl⟩, fun _ => raises_ok⟩
      · cases found

theorem magnitudeNumber_value_iff {value : Json} :
    Raises Fault.IsValue (magnitudeNumber value) ↔ ConvertsToFloat value := by
  unfold magnitudeNumber
  split
  next n =>
    split
    next fits =>
      refine ⟨fun _ m same => ?_, fun _ => raises_ok⟩
      rw [← Json.int.inj same]
      exact fits
    next large =>
      refine ⟨fun h => ?_, fun h => absurd (h n rfl) large⟩
      rcases raises_error.mp h with ⟨_, impossible⟩ | ⟨_, impossible⟩ <;> cases impossible
  · exact ⟨fun _ => convertsToFloat_of_not_int (by simp), fun _ => raises_ok⟩
  next other _ =>
    refine ⟨fun _ => convertsToFloat_of_not_int other, fun _ => ?_⟩
    exact raises_mono (fun _ h => .inl h) reviewError_review

theorem magnitudeValue_value_iff {value : Json} :
    Raises Fault.IsValue (magnitudeValue value) ↔ ConvertsToFloat value := by
  unfold magnitudeValue
  split
  · exact ⟨fun _ => convertsToFloat_of_not_int (by simp), fun _ => raises_ok⟩
  · rw [raises_map]
    exact magnitudeNumber_value_iff

theorem magnitudeUnit_review {value : Json} : Raises Fault.IsReview (magnitudeUnit value) := by
  unfold magnitudeUnit
  split
  · exact raises_ok
  · exact raises_map.mpr nonemptyJson_review

/-! ### The checks of a candidate -/

/-- The members have exactly the expected keys. -/
def HasExactly (members : Members) (expected : List Str) : Prop :=
  ∀ key, key ∈ members.map Prod.fst ↔ key ∈ expected

theorem strictFields_ok_iff {host : Host} {value : Json} {expected : List Str} {label : Str}
    {members : Members} :
    strictFields host value expected label = .ok members ↔
      value = .object members ∧ HasExactly members expected := by
  unfold strictFields
  split
  next found =>
    dsimp only
    have exact : (expected.filter fun key => !(found.map Prod.fst).contains key) = [] ∧
        -- the names are exactly the expected ones if none is missing and none is left
        ((found.map Prod.fst).filter fun key => !expected.contains key) = [] ↔
          HasExactly found expected := by
      simp only [List.filter_eq_nil_iff, Bool.not_eq_true', Bool.not_eq_false,
        List.contains_iff_mem]
      exact ⟨fun h key => ⟨h.2 key, h.1 key⟩, fun h => ⟨fun key => (h key).2, fun key => (h key).1⟩⟩
    split
    next fits =>
      constructor
      · intro same
        obtain rfl := Except.ok.inj same
        exact ⟨rfl, exact.mp fits⟩
      · rintro ⟨same, _⟩
        rw [Json.object.inj same]
    next unfit =>
      refine ⟨fun impossible => (nomatch impossible), fun h => ?_⟩
      obtain rfl := Json.object.inj h.1
      exact absurd (exact.mpr h.2) unfit
  next other =>
    refine ⟨fun impossible => (nomatch impossible), fun h => ?_⟩
    exact absurd h.1 (other members)

/-- The candidate has its fields and quotes the lines of an issued source that it names. -/
structure CitesItsLines (bundle : SourceBundle) (value : Json) (located : LocatedCandidate) :
    Prop where
  object : value = .object located.fields
  fields : HasExactly located.fields CANDIDATE_FIELDS
  source : ∃ source, item "source" located.fields = .object source ∧
    HasExactly source SOURCE_FIELDS ∧ item "source_id" source = .str located.sourceId ∧
    item "start_line" source = .int located.startLine ∧
    item "end_line" source = .int located.endLine
  record : bundle.record located.sourceId = some located.record
  text : item "source_text" located.fields = .str located.sourceText
  quoted : quote located.record located.startLine located.endLine = .ok located.sourceText

theorem lineNumber_ok_iff {label : Str} {value : Json} {n : Int} :
    lineNumber label value = .ok n ↔ value = .int n := by
  unfold lineNumber
  split
  · exact ⟨fun h => by rw [Except.ok.inj h], fun h => by rw [Json.int.inj h]⟩
  next other => exact ⟨fun impossible => (nomatch impossible), fun h => absurd h (other n)⟩

theorem citedRecord_ok_iff {bundle : SourceBundle} {index : Nat} {value : Json} {id : Str}
    {record : SourceRecord} :
    citedRecord bundle index value = .ok (id, record) ↔
      value = .str id ∧ bundle.record id = some record := by
  unfold citedRecord
  split
  next text =>
    split
    next found same =>
      constructor
      · intro h
        obtain ⟨rfl, rfl⟩ := Prod.mk.inj (Except.ok.inj h)
        exact ⟨rfl, same⟩
      · rintro ⟨h, known⟩
        obtain rfl := Json.str.inj h
        rw [Option.some.inj (same.symm.trans known)]
    next unknown =>
      refine ⟨fun impossible => (nomatch impossible), fun h => ?_⟩
      obtain rfl := Json.str.inj h.1
      rw [unknown] at h
      cases h.2
  next other => exact ⟨fun impossible => (nomatch impossible), fun h => absurd h.1 (other id)⟩

theorem quotedText_ok_iff {index : Nat} {record : SourceRecord} {startLine endLine : Int}
    {value : Json} {text : Str} :
    quotedText index record startLine endLine value = .ok text ↔
      value = .str text ∧ quote record startLine endLine = .ok text := by
  unfold quotedText
  split
  next given =>
    rw [bind_ok_iff]
    constructor
    · rintro ⟨quoted, found, h⟩
      obtain ⟨_, same, h⟩ := bind_ok_iff.mp h
      obtain rfl := Except.ok.inj h
      rw [rejectWhen_ok_iff, bne_eq_false_iff_eq] at same
      exact ⟨rfl, same ▸ found⟩
    · rintro ⟨h, found⟩
      obtain rfl := Json.str.inj h
      refine ⟨_, found, bind_ok_iff.mpr ⟨(), rejectWhen_ok_iff.mpr ?_, rfl⟩⟩
      exact bne_eq_false_iff_eq.mpr rfl
  next other => exact ⟨fun impossible => (nomatch impossible), fun h => absurd h.1 (other text)⟩

theorem locateCandidate_ok_iff {host : Host} {bundle : SourceBundle} {index : Nat} {value : Json}
    {located : LocatedCandidate} :
    locateCandidate host bundle index value = .ok located ↔ CitesItsLines bundle value located := by
  -- the reader takes one field after another; the structure names what each of them was
  constructor
  · intro h
    obtain ⟨fields, exactFields, h⟩ := bind_ok_iff.mp h
    obtain ⟨source, exactSource, h⟩ := bind_ok_iff.mp h
    obtain ⟨⟨sourceId, record⟩, cited, h⟩ := bind_ok_iff.mp h
    obtain ⟨startLine, starts, h⟩ := bind_ok_iff.mp h
    obtain ⟨endLine, ends, h⟩ := bind_ok_iff.mp h
    obtain ⟨sourceText, quoted, h⟩ := bind_ok_iff.mp h
    obtain rfl := Except.ok.inj h
    obtain ⟨object, fieldsExact⟩ := strictFields_ok_iff.mp exactFields
    obtain ⟨sourceObject, sourceExact⟩ := strictFields_ok_iff.mp exactSource
    obtain ⟨identified, known⟩ := citedRecord_ok_iff.mp cited
    obtain ⟨text, agrees⟩ := quotedText_ok_iff.mp quoted
    exact {
      object := object
      fields := fieldsExact
      source := ⟨source, sourceObject, sourceExact, identified, lineNumber_ok_iff.mp starts,
        lineNumber_ok_iff.mp ends⟩
      record := known
      text := text
      quoted := agrees }
  · intro cites
    obtain ⟨source, sourceObject, sourceExact, identified, starts, ends⟩ := cites.source
    refine bind_ok_iff.mpr ⟨located.fields, strictFields_ok_iff.mpr ⟨cites.object, cites.fields⟩, ?_⟩
    refine bind_ok_iff.mpr ⟨source, strictFields_ok_iff.mpr ⟨sourceObject, sourceExact⟩, ?_⟩
    refine bind_ok_iff.mpr ⟨(located.sourceId, located.record),
      citedRecord_ok_iff.mpr ⟨identified, cites.record⟩, ?_⟩
    refine bind_ok_iff.mpr ⟨located.startLine, lineNumber_ok_iff.mpr starts, ?_⟩
    refine bind_ok_iff.mpr ⟨located.endLine, lineNumber_ok_iff.mpr ends, ?_⟩
    exact bind_ok_iff.mpr ⟨located.sourceText,
      quotedText_ok_iff.mpr ⟨cites.text, cites.quoted⟩, rfl⟩

/-- A number whose float is finite. -/
def IsFiniteNumber (value : Json) : Prop :=
  (∃ n, value = .int n ∧ (Binary64.ofInt n).isSome = true) ∨ ∃ x, value = .float x

theorem candidateConfidence_ok_iff {value : Json} :
    (∃ x, candidateConfidence value = .ok x) ↔ IsFiniteNumber value := by
  constructor
  · rintro ⟨x, h⟩
    obtain ⟨found, converted, h⟩ := bind_ok_iff.mp h
    cases found with
    | none => cases h
    | some y =>
      unfold finiteFloat at converted
      split at converted
      next n =>
        split at converted
        · cases converted
        next fits => exact .inl ⟨n, rfl, by rw [fits]; rfl⟩
      next y => exact .inr ⟨y, rfl⟩
      · cases converted
  · rintro (⟨n, rfl, fits⟩ | ⟨x, rfl⟩)
    · obtain ⟨x, converted⟩ := Option.isSome_iff_exists.mp fits
      refine ⟨x, bind_ok_iff.mpr ⟨some x, ?_, rfl⟩⟩
      simp only [finiteFloat, converted]
    · exact ⟨x, rfl⟩

/-- The member of an enumeration. -/
def IsMember {α : Type} (values : List (Str × α)) (value : Json) : Prop :=
  ∃ text found, value = .str text ∧ lookupKey text values = some found

theorem enumMember_ok_iff {α : Type} {host : Host} {values : List (Str × α)} {label : Str}
    {value : Json} : (∃ found, enumMember host values label value = .ok found) ↔
      IsMember values value := by
  unfold enumMember
  split
  next text =>
    split
    next found known =>
      exact ⟨fun _ => ⟨text, found, rfl, known⟩, fun _ => ⟨found, rfl⟩⟩
    next unknown =>
      refine ⟨fun ⟨_, impossible⟩ => (nomatch impossible), ?_⟩
      rintro ⟨given, found, same, known⟩
      obtain rfl := Json.str.inj same
      rw [unknown] at known
      cases known
  next other =>
    refine ⟨fun ⟨_, impossible⟩ => (nomatch impossible), ?_⟩
    rintro ⟨given, _, same, _⟩
    exact absurd same (other given)

theorem enumMember_ok {α : Type} (host : Host) {values : List (Str × α)} (label : Str)
    {value : Json} (h : IsMember values value) :
    ∃ found, enumMember host values label value = .ok found :=
  enumMember_ok_iff.mpr h

/-- A metric is null or a string. -/
def IsMetric (value : Json) : Prop := value = .null ∨ ∃ s, value = .str s

theorem candidateMetric_ok_iff {value : Json} :
    (∃ metric, candidateMetric value = .ok metric) ↔ IsMetric value := by
  unfold candidateMetric
  split
  · exact ⟨fun _ => .inl rfl, fun _ => ⟨none, rfl⟩⟩
  next s => exact ⟨fun _ => .inr ⟨s, rfl⟩, fun _ => ⟨some s, rfl⟩⟩
  next null text =>
    refine ⟨fun ⟨_, impossible⟩ => (nomatch impossible), ?_⟩
    rintro (same | ⟨s, same⟩)
    · exact absurd same null
    · exact absurd same (text s)

/-- The fields of a magnitude that are looked at before its value. -/
structure MagnitudeNamed (fields : Members) : Prop where
  exact : HasExactly fields ["raw", "value", "unit", "kind"]
  kind : IsMember MagnitudeKind.values (item "kind" fields)
  raw : ∃ s, item "raw" fields = .str s ∧ strip s ≠ [] ∧ s.length ≤ 512

theorem nonemptyJson_ok_iff {label : Str} {maximum : Nat} {value : Json} :
    (∃ text, nonemptyJson label maximum value = .ok text) ↔
      ∃ s, value = .str s ∧ strip s ≠ [] ∧ s.length ≤ maximum := by
  unfold nonemptyJson
  split
  next s =>
    constructor
    · rintro ⟨text, h⟩
      have same := nonemptyText_ok_iff.mp h
      exact ⟨s, rfl, same ▸ text.property⟩
    · rintro ⟨t, same, valid⟩
      obtain rfl := Json.str.inj same
      exact ⟨⟨s, valid⟩, nonemptyText_ok_iff.mpr rfl⟩
  next other =>
    refine ⟨fun ⟨_, impossible⟩ => (nomatch impossible), ?_⟩
    rintro ⟨s, same, _⟩
    exact absurd same (other s)

theorem nonemptyJson_ok (label : Str) {maximum : Nat} {value : Json}
    (h : ∃ s, value = .str s ∧ strip s ≠ [] ∧ s.length ≤ maximum) :
    ∃ text, nonemptyJson label maximum value = .ok text :=
  nonemptyJson_ok_iff.mpr h

theorem magnitude_value_iff {host : Host} {value : Json} :
    Raises Fault.IsValue (magnitude host value) ↔
      ∀ fields, value = .object fields → MagnitudeNamed fields →
        ConvertsToFloat (item "value" fields) := by
  have review : ∀ {α : Type} {x : Except Fault α}, Raises Fault.IsReview x →
      Raises Fault.IsValue x := fun h => raises_mono (fun _ => .inl) h
  unfold magnitude
  split
  · exact ⟨fun _ _ impossible => (nomatch impossible), fun _ => raises_ok⟩
  rw [raises_bind]
  -- only the conversion of the number may escape, and it comes last
  constructor
  · rintro ⟨_, h⟩ fields rfl named
    obtain ⟨kind, foundKind⟩ := enumMember_ok host "MagnitudeKind" named.kind
    obtain ⟨raw, foundRaw⟩ := nonemptyJson_ok "claimed magnitude" named.raw
    have h := h fields (strictFields_ok_iff.mpr ⟨rfl, named.exact⟩)
    have h := (raises_bind.mp h).2 kind foundKind
    have h := (raises_bind.mp (raises_bind.mp h).1).2 raw foundRaw
    exact magnitudeValue_value_iff.mp (raises_bind.mp h).1
  · intro convertible
    refine ⟨review strictFields_review, fun fields found => ?_⟩
    obtain ⟨same, exact⟩ := strictFields_ok_iff.mp found
    refine raises_bind.mpr ⟨enumMember_value, fun kind foundKind => ?_⟩
    refine raises_bind.mpr ⟨?_, fun _ _ => raises_ok⟩
    refine raises_bind.mpr ⟨review nonemptyJson_review, fun raw foundRaw => ?_⟩
    have named : MagnitudeNamed fields :=
      ⟨exact, enumMember_ok_iff.mp ⟨kind, foundKind⟩, nonemptyJson_ok_iff.mp ⟨raw, foundRaw⟩⟩
    refine raises_bind.mpr ⟨magnitudeValue_value_iff.mpr (convertible fields same named), ?_⟩
    intro _ _
    exact raises_bind.mpr ⟨review magnitudeUnit_review, fun _ _ => raises_ok⟩

/-! ### Candidates that raise nothing but a review error -/

/-- The fields that come before the magnitude are valid. -/
structure ReachesMagnitude (located : LocatedCandidate) : Prop where
  claimType : IsMember ClaimType.values (item "claim_type" located.fields)
  location : ∃ location, sourceLocation located.sourceId located.record.kind
    located.record.path.val located.startLine located.endLine = .ok location
  direction : IsMember ClaimDirection.values (item "direction" located.fields)

/-- A candidate that can be converted and encoded as far as its checks get: its confidence is no
integer beyond the floats; with a finite confidence and a metric it can be encoded; and where its
magnitude is built, the value is no integer beyond the floats. -/
structure Convertible (host : Host) (bundle : SourceBundle) (value : Json) : Prop where
  confidence : ∀ located, CitesItsLines bundle value located →
    ConvertsToFloat (item "confidence" located.fields)
  encodable : ∀ located, CitesItsLines bundle value located →
    IsFiniteNumber (item "confidence" located.fields) → IsMetric (item "metric" located.fields) →
    Encodable host (.object located.fields)
  magnitude : ∀ located, CitesItsLines bundle value located →
    IsFiniteNumber (item "confidence" located.fields) → IsMetric (item "metric" located.fields) →
    ReachesMagnitude located → ∀ fields, item "claimed_magnitude" located.fields = .object fields →
    MagnitudeNamed fields → ConvertsToFloat (item "value" fields)

theorem guarded_review_iff {α : Type} {index : Nat} {x : Except Fault α} :
    Raises Fault.IsReview (guarded index x) ↔ Raises Fault.IsValue x := by
  unfold guarded
  split
  · exact ⟨fun _ => raises_error.mpr (.inl ⟨_, rfl⟩), fun _ => reviewError_review⟩
  · exact ⟨fun _ => raises_error.mpr (.inr ⟨_, rfl⟩), fun _ => reviewError_review⟩
  next notReview notValue =>
    refine ⟨fun h => raises_mono (fun _ => .inl) h, fun h fault same => ?_⟩
    rcases h fault same with review | ⟨message, rfl⟩
    · exact review
    · exact absurd same (notValue message)

theorem buildClaim_value_iff {host : Host} {located : LocatedCandidate} {confidence : Binary64}
    {metric : Option Str} {claimId : Str} :
    Raises Fault.IsValue (buildClaim host located confidence metric claimId) ↔
      (ReachesMagnitude located → ∀ fields,
        item "claimed_magnitude" located.fields = .object fields → MagnitudeNamed fields →
          ConvertsToFloat (item "value" fields)) := by
  have review : ∀ {α : Type} {x : Except Fault α}, Raises Fault.IsReview x →
      Raises Fault.IsValue x := fun h => raises_mono (fun _ => .inl) h
  constructor
  · intro h reaches
    obtain ⟨claimType, foundType⟩ := enumMember_ok host "ClaimType" reaches.claimType
    obtain ⟨location, foundLocation⟩ := reaches.location
    obtain ⟨direction, foundDirection⟩ := enumMember_ok host "ClaimDirection" reaches.direction
    have h := (raises_bind.mp h).2 claimType foundType
    have h := (raises_bind.mp h).2 location foundLocation
    have h := (raises_bind.mp h).2 direction foundDirection
    exact magnitude_value_iff.mp (raises_bind.mp h).1
  -- every other reader raises nothing but a ReviewError
  · intro convertible
    refine raises_bind.mpr ⟨enumMember_value, fun claimType foundType => ?_⟩
    refine raises_bind.mpr ⟨review sourceLocation_review, fun location foundLocation => ?_⟩
    refine raises_bind.mpr ⟨enumMember_value, fun direction foundDirection => ?_⟩
    have reaches : ReachesMagnitude located := ⟨enumMember_ok_iff.mp ⟨_, foundType⟩,
      ⟨_, foundLocation⟩, enumMember_ok_iff.mp ⟨_, foundDirection⟩⟩
    refine raises_bind.mpr ⟨magnitude_value_iff.mpr (convertible reaches), fun _ _ => ?_⟩
    refine raises_bind.mpr ⟨review stringList_review, fun _ _ => ?_⟩
    refine raises_bind.mpr ⟨review stringList_review, fun _ _ => ?_⟩
    exact review scientificClaim_review

theorem claimIdOf_review_iff {host : Host} {fields : Members} :
    Raises Fault.IsReview (claimIdOf host fields) ↔ Encodable host (.object fields) := by
  rw [← canonicalBytes_review_iff, claimIdOf, raises_bind]
  exact ⟨fun h => h.1, fun h => ⟨h, fun _ _ => raises_ok⟩⟩

/-- What a candidate encodes to, where it can be encoded. -/
theorem claimIdOf_ok {host : Host} {fields : Members} (h : Encodable host (.object fields)) :
    ∃ claimId, claimIdOf host fields = .ok claimId := by
  obtain ⟨fits, finite, encoded⟩ := h
  obtain ⟨bytes, encoded⟩ := Option.isSome_iff_exists.mp encoded
  refine ⟨_, bind_ok_iff.mpr ⟨bytes, ?_, rfl⟩⟩
  simp only [canonicalBytes, fits, Bool.true_eq_false, if_false, dumps, if_pos finite]
  have sorts : canonicalStyle.sortKeys = true := rfl
  simp only [sorts, if_true, encoded]

/-- The validation of one candidate raises nothing but a review error exactly when the candidate
can be converted. -/
theorem validateCandidate_review_iff {host : Host} {bundle : SourceBundle} {index : Nat}
    {value : Json} :
    Raises Fault.IsReview (validateCandidate host bundle [] index value) ↔
      Convertible host bundle value := by
  constructor
  · intro h
    -- the rest of the checks, once the candidate quotes its lines
    have located : ∀ located, CitesItsLines bundle value located → _ := fun located cites =>
      (raises_bind.mp h).2 located (locateCandidate_ok_iff.mpr cites)
    have encoded : ∀ located, CitesItsLines bundle value located →
        IsFiniteNumber (item "confidence" located.fields) →
        IsMetric (item "metric" located.fields) → ∃ confidence metric,
          Raises Fault.IsReview (claimIdOf host located.fields >>= fun claimId =>
            rejectWhen false (claimLabel index ++ lit " duplicates an earlier claim") >>= fun _ =>
              guarded index (buildClaim host located confidence metric claimId)) := by
      intro candidate cites finite named
      obtain ⟨confidence, foundConfidence⟩ := candidateConfidence_ok_iff.mpr finite
      obtain ⟨metric, foundMetric⟩ := candidateMetric_ok_iff.mpr named
      have h := (raises_bind.mp (located candidate cites)).2 confidence foundConfidence
      exact ⟨confidence, metric, (raises_bind.mp h).2 metric foundMetric⟩
    refine ⟨fun candidate cites => ?_, fun candidate cites finite named => ?_,
      fun candidate cites finite named => ?_⟩
    · exact candidateConfidence_review_iff.mp (raises_bind.mp (located candidate cites)).1
    · obtain ⟨_, _, h⟩ := encoded candidate cites finite named
      exact claimIdOf_review_iff.mp (raises_bind.mp h).1
    · obtain ⟨confidence, metric, h⟩ := encoded candidate cites finite named
      obtain ⟨writable, h⟩ := raises_bind.mp h
      obtain ⟨claimId, found⟩ := claimIdOf_ok (claimIdOf_review_iff.mp writable)
      have h := (raises_bind.mp (h claimId found)).2 () rfl
      exact buildClaim_value_iff.mp (guarded_review_iff.mp h)
  · intro convertible
    refine raises_bind.mpr ⟨locateCandidate_review, fun located found => ?_⟩
    have cites := locateCandidate_ok_iff.mp found
    have converts := convertible.confidence located cites
    refine raises_bind.mpr ⟨candidateConfidence_review_iff.mpr converts, fun confidence known => ?_⟩
    have finite := candidateConfidence_ok_iff.mp ⟨confidence, known⟩
    refine raises_bind.mpr ⟨candidateMetric_review, fun metric given => ?_⟩
    have named := candidateMetric_ok_iff.mp ⟨metric, given⟩
    refine raises_bind.mpr ⟨claimIdOf_review_iff.mpr
      (convertible.encodable located cites finite named), fun claimId _ => ?_⟩
    refine raises_bind.mpr ⟨rejectWhen_review, fun _ _ => ?_⟩
    apply guarded_review_iff.mpr
    exact buildClaim_value_iff.mpr (convertible.magnitude located cites finite named)

/-! ### One candidate on its own -/

/-- The canonical JSON of a candidate. -/
def canonicalText (value : Json) : Str := value.sorted.render canonicalStyle 0

/-- The identifier a canonical JSON text is given. -/
def claimIdText (host : Host) (text : Str) : Str :=
  lit "claim-" ++ shortDigest host ((encodeUtf8 text).getD [])

/-- A response with a list of candidates. -/
def response (candidates : List Json) : Json := .object [("claims", .array candidates)]

theorem responseCandidates_response {host : Host} {candidates : List Json} {maxClaims : Nat}
    (positive : 1 ≤ maxClaims) (bounded : maxClaims ≤ MAX_CLAIMS)
    (short : candidates.length ≤ maxClaims) :
    responseCandidates host (response candidates) maxClaims = .ok candidates := by
  refine bind_ok_iff.mpr ⟨(), rejectWhen_ok_iff.mpr ?_, ?_⟩
  · rw [Bool.or_eq_false_iff]
    exact ⟨decide_eq_false (by omega), decide_eq_false (by omega)⟩
  · refine bind_ok_iff.mpr ⟨_, strictFields_ok_iff.mpr ⟨rfl, fun key => Iff.rfl⟩, ?_⟩
    have found : item "claims" [((lit "claims"), Json.array candidates)] = .array candidates := rfl
    rw [found]
    exact if_neg (Nat.not_lt.mpr short)

theorem validateAlone_eq {host : Host} {bundle : SourceBundle} {candidate : Json} :
    validateAlone host bundle candidate =
      validateCandidate host bundle [] 0 (recoverExactQuoteLocation bundle candidate) := by
  have single : validateClaimCandidates host
      (.object [("claims", .array [recoverExactQuoteLocation bundle candidate])]) bundle 1 =
      validateLoop host bundle [] 0 [recoverExactQuoteLocation bundle candidate] := by
    have candidates := @responseCandidates_response host
      [recoverExactQuoteLocation bundle candidate] 1 le_rfl (by decide) le_rfl
    rw [response] at candidates
    rw [validateClaimCandidates, candidates]
    rfl
  rw [validateAlone, single, validateLoop]
  cases validateCandidate host bundle [] 0 (recoverExactQuoteLocation bundle candidate) <;> rfl

/-- A claim quotes what its candidate quotes, under the identifier that the candidate was given. -/
structure ClaimOf (located : LocatedCandidate) (claimId : Str) (claim : ScientificClaim) : Prop where
  claimId : claim.claimId.val = claimId
  sourceText : claim.sourceText.val = located.sourceText
  sourceId : claim.source.sourceId.val = located.sourceId
  startLine : claim.source.startLine = located.startLine.toNat
  endLine : claim.source.endLine = located.endLine.toNat

theorem sourceLocation_ok {sourceId : Str} {kind : SourceKind} {path : Option Str}
    {startLine endLine : Int} {location : SourceLocation}
    (h : sourceLocation sourceId kind path startLine endLine = .ok location) :
    location.sourceId.val = sourceId ∧ location.startLine = startLine.toNat ∧
      location.endLine = endLine.toNat := by
  obtain ⟨id, identified, h⟩ := bind_ok_iff.mp h
  obtain ⟨_, _, h⟩ := bind_ok_iff.mp h
  split at h
  · obtain rfl := Except.ok.inj h
    exact ⟨nonemptyText_ok_iff.mp identified, rfl, rfl⟩
  · cases h

theorem scientificClaim_ok {claimId sourceText : Str} {claimType : ClaimType} {subject : Json}
    {source : SourceLocation} {metric : Option Str} {direction : ClaimDirection}
    {claimedMagnitude : Option ClaimMagnitude} {qualifiers : List Str} {confidence : Binary64}
    {evidenceHints : List Str} {claim : ScientificClaim}
    (h : scientificClaim claimId sourceText claimType subject source metric direction
      claimedMagnitude qualifiers confidence evidenceHints = .ok claim) :
    claim.claimId.val = claimId ∧ claim.sourceText.val = sourceText ∧ claim.source = source := by
  obtain ⟨id, identified, h⟩ := bind_ok_iff.mp h
  obtain ⟨text, quoted, h⟩ := bind_ok_iff.mp h
  obtain ⟨_, _, h⟩ := bind_ok_iff.mp h
  obtain ⟨_, _, h⟩ := bind_ok_iff.mp h
  obtain ⟨_, _, h⟩ := bind_ok_iff.mp h
  obtain ⟨_, _, h⟩ := bind_ok_iff.mp h
  obtain ⟨_, _, h⟩ := bind_ok_iff.mp h
  obtain rfl := Except.ok.inj h
  exact ⟨nonemptyText_ok_iff.mp identified, nonemptyText_ok_iff.mp quoted, rfl⟩

theorem buildClaim_ok {host : Host} {located : LocatedCandidate} {confidence : Binary64}
    {metric : Option Str} {claimId : Str} {claim : ScientificClaim}
    (h : buildClaim host located confidence metric claimId = .ok claim) :
    ClaimOf located claimId claim := by
  obtain ⟨_, _, h⟩ := bind_ok_iff.mp h
  obtain ⟨location, built, h⟩ := bind_ok_iff.mp h
  obtain ⟨_, _, h⟩ := bind_ok_iff.mp h
  obtain ⟨_, _, h⟩ := bind_ok_iff.mp h
  obtain ⟨_, _, h⟩ := bind_ok_iff.mp h
  obtain ⟨_, _, h⟩ := bind_ok_iff.mp h
  obtain ⟨identified, quoted, rfl⟩ := scientificClaim_ok h
  obtain ⟨sourceId, startLine, endLine⟩ := sourceLocation_ok built
  exact ⟨identified, quoted, sourceId, startLine, endLine⟩

theorem guarded_ok {α : Type} {index : Nat} {x : Except Fault α} {a : α}
    (h : guarded index x = .ok a) : x = .ok a := by
  unfold guarded at h
  split at h
  · cases h
  · cases h
  · exact h

/-- A claim belongs to a candidate that quotes its lines, under the identifier of the candidate's
canonical JSON. -/
theorem validateCandidate_ok {host : Host} {bundle : SourceBundle} {accepted : List ScientificClaim}
    {index : Nat} {value : Json} {claim : ScientificClaim}
    (h : validateCandidate host bundle accepted index value = .ok claim) :
    ∃ located, CitesItsLines bundle value located ∧
      ClaimOf located (claimIdText host (canonicalText value)) claim := by
  obtain ⟨located, found, h⟩ := bind_ok_iff.mp h
  have cites := locateCandidate_ok_iff.mp found
  obtain ⟨confidence, _, h⟩ := bind_ok_iff.mp h
  obtain ⟨metric, _, h⟩ := bind_ok_iff.mp h
  obtain ⟨claimId, identified, h⟩ := bind_ok_iff.mp h
  obtain ⟨_, _, h⟩ := bind_ok_iff.mp h
  have same : claimId = claimIdText host (canonicalText value) := by
    obtain ⟨bytes, written, h⟩ := bind_ok_iff.mp identified
    obtain rfl := Except.ok.inj h
    have encodable := canonicalBytes_review_iff.mp (by rw [written]; exact raises_ok)
    obtain ⟨fits, finite, encoded⟩ := encodable
    obtain ⟨utf8, encoded⟩ := Option.isSome_iff_exists.mp encoded
    have sorts : canonicalStyle.sortKeys = true := rfl
    simp only [canonicalBytes, fits, Bool.true_eq_false, if_false, dumps, if_pos finite, sorts,
      if_true, encoded] at written
    rw [claimIdText, canonicalText, cites.object, encoded, ← Except.ok.inj written]
    rfl
  rw [← same]
  exact ⟨located, cites, buildClaim_ok (guarded_ok h)⟩

/-! ### The loop over the candidates -/

/-- The claim of a candidate that is valid. -/
def validClaim (host : Host) (bundle : SourceBundle) (candidate : Json) : Option ScientificClaim :=
  (validateAlone host bundle candidate).toOption

/-- One step, on a candidate that raises nothing but a review error. -/
theorem bestEffortLoop_cons {host : Host} {bundle : SourceBundle} {candidate : Json}
    (state : ClaimCandidateValidation) (rest : List Json)
    (raises : Raises Fault.IsReview (validateAlone host bundle candidate)) :
    ∃ next, bestEffortLoop host bundle state (candidate :: rest) =
        bestEffortLoop host bundle next rest ∧
      next.claims = (match validClaim host bundle candidate with
        | none => state.claims
        | some claim =>
          if claim.claimId ∈ state.claims.map ScientificClaim.claimId then state.claims
          else state.claims ++ [claim]) ∧
      next.claims.length + next.rejectionReasons.length =
        state.claims.length + state.rejectionReasons.length + 1 := by
  rw [bestEffortLoop, validClaim]
  cases validated : validateAlone host bundle candidate with
  -- a rejected candidate leaves its reason
  | error fault =>
    obtain ⟨message, rfl⟩ := raises fault validated
    refine ⟨⟨state.claims, state.rejectionReasons ++ [claimRejectionReason message]⟩, rfl, rfl, ?_⟩
    simp only [List.length_append, List.length_singleton]
    omega
  | ok claim =>
    -- an accepted one is kept unless its identifier is known
    have known : state.claims.any (fun known => known.claimId == claim.claimId) = true ↔
        claim.claimId ∈ state.claims.map ScientificClaim.claimId := by
      simp only [List.any_eq_true, beq_iff_eq, List.mem_map]
    simp only [known, Except.toOption]
    split
    · refine ⟨⟨state.claims, state.rejectionReasons ++ [lit "duplicate_claim"]⟩, rfl, rfl, ?_⟩
      simp only [List.length_append, List.length_singleton]
      omega
    · refine ⟨⟨state.claims ++ [claim], state.rejectionReasons⟩, rfl, rfl, ?_⟩
      simp only [List.length_append, List.length_singleton]
      omega

/-- The loop keeps the first occurrences of the valid claims and gives a reason for every other
candidate. -/
theorem bestEffortLoop_ok {host : Host} {bundle : SourceBundle} (candidates : List Json)
    (state : ClaimCandidateValidation)
    (raises : ∀ c ∈ candidates, Raises Fault.IsReview (validateAlone host bundle c)) :
    ∃ result, bestEffortLoop host bundle state candidates = .ok result ∧
      result.claims = state.claims ++ firstsFrom ScientificClaim.claimId
        (state.claims.map ScientificClaim.claimId)
        (candidates.filterMap (validClaim host bundle)) ∧
      result.claims.length + result.rejectionReasons.length =
        state.claims.length + state.rejectionReasons.length + candidates.length := by
  induction candidates generalizing state with
  | nil => exact ⟨state, rfl, by simp [firstsFrom], rfl⟩
  | cons candidate rest ih =>
    obtain ⟨next, step, claims, counted⟩ :=
      bestEffortLoop_cons state rest (raises candidate List.mem_cons_self)
    obtain ⟨result, run, kept, total⟩ :=
      ih next fun c member => raises c (List.mem_cons_of_mem _ member)
    refine ⟨result, step.trans run, ?_, by rw [total, counted, List.length_cons]; omega⟩
    rw [kept, List.filterMap_cons]
    cases valid : validClaim host bundle candidate with
    | none =>
      rw [valid] at claims
      rw [claims]
    | some claim =>
      rw [valid] at claims
      dsimp only at claims ⊢
      rw [firstsFrom]
      split
      next known => rw [claims, if_pos known]
      next new =>
        rw [claims, if_neg new, List.append_assoc, List.singleton_append]
        congr 2
        -- the loop appends the identifier, the first occurrences put it in front
        apply firstsFrom_congr
        intro id
        rw [List.map_append, List.map_singleton, List.mem_append, List.mem_singleton,
          List.mem_cons]
        exact or_comm

/-- The loop returns only when no candidate raises anything but a review error. -/
theorem bestEffortLoop_raises {host : Host} {bundle : SourceBundle} {candidates : List Json}
    {state result : ClaimCandidateValidation}
    (h : bestEffortLoop host bundle state candidates = .ok result) :
    ∀ c ∈ candidates, Raises Fault.IsReview (validateAlone host bundle c) := by
  induction candidates generalizing state with
  | nil => exact fun c member => absurd member List.not_mem_nil
  | cons candidate rest ih =>
    have first : Raises Fault.IsReview (validateAlone host bundle candidate) := by
      intro fault raised
      rw [bestEffortLoop, raised] at h
      cases fault with
      | reviewError message => exact ⟨message, rfl⟩
      | _ => cases h
    obtain ⟨next, step, _⟩ := bestEffortLoop_cons state rest first
    exact List.forall_mem_cons.mpr ⟨first, ih (step ▸ h)⟩

/-! ### A response as a whole -/

/-- The claim that is retained when the candidate is the whole response. -/
def retainedAlone (host : Host) (bundle : SourceBundle) (candidate : Json) :
    Option ScientificClaim :=
  match validateClaimCandidatesBestEffort host (response [candidate]) bundle 1 with
  | .ok result => result.claims.head?
  | .error _ => none

/-- The candidates that are individually valid, as they are validated, with their claims. -/
def individuallyValid (host : Host) (bundle : SourceBundle) (candidates : List Json) :
    List (Json × ScientificClaim) :=
  candidates.filterMap fun candidate => (retainedAlone host bundle candidate).map fun claim =>
    (recoverExactQuoteLocation bundle candidate, claim)

/-- What is asked of a response: it is handled without an exception, the claims are the first
occurrences of the individually valid candidates, where equal canonical JSON is the same
candidate, and each candidate is either a claim or has a rejection reason. -/
def ResponseHandled (host : Host) (bundle : SourceBundle) (candidates : List Json)
    (maxClaims : Nat) : Prop :=
  ∃ result, validateClaimCandidatesBestEffort host (response candidates) bundle maxClaims =
      .ok result ∧
    result.claims = (firstOccurrences (fun valid => canonicalText valid.1)
      (individuallyValid host bundle candidates)).map Prod.snd ∧
    result.claims.length + result.rejectionReasons.length = candidates.length

theorem bestEffort_response {host : Host} {bundle : SourceBundle} {candidates : List Json}
    {maxClaims : Nat} (positive : 1 ≤ maxClaims) (bounded : maxClaims ≤ MAX_CLAIMS)
    (short : candidates.length ≤ maxClaims) :
    validateClaimCandidatesBestEffort host (response candidates) bundle maxClaims =
      bestEffortLoop host bundle ⟨[], []⟩ candidates := by
  rw [validateClaimCandidatesBestEffort, responseCandidates_response positive bounded short]
  rfl

theorem retainedAlone_eq {host : Host} {bundle : SourceBundle} {candidate : Json} :
    retainedAlone host bundle candidate = validClaim host bundle candidate := by
  rw [retainedAlone, bestEffort_response le_rfl (by decide) le_rfl, bestEffortLoop, validClaim]
  cases validateAlone host bundle candidate with
  | error fault => cases fault <;> rfl
  | ok claim => rfl

/-- The valid claims are those of the individually valid candidates. -/
theorem filterMap_validClaim {host : Host} {bundle : SourceBundle} {candidates : List Json} :
    candidates.filterMap (validClaim host bundle) =
      (individuallyValid host bundle candidates).map Prod.snd := by
  rw [individuallyValid, List.map_filterMap]
  congr 1
  funext candidate
  rw [retainedAlone_eq, Option.map_map]
  cases validClaim host bundle candidate <;> rfl

/-- An individually valid claim carries the identifier of its canonical JSON. -/
theorem individuallyValid_claimId {host : Host} {bundle : SourceBundle} {candidates : List Json}
    {valid : Json × ScientificClaim} (h : valid ∈ individuallyValid host bundle candidates) :
    valid.2.claimId.val = claimIdText host (canonicalText valid.1) := by
  obtain ⟨candidate, _, found⟩ := List.mem_filterMap.mp h
  obtain ⟨claim, retained, rfl⟩ := Option.map_eq_some_iff.mp found
  rw [retainedAlone_eq, validClaim] at retained
  cases validated : validateAlone host bundle candidate with
  | error fault =>
    rw [validated] at retained
    cases retained
  | ok other =>
    rw [validated] at retained
    obtain rfl : other = claim := Option.some.inj retained
    rw [validateAlone_eq] at validated
    obtain ⟨_, _, belongs⟩ := validateCandidate_ok validated
    exact belongs.claimId

/-- The claims that the loop keeps, by the identifiers of their canonical JSON. -/
theorem firstOccurrences_claimId {host : Host} {bundle : SourceBundle} {candidates : List Json} :
    firstOccurrences ScientificClaim.claimId (candidates.filterMap (validClaim host bundle)) =
      (firstOccurrences (claimIdText host ∘ fun valid => canonicalText valid.1)
        (individuallyValid host bundle candidates)).map Prod.snd := by
  rw [filterMap_validClaim, firstOccurrences, firstsFrom_map, firstOccurrences]
  congr 1
  exact firstsFrom_key_congr Subtype.val_injective fun valid member =>
    (individuallyValid_claimId member).symm

/-- The shortened digests tell the canonical JSON of the individually valid candidates apart. -/
def DigestsTellApart (host : Host) (bundle : SourceBundle) (candidates : List Json) : Prop :=
  Set.InjOn (claimIdText host) {text | text ∈
    (individuallyValid host bundle candidates).map fun valid => canonicalText valid.1}

/-- A response within the list bound is handled candidate by candidate exactly when every
candidate can be converted and no two valid candidates share an identifier. -/
theorem responseHandled_iff (host : Host) (bundle : SourceBundle) (candidates : List Json)
    (maxClaims : Nat) (positive : 1 ≤ maxClaims) (bounded : maxClaims ≤ MAX_CLAIMS)
    (short : candidates.length ≤ maxClaims) :
    ResponseHandled host bundle candidates maxClaims ↔
      (∀ c ∈ candidates, Convertible host bundle (recoverExactQuoteLocation bundle c)) ∧
        DigestsTellApart host bundle candidates := by
  have converts : ∀ c, Raises Fault.IsReview (validateAlone host bundle c) ↔
      Convertible host bundle (recoverExactQuoteLocation bundle c) := by
    intro c
    rw [validateAlone_eq]
    exact validateCandidate_review_iff
  rw [ResponseHandled, bestEffort_response positive bounded short]
  constructor
  -- the loop ran to its end, so every candidate was caught or accepted
  · rintro ⟨result, run, claims, _⟩
    have raises := bestEffortLoop_raises run
    obtain ⟨other, again, kept, _⟩ := bestEffortLoop_ok candidates ⟨[], []⟩ raises
    obtain rfl := Except.ok.inj (again.symm.trans run)
    refine ⟨fun c member => (converts c).mp (raises c member), ?_⟩
    rw [List.nil_append] at kept
    have keyed := kept.symm.trans claims
    rw [List.map_nil] at keyed
    have lengths := congrArg List.length (firstOccurrences_claimId.symm.trans keyed)
    rw [List.length_map, List.length_map] at lengths
    exact injOn_of_length_firstOccurrences lengths
  -- identifiers that are apart leave every accepted claim
  · rintro ⟨convertible, apart⟩
    obtain ⟨result, run, kept, counted⟩ := bestEffortLoop_ok candidates ⟨[], []⟩
      fun c member => (converts c).mpr (convertible c member)
    refine ⟨result, run, ?_, by simpa using counted⟩
    rw [kept, List.nil_append, List.map_nil]
    refine firstOccurrences_claimId.trans ?_
    rw [firstOccurrences_comp apart]

/-! ### A response that is handled and one that is not -/

/-- A candidate that quotes the lines it names is not moved. -/
theorem recover_of_isAtItsLocation {bundle : SourceBundle} {members source : Members}
    {sourceText sourceId : Str} {record : SourceRecord}
    (cited : lookupKey "source" members = some (.object source))
    (quotes : lookupKey "source_text" members = some (.str sourceText))
    (identified : lookupKey "source_id" source = some (.str sourceId))
    (known : bundle.record sourceId = some record)
    (there : isAtItsLocation record sourceText source = true) :
    recoverExactQuoteLocation bundle (.object members) = .object members := by
  simp only [recoverExactQuoteLocation, cited, quotes, identified, known, there, or_true, if_true]

theorem thousandLevels (value : Json) (h : value.depth ≤ 2 * MAX_NESTING_DEPTH) :
    decide (value.depth ≤ 1000) = true := by
  have levels := show 2 * MAX_NESTING_DEPTH = 512 from rfl
  exact decide_eq_true (by omega)

theorem titlePath : ∃ raw, normalizePath .pullRequestTitle raw = .ok none := ⟨none, rfl⟩

theorem isSha256_repeated : isSha256 (List.replicate 64 0x61) = true := by decide

theorem sampleId_text : strip (lit "source-1") ≠ [] ∧ (lit "source-1").length ≤ 128 := by decide

def sampleHost : Host where
  sha256 _ := List.replicate 64 0x61
  repr value := value.render canonicalStyle 0
  recursion := ⟨fun value => value.depth ≤ 1000, thousandLevels⟩

/-- A pull request title. -/
def sampleTitle : SourceRecord where
  sourceId := ⟨lit "source-1", sampleId_text⟩
  kind := .pullRequestTitle
  path := ⟨none, titlePath⟩
  text := "Accuracy improves by 2%"
  sha256 := ⟨List.replicate 64 0x61, isSha256_repeated⟩

def sampleSources : SourceBundle := ⟨[sampleTitle], [], [], noneIssued⟩

/-- A candidate that quotes the title. -/
def sampleCandidate (confidence : Json) : Json := .object [
  ("source_text", .str "Accuracy improves by 2%"), ("claim_type", .str "metric_improvement"),
  ("subject", .str "model"), ("metric", .str "accuracy"), ("direction", .str "higher"),
  ("claimed_magnitude", .null), ("qualifiers", .array []),
  ("source", .object [("source_id", .str "source-1"), ("start_line", .int 1),
    ("end_line", .int 1)]),
  ("confidence", confidence), ("evidence_hints", .array [])]

/-- A valid candidate, one whose confidence is refused, and the first one again. -/
def threeCandidates : List Json :=
  [sampleCandidate (.int 1), sampleCandidate (.int 2), sampleCandidate (.int 1)]

theorem threeCandidates_cases {c : Json} (member : c ∈ threeCandidates) :
    c = sampleCandidate (.int 1) ∨ c = sampleCandidate (.int 2) := by
  simp only [threeCandidates, List.mem_cons, List.not_mem_nil, or_false] at member
  tauto

theorem threeCandidates_located {c : Json} (member : c ∈ threeCandidates) :
    recoverExactQuoteLocation sampleSources c = c := by
  rcases threeCandidates_cases member with rfl | rfl
  · exact recover_of_isAtItsLocation rfl rfl rfl rfl (by decide +kernel)
  · exact recover_of_isAtItsLocation rfl rfl rfl rfl (by decide +kernel)

/-- One claim is retained, and two candidates have a rejection reason. -/
theorem responseHandled_sample :
    ResponseHandled sampleHost sampleSources threeCandidates MAX_CLAIMS ∧
      (validateClaimCandidatesBestEffort sampleHost (response threeCandidates) sampleSources
        MAX_CLAIMS).toOption.map (fun result =>
          (result.claims.length, result.rejectionReasons.length)) = some (1, 2) := by
  refine ⟨(responseHandled_iff sampleHost sampleSources threeCandidates MAX_CLAIMS
    (by decide) (by decide) (by decide)).mpr ⟨?_, ?_⟩, by decide +kernel⟩
  · intro c member
    rw [threeCandidates_located member]
    rcases threeCandidates_cases member with rfl | rfl
    all_goals
      refine ⟨fun located cites => ?_, fun located cites _ _ => ?_,
        fun located cites _ _ _ fields given => ?_⟩
    -- the confidence, the quoted lines and the magnitude of each of the two candidates
    · rw [← Json.object.inj cites.object]
      rintro n integer
      obtain rfl : (1 : Int) = n := Json.int.inj integer
      decide +kernel
    · rw [← cites.object]
      exact ⟨by decide +kernel, by decide +kernel, by decide +kernel⟩
    · rw [← Json.object.inj cites.object] at given
      cases given
    · rw [← Json.object.inj cites.object]
      rintro n integer
      obtain rfl : (2 : Int) = n := Json.int.inj integer
      decide +kernel
    · rw [← cites.object]
      exact ⟨by decide +kernel, by decide +kernel, by decide +kernel⟩
    · rw [← Json.object.inj cites.object] at given
      cases given
  · have refused : (validClaim sampleHost sampleSources (sampleCandidate (.int 2))).isNone = true := by
      decide +kernel
    have single : ∀ text ∈ (individuallyValid sampleHost sampleSources threeCandidates).map
        (fun valid => canonicalText valid.1), text = canonicalText (sampleCandidate (.int 1)) := by
      intro text member
      obtain ⟨valid, known, rfl⟩ := List.mem_map.mp member
      obtain ⟨candidate, listed, found⟩ := List.mem_filterMap.mp known
      obtain ⟨claim, valid, rfl⟩ := Option.map_eq_some_iff.mp found
      rw [threeCandidates_located listed]
      rcases threeCandidates_cases listed with rfl | rfl
      · rfl
      · rw [retainedAlone_eq, Option.isNone_iff_eq_none.mp refused] at valid
        cases valid
    intro a ha b hb _
    rw [single a ha, single b hb]

/-- A confidence beyond the floats raises an `OverflowError`, which is not caught, and takes down a
response with valid candidates. -/
theorem hugeConfidence_not_handled :
    ¬ ∀ (host : Host) (bundle : SourceBundle) (candidates : List Json) (maxClaims : Nat),
      1 ≤ maxClaims → maxClaims ≤ MAX_CLAIMS → candidates.length ≤ maxClaims →
        ResponseHandled host bundle candidates maxClaims := by
  intro handled
  obtain ⟨result, run, _⟩ := handled sampleHost sampleSources
    [sampleCandidate (.int 1), sampleCandidate (.int (10 ^ 400))] MAX_CLAIMS
    (by decide) (by decide) (by decide)
  have raised : (validateClaimCandidatesBestEffort sampleHost (response
      [sampleCandidate (.int 1), sampleCandidate (.int (10 ^ 400))]) sampleSources
      MAX_CLAIMS).toOption.isNone = true := by decide +kernel
  rw [run] at raised
  cases raised

end ClaimCI.Review
