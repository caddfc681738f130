import ClaimCI.Analysis.Contracts
import ClaimCI.Measurement
import ClaimCI.ResultCheck

/-!
# Selectors

The selectors by which the analysis names one value of an artifact, with their provenance.
-/

open Python

namespace ClaimCI

/-- What the analysis takes from the Unicode database of its interpreter. -/
structure UnicodeTables where
  /-- `text.casefold()`. -/
  casefold : Str → Str
  /-- The general category of the character starts with `C`. -/
  isOther : CodePoint → Bool

def hasControl (value : Str) : Bool := value.any fun c => c.val < 32 || c.val == 127

/-- `_bounded_text`. -/
def boundedText (label value : Str) (maximum : Nat) : Except Error Unit := do
  rejectIf (strip value == []) (contractError (label ++ lit " must be a non-empty string"))
  rejectIf (maximum < value.length)
    (contractError (label ++ lit " exceeds " ++ natText maximum ++ lit " characters"))

/-- `_bounded_id`. -/
def boundedId (label value : Str) (maximum : Nat) : Except Error Unit := do
  boundedText label value maximum
  rejectIf (value != strip value || hasControl value)
    (contractError (label ++ lit " must be a canonical text identifier"))

theorem boundedText_ok {label value : Str} {maximum : Nat} (filled : strip value ≠ [])
    (short : value.length ≤ maximum) : boundedText label value maximum = .ok () := by
  have notEmpty : rejectIf (strip value == [])
      (contractError (label ++ lit " must be a non-empty string")) = .ok () := by
    rw [rejectIf_ok_iff]
    simpa using filled
  rw [boundedText, notEmpty]
  apply rejectIf_ok_iff.mpr
  exact decide_eq_false (Nat.not_lt.mpr short)

theorem boundedId_ok {label value : Str} {maximum : Nat} (filled : value ≠ [])
    (stripped : value = strip value) (short : value.length ≤ maximum)
    (clean : hasControl value = false) : boundedId label value maximum = .ok () := by
  rw [boundedId, boundedText_ok (stripped ▸ filled) short]
  apply rejectIf_ok_iff.mpr
  rw [clean, Bool.or_false, bne_eq_false_iff_eq]
  exact stripped

/-! ### Provenance -/

inductive ProvenanceKind where
  | deterministicDiscovery | adapterExtraction | manifestHint | providerProposal | userApproved
  deriving DecidableEq, Repr

def ProvenanceKind.value : ProvenanceKind → Str
  | deterministicDiscovery => "deterministic_discovery"
  | adapterExtraction => "adapter_extraction"
  | manifestHint => "manifest_hint"
  | providerProposal => "provider_proposal"
  | userApproved => "user_approved"

/-- `FieldProvenance.__post_init__`; a source path is one that `RepositoryPath` has checked. -/
def FieldProvenance.check (detail : Str) (sourceId : Option Str) : Except Error Unit := do
  boundedText "provenance detail" detail 4096
  match sourceId with
  | none => pure ()
  | some id => boundedId "provenance source_id" id 256

structure FieldProvenance where
  kind : ProvenanceKind
  detail : Str
  sourcePath : Option Str
  sourceId : Option Str
  checked : FieldProvenance.check detail sourceId = .ok ()
  deriving DecidableEq

/-- The constructor. -/
def fieldProvenance (kind : ProvenanceKind) (detail : Str) (sourcePath sourceId : Option Str) :
    Except Error FieldProvenance :=
  match h : FieldProvenance.check detail sourceId with
  | .error error => .error error
  | .ok () => .ok ⟨kind, detail, sourcePath, sourceId, h⟩

/-! ### Selectors of one field -/

inductive SelectorKind where
  | jsonPointer | dottedPath | column
  deriving DecidableEq, Repr

def SelectorKind.value : SelectorKind → Str
  | jsonPointer => "json_pointer"
  | dottedPath => "dotted_path"
  | column => "column"

/-- `_INVALID_JSON_POINTER_ESCAPE.search`, in a text without control characters. -/
def invalidPointerEscape : Str → Bool
  | [] => false
  | c :: rest =>
    (c == codePoint 0x7E && !(rest.head?.any fun d => (lit "01").contains d)) ||
      invalidPointerEscape rest

/-- `_DOTTED_SEGMENT.fullmatch`. -/
def isDottedSegment (s : Str) : Bool :=
  s != [] && s.all fun c => isAsciiAlphanumeric c || (lit "_-").contains c

/-- `_COLUMN_NAME.fullmatch`. -/
def isColumnName (s : Str) : Bool :=
  (s.head?.any fun c => isAsciiAlphanumeric c || (lit "_").contains c) &&
    s.tail.all (fun c => isAsciiAlphanumeric c || (lit "_. -").contains c) && s.length ≤ 256

/-- `EvidenceSelector.__post_init__`. -/
def EvidenceSelector.check (kind : SelectorKind) (expression : Str) : Except Error Unit := do
  boundedText "selector expression" expression 1024
  rejectIf (hasControl expression)
    (contractError "selector expression contains control characters")
  rejectIf (kind == .jsonPointer && (expression.head? != some (codePoint 0x2F) ||
      invalidPointerEscape expression))
    (contractError "JSON pointer selector must start with '/' and use valid escapes")
  rejectIf (kind == .dottedPath && (expression.head? == some DOT ||
      expression.getLast? == some DOT || (split DOT expression).any fun part =>
        !isDottedSegment part))
    (contractError "dotted selector path is invalid")
  rejectIf (kind == .column && !isColumnName expression)
    (contractError "column selector name is invalid")

structure EvidenceSelector where
  kind : SelectorKind
  expression : Str
  provenance : FieldProvenance
  checked : EvidenceSelector.check kind expression = .ok ()
  deriving DecidableEq

/-! ### Selectors of table cells -/

inductive TableScalarType where
  | string | number | boolean | null
  deriving DecidableEq, Repr

def TableScalarType.value : TableScalarType → Str
  | string => "string"
  | number => "number"
  | boolean => "boolean"
  | null => "null"

/-- `str` of a normalized number, with one spelling of zero. -/
def canonicalNumberText (d : Decimal) : Except Error Str := do
  let normalized := d.normalize DEFAULT_PRECISION
  let canonical := if normalized.isZero then lit "0" else normalized.spelling.render
  rejectIf (128 < canonical.length)
    (contractError "table number predicate exceeds its canonical bound")
  pure canonical

/-- `_canonical_table_number`. -/
def canonicalTableNumber : Value → Except Error Str
  | .int n =>
    match Binary64.ofInt n with
    | none => .error (contractError "table number predicate must be finite")
    | some _ => canonicalNumberText (Decimal.ofInt n)
  | .float x => canonicalNumberText x.toDecimal
  | .infinity _ => .error (contractError "table number predicate must be finite")
  | .nan _ => .error (contractError "table number predicate must be finite")
  | _ => .error (.typeError "table number predicate value must be an integer or float")

section Tables

variable (ut : UnicodeTables)

/-- The checks of a predicate value, with the canonical value of one that passes. -/
def predicateCanonical : TableScalarType → Value → Except Error Str
  | .string, .str s =>
    if 1024 < s.length ∨ s.any ut.isOther = true then
      .error (contractError "table string predicate value is invalid")
    else .ok s
  | .string, _ => .error (.typeError "table string predicate requires a string value")
  | .number, value => canonicalTableNumber value
  | .boolean, .bool b => .ok (if b then lit "true" else lit "false")
  | .boolean, _ => .error (.typeError "table boolean predicate requires a boolean value")
  | .null, .none => .ok "null"
  | .null, _ => .error (.typeError "table null predicate requires a null value")

/-- One typed equality over a column. -/
structure TablePredicate where
  column : Str
  scalarType : TableScalarType
  value : Value
  canonicalValue : Str
  columnNamed : isColumnName column = true
  canonical : predicateCanonical ut scalarType value = .ok canonicalValue

/-- An exact target column and the predicates on the rows it is read in. -/
structure TableSelector where
  column : Str
  predicates : List (TablePredicate ut)
  expectedCardinality : Nat
  provenance : FieldProvenance
  columnNamed : isColumnName column = true
  bounded : 1 ≤ predicates.length ∧ predicates.length ≤ 8
  ordered : predicates.Pairwise fun p q => strLe p.column q.column = true
  distinct : (predicates.map TablePredicate.column).Nodup
  cardinality : 1 ≤ expectedCardinality ∧ expectedCardinality ≤ 32

inductive Selector where
  | field (selector : EvidenceSelector)
  | table (selector : TableSelector ut)

variable {ut}

/-- `p == q`: the fields are compared, and values of numbers are equal across types. -/
def TablePredicate.eq (p q : TablePredicate ut) : Bool :=
  p.column == q.column && p.scalarType == q.scalarType && p.value.same q.value

/-- Equality of two tuples of predicates. -/
def predicatesEq : List (TablePredicate ut) → List (TablePredicate ut) → Bool
  | [], [] => true
  | p :: ps, q :: qs => p.eq q && predicatesEq ps qs
  | _, _ => false

def TableSelector.eq (s t : TableSelector ut) : Bool :=
  s.column == t.column && predicatesEq s.predicates t.predicates &&
    s.expectedCardinality == t.expectedCardinality && s.provenance == t.provenance

/-- `s == t`. -/
def Selector.eq : Selector ut → Selector ut → Bool
  | .field s, .field t => s == t
  | .table s, .table t => s.eq t
  | _, _ => false

/-- `selector_identity`. -/
def selectorIdentity : Selector ut → Json
  | .field s => .array [.str "field", .str s.kind.value, .str s.expression]
  | .table s =>
    .array [.str "table", .str s.column, .int s.expectedCardinality,
      .array (s.predicates.map fun p =>
        .array [.str p.column, .str p.scalarType.value, .str p.canonicalValue])]

end Tables

/-! ### Equality is reflexive -/

section Reflexive

variable {ut : UnicodeTables}

theorem Decimal_eq_refl (d : Decimal) : d.eq d = true := by
  simp [Decimal.eq, Decimal.aligned]

/-- A value that passed the checks of a predicate equals itself. -/
theorem predicateCanonical_same {kind : TableScalarType} {value : Value} {canonical : Str}
    (h : predicateCanonical ut kind value = .ok canonical) : value.same value = true := by
  cases value <;> cases kind <;>
    simp_all [predicateCanonical, canonicalTableNumber, Value.same, Value.sameScalar,
      Value.number, Decimal_eq_refl]

theorem TablePredicate.eq_refl (p : TablePredicate ut) : p.eq p = true := by
  simp only [TablePredicate.eq, beq_self_eq_true, Bool.true_and]
  exact predicateCanonical_same p.canonical

theorem predicatesEq_refl (ps : List (TablePredicate ut)) : predicatesEq ps ps = true := by
  induction ps with
  | nil => rfl
  | cons p ps ih => rw [predicatesEq, p.eq_refl, ih, Bool.true_and]

theorem Selector.eq_refl (s : Selector ut) : s.eq s = true := by
  cases s with
  | field s => exact beq_self_eq_true s
  | table s =>
    simp only [Selector.eq, TableSelector.eq, beq_self_eq_true, predicatesEq_refl,
      Bool.true_and]

end Reflexive

end ClaimCI
