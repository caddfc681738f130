import ClaimCI.Python.Json

/-!
# Delimited text

The reader of the `csv` module for the dialects `excel` and `excel-tab` in strict mode: a machine
that is fed one line at a time and completes a record when a line ends outside quotes.
-/

namespace Python

def TAB : CodePoint := 0x09

inductive CsvState where
  | startRecord | startField | inField | inQuotedField | quoteInQuotedField | eatCrnl
  deriving DecidableEq, Repr

/-- An unfinished record: the fields saved so far and the field being read. -/
structure CsvRecord where
  state : CsvState
  fields : List Str
  field : Str
  deriving DecidableEq, Repr

namespace CsvRecord

def start : CsvRecord := ⟨.startRecord, [], []⟩

/-- The field ends. -/
def saveField (r : CsvRecord) (state : CsvState) : CsvRecord := ⟨state, r.fields ++ [r.field], []⟩

/-- One more character of the field; `none` is `csv.Error`: the field is as long as is allowed. -/
def addChar (fieldLimit : Nat) (r : CsvRecord) (state : CsvState) (c : CodePoint) :
    Option CsvRecord :=
  if fieldLimit ≤ r.field.length then none else some ⟨state, r.fields, r.field ++ [c]⟩

def isNewline (c : CodePoint) : Bool := c == LF || c == CR

/-- What is read where a field may start. -/
def startChar (delimiter : CodePoint) (fieldLimit : Nat) (r : CsvRecord) (c : CodePoint) :
    Option CsvRecord :=
  if isNewline c then some (r.saveField .eatCrnl)
  else if c = QUOTE then some { r with state := .inQuotedField }
  else if c = delimiter then some (r.saveField .startField)
  else r.addChar fieldLimit .inField c

/-- One character; `none` is `csv.Error`. -/
def processChar (delimiter : CodePoint) (fieldLimit : Nat) (r : CsvRecord) (c : CodePoint) :
    Option CsvRecord :=
  match r.state with
  | .startRecord =>
    if isNewline c then some { r with state := .eatCrnl } else r.startChar delimiter fieldLimit c
  | .startField => r.startChar delimiter fieldLimit c
  | .inField =>
    if isNewline c then some (r.saveField .eatCrnl)
    else if c = delimiter then some (r.saveField .startField)
    else r.addChar fieldLimit .inField c
  | .inQuotedField =>
    if c = QUOTE then some { r with state := .quoteInQuotedField }
    else r.addChar fieldLimit .inQuotedField c
  | .quoteInQuotedField =>
    if c = QUOTE then r.addChar fieldLimit .inQuotedField c
    else if c = delimiter then some (r.saveField .startField)
    else if isNewline c then some (r.saveField .eatCrnl)
    -- strict: after the closing quote only a delimiter or the end of the line
    else none
  | .eatCrnl => if isNewline c then some r else none

/-- The end of a line. -/
def processEnd (r : CsvRecord) : CsvRecord :=
  match r.state with
  | .startRecord => r
  | .startField => r.saveField .startRecord
  | .inField => r.saveField .startRecord
  | .inQuotedField => r
  | .quoteInQuotedField => r.saveField .startRecord
  | .eatCrnl => { r with state := .startRecord }

/-- A whole line. -/
def feedLine (delimiter : CodePoint) (fieldLimit : Nat) (r : CsvRecord) (line : Str) :
    Option CsvRecord :=
  (line.foldlM (processChar delimiter fieldLimit) r).map processEnd

/-- The lines end in the middle of a record, which strict mode refuses. -/
def unfinished (r : CsvRecord) : Bool := r.field != [] || r.state == .inQuotedField

end CsvRecord

/-- The record is completed by the last of these lines, and not before. -/
def CsvSpans (delimiter : CodePoint) (fieldLimit : Nat) :
    CsvRecord → List Str → List Str → Prop
  | _, [], _ => False
  | r, [line], fields =>
    ∃ r', r.feedLine delimiter fieldLimit line = some r' ∧ r'.state = .startRecord ∧
      r'.fields = fields
  | r, line :: next :: rest, fields =>
    ∃ r', r.feedLine delimiter fieldLimit line = some r' ∧ r'.state ≠ .startRecord ∧
      CsvSpans delimiter fieldLimit r' (next :: rest) fields

/-- A quoted field goes on over a line end. -/
example : (CsvRecord.start.feedLine COMMA 100 "a,\"b\r\n").bind (·.feedLine COMMA 100 "c\"\n") =
    some ⟨.startRecord, ["a", "b\r\nc"], []⟩ := by decide +kernel

end Python
