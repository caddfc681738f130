import ClaimCI.Python.Json

/-!
# Values

Python values as a safe YAML loader builds them, their equality, and number formatting.
-/

namespace Python

/-- A value of the built-in types, or of a type that only equality and `str` are used of. -/
inductive Value where
  | none
  | bool (b : Bool)
  | int (n : Int)
  | float (x : Binary64)
  | infinity (negative : Bool)
  /-- NaN objects are told apart, because containers compare their items by identity first. -/
  | nan (object : Nat)
  | str (s : Str)
  /-- Dates, times and byte strings: `text` is `str(value)`, and equal values share a `key`. -/
  | other (key : Nat) (text : Str)
  | list (items : List Value)
  | tuple (items : List Value)
  | set (items : List Value)
  | dict (entries : List (Value × Value))

namespace Value

/-- A value that holds no others; the safe loader builds only such keys and set members. -/
def atomic : Value → Bool
  | .list _ | .tuple _ | .set _ | .dict _ => false
  | _ => true

/-- The exact value of a number; `bool` is a subclass of `int`. -/
def number : Value → Option Decimal
  | .bool b => some (Decimal.ofNat (if b then 1 else 0))
  | .int n => some (Decimal.ofInt n)
  | .float x => some ⟨x.negative, x.exactDecimal.1, x.exactDecimal.2⟩
  | _ => Option.none

/-- Equality of values that hold no others. -/
def sameScalar (v w : Value) : Bool :=
  match v.number, w.number with
  | some a, some b => a.eq b
  | _, _ =>
    match v, w with
    | .none, .none => true
    | .infinity a, .infinity b => a == b
    | .nan a, .nan b => a == b
    | .str a, .str b => a == b
    | .other a _, .other b _ => a == b
    | _, _ => false

mutual

/-- `v is w or v == w`, by which containers compare what they hold. -/
def same : Value → Value → Bool
  | .list vs, .list ws => sameItems vs ws
  | .tuple vs, .tuple ws => sameItems vs ws
  | .set vs, .set ws => vs.length == ws.length && subset vs ws
  | .dict vs, .dict ws => vs.length == ws.length && subdict vs ws
  | v, w => sameScalar v w

def sameItems : List Value → List Value → Bool
  | [], [] => true
  | v :: vs, w :: ws => same v w && sameItems vs ws
  | _, _ => false

def subset : List Value → List Value → Bool
  | [], _ => true
  | v :: vs, ws => ws.any (fun w => same v w) && subset vs ws

/-- Every entry has an equal key with an equal value on the other side. -/
def subdict : List (Value × Value) → List (Value × Value) → Bool
  | [], _ => true
  | (k, v) :: vs, ws => ws.any (fun w => same k w.1 && same v w.2) && subdict vs ws

end

/-- `v == w`. -/
def eq (v w : Value) : Bool :=
  match v with
  | .nan _ => false
  | _ => same v w

/-- `mapping[key]` for a string key. -/
def get (key : Str) : List (Value × Value) → Option Value
  | [] => Option.none
  | (k, v) :: rest =>
    match k with
    | .str s => if s = key then some v else get key rest
    | _ => get key rest

/-- A dictionary with string keys. -/
def ofMembers (members : List (Str × Value)) : Value :=
  .dict (members.map fun m => (.str m.1, m.2))

end Value

/-! ### Number formatting -/

/-- `n / d` in units of `10 ^ p`, rounded half to even. -/
def roundToPlace (n d : Nat) (p : Int) : Nat :=
  if 0 ≤ p then roundHalfEven n (d * 10 ^ p.toNat) else roundHalfEven (n * 10 ^ (-p).toNat) d

/-- A natural number in units of `10 ^ -places`, with a decimal point. -/
def fixedText (places units : Nat) : Str :=
  let digits := decimalDigits units
  let padded := List.replicate (places + 1 - digits.length) 0 ++ digits
  renderDigits (padded.take (padded.length - places)) ++
    fractionText (padded.drop (padded.length - places))

/-- `f"{x:.{places}f}"`. -/
def formatFixed (places : Nat) (x : Binary64) : Str :=
  let magnitude := scaleFraction x.mantissa 1 (-x.exponent)
  signText x.negative ++ fixedText places (roundToPlace magnitude.1 magnitude.2 (-places))

/-- `x * k`, rounded; an overflow is infinite, which is `none`. -/
def Binary64.scale (x : Binary64) (k : Nat) : Option Binary64 :=
  let magnitude := scaleFraction x.mantissa 1 (-x.exponent)
  Binary64.ofFraction x.negative (magnitude.1 * k) magnitude.2

/-- `f"{x:.{places}%}"`: the number is multiplied by 100 as a float. -/
def formatPercent (places : Nat) (x : Binary64) : Str :=
  match x.scale 100 with
  | some y => formatFixed places y ++ lit "%"
  | none => signText x.negative ++ lit "inf%"

/-- `f"{x:.{precision}g}"`: at most `precision` significant digits, without trailing zeros. -/
def formatGeneral (precision : Nat) (x : Binary64) : Str :=
  let magnitude := scaleFraction x.mantissa 1 (-x.exponent)
  let rounded : Decimal :=
    if x.mantissa = 0 then ⟨x.negative, 0, 0⟩
    else
      let place := Binary64.floorLog10 magnitude.1 magnitude.2 - (precision - 1)
      ⟨x.negative, roundToPlace magnitude.1 magnitude.2 place, place⟩
  let stripped := Decimal.dropZeros (digitCount rounded.coefficient) rounded.coefficient
  let digits := decimalDigits (if rounded.coefficient = 0 then 0 else stripped.1)
  let point : Int :=
    if rounded.coefficient = 0 then 1 else rounded.exponent + stripped.2 + digits.length
  signText x.negative ++
    if -4 < point ∧ point ≤ precision then
      if point ≤ 0 then
        renderDigits [0] ++ fractionText (List.replicate (-point).toNat 0 ++ digits)
      else
        renderDigits (digits.take point.toNat ++
          List.replicate (point.toNat - digits.length) 0) ++
          fractionText (digits.drop point.toNat)
    else
      let power := decimalDigits (point - 1).natAbs
      renderDigits (digits.take 1) ++ fractionText (digits.drop 1) ++
        exponentText (some ⟨false, some (point - 1 < 0),
          if power.length < 2 then 0 :: power else power⟩)

/-- `str(n)`; `none` is the `ValueError` for too many digits. -/
def intText (n : Int) : Option Str :=
  if (decimalDigits n.natAbs).length ≤ INT_MAX_STR_DIGITS then some (renderInt n) else none

def natText (n : Nat) : Str := renderDigits (decimalDigits n)

end Python
