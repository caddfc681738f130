import ClaimCI.Python.Value

/-!
# Statistics

Float addition and true division, `math.fsum`, and the mean and standard deviation of floats as the
`statistics` module computes them. `none` is always `OverflowError`.
-/

namespace Python

namespace Binary64

def zero (negative : Bool) : Binary64 :=
  ⟨negative, 0, -1074, by norm_num, le_rfl, by norm_num, .inr rfl⟩

/-- The double nearest to `n / d`; a zero result takes the given sign. -/
def ofRatio (zeroSign : Bool) (n : Int) (d : Nat) : Option Binary64 :=
  ofFraction (if n = 0 then zeroSign else n < 0) n.natAbs d

/-- The signed mantissa in units of the least positive double. -/
def units (x : Binary64) : Int :=
  let magnitude : Int := x.mantissa * 2 ^ (x.exponent + 1074).toNat
  if x.negative then -magnitude else magnitude

/-- The double nearest to a number of units. -/
def ofUnits (zeroSign : Bool) (n : Int) : Option Binary64 := ofRatio zeroSign n (2 ^ 1074)

def neg (x : Binary64) : Binary64 := { x with negative := !x.negative }

def add (x y : Binary64) : Option Binary64 :=
  ofUnits (x.negative && y.negative) (x.units + y.units)

def sub (x y : Binary64) : Option Binary64 := x.add y.neg

/-- `x < y`. -/
def lt (x y : Binary64) : Bool := x.units < y.units

/-- `x <= y`. -/
def le (x y : Binary64) : Bool := x.units ≤ y.units

/-- `x == y`; the two zeros are equal. -/
def eq (x y : Binary64) : Bool := x.units == y.units

def isZero (x : Binary64) : Bool := x.mantissa == 0

end Binary64

/-- `m / n` for integers, correctly rounded. -/
def trueDivide (m n : Nat) : Option Binary64 := Binary64.ofFraction false m n

/-- One summand of `math.fsum`: it is added to every partial sum in turn, and the exact rounding
errors are what is kept. -/
def fsumStep : List Binary64 → Binary64 → Option (List Binary64 × Binary64)
  | [], x => some ([], x)
  | y :: partials, x => do
    let (large, small) := if x.units.natAbs < y.units.natAbs then (y, x) else (x, y)
    let high ← large.add small
    let low ← small.sub (← high.sub large)
    let (rest, x) ← fsumStep partials high
    some (if low.isZero then rest else low :: rest, x)

/-- The partial sums after all summands; an intermediate overflow raises. -/
def fsumPartials : List Binary64 → List Binary64 → Option (List Binary64)
  | partials, [] => some partials
  | partials, x :: xs => do
    let (kept, x) ← fsumStep partials x
    fsumPartials (if x.isZero then kept else kept ++ [x]) xs

/-- `math.fsum`: without an intermediate overflow, the exact sum rounded once. -/
def fsum (xs : List Binary64) : Option Binary64 := do
  let _ ← fsumPartials [] xs
  Binary64.ofUnits false (xs.map Binary64.units).sum

/-- `statistics.fmean` of a nonempty list. -/
def fmean (xs : List Binary64) : Option Binary64 := do
  let total ← fsum xs
  Binary64.ofRatio total.negative total.units (2 ^ 1074 * xs.length)

def bitLength (n : Nat) : Nat := if n = 0 then 0 else n.log2 + 1

/-- The square root of `n / m` rounded to an integer, to odd when it is inexact. -/
def integerSqrtOfFracRto (n m : Nat) : Nat :=
  let a := Nat.sqrt (n / m)
  a ||| (if a * a * m = n then 0 else 1)

/-- The correctly rounded square root of `n / m`. -/
def floatSqrtOfFrac (n m : Nat) : Option Binary64 :=
  let q : Int := ((bitLength n : Int) - bitLength m - 109) / 2
  if 0 ≤ q then
    Binary64.ofFraction false (integerSqrtOfFracRto n (m * 2 ^ (2 * q).toNat) * 2 ^ q.toNat) 1
  else
    Binary64.ofFraction false (integerSqrtOfFracRto (n * 2 ^ (-2 * q).toNat) m) (2 ^ (-q).toNat)

/-- `statistics.stdev` of at least two floats, from their exact sum of squared deviations. -/
def stdev (xs : List Binary64) : Option Binary64 :=
  let n := xs.length
  let total := (xs.map Binary64.units).sum
  let squares := (xs.map fun x => x.units * x.units).sum
  let numerator := (n * squares - total * total).natAbs
  let denominator := n * (n - 1) * 2 ^ 2148
  let common := Nat.gcd numerator denominator
  floatSqrtOfFrac (numerator / common) (denominator / common)

end Python
