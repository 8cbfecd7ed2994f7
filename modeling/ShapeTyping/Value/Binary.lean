import ShapeTyping.Value.Decimal

/-!
# Binary floating point

Values of the two binary formats, computed exactly and rounded to nearest, ties to even.

* `BinaryFormat.round`: the value nearest to a quotient.
* `BinaryFormat.read?`: the written form: a decimal number with an optional exponent, an
  infinity or a NaN in any case.
* `BinaryValue.compare?`: the order of values. A NaN has none.
-/

namespace ShapeTyping

/-- A power of two. Negative exponents give one. -/
def powerOfTwo (e : Int) : Nat := Nat.pow 2 e.toNat

/-- A power of ten. Negative exponents give one. -/
def powerOfTen (e : Int) : Nat := Nat.pow 10 e.toNat

/-- A binary format: the bits of a significand, and the exponents of the last bit of the
smallest and of the largest values. -/
structure BinaryFormat where
  precision : Nat
  minExponent : Int
  maxExponent : Int
  deriving Inhabited, Repr

def BinaryFormat.single : BinaryFormat := ⟨24, -149, 104⟩
def BinaryFormat.double : BinaryFormat := ⟨53, -1074, 971⟩

/-- A floating-point value: `significand * 2 ^ exponent` if it is finite. -/
inductive BinaryValue where
  | nan
  | infinity (negative : Bool)
  | finite (significand exponent : Int)
  deriving DecidableEq, Inhabited, Repr

namespace BinaryValue

/-- Brings two finite values to the smaller of their exponents. -/
def compareFinite (m e m' e' : Int) : Ordering :=
  let low := min e e'
  compare (m * powerOfTwo (e - low)) (m' * powerOfTwo (e' - low))

/-- The order of two values. -/
def compare? : BinaryValue → BinaryValue → Option Ordering
  | nan, _ => none
  | _, nan => none
  | infinity a, infinity b => some (compare (!a) (!b))
  | infinity a, finite _ _ => some (if a then .lt else .gt)
  | finite _ _, infinity b => some (if b then .gt else .lt)
  | finite m e, finite m' e' => some (compareFinite m e m' e')

end BinaryValue

/-- The power of two that is at most a positive quotient and more than half of it. -/
def quotientLog2 (num den : Nat) : Int :=
  let l : Int := (Nat.log2 num : Int) - Nat.log2 den
  if num * powerOfTwo (-l) < den * powerOfTwo l then l - 1 else l

/-- The whole number nearest to a quotient; a tie goes to the even one. -/
def roundHalfEven (num den : Nat) : Nat :=
  let q := num / den
  let twice := 2 * (num % den)
  if twice < den then q else if den < twice then q + 1 else if q % 2 = 0 then q else q + 1

namespace BinaryFormat

/-- The value nearest to the quotient of two numbers, the second one positive. -/
def round (f : BinaryFormat) (negative : Bool) (num den : Nat) : BinaryValue :=
  if num = 0 then .finite 0 0
  else
    -- the exponent of the last bit that the significand of the result has room for
    let e := max f.minExponent (quotientLog2 num den - f.precision + 1)
    let m := roundHalfEven (num * powerOfTwo (-e)) (den * powerOfTwo e)
    let carried := m = powerOfTwo f.precision
    if f.maxExponent < (if carried then e + 1 else e) then .infinity negative
    else .finite (signed negative m) e

def ofInt (f : BinaryFormat) (n : Int) : BinaryValue := f.round (n < 0) n.natAbs 1

/-- The value of digits times a power of ten. Beyond 400 decimal places on either side every
format is exhausted. -/
def ofScientific (f : BinaryFormat) (negative : Bool) (digits : List Char) (exponent : Int) :
    BinaryValue :=
  let digits := digits.dropWhile (· = '0')
  let magnitude := exponent + digits.length
  if digits = [] ∨ magnitude < -400 then .finite 0 0
  else if 400 < magnitude then .infinity negative
  else f.round negative (digitsValue digits * powerOfTen exponent) (powerOfTen (-exponent))

/-- An exponent mark with an optional sign and digits, or nothing. -/
def readExponent? : List Char → Option Int
  | [] => some 0
  | c :: cs =>
    if c = 'e' ∨ c = 'E' then
      let (negative, ds) := splitSign cs
      if ds ≠ [] ∧ ds.all Char.isDigit then some (signed negative (digitsValue ds)) else none
    else none

/-- The value of a written number, infinity or NaN. -/
def read? (f : BinaryFormat) (s : String) : Option BinaryValue :=
  let (negative, cs) := splitSign s.toList
  let word := String.ofList (cs.map Char.toLower)
  if word = "nan" then some .nan
  else if word = "inf" ∨ word = "infinity" then some (.infinity negative)
  else
    let (whole, rest) := spanDigits cs
    let (fraction, rest) := match rest with
      | '.' :: r => spanDigits r
      | r => ([], r)
    if whole = [] ∧ fraction = [] then none
    else
      (readExponent? rest).map fun e => f.ofScientific negative (whole ++ fraction) (e - fraction.length)

/-- The value nearest to a value of another format. -/
def ofValue (f : BinaryFormat) : BinaryValue → BinaryValue
  | .nan => .nan
  | .infinity negative => .infinity negative
  | .finite m e => f.round (m < 0) (m.natAbs * powerOfTwo e) (powerOfTwo (-e))

end BinaryFormat

/-- The double nearest to the quotient of the doubles nearest to the reduced numerator and to
its power of ten. -/
def Decimal.toDouble (d : Decimal) : BinaryValue :=
  let (n, p) := d.reduced
  match BinaryFormat.double.ofInt (signed (d.units < 0) n) with
  | .finite m e =>
    BinaryFormat.double.round (m < 0) (m.natAbs * powerOfTwo e) (powerOfTwo (-e) * powerOfTen p)
  | v => v

def Decimal.toSingle (d : Decimal) : BinaryValue := BinaryFormat.single.ofValue d.toDouble

end ShapeTyping
