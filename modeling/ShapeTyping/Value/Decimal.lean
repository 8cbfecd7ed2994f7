import ShapeTyping.Value.Digits

/-!
# Fixed-point decimals

Decimal numbers with 18 fraction digits in 128 bits.

* `Decimal.read?`: the written form, an optional sign and digits with at most one point.
* `Decimal.reduced`: a decimal with the fewest fraction digits.
* `Decimal.text`: the written form with the fewest digits.
* `Decimal.countDigits`: the numbers of digits that the digit facets count in a written form.
-/

namespace ShapeTyping

/-- A number of units of `10 ^ (-18)`. -/
structure Decimal where
  units : Int
  deriving DecidableEq, Inhabited, Repr

namespace Decimal

/-- The number of fraction digits. -/
def places : Nat := 18

/-- The units of one. -/
def scale : Nat := Nat.pow 10 places

/-- The least number of units of 128 bits. -/
def minUnits : Int := -170141183460469231731687303715884105728

/-- The greatest number of units of 128 bits. -/
def maxUnits : Int := 170141183460469231731687303715884105727

/-- The decimal with a number of units, if it fits 128 bits. -/
def ofUnits? (n : Int) : Option Decimal :=
  if minUnits ≤ n ∧ n ≤ maxUnits then some ⟨n⟩ else none

def ofInt (n : Int) : Decimal := ⟨n * scale⟩

/-- The decimal of a whole number, if it fits 128 bits. -/
def ofInt? (n : Int) : Option Decimal := ofUnits? (n * scale)

def add? (a b : Decimal) : Option Decimal := ofUnits? (a.units + b.units)

/-- Digits without the zeros at the end. -/
def trimZeros (ds : List Char) : List Char := (ds.reverse.dropWhile (· = '0')).reverse

/-- The decimal with given digits before and after the point. Zeros at the end do not count
as fraction digits, of which there may be 18. -/
def ofDigits? (negative : Bool) (whole fraction : List Char) : Option Decimal :=
  let fraction := trimZeros fraction
  if fraction.length ≤ places then
    let missing := Nat.pow 10 (places - fraction.length)
    ofUnits? (signed negative (digitsValue (whole ++ fraction) * missing))
  else none

/-- The decimal of a written number: digits on one side of the point suffice. -/
def readChars? (cs : List Char) : Option Decimal :=
  let (negative, cs) := splitSign cs
  match spanDigits cs with
  | ([], '.' :: fraction) =>
    if fraction ≠ [] ∧ fraction.all Char.isDigit then ofDigits? negative [] fraction else none
  | ([], _) => none
  | (whole, []) => ofDigits? negative whole []
  | (whole, '.' :: fraction) =>
    if fraction.all Char.isDigit then ofDigits? negative whole fraction else none
  | _ => none

def read? (s : String) : Option Decimal := readChars? s.toList

def compare (a b : Decimal) : Ordering := Ord.compare a.units b.units

/-- Divides by ten as long as the number is divisible and has places left. -/
def stripZeros : Nat → Nat → Nat × Nat
  | 0, n => (n, 0)
  | p + 1, n => if n % 10 = 0 then stripZeros p (n / 10) else (n, p + 1)

/-- The absolute value as a whole number over a power of ten, with the least exponent. -/
def reduced (d : Decimal) : Nat × Nat := stripZeros places d.units.natAbs

/-- The digits before the point. -/
def wholeDigits (d : Decimal) : List Char := Nat.toDigits 10 (d.units.natAbs / scale)

/-- The digits after the point, without zeros at the end. -/
def fractionDigits (d : Decimal) : List Char :=
  trimZeros ((Nat.toDigits 10 (d.units.natAbs % scale)).leftpad places '0')

/-- The written form, with no point where there is no fraction. -/
def text (d : Decimal) : String :=
  let sign := if d.units < 0 then ['-'] else []
  let point := if d.fractionDigits = [] then [] else ['.']
  String.ofList (sign ++ (d.wholeDigits ++ point ++ d.fractionDigits))

/-- The digits of a written number without zeros at either end, a point counted as nothing, and the
fraction digits among them. A number has one digit at least. -/
def countDigits (cs : List Char) : Nat × Nat :=
  let unsigned := cs.dropWhile fun c => c = '-' || c = '+'
  let whole := (unsigned.takeWhile (· ≠ '.')).dropWhile (· = '0')
  let fraction := trimZeros ((unsigned.dropWhile (· ≠ '.')).drop 1)
  (max 1 (whole.length + fraction.length), fraction.length)

end Decimal

end ShapeTyping
