/-!
# Digit strings

Reading of decimal digits and of the small fixed parts that written numbers and dates are
made of. Digits are ASCII digits.
-/

namespace ShapeTyping

/-- The value of a list of digits. -/
def digitsValue (cs : List Char) : Nat := cs.foldl (fun n c => 10 * n + (c.toNat - '0'.toNat)) 0

/-- The leading digits and what follows them. -/
def spanDigits (cs : List Char) : List Char × List Char :=
  (cs.takeWhile Char.isDigit, cs.dropWhile Char.isDigit)

/-- The leading digits with at most one point among them, and what follows. -/
def spanNumber (cs : List Char) : List Char × List Char :=
  let (whole, rest) := spanDigits cs
  match rest with
  | '.' :: r =>
    let (fraction, rest') := spanDigits r
    (whole ++ '.' :: fraction, rest')
  | _ => (whole, rest)

/-- Whether a minus sign is written, and what follows an optional sign. -/
def splitSign : List Char → Bool × List Char
  | '-' :: cs => (true, cs)
  | '+' :: cs => (false, cs)
  | cs => (false, cs)

/-- A number with a sign. -/
def signed (negative : Bool) (n : Nat) : Int := if negative then -(n : Int) else n

/-- What follows an expected character. -/
def expect? (c : Char) : List Char → Option (List Char)
  | d :: cs => if d = c then some cs else none
  | [] => none

/-- A run of exactly two digits with a value between two bounds, and what follows it. -/
def twoDigits? (lo hi : Nat) (cs : List Char) : Option (Nat × List Char) :=
  let (ds, rest) := spanDigits cs
  let n := digitsValue ds
  if ds.length = 2 ∧ lo ≤ n ∧ n ≤ hi then some (n, rest) else none

/-- The integers of 64 bits. -/
def fitsWord (n : Int) : Bool := -9223372036854775808 ≤ n ∧ n ≤ 9223372036854775807

/-- An optional sign and at least one digit. -/
def readInt? (s : String) : Option Int :=
  let (negative, ds) := splitSign s.toList
  if ds ≠ [] ∧ ds.all Char.isDigit then some (signed negative (digitsValue ds)) else none

theorem digitsValue_append (xs : List Char) (c : Char) :
    digitsValue (xs ++ [c]) = 10 * digitsValue xs + (c.toNat - '0'.toNat) := by
  simp [digitsValue]

theorem spanDigits_append (cs : List Char) : (spanDigits cs).1 ++ (spanDigits cs).2 = cs :=
  List.takeWhile_append_dropWhile

end ShapeTyping
