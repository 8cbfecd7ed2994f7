/-!
# Tables of characters

Sets of code points as lists of ranges, written in hexadecimal: `41-5A` is a range, `AA` one
code point and `100-12E/2` every second code point of a range.

* `CharTable.read`: a table from its written form.
* `CharTable.contains`: membership of a character.
-/

namespace ShapeTyping.Unicode

/-- Every `step`-th code point from `lo` to `hi`. -/
structure CharRange where
  lo : Nat
  hi : Nat
  step : Nat
  deriving DecidableEq, Inhabited, Repr

def CharRange.contains (r : CharRange) (n : Nat) : Bool :=
  r.lo ≤ n && n ≤ r.hi && (n - r.lo) % r.step == 0

abbrev CharTable := List CharRange

/-- The value of hexadecimal digits. -/
def readHex (s : String) : Nat :=
  s.foldl (fun n c =>
    16 * n + (if c.isDigit then c.toNat - '0'.toNat else c.toUpper.toNat - 'A'.toNat + 10)) 0

def CharRange.read (s : String) : CharRange :=
  let (bounds, step) := match s.splitOn "/" with
    | [b, t] => (b, readHex t)
    | _ => (s, 1)
  match bounds.splitOn "-" with
  | [lo, hi] => ⟨readHex lo, readHex hi, step⟩
  | _ => ⟨readHex bounds, readHex bounds, step⟩

namespace CharTable

/-- A table from lines of ranges between blanks. -/
def read (lines : List String) : CharTable := (lines.flatMap (·.splitOn " ")).map .read

def contains (t : CharTable) (c : Char) : Bool := t.any (·.contains c.toNat)

end CharTable

end ShapeTyping.Unicode
