import ShapeTyping.Rdf.Term
import ShapeTyping.Value.Binary
import ShapeTyping.Value.Duration

/-!
# Values of literals

* `Literal.value`: the value of a literal of a known datatype.
* `Value.compare?`: the order of values, numbers of different types included.
* `Value.text?`, `Value.digits?`: the written form of a number and the digits that the digit
  facets count in it.
* `Term.compare?`, `Term.isOrderable`: the same for terms.
-/

namespace ShapeTyping

inductive Value where
  | string (s : String)
  | boolean (b : Bool)
  | integer (n : Int)
  | decimal (d : Decimal)
  | float (x : BinaryValue)
  | double (x : BinaryValue)
  | dateTime (m : Moment)
  | date (m : Moment)
  | time (m : Moment)
  | duration (d : Duration)
  deriving DecidableEq, Inhabited, Repr

/-- What a literal stands for: a value, nothing because its text is not of its datatype, or
nothing because its datatype is not known. -/
inductive LiteralValue where
  | valid (v : Value)
  | invalid
  | unsupported
  deriving DecidableEq, Inhabited, Repr

/-- The bounds of a datatype of integers. -/
structure IntegerRange where
  min : Option Int
  max : Option Int
  deriving DecidableEq, Inhabited, Repr

def IntegerRange.contains (r : IntegerRange) (n : Int) : Bool :=
  r.min.all (· ≤ n) && r.max.all (n ≤ ·)

/-- The datatypes of integers with their bounds. All of them hold 64-bit integers only. -/
def integerTypes : List (Iri × IntegerRange) :=
  [ (Xsd.named "integer", ⟨none, none⟩)
  , (Xsd.named "long", ⟨none, none⟩)
  , (Xsd.named "int", ⟨some (-2147483648), some 2147483647⟩)
  , (Xsd.named "short", ⟨some (-32768), some 32767⟩)
  , (Xsd.named "byte", ⟨some (-128), some 127⟩)
  , (Xsd.named "unsignedLong", ⟨some 0, none⟩)
  , (Xsd.named "nonNegativeInteger", ⟨some 0, none⟩)
  , (Xsd.named "unsignedInt", ⟨some 0, some 4294967295⟩)
  , (Xsd.named "unsignedShort", ⟨some 0, some 65535⟩)
  , (Xsd.named "unsignedByte", ⟨some 0, some 255⟩)
  , (Xsd.named "positiveInteger", ⟨some 1, none⟩)
  , (Xsd.named "negativeInteger", ⟨none, some (-1)⟩)
  , (Xsd.named "nonPositiveInteger", ⟨none, some 0⟩) ]

/-- The integer of a text, if it fits 64 bits and the bounds. -/
def IntegerRange.read? (r : IntegerRange) (s : String) : Option Int :=
  (readInt? s).filter fun n => fitsWord n && r.contains n

def readBoolean? (s : String) : Option Bool :=
  if s = "true" ∨ s = "1" then some true
  else if s = "false" ∨ s = "0" then some false
  else none

namespace Value

/-- How a datatype reads a text, if the datatype is known. -/
def reader? (datatype : Iri) : Option (String → Option Value) :=
  let plain : List (Iri × (String → Option Value)) :=
    [ (Xsd.string, fun s => some (.string s))
    , (Xsd.named "boolean", fun s => (readBoolean? s).map .boolean)
    , (Xsd.named "decimal", fun s => (Decimal.read? s).map .decimal)
    , (Xsd.named "float", fun s => (BinaryFormat.single.read? s).map .float)
    , (Xsd.named "double", fun s => (BinaryFormat.double.read? s).map .double)
    , (Xsd.named "dateTime", fun s => (Moment.readDateTime? s).map .dateTime)
    , (Xsd.named "dateTimeStamp", fun s => (Moment.readDateTime? s).map .dateTime)
    , (Xsd.named "date", fun s => (Moment.readDate? s).map .date)
    , (Xsd.named "time", fun s => (Moment.readTime? s).map .time)
    , (Xsd.named "duration", fun s => (Duration.read? s).map .duration) ]
  match plain.lookup datatype with
  | some read => some read
  | none => (integerTypes.lookup datatype).map fun r s => (r.read? s).map .integer

def isNumeric : Value → Bool
  | integer _ => true
  | decimal _ => true
  | float _ => true
  | double _ => true
  | _ => false

/-- The order of two values. A number is brought to the type of the other one: integers to
decimals, both to floats, and all of them to doubles. -/
def compare? : Value → Value → Option Ordering
  | string a, string b => some (compare a b)
  | boolean a, boolean b => some (compare a b)
  | integer a, integer b => some (compare a b)
  | integer a, decimal b => some ((Decimal.ofInt a).compare b)
  | integer a, float b => (BinaryFormat.single.ofInt a).compare? b
  | integer a, double b => (BinaryFormat.double.ofInt a).compare? b
  | decimal a, integer b => some (a.compare (.ofInt b))
  | decimal a, decimal b => some (a.compare b)
  | decimal a, float b => a.toSingle.compare? b
  | decimal a, double b => a.toDouble.compare? b
  | float a, integer b => a.compare? (BinaryFormat.single.ofInt b)
  | float a, decimal b => a.compare? b.toSingle
  | float a, float b => a.compare? b
  | float a, double b => a.compare? b
  | double a, integer b => a.compare? (BinaryFormat.double.ofInt b)
  | double a, decimal b => a.compare? b.toDouble
  | double a, float b => a.compare? b
  | double a, double b => a.compare? b
  | dateTime a, dateTime b => a.compare? b
  | date a, date b => a.compare? b
  | time a, time b => a.compare? b
  | duration a, duration b => a.compare? b
  | _, _ => none

/-- The written form of an integer or a decimal. -/
def text? : Value → Option String
  | integer n => some (toString n)
  | decimal d => some d.text
  | _ => none

/-- All digits of the written form and the fraction digits among them. Floating-point values have
none. -/
def digits? (v : Value) : Option (Nat × Nat) :=
  v.text?.map fun s => Decimal.countDigits s.toList

/-- Whether the values of the type are ordered in formulas. -/
def isOrderable : Value → Bool
  | boolean _ => false
  | duration _ => false
  | _ => true

end Value

/-- The value of a literal. Literals with a language tag have none. -/
def Literal.value : Literal → LiteralValue
  | .tagged _ _ => .unsupported
  | .typed s d =>
    match Value.reader? d with
    | none => .unsupported
    | some read =>
      match read s with
      | some v => .valid v
      | none => .invalid

namespace LiteralValue

def value? : LiteralValue → Option Value
  | valid v => some v
  | _ => none

end LiteralValue

namespace Term

/-- The value of a literal term. -/
def value? : Term → Option Value
  | literal l => l.value.value?
  | _ => none

def compare? (a b : Term) : Option Ordering := do
  (← a.value?).compare? (← b.value?)

def isOrderable (t : Term) : Bool := t.value?.any (·.isOrderable)

end Term

end ShapeTyping
