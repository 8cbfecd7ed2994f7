import ShapeTyping.Value.Moment

/-!
# Durations

A duration is a number of months and a number of seconds.

* `Duration.read?`: the written form.
* `Moment.add?`: a point in time a duration later.
* `Duration.compare?`: two durations are compared from four starting points on, which
  together show every way in which months differ in length.
-/

namespace ShapeTyping

structure Duration where
  months : Int
  seconds : Decimal
  deriving DecidableEq, Inhabited, Repr

namespace Duration

/-- A whole number of at least one digit. -/
def readWhole? (ds : List Char) : Option Nat :=
  if ds ≠ [] ∧ ds.all Char.isDigit then some (digitsValue ds) else none

/-- The number before a designator, if that is what comes next, and what follows. -/
def component (designator : Char) (cs : List Char) : Option (List Char) × List Char :=
  let (number, rest) := spanNumber cs
  match rest with
  | c :: r => if c = designator then (some number, r) else (none, cs)
  | [] => (none, cs)

/-- A number of months that fits a word, from an optional component. -/
def readMonths? (factor : Nat) : Option (List Char) → Option Nat
  | none => some 0
  | some number => do
    let n ← readWhole? number
    if fitsWord n then some (factor * n) else none

/-- A number of units of a second, from an optional component of whole numbers. -/
def readSeconds? (factor : Nat) : Option (List Char) → Option Nat
  | none => some 0
  | some number => do
    let d ← Decimal.ofInt? (← readWhole? number)
    some (factor * d.units.toNat)

/-- An optional minus sign, `P`, years, months and days, then `T`, hours, minutes and seconds.
One component at least is needed, and only seconds have a fraction. -/
def read? (s : String) : Option Duration := do
  let (negative, cs) := match s.toList with
    | '-' :: r => (true, r)
    | r => (false, r)
  let cs ← expect? 'P' cs
  let (years, cs) := component 'Y' cs
  let (months, cs) := component 'M' cs
  let (days, cs) := component 'D' cs
  let (hours, minutes, seconds, rest) := match cs with
    | 'T' :: cs =>
      let (hours, cs) := component 'H' cs
      let (minutes, cs) := component 'M' cs
      let (seconds, cs) := component 'S' cs
      (hours, minutes, seconds, cs)
    | cs => (none, none, none, cs)
  guard rest.isEmpty
  guard ([years, months, days, hours, minutes, seconds].any (·.isSome))
  let total := (← readMonths? 12 years) + (← readMonths? 1 months)
  guard (fitsWord (signed negative total))
  let fraction ← match seconds with
    | none => some 0
    | some number => (Decimal.readChars? number).map (·.units.toNat)
  let units := (← readSeconds? 86400 days) + (← readSeconds? 3600 hours) +
    (← readSeconds? 60 minutes) + fraction
  return ⟨signed negative total, ← Decimal.ofUnits? (signed negative units)⟩

end Duration

/-- The point a duration after a date at midnight without a time zone: first the months, with
the day moved back into the month reached, then the seconds. -/
def Moment.add? (year : Int) (month day : Nat) (d : Duration) : Option Decimal := do
  let count := 12 * year + (month - 1) + d.months
  let year' := count / 12
  let month' := (count % 12).toNat + 1
  let m ← Moment.ofDate? year' month' (min day (daysInMonth year' month')) 0 0 (.ofInt 0) none
  m.seconds.add? d.seconds

namespace Duration

/-- The dates that durations are compared from. -/
def origins : List (Int × Nat × Nat) := [(1969, 9, 1), (1697, 2, 1), (1903, 3, 1), (1903, 7, 1)]

/-- The order that holds from all four dates, if there is one. -/
def compare? (a b : Duration) : Option Ordering := do
  let orders ← origins.mapM fun (year, month, day) => do
    let x ← Moment.add? year month day a
    let y ← Moment.add? year month day b
    some (x.compare y)
  match orders with
  | [] => none
  | o :: os => if os.all (· = o) then some o else none

end Duration

end ShapeTyping
