import ShapeTyping.Value.Decimal

/-!
# Dates and times

Points on the timeline of the proleptic Gregorian calendar, which has a year 0.

* `Moment.ofDate?`: the point of a calendar date and a time of day.
* `Moment.readDateTime?`, `Moment.readDate?`, `Moment.readTime?`: the written forms.
* `Moment.compare?`: the order of points. A point without a time zone can lie up to 14
  hours to either side.
-/

namespace ShapeTyping

def isLeapYear (year : Int) : Bool := year % 4 = 0 && (year % 100 ≠ 0 || year % 400 = 0)

def daysInMonth (year : Int) (month : Nat) : Nat :=
  if month = 2 then if isLeapYear year then 29 else 28
  else if month = 4 ∨ month = 6 ∨ month = 9 ∨ month = 11 then 30
  else 31

/-- The days of a year before a month. -/
def daysBeforeMonth (year : Int) (month : Nat) : Nat :=
  (List.range (month - 1)).foldl (fun n m => n + daysInMonth year (m + 1)) 0

/-- The days from the first day of year 1 to a date. -/
def dayNumber (year : Int) (month day : Nat) : Int :=
  let y := year - 1
  365 * y + (y / 400 - y / 100 + y / 4) + daysBeforeMonth year month + day - 1

/-- A number of seconds on the timeline, with the offset of its time zone in minutes if it
has one. -/
structure Moment where
  seconds : Decimal
  zone : Option Int
  deriving DecidableEq, Inhabited, Repr

namespace Moment

/-- The point of a date, hour, minute and second. -/
def ofDate? (year : Int) (month day hour minute : Nat) (second : Decimal) (zone : Option Int) :
    Option Moment := do
  let whole := 86400 * dayNumber year month day + 3600 * hour + 60 * (minute - zone.getD 0)
  let seconds ← (← Decimal.ofInt? whole).add? second
  return ⟨seconds, zone⟩

/-! ### Order -/

/-- The point moved by a number of seconds. -/
def shift? (m : Moment) (seconds : Int) : Option Decimal :=
  m.seconds.add? (Decimal.ofInt seconds)

/-- The order of a point in a time zone and one in an unknown zone: the same order in both
extreme zones, if there is one. -/
def compareUnknown? (m unknown : Moment) : Option Ordering := do
  let late := m.seconds.compare (← unknown.shift? (14 * 3600))
  let early := m.seconds.compare (← unknown.shift? (-14 * 3600))
  if late = early then some late else none

def compare? (a b : Moment) : Option Ordering :=
  match a.zone, b.zone with
  | some _, none => compareUnknown? a b
  | none, some _ => (compareUnknown? b a).map (·.swap)
  | _, _ => some (a.seconds.compare b.seconds)

/-! ### Written forms -/

/-- A year: an optional minus sign and at least four digits, no more than four if the first
is a zero. -/
def readYear? (cs : List Char) : Option (Int × List Char) :=
  let (negative, cs) := match cs with
    | '-' :: r => (true, r)
    | r => (false, r)
  let (ds, rest) := spanDigits cs
  let n := digitsValue ds
  if ds.length < 4 ∨ (4 < ds.length ∧ ds.head? = some '0') ∨ ¬ fitsWord n then none
  else some (signed negative n, rest)

/-- Year, month and day, with a day that the month has. -/
def readCalendar? (cs : List Char) : Option ((Int × Nat × Nat) × List Char) := do
  let (year, cs) ← readYear? cs
  let (month, cs) ← twoDigits? 1 12 (← expect? '-' cs)
  let (day, cs) ← twoDigits? 1 31 (← expect? '-' cs)
  if day ≤ daysInMonth year month then some ((year, month, day), cs) else none

/-- Seconds below 60: two digits and an optional fraction. -/
def readSecond? (cs : List Char) : Option (Decimal × List Char) := do
  let (number, rest) := spanNumber cs
  let d ← Decimal.readChars? number
  if (spanDigits cs).1.length = 2 ∧ d.compare (.ofInt 60) = .lt ∧ number.getLast? ≠ some '.' then
    some (d, rest)
  else none

/-- Hour, minute and second. Hour 24 only as the end of the day. -/
def readClock? (cs : List Char) : Option ((Nat × Nat × Decimal) × List Char) := do
  let (hour, cs) ← twoDigits? 0 24 cs
  let (minute, cs) ← twoDigits? 0 59 (← expect? ':' cs)
  let (second, cs) ← readSecond? (← expect? ':' cs)
  if hour = 24 ∧ ¬ (minute = 0 ∧ second = .ofInt 0) then none
  else some ((hour, minute, second), cs)

/-- A time zone at the end of a text, in minutes, or nothing. A missing sign is a plus. -/
def readZone? : List Char → Option (Option Int)
  | [] => some none
  | ['Z'] => some (some 0)
  | cs => do
    let (negative, cs) := splitSign cs
    let (hours, cs) ← twoDigits? 0 14 cs
    let (minutes, cs) ← twoDigits? 0 59 (← expect? ':' cs)
    if cs ≠ [] ∨ (hours = 14 ∧ minutes ≠ 0) then none
    else some (some (signed negative (60 * hours + minutes)))

def readDateTime? (s : String) : Option Moment := do
  let ((year, month, day), cs) ← readCalendar? s.toList
  let ((hour, minute, second), cs) ← readClock? (← expect? 'T' cs)
  ofDate? year month day hour minute second (← readZone? cs)

/-- A date stands for its midnight. -/
def readDate? (s : String) : Option Moment := do
  let ((year, month, day), cs) ← readCalendar? s.toList
  ofDate? year month day 0 0 (.ofInt 0) (← readZone? cs)

/-- A time stands for that time on the last day of 1972. The end of the day is its start. -/
def readTime? (s : String) : Option Moment := do
  let ((hour, minute, second), cs) ← readClock? s.toList
  ofDate? 1972 12 31 (if hour = 24 then 0 else hour) minute second (← readZone? cs)

end Moment

end ShapeTyping
