import ShapeTyping.Cardinality

/-!
# Intervals of repetition counts

Sets of counts between two bounds, on 64-bit words: additions stop at the largest word.

* `Interval.intersection`, `Interval.sum`, `Interval.divide`: the operations that the
  membership test of bags is made of.
* `Interval.contains_intersection`: an intersection holds the counts of both intervals.
-/

namespace ShapeTyping

/-- The largest 64-bit word. -/
def maxWord : Nat := 18446744073709551615

/-- Addition that stops at the largest word. -/
def addSat (a b : Nat) : Nat := min (a + b) maxWord

/-- Multiplication that stops at the largest word. -/
def mulSat (a b : Nat) : Nat := min (a * b) maxWord

/-- The counts from `min` to `max`, without an upper bound when `max` is absent. -/
structure Interval where
  min : Nat
  max : Option Nat
  deriving DecidableEq, Inhabited, Repr

namespace Interval

def star : Interval := ⟨0, none⟩
def zero : Interval := ⟨0, some 0⟩
def empty : Interval := ⟨1, some 0⟩
def point (n : Nat) : Interval := ⟨n, some n⟩

def isEmpty (i : Interval) : Bool := i.max.any (· < i.min)

def contains (i : Interval) (n : Nat) : Bool := i.min ≤ n && i.max.all (n ≤ ·)

def intersection (i j : Interval) : Interval where
  min := Max.max i.min j.min
  max := match i.max, j.max with
    | some a, some b => some (Min.min a b)
    | some a, none => some a
    | none, b => b

/-- Sums of a count of each interval. -/
def sum (i j : Interval) : Interval :=
  if i.isEmpty || j.isEmpty then empty
  else
    { min := addSat i.min j.min
      max := match i.max, j.max with
        | some a, some b => some (addSat a b)
        | _, _ => none }

/-- The positive numbers of rounds that can use up a count of the interval, when each round
uses as many as the cardinality allows. -/
def divide (i : Interval) (c : Cardinality) : Interval :=
  if i.isEmpty || c.isZero then empty
  else
    { min := Max.max 1 <| match c.max with
        | some m => (i.min + m - 1) / m
        | none => if i.min = 0 then 0 else 1
      max := if c.min = 0 then none else i.max.map (· / c.min) }

/-- The written form: the bounds in brackets, `*` for no upper bound. -/
def text (i : Interval) : String :=
  "[" ++ toString i.min ++ ", " ++ (match i.max with | some m => toString m | none => "*") ++ "]"

theorem contains_iff {i : Interval} {n : Nat} :
    i.contains n = true ↔ i.min ≤ n ∧ ∀ m ∈ i.max, n ≤ m := by
  obtain ⟨a, b⟩ := i
  cases b <;> simp [contains]

theorem isEmpty_iff {i : Interval} : i.isEmpty = true ↔ ∀ n, i.contains n = false := by
  obtain ⟨a, b⟩ := i
  cases b with
  | none => simpa [isEmpty, contains] using ⟨a, Nat.le_refl a⟩
  | some m =>
    simp only [isEmpty, contains, Option.any_some, Option.all_some, decide_eq_true_eq,
      Bool.and_eq_false_iff, decide_eq_false_iff_not]
    exact ⟨fun h n => by omega, fun h => by have := h m; omega⟩

theorem contains_intersection (i j : Interval) (n : Nat) :
    (i.intersection j).contains n = (i.contains n && j.contains n) := by
  obtain ⟨a, b⟩ := i
  obtain ⟨c, d⟩ := j
  rw [Bool.eq_iff_iff, Bool.and_eq_true, contains_iff, contains_iff, contains_iff]
  cases b <;> cases d <;> simp [intersection] <;> omega

end Interval

end ShapeTyping
