/-!
# Cardinalities

How often a triple constraint or a group may occur: at least `min` and at most `max` times,
without an upper bound when `max` is absent.

* `Cardinality.ofBounds?`: refuses a maximum below the minimum.
* `Cardinality.ofBounds?_allows`: an accepted cardinality allows its minimum.
-/

namespace ShapeTyping

structure Cardinality where
  min : Nat
  max : Option Nat
  deriving DecidableEq, Hashable, Inhabited, Repr

namespace Cardinality

def exactly (n : Nat) : Cardinality := ⟨n, some n⟩
def one : Cardinality := exactly 1
def optional : Cardinality := ⟨0, some 1⟩
def star : Cardinality := ⟨0, none⟩
def plus : Cardinality := ⟨1, none⟩

/-- The cardinality with given bounds, if the maximum is not below the minimum. -/
def ofBounds? (min : Nat) (max : Option Nat) : Option Cardinality :=
  if max.all (min ≤ ·) then some ⟨min, max⟩ else none

/-- Whether a number of occurrences is allowed. -/
def allows (c : Cardinality) (n : Nat) : Bool := c.min ≤ n && c.max.all (n ≤ ·)

def isOne (c : Cardinality) : Bool := c = one

/-- Whether no occurrence is allowed. -/
def isZero (c : Cardinality) : Bool := c.max = some 0

/-- Whether the cardinality is one of the three written `?`, `*` and `+`. -/
def isRepetition (c : Cardinality) : Bool := c = optional || c = star || c = plus

/-- The bounds in order: the condition that `ofBounds?` checks. -/
def Valid (c : Cardinality) : Prop := ∀ m ∈ c.max, c.min ≤ m

instance (c : Cardinality) : Decidable c.Valid :=
  match c with
  | ⟨_, none⟩ => .isTrue nofun
  | ⟨n, some m⟩ => decidable_of_iff (n ≤ m) (by simp [Valid])

theorem allows_iff {c : Cardinality} {n : Nat} :
    c.allows n = true ↔ c.min ≤ n ∧ ∀ m ∈ c.max, n ≤ m := by
  obtain ⟨a, b⟩ := c
  cases b <;> simp [allows]

theorem ofBounds?_eq_some_iff {min : Nat} {max : Option Nat} {c : Cardinality} :
    ofBounds? min max = some c ↔ c = ⟨min, max⟩ ∧ c.Valid := by
  unfold ofBounds?
  cases max <;> simp [Valid] <;> grind

theorem ofBounds?_allows {min : Nat} {max : Option Nat} {c : Cardinality}
    (h : ofBounds? min max = some c) : c.allows min = true := by
  obtain ⟨rfl, hv⟩ := ofBounds?_eq_some_iff.1 h
  cases max <;> simp_all [allows, Valid]

/-- The written form: `?`, `*`, `+`, or the bounds in braces. -/
def text : Cardinality → String
  | ⟨0, none⟩ => "*"
  | ⟨1, none⟩ => "+"
  | ⟨0, some 1⟩ => "?"
  | ⟨n, none⟩ => "\x7b" ++ toString n ++ ",\x7d"
  | ⟨n, some m⟩ =>
    if n = m then "\x7b" ++ toString n ++ "\x7d"
    else "\x7b" ++ toString n ++ "," ++ toString m ++ "\x7d"

end Cardinality

end ShapeTyping
