import ShapeTyping.Interval

/-!
# Bags and their enumeration

A bag assigns one triple constraint, given by its index, to each edge around a node. The
bags over lists of candidates are enumerated in lexicographic order: the choice for the last
list varies fastest.

* `Bag.count`: how often a constraint is assigned.
* `Bag.counts`: the same for all constraints, in one pass.
* `Bags.next?`: one bag at a time.
* `Bags.total`: the number of bags, on 64-bit words.
-/

namespace ShapeTyping

/-- An assignment of constraints below `size`, one for each edge. -/
structure Bag where
  assignment : List Nat
  size : Nat
  deriving DecidableEq, Inhabited, Repr

namespace Bag

/-- The occurrences of a constraint; indices from `size` on are not counted. -/
def count (b : Bag) (i : Nat) : Nat := if i < b.size then b.assignment.count i else 0

/-- Counts one more occurrence of a constraint, if the constraint is counted at all. -/
def tick (counts : List Nat) (i : Nat) : List Nat := counts.modify i (· + 1)

/-- The occurrences of each constraint, counted along the assignment. -/
def counts (b : Bag) : List Nat := b.assignment.foldl tick (List.replicate b.size 0)

def isEmpty (b : Bag) : Bool := b.assignment.isEmpty

theorem getElem?_foldl_tick (is counts : List Nat) (j : Nat) :
    (is.foldl tick counts)[j]? = counts[j]?.map (· + is.count j) := by
  induction is generalizing counts with
  | nil => simp
  | cons i is ih =>
    rw [List.foldl_cons, ih, tick, List.getElem?_modify, List.count_cons]
    by_cases hij : i = j <;> simp [hij, Function.comp_def, Nat.add_comm, Nat.add_left_comm]

/-- What is counted along the assignment are the occurrences of each constraint. -/
theorem counts_eq (b : Bag) : b.counts = (List.range b.size).map b.assignment.count := by
  apply List.ext_getElem?
  intro j
  rw [counts, getElem?_foldl_tick, List.getElem?_map, List.getElem?_replicate]
  by_cases hj : j < b.size <;> simp [hj]

@[simp]
theorem length_counts (b : Bag) : b.counts.length = b.size := by simp [counts_eq]

/-- The occurrences of one constraint, looked up among those of all. -/
theorem count_eq (b : Bag) (i : Nat) : b.count i = b.counts[i]?.getD 0 := by
  rw [counts_eq, count]
  by_cases hi : i < b.size <;> simp [hi]

end Bag

/-- An enumeration of the bags over lists of candidates. `current` holds what is left of each
list from the present choice on, and is absent when no bag is left. -/
structure Bags where
  candidates : List (List Nat)
  size : Nat
  current : Option (List (List Nat))
  deriving DecidableEq, Inhabited, Repr

namespace Bags

/-- All first choices; there is none if some list is empty. -/
def first (candidates : List (List Nat)) : Option (List (List Nat)) :=
  if candidates.any (·.isEmpty) then none else some candidates

def ofCandidates (candidates : List (List Nat)) (size : Nat) : Bags :=
  ⟨candidates, size, first candidates⟩

/-- Starts again from the first bag. -/
def reset (b : Bags) : Bags := ofCandidates b.candidates b.size

/-- The next choice in lexicographic order: the last list that has another candidate moves
to it, and the lists after that start again. -/
def advance : List (List Nat) → List (List Nat) → Option (List (List Nat))
  | _ :: cs, r :: rs =>
    match advance cs rs with
    | some rs' => some (r :: rs')
    | none =>
      match r.tail with
      | [] => none
      | x :: xs => some ((x :: xs) :: cs)
  | _, _ => none

/-- The present bag and the enumeration after it. -/
def next? (b : Bags) : Option (Bag × Bags) :=
  b.current.map fun rest =>
    (⟨rest.filterMap List.head?, b.size⟩, { b with current := advance b.candidates rest })

/-- The number of choices of one candidate from each list. -/
def number (b : Bags) : Nat := b.candidates.foldl (fun n c => n * c.length) 1

/-- The number of bags, stopping at the largest word in every step. -/
def total (b : Bags) : Nat := b.candidates.foldl (fun n c => mulSat n c.length) 1

/-- The next bags, at most `n` of them, and the enumeration after them. -/
def take : Nat → Bags → List Bag × Bags
  | 0, b => ([], b)
  | n + 1, b =>
    match b.next? with
    | none => ([], b)
    | some (bag, b') =>
      let (bags, last) := take n b'
      (bag :: bags, last)

/-- All bags that are left. -/
def rest (b : Bags) : List Bag × Bags := b.take b.number

end Bags

end ShapeTyping
