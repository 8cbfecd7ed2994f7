import ShapeTyping.Regex.Basic

/-!
# Matching

Sets of positions in a text are natural numbers, a bit for each position. An expression maps
the set of the positions where a match may begin to the set of the positions where it ends.

* `Regex.ends`: the ends of the matches that begin in a set of positions.
* `Regex.matchesIn`: whether a text has a match anywhere.
-/

namespace ShapeTyping.Regex

/-- The positions below `n` with a property. -/
def positions (n : Nat) (p : Nat → Bool) : Nat :=
  n.fold (fun i _ set => if p i then set ||| 1 <<< i else set) 0

/-- Applies a function `n` times, or until nothing changes. -/
def iterate (f : Nat → Nat) : Nat → Nat → Nat
  | 0, set => set
  | n + 1, set => let next := f set; if next = set then set else iterate f n next

/-- Adds the images of a set, `n` times or until nothing is added. -/
def closure (f : Nat → Nat) (n set : Nat) : Nat := iterate (fun s => s ||| f s) n set

/-- The ends of the matches that begin in a set of positions. After more rounds than the text
has characters a further repetition changes nothing. -/
def ends (text : Array Char) : Regex → Nat → Nat
  | empty, set => set
  | chars s, set =>
    (positions text.size fun i => set.testBit i && text[i]?.any s.contains) <<< 1
  | look l, set =>
    positions (text.size + 1) fun i =>
      set.testBit i && l.holds (if i = 0 then none else text[i - 1]?) text[i]?
  | seq a b, set => b.ends text (a.ends text set)
  | alt a b, set => a.ends text set ||| b.ends text set
  | repeated r min max, set =>
    let bound := text.size + 1
    let set := iterate (r.ends text) (Nat.min min bound) set
    let more := match max with
      | none => bound
      | some m => Nat.min (m - min) bound
    closure (r.ends text) more set

/-- Whether a text has a match that begins anywhere. -/
def matchesIn (r : Regex) (text : String) : Bool :=
  let cs := text.toList.toArray
  r.ends cs (1 <<< (cs.size + 1) - 1) ≠ 0

end ShapeTyping.Regex
