import ShapeTyping.Unicode.Property
import ShapeTyping.Unicode.Folding

/-!
# Regular expressions

* `CharSet`: sets of characters, with their case closure.
* `Look`: conditions on the characters around a position.
* `Regex`: expressions over sets and conditions.
* `Regex.weight`: an estimate of the size of an expression with repetitions written out.
-/

namespace ShapeTyping

/-- A set of characters. -/
inductive CharSet where
  | none
  | range (lo hi : Nat)
  | table (t : Unicode.CharTable)
  | compl (s : CharSet)
  | union (s t : CharSet)
  | inter (s t : CharSet)
  | diff (s t : CharSet)
  | symmDiff (s t : CharSet)
  | folded (s : CharSet)
  | foldedAscii (s : CharSet)
  deriving DecidableEq, Inhabited, Repr

namespace CharSet

def char (c : Char) : CharSet := range c.toNat c.toNat

/-- Whether a set holds a code point. A folded set holds all case variants of its members. -/
def containsCode : CharSet → Nat → Bool
  | none, _ => false
  | range lo hi, n => lo ≤ n && n ≤ hi
  | table t, n => t.any (·.contains n)
  | compl s, n => !s.containsCode n
  | union s t, n => s.containsCode n || t.containsCode n
  | inter s t, n => s.containsCode n && t.containsCode n
  | diff s t, n => s.containsCode n && !t.containsCode n
  | symmDiff s t, n => s.containsCode n != t.containsCode n
  | folded s, n => (Unicode.caseVariants n).any s.containsCode
  | foldedAscii s, n =>
    let c := Char.ofNat n
    s.containsCode n || s.containsCode c.toLower.toNat || s.containsCode c.toUpper.toNat

def contains (s : CharSet) (c : Char) : Bool := s.containsCode c.toNat

/-- An estimate of the size of a set written out as ranges. -/
def weight : CharSet → Nat
  | none => 32
  | range lo hi => if hi < 0x80 then 32 else if lo = hi then 64 else 128
  | table t => 32 + 48 * t.length
  | compl s => 160 + s.weight
  | union s t => s.weight + t.weight
  | inter s t => s.weight + t.weight
  | diff s t => s.weight + t.weight
  | symmDiff s t => s.weight + t.weight
  | folded s => 16 + s.weight
  | foldedAscii s => 16 + s.weight

end CharSet

/-- A condition on the characters before and after a position. The flag of a line condition
says whether a carriage return ends a line too. -/
inductive Look where
  | textStart
  | textEnd
  | lineStart (crlf : Bool)
  | lineEnd (crlf : Bool)
  | wordBoundary (ascii : Bool)
  | notWordBoundary (ascii : Bool)
  | wordStart (ascii : Bool)
  | wordEnd (ascii : Bool)
  | wordStartHalf (ascii : Bool)
  | wordEndHalf (ascii : Bool)
  deriving DecidableEq, Inhabited, Repr

namespace Look

/-- Whether an adjacent character belongs to a word. -/
def isWordChar (ascii : Bool) : Option Char → Bool
  | none => false
  | some c => if ascii then c.isAlphanum || c = '_' else Unicode.isWord c

/-- Whether the condition holds between two characters; at the ends of a text one of them is
absent. -/
def holds (before after : Option Char) : Look → Bool
  | textStart => before.isNone
  | textEnd => after.isNone
  | lineStart false => before.all (· = '\n')
  | lineEnd false => after.all (· = '\n')
  | lineStart true => before.all (fun c => c = '\n' || (c = '\r' && after ≠ some '\n'))
  | lineEnd true => after.all (fun c => c = '\r' || (c = '\n' && before ≠ some '\r'))
  | wordBoundary a => isWordChar a before != isWordChar a after
  | notWordBoundary a => isWordChar a before == isWordChar a after
  | wordStart a => !isWordChar a before && isWordChar a after
  | wordEnd a => isWordChar a before && !isWordChar a after
  | wordStartHalf a => !isWordChar a before
  | wordEndHalf a => !isWordChar a after

end Look

/-- A regular expression. Whether a text has a match does not depend on greediness. -/
inductive Regex where
  | empty
  | chars (s : CharSet)
  | look (l : Look)
  | seq (a b : Regex)
  | alt (a b : Regex)
  | repeated (r : Regex) (min : Nat) (max : Option Nat)
  deriving Inhabited, Repr

namespace Regex

/-- Whether all matches are empty. -/
def isEmptyOnly : Regex → Bool
  | empty => true
  | chars _ => false
  | look _ => true
  | seq a b => a.isEmptyOnly && b.isEmptyOnly
  | alt a b => a.isEmptyOnly && b.isEmptyOnly
  | repeated r _ max => max = some 0 || r.isEmptyOnly

/-- An estimate of the size in bytes of an automaton for the expression. -/
def weight : Regex → Nat
  | empty => 32
  | chars s => s.weight
  | look _ => 32
  | seq a b => a.weight + b.weight
  | alt a b => a.weight + b.weight + 40
  | repeated r min max =>
    if r.isEmptyOnly then r.weight
    else
      match max with
      | none => (Nat.max min 1) * r.weight + 40
      | some m => min * r.weight + (m - min) * (r.weight + 40) + 32

/-- The largest weight of an expression that is accepted, 10 MiB. -/
def maxWeight : Nat := 10 * 1024 * 1024

end Regex

end ShapeTyping
