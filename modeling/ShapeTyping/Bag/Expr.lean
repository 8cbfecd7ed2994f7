import ShapeTyping.Bag.Basic
import ShapeTyping.Expr

/-!
# Single-occurrence bag expressions

A triple expression without references and with groups of cardinality one, `?`, `*` or `+`
only is compiled to a tree whose leaves are the indices of its triple constraints, each index
once. Membership of a bag is then a matter of one pass over the tree.

* `TripleExpr.unfold`: replaces the other cardinalities of groups by copies.
* `TripleExpr.compile`: the tree, its constraints and their predicates.
* `BagExpr.evaluate`: how often the tree can be repeated to use up a bag.
* `BagExpr.accepts`: whether the tree accepts a bag.
-/

namespace ShapeTyping

namespace TripleExpr

/-- A group of cardinality one, repeated: copies of the group, the mandatory ones first. -/
def unfoldGroup (group : TripleExpr) (card : Cardinality) : TripleExpr :=
  if card.isOne || card.isRepetition then group.withCard card
  else if card.isZero then empty
  else
    let copies := match card.max with
      | some m =>
        List.replicate card.min group ++
          List.replicate (m - card.min) (group.withCard .optional)
      | none => List.replicate (card.min - 1) group ++ [group.withCard .plus]
    eachOf copies .one

mutual
/-- Unfolds the cardinalities of all groups. Triple constraints keep theirs. -/
def unfold : TripleExpr → TripleExpr
  | constraint c => constraint c
  | eachOf es card => unfoldGroup (eachOf (unfoldList es) .one) card
  | oneOf es card => unfoldGroup (oneOf (unfoldList es) .one) card
  | ref l => ref l
  | empty => empty

def unfoldList : List TripleExpr → List TripleExpr
  | [] => []
  | e :: es => e.unfold :: unfoldList es
end

end TripleExpr

/-- A regular bag expression over constraint indices. -/
inductive BagExpr where
  | constraint (i : Nat)
  | repeated (e : BagExpr) (card : Cardinality)
  | eachOf (es : List BagExpr)
  | oneOf (es : List BagExpr)
  | empty
  deriving Inhabited, Repr

namespace BagExpr

/-- An expression with a cardinality; cardinality one adds nothing. -/
def withCard (e : BagExpr) (card : Cardinality) : BagExpr :=
  if card.isOne then e else repeated e card

mutual
/-- The tree of a triple expression whose constraints are numbered from `k` on, left to
right. -/
def ofTripleExpr (k : Nat) : TripleExpr → BagExpr
  | .constraint c => (constraint k).withCard c.card
  | .eachOf es card => (eachOf (ofTripleExprs k es)).withCard card
  | .oneOf es card => (oneOf (ofTripleExprs k es)).withCard card
  | .ref _ => empty
  | .empty => empty

def ofTripleExprs (k : Nat) : List TripleExpr → List BagExpr
  | [] => []
  | e :: es => ofTripleExpr k e :: ofTripleExprs (k + e.constraints.length) es
end

mutual
/-- Whether the empty bag is accepted. -/
def nullable : BagExpr → Bool
  | constraint _ => false
  | repeated e card => card.min = 0 || e.nullable
  | eachOf es => allNullable es
  | oneOf es => anyNullable es
  | empty => true

def allNullable : List BagExpr → Bool
  | [] => true
  | e :: es => e.nullable && allNullable es

def anyNullable : List BagExpr → Bool
  | [] => false
  | e :: es => e.nullable || anyNullable es
end

/-- What one pass learns about a part of the tree: the numbers of repetitions that use up the
part of the bag below it, and whether that part of the bag has an element. -/
structure Reading where
  repetitions : Interval
  occurs : Bool
  deriving DecidableEq, Inhabited, Repr

mutual
/-- Reads a bag, given by its counts. -/
def evaluate (count : Nat → Nat) : BagExpr → Reading
  | constraint i => ⟨.point (count i), 0 < count i⟩
  | repeated e card =>
    let r := e.evaluate count
    if r.occurs then ⟨r.repetitions.divide card, true⟩
    -- an empty part of the bag is used up by any number of empty repetitions
    else if card.min = 0 || e.nullable then ⟨.star, false⟩
    else ⟨.zero, false⟩
  | eachOf es => evaluateEach count ⟨.star, false⟩ es
  | oneOf es => evaluateOne count ⟨.zero, false⟩ es
  | empty => ⟨.star, false⟩

/-- Parts that occur together are repeated equally often. -/
def evaluateEach (count : Nat → Nat) (acc : Reading) : List BagExpr → Reading
  | [] => acc
  | e :: es =>
    let r := e.evaluate count
    evaluateEach count ⟨acc.repetitions.intersection r.repetitions, acc.occurs || r.occurs⟩ es

/-- Repetitions of alternatives add up. -/
def evaluateOne (count : Nat → Nat) (acc : Reading) : List BagExpr → Reading
  | [] => acc
  | e :: es =>
    let r := e.evaluate count
    evaluateOne count ⟨acc.repetitions.sum r.repetitions, acc.occurs || r.occurs⟩ es
end

/-- Whether one repetition uses up the bag. -/
def accepts (e : BagExpr) (b : Bag) : Bool := (e.evaluate b.count).repetitions.contains 1

end BagExpr

/-- A triple expression ready for matching. -/
structure Compiled where
  expr : TripleExpr
  constraints : List TripleConstraint
  root : BagExpr
  forward : List Iri
  inverse : List Iri
  deriving Inhabited

/-- The predicates of the constraints of one direction, each once. -/
def predicatesOf (cs : List TripleConstraint) (inverse : Bool) : List Iri :=
  ((cs.filter (·.inverse = inverse)).map (·.predicate)).eraseDups

namespace TripleExpr

/-- Compiles an expression without references. -/
def compile (e : TripleExpr) : Compiled :=
  let n := e.unfold
  let cs := n.constraints
  ⟨n, cs, .ofTripleExpr 0 n, predicatesOf cs false, predicatesOf cs true⟩

end TripleExpr

end ShapeTyping
