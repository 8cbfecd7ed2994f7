import ShapeTyping.Expr
import ShapeTyping.Typing

/-!
# Matching of edges and triple constraints

* `TripleConstraint.matchesEdge`: the predicate and the direction of an edge fit.
* `TripleConstraint.accepts`: the other end also has the type that is asked for.
* `matchingConstraints`: the indices of the constraints that fit each edge.
-/

namespace ShapeTyping

namespace TripleConstraint

def direction (c : TripleConstraint) : Direction := if c.inverse then .inverse else .forward

def matchesEdge (c : TripleConstraint) (e : Edge) : Bool :=
  e.predicate = c.predicate && e.direction = c.direction

/-- Whether an edge fits, reading the type of its other end from a typing. -/
def accepts (t : Typing) (c : TripleConstraint) (e : Edge) : Bool :=
  c.matchesEdge e && c.valueLabel?.all fun l => t.contains ⟨e.other, l⟩

end TripleConstraint

/-- The indices of the constraints with a property, in order. -/
def constraintIndices (p : TripleConstraint → Bool) (cs : List TripleConstraint) : List Nat :=
  (List.range cs.length).filter fun i => cs[i]?.any p

/-- For each edge the constraints that fit it. -/
def matchingConstraints (fits : TripleConstraint → Edge → Bool) (es : List Edge)
    (cs : List TripleConstraint) : List (List Nat) :=
  es.map fun e => constraintIndices (fits · e) cs

end ShapeTyping
