import ShapeTyping.Label
import ShapeTyping.Cardinality
import ShapeTyping.NodeConstraint.Basic

/-!
# Shape expressions and triple expressions

* `ShapeExpr`: a condition on a node, a boolean combination of node constraints, shapes and
  references to other definitions.
* `TripleExpr`: a regular bag expression over the triples around a node.
* `TripleExpr.constraints`: the triple constraints in written order.
* `ShapeExpr.references`: the shape labels that a shape expression refers to, in written
  order.
-/

namespace ShapeTyping

mutual
/-- A condition on a node. -/
inductive ShapeExpr where
  | and (es : List ShapeExpr)
  | or (es : List ShapeExpr)
  | not (e : ShapeExpr)
  | node (c : NodeConstraint)
  | shape (s : Shape)
  | external
  | ref (l : Label)

/-- A condition on the triples around a node. A closed shape allows no other outgoing
triple, and triples with an extra predicate may match no constraint. Each shape of a schema
has an index of its own. -/
structure Shape where
  closed : Bool
  extra : List Iri
  expr : TripleExpr
  index : Nat

/-- A regular bag expression over triple constraints. -/
inductive TripleExpr where
  | constraint (c : TripleConstraint)
  | eachOf (es : List TripleExpr) (card : Cardinality)
  | oneOf (es : List TripleExpr) (card : Cardinality)
  | ref (l : Label)
  | empty

/-- A predicate and a direction, with a condition on the other end, a cardinality and a
label under which matched triples are recorded. -/
structure TripleConstraint where
  predicate : Iri
  value : Option ShapeExpr
  card : Cardinality
  inverse : Bool
  label : Option Label
end

instance : Inhabited ShapeExpr := ⟨.external⟩
instance : Inhabited TripleExpr := ⟨.empty⟩

deriving instance Inhabited for Shape, TripleConstraint

namespace ShapeExpr

def ref? : ShapeExpr → Option Label
  | ref l => some l
  | _ => none

def isRef (e : ShapeExpr) : Bool := e.ref?.isSome

end ShapeExpr

namespace TripleConstraint

/-- The label that the other end has to conform to, if the value is a reference. -/
def valueLabel? (c : TripleConstraint) : Option Label := c.value.bind (·.ref?)

end TripleConstraint

namespace Shape

/-- Whether triples with this predicate may match no constraint. -/
def isExtra (s : Shape) (p : Iri) : Bool := p ∈ s.extra

end Shape

namespace TripleExpr

/-- Changes the outermost cardinality. References and the empty expression have none. -/
def withCard : TripleExpr → Cardinality → TripleExpr
  | constraint c, card => constraint { c with card }
  | eachOf es _, card => eachOf es card
  | oneOf es _, card => oneOf es card
  | ref l, _ => ref l
  | empty, _ => empty

mutual
/-- The triple constraints in written order, without following references. -/
def constraints : TripleExpr → List TripleConstraint
  | constraint c => [c]
  | eachOf es _ => constraintsOfList es
  | oneOf es _ => constraintsOfList es
  | ref _ => []
  | empty => []

def constraintsOfList : List TripleExpr → List TripleConstraint
  | [] => []
  | e :: es => e.constraints ++ constraintsOfList es
end

mutual
/-- The triple expression labels referred to, in written order. -/
def references : TripleExpr → List Label
  | constraint _ => []
  | eachOf es _ => referencesOfList es
  | oneOf es _ => referencesOfList es
  | ref l => [l]
  | empty => []

def referencesOfList : List TripleExpr → List Label
  | [] => []
  | e :: es => e.references ++ referencesOfList es
end

end TripleExpr

mutual
/-- The shape labels referred to, in written order; values are included at any depth and
references to triple expressions are not followed. -/
def ShapeExpr.references : ShapeExpr → List Label
  | .and es => ShapeExpr.referencesOfList es
  | .or es => ShapeExpr.referencesOfList es
  | .not e => e.references
  | .node _ => []
  | .shape ⟨_, _, e, _⟩ => e.valueReferences
  | .external => []
  | .ref l => [l]

def ShapeExpr.referencesOfList : List ShapeExpr → List Label
  | [] => []
  | e :: es => e.references ++ ShapeExpr.referencesOfList es

/-- The shape labels that the values of a triple expression refer to. -/
def TripleExpr.valueReferences : TripleExpr → List Label
  | .constraint c => c.valueReferences
  | .eachOf es _ => TripleExpr.valueReferencesOfList es
  | .oneOf es _ => TripleExpr.valueReferencesOfList es
  | .ref _ => []
  | .empty => []

def TripleExpr.valueReferencesOfList : List TripleExpr → List Label
  | [] => []
  | e :: es => e.valueReferences ++ TripleExpr.valueReferencesOfList es

def TripleConstraint.valueReferences : TripleConstraint → List Label
  | ⟨_, some e, _, _, _⟩ => e.references
  | ⟨_, none, _, _, _⟩ => []
end

mutual
/-- The triple expression labels that the shapes of an expression refer to, in written
order; values are not looked into. -/
def ShapeExpr.tripleReferences : ShapeExpr → List Label
  | .and es => ShapeExpr.tripleReferencesOfList es
  | .or es => ShapeExpr.tripleReferencesOfList es
  | .not e => e.tripleReferences
  | .shape ⟨_, _, e, _⟩ => e.references
  | .node _ => []
  | .external => []
  | .ref _ => []

def ShapeExpr.tripleReferencesOfList : List ShapeExpr → List Label
  | [] => []
  | e :: es => e.tripleReferences ++ ShapeExpr.tripleReferencesOfList es
end

end ShapeTyping
