import ShapeTyping.Expr
import ShapeTyping.Schema.Error

/-!
# Definitions and schemas

* `Definitions`: labelled shape expressions and triple expressions as they are written.
* `Schema`: definitions that passed all checks, whose values are references only.
* `Schema.expand`: a triple expression with references replaced by their definitions.
-/

namespace ShapeTyping

/-- Definitions in written order, with an optional start shape. -/
structure Definitions where
  shapes : List (Label × ShapeExpr)
  tripleExprs : List (Label × TripleExpr)
  start : Option Label
  deriving Inhabited

/-- Checked definitions. The shapes of all definitions together have the indices below
`shapeCount`, and `strata` lists the classes of mutually dependent labels from the lowest. -/
structure Schema where
  shapes : List (Label × ShapeExpr)
  tripleExprs : List (Label × TripleExpr)
  start : Option Label
  shapeCount : Nat
  strata : List (List Label)
  deriving Inhabited

namespace Schema

def labels (s : Schema) : List Label := s.shapes.map (·.1)

def shape? (s : Schema) (l : Label) : Option ShapeExpr := s.shapes.lookup l

def contains (s : Schema) (l : Label) : Bool := (s.shape? l).isSome

def tripleExpr? (s : Schema) (l : Label) : Option TripleExpr := s.tripleExprs.lookup l

/-- The position of the stratum of a label. -/
def stratum? (s : Schema) (l : Label) : Option Nat := s.strata.findIdx? (l ∈ ·)

def size (s : Schema) : Nat := s.shapes.length

def isEmpty (s : Schema) : Bool := s.shapes.isEmpty

end Schema

/-! ### Expansion of references -/

mutual
/-- Replaces references, left to right, by what `follow` gives for them. -/
def TripleExpr.expandWith (follow : Label → Except SchemaError TripleExpr) :
    TripleExpr → Except SchemaError TripleExpr
  | .constraint c => .ok (.constraint c)
  | .eachOf es card => (TripleExpr.expandListWith follow es).map (.eachOf · card)
  | .oneOf es card => (TripleExpr.expandListWith follow es).map (.oneOf · card)
  | .ref l => follow l
  | .empty => .ok .empty

def TripleExpr.expandListWith (follow : Label → Except SchemaError TripleExpr) :
    List TripleExpr → Except SchemaError (List TripleExpr)
  | [] => .ok []
  | e :: es =>
    match e.expandWith follow with
    | .error err => .error err
    | .ok e' => (TripleExpr.expandListWith follow es).map (e' :: ·)
end

/-- The definition of a label without references, following at most `depth` references in a
chain. A longer chain counts as undefined. -/
def expandLabel (defs : List (Label × TripleExpr)) : Nat → Label → Except SchemaError TripleExpr
  | 0, l => .error (.undefinedTripleExpr l)
  | depth + 1, l =>
    match defs.lookup l with
    | none => .error (.undefinedTripleExpr l)
    | some e => e.expandWith (expandLabel defs depth)

/-- A triple expression with references replaced by definitions. A chain of references that
is longer than the list of definitions would repeat one of them. -/
def TripleExpr.expandIn (defs : List (Label × TripleExpr)) (e : TripleExpr) :
    Except SchemaError TripleExpr :=
  e.expandWith (expandLabel defs defs.length)

def Schema.expand (s : Schema) (e : TripleExpr) : Except SchemaError TripleExpr :=
  e.expandIn s.tripleExprs

end ShapeTyping
