import ShapeTyping.Reachability
import ShapeTyping.Schema.Basic

/-!
# Dependencies and strata

A definition depends on the labels it refers to. A dependency is strict if it is negative,
below a negation or through an extra predicate, or if it is below a cardinality of zero. A
schema is stratified when no strict dependency is part of a cycle; its strata are the classes
of mutually dependent labels.

* `dependencies`: the dependencies of all definitions in written order.
* `strata`: the classes, each after those it depends on.
* `stratify`: the strata, or the first strict dependency inside a class.
-/

namespace ShapeTyping

/-- A reference from the definition of `source` to `target`. -/
structure Dependency where
  source : Label
  target : Label
  negative : Bool
  zeroCardinality : Bool
  deriving DecidableEq, Inhabited, Repr

namespace Dependency

/-- Why the dependency must not be part of a cycle, if it must not. -/
def strict? (d : Dependency) : Option StrictKind :=
  if d.negative then some .negative
  else if d.zeroCardinality then some .zeroCardinality
  else none

end Dependency

mutual
/-- The dependencies of a shape with an expanded expression. -/
def TripleExpr.dependencies (source : Label) (extra : List Iri) (negative zero : Bool) :
    TripleExpr → List Dependency
  | .constraint c =>
    match c.valueLabel? with
    | none => []
    | some l => [⟨source, l, negative || c.predicate ∈ extra, zero || c.card.isZero⟩]
  | .eachOf es card => TripleExpr.dependenciesOfList source extra negative (zero || card.isZero) es
  | .oneOf es card => TripleExpr.dependenciesOfList source extra negative (zero || card.isZero) es
  | .ref _ => []
  | .empty => []

def TripleExpr.dependenciesOfList (source : Label) (extra : List Iri) (negative zero : Bool) :
    List TripleExpr → List Dependency
  | [] => []
  | e :: es =>
    e.dependencies source extra negative zero ++
      TripleExpr.dependenciesOfList source extra negative zero es
end

mutual
/-- The dependencies of a definition, in written order, references to triple expressions
followed. -/
def ShapeExpr.dependencies (defs : List (Label × TripleExpr)) (source : Label)
    (negative : Bool) : ShapeExpr → List Dependency
  | .and es => ShapeExpr.dependenciesOfList defs source negative es
  | .or es => ShapeExpr.dependenciesOfList defs source negative es
  | .not e => e.dependencies defs source true
  | .shape s =>
    match s.expr.expandIn defs with
    | .ok e => e.dependencies source s.extra negative false
    | .error _ => []
  | .ref l => [⟨source, l, negative, false⟩]
  | .node _ => []
  | .external => []

def ShapeExpr.dependenciesOfList (defs : List (Label × TripleExpr)) (source : Label)
    (negative : Bool) : List ShapeExpr → List Dependency
  | [] => []
  | e :: es =>
    e.dependencies defs source negative ++ ShapeExpr.dependenciesOfList defs source negative es
end

/-- The dependencies of all definitions, in written order. -/
def Definitions.dependencies (d : Definitions) : List Dependency :=
  d.shapes.flatMap fun (l, e) => e.dependencies d.tripleExprs l false

/-- The labels that a label depends on, the last reference first. -/
def successors (deps : List Dependency) (l : Label) : List Label :=
  ((deps.filter (·.source = l)).map (·.target)).reverse

/-- The classes of mutually dependent labels in the order in which a depth-first search
completes them: each comes after the classes it depends on. -/
def strata (labels : List Label) (deps : List Dependency) : List (List Label) :=
  components (successors deps) labels

/-- The strata, unless a strict dependency lies inside one of them; the first one is
reported. -/
def stratify (labels : List Label) (deps : List Dependency) :
    Except SchemaError (List (List Label)) :=
  let classes := strata labels deps
  let offence? (d : Dependency) : Option SchemaError := do
    let kind ← d.strict?
    let component ← classes.find? (d.source ∈ ·)
    -- a dependency whose ends are in one class lies on a cycle
    if d.target ∈ component then some (.notStratified d.source d.target kind component) else none
  match deps.findSome? offence? with
  | some e => .error e
  | none => .ok classes

end ShapeTyping
