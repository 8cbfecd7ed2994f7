import ShapeTyping.Rdf.Term

/-!
# Node constraints

What a node constraint can ask of a node: its kind, its datatype, facets of its text and of
its numeric value, and membership in a value set.
-/

namespace ShapeTyping

inductive NodeKind where
  | iri
  | blank
  | literal
  | nonLiteral
  deriving DecidableEq, Inhabited, Repr

namespace NodeKind

def admits : NodeKind → Term → Bool
  | iri, .iri _ => true
  | blank, .blank _ => true
  | literal, .literal _ => true
  | nonLiteral, .iri _ => true
  | nonLiteral, .blank _ => true
  | _, _ => false

/-- The keyword of a node kind. -/
def text : NodeKind → String
  | iri => "IRI"
  | blank => "BNODE"
  | literal => "LITERAL"
  | nonLiteral => "NONLITERAL"

end NodeKind

/-- Facets of the text of a node, counted in characters. -/
inductive StringFacet where
  | length (n : Nat)
  | minLength (n : Nat)
  | maxLength (n : Nat)
  | pattern (source : String) (flags : Option String)
  deriving DecidableEq, Inhabited, Repr

/-- Facets of the value of a numeric literal. -/
inductive NumericFacet where
  | minInclusive (bound : Literal)
  | minExclusive (bound : Literal)
  | maxInclusive (bound : Literal)
  | maxExclusive (bound : Literal)
  | totalDigits (n : Nat)
  | fractionDigits (n : Nat)
  deriving DecidableEq, Inhabited, Repr

/-- What the stem of a value set is compared with. -/
inductive StemKind where
  | iri
  | literal
  | language
  deriving DecidableEq, Inhabited, Repr

/-- A member of a value set: one term, all that starts with a stem, or all that starts with a
stem less some exclusions. -/
inductive ValueSpec where
  | term (t : Term)
  | stem (kind : StemKind) (stem : String)
  | stemRange (kind : StemKind) (stem : String) (exclusions : List ValueSpec)
  deriving Inhabited, Repr, BEq

/-- The conjunction of the parts that are present. -/
structure NodeConstraint where
  kind : Option NodeKind
  datatype : Option Iri
  stringFacets : List StringFacet
  numericFacets : List NumericFacet
  values : List ValueSpec
  deriving Inhabited, Repr, BEq

namespace NodeConstraint

/-- The constraint that every node satisfies. -/
def any : NodeConstraint := ⟨none, none, [], [], []⟩

/-- Whether nothing is asked. -/
def isEmpty (c : NodeConstraint) : Bool :=
  c.kind.isNone && c.datatype.isNone && c.stringFacets.isEmpty && c.numericFacets.isEmpty &&
    c.values.isEmpty

end NodeConstraint

end ShapeTyping
