import ShapeTyping.Label
import ShapeTyping.Cardinality

/-!
# Schema errors

Why a set of definitions is no schema, and the message of each cause.
-/

namespace ShapeTyping

/-- Why a dependency must not be part of a cycle. -/
inductive StrictKind where
  | negative
  | zeroCardinality
  deriving DecidableEq, Inhabited, Repr

def StrictKind.text : StrictKind → String
  | negative => "negative"
  | zeroCardinality => "zero-cardinality"

inductive SchemaError where
  | duplicateLabel (label : Label)
  | undefinedStart (label : Label)
  | undefinedShape (referrer label : Label)
  | undefinedTripleExpr (label : Label)
  | cyclicTripleExpr (source target : Label)
  | notStratified (source target : Label) (kind : StrictKind) (component : List Label)
  | invalidCardinality (min : Nat) (max : Option Nat)
  deriving DecidableEq, Inhabited, Repr

/-- Labels in braces. -/
def Label.listText (ls : List Label) : String :=
  "\x7b" ++ ", ".intercalate (ls.map (·.text)) ++ "\x7d"

namespace SchemaError

def message : SchemaError → String
  | duplicateLabel l => "Label " ++ l.text ++ " is defined more than once"
  | undefinedStart l => "Undefined start shape " ++ l.text
  | undefinedShape referrer l =>
    "Undefined shape reference " ++ l.text ++ " in the definition of " ++ referrer.text
  | undefinedTripleExpr l => "Undefined triple expression reference " ++ l.text
  | cyclicTripleExpr source target =>
    "Cyclic triple expression reference: " ++ source.text ++ " -> " ++ target.text
  | notStratified source target kind component =>
    "Schema is not stratified: " ++ source.text ++ " depends on " ++ target.text ++
      " through a " ++ kind.text ++ " reference inside the cycle " ++ Label.listText component
  | invalidCardinality min max =>
    "Invalid cardinality: min=" ++ toString min ++ ", max=" ++
      (match max with | some m => "Some(" ++ toString m ++ ")" | none => "None")

/-- The same error with other labels. -/
def mapLabels (f : Label → Label) : SchemaError → SchemaError
  | duplicateLabel l => duplicateLabel (f l)
  | undefinedStart l => undefinedStart (f l)
  | undefinedShape referrer l => undefinedShape (f referrer) (f l)
  | undefinedTripleExpr l => undefinedTripleExpr (f l)
  | cyclicTripleExpr source target => cyclicTripleExpr (f source) (f target)
  | notStratified source target kind component =>
    notStratified (f source) (f target) kind (component.map f)
  | invalidCardinality min max => invalidCardinality min max

/-- The labels that an error lists first: the referrer and the label it refers to, or the
members of the cycle. -/
def labels : SchemaError → List Label
  | undefinedShape referrer l => [referrer, l]
  | notStratified _ _ _ component => component
  | _ => []

end SchemaError

/-- The cardinality with given bounds, checked. -/
def Cardinality.ofBounds (min : Nat) (max : Option Nat) : Except SchemaError Cardinality :=
  match ofBounds? min max with
  | some c => .ok c
  | none => .error (.invalidCardinality min max)

end ShapeTyping
