import ShapeTyping.Rdf.Term
import ShapeTyping.Schema.Error

/-!
# Validation errors

Why an association of a node and a shape cannot be decided, and the message of each cause.
-/

namespace ShapeTyping

/-- A breach of what a schema and a run guarantee. -/
inductive Fault where
  | shapeIndex (index : Nat)
  | expansion (cause : SchemaError)
  | exhausted
  deriving DecidableEq, Inhabited, Repr

def Fault.message : Fault → String
  | shapeIndex i => "shape index " ++ toString i ++ " is out of the schema bounds"
  | expansion e => e.message
  | exhausted => "every association is pending"

inductive ValidationError where
  | unknownShape (label : Label)
  | externalShape
  | invalidPattern (pattern : String)
  | patternTooLong (bytes max : Nat)
  | valueSetTooLong (length max : Nat)
  | recursionLimit (max : Nat)
  | bagLimit (node : Term) (max : Nat)
  | fault (f : Fault)
  deriving DecidableEq, Inhabited, Repr

namespace ValidationError

def message : ValidationError → String
  | unknownShape l => "Shape not found: " ++ l.text
  | externalShape => "Unsupported construct: EXTERNAL shapes are not supported"
  | invalidPattern p => "Invalid regex pattern '" ++ p ++ "'"
  | patternTooLong n max =>
    "Regex pattern of length " ++ toString n ++ " exceeds the maximum of " ++ toString max
  | valueSetTooLong n max =>
    "Value set of " ++ toString n ++ " values exceeds the maximum of " ++ toString max
  | recursionLimit max =>
    "Maximum recursion depth (" ++ toString max ++ ") exceeded during validation"
  | bagLimit node max =>
    "More than " ++ toString max ++ " candidate bags enumerated for node " ++ node.ntriples
  | fault f => "Internal validation error: " ++ f.message

end ValidationError

end ShapeTyping
