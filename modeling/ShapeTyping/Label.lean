import ShapeTyping.Rdf.Term

/-!
# Labels

Names of shapes and of triple expressions: IRIs or blank nodes.
-/

namespace ShapeTyping

inductive Label where
  | iri (i : Iri)
  | blank (id : String)
  deriving DecidableEq, Hashable, Inhabited, Repr

namespace Label

def toTerm : Label → Term
  | iri i => .iri i
  | blank id => .blank id

def iri? : Label → Option Iri
  | iri i => some i
  | blank _ => none

/-- The written form, that of the term. -/
def text (l : Label) : String := l.toTerm.ntriples

theorem toTerm_inj {l m : Label} : l.toTerm = m.toTerm ↔ l = m := by
  cases l <;> cases m <;> simp [toTerm]

end Label

end ShapeTyping
