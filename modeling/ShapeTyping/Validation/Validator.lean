import ShapeTyping.Formula.Search
import ShapeTyping.Validation.Run

/-!
# Validators

A validator keeps the typing of successive calls, so that later calls reuse earlier verdicts.

* `Validator.validate`: decides an association.
* `Validator.evaluate`: a formula over the facts concluded so far.
* `Validator.reset`: forgets every verdict.
-/

namespace ShapeTyping

structure Validator where
  context : Context
  state : State
  deriving Inhabited

namespace Validator

def new (schema : Schema) (graph : Graph) (limits : Limits) : Validator :=
  ⟨⟨schema, graph, limits⟩, .start schema⟩

def typing (v : Validator) : Typing := v.state.typing

/-- Decides an association. The first error that arose, if any, is the answer; the typing is
kept either way. -/
def validate (v : Validator) (a : Association) : Except ValidationError Bool × Validator :=
  if v.context.schema.contains a.label then
    let start := { v.state with errors := [], depth := 0 }
    let (conforms, st) := decideWithin v.context v.context.maxNesting a start
    let answer := match st.errors with
      | e :: _ => .error e
      | [] => .ok conforms
    (answer, { v with state := { st with typing := st.typing.commit, errors := [] } })
  else (.error (.unknownShape a.label), v)

/-- Forgets every verdict and keeps the compiled expressions. -/
def reset (v : Validator) : Validator :=
  { v with state := { v.state with typing := .empty, errors := [], depth := 0 } }

/-- The facts that formulas speak about. -/
def facts (v : Validator) : Facts where
  shapes := v.typing.shapeFacts.map fun a => (a.node, a.label)
  triples := v.typing.tripleFacts.map fun m => (m.triple.subject, m.triple.object, m.label)

def evaluate (v : Validator) (f : Formula) (candidates : List Term) : Outcome :=
  f.evaluate v.facts candidates

end Validator

end ShapeTyping
