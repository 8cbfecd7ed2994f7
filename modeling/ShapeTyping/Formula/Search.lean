import ShapeTyping.Formula.Sentence

/-!
# Evaluation of formulas

Each quantified variable, in order, is bound to the candidates one by one until the sentence
is decided.

* `Formula.isAdmissible`: the candidates that a variable may be bound to.
* `Formula.evaluate`: whether a formula holds, and the last assignment that was tried.
-/

namespace ShapeTyping

namespace Formula

/-- A variable of a class may be bound to a literal of the datatype that another variable of
the class has, and to an orderable term if no other one is bound to a literal. -/
def isAdmissible (f : Formula) (v : Variable) (t : Term) (a : Assignment) : Bool :=
  match f.sameType? v with
  | none => true
  | some others =>
    let datatype? (u : Variable) : Option Iri :=
      match a.get? u with
      | some (.literal l) => some l.datatype
      | _ => none
    match others.findSome? datatype? with
    | none => t.isOrderable
    | some d =>
      match t with
      | .literal l => l.datatype = d
      | _ => false

end Formula

namespace Quantifier

/-- Whether a result for one candidate decides the quantifier. -/
def isDecided : Quantifier → Truth → Bool
  | universal _, t => t ≠ .yes
  | existential _, t => t = .yes

/-- The result when no candidate decides the quantifier. -/
def default : Quantifier → Truth
  | universal _ => .yes
  | existential _ => .no

end Quantifier

/-- The assignment at hand and the one that the sentence was last evaluated under. -/
structure SearchState where
  assignment : Assignment
  last : Assignment
  deriving Inhabited, Repr

/-- A step of a search. The state is kept on failure. -/
abbrev Search := EStateM FormulaError SearchState

def unbindVariable (v : Variable) : Search Unit :=
  modify fun s => { s with assignment := s.assignment.erase v }

def bindVariable (v : Variable) (t : Term) : Search Unit :=
  modify fun s => { s with assignment := s.assignment.insert v t }

/-- Binds the variable of a quantifier to the admissible candidates one by one and continues
with `next`, until the quantifier is decided. The variable is unbound at the end. -/
def tryCandidates (f : Formula) (q : Quantifier) (next : Search Truth) :
    List Term → Search Truth
  | [] => do
    unbindVariable q.var
    return q.default
  | t :: ts => do
    if f.isAdmissible q.var t (← get).assignment then
      bindVariable q.var t
      let result ← next
      -- while undecided the binding stays until the next candidate replaces it
      if q.isDecided result then
        unbindVariable q.var
        return result
      else tryCandidates f q next ts
    else tryCandidates f q next ts

/-- Evaluates the sentence, and binds the variables of the remaining quantifiers as long as it
is undecided. -/
def search (f : Formula) (facts : Facts) (candidates : List Term) :
    List Quantifier → Search Truth
  | [] => current
  | q :: qs => do
    match ← current with
    | .undecided => tryCandidates f q (search f facts candidates qs) candidates
    | t => return t
where
  /-- The truth value of the sentence at this point. -/
  current : Search Truth := do
    modify fun s => { s with last := s.assignment }
    match f.sentence.evaluate facts (← get).assignment with
    | .ok t => return t
    | .error e => throw e

/-- An evaluation: whether the formula holds, and the last assignment that was tried. -/
structure Outcome where
  result : Except FormulaError Bool
  last : Assignment
  deriving Inhabited

/-- A formula holds if its value is true; an undecided one does not hold. -/
def Formula.evaluate (f : Formula) (facts : Facts) (candidates : List Term) : Outcome :=
  match search f facts candidates f.quantifiers ⟨[], []⟩ with
  | .ok t s => ⟨.ok (t = .yes), s.last⟩
  | .error e s => ⟨.error e, s.last⟩

end ShapeTyping
