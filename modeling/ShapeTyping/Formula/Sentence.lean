import ShapeTyping.Formula.Truth
import ShapeTyping.Label
import ShapeTyping.Table
import ShapeTyping.Value.Basic

/-!
# Sentences and formulas

* `Sentence`: conditions on variables, over facts about shapes and matched triples and
  comparisons of terms.
* `Sentence.evaluate`: the truth value of a sentence under an assignment.
* `Formula`: quantifiers in front of a sentence.
* `Formula.sameType?`: the variables whose values are to be of the same type.
-/

namespace ShapeTyping

structure Variable where
  name : String
  deriving DecidableEq, Hashable, Inhabited, Repr

def Variable.text (v : Variable) : String := "?" ++ v.name

inductive Quantifier where
  | universal (v : Variable)
  | existential (v : Variable)
  deriving DecidableEq, Inhabited, Repr

namespace Quantifier

def var : Quantifier → Variable
  | universal v => v
  | existential v => v

def text : Quantifier → String
  | universal v => "∀" ++ v.text
  | existential v => "∃" ++ v.text

end Quantifier

inductive Operand where
  | var (v : Variable)
  | const (t : Term)
  deriving DecidableEq, Inhabited, Repr

def Operand.text : Operand → String
  | var v => v.text
  | const t => t.ntriples

def Operand.var? : Operand → Option Variable
  | var v => some v
  | const _ => none

inductive Operator where
  | equal
  | notEqual
  | less
  | lessOrEqual
  | greater
  | greaterOrEqual
  deriving DecidableEq, Inhabited, Repr

namespace Operator

/-- Whether the operands have to be of the same type. -/
def isRestricted : Operator → Bool
  | equal => false
  | notEqual => false
  | _ => true

/-- Terms are equal if they are identical or if their values are. -/
def apply (op : Operator) (a b : Term) : Bool :=
  let order := a.compare? b
  match op with
  | equal => a = b || order = some .eq
  | notEqual => a ≠ b && order ≠ some .eq
  | less => order = some .lt
  | lessOrEqual => order = some .lt || order = some .eq
  | greater => order = some .gt
  | greaterOrEqual => order = some .gt || order = some .eq

def text : Operator → String
  | equal => "="
  | notEqual => "!="
  | less => "<"
  | lessOrEqual => "<="
  | greater => ">"
  | greaterOrEqual => ">="

end Operator

inductive Sentence where
  | and (ss : List Sentence)
  | or (ss : List Sentence)
  | not (s : Sentence)
  | shape (v : Variable) (l : Label)
  | triple (subject object : Variable) (l : Label)
  | compare (op : Operator) (left right : Operand)
  | var (v : Variable)
  deriving Inhabited, Repr

/-- What sentences speak about: conforming associations and matched triples. -/
structure Facts where
  shapes : List (Term × Label)
  triples : List (Term × Term × Label)
  deriving Inhabited, Repr

/-- Values of variables. -/
abbrev Assignment := Table Variable Term

/-- A variable is no sentence, though it can be written as one. -/
inductive FormulaError where
  | unboundVariable (v : Variable)
  deriving DecidableEq, Inhabited, Repr

def FormulaError.message : FormulaError → String
  | unboundVariable v => "Trying to evaluate variable: " ++ v.name

def Operand.value? (a : Assignment) : Operand → Option Term
  | var v => a.get? v
  | const t => some t

namespace Sentence

mutual
/-- The truth value of a sentence. It is undecided if it depends on an unbound variable. -/
def evaluate (facts : Facts) (a : Assignment) : Sentence → Except FormulaError Truth
  | and ss => evaluateAll facts a .yes ss
  | or ss => evaluateAny facts a .no ss
  | not s => (s.evaluate facts a).map (·.not)
  | shape v l =>
    match a.get? v with
    | some t => .ok (.ofBool (facts.shapes.contains (t, l)))
    | none => .ok .undecided
  | triple s o l =>
    match a.get? s, a.get? o with
    | some t, some u => .ok (.ofBool (facts.triples.contains (t, u, l)))
    | _, _ => .ok .undecided
  | compare op x y =>
    match x.value? a, y.value? a with
    | some t, some u => .ok (.ofBool (op.apply t u))
    | _, _ => .ok .undecided
  | var v => .error (.unboundVariable v)

/-- The conjunction of a value and sentences; a false one ends the evaluation. -/
def evaluateAll (facts : Facts) (a : Assignment) (acc : Truth) :
    List Sentence → Except FormulaError Truth
  | [] => .ok acc
  | s :: ss =>
    match s.evaluate facts a with
    | .error e => .error e
    | .ok t => if acc.and t = .no then .ok .no else evaluateAll facts a (acc.and t) ss

/-- The disjunction of a value and sentences; a true one ends the evaluation. -/
def evaluateAny (facts : Facts) (a : Assignment) (acc : Truth) :
    List Sentence → Except FormulaError Truth
  | [] => .ok acc
  | s :: ss =>
    match s.evaluate facts a with
    | .error e => .error e
    | .ok t => if acc.or t = .yes then .ok .yes else evaluateAny facts a (acc.or t) ss
end

mutual
/-- The variables of each comparison whose operands have to be of the same type. -/
def restricted : Sentence → List (List Variable)
  | and ss => restrictedOfList ss
  | or ss => restrictedOfList ss
  | not s => s.restricted
  | compare op x y => if op.isRestricted then [[x, y].filterMap (·.var?)] else []
  | shape _ _ => []
  | triple _ _ _ => []
  | var _ => []

def restrictedOfList : List Sentence → List (List Variable)
  | [] => []
  | s :: ss => s.restricted ++ restrictedOfList ss
end

mutual
def text : Sentence → String
  | and ss => "(" ++ " ∧ ".intercalate (texts ss) ++ ")"
  | or ss => "(" ++ " ∨ ".intercalate (texts ss) ++ ")"
  | not s => "¬" ++ s.text
  | shape v l => l.text ++ "(" ++ v.text ++ ")"
  | triple s o l => l.text ++ "(" ++ s.text ++ ", " ++ o.text ++ ")"
  | compare op x y => x.text ++ " " ++ op.text ++ " " ++ y.text
  | var v => v.text

def texts : List Sentence → List String
  | [] => []
  | s :: ss => s.text :: texts ss
end

end Sentence

/-! ### Types of variables -/

/-- Joins a set of variables with all classes that meet it. -/
def joinClasses (classes : List (List Variable)) (vs : List Variable) : List (List Variable) :=
  if vs.isEmpty then classes
  else
    let (meeting, apart) := classes.partition (·.any (· ∈ vs))
    apart ++ [(vs ++ meeting.flatten).eraseDups]

structure Formula where
  quantifiers : List Quantifier
  sentence : Sentence
  deriving Inhabited, Repr

namespace Formula

/-- The classes of variables that are linked by restricted comparisons. -/
def classes (f : Formula) : List (List Variable) := f.sentence.restricted.foldl joinClasses []

/-- The other variables of the class of a variable, if it has one. -/
def sameType? (f : Formula) (v : Variable) : Option (List Variable) :=
  (f.classes.find? (v ∈ ·)).map (·.filter (· ≠ v))

def text (f : Formula) : String :=
  String.join (f.quantifiers.map (·.text ++ " ")) ++ f.sentence.text

end Formula

end ShapeTyping
