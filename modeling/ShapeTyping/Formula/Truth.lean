/-!
# Three-valued truth

Kleene's strong connectives on the truth values of sentences with unbound variables.
-/

namespace ShapeTyping

inductive Truth where
  | yes
  | no
  | undecided
  deriving DecidableEq, Inhabited, Repr

namespace Truth

def and : Truth → Truth → Truth
  | no, _ => no
  | _, no => no
  | yes, yes => yes
  | _, _ => undecided

def or : Truth → Truth → Truth
  | yes, _ => yes
  | _, yes => yes
  | no, no => no
  | _, _ => undecided

def not : Truth → Truth
  | yes => no
  | no => yes
  | undecided => undecided

def ofBool (b : Bool) : Truth := if b then yes else no

@[simp]
theorem not_not (t : Truth) : t.not.not = t := by cases t <;> rfl

theorem not_and (s t : Truth) : (s.and t).not = s.not.or t.not := by cases s <;> cases t <;> rfl

end Truth

end ShapeTyping
