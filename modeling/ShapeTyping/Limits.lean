/-!
# Limits

Caps on the work of a validation. A cap on the depth or on the number of bags may be absent.
-/

namespace ShapeTyping

structure Limits where
  maxDepth : Option Nat
  maxBags : Option Nat
  maxPatternBytes : Nat
  maxValues : Nat
  deriving DecidableEq, Inhabited, Repr

namespace Limits

/-- No caps on the search, and moderate ones on single constraints. -/
def standard : Limits := ⟨none, none, 1000, 10000⟩

/-- No caps on the search, and generous ones on single constraints. -/
def permissive : Limits := ⟨none, none, 10000, 1000000⟩

end Limits

end ShapeTyping
