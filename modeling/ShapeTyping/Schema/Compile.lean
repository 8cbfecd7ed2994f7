import ShapeTyping.Bag.Expr
import ShapeTyping.Schema.Basic

/-!
# Normal forms of triple expressions in a schema

* `Schema.normalize`: references replaced by definitions and cardinalities of groups unfolded.
* `Schema.compile`: the normal form, ready for matching.
-/

namespace ShapeTyping.Schema

def normalize (s : Schema) (e : TripleExpr) : Except SchemaError TripleExpr :=
  (s.expand e).map (·.unfold)

def compile (s : Schema) (e : TripleExpr) : Except SchemaError Compiled :=
  (s.expand e).map (·.compile)

theorem compile_expr {s : Schema} {e : TripleExpr} {c : Compiled} (h : s.compile e = .ok c) :
    s.normalize e = .ok c.expr := by
  unfold compile at h
  unfold normalize
  cases hx : s.expand e with
  | error err => simp [hx, Except.map] at h
  | ok x =>
    rw [hx] at h
    cases h
    rfl

end ShapeTyping.Schema
