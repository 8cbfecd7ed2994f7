import Mathlib
import ShapeTyping.Proofs.Validation.Cache
import ShapeTyping.Proofs.Validation.Matching

/-!
# Readings that agree

A greatest typing depends on how the shapes of the schema are read, and on nothing else of a
reading. A validation computes the one in which compiled expressions accept bags; where
cardinalities are not reversed and counts of edges are words, this is the one of the language.

* `ShapeExpr.holdsIn_congr`: expressions under readings that agree on their shapes.
* `Schema.StratifiedGreatest.congr`: the greatest typing under readings that agree.
* `Grounds`, `Setting`: the greatest typing that a validation is compared with.
* `Setting.grounds`: how the two are related.
-/

namespace ShapeTyping

variable {read read' : ShapeReading} {T : Set Association}

mutual
/-- Expressions hold alike under readings that agree on their shapes. -/
theorem ShapeExpr.holdsIn_congr {node : Term} : (e : ShapeExpr) →
    (∀ x ∈ e.shapes, read T node x ↔ read' T node x) →
    (e.HoldsIn read T node ↔ e.HoldsIn read' T node)
  | .and es, h => by
    rw [ShapeExpr.HoldsIn, ShapeExpr.HoldsIn]
    exact ShapeExpr.allHoldIn_congr es h
  | .or es, h => by
    rw [ShapeExpr.HoldsIn, ShapeExpr.HoldsIn]
    exact ShapeExpr.anyHoldsIn_congr es h
  | .not e, h => by
    rw [ShapeExpr.HoldsIn, ShapeExpr.HoldsIn]
    exact not_congr (ShapeExpr.holdsIn_congr e h)
  | .node _, _ => .rfl
  | .shape x, h => by
    rw [ShapeExpr.HoldsIn, ShapeExpr.HoldsIn]
    exact h x (by simp [ShapeExpr.shapes])
  | .external, _ => .rfl
  | .ref _, _ => .rfl

theorem ShapeExpr.allHoldIn_congr {node : Term} : (es : List ShapeExpr) →
    (∀ x ∈ ShapeExpr.shapesOfList es, read T node x ↔ read' T node x) →
    (ShapeExpr.AllHoldIn read T node es ↔ ShapeExpr.AllHoldIn read' T node es)
  | [], _ => .rfl
  | e :: es, h => by
    rw [ShapeExpr.AllHoldIn, ShapeExpr.AllHoldIn]
    exact and_congr (ShapeExpr.holdsIn_congr e fun x hx => h x (List.mem_append_left _ hx))
      (ShapeExpr.allHoldIn_congr es fun x hx => h x (List.mem_append_right _ hx))

theorem ShapeExpr.anyHoldsIn_congr {node : Term} : (es : List ShapeExpr) →
    (∀ x ∈ ShapeExpr.shapesOfList es, read T node x ↔ read' T node x) →
    (ShapeExpr.AnyHoldsIn read T node es ↔ ShapeExpr.AnyHoldsIn read' T node es)
  | [], _ => .rfl
  | e :: es, h => by
    rw [ShapeExpr.AnyHoldsIn, ShapeExpr.AnyHoldsIn]
    exact or_congr (ShapeExpr.holdsIn_congr e fun x hx => h x (List.mem_append_left _ hx))
      (ShapeExpr.anyHoldsIn_congr es fun x hx => h x (List.mem_append_right _ hx))
end

/-- **Readings that agree** on the shapes of a schema have one greatest typing. -/
theorem Schema.StratifiedGreatest.congr {s : Schema}
    (hagree : ∀ x ∈ s.allShapes, ∀ T node, read T node x ↔ read' T node x)
    (h : s.StratifiedGreatest read T) : s.StratifiedGreatest read' T := by
  have hholds : ∀ U a, s.HoldsIn read U a ↔ s.HoldsIn read' U a := by
    intro U a
    refine exists_congr fun e => and_congr_right fun he => ?_
    have hmem : (a.label, e) ∈ s.shapes := mem_of_lookup_eq_some he
    exact ShapeExpr.holdsIn_congr e fun x hx =>
      hagree x (Schema.mem_allShapes hmem hx) U a.node
  have hsupported : ∀ i, s.Supported read T i = s.Supported read' T i := by
    intro i
    simp only [Schema.Supported, hholds]
  exact ⟨h.stratum, fun i => hsupported i ▸ h.greatest i⟩

/-- A validation whose answers are compared with the greatest typing in which compiled expressions
accept bags. -/
structure Grounds (d : Definitions) (ctx : Context) (T : Set Association) : Prop where
  builds : d.Builds ctx.schema
  greatest : ctx.schema.StratifiedGreatest (Shape.AcceptedIn ctx.schema ctx.graph) T

/-- A validation whose answers are compared with the greatest typing. The counts of edges are
words. -/
structure Setting (d : Definitions) (ctx : Context) (T : Set Association) : Prop where
  builds : d.Builds ctx.schema
  greatest : ctx.schema.StratifiedGreatest (Shape.HoldsIn ctx.schema ctx.graph) T
  cards : ∀ x ∈ ctx.schema.allShapes, ctx.schema.CardsValid x.expr
  degree : ∀ node, ctx.graph.degree node ≤ maxWord

theorem Setting.grounds {d : Definitions} {ctx : Context} (h : Setting d ctx T) :
    Grounds d ctx T := by
  refine ⟨h.builds, h.greatest.congr fun x hx U node => ?_⟩
  exact (acceptedIn_iff_holdsIn (h.cards x hx) (h.degree node)).symm

end ShapeTyping
