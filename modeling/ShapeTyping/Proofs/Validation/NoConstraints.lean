import Mathlib
import ShapeTyping.Proofs.Bag.EmptyBag
import ShapeTyping.Proofs.Validation.Repetition

/-!
# Shapes without constraints

A shape whose compiled expression has no constraint is decided at once: an open one holds, and a
closed one holds where no edge goes out. The steps for other shapes would leave out the edges of a
closed shape that have extra predicates, and would ask the expression whether it can do without
edges.

* `searchNeighbourhood_of_nil`: what the steps for shapes with constraints give without them.
* `satisfiesShape_noConstraints`: where the two answers are the same.
* `satisfiesShape_noConstraints_differ`: where they are not.
-/

namespace ShapeTyping

/-! ### The steps for shapes with constraints -/

section Steps

variable {ctx : Context} {recur : Decider} {node : Term} {x : Shape} {c : Compiled} {st : State}

theorem decideEdges_nil (es : List Edge) :
    decideEdges recur x [] es st = (es.all fun e => x.isExtra e.predicate, st) :=
  @decideEdges_of_decided recur st x [] es (by simp)

theorem assignableEdges_nil {t : Typing} {es : List Edge}
    (h : (es.all fun e => x.isExtra e.predicate) = true) : assignableEdges t x [] es = some [] := by
  induction es with
  | nil => rfl
  | cons e es ih =>
    rw [List.all_cons, Bool.and_eq_true] at h
    rw [assignableEdges]
    simp [constraintIndices, h.1, ih h.2]

/-- Without constraints only the outgoing edges of a closed shape are looked at. -/
theorem neighbourhood_of_nil {s : Schema} {e : TripleExpr} (hc : s.compile e = .ok c)
    (hnil : c.constraints = []) (g : Graph) (closed : Bool) (node : Term) :
    neighbourhood g c closed node = if closed then g.outEdges node else [] := by
  rw [neighbourhood_eq hc, hnil, Graph.listed]
  cases closed <;> simp [Graph.inEdgesVia, Graph.outEdgesVia]

/-- **Without edges there is one bag**, the empty one. It is looked at unless the cap is zero. -/
theorem searchBags_nil {max : Option ℕ} {root : BagExpr} {size : ℕ} :
    searchBags max root (.ofCandidates [] size) =
      if max = some 0 then .tooMany 0
      else if root.accepts ⟨[], size⟩ then .found ⟨[], size⟩ else .notFound := by
  rw [searchBags_eq, choices]
  by_cases hcap : max = some 0
  · rw [if_pos hcap, hcap, searchLeft_of_cap Nat.zero_lt_one]
  · have hroom : ∀ m ∈ max, 0 + 1 ≤ m := by
      intro m hm
      refine Nat.pos_of_ne_zero ?_
      rintro rfl
      exact hcap hm
    have hnone : searchLeft max root size 1 [] = .notFound :=
      searchLeft_eq_notFound.2 ⟨by simp, by simp⟩
    rw [if_neg hcap, searchLeft_cons hroom, hnone]

/-- **The steps for a shape without constraints**: each outgoing edge of a closed shape has to be
extra, and the empty bag has to be accepted. -/
theorem searchNeighbourhood_of_nil (hc : ctx.schema.compile x.expr = .ok c)
    (hnil : c.constraints = []) : searchNeighbourhood ctx recur node x c st =
      if x.closed && (ctx.graph.outEdges node).any (!x.isExtra ·.predicate) then .ok none st
      else if ctx.limits.maxBags = some 0 then .error (.bagLimit node 0) st
      else .ok (if c.root.accepts ⟨[], 0⟩ then some [] else none) st := by
  have hedges := neighbourhood_of_nil hc hnil ctx.graph x.closed node
  have hall : ((neighbourhood ctx.graph c x.closed node).all fun e => x.isExtra e.predicate) =
      !(x.closed && (ctx.graph.outEdges node).any (!x.isExtra ·.predicate)) := by
    rw [hedges]
    cases x.closed <;> simp [List.all_eq_not_any_not]
  rw [searchNeighbourhood]
  simp only [hnil, decideEdges_nil]
  cases hextra : (neighbourhood ctx.graph c x.closed node).all fun e => x.isExtra e.predicate with
  | false =>
    -- an edge that is not extra fits nothing
    rw [hextra, eq_comm, Bool.not_eq_false'] at hall
    rw [if_pos hall]
  | true =>
    -- no edge is assigned, and the empty bag is left
    rw [hextra, eq_comm, Bool.not_eq_true'] at hall
    simp only [assignableEdges_nil hextra, hall, Bool.false_eq_true, if_false, List.map_nil,
      List.length_nil, searchBags_nil]
    by_cases hcap : ctx.limits.maxBags = some 0
    · rw [if_pos hcap, if_pos hcap]
    · rw [if_neg hcap, if_neg hcap]
      cases c.root.accepts ⟨[], 0⟩ <;> rfl

end Steps

/-- **The compiled expression accepts the empty bag** if the expression, with its references
expanded, can do without edges. -/
theorem Schema.accepts_nil_of_compile {s : Schema} {e : TripleExpr} {c : Compiled}
    (hc : s.compile e = .ok c) (size : ℕ) :
    ∃ x, s.expand e = .ok x ∧ c.root.accepts ⟨[], size⟩ = x.skippable := by
  obtain ⟨x, hx, rfl⟩ := Except.map_eq_ok hc
  exact ⟨x, hx, (BagExpr.accepts_nil _ size).trans (x.nullable_unfold 0)⟩

/-! ### The two answers -/

/-- **Shapes without constraints are decided at once.** Such a shape holds if it is open or no edge
goes out of the node, whatever its extra predicates, and the typing stays as it is. The steps for
other shapes would ask that each outgoing edge of a closed shape is extra and that the compiled
expression accepts the empty bag, which is so if the expression can do without edges. With a cap of
zero bags they would not get that far. Both give the same answer where an edge that is not extra
goes out of a closed shape. Elsewhere they do if there is no such cap and the empty bag is accepted
exactly if the shape is open or no edge goes out. -/
theorem satisfiesShape_noConstraints {d : Definitions} {s : Schema} (h : d.build = .ok s)
    (g : Graph) (limits : Limits) (recur : Decider) (node : Term) {st : State} (hst : st.Ready s)
    {x : Shape} (hx : x ∈ s.allShapes) {c : Compiled} (hc : s.compile x.expr = .ok c)
    (hnil : c.constraints = []) :
    x.Gives ⟨s, g, limits⟩ recur node st (x.withoutConstraints g node) ∧
    searchNeighbourhood ⟨s, g, limits⟩ recur node x c st =
      (if x.closed && (g.outEdges node).any (!x.isExtra ·.predicate) then .ok none st
      else if limits.maxBags = some 0 then .error (.bagLimit node 0) st
      else .ok (if c.root.accepts ⟨[], 0⟩ then some [] else none) st) ∧
    (∃ e, s.expand x.expr = .ok e ∧ c.root.accepts ⟨[], 0⟩ = e.skippable) ∧
    (searchNeighbourhood ⟨s, g, limits⟩ recur node x c st =
        .ok (x.withoutConstraints g node) st ↔
      (x.closed = true ∧ ∃ e ∈ g.outEdges node, x.isExtra e.predicate = false) ∨
        limits.maxBags ≠ some 0 ∧
          (c.root.accepts ⟨[], 0⟩ = true ↔ x.closed = false ∨ g.outEdges node = [])) := by
  have hsearch := @searchNeighbourhood_of_nil ⟨s, g, limits⟩ recur node x c st hc hnil
  refine ⟨Shape.gives_of_nil recur (Definitions.builds_of_build h) hx hst hc hnil, hsearch,
    Schema.accepts_nil_of_compile hc 0, ?_⟩
  rw [hsearch]
  have hdirect : x.withoutConstraints g node =
      if x.closed = false ∨ g.outEdges node = [] then some [] else none := by
    simp [Shape.withoutConstraints]
  have hrefused : (x.closed && (g.outEdges node).any (!x.isExtra ·.predicate)) = true ↔
      x.closed = true ∧ ∃ e ∈ g.outEdges node, x.isExtra e.predicate = false := by
    simp
  rw [hdirect]
  by_cases hextra : x.closed = true ∧ ∃ e ∈ g.outEdges node, x.isExtra e.predicate = false
  · -- some edge is in the way of both answers
    obtain ⟨hclosed, e, he, -⟩ := id hextra
    have hedge : g.outEdges node ≠ [] := List.ne_nil_of_mem he
    rw [if_pos (hrefused.2 hextra), if_neg (by simp [hclosed, hedge])]
    exact iff_of_true rfl (.inl hextra)
  · rw [if_neg (mt hrefused.1 hextra)]
    by_cases hcap : limits.maxBags = some 0
    · rw [if_pos hcap]
      exact iff_of_false (by simp) (by simp [hextra, hcap])
    · rw [if_neg hcap]
      simp only [hextra, false_or, ne_eq, hcap, not_false_eq_true, true_and]
      by_cases hacc : c.root.accepts ⟨[], 0⟩ = true <;>
        by_cases hholds : x.closed = false ∨ g.outEdges node = [] <;> simp [hacc, hholds]

/-- A closed shape without constraints, whose groups have to choose among nothing unless they are
skipped. -/
def avoidedChoice : Shape :=
  ⟨true, [], .eachOf [.oneOf [.oneOf [] .one, .empty] ⟨2, some 5⟩, .oneOf [] ⟨0, some 3⟩] .one, 2⟩

/-- Shapes without constraints: an empty one with an extra predicate, one that has to choose among
nothing, and one that can avoid this. -/
def nothingAsked : Definitions where
  shapes := [
    (.iri ⟨"urn:S"⟩, .shape ⟨true, [⟨"urn:p"⟩], .empty, 0⟩),
    (.iri ⟨"urn:T"⟩, .shape ⟨false, [], .oneOf [] .one, 1⟩),
    (.iri ⟨"urn:U"⟩, .shape avoidedChoice)]
  tripleExprs := []
  start := none

/-- The schema that is built from them. -/
def nothingAskedSchema : Schema where
  shapes := nothingAsked.shapes
  tripleExprs := []
  start := none
  shapeCount := 3
  strata := [[.iri ⟨"urn:S"⟩], [.iri ⟨"urn:T"⟩], [.iri ⟨"urn:U"⟩]]

/-- Where no edge goes out, a closed shape holds either way, as its groups can be skipped. -/
theorem satisfiesShape_noConstraints_avoidedChoice :
    nothingAsked.build = .ok nothingAskedSchema ∧
      ∃ c, nothingAskedSchema.compile avoidedChoice.expr = .ok c ∧ c.constraints = [] ∧
        avoidedChoice.Gives ⟨nothingAskedSchema, oneEdge, .standard⟩ (fun _ st => (false, st))
          (.iri ⟨"urn:m"⟩) (.start nothingAskedSchema) (some []) ∧
        searchNeighbourhood ⟨nothingAskedSchema, oneEdge, .standard⟩ (fun _ st => (false, st))
          (.iri ⟨"urn:m"⟩) avoidedChoice c (.start nothingAskedSchema) =
            .ok (some []) (.start nothingAskedSchema) := by
  have hbuild : nothingAsked.build = .ok nothingAskedSchema := by cbv
  have hready := ready_start (Definitions.builds_of_build hbuild)
  have hx : avoidedChoice ∈ nothingAskedSchema.allShapes :=
    List.mem_cons_of_mem _ (List.mem_cons_of_mem _ List.mem_cons_self)
  have hc : nothingAskedSchema.compile avoidedChoice.expr = .ok avoidedChoice.expr.compile := rfl
  have hnil : avoidedChoice.expr.compile.constraints = [] := rfl
  obtain ⟨hgives, -, -, hsame⟩ := satisfiesShape_noConstraints hbuild oneEdge .standard
    (fun _ st => (false, st)) (.iri ⟨"urn:m"⟩) hready hx hc hnil
  have hacc : avoidedChoice.expr.compile.root.accepts ⟨[], 0⟩ = true := by decide
  have hedges : oneEdge.outEdges (.iri ⟨"urn:m"⟩) = [] := by decide
  have hanswer : avoidedChoice.withoutConstraints oneEdge (.iri ⟨"urn:m"⟩) = some [] := by
    simp [Shape.withoutConstraints, hedges]
  rw [hanswer] at hgives hsame
  exact ⟨hbuild, _, hc, hnil, hgives,
    hsame.2 (.inr ⟨by decide, iff_of_true hacc (.inr hedges)⟩)⟩

/-- **The two answers can differ either way**: the edge of a closed shape could be left out, as its
predicate is extra, and an open shape that has to choose among nothing holds. -/
theorem satisfiesShape_noConstraints_differ :
    ∃ s x y c e, nothingAsked.build = .ok s ∧ x ∈ s.allShapes ∧ y ∈ s.allShapes ∧
      (State.start s).Ready s ∧
      s.compile x.expr = .ok c ∧ c.constraints = [] ∧ s.compile y.expr = .ok e ∧
      e.constraints = [] ∧
      x.Gives ⟨s, oneEdge, .standard⟩ (fun _ st => (false, st)) (.iri ⟨"urn:n"⟩) (.start s) none ∧
      searchNeighbourhood ⟨s, oneEdge, .standard⟩ (fun _ st => (false, st)) (.iri ⟨"urn:n"⟩) x c
        (.start s) = .ok (some []) (.start s) ∧
      y.Gives ⟨s, oneEdge, .standard⟩ (fun _ st => (false, st)) (.iri ⟨"urn:n"⟩) (.start s)
        (some []) ∧
      searchNeighbourhood ⟨s, oneEdge, .standard⟩ (fun _ st => (false, st)) (.iri ⟨"urn:n"⟩) y e
        (.start s) = .ok none (.start s) := by
  have hbuild : nothingAsked.build = .ok nothingAskedSchema := by cbv
  have hb := Definitions.builds_of_build hbuild
  have hready := ready_start hb
  have hx : (⟨true, [⟨"urn:p"⟩], .empty, 0⟩ : Shape) ∈ nothingAskedSchema.allShapes :=
    List.mem_cons_self
  have hy : (⟨false, [], .oneOf [] .one, 1⟩ : Shape) ∈ nothingAskedSchema.allShapes :=
    List.mem_cons_of_mem _ List.mem_cons_self
  refine ⟨nothingAskedSchema, _, _, _, _, hbuild, hx, hy, hready, rfl, rfl, rfl, rfl,
    ?_, ?_, ?_, ?_⟩
  · exact Shape.gives_of_nil _ hb hx hready rfl rfl
  · exact searchNeighbourhood_of_nil rfl rfl
  · exact Shape.gives_of_nil _ hb hy hready rfl rfl
  · exact searchNeighbourhood_of_nil rfl rfl

end ShapeTyping
