import Mathlib
import ShapeTyping.Proofs.Validation.Repetition

/-!
# Counting the edges of a constraint

A shape whose expression is one constraint holds where the constraint's cardinality allows the
number of its edges, those with its predicate and direction, whose other end conforms to the value.
What is left has to be extra: the other edges of the constraint, and the other edges that go out of
a closed shape.

* `TripleConstraint.edgesAround`, `TripleConstraint.conforming`: the edges of a constraint, and
  those that are counted.
* `filter_accepts_listed`, `forall_listed_iff`: the edges that are looked at.
* `TripleConstraint.isSome_resultAround`: whether counting succeeds.
* `satisfiesShape_single`: the answer of a shape with one constraint.
-/

namespace ShapeTyping

namespace TripleConstraint

/-- The edges around a node with the predicate and the direction of a constraint. -/
def edgesAround (tc : TripleConstraint) (g : Graph) (node : Term) : List Edge :=
  if tc.inverse then g.inEdgesVia node [tc.predicate] else g.outEdgesVia node [tc.predicate]

/-- Whether the other end of an edge is in a typing for the value of a constraint, if it has one. -/
def conformsAt (tc : TripleConstraint) (t : Typing) (e : Edge) : Bool :=
  tc.valueLabel?.all fun l => t.contains ⟨e.other, l⟩

/-- The edges of a constraint that conform to its value. -/
def conforming (tc : TripleConstraint) (g : Graph) (t : Typing) (node : Term) : List Edge :=
  (tc.edgesAround g node).filter (tc.conformsAt t)

end TripleConstraint

variable {tc : TripleConstraint} {g : Graph} {t : Typing} {node : Term} {e : Edge} {closed : Bool}

/-! ### The edges that are looked at -/

theorem Graph.of_mem_inEdgesVia {ps : List Iri} (he : e ∈ g.inEdgesVia node ps) :
    e.direction = .inverse ∧ e.predicate ∈ ps := by
  obtain ⟨u, hu, rfl⟩ := List.mem_map.1 he
  exact ⟨rfl, (of_decide_eq_true (List.mem_filter.1 hu).2).2⟩

theorem Graph.direction_of_mem_outEdges (he : e ∈ g.outEdges node) : e.direction = .forward := by
  obtain ⟨u, -, rfl⟩ := List.mem_map.1 he
  rfl

theorem TripleConstraint.matchesEdge_iff : tc.matchesEdge e = true ↔
    e.predicate = tc.predicate ∧ e.direction = tc.direction := by
  simp [matchesEdge]

theorem TripleConstraint.accepts_eq :
    tc.accepts t e = (tc.matchesEdge e && tc.conformsAt t e) := rfl

/-- An outgoing edge fits a constraint if that looks forward and has its predicate. -/
theorem TripleConstraint.matchesEdge_of_mem_outEdges (he : e ∈ g.outEdges node) :
    tc.matchesEdge e = true ↔ e.predicate = tc.predicate ∧ tc.inverse = false := by
  rw [matchesEdge_iff, Graph.direction_of_mem_outEdges he, direction]
  cases tc.inverse <;> simp

/-- An incoming edge fits a constraint if that looks backward and has its predicate. -/
theorem TripleConstraint.matchesEdge_of_mem_inEdgesVia {ps : List Iri}
    (he : e ∈ g.inEdgesVia node ps) :
    tc.matchesEdge e = true ↔ e.predicate = tc.predicate ∧ tc.inverse = true := by
  rw [matchesEdge_iff, (Graph.of_mem_inEdgesVia he).1, direction]
  cases tc.inverse <;> simp

/-- The edges that a shape of one constraint looks at. -/
theorem listed_single : g.listed [tc] closed node =
    (if tc.inverse then g.inEdgesVia node [tc.predicate] else []) ++
      if closed then g.outEdges node
      else if tc.inverse then [] else g.outEdgesVia node [tc.predicate] := by
  cases hinverse : tc.inverse <;> simp [Graph.listed, Graph.inEdgesVia, Graph.outEdgesVia, hinverse]

/-- **The edges that fit**, among those that are looked at, are those of the constraint. -/
theorem filter_matchesEdge_listed :
    (g.listed [tc] closed node).filter tc.matchesEdge = tc.edgesAround g node := by
  rw [listed_single, List.filter_append, TripleConstraint.edgesAround]
  cases hinverse : tc.inverse with
  | true =>
    have hin : (g.inEdgesVia node [tc.predicate]).filter tc.matchesEdge =
        g.inEdgesVia node [tc.predicate] := by
      refine List.filter_eq_self.2 fun e he => ?_
      rw [TripleConstraint.matchesEdge_of_mem_inEdgesVia he]
      exact ⟨List.mem_singleton.1 (Graph.of_mem_inEdgesVia he).2, hinverse⟩
    have hout : (g.outEdges node).filter tc.matchesEdge = [] := by
      refine List.filter_eq_nil_iff.2 fun e he => ?_
      rw [TripleConstraint.matchesEdge_of_mem_outEdges he]
      simp [hinverse]
    cases closed <;> simp [hin, hout]
  | false =>
    have hout : (g.outEdges node).filter tc.matchesEdge = g.outEdgesVia node [tc.predicate] := by
      refine List.filter_congr fun e he => ?_
      rw [Bool.eq_iff_iff, TripleConstraint.matchesEdge_of_mem_outEdges he]
      simp [hinverse]
    have hvia : (g.outEdgesVia node [tc.predicate]).filter tc.matchesEdge =
        g.outEdgesVia node [tc.predicate] := by
      rw [← hout, List.filter_filter]
      simp only [Bool.and_self]
    cases closed <;> simp [hvia, hout]

/-- **The other edges** that are looked at are those that go out of a closed shape. -/
theorem mem_listed_of_unmatched (hunmatched : tc.matchesEdge e = false) :
    e ∈ g.listed [tc] closed node ↔ closed = true ∧ e ∈ g.outEdges node := by
  have hfit : ∀ es, es = tc.edgesAround g node → e ∉ es := by
    rintro _ rfl he
    rw [← @filter_matchesEdge_listed tc g node closed, List.mem_filter, hunmatched] at he
    cases he.2
  rw [listed_single]
  rw [TripleConstraint.edgesAround] at hfit
  cases hinverse : tc.inverse <;> cases closed <;> simp_all

/-- **The edges that are counted** are those that conform to the value. -/
theorem filter_accepts_listed :
    (g.listed [tc] closed node).filter (tc.accepts t) = tc.conforming g t node := by
  rw [TripleConstraint.conforming, ← @filter_matchesEdge_listed tc g node closed,
    List.filter_filter]
  exact List.filter_congr fun e _ => by rw [TripleConstraint.accepts_eq, Bool.and_comm]

/-- **What has to be extra**: the edges of the constraint that do not conform, and the other edges
that go out of a closed shape. -/
theorem forall_listed_iff {extra : List Iri} :
    (∀ e ∈ g.listed [tc] closed node, tc.accepts t e = true ∨ e.predicate ∈ extra) ↔
      (∀ e ∈ tc.edgesAround g node, tc.conformsAt t e = false → tc.predicate ∈ extra) ∧
      (closed = true → ∀ e ∈ g.outEdges node, tc.matchesEdge e = false → e.predicate ∈ extra) := by
  have haround : ∀ e, e ∈ tc.edgesAround g node ↔
      e ∈ g.listed [tc] closed node ∧ tc.matchesEdge e = true := by
    intro e
    rw [← @filter_matchesEdge_listed tc g node closed, List.mem_filter]
  constructor
  · intro h
    refine ⟨fun e he hvalue => ?_, fun hclosed e he hmatches => ?_⟩
    · obtain ⟨hlisted, hmatches⟩ := (haround e).1 he
      rw [← (TripleConstraint.matchesEdge_iff.1 hmatches).1]
      exact (h e hlisted).resolve_left (by simp [TripleConstraint.accepts_eq, hvalue])
    · refine (h e ((mem_listed_of_unmatched hmatches).2 ⟨hclosed, he⟩)).resolve_left ?_
      simp [TripleConstraint.accepts_eq, hmatches]
  · rintro ⟨hvalues, hothers⟩ e he
    cases hmatches : tc.matchesEdge e with
    | true =>
      cases hvalue : tc.conformsAt t e with
      | true => exact .inl (by rw [TripleConstraint.accepts_eq, hmatches, hvalue]; rfl)
      | false =>
        rw [(TripleConstraint.matchesEdge_iff.1 hmatches).1]
        exact .inr (hvalues e ((haround e).2 ⟨he, hmatches⟩) hvalue)
    | false =>
      obtain ⟨hclosed, hout⟩ := (mem_listed_of_unmatched hmatches).1 he
      exact .inr (hothers hclosed e hout hmatches)

/-! ### The answer -/

section Result

variable {card : Cardinality} {extra : List Iri}

/-- **The result of counting** in terms of the edges that conform. -/
theorem TripleConstraint.resultAround_eq : tc.resultAround card g t closed extra node =
    if card.allows (tc.conforming g t node).length = true ∧
        ∀ e ∈ g.listed [tc] closed node, tc.accepts t e = true ∨ e.predicate ∈ extra
      then some ((tc.conforming g t node).filterMap fun e => tc.label.map fun l => ⟨e.triple, l⟩)
    else none := by
  simp [resultAround, filter_accepts_listed, and_comm]

/-- **Whether counting succeeds**: the edges that conform are as many as the cardinality says, and
all others are extra. -/
theorem TripleConstraint.isSome_resultAround :
    (tc.resultAround card g t closed extra node).isSome = true ↔
      (card.min ≤ (tc.conforming g t node).length ∧
        ∀ m ∈ card.max, (tc.conforming g t node).length ≤ m) ∧
      (∀ e ∈ tc.edgesAround g node, tc.conformsAt t e = false → tc.predicate ∈ extra) ∧
      (closed = true → ∀ e ∈ g.outEdges node, tc.matchesEdge e = false → e.predicate ∈ extra) := by
  rw [resultAround_eq, ← forall_listed_iff, ← Cardinality.allows_iff]
  split
  · rename_i hholds
    exact iff_of_true rfl hholds
  · rename_i hfails
    exact iff_of_false Bool.false_ne_true hfails

/-- The triples that are matched are those of the edges that conform. -/
theorem TripleConstraint.eq_of_resultAround {ms : List MatchedTriple}
    (hms : tc.resultAround card g t closed extra node = some ms) :
    ms = (tc.conforming g t node).filterMap fun e => tc.label.map fun l => ⟨e.triple, l⟩ := by
  rw [resultAround_eq] at hms
  split at hms
  · exact (Option.some.inj hms).symm
  · cases hms

end Result

/-- **A shape of one constraint counts.** Where the values at the edges of the constraint have
verdicts and the number of bags is not limited, such a shape has an answer and leaves the typing as
it is. It holds if the number of edges that conform is between the bounds of the cardinality, the
predicate of the constraint is extra if there are other edges of the constraint, and, for a closed
shape, the predicates of all other outgoing edges are extra. The triples of the edges that conform
are matched if the constraint is labelled. -/
theorem satisfiesShape_single {d : Definitions} {s : Schema} (h : d.build = .ok s) (g : Graph)
    {limits : Limits} (hlimits : limits.maxBags = none) (recur : Decider) (node : Term) {st : State}
    (hst : st.Ready s) {x : Shape} (hx : x ∈ s.allShapes) {tc : TripleConstraint}
    (hxe : x.expr = .constraint tc) (hcard : tc.card.Valid)
    (hdecided : ∀ e ∈ tc.edgesAround g node, ∀ l, tc.valueLabel? = some l →
      st.typing.verdict? ⟨e.other, l⟩ ≠ none) :
    let conforming := tc.conforming g st.typing node
    ∃ result, x.Gives ⟨s, g, limits⟩ recur node st result ∧
      (result.isSome = true ↔
        (tc.card.min ≤ conforming.length ∧ ∀ m ∈ tc.card.max, conforming.length ≤ m) ∧
        (∀ e ∈ tc.edgesAround g node, tc.conformsAt st.typing e = false →
          tc.predicate ∈ x.extra) ∧
        (x.closed = true → ∀ e ∈ g.outEdges node, tc.matchesEdge e = false →
          e.predicate ∈ x.extra)) ∧
      ∀ ms, result = some ms →
        ms = conforming.filterMap fun e => tc.label.map fun l => ⟨e.triple, l⟩ := by
  intro conforming
  -- the edges that are looked at and fit are those of the constraint
  have hlisted : ∀ e ∈ g.listed [tc] x.closed node, tc.matchesEdge e = true →
      ∀ l, tc.valueLabel? = some l → st.typing.verdict? ⟨e.other, l⟩ ≠ none := by
    intro e he hmatches
    refine hdecided e ?_
    rw [← @filter_matchesEdge_listed tc g node x.closed, List.mem_filter]
    exact ⟨he, hmatches⟩
  have hc : s.compile x.expr = .ok x.expr.compile := by
    rw [hxe]
    rfl
  have hcounts : x.expr.compile.Counts tc [tc.card] := by
    have hconstraint := Compiled.Counts.of_constraint tc hcard
    rwa [TripleConstraint.with_card_self rfl, ← hxe] at hconstraint
  have hgives := Shape.gives_of_counts recur (Definitions.builds_of_build h) hx hst hc hcounts
    (by simpa using hcard) (by simp) hlimits hlisted
  rw [Cardinality.total, Cardinality.total, Cardinality.add_exactly_zero] at hgives
  exact ⟨_, hgives, TripleConstraint.isSome_resultAround,
    fun _ => TripleConstraint.eq_of_resultAround⟩

/-- A value without outgoing edges. -/
def leafConstraint : TripleConstraint :=
  ⟨⟨"urn:p"⟩, some (.ref (.iri ⟨"urn:T"⟩)), .one, false, some (.iri ⟨"urn:l"⟩)⟩

/-- A closed shape with exactly one such value, and possibly others. -/
def oneLeaf : Definitions where
  shapes := [
    (.iri ⟨"urn:S"⟩, .shape ⟨true, [⟨"urn:p"⟩], .constraint leafConstraint, 0⟩),
    (.iri ⟨"urn:T"⟩, .shape ⟨true, [], .empty, 1⟩)]
  tripleExprs := []
  start := none

/-- The schema that is built from them. -/
def oneLeafSchema : Schema where
  shapes := oneLeaf.shapes
  tripleExprs := []
  start := none
  shapeCount := 2
  strata := [[.iri ⟨"urn:T"⟩], [.iri ⟨"urn:S"⟩]]

/-- A value that has an outgoing edge, and one that has none. -/
def leafAndOther : Graph := ⟨[
  ⟨.iri ⟨"urn:n"⟩, ⟨"urn:p"⟩, .iri ⟨"urn:a"⟩⟩, ⟨.iri ⟨"urn:n"⟩, ⟨"urn:p"⟩, .iri ⟨"urn:b"⟩⟩,
  ⟨.iri ⟨"urn:a"⟩, ⟨"urn:q"⟩, .iri ⟨"urn:b"⟩⟩]⟩

/-- The state after both values have been asked for. -/
def leafAndOtherDecided : State :=
  ((Validator.new oneLeafSchema leafAndOther .standard).performAll
    [.validate ⟨.iri ⟨"urn:a"⟩, .iri ⟨"urn:T"⟩⟩,
      .validate ⟨.iri ⟨"urn:b"⟩, .iri ⟨"urn:T"⟩⟩]).2.state

/-- One of two values is counted, and the other one is left out. -/
theorem satisfiesShape_single_oneLeaf :
    oneLeaf.build = .ok oneLeafSchema ∧
      ∃ x ∈ oneLeafSchema.allShapes, x.expr = .constraint leafConstraint ∧
        x.Gives ⟨oneLeafSchema, leafAndOther, .standard⟩ (fun _ st => (false, st))
          (.iri ⟨"urn:n"⟩) leafAndOtherDecided
          (some [⟨⟨.iri ⟨"urn:n"⟩, ⟨"urn:p"⟩, .iri ⟨"urn:b"⟩⟩, .iri ⟨"urn:l"⟩⟩]) := by
  have hbuild : oneLeaf.build = .ok oneLeafSchema := by cbv
  have hb := Definitions.builds_of_build hbuild
  have hready : leafAndOtherDecided.Ready oneLeafSchema := ready_performAll hb _ _ _
  have haround : leafConstraint.edgesAround leafAndOther (.iri ⟨"urn:n"⟩) =
      [⟨.iri ⟨"urn:n"⟩, ⟨"urn:p"⟩, .forward, .iri ⟨"urn:a"⟩⟩,
        ⟨.iri ⟨"urn:n"⟩, ⟨"urn:p"⟩, .forward, .iri ⟨"urn:b"⟩⟩] := by cbv
  have hout : leafAndOther.outEdges (.iri ⟨"urn:n"⟩) =
      leafConstraint.edgesAround leafAndOther (.iri ⟨"urn:n"⟩) := by cbv
  have hconforming : leafConstraint.conforming leafAndOther leafAndOtherDecided.typing
      (.iri ⟨"urn:n"⟩) = [⟨.iri ⟨"urn:n"⟩, ⟨"urn:p"⟩, .forward, .iri ⟨"urn:b"⟩⟩] := by cbv
  have hverdicts : [⟨"urn:a"⟩, ⟨"urn:b"⟩].map (fun i : Iri =>
      leafAndOtherDecided.typing.verdict? ⟨.iri i, .iri ⟨"urn:T"⟩⟩) =
        [some .fails, some .conforms] := by cbv
  obtain ⟨hfirst, hrest⟩ := List.cons.inj hverdicts
  obtain ⟨hsecond, -⟩ := List.cons.inj hrest
  have hdecided : ∀ e ∈ leafConstraint.edgesAround leafAndOther (.iri ⟨"urn:n"⟩),
      ∀ l, leafConstraint.valueLabel? = some l →
        leafAndOtherDecided.typing.verdict? ⟨e.other, l⟩ ≠ none := by
    intro e he l hl
    obtain rfl : Label.iri ⟨"urn:T"⟩ = l := Option.some.inj hl
    rw [haround] at he
    simp only [List.mem_cons, List.not_mem_nil, or_false] at he
    rcases he with rfl | rfl
    · exact Option.ne_none_iff_exists'.2 ⟨_, hfirst⟩
    · exact Option.ne_none_iff_exists'.2 ⟨_, hsecond⟩
  have hlimits : Limits.standard.maxBags = none := rfl
  have hcard : leafConstraint.card.Valid := by decide
  have hx : (⟨true, [⟨"urn:p"⟩], .constraint leafConstraint, 0⟩ : Shape) ∈
      oneLeafSchema.allShapes := List.mem_cons_self
  obtain ⟨result, hgives, hholds, htriples⟩ := satisfiesShape_single hbuild leafAndOther hlimits
    (fun _ st => (false, st)) (.iri ⟨"urn:n"⟩) hready hx rfl hcard hdecided
  rw [hconforming] at hholds htriples
  have hsome : result.isSome = true := by
    refine hholds.2 ⟨⟨le_rfl, by decide⟩, fun e _ _ => List.mem_singleton_self _, ?_⟩
    intro _ e he hunmatched
    rw [hout, haround] at he
    simp only [List.mem_cons, List.not_mem_nil, or_false] at he
    rcases he with rfl | rfl <;> cases hunmatched
  obtain ⟨ms, rfl⟩ := Option.isSome_iff_exists.1 hsome
  rw [htriples ms rfl] at hgives
  exact ⟨hbuild, _, hx, rfl, hgives⟩

end ShapeTyping
