import Mathlib
import ShapeTyping.Proofs.Validation.Matching
import ShapeTyping.Proofs.Validation.Requests

/-!
# Matched triples in a set of associations

When every reference is read from a set of associations, a shape has one list of matched triples at
each node: those of the first assignment of fitting constraints to edges that its compiled
expression accepts. Nothing but the set and the order of the edges goes into it.

* `assignedTriples`: the triples of an assignment, by the constraints that are assigned.
* `Graph.fitting`, `Compiled.Assigns`, `Shape.matchedIn`: the list of a shape.
* `ShapeExpr.matchedIn`: the list of an expression.
* `matchedBy_eq_assignedTriples`: what is recorded for an assignment of fitting constraints.
* `Shape.matchedIn_of_found`: the search among bags finds the list of the shape.
* `ShapeExpr.mem_matchedIn`: its triples are triples of the graph around the node.
-/

namespace ShapeTyping

/-! ### The list of an expression -/

/-- The triple that a constraint looks at from a node, with a term at the other end. -/
def TripleConstraint.tripleTo (c : TripleConstraint) (node other : Term) : Triple :=
  if c.inverse then ⟨other, c.predicate, node⟩ else ⟨node, c.predicate, other⟩

/-- The matched triples of an assignment of constraints, given by their indices, to the edges around
a node: for each edge in order, if its constraint has a label, the triple that the constraint looks
at with the other end of the edge. -/
def assignedTriples (cs : List TripleConstraint) (node : Term) :
    List Edge → List ℕ → List MatchedTriple
  | e :: es, i :: is =>
    match cs[i]? with
    | none => assignedTriples cs node es is
    | some c =>
      match c.label with
      | none => assignedTriples cs node es is
      | some l => ⟨c.tripleTo node e.other, l⟩ :: assignedTriples cs node es is
  | _, _ => []

section Reference

open Classical

/-- The listed edges that fit a constraint when the types of their other ends are read from a
set. -/
noncomputable def Graph.fitting (g : Graph) (T : Set Association) (cs : List TripleConstraint)
    (closed : Bool) (node : Term) : List Edge :=
  (g.listed cs closed node).filter fun e => ∃ c ∈ cs, c.FitsIn T e

/-- Whether constraints, given by their indices, are assigned to edges that fit them, such that the
compiled expression accepts them. -/
def Compiled.Assigns (c : Compiled) (T : Set Association) (es : List Edge) (is : List ℕ) : Prop :=
  List.Forall₂ (fun i e => ∃ tc, c.constraints[i]? = some tc ∧ tc.FitsIn T e) is es ∧
    c.root.accepts ⟨is, c.constraints.length⟩ = true

/-- **The matched triples of a shape**: those of the first assignment in lexicographic order, in the
order of the edges. -/
noncomputable def Shape.matchedIn (s : Schema) (g : Graph) (T : Set Association) (node : Term)
    (x : Shape) : List MatchedTriple :=
  match s.compile x.expr with
  | .error _ => []
  | .ok c =>
    let es := g.fitting T c.constraints x.closed node
    if h : ∃ is, IsLeast {is | c.Assigns T es is} is then
      assignedTriples c.constraints node es h.choose
    else []

mutual
/-- **The matched triples of an expression**: those of all conjuncts in order, and those of the
first disjunct that holds. A negation, a node constraint or a reference has none. -/
noncomputable def ShapeExpr.matchedIn (s : Schema) (g : Graph) (T : Set Association)
    (node : Term) : ShapeExpr → List MatchedTriple
  | .and es => ShapeExpr.allMatchedIn s g T node es
  | .or es => ShapeExpr.anyMatchedIn s g T node es
  | .not _ => []
  | .node _ => []
  | .shape x => x.matchedIn s g T node
  | .external => []
  | .ref _ => []

noncomputable def ShapeExpr.allMatchedIn (s : Schema) (g : Graph) (T : Set Association)
    (node : Term) : List ShapeExpr → List MatchedTriple
  | [] => []
  | e :: es => e.matchedIn s g T node ++ ShapeExpr.allMatchedIn s g T node es

noncomputable def ShapeExpr.anyMatchedIn (s : Schema) (g : Graph) (T : Set Association)
    (node : Term) : List ShapeExpr → List MatchedTriple
  | [] => []
  | e :: es =>
    if e.HoldsIn (Shape.AcceptedIn s g) T node then e.matchedIn s g T node
    else ShapeExpr.anyMatchedIn s g T node es
end

end Reference

/-! ### Assigned triples -/

section Assigned

variable {g : Graph} {T : Set Association} {node : Term} {cs : List TripleConstraint}
  {es : List Edge} {is : List ℕ}

theorem Graph.mem_listed {cs : List TripleConstraint} {closed : Bool} {e : Edge}
    (he : e ∈ g.listed cs closed node) : e.focus = node ∧ e.triple ∈ g.triples := by
  have hout : ∀ e ∈ g.outEdges node, e.focus = node ∧ e.triple ∈ g.triples := by
    intro e he
    obtain ⟨t, ht, rfl⟩ := List.mem_map.1 he
    obtain ⟨hmem, hsubject⟩ := List.mem_filter.1 ht
    obtain rfl : t.subject = node := by simpa using hsubject
    exact ⟨rfl, hmem⟩
  rcases List.mem_append.1 he with he | he
  · obtain ⟨t, ht, rfl⟩ := List.mem_map.1 he
    obtain ⟨hmem, hobject⟩ := List.mem_filter.1 ht
    obtain rfl : t.object = node := (of_decide_eq_true hobject).1
    exact ⟨rfl, hmem⟩
  · split at he
    · exact hout e he
    · exact hout e (List.mem_filter.1 he).1

/-- An edge that fits a constraint has the triple that the constraint looks at. -/
theorem TripleConstraint.FitsIn.triple_eq {tc : TripleConstraint} {e : Edge} (h : tc.FitsIn T e)
    (hfocus : e.focus = node) : e.triple = tc.tripleTo node e.other := by
  obtain ⟨hpredicate, hdirection⟩ : e.predicate = tc.predicate ∧ e.direction = tc.direction := by
    simpa [TripleConstraint.matchesEdge] using h.1
  rw [TripleConstraint.direction] at hdirection
  rw [tripleTo, ← hpredicate, ← hfocus]
  cases hinverse : tc.inverse <;>
    simp [Edge.triple, Edge.subject, Edge.object, hdirection, hinverse]

/-- **What is recorded for an assignment** of fitting constraints to edges around a node. -/
theorem matchedBy_eq_assignedTriples (hfocus : ∀ e ∈ es, e.focus = node)
    (h : List.Forall₂ (fun i e => ∃ tc, cs[i]? = some tc ∧ tc.FitsIn T e) is es) (size : ℕ) :
    matchedBy cs es ⟨is, size⟩ = assignedTriples cs node es is := by
  induction h with
  | nil => rfl
  | @cons i e is es hassigned _ ih =>
    obtain ⟨tc, htc, hfit⟩ := hassigned
    have htriple := hfit.triple_eq (hfocus e List.mem_cons_self)
    rw [assignedTriples, htc, ← ih fun e he => hfocus e (List.mem_cons_of_mem _ he)]
    -- on both sides the label says whether the edge has a matched triple
    simp only [matchedBy, List.zip_cons_cons, List.filterMap_cons, htc, Option.bind_some, htriple]
    cases tc.label <;> rfl

/-- Each triple of an assignment is the one that a labelled constraint looks at. -/
theorem exists_of_mem_assignedTriples {m : MatchedTriple}
    (hm : m ∈ assignedTriples cs node es is) :
    ∃ e i, (e, i) ∈ es.zip is ∧ ∃ tc, cs[i]? = some tc ∧ tc.label = some m.label ∧
      m.triple = tc.tripleTo node e.other := by
  fun_induction assignedTriples cs node es is with
  | case1 e es i is hnone ih =>
    obtain ⟨e, i, hmem, hrest⟩ := ih hm
    exact ⟨e, i, List.mem_cons_of_mem _ hmem, hrest⟩
  | case2 e es i is tc htc hl ih =>
    obtain ⟨e, i, hmem, hrest⟩ := ih hm
    exact ⟨e, i, List.mem_cons_of_mem _ hmem, hrest⟩
  | case3 e es i is tc htc l hl ih =>
    rcases List.mem_cons.1 hm with rfl | hm
    · exact ⟨e, i, List.mem_cons_self, tc, htc, hl, rfl⟩
    · obtain ⟨e, i, hmem, hrest⟩ := ih hm
      exact ⟨e, i, List.mem_cons_of_mem _ hmem, hrest⟩
  | case4 => cases hm

end Assigned

/-! ### The list of a shape -/

section Search

variable {s : Schema} {g : Graph} {t : Typing} {T : Set Association} {node : Term} {x : Shape}
  {c : Compiled}

/-- The list of a shape that has a first assignment. -/
theorem Shape.matchedIn_of_isLeast (hc : s.compile x.expr = .ok c) {is : List ℕ}
    (h : IsLeast {is | c.Assigns T (g.fitting T c.constraints x.closed node) is} is) :
    x.matchedIn s g T node =
      assignedTriples c.constraints node (g.fitting T c.constraints x.closed node) is := by
  have hex : ∃ is, IsLeast {is | c.Assigns T (g.fitting T c.constraints x.closed node) is} is :=
    ⟨is, h⟩
  rw [matchedIn, hc]
  simp only
  rw [dif_pos hex, hex.choose_spec.unique h]

/-- A shape without constraints has no list. -/
theorem Shape.matchedIn_of_nil (hc : s.compile x.expr = .ok c) (hnil : c.constraints = []) :
    x.matchedIn s g T node = [] := by
  have hempty : g.fitting T c.constraints x.closed node = [] := by
    simp [Graph.fitting, hnil]
  rw [matchedIn, hc]
  simp only [hempty]
  split <;> rfl

/-- **The edges that are assigned** are those with candidates. -/
theorem assignableEdges_eq_some {cs : List TripleConstraint} {es : List Edge}
    {assignable : List (Edge × List ℕ)} (h : assignableEdges t x cs es = some assignable) :
    assignable = (es.filter fun e => !(constraintIndices (·.accepts t e) cs).isEmpty).map
      fun e => (e, constraintIndices (·.accepts t e) cs) := by
  induction es generalizing assignable with
  | nil =>
    cases h
    rfl
  | cons e es ih =>
    rw [assignableEdges] at h
    split at h
    · rename_i hne
      obtain ⟨rest, hrest, rfl⟩ := Option.map_eq_some_iff.1 h
      rw [List.filter_cons, if_pos hne, List.map_cons, ← ih hrest]
    · rename_i hempty
      split at h
      · rw [List.filter_cons, if_neg hempty, ← ih h]
      · cases h

theorem constraintIndices_pairwise_lt (p : TripleConstraint → Bool) (cs : List TripleConstraint) :
    (constraintIndices p cs).Pairwise (· < ·) :=
  List.pairwise_lt_range.filter _

variable (hc : s.compile x.expr = .ok c)
  (hT : ∀ e ∈ g.listed c.constraints x.closed node, ∀ tc ∈ c.constraints,
    tc.accepts t e = true ↔ tc.FitsIn T e)
include hT

open Classical in
/-- The edges that have candidates are those that fit a constraint. -/
theorem filter_candidates : (g.listed c.constraints x.closed node).filter
    (fun e => !(constraintIndices (·.accepts t e) c.constraints).isEmpty) =
      g.fitting T c.constraints x.closed node := by
  refine List.filter_congr fun e he => ?_
  rw [Bool.eq_iff_iff, decide_eq_true_iff, Bool.not_eq_true', List.isEmpty_eq_false_iff, Ne,
    constraintIndices_eq_nil]
  push Not
  refine exists_congr fun tc => and_congr_right fun htc => ?_
  rw [← hT e he tc htc]
  simp

/-- The choices of candidates are the ways to assign constraints to edges that fit them. -/
theorem mem_choices_fitting {is : List ℕ} :
    is ∈ choices ((g.fitting T c.constraints x.closed node).map
      fun e => constraintIndices (·.accepts t e) c.constraints) ↔
    List.Forall₂ (fun i e => ∃ tc, c.constraints[i]? = some tc ∧ tc.FitsIn T e) is
      (g.fitting T c.constraints x.closed node) := by
  refine mem_choices_map fun e he i => ?_
  rw [mem_constraintIndices]
  refine exists_congr fun tc => and_congr_right fun htc => ?_
  exact hT e (List.mem_filter.1 he).1 tc (List.mem_of_getElem? htc)

include hc

/-- **The bag that is found** gives the list of the shape. -/
theorem Shape.matchedIn_of_found {assignable : List (Edge × List ℕ)}
    (ha : assignableEdges t x c.constraints (g.listed c.constraints x.closed node) =
      some assignable) {max : Option ℕ} {b : Bag}
    (hb : searchBags max c.root (.ofCandidates (assignable.map (·.2)) c.constraints.length) =
      .found b) :
    matchedBy c.constraints (assignable.map (·.1)) b = x.matchedIn s g T node := by
  have hassignable := assignableEdges_eq_some ha
  rw [filter_candidates hT] at hassignable
  have hedges : assignable.map (·.1) = g.fitting T c.constraints x.closed node := by
    rw [hassignable, List.map_map]
    exact List.map_id' _
  have hcandidates : assignable.map (·.2) = (g.fitting T c.constraints x.closed node).map
      fun e => constraintIndices (·.accepts t e) c.constraints := by
    rw [hassignable, List.map_map]
    rfl
  rw [hcandidates] at hb
  -- candidates are listed in increasing order, so what is found first is least
  obtain ⟨hleast, hsize⟩ := searchBags_found_least (by
    simp only [List.mem_map, forall_exists_index, and_imp, forall_apply_eq_imp_iff₂]
    exact fun e _ => constraintIndices_pairwise_lt _ _) hb
  simp only [mem_choices_fitting hT] at hleast
  rw [Shape.matchedIn_of_isLeast hc hleast, hedges]
  exact matchedBy_eq_assignedTriples
    (fun e he => (Graph.mem_listed (List.mem_filter.1 he).1).1) hleast.1.1 _

end Search

/-! ### The triples of a list -/

/-- Whether a matched triple is one of the graph that a labelled constraint looks at from a node: it
has the predicate of the constraint, and the node stands at the end that the direction of the
constraint says. -/
structure MatchedTriple.Around (g : Graph) (node : Term) (tc : TripleConstraint)
    (m : MatchedTriple) : Prop where
  label : tc.label = some m.label
  mem : m.triple ∈ g.triples
  predicate : m.triple.predicate = tc.predicate
  focus : (if tc.inverse then m.triple.object else m.triple.subject) = node

section Around

variable {s : Schema} {g : Graph} {T : Set Association} {node : Term} {m : MatchedTriple}

/-- The triple that a constraint looks at from a node, if it is the one of an edge that fits the
constraint. -/
theorem TripleConstraint.FitsIn.around {tc : TripleConstraint} {e : Edge} (h : tc.FitsIn T e)
    (hfocus : e.focus = node) (hmem : e.triple ∈ g.triples) (hl : tc.label = some m.label)
    (htriple : m.triple = tc.tripleTo node e.other) : MatchedTriple.Around g node tc m := by
  refine ⟨hl, ?_, ?_, ?_⟩
  · rw [htriple, ← h.triple_eq hfocus]
    exact hmem
  · rw [htriple, tripleTo]
    split <;> rfl
  · rw [htriple, tripleTo]
    split <;> rfl

theorem Shape.mem_matchedIn {x : Shape} (hm : m ∈ x.matchedIn s g T node) :
    ∃ c, s.compile x.expr = .ok c ∧ ∃ tc ∈ c.constraints, m.Around g node tc := by
  rw [matchedIn] at hm
  cases hc : s.compile x.expr with
  | error err =>
    rw [hc] at hm
    cases hm
  | ok c =>
    simp only [hc] at hm
    split at hm
    · rename_i hex
      obtain ⟨e, i, hei, tc, htc, hl, htriple⟩ := exists_of_mem_assignedTriples hm
      obtain ⟨tc', htc', hfit⟩ := List.forall₂_zip hex.choose_spec.1.1.flip hei
      obtain rfl : tc = tc' := Option.some.inj (htc.symm.trans htc')
      have he : e ∈ g.listed c.constraints x.closed node :=
        (List.mem_filter.1 (List.of_mem_zip hei).1).1
      obtain ⟨hfocus, hmem⟩ := Graph.mem_listed he
      exact ⟨c, rfl, tc, List.mem_of_getElem? htc, hfit.around hfocus hmem hl htriple⟩
    · cases hm

mutual
/-- **Matched triples are triples of the graph** around the node, each for a labelled constraint of
a shape of the expression. -/
theorem ShapeExpr.mem_matchedIn : (e : ShapeExpr) → m ∈ e.matchedIn s g T node →
    ∃ x ∈ e.shapes, ∃ c, s.compile x.expr = .ok c ∧ ∃ tc ∈ c.constraints, m.Around g node tc
  | .and es, hm => by
    rw [ShapeExpr.matchedIn] at hm
    exact ShapeExpr.mem_allMatchedIn es hm
  | .or es, hm => by
    rw [ShapeExpr.matchedIn] at hm
    exact ShapeExpr.mem_anyMatchedIn es hm
  | .not _, hm => by
    rw [ShapeExpr.matchedIn] at hm
    cases hm
  | .node _, hm => by
    rw [ShapeExpr.matchedIn] at hm
    cases hm
  | .shape x, hm => by
    rw [ShapeExpr.matchedIn] at hm
    exact ⟨x, by simp [ShapeExpr.shapes], Shape.mem_matchedIn hm⟩
  | .external, hm => by
    rw [ShapeExpr.matchedIn] at hm
    cases hm
  | .ref _, hm => by
    rw [ShapeExpr.matchedIn] at hm
    cases hm

theorem ShapeExpr.mem_allMatchedIn : (es : List ShapeExpr) →
    m ∈ ShapeExpr.allMatchedIn s g T node es → ∃ x ∈ ShapeExpr.shapesOfList es,
      ∃ c, s.compile x.expr = .ok c ∧ ∃ tc ∈ c.constraints, m.Around g node tc
  | [], hm => by
    rw [ShapeExpr.allMatchedIn] at hm
    cases hm
  | e :: es, hm => by
    rw [ShapeExpr.allMatchedIn] at hm
    rcases List.mem_append.1 hm with hm | hm
    · obtain ⟨x, hx, hrest⟩ := ShapeExpr.mem_matchedIn e hm
      exact ⟨x, List.mem_append_left _ hx, hrest⟩
    · obtain ⟨x, hx, hrest⟩ := ShapeExpr.mem_allMatchedIn es hm
      exact ⟨x, List.mem_append_right _ hx, hrest⟩

theorem ShapeExpr.mem_anyMatchedIn : (es : List ShapeExpr) →
    m ∈ ShapeExpr.anyMatchedIn s g T node es → ∃ x ∈ ShapeExpr.shapesOfList es,
      ∃ c, s.compile x.expr = .ok c ∧ ∃ tc ∈ c.constraints, m.Around g node tc
  | [], hm => by
    rw [ShapeExpr.anyMatchedIn] at hm
    cases hm
  | e :: es, hm => by
    rw [ShapeExpr.anyMatchedIn] at hm
    split at hm
    · obtain ⟨x, hx, hrest⟩ := ShapeExpr.mem_matchedIn e hm
      exact ⟨x, List.mem_append_left _ hx, hrest⟩
    · obtain ⟨x, hx, hrest⟩ := ShapeExpr.mem_anyMatchedIn es hm
      exact ⟨x, List.mem_append_right _ hx, hrest⟩
end

end Around

end ShapeTyping
