import Mathlib
import ShapeTyping.Proofs.Bag.Repetition
import ShapeTyping.Proofs.Validation.Integrity
import ShapeTyping.Proofs.Validation.MatchedIn

/-!
# Shapes that repeat one constraint

A shape whose expression is one constraint with a cardinality counts the edges that fit it. If the
values have verdicts, a group of the constraint with this cardinality gives the same result,
although it is unfolded to copies that the edges are shared out to. The exception is a group that
may not occur at all: it has no copies, so nothing is counted.

* `searchNeighbourhood`, `satisfiesShape_eq_search`: the steps after a shape is compiled.
* `decideEdges_of_decided`, `assignableEdges_eq_none`, `searchBags_of_none`: the steps of the search
  where values have verdicts and the number of bags is not limited.
* `TripleConstraint.resultAround`: the edges that fit are counted.
* `Shape.gives_of_counts`: the result of a shape whose compiled expression counts edges.
* `Shape.gives_of_nil`, `Shape.gives_of_wraps_zero`: the result where no constraint is left.
* `satisfiesShape_repeated`: a constraint with a cardinality and a group with this cardinality.
* `satisfiesShape_repeated_noValues`: they differ if no occurrence is allowed.
-/

namespace ShapeTyping

/-! ### The steps of an evaluation -/

/-- The steps for a shape with constraints, whether it has some or not: the values at the edges are
decided, the edges are given their candidates, and a bag is searched for. -/
def searchNeighbourhood (ctx : Context) (recur : Decider) (node : Term) (x : Shape) (c : Compiled) :
    Eval (Option (List MatchedTriple)) := fun st =>
  let edges := neighbourhood ctx.graph c x.closed node
  match decideEdges recur x c.constraints edges st with
  | (false, st) => .ok none st
  | (true, st) =>
    match assignableEdges st.typing x c.constraints edges with
    | none => .ok none st
    | some assignable =>
      match searchBags ctx.limits.maxBags c.root
        (.ofCandidates (assignable.map (·.2)) c.constraints.length) with
      | .found b => .ok (some (matchedBy c.constraints (assignable.map (·.1)) b)) st
      | .notFound => .ok none st
      | .tooMany max => .error (.bagLimit node max) st

/-- The answer for a shape without constraints, given that it has none. -/
def Shape.withoutConstraints (g : Graph) (node : Term) (x : Shape) : Option (List MatchedTriple) :=
  if !x.closed || (g.outEdges node).isEmpty then some [] else none

/-- **A shape is decided at once** or by these steps. -/
theorem satisfiesShape_eq_search {ctx : Context} {recur : Decider} {node : Term} {x : Shape}
    {st : State} : satisfiesShape ctx recur node x st =
    match compiledShape ctx x st with
    | .error err st => .error err st
    | .ok c st =>
      if c.constraints.isEmpty then .ok (x.withoutConstraints ctx.graph node) st
      else searchNeighbourhood ctx recur node x c st := satisfiesShape_eq

/-! ### Values with verdicts -/

section Decided

variable {recur : Decider} {st : State} {x : Shape} {cs : List TripleConstraint} {es : List Edge}

/-- No value is decided if all of them have verdicts. -/
theorem decideValues_of_decided {other : Term}
    (h : ∀ c ∈ cs, ∀ l, c.valueLabel? = some l → st.typing.verdict? ⟨other, l⟩ ≠ none) :
    decideValues recur other cs st = st := by
  induction cs with
  | nil => rfl
  | cons c cs ih =>
    obtain ⟨hc, hcs⟩ := List.forall_mem_cons.1 h
    rw [decideValues]
    cases hl : c.valueLabel? with
    | none => exact ih hcs
    | some l =>
      simp only
      rw [if_pos (Option.isSome_iff_ne_none.2 (hc l hl))]
      exact ih hcs

/-- **Edges whose values have verdicts** change nothing: it is only seen whether each of them fits
some constraint or is extra. -/
theorem decideEdges_of_decided (h : ∀ e ∈ es, ∀ c ∈ cs, c.matchesEdge e = true →
      ∀ l, c.valueLabel? = some l → st.typing.verdict? ⟨e.other, l⟩ ≠ none) :
    decideEdges recur x cs es st =
      (es.all fun e => cs.any (·.matchesEdge e) || x.isExtra e.predicate, st) := by
  induction es with
  | nil => rfl
  | cons e es ih =>
    obtain ⟨he, hes⟩ := List.forall_mem_cons.1 h
    have hfitting : (cs.filter (·.matchesEdge e)).isEmpty = !cs.any (·.matchesEdge e) := by
      rw [Bool.eq_iff_iff, List.isEmpty_iff, List.filter_eq_nil_iff]
      simp
    rw [decideEdges, List.all_cons]
    simp only [hfitting]
    cases hany : cs.any (·.matchesEdge e) with
    | true =>
      have hvalues : decideValues recur e.other (cs.filter (·.matchesEdge e)) st = st :=
        decideValues_of_decided fun c hc =>
          he c (List.mem_filter.1 hc).1 (List.mem_filter.1 hc).2
      simp [hvalues, ih hes]
    | false =>
      cases hextra : x.isExtra e.predicate with
      | true => simp [ih hes]
      | false => simp

/-- **Nothing can be assigned** if some edge has no candidates and is not extra. -/
theorem assignableEdges_eq_none {t : Typing} : assignableEdges t x cs es = none ↔
    ∃ e ∈ es, (∀ c ∈ cs, c.accepts t e = false) ∧ x.isExtra e.predicate = false := by
  induction es with
  | nil => simp [assignableEdges]
  | cons e es ih =>
    rw [assignableEdges, List.exists_mem_cons_iff, ← ih, ← constraintIndices_eq_nil]
    cases hcandidates : constraintIndices (·.accepts t e) cs with
    | nil => cases hextra : x.isExtra e.predicate <;> simp
    | cons i is => simp

end Decided

/-- **A search without a cap** goes on until a bag is found or none is left. -/
theorem searchBags_of_none (root : BagExpr) (cs : List (List ℕ)) (size : ℕ) :
    searchBags none root (.ofCandidates cs size) = .notFound ∨
      ∃ b, searchBags none root (.ofCandidates cs size) = .found b := by
  cases hs : searchBags none root (.ofCandidates cs size) with
  | found b => exact .inr ⟨b, rfl⟩
  | notFound => exact .inl rfl
  | tooMany m =>
    rw [searchBags_eq, searchLeft_eq_tooMany] at hs
    cases hs.2.1

/-! ### The result of counting -/

/-- What counting the edges that fit a constraint gives: each edge that is looked at has to fit or
to be extra, and the number of those that fit has to be allowed. Their triples are matched if the
constraint is labelled. -/
def TripleConstraint.resultAround (tc : TripleConstraint) (card : Cardinality) (g : Graph)
    (t : Typing) (closed : Bool) (extra : List Iri) (node : Term) : Option (List MatchedTriple) :=
  let edges := g.listed [tc] closed node
  let counted := edges.filter (tc.accepts t)
  if (edges.all fun e => tc.accepts t e || e.predicate ∈ extra) && card.allows counted.length then
    some (counted.filterMap fun e => tc.label.map fun l => ⟨e.triple, l⟩)
  else none

/-- Whether the evaluation of a shape has a result and leaves the typing as it is. -/
def Shape.Gives (ctx : Context) (recur : Decider) (node : Term) (st : State) (x : Shape)
    (result : Option (List MatchedTriple)) : Prop :=
  ∃ st', satisfiesShape ctx recur node x st = .ok result st' ∧ st'.typing = st.typing

/-! ### Constraints that differ in their cardinality only -/

section Alike

variable {tc : TripleConstraint} {cs : List TripleConstraint}
  (halike : ∀ c ∈ cs, ∃ D, c = { tc with card := D }) (hne : cs ≠ [])
include halike

/-- What an edge is asked by each constraint is what it is asked by one. -/
theorem accepts_alike {t : Typing} {e : Edge} {c : TripleConstraint} (hc : c ∈ cs) :
    c.accepts t e = tc.accepts t e := by
  obtain ⟨D, rfl⟩ := halike c hc
  rfl

theorem mem_constraintIndices_alike {t : Typing} {e : Edge} (he : tc.accepts t e = true) {i : ℕ} :
    i ∈ constraintIndices (·.accepts t e) cs ↔ i < cs.length := by
  rw [mem_constraintIndices]
  constructor
  · rintro ⟨c, hc, -⟩
    exact (List.getElem?_eq_some_iff.1 hc).1
  · intro hi
    have hc := List.getElem?_eq_getElem hi
    exact ⟨_, hc, (accepts_alike halike (List.mem_of_getElem? hc)).trans he⟩

/-- The triples of assigned edges, whichever constraints they are assigned to. -/
theorem matchedBy_alike {es : List Edge} {is : List ℕ} {size : ℕ}
    (h : List.Forall₂ (fun i (_ : Edge) => i < cs.length) is es) :
    matchedBy cs es ⟨is, size⟩ = es.filterMap fun e => tc.label.map fun l => ⟨e.triple, l⟩ := by
  induction h with
  | nil => rfl
  | @cons i e is es hi _ ih =>
    have hc := List.getElem?_eq_getElem hi
    obtain ⟨D, hD⟩ := halike _ (List.mem_of_getElem? hc)
    have hlabel : (cs[i]?.bind (·.label)) = tc.label := by
      rw [hc, Option.bind_some, hD]
    simp only [matchedBy] at ih ⊢
    rw [List.zip_cons_cons, List.filterMap_cons, List.filterMap_cons, ih, hlabel]

include hne

theorem forall_accepts_alike {t : Typing} {e : Edge} :
    (∀ c ∈ cs, c.accepts t e = false) ↔ tc.accepts t e = false := by
  obtain ⟨c, hc⟩ := List.exists_mem_of_ne_nil cs hne
  constructor
  · intro h
    rw [← accepts_alike halike hc]
    exact h c hc
  · intro h c' hc'
    rw [accepts_alike halike hc']
    exact h

theorem any_matchesEdge_alike {e : Edge} : cs.any (·.matchesEdge e) = tc.matchesEdge e := by
  obtain ⟨c, hc⟩ := List.exists_mem_of_ne_nil cs hne
  rw [Bool.eq_iff_iff, List.any_eq_true]
  constructor
  · rintro ⟨c', hc', hmatches⟩
    obtain ⟨D, rfl⟩ := halike c' hc'
    exact hmatches
  · intro hmatches
    obtain ⟨D, rfl⟩ := halike c hc
    exact ⟨_, hc, hmatches⟩

/-- If each edge is accepted or extra, none ends the search for values. -/
theorem all_matchesEdge_alike {t : Typing} {x : Shape} {es : List Edge}
    (hall : (es.all fun e => tc.accepts t e || x.isExtra e.predicate) = true) :
    (es.all fun e => cs.any (·.matchesEdge e) || x.isExtra e.predicate) = true := by
  rw [List.all_eq_true] at hall ⊢
  intro e he
  rw [any_matchesEdge_alike halike hne]
  have hfit := hall e he
  rw [Bool.or_eq_true, TripleConstraint.accepts, Bool.and_eq_true] at hfit
  exact Bool.or_eq_true_iff.2 (hfit.imp_left And.left)

/-- The edges that are looked at are those of one constraint. -/
theorem listed_alike (g : Graph) (closed : Bool) (node : Term) :
    g.listed cs closed node = g.listed [tc] closed node := by
  obtain ⟨c, hc⟩ := List.exists_mem_of_ne_nil cs hne
  obtain ⟨D, rfl⟩ := halike c hc
  have hmem : ∀ q : Bool → Bool, ∀ p, p ∈ (cs.filter fun c => q c.inverse).map (·.predicate) ↔
      p ∈ ([tc].filter fun c => q c.inverse).map (·.predicate) := by
    intro q p
    simp only [List.mem_map, List.mem_filter, List.mem_singleton]
    constructor
    · rintro ⟨c', ⟨hc', hq⟩, rfl⟩
      obtain ⟨D', rfl⟩ := halike c' hc'
      exact ⟨tc, ⟨rfl, hq⟩, rfl⟩
    · rintro ⟨_, ⟨rfl, hq⟩, rfl⟩
      exact ⟨_, ⟨hc, hq⟩, rfl⟩
  have hinverse : ∀ p, p ∈ (cs.filter (·.inverse)).map (·.predicate) ↔
      p ∈ ([tc].filter (·.inverse)).map (·.predicate) := hmem id
  have hforward : ∀ p, p ∈ (cs.filter (!·.inverse)).map (·.predicate) ↔
      p ∈ ([tc].filter (!·.inverse)).map (·.predicate) := hmem not
  rw [Graph.listed, Graph.listed, g.inEdgesVia_congr node hinverse,
    g.outEdgesVia_congr node hforward]

/-- **The edges that are assigned** are those that fit, with all constraints as candidates, if each
other edge is extra. -/
theorem assignableEdges_alike (t : Typing) (x : Shape) (es : List Edge) :
    assignableEdges t x cs es =
      if es.all fun e => tc.accepts t e || x.isExtra e.predicate then
        some ((es.filter (tc.accepts t)).map fun e => (e, constraintIndices (·.accepts t e) cs))
      else none := by
  have hnone : assignableEdges t x cs es = none ↔
      ¬ (es.all fun e => tc.accepts t e || x.isExtra e.predicate) = true := by
    simp only [assignableEdges_eq_none, forall_accepts_alike halike hne]
    simp
  have hfilter : es.filter (fun e => !(constraintIndices (·.accepts t e) cs).isEmpty) =
      es.filter (tc.accepts t) := by
    refine List.filter_congr fun e _ => ?_
    rw [Bool.eq_iff_iff, Bool.not_eq_true', List.isEmpty_eq_false_iff, Ne,
      constraintIndices_eq_nil, forall_accepts_alike halike hne, Bool.not_eq_false]
  cases hassignable : assignableEdges t x cs es with
  | none => rw [if_neg (hnone.1 hassignable)]
  | some assignable =>
    have hall := hnone.not_left.1 (by simp [hassignable])
    rw [if_pos hall, assignableEdges_eq_some hassignable, hfilter]

end Alike

/-! ### Shapes that count edges -/

/-- A list of numbers below a bound, one for each element of a list. -/
theorem forall₂_lt_iff {α : Type} {k : ℕ} {is : List ℕ} {xs : List α} :
    List.Forall₂ (fun i (_ : α) => i < k) is xs ↔ is.length = xs.length ∧ ∀ i ∈ is, i < k := by
  constructor
  · intro h
    refine ⟨h.length_eq, ?_⟩
    induction h with
    | nil => simp
    | cons hi _ ih => exact List.forall_mem_cons.2 ⟨hi, ih⟩
  · rintro ⟨hlength, hmem⟩
    exact List.forall₂_iff_zip.2 ⟨hlength, fun hi => hmem _ (List.of_mem_zip hi).1⟩

/-- A group of one constraint has no references to expand. -/
theorem compile_wraps {s : Schema} {tc : TripleConstraint} {card : Cardinality} {e : TripleExpr}
    (h : e.Wraps tc card) : s.compile e = .ok e.compile := by
  have hexpand : s.expand e = .ok e := by
    cases h <;> rfl
  rw [Schema.compile, hexpand]
  rfl

theorem unfold_wraps_zero {tc : TripleConstraint} {card : Cardinality} {e : TripleExpr}
    (h : e.Wraps tc card) (hzero : card.isZero = true) : e.unfold = .empty := by
  obtain ⟨g, -, hunfold⟩ := h.unfold
  obtain ⟨k, rfl⟩ : ∃ k, card = ⟨k, some 0⟩ := by
    obtain ⟨k, m⟩ := card
    exact ⟨k, by rw [show m = some 0 by simpa [Cardinality.isZero] using hzero]⟩
  rw [hunfold, TripleExpr.unfoldGroup]
  simp [Cardinality.isOne, Cardinality.isRepetition, Cardinality.isZero, Cardinality.one,
    Cardinality.exactly, Cardinality.optional, Cardinality.star, Cardinality.plus]

section Counts

variable {s : Schema} {g : Graph} {limits : Limits} {node : Term} {st : State} {x : Shape}
  {c : Compiled} {tc : TripleConstraint} {card : Cardinality} {cards : List Cardinality}

/-- **The search for a bag** among assignments of copies to edges finds one if the number of edges
is allowed. -/
theorem searchBags_counts (h : c.Counts tc cards) (hv : ∀ D ∈ cards, D.Valid) {t : Typing}
    (counted : List Edge) (hcounted : ∀ e ∈ counted, tc.accepts t e = true) :
    let bags := .ofCandidates (counted.map fun e => constraintIndices (·.accepts t e) c.constraints)
      c.constraints.length
    (searchBags none c.root bags = .notFound ∧
        (Cardinality.total cards).allows counted.length = false) ∨
      ∃ b, searchBags none c.root bags = .found b ∧
        (Cardinality.total cards).allows counted.length = true ∧
        matchedBy c.constraints counted b =
          counted.filterMap fun e => tc.label.map fun l => ⟨e.triple, l⟩ := by
  intro bags
  have hchoices : ∀ is, is ∈ choices
      (counted.map fun e => constraintIndices (·.accepts t e) c.constraints) ↔
      List.Forall₂ (fun i (_ : Edge) => i < c.constraints.length) is counted := fun is =>
    mem_choices_map fun e he i => mem_constraintIndices_alike h.alike (hcounted e he)
  have hallowed := h.exists_accepts_iff hv counted.length
  rcases searchBags_of_none c.root _ _ with hs | ⟨⟨is, size⟩, hs⟩
  · refine .inl ⟨hs, ?_⟩
    by_contra hallows
    obtain ⟨is, hlength, hmem, haccepts⟩ := hallowed.2 (by simpa using hallows)
    have hrejects := searchBags_notFound hs ((hchoices is).2 (forall₂_lt_iff.2 ⟨hlength, hmem⟩))
    rw [haccepts] at hrejects
    cases hrejects
  · obtain ⟨his, rfl, haccepts⟩ := searchBags_found hs
    rw [hchoices] at his
    obtain ⟨hlength, hmem⟩ := forall₂_lt_iff.1 his
    exact .inr ⟨_, hs, hallowed.1 ⟨is, hlength, hmem, haccepts⟩, matchedBy_alike h.alike his⟩

variable {d : Definitions} (recur : Decider) (hbuild : d.Builds s) (hx : x ∈ s.allShapes)
  (hst : st.Ready s)
include hbuild hx hst

/-- **A shape that counts edges** gives the result of counting. -/
theorem Shape.gives_of_counts (hc : s.compile x.expr = .ok c) (h : c.Counts tc cards)
    (hv : ∀ D ∈ cards, D.Valid) (hne : cards ≠ []) (hlimits : limits.maxBags = none)
    (hdecided : ∀ e ∈ g.listed [tc] x.closed node, tc.matchesEdge e = true →
      ∀ l, tc.valueLabel? = some l → st.typing.verdict? ⟨e.other, l⟩ ≠ none) :
    x.Gives ⟨s, g, limits⟩ recur node st
      (tc.resultAround (.total cards) g st.typing x.closed x.extra node) := by
  have hnonempty : c.constraints ≠ [] := fun hnil => by
    have hlength := h.length
    rw [hnil] at hlength
    exact hne (List.length_eq_zero_iff.1 hlength.symm)
  obtain ⟨cache, -, hcompiled⟩ := @compiledShape_ready d ⟨s, g, limits⟩ hbuild x hx st hst
  simp only [hc] at hcompiled
  refine ⟨{ st with compiled := cache }, ?_, rfl⟩
  have hlisted : neighbourhood g c x.closed node = g.listed [tc] x.closed node := by
    rw [neighbourhood_eq hc, listed_alike h.alike hnonempty]
  rw [satisfiesShape_eq_search, hcompiled]
  simp only [List.isEmpty_eq_false_iff.2 hnonempty, Bool.false_eq_true, if_false,
    searchNeighbourhood, hlisted]
  rw [decideEdges_of_decided fun e he c' hc' => by
    obtain ⟨D, rfl⟩ := h.alike c' hc'
    exact hdecided e he]
  have hextra : ∀ e : Edge, (e.predicate ∈ x.extra : Bool) = x.isExtra e.predicate := fun e => rfl
  simp only [TripleConstraint.resultAround, hextra]
  cases hall : (g.listed [tc] x.closed node).all fun e =>
      tc.accepts st.typing e || x.isExtra e.predicate with
  | false =>
    -- either an edge fits nothing, or it has no candidates afterwards
    cases (g.listed [tc] x.closed node).all fun e =>
        c.constraints.any (·.matchesEdge e) || x.isExtra e.predicate with
    | false => rfl
    | true =>
      simp only [assignableEdges_alike h.alike hnonempty, hall]
      rfl
  | true =>
    have hfits := all_matchesEdge_alike h.alike hnonempty hall
    simp only [hfits, assignableEdges_alike h.alike hnonempty, hall, if_true, Bool.true_and,
      hlimits, List.map_map, Function.comp_def, List.map_id']
    rcases searchBags_counts h hv ((g.listed [tc] x.closed node).filter (tc.accepts st.typing))
        (fun e he => (List.mem_filter.1 he).2) with ⟨hs, hallows⟩ | ⟨b, hs, hallows, hmatched⟩
    · simp only [hs, hallows]
      rfl
    · simp only [hs, hallows, hmatched]
      rfl

/-- **A shape without constraints** gives its answer at once: an open one holds, and a closed one
holds where no edge goes out. -/
theorem Shape.gives_of_nil (hc : s.compile x.expr = .ok c) (hnil : c.constraints = []) :
    x.Gives ⟨s, g, limits⟩ recur node st (x.withoutConstraints g node) := by
  obtain ⟨cache, -, hcompiled⟩ := @compiledShape_ready d ⟨s, g, limits⟩ hbuild x hx st hst
  simp only [hc] at hcompiled
  refine ⟨{ st with compiled := cache }, ?_, rfl⟩
  rw [satisfiesShape_eq_search, hcompiled]
  simp only [hnil, List.isEmpty_nil, if_true]

/-- **A group that may not occur** gives the result of the empty expression. -/
theorem Shape.gives_of_wraps_zero (hexpr : x.expr.Wraps tc card) (hzero : card.isZero = true) :
    x.Gives ⟨s, g, limits⟩ recur node st
      (if !x.closed || (g.outEdges node).isEmpty then some [] else none) := by
  have hnil : x.expr.compile.constraints = [] := by
    rw [TripleExpr.compile, unfold_wraps_zero hexpr hzero]
    rfl
  exact Shape.gives_of_nil recur hbuild hx hst (compile_wraps hexpr) hnil

end Counts

/-- **Repetition of a constraint and of a group around it.** A shape of a constraint with a
cardinality and a shape of a group of the constraint with this cardinality, both closed or both open
and with the same extra predicates, give the same verdict and the same matched triples at each node
where the values have verdicts: the edges that fit are counted. If the cardinality allows no
occurrence, the constraint still counts, and the group does not: it gives the result of the empty
expression. The number of edges and copies is not bounded. -/
theorem satisfiesShape_repeated {d : Definitions} {s : Schema} (h : d.build = .ok s) (g : Graph)
    {limits : Limits} (hlimits : limits.maxBags = none) (recur : Decider) (node : Term) {st : State}
    (hst : st.Ready s) {tc : TripleConstraint} (htc : tc.card = .one) {card : Cardinality}
    (hcard : card.Valid) {x y : Shape} (hx : x ∈ s.allShapes) (hy : y ∈ s.allShapes)
    (hxe : x.expr = .constraint { tc with card := card })
    (hye : y.expr = .eachOf [.constraint tc] card ∨ y.expr = .oneOf [.constraint tc] card)
    (hclosed : y.closed = x.closed) (hextra : y.extra = x.extra)
    (hdecided : ∀ e ∈ g.listed [tc] x.closed node, tc.matchesEdge e = true →
      ∀ l, tc.valueLabel? = some l → st.typing.verdict? ⟨e.other, l⟩ ≠ none) :
    x.Gives ⟨s, g, limits⟩ recur node st
        (tc.resultAround card g st.typing x.closed x.extra node) ∧
      y.Gives ⟨s, g, limits⟩ recur node st
        (if card.isZero then if !x.closed || (g.outEdges node).isEmpty then some [] else none
        else tc.resultAround card g st.typing x.closed x.extra node) := by
  have hbuild := Definitions.builds_of_build h
  have hwraps : y.expr.Wraps tc card := by
    rcases hye with hye | hye <;> rw [hye]
    · exact .eachOf
    · exact .oneOf
  constructor
  · have hcounts := Compiled.Counts.of_constraint tc hcard
    have hc : s.compile x.expr = .ok x.expr.compile := by
      rw [hxe]
      rfl
    rw [← hxe] at hcounts
    have hgives := Shape.gives_of_counts recur hbuild hx hst hc hcounts
      (by simpa using hcard) (by simp) hlimits hdecided
    rwa [Cardinality.total, Cardinality.total, Cardinality.add_exactly_zero] at hgives
  · rw [← hclosed] at hdecided
    rw [← hclosed, ← hextra]
    cases hzero : card.isZero with
    | true => exact Shape.gives_of_wraps_zero recur hbuild hy hst hwraps hzero
    | false =>
      obtain ⟨cards, hcounts, htotal, hne, hv⟩ := Compiled.Counts.of_wraps hwraps htc hcard hzero
      have hgives := Shape.gives_of_counts recur hbuild hy hst (compile_wraps hwraps) hcounts hv
        hne hlimits hdecided
      rwa [htotal] at hgives

/-- A value that conforms to the third shape. -/
def valueConstraint : TripleConstraint :=
  ⟨⟨"urn:p"⟩, some (.ref (.iri ⟨"urn:T"⟩)), .one, false, some (.iri ⟨"urn:l"⟩)⟩

/-- Closed shapes of two or three values, with and without a group. -/
def twoOrThreeValues : Definitions where
  shapes := [
    (.iri ⟨"urn:S"⟩, .shape ⟨true, [⟨"urn:q"⟩],
      .constraint { valueConstraint with card := ⟨2, some 3⟩ }, 0⟩),
    (.iri ⟨"urn:G"⟩, .shape ⟨true, [⟨"urn:q"⟩],
      .oneOf [.constraint valueConstraint] ⟨2, some 3⟩, 1⟩),
    (.iri ⟨"urn:T"⟩, .shape ⟨false, [], .empty, 2⟩)]
  tripleExprs := []
  start := none

/-- The schema that is built from them. -/
def twoOrThreeSchema : Schema where
  shapes := twoOrThreeValues.shapes
  tripleExprs := []
  start := none
  shapeCount := 3
  strata := [[.iri ⟨"urn:T"⟩], [.iri ⟨"urn:S"⟩], [.iri ⟨"urn:G"⟩]]

/-- Two values and an extra edge. -/
def twoValues : Graph := ⟨[
  ⟨.iri ⟨"urn:n"⟩, ⟨"urn:p"⟩, .iri ⟨"urn:a"⟩⟩, ⟨.iri ⟨"urn:n"⟩, ⟨"urn:q"⟩, .iri ⟨"urn:n"⟩⟩,
  ⟨.iri ⟨"urn:n"⟩, ⟨"urn:p"⟩, .iri ⟨"urn:b"⟩⟩]⟩

/-- The state after both values have been asked for. -/
def twoValuesDecided : State :=
  ((Validator.new twoOrThreeSchema twoValues .standard).performAll
    [.validate ⟨.iri ⟨"urn:a"⟩, .iri ⟨"urn:T"⟩⟩,
      .validate ⟨.iri ⟨"urn:b"⟩, .iri ⟨"urn:T"⟩⟩]).2.state

/-- Both shapes match both values, which takes two copies of the group. -/
theorem satisfiesShape_repeated_twoOrThree :
    twoOrThreeValues.build = .ok twoOrThreeSchema ∧
      ∃ x y z, twoOrThreeSchema.allShapes = [x, y, z] ∧
        x.expr = .constraint { valueConstraint with card := ⟨2, some 3⟩ } ∧
        y.expr = .oneOf [.constraint valueConstraint] ⟨2, some 3⟩ ∧
        ∀ r ∈ [x, y], r.Gives ⟨twoOrThreeSchema, twoValues, .standard⟩ (fun _ st => (false, st))
          (.iri ⟨"urn:n"⟩) twoValuesDecided (some
            [⟨⟨.iri ⟨"urn:n"⟩, ⟨"urn:p"⟩, .iri ⟨"urn:a"⟩⟩, .iri ⟨"urn:l"⟩⟩,
              ⟨⟨.iri ⟨"urn:n"⟩, ⟨"urn:p"⟩, .iri ⟨"urn:b"⟩⟩, .iri ⟨"urn:l"⟩⟩]) := by
  have hbuild : twoOrThreeValues.build = .ok twoOrThreeSchema := by cbv
  have hb := Definitions.builds_of_build hbuild
  have hready : twoValuesDecided.Ready twoOrThreeSchema := ready_performAll hb _ _ _
  have hverdicts : [⟨"urn:a"⟩, ⟨"urn:b"⟩].map (fun i : Iri =>
      twoValuesDecided.typing.verdict? ⟨.iri i, .iri ⟨"urn:T"⟩⟩) =
        [some .conforms, some .conforms] := by cbv
  obtain ⟨hfirst, hrest⟩ := List.cons.inj hverdicts
  obtain ⟨hsecond, -⟩ := List.cons.inj hrest
  have hlisted : twoValues.listed [valueConstraint] true (.iri ⟨"urn:n"⟩) = [
      ⟨.iri ⟨"urn:n"⟩, ⟨"urn:p"⟩, .forward, .iri ⟨"urn:a"⟩⟩,
      ⟨.iri ⟨"urn:n"⟩, ⟨"urn:q"⟩, .forward, .iri ⟨"urn:n"⟩⟩,
      ⟨.iri ⟨"urn:n"⟩, ⟨"urn:p"⟩, .forward, .iri ⟨"urn:b"⟩⟩] := by cbv
  have hdecided : ∀ e ∈ twoValues.listed [valueConstraint] true (.iri ⟨"urn:n"⟩),
      valueConstraint.matchesEdge e = true → ∀ l, valueConstraint.valueLabel? = some l →
        twoValuesDecided.typing.verdict? ⟨e.other, l⟩ ≠ none := by
    intro e he hmatches l hl
    obtain rfl : Label.iri ⟨"urn:T"⟩ = l := Option.some.inj hl
    rw [hlisted] at he
    simp only [List.mem_cons, List.not_mem_nil, or_false] at he
    rcases he with rfl | rfl | rfl
    · exact Option.ne_none_iff_exists'.2 ⟨_, hfirst⟩
    · exact absurd hmatches (by decide)
    · exact Option.ne_none_iff_exists'.2 ⟨_, hsecond⟩
  have hone : valueConstraint.card = .one := rfl
  have hcard : Cardinality.Valid ⟨2, some 3⟩ := by decide
  have hlimits : Limits.standard.maxBags = none := rfl
  obtain ⟨hx, hy⟩ := satisfiesShape_repeated hbuild twoValues hlimits (fun _ st => (false, st))
    (.iri ⟨"urn:n"⟩) hready hone hcard List.mem_cons_self
    (List.mem_cons_of_mem _ List.mem_cons_self) rfl (.inr rfl) rfl rfl hdecided
  have hresult : valueConstraint.resultAround ⟨2, some 3⟩ twoValues twoValuesDecided.typing true
      [⟨"urn:q"⟩] (.iri ⟨"urn:n"⟩) = some
        [⟨⟨.iri ⟨"urn:n"⟩, ⟨"urn:p"⟩, .iri ⟨"urn:a"⟩⟩, .iri ⟨"urn:l"⟩⟩,
          ⟨⟨.iri ⟨"urn:n"⟩, ⟨"urn:p"⟩, .iri ⟨"urn:b"⟩⟩, .iri ⟨"urn:l"⟩⟩] := by cbv
  refine ⟨hbuild, _, _, _, rfl, rfl, rfl, ?_⟩
  rw [List.forall_mem_cons, List.forall_mem_singleton, ← hresult]
  exact ⟨hx, hy⟩

/-- A value of any kind. -/
def anyValue : TripleConstraint := ⟨⟨"urn:p"⟩, none, .one, false, none⟩

/-- Shapes without values, with and without groups. -/
def noValues : Definitions where
  shapes := [
    (.iri ⟨"urn:S"⟩, .shape ⟨false, [], .constraint { anyValue with card := ⟨0, some 0⟩ }, 0⟩),
    (.iri ⟨"urn:T"⟩, .shape ⟨false, [], .eachOf [.constraint anyValue] ⟨0, some 0⟩, 1⟩),
    (.iri ⟨"urn:U"⟩, .shape ⟨false, [], .oneOf [.constraint anyValue] ⟨0, some 0⟩, 2⟩)]
  tripleExprs := []
  start := none

/-- The constraint fails at a node with a value, and both groups hold there. -/
theorem satisfiesShape_repeated_noValues :
    ∃ s x y z, noValues.build = .ok s ∧ s.allShapes = [x, y, z] ∧
      (State.start s).Ready s ∧ Limits.standard.maxBags = none ∧
      anyValue.card = .one ∧ Cardinality.Valid ⟨0, some 0⟩ ∧ anyValue.valueLabel? = none ∧
      x.expr = .constraint { anyValue with card := ⟨0, some 0⟩ } ∧
      y.expr = .eachOf [.constraint anyValue] ⟨0, some 0⟩ ∧
      z.expr = .oneOf [.constraint anyValue] ⟨0, some 0⟩ ∧
      [y.closed, z.closed] = [x.closed, x.closed] ∧ [y.extra, z.extra] = [x.extra, x.extra] ∧
      x.Gives ⟨s, oneEdge, .standard⟩ (fun _ st => (false, st)) (.iri ⟨"urn:n"⟩) (.start s) none ∧
      y.Gives ⟨s, oneEdge, .standard⟩ (fun _ st => (false, st)) (.iri ⟨"urn:n"⟩) (.start s)
        (some []) ∧
      z.Gives ⟨s, oneEdge, .standard⟩ (fun _ st => (false, st)) (.iri ⟨"urn:n"⟩) (.start s)
        (some []) := by
  have hbuild : noValues.build = .ok
      { shapes := noValues.shapes, tripleExprs := [], start := none, shapeCount := 3
        strata := [[.iri ⟨"urn:S"⟩], [.iri ⟨"urn:T"⟩], [.iri ⟨"urn:U"⟩]] } := by cbv
  have hb := Definitions.builds_of_build hbuild
  have hready := ready_start hb
  have hcard : Cardinality.Valid ⟨0, some 0⟩ := by decide
  have hlimits : Limits.standard.maxBags = none := rfl
  refine ⟨_, _, _, _, hbuild, rfl, hready, hlimits, rfl, hcard, rfl, rfl, rfl, rfl, rfl, rfl,
    ?_, ?_, ?_⟩
  · exact Shape.gives_of_counts _ hb List.mem_cons_self hready rfl (.of_constraint anyValue hcard)
      (by simpa) (by simp) hlimits (by rintro _ _ _ _ ⟨⟩)
  · exact Shape.gives_of_wraps_zero _ hb (List.mem_cons_of_mem _ List.mem_cons_self) hready
      .eachOf rfl
  · exact Shape.gives_of_wraps_zero _ hb
      (List.mem_cons_of_mem _ (List.mem_cons_of_mem _ List.mem_cons_self)) hready .oneOf rfl

end ShapeTyping
