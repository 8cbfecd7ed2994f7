import Mathlib
import ShapeTyping.Proofs.Bag.Enumeration
import ShapeTyping.Proofs.Schema.Compiled
import ShapeTyping.Proofs.Validation.Greatest

/-!
# Matching of edges

The search among bags finds an assignment of constraints to edges whenever the compiled expression
accepts one in the set of associations that the candidates were read from.

* `neighbourhood_eq`: the edges that are looked at are those of the constraints.
* `assignable_of_admits`, `admits_of_assignable`: choices of candidates and ways to deal with all
  edges.
* `not_acceptedIn_of_unmatched`, `not_acceptedIn_of_none`, `acceptedIn_of_found`,
  `not_acceptedIn_of_notFound`: what the steps of the search say about the shape.
* `acceptedIn_iff_holdsIn`: where cardinalities are not reversed and counts of edges are words, what
  is accepted is what the language has.
-/

namespace ShapeTyping

/-! ### Edges -/

/-- The number of edges around a node, those to itself counted twice. -/
def Graph.degree (g : Graph) (node : Term) : ℕ :=
  (g.triples.filter (·.object = node)).length + (g.triples.filter (·.subject = node)).length

theorem Graph.inEdgesVia_congr (g : Graph) (node : Term) {ps qs : List Iri}
    (h : ∀ p, p ∈ ps ↔ p ∈ qs) : g.inEdgesVia node ps = g.inEdgesVia node qs := by
  simp only [Graph.inEdgesVia, h]

theorem Graph.outEdgesVia_congr (g : Graph) (node : Term) {ps qs : List Iri}
    (h : ∀ p, p ∈ ps ↔ p ∈ qs) : g.outEdgesVia node ps = g.outEdgesVia node qs := by
  simp only [Graph.outEdgesVia, h]

theorem Graph.length_listed_le (g : Graph) (cs : List TripleConstraint) (closed : Bool)
    (node : Term) : (g.listed cs closed node).length ≤ g.degree node := by
  have hin : (g.inEdgesVia node ((cs.filter (·.inverse)).map (·.predicate))).length ≤
      (g.triples.filter (·.object = node)).length := by
    rw [Graph.inEdgesVia, List.length_map]
    refine (List.monotone_filter_right g.triples fun t ht => ?_).length_le
    simp only [decide_eq_true_eq] at ht ⊢
    exact ht.1
  have hout : (g.outEdges node).length = (g.triples.filter (·.subject = node)).length := by
    rw [Graph.outEdges, List.length_map]
  rw [Graph.listed, List.length_append, Graph.degree]
  split
  · omega
  · have hvia : (g.outEdgesVia node ((cs.filter (!·.inverse)).map (·.predicate))).length ≤
        (g.outEdges node).length := List.length_filter_le _ _
    omega

/-- **The edges that are looked at** are those of the constraints. -/
theorem neighbourhood_eq {s : Schema} {e : TripleExpr} {c : Compiled} (hc : s.compile e = .ok c)
    (g : Graph) (closed : Bool) (node : Term) :
    neighbourhood g c closed node = g.listed c.constraints closed node := by
  obtain ⟨x, -, rfl⟩ := Except.map_eq_ok hc
  have hinverse : ∀ p, p ∈ x.compile.inverse ↔
      p ∈ (x.compile.constraints.filter (·.inverse)).map (·.predicate) := by
    intro p
    change p ∈ predicatesOf x.compile.constraints true ↔ _
    rw [mem_predicatesOf]
    simp [and_assoc]
  have hforward : ∀ p, p ∈ x.compile.forward ↔
      p ∈ (x.compile.constraints.filter (!·.inverse)).map (·.predicate) := by
    intro p
    change p ∈ predicatesOf x.compile.constraints false ↔ _
    rw [mem_predicatesOf]
    simp [and_assoc]
  rw [neighbourhood, Graph.listed, g.inEdgesVia_congr node hinverse,
    g.outEdgesVia_congr node hforward]

/-! ### Candidates -/

theorem mem_constraintIndices {p : TripleConstraint → Bool} {cs : List TripleConstraint} {i : ℕ} :
    i ∈ constraintIndices p cs ↔ ∃ c, cs[i]? = some c ∧ p c = true := by
  simp only [constraintIndices, List.mem_filter, List.mem_range, Option.any_eq_true]
  constructor
  · rintro ⟨-, c, hc, hp⟩
    exact ⟨c, hc, hp⟩
  · rintro ⟨c, hc, hp⟩
    exact ⟨(List.getElem?_eq_some_iff.1 hc).1, c, hc, hp⟩

theorem constraintIndices_eq_nil {p : TripleConstraint → Bool} {cs : List TripleConstraint} :
    constraintIndices p cs = [] ↔ ∀ c ∈ cs, p c = false := by
  rw [List.eq_nil_iff_forall_not_mem]
  constructor
  · intro h c hc
    obtain ⟨i, hi⟩ := List.getElem?_of_mem hc
    by_contra hp
    exact h i (mem_constraintIndices.2 ⟨c, hi, by simpa using hp⟩)
  · intro h i hi
    obtain ⟨c, hc, hp⟩ := mem_constraintIndices.1 hi
    rw [h c (List.mem_of_getElem? hc)] at hp
    cases hp

section Assignment

variable {t : Typing} {T : Set Association} {x : Shape} {cs : List TripleConstraint}
  {es : List Edge}

/-- **A choice of candidates** for the edges that have some is a way to deal with all edges. -/
theorem admits_of_assignable (hT : ∀ e ∈ es, ∀ c ∈ cs, c.accepts t e = true ↔ c.FitsIn T e)
    {assignable : List (Edge × List ℕ)} (h : assignableEdges t x cs es = some assignable)
    {is : List ℕ} (his : List.Forall₂ (fun i candidates => i ∈ candidates) is
      (assignable.map (·.2))) :
    ∃ choice, List.Forall₂ (x.Admits T cs) es choice ∧
      is.map (cs[·]?) = choice.reduceOption.map some := by
  induction es generalizing assignable is with
  | nil =>
    cases h
    cases his
    exact ⟨[], .nil, rfl⟩
  | cons e es ih =>
    have hTe := hT e List.mem_cons_self
    have ih' := fun {assignable} h {is} his =>
      @ih (fun e he => hT e (List.mem_cons_of_mem _ he)) assignable h is his
    rw [assignableEdges] at h
    split at h
    · obtain ⟨assignable, hassign, rfl⟩ := Option.map_eq_some_iff.1 h
      rw [List.map_cons] at his
      obtain ⟨i, is, hi, hrest, rfl⟩ := List.forall₂_cons_right_iff.1 his
      obtain ⟨c, hc, hacc⟩ := mem_constraintIndices.1 hi
      obtain ⟨choice, hchoice, hmap⟩ := ih' hassign hrest
      have hmem := List.mem_of_getElem? hc
      refine ⟨some c :: choice, .cons ⟨hmem, (hTe c hmem).1 hacc⟩ hchoice, ?_⟩
      rw [List.map_cons, hc, hmap]
      rfl
    rename_i hnil
    split at h
    · rename_i hextra
      obtain ⟨choice, hchoice, hmap⟩ := ih' h his
      refine ⟨none :: choice, .cons ⟨hextra, fun c hc hfit => ?_⟩ hchoice, hmap⟩
      have hempty := constraintIndices_eq_nil.1 (by simpa using hnil) c hc
      rw [(hTe c hc).2 hfit] at hempty
      cases hempty
    · cases h

/-- **A way to deal with all edges** is a choice of candidates for the edges that have some. -/
theorem assignable_of_admits (hT : ∀ e ∈ es, ∀ c ∈ cs, c.accepts t e = true ↔ c.FitsIn T e)
    {choice : List (Option TripleConstraint)} (h : List.Forall₂ (x.Admits T cs) es choice) :
    ∃ assignable, assignableEdges t x cs es = some assignable ∧
      ∀ is : List ℕ, is.map (cs[·]?) = choice.reduceOption.map some →
        List.Forall₂ (fun i candidates => i ∈ candidates) is (assignable.map (·.2)) := by
  induction h with
  | nil =>
    refine ⟨[], rfl, fun is his => ?_⟩
    have hnil : is = [] := List.map_eq_nil_iff.1 his
    subst hnil
    exact .nil
  | @cons e o es choice ho hchoice ih =>
    have hTe := hT e List.mem_cons_self
    obtain ⟨assignable, hassign, his⟩ := ih fun e he => hT e (List.mem_cons_of_mem _ he)
    rw [assignableEdges]
    cases o with
    | none =>
      obtain ⟨hextra, hnone⟩ := ho
      -- an edge that is left out has no candidate, and one that is assigned has one
      have hempty : constraintIndices (·.accepts t e) cs = [] := by
        rw [constraintIndices_eq_nil]
        intro c hc
        by_contra hacc
        exact hnone c hc ((hTe c hc).1 (by simpa using hacc))
      exact ⟨assignable, by simp [hempty, hextra, hassign], his⟩
    | some c =>
      obtain ⟨hc, hfit⟩ := ho
      have hacc := (hTe c hc).2 hfit
      have hne : constraintIndices (·.accepts t e) cs ≠ [] := by
        intro hempty
        rw [constraintIndices_eq_nil.1 hempty c hc] at hacc
        cases hacc
      refine ⟨(e, constraintIndices (·.accepts t e) cs) :: assignable, by simp [hne, hassign], ?_⟩
      intro is hmap
      cases is with
      | nil => simp at hmap
      | cons i is =>
        have hcons : cs[i]? :: is.map (cs[·]?) = some c :: choice.reduceOption.map some := hmap
        obtain ⟨hi, hrest⟩ := List.cons.inj hcons
        exact .cons (mem_constraintIndices.2 ⟨c, hi, hacc⟩) (his is hrest)

end Assignment

/-! ### The search -/

section Search

variable {s : Schema} {g : Graph} {t : Typing} {T : Set Association} {node : Term} {x : Shape}
  {c : Compiled} (hc : s.compile x.expr = .ok c)
include hc

theorem acceptedIn_iff (hne : c.constraints ≠ []) : x.AcceptedIn s g T node ↔
    ∃ choice is,
      List.Forall₂ (x.Admits T c.constraints) (g.listed c.constraints x.closed node) choice ∧
        is.map (c.constraints[·]?) = choice.reduceOption.map some ∧
        c.root.accepts ⟨is, c.constraints.length⟩ = true := by
  constructor
  · rintro ⟨c', hc', ⟨hnil, -⟩ | ⟨-, h⟩⟩
    · obtain rfl : c = c' := Except.ok.inj (hc.symm.trans hc')
      exact absurd hnil hne
    · obtain rfl : c = c' := Except.ok.inj (hc.symm.trans hc')
      exact h
  · intro h
    exact ⟨c, hc, .inr ⟨hne, h⟩⟩

/-- A shape without constraints looks at no type of any node. -/
theorem acceptedIn_iff_of_nil (hnil : c.constraints = []) :
    x.AcceptedIn s g T node ↔ (x.closed = true → g.outEdges node = []) := by
  constructor
  · rintro ⟨c', hc', ⟨-, h⟩ | ⟨hne, -⟩⟩
    · exact h
    · obtain rfl : c = c' := Except.ok.inj (hc.symm.trans hc')
      exact absurd hnil hne
  · intro h
    exact ⟨c, hc, .inl ⟨hnil, h⟩⟩

variable (hne : c.constraints ≠ [])
include hne

/-- **An edge that fits no constraint** and is not extra can not be dealt with. -/
theorem not_acceptedIn_of_unmatched {e : Edge}
    (he : e ∈ g.listed c.constraints x.closed node) (hextra : x.isExtra e.predicate = false)
    (hm : ∀ tc ∈ c.constraints, tc.matchesEdge e = false) : ¬ x.AcceptedIn s g T node := by
  rw [acceptedIn_iff hc hne]
  rintro ⟨choice, is, hchoice, -⟩
  obtain ⟨i, hi, rfl⟩ := List.mem_iff_getElem.1 he
  have hadmits := hchoice.get hi (hchoice.length_eq ▸ hi)
  cases ho : choice.get ⟨i, hchoice.length_eq ▸ hi⟩ with
  | none =>
    rw [ho] at hadmits
    have hpred := hadmits.1
    rw [List.get_eq_getElem, hextra] at hpred
    cases hpred
  | some tc =>
    rw [ho] at hadmits
    obtain ⟨htc, hfit, -⟩ := hadmits
    rw [List.get_eq_getElem, hm tc htc] at hfit
    cases hfit

variable (hT : ∀ e ∈ g.listed c.constraints x.closed node, ∀ tc ∈ c.constraints,
    tc.accepts t e = true ↔ tc.FitsIn T e)
include hT

/-- **If some edge can not be dealt with**, the shape is not accepted. -/
theorem not_acceptedIn_of_none
    (h : assignableEdges t x c.constraints (g.listed c.constraints x.closed node) = none) :
    ¬ x.AcceptedIn s g T node := by
  rw [acceptedIn_iff hc hne]
  rintro ⟨choice, is, hchoice, -⟩
  obtain ⟨assignable, hassign, -⟩ := assignable_of_admits hT hchoice
  rw [h] at hassign
  cases hassign

variable {assignable : List (Edge × List ℕ)}
  (ha : assignableEdges t x c.constraints (g.listed c.constraints x.closed node) = some assignable)
include ha

/-- **If a bag is found**, the shape is accepted. -/
theorem acceptedIn_of_found {max : Option ℕ} {b : Bag}
    (h : searchBags max c.root (.ofCandidates (assignable.map (·.2)) c.constraints.length) =
      .found b) : x.AcceptedIn s g T node := by
  obtain ⟨hmem, hsize, hacc⟩ := searchBags_found h
  obtain ⟨choice, hchoice, hmap⟩ := admits_of_assignable hT ha (mem_choices.1 hmem)
  rw [acceptedIn_iff hc hne]
  obtain ⟨is, size⟩ := b
  simp only at hsize
  subst hsize
  exact ⟨choice, is, hchoice, hmap, hacc⟩

/-- **If no bag is found**, the shape is not accepted. -/
theorem not_acceptedIn_of_notFound {max : Option ℕ}
    (h : searchBags max c.root (.ofCandidates (assignable.map (·.2)) c.constraints.length) =
      .notFound) : ¬ x.AcceptedIn s g T node := by
  rw [acceptedIn_iff hc hne]
  rintro ⟨choice, is, hchoice, hmap, hacc⟩
  obtain ⟨assignable', ha', his⟩ := assignable_of_admits hT hchoice
  obtain rfl : assignable = assignable' := Option.some.inj (ha.symm.trans ha')
  have hrej := searchBags_notFound h (mem_choices.2 (his is hmap))
  rw [hacc] at hrej
  cases hrej

end Search

/-! ### The language -/

theorem normalize_of_compile {s : Schema} {e : TripleExpr} {c : Compiled}
    (hc : s.compile e = .ok c) :
    s.normalize e = .ok c.expr ∧ c.expr.constraints = c.constraints := by
  refine ⟨Schema.compile_expr hc, ?_⟩
  obtain ⟨x, -, rfl⟩ := Except.map_eq_ok hc
  rfl

/-- The normal form is the expression that was compiled. -/
theorem normalize_unique {s : Schema} {e n : TripleExpr} {c : Compiled}
    (hc : s.compile e = .ok c) (hn : s.normalize e = .ok n) :
    c.expr = n ∧ n.constraints = c.constraints := by
  obtain ⟨hn', hcs⟩ := normalize_of_compile hc
  obtain rfl : c.expr = n := Except.ok.inj (hn'.symm.trans hn)
  exact ⟨rfl, hcs⟩

section Language

variable {s : Schema} {g : Graph} {T : Set Association} {node : Term} {x : Shape}
  {c : Compiled} (hc : s.compile x.expr = .ok c)
include hc

/-- A shape in terms of its compiled expression. -/
theorem assignableIn_iff : x.AssignableIn s g T node ↔
    ∃ choice, List.Forall₂ (x.Admits T c.constraints) (g.listed c.constraints x.closed node)
        choice ∧ (choice.reduceOption : Multiset TripleConstraint) ∈ s.language x.expr := by
  obtain ⟨hn, hcs⟩ := normalize_of_compile hc
  constructor
  · rintro ⟨n, hn', h⟩
    obtain ⟨rfl, -⟩ := normalize_unique hc hn'
    rwa [hcs] at h
  · intro h
    refine ⟨c.expr, hn, ?_⟩
    rwa [hcs]

theorem holdsIn_iff (hne : c.constraints ≠ []) :
    x.HoldsIn s g T node ↔ x.AssignableIn s g T node := by
  obtain ⟨hn, hcs⟩ := normalize_of_compile hc
  constructor
  · rintro ⟨n, hn', ⟨hnil, -⟩ | ⟨-, h⟩⟩
    · exact absurd ((normalize_unique hc hn').2.symm.trans hnil) hne
    · exact h
  · intro h
    exact ⟨c.expr, hn, .inr ⟨by rwa [hcs], h⟩⟩

theorem holdsIn_iff_of_nil (hnil : c.constraints = []) :
    x.HoldsIn s g T node ↔ (x.closed = true → g.outEdges node = []) := by
  obtain ⟨hn, hcs⟩ := normalize_of_compile hc
  constructor
  · rintro ⟨n, hn', ⟨-, h⟩ | ⟨hne, -⟩⟩
    · exact h
    · exact absurd ((normalize_unique hc hn').2.trans hnil) hne
  · intro h
    exact ⟨c.expr, hn, .inl ⟨hcs.trans hnil, h⟩⟩

theorem acceptedIn_iff_holdsIn_of_compile (hv : s.CardsValid x.expr) (hw : g.degree node ≤ maxWord) :
    x.AcceptedIn s g T node ↔ x.HoldsIn s g T node := by
  by_cases hnil : c.constraints = []
  · rw [acceptedIn_iff_of_nil hc hnil, holdsIn_iff_of_nil hc hnil]
  rw [acceptedIn_iff hc hnil, holdsIn_iff hc hnil, assignableIn_iff hc]
  -- no more edges are assigned than there are around the node
  have hlen : ∀ choice : List (Option TripleConstraint),
      List.Forall₂ (x.Admits T c.constraints) (g.listed c.constraints x.closed node) choice →
      choice.reduceOption.length ≤ maxWord := by
    intro choice hchoice
    have h2 := List.reduceOption_length_le choice
    have h3 := hchoice.length_eq
    have h4 := g.length_listed_le c.constraints x.closed node
    omega
  constructor
  · rintro ⟨choice, is, hchoice, hmap, hacc⟩
    have hsame : is.length = choice.reduceOption.length := by
      simpa using congrArg List.length hmap
    have his : is.length ≤ maxWord := hsame.trans_le (hlen choice hchoice)
    exact ⟨choice, hchoice, Schema.mem_language_of_accepts hc hv hmap his hacc⟩
  · rintro ⟨choice, hchoice, hlang⟩
    obtain ⟨is, hmap, hacc⟩ :=
      Schema.exists_accepts_of_mem_language hc hv (hlen choice hchoice) hlang
    exact ⟨choice, is, hchoice, hmap, hacc⟩

end Language

/-- **What the compiled expression accepts** is what its language has, if cardinalities are not
reversed and the node has no more edges than can be counted. -/
theorem acceptedIn_iff_holdsIn {s : Schema} {g : Graph} {T : Set Association} {node : Term}
    {x : Shape} (hv : s.CardsValid x.expr) (hw : g.degree node ≤ maxWord) :
    x.AcceptedIn s g T node ↔ x.HoldsIn s g T node := by
  constructor
  · intro h
    obtain ⟨c, hc, -⟩ := id h
    exact (acceptedIn_iff_holdsIn_of_compile hc hv hw).1 h
  · intro h
    obtain ⟨n, hn, -⟩ := id h
    obtain ⟨c, hc, -, -⟩ := Schema.exists_compile_of_normalize hn
    exact (acceptedIn_iff_holdsIn_of_compile hc hv hw).2 h

end ShapeTyping
