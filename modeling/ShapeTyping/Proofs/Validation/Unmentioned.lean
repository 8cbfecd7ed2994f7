import Mathlib
import ShapeTyping.Proofs.Schema.BuiltForm
import ShapeTyping.Proofs.Validation.Depth
import ShapeTyping.Proofs.Validation.Matching

/-!
# Triples that a schema does not mention

A shape that is not closed looks at the edges of its own constraints only. So a schema without
closed shapes is validated against a graph in the same way as against the triples whose predicate
some constraint mentions. The bound on the depth counts the terms of the whole graph, but a run
never gets near it.

* `Schema.predicates`, `Context.mentioned`: the predicates of a schema, and a context whose graph
  has no other ones.
* `satisfies_graph`: an evaluation sees the graph through its shapes only.
* `satisfiesShape_mentioned`, `decideWithin_mentioned`: shapes and decisions do not see other
  triples.
* `Validator.performAll_mentioned`: neither do calls.
* `performAll_unmentioned`: graphs that differ by other triples are not told apart.
-/

namespace ShapeTyping

/-- The predicates of the triple constraints of a schema. -/
def Schema.predicates (s : Schema) : List Iri := s.allConstraints.map (·.predicate)

/-- The triples of a graph with one of some predicates, in their order. -/
def Graph.restrict (g : Graph) (ps : List Iri) : Graph := ⟨g.triples.filter (·.predicate ∈ ps)⟩

/-- The same context without the triples that the schema does not mention. -/
def Context.mentioned (ctx : Context) : Context :=
  { ctx with graph := ctx.graph.restrict ctx.schema.predicates }

/-! ### Edges of mentioned predicates -/

namespace Graph

variable {g : Graph} {node : Term} {ps qs : List Iri}

theorem inEdgesVia_restrict (h : qs ⊆ ps) :
    (g.restrict ps).inEdgesVia node qs = g.inEdgesVia node qs := by
  rw [inEdgesVia, restrict, List.filter_filter, inEdgesVia]
  refine congrArg (List.map _) (List.filter_congr fun t _ => ?_)
  have hmem : t.predicate ∈ qs → t.predicate ∈ ps := fun ht => h ht
  simp only [← Bool.decide_and, and_iff_left_of_imp fun ht : _ ∧ _ => hmem ht.2]

theorem outEdgesVia_restrict (h : qs ⊆ ps) :
    (g.restrict ps).outEdgesVia node qs = g.outEdgesVia node qs := by
  simp only [outEdgesVia, outEdges, restrict, List.filter_map, List.filter_filter]
  refine congrArg (List.map _) (List.filter_congr fun t _ => ?_)
  have hmem : t.predicate ∈ qs → t.predicate ∈ ps := fun ht => h ht
  by_cases ht : t.predicate ∈ qs <;> simp [ht, hmem]

/-- **The edges of constraints** are among the triples that are left. -/
theorem listed_restrict {cs : List TripleConstraint} (h : ∀ c ∈ cs, c.predicate ∈ ps) :
    (g.restrict ps).listed cs false node = g.listed cs false node := by
  have hsub : ∀ p : TripleConstraint → Bool, (cs.filter p).map (·.predicate) ⊆ ps := by
    intro p q hq
    obtain ⟨c, hc, rfl⟩ := List.mem_map.1 hq
    exact h c (List.mem_of_mem_filter hc)
  simp only [listed, inEdgesVia_restrict (hsub _), outEdgesVia_restrict (hsub _),
    Bool.false_eq_true, if_false]

end Graph

/-- **A compiled shape** has constraints of the schema only. -/
theorem Schema.predicate_mem {s : Schema} {x : Shape} (hx : x ∈ s.allShapes) {c : Compiled}
    (hc : s.compile x.expr = .ok c) : ∀ t ∈ c.constraints, t.predicate ∈ s.predicates := by
  obtain ⟨e, he, rfl⟩ := Except.map_eq_ok hc
  have hexpanded : ∀ t ∈ e.constraints, t ∈ s.allConstraints :=
    TripleExpr.constraints_expandIn
      (fun p hp t ht => List.mem_append_right _ (List.mem_flatMap.2 ⟨p, hp, ht⟩))
      (fun t ht => List.mem_append_left _ (List.mem_flatMap.2 ⟨x, hx, ht⟩)) he
  exact fun t ht => List.mem_map_of_mem (hexpanded t (TripleExpr.mem_constraints_unfold e ht))

/-! ### Evaluation -/

section Evaluation

variable {ctx : Context} {recur : Decider} {node : Term}

/-- **A shape that is not closed** does not see other triples. -/
theorem satisfiesShape_mentioned {x : Shape} (hx : x ∈ ctx.schema.allShapes)
    (hopen : x.closed = false) {st : State} (hst : st.Cached ctx.schema) :
    satisfiesShape ctx.mentioned recur node x st = satisfiesShape ctx recur node x st := by
  -- the cache does not depend on the graph
  have hcompiled : compiledShape ctx.mentioned x st = compiledShape ctx x st := rfl
  rw [satisfiesShape_eq, satisfiesShape_eq, hopen, hcompiled]
  cases hcomp : compiledShape ctx x st with
  | error err st' => rfl
  | ok c st' =>
    have hc := (compiledShape_ok hx hst hcomp).1
    have hedges : neighbourhood ctx.mentioned.graph c false node =
        neighbourhood ctx.graph c false node := by
      rw [neighbourhood_eq hc, neighbourhood_eq hc]
      exact Graph.listed_restrict (Schema.predicate_mem hx hc)
    simp only [hedges]
    rfl

mutual
/-- **An evaluation sees the graph through its shapes only.** -/
theorem satisfies_graph {g : Graph} {I : State → Prop}
    (hrec : recur.Respects fun st st' => I st → I st') : (e : ShapeExpr) →
    (∀ x ∈ e.shapes, ∀ st, I st → I (finalState (compiledShape ctx x st))) →
    (∀ x ∈ e.shapes, ∀ st, I st → satisfiesShape { ctx with graph := g } recur node x st =
      satisfiesShape ctx recur node x st) →
    {st : State} → I st →
      satisfies { ctx with graph := g } recur node e st = satisfies ctx recur node e st
  | .and es, hcache, hshapes, st, hst => by
    rw [satisfies, satisfies]
    exact satisfiesAll_graph hrec es hcache hshapes hst
  | .or es, hcache, hshapes, st, hst => by
    rw [satisfies, satisfies]
    exact satisfiesAny_graph hrec es hcache hshapes hst
  | .not e, hcache, hshapes, st, hst => by
    rw [satisfies_not, satisfies_not, satisfies_graph hrec e hcache hshapes hst]
  | .shape x, _, hshapes, st, hst => by
    rw [satisfies, satisfies]
    exact hshapes x (List.mem_singleton_self x) st hst
  | .node _, _, _, st, _ => by
    rw [satisfies_node, satisfies_node]
  | .external, _, _, st, _ => by
    rw [satisfies, satisfies]
  | .ref l, _, _, st, _ => by
    rw [satisfies_ref, satisfies_ref]

theorem satisfiesAll_graph {g : Graph} {I : State → Prop}
    (hrec : recur.Respects fun st st' => I st → I st') : (es : List ShapeExpr) →
    (∀ x ∈ ShapeExpr.shapesOfList es, ∀ st, I st → I (finalState (compiledShape ctx x st))) →
    (∀ x ∈ ShapeExpr.shapesOfList es, ∀ st, I st →
      satisfiesShape { ctx with graph := g } recur node x st =
        satisfiesShape ctx recur node x st) →
    {st : State} → I st →
      satisfiesAll { ctx with graph := g } recur node es st = satisfiesAll ctx recur node es st
  | [], _, _, st, _ => by
    rw [satisfiesAll, satisfiesAll]
  | e :: es, hcache, hshapes, st, hst => by
    have hcache' := fun x hx => hcache x (List.mem_append_left _ hx)
    have hmid : I (finalState (satisfies ctx recur node e st)) :=
      satisfies_rel hrec e hcache' st hst
    rw [satisfiesAll_cons, satisfiesAll_cons, satisfies_graph hrec e hcache'
      (fun x hx => hshapes x (List.mem_append_left _ hx)) hst]
    cases he : satisfies ctx recur node e st with
    | error err st' => rfl
    | ok r st' =>
      rw [he] at hmid
      cases r with
      | none => rfl
      | some ms =>
        have hrest : satisfiesAll { ctx with graph := g } recur node es st' =
            satisfiesAll ctx recur node es st' :=
          satisfiesAll_graph hrec es (fun x hx => hcache x (List.mem_append_right _ hx))
            (fun x hx => hshapes x (List.mem_append_right _ hx)) hmid
        simp only [hrest]

theorem satisfiesAny_graph {g : Graph} {I : State → Prop}
    (hrec : recur.Respects fun st st' => I st → I st') : (es : List ShapeExpr) →
    (∀ x ∈ ShapeExpr.shapesOfList es, ∀ st, I st → I (finalState (compiledShape ctx x st))) →
    (∀ x ∈ ShapeExpr.shapesOfList es, ∀ st, I st →
      satisfiesShape { ctx with graph := g } recur node x st =
        satisfiesShape ctx recur node x st) →
    {st : State} → I st →
      satisfiesAny { ctx with graph := g } recur node es st = satisfiesAny ctx recur node es st
  | [], _, _, st, _ => by
    rw [satisfiesAny, satisfiesAny]
  | e :: es, hcache, hshapes, st, hst => by
    have hcache' := fun x hx => hcache x (List.mem_append_left _ hx)
    have hmid : I (finalState (satisfies ctx recur node e st)) :=
      satisfies_rel hrec e hcache' st hst
    rw [satisfiesAny_cons, satisfiesAny_cons, satisfies_graph hrec e hcache'
      (fun x hx => hshapes x (List.mem_append_left _ hx)) hst]
    cases he : satisfies ctx recur node e st with
    | error err st' => rfl
    | ok r st' =>
      rw [he] at hmid
      cases r with
      | some ms => rfl
      | none =>
        exact satisfiesAny_graph hrec es (fun x hx => hcache x (List.mem_append_right _ hx))
          (fun x hx => hshapes x (List.mem_append_right _ hx)) hmid
end

end Evaluation

/-! ### Decisions -/

section Decisions

variable {d : Definitions} {ctx : Context} (hb : d.Builds ctx.schema)
  (hopen : ∀ x ∈ ctx.schema.allShapes, x.closed = false)
include hb hopen

theorem decideWith_mentioned {recur : Decider}
    (hrec : recur.Respects fun st st' => st.Cached ctx.schema → st'.Cached ctx.schema)
    {a : Association} {st : State} (hst : st.Cached ctx.schema) :
    decideWith ctx.mentioned recur a st = decideWith ctx recur a st := by
  have hdefinition : ∀ e, ctx.schema.shape? a.label = some e →
      evaluateDefinition ctx.mentioned recur a.node e (st.open a) =
        evaluateDefinition ctx recur a.node e (st.open a) := by
    intro e he
    have hshape : ∀ x ∈ e.shapes, x ∈ ctx.schema.allShapes := fun x hx =>
      Schema.mem_allShapes (mem_of_lookup_eq_some he) hx
    have hexpr : satisfies ctx.mentioned recur a.node e (st.open a) =
        satisfies ctx recur a.node e (st.open a) :=
      satisfies_graph hrec e (fun x hx st => compiledShape_cached hb (hshape x hx))
        (fun x hx st hst => satisfiesShape_mentioned (hshape x hx) (hopen x (hshape x hx)) hst) hst
    rw [evaluateDefinition, evaluateDefinition, hexpr]
    rfl
  rw [decideWith, decideWith]
  cases st.typing.verdict? a with
  | some v => rfl
  | none =>
    have hschema : ctx.mentioned.schema.shape? a.label = ctx.schema.shape? a.label := rfl
    simp only [hschema]
    cases he : ctx.schema.shape? a.label with
    | none => rfl
    | some e => simp only [hdefinition e he]

/-- **Decisions do not see other triples**, by induction on the depth. -/
theorem decideWithin_mentioned (n : ℕ) {a : Association} {st : State}
    (hst : st.Cached ctx.schema) :
    decideWithin ctx.mentioned n a st = decideWithin ctx n a st := by
  induction n generalizing a st with
  | zero => rfl
  | succ n ih =>
    have hnested : ∀ r ∈ decisionRequests ctx (decideWithin ctx n) a st,
        decideWithin ctx.mentioned n r.target r.state = decideWithin ctx n r.target r.state :=
      fun r hr => ih ((regardsCache_cached hb).of_mem_requests hr hst)
    calc decideWith ctx.mentioned (decideWithin ctx.mentioned n) a st
        = decideWith ctx (decideWithin ctx.mentioned n) a st :=
          decideWith_mentioned hb hopen (@decideWithin_cached d ctx.mentioned hb n) hst
      _ = decideWith ctx (decideWithin ctx n) a st :=
          decideWith_congr (.refl ctx.limits) hnested fun _ => rfl

end Decisions

/-! ### Calls -/

namespace Validator

/-- The same validator, on the triples that the schema mentions. -/
def mentioned (v : Validator) : Validator := { v with context := v.context.mentioned }

variable {d : Definitions} {v : Validator} (hb : d.Builds v.context.schema)
  (hopen : ∀ x ∈ v.context.schema.allShapes, x.closed = false)
include hb hopen

/-- **The decision of a call** is the same: both depths are beyond what the runs can reach. -/
theorem decision_mentioned (hv : v.Quiet) (a : Association) :
    decideWithin v.mentioned.context v.mentioned.context.maxNesting a v.mentioned.start =
      decideWithin v.context v.context.maxNesting a v.start := by
  have hb' : d.Builds v.mentioned.context.schema := hb
  have hv' : v.mentioned.Quiet := ⟨hv.cached, hv.settled⟩
  have hlt := Context.maxPending_lt v.context a.node
  have hlt' := Context.maxPending_lt v.mentioned.context a.node
  have hstart : v.start.Cached v.context.schema := hv.cached
  -- a depth that is enough for both graphs
  have hboth := Nat.le_add_right v.context.maxNesting v.mentioned.context.maxNesting
  have hboth' := Nat.le_add_left v.mentioned.context.maxNesting v.context.maxNesting
  calc decideWithin v.mentioned.context v.mentioned.context.maxNesting a v.mentioned.start
      = decideWithin v.mentioned.context
          (v.context.maxNesting + v.mentioned.context.maxNesting) a v.mentioned.start :=
        (hv'.asked a).decideWithin_eq hb' hlt' (hlt'.trans_le hboth')
    _ = decideWithin v.context
          (v.context.maxNesting + v.mentioned.context.maxNesting) a v.start :=
        decideWithin_mentioned hb hopen _ hstart
    _ = decideWithin v.context v.context.maxNesting a v.start :=
        (hv.asked a).decideWithin_eq hb (hlt.trans_le hboth) hlt

theorem perform_mentioned (hv : v.Quiet) (c : Call) :
    v.mentioned.perform c = ((v.perform c).1, (v.perform c).2.mentioned) := by
  cases c with
  | evaluate f candidates => rfl
  | reset => rfl
  | validate a =>
    rw [perform, perform]
    by_cases hl : a.label ∈ v.context.schema.labels
    · cases hdec : decideWithin v.context v.context.maxNesting a v.start with
      | mk conforms st =>
      have hdec' := (decision_mentioned hb hopen hv a).trans hdec
      rw [validate_of_defined hl hdec, @validate_of_defined v.mentioned a hl conforms st hdec']
      rfl
    · rw [validate_of_undefined hl, @validate_of_undefined v.mentioned a hl]
      rfl

/-- **Calls do not see other triples.** -/
theorem performAll_mentioned (hv : v.Quiet) (calls : List Call) :
    v.mentioned.performAll calls = ((v.performAll calls).1, (v.performAll calls).2.mentioned) := by
  induction calls generalizing v with
  | nil => rfl
  | cons c cs ih =>
    obtain ⟨hctx, hquiet⟩ := perform_quiet hb hv c
    rw [performAll, performAll, perform_mentioned hb hopen hv c]
    simp only [ih (v := (v.perform c).2) (by rwa [hctx]) (by rwa [hctx]) hquiet]

end Validator

/-- **Open schemas ignore triples that they do not mention.** Two graphs with the same triples of
mentioned predicates, in the same order, are not told apart by a schema without closed shapes: any
calls have the same answers and end in the same state, typing and matched triples included, and any
further decision has the same answer, errors and state. -/
theorem performAll_unmentioned {d : Definitions} {s : Schema} (h : d.build = .ok s)
    (hopen : ∀ x ∈ s.allShapes, x.closed = false) {g g' : Graph}
    (hg : g.triples.filter (·.predicate ∈ s.predicates) =
      g'.triples.filter (·.predicate ∈ s.predicates)) (limits : Limits) (calls : List Call) :
    let r := (Validator.new s g limits).performAll calls
    let r' := (Validator.new s g' limits).performAll calls
    r.1 = r'.1 ∧ r.2.state = r'.2.state ∧
      ∀ a, decideWithin r.2.context r.2.context.maxNesting a r.2.start =
        decideWithin r'.2.context r'.2.context.maxNesting a r'.2.start := by
  intro r r'
  have hb := Definitions.builds_of_build h
  have hmentioned : (Validator.new s g limits).mentioned = (Validator.new s g' limits).mentioned :=
    congrArg (fun ts => (⟨⟨s, ⟨ts⟩, limits⟩, .start s⟩ : Validator)) hg
  have hr := @Validator.performAll_mentioned d (Validator.new s g limits) hb hopen
    (quiet_new s g limits) calls
  have hr' := @Validator.performAll_mentioned d (Validator.new s g' limits) hb hopen
    (quiet_new s g' limits) calls
  rw [hmentioned, hr'] at hr
  obtain ⟨hanswers, hends⟩ : r'.1 = r.1 ∧ r'.2.mentioned = r.2.mentioned := Prod.mk.inj hr
  refine ⟨hanswers.symm, (congrArg Validator.state hends).symm, fun a => ?_⟩
  obtain ⟨hctx, hquiet⟩ := performAll_quiet hb (quiet_new s g limits) calls
  obtain ⟨hctx', hquiet'⟩ := performAll_quiet hb (quiet_new s g' limits) calls
  have hdecision := @Validator.decision_mentioned d r.2 (by rwa [hctx]) (by rwa [hctx]) hquiet a
  have hdecision' :=
    @Validator.decision_mentioned d r'.2 (by rwa [hctx']) (by rwa [hctx']) hquiet' a
  rw [hends] at hdecision'
  exact hdecision.symm.trans hdecision'

/-- A graph with one edge between other ones. -/
def oneEdgeAmongOthers : Graph := ⟨[⟨.iri ⟨"urn:n"⟩, ⟨"urn:q"⟩, .iri ⟨"urn:n"⟩⟩,
  ⟨.iri ⟨"urn:n"⟩, ⟨"urn:p"⟩, .iri ⟨"urn:m"⟩⟩, ⟨.iri ⟨"urn:m"⟩, ⟨"urn:r"⟩, .blank "b"⟩]⟩

/-- A call that fails, one that is answered and the triple it matches, in both graphs. -/
theorem performAll_unmentioned_oneEdge :
    ∃ s, chainOrExternal.build = .ok s ∧ s.predicates = [⟨"urn:p"⟩] ∧
      (Context.mk s oneEdge .standard).maxNesting ≠
        (Context.mk s oneEdgeAmongOthers .standard).maxNesting ∧
      ∃ r, r = (Validator.new s oneEdgeAmongOthers .standard).performAll
          [.validate ⟨.iri ⟨"urn:n"⟩, .iri ⟨"urn:E"⟩⟩, .validate ⟨.iri ⟨"urn:n"⟩, .iri ⟨"urn:S"⟩⟩] ∧
        r.1 = [.verdict (.error .externalShape), .verdict (.ok true)] ∧
        r.2.typing.matchedTriples ⟨.iri ⟨"urn:n"⟩, .iri ⟨"urn:S"⟩⟩ =
          [⟨⟨.iri ⟨"urn:n"⟩, ⟨"urn:p"⟩, .iri ⟨"urn:m"⟩⟩, .iri ⟨"urn:l"⟩⟩] := by
  have hbuild : chainOrExternal.build = .ok
      { shapes := [
          (.iri ⟨"urn:S"⟩, .shape ⟨false, [], .constraint ⟨⟨"urn:p"⟩, some (.ref (.iri ⟨"urn:S"⟩)),
            .star, false, some (.iri ⟨"urn:l"⟩)⟩, 0⟩),
          (.iri ⟨"urn:E"⟩, .or [.not (.ref (.iri ⟨"urn:S"⟩)), .external])]
        tripleExprs := [], start := none, shapeCount := 1
        strata := [[.iri ⟨"urn:S"⟩], [.iri ⟨"urn:E"⟩]] } := by cbv
  refine ⟨_, hbuild, by cbv, by decide, _, rfl, ?_⟩
  -- what the run on the single edge is computed to be holds of the other one too
  obtain ⟨hanswers, hstate, -⟩ := @performAll_unmentioned _ _ hbuild (by decide) oneEdge
    oneEdgeAmongOthers (by decide) .standard
    [.validate ⟨.iri ⟨"urn:n"⟩, .iri ⟨"urn:E"⟩⟩, .validate ⟨.iri ⟨"urn:n"⟩, .iri ⟨"urn:S"⟩⟩]
  rw [← hanswers, Validator.typing, ← hstate]
  exact ⟨by cbv, by cbv⟩

end ShapeTyping
