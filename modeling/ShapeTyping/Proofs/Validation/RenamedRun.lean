import Mathlib
import ShapeTyping.Proofs.Schema.Relabelling
import ShapeTyping.Proofs.Validation.Cache
import ShapeTyping.Proofs.Validation.RenamedTyping
import ShapeTyping.Proofs.Validation.Trace

/-!
# Runs with other labels

Two schemas that were hoisted to the same up to labels are validated against in the same way. The
runs go in step: they decide renamed associations in the same order, so their typings are the same
up to labels. They may number shapes differently, and what they remember of them is compiled from
renamed expressions.

* `Context.Renamed`: two contexts with such schemas.
* `State.Mirrors`: the states of two runs that go in step.
* `SameOutcome`: evaluations with the same result in such states.
* `satisfies_renamed`, `decideWith_renamed`: one step of both runs.
* `Validator.validate_renamed`, `Validator.run_renamed`: calls of both validators.
-/

namespace ShapeTyping

/-! ### What goes in step -/

/-- Two contexts that agree but for their schemas, which were built from definitions that are
hoisted to the same up to labels. -/
structure Context.Renamed (ρ : Equiv.Perm Label) (d d' : Definitions) (ctx ctx' : Context) :
    Prop where
  builds : d.Builds ctx.schema
  builds' : d'.Builds ctx'.schema
  hoists : d.hoist.RenamesTo ρ d'.hoist
  graph : ctx'.graph = ctx.graph
  limits : ctx'.limits = ctx.limits

/-- The states of two runs that go in step. -/
structure State.Mirrors (ρ : Equiv.Perm Label) (s s' : Schema) (st st' : State) : Prop where
  typing : st'.typing = st.typing.rename ρ
  errors : st'.errors = st.errors
  depth : st'.depth = st.depth
  ready : st.Ready s
  ready' : st'.Ready s'

/-- Whether two evaluations end with the same result or the same error, in states that are
related. -/
inductive SameOutcome {ε σ α : Type} (R : σ → σ → Prop) :
    EStateM.Result ε σ α → EStateM.Result ε σ α → Prop
  | ok {a : α} {st st' : σ} (h : R st st') : SameOutcome R (.ok a st) (.ok a st')
  | error {e : ε} {st st' : σ} (h : R st st') : SameOutcome R (.error e st) (.error e st')

/-- Whether two deciders answer alike and go in step, on defined labels. -/
def Decider.Mirrors (ρ : Equiv.Perm Label) (s s' : Schema) (recur recur' : Decider) : Prop :=
  ∀ (a : Association) (st st' : State), a.label ∈ s.labels → st.Mirrors ρ s s' st' →
    (recur' (a.rename ρ) st').1 = (recur a st).1 ∧
      (recur a st).2.Mirrors ρ s s' (recur' (a.rename ρ) st').2

namespace Context.Renamed

variable {ρ : Equiv.Perm Label} {d d' : Definitions} {ctx ctx' : Context}
  (h : Context.Renamed ρ d d' ctx ctx')
include h

theorem tripleExprs :
    ctx'.schema.tripleExprs = renameTripleExprs ρ ctx.schema.tripleExprs := by
  rw [h.builds'.tripleExprs, h.hoists.tripleExprs, h.builds.tripleExprs]

theorem labels_perm : ctx'.schema.labels.Perm (ctx.schema.labels.map ρ) := by
  rw [h.builds'.labels_eq, h.builds.labels_eq]
  exact h.hoists.labels_perm

theorem mem_labels_iff {l : Label} : ρ l ∈ ctx'.schema.labels ↔ l ∈ ctx.schema.labels := by
  rw [h.labels_perm.mem_iff, List.mem_map_of_injective ρ.injective]

theorem maxNesting_eq : ctx'.maxNesting = ctx.maxNesting := by
  rw [Context.maxNesting, h.graph, h.labels_perm.length_eq, List.length_map, Context.maxNesting]

/-- **A definition and the renamed one** are those of a hoisted expression, with shapes numbered
from any two numbers on. -/
theorem shape?_eq {l : Label} {e : ShapeExpr} (he : ctx.schema.shape? l = some e) :
    ∃ e₀ j k, (l, e₀) ∈ d.hoist.shapes ∧ e = (ShapeExpr.number j e₀).1 ∧
      ctx'.schema.shape? (ρ l) = some (ShapeExpr.number k (e₀.rename ρ)).1 := by
  obtain ⟨e₀, j, hmem, rfl⟩ := h.builds.mem_shapes (mem_of_lookup_eq_some he)
  have hmem' : (ρ l, e₀.rename ρ) ∈ d'.hoist.shapes :=
    h.hoists.shapes.mem_iff.2 (List.mem_map_of_mem (f := renameShape ρ) hmem)
  obtain ⟨k, hk⟩ := h.builds'.exists_mem_shapes hmem'
  exact ⟨e₀, j, k, hmem, rfl, lookup_eq_some_of_mem h.builds'.nodup_labels hk⟩

end Context.Renamed

/-! ### Edges -/

section Edges

variable {ρ : Equiv.Perm Label}

theorem TripleConstraint.matchesEdge_rename (c : TripleConstraint) (e : Edge) :
    (c.rename ρ).matchesEdge e = c.matchesEdge e := by
  rw [matchesEdge, direction, predicate_rename, inverse_rename, matchesEdge, direction]

theorem TripleConstraint.accepts_rename (t : Typing) (c : TripleConstraint) (e : Edge) :
    (c.rename ρ).accepts (t.rename ρ) e = c.accepts t e := by
  rw [accepts, matchesEdge_rename, valueLabel?_rename, Option.all_map, accepts]
  refine congrArg (c.matchesEdge e && ·) (congrArg (Option.all · _) (funext fun l => ?_))
  exact t.contains_rename ρ.injective ⟨e.other, l⟩

theorem filter_matchesEdge_rename (cs : List TripleConstraint) (e : Edge) :
    (cs.map (·.rename ρ)).filter (·.matchesEdge e) =
      (cs.filter (·.matchesEdge e)).map (·.rename ρ) := by
  rw [List.filter_map]
  simp only [Function.comp_def, TripleConstraint.matchesEdge_rename]

theorem constraintIndices_rename (t : Typing) (cs : List TripleConstraint) (e : Edge) :
    constraintIndices (·.accepts (t.rename ρ) e) (cs.map (·.rename ρ)) =
      constraintIndices (·.accepts t e) cs := by
  rw [constraintIndices, constraintIndices, List.length_map]
  refine List.filter_congr fun i _ => ?_
  rw [List.getElem?_map, Option.any_map]
  simp only [TripleConstraint.accepts_rename]

/-- **The edges to assign** are the same, with the same candidates. -/
theorem assignableEdges_rename (t : Typing) {x x' : Shape} (hextra : x'.extra = x.extra)
    (cs : List TripleConstraint) (es : List Edge) :
    assignableEdges (t.rename ρ) x' (cs.map (·.rename ρ)) es = assignableEdges t x cs es := by
  induction es with
  | nil => rfl
  | cons e es ih =>
    rw [assignableEdges, assignableEdges, constraintIndices_rename, ih, Shape.isExtra,
      Shape.isExtra, hextra]

theorem neighbourhood_rename (g : Graph) (c : Compiled) (closed : Bool) (node : Term) :
    neighbourhood g (c.rename ρ) closed node = neighbourhood g c closed node := rfl

theorem matchedBy_rename (cs : List TripleConstraint) (es : List Edge) (b : Bag) :
    matchedBy (cs.map (·.rename ρ)) es b = matchedBy cs es b := by
  rw [matchedBy, matchedBy]
  refine List.filterMap_congr fun p _ => ?_
  simp only [List.getElem?_map, Option.bind_map, Function.comp_def, TripleConstraint.label_rename]

end Edges

/-! ### Evaluation -/

section Evaluation

variable {ρ : Equiv.Perm Label} {d d' : Definitions} {ctx ctx' : Context} {recur recur' : Decider}
  {node : Term} {st st' : State}

section Values

variable {s s' : Schema} (hrec : Decider.Mirrors ρ s s' recur recur')
include hrec

theorem decideValues_renamed {other : Term} {cs : List TripleConstraint}
    (hcs : ∀ c ∈ cs, ∀ l, c.valueLabel? = some l → l ∈ s.labels) (hst : st.Mirrors ρ s s' st') :
    (decideValues recur other cs st).Mirrors ρ s s'
      (decideValues recur' other (cs.map (·.rename ρ)) st') := by
  induction cs generalizing st st' with
  | nil => exact hst
  | cons c cs ih =>
    rw [List.forall_mem_cons] at hcs
    rw [List.map_cons, decideValues, decideValues, TripleConstraint.valueLabel?_rename]
    cases hl : c.valueLabel? with
    | none => exact ih hcs.2 hst
    | some l =>
      have hverdict : st'.typing.verdict? ⟨other, ρ l⟩ = st.typing.verdict? ⟨other, l⟩ := by
        rw [hst.typing]
        exact Typing.verdict?_rename ρ.injective _ ⟨other, l⟩
      simp only [Option.map_some, hverdict]
      split
      · exact ih hcs.2 hst
      · exact ih hcs.2 (hrec ⟨other, l⟩ st st' (hcs.1 l hl) hst).2

theorem decideEdges_renamed {x x' : Shape} (hextra : x'.extra = x.extra)
    {cs : List TripleConstraint} (hcs : ∀ c ∈ cs, ∀ l, c.valueLabel? = some l → l ∈ s.labels)
    (es : List Edge) (hst : st.Mirrors ρ s s' st') :
    (decideEdges recur' x' (cs.map (·.rename ρ)) es st').1 = (decideEdges recur x cs es st).1 ∧
      (decideEdges recur x cs es st).2.Mirrors ρ s s'
        (decideEdges recur' x' (cs.map (·.rename ρ)) es st').2 := by
  induction es generalizing st st' with
  | nil => exact ⟨rfl, hst⟩
  | cons e es ih =>
    have hisExtra : x'.isExtra e.predicate = x.isExtra e.predicate := by
      rw [Shape.isExtra, hextra, Shape.isExtra]
    rw [decideEdges, decideEdges]
    simp only [filter_matchesEdge_rename, List.isEmpty_map, hisExtra]
    by_cases hfit : (cs.filter (·.matchesEdge e)).isEmpty = true
    · simp only [hfit, if_true]
      by_cases hx : x.isExtra e.predicate = true
      · rw [if_pos hx, if_pos hx]
        exact ih hst
      · rw [if_neg hx, if_neg hx]
        exact ⟨rfl, hst⟩
    · simp only [hfit, Bool.false_eq_true, if_false]
      exact ih (decideValues_renamed hrec
        (fun c hc l hl => hcs c (List.mem_of_mem_filter hc) l hl) hst)

end Values

/-- What is remembered is changed in both runs. -/
theorem State.Mirrors.with_cache {s s' : Schema} (hst : st.Mirrors ρ s s' st')
    {cache cache' : List (Option Compiled)} (hr : { st with compiled := cache }.Ready s)
    (hr' : { st' with compiled := cache' }.Ready s') :
    { st with compiled := cache }.Mirrors ρ s s' { st' with compiled := cache' } :=
  ⟨hst.typing, hst.errors, hst.depth, hr, hr'⟩

/-- The values of a compiled expression refer to defined labels. -/
theorem Definitions.Builds.mem_labels_of_valueLabel? {s : Schema} (hb : d.Builds s) {x : Shape}
    (hx : ∀ r ∈ (ShapeExpr.shape x).references, r ∈ s.labels) {c : Compiled}
    (hc : s.compile x.expr = .ok c) {t : TripleConstraint} (ht : t ∈ c.constraints) {l : Label}
    (hl : t.valueLabel? = some l) : l ∈ s.labels := by
  obtain ⟨z, hdep, -⟩ := Schema.exists_dependency hc ht hl l false
  exact ShapeExpr.mem_labels_of_mem_dependencies
    (fun p hp r hr => (hb.defined_of_tripleExpr hp).1 hr) _ hx hdep

variable (h : Context.Renamed ρ d d' ctx ctx')
  (hrec : Decider.Mirrors ρ ctx.schema ctx'.schema recur recur')
include h hrec

/-- **A shape and the renamed one** have the same outcome. -/
theorem satisfiesShape_renamed {x x' : Shape} (hx : x ∈ ctx.schema.allShapes)
    (hx' : x' ∈ ctx'.schema.allShapes) (hclosed : x'.closed = x.closed)
    (hextra : x'.extra = x.extra) (hexpr : x'.expr = x.expr.rename ρ)
    (href : ∀ r ∈ (ShapeExpr.shape x).references, r ∈ ctx.schema.labels)
    (hst : st.Mirrors ρ ctx.schema ctx'.schema st') :
    SameOutcome (State.Mirrors ρ ctx.schema ctx'.schema) (satisfiesShape ctx recur node x st)
      (satisfiesShape ctx' recur' node x' st') := by
  obtain ⟨cache, hr, hcompiled⟩ := compiledShape_ready h.builds hx hst.ready
  obtain ⟨cache', hr', hcompiled'⟩ := compiledShape_ready h.builds' hx' hst.ready'
  have hstart := hst.with_cache hr hr'
  rw [hexpr, Schema.compile_rename h.tripleExprs] at hcompiled'
  rw [satisfiesShape_eq, satisfiesShape_eq, hcompiled, hcompiled', h.graph, h.limits, hclosed]
  cases hc : ctx.schema.compile x.expr with
  | error err => exact .error hstart
  | ok c =>
    have hcs : ∀ t ∈ c.constraints, ∀ l, t.valueLabel? = some l → l ∈ ctx.schema.labels :=
      fun t ht l hl => h.builds.mem_labels_of_valueLabel? href hc ht hl
    simp only [Except.map, Compiled.constraints_rename, Compiled.root_rename, List.isEmpty_map,
      List.length_map, matchedBy_rename, neighbourhood_rename]
    by_cases hnil : c.constraints.isEmpty = true
    · rw [if_pos hnil, if_pos hnil]
      exact .ok hstart
    rw [if_neg hnil, if_neg hnil]
    generalize neighbourhood ctx.graph c x.closed node = edges
    have hedges := decideEdges_renamed hrec hextra hcs edges hstart
    generalize decideEdges recur x _ _ _ = first at hedges
    generalize decideEdges recur' x' _ _ _ = second at hedges
    obtain ⟨fit, st₁⟩ := first
    obtain ⟨fit', st₁'⟩ := second
    obtain ⟨hfit, hend⟩ := hedges
    obtain rfl : fit' = fit := hfit
    replace hend : st₁.Mirrors ρ ctx.schema ctx'.schema st₁' := hend
    cases fit' with
    | false => exact .ok hend
    | true =>
      simp only [hend.typing, assignableEdges_rename _ hextra]
      cases assignableEdges st₁.typing x c.constraints edges with
      | none => exact .ok hend
      | some assignable =>
        simp only
        cases searchBags ctx.limits.maxBags c.root
            (.ofCandidates (assignable.map (·.2)) c.constraints.length) with
        | found b => exact .ok hend
        | notFound => exact .ok hend
        | tooMany max => exact .error hend

omit h hrec

mutual
/-- **An expression and the renamed one** have the same outcome, whatever numbers their shapes
have. -/
theorem satisfies_renamed (h : Context.Renamed ρ d d' ctx ctx')
    (hrec : Decider.Mirrors ρ ctx.schema ctx'.schema recur recur') :
    (e : ShapeExpr) → {j k : ℕ} → {st st' : State} →
    (∀ r ∈ e.references, r ∈ ctx.schema.labels) →
    (∀ x ∈ (ShapeExpr.number j e).1.shapes, x ∈ ctx.schema.allShapes) →
    (∀ x ∈ (ShapeExpr.number k (e.rename ρ)).1.shapes, x ∈ ctx'.schema.allShapes) →
    st.Mirrors ρ ctx.schema ctx'.schema st' →
    SameOutcome (State.Mirrors ρ ctx.schema ctx'.schema)
      (satisfies ctx recur node (ShapeExpr.number j e).1 st)
      (satisfies ctx' recur' node (ShapeExpr.number k (e.rename ρ)).1 st')
  | .and es, _, _, _, _, href, hx, hx', hst => by
    rw [ShapeExpr.rename, ShapeExpr.number, ShapeExpr.number, satisfies, satisfies]
    exact satisfiesAll_renamed h hrec es href hx hx' hst
  | .or es, _, _, _, _, href, hx, hx', hst => by
    rw [ShapeExpr.rename, ShapeExpr.number, ShapeExpr.number, satisfies, satisfies]
    exact satisfiesAny_renamed h hrec es href hx hx' hst
  | .not e, j, k, st, st', href, hx, hx', hst => by
    rw [ShapeExpr.rename, ShapeExpr.number, ShapeExpr.number, satisfies_not, satisfies_not]
    have hsame := satisfies_renamed h hrec e (j := j) (k := k) href hx hx' hst
    generalize satisfies ctx recur node _ st = first at hsame ⊢
    generalize satisfies ctx' recur' node _ st' = second at hsame ⊢
    cases hsame with
    | error hend => exact .error hend
    | @ok r _ _ hend => cases r <;> exact .ok hend
  | .node c, _, _, _, _, _, _, _, hst => by
    rw [ShapeExpr.rename, ShapeExpr.number, ShapeExpr.number, satisfies_node, satisfies_node,
      h.limits]
    cases c.holds? ctx.limits node with
    | error err => exact .error hst
    | ok b => cases b <;> exact .ok hst
  | .shape ⟨_, _, _, _⟩, _, _, _, _, href, hx, hx', hst => by
    rw [ShapeExpr.rename, ShapeExpr.number, ShapeExpr.number, satisfies, satisfies]
    exact satisfiesShape_renamed h hrec (hx _ List.mem_cons_self) (hx' _ List.mem_cons_self) rfl rfl
      rfl href hst
  | .external, _, _, _, _, _, _, _, hst => by
    rw [ShapeExpr.rename, ShapeExpr.number, ShapeExpr.number, satisfies, satisfies]
    exact .error hst
  | .ref l, _, _, st, st', href, _, _, hst => by
    rw [ShapeExpr.rename, ShapeExpr.number, ShapeExpr.number, satisfies_ref, satisfies_ref]
    obtain ⟨hanswer, hend⟩ := hrec ⟨node, l⟩ st st' (href l List.mem_cons_self) hst
    rw [← hanswer]
    exact .ok hend

theorem satisfiesAll_renamed (h : Context.Renamed ρ d d' ctx ctx')
    (hrec : Decider.Mirrors ρ ctx.schema ctx'.schema recur recur') :
    (es : List ShapeExpr) → {j k : ℕ} → {st st' : State} →
    (∀ r ∈ ShapeExpr.referencesOfList es, r ∈ ctx.schema.labels) →
    (∀ x ∈ ShapeExpr.shapesOfList (ShapeExpr.numberList j es).1, x ∈ ctx.schema.allShapes) →
    (∀ x ∈ ShapeExpr.shapesOfList (ShapeExpr.numberList k (ShapeExpr.renameList ρ es)).1,
      x ∈ ctx'.schema.allShapes) →
    st.Mirrors ρ ctx.schema ctx'.schema st' →
    SameOutcome (State.Mirrors ρ ctx.schema ctx'.schema)
      (satisfiesAll ctx recur node (ShapeExpr.numberList j es).1 st)
      (satisfiesAll ctx' recur' node (ShapeExpr.numberList k (ShapeExpr.renameList ρ es)).1 st')
  | [], _, _, _, _, _, _, _, hst => .ok hst
  | e :: es, j, k, st, st', href, hx, hx', hst => by
    rw [ShapeExpr.referencesOfList, List.forall_mem_append] at href
    rw [ShapeExpr.numberList, ShapeExpr.shapesOfList, List.forall_mem_append] at hx
    rw [ShapeExpr.renameList, ShapeExpr.numberList, ShapeExpr.shapesOfList,
      List.forall_mem_append] at hx'
    rw [ShapeExpr.renameList, ShapeExpr.numberList, ShapeExpr.numberList, satisfiesAll_cons,
      satisfiesAll_cons]
    have hsame := satisfies_renamed h hrec e (j := j) (k := k) href.1 hx.1 hx'.1 hst
    generalize satisfies ctx recur node _ st = first at hsame ⊢
    generalize satisfies ctx' recur' node _ st' = second at hsame ⊢
    cases hsame with
    | error hend => exact .error hend
    | @ok r st₁ st₁' hmid =>
    cases r with
    | none => exact .ok hmid
    | some ms =>
      have hrest := satisfiesAll_renamed h hrec es href.2 hx.2 hx'.2 hmid
      simp only
      generalize satisfiesAll ctx recur node _ st₁ = first at hrest ⊢
      generalize satisfiesAll ctx' recur' node _ st₁' = second at hrest ⊢
      cases hrest with
      | error hend => exact .error hend
      | ok hend => exact .ok hend

theorem satisfiesAny_renamed (h : Context.Renamed ρ d d' ctx ctx')
    (hrec : Decider.Mirrors ρ ctx.schema ctx'.schema recur recur') :
    (es : List ShapeExpr) → {j k : ℕ} → {st st' : State} →
    (∀ r ∈ ShapeExpr.referencesOfList es, r ∈ ctx.schema.labels) →
    (∀ x ∈ ShapeExpr.shapesOfList (ShapeExpr.numberList j es).1, x ∈ ctx.schema.allShapes) →
    (∀ x ∈ ShapeExpr.shapesOfList (ShapeExpr.numberList k (ShapeExpr.renameList ρ es)).1,
      x ∈ ctx'.schema.allShapes) →
    st.Mirrors ρ ctx.schema ctx'.schema st' →
    SameOutcome (State.Mirrors ρ ctx.schema ctx'.schema)
      (satisfiesAny ctx recur node (ShapeExpr.numberList j es).1 st)
      (satisfiesAny ctx' recur' node (ShapeExpr.numberList k (ShapeExpr.renameList ρ es)).1 st')
  | [], _, _, _, _, _, _, _, hst => .ok hst
  | e :: es, j, k, st, st', href, hx, hx', hst => by
    rw [ShapeExpr.referencesOfList, List.forall_mem_append] at href
    rw [ShapeExpr.numberList, ShapeExpr.shapesOfList, List.forall_mem_append] at hx
    rw [ShapeExpr.renameList, ShapeExpr.numberList, ShapeExpr.shapesOfList,
      List.forall_mem_append] at hx'
    rw [ShapeExpr.renameList, ShapeExpr.numberList, ShapeExpr.numberList, satisfiesAny_cons,
      satisfiesAny_cons]
    have hsame := satisfies_renamed h hrec e (j := j) (k := k) href.1 hx.1 hx'.1 hst
    generalize satisfies ctx recur node _ st = first at hsame ⊢
    generalize satisfies ctx' recur' node _ st' = second at hsame ⊢
    cases hsame with
    | error hend => exact .error hend
    | @ok r st₁ st₁' hmid =>
    cases r with
    | some ms => exact .ok hmid
    | none => exact satisfiesAny_renamed h hrec es href.2 hx.2 hx'.2 hmid
end

end Evaluation

/-! ### Decisions -/

section Decisions

variable {ρ : Equiv.Perm Label} {d d' : Definitions} {ctx ctx' : Context} {recur recur' : Decider}
  {st st' : State}

namespace State.Mirrors

variable {s s' : Schema} (hst : st.Mirrors ρ s s' st')
include hst

/-- Both runs assume an association. -/
theorem «open» (a : Association) : (st.open a).Mirrors ρ s s' (st'.open (a.rename ρ)) := by
  refine ⟨?_, hst.errors, congrArg (· + 1) hst.depth, hst.ready.of_compiled_eq rfl,
    hst.ready'.of_compiled_eq rfl⟩
  rw [State.open, hst.typing]
  exact st.typing.hypothesize_rename ρ.injective a

/-- Both runs record an error. -/
theorem addError (err : ValidationError) : (st.addError err).Mirrors ρ s s' (st'.addError err) :=
  ⟨hst.typing, congrArg (· ++ [err]) hst.errors, hst.depth, hst.ready.of_compiled_eq rfl,
    hst.ready'.of_compiled_eq rfl⟩

/-- Both runs resolve an assumption. -/
theorem close (a : Association) (checkpoint : ℕ) (r : Option (List MatchedTriple)) :
    (st.close a checkpoint r).Mirrors ρ s s' (st'.close (a.rename ρ) checkpoint r) := by
  have hdepth := congrArg (· - 1) hst.depth
  cases r with
  | none =>
    refine ⟨?_, hst.errors, hdepth, hst.ready.of_compiled_eq rfl, hst.ready'.of_compiled_eq rfl⟩
    rw [State.close, hst.typing]
    exact st.typing.refute_rename ρ.injective a checkpoint
  | some ms =>
    refine ⟨?_, hst.errors, hdepth, hst.ready.of_compiled_eq rfl, hst.ready'.of_compiled_eq rfl⟩
    rw [State.close, hst.typing]
    exact st.typing.confirm_rename ρ.injective a ms

end State.Mirrors

variable (h : Context.Renamed ρ d d' ctx ctx')
include h

theorem evaluateDefinition_renamed (hrec : Decider.Mirrors ρ ctx.schema ctx'.schema recur recur')
    {a : Association} {e e' : ShapeExpr} (he : ctx.schema.shape? a.label = some e)
    (he' : ctx'.schema.shape? (ρ a.label) = some e')
    (hst : st.Mirrors ρ ctx.schema ctx'.schema st') :
    SameOutcome (State.Mirrors ρ ctx.schema ctx'.schema)
      (evaluateDefinition ctx recur a.node e st)
      (evaluateDefinition ctx' recur' a.node e' st') := by
  obtain ⟨e₀, j, k, hmem, rfl, hshape⟩ := h.shape?_eq he
  obtain rfl := Option.some.inj (he'.symm.trans hshape)
  rw [evaluateDefinition, evaluateDefinition, h.limits, hst.depth]
  cases ctx.limits.maxDepth.filter (· < st.depth) with
  | some max => exact .error hst
  | none =>
    exact satisfies_renamed h hrec e₀ (fun r hr => (h.builds.defined_of_shape hmem).1 hr)
      (fun x hx => Schema.mem_allShapes (mem_of_lookup_eq_some he) hx)
      (fun x hx => Schema.mem_allShapes (mem_of_lookup_eq_some he') hx) hst

/-- **One decision.** -/
theorem decideWith_renamed (hrec : Decider.Mirrors ρ ctx.schema ctx'.schema recur recur') :
    Decider.Mirrors ρ ctx.schema ctx'.schema (decideWith ctx recur) (decideWith ctx' recur') := by
  intro a st st' ha hst
  have hverdict : st'.typing.verdict? (a.rename ρ) = st.typing.verdict? a := by
    rw [hst.typing]
    exact st.typing.verdict?_rename ρ.injective a
  obtain ⟨e, he⟩ : ∃ e, ctx.schema.shape? a.label = some e := exists_lookup_of_mem_labels ha
  obtain ⟨_, _, _, -, -, he'⟩ := h.shape?_eq he
  have hcheckpoint : (st'.open (a.rename ρ)).typing.checkpoint = (st.open a).typing.checkpoint := by
    rw [(hst.open a).typing, Typing.checkpoint_rename]
  have heval := evaluateDefinition_renamed h hrec he he' (hst.open a)
  rw [decideWith, decideWith, hverdict]
  cases hv : st.typing.verdict? a with
  | some v => exact ⟨rfl, hst⟩
  | none =>
    simp only [he, Association.rename] at heval hcheckpoint ⊢
    rw [he']
    simp only [hcheckpoint]
    generalize evaluateDefinition ctx recur a.node e (st.open a) = first at heval ⊢
    generalize evaluateDefinition ctx' recur' a.node _ (st'.open _) = second at heval ⊢
    cases heval with
    | error hend => exact ⟨rfl, (hend.addError _).close a _ none⟩
    | ok hend => exact ⟨rfl, hend.close a _ _⟩

/-- **Decisions go in step**, however deep they are nested. -/
theorem decideWithin_renamed (n : ℕ) :
    Decider.Mirrors ρ ctx.schema ctx'.schema (decideWithin ctx n) (decideWithin ctx' n) := by
  induction n with
  | zero => exact fun a st st' _ hst => ⟨rfl, hst.addError _⟩
  | succ n ih => exact decideWith_renamed h ih

end Decisions

/-! ### Calls -/

/-- Two validators that go in step. -/
structure Validator.Mirrors (ρ : Equiv.Perm Label) (d d' : Definitions) (v v' : Validator) :
    Prop where
  context : Context.Renamed ρ d d' v.context v'.context
  state : State.Mirrors ρ v.context.schema v'.context.schema v.state v'.state

namespace Validator

variable {ρ : Equiv.Perm Label} {d d' : Definitions} {v v' : Validator} {a : Association}

/-- **A call** with a label that is not renamed has the same answer. -/
theorem validate_renamed (hv : v.Mirrors ρ d d' v') (ha : ρ a.label = a.label) :
    (v'.validate a).1 = (v.validate a).1 ∧ (v.validate a).2.Mirrors ρ d d' (v'.validate a).2 := by
  have hcontains : ∀ s : Schema, s.contains a.label = true ↔ a.label ∈ s.labels :=
    fun s => Schema.isSome_shape?_iff
  have hmem : a.label ∈ v'.context.schema.labels ↔ a.label ∈ v.context.schema.labels := by
    rw [← hv.context.mem_labels_iff, ha]
  unfold validate
  by_cases hl : a.label ∈ v.context.schema.labels
  · rw [if_pos ((hcontains _).2 hl), if_pos ((hcontains _).2 (hmem.2 hl))]
    have hstart : State.Mirrors ρ v.context.schema v'.context.schema
        { v.state with errors := [], depth := 0 } { v'.state with errors := [], depth := 0 } :=
      ⟨hv.state.typing, rfl, rfl, hv.state.ready.of_compiled_eq rfl,
        hv.state.ready'.of_compiled_eq rfl⟩
    have hdecide := decideWithin_renamed hv.context v.context.maxNesting a _ _ hl hstart
    rw [Association.rename, ha] at hdecide
    rw [hv.context.maxNesting_eq]
    dsimp only at hdecide ⊢
    generalize decideWithin v.context _ _ _ = first at hdecide ⊢
    generalize decideWithin v'.context _ _ _ = second at hdecide ⊢
    obtain ⟨hanswer, hend⟩ := hdecide
    refine ⟨?_, hv.context, ?_⟩
    · rw [hanswer, hend.errors]
    · exact ⟨(congrArg Typing.commit hend.typing).trans (Typing.commit_rename _), rfl, hend.depth,
        hend.ready.of_compiled_eq rfl, hend.ready'.of_compiled_eq rfl⟩
  · rw [if_neg (mt (hcontains _).1 hl), if_neg (mt (hcontains _).1 (mt hmem.1 hl))]
    exact ⟨rfl, hv⟩

/-- **Any calls** with labels that are not renamed have the same answers. -/
theorem run_renamed (hv : v.Mirrors ρ d d' v') {calls : List Association}
    (hcalls : ∀ a ∈ calls, ρ a.label = a.label) :
    (v'.run calls).1 = (v.run calls).1 ∧ (v.run calls).2.Mirrors ρ d d' (v'.run calls).2 := by
  induction calls generalizing v v' with
  | nil => exact ⟨rfl, hv⟩
  | cons a as ih =>
    rw [List.forall_mem_cons] at hcalls
    obtain ⟨hanswer, hnext⟩ := validate_renamed hv hcalls.1
    obtain ⟨hanswers, hend⟩ := ih hnext hcalls.2
    exact ⟨congrArg₂ List.cons hanswer hanswers, hend⟩

/-- New validators go in step. -/
theorem mirrors_new {s s' : Schema} (hb : d.Builds s) (hb' : d'.Builds s')
    (hto : d.hoist.RenamesTo ρ d'.hoist) (g : Graph) (limits : Limits) :
    (Validator.new s g limits).Mirrors ρ d d' (.new s' g limits) :=
  ⟨⟨hb, hb', hto, rfl, rfl⟩, ⟨rfl, rfl, rfl, ready_start hb, ready_start hb'⟩⟩

end Validator

end ShapeTyping
