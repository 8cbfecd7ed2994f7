import Mathlib
import ShapeTyping.Proofs.Schema.BuiltForm
import ShapeTyping.Proofs.Validation.Depth

/-!
# Integrity of runs

A build checks that references are defined and that no triple expression refers to itself, and it
numbers the shapes apart. A run that starts with a label of the schema never finds a label
undefined, an expression that cannot be expanded or a slot of the cache missing, and it never takes
what it remembers of one shape for another one.

* `Definitions.Builds.compile_ok`: each shape of a built schema can be compiled.
* `State.Exact`: each filled slot belongs to one shape and holds its compiled expression.
* `RegardsCache.performAll`, `ready_performAll`: what calls do to the cache.
* `ValidationError.Structural`: the errors that blame the schema.
* `Asked.not_structural`: no decision raises one.
* `validate_integrity`: neither does a call, and the cache stays exact.
-/

namespace ShapeTyping

/-! ### Shapes that can be compiled -/

mutual
theorem ShapeExpr.tripleReferences_eq_flatMap : (e : ShapeExpr) →
    e.tripleReferences = e.shapes.flatMap (·.expr.references)
  | .and es => ShapeExpr.tripleReferencesOfList_eq es
  | .or es => ShapeExpr.tripleReferencesOfList_eq es
  | .not e => ShapeExpr.tripleReferences_eq_flatMap e
  | .shape ⟨_, _, e, _⟩ => (List.append_nil e.references).symm
  | .node _ => rfl
  | .external => rfl
  | .ref _ => rfl

theorem ShapeExpr.tripleReferencesOfList_eq : (es : List ShapeExpr) →
    ShapeExpr.tripleReferencesOfList es = (shapesOfList es).flatMap (·.expr.references)
  | [] => rfl
  | e :: es => by
    rw [tripleReferencesOfList, shapesOfList, List.flatMap_append,
      ShapeExpr.tripleReferences_eq_flatMap e, ShapeExpr.tripleReferencesOfList_eq es]
end

/-- **Each shape of a built schema can be compiled**: hoisting and numbering leave its references
among those that were checked. -/
theorem Definitions.Builds.compile_ok {d : Definitions} {s : Schema} (h : d.Builds s) {x : Shape}
    (hx : x ∈ s.allShapes) : ∃ c, s.compile x.expr = .ok c := by
  obtain ⟨⟨l, e⟩, hl, hx⟩ := List.mem_flatMap.1 hx
  obtain ⟨e₀, k, hl₀, rfl⟩ := h.mem_shapes hl
  have hexpr : x.expr ∈ e₀.shapes.map (·.expr) :=
    ShapeExpr.map_expr_number k e₀ ▸ List.mem_map_of_mem hx
  obtain ⟨y, hy, hyx⟩ := List.mem_map.1 hexpr
  have hdefined : ∀ r ∈ x.expr.references, r ∈ s.tripleExprs.map (·.1) := by
    intro r hr
    refine (h.defined_of_shape hl₀).2 ?_
    rw [ShapeExpr.tripleReferences_eq_flatMap]
    exact List.mem_flatMap.2 ⟨y, hy, hyx ▸ hr⟩
  obtain ⟨z, hz⟩ := h.expand_ok hdefined
  exact ⟨z.compile, by rw [Schema.compile, hz, Except.map]⟩

/-! ### The cache of a run -/

/-- Whether each filled slot of the cache belongs to exactly one shape of the schema and holds its
compiled expression. -/
def State.Exact (s : Schema) (st : State) : Prop :=
  ∀ i c, st.compiled[i]? = some (some c) →
    ∃ x ∈ s.allShapes, x.index = i ∧ (∀ y ∈ s.allShapes, y.index = i → y = x) ∧
      s.compile x.expr = .ok c

/-- **A slot belongs to one shape**, since shapes have the numbers below their count, each once. -/
theorem State.Tabulated.exact {d : Definitions} {s : Schema} (h : d.Builds s) {st : State}
    (hst : st.Tabulated s) : st.Exact s := by
  intro i c hi
  have hlt : i < s.shapeCount := hst.length ▸ (List.getElem?_eq_some_iff.1 hi).1
  have hindex : i ∈ s.allShapes.map (·.index) := by
    rw [h.map_index_allShapes]
    exact List.mem_range.2 hlt
  obtain ⟨x, hx, rfl⟩ := List.mem_map.1 hindex
  exact ⟨x, hx, rfl, fun y hy hyx => h.shape_eq_of_index_eq hy hx hyx, hst.cached x hx c hi⟩

section Calls

variable {R : State → State → Prop} {v : Validator} (hR : RegardsCache v.context R)
include hR

/-- A call respects what regards the cache only: a formula is evaluated over the facts, and a reset
keeps the compiled expressions. -/
theorem RegardsCache.perform (c : Call) :
    (v.perform c).2.context = v.context ∧ R v.state (v.perform c).2.state := by
  cases c with
  | validate a =>
    simp only [Validator.perform, Prod.map_snd, id, Validator.validate]
    split
    · have hstart : R v.state v.start := hR.same rfl
      have hdecision := (hR.respects v.context.maxNesting).decision a v.start
      exact ⟨rfl, hR.trans hstart (hR.trans hdecision (hR.same rfl))⟩
    · exact ⟨rfl, hR.same rfl⟩
  | evaluate f candidates => exact ⟨rfl, hR.same rfl⟩
  | reset => exact ⟨rfl, hR.same rfl⟩

/-- **Calls respect what regards the cache only.** -/
theorem RegardsCache.performAll (calls : List Call) :
    (v.performAll calls).2.context = v.context ∧ R v.state (v.performAll calls).2.state := by
  induction calls generalizing v with
  | nil => exact ⟨rfl, hR.same rfl⟩
  | cons c cs ih =>
    obtain ⟨hctx, hfirst⟩ := hR.perform c
    have hrest := @ih (v.perform c).2 (by rwa [hctx])
    exact ⟨hrest.1.trans hctx, hR.trans hfirst hrest.2⟩

end Calls

/-- **Whatever has been asked** of a validator of a built schema, each shape has its slot, with
nothing but its compiled expression in it. -/
theorem ready_performAll {d : Definitions} {s : Schema} (h : d.Builds s) (g : Graph)
    (limits : Limits) (calls : List Call) :
    ((Validator.new s g limits).performAll calls).2.state.Ready s := by
  have hcalls :=
    @RegardsCache.performAll _ (Validator.new s g limits) (regardsCache_tabulated h) calls
  exact (hcalls.2 (tabulated_start s)).ready h

/-! ### Errors that blame the schema -/

/-- The errors of a label that is not defined and of a breach of what the schema guarantees. -/
def ValidationError.Structural : ValidationError → Prop
  | .unknownShape _ => True
  | .fault _ => True
  | _ => False

theorem ValidationError.Local.not_structural {err : ValidationError} (h : err.Local) :
    ¬err.Structural := by
  cases err with
  | unknownShape l => exact h.elim
  | fault f => exact h.elim
  | _ => exact id

section Decisions

variable {d : Definitions} {ctx : Context}

/-- Compiling the shapes of a built schema raises nothing. -/
theorem not_raisedByCompiling (hb : d.Builds ctx.schema) {l : Label} {e : ShapeExpr}
    (he : ctx.schema.shape? l = some e) {err : ValidationError} :
    ¬RaisedByCompiling ctx (·.Tabulated ctx.schema) e.shapes err := by
  rintro ⟨x, hx, st, st', hst, hraise⟩
  have hmem : x ∈ ctx.schema.allShapes := Schema.mem_allShapes (mem_of_lookup_eq_some he) hx
  obtain ⟨c, hc⟩ := hb.compile_ok hmem
  obtain ⟨cache, -, hcompiled⟩ := compiledShape_ready hb hmem (hst.ready hb)
  rw [hcompiled, hc] at hraise
  cases hraise

/-- **No decision blames the schema**, by induction on the nested decisions: their labels are
defined, and the depth is the number of pending associations, which the stack bounds. -/
theorem Asked.not_structural (hb : d.Builds ctx.schema) {focus : Term} {n : ℕ}
    {pending : List Association} {a : Association} {st : State} (h : Asked ctx focus pending a st)
    (hl : a.label ∈ ctx.schema.labels) (hst : st.Tabulated ctx.schema)
    (hn : ctx.schema.maxPending ctx.graph focus < n + pending.length) {err : ValidationError}
    (hraises : Raises ctx n a st err) : ¬err.Structural := by
  have hkept := regardsCache_tabulated hb
  induction hraises generalizing pending with
  | exhausted =>
    have hlen := h.stack.length_le_maxPending
    omega
  | undefined ha hundefined =>
    obtain ⟨e, he⟩ := shape?_eq_some hl
    rw [he] at hundefined
    cases hundefined
  | @failed n a st st' e err ha he hev =>
    have hopen : (st.open a).Tabulated ctx.schema := ⟨hst.cached, hst.length⟩
    rcases error_of_evaluateDefinition (hkept.respects n) (hkept.compile he) hopen hev with
      (hlocal | hcompiling) | ⟨cap, rfl, -⟩
    · exact hlocal.not_structural
    · exact absurd hcompiling (not_raisedByCompiling hb he)
    · exact id
  | nested hr _ ih =>
    refine ih (h.nested hb hr) (h.callable hb hr).2.1 (hkept.of_mem_requests hr hst) ?_
    rw [List.length_cons]
    omega

end Decisions

/-- **No call on a label of the schema blames it**: neither the decisions that it asks for nor its
answer. -/
theorem Validator.Quiet.not_structural {d : Definitions} {v : Validator}
    (hb : d.Builds v.context.schema) (hv : v.Quiet) (htab : v.state.Tabulated v.context.schema)
    {a : Association} (hl : a.label ∈ v.context.schema.labels) (err : ValidationError) :
    (Raises v.context v.context.maxNesting a v.start err → ¬err.Structural) ∧
      (err ∈ (decideWithin v.context v.context.maxNesting a v.start).2.errors →
        ¬err.Structural) ∧
      ((v.validate a).1 = .error err → ¬err.Structural) := by
  have hstart : v.start.Tabulated v.context.schema := ⟨htab.cached, htab.length⟩
  have hraised : Raises v.context v.context.maxNesting a v.start err → ¬err.Structural :=
    (hv.asked a).not_structural hb hl hstart (Context.maxPending_lt v.context a.node)
  have hrecorded : err ∈ (decideWithin v.context v.context.maxNesting a v.start).2.errors →
      ¬err.Structural := by
    intro hmem
    rcases raises_of_mem_errors hmem with hbefore | hraises
    · cases hbefore
    · exact hraised hraises
  exact ⟨hraised, hrecorded, fun hans => hrecorded (mem_errors_of_defined hl hans)⟩

/-- **Built schemas do not break a run.** Whatever was asked of a validator of a built schema
before, a call on a label of the schema raises no error that blames the schema at any depth, records
none and answers with none. Before the call, and at each change during any call, a filled slot of
the cache belongs to exactly one shape and holds its compiled expression. -/
theorem validate_integrity {d : Definitions} {s : Schema} (h : d.build = .ok s) (g : Graph)
    (limits : Limits) (before : List Call) :
    let v := ((Validator.new s g limits).performAll before).2
    v.state.Exact s ∧ ∀ a : Association,
      (∀ m ∈ v.history a, m.state.Exact s) ∧
      (a.label ∈ s.labels → ∀ err : ValidationError,
        (Raises v.context v.context.maxNesting a v.start err → ¬err.Structural) ∧
        (err ∈ (decideWithin v.context v.context.maxNesting a v.start).2.errors →
          ¬err.Structural) ∧
        ((v.validate a).1 = .error err → ¬err.Structural)) := by
  intro v
  have hbuilds := Definitions.builds_of_build h
  obtain ⟨hctx, hstate⟩ :=
    @RegardsCache.performAll _ (Validator.new s g limits) (regardsCache_tabulated hbuilds) before
  have hquiet : v.Quiet := (performAll_quiet hbuilds (quiet_new s g limits) before).2
  have htab : v.state.Tabulated s := hstate (tabulated_start s)
  have hschema : v.context.schema = s := congrArg Context.schema hctx
  have hbuilds' : d.Builds v.context.schema := by rwa [hschema]
  have htab' : v.state.Tabulated v.context.schema := by rwa [hschema]
  refine ⟨htab.exact hbuilds, fun a => ⟨fun m hm => ?_, fun hl => ?_⟩⟩
  · have hstart : v.start.Tabulated v.context.schema := ⟨htab'.cached, htab'.length⟩
    have hm' := (regardsCache_tabulated hbuilds').of_mem_history hm hstart
    rw [hschema] at hm'
    exact hm'.exact hbuilds
  · exact hquiet.not_structural hbuilds' htab' (by rwa [hschema])

/-- Nodes whose edges are described under a label of their own, with a condition on their ends, and
a shape that is external. -/
def describedApart : Definitions where
  shapes := [
    (.iri ⟨"urn:S"⟩, .shape ⟨false, [], .ref (.iri ⟨"urn:T"⟩), 0⟩),
    (.iri ⟨"urn:E"⟩, .external)]
  tripleExprs := [(.iri ⟨"urn:T"⟩, .constraint ⟨⟨"urn:p"⟩, some (.shape ⟨true, [],
    .constraint ⟨⟨"urn:q"⟩, none, .star, false, none⟩, 0⟩), .star, false, none⟩)]
  start := none

/-- The slots of both shapes are filled by a call, after one on a label that is not defined, and the
next call returns an error that does not blame the schema. -/
theorem validate_integrity_describedApart :
    ∃ s, describedApart.build = .ok s ∧ s.allShapes.map (·.index) = [0, 1] ∧
      ∃ v, v = ((Validator.new s oneEdge .standard).performAll
          [.validate ⟨.iri ⟨"urn:n"⟩, .iri ⟨"urn:X"⟩⟩,
            .validate ⟨.iri ⟨"urn:n"⟩, .iri ⟨"urn:S"⟩⟩]).2 ∧
        v.state.compiled.map (·.isSome) = [true, true] ∧ v.state.Exact s ∧
        (v.validate ⟨.iri ⟨"urn:n"⟩, .iri ⟨"urn:E"⟩⟩).1 = .error .externalShape ∧
        ¬ValidationError.externalShape.Structural := by
  have hbuild : describedApart.build = .ok
      { shapes := [
          (.iri ⟨"urn:S"⟩, .shape ⟨false, [], .ref (.iri ⟨"urn:T"⟩), 0⟩),
          (.iri ⟨"urn:E"⟩, .external),
          (.blank "gen#0", .shape ⟨true, [],
            .constraint ⟨⟨"urn:q"⟩, none, .star, false, none⟩, 1⟩)]
        tripleExprs := [(.iri ⟨"urn:T"⟩, .constraint ⟨⟨"urn:p"⟩, some (.ref (.blank "gen#0")),
          .star, false, none⟩)]
        start := none, shapeCount := 2
        strata := [[.blank "gen#0"], [.iri ⟨"urn:S"⟩], [.iri ⟨"urn:E"⟩]] } := by cbv
  obtain ⟨hexact, hcalls⟩ := validate_integrity hbuild oneEdge .standard
    [.validate ⟨.iri ⟨"urn:n"⟩, .iri ⟨"urn:X"⟩⟩, .validate ⟨.iri ⟨"urn:n"⟩, .iri ⟨"urn:S"⟩⟩]
  have hanswer := ((hcalls ⟨.iri ⟨"urn:n"⟩, .iri ⟨"urn:E"⟩⟩).2 (by decide) .externalShape).2.2
  exact ⟨_, hbuild, by cbv, _, rfl, by cbv, hexact, by cbv, hanswer (by cbv)⟩

end ShapeTyping
