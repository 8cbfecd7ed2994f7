import Mathlib
import ShapeTyping.Proofs.Schema.BuiltForm
import ShapeTyping.Proofs.Validation.Depth
import ShapeTyping.Proofs.Validation.RenamedRun

/-!
# Lookups of verdicts

After the edges of a node have been gone through, the candidates of each edge are read from the
typing. Nested decisions may have failed in between and rolled back what they assumed, but what is
looked up then was decided before them or by them, so that it has a verdict.

* `evaluations`: the shapes that the evaluation of an expression looks at, with their states.
* `lookupsWithin`, `Validator.lookups`: where candidates are read in a decision and in a call.
* `satisfiesShape_of_mem_shapeLookups`: what a shape evaluates to from there on.
* `traceExpr_lookups`, `Validator.lookups_perm`: the lookups of an expression and of a call are those
  that the traced evaluation records.
* `Asked.lookups_decided`: a decision finds all verdicts that it looks up.
* `performAll_lookups_decided`: so does every call of a validator.
-/

namespace ShapeTyping

/-! ### Shapes that are evaluated -/

section Evaluations

variable (ctx : Context) (recur : Decider) (node : Term)

mutual
/-- The shapes that the evaluation of an expression looks at, in order, with the states in which it
does. -/
def evaluations : ShapeExpr → State → List (Shape × State)
  | .and es, st => evaluationsOfAll es st
  | .or es, st => evaluationsOfAny es st
  | .not e, st => evaluations e st
  | .node _, _ => []
  | .shape x, st => [(x, st)]
  | .external, _ => []
  | .ref _, _ => []

def evaluationsOfAll : List ShapeExpr → State → List (Shape × State)
  | [], _ => []
  | e :: es, st =>
    evaluations e st ++
      match satisfies ctx recur node e st with
      | .ok (some _) st => evaluationsOfAll es st
      | _ => []

def evaluationsOfAny : List ShapeExpr → State → List (Shape × State)
  | [], _ => []
  | e :: es, st =>
    evaluations e st ++
      match satisfies ctx recur node e st with
      | .ok none st => evaluationsOfAny es st
      | _ => []
end

end Evaluations

section Evaluations

variable {ctx : Context} {recur : Decider} {node : Term} {R : State → State → Prop}
  (hR : recur.Respects R)
include hR

mutual
/-- **The shapes that are evaluated** are shapes of the expression, and a relation that nested
decisions and the cache respect holds until then. -/
theorem evaluations_rel : (e : ShapeExpr) →
    (∀ x ∈ e.shapes, ∀ st, R st (finalState (compiledShape ctx x st))) → {st : State} →
    {p : Shape × State} → p ∈ evaluations ctx recur node e st → p.1 ∈ e.shapes ∧ R st p.2
  | .and es, hcache, st, p, hp => by
    rw [evaluations] at hp
    exact evaluationsOfAll_rel es hcache hp
  | .or es, hcache, st, p, hp => by
    rw [evaluations] at hp
    exact evaluationsOfAny_rel es hcache hp
  | .not e, hcache, st, p, hp => by
    rw [evaluations] at hp
    exact evaluations_rel e hcache hp
  | .node _, _, st, p, hp => by
    rw [evaluations] at hp
    cases hp
  | .shape x, _, st, p, hp => by
    rw [evaluations] at hp
    obtain rfl := List.mem_singleton.1 hp
    exact ⟨List.mem_singleton.2 rfl, hR.refl st⟩
  | .external, _, st, p, hp => by
    rw [evaluations] at hp
    cases hp
  | .ref _, _, st, p, hp => by
    rw [evaluations] at hp
    cases hp

theorem evaluationsOfAll_rel : (es : List ShapeExpr) →
    (∀ x ∈ ShapeExpr.shapesOfList es, ∀ st, R st (finalState (compiledShape ctx x st))) →
    {st : State} → {p : Shape × State} → p ∈ evaluationsOfAll ctx recur node es st →
      p.1 ∈ ShapeExpr.shapesOfList es ∧ R st p.2
  | [], _, st, p, hp => by
    rw [evaluationsOfAll] at hp
    cases hp
  | e :: es, hcache, st, p, hp => by
    have hfirst := fun x hx => hcache x (List.mem_append_left _ hx)
    rw [evaluationsOfAll] at hp
    rcases List.mem_append.1 hp with hp | hp
    · exact (evaluations_rel e hfirst hp).imp_left (List.mem_append_left _)
    · have hrel : R st (finalState (satisfies ctx recur node e st)) := satisfies_rel hR e hfirst st
      split at hp
      · rename_i ms st' hev
        rw [hev] at hrel
        obtain ⟨hmem, hrest⟩ := evaluationsOfAll_rel es
          (fun x hx => hcache x (List.mem_append_right _ hx)) hp
        exact ⟨List.mem_append_right _ hmem, hR.trans hrel hrest⟩
      · cases hp

theorem evaluationsOfAny_rel : (es : List ShapeExpr) →
    (∀ x ∈ ShapeExpr.shapesOfList es, ∀ st, R st (finalState (compiledShape ctx x st))) →
    {st : State} → {p : Shape × State} → p ∈ evaluationsOfAny ctx recur node es st →
      p.1 ∈ ShapeExpr.shapesOfList es ∧ R st p.2
  | [], _, st, p, hp => by
    rw [evaluationsOfAny] at hp
    cases hp
  | e :: es, hcache, st, p, hp => by
    have hfirst := fun x hx => hcache x (List.mem_append_left _ hx)
    rw [evaluationsOfAny] at hp
    rcases List.mem_append.1 hp with hp | hp
    · exact (evaluations_rel e hfirst hp).imp_left (List.mem_append_left _)
    · have hrel : R st (finalState (satisfies ctx recur node e st)) := satisfies_rel hR e hfirst st
      split at hp
      · rename_i st' hev
        rw [hev] at hrel
        obtain ⟨hmem, hrest⟩ := evaluationsOfAny_rel es
          (fun x hx => hcache x (List.mem_append_right _ hx)) hp
        exact ⟨List.mem_append_right _ hmem, hR.trans hrel hrest⟩
      · cases hp
end

end Evaluations

theorem ShapeExpr.references_shape (x : Shape) :
    (ShapeExpr.shape x).references = x.expr.valueReferences := by
  obtain ⟨_, _, _, _⟩ := x
  rfl

mutual
/-- A shape of an expression refers to nothing else than the expression. -/
theorem ShapeExpr.references_subset_of_mem_shapes {x : Shape} : (e : ShapeExpr) → x ∈ e.shapes →
    (ShapeExpr.shape x).references ⊆ e.references
  | .and es, hx => by
    rw [ShapeExpr.references]
    exact ShapeExpr.references_subset_of_mem_shapesOfList es hx
  | .or es, hx => by
    rw [ShapeExpr.references]
    exact ShapeExpr.references_subset_of_mem_shapesOfList es hx
  | .not e, hx => by
    rw [ShapeExpr.references]
    exact ShapeExpr.references_subset_of_mem_shapes e hx
  | .node _, hx => by cases hx
  | .shape y, hx => by
    obtain rfl := List.mem_singleton.1 hx
    exact List.Subset.refl _
  | .external, hx => by cases hx
  | .ref _, hx => by cases hx

theorem ShapeExpr.references_subset_of_mem_shapesOfList {x : Shape} : (es : List ShapeExpr) →
    x ∈ ShapeExpr.shapesOfList es →
      (ShapeExpr.shape x).references ⊆ ShapeExpr.referencesOfList es
  | [], hx => by cases hx
  | e :: es, hx => by
    rw [ShapeExpr.referencesOfList]
    rcases List.mem_append.1 hx with hx | hx
    · exact List.subset_append_of_subset_left _ (references_subset_of_mem_shapes e hx)
    · exact List.subset_append_of_subset_right _ (references_subset_of_mem_shapesOfList es hx)
end

/-- The shapes of a built schema refer to its labels. -/
theorem Definitions.Builds.mem_labels_of_mem_references {d : Definitions} {s : Schema}
    (h : d.Builds s) {x : Shape} (hx : x ∈ s.allShapes) {r : Label}
    (hr : r ∈ (ShapeExpr.shape x).references) : r ∈ s.labels := by
  obtain ⟨⟨l, e⟩, hl, hx⟩ := List.mem_flatMap.1 hx
  obtain ⟨e₀, k, hl₀, rfl⟩ := h.mem_shapes hl
  -- the numbers of shapes do not matter for what they refer to
  have hexpr : x.expr ∈ e₀.shapes.map (·.expr) :=
    ShapeExpr.map_expr_number k e₀ ▸ List.mem_map_of_mem hx
  obtain ⟨y, hy, hyx⟩ := List.mem_map.1 hexpr
  refine (h.defined_of_shape hl₀).1 (e₀.references_subset_of_mem_shapes hy ?_)
  rw [ShapeExpr.references_shape] at hr ⊢
  rwa [hyx]

/-! ### Lookups -/

/-- The edges whose candidates are read. -/
def Lookup.edges (p : Lookup) (g : Graph) : List Edge :=
  neighbourhood g p.compiled p.shape.closed p.node

/-- Whether each value that an edge might need, going by its predicate and its direction, has a
verdict. -/
def Lookup.Decided (p : Lookup) (g : Graph) : Prop :=
  ∀ e ∈ p.edges g, ∀ c ∈ p.compiled.constraints, c.matchesEdge e = true →
    ∀ l, c.valueLabel? = some l → p.state.typing.verdict? ⟨e.other, l⟩ ≠ none

section Lookups

variable (ctx : Context)

/-- The lookup of a shape: candidates are read unless its expression has no constraint or an edge
has been found that fits none. -/
def shapeLookups (recur : Decider) (node : Term) (x : Shape) (st : State) : List Lookup :=
  match compiledShape ctx x st with
  | .error _ _ => []
  | .ok c st =>
    if c.constraints.isEmpty then []
    else
      match decideEdges recur x c.constraints (neighbourhood ctx.graph c x.closed node) st with
      | (false, _) => []
      | (true, st) => [⟨node, x, c, st⟩]

/-- The lookups of the shapes of a definition, without those of nested decisions. -/
def definitionLookups (recur : Decider) (node : Term) (e : ShapeExpr) (st : State) : List Lookup :=
  match ctx.limits.maxDepth.filter (· < st.depth) with
  | some _ => []
  | none => (evaluations ctx recur node e st).flatMap fun p => shapeLookups ctx recur node p.1 p.2

/-- The lookups of a decision: those of nested decisions, and its own. -/
def lookupsWithin : ℕ → Association → State → List Lookup
  | 0, _, _ => []
  | n + 1, a, st =>
    match st.typing.verdict? a with
    | some _ => []
    | none =>
      match ctx.schema.shape? a.label with
      | none => []
      | some e =>
        ((decisionRequests ctx (decideWithin ctx n) a st).flatMap fun r =>
          lookupsWithin n r.target r.state) ++
        definitionLookups ctx (decideWithin ctx n) a.node e (st.open a)

end Lookups

/-- The lookups of a call. -/
def Validator.lookups (v : Validator) (a : Association) : List Lookup :=
  lookupsWithin v.context v.context.maxNesting a v.start

section Shapes

variable {d : Definitions} {ctx : Context} {recur : Decider} {node : Term} {x : Shape} {st : State}
  {p : Lookup}

/-- What is known at the lookup of a shape. -/
theorem of_mem_shapeLookups (hp : p ∈ shapeLookups ctx recur node x st) :
    p.node = node ∧ p.shape = x ∧ p.compiled.constraints ≠ [] ∧
      ∃ st', compiledShape ctx x st = .ok p.compiled st' ∧
        decideEdges recur x p.compiled.constraints (p.edges ctx.graph) st' = (true, p.state) := by
  rw [shapeLookups] at hp
  cases hc : compiledShape ctx x st with
  | error err st' => simp [hc] at hp
  | ok c st' =>
  simp only [hc] at hp
  split at hp
  · cases hp
  rename_i hne
  rcases hd : decideEdges recur x c.constraints (neighbourhood ctx.graph c x.closed node) st' with
    ⟨_ | _, st''⟩
  · simp [hd] at hp
  · rw [hd] at hp
    obtain rfl := List.mem_singleton.1 hp
    exact ⟨rfl, rfl, by simpa using hne, st', rfl, hd⟩

/-- **From its lookup on** a shape depends on the typing at the lookup only, which stays as it is.
-/
theorem satisfiesShape_of_mem_shapeLookups (hp : p ∈ shapeLookups ctx recur node x st) :
    satisfiesShape ctx recur node x st =
      match assignableEdges p.state.typing x p.compiled.constraints (p.edges ctx.graph) with
      | none => .ok none p.state
      | some assignable =>
        match searchBags ctx.limits.maxBags p.compiled.root
          (.ofCandidates (assignable.map (·.2)) p.compiled.constraints.length) with
        | .found b =>
          .ok (some (matchedBy p.compiled.constraints (assignable.map (·.1)) b)) p.state
        | .notFound => .ok none p.state
        | .tooMany max => .error (.bagLimit node max) p.state := by
  obtain ⟨rfl, rfl, hne, st', hc, hd⟩ := of_mem_shapeLookups hp
  rw [satisfiesShape_eq, hc]
  simp only [List.isEmpty_iff, hne, if_false]
  rw [Lookup.edges] at hd
  simp only [hd]
  rfl

/-- **A shape finds all verdicts that it looks up**, if nested decisions on defined labels end with
a verdict. What one of them rolls back has been assumed by it. -/
theorem shapeLookups_decided (hb : d.Builds ctx.schema) (hx : x ∈ ctx.schema.allShapes)
    (hR : recur.Respects State.Extends)
    (hverdict : ∀ b, b.label ∈ ctx.schema.labels → ∀ st, (recur b st).2.typing.verdict? b ≠ none)
    (hst : st.Cached ctx.schema) (hp : p ∈ shapeLookups ctx recur node x st) :
    p.Decided ctx.graph := by
  obtain ⟨-, -, -, st', hcompiled, hd⟩ := of_mem_shapeLookups hp
  obtain ⟨hc, -⟩ := compiledShape_ok hx hst hcompiled
  intro e he c hmem hm l hl
  refine decideEdges_decided hR (fun e _ c hmem l hl st _ => ?_) hd he hmem hm hl
  exact hverdict _ (hb.mem_labels_of_valueLabel? (fun r => hb.mem_labels_of_mem_references hx) hc
    hmem hl) st

end Shapes

/-! ### Lookups of a traced run -/

def Traced.lookups (t : Traced) : List Lookup := t.events.filterMap Event.lookup?

@[simp]
theorem Traced.lookups_emit (t : Traced) (es : List Event) :
    (t.emit es).lookups = t.lookups ++ es.filterMap Event.lookup? := List.filterMap_append

@[simp]
theorem Traced.lookups_withState (t : Traced) (st : State) :
    (t.withState st).lookups = t.lookups := rfl

/-- No reading of a verdict is a lookup. -/
theorem filterMap_matchingReads (reader : Association) (negative : Bool) (s : Shape)
    (cs : List TripleConstraint) (t : Typing) (es : List Edge) :
    (matchingReads reader negative s cs t es).filterMap Event.lookup? = [] := by
  rw [List.filterMap_eq_nil_iff]
  intro ev hev
  obtain ⟨e, -, hev⟩ := List.mem_flatMap.1 hev
  obtain ⟨c, -, hev⟩ := List.mem_filterMap.1 hev
  obtain ⟨l, -, rfl⟩ := Option.map_eq_some_iff.1 hev
  rfl

/-- The lookups of nested decisions, given those of a decision. -/
def nestedLookups (look : Association → State → List Lookup) (rs : List Request) : List Lookup :=
  rs.flatMap fun r => look r.target r.state

/-- Whether traced decisions record given lookups, in whatever order. -/
def TracedDecider.Records (recur' : TracedDecider) (look : Association → State → List Lookup) :
    Prop :=
  ∀ a t, (recur' a t).2.lookups.Perm (t.lookups ++ look a t.state)

section Traces

variable {ctx : Context} {recur' : TracedDecider} {recur : Decider} {reader : Association}
  {look : Association → State → List Lookup}

theorem nestedLookups_cons (r : Request) (rs : List Request) :
    nestedLookups look (r :: rs) = look r.target r.state ++ nestedLookups look rs :=
  List.flatMap_cons

theorem nestedLookups_append (rs rs' : List Request) :
    nestedLookups look (rs ++ rs') = nestedLookups look rs ++ nestedLookups look rs' :=
  List.flatMap_append

theorem traceValues_lookups (h : recur'.Erases recur) (hlook : recur'.Records look) (other : Term)
    (cs : List TripleConstraint) (t : Traced) :
    (traceValues recur' other cs t).lookups.Perm
      (t.lookups ++ nestedLookups look (valueRequests recur other cs t.state)) := by
  induction cs generalizing t with
  | nil => simp [traceValues, valueRequests, nestedLookups]
  | cons c cs ih =>
    rw [traceValues, valueRequests]
    cases c.valueLabel? with
    | none => exact ih t
    | some l =>
      simp only
      split
      · exact ih t
      · rw [nestedLookups_cons, ← List.append_assoc, ← h]
        exact (ih _).trans ((hlook ⟨other, l⟩ t).append_right _)

theorem traceEdges_lookups (h : recur'.Erases recur) (hlook : recur'.Records look) (s : Shape)
    (cs : List TripleConstraint) (es : List Edge) (t : Traced) :
    (traceEdges recur' s cs es t).2.lookups.Perm
      (t.lookups ++ nestedLookups look (edgeRequests recur s cs es t.state)) := by
  induction es generalizing t with
  | nil => simp [traceEdges, edgeRequests, nestedLookups]
  | cons e es ih =>
    rw [traceEdges, edgeRequests]
    split
    · split
      · exact ih t
      · simp [nestedLookups]
    · rw [nestedLookups_append, ← List.append_assoc, ← traceValues_erases h]
      exact (ih _).trans ((traceValues_lookups h hlook e.other _ t).append_right _)

/-- **A traced shape** records the lookups of nested decisions, and its own. -/
theorem traceShape_lookups (h : recur'.Erases recur) (hlook : recur'.Records look)
    (negative : Bool) (s : Shape) (t : Traced) :
    (finalState (traceShape ctx recur' reader negative s t)).lookups.Perm
      (t.lookups ++ (nestedLookups look (shapeRequests ctx recur reader.node s t.state) ++
        shapeLookups ctx recur reader.node s t.state)) := by
  rw [traceShape, shapeRequests, shapeLookups]
  cases compiledShape ctx s t.state with
  | error err st => simp [finalState, nestedLookups]
  | ok c st =>
    simp only
    split
    · simp [finalState, nestedLookups]
    generalize neighbourhood ctx.graph c s.closed reader.node = edges
    have herase := traceEdges_erases h s c.constraints edges (t.withState st)
    have hedges := traceEdges_lookups h hlook s c.constraints edges (t.withState st)
    rw [Traced.lookups_withState] at hedges
    rw [Traced.withState] at herase hedges ⊢
    simp only at herase hedges
    rw [← herase]
    generalize traceEdges recur' s c.constraints edges { t with state := st } = result at hedges ⊢
    obtain ⟨fit, t'⟩ := result
    cases fit with
    | false => simpa [finalState] using hedges
    | true =>
      -- of what is emitted only the first event is a lookup
      have hown : (t'.emit (.lookup ⟨reader.node, s, c, t'.state⟩ ::
          matchingReads reader negative s c.constraints t'.state.typing edges)).lookups =
          t'.lookups ++ [⟨reader.node, s, c, t'.state⟩] := by
        rw [Traced.lookups_emit, List.filterMap_cons, filterMap_matchingReads]
        rfl
      have hend := hedges.append_right [⟨reader.node, s, c, t'.state⟩]
      rw [← hown, List.append_assoc] at hend
      simp only
      split
      · exact hend
      · split <;> exact hend

/-- Two steps that each add two parts add the first parts and the second parts of both. -/
theorem perm_of_two_steps {ps ps' ps'' as as' bs bs' : List Lookup}
    (h : ps'.Perm (ps ++ (as ++ bs))) (h' : ps''.Perm (ps' ++ (as' ++ bs'))) :
    ps''.Perm (ps ++ ((as ++ as') ++ (bs ++ bs'))) := by
  refine h'.trans ((h.append_right _).trans ?_)
  -- the second part of the first step and the first part of the second one change places
  simp only [List.append_assoc]
  exact ((List.perm_append_comm_assoc bs as' bs').append_left as).append_left ps

mutual
/-- **A traced expression** records the lookups of nested decisions, and those of the shapes that
are evaluated. -/
theorem traceExpr_lookups (h : recur'.Erases recur) (hlook : recur'.Records look) :
    (negative : Bool) → (e : ShapeExpr) → (t : Traced) →
    (finalState (traceExpr ctx recur' reader negative e t)).lookups.Perm
      (t.lookups ++ (nestedLookups look (requests ctx recur reader.node e t.state) ++
        (evaluations ctx recur reader.node e t.state).flatMap fun p =>
          shapeLookups ctx recur reader.node p.1 p.2))
  | negative, .and es, t => by
    rw [traceExpr, requests, evaluations]
    exact traceAll_lookups h hlook negative es t
  | negative, .or es, t => by
    rw [traceExpr, requests, evaluations]
    exact traceAny_lookups h hlook negative es t
  | negative, .not e, t => by
    have he := traceExpr_lookups h hlook true e t
    rw [traceExpr, requests, evaluations]
    beta_reduce
    revert he
    rcases traceExpr ctx recur' reader true e t with ⟨_ | ms, t'⟩ | ⟨err, t'⟩ <;> exact id
  | negative, .node c, t => by
    rw [traceExpr, requests, evaluations]
    beta_reduce
    split <;> simp [finalState, nestedLookups]
  | negative, .shape s, t => by
    rw [traceExpr, requests, evaluations, List.flatMap_singleton]
    exact traceShape_lookups h hlook negative s t
  | negative, .external, t => by
    rw [traceExpr, requests, evaluations]
    simp [finalState, nestedLookups]
  | negative, .ref l, t => by
    rw [traceExpr, requests, evaluations]
    simpa [finalState, nestedLookups, List.filterMap_cons, Event.lookup?] using
      hlook ⟨reader.node, l⟩ t

theorem traceAll_lookups (h : recur'.Erases recur) (hlook : recur'.Records look) :
    (negative : Bool) → (es : List ShapeExpr) → (t : Traced) →
    (finalState (traceAll ctx recur' reader negative es t)).lookups.Perm
      (t.lookups ++ (nestedLookups look (requestsOfAll ctx recur reader.node es t.state) ++
        (evaluationsOfAll ctx recur reader.node es t.state).flatMap fun p =>
          shapeLookups ctx recur reader.node p.1 p.2))
  | negative, [], t => by
    rw [traceAll, requestsOfAll, evaluationsOfAll]
    simp [finalState, nestedLookups]
  | negative, e :: es, t => by
    have he := traceExpr_lookups h hlook negative e t
    rw [traceAll, requestsOfAll, evaluationsOfAll, ← traceExpr_erases h negative e t]
    beta_reduce
    revert he
    rcases traceExpr ctx recur' reader negative e t with ⟨_ | ms, t'⟩ | ⟨err, t'⟩
    · intro he
      simpa [eraseResult] using he
    · intro he
      have hes := traceAll_lookups h hlook negative es t'
      simp only [eraseResult]
      rw [nestedLookups_append, List.flatMap_append]
      refine perm_of_two_steps he ?_
      revert hes
      rcases traceAll ctx recur' reader negative es t' with ⟨r, t''⟩ | ⟨err, t''⟩ <;> exact id
    · intro he
      simpa [eraseResult] using he

theorem traceAny_lookups (h : recur'.Erases recur) (hlook : recur'.Records look) :
    (negative : Bool) → (es : List ShapeExpr) → (t : Traced) →
    (finalState (traceAny ctx recur' reader negative es t)).lookups.Perm
      (t.lookups ++ (nestedLookups look (requestsOfAny ctx recur reader.node es t.state) ++
        (evaluationsOfAny ctx recur reader.node es t.state).flatMap fun p =>
          shapeLookups ctx recur reader.node p.1 p.2))
  | negative, [], t => by
    rw [traceAny, requestsOfAny, evaluationsOfAny]
    simp [finalState, nestedLookups]
  | negative, e :: es, t => by
    have he := traceExpr_lookups h hlook negative e t
    rw [traceAny, requestsOfAny, evaluationsOfAny, ← traceExpr_erases h negative e t]
    beta_reduce
    revert he
    rcases traceExpr ctx recur' reader negative e t with ⟨_ | ms, t'⟩ | ⟨err, t'⟩
    · intro he
      have hes := traceAny_lookups h hlook negative es t'
      simp only [eraseResult]
      rw [nestedLookups_append, List.flatMap_append]
      exact perm_of_two_steps he hes
    · intro he
      simpa [eraseResult] using he
    · intro he
      simpa [eraseResult] using he
end

theorem traceDefinition_lookups (h : recur'.Erases recur) (hlook : recur'.Records look)
    (e : ShapeExpr) (t : Traced) :
    (finalState (traceDefinition ctx recur' reader e t)).lookups.Perm
      (t.lookups ++ (nestedLookups look (definitionRequests ctx recur reader.node e t.state) ++
        definitionLookups ctx recur reader.node e t.state)) := by
  rw [traceDefinition, definitionRequests, definitionLookups]
  cases ctx.limits.maxDepth.filter (· < t.state.depth) with
  | some max => simp [finalState, nestedLookups]
  | none => exact traceExpr_lookups h hlook false e t

end Traces

/-- **A traced decision** records its lookups, by induction on the nested decisions. -/
theorem traceWithin_lookups (ctx : Context) (n : ℕ) (pending : List Association) :
    (traceWithin ctx n pending).Records (lookupsWithin ctx n) := by
  induction n generalizing pending with
  | zero =>
    intro a t
    simp [traceWithin, lookupsWithin]
  | succ n ih =>
    intro a t
    change (traceWith ctx (traceWithin ctx n (a :: pending)) pending a t).2.lookups.Perm _
    rw [traceWith, lookupsWithin]
    cases ha : t.state.typing.verdict? a with
    | some v => simp
    | none =>
    cases he : ctx.schema.shape? a.label with
    | none => simp
    | some e =>
    let opened := (t.withState (t.state.open a)).emit [.assume pending a (t.state.open a).typing]
    have hdef : (finalState (traceDefinition ctx (traceWithin ctx n (a :: pending)) a e
        opened)).lookups.Perm (opened.lookups ++ _) :=
      traceDefinition_lookups (traceWithin_erases ctx n (a :: pending)) (ih (a :: pending)) e opened
    -- the assumption is an event, but no lookup
    have hopened : opened.lookups = t.lookups := by simp [opened, Event.lookup?]
    rw [hopened] at hdef
    simp only [decisionRequests_of_defined ha he]
    revert hdef
    rcases traceDefinition ctx (traceWithin ctx n (a :: pending)) a e opened with
      ⟨result, t'⟩ | ⟨err, t'⟩ <;> exact id

/-- **The lookups of a call** are those that the traced call records. Without its events the traced
call is the call, by `validateTraced_fst`. -/
theorem Validator.lookups_perm (v : Validator) (a : Association) :
    (v.lookups a).Perm ((v.validateTraced a).2.filterMap Event.lookup?) := by
  rw [lookups, validateTraced]
  split
  · exact (traceWithin_lookups v.context v.context.maxNesting [] a ⟨v.start, []⟩).symm
  · -- a label that is not defined is not decided, and nothing is looked up
    rename_i hlabel
    have hnone : v.context.schema.shape? a.label = none := by
      simpa [Schema.contains] using hlabel
    rw [Context.maxNesting, lookupsWithin, hnone]
    split <;> exact .nil

/-! ### Decisions -/

/-- **A decision finds all verdicts that it looks up**, by induction on the nested decisions: there
is always room for one more. -/
theorem Asked.lookups_decided {d : Definitions} {ctx : Context} {focus : Term}
    {pending : List Association} {a : Association} {st : State} {n : ℕ}
    (hb : d.Builds ctx.schema) (h : Asked ctx focus pending a st)
    (hn : ctx.schema.maxPending ctx.graph focus < n + pending.length) {p : Lookup}
    (hp : p ∈ lookupsWithin ctx n a st) : p.Decided ctx.graph := by
  induction n generalizing pending a st with
  | zero => cases hp
  | succ n ih =>
    rw [lookupsWithin] at hp
    cases ha : st.typing.verdict? a with
    | some v => simp [ha] at hp
    | none =>
    cases he : ctx.schema.shape? a.label with
    | none => simp [ha, he] at hp
    | some e =>
    simp only [ha, he, List.mem_append, List.mem_flatMap] at hp
    have hmem : (a.label, e) ∈ ctx.schema.shapes := mem_of_lookup_eq_some he
    have hlen := (h.stack_cons ha he).length_le_maxPending
    rw [List.length_cons] at hlen
    rcases hp with ⟨r, hr, hp⟩ | hp
    · refine ih (h.nested hb hr) ?_ hp
      rw [List.length_cons]
      omega
    · rw [definitionLookups] at hp
      split at hp
      · cases hp
      obtain ⟨⟨x, st'⟩, hev, hp⟩ := List.mem_flatMap.1 hp
      obtain ⟨m, rfl⟩ : ∃ m, n = m + 1 := ⟨n - 1, by omega⟩
      obtain ⟨hx, hcached⟩ := evaluations_rel (decideWithin_cached hb (m + 1)) e
        (fun x hx st => compiledShape_cached hb (Schema.mem_allShapes hmem hx)) hev
      exact shapeLookups_decided hb (Schema.mem_allShapes hmem hx)
        (decideWithin_extends ctx (m + 1)) (fun b hl st => decideWithin_verdict hl st)
        (hcached (h.state.open a).cached) hp

/-! ### Calls of a validator -/

/-- **All values that are looked up have a verdict.** Whatever has been asked of a validator of a
built schema, with errors or without, in any call after that, when the edges of a node have been
gone through and their candidates are read, the other end of each edge has a verdict for the value
of each constraint that fits its predicate and direction, although nested decisions that fail forget
what they have assumed. -/
theorem performAll_lookups_decided {d : Definitions} {s : Schema} (h : d.build = .ok s) (g : Graph)
    (limits : Limits) (before : List Call) (a : Association) :
    ∀ p ∈ ((Validator.new s g limits).performAll before).2.lookups a, p.Decided g := by
  have hb := Definitions.builds_of_build h
  obtain ⟨hctx, hquiet⟩ := performAll_quiet hb (quiet_new s g limits) before
  generalize ((Validator.new s g limits).performAll before).2 = v at hctx hquiet ⊢
  intro p hp
  have hb' : d.Builds v.context.schema := by rwa [hctx]
  have hdecided := (hquiet.asked a).lookups_decided hb' (v.context.maxPending_lt a.node) hp
  rwa [hctx] at hdecided

/-- Nodes with a value of the second shape, whose other values are extra unless they are of the
third shape. Values of the third shape have values of the second one, and something more. -/
def valueOrExtra : Definitions where
  shapes := [
    (.iri ⟨"urn:S"⟩, .shape ⟨false, [⟨"urn:q"⟩], .eachOf [
      .constraint ⟨⟨"urn:p"⟩, some (.ref (.iri ⟨"urn:T"⟩)), .one, false, none⟩,
      .constraint ⟨⟨"urn:q"⟩, some (.ref (.iri ⟨"urn:U"⟩)), .optional, false, none⟩] .one, 0⟩),
    (.iri ⟨"urn:T"⟩, .shape ⟨false, [], .empty, 1⟩),
    (.iri ⟨"urn:U"⟩, .shape ⟨false, [], .eachOf [
      .constraint ⟨⟨"urn:r"⟩, some (.ref (.iri ⟨"urn:T"⟩)), .plus, false, none⟩,
      .constraint ⟨⟨"urn:s"⟩, none, .one, false, none⟩] .one, 2⟩)]
  tripleExprs := []
  start := none

/-- A value of the third shape fails at `urn:k`, which lacks something. -/
def valuesWithin : Graph := ⟨[
  ⟨.iri ⟨"urn:n"⟩, ⟨"urn:p"⟩, .iri ⟨"urn:m"⟩⟩, ⟨.iri ⟨"urn:n"⟩, ⟨"urn:q"⟩, .iri ⟨"urn:k"⟩⟩,
  ⟨.iri ⟨"urn:k"⟩, ⟨"urn:r"⟩, .iri ⟨"urn:m"⟩⟩, ⟨.iri ⟨"urn:k"⟩, ⟨"urn:r"⟩, .iri ⟨"urn:l"⟩⟩]⟩

/-- Two lookups. In between a verdict is forgotten, but none that is looked up. -/
theorem performAll_lookups_decided_valueOrExtra :
    ∃ s, valueOrExtra.build = .ok s ∧
      (((Validator.new s valuesWithin .standard).lookups ⟨.iri ⟨"urn:n"⟩, .iri ⟨"urn:S"⟩⟩).map
        fun p => (p.node, p.state.typing.verdict? ⟨.iri ⟨"urn:m"⟩, .iri ⟨"urn:T"⟩⟩,
          p.state.typing.verdict? ⟨.iri ⟨"urn:l"⟩, .iri ⟨"urn:T"⟩⟩,
          p.state.typing.verdict? ⟨.iri ⟨"urn:k"⟩, .iri ⟨"urn:U"⟩⟩)) =
        [(.iri ⟨"urn:k"⟩, some .conforms, some .conforms, some .hypothesis),
          (.iri ⟨"urn:n"⟩, some .conforms, none, some .fails)] ∧
      ∀ p ∈ (Validator.new s valuesWithin .standard).lookups ⟨.iri ⟨"urn:n"⟩, .iri ⟨"urn:S"⟩⟩,
        p.Decided valuesWithin := by
  have hbuild : valueOrExtra.build = .ok
      { shapes := valueOrExtra.shapes, tripleExprs := [], start := none, shapeCount := 3
        strata := [[.iri ⟨"urn:T"⟩], [.iri ⟨"urn:U"⟩], [.iri ⟨"urn:S"⟩]] } := by cbv
  exact ⟨_, hbuild, by cbv, performAll_lookups_decided hbuild valuesWithin .standard [] _⟩

end ShapeTyping
