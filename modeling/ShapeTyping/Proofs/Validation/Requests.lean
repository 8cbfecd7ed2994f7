import Mathlib
import ShapeTyping.Proofs.Bag.Enumeration
import ShapeTyping.Proofs.NodeConstraint
import ShapeTyping.Validation.Validator

/-!
# Requests for nested decisions

The evaluation of an expression asks for decisions on other associations, one after the other, and
does nothing else to the state but fill the cache. The list of its requests says all about it.

* `requests`: what an evaluation asks for, with the states in which it does.
* `target_of_mem_edgeRequests`: edges ask for the values of constraints only.
* `Threads`, `threads_satisfies`: an evaluation leads from each request to the next.
* `Threads.rel`: a relation between states that the requests respect.
* `satisfies_congr`: the result depends on the answers to the requests, and on limits only if it is
  an error.
* `Decision`, `decision`: the ways in which a decision ends.
* `decideWith_congr`: a decision depends on the answers to its requests, and on limits only if it
  records an error.
-/

namespace ShapeTyping

/-! ### Evaluation of an expression -/

/-- The state that a step ends with, whether it fails or not. -/
def finalState {ε σ α : Type} : EStateM.Result ε σ α → σ
  | .ok _ st => st
  | .error _ st => st

mutual
/-- The shapes of an expression, not those below references. -/
def ShapeExpr.shapes : ShapeExpr → List Shape
  | .and es => ShapeExpr.shapesOfList es
  | .or es => ShapeExpr.shapesOfList es
  | .not e => e.shapes
  | .node _ => []
  | .shape s => [s]
  | .external => []
  | .ref _ => []

def ShapeExpr.shapesOfList : List ShapeExpr → List Shape
  | [] => []
  | e :: es => e.shapes ++ ShapeExpr.shapesOfList es
end

/-- A shape is compiled without regard to the typing, which stays as it is. -/
theorem typing_compiledShape (ctx : Context) (s : Shape) (st : State) :
    (finalState (compiledShape ctx s st)).typing = st.typing := by
  unfold compiledShape
  split
  · rfl
  · rfl
  · split <;> rfl

theorem errors_compiledShape (ctx : Context) (s : Shape) (st : State) :
    (finalState (compiledShape ctx s st)).errors = st.errors := by
  unfold compiledShape
  split
  · rfl
  · rfl
  · split <;> rfl

section Equations

variable {ctx : Context} {recur : Decider} {node : Term} {st : State}

theorem satisfies_not {e : ShapeExpr} : satisfies ctx recur node (.not e) st =
    match satisfies ctx recur node e st with
    | .error err st => .error err st
    | .ok (some _) st => .ok none st
    | .ok none st => .ok (some []) st := by
  rw [satisfies]
  simp only [bind, EStateM.bind]
  cases satisfies ctx recur node e st with
  | error err st => rfl
  | ok r st => cases r <;> rfl

theorem satisfies_node {c : NodeConstraint} : satisfies ctx recur node (.node c) st =
    match c.holds? ctx.limits node with
    | .error err => .error err st
    | .ok true => .ok (some []) st
    | .ok false => .ok none st := by
  rw [satisfies]
  cases c.holds? ctx.limits node with
  | error err => rfl
  | ok b => cases b <;> rfl

theorem satisfies_ref {l : Label} : satisfies ctx recur node (.ref l) st =
    .ok (if (recur ⟨node, l⟩ st).1 then some [] else none) (recur ⟨node, l⟩ st).2 := by
  rw [satisfies]

theorem satisfiesAll_cons {e : ShapeExpr} {es : List ShapeExpr} :
    satisfiesAll ctx recur node (e :: es) st =
      match satisfies ctx recur node e st with
      | .error err st => .error err st
      | .ok none st => .ok none st
      | .ok (some ms) st =>
        match satisfiesAll ctx recur node es st with
        | .error err st => .error err st
        | .ok r st => .ok (r.map (ms ++ ·)) st := by
  rw [satisfiesAll]
  simp only [bind, EStateM.bind]
  cases satisfies ctx recur node e st with
  | error err st => rfl
  | ok r st =>
    cases r with
    | none => rfl
    | some ms =>
      simp only [EStateM.bind]
      cases satisfiesAll ctx recur node es st <;> rfl

theorem satisfiesAny_cons {e : ShapeExpr} {es : List ShapeExpr} :
    satisfiesAny ctx recur node (e :: es) st =
      match satisfies ctx recur node e st with
      | .error err st => .error err st
      | .ok (some ms) st => .ok (some ms) st
      | .ok none st => satisfiesAny ctx recur node es st := by
  rw [satisfiesAny]
  simp only [bind, EStateM.bind]
  cases satisfies ctx recur node e st with
  | error err st => rfl
  | ok r st => cases r <;> rfl

/-- The evaluation of a shape in terms of its compiled expression. -/
theorem satisfiesShape_eq {s : Shape} : satisfiesShape ctx recur node s st =
    match compiledShape ctx s st with
    | .error err st => .error err st
    | .ok c st =>
      if c.constraints.isEmpty then
        .ok (if !s.closed || (ctx.graph.outEdges node).isEmpty then some [] else none) st
      else
        let edges := neighbourhood ctx.graph c s.closed node
        match decideEdges recur s c.constraints edges st with
        | (false, st) => .ok none st
        | (true, st) =>
          match assignableEdges st.typing s c.constraints edges with
          | none => .ok none st
          | some assignable =>
            match searchBags ctx.limits.maxBags c.root
              (.ofCandidates (assignable.map (·.2)) c.constraints.length) with
            | .found b => .ok (some (matchedBy c.constraints (assignable.map (·.1)) b)) st
            | .notFound => .ok none st
            | .tooMany max => .error (.bagLimit node max) st := by
  unfold satisfiesShape
  simp only [bind, EStateM.bind]
  cases compiledShape ctx s st with
  | error err st => rfl
  | ok c st =>
    simp only
    by_cases hc : c.constraints.isEmpty = true
    · simp only [hc, if_true]; rfl
    · simp only [hc, Bool.false_eq_true, if_false, EStateM.bind]
      obtain ⟨fit, st'⟩ := decideEdges recur s c.constraints
        (neighbourhood ctx.graph c s.closed node) st
      cases fit with
      | false => rfl
      | true =>
        simp only [Bool.not_true, Bool.false_eq_true, if_false, get, getThe, MonadStateOf.get,
          EStateM.get, EStateM.bind]
        cases assignableEdges st'.typing s c.constraints
          (neighbourhood ctx.graph c s.closed node) with
        | none => rfl
        | some assignable =>
          simp only
          cases searchBags ctx.limits.maxBags c.root
            (.ofCandidates (assignable.map (·.2)) c.constraints.length) <;> rfl

end Equations

/-! ### Requests -/

/-- A nested decision that an evaluation asks for, and the state in which it does. -/
structure Request where
  target : Association
  state : State

section Requests

variable (ctx : Context) (recur : Decider) (node : Term)

def valueRequests (other : Term) : List TripleConstraint → State → List Request
  | [], _ => []
  | c :: cs, st =>
    match c.valueLabel? with
    | none => valueRequests other cs st
    | some l =>
      if (st.typing.verdict? ⟨other, l⟩).isSome then valueRequests other cs st
      else ⟨⟨other, l⟩, st⟩ :: valueRequests other cs (recur ⟨other, l⟩ st).2

def edgeRequests (s : Shape) (cs : List TripleConstraint) : List Edge → State → List Request
  | [], _ => []
  | e :: es, st =>
    let fitting := cs.filter (·.matchesEdge e)
    if fitting.isEmpty then
      if s.isExtra e.predicate then edgeRequests s cs es st else []
    else
      valueRequests recur e.other fitting st ++
        edgeRequests s cs es (decideValues recur e.other fitting st)

def shapeRequests (s : Shape) (st : State) : List Request :=
  match compiledShape ctx s st with
  | .error _ _ => []
  | .ok c st =>
    if c.constraints.isEmpty then []
    else edgeRequests recur s c.constraints (neighbourhood ctx.graph c s.closed node) st

mutual
/-- The decisions that the evaluation of an expression asks for, in order. -/
def requests : ShapeExpr → State → List Request
  | .and es, st => requestsOfAll es st
  | .or es, st => requestsOfAny es st
  | .not e, st => requests e st
  | .node _, _ => []
  | .shape s, st => shapeRequests ctx recur node s st
  | .external, _ => []
  | .ref l, st => [⟨⟨node, l⟩, st⟩]

def requestsOfAll : List ShapeExpr → State → List Request
  | [], _ => []
  | e :: es, st =>
    requests e st ++
      match satisfies ctx recur node e st with
      | .ok (some _) st => requestsOfAll es st
      | _ => []

def requestsOfAny : List ShapeExpr → State → List Request
  | [], _ => []
  | e :: es, st =>
    requests e st ++
      match satisfies ctx recur node e st with
      | .ok none st => requestsOfAny es st
      | _ => []
end

/-- The requests of a definition. There is none if too many associations are pending. -/
def definitionRequests (e : ShapeExpr) (st : State) : List Request :=
  match ctx.limits.maxDepth.filter (· < st.depth) with
  | some _ => []
  | none => requests ctx recur node e st

end Requests

/-! ### Targets -/

theorem target_of_mem_valueRequests {recur : Decider} {other : Term} {cs : List TripleConstraint}
    {st : State} {r : Request} (hr : r ∈ valueRequests recur other cs st) :
    ∃ c ∈ cs, ∃ l, c.valueLabel? = some l ∧ r.target = ⟨other, l⟩ := by
  induction cs generalizing st with
  | nil => cases hr
  | cons c cs ih =>
    have hlater : ∀ st, r ∈ valueRequests recur other cs st →
        ∃ c' ∈ c :: cs, ∃ l, c'.valueLabel? = some l ∧ r.target = ⟨other, l⟩ := by
      intro st hr
      obtain ⟨c', hc', hrest⟩ := ih hr
      exact ⟨c', List.mem_cons_of_mem _ hc', hrest⟩
    rw [valueRequests] at hr
    cases hl : c.valueLabel? with
    | none =>
      simp only [hl] at hr
      exact hlater _ hr
    | some l =>
      simp only [hl] at hr
      split at hr
      · exact hlater _ hr
      · rcases List.mem_cons.1 hr with rfl | hr
        · exact ⟨c, List.mem_cons_self, l, hl, rfl⟩
        · exact hlater _ hr

/-- **Edges ask for the values of constraints** at their other ends. -/
theorem target_of_mem_edgeRequests {recur : Decider} {s : Shape} {cs : List TripleConstraint}
    {es : List Edge} {st : State} {r : Request} (hr : r ∈ edgeRequests recur s cs es st) :
    ∃ e ∈ es, ∃ c ∈ cs, ∃ l, c.valueLabel? = some l ∧ r.target = ⟨e.other, l⟩ := by
  induction es generalizing st with
  | nil => cases hr
  | cons e es ih =>
    have hlater : ∀ st, r ∈ edgeRequests recur s cs es st →
        ∃ e' ∈ e :: es, ∃ c ∈ cs, ∃ l, c.valueLabel? = some l ∧ r.target = ⟨e'.other, l⟩ := by
      intro st hr
      obtain ⟨e', he', hrest⟩ := ih hr
      exact ⟨e', List.mem_cons_of_mem _ he', hrest⟩
    rw [edgeRequests] at hr
    split at hr
    · split at hr
      · exact hlater _ hr
      · cases hr
    · rcases List.mem_append.1 hr with hr | hr
      · obtain ⟨c, hc, hrest⟩ := target_of_mem_valueRequests hr
        exact ⟨e, List.mem_cons_self, c, (List.mem_filter.1 hc).1, hrest⟩
      · exact hlater _ hr

/-! ### From request to request -/

/-- Whether some requests lead from a state to another one, if apart from them only shapes of a list
are compiled. -/
inductive Threads (ctx : Context) (recur : Decider) (xs : List Shape) :
    State → List Request → State → Prop where
  | done (st : State) : Threads ctx recur xs st [] st
  | compile {x : Shape} {st st' : State} {rs : List Request} (hx : x ∈ xs)
    (h : Threads ctx recur xs (finalState (compiledShape ctx x st)) rs st') :
    Threads ctx recur xs st rs st'
  | ask {b : Association} {st st' : State} {rs : List Request}
    (h : Threads ctx recur xs (recur b st).2 rs st') : Threads ctx recur xs st (⟨b, st⟩ :: rs) st'

namespace Threads

variable {ctx : Context} {recur : Decider} {xs ys : List Shape} {rs rs' : List Request}
  {st st' st'' : State}

theorem append (h : Threads ctx recur xs st rs st') (h' : Threads ctx recur xs st' rs' st'') :
    Threads ctx recur xs st (rs ++ rs') st'' := by
  induction h with
  | done => exact h'
  | compile hx _ ih => exact .compile hx (ih h')
  | ask _ ih => exact .ask (ih h')

theorem mono (h : Threads ctx recur xs st rs st') (hsub : xs ⊆ ys) :
    Threads ctx recur ys st rs st' := by
  induction h with
  | done => exact .done _
  | compile hx _ ih => exact .compile (hsub hx) ih
  | ask _ ih => exact .ask ih

/-- **A relation that the requests respect**, and the cache, relates the states at both ends and
those at the requests in between. -/
theorem rel {R : State → State → Prop} (hrefl : ∀ st, R st st)
    (htrans : ∀ {st st' st''}, R st st' → R st' st'' → R st st'')
    (hcache : ∀ x ∈ xs, ∀ st, R st (finalState (compiledShape ctx x st)))
    (h : Threads ctx recur xs st rs st')
    (hask : ∀ r ∈ rs, R r.state (recur r.target r.state).2) :
    R st st' ∧ ∀ r ∈ rs, R st r.state ∧ R (recur r.target r.state).2 st' := by
  induction h with
  | done st => exact ⟨hrefl st, by simp⟩
  | @compile x st st' rs hx _ ih =>
    obtain ⟨hend, hbetween⟩ := ih hask
    have hfirst := hcache x hx st
    exact ⟨htrans hfirst hend, fun r hr => ⟨htrans hfirst (hbetween r hr).1, (hbetween r hr).2⟩⟩
  | ask _ ih =>
    obtain ⟨hend, hbetween⟩ := ih fun r hr => hask r (List.mem_cons_of_mem _ hr)
    have hfirst := hask _ List.mem_cons_self
    refine ⟨htrans hfirst hend, List.forall_mem_cons.2 ⟨⟨hrefl _, hend⟩, fun r hr => ?_⟩⟩
    exact ⟨htrans hfirst (hbetween r hr).1, (hbetween r hr).2⟩

end Threads

section Threading

variable {ctx : Context} {recur : Decider} {node : Term}

theorem threads_decideValues (xs : List Shape) (other : Term) (cs : List TripleConstraint)
    (st : State) :
    Threads ctx recur xs st (valueRequests recur other cs st) (decideValues recur other cs st) := by
  induction cs generalizing st with
  | nil => exact .done st
  | cons c cs ih =>
    rw [valueRequests, decideValues]
    cases c.valueLabel? with
    | none => exact ih st
    | some l =>
      simp only
      split
      · exact ih st
      · exact .ask (ih _)

theorem threads_decideEdges (xs : List Shape) (s : Shape) (cs : List TripleConstraint)
    (es : List Edge) (st : State) :
    Threads ctx recur xs st (edgeRequests recur s cs es st) (decideEdges recur s cs es st).2 := by
  induction es generalizing st with
  | nil => exact .done st
  | cons e es ih =>
    rw [edgeRequests, decideEdges]
    split
    · split
      · exact ih st
      · exact .done st
    · exact (threads_decideValues xs e.other _ st).append (ih _)

theorem threads_satisfiesShape (s : Shape) (st : State) :
    Threads ctx recur [s] st (shapeRequests ctx recur node s st)
      (finalState (satisfiesShape ctx recur node s st)) := by
  rw [satisfiesShape_eq, shapeRequests]
  refine .compile List.mem_cons_self ?_
  cases compiledShape ctx s st with
  | error err st' => exact .done st'
  | ok c st' =>
    simp only [finalState]
    split
    · exact .done st'
    have hedges := @threads_decideEdges ctx recur [s] s c.constraints
      (neighbourhood ctx.graph c s.closed node) st'
    revert hedges
    generalize decideEdges recur s c.constraints
      (neighbourhood ctx.graph c s.closed node) st' = result
    obtain ⟨_ | _, st''⟩ := result
    · exact id
    · intro hedges
      simp only
      cases assignableEdges st''.typing s c.constraints
        (neighbourhood ctx.graph c s.closed node) with
      | none => exact hedges
      | some assignable =>
        simp only
        cases searchBags ctx.limits.maxBags c.root
          (.ofCandidates (assignable.map (·.2)) c.constraints.length) <;> exact hedges

mutual
/-- **An evaluation leads from request to request.** -/
theorem threads_satisfies : (e : ShapeExpr) → (st : State) →
    Threads ctx recur e.shapes st (requests ctx recur node e st)
      (finalState (satisfies ctx recur node e st))
  | .and es, st => by
    rw [requests, satisfies]
    exact threads_satisfiesAll es st
  | .or es, st => by
    rw [requests, satisfies]
    exact threads_satisfiesAny es st
  | .not e, st => by
    have he := threads_satisfies e st
    rw [requests, satisfies_not]
    revert he
    rcases satisfies ctx recur node e st with ⟨_ | ms, st'⟩ | ⟨err, st'⟩ <;> exact id
  | .node c, st => by
    rw [requests, satisfies_node]
    split <;> exact .done st
  | .shape s, st => by
    rw [requests, satisfies]
    exact threads_satisfiesShape s st
  | .external, st => by
    rw [requests, satisfies]
    exact .done st
  | .ref l, st => by
    rw [requests, satisfies_ref]
    exact .ask (.done _)

theorem threads_satisfiesAll : (es : List ShapeExpr) → (st : State) →
    Threads ctx recur (ShapeExpr.shapesOfList es) st (requestsOfAll ctx recur node es st)
      (finalState (satisfiesAll ctx recur node es st))
  | [], st => by
    rw [requestsOfAll, satisfiesAll]
    exact .done st
  | e :: es, st => by
    have he := (threads_satisfies e st).mono (List.subset_append_left e.shapes
      (ShapeExpr.shapesOfList es))
    rw [requestsOfAll, satisfiesAll_cons]
    cases hr : satisfies ctx recur node e st with
    | error err st' =>
      rw [hr] at he
      simp only [List.append_nil]
      exact he
    | ok r st' =>
      rw [hr] at he
      cases r with
      | none =>
        simp only [List.append_nil]
        exact he
      | some ms =>
        -- only after a success the other conjuncts are evaluated
        have hes := (threads_satisfiesAll es st').mono (List.subset_append_right e.shapes
          (ShapeExpr.shapesOfList es))
        have hend := he.append hes
        revert hend
        simp only
        cases satisfiesAll ctx recur node es st' <;> exact id

theorem threads_satisfiesAny : (es : List ShapeExpr) → (st : State) →
    Threads ctx recur (ShapeExpr.shapesOfList es) st (requestsOfAny ctx recur node es st)
      (finalState (satisfiesAny ctx recur node es st))
  | [], st => by
    rw [requestsOfAny, satisfiesAny]
    exact .done st
  | e :: es, st => by
    have he := (threads_satisfies e st).mono (List.subset_append_left e.shapes
      (ShapeExpr.shapesOfList es))
    rw [requestsOfAny, satisfiesAny_cons]
    cases hr : satisfies ctx recur node e st with
    | error err st' =>
      rw [hr] at he
      simp only [List.append_nil]
      exact he
    | ok r st' =>
      rw [hr] at he
      cases r with
      | none =>
        have hes := (threads_satisfiesAny es st').mono (List.subset_append_right e.shapes
          (ShapeExpr.shapesOfList es))
        exact he.append hes
      | some ms =>
        simp only [List.append_nil]
        exact he
end

theorem threads_evaluateDefinition (e : ShapeExpr) (st : State) :
    Threads ctx recur e.shapes st (definitionRequests ctx recur node e st)
      (finalState (evaluateDefinition ctx recur node e st)) := by
  rw [definitionRequests, evaluateDefinition]
  cases ctx.limits.maxDepth.filter (· < st.depth) with
  | some max => exact .done st
  | none => exact threads_satisfies e st

end Threading

/-! ### Other answers and other limits -/

section Congruence

variable {ctx : Context} {recur recur' : Decider} {node : Term} {limits : Limits}

theorem decideValues_congr {other : Term} {cs : List TripleConstraint} {st : State}
    (h : ∀ r ∈ valueRequests recur other cs st,
      recur' r.target r.state = recur r.target r.state) :
    decideValues recur' other cs st = decideValues recur other cs st := by
  induction cs generalizing st with
  | nil => rfl
  | cons c cs ih =>
    rw [valueRequests] at h
    rw [decideValues, decideValues]
    cases hl : c.valueLabel? with
    | none =>
      simp only [hl] at h
      exact ih h
    | some l =>
      simp only [hl] at h ⊢
      by_cases hv : (st.typing.verdict? ⟨other, l⟩).isSome = true
      · rw [if_pos hv] at h ⊢
        rw [if_pos hv]
        exact ih h
      · rw [if_neg hv] at h ⊢
        rw [if_neg hv, h _ List.mem_cons_self]
        exact ih fun r hr => h r (List.mem_cons_of_mem _ hr)

theorem decideEdges_congr {s : Shape} {cs : List TripleConstraint} {es : List Edge} {st : State}
    (h : ∀ r ∈ edgeRequests recur s cs es st, recur' r.target r.state = recur r.target r.state) :
    decideEdges recur' s cs es st = decideEdges recur s cs es st := by
  induction es generalizing st with
  | nil => rfl
  | cons e es ih =>
    rw [edgeRequests] at h
    rw [decideEdges, decideEdges]
    by_cases hfit : (cs.filter (·.matchesEdge e)).isEmpty = true
    · simp only [hfit, if_true] at h ⊢
      by_cases hextra : s.isExtra e.predicate = true
      · rw [if_pos hextra] at h ⊢
        rw [if_pos hextra]
        exact ih h
      · rw [if_neg hextra, if_neg hextra]
    · simp only [hfit, Bool.false_eq_true, if_false] at h ⊢
      rw [decideValues_congr fun r hr => h r (List.mem_append_left _ hr)]
      exact ih fun r hr => h r (List.mem_append_right _ hr)

theorem satisfiesShape_congr (hle : ctx.limits.Within limits) {s : Shape} {st : State}
    (h : ∀ r ∈ shapeRequests ctx recur node s st, recur' r.target r.state = recur r.target r.state)
    (hlim : ∀ err st', satisfiesShape ctx recur node s st = .error err st' → limits = ctx.limits) :
    satisfiesShape { ctx with limits := limits } recur' node s st =
      satisfiesShape ctx recur node s st := by
  rw [shapeRequests] at h
  rw [satisfiesShape_eq] at hlim
  rw [satisfiesShape_eq, satisfiesShape_eq]
  -- the cache and the edges do not depend on limits
  change (match compiledShape ctx s st with | .error err st => _ | .ok c st => _) = _
  cases hc : compiledShape ctx s st with
  | error err st' => rfl
  | ok c st' =>
    simp only [hc] at h hlim ⊢
    by_cases hnil : c.constraints.isEmpty = true
    · rw [if_pos hnil, if_pos hnil]
    rw [if_neg hnil] at h hlim ⊢
    rw [if_neg hnil, decideEdges_congr h]
    rcases hd : decideEdges recur s c.constraints
      (neighbourhood ctx.graph c s.closed node) st' with ⟨_ | _, st''⟩
    · rfl
    · simp only [hd] at hlim ⊢
      cases ha : assignableEdges st''.typing s c.constraints
          (neighbourhood ctx.graph c s.closed node) with
      | none => rfl
      | some assignable =>
        simp only [ha] at hlim ⊢
        cases hsearch : searchBags ctx.limits.maxBags c.root
            (.ofCandidates (assignable.map (·.2)) c.constraints.length) with
        | found b => rw [searchBags_mono hle.bags (by simp [hsearch]), hsearch]
        | notFound => rw [searchBags_mono hle.bags (by simp [hsearch]), hsearch]
        | tooMany max =>
          -- the search ended with an error, so the limits are the same
          obtain rfl := hlim (.bagLimit node max) st'' (by simp only [hsearch])
          rw [hsearch]

mutual
/-- **An evaluation depends on the answers to its requests**, and on limits only if it ends with an
error. -/
theorem satisfies_congr (hle : ctx.limits.Within limits) : (e : ShapeExpr) → (st : State) →
    (∀ r ∈ requests ctx recur node e st, recur' r.target r.state = recur r.target r.state) →
    (∀ err st', satisfies ctx recur node e st = .error err st' → limits = ctx.limits) →
      satisfies { ctx with limits := limits } recur' node e st = satisfies ctx recur node e st
  | .and es, st, h, hlim => by
    rw [requests] at h
    rw [satisfies] at hlim ⊢
    rw [satisfies]
    exact satisfiesAll_congr hle es st h hlim
  | .or es, st, h, hlim => by
    rw [requests] at h
    rw [satisfies] at hlim ⊢
    rw [satisfies]
    exact satisfiesAny_congr hle es st h hlim
  | .not e, st, h, hlim => by
    rw [requests] at h
    rw [satisfies_not] at hlim ⊢
    rw [satisfies_not, satisfies_congr hle e st h fun err st' he => hlim err st' (by rw [he])]
  | .node c, st, _, hlim => by
    rw [satisfies_node] at hlim ⊢
    rw [satisfies_node]
    cases hc : c.holds? ctx.limits node with
    | error err =>
      obtain rfl := hlim err st (by rw [hc])
      rw [hc]
    | ok b => rw [NodeConstraint.holds?_mono hle hc]
  | .shape s, st, h, hlim => by
    rw [requests] at h
    rw [satisfies] at hlim ⊢
    rw [satisfies]
    exact satisfiesShape_congr hle h hlim
  | .external, st, _, _ => by
    rw [satisfies, satisfies]
  | .ref l, st, h, _ => by
    rw [requests] at h
    rw [satisfies_ref, satisfies_ref, h _ List.mem_cons_self]

theorem satisfiesAll_congr (hle : ctx.limits.Within limits) : (es : List ShapeExpr) →
    (st : State) →
    (∀ r ∈ requestsOfAll ctx recur node es st, recur' r.target r.state = recur r.target r.state) →
    (∀ err st', satisfiesAll ctx recur node es st = .error err st' → limits = ctx.limits) →
      satisfiesAll { ctx with limits := limits } recur' node es st =
        satisfiesAll ctx recur node es st
  | [], st, _, _ => by
    rw [satisfiesAll, satisfiesAll]
  | e :: es, st, h, hlim => by
    rw [requestsOfAll] at h
    rw [satisfiesAll_cons] at hlim ⊢
    rw [satisfiesAll_cons, satisfies_congr hle e st (fun r hr => h r (List.mem_append_left _ hr))
      fun err st' he => hlim err st' (by rw [he])]
    cases hr : satisfies ctx recur node e st with
    | error err st' => rfl
    | ok r st' =>
      cases r with
      | none => rfl
      | some ms =>
        simp only [hr] at h hlim ⊢
        rw [satisfiesAll_congr hle es st' (fun r hr => h r (List.mem_append_right _ hr))
          fun err st'' he => hlim err st'' (by rw [he])]

theorem satisfiesAny_congr (hle : ctx.limits.Within limits) : (es : List ShapeExpr) →
    (st : State) →
    (∀ r ∈ requestsOfAny ctx recur node es st, recur' r.target r.state = recur r.target r.state) →
    (∀ err st', satisfiesAny ctx recur node es st = .error err st' → limits = ctx.limits) →
      satisfiesAny { ctx with limits := limits } recur' node es st =
        satisfiesAny ctx recur node es st
  | [], st, _, _ => by
    rw [satisfiesAny, satisfiesAny]
  | e :: es, st, h, hlim => by
    rw [requestsOfAny] at h
    rw [satisfiesAny_cons] at hlim ⊢
    rw [satisfiesAny_cons, satisfies_congr hle e st (fun r hr => h r (List.mem_append_left _ hr))
      fun err st' he => hlim err st' (by rw [he])]
    cases hr : satisfies ctx recur node e st with
    | error err st' => rfl
    | ok r st' =>
      cases r with
      | some ms => rfl
      | none =>
        simp only [hr] at h hlim ⊢
        exact satisfiesAny_congr hle es st' (fun r hr => h r (List.mem_append_right _ hr)) hlim
end

theorem evaluateDefinition_congr (hle : ctx.limits.Within limits) {e : ShapeExpr} {st : State}
    (h : ∀ r ∈ definitionRequests ctx recur node e st,
      recur' r.target r.state = recur r.target r.state)
    (hlim : ∀ err st', evaluateDefinition ctx recur node e st = .error err st' →
      limits = ctx.limits) :
    evaluateDefinition { ctx with limits := limits } recur' node e st =
      evaluateDefinition ctx recur node e st := by
  rw [definitionRequests] at h
  rw [evaluateDefinition] at hlim ⊢
  rw [evaluateDefinition]
  cases hcap : ctx.limits.maxDepth.filter (· < st.depth) with
  | some max =>
    obtain rfl := hlim (.recursionLimit max) st (by rw [hcap])
    rw [hcap]
  | none =>
    -- a depth within the cap is within the larger one
    simp only [hcap, hle.depth.filter_eq_none hcap] at h hlim ⊢
    exact satisfies_congr hle e st h hlim

end Congruence

/-! ### Decisions -/

section Decisions

variable {ctx : Context} {recur recur' : Decider} {a : Association} {st st' : State}
  {e : ShapeExpr} {limits : Limits}

/-- The requests of a decision, which are those of the definition if there is no verdict yet. -/
def decisionRequests (ctx : Context) (recur : Decider) (a : Association) (st : State) :
    List Request :=
  match st.typing.verdict? a with
  | some _ => []
  | none =>
    match ctx.schema.shape? a.label with
    | none => []
    | some e => definitionRequests ctx recur a.node e (st.open a)

theorem decisionRequests_of_defined (ha : st.typing.verdict? a = none)
    (he : ctx.schema.shape? a.label = some e) :
    decisionRequests ctx recur a st = definitionRequests ctx recur a.node e (st.open a) := by
  rw [decisionRequests, ha, he]

/-- Only a definition that is evaluated asks for anything. -/
theorem defined_of_mem_decisionRequests {r : Request} (hr : r ∈ decisionRequests ctx recur a st) :
    st.typing.verdict? a = none ∧ ∃ e, ctx.schema.shape? a.label = some e ∧
      r ∈ definitionRequests ctx recur a.node e (st.open a) := by
  rw [decisionRequests] at hr
  cases ha : st.typing.verdict? a with
  | some v => simp [ha] at hr
  | none =>
  cases he : ctx.schema.shape? a.label with
  | none => simp [ha, he] at hr
  | some e =>
  simp only [ha, he] at hr
  exact ⟨rfl, e, rfl, hr⟩

/-- **The ways in which a decision ends**: with a verdict that is known, with a label that is not
defined, and with the result of the definition or its error. -/
inductive Decision (ctx : Context) (recur : Decider) (a : Association) (st : State) :
    Bool × State → Prop where
  | known {v : Verdict} (hv : st.typing.verdict? a = some v) :
    Decision ctx recur a st (v ≠ .fails, st)
  | undefined (ha : st.typing.verdict? a = none) (hl : ctx.schema.shape? a.label = none) :
    Decision ctx recur a st (false, st.addError (.unknownShape a.label))
  | evaluated {e : ShapeExpr} {r : Option (List MatchedTriple)} {st' : State}
    (ha : st.typing.verdict? a = none) (he : ctx.schema.shape? a.label = some e)
    (hev : evaluateDefinition ctx recur a.node e (st.open a) = .ok r st') :
    Decision ctx recur a st (r.isSome, st'.close a (st.open a).typing.checkpoint r)
  | failed {e : ShapeExpr} {err : ValidationError} {st' : State}
    (ha : st.typing.verdict? a = none) (he : ctx.schema.shape? a.label = some e)
    (hev : evaluateDefinition ctx recur a.node e (st.open a) = .error err st') :
    Decision ctx recur a st
      (false, (st'.addError err).close a (st.open a).typing.checkpoint none)

theorem decision {d : Bool × State} (hd : decideWith ctx recur a st = d) :
    Decision ctx recur a st d := by
  subst hd
  unfold decideWith
  split
  · rename_i v hv
    exact .known hv
  rename_i ha
  split
  · rename_i hl
    exact .undefined ha hl
  rename_i e he
  simp only
  split
  · rename_i r st' hev
    exact .evaluated ha he hev
  · rename_i err st' hev
    exact .failed ha he hev

/-- **A decision depends on the answers to its requests**, and on limits only if it records an
error. -/
theorem decideWith_congr (hle : ctx.limits.Within limits)
    (h : ∀ r ∈ decisionRequests ctx recur a st, recur' r.target r.state = recur r.target r.state)
    (hlim : (decideWith ctx recur a st).2.errors ≠ [] → limits = ctx.limits) :
    decideWith { ctx with limits := limits } recur' a st = decideWith ctx recur a st := by
  rw [decideWith] at hlim ⊢
  rw [decideWith]
  cases ha : st.typing.verdict? a with
  | some v => rfl
  | none =>
    simp only [ha] at hlim ⊢
    cases he : ctx.schema.shape? a.label with
    | none => rfl
    | some e =>
      simp only [he] at hlim ⊢
      rw [decisionRequests_of_defined ha he] at h
      rw [evaluateDefinition_congr hle h]
      intro err st' hev
      simp only [hev] at hlim
      exact hlim (by simp [State.close, State.addError])

end Decisions

end ShapeTyping
