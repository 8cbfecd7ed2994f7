import Mathlib
import ShapeTyping.Proofs.Validation.History
import ShapeTyping.Proofs.Validation.Origins
import ShapeTyping.Proofs.Validation.Strict

/-!
# Depth of the recursion

A decision is asked for while other associations are pending, which are distinct and made of the
nodes of the graph, the node at hand and the labels of the schema. There are not more of them than
that, so the recursion ends before what it does at greater depth can matter.

* `callable_of_mem_requests`: an evaluation asks for nothing above its own label.
* `Asked`, `Asked.callable`, `Asked.nested`: what holds when a decision is asked for, and for those
  it asks for.
* `Asked.iterate_eq`: decisions at any depth beyond the bound are the same.
* `Asked.history`: what is pending at each change.
* `Asked.possible_of_raises`, `Asked.errors`: what errors a decision raises and records.
* `validate_depth`: the depth of a call.
-/

namespace ShapeTyping

/-! ### Requests of a definition -/

/-- The evaluation of the definition of `reader` in a built schema, where all nodes are among those
in a list. -/
structure Asking (d : Definitions) (ctx : Context) (nodes : List Term) (reader : Association)
    (recur : Decider) : Prop where
  builds : d.Builds ctx.schema
  nodes_mem : ∀ x ∈ ctx.graph.nodes, x ∈ nodes
  reader_mem : reader.node ∈ nodes
  cached : recur.Respects fun st st' => st.Cached ctx.schema → st'.Cached ctx.schema

section Requests

variable {d : Definitions} {ctx : Context} {nodes : List Term} {reader : Association}
  {recur : Decider} (h : Asking d ctx nodes reader recur)
include h

theorem callable_of_mem_shapeRequests {x : Shape} (hx : x ∈ ctx.schema.allShapes) {negative : Bool}
    (hdeps : ∀ dep ∈ (ShapeExpr.shape x).dependencies ctx.schema.tripleExprs reader.label negative,
      ctx.schema.Descends dep) {st : State} (hst : st.Cached ctx.schema) {r : Request}
    (hr : r ∈ shapeRequests ctx recur reader.node x st) :
    Callable ctx.schema nodes reader r.target := by
  rw [shapeRequests] at hr
  cases hcomp : compiledShape ctx x st with
  | error err st' =>
    rw [hcomp] at hr
    cases hr
  | ok c st' =>
    simp only [hcomp] at hr
    split at hr
    · cases hr
    obtain ⟨e, he, tc, htc, l, hl, htarget⟩ := target_of_mem_edgeRequests hr
    rw [htarget]
    exact callable_of_constraint h.builds h.nodes_mem (compiledShape_ok hx hst hcomp).1 hdeps he htc hl

mutual
/-- **What an evaluation asks for** is made of the same nodes and labels, and is not above its own
label. -/
theorem callable_of_mem_requests : (negative : Bool) → (e : ShapeExpr) →
    (∀ x ∈ e.shapes, x ∈ ctx.schema.allShapes) →
    (∀ dep ∈ e.dependencies ctx.schema.tripleExprs reader.label negative,
      ctx.schema.Descends dep) → {st : State} → st.Cached ctx.schema → {r : Request} →
    r ∈ requests ctx recur reader.node e st → Callable ctx.schema nodes reader r.target
  | negative, .and es, hs, hdeps, st, hst, r, hr => by
    rw [ShapeExpr.dependencies] at hdeps
    rw [requests] at hr
    exact callable_of_mem_requestsOfAll negative es hs hdeps hst hr
  | negative, .or es, hs, hdeps, st, hst, r, hr => by
    rw [ShapeExpr.dependencies] at hdeps
    rw [requests] at hr
    exact callable_of_mem_requestsOfAny negative es hs hdeps hst hr
  | negative, .not e, hs, hdeps, st, hst, r, hr => by
    rw [ShapeExpr.dependencies] at hdeps
    rw [requests] at hr
    exact callable_of_mem_requests true e hs hdeps hst hr
  | _, .node _, _, _, _, _, r, hr => by
    rw [requests] at hr
    cases hr
  | negative, .shape x, hs, hdeps, st, hst, r, hr => by
    rw [requests] at hr
    exact callable_of_mem_shapeRequests h (hs x (by simp [ShapeExpr.shapes])) hdeps hst hr
  | _, .external, _, _, _, _, r, hr => by
    rw [requests] at hr
    cases hr
  | negative, .ref l, _, hdeps, st, _, r, hr => by
    obtain ⟨hle, -⟩ := hdeps ⟨reader.label, l, negative, false⟩ (by simp [ShapeExpr.dependencies])
    obtain ⟨j, -, hj, -⟩ := id hle
    rw [requests] at hr
    obtain rfl := List.mem_singleton.1 hr
    exact ⟨h.reader_mem, h.builds.mem_labels_of_stratum? hj, hle⟩

theorem callable_of_mem_requestsOfAll : (negative : Bool) → (es : List ShapeExpr) →
    (∀ x ∈ ShapeExpr.shapesOfList es, x ∈ ctx.schema.allShapes) →
    (∀ dep ∈ ShapeExpr.dependenciesOfList ctx.schema.tripleExprs reader.label negative es,
      ctx.schema.Descends dep) → {st : State} → st.Cached ctx.schema → {r : Request} →
    r ∈ requestsOfAll ctx recur reader.node es st → Callable ctx.schema nodes reader r.target
  | _, [], _, _, _, _, r, hr => by
    rw [requestsOfAll] at hr
    cases hr
  | negative, e :: es, hs, hdeps, st, hst, r, hr => by
    rw [ShapeExpr.dependenciesOfList] at hdeps
    have hse := fun x hx => hs x (List.mem_append_left _ hx)
    rw [requestsOfAll] at hr
    rcases List.mem_append.1 hr with hr | hr
    · exact callable_of_mem_requests negative e hse
        (fun dep hm => hdeps dep (List.mem_append_left _ hm)) hst hr
    · have hnext : (finalState (satisfies ctx recur reader.node e st)).Cached ctx.schema :=
        satisfies_rel h.cached e (fun x hx st => compiledShape_cached h.builds (hse x hx)) st hst
      split at hr
      · rename_i ms st' hev
        rw [hev] at hnext
        exact callable_of_mem_requestsOfAll negative es
          (fun x hx => hs x (List.mem_append_right _ hx))
          (fun dep hm => hdeps dep (List.mem_append_right _ hm)) hnext hr
      · cases hr

theorem callable_of_mem_requestsOfAny : (negative : Bool) → (es : List ShapeExpr) →
    (∀ x ∈ ShapeExpr.shapesOfList es, x ∈ ctx.schema.allShapes) →
    (∀ dep ∈ ShapeExpr.dependenciesOfList ctx.schema.tripleExprs reader.label negative es,
      ctx.schema.Descends dep) → {st : State} → st.Cached ctx.schema → {r : Request} →
    r ∈ requestsOfAny ctx recur reader.node es st → Callable ctx.schema nodes reader r.target
  | _, [], _, _, _, _, r, hr => by
    rw [requestsOfAny] at hr
    cases hr
  | negative, e :: es, hs, hdeps, st, hst, r, hr => by
    rw [ShapeExpr.dependenciesOfList] at hdeps
    have hse := fun x hx => hs x (List.mem_append_left _ hx)
    rw [requestsOfAny] at hr
    rcases List.mem_append.1 hr with hr | hr
    · exact callable_of_mem_requests negative e hse
        (fun dep hm => hdeps dep (List.mem_append_left _ hm)) hst hr
    · have hnext : (finalState (satisfies ctx recur reader.node e st)).Cached ctx.schema :=
        satisfies_rel h.cached e (fun x hx st => compiledShape_cached h.builds (hse x hx)) st hst
      split at hr
      · rename_i st' hev
        rw [hev] at hnext
        exact callable_of_mem_requestsOfAny negative es
          (fun x hx => hs x (List.mem_append_right _ hx))
          (fun dep hm => hdeps dep (List.mem_append_right _ hm)) hnext hr
      · cases hr
end

end Requests

/-! ### Errors of a definition -/

/-- Whether an error may arise while at most `bound` associations are pending: the depth of the
recursion is exceeded only where the bound exceeds its cap. -/
def ValidationError.Possible (limits : Limits) (bound : ℕ) : ValidationError → Prop
  | .recursionLimit cap => limits.maxDepth = some cap ∧ cap < bound
  | .fault .exhausted => False
  | _ => True

section Errors

variable {ctx : Context} {recur : Decider} {node : Term} {limits : Limits} {bound : ℕ}
  {err : ValidationError} {st st' : State}

theorem ValidationError.Local.possible (h : err.Local) : err.Possible limits bound := by
  cases err with
  | recursionLimit cap => exact h.elim
  | fault f => exact h.elim
  | _ => trivial

theorem possible_of_compiledShape {x : Shape} (h : compiledShape ctx x st = .error err st') :
    err.Possible limits bound := by
  unfold compiledShape at h
  split at h
  · cases h
    trivial
  · cases h
  · split at h
    · cases h
      trivial
    · cases h

/-- A definition is evaluated at a depth that may exceed the cap, and its parts never find that the
recursion is too deep. -/
theorem possible_of_evaluateDefinition {e : ShapeExpr} (hdepth : st.depth ≤ bound)
    (h : evaluateDefinition ctx recur node e st = .error err st') :
    err.Possible ctx.limits bound := by
  have hrec : recur.Respects fun _ _ => True → True := ⟨fun _ => id, fun _ _ => id, fun _ _ => id⟩
  rcases error_of_evaluateDefinition hrec (fun _ _ _ => id) trivial h with
    (hlocal | ⟨x, -, _, _, -, hx⟩) | ⟨cap, rfl, hmax, hlt⟩
  · exact hlocal.possible
  · exact possible_of_compiledShape hx
  · exact ⟨hmax, by omega⟩

end Errors

/-! ### What is asked for -/

/-- A state while some associations are pending. -/
structure State.Awaits (s : Schema) (pending : List Association) (st : State) : Prop where
  cached : st.Cached s
  assumed : ∀ b, st.typing.verdict? b = some .hypothesis ↔ b ∈ pending
  depth : st.depth = pending.length

section Awaits

variable {s : Schema} {pending : List Association} {st st' : State}

theorem State.Awaits.open (h : st.Awaits s pending) (a : Association) :
    (st.open a).Awaits s (a :: pending) where
  cached := h.cached
  assumed := hypothesis_open_iff h.assumed a
  depth := congrArg (· + 1) h.depth

/-- Decisions leave the same associations pending. -/
theorem State.Awaits.of_extends (h : st.Awaits s pending) (hext : st.Extends st')
    (hcached : st'.Cached s) : st'.Awaits s pending where
  cached := hcached
  assumed b := (hext.hypothesis_iff b).trans (h.assumed b)
  depth := hext.depth.trans h.depth

end Awaits

/-- The number of associations of the terms of a graph or a node with the labels of a schema. -/
def Schema.maxPending (s : Schema) (g : Graph) (node : Term) : ℕ :=
  (insert node g.nodes.toFinset).card * s.labels.toFinset.card

theorem Stack.length_le_maxPending {s : Schema} {g : Graph} {focus : Term}
    {pending : List Association} (h : Stack s (focus :: g.nodes) pending) :
    pending.length ≤ s.maxPending g focus := by
  have hcard := h.length_le_card
  rwa [List.toFinset_cons] at hcard

theorem Context.maxPending_lt (ctx : Context) (node : Term) :
    ctx.schema.maxPending ctx.graph node < ctx.maxNesting := by
  have hnodes : (insert node ctx.graph.nodes.toFinset).card ≤ ctx.graph.nodes.length + 1 :=
    (Finset.card_insert_le _ _).trans (Nat.add_le_add_right (List.toFinset_card_le _) 1)
  exact Nat.lt_succ_of_le (Nat.mul_le_mul hnodes (List.toFinset_card_le _))

/-- What holds when a decision on an association is asked for while others are pending, in a call
for the node `focus`. -/
structure Asked (ctx : Context) (focus : Term) (pending : List Association) (a : Association)
    (st : State) : Prop where
  node_mem : a.node ∈ focus :: ctx.graph.nodes
  stack : Stack ctx.schema (focus :: ctx.graph.nodes) pending
  notAbove : ∀ b ∈ pending, ctx.schema.NotAbove a.label b.label
  state : st.Awaits ctx.schema pending

namespace Asked

variable {d : Definitions} {ctx : Context} {focus : Term} {pending : List Association}
  {a : Association} {st st' : State} {e : ShapeExpr} {n m : ℕ} {r : Request}

/-- What is assumed next is pending on top of the others. -/
theorem stack_cons (h : Asked ctx focus pending a st) (ha : st.typing.verdict? a = none)
    (he : ctx.schema.shape? a.label = some e) :
    Stack ctx.schema (focus :: ctx.graph.nodes) (a :: pending) := by
  refine h.stack.cons (fun hmem => ?_) h.notAbove h.node_mem
    (List.mem_map_of_mem (mem_of_lookup_eq_some he))
  rw [(h.state.assumed a).2 hmem] at ha
  cases ha

/-- The states in which a definition asks for decisions, and the one at its end. -/
theorem during (hb : d.Builds ctx.schema) (h : Asked ctx focus pending a st)
    (he : ctx.schema.shape? a.label = some e) :
    (∀ r ∈ definitionRequests ctx (decideWithin ctx n) a.node e (st.open a),
      r.state.Awaits ctx.schema (a :: pending)) ∧
    (finalState (evaluateDefinition ctx (decideWithin ctx n) a.node e (st.open a))).Awaits
      ctx.schema (a :: pending) := by
  have hmem : (a.label, e) ∈ ctx.schema.shapes := mem_of_lookup_eq_some he
  have hthreads := @threads_evaluateDefinition ctx (decideWithin ctx n) a.node e (st.open a)
  have hcached := hthreads.rel (R := fun st st' => st.Cached ctx.schema → st'.Cached ctx.schema)
    (fun _ hst => hst) (fun h1 h2 hst => h2 (h1 hst))
    (fun x hx st => compiledShape_cached hb (Schema.mem_allShapes hmem hx))
    fun r _ => (decideWithin_cached hb n).decision r.target r.state
  have hext := hthreads.rel State.Extends.refl State.Extends.trans
    (fun x _ => compiledShape_extends ctx x)
    fun r _ => (decideWithin_extends ctx n).decision r.target r.state
  have hopen := h.state.open a
  refine ⟨fun r hr => ?_, hopen.of_extends hext.1 (hcached.1 hopen.cached)⟩
  exact hopen.of_extends (hext.2 r hr).1 ((hcached.2 r hr).1 hopen.cached)

/-- **What a decision asks for** may be asked for while its association is pending. -/
theorem callable (hb : d.Builds ctx.schema) (h : Asked ctx focus pending a st)
    (hr : r ∈ decisionRequests ctx (decideWithin ctx n) a st) :
    Callable ctx.schema (focus :: ctx.graph.nodes) a r.target := by
  obtain ⟨-, e, he, hr⟩ := defined_of_mem_decisionRequests hr
  have hmem : (a.label, e) ∈ ctx.schema.shapes := mem_of_lookup_eq_some he
  have hasking : Asking d ctx (focus :: ctx.graph.nodes) a (decideWithin ctx n) :=
    ⟨hb, fun x hx => List.mem_cons_of_mem focus hx, h.node_mem, decideWithin_cached hb n⟩
  rw [definitionRequests] at hr
  split at hr
  · cases hr
  · exact callable_of_mem_requests hasking false e (fun x hx => Schema.mem_allShapes hmem hx)
      (fun dep hdep => hb.descends hmem hdep) (h.state.open a).cached hr

/-- **Nested decisions** are asked for while one more association is pending. -/
theorem nested (hb : d.Builds ctx.schema) (h : Asked ctx focus pending a st)
    (hr : r ∈ decisionRequests ctx (decideWithin ctx n) a st) :
    Asked ctx focus (a :: pending) r.target r.state := by
  have hcall := h.callable hb hr
  obtain ⟨ha, e, he, hr⟩ := defined_of_mem_decisionRequests hr
  have hstack := h.stack_cons ha he
  exact ⟨hcall.1, hstack, hstack.notAbove hcall.2.2, (h.during hb he).1 r hr⟩

/-- **The recursion ends**: beyond the bound it does not matter what a decision does, by induction
on the depth. -/
theorem iterate_eq (hb : d.Builds ctx.schema) (h : Asked ctx focus pending a st) {base : Decider}
    (hn : ctx.schema.maxPending ctx.graph focus < n + pending.length)
    (hm : ctx.schema.maxPending ctx.graph focus < m + pending.length) :
    (decideWith ctx)^[n] base a st = decideWithin ctx m a st := by
  induction n generalizing m pending a st with
  | zero =>
    -- more associations would be pending than there are
    have hlen := h.stack.length_le_maxPending
    omega
  | succ n ih =>
    cases m with
    | zero =>
      have hlen := h.stack.length_le_maxPending
      omega
    | succ m =>
      rw [Function.iterate_succ_apply', decideWithin]
      -- the nested decisions are the same, since one more association is pending in each
      refine decideWith_congr (.refl ctx.limits) (fun r hr => ?_) fun _ => rfl
      refine ih (h.nested hb hr) ?_ ?_
      · rw [List.length_cons]
        omega
      · rw [List.length_cons]
        omega

/-- Decisions at any two depths beyond the bound are the same. -/
theorem decideWithin_eq (hb : d.Builds ctx.schema) (h : Asked ctx focus pending a st)
    (hn : ctx.schema.maxPending ctx.graph focus < n + pending.length)
    (hm : ctx.schema.maxPending ctx.graph focus < m + pending.length) :
    decideWithin ctx n a st = decideWithin ctx m a st := by
  have hends : ∀ {m : ℕ}, ctx.schema.maxPending ctx.graph focus < m + pending.length →
      (decideWith ctx)^[n] (decideWithin ctx 0) a st = decideWithin ctx m a st :=
    fun hm => h.iterate_eq hb hn hm
  exact (hends hn).symm.trans (hends hm)

/-- **What is pending at each change** of a decision. -/
theorem history (hb : d.Builds ctx.schema) (h : Asked ctx focus pending a st) {m : Snapshot}
    (hm : m ∈ historyWithin ctx n pending a st) :
    Stack ctx.schema (focus :: ctx.graph.nodes) m.pending ∧
      m.state.Awaits ctx.schema m.pending := by
  induction n generalizing pending a st with
  | zero => cases hm
  | succ n ih =>
    cases ha : st.typing.verdict? a with
    | some v => simp [historyWithin, ha] at hm
    | none =>
    cases he : ctx.schema.shape? a.label with
    | none => simp [historyWithin, ha, he] at hm
    | some e =>
    rw [historyWithin_succ ha he, List.cons_append, List.mem_cons, List.mem_append,
      List.mem_flatMap, List.mem_singleton] at hm
    rcases hm with rfl | ⟨r, hr, hm⟩ | rfl
    · exact ⟨h.stack_cons ha he, h.state.open a⟩
    · exact ih (h.nested hb hr) hm
    · refine ⟨h.stack, h.state.of_extends ((decideWithin_extends ctx (n + 1)).decision a st) ?_⟩
      exact (decideWithin_cached hb (n + 1)).decision a st h.state.cached

/-- **What a decision raises** is possible, by induction on the nested decisions: the depth is the
number of pending associations, which the stack bounds. -/
theorem possible_of_raises (hb : d.Builds ctx.schema) (h : Asked ctx focus pending a st)
    (hn : ctx.schema.maxPending ctx.graph focus < n + pending.length) {err : ValidationError}
    (hraises : Raises ctx n a st err) :
    err.Possible ctx.limits (ctx.schema.maxPending ctx.graph focus) := by
  induction hraises generalizing pending with
  | exhausted =>
    have hlen := h.stack.length_le_maxPending
    omega
  | undefined => trivial
  | failed ha he hev =>
    refine possible_of_evaluateDefinition ?_ hev
    rw [(h.state.open _).depth]
    exact (h.stack_cons ha he).length_le_maxPending
  | nested hr _ ih =>
    refine ih (h.nested hb hr) ?_
    rw [List.length_cons]
    omega

/-- **The errors of a decision** are those from before it, and possible ones. -/
theorem errors (hb : d.Builds ctx.schema) (h : Asked ctx focus pending a st)
    (hn : ctx.schema.maxPending ctx.graph focus < n + pending.length) {err : ValidationError}
    (herr : err ∈ (decideWithin ctx n a st).2.errors) :
    err ∈ st.errors ∨
      err.Possible ctx.limits (ctx.schema.maxPending ctx.graph focus) :=
  (raises_of_mem_errors herr).imp_right (h.possible_of_raises hb hn)

end Asked

/-! ### Calls of a validator -/

section Calls

variable {d : Definitions} {v : Validator} {a : Association}

/-- What a call asks for, if nothing is pending. -/
theorem Validator.Quiet.asked (hv : v.Quiet) (a : Association) :
    Asked v.context a.node [] a v.start where
  node_mem := List.mem_cons_self
  stack := .nil
  notAbove := by simp
  state := ⟨hv.cached, fun b => iff_of_false (hv.settled b) List.not_mem_nil, rfl⟩

/-- A call on a label of the schema answers with an error of its decision. -/
theorem Validator.mem_errors_of_defined (hl : a.label ∈ v.context.schema.labels)
    {err : ValidationError} (h : (v.validate a).1 = .error err) :
    err ∈ (decideWithin v.context v.context.maxNesting a v.start).2.errors := by
  cases hdec : decideWithin v.context v.context.maxNesting a v.start with
  | mk conforms st =>
  rw [validate_of_defined hl hdec] at h
  cases herr : st.errors with
  | nil =>
    simp only [herr] at h
    cases h
  | cons e errs =>
    simp only [herr] at h
    cases h
    exact List.mem_cons_self

/-- A call answers with an error of its decision, or its label is not defined. -/
theorem Validator.mem_errors_of_validate {err : ValidationError}
    (h : (v.validate a).1 = .error err) :
    err ∈ (decideWithin v.context v.context.maxNesting a v.start).2.errors ∨
      err = .unknownShape a.label := by
  by_cases hl : a.label ∈ v.context.schema.labels
  · exact .inl (mem_errors_of_defined hl h)
  · rw [validate_of_undefined hl] at h
    cases h
    exact .inr rfl

/-- Any calls leave nothing pending, whether they return errors or not. -/
theorem performAll_quiet (h : d.Builds v.context.schema) (hv : v.Quiet) (calls : List Call) :
    (v.performAll calls).2.context = v.context ∧ (v.performAll calls).2.Quiet := by
  induction calls generalizing v with
  | nil => exact ⟨rfl, hv⟩
  | cons c cs ih =>
    obtain ⟨hctx, hquiet⟩ := perform_quiet h hv c
    obtain ⟨hctx', hquiet'⟩ := ih (by rwa [hctx]) hquiet
    exact ⟨hctx'.trans hctx, hquiet'⟩

/-- Any calls give each association one verdict at most. -/
theorem performAll_proper (hv : v.typing.Proper) (calls : List Call) :
    (v.performAll calls).2.typing.Proper := by
  induction calls generalizing v with
  | nil => exact hv
  | cons c cs ih =>
    refine @ih (v.perform c).2 ?_
    cases c with
    | validate a =>
      exact ((v.validate_leads a).invariant Typing.Step.proper (fun _ h => h.of_byNode_eq rfl) hv).1
    | evaluate f candidates => exact hv
    | reset => exact Typing.proper_empty

/-- **The changes of a call**: the pending associations are those that are assumed. -/
theorem Validator.Quiet.history (h : d.Builds v.context.schema) (hv : v.Quiet)
    (hproper : v.typing.Proper) {m : Snapshot} (hm : m ∈ v.history a) :
    m.pending.Nodup ∧ (m.state.typing.listed .hypothesis).Perm m.pending ∧
      m.state.depth = (m.state.typing.listed .hypothesis).length ∧
      m.state.depth ≤ v.context.schema.maxPending v.context.graph a.node := by
  obtain ⟨hstack, hawaits⟩ := (hv.asked a).history h hm
  have hlisted : m.state.typing.Proper :=
    ((v.validate_leads a).invariant Typing.Step.proper (fun _ h => h.of_byNode_eq rfl) hproper).2 m hm
  have hperm : (m.state.typing.listed .hypothesis).Perm m.pending := by
    rw [List.perm_ext_iff_of_nodup (hlisted.nodup_listed _) hstack.nodup]
    exact fun b => hlisted.mem_listed.trans (hawaits.assumed b)
  refine ⟨hstack.nodup, hperm, hawaits.depth.trans hperm.length_eq.symm, ?_⟩
  rw [hawaits.depth]
  exact hstack.length_le_maxPending

end Calls

/-- **Validation terminates with bounded depth.** Whatever was asked of a validator of a built
schema before, a call ends at a depth that is at most the number of associations of the terms of the
graph or the node at hand with the labels: what the recursion does at greater depth does not matter.
At each change of the typing the pending associations are distinct and are the ones that are
assumed, and the depth is their number. So a cap on the depth that is at least the bound is never
exceeded. -/
theorem validate_depth {d : Definitions} {s : Schema} (h : d.build = .ok s) (g : Graph)
    (limits : Limits) (before : List Call) (a : Association) :
    let v := ((Validator.new s g limits).performAll before).2
    (∀ (base : Decider) (n : ℕ), s.maxPending g a.node < n →
      (decideWith v.context)^[n] base a v.start =
        decideWithin v.context v.context.maxNesting a v.start) ∧
    (∀ m ∈ v.history a, m.pending.Nodup ∧ (m.state.typing.listed .hypothesis).Perm m.pending ∧
      m.state.depth = (m.state.typing.listed .hypothesis).length ∧
      m.state.depth ≤ s.maxPending g a.node) ∧
    (v.validate a).1 ≠ .error (.fault .exhausted) ∧
    ((∀ cap ∈ limits.maxDepth, s.maxPending g a.node ≤ cap) → ∀ cap,
      .recursionLimit cap ∉ (decideWithin v.context v.context.maxNesting a v.start).2.errors ∧
        (v.validate a).1 ≠ .error (.recursionLimit cap)) := by
  intro v
  have hbuilds := Definitions.builds_of_build h
  have hnew : (Validator.new s g limits).Quiet := quiet_new s g limits
  obtain ⟨hctx, hquiet⟩ := performAll_quiet hbuilds hnew before
  have hctx' : v.context = ⟨s, g, limits⟩ := hctx
  have hproper : v.typing.Proper :=
    @performAll_proper (Validator.new s g limits) Typing.proper_empty before
  have hbuilds' : d.Builds v.context.schema := by rwa [hctx']
  have hasked := hquiet.asked a
  have hlt : s.maxPending g a.node < v.context.maxNesting := by
    rw [hctx']
    exact Context.maxPending_lt ⟨s, g, limits⟩ a.node
  have hbound : v.context.schema.maxPending v.context.graph a.node = s.maxPending g a.node := by
    rw [hctx']
  have hpossible : ∀ err ∈ (decideWithin v.context v.context.maxNesting a v.start).2.errors,
      err.Possible limits (s.maxPending g a.node) := by
    intro err herr
    rcases hasked.errors hbuilds' (by rw [hbound]; exact hlt) herr with hbefore | hnew
    · cases hbefore
    · rwa [hbound, hctx'] at hnew
  refine ⟨fun base n hn => ?_, fun m hm => ?_, fun hans => ?_, fun hcaps cap => ?_⟩
  · exact hasked.iterate_eq hbuilds' (by rw [hbound]; exact hn) (by rw [hbound]; exact hlt)
  · have hchange := hquiet.history hbuilds' hproper hm
    rwa [hbound] at hchange
  · rcases Validator.mem_errors_of_validate hans with herr | herr
    · exact hpossible _ herr
    · cases herr
  · have hnone : .recursionLimit cap ∉
        (decideWithin v.context v.context.maxNesting a v.start).2.errors := by
      intro herr
      obtain ⟨hcap, hexceeded⟩ := hpossible _ herr
      have hle := hcaps cap hcap
      omega
    refine ⟨hnone, fun hans => ?_⟩
    rcases Validator.mem_errors_of_validate hans with herr | herr
    · exact hnone herr
    · cases herr

/-- Nodes whose edges lead to such nodes. -/
def pathOnly : Definitions where
  shapes := [(.iri ⟨"urn:S"⟩, .shape ⟨true, [],
    .constraint ⟨⟨"urn:p"⟩, some (.ref (.iri ⟨"urn:S"⟩)), .star, false, none⟩, 0⟩)]
  tripleExprs := []
  start := none

def twoCycle : Graph := ⟨[⟨.iri ⟨"urn:n"⟩, ⟨"urn:p"⟩, .iri ⟨"urn:m"⟩⟩,
  ⟨.iri ⟨"urn:m"⟩, ⟨"urn:p"⟩, .iri ⟨"urn:n"⟩⟩]⟩

/-- A cap on the depth that is reached and not exceeded, after a call that returned an error. -/
theorem validate_depth_twoCycle :
    ∃ s, pathOnly.build = .ok s ∧ s.maxPending twoCycle (.iri ⟨"urn:n"⟩) = 2 ∧
      ∃ v, v = ((Validator.new s twoCycle ⟨some 2, none, 0, 0⟩).performAll
          [.validate ⟨.iri ⟨"urn:n"⟩, .iri ⟨"urn:X"⟩⟩]).2 ∧
        (v.history ⟨.iri ⟨"urn:n"⟩, .iri ⟨"urn:S"⟩⟩).map (·.state.depth) = [1, 2, 1, 0] ∧
        (v.validate ⟨.iri ⟨"urn:n"⟩, .iri ⟨"urn:S"⟩⟩).1 = .ok true ∧
        (∀ m ∈ v.history ⟨.iri ⟨"urn:n"⟩, .iri ⟨"urn:S"⟩⟩,
          m.pending.Nodup ∧ m.state.depth ≤ 2) ∧
        (decideWith v.context)^[3] (fun _ st => (false, st)) ⟨.iri ⟨"urn:n"⟩, .iri ⟨"urn:S"⟩⟩
            v.start =
          decideWithin v.context v.context.maxNesting ⟨.iri ⟨"urn:n"⟩, .iri ⟨"urn:S"⟩⟩ v.start ∧
        ∀ cap, (v.validate ⟨.iri ⟨"urn:n"⟩, .iri ⟨"urn:S"⟩⟩).1 ≠ .error (.recursionLimit cap) := by
  have hbuild : pathOnly.build = .ok
      { shapes := [(.iri ⟨"urn:S"⟩, .shape ⟨true, [],
          .constraint ⟨⟨"urn:p"⟩, some (.ref (.iri ⟨"urn:S"⟩)), .star, false, none⟩, 0⟩)]
        tripleExprs := [], start := none, shapeCount := 1, strata := [[.iri ⟨"urn:S"⟩]] } := by cbv
  have hbound : ∀ s, pathOnly.build = .ok s → s.maxPending twoCycle (.iri ⟨"urn:n"⟩) = 2 := by
    intro s hs
    cases hbuild.symm.trans hs
    decide
  obtain ⟨hends, hchanges, -, hcap⟩ := validate_depth hbuild twoCycle ⟨some 2, none, 0, 0⟩
    [.validate ⟨.iri ⟨"urn:n"⟩, .iri ⟨"urn:X"⟩⟩] ⟨.iri ⟨"urn:n"⟩, .iri ⟨"urn:S"⟩⟩
  rw [hbound _ hbuild] at hends hcap
  refine ⟨_, hbuild, hbound _ hbuild, _, rfl, by cbv, by cbv, fun m hm => ?_, hends _ 3 (by decide),
    fun cap => ?_⟩
  · obtain ⟨hnodup, -, -, hdepth⟩ := hchanges m hm
    rw [hbound _ hbuild] at hdepth
    exact ⟨hnodup, hdepth⟩
  · have hcaps : ∀ cap ∈ (Limits.mk (some 2) none 0 0).maxDepth, 2 ≤ cap := by simp
    exact (hcap hcaps cap).2

end ShapeTyping
