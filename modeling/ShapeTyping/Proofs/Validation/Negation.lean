import Mathlib
import ShapeTyping.Proofs.Validation.Cache
import ShapeTyping.Proofs.Validation.Stack
import ShapeTyping.Proofs.Validation.Trace

/-!
# Negation reads decided verdicts

The associations that are pending at a time are in strata that do not increase towards the
latest one. A negative reference leads to a lower stratum, so the verdict it reads is none of
theirs.

* `Event.Safe`: what is claimed of an event.
* `traceExpr_sound`, `traceWithin_sound`: an evaluation and a decision have safe events only.
* `runTraced_safe`: all events of all calls are safe.
-/

namespace ShapeTyping

/-! ### Safe events -/

/-- What is claimed of an event. An association is assumed on top of a stack whose strata do not
increase from caller to callee and which holds exactly the hypotheses of the typing. A verdict
that is read through a strict reference is decided. Of a lookup nothing is claimed, but of the
verdicts that it reads. -/
def Event.Safe (s : Schema) : Event → Prop
  | .assume pending a t =>
    (a :: pending).Pairwise (fun callee caller => s.NotAbove callee.label caller.label) ∧
      ∀ b, t.verdict? b = some .hypothesis ↔ b ∈ a :: pending
  | .read _ _ negative zero verdict =>
    negative = true ∨ zero = true → verdict = some .conforms ∨ verdict = some .fails
  | .lookup _ => True

theorem Event.safe_lookup (s : Schema) (p : Lookup) : (lookup p).Safe s := trivial

/-- A state of a run in which some associations are pending. -/
structure Traced.Sound (s : Schema) (stack : List Association) (t : Traced) : Prop where
  cached : t.state.Cached s
  pending : ∀ b, t.state.typing.verdict? b = some .hypothesis ↔ b ∈ stack
  safe : ∀ ev ∈ t.events, ev.Safe s

theorem Traced.Sound.emit {s : Schema} {stack : List Association} {t : Traced}
    (h : t.Sound s stack) {es : List Event} (hes : ∀ ev ∈ es, ev.Safe s) :
    (t.emit es).Sound s stack where
  cached := h.cached
  pending := h.pending
  safe ev hev := (List.mem_append.1 hev).elim (h.safe ev) (hes ev)

/-- A verdict that is there and not pending is decided. -/
theorem Traced.Sound.decided {s : Schema} {stack : List Association} {t : Traced}
    (h : t.Sound s stack) {b : Association} (hb : b ∉ stack)
    (hv : t.state.typing.verdict? b ≠ none) :
    t.state.typing.verdict? b = some .conforms ∨ t.state.typing.verdict? b = some .fails := by
  obtain ⟨v, hv⟩ := Option.ne_none_iff_exists'.1 hv
  cases v with
  | conforms => exact .inl hv
  | fails => exact .inr hv
  | hypothesis => exact absurd ((h.pending b).1 hv) hb

/-! ### Evaluations -/

section Evaluation

variable {d : Definitions} {ctx : Context} {nodes : List Term} {reader : Association}
  {pending : List Association} {n : ℕ}

/-- The evaluation of the definition of `reader` in a built schema while others are pending, if
nested decisions keep states sound. -/
structure Evaluation (d : Definitions) (ctx : Context) (nodes : List Term) (reader : Association)
    (pending : List Association) (n : ℕ) : Prop where
  builds : d.Builds ctx.schema
  nodes_mem : ∀ x ∈ ctx.graph.nodes, x ∈ nodes
  stack : Stack ctx.schema nodes (reader :: pending)
  nested : ∀ b, Callable ctx.schema nodes reader b →
    ∀ t : Traced, t.Sound ctx.schema (reader :: pending) →
      (traceWithin ctx (n + 1) (reader :: pending) b t).2.Sound ctx.schema (reader :: pending)

theorem traceValues_sound (h : Evaluation d ctx nodes reader pending n)
    {other : Term} {cs : List TripleConstraint}
    (hcall : ∀ c ∈ cs, ∀ l, c.valueLabel? = some l → Callable ctx.schema nodes reader ⟨other, l⟩)
    {t : Traced} (ht : t.Sound ctx.schema (reader :: pending)) :
    (traceValues (traceWithin ctx (n + 1) (reader :: pending)) other cs t).Sound ctx.schema
      (reader :: pending) := by
  induction cs generalizing t with
  | nil => exact ht
  | cons c cs ih =>
    have ih' := fun t ht => @ih (fun c hc => hcall c (List.mem_cons_of_mem _ hc)) t ht
    rw [traceValues]
    split
    · exact ih' t ht
    · rename_i l hl
      split
      · exact ih' t ht
      · exact ih' _ (h.nested _ (hcall c List.mem_cons_self l hl) t ht)

theorem traceEdges_sound (h : Evaluation d ctx nodes reader pending n)
    {s : Shape} {cs : List TripleConstraint} {es : List Edge}
    (hcall : ∀ e ∈ es, ∀ c ∈ cs, ∀ l, c.valueLabel? = some l →
      Callable ctx.schema nodes reader ⟨e.other, l⟩)
    {t : Traced} (ht : t.Sound ctx.schema (reader :: pending)) :
    (traceEdges (traceWithin ctx (n + 1) (reader :: pending)) s cs es t).2.Sound ctx.schema
      (reader :: pending) := by
  induction es generalizing t with
  | nil => exact ht
  | cons e es ih =>
    have ih' := fun t ht => @ih (fun e he => hcall e (List.mem_cons_of_mem _ he)) t ht
    rw [traceEdges]
    split
    · split
      · exact ih' t ht
      · exact ht
    · apply ih'
      apply traceValues_sound h _ ht
      intro c hc
      exact hcall e List.mem_cons_self c (List.mem_filter.1 hc).1

/-- **The verdicts read when edges are matched** are decided where they have to be. -/
theorem matchingReads_safe (h : Evaluation d ctx nodes reader pending n) {s : Shape}
    {c : Compiled} (hc : ctx.schema.compile s.expr = .ok c) {negative : Bool}
    (hdeps : ∀ dep ∈ (ShapeExpr.shape s).dependencies ctx.schema.tripleExprs reader.label negative,
      ctx.schema.Descends dep) {t : Traced}
    (ht : t.Sound ctx.schema (reader :: pending)) {es : List Edge}
    (hdec : ∀ e ∈ es, ∀ tc ∈ c.constraints, tc.matchesEdge e = true → ∀ l,
      tc.valueLabel? = some l → t.state.typing.verdict? ⟨e.other, l⟩ ≠ none) :
    ∀ ev ∈ matchingReads reader negative s c.constraints t.state.typing es, ev.Safe ctx.schema := by
  intro ev hev
  simp only [matchingReads, List.mem_flatMap, List.mem_filterMap, List.mem_filter] at hev
  obtain ⟨e, he, tc, ⟨htc, hm⟩, hev⟩ := hev
  obtain ⟨l, hl, rfl⟩ := Option.map_eq_some_iff.1 hev
  intro hstrict
  obtain ⟨z, hz, hzero⟩ := Schema.exists_dependency hc htc hl reader.label negative
  have hbelow : ctx.schema.Below l reader.label := by
    apply (hdeps _ hz).2
    rw [Dependency.strict?_ne_none]
    exact hstrict.imp_right hzero
  exact ht.decided (h.stack.notMem_of_below hbelow) (hdec e he tc htc hm l hl)

theorem traceShape_sound (h : Evaluation d ctx nodes reader pending n) {s : Shape}
    (hs : s ∈ ctx.schema.allShapes) {negative : Bool}
    (hdeps : ∀ dep ∈ (ShapeExpr.shape s).dependencies ctx.schema.tripleExprs reader.label negative,
      ctx.schema.Descends dep) {t : Traced} (ht : t.Sound ctx.schema (reader :: pending)) :
    (finalState (traceShape ctx (traceWithin ctx (n + 1) (reader :: pending)) reader negative s
      t)).Sound ctx.schema (reader :: pending) := by
  have hcached := compiledShape_cached h.builds hs ht.cached
  have htyping := compiledShape_extends ctx s t.state
  rw [traceShape]
  cases hcomp : compiledShape ctx s t.state with
  | error err st =>
    rw [hcomp] at hcached htyping
    exact ⟨hcached, fun b => (htyping.hypothesis_iff b).trans (ht.pending b), ht.safe⟩
  | ok c st =>
    rw [hcomp] at hcached htyping
    obtain ⟨hc, -⟩ := compiledShape_ok hs ht.cached hcomp
    have hst : (t.withState st).Sound ctx.schema (reader :: pending) :=
      ⟨hcached, fun b => (htyping.hypothesis_iff b).trans (ht.pending b), ht.safe⟩
    simp only
    split
    · exact hst
    have hcall : ∀ e ∈ neighbourhood ctx.graph c s.closed reader.node, ∀ tc ∈ c.constraints, ∀ l,
        tc.valueLabel? = some l → Callable ctx.schema nodes reader ⟨e.other, l⟩ :=
      fun e he tc htc l hl => callable_of_constraint h.builds h.nodes_mem hc hdeps he htc hl
    have hedges := traceEdges_sound h (s := s) hcall hst
    have herase := traceEdges_erases (traceWithin_erases ctx (n + 1) (reader :: pending)) s
      c.constraints (neighbourhood ctx.graph c s.closed reader.node) (t.withState st)
    split
    · rename_i t' heq
      rw [heq] at hedges
      exact hedges
    · rename_i t' heq
      rw [heq] at hedges herase
      -- all values have been decided, so the verdicts read next are there
      have hdec := decided_of_callable hcall herase.symm
      have hreads := matchingReads_safe h hc hdeps hedges hdec
      have hsound := fun p => hedges.emit
        (List.forall_mem_cons.2 ⟨Event.safe_lookup ctx.schema p, hreads⟩)
      split
      · exact hsound _
      · split <;> exact hsound _

mutual
theorem traceExpr_sound (h : Evaluation d ctx nodes reader pending n) :
    (negative : Bool) → (e : ShapeExpr) →
    (∀ s ∈ e.shapes, s ∈ ctx.schema.allShapes) →
    (∀ dep ∈ e.dependencies ctx.schema.tripleExprs reader.label negative,
      ctx.schema.Descends dep) → {t : Traced} → t.Sound ctx.schema (reader :: pending) →
    (finalState (traceExpr ctx (traceWithin ctx (n + 1) (reader :: pending)) reader negative e
      t)).Sound ctx.schema (reader :: pending)
  | negative, .and es, hs, hdeps, t, ht => by
    rw [ShapeExpr.dependencies] at hdeps
    rw [traceExpr]
    exact traceAll_sound h negative es hs hdeps ht
  | negative, .or es, hs, hdeps, t, ht => by
    rw [ShapeExpr.dependencies] at hdeps
    rw [traceExpr]
    exact traceAny_sound h negative es hs hdeps ht
  | negative, .not e, hs, hdeps, t, ht => by
    rw [ShapeExpr.dependencies] at hdeps
    have he := traceExpr_sound h true e hs hdeps ht
    rw [traceExpr]
    beta_reduce
    revert he
    rcases traceExpr ctx (traceWithin ctx (n + 1) (reader :: pending)) reader true e t with
      ⟨_ | ms, t'⟩ | ⟨err, t'⟩ <;> exact id
  | negative, .node c, _, _, t, ht => by
    rw [traceExpr]
    beta_reduce
    split <;> exact ht
  | negative, .shape s, hs, hdeps, t, ht => by
    rw [traceExpr]
    exact traceShape_sound h (hs s (by simp [ShapeExpr.shapes])) hdeps ht
  | negative, .external, _, _, t, ht => by
    rw [traceExpr]
    exact ht
  | negative, .ref l, _, hdeps, t, ht => by
    obtain ⟨hle, hlt⟩ := hdeps ⟨reader.label, l, negative, false⟩ (by simp [ShapeExpr.dependencies])
    obtain ⟨i, -, hi, -⟩ := id hle
    have hl : l ∈ ctx.schema.labels := h.builds.mem_labels_of_stratum? hi
    have hsound := h.nested ⟨reader.node, l⟩
      ⟨(h.stack.bounded reader List.mem_cons_self).1, hl, hle⟩ t ht
    have hverdict := decideWithin_verdict (n := n) (a := ⟨reader.node, l⟩) hl t.state
    rw [← traceWithin_erases ctx (n + 1) (reader :: pending)] at hverdict
    rw [traceExpr]
    refine hsound.emit fun ev hev => ?_
    obtain rfl := List.mem_singleton.1 hev
    intro hneg
    have hbelow : ctx.schema.Below l reader.label := by
      apply hlt
      rw [Dependency.strict?_ne_none]
      exact hneg
    exact hsound.decided (h.stack.notMem_of_below hbelow) hverdict

theorem traceAll_sound (h : Evaluation d ctx nodes reader pending n) :
    (negative : Bool) → (es : List ShapeExpr) →
    (∀ s ∈ ShapeExpr.shapesOfList es, s ∈ ctx.schema.allShapes) →
    (∀ dep ∈ ShapeExpr.dependenciesOfList ctx.schema.tripleExprs reader.label negative es,
      ctx.schema.Descends dep) → {t : Traced} → t.Sound ctx.schema (reader :: pending) →
    (finalState (traceAll ctx (traceWithin ctx (n + 1) (reader :: pending)) reader negative es
      t)).Sound ctx.schema (reader :: pending)
  | negative, [], _, _, t, ht => by
    rw [traceAll]
    exact ht
  | negative, e :: es, hs, hdeps, t, ht => by
    rw [ShapeExpr.dependenciesOfList] at hdeps
    have he := traceExpr_sound h negative e (fun s hm => hs s (List.mem_append_left _ hm))
      (fun dep hm => hdeps dep (List.mem_append_left _ hm)) ht
    have hes := fun t' ht' => traceAll_sound h negative es
      (fun s hm => hs s (List.mem_append_right _ hm))
      (fun dep hm => hdeps dep (List.mem_append_right _ hm)) (t := t') ht'
    rw [traceAll]
    beta_reduce
    revert he
    rcases traceExpr ctx (traceWithin ctx (n + 1) (reader :: pending)) reader negative e t with
      ⟨_ | ms, t'⟩ | ⟨err, t'⟩
    · exact id
    · intro he
      have hend := hes t' he
      revert hend
      simp only
      cases traceAll ctx (traceWithin ctx (n + 1) (reader :: pending)) reader negative es t' <;>
        exact id
    · exact id

theorem traceAny_sound (h : Evaluation d ctx nodes reader pending n) :
    (negative : Bool) → (es : List ShapeExpr) →
    (∀ s ∈ ShapeExpr.shapesOfList es, s ∈ ctx.schema.allShapes) →
    (∀ dep ∈ ShapeExpr.dependenciesOfList ctx.schema.tripleExprs reader.label negative es,
      ctx.schema.Descends dep) → {t : Traced} → t.Sound ctx.schema (reader :: pending) →
    (finalState (traceAny ctx (traceWithin ctx (n + 1) (reader :: pending)) reader negative es
      t)).Sound ctx.schema (reader :: pending)
  | negative, [], _, _, t, ht => by
    rw [traceAny]
    exact ht
  | negative, e :: es, hs, hdeps, t, ht => by
    rw [ShapeExpr.dependenciesOfList] at hdeps
    have he := traceExpr_sound h negative e (fun s hm => hs s (List.mem_append_left _ hm))
      (fun dep hm => hdeps dep (List.mem_append_left _ hm)) ht
    have hes := fun t' ht' => traceAny_sound h negative es
      (fun s hm => hs s (List.mem_append_right _ hm))
      (fun dep hm => hdeps dep (List.mem_append_right _ hm)) (t := t') ht'
    rw [traceAny]
    beta_reduce
    revert he
    rcases traceExpr ctx (traceWithin ctx (n + 1) (reader :: pending)) reader negative e t with
      ⟨_ | ms, t'⟩ | ⟨err, t'⟩
    · exact hes t'
    · exact id
    · exact id
end

end Evaluation

/-! ### Decisions -/

section Decisions

variable {d : Definitions} {ctx : Context} {nodes : List Term}

/-- **A decision has safe events only**, as long as its depth leaves room for all associations
that are not pending. -/
theorem traceWithin_sound (h : d.Builds ctx.schema) (hnodes : ∀ x ∈ ctx.graph.nodes, x ∈ nodes)
    {n : ℕ} {pending : List Association} (hstack : Stack ctx.schema nodes pending)
    (hn : n + pending.length = nodes.length * ctx.schema.labels.length + 1) {a : Association}
    (ha : a.node ∈ nodes) (hl : a.label ∈ ctx.schema.labels)
    (hle : ∀ b ∈ pending, ctx.schema.NotAbove a.label b.label) {t : Traced}
    (ht : t.Sound ctx.schema pending) :
    (traceWithin ctx n pending a t).2.Sound ctx.schema pending := by
  induction n generalizing pending a t with
  | zero =>
    have := hstack.length_le
    omega
  | succ n ih =>
    have herase := traceWithin_erases ctx (n + 1) pending a t
    have hext := (decideWithin_extends ctx (n + 1)).decision a t.state
    have hcached := (decideWithin_cached h (n + 1)).decision a t.state ht.cached
    rw [← herase] at hext hcached
    refine ⟨hcached, fun b => (hext.hypothesis_iff b).trans (ht.pending b), ?_⟩
    change ∀ ev ∈ (traceWith ctx (traceWithin ctx n (a :: pending)) pending a t).2.events, _
    rw [traceWith]
    cases hv : t.state.typing.verdict? a with
    | some v => exact ht.safe
    | none =>
    cases he : ctx.schema.shape? a.label with
    | none => exact ht.safe
    | some e =>
    have hmem : (a.label, e) ∈ ctx.schema.shapes := mem_of_lookup_eq_some he
    have hna : a ∉ pending := by
      intro hin
      have := (ht.pending a).2 hin
      rw [hv] at this
      cases this
    obtain ⟨hstack', m, rfl, hm⟩ := hstack.push hna hle ha hl hn
    have hopen := hypothesis_open_iff ht.pending a
    have heval : Evaluation d ctx nodes a pending m := by
      refine ⟨h, hnodes, hstack', fun b hb t ht => ?_⟩
      exact ih hstack' hm hb.1 hb.2.1 (hstack'.notAbove hb.2.2) ht
    have hstart : ((t.withState (t.state.open a)).emit
        [.assume pending a (t.state.open a).typing]).Sound ctx.schema (a :: pending) := by
      have hassumed : (t.withState (t.state.open a)).Sound ctx.schema (a :: pending) :=
        ⟨ht.cached, hopen, ht.safe⟩
      refine hassumed.emit fun ev hev => ?_
      obtain rfl := List.mem_singleton.1 hev
      exact ⟨hstack'.ordered, hopen⟩
    have hend : (finalState (traceDefinition ctx (traceWithin ctx (m + 1) (a :: pending)) a e
        ((t.withState (t.state.open a)).emit
          [.assume pending a (t.state.open a).typing]))).Sound ctx.schema (a :: pending) := by
      rw [traceDefinition]
      split
      · exact hstart
      · exact traceExpr_sound heval false e (fun s hs => Schema.mem_allShapes hmem hs)
          (fun dep hdep => h.descends hmem hdep) hstart
    simp only
    split
    · rename_i r t' heq
      rw [heq] at hend
      exact hend.safe
    · rename_i err t' heq
      rw [heq] at hend
      exact hend.safe

end Decisions

/-! ### Calls of a validator -/

/-- A validator between two calls: nothing is pending. -/
structure Validator.Quiet (v : Validator) : Prop where
  cached : v.state.Cached v.context.schema
  settled : ∀ b, v.state.typing.verdict? b ≠ some .hypothesis

theorem quiet_new (s : Schema) (g : Graph) (limits : Limits) :
    (Validator.new s g limits).Quiet :=
  ⟨cached_start s, fun b => by simp [Validator.new, State.start, Typing.empty, Typing.verdict?,
    Table.get?]⟩

/-- A call has safe events and leaves nothing pending. -/
theorem validateTraced_safe {d : Definitions} {v : Validator} (h : d.Builds v.context.schema)
    (hv : v.Quiet) (a : Association) :
    (v.validateTraced a).1.2.context = v.context ∧ (v.validateTraced a).1.2.Quiet ∧
      ∀ ev ∈ (v.validateTraced a).2, ev.Safe v.context.schema := by
  unfold Validator.validateTraced
  split
  · rename_i hcontains
    have hl : a.label ∈ v.context.schema.labels := by
      obtain ⟨e, he⟩ := Option.isSome_iff_exists.1 hcontains
      exact List.mem_map_of_mem (mem_of_lookup_eq_some he)
    have hstart : Traced.Sound v.context.schema []
        ⟨{ v.state with errors := [], depth := 0 }, []⟩ :=
      ⟨hv.cached, fun b => by simpa using hv.settled b, by simp⟩
    have hnodes : ∀ x ∈ v.context.graph.nodes, x ∈ a.node :: v.context.graph.nodes :=
      fun x hx => List.mem_cons_of_mem _ hx
    have hn := maxNesting_add_nil v.context a.node
    have hsound := traceWithin_sound h hnodes .nil hn List.mem_cons_self hl (by simp) hstart
    refine ⟨rfl, ⟨hsound.cached, fun b hb => ?_⟩, hsound.safe⟩
    simpa using (hsound.pending b).1 hb
  · exact ⟨rfl, hv, by simp⟩

/-- **Negation reads decided verdicts only.** However a new validator of a built schema is called,
with errors or without, an association is assumed on top of pending ones whose strata do not
increase from caller to callee, and a verdict read through a negative reference or one that
allows no triple is a decided one. -/
theorem runTraced_safe {d : Definitions} {s : Schema} (h : d.build = .ok s) (g : Graph)
    (limits : Limits) (calls : List Association) :
    ((Validator.new s g limits).runTraced calls).1 = (Validator.new s g limits).run calls ∧
      ∀ ev ∈ ((Validator.new s g limits).runTraced calls).2, ev.Safe s := by
  refine ⟨Validator.runTraced_fst _ calls, ?_⟩
  have hcontext : (Validator.new s g limits).context.schema = s := rfl
  have hquiet := quiet_new s g limits
  generalize Validator.new s g limits = v at hcontext hquiet ⊢
  subst hcontext
  induction calls generalizing v with
  | nil => simp [Validator.runTraced]
  | cons a calls ih =>
    obtain ⟨hctx, hq, hsafe⟩ := validateTraced_safe (Definitions.builds_of_build h) hquiet a
    have hlater := ih (v.validateTraced a).1.2 hq (by rw [hctx]; exact h)
    rw [hctx] at hlater
    intro ev hev
    rcases List.mem_append.1 hev with hev | hev
    · exact hsafe ev hev
    · exact hlater ev hev

/-- A shape that holds where another one does not, and where the values of an extra predicate
are of the other one. -/
def negatedReference : Definitions where
  shapes := [
    (.iri ⟨"urn:S"⟩, .and [.not (.ref (.iri ⟨"urn:T"⟩)), .shape ⟨false, [⟨"urn:p"⟩],
      .constraint ⟨⟨"urn:p"⟩, some (.ref (.iri ⟨"urn:T"⟩)), .one, false, none⟩, 0⟩]),
    (.iri ⟨"urn:T"⟩, .shape ⟨true, [], .constraint ⟨⟨"urn:q"⟩, none, .one, false, none⟩, 0⟩)]
  tripleExprs := []
  start := none

/-- Two calls, of which the second fails. The first reads two verdicts through negative references,
one below a negation and one through an extra predicate. -/
theorem runTraced_safe_negatedReference :
    ∃ s, negatedReference.build = .ok s ∧
      let v := Validator.new s ⟨[⟨.iri ⟨"urn:n"⟩, ⟨"urn:p"⟩, .iri ⟨"urn:m"⟩⟩,
        ⟨.iri ⟨"urn:m"⟩, ⟨"urn:q"⟩, .iri ⟨"urn:m"⟩⟩]⟩ .standard
      let calls := [⟨.iri ⟨"urn:n"⟩, .iri ⟨"urn:S"⟩⟩, ⟨.iri ⟨"urn:n"⟩, .iri ⟨"urn:X"⟩⟩]
      (v.run calls).1 = [.ok true, .error (.unknownShape (.iri ⟨"urn:X"⟩))] ∧
        (v.runTraced calls).2.filterMap Event.negativeRead? =
          [(⟨.iri ⟨"urn:n"⟩, .iri ⟨"urn:S"⟩⟩, ⟨.iri ⟨"urn:n"⟩, .iri ⟨"urn:T"⟩⟩, some .fails),
            (⟨.iri ⟨"urn:n"⟩, .iri ⟨"urn:S"⟩⟩, ⟨.iri ⟨"urn:m"⟩, .iri ⟨"urn:T"⟩⟩,
              some .conforms)] ∧
        (v.runTraced calls).1 = v.run calls ∧ ∀ ev ∈ (v.runTraced calls).2, ev.Safe s := by
  have hbuild : negatedReference.build = .ok
      { shapes := [
          (.iri ⟨"urn:S"⟩, .and [.not (.ref (.iri ⟨"urn:T"⟩)), .shape ⟨false, [⟨"urn:p"⟩],
            .constraint ⟨⟨"urn:p"⟩, some (.ref (.iri ⟨"urn:T"⟩)), .one, false, none⟩, 0⟩]),
          (.iri ⟨"urn:T"⟩,
            .shape ⟨true, [], .constraint ⟨⟨"urn:q"⟩, none, .one, false, none⟩, 1⟩)]
        tripleExprs := [], start := none, shapeCount := 2
        strata := [[.iri ⟨"urn:T"⟩], [.iri ⟨"urn:S"⟩]] } := by cbv
  exact ⟨_, hbuild, by cbv, by cbv, runTraced_safe hbuild _ _ _⟩

end ShapeTyping
