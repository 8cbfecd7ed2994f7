import Mathlib
import ShapeTyping.Proofs.Validation.Strict

/-!
# Errors in positive schemas

In a schema without negations, and without extra predicates that some constraint of the shape has,
definitions are monotone: what holds in a set of associations holds in each larger one. There what
conforms is supported by what may be relied on, whatever errors arise, so that an error may refute
an association of the greatest typing but confirms none that is not in it.

* `Schema.Positive`: the schemas.
* `Schema.Positive.holdsIn_mono`: their definitions are monotone.
* `State.Supported`: the invariant.
* `satisfies_holds`: an evaluation that succeeds holds in what may be relied on.
* `decideWithin_supported`: decisions keep the invariant, with errors or without.
* `Schema.Positive.mem_of_supported`: where nothing is pending, what conforms is in the greatest
  typing.
* `run_conforms_not_refuted`: what conforms after any calls is refuted by no new validator.
-/

namespace ShapeTyping

/-! ### Positive schemas -/

mutual
/-- Whether an expression has no negation outside of the definitions that it refers to. -/
def ShapeExpr.NegationFree : ShapeExpr → Prop
  | .and es => ShapeExpr.AllNegationFree es
  | .or es => ShapeExpr.AllNegationFree es
  | .not _ => False
  | .node _ => True
  | .shape _ => True
  | .external => True
  | .ref _ => True

def ShapeExpr.AllNegationFree : List ShapeExpr → Prop
  | [] => True
  | e :: es => e.NegationFree ∧ ShapeExpr.AllNegationFree es
end

/-- Whether no constraint of a shape has one of its extra predicates, references to triple
expressions followed. -/
def Shape.ExtraApart (s : Schema) (x : Shape) : Prop :=
  ∀ e, s.expand x.expr = .ok e → ∀ c ∈ e.constraints, x.isExtra c.predicate = false

theorem Shape.extraApart_of_extra {s : Schema} {x : Shape} (h : x.extra = []) :
    x.ExtraApart s :=
  fun _ _ _ _ => by simp [Shape.isExtra, h]

/-- Schemas without negations and without extra predicates of constraints. The values of a built
schema are references, so the definitions of a schema are all of its expressions. -/
structure Schema.Positive (s : Schema) : Prop where
  negationFree : ∀ p ∈ s.shapes, p.2.NegationFree
  extraApart : ∀ x ∈ s.allShapes, x.ExtraApart s

section Mono

variable {s : Schema} {g : Graph} {T T' : Set Association}

/-- **A shape is monotone** if its constraints have no extra predicate. -/
theorem Shape.AcceptedIn.mono_of_extraApart {x : Shape} (hx : x.ExtraApart s) (hsub : T ⊆ T')
    {node : Term} (h : x.AcceptedIn s g T node) : x.AcceptedIn s g T' node := by
  refine Shape.acceptedIn_readsEnds s g T T' node x ?_ h
  intro c hc e _ tc htc _ l _
  obtain ⟨y, hy, rfl⟩ := Except.map_eq_ok hc
  have hapart := hx y hy tc (TripleExpr.mem_constraints_unfold y htc)
  exact ⟨fun hT => hsub hT, fun hextra => by simp [hapart] at hextra⟩

mutual
/-- **An expression without negation is monotone.** -/
theorem ShapeExpr.HoldsIn.mono_of_negationFree (hsub : T ⊆ T') {node : Term} : (e : ShapeExpr) →
    e.NegationFree → (∀ x ∈ e.shapes, x.ExtraApart s) →
    e.HoldsIn (Shape.AcceptedIn s g) T node → e.HoldsIn (Shape.AcceptedIn s g) T' node
  | .and es, hneg, hs, h => by
    rw [ShapeExpr.HoldsIn] at h ⊢
    exact ShapeExpr.AllHoldIn.mono_of_negationFree hsub es hneg hs h
  | .or es, hneg, hs, h => by
    rw [ShapeExpr.HoldsIn] at h ⊢
    exact ShapeExpr.AnyHoldsIn.mono_of_negationFree hsub es hneg hs h
  | .not _, hneg, _, _ => hneg.elim
  | .node _, _, _, h => h
  | .shape x, _, hs, h => by
    rw [ShapeExpr.HoldsIn] at h ⊢
    exact h.mono_of_extraApart (hs x (by simp [ShapeExpr.shapes])) hsub
  | .external, _, _, h => h
  | .ref _, _, _, h => hsub h

theorem ShapeExpr.AllHoldIn.mono_of_negationFree (hsub : T ⊆ T') {node : Term} :
    (es : List ShapeExpr) → ShapeExpr.AllNegationFree es →
    (∀ x ∈ ShapeExpr.shapesOfList es, x.ExtraApart s) →
    ShapeExpr.AllHoldIn (Shape.AcceptedIn s g) T node es →
      ShapeExpr.AllHoldIn (Shape.AcceptedIn s g) T' node es
  | [], _, _, _ => trivial
  | e :: es, hneg, hs, h => by
    rw [ShapeExpr.AllHoldIn] at h ⊢
    exact ⟨ShapeExpr.HoldsIn.mono_of_negationFree hsub e hneg.1
        (fun x hx => hs x (List.mem_append_left _ hx)) h.1,
      ShapeExpr.AllHoldIn.mono_of_negationFree hsub es hneg.2
        (fun x hx => hs x (List.mem_append_right _ hx)) h.2⟩

theorem ShapeExpr.AnyHoldsIn.mono_of_negationFree (hsub : T ⊆ T') {node : Term} :
    (es : List ShapeExpr) → ShapeExpr.AllNegationFree es →
    (∀ x ∈ ShapeExpr.shapesOfList es, x.ExtraApart s) →
    ShapeExpr.AnyHoldsIn (Shape.AcceptedIn s g) T node es →
      ShapeExpr.AnyHoldsIn (Shape.AcceptedIn s g) T' node es
  | [], _, _, h => h
  | e :: es, hneg, hs, h => by
    rw [ShapeExpr.AnyHoldsIn] at h ⊢
    rcases h with h | h
    · exact .inl (ShapeExpr.HoldsIn.mono_of_negationFree hsub e hneg.1
        (fun x hx => hs x (List.mem_append_left _ hx)) h)
    · exact .inr (ShapeExpr.AnyHoldsIn.mono_of_negationFree hsub es hneg.2
        (fun x hx => hs x (List.mem_append_right _ hx)) h)
end

/-- **The definitions of a positive schema** are monotone. -/
theorem Schema.Positive.holdsIn_mono (hs : s.Positive) (hsub : T ⊆ T') {a : Association}
    (h : s.HoldsIn (Shape.AcceptedIn s g) T a) : s.HoldsIn (Shape.AcceptedIn s g) T' a := by
  obtain ⟨e, he, hhold⟩ := h
  have hmem : (a.label, e) ∈ s.shapes := mem_of_lookup_eq_some he
  refine ⟨e, he, ShapeExpr.HoldsIn.mono_of_negationFree hsub e (hs.negationFree _ hmem) ?_ hhold⟩
  exact fun x hx => hs.extraApart x (Schema.mem_allShapes hmem hx)

end Mono

/-! ### Evaluations that succeed -/

/-- What a run may rely on. -/
def State.trusted (st : State) : Set Association := {b | st.typing.contains b = true}

theorem State.Extends.trusted {st st' : State} (h : st.Extends st') : st.trusted ⊆ st'.trusted :=
  fun _ hb => h.contains hb

/-- A state in which the definition of each conforming association holds in what may be relied
on. -/
structure State.Supported (ctx : Context) (st : State) : Prop where
  cached : st.Cached ctx.schema
  supported : ∀ b, st.typing.verdict? b = some .conforms →
    ctx.schema.HoldsIn (Shape.AcceptedIn ctx.schema ctx.graph) st.trusted b

/-- A decider of associations of a built schema: it keeps what may be relied on and the cache, and
what it says to conform may be relied on. -/
structure Decider.Trusted (d : Definitions) (ctx : Context) (recur : Decider) : Prop where
  builds : d.Builds ctx.schema
  extend : recur.Respects State.Extends
  cached : recur.Respects fun st st' => st.Cached ctx.schema → st'.Cached ctx.schema
  answer : ∀ b st, (recur b st).1 = true → b ∈ (recur b st).2.trusted

section Evaluation

variable {d : Definitions} {ctx : Context} {recur : Decider} {node : Term}

/-- **A shape whose evaluation succeeds** is accepted in what may be relied on. -/
theorem satisfiesShape_holds {x : Shape} (hx : x ∈ ctx.schema.allShapes) {st st' : State}
    {ms : List MatchedTriple} (hst : st.Cached ctx.schema)
    (hr : satisfiesShape ctx recur node x st = .ok (some ms) st') :
    x.AcceptedIn ctx.schema ctx.graph st'.trusted node := by
  rw [satisfiesShape_eq] at hr
  cases hcomp : compiledShape ctx x st with
  | error err st₁ =>
    rw [hcomp] at hr
    cases hr
  | ok c st₁ =>
  rw [hcomp] at hr
  obtain ⟨hc, -⟩ := compiledShape_ok hx hst hcomp
  simp only [neighbourhood_eq hc] at hr
  by_cases hnil : c.constraints = []
  · rw [if_pos (by simp [hnil])] at hr
    refine (acceptedIn_iff_of_nil hc hnil).2 fun hclosed => ?_
    by_contra hne
    rw [if_neg (by simpa [hclosed] using hne)] at hr
    cases hr
  rw [if_neg (by simpa using hnil)] at hr
  rcases hd : decideEdges recur x c.constraints (ctx.graph.listed c.constraints x.closed node) st₁
    with ⟨_ | _, st₂⟩
  · rw [hd] at hr
    cases hr
  rw [hd] at hr
  cases ha : assignableEdges st₂.typing x c.constraints
      (ctx.graph.listed c.constraints x.closed node) with
  | none =>
    simp only [ha] at hr
    cases hr
  | some assignable =>
    simp only [ha] at hr
    split at hr
    · rename_i b hb
      cases hr
      -- candidates are read from the typing, which is what may be relied on
      refine acceptedIn_of_found hc hnil (fun e _ tc _ => ?_) ha hb
      rw [TripleConstraint.accepts, TripleConstraint.FitsIn, Bool.and_eq_true, Option.all_eq_true]
      rfl
    · cases hr
    · cases hr

variable (h : recur.Trusted d ctx)
include h

mutual
/-- **An expression whose evaluation succeeds** holds in what may be relied on. -/
theorem satisfies_holds (hpos : ctx.schema.Positive) : (e : ShapeExpr) → e.NegationFree →
    (∀ x ∈ e.shapes, x ∈ ctx.schema.allShapes) → {st st' : State} → {ms : List MatchedTriple} →
    st.Cached ctx.schema → satisfies ctx recur node e st = .ok (some ms) st' →
    e.HoldsIn (Shape.AcceptedIn ctx.schema ctx.graph) st'.trusted node
  | .and es, hneg, hs, st, st', ms, hst, hr => by
    rw [satisfies] at hr
    rw [ShapeExpr.HoldsIn]
    exact satisfiesAll_holds hpos es hneg hs hst hr
  | .or es, hneg, hs, st, st', ms, hst, hr => by
    rw [satisfies] at hr
    rw [ShapeExpr.HoldsIn]
    exact satisfiesAny_holds hpos es hneg hs hst hr
  | .not _, hneg, _, _, _, _, _, _ => hneg.elim
  | .node c, _, _, st, st', ms, _, hr => by
    rw [satisfies_node] at hr
    rw [ShapeExpr.HoldsIn]
    split at hr
    · cases hr
    · rename_i hc
      exact (NodeConstraint.holds_iff hc).2 rfl
    · cases hr
  | .shape x, _, hs, st, st', ms, hst, hr => by
    rw [satisfies] at hr
    rw [ShapeExpr.HoldsIn]
    exact satisfiesShape_holds (hs x (by simp [ShapeExpr.shapes])) hst hr
  | .external, _, _, st, st', ms, _, hr => by
    rw [satisfies] at hr
    cases hr
  | .ref l, _, _, st, st', ms, _, hr => by
    rw [satisfies_ref] at hr
    rw [ShapeExpr.HoldsIn]
    by_cases hyes : (recur ⟨node, l⟩ st).1 = true
    · rw [if_pos hyes] at hr
      cases hr
      exact h.answer _ _ hyes
    · rw [if_neg hyes] at hr
      cases hr

theorem satisfiesAll_holds (hpos : ctx.schema.Positive) : (es : List ShapeExpr) →
    ShapeExpr.AllNegationFree es →
    (∀ x ∈ ShapeExpr.shapesOfList es, x ∈ ctx.schema.allShapes) → {st st' : State} →
    {ms : List MatchedTriple} → st.Cached ctx.schema →
    satisfiesAll ctx recur node es st = .ok (some ms) st' →
    ShapeExpr.AllHoldIn (Shape.AcceptedIn ctx.schema ctx.graph) st'.trusted node es
  | [], _, _, _, _, _, _, _ => trivial
  | e :: es, hneg, hs, st, st', ms, hst, hr => by
    have hse := fun x hx => hs x (List.mem_append_left _ hx)
    rw [satisfiesAll_cons] at hr
    rw [ShapeExpr.AllHoldIn]
    have hnext : (finalState (satisfies ctx recur node e st)).Cached ctx.schema :=
      satisfies_rel h.cached e (fun x hx st => compiledShape_cached h.builds (hse x hx)) st hst
    rcases hfirst : satisfies ctx recur node e st with ⟨_ | ms₁, st₁⟩ | ⟨err, st₁⟩
    · rw [hfirst] at hr
      cases hr
    · rw [hfirst] at hr hnext
      simp only at hr
      have hlater : st₁.Extends (finalState (satisfiesAll ctx recur node es st₁)) :=
        satisfiesAll_rel h.extend es (fun x _ => compiledShape_extends ctx x) st₁
      rcases hrest : satisfiesAll ctx recur node es st₁ with ⟨_ | ms₂, st₂⟩ | ⟨err, st₂⟩
      · rw [hrest] at hr
        cases hr
      · rw [hrest] at hr hlater
        cases hr
        -- the first conjunct goes on to hold while the others are evaluated
        refine ⟨ShapeExpr.HoldsIn.mono_of_negationFree hlater.trusted e hneg.1
          (fun x hx => hpos.extraApart x (hse x hx)) (satisfies_holds hpos e hneg.1 hse hst hfirst),
          satisfiesAll_holds hpos es hneg.2 (fun x hx => hs x (List.mem_append_right _ hx)) hnext
            hrest⟩
      · rw [hrest] at hr
        cases hr
    · rw [hfirst] at hr
      cases hr

theorem satisfiesAny_holds (hpos : ctx.schema.Positive) : (es : List ShapeExpr) →
    ShapeExpr.AllNegationFree es →
    (∀ x ∈ ShapeExpr.shapesOfList es, x ∈ ctx.schema.allShapes) → {st st' : State} →
    {ms : List MatchedTriple} → st.Cached ctx.schema →
    satisfiesAny ctx recur node es st = .ok (some ms) st' →
    ShapeExpr.AnyHoldsIn (Shape.AcceptedIn ctx.schema ctx.graph) st'.trusted node es
  | [], _, _, _, _, _, _, hr => by
    rw [satisfiesAny] at hr
    cases hr
  | e :: es, hneg, hs, st, st', ms, hst, hr => by
    have hse := fun x hx => hs x (List.mem_append_left _ hx)
    rw [satisfiesAny_cons] at hr
    rw [ShapeExpr.AnyHoldsIn]
    have hnext : (finalState (satisfies ctx recur node e st)).Cached ctx.schema :=
      satisfies_rel h.cached e (fun x hx st => compiledShape_cached h.builds (hse x hx)) st hst
    rcases hfirst : satisfies ctx recur node e st with ⟨_ | ms₁, st₁⟩ | ⟨err, st₁⟩
    · rw [hfirst] at hr hnext
      exact .inr (satisfiesAny_holds hpos es hneg.2
        (fun x hx => hs x (List.mem_append_right _ hx)) hnext hr)
    · rw [hfirst] at hr
      cases hr
      exact .inl (satisfies_holds hpos e hneg.1 hse hst hfirst)
    · rw [hfirst] at hr
      cases hr
end

end Evaluation

/-! ### Decisions -/

section Decisions

variable {d : Definitions} {ctx : Context} {recur : Decider} {a : Association} {st st' : State}

/-- What a decision says to conform may be relied on. -/
theorem decideWith_trusted (h : (decideWith ctx recur a st).1 = true) :
    a ∈ (decideWith ctx recur a st).2.trusted := by
  generalize hd : decideWith ctx recur a st = dec at h
  cases decision hd with
  | @known v hv =>
    refine Typing.contains_of_ne_fails (by simp [hv]) ?_
    simpa [hv] using h
  | undefined ha hl => cases h
  | @evaluated e r st' ha he hev =>
    obtain ⟨ms, rfl⟩ := Option.isSome_iff_exists.1 h
    have hconf := verdict?_close_some st' a a (st.open a).typing.checkpoint ms
    exact Typing.contains_eq_true.2 (.inl (hconf.trans (if_pos rfl)))
  | failed ha he hev => cases h

theorem decideWithin_trusted (hb : d.Builds ctx.schema) (n : ℕ) :
    (decideWithin ctx n).Trusted d ctx where
  builds := hb
  extend := decideWithin_extends ctx n
  cached := decideWithin_cached hb n
  answer b st h := by
    cases n with
    | zero => cases h
    | succ n => exact decideWith_trusted h

/-- What is supported stays so where more may be relied on. -/
theorem Schema.Positive.supported_mono (hpos : ctx.schema.Positive) (hst : st.Supported ctx)
    (hsub : st.trusted ⊆ st'.trusted) {b : Association}
    (hb : st.typing.verdict? b = some .conforms) :
    ctx.schema.HoldsIn (Shape.AcceptedIn ctx.schema ctx.graph) st'.trusted b :=
  hpos.holdsIn_mono hsub (hst.supported b hb)

/-- Nothing changes if no verdict does. -/
theorem State.Supported.of_typing_eq (hst : st.Supported ctx) (hc : st'.Cached ctx.schema)
    (ht : ∀ b, st'.typing.verdict? b = st.typing.verdict? b) : st'.Supported ctx where
  cached := hc
  supported b hb := by
    have htrusted : st'.trusted = st.trusted := by
      ext c
      simp only [State.trusted, Set.mem_ofPred_eq, Typing.contains_eq_true, ht]
    rw [htrusted]
    rw [ht] at hb
    exact hst.supported b hb

theorem State.Supported.open (hpos : ctx.schema.Positive) (hst : st.Supported ctx)
    (ha : st.typing.verdict? a = none) : (st.open a).Supported ctx where
  cached := hst.cached
  supported b hb := by
    have hba : b ≠ a := by rintro rfl; simp [verdict?_open] at hb
    rw [verdict?_open_of_ne hba] at hb
    refine hpos.supported_mono hst (fun c hc => ?_) hb
    have hca : c ≠ a := by
      rintro rfl
      simp [State.trusted, Typing.contains, ha] at hc
    rw [State.trusted, Set.mem_ofPred_eq, Typing.contains_eq_true] at hc ⊢
    rwa [verdict?_open_of_ne hca]

/-- **Confirming** what holds in what may be relied on keeps states supported. -/
theorem State.Supported.confirm (hpos : ctx.schema.Positive) (hst : st.Supported ctx)
    (ha : ctx.schema.HoldsIn (Shape.AcceptedIn ctx.schema ctx.graph) st.trusted a) (n : ℕ)
    (ms : List MatchedTriple) : (st.close a n (some ms)).Supported ctx where
  cached := hst.cached
  supported b hb := by
    have hsub : st.trusted ⊆ (st.close a n (some ms)).trusted := by
      intro c hc
      rw [State.trusted, Set.mem_ofPred_eq, Typing.contains_eq_true] at hc ⊢
      rw [verdict?_close_some]
      by_cases hca : c = a
      · simp [hca]
      · rwa [if_neg hca]
    rw [verdict?_close_some] at hb
    by_cases hba : b = a
    · rw [hba]
      exact hpos.holdsIn_mono hsub ha
    · rw [if_neg hba] at hb
      exact hpos.supported_mono hst hsub hb

/-- **Refuting** keeps states supported: what still conforms did so before the assumption. -/
theorem State.Supported.refute (hpos : ctx.schema.Positive) (hst : st.Supported ctx)
    (hc : st'.Cached ctx.schema) (ha : st.typing.verdict? a = none)
    (hext : (st.open a).Extends st') :
    (st'.close a (st.open a).typing.checkpoint none).Supported ctx where
  cached := hc
  supported _ hb :=
    hpos.supported_mono hst (extends_close_none ha hext).trusted (conforms_of_close_none ha hext hb)

/-- **Decisions keep states supported**, whether errors arise or not. -/
theorem decideWithin_supported (hb : d.Builds ctx.schema) (hpos : ctx.schema.Positive) (n : ℕ) :
    (decideWithin ctx n).Respects fun st st' => st.Supported ctx → st'.Supported ctx := by
  refine ⟨fun _ hst => hst, fun h1 h2 hst => h2 (h1 hst), ?_⟩
  induction n with
  | zero => exact fun a st hst => hst.of_typing_eq hst.cached fun b => rfl
  | succ n ih =>
    intro a st hst
    -- the state in which the definition has been evaluated
    have hduring : ∀ e, st.typing.verdict? a = none → ctx.schema.shape? a.label = some e →
        (st.open a).Extends
            (finalState (evaluateDefinition ctx (decideWithin ctx n) a.node e (st.open a))) ∧
          (finalState (evaluateDefinition ctx (decideWithin ctx n) a.node e (st.open a))).Supported
            ctx := by
      intro e ha he
      have hmem : (a.label, e) ∈ ctx.schema.shapes := mem_of_lookup_eq_some he
      refine ⟨evaluateDefinition_extends (decideWithin_extends ctx n) a.node e _, ?_⟩
      refine evaluateDefinition_rel
        (R := fun st st' => st.Supported ctx → st'.Supported ctx)
        ⟨fun _ hst => hst, fun h1 h2 hst => h2 (h1 hst), ih⟩ a.node e (fun x hx st hst => ?_) _
        (hst.open hpos ha)
      have hcached := compiledShape_cached hb (Schema.mem_allShapes hmem hx) hst.cached
      exact hst.of_typing_eq hcached fun b => by rw [typing_compiledShape]
    rw [decideWithin]
    generalize hd : decideWith ctx (decideWithin ctx n) a st = dec
    cases decision hd with
    | known hv => exact hst
    | undefined ha hl => exact hst.of_typing_eq hst.cached fun b => rfl
    | @evaluated e r st' ha he hev =>
      have hmem : (a.label, e) ∈ ctx.schema.shapes := mem_of_lookup_eq_some he
      obtain ⟨hext, hst'⟩ := hduring e ha he
      rw [hev] at hext hst'
      cases r with
      | none => exact hst.refute hpos hst'.cached ha hext
      | some ms =>
        refine hst'.confirm hpos ⟨e, he, ?_⟩ (st.open a).typing.checkpoint ms
        exact satisfies_holds (decideWithin_trusted hb n) hpos e (hpos.negationFree _ hmem)
          (fun x hx => Schema.mem_allShapes hmem hx) (hst.open hpos ha).cached
          (satisfies_of_evaluateDefinition hev)
    | @failed e err st' ha he hev =>
      obtain ⟨hext, hst'⟩ := hduring e ha he
      rw [hev] at hext hst'
      exact hst.refute hpos hst'.cached ha (hext.trans (.addError st' err))

end Decisions

/-! ### Calls of a validator -/

section Calls

variable {d : Definitions} {v : Validator}

theorem Validator.validate_supported (hb : d.Builds v.context.schema)
    (hpos : v.context.schema.Positive) (hv : v.state.Supported v.context) (a : Association) :
    (v.validate a).2.state.Supported v.context := by
  unfold Validator.validate
  split
  · have hstart : State.Supported v.context { v.state with errors := [], depth := 0 } :=
      hv.of_typing_eq hv.cached fun b => rfl
    have hend := (decideWithin_supported hb hpos v.context.maxNesting).decision a _ hstart
    exact hend.of_typing_eq hend.cached fun b => rfl
  · exact hv

/-- **Any calls**, by induction over them. -/
theorem Validator.run_supported (calls : List Association) (hb : d.Builds v.context.schema)
    (hpos : v.context.schema.Positive) (hq : v.Quiet) (hv : v.state.Supported v.context) :
    (v.run calls).2.context = v.context ∧ (v.run calls).2.Quiet ∧
      (v.run calls).2.state.Supported v.context := by
  induction calls generalizing v with
  | nil => exact ⟨rfl, hq, hv⟩
  | cons a calls ih =>
    obtain ⟨hctx, hquiet⟩ := validate_quiet hb hq a
    have hsupported := Validator.validate_supported hb hpos hv a
    rw [← hctx] at hb hpos hsupported
    obtain ⟨hend, hrest⟩ := ih hb hpos hquiet hsupported
    rw [hctx] at hend hrest
    exact ⟨hend, hrest⟩

/-- **Where nothing is pending, what conforms is in the greatest typing**, stratum by stratum: with
the greatest typing it makes a set that supports itself. -/
theorem Schema.Positive.mem_of_supported {ctx : Context} {T : Set Association}
    (hset : Grounds d ctx T) (hpos : ctx.schema.Positive) {st : State} (hst : st.Supported ctx)
    (hquiet : ∀ b, st.typing.verdict? b ≠ some .hypothesis) {a : Association}
    (ha : st.typing.verdict? a = some .conforms) : a ∈ T := by
  have hread := Shape.acceptedIn_readsEnds ctx.schema ctx.graph
  have hhold : ∀ b ∈ st.trusted ∪ T, ctx.schema.HoldsIn
      (Shape.AcceptedIn ctx.schema ctx.graph) (st.trusted ∪ T) b := by
    rintro b (hb | hb)
    · have hconf := (Typing.contains_eq_true.1 hb).resolve_right (hquiet b)
      exact hpos.holdsIn_mono Set.subset_union_left (hst.supported b hconf)
    · have hholdT := hset.builds.holdsIn_of_mem hread hset.greatest hb
      exact hpos.holdsIn_mono Set.subset_union_right hholdT
  have hstratum : ∀ i, st.trusted ∩ ctx.schema.inStratum i ⊆ T := by
    intro i
    induction i using Nat.strong_induction_on with
    | _ i ih =>
      have hsub : (st.trusted ∪ T) ∩ ctx.schema.inStratum i ⊆ ctx.schema.inStratum i :=
        Set.inter_subset_right
      -- below the stratum only the greatest typing is left
      have hlow : (st.trusted ∪ T) ∩ ctx.schema.below i =
          (T ∩ ctx.schema.below i ∪ (st.trusted ∪ T) ∩ ctx.schema.inStratum i) ∩
            ctx.schema.below i := by
        rw [Schema.union_inter_below hsub]
        ext b
        constructor
        · rintro ⟨hb | hb, hbelow⟩
          · obtain ⟨j, hj, hbj⟩ := hbelow
            exact ⟨ih j hj ⟨hb, hbj⟩, j, hj, hbj⟩
          · exact ⟨hb, hbelow⟩
        · rintro ⟨hb, hbelow⟩
          exact ⟨.inr hb, hbelow⟩
      have hsupp : (st.trusted ∪ T) ∩ ctx.schema.inStratum i ∈
          ctx.schema.Supported (Shape.AcceptedIn ctx.schema ctx.graph) T i := by
        refine ⟨hsub, fun b hb => ?_⟩
        exact hset.builds.holdsIn_mono hread hb.2 (fun c hc hci => .inr ⟨hc, hci⟩) hlow
          (hhold b hb.1)
      rintro b ⟨hb, hbi⟩
      exact ((hset.greatest.greatest i).2 hsupp ⟨.inl hb, hbi⟩).1
  obtain ⟨e, he, -⟩ := hst.supported a ha
  have hl : a.label ∈ ctx.schema.labels := List.mem_map_of_mem (mem_of_lookup_eq_some he)
  obtain ⟨i, hi, -⟩ := hset.builds.stratum_lt hl
  exact hstratum i ⟨Typing.contains_eq_true.2 (.inl ha), hi⟩

end Calls

/-- **Errors only refute in a positive schema.** Whatever calls are made to a new validator, with
errors or without, an association that conforms after them is in the greatest typing: no new
validator answers that it does not conform, with limits that are larger or with any others. -/
theorem run_conforms_not_refuted {d : Definitions} {s : Schema} (h : d.build = .ok s)
    (hpos : s.Positive) (g : Graph) (limits limits' : Limits)
    (calls : List Association) {a : Association}
    (ha : ((Validator.new s g limits).run calls).2.typing.verdict? a = some .conforms) :
    ((Validator.new s g limits').validate a).1 ≠ .ok false := by
  have hbuilds := Definitions.builds_of_build h
  have hgreatest := hbuilds.stratifiedGreatest_typing_of_readsEnds (Shape.acceptedIn_readsEnds s g)
  have hset : ∀ limits, Grounds d ⟨s, g, limits⟩ (s.typing (Shape.AcceptedIn s g)) :=
    fun _ => ⟨hbuilds, hgreatest⟩
  have hstart : (Validator.new s g limits).state.Supported ⟨s, g, limits⟩ :=
    ⟨cached_start s, fun b hb => by cases hb⟩
  obtain ⟨-, hquiet, hsupported⟩ := Validator.run_supported (v := .new s g limits) calls
    hbuilds hpos (quiet_new s g limits) hstart
  have hmem := hpos.mem_of_supported (hset limits) hsupported hquiet.settled ha
  -- an answer of the new validator says whether the association is in the greatest typing
  intro hfalse
  obtain ⟨-, -, hiff⟩ := validate_sound (v := .new s g limits') (hset limits')
    (sound_start ⟨s, g, limits'⟩ _) hfalse
  exact absurd (hiff.2 hmem) (by simp)

/-- Nodes whose paths lead to such nodes again: all nodes. -/
def anyPath : Definitions where
  shapes := [(.iri ⟨"urn:S"⟩, .shape ⟨false, [],
    .constraint ⟨⟨"urn:p"⟩, some (.ref (.iri ⟨"urn:S"⟩)), .star, false, none⟩, 0⟩)]
  tripleExprs := []
  start := none

/-- A path that is one node too long for the limits is an error. The node with an edge to itself
conforms nevertheless, and that is what a validator without the limit says. -/
theorem run_conforms_not_refuted_anyPath :
    ∃ s, anyPath.build = .ok s ∧ s.Positive ∧
      let v := Validator.new s selfLoopAndSink { Limits.standard with maxDepth := some 1 }
      let calls : List Association := [⟨.iri ⟨"urn:m"⟩, .iri ⟨"urn:S"⟩⟩,
        ⟨.iri ⟨"urn:n"⟩, .iri ⟨"urn:S"⟩⟩]
      (v.run calls).1 = [.error (.recursionLimit 1), .ok true] ∧
      (v.run calls).2.typing.verdict? ⟨.iri ⟨"urn:n"⟩, .iri ⟨"urn:S"⟩⟩ = some .conforms ∧
      ((Validator.new s selfLoopAndSink .standard).validate
        ⟨.iri ⟨"urn:n"⟩, .iri ⟨"urn:S"⟩⟩).1 ≠ .ok false := by
  have hbuild : anyPath.build = .ok
      { shapes := [(.iri ⟨"urn:S"⟩, .shape ⟨false, [],
          .constraint ⟨⟨"urn:p"⟩, some (.ref (.iri ⟨"urn:S"⟩)), .star, false, none⟩, 0⟩)]
        tripleExprs := [], start := none, shapeCount := 1
        strata := [[.iri ⟨"urn:S"⟩]] } := by cbv
  have hpos : ∀ s, anyPath.build = .ok s → s.Positive := by
    intro s hs
    cases hbuild.symm.trans hs
    refine ⟨by simp [ShapeExpr.NegationFree], ?_⟩
    simp [Schema.allShapes, ShapeExpr.shapes, Shape.extraApart_of_extra]
  refine ⟨_, hbuild, hpos _ hbuild, ?_⟩
  intro v calls
  have hconf : (v.run calls).2.typing.verdict? ⟨.iri ⟨"urn:n"⟩, .iri ⟨"urn:S"⟩⟩ =
      some .conforms := by cbv
  exact ⟨by cbv, hconf, run_conforms_not_refuted hbuild (hpos _ hbuild) selfLoopAndSink _ .standard
    calls hconf⟩

end ShapeTyping
