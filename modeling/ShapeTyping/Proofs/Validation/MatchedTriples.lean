import Mathlib
import ShapeTyping.Proofs.Validation.MatchedIn
import ShapeTyping.Proofs.Validation.Strict

/-!
# Recorded triples

A list of matched triples is recorded while other associations are pending, whose verdicts may turn
out otherwise. What has been found by then does not depend on them: it is the same in every set of
associations that has what may be relied on and nothing that has failed. If such a verdict is taken
back, so is the list. So the lists that stay are those of the greatest typing, whatever was asked
for before.

* `Typing.Completion`: the sets that a typing leaves possible.
* `Describes`, `satisfies_describes`: the result of an evaluation in all of them.
* `State.Recorded`, `decideWithin_recorded`: a decision keeps the recorded lists those of all
  completions.
* `run_matched`: the recorded lists after any calls.
-/

namespace ShapeTyping

/-! ### Completions of a typing -/

/-- A set that has what may be relied on and nothing that has failed. -/
structure Typing.Completion (t : Typing) (U : Set Association) : Prop where
  mem : ∀ b, t.contains b = true → b ∈ U
  notMem : ∀ b, t.verdict? b = some .fails → b ∉ U

namespace Typing.Completion

variable {t : Typing} {st st' : State} {U : Set Association} {b : Association}

/-- A completion is read from the typing where there is a verdict. -/
theorem mem_iff (h : t.Completion U) (hv : t.verdict? b ≠ none) : b ∈ U ↔ t.contains b = true := by
  refine ⟨fun hb => Typing.contains_of_ne_fails hv fun hf => h.notMem b hf hb, h.mem b⟩

/-- What completes a later typing completes an earlier one. -/
theorem of_extends (h : st'.typing.Completion U) (hext : st.Extends st') :
    st.typing.Completion U :=
  ⟨fun b hb => h.mem b (hext.contains hb), fun b hb => h.notMem b (hext.kept b _ hb)⟩

end Typing.Completion

/-! ### Evaluations -/

/-- Whether a result says if a condition holds, and has the right list of triples if so. -/
def Describes (holds : Prop) (triples : List MatchedTriple) : Option (List MatchedTriple) → Prop
  | some ms => holds ∧ ms = triples
  | none => ¬ holds

/-- Nested decisions that end with a verdict if they end without errors. -/
structure Decider.Settles (ctx : Context) (recur : Decider) : Prop where
  extend : recur.Respects State.Extends
  cache : recur.Respects fun st st' => st.Cached ctx.schema → st'.Cached ctx.schema
  verdict : ∀ b st, (recur b st).2.errors = [] →
    ∃ v, (recur b st).2.typing.verdict? b = some v ∧ ((recur b st).1 = true ↔ v ≠ .fails)

theorem decideWithin_settles {d : Definitions} {ctx : Context} (hb : d.Builds ctx.schema) (n : ℕ) :
    (decideWithin ctx n).Settles ctx where
  extend := decideWithin_extends ctx n
  cache := decideWithin_cached hb n
  verdict b st he := by
    cases n with
    | zero => simp [decideWithin, State.addError] at he
    | succ n =>
      cases hdef : ctx.schema.shape? b.label with
      | some e => exact decideWith_verdict hdef st
      | none =>
        generalize hd : decideWith ctx (decideWithin ctx n) b st = dec
        have hd' : decideWithin ctx (n + 1) b st = dec := hd
        rw [hd'] at he ⊢
        cases decision hd with
        | @known v hv => exact ⟨v, hv, by simp⟩
        | undefined _ _ => simp [State.addError] at he
        | evaluated _ hsome _ => simp [hdef] at hsome
        | failed _ hsome _ => simp [hdef] at hsome

section Evaluation

variable {d : Definitions} {ctx : Context} {recur : Decider} {node : Term} {U : Set Association}
  {st st' : State} {r : Option (List MatchedTriple)}

/-- **A shape without constraints.** -/
theorem describes_of_nil {x : Shape} {c : Compiled} (hc : ctx.schema.compile x.expr = .ok c)
    (hnil : c.constraints = []) :
    Describes (x.AcceptedIn ctx.schema ctx.graph U node)
      (x.matchedIn ctx.schema ctx.graph U node)
      (if !x.closed || (ctx.graph.outEdges node).isEmpty then some [] else none) := by
  have hiff : x.AcceptedIn ctx.schema ctx.graph U node ↔
      (!x.closed || (ctx.graph.outEdges node).isEmpty) = true := by
    rw [acceptedIn_iff_of_nil hc hnil]
    cases x.closed <;> simp
  by_cases hopen : (!x.closed || (ctx.graph.outEdges node).isEmpty) = true
  · rw [if_pos hopen]
    exact ⟨hiff.2 hopen, (Shape.matchedIn_of_nil hc hnil).symm⟩
  · rw [if_neg hopen]
    exact fun hacc => hopen (hiff.1 hacc)

/-- **The evaluation of a shape** in all completions of the typing that it ends with. -/
theorem satisfiesShape_describes (h : recur.Settles ctx) {x : Shape}
    (hx : x ∈ ctx.schema.allShapes) (hst : st.Cached ctx.schema)
    (hr : satisfiesShape ctx recur node x st = .ok r st') (he : st'.errors = [])
    (hU : st'.typing.Completion U) :
    Describes (x.AcceptedIn ctx.schema ctx.graph U node)
      (x.matchedIn ctx.schema ctx.graph U node) r := by
  rw [satisfiesShape_eq] at hr
  cases hcomp : compiledShape ctx x st with
  | error err st₁ =>
    rw [hcomp] at hr
    cases hr
  | ok c st₁ =>
  obtain ⟨hc, -⟩ := compiledShape_ok hx hst hcomp
  simp only [hcomp, neighbourhood_eq hc] at hr
  by_cases hnil : c.constraints = []
  · rw [if_pos (by simp [hnil])] at hr
    cases hr
    exact describes_of_nil hc hnil
  rw [if_neg (by simpa using hnil)] at hr
  rcases hd : decideEdges recur x c.constraints
    (ctx.graph.listed c.constraints x.closed node) st₁ with ⟨_ | _, st₂⟩
  · simp only [hd] at hr
    cases hr
    obtain ⟨e, hmem, hextra, hunmatched⟩ := decideEdges_eq_false hd
    exact not_acceptedIn_of_unmatched hc hnil hmem hextra hunmatched
  · simp only [hd] at hr
    -- the search reads verdicts only, and these are read in each completion
    have hfits : st₂ = st' → ∀ e ∈ ctx.graph.listed c.constraints x.closed node,
        ∀ tc ∈ c.constraints, tc.accepts st₂.typing e = true ↔ tc.FitsIn U e := by
      rintro rfl e hmem tc htc
      rw [TripleConstraint.accepts, TripleConstraint.FitsIn, Bool.and_eq_true]
      refine and_congr_right fun hm => ?_
      cases hl : tc.valueLabel? with
      | none => simp
      | some l =>
        have hdecided : st₂.typing.verdict? ⟨e.other, l⟩ ≠ none := by
          refine decideEdges_decided h.extend (fun e _ c _ l _ st hlater => ?_) hd hmem htc hm hl
          obtain ⟨v, hv, -⟩ := h.verdict ⟨e.other, l⟩ st (hlater.errors_eq_nil he)
          simp [hv]
        simpa using (hU.mem_iff hdecided).symm
    cases ha : assignableEdges st₂.typing x c.constraints
        (ctx.graph.listed c.constraints x.closed node) with
    | none =>
      simp only [ha] at hr
      cases hr
      exact not_acceptedIn_of_none hc hnil (hfits rfl) ha
    | some assignable =>
      simp only [ha] at hr
      split at hr
      · rename_i b hfound
        cases hr
        exact ⟨acceptedIn_of_found hc hnil (hfits rfl) ha hfound,
          Shape.matchedIn_of_found hc (hfits rfl) ha hfound⟩
      · rename_i hnone
        cases hr
        exact not_acceptedIn_of_notFound hc hnil (hfits rfl) ha hnone
      · cases hr

mutual
/-- **The evaluation of an expression** in all completions of the typing that it ends with. -/
theorem satisfies_describes (hb : d.Builds ctx.schema) (h : recur.Settles ctx) :
    (e : ShapeExpr) → (∀ x ∈ e.shapes, x ∈ ctx.schema.allShapes) → {st st' : State} →
    {r : Option (List MatchedTriple)} → st.Cached ctx.schema →
    satisfies ctx recur node e st = .ok r st' → st'.errors = [] → st'.typing.Completion U →
    Describes (e.HoldsIn (Shape.AcceptedIn ctx.schema ctx.graph) U node)
      (e.matchedIn ctx.schema ctx.graph U node) r
  | .and es, hs, st, st', r, hst, hr, he, hU => by
    rw [satisfies] at hr
    rw [ShapeExpr.HoldsIn, ShapeExpr.matchedIn]
    exact satisfiesAll_describes hb h es hs hst hr he hU
  | .or es, hs, st, st', r, hst, hr, he, hU => by
    rw [satisfies] at hr
    rw [ShapeExpr.HoldsIn, ShapeExpr.matchedIn]
    exact satisfiesAny_describes hb h es hs hst hr he hU
  | .not e, hs, st, st', r, hst, hr, he, hU => by
    rw [satisfies_not] at hr
    rw [ShapeExpr.HoldsIn, ShapeExpr.matchedIn]
    cases hev : satisfies ctx recur node e st with
    | error err st₁ =>
      rw [hev] at hr
      cases hr
    | ok r₁ st₁ =>
      rw [hev] at hr
      cases r₁ with
      | none =>
        cases hr
        exact ⟨satisfies_describes hb h e hs hst hev he hU, rfl⟩
      | some ms =>
        cases hr
        obtain ⟨hhold, -⟩ := satisfies_describes hb h e hs hst hev he hU
        exact not_not_intro hhold
  | .node c, _, st, st', r, _, hr, _, _ => by
    rw [satisfies_node] at hr
    rw [ShapeExpr.HoldsIn, ShapeExpr.matchedIn]
    cases hc : c.holds? ctx.limits node with
    | error err =>
      rw [hc] at hr
      cases hr
    | ok b =>
      rw [hc] at hr
      have hiff := NodeConstraint.holds_iff hc
      cases b with
      | true =>
        cases hr
        exact ⟨hiff.2 rfl, rfl⟩
      | false =>
        cases hr
        exact fun hhold => by simpa using hiff.1 hhold
  | .shape x, hs, st, st', r, hst, hr, he, hU => by
    rw [satisfies] at hr
    rw [ShapeExpr.HoldsIn, ShapeExpr.matchedIn]
    exact satisfiesShape_describes h (hs x (by simp [ShapeExpr.shapes])) hst hr he hU
  | .external, _, st, st', r, _, hr, _, _ => by
    rw [satisfies] at hr
    cases hr
  | .ref l, _, st, st', r, _, hr, he, hU => by
    rw [satisfies_ref] at hr
    rw [ShapeExpr.HoldsIn, ShapeExpr.matchedIn]
    obtain ⟨rfl, rfl⟩ := EStateM.Result.ok.inj hr
    obtain ⟨v, hv, hanswer⟩ := h.verdict ⟨node, l⟩ st he
    by_cases hconf : (recur ⟨node, l⟩ st).1 = true
    · rw [if_pos hconf]
      refine ⟨hU.mem _ (Typing.contains_of_ne_fails (by simp [hv]) ?_), rfl⟩
      simpa [hv] using hanswer.1 hconf
    · rw [if_neg hconf]
      refine hU.notMem _ ?_
      rw [hv]
      by_contra hne
      exact hconf (hanswer.2 fun hf => hne (by rw [hf]))

theorem satisfiesAll_describes (hb : d.Builds ctx.schema) (h : recur.Settles ctx) :
    (es : List ShapeExpr) → (∀ x ∈ ShapeExpr.shapesOfList es, x ∈ ctx.schema.allShapes) →
    {st st' : State} → {r : Option (List MatchedTriple)} → st.Cached ctx.schema →
    satisfiesAll ctx recur node es st = .ok r st' → st'.errors = [] → st'.typing.Completion U →
    Describes (ShapeExpr.AllHoldIn (Shape.AcceptedIn ctx.schema ctx.graph) U node es)
      (ShapeExpr.allMatchedIn ctx.schema ctx.graph U node es) r
  | [], _, st, st', r, _, hr, _, _ => by
    rw [satisfiesAll] at hr
    rw [ShapeExpr.AllHoldIn, ShapeExpr.allMatchedIn]
    cases hr
    exact ⟨trivial, rfl⟩
  | e :: es, hs, st, st', r, hst, hr, he, hU => by
    rw [satisfiesAll_cons] at hr
    rw [ShapeExpr.AllHoldIn, ShapeExpr.allMatchedIn]
    have hse := fun x hx => hs x (List.mem_append_left _ hx)
    have hnext : (finalState (satisfies ctx recur node e st)).Cached ctx.schema :=
      satisfies_rel h.cache e (fun x hx st => compiledShape_cached hb (hse x hx)) st hst
    cases hev : satisfies ctx recur node e st with
    | error err st₁ =>
      rw [hev] at hr
      cases hr
    | ok r₁ st₁ =>
    rw [hev] at hr hnext
    cases r₁ with
    | none =>
      cases hr
      exact fun hall => satisfies_describes hb h e hse hst hev he hU hall.1
    | some ms =>
    have hext : st₁.Extends (finalState (satisfiesAll ctx recur node es st₁)) :=
      satisfiesAll_rel h.extend es (fun x _ => compiledShape_extends ctx x) st₁
    cases hevs : satisfiesAll ctx recur node es st₁ with
    | error err st₂ =>
      simp only [hevs] at hr
      cases hr
    | ok r₂ st₂ =>
    simp only [hevs] at hr hext
    obtain ⟨rfl, rfl⟩ := EStateM.Result.ok.inj hr
    have hrest := satisfiesAll_describes hb h es (fun x hx => hs x (List.mem_append_right _ hx))
      hnext hevs he hU
    -- what completes the typing at the end completes the one after the first conjunct
    obtain ⟨hhold, hms⟩ := satisfies_describes hb h e hse hst hev (hext.errors_eq_nil he)
      (hU.of_extends hext)
    cases r₂ with
    | none => exact fun hall => hrest hall.2
    | some ms' => exact ⟨⟨hhold, hrest.1⟩, by rw [hms, hrest.2]⟩

theorem satisfiesAny_describes (hb : d.Builds ctx.schema) (h : recur.Settles ctx) :
    (es : List ShapeExpr) → (∀ x ∈ ShapeExpr.shapesOfList es, x ∈ ctx.schema.allShapes) →
    {st st' : State} → {r : Option (List MatchedTriple)} → st.Cached ctx.schema →
    satisfiesAny ctx recur node es st = .ok r st' → st'.errors = [] → st'.typing.Completion U →
    Describes (ShapeExpr.AnyHoldsIn (Shape.AcceptedIn ctx.schema ctx.graph) U node es)
      (ShapeExpr.anyMatchedIn ctx.schema ctx.graph U node es) r
  | [], _, st, st', r, _, hr, _, _ => by
    rw [satisfiesAny] at hr
    rw [ShapeExpr.AnyHoldsIn, ShapeExpr.anyMatchedIn]
    cases hr
    exact id
  | e :: es, hs, st, st', r, hst, hr, he, hU => by
    rw [satisfiesAny_cons] at hr
    rw [ShapeExpr.AnyHoldsIn, ShapeExpr.anyMatchedIn]
    have hse := fun x hx => hs x (List.mem_append_left _ hx)
    have hnext : (finalState (satisfies ctx recur node e st)).Cached ctx.schema :=
      satisfies_rel h.cache e (fun x hx st => compiledShape_cached hb (hse x hx)) st hst
    cases hev : satisfies ctx recur node e st with
    | error err st₁ =>
      rw [hev] at hr
      cases hr
    | ok r₁ st₁ =>
    rw [hev] at hr hnext
    cases r₁ with
    | some ms =>
      cases hr
      obtain ⟨hhold, hms⟩ := satisfies_describes hb h e hse hst hev he hU
      rw [if_pos hhold]
      exact ⟨.inl hhold, hms⟩
    | none =>
    simp only at hr
    have hext : st₁.Extends (finalState (satisfiesAny ctx recur node es st₁)) :=
      satisfiesAny_rel h.extend es (fun x _ => compiledShape_extends ctx x) st₁
    rw [hr] at hext
    have hrest := satisfiesAny_describes hb h es (fun x hx => hs x (List.mem_append_right _ hx))
      hnext hr he hU
    have hno : ¬ e.HoldsIn (Shape.AcceptedIn ctx.schema ctx.graph) U node :=
      satisfies_describes hb h e hse hst hev (hext.errors_eq_nil he) (hU.of_extends hext)
    rw [if_neg hno]
    cases r with
    | none => exact fun hany => hany.elim hno hrest
    | some ms => exact ⟨.inr hrest.1, hrest.2⟩
end

end Evaluation

/-! ### What is recorded -/

/-- A state in which the recorded lists are those of all completions of its typing, and nothing is
recorded for what does not conform. -/
structure State.Recorded (ctx : Context) (st : State) : Prop where
  cached : st.Cached ctx.schema
  conforms : ∀ b e, st.typing.verdict? b = some .conforms → ctx.schema.shape? b.label = some e →
    ∀ U, st.typing.Completion U →
      st.typing.matchedTriples b = e.matchedIn ctx.schema ctx.graph U b.node
  other : ∀ b, st.typing.verdict? b ≠ some .conforms → st.typing.matchedTriples b = []

namespace State.Recorded

variable {ctx : Context} {st st' : State} {a : Association} {e : ShapeExpr}

/-- Only the cache may change otherwise. -/
theorem of_typing_eq (h : st.Recorded ctx) (hc : st'.Cached ctx.schema)
    (ht : st'.typing = st.typing) : st'.Recorded ctx := by
  refine ⟨hc, ?_, ?_⟩
  · rw [ht]
    exact h.conforms
  · rw [ht]
    exact h.other

theorem «open» (h : st.Recorded ctx) (ha : st.typing.verdict? a = none) :
    (st.open a).Recorded ctx := by
  have hof : ∀ b, (st.open a).typing.verdict? b = some .conforms →
      st.typing.verdict? b = some .conforms := by
    intro b hb
    have hba : b ≠ a := by rintro rfl; simp [verdict?_open] at hb
    exact (verdict?_open_of_ne hba).symm.trans hb
  refine ⟨h.cached, fun b e hb he U hU => h.conforms b e (hof b hb) he U ?_, fun b hb => ?_⟩
  -- what is assumed had no verdict before
  · refine ⟨fun c hc => hU.mem c ?_, fun c hc => hU.notMem c ?_⟩
    · have hca : c ≠ a := by rintro rfl; simp [Typing.contains, ha] at hc
      rwa [Typing.contains_eq_true, verdict?_open_of_ne hca, ← Typing.contains_eq_true]
    · have hca : c ≠ a := by rintro rfl; simp [ha] at hc
      exact (verdict?_open_of_ne hca).trans hc
  · refine h.other b fun hconf => hb ?_
    have hba : b ≠ a := by rintro rfl; simp [ha] at hconf
    exact (verdict?_open_of_ne hba).trans hconf

/-- **Confirming** records the list that has been found in all completions. -/
theorem confirm (h : st.Recorded ctx) (ha : st.typing.verdict? a = some .hypothesis)
    (he : ctx.schema.shape? a.label = some e) {ms : List MatchedTriple}
    (hms : ∀ U, st.typing.Completion U → ms = e.matchedIn ctx.schema ctx.graph U a.node) (n : ℕ) :
    (st.close a n (some ms)).Recorded ctx := by
  have hv := fun b => verdict?_close_some st a b n ms
  have hcompletion : ∀ U, (st.close a n (some ms)).typing.Completion U →
      st.typing.Completion U := by
    intro U hU
    refine ⟨fun c hc => hU.mem c ?_, fun c hc => hU.notMem c ?_⟩
    · rw [Typing.contains_eq_true, hv]
      by_cases hca : c = a
      · simp [hca]
      · rwa [if_neg hca, ← Typing.contains_eq_true]
    · have hca : c ≠ a := by rintro rfl; simp [ha] at hc
      rwa [hv, if_neg hca]
  have hsame : ∀ b, b ≠ a → (st.close a n (some ms)).typing.matchedTriples b =
      st.typing.matchedTriples b :=
    fun b hba => st.typing.matchedTriples_confirm_of_ne ms hba
  refine ⟨h.cached, fun b e' hb he' U hU => ?_, fun b hb => ?_⟩
  · by_cases hba : b = a
    · subst hba
      obtain rfl : e = e' := Option.some.inj (he.symm.trans he')
      rw [← hms U (hcompletion U hU)]
      exact Typing.matchedTriples_confirm_self (h.other b (by simp [ha])) ms
    · rw [hv, if_neg hba] at hb
      rw [hsame b hba]
      exact h.conforms b e' hb he' U (hcompletion U hU)
  · rw [hv] at hb
    have hba : b ≠ a := by rintro rfl; simp at hb
    rw [if_neg hba] at hb
    rw [hsame b hba]
    exact h.other b hb

/-- **Refuting** removes the lists of what is forgotten. What still conforms did so before, and its
list is the one of more completions than there are now. -/
theorem refute (h : st.Recorded ctx) (h' : st'.Recorded ctx) (ha : st.typing.verdict? a = none)
    (hkeeps : (st.open a).Keeps st') :
    (st'.close a (st.open a).typing.checkpoint none).Recorded ctx := by
  have hclose := keeps_close_none ha hkeeps
  refine ⟨h'.cached, fun b e hb he U hU => ?_, fun b hb => ?_⟩
  · have hbefore := conforms_of_close_none ha hkeeps.verdicts hb
    rw [hclose.matched b _ hbefore]
    exact h.conforms b e hbefore he U (hU.of_extends hclose.verdicts)
  · rw [State.close, Typing.verdict?_refute_eq, Typing.verdict?_rollback] at hb
    rw [State.close, Typing.matchedTriples_refute]
    by_cases hba : b = a
    · rw [if_pos (.inl hba)]
    rw [if_neg hba] at hb
    split
    · rfl
    · rename_i hkept
      rw [if_neg fun hforgotten => hkept (.inr hforgotten)] at hb
      exact h'.other b hb

end State.Recorded

section Decisions

variable {d : Definitions} {ctx : Context}

theorem compiledShape_recorded (hb : d.Builds ctx.schema) {x : Shape}
    (hx : x ∈ ctx.schema.allShapes) (st : State) :
    st.Carries (State.Recorded ctx) (finalState (compiledShape ctx x st)) where
  extend := compiledShape_extends ctx x st
  carry _ hst :=
    hst.of_typing_eq (compiledShape_cached hb hx hst.cached) (typing_compiledShape ctx x st)

/-- **Decisions without errors** keep the recorded lists those of all completions. -/
theorem decideWithin_recorded (hb : d.Builds ctx.schema) (n : ℕ) :
    (decideWithin ctx n).Respects (State.Carries (State.Recorded ctx)) := by
  refine ⟨.refl, .trans, ?_⟩
  induction n with
  | zero => exact fun a st => ⟨.addError st _, fun he => by simp [decideWithin, State.addError] at he⟩
  | succ n ih =>
    intro a st
    refine ⟨(decideWithin_extends ctx (n + 1)).decision a st, fun he hst => ?_⟩
    generalize hd : decideWith ctx (decideWithin ctx n) a st = dec
    have hd' : decideWithin ctx (n + 1) a st = dec := hd
    rw [hd'] at he ⊢
    cases decision hd with
    | known hv => exact hst
    | undefined ha hl => simp [State.addError] at he
    | failed ha hdef hev => simp [State.close, State.addError] at he
    | @evaluated e r st' ha hdef hev =>
      have hmem : (a.label, e) ∈ ctx.schema.shapes := mem_of_lookup_eq_some hdef
      have hopen := hst.open ha
      have hnil : st'.errors = [] := by cases r <;> exact he
      have hcarries : (st.open a).Carries (State.Recorded ctx) (finalState
          (evaluateDefinition ctx (decideWithin ctx n) a.node e (st.open a))) :=
        evaluateDefinition_rel ⟨.refl, .trans, ih⟩ a.node e
          (fun x hx => compiledShape_recorded hb (Schema.mem_allShapes hmem hx)) (st.open a)
      have hkeeps : (st.open a).Keeps (finalState
          (evaluateDefinition ctx (decideWithin ctx n) a.node e (st.open a))) :=
        evaluateDefinition_rel (decideWithin_keeps ctx n) a.node e
          (fun x _ => compiledShape_keeps ctx x) (st.open a)
      rw [hev] at hcarries hkeeps
      have hduring : st'.Recorded ctx := hcarries.carry hnil hopen
      -- a failure goes back to the lists from before, a success records the one just found
      cases r with
      | none => exact hst.refute hduring ha hkeeps
      | some ms =>
        refine hduring.confirm ?_ hdef (fun U hU => ?_) (st.open a).typing.checkpoint
        · exact hkeeps.verdicts.kept a _ (by simp [verdict?_open])
        · exact (satisfies_describes hb (decideWithin_settles hb n) e
            (fun x hx => Schema.mem_allShapes hmem hx) hopen.cached
            (satisfies_of_evaluateDefinition hev) hnil hU).2

end Decisions

/-! ### Calls of a validator -/

section Calls

variable {d : Definitions} {T : Set Association} {v : Validator} {a : Association}

theorem recorded_new (s : Schema) (g : Graph) (limits : Limits) :
    (Validator.new s g limits).state.Recorded ⟨s, g, limits⟩ where
  cached := cached_start s
  conforms b e hb := by cases hb
  other b _ := rfl

/-- A call that returns no error keeps the recorded lists those of all completions. -/
theorem Validator.validate_recorded (hb : d.Builds v.context.schema)
    (h : v.state.Recorded v.context) {b : Bool} (hok : (v.validate a).1 = .ok b) :
    (v.validate a).2.state.Recorded v.context := by
  obtain ⟨-, st, hst, hnil, hend⟩ := validate_eq_ok hok
  have hcarries := (decideWithin_recorded hb v.context.maxNesting).decision a
    { v.state with errors := [], depth := 0 }
  rw [hst] at hcarries
  have hrec := hcarries.carry hnil (h.of_typing_eq h.cached rfl)
  rw [hend]
  -- that conclusions are final now changes no verdict
  exact ⟨hrec.cached, fun b e hb he U hU => hrec.conforms b e hb he U ⟨hU.mem, hU.notMem⟩,
    hrec.other⟩

/-- **Successive calls without errors**, by induction over them. -/
theorem Grounds.run_recorded {calls : List Association} {answers : List Bool}
    (hset : Grounds d v.context T) (hv : v.Quiet) (hagree : v.typing.Agrees T)
    (hrec : v.state.Recorded v.context) (hok : (v.run calls).1 = answers.map .ok) :
    (v.run calls).2.Quiet ∧ (v.run calls).2.typing.Agrees T ∧
      (v.run calls).2.state.Recorded v.context := by
  induction calls generalizing v answers with
  | nil => exact ⟨hv, hagree, hrec⟩
  | cons a calls ih =>
    cases answers with
    | nil => cases hok
    | cons b answers =>
      obtain ⟨hfirst, hrest⟩ := List.cons.inj hok
      obtain ⟨hctx, hv'⟩ := validate_quiet hset.builds hv a
      obtain ⟨-, hagree'⟩ := hset.validate_agrees hv hagree hfirst
      have hrec' := Validator.validate_recorded hset.builds hrec hfirst
      rw [← hctx] at hset hrec' ⊢
      exact ih hset hv' hagree' hrec' hrest

/-- The greatest typing completes the verdicts that agree with it, if nothing is pending. -/
theorem Validator.Quiet.completion (hv : v.Quiet) (h : v.typing.Agrees T) :
    v.typing.Completion T where
  mem b hb := (h b).1 ((Typing.contains_eq_true.1 hb).resolve_right (hv.settled b))
  notMem b := (h b).2

end Calls

/-- **Matched triples do not depend on the history of calls.** A built schema has one greatest
typing on each graph, which is the one of the language if cardinalities are not reversed and counts
of edges are words. If no call to a new validator returns an error, the matched triples of each
conforming association are the list that its definition has in the greatest typing: triples of the
graph, with the node at the end that a labelled constraint of its shapes looks from. All other
associations have none. -/
theorem run_matched {d : Definitions} {s : Schema} (h : d.build = .ok s) (g : Graph) :
    ∃ T, s.StratifiedGreatest (Shape.AcceptedIn s g) T ∧
      (∀ T', s.StratifiedGreatest (Shape.AcceptedIn s g) T' → T' = T) ∧
      ((∀ p ∈ s.tripleExprs, ∀ c ∈ p.2.cards, c.Valid) →
        (∀ x ∈ s.allShapes, ∀ c ∈ x.expr.cards, c.Valid) → (∀ node, g.degree node ≤ maxWord) →
        s.StratifiedGreatest (Shape.HoldsIn s g) T) ∧
      ∀ (limits : Limits) (calls : List Association) (answers : List Bool),
        ((Validator.new s g limits).run calls).1 = answers.map .ok →
        let t := ((Validator.new s g limits).run calls).2.typing
        ∀ a, (t.verdict? a = some .conforms → ∃ e, s.shape? a.label = some e ∧
            t.matchedTriples a = e.matchedIn s g T a.node ∧
            ∀ m ∈ t.matchedTriples a, ∃ x ∈ e.shapes, ∃ c, s.compile x.expr = .ok c ∧
              ∃ tc ∈ c.constraints, m.Around g a.node tc) ∧
          (t.verdict? a ≠ some .conforms → t.matchedTriples a = []) := by
  have hbuilds := Definitions.builds_of_build h
  have hread := Shape.acceptedIn_readsEnds s g
  have hgreatest := hbuilds.stratifiedGreatest_typing_of_readsEnds hread
  refine ⟨s.typing (Shape.AcceptedIn s g), hgreatest, fun T' hT' => hT'.unique hgreatest,
    fun hdefs hshapes hdegree => ?_, fun limits calls answers hok => ?_⟩
  · refine hgreatest.congr fun x hx U node => ?_
    exact acceptedIn_iff_holdsIn (Schema.cardsValid_of_definitions hdefs (hshapes x hx))
      (hdegree node)
  intro t a
  have hset : Grounds d (Validator.new s g limits).context (s.typing (Shape.AcceptedIn s g)) :=
    ⟨hbuilds, hgreatest⟩
  obtain ⟨hquiet, hagree, hrec⟩ := hset.run_recorded (quiet_new s g limits) (agrees_empty _)
    (recorded_new s g limits) hok
  refine ⟨fun ha => ?_, hrec.other a⟩
  obtain ⟨e, he, -⟩ := hbuilds.holdsIn_of_mem hread hgreatest ((hagree a).1 ha)
  have hmatched : t.matchedTriples a = e.matchedIn s g (s.typing (Shape.AcceptedIn s g)) a.node :=
    hrec.conforms a e ha he _ (hquiet.completion hagree)
  refine ⟨e, he, hmatched, fun m hm => ?_⟩
  rw [hmatched] at hm
  exact ShapeExpr.mem_matchedIn e hm

/-- Nodes with two edges of which one leads to a node with an edge of another kind, or with none. -/
def twoEdges : Definitions where
  shapes := [
    (.iri ⟨"urn:S"⟩, .or [.shape ⟨true, [], .empty, 0⟩, .shape ⟨false, [], .eachOf [
      .constraint ⟨⟨"urn:p"⟩, none, .one, false, some (.iri ⟨"urn:any"⟩)⟩,
      .constraint ⟨⟨"urn:p"⟩, some (.ref (.iri ⟨"urn:T"⟩)), .one, false,
        some (.iri ⟨"urn:typed"⟩)⟩] .one, 0⟩]),
    (.iri ⟨"urn:T"⟩, .shape ⟨false, [], .constraint ⟨⟨"urn:q"⟩, none, .one, false, none⟩, 0⟩)]
  tripleExprs := []
  start := none

def forkedGraph : Graph := ⟨[⟨.iri ⟨"urn:n"⟩, ⟨"urn:p"⟩, .iri ⟨"urn:a"⟩⟩,
  ⟨.iri ⟨"urn:n"⟩, ⟨"urn:p"⟩, .iri ⟨"urn:b"⟩⟩, ⟨.iri ⟨"urn:a"⟩, ⟨"urn:q"⟩, .iri ⟨"urn:b"⟩⟩]⟩

/-- The first edge fits both constraints and the second only one of them, so the first assignment is
not accepted. The first disjunct fails, and the list is the one of the second. -/
theorem run_matched_twoEdges :
    ∃ s, twoEdges.build = .ok s ∧
      ∃ T, s.StratifiedGreatest (Shape.AcceptedIn s forkedGraph) T ∧
        let calls : List Association := [⟨.iri ⟨"urn:b"⟩, .iri ⟨"urn:T"⟩⟩,
          ⟨.iri ⟨"urn:n"⟩, .iri ⟨"urn:S"⟩⟩]
        let v := Validator.new s forkedGraph .standard
        (v.run calls).1 = [.ok false, .ok true] ∧
        (v.run calls).2.typing.matchedTriples ⟨.iri ⟨"urn:n"⟩, .iri ⟨"urn:S"⟩⟩ =
          [⟨⟨.iri ⟨"urn:n"⟩, ⟨"urn:p"⟩, .iri ⟨"urn:a"⟩⟩, .iri ⟨"urn:typed"⟩⟩,
            ⟨⟨.iri ⟨"urn:n"⟩, ⟨"urn:p"⟩, .iri ⟨"urn:b"⟩⟩, .iri ⟨"urn:any"⟩⟩] ∧
        ∃ e, s.shape? (.iri ⟨"urn:S"⟩) = some e ∧
          (v.run calls).2.typing.matchedTriples ⟨.iri ⟨"urn:n"⟩, .iri ⟨"urn:S"⟩⟩ =
            e.matchedIn s forkedGraph T (.iri ⟨"urn:n"⟩) := by
  have hbuild : twoEdges.build = .ok
      { shapes := [
          (.iri ⟨"urn:S"⟩, .or [.shape ⟨true, [], .empty, 0⟩, .shape ⟨false, [], .eachOf [
            .constraint ⟨⟨"urn:p"⟩, none, .one, false, some (.iri ⟨"urn:any"⟩)⟩,
            .constraint ⟨⟨"urn:p"⟩, some (.ref (.iri ⟨"urn:T"⟩)), .one, false,
              some (.iri ⟨"urn:typed"⟩)⟩] .one, 1⟩]),
          (.iri ⟨"urn:T"⟩,
            .shape ⟨false, [], .constraint ⟨⟨"urn:q"⟩, none, .one, false, none⟩, 2⟩)]
        tripleExprs := [], start := none, shapeCount := 3
        strata := [[.iri ⟨"urn:T"⟩], [.iri ⟨"urn:S"⟩]] } := by cbv
  obtain ⟨T, hT, -, -, hrun⟩ := run_matched hbuild forkedGraph
  refine ⟨_, hbuild, T, hT, ?_⟩
  intro calls v
  have hok : (v.run calls).1 = [false, true].map .ok := by cbv
  have hconforms : (v.run calls).2.typing.verdict? ⟨.iri ⟨"urn:n"⟩, .iri ⟨"urn:S"⟩⟩ =
      some .conforms := by cbv
  obtain ⟨hlist, -⟩ := hrun .standard calls _ hok ⟨.iri ⟨"urn:n"⟩, .iri ⟨"urn:S"⟩⟩
  obtain ⟨e, he, hmatched, -⟩ := hlist hconforms
  exact ⟨hok, by cbv, e, he, hmatched⟩

end ShapeTyping
