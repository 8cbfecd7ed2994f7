import Mathlib
import ShapeTyping.Proofs.Validation.Answers

/-!
# Wider limits

A state holds no limits, and a limit that is exceeded anywhere in a decision leaves an error. So a
decision that ends without errors is the same decision under wider limits, step by step.

* `errors_eq_nil_of_mem`: a decision without errors has nested decisions without errors.
* `decideWithin_widen`: a decision without errors under wider limits.
* `Validator.withLimits`, `Validator.run_widen`: the same for the calls of a validator.
* `run_widen_new`: what does not change when limits are raised.
-/

namespace ShapeTyping

/-! ### Decisions -/

section Decisions

variable {ctx : Context} {recur : Decider} {a : Association} {st : State} {limits : Limits}

/-- **Nothing that went wrong is hidden**: if a decision records no error, no decision that it asks
for does. -/
theorem errors_eq_nil_of_mem (hR : recur.Respects State.Extends)
    (h : (decideWith ctx recur a st).2.errors = []) {r : Request}
    (hr : r ∈ decisionRequests ctx recur a st) : (recur r.target r.state).2.errors = [] := by
  -- what the nested decision records is there when the evaluation ends
  have hend : ∀ e, decisionRequests ctx recur a st =
        definitionRequests ctx recur a.node e (st.open a) →
      (recur r.target r.state).2.Extends
        (finalState (evaluateDefinition ctx recur a.node e (st.open a))) := by
    intro e hreq
    rw [hreq] at hr
    have hthreads := @threads_evaluateDefinition ctx recur a.node e (st.open a)
    have hall := hthreads.rel State.Extends.refl State.Extends.trans
      (fun x _ => compiledShape_extends ctx x) fun r _ => hR.decision r.target r.state
    exact (hall.2 r hr).2
  generalize hd : decideWith ctx recur a st = d at h
  cases decision hd with
  | known hv => simp [decisionRequests, hv] at hr
  | undefined ha hl => simp [decisionRequests, ha, hl] at hr
  | @evaluated e result st' ha he hev =>
    have hext := hend e (decisionRequests_of_defined ha he)
    rw [hev] at hext
    have hclose : (st'.close a (st.open a).typing.checkpoint result).errors = st'.errors := by
      cases result <;> rfl
    exact hext.errors_eq_nil (hclose.symm.trans h)
  | failed ha he hev => simp [State.close, State.addError] at h

/-- **A decision without errors** is the same under wider limits. -/
theorem decideWithin_widen (hle : ctx.limits.Within limits) {n : ℕ}
    (h : (decideWithin ctx n a st).2.errors = []) :
    decideWithin { ctx with limits := limits } n a st = decideWithin ctx n a st := by
  induction n generalizing a st with
  | zero => rfl
  | succ n ih =>
    rw [decideWithin] at h ⊢
    rw [decideWithin]
    refine decideWith_congr hle (fun r hr => ?_) fun hne => absurd h hne
    exact ih (errors_eq_nil_of_mem (decideWithin_extends ctx n) h hr)

end Decisions

/-! ### Calls of a validator -/

namespace Validator

variable {v : Validator} {a : Association} {b : Bool} {limits : Limits}

/-- A validator with other limits in the same state. -/
def withLimits (v : Validator) (limits : Limits) : Validator :=
  { v with context := { v.context with limits := limits } }

/-- A decision that ends without errors is the answer to a call. -/
theorem validate_of_decision {st : State} (hl : a.label ∈ v.context.schema.labels)
    (hdec : decideWithin v.context v.context.maxNesting a
      { v.state with errors := [], depth := 0 } = (b, st)) (hnil : st.errors = []) :
    v.validate a =
      (.ok b, { v with state := { st with typing := st.typing.commit, errors := [] } }) := by
  have hcontains : v.context.schema.contains a.label = true :=
    Option.isSome_iff_exists.2 (shape?_eq_some hl)
  unfold validate
  rw [if_pos hcontains]
  simp only [hdec, hnil]

theorem validate_widen (hle : v.context.limits.Within limits) (hok : (v.validate a).1 = .ok b) :
    (v.withLimits limits).validate a = (.ok b, (v.validate a).2.withLimits limits) := by
  obtain ⟨hl, st, hst, hnil, hend⟩ := validate_eq_ok hok
  have hwide : decideWithin (v.withLimits limits).context v.context.maxNesting a
      { v.state with errors := [], depth := 0 } = (b, st) := by
    rw [← hst]
    exact decideWithin_widen hle (by rw [hst]; exact hnil)
  have hcall := @validate_of_decision (v.withLimits limits) a b st hl hwide hnil
  rw [hcall, hend]
  rfl

/-- A call leaves its context as it is. -/
theorem context_validate (v : Validator) (a : Association) :
    (v.validate a).2.context = v.context := by
  unfold validate
  split <;> rfl

/-- **Calls without errors** have the same answers under wider limits and leave the same state. -/
theorem run_widen {calls : List Association} {answers : List Bool}
    (hle : v.context.limits.Within limits) (hok : (v.run calls).1 = answers.map .ok) :
    (v.withLimits limits).run calls = (answers.map .ok, (v.run calls).2.withLimits limits) := by
  induction calls generalizing v answers with
  | nil =>
    obtain rfl : answers = [] := List.map_eq_nil_iff.1 hok.symm
    rfl
  | cons a calls ih =>
    cases answers with
    | nil => cases hok
    | cons b answers =>
      obtain ⟨hfirst, hrest⟩ := List.cons.inj hok
      have hle' : (v.validate a).2.context.limits.Within limits := by
        rwa [context_validate]
      rw [run, validate_widen hle hfirst]
      simp only [ih hle' hrest]
      rfl

theorem run_append_fst (v : Validator) (before after : List Association) :
    (v.run (before ++ after)).1 = (v.run before).1 ++ ((v.run before).2.run after).1 := by
  induction before generalizing v with
  | nil => rfl
  | cons a as ih => exact congrArg ((v.validate a).1 :: ·) (ih (v.validate a).2)

end Validator

/-- **Raising limits never changes an answer.** If no call to a new validator returns an error, the
same calls under limits that are at least as large return the same answers, and after each of them
the verdicts and the matched triples are the same. -/
theorem run_widen_new (s : Schema) (g : Graph) {limits limits' : Limits}
    (hle : limits.Within limits') {calls : List Association} {answers : List Bool}
    (hok : ((Validator.new s g limits).run calls).1 = answers.map .ok) :
    ((Validator.new s g limits').run calls).1 = answers.map .ok ∧
      ∀ before, before <+: calls → ((Validator.new s g limits').run before).2.typing =
        ((Validator.new s g limits).run before).2.typing := by
  have hwiden := fun calls answers => @Validator.run_widen (.new s g limits) limits' calls answers hle
  refine ⟨congrArg (·.1) (hwiden calls answers hok), ?_⟩
  rintro before ⟨after, rfl⟩
  -- the calls up to any point return no error either
  rw [Validator.run_append_fst] at hok
  obtain ⟨first, later, -, hfirst, -⟩ := List.append_eq_map_iff.1 hok
  exact congrArg (·.2.typing) (hwiden before first hfirst.symm)

/-- Limits that a run on a path just keeps within, and wider ones with the same answers. -/
theorem run_widen_new_endlessPath :
    ∃ s, endlessPath.build = .ok s ∧ (Limits.mk (some 3) (some 1) 0 0).Within .standard ∧
      let calls : List Association := [⟨.iri ⟨"urn:m"⟩, .iri ⟨"urn:T"⟩⟩,
        ⟨.iri ⟨"urn:n"⟩, .iri ⟨"urn:S"⟩⟩]
      ((Validator.new s selfLoopAndSink ⟨some 3, some 1, 0, 0⟩).run calls).1 =
        [.ok true, .ok true] ∧
      ((Validator.new s selfLoopAndSink .standard).run calls).1 = [.ok true, .ok true] ∧
      ((Validator.new s selfLoopAndSink .standard).run calls).2.typing =
        ((Validator.new s selfLoopAndSink ⟨some 3, some 1, 0, 0⟩).run calls).2.typing := by
  have hbuild : endlessPath.build = .ok
      { shapes := [
          (.iri ⟨"urn:S"⟩, .shape ⟨false, [],
            .constraint ⟨⟨"urn:p"⟩, some (.ref (.iri ⟨"urn:S"⟩)), .plus, false, none⟩, 0⟩),
          (.iri ⟨"urn:T"⟩, .not (.ref (.iri ⟨"urn:S"⟩)))]
        tripleExprs := [], start := none, shapeCount := 1
        strata := [[.iri ⟨"urn:S"⟩], [.iri ⟨"urn:T"⟩]] } := by cbv
  have hle : (Limits.mk (some 3) (some 1) 0 0).Within .standard :=
    ⟨.none_right _, .none_right _, by decide, by decide⟩
  refine ⟨_, hbuild, hle, ?_⟩
  intro calls
  have hok : ∀ s, endlessPath.build = .ok s →
      ((Validator.new s selfLoopAndSink ⟨some 3, some 1, 0, 0⟩).run calls).1 =
        [true, true].map .ok := by
    intro s hs
    cases hbuild.symm.trans hs
    cbv
  obtain ⟨hanswers, htyping⟩ := run_widen_new _ selfLoopAndSink hle (hok _ hbuild)
  exact ⟨hok _ hbuild, hanswers, htyping calls List.prefix_rfl⟩

end ShapeTyping
