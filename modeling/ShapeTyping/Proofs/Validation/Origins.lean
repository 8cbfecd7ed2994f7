import Mathlib
import ShapeTyping.Proofs.Validation.Frame

/-!
# Where errors come from

An evaluation raises an error of one of its parts or that of compiling one of its shapes. The errors
that a decision records are those that some decision raises, itself or one that it asks for, at any
depth.

* `ValidationError.Local`: the errors of the parts of a definition.
* `NodeConstraint.local_of_holds?`: what a node constraint raises.
* `error_of_satisfies`: what an evaluation raises.
* `Raises`: what a decision raises, at any depth.
* `raises_of_mem_errors`: nothing else is recorded.
-/

namespace ShapeTyping

/-- The errors that a part of a definition raises by itself: an external shape, a limit on a single
constraint or on the bags, or a pattern that is none. -/
def ValidationError.Local : ValidationError → Prop
  | .externalShape => True
  | .invalidPattern _ => True
  | .patternTooLong _ _ => True
  | .valueSetTooLong _ _ => True
  | .bagLimit _ _ => True
  | .unknownShape _ => False
  | .recursionLimit _ => False
  | .fault _ => False

/-! ### Node constraints -/

section Constraints

variable {limits : Limits} {err : ValidationError} {t : Term}

theorem StringFacet.local_of_holds? {f : StringFacet} {text : String}
    (h : f.holds? limits text = .error err) : err.Local := by
  cases f with
  | length n => cases h
  | minLength n => cases h
  | maxLength n => cases h
  | pattern source flags =>
    rw [holds?, patternMatches?] at h
    split at h
    · cases h
      trivial
    · split at h
      · cases h
        trivial
      · cases h

namespace NodeConstraint

theorem local_of_stringFacetsHold? {fs : List StringFacet}
    (h : stringFacetsHold? limits t fs = .error err) : err.Local := by
  induction fs with
  | nil => cases h
  | cons f fs ih =>
    rw [stringFacetsHold?] at h
    split at h
    · cases h
    · split at h
      · rename_i hf
        cases h
        exact StringFacet.local_of_holds? hf
      · cases h
      · exact ih h

theorem local_of_valuesHold? {vs : List ValueSpec} (h : valuesHold? limits t vs = .error err) :
    err.Local := by
  rw [valuesHold?] at h
  split at h
  · cases h
  split at h
  · cases h
    trivial
  · cases h

/-- **What a node constraint raises** is an error of its own. -/
theorem local_of_holds? {c : NodeConstraint} (h : c.holds? limits t = .error err) : err.Local := by
  rw [holds?] at h
  split at h
  · cases h
  split at h
  · cases h
  split at h
  · rename_i hfacets
    cases h
    exact local_of_stringFacetsHold? hfacets
  · cases h
  · split at h
    · cases h
    · exact local_of_valuesHold? h

end NodeConstraint

end Constraints

/-! ### Evaluations -/

/-- Whether an error is that of compiling a shape, in a state with a property. -/
def RaisedByCompiling (ctx : Context) (I : State → Prop) (xs : List Shape)
    (err : ValidationError) : Prop :=
  ∃ x ∈ xs, ∃ st st', I st ∧ compiledShape ctx x st = .error err st'

section Evaluation

variable {ctx : Context} {recur : Decider} {node : Term} {I : State → Prop}

theorem RaisedByCompiling.mono {xs ys : List Shape} {err : ValidationError}
    (h : RaisedByCompiling ctx I xs err) (hsub : xs ⊆ ys) : RaisedByCompiling ctx I ys err := by
  obtain ⟨x, hx, hrest⟩ := h
  exact ⟨x, hsub hx, hrest⟩

theorem error_of_satisfiesShape {x : Shape} {st st' : State} {err : ValidationError} (hst : I st)
    (h : satisfiesShape ctx recur node x st = .error err st') :
    err.Local ∨ RaisedByCompiling ctx I [x] err := by
  rw [satisfiesShape_eq] at h
  cases hc : compiledShape ctx x st with
  | error err' st₁ =>
    rw [hc] at h
    cases h
    exact .inr ⟨x, List.mem_singleton_self x, st, st', hst, hc⟩
  | ok c st₁ =>
    left
    simp only [hc] at h
    split at h
    · cases h
    split at h
    · cases h
    split at h
    · cases h
    split at h
    · cases h
    · cases h
    · cases h
      trivial

mutual
/-- **What an evaluation raises** is an error of one of its parts, or that of compiling one of its
shapes in a state that has a property which nested decisions and the cache keep. -/
theorem error_of_satisfies (hrec : recur.Respects fun st st' => I st → I st') :
    (e : ShapeExpr) →
    (∀ x ∈ e.shapes, ∀ st, I st → I (finalState (compiledShape ctx x st))) →
    {st st' : State} → {err : ValidationError} → I st →
    satisfies ctx recur node e st = .error err st' →
      err.Local ∨ RaisedByCompiling ctx I e.shapes err
  | .and es, hcache, _, _, _, hst, h => by
    rw [satisfies] at h
    exact error_of_satisfiesAll hrec es hcache hst h
  | .or es, hcache, _, _, _, hst, h => by
    rw [satisfies] at h
    exact error_of_satisfiesAny hrec es hcache hst h
  | .not e, hcache, st, _, _, hst, h => by
    rw [satisfies_not] at h
    cases he : satisfies ctx recur node e st with
    | error err' st₁ =>
      rw [he] at h
      cases h
      exact error_of_satisfies hrec e hcache hst he
    | ok r st₁ =>
      rw [he] at h
      cases r <;> cases h
  | .node c, _, st, _, _, _, h => by
    rw [satisfies_node] at h
    split at h
    · rename_i hc
      cases h
      exact .inl (NodeConstraint.local_of_holds? hc)
    · cases h
    · cases h
  | .shape x, _, _, _, _, hst, h => by
    rw [satisfies] at h
    exact error_of_satisfiesShape hst h
  | .external, _, _, _, _, _, h => by
    rw [satisfies] at h
    cases h
    exact .inl trivial
  | .ref l, _, _, _, _, _, h => by
    rw [satisfies_ref] at h
    cases h

theorem error_of_satisfiesAll (hrec : recur.Respects fun st st' => I st → I st') :
    (es : List ShapeExpr) →
    (∀ x ∈ ShapeExpr.shapesOfList es, ∀ st, I st → I (finalState (compiledShape ctx x st))) →
    {st st' : State} → {err : ValidationError} → I st →
    satisfiesAll ctx recur node es st = .error err st' →
      err.Local ∨ RaisedByCompiling ctx I (ShapeExpr.shapesOfList es) err
  | [], _, _, _, _, _, h => by
    rw [satisfiesAll] at h
    cases h
  | e :: es, hcache, st, _, _, hst, h => by
    have hcache' : ∀ x ∈ e.shapes, ∀ st, I st → I (finalState (compiledShape ctx x st)) :=
      fun x hx => hcache x (List.mem_append_left _ hx)
    have hmid : I (finalState (satisfies ctx recur node e st)) :=
      satisfies_rel hrec e hcache' st hst
    rw [satisfiesAll_cons] at h
    cases he : satisfies ctx recur node e st with
    | error err' st₁ =>
      rw [he] at h
      cases h
      exact (error_of_satisfies hrec e hcache' hst he).imp_right
        (·.mono (List.subset_append_left _ _))
    | ok r st₁ =>
      rw [he] at h hmid
      cases r with
      | none => cases h
      | some ms =>
        simp only at h
        cases hes : satisfiesAll ctx recur node es st₁ with
        | error err' st₂ =>
          rw [hes] at h
          cases h
          exact (error_of_satisfiesAll hrec es (fun x hx => hcache x (List.mem_append_right _ hx))
            hmid hes).imp_right (·.mono (List.subset_append_right _ _))
        | ok r st₂ =>
          rw [hes] at h
          cases h

theorem error_of_satisfiesAny (hrec : recur.Respects fun st st' => I st → I st') :
    (es : List ShapeExpr) →
    (∀ x ∈ ShapeExpr.shapesOfList es, ∀ st, I st → I (finalState (compiledShape ctx x st))) →
    {st st' : State} → {err : ValidationError} → I st →
    satisfiesAny ctx recur node es st = .error err st' →
      err.Local ∨ RaisedByCompiling ctx I (ShapeExpr.shapesOfList es) err
  | [], _, _, _, _, _, h => by
    rw [satisfiesAny] at h
    cases h
  | e :: es, hcache, st, _, _, hst, h => by
    have hcache' : ∀ x ∈ e.shapes, ∀ st, I st → I (finalState (compiledShape ctx x st)) :=
      fun x hx => hcache x (List.mem_append_left _ hx)
    have hmid : I (finalState (satisfies ctx recur node e st)) :=
      satisfies_rel hrec e hcache' st hst
    rw [satisfiesAny_cons] at h
    cases he : satisfies ctx recur node e st with
    | error err' st₁ =>
      rw [he] at h
      cases h
      exact (error_of_satisfies hrec e hcache' hst he).imp_right
        (·.mono (List.subset_append_left _ _))
    | ok r st₁ =>
      rw [he] at h hmid
      cases r with
      | some ms => cases h
      | none =>
        exact (error_of_satisfiesAny hrec es (fun x hx => hcache x (List.mem_append_right _ hx))
          hmid h).imp_right (·.mono (List.subset_append_right _ _))
end

/-- **What the evaluation of a definition raises**: it may also be that too many associations are
pending. -/
theorem error_of_evaluateDefinition (hrec : recur.Respects fun st st' => I st → I st')
    {e : ShapeExpr}
    (hcache : ∀ x ∈ e.shapes, ∀ st, I st → I (finalState (compiledShape ctx x st)))
    {st st' : State} {err : ValidationError} (hst : I st)
    (h : evaluateDefinition ctx recur node e st = .error err st') :
    (err.Local ∨ RaisedByCompiling ctx I e.shapes err) ∨
      ∃ cap, err = .recursionLimit cap ∧ ctx.limits.maxDepth = some cap ∧ cap < st.depth := by
  rw [evaluateDefinition] at h
  split at h
  · rename_i cap hcap
    cases h
    obtain ⟨hmax, hlt⟩ := Option.filter_eq_some_iff.1 hcap
    exact .inr ⟨cap, rfl, hmax, by simpa using hlt⟩
  · exact .inl (error_of_satisfies hrec e hcache hst h)

end Evaluation

/-! ### Decisions -/

/-- Whether a decision with at most `n` nested decisions raises an error: because the recursion is
too deep or the label is not defined, because the evaluation of the definition fails, or because a
decision that it asks for raises the error. -/
inductive Raises (ctx : Context) : ℕ → Association → State → ValidationError → Prop where
  | exhausted {a : Association} {st : State} : Raises ctx 0 a st (.fault .exhausted)
  | undefined {n : ℕ} {a : Association} {st : State} (ha : st.typing.verdict? a = none)
    (hl : ctx.schema.shape? a.label = none) : Raises ctx (n + 1) a st (.unknownShape a.label)
  | failed {n : ℕ} {a : Association} {st st' : State} {e : ShapeExpr} {err : ValidationError}
    (ha : st.typing.verdict? a = none) (he : ctx.schema.shape? a.label = some e)
    (hev : evaluateDefinition ctx (decideWithin ctx n) a.node e (st.open a) = .error err st') :
    Raises ctx (n + 1) a st err
  | nested {n : ℕ} {a : Association} {st : State} {err : ValidationError} {r : Request}
    (hr : r ∈ decisionRequests ctx (decideWithin ctx n) a st)
    (h : Raises ctx n r.target r.state err) : Raises ctx (n + 1) a st err

/-- **The errors of a decision** are those from before it and those that it raises. -/
theorem raises_of_mem_errors {ctx : Context} {n : ℕ} {a : Association} {st : State}
    {err : ValidationError} (herr : err ∈ (decideWithin ctx n a st).2.errors) :
    err ∈ st.errors ∨ Raises ctx n a st err := by
  induction n generalizing a st err with
  | zero =>
    rcases List.mem_append.1 herr with herr | herr
    · exact .inl herr
    · obtain rfl := List.mem_singleton.1 herr
      exact .inr .exhausted
  | succ n ih =>
    -- what an evaluation adds is raised by nested decisions
    have hduring : ∀ e, st.typing.verdict? a = none → ctx.schema.shape? a.label = some e →
        ∀ err ∈ (finalState (evaluateDefinition ctx (decideWithin ctx n) a.node e
          (st.open a))).errors, err ∈ st.errors ∨ Raises ctx (n + 1) a st err := by
      intro e ha he
      have hthreads := @threads_evaluateDefinition ctx (decideWithin ctx n) a.node e (st.open a)
      rw [← decisionRequests_of_defined ha he] at hthreads
      refine (hthreads.rel (R := fun st₁ st₂ => ∀ err ∈ st₂.errors, err ∈ st₁.errors ∨
          Raises ctx (n + 1) a st err)
        (fun _ _ => .inl) (fun h1 h2 err hmem => (h2 err hmem).elim (h1 err) .inr)
        (fun x _ st err hmem => .inl (errors_compiledShape ctx x st ▸ hmem))
        fun r hr err hmem => ?_).1
      exact (ih hmem).imp_right (.nested hr)
    generalize hd : decideWith ctx (decideWithin ctx n) a st = dec
    have hd' : decideWithin ctx (n + 1) a st = dec := hd
    rw [hd'] at herr
    cases decision hd with
    | known hv => exact .inl herr
    | undefined ha hl =>
      rcases List.mem_append.1 herr with herr | herr
      · exact .inl herr
      · obtain rfl := List.mem_singleton.1 herr
        exact .inr (.undefined ha hl)
    | @evaluated e result st' ha he hev =>
      have hall := hduring e ha he
      rw [hev] at hall
      cases result <;> exact hall err herr
    | @failed e err' st' ha he hev =>
      have hall := hduring e ha he
      rw [hev] at hall
      rcases List.mem_append.1 herr with herr | herr
      · exact hall err herr
      · obtain rfl := List.mem_singleton.1 herr
        exact .inr (.failed ha he hev)

end ShapeTyping
