import Mathlib
import ShapeTyping.Proofs.Validation.Requests

/-!
# What a decision leaves unchanged

Deciding an association keeps every verdict that was there before and leaves no new hypothesis.
What is newly concluded to conform stands in the log, so that it can be forgotten.

* `satisfies_rel`: a relation between states that each nested decision respects is respected by
  the evaluation of an expression.
* `State.Extends`: what a decision may change.
* `State.Carries`: a property of states that is kept by what ends without errors.
* `decideWithin_extends`: decisions at any depth change no more than that.
* `RegardsCache`, `RegardsCache.respects`: what decisions do to the cache.
* `decideWith_verdict`: a decision on a defined label ends with a verdict.
* `verdict?_close_none`: what a refutation leaves of the conclusions since its assumption.
-/

namespace ShapeTyping

/-! ### Relations between states -/

/-- A relation between states that holds across no step, across successive steps and across a
nested decision. -/
structure Decider.Respects (recur : Decider) (R : State → State → Prop) : Prop where
  refl : ∀ st, R st st
  trans : ∀ {st st' st''}, R st st' → R st' st'' → R st st''
  decision : ∀ a st, R st (recur a st).2

section Relation

variable {ctx : Context} {recur : Decider} {node : Term} {R : State → State → Prop}
  (hR : recur.Respects R)
include hR

theorem Threads.respects {xs : List Shape} {rs : List Request} {st st' : State}
    (h : Threads ctx recur xs st rs st')
    (hcache : ∀ s ∈ xs, ∀ st, R st (finalState (compiledShape ctx s st))) : R st st' :=
  (h.rel hR.refl hR.trans hcache fun r _ => hR.decision r.target r.state).1

theorem decideValues_rel (other : Term) (cs : List TripleConstraint) (st : State) :
    R st (decideValues recur other cs st) :=
  (@threads_decideValues default recur [] other cs st).respects hR (by simp)

theorem decideEdges_rel (s : Shape) (cs : List TripleConstraint) (es : List Edge) (st : State) :
    R st (decideEdges recur s cs es st).2 :=
  (@threads_decideEdges default recur [] s cs es st).respects hR (by simp)

/-- **A relation that nested decisions and the cache respect** is respected by evaluation. -/
theorem satisfies_rel (e : ShapeExpr)
    (hcache : ∀ s ∈ e.shapes, ∀ st, R st (finalState (compiledShape ctx s st))) (st : State) :
    R st (finalState (satisfies ctx recur node e st)) :=
  (threads_satisfies e st).respects hR hcache

theorem satisfiesAll_rel (es : List ShapeExpr)
    (hcache : ∀ s ∈ ShapeExpr.shapesOfList es, ∀ st, R st (finalState (compiledShape ctx s st)))
    (st : State) : R st (finalState (satisfiesAll ctx recur node es st)) :=
  (threads_satisfiesAll es st).respects hR hcache

theorem satisfiesAny_rel (es : List ShapeExpr)
    (hcache : ∀ s ∈ ShapeExpr.shapesOfList es, ∀ st, R st (finalState (compiledShape ctx s st)))
    (st : State) : R st (finalState (satisfiesAny ctx recur node es st)) :=
  (threads_satisfiesAny es st).respects hR hcache

end Relation

/-! ### Verdicts after a refutation -/

namespace Typing

variable {t : Typing} {a b : Association}

theorem contains_eq_true : t.contains a = true ↔
    t.verdict? a = some .conforms ∨ t.verdict? a = some .hypothesis := by
  simp [contains]

theorem verdict?_foldr_forget (t : Typing) (l : List Association) (b : Association) :
    (l.foldr (fun a t => t.forget a) t).verdict? b =
      if b ∈ l ∧ t.contains b then none else t.verdict? b := by
  induction l with
  | nil => simp
  | cons a l ih =>
    rw [List.foldr_cons, verdict?_forget, ih]
    by_cases hab : b = a
    · subst hab
      by_cases hl : b ∈ l ∧ t.contains b = true
      · simp [hl]
      · have hc : (l.foldr (fun a t => t.forget a) t).contains b = t.contains b := by
          rw [contains, contains, ih, if_neg hl]
        simp [hc, hl]
    · simp [hab]

theorem contains_foldr_forget (t : Typing) (l : List Association) (b : Association) :
    (l.foldr (fun a t => t.forget a) t).contains b = (decide (b ∉ l) && t.contains b) := by
  rw [contains, contains, verdict?_foldr_forget]
  by_cases hl : b ∈ l
  · by_cases hb : t.contains b = true
    · simp [hl, hb]
    · rw [if_neg fun h => hb h.2]
      simpa [hl, contains] using hb
  · simp [hl]

/-- **A rollback** forgets what may be relied on since the checkpoint and nothing else. -/
theorem verdict?_rollback (t : Typing) (checkpoint : ℕ) (b : Association) :
    (t.rollback checkpoint).verdict? b =
      if b ∈ t.log.take (t.log.length - checkpoint) ∧ t.contains b then none else t.verdict? b :=
  verdict?_foldr_forget t _ b

theorem verdict?_refute_eq (t : Typing) (a b : Association) (checkpoint : ℕ) :
    (t.refute a checkpoint).verdict? b =
      if b = a then some .fails else (t.rollback checkpoint).verdict? b := by
  rw [refute, verdict?_setVerdict]
  rfl

theorem log_refute (t : Typing) (a : Association) (checkpoint : ℕ) :
    (t.refute a checkpoint).log = t.log.drop (t.log.length - checkpoint) := rfl

theorem log_confirm (t : Typing) (a : Association) (ms : List MatchedTriple) :
    (t.confirm a ms).log = t.log := by
  unfold confirm
  simp only
  split <;> rfl

end Typing

/-! ### Extensions of a state -/

/-- What a decision may change: all verdicts are kept, a new verdict is no hypothesis, and an
association that newly conforms stands in the part of the log that was added. -/
structure State.Extends (st st' : State) : Prop where
  depth : st'.depth = st.depth
  errors : st.errors <+: st'.errors
  kept : ∀ b v, st.typing.verdict? b = some v → st'.typing.verdict? b = some v
  fresh : ∀ b, st.typing.verdict? b = none → st'.typing.verdict? b ≠ some .hypothesis
  log : ∃ new, st'.typing.log = new ++ st.typing.log ∧
    (∀ b ∈ new, st.typing.verdict? b = none) ∧
    ∀ b, st.typing.verdict? b = none → st'.typing.verdict? b = some .conforms → b ∈ new

namespace State.Extends

variable {st st' st'' : State}

theorem refl (st : State) : st.Extends st where
  depth := rfl
  errors := List.prefix_rfl
  kept _ _ h := h
  fresh b h := by simp [h]
  log := ⟨[], rfl, by simp, fun b h h' => by simp [h] at h'⟩

theorem trans (h : st.Extends st') (h' : st'.Extends st'') : st.Extends st'' where
  depth := h'.depth.trans h.depth
  errors := h.errors.trans h'.errors
  kept b v hv := h'.kept b v (h.kept b v hv)
  fresh b hb := by
    cases hv : st'.typing.verdict? b with
    | none => exact h'.fresh b hv
    | some v =>
      rw [h'.kept b v hv, ← hv]
      exact h.fresh b hb
  log := by
    obtain ⟨new, hlog, hnew, hc⟩ := h.log
    obtain ⟨new', hlog', hnew', hc'⟩ := h'.log
    refine ⟨new' ++ new, by rw [hlog', hlog, List.append_assoc], ?_, ?_⟩
    · intro b hb
      rcases List.mem_append.1 hb with hb | hb
      -- what is new in the second part had no verdict before the first
      · by_contra hne
        obtain ⟨v, hv⟩ := Option.ne_none_iff_exists'.1 hne
        have := hnew' b hb
        rw [h.kept b v hv] at this
        cases this
      · exact hnew b hb
    · intro b hb hb'
      cases hv : st'.typing.verdict? b with
      | none => exact List.mem_append_left _ (hc' b hv hb')
      | some v =>
        rw [h'.kept b v hv] at hb'
        cases hb'
        exact List.mem_append_right _ (hc b hb hv)

/-- No hypothesis is resolved or left behind. -/
theorem hypothesis_iff (h : st.Extends st') (b : Association) :
    st'.typing.verdict? b = some .hypothesis ↔ st.typing.verdict? b = some .hypothesis := by
  constructor
  · intro hb
    cases hv : st.typing.verdict? b with
    | none => exact absurd hb (h.fresh b hv)
    | some v =>
      rw [h.kept b v hv] at hb
      exact hb
  · exact h.kept b _

/-- A run that ends without errors had none before. -/
theorem errors_eq_nil (h : st.Extends st') (he : st'.errors = []) : st.errors = [] := by
  have := h.errors
  rw [he] at this
  exact List.prefix_nil.1 this

/-- What was relied on still is. -/
theorem contains (h : st.Extends st') {b : Association} (hb : st.typing.contains b = true) :
    st'.typing.contains b = true := by
  rw [Typing.contains_eq_true] at hb ⊢
  exact hb.imp (h.kept b _) (h.kept b _)

theorem addError (st : State) (err : ValidationError) : st.Extends (st.addError err) where
  depth := rfl
  errors := List.prefix_append _ _
  kept _ _ h := h
  fresh b h := by
    change st.typing.verdict? b ≠ _
    simp [h]
  log := by
    refine ⟨[], rfl, by simp, fun b h h' => ?_⟩
    change st.typing.verdict? b = _ at h'
    simp [h] at h'

/-- Only the cache may change otherwise. -/
theorem of_typing_eq (ht : st'.typing = st.typing) (he : st'.errors = st.errors)
    (hd : st'.depth = st.depth) : st.Extends st' where
  depth := hd
  errors := he ▸ List.prefix_rfl
  kept _ _ h := by rw [ht, h]
  fresh b h := by simp [ht, h]
  log := ⟨[], by rw [ht]; rfl, by simp, fun b h h' => by simp [ht, h] at h'⟩

end State.Extends

/-- Whether a property of states is kept by what happens, if it ends without errors. -/
structure State.Carries (P : State → Prop) (st st' : State) : Prop where
  extend : st.Extends st'
  carry : st'.errors = [] → P st → P st'

namespace State.Carries

variable {P : State → Prop} {st st' st'' : State}

theorem refl (st : State) : st.Carries P st := ⟨.refl st, fun _ => id⟩

theorem trans (h : st.Carries P st') (h' : st'.Carries P st'') : st.Carries P st'' where
  extend := h.extend.trans h'.extend
  carry he hst := h'.carry he (h.carry (h'.extend.errors_eq_nil he) hst)

end State.Carries

theorem compiledShape_extends (ctx : Context) (s : Shape) (st : State) :
    st.Extends (finalState (compiledShape ctx s st)) := by
  unfold compiledShape
  split
  · exact .refl st
  · exact .refl st
  · split
    · exact .refl st
    · exact .of_typing_eq rfl rfl rfl

/-! ### Decisions -/

section Decisions

variable {ctx : Context} {recur : Decider}

/-- The typing while an association is pending. -/
theorem verdict?_open (st : State) (a b : Association) :
    (st.open a).typing.verdict? b = if b = a then some .hypothesis else st.typing.verdict? b :=
  st.typing.verdict?_hypothesize a b

theorem verdict?_open_of_ne {st : State} {a b : Association} (hb : b ≠ a) :
    (st.open a).typing.verdict? b = st.typing.verdict? b := by
  rw [verdict?_open, if_neg hb]

/-- An association that is assumed is pending on top of those that are. -/
theorem hypothesis_open_iff {st : State} {pending : List Association}
    (h : ∀ b, st.typing.verdict? b = some .hypothesis ↔ b ∈ pending) (a b : Association) :
    (st.open a).typing.verdict? b = some .hypothesis ↔ b ∈ a :: pending := by
  rw [verdict?_open]
  by_cases hba : b = a
  · simp [hba]
  · simpa [hba] using h b

/-- The typing after a confirmation. -/
theorem verdict?_close_some (st : State) (a b : Association) (n : ℕ) (ms : List MatchedTriple) :
    (st.close a n (some ms)).typing.verdict? b =
      if b = a then some .conforms else st.typing.verdict? b :=
  st.typing.verdict?_confirm a b ms

/-- **Confirming** an association after an evaluation extends the state before. -/
theorem extends_close_some {st st' : State} {a : Association} (ha : st.typing.verdict? a = none)
    (h : (st.open a).Extends st') (n : ℕ) (ms : List MatchedTriple) :
    st.Extends (st'.close a n (some ms)) := by
  have hv := fun b => verdict?_close_some st' a b n ms
  refine ⟨?_, h.errors, ?_, ?_, ?_⟩
  · have := h.depth
    simp only [State.close, State.open] at this ⊢
    omega
  · intro b v hb
    have hba : b ≠ a := by rintro rfl; simp [ha] at hb
    rw [hv, if_neg hba]
    exact h.kept b v ((verdict?_open_of_ne hba).trans hb)
  · intro b hb
    rw [hv]
    by_cases hba : b = a
    · simp [hba]
    · rw [if_neg hba]
      exact h.fresh b ((verdict?_open_of_ne hba).trans hb)
  · obtain ⟨new, hlog, hnew, hc⟩ := h.log
    refine ⟨new ++ [a], ?_, ?_, ?_⟩
    · have : (st'.close a n (some ms)).typing.log = st'.typing.log := Typing.log_confirm _ a ms
      rw [this, hlog]
      simp [State.open, Typing.hypothesize]
    · intro b hb
      rcases List.mem_append.1 hb with hbn | hbn
      · have hba : b ≠ a := by
          rintro rfl
          have := hnew b hbn
          simp [verdict?_open] at this
        rw [← verdict?_open_of_ne hba]
        exact hnew b hbn
      · rw [List.mem_singleton.1 hbn]
        exact ha
    · intro b hb hb'
      by_cases hba : b = a
      · simp [hba]
      · rw [hv, if_neg hba] at hb'
        exact List.mem_append_left _ (hc b ((verdict?_open_of_ne hba).trans hb) hb')

/-- The verdicts after a refutation are those from before it, refutations since, and the one at
hand. -/
theorem verdict?_close_none {st st' : State} {a : Association}
    (h : (st.open a).Extends st') (b : Association) :
    (st'.close a (st.open a).typing.checkpoint none).typing.verdict? b =
      if b = a then some .fails
      else if st.typing.verdict? b = none ∧ st'.typing.verdict? b = some .conforms then none
      else st'.typing.verdict? b := by
  obtain ⟨new, hlog, hnew, hc⟩ := h.log
  have htake : st'.typing.log.take
      (st'.typing.log.length - (st.open a).typing.checkpoint) = new := by
    simp [Typing.checkpoint, hlog]
  rw [State.close, Typing.verdict?_refute_eq, Typing.verdict?_rollback, htake]
  by_cases hba : b = a
  · simp [hba]
  rw [if_neg hba, if_neg hba]
  have hopen : (st.open a).typing.verdict? b = st.typing.verdict? b := verdict?_open_of_ne hba
  -- what may be relied on and was assumed since is what newly conforms
  congr 1
  apply propext
  constructor
  · rintro ⟨hb, hcont⟩
    have hnone : (st.open a).typing.verdict? b = none := hnew b hb
    refine ⟨hopen ▸ hnone, ?_⟩
    rw [Typing.contains_eq_true] at hcont
    exact hcont.resolve_right (h.fresh b hnone)
  · rintro ⟨hb, hcont⟩
    exact ⟨hc b (hopen.trans hb) hcont, Typing.contains_eq_true.2 (.inl hcont)⟩

/-- **Refuting** an association after an evaluation extends the state before. -/
theorem extends_close_none {st st' : State} {a : Association} (ha : st.typing.verdict? a = none)
    (h : (st.open a).Extends st') :
    st.Extends (st'.close a (st.open a).typing.checkpoint none) := by
  refine ⟨?_, h.errors, ?_, ?_, ?_⟩
  · have := h.depth
    simp only [State.close, State.open] at this ⊢
    omega
  · intro b v hb
    have hba : b ≠ a := by rintro rfl; simp [ha] at hb
    rw [verdict?_close_none h, if_neg hba, if_neg (by simp [hb])]
    exact h.kept b v ((verdict?_open_of_ne hba).trans hb)
  · intro b hb
    rw [verdict?_close_none h]
    by_cases hba : b = a
    · simp [hba]
    · rw [if_neg hba]
      split
      · simp
      · exact h.fresh b ((verdict?_open_of_ne hba).trans hb)
  -- the log is cut back to the assumption, which is all that is new
  · obtain ⟨new, hlog, -, -⟩ := h.log
    refine ⟨[a], ?_, by simpa using ha, ?_⟩
    · rw [State.close, Typing.log_refute, hlog]
      simp [Typing.checkpoint, State.open, Typing.hypothesize]
    · intro b hb hb'
      rw [verdict?_close_none h] at hb'
      by_cases hba : b = a
      · simp [hba]
      · rw [if_neg hba] at hb'
        split at hb'
        · cases hb'
        · rename_i hneg
          exact absurd ⟨hb, hb'⟩ hneg

/-- **What conforms after a refutation** did so before the assumption. -/
theorem conforms_of_close_none {st st' : State} {a b : Association}
    (ha : st.typing.verdict? a = none) (h : (st.open a).Extends st')
    (hb : (st'.close a (st.open a).typing.checkpoint none).typing.verdict? b = some .conforms) :
    st.typing.verdict? b = some .conforms := by
  have hb' := hb
  rw [verdict?_close_none h] at hb'
  by_cases hba : b = a
  · simp [hba] at hb'
  rw [if_neg hba] at hb'
  split at hb'
  · cases hb'
  rename_i hold
  cases hsome : st.typing.verdict? b with
  | none => exact absurd ⟨hsome, hb'⟩ hold
  | some v => rw [← (extends_close_none ha h).kept b v hsome, hb]

/-- The evaluation of a definition respects what the evaluation of its expression does. -/
theorem evaluateDefinition_rel {R : State → State → Prop} (hR : recur.Respects R) (node : Term)
    (e : ShapeExpr) (hcache : ∀ s ∈ e.shapes, ∀ st, R st (finalState (compiledShape ctx s st)))
    (st : State) : R st (finalState (evaluateDefinition ctx recur node e st)) :=
  (threads_evaluateDefinition e st).respects hR hcache

theorem evaluateDefinition_extends (hR : recur.Respects State.Extends) (node : Term)
    (e : ShapeExpr) (st : State) :
    st.Extends (finalState (evaluateDefinition ctx recur node e st)) :=
  evaluateDefinition_rel hR node e (fun s _ => compiledShape_extends ctx s) st

/-- **A decision extends the state**, if nested decisions do. -/
theorem decideWith_extends (hR : recur.Respects State.Extends) (a : Association) (st : State) :
    st.Extends (decideWith ctx recur a st).2 := by
  have hduring := fun e => @evaluateDefinition_extends ctx recur hR a.node e (st.open a)
  generalize hd : decideWith ctx recur a st = d
  cases decision hd with
  | known hv => exact .refl st
  | undefined ha hl => exact .addError st _
  | @evaluated e r st' ha he hev =>
    have hext := hduring e
    rw [hev] at hext
    cases r with
    | none => exact extends_close_none ha hext
    | some ms => exact extends_close_some ha hext (st.open a).typing.checkpoint ms
  | @failed e err st' ha he hev =>
    have hext := hduring e
    rw [hev] at hext
    exact extends_close_none ha (hext.trans (.addError st' err))

/-- **Decisions at any depth** extend the state. -/
theorem decideWithin_extends (ctx : Context) (n : ℕ) :
    (decideWithin ctx n).Respects State.Extends := by
  refine ⟨State.Extends.refl, State.Extends.trans, ?_⟩
  induction n with
  | zero => exact fun a st => .addError st _
  | succ n ih => exact decideWith_extends ⟨State.Extends.refl, State.Extends.trans, ih⟩

/-- A relation between states that regards nothing but the cache, and that compiling the shapes of
definitions respects. -/
structure RegardsCache (ctx : Context) (R : State → State → Prop) : Prop where
  trans : ∀ {st st' st''}, R st st' → R st' st'' → R st st''
  same : ∀ {st st'}, st'.compiled = st.compiled → R st st'
  compile : ∀ {l e}, ctx.schema.shape? l = some e → ∀ x ∈ e.shapes, ∀ st,
    R st (finalState (compiledShape ctx x st))

/-- **Decisions respect what regards the cache only**, by induction on the depth. -/
theorem RegardsCache.respects {R : State → State → Prop} (hR : RegardsCache ctx R) (n : ℕ) :
    (decideWithin ctx n).Respects R := by
  refine ⟨fun _ => hR.same rfl, hR.trans, ?_⟩
  induction n with
  | zero => exact fun a st => hR.same rfl
  | succ n ih =>
    intro a st
    have hopen : R st (st.open a) := hR.same rfl
    have hduring : ∀ e, ctx.schema.shape? a.label = some e →
        R st (finalState (evaluateDefinition ctx (decideWithin ctx n) a.node e
          (st.open a))) := fun e he =>
      hR.trans hopen (evaluateDefinition_rel ⟨fun _ => hR.same rfl, hR.trans, ih⟩ a.node e
        (hR.compile he) (st.open a))
    rw [decideWithin]
    generalize hd : decideWith ctx (decideWithin ctx n) a st = d
    cases decision hd with
    | known hv => exact hR.same rfl
    | undefined ha hl => exact hR.same rfl
    | @evaluated e r st' ha he hev =>
      have hend := hduring e he
      rw [hev] at hend
      exact hR.trans hend (hR.same (by cases r <;> rfl))
    | @failed e err st' ha he hev =>
      have hend := hduring e he
      rw [hev] at hend
      exact hR.trans hend (hR.same rfl)

/-- What regards the cache only relates the state before a decision to those in which it asks for
others. -/
theorem RegardsCache.of_mem_requests {R : State → State → Prop} (hR : RegardsCache ctx R) {n : ℕ}
    {a : Association} {st : State} {r : Request}
    (hr : r ∈ decisionRequests ctx (decideWithin ctx n) a st) : R st r.state := by
  obtain ⟨-, e, he, hr⟩ := defined_of_mem_decisionRequests hr
  have hopen : R st (st.open a) := hR.same rfl
  have hthreads := @threads_evaluateDefinition ctx (decideWithin ctx n) a.node e (st.open a)
  have hbetween := (hthreads.rel (fun _ => hR.same rfl) hR.trans (hR.compile he)
    fun r _ => (hR.respects n).decision r.target r.state).2
  exact hR.trans hopen (hbetween r hr).1

/-- The values of constraints have a verdict once they have been decided. -/
theorem decideValues_decided (hR : recur.Respects State.Extends) {other : Term}
    {cs : List TripleConstraint} {st st' : State} (hst : decideValues recur other cs st = st')
    (hdec : ∀ c ∈ cs, ∀ l, c.valueLabel? = some l → ∀ st,
      (recur ⟨other, l⟩ st).2.Extends st' →
        (recur ⟨other, l⟩ st).2.typing.verdict? ⟨other, l⟩ ≠ none)
    {c : TripleConstraint} (hc : c ∈ cs) {l : Label} (hl : c.valueLabel? = some l) :
    st'.typing.verdict? ⟨other, l⟩ ≠ none := by
  -- a verdict stays while other values are decided
  have hkept : ∀ cs st, decideValues recur other cs st = st' →
      st.typing.verdict? ⟨other, l⟩ ≠ none → st'.typing.verdict? ⟨other, l⟩ ≠ none := by
    intro cs st hst hne
    obtain ⟨v, hv⟩ := Option.ne_none_iff_exists'.1 hne
    rw [← hst, (decideValues_rel hR other cs st).kept _ v hv]
    simp
  induction cs generalizing st with
  | nil => cases hc
  | cons c' cs ih =>
    have ih' : ∀ st, decideValues recur other cs st = st' → c ∈ cs →
        st'.typing.verdict? ⟨other, l⟩ ≠ none := fun st hst hc =>
      ih hst (fun c hc => hdec c (List.mem_cons_of_mem _ hc)) hc
    rw [decideValues] at hst
    rcases List.mem_cons.1 hc with rfl | hc
    · simp only [hl] at hst
      split at hst
      · rename_i hsome
        exact hkept cs st hst (by simpa [Option.isSome_iff_ne_none] using hsome)
      · have hlater := decideValues_rel hR other cs (recur ⟨other, l⟩ st).2
        rw [hst] at hlater
        exact hkept cs _ hst (hdec c List.mem_cons_self l hl st hlater)
    · split at hst
      · exact ih' st hst hc
      · split at hst
        · exact ih' st hst hc
        · exact ih' _ hst hc

/-- **After the edges have been gone through**, every value that an edge might need has a
verdict. -/
theorem decideEdges_decided (hR : recur.Respects State.Extends) {s : Shape}
    {cs : List TripleConstraint} {es : List Edge} {st st' : State}
    (hdec : ∀ e ∈ es, ∀ c ∈ cs, ∀ l, c.valueLabel? = some l → ∀ st,
      (recur ⟨e.other, l⟩ st).2.Extends st' →
        (recur ⟨e.other, l⟩ st).2.typing.verdict? ⟨e.other, l⟩ ≠ none)
    (hst : decideEdges recur s cs es st = (true, st')) {e : Edge} (he : e ∈ es)
    {c : TripleConstraint} (hc : c ∈ cs) (hm : c.matchesEdge e = true) {l : Label}
    (hl : c.valueLabel? = some l) : st'.typing.verdict? ⟨e.other, l⟩ ≠ none := by
  induction es generalizing st with
  | nil => cases he
  | cons e' es ih =>
    have ih' : ∀ st, decideEdges recur s cs es st = (true, st') → e ∈ es →
        st'.typing.verdict? ⟨e.other, l⟩ ≠ none := fun st hst he =>
      ih (fun e he => hdec e (List.mem_cons_of_mem _ he)) hst he
    rw [decideEdges] at hst
    have hfit : c ∈ cs.filter (·.matchesEdge e) := List.mem_filter.2 ⟨hc, hm⟩
    split at hst
    · rename_i hempty
      split at hst
      · rcases List.mem_cons.1 he with rfl | he
        · rw [List.isEmpty_iff.1 hempty] at hfit
          cases hfit
        · exact ih' st hst he
      · cases hst
    · rcases List.mem_cons.1 he with rfl | he
      · have hext := decideEdges_rel hR s cs es
          (decideValues recur e.other (cs.filter (·.matchesEdge e)) st)
        rw [hst] at hext
        have hdecided : (decideValues recur e.other
            (cs.filter (·.matchesEdge e)) st).typing.verdict? ⟨e.other, l⟩ ≠ none := by
          refine decideValues_decided hR rfl (fun c hc l hl st hlater => ?_) hfit hl
          exact hdec e List.mem_cons_self c (List.mem_filter.1 hc).1 l hl st (hlater.trans hext)
        obtain ⟨v, hv⟩ := Option.ne_none_iff_exists'.1 hdecided
        rw [hext.kept _ v hv]
        simp
      · exact ih' _ hst he

/-- **If going through the edges ends early**, some edge fits no constraint and is not extra. -/
theorem decideEdges_eq_false {s : Shape} {cs : List TripleConstraint} {es : List Edge}
    {st st' : State} (h : decideEdges recur s cs es st = (false, st')) :
    ∃ e ∈ es, s.isExtra e.predicate = false ∧ ∀ c ∈ cs, c.matchesEdge e = false := by
  induction es generalizing st with
  | nil => cases h
  | cons e es ih =>
    have hlater : ∀ st, decideEdges recur s cs es st = (false, st') → ∃ e' ∈ e :: es,
        s.isExtra e'.predicate = false ∧ ∀ c ∈ cs, c.matchesEdge e' = false := by
      intro st h
      obtain ⟨e', he', hrest⟩ := ih h
      exact ⟨e', List.mem_cons_of_mem _ he', hrest⟩
    rw [decideEdges] at h
    split at h
    · rename_i hempty
      split at h
      · exact hlater _ h
      · rename_i hextra
        refine ⟨e, List.mem_cons_self, by simpa using hextra, fun c hc => ?_⟩
        by_contra hm
        have hfit : c ∈ cs.filter (·.matchesEdge e) := List.mem_filter.2 ⟨hc, by simpa using hm⟩
        rw [List.isEmpty_iff.1 hempty] at hfit
        cases hfit
    · exact hlater _ h

/-- **A decision on a defined label** ends with a verdict, and its answer is that verdict. -/
theorem decideWith_verdict {a : Association} {e : ShapeExpr}
    (he : ctx.schema.shape? a.label = some e) (st : State) :
    ∃ v, (decideWith ctx recur a st).2.typing.verdict? a = some v ∧
      ((decideWith ctx recur a st).1 = true ↔ v ≠ .fails) := by
  generalize hd : decideWith ctx recur a st = d
  cases decision hd with
  | @known v hv => exact ⟨v, hv, by simp⟩
  | undefined ha hl => simp [he] at hl
  | @evaluated _ r st' ha _ hev =>
    cases r with
    | none => exact ⟨.fails, st'.typing.verdict?_refute a _, by simp⟩
    | some ms =>
      refine ⟨.conforms, ?_, by simp⟩
      exact (st'.typing.verdict?_confirm a a ms).trans (if_pos rfl)
  | failed ha _ hev => exact ⟨.fails, Typing.verdict?_refute _ a _, by simp⟩

end Decisions

end ShapeTyping
