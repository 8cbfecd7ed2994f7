import Mathlib
import ShapeTyping.Proofs.Validation.Frame
import ShapeTyping.Schema.Build

/-!
# Stability of verdicts

A verdict that is recorded when a call returns is never taken back. A refutation forgets what was
assumed since its own hypothesis, and an association that had a verdict by then is not assumed
again.

* `Typing.matchedTriples_refute`: what a refutation does to the matched triples.
* `State.Keeps`: what a decision leaves of the verdicts and of their matched triples.
* `decideWithin_keeps`: decisions at any depth keep both.
* `Call`, `Validator.performAll`: what can be asked of a validator, and sequences of it.
* `performAll_stable`: a verdict and its matched triples stay until the validator is reset.
-/

namespace ShapeTyping

/-! ### Matched triples after a step -/

namespace Typing

variable {t : Typing} {a b : Association}

theorem matchedTriples_setMatched_of_ne (t : Typing) (ms : List MatchedTriple) (h : b ≠ a) :
    (t.setMatched a ms).matchedTriples b = t.matchedTriples b := by
  rw [matchedTriples, setMatched, Table.get?_insert, if_neg h, matchedTriples]

theorem matchedTriples_dropMatched (t : Typing) (a b : Association) :
    (t.dropMatched a).matchedTriples b = if b = a then [] else t.matchedTriples b := by
  rw [matchedTriples, dropMatched, Table.get?_erase]
  split <;> rfl

theorem matchedTriples_forget (t : Typing) (a b : Association) :
    (t.forget a).matchedTriples b =
      if b = a ∧ t.contains a then [] else t.matchedTriples b := by
  unfold forget
  by_cases h : t.contains a = true
  · rw [if_pos h]
    exact (t.matchedTriples_dropMatched a b).trans (by simp [h])
  · rw [if_neg h, if_neg fun hb => h hb.2]

theorem matchedTriples_foldr_forget (t : Typing) (l : List Association) (b : Association) :
    (l.foldr (fun a t => t.forget a) t).matchedTriples b =
      if b ∈ l ∧ t.contains b then [] else t.matchedTriples b := by
  induction l with
  | nil => simp
  | cons a l ih =>
    rw [List.foldr_cons, matchedTriples_forget, ih]
    by_cases hab : b = a
    · subst hab
      -- what was forgotten before is not contained any more
      rw [contains_foldr_forget]
      by_cases hl : b ∈ l <;> simp [hl]
    · simp [hab]

/-- Confirming an association changes the matched triples of no other one. -/
theorem matchedTriples_confirm_of_ne (t : Typing) (ms : List MatchedTriple) (h : b ≠ a) :
    (t.confirm a ms).matchedTriples b = t.matchedTriples b := by
  unfold confirm
  simp only
  split
  · rfl
  · exact (t.setVerdict a .conforms).matchedTriples_setMatched_of_ne ms h

/-- Confirming an association without matched triples records its list. -/
theorem matchedTriples_confirm_self (ht : t.matchedTriples a = []) (ms : List MatchedTriple) :
    (t.confirm a ms).matchedTriples a = ms := by
  unfold confirm
  simp only
  split
  · rename_i hempty
    exact ht.trans (List.isEmpty_iff.1 hempty).symm
  · rw [matchedTriples, setMatched, Table.get?_insert, if_pos rfl]
    rfl

/-- **A refutation** removes the matched triples of its association and of what it forgets. -/
theorem matchedTriples_refute (t : Typing) (a b : Association) (checkpoint : ℕ) :
    (t.refute a checkpoint).matchedTriples b =
      if b = a ∨ b ∈ t.log.take (t.log.length - checkpoint) ∧ t.contains b then []
      else t.matchedTriples b := by
  have hrollback : (t.rollback checkpoint).matchedTriples b =
      if b ∈ t.log.take (t.log.length - checkpoint) ∧ t.contains b then []
      else t.matchedTriples b := t.matchedTriples_foldr_forget _ b
  change ((t.rollback checkpoint).dropMatched a).matchedTriples b = _
  rw [matchedTriples_dropMatched, hrollback]
  by_cases hba : b = a <;> simp [hba]

end Typing

/-! ### Decisions -/

/-- What a decision keeps: all verdicts and the matched triples that belong to them. -/
structure State.Keeps (st st' : State) : Prop where
  verdicts : st.Extends st'
  matched : ∀ b v, st.typing.verdict? b = some v →
    st'.typing.matchedTriples b = st.typing.matchedTriples b

namespace State.Keeps

variable {st st' st'' : State}

theorem refl (st : State) : st.Keeps st := ⟨.refl st, fun _ _ _ => rfl⟩

theorem trans (h : st.Keeps st') (h' : st'.Keeps st'') : st.Keeps st'' where
  verdicts := h.verdicts.trans h'.verdicts
  matched b v hv := (h'.matched b v (h.verdicts.kept b v hv)).trans (h.matched b v hv)

/-- A step that leaves the typing as it is keeps everything. -/
theorem of_typing_eq (h : st.Extends st') (ht : st'.typing = st.typing) : st.Keeps st' :=
  ⟨h, fun b _ _ => by rw [ht]⟩

end State.Keeps

section Decisions

variable {ctx : Context} {recur : Decider} {st st' : State} {a : Association}

theorem compiledShape_keeps (ctx : Context) (s : Shape) (st : State) :
    st.Keeps (finalState (compiledShape ctx s st)) :=
  .of_typing_eq (compiledShape_extends ctx s st) (typing_compiledShape ctx s st)

/-- **Confirming** an association after an evaluation keeps what was there before. -/
theorem keeps_close_some (ha : st.typing.verdict? a = none) (h : (st.open a).Keeps st') (n : ℕ)
    (ms : List MatchedTriple) : st.Keeps (st'.close a n (some ms)) := by
  refine ⟨extends_close_some ha h.verdicts n ms, fun b v hv => ?_⟩
  have hba : b ≠ a := by rintro rfl; simp [ha] at hv
  exact (st'.typing.matchedTriples_confirm_of_ne ms hba).trans
    (h.matched b v ((verdict?_open_of_ne hba).trans hv))

/-- **Refuting** an association after an evaluation keeps what was there before: nothing that had
a verdict stands in the part of the log that is forgotten. -/
theorem keeps_close_none (ha : st.typing.verdict? a = none) (h : (st.open a).Keeps st') :
    st.Keeps (st'.close a (st.open a).typing.checkpoint none) := by
  refine ⟨extends_close_none ha h.verdicts, fun b v hv => ?_⟩
  have hba : b ≠ a := by rintro rfl; simp [ha] at hv
  have hopen : (st.open a).typing.verdict? b = some v := (verdict?_open_of_ne hba).trans hv
  obtain ⟨new, hlog, hnew, -⟩ := h.verdicts.log
  have htake : st'.typing.log.take
      (st'.typing.log.length - (st.open a).typing.checkpoint) = new := by
    simp [Typing.checkpoint, hlog]
  have hb : b ∉ new := by
    intro hb
    rw [hnew b hb] at hopen
    cases hopen
  rw [State.close, Typing.matchedTriples_refute, htake, if_neg (by simp [hba, hb])]
  exact h.matched b v hopen

/-- **A decision keeps** verdicts and matched triples, if nested decisions do. -/
theorem decideWith_keeps (hR : recur.Respects State.Keeps) (a : Association) (st : State) :
    st.Keeps (decideWith ctx recur a st).2 := by
  have hduring : ∀ e, (st.open a).Keeps
      (finalState (evaluateDefinition ctx recur a.node e (st.open a))) := fun e =>
    evaluateDefinition_rel hR a.node e (fun s _ => compiledShape_keeps ctx s) (st.open a)
  generalize hd : decideWith ctx recur a st = d
  cases decision hd with
  | known hv => exact .refl st
  | undefined ha hl => exact .of_typing_eq (.addError st _) rfl
  | @evaluated e r st' ha he hev =>
    have hkeeps := hduring e
    rw [hev] at hkeeps
    cases r with
    | none => exact keeps_close_none ha hkeeps
    | some ms => exact keeps_close_some ha hkeeps (st.open a).typing.checkpoint ms
  | @failed e err st' ha he hev =>
    have hkeeps := hduring e
    rw [hev] at hkeeps
    exact keeps_close_none ha (hkeeps.trans (.of_typing_eq (.addError st' err) rfl))

/-- **Decisions at any depth** keep verdicts and matched triples. -/
theorem decideWithin_keeps (ctx : Context) (n : ℕ) : (decideWithin ctx n).Respects State.Keeps := by
  refine ⟨State.Keeps.refl, State.Keeps.trans, ?_⟩
  induction n with
  | zero => exact fun a st => .of_typing_eq (.addError st _) rfl
  | succ n ih => exact decideWith_keeps ⟨State.Keeps.refl, State.Keeps.trans, ih⟩

end Decisions

/-! ### Calls of a validator -/

/-- What can be asked of a validator. -/
inductive Call where
  | validate (a : Association)
  | evaluate (f : Formula) (candidates : List Term)
  | reset

/-- What a call returns. -/
inductive Answer where
  | verdict (r : Except ValidationError Bool)
  | outcome (o : Outcome)
  | done

namespace Validator

/-- The answer to a call and the validator after it. The evaluation of a formula reads the facts
of the validator and changes nothing. -/
def perform (v : Validator) : Call → Answer × Validator
  | .validate a => ((v.validate a).map .verdict id)
  | .evaluate f candidates => (.outcome (v.evaluate f candidates), v)
  | .reset => (.done, v.reset)

/-- The answers to successive calls and the validator after them. -/
def performAll (v : Validator) : List Call → List Answer × Validator
  | [] => ([], v)
  | c :: cs =>
    let (answer, v) := v.perform c
    let (answers, v) := performAll v cs
    (answer :: answers, v)

theorem performAll_append_snd (v : Validator) (before after : List Call) :
    (v.performAll (before ++ after)).2 = ((v.performAll before).2.performAll after).2 := by
  induction before generalizing v with
  | nil => rfl
  | cons c cs ih => exact ih (v.perform c).2

variable {v : Validator} {a b : Association} {w : Verdict}

/-- **A call keeps** every verdict and its matched triples, whether it returns an error or not. -/
theorem validate_keeps (h : v.typing.verdict? b = some w) :
    (v.validate a).2.typing.verdict? b = some w ∧
      (v.validate a).2.typing.matchedTriples b = v.typing.matchedTriples b := by
  unfold validate
  split
  · have hkeeps := (decideWithin_keeps v.context v.context.maxNesting).decision a
      { v.state with errors := [], depth := 0 }
    exact ⟨hkeeps.verdicts.kept b w h, hkeeps.matched b w h⟩
  · exact ⟨h, rfl⟩

theorem perform_keeps {c : Call} (hc : c ≠ .reset) (h : v.typing.verdict? b = some w) :
    (v.perform c).2.typing.verdict? b = some w ∧
      (v.perform c).2.typing.matchedTriples b = v.typing.matchedTriples b := by
  cases c with
  | validate a => exact validate_keeps h
  | evaluate f candidates => exact ⟨h, rfl⟩
  | reset => exact absurd rfl hc

theorem performAll_keeps {calls : List Call} (hcalls : ∀ c ∈ calls, c ≠ .reset)
    (h : v.typing.verdict? b = some w) :
    (v.performAll calls).2.typing.verdict? b = some w ∧
      (v.performAll calls).2.typing.matchedTriples b = v.typing.matchedTriples b := by
  induction calls generalizing v with
  | nil => exact ⟨h, rfl⟩
  | cons c cs ih =>
    obtain ⟨hw, hms⟩ := perform_keeps (hcalls c List.mem_cons_self) h
    obtain ⟨hw', hms'⟩ := ih (fun c hc => hcalls c (List.mem_cons_of_mem _ hc)) hw
    exact ⟨hw', hms'.trans hms⟩

end Validator

/-- **Verdicts are stable.** Whatever is asked of a new validator, an association that has a verdict
when some call returns has the same verdict and the same matched triples when any later call
returns, as long as the validator is not reset. It does not matter which calls return errors. -/
theorem performAll_stable (s : Schema) (g : Graph) (limits : Limits) {before after : List Call}
    (hafter : ∀ c ∈ after, c ≠ .reset) {a : Association} {w : Verdict}
    (h : ((Validator.new s g limits).performAll before).2.typing.verdict? a = some w) :
    ((Validator.new s g limits).performAll (before ++ after)).2.typing.verdict? a = some w ∧
      ((Validator.new s g limits).performAll (before ++ after)).2.typing.matchedTriples a =
        ((Validator.new s g limits).performAll before).2.typing.matchedTriples a := by
  rw [Validator.performAll_append_snd]
  exact Validator.performAll_keeps hafter h

/-- Nodes with an edge to such a node or to none, or to one of an external shape. -/
def chainOrExternal : Definitions where
  shapes := [
    (.iri ⟨"urn:S"⟩, .shape ⟨false, [], .constraint ⟨⟨"urn:p"⟩, some (.ref (.iri ⟨"urn:S"⟩)),
      .star, false, some (.iri ⟨"urn:l"⟩)⟩, 0⟩),
    (.iri ⟨"urn:E"⟩, .or [.not (.ref (.iri ⟨"urn:S"⟩)), .external])]
  tripleExprs := []
  start := none

def oneEdge : Graph := ⟨[⟨.iri ⟨"urn:n"⟩, ⟨"urn:p"⟩, .iri ⟨"urn:m"⟩⟩]⟩

/-- The verdict on a node of a chain and its triple stay while a call fails, a formula is evaluated
and the next node is asked for. -/
theorem performAll_stable_failingCalls :
    ∃ s, chainOrExternal.build = .ok s ∧
      let v := Validator.new s oneEdge .standard
      let before : List Call := [.validate ⟨.iri ⟨"urn:n"⟩, .iri ⟨"urn:S"⟩⟩]
      let after : List Call := [.validate ⟨.iri ⟨"urn:n"⟩, .iri ⟨"urn:E"⟩⟩,
        .evaluate ⟨[], .and []⟩ [], .validate ⟨.iri ⟨"urn:m"⟩, .iri ⟨"urn:S"⟩⟩]
      (v.performAll (before ++ after)).1 = [.verdict (.ok true), .verdict (.error .externalShape),
        .outcome ⟨.ok true, []⟩, .verdict (.ok true)] ∧
      (v.performAll (before ++ after)).2.typing.verdict? ⟨.iri ⟨"urn:n"⟩, .iri ⟨"urn:S"⟩⟩ =
        some .conforms ∧
      (v.performAll (before ++ after)).2.typing.matchedTriples ⟨.iri ⟨"urn:n"⟩, .iri ⟨"urn:S"⟩⟩ =
        [⟨⟨.iri ⟨"urn:n"⟩, ⟨"urn:p"⟩, .iri ⟨"urn:m"⟩⟩, .iri ⟨"urn:l"⟩⟩] := by
  have hbuild : chainOrExternal.build = .ok
      { shapes := [
          (.iri ⟨"urn:S"⟩, .shape ⟨false, [], .constraint ⟨⟨"urn:p"⟩, some (.ref (.iri ⟨"urn:S"⟩)),
            .star, false, some (.iri ⟨"urn:l"⟩)⟩, 0⟩),
          (.iri ⟨"urn:E"⟩, .or [.not (.ref (.iri ⟨"urn:S"⟩)), .external])]
        tripleExprs := [], start := none, shapeCount := 1
        strata := [[.iri ⟨"urn:S"⟩], [.iri ⟨"urn:E"⟩]] } := by cbv
  refine ⟨_, hbuild, ?_⟩
  intro v before after
  have hfirst : (v.performAll before).2.typing.verdict? ⟨.iri ⟨"urn:n"⟩, .iri ⟨"urn:S"⟩⟩ =
      some .conforms := by cbv
  obtain ⟨hverdict, hmatched⟩ :=
    @performAll_stable _ oneEdge .standard before after (by simp [after]) _ _ hfirst
  exact ⟨by cbv, hverdict, hmatched.trans (by cbv)⟩

end ShapeTyping
