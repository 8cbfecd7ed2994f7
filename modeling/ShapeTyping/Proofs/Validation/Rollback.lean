import Mathlib
import ShapeTyping.Proofs.Validation.Representation

/-!
# Rollback

Hypotheses are resolved one inside the other. A refutation that goes back to the checkpoint of its
own hypothesis leaves the typing as it was before the hypothesis, but for what has been refuted.

* `Nesting`: hypotheses that are made and resolved, one inside the other.
* `Nesting.run`, `Nesting.Fits`, `Nesting.refuted`: what they do to a typing, whether they may be
  made there, and what they refute.
* `decideWithin_nests`: every decision is such a sequence.
* `Nesting.verdict?_refute`: the verdicts after a refutation.
* `refute_restores`: a refutation restores each typing of a validator.
-/

namespace ShapeTyping

/-! ### Nested hypotheses -/

/-- A sequence of hypotheses. Each is followed by others that are resolved before it, by its own
outcome, which is absent if it is refuted, and by the rest of the sequence. -/
inductive Nesting where
  | done
  | resolve (a : Association) (inner : Nesting) (outcome : Option (List MatchedTriple))
    (rest : Nesting)

/-- Confirms a hypothesis, or refutes it at a checkpoint. -/
def Typing.resolve (t : Typing) (a : Association) (checkpoint : ℕ) :
    Option (List MatchedTriple) → Typing
  | some ms => t.confirm a ms
  | none => t.refute a checkpoint

theorem State.close_eq_resolve (st : State) (a : Association) (checkpoint : ℕ)
    (outcome : Option (List MatchedTriple)) :
    st.close a checkpoint outcome =
      { st with typing := st.typing.resolve a checkpoint outcome, depth := st.depth - 1 } := by
  cases outcome <;> rfl

theorem Typing.fails_confirm_iff {t : Typing} {a b : Association} {ms : List MatchedTriple} :
    (t.confirm a ms).verdict? b = some .fails ↔ b ≠ a ∧ t.verdict? b = some .fails := by
  rw [verdict?_confirm]
  by_cases hba : b = a <;> simp [hba]

/-- No refutation is forgotten. -/
theorem Typing.fails_refute_iff {t : Typing} {a b : Association} {checkpoint : ℕ} :
    (t.refute a checkpoint).verdict? b = some .fails ↔ b = a ∨ t.verdict? b = some .fails := by
  rw [verdict?_refute_eq, verdict?_rollback]
  by_cases hba : b = a
  · simp [hba]
  · by_cases hf : t.verdict? b = some .fails
    · simp [hba, hf, contains]
    · simp [hba, hf]

namespace Nesting

/-- The typing after a sequence. Each hypothesis is resolved at its own checkpoint. -/
def run : Nesting → Typing → Typing
  | .done, t => t
  | .resolve a inner outcome rest, t =>
    rest.run ((inner.run (t.hypothesize a)).resolve a (t.hypothesize a).checkpoint outcome)

/-- Whether each hypothesis is about an association without a verdict. -/
def Fits : Nesting → Typing → Prop
  | .done, _ => True
  | .resolve a inner outcome rest, t =>
    t.verdict? a = none ∧ inner.Fits (t.hypothesize a) ∧
      rest.Fits ((inner.run (t.hypothesize a)).resolve a (t.hypothesize a).checkpoint outcome)

instance decidableFits : (n : Nesting) → (t : Typing) → Decidable (n.Fits t)
  | .done, _ => inferInstanceAs (Decidable True)
  | .resolve a inner outcome rest, t =>
    have := inner.decidableFits (t.hypothesize a)
    have := rest.decidableFits
      ((inner.run (t.hypothesize a)).resolve a (t.hypothesize a).checkpoint outcome)
    inferInstanceAs (Decidable (_ ∧ _ ∧ _))

/-- The associations whose hypotheses are refuted. -/
def refuted : Nesting → List Association
  | .done => []
  | .resolve _ inner (some _) rest => inner.refuted ++ rest.refuted
  | .resolve a inner none rest => inner.refuted ++ a :: rest.refuted

/-- One sequence after another. -/
def append : Nesting → Nesting → Nesting
  | .done, m => m
  | .resolve a inner outcome rest, m => .resolve a inner outcome (rest.append m)

theorem run_append (n m : Nesting) (t : Typing) : (n.append m).run t = m.run (n.run t) := by
  induction n generalizing t with
  | done => rfl
  | resolve a inner outcome rest _ ih => exact ih _

theorem fits_append {n m : Nesting} {t : Typing} (hn : n.Fits t) (hm : m.Fits (n.run t)) :
    (n.append m).Fits t := by
  induction n generalizing t with
  | done => exact hm
  | resolve a inner outcome rest _ ih =>
    obtain ⟨ha, hinner, hrest⟩ := hn
    exact ⟨ha, hinner, ih hrest hm⟩

variable {n : Nesting} {t : Typing} {a b : Association}

/-! ### What a sequence keeps -/

/-- Resolving a hypothesis keeps what was there before it, if what comes inside it does. -/
theorem keeps_resolve {st : State} {t' : Typing} (ha : st.typing.verdict? a = none)
    (h : (st.open a).Keeps { st.open a with typing := t' })
    (outcome : Option (List MatchedTriple)) :
    st.Keeps { st with typing := t'.resolve a (st.typing.hypothesize a).checkpoint outcome } := by
  have hclose : ({ st.open a with typing := t' } : State).close a (st.open a).typing.checkpoint
      outcome = { st with typing := t'.resolve a (st.typing.hypothesize a).checkpoint outcome } :=
    State.close_eq_resolve _ _ _ _
  rw [← hclose]
  cases outcome with
  | none => exact keeps_close_none ha h
  | some ms => exact keeps_close_some ha h (st.open a).typing.checkpoint ms

/-- **A sequence keeps** what a decision keeps. -/
theorem keeps {st : State} (h : n.Fits st.typing) :
    st.Keeps { st with typing := n.run st.typing } := by
  induction n generalizing st with
  | done => exact .refl st
  | resolve a inner outcome rest ihInner ihRest =>
    obtain ⟨ha, hinner, hrest⟩ := h
    have hclose := keeps_resolve ha (@ihInner (st.open a) hinner) outcome
    exact hclose.trans (ihRest hrest)

theorem verdict?_run (h : n.Fits t) {v : Verdict} (hv : t.verdict? b = some v) :
    (n.run t).verdict? b = some v :=
  (@keeps n ⟨t, [], [], 0⟩ h).verdicts.kept b v hv

/-- A hypothesis is not resolved by what comes inside it. -/
theorem verdict?_run_hypothesize (h : n.Fits (t.hypothesize a)) :
    (n.run (t.hypothesize a)).verdict? a = some .hypothesis :=
  verdict?_run h (by simp [Typing.verdict?_hypothesize])

/-- **A sequence keeps** a typing consistent. -/
theorem consistent (h : n.Fits t) (ht : t.Consistent) : (n.run t).Consistent := by
  induction n generalizing t with
  | done => exact ht
  | resolve a inner outcome rest ihInner ihRest =>
    obtain ⟨ha, hinner, hrest⟩ := h
    have hopen := ihInner hinner (ht.hypothesize ha)
    have hhyp := verdict?_run_hypothesize hinner
    refine ihRest hrest ?_
    cases outcome with
    | none => exact hopen.refute hhyp _
    | some ms => exact hopen.confirm hhyp ms

/-- **What fails after a sequence** did so before, or has been refuted. -/
theorem fails_run_iff (h : n.Fits t) :
    (n.run t).verdict? b = some .fails ↔ t.verdict? b = some .fails ∨ b ∈ n.refuted := by
  induction n generalizing t with
  | done => simp [run, refuted]
  | resolve a inner outcome rest ihInner ihRest =>
    obtain ⟨ha, hinner, hrest⟩ := h
    have hhyp := verdict?_run_hypothesize hinner
    have hopen : (t.hypothesize a).verdict? b = some .fails ↔ t.verdict? b = some .fails := by
      rw [Typing.verdict?_hypothesize]
      by_cases hba : b = a
      · simp [hba, ha]
      · rw [if_neg hba]
    rw [run, ihRest hrest]
    cases outcome with
    | some ms =>
      -- what is confirmed has not been refuted inside
      have hb : b ∈ inner.refuted → b ≠ a := by
        rintro hmem rfl
        simp [(ihInner hinner).2 (.inr hmem)] at hhyp
      have hb' : t.verdict? b = some .fails → b ≠ a := by
        rintro hf rfl
        simp [ha] at hf
      rw [Typing.resolve, Typing.fails_confirm_iff, ihInner hinner, hopen, refuted, List.mem_append]
      tauto
    | none =>
      rw [Typing.resolve, Typing.fails_refute_iff, ihInner hinner, hopen, refuted, List.mem_append,
        List.mem_cons]
      tauto

/-! ### Refutation of the hypothesis around a sequence -/

section Refutation

variable (ha : t.verdict? a = none) (h : n.Fits (t.hypothesize a))
include ha h

/-- **What conforms after a refutation** did so before the hypothesis. -/
theorem conforms_of_refute
    (hb : ((n.run (t.hypothesize a)).refute a (t.hypothesize a).checkpoint).verdict? b =
      some .conforms) : t.verdict? b = some .conforms :=
  have hinside := @keeps n (State.open ⟨t, [], [], 0⟩ a) h
  @conforms_of_close_none ⟨t, [], [], 0⟩ _ a b ha hinside.verdicts hb

/-- **The verdicts after a refutation** are those from before the hypothesis, and what has been
refuted since. -/
theorem verdict?_refute (b : Association) :
    ((n.run (t.hypothesize a)).refute a (t.hypothesize a).checkpoint).verdict? b =
      if b = a ∨ b ∈ n.refuted then some .fails else t.verdict? b := by
  -- the hypothesis and its refutation are a sequence themselves
  have hfits : (resolve a n none done).Fits t := ⟨ha, h, trivial⟩
  have hfails := fails_run_iff (b := b) hfits
  have hrefuted : b ∈ (resolve a n none done).refuted ↔ b = a ∨ b ∈ n.refuted := by
    simp [refuted, or_comm]
  rw [hrefuted] at hfails
  by_cases hb : b = a ∨ b ∈ n.refuted
  · rw [if_pos hb]
    exact hfails.2 (.inr hb)
  rw [if_neg hb]
  cases hv : t.verdict? b with
  | some v => exact verdict?_run hfits hv
  | none =>
    have hfresh := (@keeps _ ⟨t, [], [], 0⟩ hfits).verdicts.fresh b hv
    cases hw : ((resolve a n none done).run t).verdict? b with
    | none => exact hw
    | some w =>
      cases w with
      | conforms => cases hv.symm.trans (conforms_of_refute ha h hw)
      | fails => exact absurd (hfails.1 hw) (by simp [hv, hb])
      | hypothesis => exact absurd hw hfresh

end Refutation

end Nesting

/-! ### Decisions -/

/-- Whether a sequence leads from the typing of a state to that of another one. -/
def State.Nests (st st' : State) : Prop :=
  ∃ n : Nesting, n.Fits st.typing ∧ n.run st.typing = st'.typing

namespace State.Nests

variable {st st' st'' : State}

theorem of_typing_eq (h : st'.typing = st.typing) : st.Nests st' := ⟨.done, trivial, h.symm⟩

theorem refl (st : State) : st.Nests st := of_typing_eq rfl

theorem trans (h : st.Nests st') (h' : st'.Nests st'') : st.Nests st'' := by
  obtain ⟨n, hn, hst'⟩ := h
  obtain ⟨m, hm, hst''⟩ := h'
  rw [← hst'] at hm hst''
  exact ⟨n.append m, Nesting.fits_append hn hm, (n.run_append m _).trans hst''⟩

/-- An evaluation inside a hypothesis together with the resolution of the hypothesis. -/
theorem close {a : Association} (ha : st.typing.verdict? a = none) (h : (st.open a).Nests st')
    (outcome : Option (List MatchedTriple)) :
    st.Nests (st'.close a (st.open a).typing.checkpoint outcome) := by
  obtain ⟨n, hn, hst'⟩ := h
  refine ⟨.resolve a n outcome .done, ⟨ha, hn, trivial⟩, ?_⟩
  rw [State.close_eq_resolve, ← hst']
  rfl

end State.Nests

theorem decideWith_nests {ctx : Context} {recur : Decider} (hR : recur.Respects State.Nests)
    (a : Association) (st : State) : st.Nests (decideWith ctx recur a st).2 := by
  have hduring : ∀ e, (st.open a).Nests
      (finalState (evaluateDefinition ctx recur a.node e (st.open a))) := fun e =>
    evaluateDefinition_rel hR a.node e (fun s _ st => .of_typing_eq (typing_compiledShape ctx s st))
      (st.open a)
  generalize hd : decideWith ctx recur a st = d
  cases decision hd with
  | known hv => exact .refl st
  | undefined ha hl => exact .of_typing_eq rfl
  | @evaluated e r st' ha he hev =>
    have hinside := hduring e
    rw [hev] at hinside
    exact hinside.close ha r
  | @failed e err st' ha he hev =>
    have hinside := hduring e
    rw [hev] at hinside
    exact (hinside.trans (.of_typing_eq rfl)).close ha none

/-- **A decision at any depth** is a sequence of hypotheses that are resolved one inside the other.
-/
theorem decideWithin_nests (ctx : Context) (depth : ℕ) :
    (decideWithin ctx depth).Respects State.Nests := by
  refine ⟨State.Nests.refl, State.Nests.trans, ?_⟩
  induction depth with
  | zero => exact fun a st => .of_typing_eq rfl
  | succ depth ih => exact decideWith_nests ⟨State.Nests.refl, State.Nests.trans, ih⟩

/-! ### Typings of a validator -/

/-- Matched triples by association are the list that is stored, if there is one. -/
theorem Typing.Consistent.get?_matched {t : Typing} (h : t.Consistent) (a : Association) :
    t.matched.get? a = if t.matchedTriples a = [] then none else some (t.matchedTriples a) := by
  unfold matchedTriples
  cases hms : t.matched.get? a with
  | none => simp
  | some ms =>
    obtain ⟨pre, post, hsplit, -⟩ := List.lookup_eq_some_iff.1 hms
    simp [(h.matched (a, ms) (by simp [hsplit])).1]

/-- **Rollback restores a typing.** In each typing of a validator, at any moment of any calls, let
an association without a verdict be assumed. Whatever is then assumed and resolved in between, each
hypothesis inside the other, the refutation of the association at its own checkpoint leaves every
verdict from before with its matched triples. The association fails, and so does all that was
refuted in between. No other association has a verdict or matched triples. -/
theorem refute_restores {s : Schema} {g : Graph} {limits : Limits} {t : Typing}
    (ht : t.Arises s g limits) {a : Association} (ha : t.verdict? a = none) {n : Nesting}
    (hn : n.Fits (t.hypothesize a)) :
    let t' := (n.run (t.hypothesize a)).refute a (t.hypothesize a).checkpoint
    (∀ b, t.verdict? b ≠ none →
      t'.verdict? b = t.verdict? b ∧ t'.matched.get? b = t.matched.get? b) ∧
    (t'.verdict? a = some .fails ∧ t'.matched.get? a = none) ∧
    (∀ b ∈ n.refuted, t'.verdict? b = some .fails ∧ t'.matched.get? b = none) ∧
    ∀ b, t.verdict? b = none → b ≠ a → b ∉ n.refuted →
      t'.verdict? b = none ∧ t'.matched.get? b = none := by
  intro t'
  have hcons := arises_consistent ht
  -- the hypothesis and its refutation are a sequence themselves
  have hfits : (Nesting.resolve a n none .done).Fits t := ⟨ha, hn, trivial⟩
  have hkeeps := @Nesting.keeps _ ⟨t, [], [], 0⟩ hfits
  have hcons' : t'.Consistent := Nesting.consistent hfits hcons
  have hverdict : ∀ b, t'.verdict? b =
      if b = a ∨ b ∈ n.refuted then some .fails else t.verdict? b := Nesting.verdict?_refute ha hn
  have hfailed : ∀ b, b = a ∨ b ∈ n.refuted → t'.verdict? b = some .fails ∧
      t'.matched.get? b = none := by
    intro b hb
    have hv : t'.verdict? b = some .fails := by rw [hverdict, if_pos hb]
    exact ⟨hv, hcons'.matched_eq_none (by simp [hv])⟩
  refine ⟨fun b hb => ?_, hfailed a (.inl rfl), fun b hb => hfailed b (.inr hb), ?_⟩
  · obtain ⟨v, hv⟩ := Option.ne_none_iff_exists'.1 hb
    have hkept : t'.verdict? b = some v := hkeeps.verdicts.kept b v hv
    have hmatched : t'.matchedTriples b = t.matchedTriples b := hkeeps.matched b v hv
    exact ⟨hkept.trans hv.symm, by rw [hcons'.get?_matched, hcons.get?_matched, hmatched]⟩
  · intro b hb hba hbn
    have hv : t'.verdict? b = none := by
      rw [hverdict, if_neg (by simp [hba, hbn]), hb]
    exact ⟨hv, hcons'.matched_eq_none (by simp [hv])⟩

/-- After a call on a chain another hypothesis is refuted. In between an association is confirmed,
forgotten by a refutation, assumed again and confirmed again. -/
theorem refute_restores_assumedAgain :
    let chain : Typing := ((Validator.new chainOrExternalSchema oneEdge .standard).performAll
      [.validate ⟨.iri ⟨"urn:n"⟩, .iri ⟨"urn:S"⟩⟩]).2.typing
    let a : Association := ⟨.iri ⟨"urn:n"⟩, .iri ⟨"urn:E"⟩⟩
    let b : Association := ⟨.iri ⟨"urn:m"⟩, .iri ⟨"urn:E"⟩⟩
    let c : Association := ⟨.iri ⟨"urn:k"⟩, .iri ⟨"urn:S"⟩⟩
    let n : Nesting := .resolve b (.resolve c .done (some []) .done) none
      (.resolve c .done (some []) .done)
    let t' := (n.run (chain.hypothesize a)).refute a (chain.hypothesize a).checkpoint
    chain.verdict? a = none ∧ n.Fits (chain.hypothesize a) ∧ n.refuted = [b] ∧
      (n.run (chain.hypothesize a)).verdict? c = some .conforms ∧
      t'.verdict? ⟨.iri ⟨"urn:n"⟩, .iri ⟨"urn:S"⟩⟩ = some .conforms ∧
      t'.matched.get? ⟨.iri ⟨"urn:n"⟩, .iri ⟨"urn:S"⟩⟩ =
        some [⟨⟨.iri ⟨"urn:n"⟩, ⟨"urn:p"⟩, .iri ⟨"urn:m"⟩⟩, .iri ⟨"urn:l"⟩⟩] ∧
      t'.verdict? a = some .fails ∧ t'.verdict? b = some .fails ∧ t'.verdict? c = none := by
  intro chain a b c n t'
  have hchain : chain = ⟨[(.iri ⟨"urn:n"⟩, [(.iri ⟨"urn:S"⟩, .conforms)]),
      (.iri ⟨"urn:m"⟩, [(.iri ⟨"urn:S"⟩, .conforms)])], [(⟨.iri ⟨"urn:n"⟩, .iri ⟨"urn:S"⟩⟩,
        [⟨⟨.iri ⟨"urn:n"⟩, ⟨"urn:p"⟩, .iri ⟨"urn:m"⟩⟩, .iri ⟨"urn:l"⟩⟩])], []⟩ := by cbv
  have harises : chain.Arises chainOrExternalSchema oneEdge .standard := .between _
  have ha : chain.verdict? a = none := by rw [hchain]; decide
  have hn : n.Fits (chain.hypothesize a) := by rw [hchain]; decide
  obtain ⟨hkept, hfailed, hrefuted, hothers⟩ := refute_restores harises ha hn
  have hold : chain.verdict? ⟨.iri ⟨"urn:n"⟩, .iri ⟨"urn:S"⟩⟩ = some .conforms := by
    rw [hchain]; decide
  obtain ⟨hverdict, hmatched⟩ := hkept ⟨.iri ⟨"urn:n"⟩, .iri ⟨"urn:S"⟩⟩ (by simp [hold])
  refine ⟨ha, hn, rfl, by rw [hchain]; decide, hverdict.trans hold, hmatched.trans ?_, hfailed.1,
    (hrefuted b (by decide)).1, (hothers c ?_ (by decide) (by decide)).1⟩
  · rw [hchain]; decide
  · rw [hchain]; decide

end ShapeTyping
