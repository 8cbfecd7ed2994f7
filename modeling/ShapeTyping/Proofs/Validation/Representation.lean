import Mathlib
import ShapeTyping.Proofs.Validation.History
import ShapeTyping.Proofs.Validation.Stability

/-!
# Typings of a validator

The verdicts, the matched triples and the log of a typing are kept apart from each other. Each
change of a run keeps them in agreement, whatever is refuted and rolled back, and when a call
returns nothing is assumed any more.

* `Typing.Arises`: the typings of a validator, between its calls and during them.
* `Typing.Consistent`: how verdicts, matched triples and the log agree.
* `Typing.Step.consistent`, `arises_consistent`: each change keeps this, so typings that arise have
  it.
* `arises_represented`: what it says of the tables, the log and the size.
-/

namespace ShapeTyping

/-! ### Typings that arise -/

/-- The typings of a validator, between any calls and at each change during the next one. -/
inductive Typing.Arises (s : Schema) (g : Graph) (limits : Limits) : Typing → Prop where
  | between (before : List Call) :
    Arises s g limits ((Validator.new s g limits).performAll before).2.typing
  | during (before : List Call) (a : Association) {m : Snapshot}
    (hm : m ∈ ((Validator.new s g limits).performAll before).2.history a) :
    Arises s g limits m.state.typing

namespace Typing

variable {t t' : Typing} {a : Association}

/-- **What is forgotten** has no matched triples any more. -/
theorem mem_matched_foldr_forget {l : List Association} {p : Association × List MatchedTriple}
    (hp : p ∈ (l.foldr (fun a t => t.forget a) t).matched) :
    p ∈ t.matched ∧ (t.contains p.1 = true → p.1 ∉ l) := by
  induction l with
  | nil => exact ⟨hp, by simp⟩
  | cons a l ih =>
    rw [List.foldr_cons, forget, contains_foldr_forget] at hp
    split at hp
    · obtain ⟨hmem, hne⟩ := List.mem_filter.1 hp
      obtain ⟨hold, hl⟩ := ih hmem
      refine ⟨hold, fun hc hin => ?_⟩
      rcases List.mem_cons.1 hin with rfl | hin
      · simp at hne
      · exact hl hc hin
    · rename_i hforgot
      obtain ⟨hold, hl⟩ := ih hp
      refine ⟨hold, fun hc hin => ?_⟩
      rcases List.mem_cons.1 hin with rfl | hin
      · exact hforgot (by simp [hc, hl hc])
      · exact hl hc hin

/-! ### Consistency -/

/-- How the parts of a typing agree: its tables are proper, what stands in the log has a verdict and
stands there once, and matched triples are those of conforming associations, at least one for each
that is listed. -/
structure Consistent (t : Typing) : Prop where
  proper : t.Proper
  logged : ∀ a ∈ t.log, t.verdict? a ≠ none
  nodup_log : t.log.Nodup
  matched : ∀ p ∈ t.matched, p.2 ≠ [] ∧ t.verdict? p.1 = some .conforms

theorem size_eq_sum (t : Typing) : t.size = (t.byNode.map (·.2.length)).sum := by
  rw [size, List.sum_eq_foldl, List.foldl_map]

/-- A node that is listed has a verdict. -/
theorem Proper.isEmpty_iff (h : t.Proper) : t.isEmpty = true ↔ t.size = 0 := by
  rw [isEmpty, List.isEmpty_iff, size_eq_sum, List.sum_eq_zero_iff, List.forall_mem_map]
  constructor
  · intro hnil
    simp [hnil]
  · intro hall
    refine List.eq_nil_iff_forall_not_mem.2 fun p hp => h.occupied p hp ?_
    exact List.length_eq_zero_iff.1 (hall p hp)

theorem consistent_empty : empty.Consistent :=
  ⟨proper_empty, by simp [empty], List.nodup_nil, by simp [empty]⟩

theorem Consistent.commit (h : t.Consistent) : t.commit.Consistent :=
  ⟨h.proper.of_byNode_eq rfl, by simp [Typing.commit], List.nodup_nil, h.matched⟩

/-- Only what conforms has matched triples. -/
theorem Consistent.matched_eq_none (h : t.Consistent) (ha : t.verdict? a ≠ some .conforms) :
    t.matched.get? a = none := by
  rw [Option.eq_none_iff_forall_ne_some]
  intro ms hms
  obtain ⟨pre, post, hsplit, -⟩ := List.lookup_eq_some_iff.1 hms
  exact ha (h.matched (a, ms) (by simp [hsplit])).2

theorem Consistent.hypothesize (h : t.Consistent) (ha : t.verdict? a = none) :
    (t.hypothesize a).Consistent := by
  have hstep : Step (.assumed a) t (t.hypothesize a) := .assume ha
  have hold : ∀ b, t.verdict? b ≠ none → (t.hypothesize a).verdict? b = t.verdict? b := by
    intro b hb
    rw [verdict?_hypothesize, if_neg]
    rintro rfl
    exact hb ha
  refine ⟨hstep.proper h.proper, ?_, ?_, fun p hp => ?_⟩
  · refine List.forall_mem_cons.2 ⟨by simp [verdict?_hypothesize], fun b hb => ?_⟩
    rw [hold b (h.logged b hb)]
    exact h.logged b hb
  · exact List.nodup_cons.2 ⟨fun hmem => h.logged a hmem ha, h.nodup_log⟩
  · obtain ⟨hne, hconf⟩ := h.matched p hp
    exact ⟨hne, (hold p.1 (by simp [hconf])).trans hconf⟩

theorem Consistent.confirm (h : t.Consistent) (ha : t.verdict? a = some .hypothesis)
    (ms : List MatchedTriple) : (t.confirm a ms).Consistent := by
  have hstep : Step (.resolved a) t (t.confirm a ms) := .confirm ha
  -- the matched triples are those from before, and those of `a`
  have hmatched : ∀ p ∈ (t.confirm a ms).matched, p ∈ t.matched ∨ p.1 = a ∧ p.2 ≠ [] := by
    unfold Typing.confirm
    simp only
    split
    · exact fun p hp => .inl hp
    · rename_i hne
      refine List.forall_mem_cons.2 ⟨.inr ⟨rfl, by simpa using hne⟩, fun p hp => .inl ?_⟩
      exact (List.mem_filter.1 hp).1
  refine ⟨hstep.proper h.proper, ?_, by rw [log_confirm]; exact h.nodup_log, fun p hp => ?_⟩
  · rw [log_confirm]
    intro b hb
    rw [verdict?_confirm]
    split
    · simp
    · exact h.logged b hb
  · rw [verdict?_confirm]
    rcases hmatched p hp with hold | ⟨hpa, hne⟩
    · obtain ⟨hne, hconf⟩ := h.matched p hold
      exact ⟨hne, by simp [hconf]⟩
    · exact ⟨hne, if_pos hpa⟩

/-- A refutation may go back to any checkpoint: what it leaves in the log it does not forget, since
nothing stands there twice. -/
theorem Consistent.refute (h : t.Consistent) (ha : t.verdict? a = some .hypothesis)
    (checkpoint : ℕ) : (t.refute a checkpoint).Consistent := by
  have hstep : Step (.resolved a) t (t.refute a checkpoint) := .refute ha
  set n := t.log.length - checkpoint with hn
  have hnodup : (t.log.take n ++ t.log.drop n).Nodup := by
    rw [List.take_append_drop]
    exact h.nodup_log
  refine ⟨hstep.proper h.proper, ?_, h.nodup_log.sublist (List.drop_sublist n t.log),
    fun p hp => ?_⟩
  · rw [log_refute, ← hn]
    intro b hb
    rw [verdict?_refute_eq, verdict?_rollback, ← hn, if_neg (c := b ∈ t.log.take n ∧ _)]
    · split
      · simp
      · exact h.logged b (List.mem_of_mem_drop hb)
    · exact fun hforgot => (List.disjoint_of_nodup_append hnodup) hforgot.1 hb
  · obtain ⟨hrest, hne⟩ := List.mem_filter.1 hp
    obtain ⟨hold, hkept⟩ := mem_matched_foldr_forget hrest
    obtain ⟨hnil, hconf⟩ := h.matched p hold
    have hc : t.contains p.1 = true := contains_eq_true.2 (.inl hconf)
    refine ⟨hnil, ?_⟩
    rw [verdict?_refute_eq, verdict?_rollback, if_neg (by simpa using hne),
      if_neg fun hforgot => hkept hc hforgot.1]
    exact hconf

/-- **Each change of a run** keeps a typing consistent. -/
theorem Step.consistent {ch : Change} (hstep : Step ch t t') (h : t.Consistent) :
    t'.Consistent := by
  cases hstep with
  | assume ha => exact h.hypothesize ha
  | confirm ha => exact h.confirm ha _
  | refute ha => exact h.refute ha _

end Typing

/-! ### Calls of a validator -/

namespace Validator

variable {v : Validator}

/-- **A call** keeps the typing consistent, at each of its changes too. -/
theorem validate_consistent (h : v.typing.Consistent) (a : Association) :
    (v.validate a).2.typing.Consistent ∧ ∀ m ∈ v.history a, m.state.typing.Consistent :=
  (v.validate_leads a).invariant Typing.Step.consistent (fun _ => Typing.Consistent.commit) h

theorem performAll_consistent (h : v.typing.Consistent) (calls : List Call) :
    (v.performAll calls).2.typing.Consistent := by
  induction calls generalizing v with
  | nil => exact h
  | cons c cs ih =>
    refine @ih (v.perform c).2 ?_
    cases c with
    | validate a => exact (validate_consistent h a).1
    | evaluate f candidates => exact h
    | reset => exact Typing.consistent_empty

/-- Calls leave the context as it is. -/
theorem context_performAll (v : Validator) (calls : List Call) :
    (v.performAll calls).2.context = v.context := by
  induction calls generalizing v with
  | nil => rfl
  | cons c cs ih =>
    refine (ih (v.perform c).2).trans ?_
    cases c with
    | validate a =>
      change (v.validate a).2.context = v.context
      unfold validate
      split <;> rfl
    | evaluate f candidates => rfl
    | reset => rfl

/-- A call that evaluates a definition begins with an assumption. -/
theorem assumed_mem_history {a : Association} (ha : v.typing.verdict? a = none)
    (hl : v.context.schema.contains a.label = true) :
    ⟨.assumed a, [a], v.start.open a⟩ ∈ v.history a := by
  obtain ⟨e, he⟩ := Option.isSome_iff_exists.1 hl
  have hstart : v.start.typing.verdict? a = none := ha
  rw [history, Context.maxNesting, historyWithin_succ hstart he]
  exact List.mem_cons_self

/-- Nothing is assumed, and nothing can be forgotten any more. -/
def Settled (v : Validator) : Prop :=
  v.typing.log = [] ∧ ∀ a, v.typing.verdict? a ≠ some .hypothesis

/-- A call resolves what it assumes, and its conclusions are final when it returns. -/
theorem validate_settled (h : v.Settled) (a : Association) : (v.validate a).2.Settled := by
  unfold validate
  split
  · have hext := (decideWithin_extends v.context v.context.maxNesting).decision a
      { v.state with errors := [], depth := 0 }
    exact ⟨rfl, fun b hb => h.2 b ((hext.hypothesis_iff b).1 hb)⟩
  · exact h

theorem performAll_settled (h : v.Settled) (calls : List Call) :
    (v.performAll calls).2.Settled := by
  induction calls generalizing v with
  | nil => exact h
  | cons c cs ih =>
    refine @ih (v.perform c).2 ?_
    cases c with
    | validate a => exact validate_settled h a
    | evaluate f candidates => exact h
    | reset => exact ⟨rfl, fun a => by simp [perform, reset, typing, Typing.empty, Typing.verdict?,
        Table.get?]⟩

end Validator

/-- **Typings that arise are consistent.** -/
theorem arises_consistent {s : Schema} {g : Graph} {limits : Limits} {t : Typing}
    (h : t.Arises s g limits) : t.Consistent := by
  have hbetween : ∀ before : List Call,
      ((Validator.new s g limits).performAll before).2.typing.Consistent := fun before =>
    @Validator.performAll_consistent (Validator.new s g limits) Typing.consistent_empty before
  cases h with
  | between before => exact hbetween before
  | during before a hm => exact (Validator.validate_consistent (hbetween before) a).2 _ hm

/-- **The tables of a typing agree.** In each typing of a validator, between its calls and at each
change during a call, whatever was asked before and whether it failed or not, matched triples are
those of conforming associations and no list of them is empty, the log has no duplicates, and no
node is listed if and only if no association has a verdict. Between calls the log is empty and
nothing is assumed. The changes that are listed for a call are all that it does to the typing. -/
theorem arises_represented (s : Schema) (g : Graph) (limits : Limits) :
    (∀ t : Typing, t.Arises s g limits →
      (∀ p ∈ t.matched, t.verdict? p.1 = some .conforms ∧ p.2 ≠ []) ∧
      t.log.Nodup ∧ (t.isEmpty = true ↔ t.size = 0)) ∧
    ∀ before : List Call,
      let v := ((Validator.new s g limits).performAll before).2
      v.typing.log = [] ∧ (∀ a, v.typing.verdict? a ≠ some .hypothesis) ∧
      ∀ a, Leads v.typing (v.history a) (v.validate a).2.typing := by
  refine ⟨fun t ht => ?_, fun before => ?_⟩
  · have h := arises_consistent ht
    exact ⟨fun p hp => (h.matched p hp).symm, h.nodup_log, h.proper.isEmpty_iff⟩
  · obtain ⟨hlog, hhyp⟩ := @Validator.performAll_settled (Validator.new s g limits)
      ⟨rfl, fun a => nofun⟩ before
    exact ⟨hlog, hhyp, Validator.validate_leads _⟩

/-- What `chainOrExternal` is built to. -/
def chainOrExternalSchema : Schema where
  shapes := chainOrExternal.shapes
  tripleExprs := []
  start := none
  shapeCount := 1
  strata := [[.iri ⟨"urn:S"⟩], [.iri ⟨"urn:E"⟩]]

/-- The typing when the external shape is looked at, after a call on a chain: two conclusions, one
of them with a triple, and one assumption. -/
theorem arises_represented_failingCall :
    chainOrExternal.build = .ok chainOrExternalSchema ∧
      ∃ t : Typing, t.Arises chainOrExternalSchema oneEdge .standard ∧
        t.log = [⟨.iri ⟨"urn:n"⟩, .iri ⟨"urn:E"⟩⟩] ∧
        t.matched = [(⟨.iri ⟨"urn:n"⟩, .iri ⟨"urn:S"⟩⟩,
          [⟨⟨.iri ⟨"urn:n"⟩, ⟨"urn:p"⟩, .iri ⟨"urn:m"⟩⟩, .iri ⟨"urn:l"⟩⟩])] ∧
        t.size = 3 ∧ (∀ p ∈ t.matched, t.verdict? p.1 = some .conforms ∧ p.2 ≠ []) ∧
        t.log.Nodup ∧ (t.isEmpty = true ↔ t.size = 0) := by
  let before : List Call := [.validate ⟨.iri ⟨"urn:n"⟩, .iri ⟨"urn:S"⟩⟩]
  obtain ⟨v, hv⟩ : ∃ v, ((Validator.new chainOrExternalSchema oneEdge .standard).performAll
    before).2 = v := ⟨_, rfl⟩
  have htyping : v.typing = ⟨[(.iri ⟨"urn:n"⟩, [(.iri ⟨"urn:S"⟩, .conforms)]),
      (.iri ⟨"urn:m"⟩, [(.iri ⟨"urn:S"⟩, .conforms)])], [(⟨.iri ⟨"urn:n"⟩, .iri ⟨"urn:S"⟩⟩,
        [⟨⟨.iri ⟨"urn:n"⟩, ⟨"urn:p"⟩, .iri ⟨"urn:m"⟩⟩, .iri ⟨"urn:l"⟩⟩])], []⟩ := by
    rw [← hv]
    cbv
  have hl : v.context.schema.contains (.iri ⟨"urn:E"⟩) = true := by
    rw [← hv, Validator.context_performAll]
    cbv
  have hfree : v.typing.verdict? ⟨.iri ⟨"urn:n"⟩, .iri ⟨"urn:E"⟩⟩ = none := by
    rw [htyping]
    decide
  have harises : (v.typing.hypothesize ⟨.iri ⟨"urn:n"⟩, .iri ⟨"urn:E"⟩⟩).Arises
      chainOrExternalSchema oneEdge .standard := by
    have hmem := Validator.assumed_mem_history hfree hl
    rw [← hv] at hmem ⊢
    exact .during before _ hmem
  obtain ⟨hconf, hnodup, hempty⟩ := (arises_represented _ oneEdge .standard).1 _ harises
  exact ⟨by cbv, _, harises, by rw [htyping]; decide, by rw [htyping]; decide,
    by rw [htyping]; decide, hconf, hnodup, hempty⟩

end ShapeTyping
