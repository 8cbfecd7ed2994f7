import Mathlib
import ShapeTyping.Proofs.Validation.Answers
import ShapeTyping.Proofs.Validation.History
import ShapeTyping.Proofs.Validation.Negation
import ShapeTyping.Proofs.Validation.Stability

/-!
# Strict answers

A call that returns an error refutes the associations that it could not decide, and the refuted
ones may be in the greatest typing: the verdicts of such a call can be wrong, and later calls reuse
them. As long as they are not wrong, an answer says whether its association is in the greatest
typing, which depends neither on the limits nor on earlier calls.

* `Typing.Agrees`: the verdicts are those of a set of associations.
* `Validator.FailuresAgree`: no call that returns an error leaves a wrong verdict.
* `Grounds.validate_agrees`: a call without errors leaves none either.
* `performAll_strict`: what an answer says, after any calls.
* `run_afterFailure`: a wrong answer after a call that returned an error.
-/

namespace ShapeTyping

/-- Whether the verdicts are those of a set of associations. -/
def Typing.Agrees (t : Typing) (T : Set Association) : Prop :=
  ∀ a, (t.verdict? a = some .conforms → a ∈ T) ∧ (t.verdict? a = some .fails → a ∉ T)

/-- Whether each call that returns an error for a defined label leaves verdicts that agree with
`T`. What comes before a reset does not matter. -/
def Validator.FailuresAgree (T : Set Association) (v : Validator) : List Call → Prop
  | [] => True
  | c :: cs =>
    (∀ a, c = .validate a → a.label ∈ v.context.schema.labels →
      (∀ b, (v.validate a).1 ≠ .ok b) → .reset ∉ cs → (v.validate a).2.typing.Agrees T) ∧
    FailuresAgree T (v.perform c).2 cs

section Calls

variable {d : Definitions} {T : Set Association} {v : Validator} {a : Association}

/-! ### One call -/

/-- A call changes no context and leaves nothing pending, whether it returns an error or not. -/
theorem validate_quiet (h : d.Builds v.context.schema) (hv : v.Quiet) (a : Association) :
    (v.validate a).2.context = v.context ∧ (v.validate a).2.Quiet := by
  obtain ⟨hctx, hquiet, -⟩ := validateTraced_safe h hv a
  rw [Validator.validateTraced_fst] at hctx hquiet
  exact ⟨hctx, hquiet⟩

theorem perform_quiet (h : d.Builds v.context.schema) (hv : v.Quiet) (c : Call) :
    (v.perform c).2.context = v.context ∧ (v.perform c).2.Quiet := by
  cases c with
  | validate a => exact validate_quiet h hv a
  | evaluate f candidates => exact ⟨rfl, hv⟩
  | reset => exact ⟨rfl, hv.cached, (quiet_new v.context.schema v.context.graph
      v.context.limits).settled⟩

theorem agrees_empty (T : Set Association) : Typing.empty.Agrees T := by
  intro a
  simp [Typing.empty, Typing.verdict?, Table.get?]

/-- **Verdicts that agree with the greatest typing** are sound: what conforms needs no support but
its own membership. -/
theorem Validator.Quiet.sound (hv : v.Quiet) (h : v.typing.Agrees T) :
    v.state.Sound v.context T [] where
  cached := hv.cached
  pending b := iff_of_false (hv.settled b) List.not_mem_nil
  failed b := (h b).2
  supported b hb := .inl ((h b).1 hb)

/-- **A call that returns no error** says whether its association is in the greatest typing, and
leaves verdicts that agree with it. -/
theorem Grounds.validate_agrees (hset : Grounds d v.context T) (hv : v.Quiet)
    (h : v.typing.Agrees T) {b : Bool} (hok : (v.validate a).1 = .ok b) :
    (b = true ↔ a ∈ T) ∧ (v.validate a).2.typing.Agrees T := by
  obtain ⟨hctx, hsound, hb⟩ := validate_sound hset (hv.sound h) hok
  exact ⟨hb, fun a => hset.mem_iff hsound⟩

/-! ### Any calls -/

/-- One call: the verdicts agree with the greatest typing after it, or are going to be reset. -/
theorem Grounds.perform_agrees (hset : Grounds d v.context T) (hv : v.Quiet) {c : Call}
    {cs : List Call} (hfail : v.FailuresAgree T (c :: cs))
    (h : v.typing.Agrees T ∨ .reset ∈ c :: cs) :
    (v.perform c).2.typing.Agrees T ∨ .reset ∈ cs := by
  cases c with
  | reset => exact .inl (agrees_empty T)
  | evaluate f candidates => exact h.imp_right fun hmem => by simpa using hmem
  | validate a =>
    by_cases hreset : .reset ∈ cs
    · exact .inr hreset
    have hagree : v.typing.Agrees T := h.resolve_right (by simpa using hreset)
    left
    change (v.validate a).2.typing.Agrees T
    by_cases hl : a.label ∈ v.context.schema.labels
    · by_cases hok : ∃ b, (v.validate a).1 = .ok b
      · obtain ⟨b, hb⟩ := hok
        exact (hset.validate_agrees hv hagree hb).2
      · exact hfail.1 a rfl hl (fun b hb => hok ⟨b, hb⟩) hreset
    · rw [Validator.validate_of_undefined hl]
      exact hagree

/-- **Any calls**, by induction over them: nothing is pending after each, and the verdicts agree
with the greatest typing unless a reset is still to come. -/
theorem Grounds.performAll_agrees {calls : List Call} (hset : Grounds d v.context T) (hv : v.Quiet)
    (hfail : v.FailuresAgree T calls) (h : v.typing.Agrees T ∨ .reset ∈ calls) :
    (v.performAll calls).2.context = v.context ∧ (v.performAll calls).2.Quiet ∧
      (v.performAll calls).2.typing.Agrees T := by
  induction calls generalizing v with
  | nil => exact ⟨rfl, hv, h.resolve_right List.not_mem_nil⟩
  | cons c cs ih =>
    obtain ⟨hctx, hquiet⟩ := perform_quiet hset.builds hv c
    have hstep := hset.perform_agrees hv hfail h
    have hset' : Grounds d (v.perform c).2.context T := hctx ▸ hset
    obtain ⟨hctx', hend⟩ := ih hset' hquiet hfail.2 hstep
    exact ⟨hctx'.trans hctx, hend⟩

end Calls

/-- **An answer is strict.** A built schema has a greatest typing on each graph such that, whatever
is asked of a new validator under any limits, an answer that is no error says whether the
association is in it. A new validator with these limits does not answer the opposite. Calls that
return errors do not matter if the verdicts that they leave agree with the greatest typing, or if
the validator has been reset since. -/
theorem performAll_strict {d : Definitions} {s : Schema} (h : d.build = .ok s) (g : Graph) :
    ∃ T, s.StratifiedGreatest (Shape.AcceptedIn s g) T ∧
      ∀ (limits : Limits) (calls : List Call),
        (Validator.new s g limits).FailuresAgree T calls →
        ∀ a b, (((Validator.new s g limits).performAll calls).2.validate a).1 = .ok b →
          (b = true ↔ a ∈ T) ∧ ((Validator.new s g limits).validate a).1 ≠ .ok !b := by
  have hbuilds := Definitions.builds_of_build h
  have hgreatest := hbuilds.stratifiedGreatest_typing_of_readsEnds (Shape.acceptedIn_readsEnds s g)
  refine ⟨s.typing (Shape.AcceptedIn s g), hgreatest, fun limits calls hfail a b hok => ?_⟩
  have hset : Grounds d (Validator.new s g limits).context (s.typing (Shape.AcceptedIn s g)) :=
    ⟨hbuilds, hgreatest⟩
  have hnew : (Validator.new s g limits).typing.Agrees (s.typing (Shape.AcceptedIn s g)) :=
    agrees_empty _
  have hquiet := quiet_new s g limits
  obtain ⟨hctx, hquiet', hagree⟩ := hset.performAll_agrees hquiet hfail (.inl hnew)
  have hset' : Grounds d ((Validator.new s g limits).performAll calls).2.context
      (s.typing (Shape.AcceptedIn s g)) := hctx ▸ hset
  obtain ⟨hmem, -⟩ := hset'.validate_agrees hquiet' hagree hok
  refine ⟨hmem, fun hopposite => ?_⟩
  -- both answers say whether the association is in the greatest typing
  obtain ⟨hmem', -⟩ := hset.validate_agrees hquiet hnew hopposite
  cases b with
  | true => simpa using hmem'.2 (hmem.1 rfl)
  | false => simpa using hmem.2 (hmem'.1 rfl)

/-- An external shape, and the nodes that do not have it. -/
def negatedExternal : Definitions where
  shapes := [
    (.iri ⟨"urn:E"⟩, .external),
    (.iri ⟨"urn:N"⟩, .not (.ref (.iri ⟨"urn:E"⟩)))]
  tripleExprs := []
  start := none

/-- An external shape holds nowhere, so the verdict that its failure leaves is not wrong, and the
answer that reuses it is strict. -/
theorem performAll_strict_negatedExternal :
    ∃ s, negatedExternal.build = .ok s ∧
      ∃ T, s.StratifiedGreatest (Shape.AcceptedIn s ⟨[]⟩) T ∧
        let v := Validator.new s ⟨[]⟩ .standard
        let failed : List Call := [.validate ⟨.iri ⟨"urn:n"⟩, .iri ⟨"urn:E"⟩⟩]
        (v.performAll failed).1 = [.verdict (.error .externalShape)] ∧
        ((v.performAll failed).2.validate ⟨.iri ⟨"urn:n"⟩, .iri ⟨"urn:N"⟩⟩).1 = .ok true ∧
        (⟨.iri ⟨"urn:n"⟩, .iri ⟨"urn:N"⟩⟩ : Association) ∈ T ∧
        (v.validate ⟨.iri ⟨"urn:n"⟩, .iri ⟨"urn:N"⟩⟩).1 ≠ .ok false := by
  have hbuild : negatedExternal.build = .ok
      { shapes := [
          (.iri ⟨"urn:E"⟩, .external),
          (.iri ⟨"urn:N"⟩, .not (.ref (.iri ⟨"urn:E"⟩)))]
        tripleExprs := [], start := none, shapeCount := 0
        strata := [[.iri ⟨"urn:E"⟩], [.iri ⟨"urn:N"⟩]] } := by cbv
  obtain ⟨T, hT, hstrict⟩ := performAll_strict hbuild ⟨[]⟩
  refine ⟨_, hbuild, T, hT, ?_⟩
  intro v failed
  have hexternal : (⟨.iri ⟨"urn:n"⟩, .iri ⟨"urn:E"⟩⟩ : Association) ∉ T := by
    intro hmem
    obtain ⟨e, he, hhold⟩ := (Definitions.builds_of_build hbuild).holdsIn_of_mem
      (Shape.acceptedIn_readsEnds _ _) hT hmem
    cases he
    exact hhold
  have hleft : (v.validate ⟨.iri ⟨"urn:n"⟩, .iri ⟨"urn:E"⟩⟩).2.typing =
      ⟨[(.iri ⟨"urn:n"⟩, [(.iri ⟨"urn:E"⟩, .fails)])], [], []⟩ := by cbv
  have hfail : v.FailuresAgree T failed := by
    refine ⟨?_, trivial⟩
    rintro _ ⟨⟩ - - -
    rw [hleft]
    intro b
    have hverdict :
        (⟨[(.iri ⟨"urn:n"⟩, [(.iri ⟨"urn:E"⟩, .fails)])], [], []⟩ : Typing).verdict? b =
          if b = ⟨.iri ⟨"urn:n"⟩, .iri ⟨"urn:E"⟩⟩ then some .fails else none :=
      Typing.verdict?_setVerdict .empty ⟨.iri ⟨"urn:n"⟩, .iri ⟨"urn:E"⟩⟩ b .fails
    rw [hverdict]
    split
    · rename_i hb
      exact ⟨by simp, fun _ => hb ▸ hexternal⟩
    · simp
  have hanswer : ((v.performAll failed).2.validate ⟨.iri ⟨"urn:n"⟩, .iri ⟨"urn:N"⟩⟩).1 =
      .ok true := by cbv
  obtain ⟨hmem, hfresh⟩ := hstrict .standard failed hfail _ true hanswer
  exact ⟨by cbv, hanswer, hmem.1 rfl, hfresh⟩

/-- A shape that refers to one that every node has. -/
def refersToAll : Definitions where
  shapes := [
    (.iri ⟨"urn:S"⟩, .ref (.iri ⟨"urn:T"⟩)),
    (.iri ⟨"urn:T"⟩, .and [])]
  tripleExprs := []
  start := none

/-- **A call that returns an error can leave a wrong verdict.** The second association is refuted
because it is one too many pending ones, and that is the answer when it is asked for; a new
validator answers the opposite. -/
theorem run_afterFailure :
    ∃ s, refersToAll.build = .ok s ∧
      let v := Validator.new s ⟨[]⟩ { Limits.standard with maxDepth := some 1 }
      (v.run [⟨.iri ⟨"urn:n"⟩, .iri ⟨"urn:S"⟩⟩, ⟨.iri ⟨"urn:n"⟩, .iri ⟨"urn:T"⟩⟩]).1 =
        [.error (.recursionLimit 1), .ok false] ∧
      (v.validate ⟨.iri ⟨"urn:n"⟩, .iri ⟨"urn:T"⟩⟩).1 = .ok true := by
  have hbuild : refersToAll.build = .ok
      { shapes := [(.iri ⟨"urn:S"⟩, .ref (.iri ⟨"urn:T"⟩)), (.iri ⟨"urn:T"⟩, .and [])]
        tripleExprs := [], start := none, shapeCount := 0
        strata := [[.iri ⟨"urn:T"⟩], [.iri ⟨"urn:S"⟩]] } := by cbv
  refine ⟨_, hbuild, ?_, ?_⟩
  · cbv
  · cbv

end ShapeTyping
