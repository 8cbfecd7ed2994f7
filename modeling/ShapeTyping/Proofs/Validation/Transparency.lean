import Mathlib
import ShapeTyping.Proofs.Validation.RenamedRun

/-!
# Transparency of hoisting

An inline value may be written as a definition of its own, with a reference to a new label in its
place, and nothing that a user can tell apart changes: the schema is built or not, and a validator
gives the same answers and has the same typing, with the new label for the generated one.

* `Definitions.Extracts.hoisting_transparent`: the statement.
* `Definitions.Extracts.hoisting_transparent_underNegation`: a value inside of a negated value.
-/

namespace ShapeTyping

/-- **Hoisting is transparent.** If an inline value, at any depth, is replaced by a reference to a
new label and added as the definition of this label, in any place, then the definitions are built if
and only if they were before. Calls with labels of the definitions have the same answers, results
and errors alike, and leave the same verdicts and matched triples up to a permutation of labels: it
leaves the labels of the definitions as they are, and maps a generated one to the new label. -/
theorem Definitions.Extracts.hoisting_transparent {p : Label × ShapeExpr} {d d' : Definitions}
    (h : d.Extracts p d') (hnew : p.1 ∉ d.labels) (i : ℕ) :
    ((∃ s, d.build = .ok s) ↔ ∃ s', (d'.insertShape i p).build = .ok s') ∧
    ∀ s s', d.build = .ok s → (d'.insertShape i p).build = .ok s' →
      ∃ ρ : Equiv.Perm Label, (∀ l ∈ d.labels, ρ l = l) ∧
        (∃ g ∈ s.labels, g ∉ d.labels ∧ ρ g = p.1) ∧ s'.labels.Perm (s.labels.map ρ) ∧
        ∀ g limits calls, (∀ a ∈ calls, a.label ∈ d.labels) →
          ((Validator.new s' g limits).run calls).1 = ((Validator.new s g limits).run calls).1 ∧
          ((Validator.new s' g limits).run calls).2.typing =
            ((Validator.new s g limits).run calls).2.typing.rename ρ := by
  obtain ⟨ρ, hstays, ⟨l, hl, hfresh, hlabel⟩, hto⟩ := h.renamesTo (i := i) hnew
  refine ⟨(h.build_iff hnew).symm, fun s s' hs hs' => ?_⟩
  have hb := builds_of_build hs
  have hb' := builds_of_build hs'
  have hgenerated : ∃ g ∈ s.labels, g ∉ d.labels ∧ ρ g = p.1 := by
    rw [hb.labels_eq]
    exact ⟨l, hl, hfresh, hlabel⟩
  have hlabels : s'.labels.Perm (s.labels.map ρ) := by
    rw [hb'.labels_eq, hb.labels_eq]
    exact hto.labels_perm
  refine ⟨ρ, hstays, hgenerated, hlabels, fun g limits calls hcalls => ?_⟩
  obtain ⟨hanswers, hend⟩ := Validator.run_renamed (Validator.mirrors_new hb hb' hto g limits)
    fun a ha => hstays _ (hcalls a ha)
  exact ⟨hanswers, hend.state.typing⟩

/-- A value inside of a negated value. -/
def valueUnderNegation : Definitions where
  shapes := [(.iri ⟨"urn:S"⟩, .shape ⟨false, [], .constraint ⟨⟨"urn:p"⟩,
    some (.not (.shape ⟨false, [], .constraint ⟨⟨"urn:q"⟩, some (.and []), .one, false, none⟩, 0⟩)),
    .one, false, some (.iri ⟨"urn:M"⟩)⟩, 0⟩)]
  tripleExprs := []
  start := none

/-- The same with a reference for the inner value. -/
def referenceUnderNegation : Definitions where
  shapes := [(.iri ⟨"urn:S"⟩, .shape ⟨false, [], .constraint ⟨⟨"urn:p"⟩,
    some (.not (.shape ⟨false, [], .constraint ⟨⟨"urn:q"⟩, some (.ref (.iri ⟨"urn:V"⟩)), .one,
      false, none⟩, 0⟩)), .one, false, some (.iri ⟨"urn:M"⟩)⟩, 0⟩)]
  tripleExprs := []
  start := none

/-- A node that refers to another one, and a node that refers to one that refers further. -/
def shortAndLongPath : Graph := ⟨[⟨.iri ⟨"urn:n"⟩, ⟨"urn:p"⟩, .iri ⟨"urn:m"⟩⟩,
  ⟨.iri ⟨"urn:k"⟩, ⟨"urn:p"⟩, .iri ⟨"urn:j"⟩⟩, ⟨.iri ⟨"urn:j"⟩, ⟨"urn:q"⟩, .iri ⟨"urn:m"⟩⟩]⟩

/-- The schema with the value as a definition is built, and its validator answers as the one with
the inline value, with the same matched triple. -/
theorem Definitions.Extracts.hoisting_transparent_underNegation :
    valueUnderNegation.Extracts (.iri ⟨"urn:V"⟩, .and []) referenceUnderNegation ∧
      .iri ⟨"urn:V"⟩ ∉ valueUnderNegation.labels ∧
      ∃ s', (referenceUnderNegation.insertShape 1 (.iri ⟨"urn:V"⟩, .and [])).build = .ok s' ∧
        let v' := (Validator.new s' shortAndLongPath .standard).run
          [⟨.iri ⟨"urn:n"⟩, .iri ⟨"urn:S"⟩⟩, ⟨.iri ⟨"urn:k"⟩, .iri ⟨"urn:S"⟩⟩]
        v'.1 = [.ok true, .ok false] ∧
        v'.2.typing.matchedTriples ⟨.iri ⟨"urn:n"⟩, .iri ⟨"urn:S"⟩⟩ =
          [⟨⟨.iri ⟨"urn:n"⟩, ⟨"urn:p"⟩, .iri ⟨"urn:m"⟩⟩, .iri ⟨"urn:M"⟩⟩] := by
  have hext : valueUnderNegation.Extracts (.iri ⟨"urn:V"⟩, .and []) referenceUnderNegation :=
    @Definitions.Extracts.shape _ [] [] _ _ _ [] none
      (.shape (.inside rfl (.not (.shape (.value rfl rfl)))))
  have hnew : .iri ⟨"urn:V"⟩ ∉ valueUnderNegation.labels := by decide
  obtain ⟨hbuild, hruns⟩ := hext.hoisting_transparent hnew 1
  have hs : valueUnderNegation.build = .ok
      { shapes := [
          (.iri ⟨"urn:S"⟩, .shape ⟨false, [], .constraint ⟨⟨"urn:p"⟩, some (.ref (.blank "gen#0")),
            .one, false, some (.iri ⟨"urn:M"⟩)⟩, 0⟩),
          (.blank "gen#0", .not (.shape ⟨false, [], .constraint ⟨⟨"urn:q"⟩,
            some (.ref (.blank "gen#1")), .one, false, none⟩, 1⟩)),
          (.blank "gen#1", .and [])]
        tripleExprs := [], start := none, shapeCount := 2
        strata := [[.blank "gen#1"], [.blank "gen#0"], [.iri ⟨"urn:S"⟩]] } := by cbv
  obtain ⟨s', hs'⟩ := hbuild.1 ⟨_, hs⟩
  obtain ⟨ρ, hstays, -, -, hsame⟩ := hruns _ s' hs hs'
  obtain ⟨hanswers, htyping⟩ := hsame shortAndLongPath .standard
    [⟨.iri ⟨"urn:n"⟩, .iri ⟨"urn:S"⟩⟩, ⟨.iri ⟨"urn:k"⟩, .iri ⟨"urn:S"⟩⟩] (by decide)
  refine ⟨hext, hnew, s', hs', hanswers.trans (by cbv), ?_⟩
  have hmatched := fun t => Typing.matchedTriples_rename ρ.injective t
    ⟨.iri ⟨"urn:n"⟩, .iri ⟨"urn:S"⟩⟩
  simp only [Association.rename, hstays (.iri ⟨"urn:S"⟩) (by decide)] at hmatched
  rw [htyping, hmatched]
  cbv

end ShapeTyping
