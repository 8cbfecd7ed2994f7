import Mathlib
import ShapeTyping.NodeConstraint.Holds
import ShapeTyping.Proofs.Limits

/-!
# Node constraints and limits

Limits decide whether the evaluation of a node constraint gives an answer, and not which one.

* `NodeConstraint.holds?_mono`: an answer stays when limits are raised.
* `NodeConstraint.holds?_unique`: answers within two limits are the same.
* `NodeConstraint.Holds`, `NodeConstraint.holds_iff`: a node constraint without limits.
-/

namespace ShapeTyping

variable {limits limits' : Limits} {b b' : Bool}

theorem patternMatches?_mono (hle : limits.Within limits') {source text : String}
    {flags : Option String} (h : patternMatches? limits source flags text = .ok b) :
    patternMatches? limits' source flags text = .ok b := by
  unfold patternMatches? at h ⊢
  split at h
  · cases h
  rename_i hlen
  have hbytes := hle.patternBytes
  rwa [if_neg (by omega)]

theorem StringFacet.holds?_mono (hle : limits.Within limits') {f : StringFacet} {text : String}
    (h : f.holds? limits text = .ok b) : f.holds? limits' text = .ok b := by
  cases f with
  | pattern source flags => exact patternMatches?_mono hle h
  | length n => exact h
  | minLength n => exact h
  | maxLength n => exact h

namespace NodeConstraint

theorem stringFacetsHold?_mono (hle : limits.Within limits') {t : Term} {fs : List StringFacet}
    (h : stringFacetsHold? limits t fs = .ok b) : stringFacetsHold? limits' t fs = .ok b := by
  induction fs with
  | nil => exact h
  | cons f fs ih =>
    rw [stringFacetsHold?] at h ⊢
    cases ht : t.lexical? with
    | none =>
      rw [ht] at h
      exact h
    | some text =>
      simp only [ht] at h ⊢
      cases hx : f.holds? limits text with
      | error err =>
        rw [hx] at h
        cases h
      | ok x =>
        rw [hx] at h
        rw [StringFacet.holds?_mono hle hx]
        cases x with
        | false => exact h
        | true => exact ih h

theorem valuesHold?_mono (hle : limits.Within limits') {t : Term} {vs : List ValueSpec}
    (h : valuesHold? limits t vs = .ok b) : valuesHold? limits' t vs = .ok b := by
  unfold valuesHold? at h ⊢
  by_cases hv : vs.isEmpty = true
  · rwa [if_pos hv] at h ⊢
  · rw [if_neg hv] at h ⊢
    split at h
    · cases h
    rename_i hlen
    have hvalues := hle.values
    rwa [if_neg (by omega)]

/-- **An answer stays** when limits are raised. -/
theorem holds?_mono (hle : limits.Within limits') {c : NodeConstraint} {t : Term}
    (h : c.holds? limits t = .ok b) : c.holds? limits' t = .ok b := by
  unfold holds? at h ⊢
  by_cases hkind : (!c.kindHolds t) = true
  · rwa [if_pos hkind] at h ⊢
  by_cases hdatatype : (!c.datatypeHolds t) = true
  · rwa [if_neg hkind, if_pos hdatatype] at h ⊢
  rw [if_neg hkind, if_neg hdatatype] at h ⊢
  cases hx : stringFacetsHold? limits t c.stringFacets with
  | error err =>
    rw [hx] at h
    cases h
  | ok x =>
    rw [hx] at h
    rw [stringFacetsHold?_mono hle hx]
    cases x with
    | false => exact h
    | true =>
      by_cases hnumeric : (!numericFacetsHold t c.numericFacets) = true
      · simp only [hnumeric, if_true] at h ⊢
        exact h
      · simp only [hnumeric] at h ⊢
        exact valuesHold?_mono hle h

/-- **Limits do not change what a node constraint says**, only whether it says anything. -/
theorem holds?_unique {c : NodeConstraint} {t : Term} (h : c.holds? limits t = .ok b)
    (h' : c.holds? limits' t = .ok b') : b = b' := by
  have hboth := holds?_mono (limits.within_both_left limits') h
  have hboth' := holds?_mono (limits.within_both_right limits') h'
  exact Except.ok.inj (hboth.symm.trans hboth')

/-- Whether a node satisfies a node constraint, within limits that allow to tell. -/
def Holds (c : NodeConstraint) (t : Term) : Prop := ∃ limits, c.holds? limits t = .ok true

theorem holds_iff {c : NodeConstraint} {t : Term} (h : c.holds? limits t = .ok b) :
    c.Holds t ↔ b = true := by
  constructor
  · rintro ⟨limits', h'⟩
    exact holds?_unique h h'
  · rintro rfl
    exact ⟨limits, h⟩

end NodeConstraint

end ShapeTyping
