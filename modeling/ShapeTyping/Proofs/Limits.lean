import Mathlib
import ShapeTyping.Limits

/-!
# Order of limits

Limits are within others if each of them is at most as large. A cap that is absent is above all
others.

* `CapLE`, `Limits.Within`: the order.
* `CapLE.filter_eq_none`: what is not above a cap is not above a larger one.
* `Limits.within_both_left`, `Limits.within_both_right`: two limits are within a common one.
-/

namespace ShapeTyping

/-- Whether a cap is at most another one, where an absent cap is above all others. -/
def CapLE (cap cap' : Option ℕ) : Prop := ∀ m ∈ cap', ∃ k ∈ cap, k ≤ m

namespace CapLE

theorem refl (cap : Option ℕ) : CapLE cap cap := fun m hm => ⟨m, hm, le_rfl⟩

theorem none_right (cap : Option ℕ) : CapLE cap none := by simp [CapLE]

/-- **What exceeds a cap** exceeds each smaller one. -/
theorem filter_eq_none {cap cap' : Option ℕ} (h : CapLE cap cap') {n : ℕ}
    (hn : cap.filter (· < n) = none) : cap'.filter (· < n) = none := by
  rw [Option.filter_eq_none_iff] at hn ⊢
  intro m hm
  obtain ⟨k, hk, hkm⟩ := h m hm
  have hkn := hn k hk
  simp only [decide_eq_true_eq] at hkn ⊢
  omega

end CapLE

namespace Limits

/-- Whether each limit is at most as large as in other limits. -/
structure Within (limits limits' : Limits) : Prop where
  depth : CapLE limits.maxDepth limits'.maxDepth
  bags : CapLE limits.maxBags limits'.maxBags
  patternBytes : limits.maxPatternBytes ≤ limits'.maxPatternBytes
  values : limits.maxValues ≤ limits'.maxValues

theorem Within.refl (limits : Limits) : limits.Within limits :=
  ⟨.refl _, .refl _, le_rfl, le_rfl⟩

/-- Limits that two others are within. -/
def both (limits limits' : Limits) : Limits :=
  ⟨none, none, max limits.maxPatternBytes limits'.maxPatternBytes,
    max limits.maxValues limits'.maxValues⟩

theorem within_both_left (limits limits' : Limits) : limits.Within (limits.both limits') :=
  ⟨.none_right _, .none_right _, le_max_left _ _, le_max_left _ _⟩

theorem within_both_right (limits limits' : Limits) : limits'.Within (limits.both limits') :=
  ⟨.none_right _, .none_right _, le_max_right _ _, le_max_right _ _⟩

end Limits

end ShapeTyping
