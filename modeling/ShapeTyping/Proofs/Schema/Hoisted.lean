import Mathlib
import ShapeTyping.Proofs.Schema.Built

/-!
# Hoisted definitions

Each round of hoisting replaces the values of its definitions by references and has the replaced
values as the definitions of the next one. What is left counts one inline value less for each
definition, so the rounds end with no inline value at all.

* `TripleExpr.hoist_spec`, `ShapeExpr.hoist_spec`: one round, with the count of what it leaves.
* `inlineValues_hoistRounds`: all rounds leave no inline value.
* `Definitions.inlineValues_hoist_shapes`, `Definitions.inlineValues_hoist_tripleExprs`: hoisted
  definitions have none.
* `Definitions.hoist_labels`: the written labels, followed by the generated ones.
-/

namespace ShapeTyping

variable {fresh : ℕ → Label}

/-! ### Counting -/

theorem ShapeExpr.inlineValuesOfList_append (es es' : List ShapeExpr) :
    inlineValuesOfList (es ++ es') = inlineValuesOfList es + inlineValuesOfList es' := by
  induction es with
  | nil => simp [inlineValuesOfList]
  | cons e es ih => rw [List.cons_append, inlineValuesOfList, ih, inlineValuesOfList, Nat.add_assoc]

theorem ShapeExpr.inlineValuesOfList_eq_zero {es : List ShapeExpr} :
    inlineValuesOfList es = 0 ↔ ∀ e ∈ es, e.inlineValues = 0 := by
  induction es with
  | nil => simp [inlineValuesOfList]
  | cons e es ih => rw [inlineValuesOfList, Nat.add_eq_zero_iff, ih, List.forall_mem_cons]

theorem TripleExpr.inlineValuesOfList_eq_zero {es : List TripleExpr} :
    inlineValuesOfList es = 0 ↔ ∀ e ∈ es, e.inlineValues = 0 := by
  induction es with
  | nil => simp [inlineValuesOfList]
  | cons e es ih => rw [inlineValuesOfList, Nat.add_eq_zero_iff, ih, List.forall_mem_cons]

/-- A value that is not inline is a reference. -/
theorem TripleConstraint.eq_ref_of_inlineValues {c : TripleConstraint} {v : ShapeExpr}
    (hv : c.value = some v) (h : c.inlineValues = 0) : ∃ l, v = .ref l := by
  obtain ⟨p, value, card, inverse, label⟩ := c
  cases hv
  cases v with
  | ref l => exact ⟨l, rfl⟩
  | _ => simp [TripleConstraint.inlineValues, ShapeExpr.isRef, ShapeExpr.ref?] at h

/-! ### One round -/

/-- What a hoist leaves of some number of inline values: an expression without any, and values
that have those that are left. -/
def Hoists (total kept : ℕ) (values : List ShapeExpr) : Prop :=
  kept = 0 ∧ total = values.length + ShapeExpr.inlineValuesOfList values

theorem Hoists.nil : Hoists 0 0 [] := ⟨rfl, rfl⟩

theorem Hoists.append {m n k l : ℕ} {vs ws : List ShapeExpr} (h : Hoists m k vs)
    (h' : Hoists n l ws) : Hoists (m + n) (k + l) (vs ++ ws) := by
  obtain ⟨hk, hm⟩ := h
  obtain ⟨hl, hn⟩ := h'
  refine ⟨by omega, ?_⟩
  rw [List.length_append, ShapeExpr.inlineValuesOfList_append]
  omega

theorem TripleConstraint.hoist_spec (k : ℕ) (c : TripleConstraint) :
    Hoists c.inlineValues (TripleExpr.hoist fresh k (.constraint c)).1.inlineValues
      (TripleExpr.hoist fresh k (.constraint c)).2 := by
  obtain ⟨p, _ | v, card, inverse, label⟩ := c
  · exact .nil
  · rw [TripleExpr.hoist]
    dsimp only
    by_cases hv : v.isRef = true
    · rw [if_pos hv]
      simp [Hoists, TripleExpr.inlineValues, TripleConstraint.inlineValues, hv,
        ShapeExpr.inlineValuesOfList]
    · -- the value itself is counted once and its inline values are those left
      rw [if_neg hv]
      have hkept : (ShapeExpr.ref (fresh k)).isRef = true := rfl
      simp [Hoists, TripleExpr.inlineValues, TripleConstraint.inlineValues, hv, hkept,
        ShapeExpr.inlineValuesOfList]

mutual
/-- **Hoisting the values of a triple expression** leaves none in it. -/
theorem TripleExpr.hoist_spec : (k : ℕ) → (e : TripleExpr) →
    Hoists e.inlineValues (e.hoist fresh k).1.inlineValues (e.hoist fresh k).2
  | k, .constraint c => TripleConstraint.hoist_spec k c
  | k, .eachOf es _ => TripleExpr.hoistList_spec k es
  | k, .oneOf es _ => TripleExpr.hoistList_spec k es
  | _, .ref _ => .nil
  | _, .empty => .nil

theorem TripleExpr.hoistList_spec : (k : ℕ) → (es : List TripleExpr) →
    Hoists (TripleExpr.inlineValuesOfList es)
      (TripleExpr.inlineValuesOfList (TripleExpr.hoistList fresh k es).1)
      (TripleExpr.hoistList fresh k es).2
  | _, [] => .nil
  | k, e :: es => (TripleExpr.hoist_spec k e).append (TripleExpr.hoistList_spec _ es)
end

mutual
/-- **Hoisting the values of a definition** leaves none in it. -/
theorem ShapeExpr.hoist_spec : (k : ℕ) → (e : ShapeExpr) →
    Hoists e.inlineValues (e.hoist fresh k).1.inlineValues (e.hoist fresh k).2
  | k, .and es => ShapeExpr.hoistList_spec k es
  | k, .or es => ShapeExpr.hoistList_spec k es
  | k, .not e => ShapeExpr.hoist_spec k e
  | k, .shape ⟨_, _, e, _⟩ => TripleExpr.hoist_spec k e
  | _, .node _ => .nil
  | _, .external => .nil
  | _, .ref _ => .nil

theorem ShapeExpr.hoistList_spec : (k : ℕ) → (es : List ShapeExpr) →
    Hoists (ShapeExpr.inlineValuesOfList es)
      (ShapeExpr.inlineValuesOfList (ShapeExpr.hoistList fresh k es).1)
      (ShapeExpr.hoistList fresh k es).2
  | _, [] => .nil
  | k, e :: es => (ShapeExpr.hoist_spec k e).append (ShapeExpr.hoistList_spec _ es)
end

theorem ShapeExpr.length_hoistList (k : ℕ) (es : List ShapeExpr) :
    (hoistList fresh k es).1.length = es.length := by
  induction es generalizing k with
  | nil => rfl
  | cons e es ih => simp [hoistList, ih]

/-! ### All rounds -/

theorem hoistRounds_cons (rounds k : ℕ) (e : ShapeExpr) (es : List ShapeExpr) :
    hoistRounds fresh (rounds + 1) k (e :: es) =
      (ShapeExpr.hoistList fresh k (e :: es)).1 ++
        hoistRounds fresh rounds (k + (ShapeExpr.hoistList fresh k (e :: es)).2.length)
          (ShapeExpr.hoistList fresh k (e :: es)).2 := rfl

/-- **Enough rounds leave no inline value.** -/
theorem inlineValues_hoistRounds {rounds k : ℕ} {es : List ShapeExpr}
    (h : ShapeExpr.inlineValuesOfList es < rounds) :
    ∀ e ∈ hoistRounds fresh rounds k es, e.inlineValues = 0 := by
  induction rounds generalizing k es with
  | zero => omega
  | succ rounds ih =>
    cases es with
    | nil => simp [hoistRounds]
    | cons e es =>
      obtain ⟨hdone, hcount⟩ := ShapeExpr.hoistList_spec k (e :: es)
      rw [hoistRounds_cons]
      generalize ShapeExpr.hoistList fresh k (e :: es) = hoisted at hdone hcount
      obtain ⟨done, values⟩ := hoisted
      intro x hx
      rcases List.mem_append.1 hx with hx | hx
      · exact ShapeExpr.inlineValuesOfList_eq_zero.1 hdone x hx
      · -- a round without values is the last one, and any other one takes values off the count
        cases values with
        | nil => cases rounds <;> simp [hoistRounds] at hx
        | cons v vs =>
          rw [List.length_cons] at hcount
          exact ih (by omega) x hx

/-- The definitions of the first round come first. -/
theorem length_le_length_hoistRounds (rounds k : ℕ) (es : List ShapeExpr) :
    es.length ≤ (hoistRounds fresh rounds k es).length := by
  cases rounds with
  | zero => simp [hoistRounds]
  | succ rounds =>
    cases es with
    | nil => simp
    | cons e es =>
      rw [hoistRounds_cons, List.length_append, ShapeExpr.length_hoistList]
      omega

/-! ### Hoisted definitions -/

namespace Definitions

/-- **A hoisted definition** has no inline value. -/
theorem inlineValues_hoist_shapes {d : Definitions} {l : Label} {e : ShapeExpr}
    (h : (l, e) ∈ d.hoist.shapes) : e.inlineValues = 0 :=
  inlineValues_hoistRounds (Nat.lt_succ_self _) e (List.of_mem_zip h).2

/-- **A hoisted triple expression** has no inline value. -/
theorem inlineValues_hoist_tripleExprs {d : Definitions} {l : Label} {e : TripleExpr}
    (h : (l, e) ∈ d.hoist.tripleExprs) : e.inlineValues = 0 :=
  TripleExpr.inlineValuesOfList_eq_zero.1 (TripleExpr.hoistList_spec _ _).1 e (List.of_mem_zip h).2

/-- **The labels of hoisted definitions** are the written ones, followed by generated ones. -/
theorem hoist_labels (d : Definitions) :
    ∃ n, d.hoist.shapes.map (·.1) =
      d.shapes.map (·.1) ++ (List.range n).map (generatedLabel (freshStem d.labels)) := by
  refine ⟨_, List.map_fst_zip ?_⟩
  rw [List.length_append, List.length_map, List.length_map, List.length_range]
  refine (Nat.add_sub_of_le ?_).le
  refine le_trans ?_ (length_le_length_hoistRounds _ _ _)
  rw [List.length_append, List.length_map]
  exact Nat.le_add_right _ _

end Definitions

end ShapeTyping
