import Mathlib
import ShapeTyping.Proofs.Bag.Repetition

/-!
# The empty bag

Without any edge a tree is read as repeated any number of times or not at all, depending on whether
it is nullable. For the tree of a triple expression this can be told from the expression: a
constraint or a group can be left out if its minimum is zero, and else a group needs all of its
members or one of them. Only a choice without members can not be made at all.

* `BagExpr.evaluate_zero`, `BagExpr.accepts_nil`: the empty bag.
* `TripleExpr.skippable`: expressions that can do without edges.
* `TripleExpr.nullable_unfold`: their trees are nullable.
-/

namespace ShapeTyping

namespace BagExpr

variable {count : ℕ → ℕ}

mutual
/-- **Where nothing is counted**, a nullable part is used up by any number of rounds and another one
by none. -/
theorem evaluate_zero (h : ∀ i, count i = 0) :
    (e : BagExpr) → e.evaluate count = ⟨if e.nullable then .star else .zero, false⟩
  | constraint i => by simp [evaluate, nullable, h, Interval.point, Interval.zero]
  | repeated e card => by
    rw [evaluate, evaluate_zero h e]
    simp only [Bool.false_eq_true, if_false, nullable]
    split <;> rename_i hnull <;> simp [hnull]
  | eachOf es => by
    have hes := evaluateEach_zero h true es
    rwa [if_pos rfl, Bool.true_and] at hes
  | oneOf es => by
    have hes := evaluateOne_zero h false es
    rwa [if_neg Bool.false_ne_true, Bool.false_or] at hes
  | empty => rfl

theorem evaluateEach_zero (h : ∀ i, count i = 0) (acc : Bool) : (es : List BagExpr) →
    evaluateEach count ⟨if acc then .star else .zero, false⟩ es =
      ⟨if acc && allNullable es then .star else .zero, false⟩
  | [] => by simp [evaluateEach, allNullable]
  | e :: es => by
    have hes := evaluateEach_zero h (acc && e.nullable) es
    rw [evaluateEach, evaluate_zero h e, allNullable, ← Bool.and_assoc, ← hes]
    cases acc <;> cases e.nullable <;> rfl

theorem evaluateOne_zero (h : ∀ i, count i = 0) (acc : Bool) : (es : List BagExpr) →
    evaluateOne count ⟨if acc then .star else .zero, false⟩ es =
      ⟨if acc || anyNullable es then .star else .zero, false⟩
  | [] => by simp [evaluateOne, anyNullable]
  | e :: es => by
    have hes := evaluateOne_zero h (acc || e.nullable) es
    rw [evaluateOne, evaluate_zero h e, anyNullable, ← Bool.or_assoc, ← hes]
    cases acc <;> cases e.nullable <;> rfl
end

/-- **The empty bag** is accepted by nullable trees. -/
theorem accepts_nil (e : BagExpr) (size : ℕ) : e.accepts ⟨[], size⟩ = e.nullable := by
  rw [accepts, evaluate_zero (fun i => by simp [Bag.count])]
  cases e.nullable <;> rfl

theorem nullable_withCard (e : BagExpr) (card : Cardinality) :
    (e.withCard card).nullable = (card.min = 0 || e.nullable) := by
  rw [withCard]
  split
  · rename_i hone
    obtain rfl : card = .one := by simpa [Cardinality.isOne] using hone
    rfl
  · rfl

end BagExpr

/-- **Copies are optional** from the minimum on. -/
theorem Cardinality.all_copies {c : Cardinality} (hmin : c.max = none → 0 < c.min) (b : Bool) :
    (c.copies.all fun d => d.min = 0 || b) = (c.min = 0 || b) := by
  obtain ⟨k, _ | m⟩ := c
  · have hk : k ≠ 0 := Nat.pos_iff_ne_zero.1 (hmin rfl)
    cases b <;> simp [copies, plus, one, exactly, hk]
  · simp [copies, one, optional, exactly]

namespace TripleExpr

mutual
/-- Whether an expression without references can do without edges. -/
def skippable : TripleExpr → Bool
  | constraint c => c.card.min = 0
  | eachOf es card => card.isZero || card.min = 0 || allSkippable es
  | oneOf es card => card.isZero || card.min = 0 || anySkippable es
  | ref _ => true
  | empty => true

def allSkippable : List TripleExpr → Bool
  | [] => true
  | e :: es => e.skippable && allSkippable es

def anySkippable : List TripleExpr → Bool
  | [] => false
  | e :: es => e.skippable || anySkippable es
end

/-- Copies of a group can all be left out if this is so for the mandatory ones. -/
theorem allNullable_copies {g : TripleExpr} {b : Bool}
    (hg : ∀ k card, (BagExpr.ofTripleExpr k (g.withCard card)).nullable = (card.min = 0 || b))
    (cards : List Cardinality) (k : ℕ) :
    BagExpr.allNullable (BagExpr.ofTripleExprs k (cards.map g.withCard)) =
      (cards.all fun card => card.min = 0 || b) := by
  induction cards generalizing k with
  | nil => rfl
  | cons card cards ih =>
    rw [List.map_cons, BagExpr.ofTripleExprs, BagExpr.allNullable, hg, ih, List.all_cons]

/-- **A group that is unfolded** can be left out if it may not occur or need not occur, or if this
is so for one copy of it. -/
theorem nullable_unfoldGroup {g : TripleExpr} {b : Bool} (hself : g.withCard .one = g)
    (hg : ∀ k card, (BagExpr.ofTripleExpr k (g.withCard card)).nullable = (card.min = 0 || b))
    (card : Cardinality) (k : ℕ) :
    (BagExpr.ofTripleExpr k (unfoldGroup g card)).nullable =
      (card.isZero || card.min = 0 || b) := by
  by_cases hkept : (card.isOne || card.isRepetition) = true
  · -- the group is kept, and then its cardinality allows some occurrence
    have hzero : card.isZero = false := by
      rcases Cardinality.eq_of_not_unfolded (by simpa using hkept) with rfl | rfl | rfl | rfl <;>
        rfl
    rw [unfoldGroup, if_pos hkept, hg, hzero, Bool.false_or]
  · rw [Bool.not_eq_true, Bool.or_eq_false_iff] at hkept
    cases hzero : card.isZero with
    | true => simp [unfoldGroup, hkept, hzero, BagExpr.ofTripleExpr, BagExpr.nullable]
    | false =>
      -- copies: those up to the minimum decide
      rw [unfoldGroup_eq hself hkept.1 hkept.2 hzero, BagExpr.ofTripleExpr,
        BagExpr.nullable_withCard, BagExpr.nullable, allNullable_copies hg]
      rw [Cardinality.all_copies (Cardinality.min_pos_of_unbounded hkept.2)]
      rfl

mutual
/-- **The tree of an expression** is nullable if the expression can do without edges. -/
theorem nullable_unfold : (e : TripleExpr) → (k : ℕ) →
    (BagExpr.ofTripleExpr k e.unfold).nullable = e.skippable
  | constraint c, k => by
    rw [unfold, BagExpr.ofTripleExpr, BagExpr.nullable_withCard, BagExpr.nullable, Bool.or_false,
      skippable]
  | eachOf es card, k => by
    rw [unfold, skippable]
    refine nullable_unfoldGroup rfl (fun k card => ?_) card k
    rw [withCard, BagExpr.ofTripleExpr, BagExpr.nullable_withCard, BagExpr.nullable,
      allNullable_unfoldList]
  | oneOf es card, k => by
    rw [unfold, skippable]
    refine nullable_unfoldGroup rfl (fun k card => ?_) card k
    rw [withCard, BagExpr.ofTripleExpr, BagExpr.nullable_withCard, BagExpr.nullable,
      anyNullable_unfoldList]
  | ref _, k => rfl
  | empty, k => rfl

theorem allNullable_unfoldList : (es : List TripleExpr) → (k : ℕ) →
    BagExpr.allNullable (BagExpr.ofTripleExprs k (unfoldList es)) = allSkippable es
  | [], k => rfl
  | e :: es, k => by
    rw [unfoldList, BagExpr.ofTripleExprs, BagExpr.allNullable, nullable_unfold e,
      allNullable_unfoldList es, allSkippable]

theorem anyNullable_unfoldList : (es : List TripleExpr) → (k : ℕ) →
    BagExpr.anyNullable (BagExpr.ofTripleExprs k (unfoldList es)) = anySkippable es
  | [], k => rfl
  | e :: es, k => by
    rw [unfoldList, BagExpr.ofTripleExprs, BagExpr.anyNullable, nullable_unfold e,
      anyNullable_unfoldList es, anySkippable]
end

end TripleExpr

end ShapeTyping
