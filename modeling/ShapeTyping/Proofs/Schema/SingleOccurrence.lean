import Mathlib
import ShapeTyping.Proofs.Schema.Compiled
import ShapeTyping.Proofs.Schema.Idempotence

/-!
# Single occurrence

The tree of a compiled expression is the normal form with a number in the place of each constraint:
the numbers count up from left to right, none is used twice and none is left out, and with the
constraints put back in their places the tree is the normal form again.

* `BagExpr.number`: numbers handed out by one list that grows along the expression.
* `BagExpr.number_eq`: the trees that are so numbered are the compiled ones.
* `BagExpr.restore`, `BagExpr.restore_ofTripleExpr`: a tree with its constraints put back.
* `Schema.compile_numbers`: what the numbers of a compiled expression stand for.
-/

namespace ShapeTyping

namespace BagExpr

/-! ### Numbers from a growing list -/

mutual
/-- The tree of an expression whose constraints are added to the end of a list one after the other.
The number of a constraint is its place in the list. -/
def number (cs : List TripleConstraint) : TripleExpr → BagExpr × List TripleConstraint
  | .constraint c => ((constraint cs.length).withCard c.card, cs ++ [c])
  | .eachOf es card =>
    let (trees, cs) := numberList cs es
    ((eachOf trees).withCard card, cs)
  | .oneOf es card =>
    let (trees, cs) := numberList cs es
    ((oneOf trees).withCard card, cs)
  | .ref _ => (empty, cs)
  | .empty => (empty, cs)

def numberList (cs : List TripleConstraint) :
    List TripleExpr → List BagExpr × List TripleConstraint
  | [] => ([], cs)
  | e :: es =>
    let (tree, cs) := number cs e
    let (trees, cs) := numberList cs es
    (tree :: trees, cs)
end

mutual
/-- **The list grows by the constraints of the expression**, and the numbers are those that follow
the length it had. -/
theorem number_eq : (cs : List TripleConstraint) → (e : TripleExpr) →
    number cs e = (ofTripleExpr cs.length e, cs ++ e.constraints)
  | cs, .constraint c => by rw [number, ofTripleExpr, TripleExpr.constraints]
  | cs, .eachOf es card => by
    rw [number, numberList_eq cs es, ofTripleExpr, TripleExpr.constraints]
  | cs, .oneOf es card => by
    rw [number, numberList_eq cs es, ofTripleExpr, TripleExpr.constraints]
  | cs, .ref _ => by rw [number, ofTripleExpr, TripleExpr.constraints, List.append_nil]
  | cs, .empty => by rw [number, ofTripleExpr, TripleExpr.constraints, List.append_nil]

theorem numberList_eq : (cs : List TripleConstraint) → (es : List TripleExpr) →
    numberList cs es = (ofTripleExprs cs.length es, cs ++ TripleExpr.constraintsOfList es)
  | cs, [] => by rw [numberList, ofTripleExprs, TripleExpr.constraintsOfList, List.append_nil]
  | cs, e :: es => by
    rw [numberList, number_eq cs e]
    simp only
    rw [numberList_eq, List.length_append, List.append_assoc, ofTripleExprs,
      TripleExpr.constraintsOfList]
end

/-! ### Constraints put back -/

mutual
/-- The expression that a tree comes from, with the constraints that its numbers stand for. -/
def restore (cs : List TripleConstraint) : BagExpr → TripleExpr
  | constraint i =>
    match cs[i]? with
    | some c => .constraint { c with card := .one }
    | none => .empty
  | repeated e card => (e.restore cs).withCard card
  | eachOf es => .eachOf (restoreList cs es) .one
  | oneOf es => .oneOf (restoreList cs es) .one
  | empty => .empty

def restoreList (cs : List TripleConstraint) : List BagExpr → List TripleExpr
  | [] => []
  | e :: es => e.restore cs :: restoreList cs es
end

/-- A cardinality that is left out because it is one is found again. -/
theorem restore_withCard {cs : List TripleConstraint} {e : BagExpr} {x : TripleExpr}
    {card : Cardinality} (h : e.restore cs = x.withCard .one) :
    (e.withCard card).restore cs = x.withCard card := by
  unfold withCard
  split
  · -- no node stands for a cardinality of one, and the expression put back has it anyway
    rename_i hone
    have hcard : card = .one := of_decide_eq_true hone
    rw [h, hcard]
  · rw [restore, h]
    cases x <;> rfl

/-- The constraints of a list of expressions begin with those of the first one, and the others
follow. -/
theorem prefix_drop_of_append {xs ys cs : List TripleConstraint} {k : ℕ}
    (h : xs ++ ys <+: cs.drop k) : xs <+: cs.drop k ∧ ys <+: cs.drop (k + xs.length) := by
  refine ⟨(List.prefix_append xs ys).trans h, ?_⟩
  obtain ⟨rest, hrest⟩ := h
  refine ⟨rest, ?_⟩
  rw [← List.drop_drop, ← hrest, List.append_assoc, List.drop_left]

mutual
/-- **The tree of a normal expression** becomes the expression again, if its numbers stand for the
constraints of the expression. -/
theorem restore_ofTripleExpr {cs : List TripleConstraint} : (k : ℕ) → (e : TripleExpr) →
    e.Normal → e.constraints <+: cs.drop k → (ofTripleExpr k e).restore cs = e
  | k, .constraint c, _, h => by
    obtain ⟨rest, hrest⟩ := h
    have hget : cs[k]? = some c := by
      rw [← List.head?_drop, ← hrest]
      rfl
    have hleaf : (constraint k).restore cs = TripleExpr.withCard (.constraint c) .one := by
      rw [restore, hget]
      rfl
    rw [ofTripleExpr, restore_withCard hleaf]
    cases c
    rfl
  | k, .eachOf es card, hn, h => by
    have hes : ∀ e ∈ es, e.Normal := by
      cases hn
      assumption
    have hgroup : (eachOf (ofTripleExprs k es)).restore cs =
        TripleExpr.withCard (.eachOf es card) .one := by
      rw [restore, restoreList_ofTripleExprs k es hes h]
      rfl
    rw [ofTripleExpr]
    exact restore_withCard hgroup
  | k, .oneOf es card, hn, h => by
    have hes : ∀ e ∈ es, e.Normal := by
      cases hn
      assumption
    have hgroup : (oneOf (ofTripleExprs k es)).restore cs =
        TripleExpr.withCard (.oneOf es card) .one := by
      rw [restore, restoreList_ofTripleExprs k es hes h]
      rfl
    rw [ofTripleExpr]
    exact restore_withCard hgroup
  | k, .ref _, hn, _ => nomatch hn
  | k, .empty, _, _ => rfl

theorem restoreList_ofTripleExprs {cs : List TripleConstraint} : (k : ℕ) →
    (es : List TripleExpr) → (∀ e ∈ es, e.Normal) →
    TripleExpr.constraintsOfList es <+: cs.drop k → restoreList cs (ofTripleExprs k es) = es
  | k, [], _, _ => by rw [ofTripleExprs, restoreList]
  | k, e :: es, hn, h => by
    obtain ⟨he, hes⟩ := List.forall_mem_cons.1 hn
    obtain ⟨hfirst, hothers⟩ := prefix_drop_of_append h
    rw [ofTripleExprs, restoreList, restore_ofTripleExpr k e he hfirst,
      restoreList_ofTripleExprs _ es hes hothers]
end

end BagExpr

/-! ### Compiled expressions -/

/-- **Each constraint of a compiled expression occurs once.** The numbers in the tree, read from
left to right, count up from zero to the number of constraints. The constraint with a number is the
one at this place of the normal form, which the tree becomes when the constraints are put back. The
numbers are those that a growing list hands out, and the predicates of the two directions are those
of the constraints. -/
theorem Schema.compile_numbers {s : Schema} {e : TripleExpr} {c : Compiled}
    (hc : s.compile e = .ok c) :
    s.normalize e = .ok c.expr ∧
      c.root.leaves = List.range c.constraints.length ∧
      c.root.leaves.Nodup ∧
      (∀ i : ℕ, c.constraints[i]? = c.expr.constraints[i]?) ∧
      c.root.restore c.constraints = c.expr ∧
      BagExpr.number [] c.expr = (c.root, c.constraints) ∧
      (∀ p, p ∈ c.forward ↔ ∃ t ∈ c.constraints, t.inverse = false ∧ t.predicate = p) ∧
      ∀ p, p ∈ c.inverse ↔ ∃ t ∈ c.constraints, t.inverse = true ∧ t.predicate = p := by
  have hnormalize := s.compile_expr hc
  obtain ⟨x, hx, rfl⟩ := Except.map_eq_ok hc
  have hleaves : x.compile.root.leaves = List.range x.compile.constraints.length := by
    rw [List.range_eq_range']
    exact BagExpr.leaves_ofTripleExpr 0 x.unfold
  have hnormal : x.unfold.Normal := TripleExpr.normal_unfold_of_expandIn hx
  refine ⟨hnormalize, hleaves, hleaves ▸ List.nodup_range, fun i => rfl, ?_, ?_, ?_, ?_⟩
  · exact BagExpr.restore_ofTripleExpr 0 x.unfold hnormal (List.prefix_refl _)
  · exact BagExpr.number_eq [] x.unfold
  · exact fun p => mem_predicatesOf
  · exact fun p => mem_predicatesOf

/-- Two constraints, one of either direction, that other expressions refer to. -/
def Schema.sharedPair : Definitions where
  shapes := []
  tripleExprs := [(.iri ⟨"urn:t"⟩, .eachOf [.constraint ⟨⟨"urn:p"⟩, none, .star, false, none⟩,
    .constraint ⟨⟨"urn:q"⟩, none, .one, true, none⟩] .one)]
  start := none

/-- Two references in a group that is made two or three times are six copies, each with two numbers
of its own. -/
theorem Schema.compile_numbers_sharedPair :
    ∃ s c, sharedPair.build = .ok s ∧
      s.compile (.eachOf [.ref (.iri ⟨"urn:t"⟩), .ref (.iri ⟨"urn:t"⟩)] ⟨2, some 3⟩) = .ok c ∧
      c.constraints.length = 12 ∧ c.root.leaves = List.range 12 ∧
      c.root.restore c.constraints = c.expr ∧
      (∀ p, p ∈ c.inverse ↔ ∃ t ∈ c.constraints, t.inverse = true ∧ t.predicate = p) := by
  let s : Schema := { sharedPair with shapeCount := 0, strata := [] }
  have hbuild : sharedPair.build = .ok s := by cbv
  obtain ⟨c, hcompile, hlength⟩ : ∃ c,
      s.compile (.eachOf [.ref (.iri ⟨"urn:t"⟩), .ref (.iri ⟨"urn:t"⟩)] ⟨2, some 3⟩) = .ok c ∧
        c.constraints.length = 12 := ⟨_, rfl, rfl⟩
  obtain ⟨-, hleaves, -, -, hrestore, -, -, hinverse⟩ := compile_numbers hcompile
  exact ⟨s, c, hbuild, hcompile, hlength, hlength ▸ hleaves, hrestore, hinverse⟩

end ShapeTyping
