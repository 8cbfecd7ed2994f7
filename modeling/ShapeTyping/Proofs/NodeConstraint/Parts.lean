import Mathlib
import ShapeTyping.Proofs.NodeConstraint.Patterns
import ShapeTyping.Proofs.Validation.Requests

/-!
# Parts of node constraints

A node constraint is evaluated part by part, and the first part that does not hold or fails decides.
So it is the conjunction of the constraints that ask for one part each, in the same order, with the
same answer and the same error.

* `NodeConstraint.parts`: the constraints that ask for one part each.
* `NodeConstraint.allM_parts`: their conjunction, however patterns are matched.
* `NodeConstraint.allM_eq_holdsWith`: constraints that ask for nothing can be added or left out.
* `satisfiesAll_map_node`: conjunctions of node constraints among shape expressions.
* `satisfies_parts`: a node constraint among shape expressions is the conjunction of its parts.
-/

namespace ShapeTyping

namespace NodeConstraint

/-! ### Parts -/

/-- The constraint that asks for a string facet and nothing else. -/
def ofStringFacet (f : StringFacet) : NodeConstraint := { any with stringFacets := [f] }

/-- The constraint that asks for a numeric facet and nothing else. -/
def ofNumericFacet (f : NumericFacet) : NodeConstraint := { any with numericFacets := [f] }

/-- The constraints that ask for one part of a constraint each, in the order in which parts are
evaluated. A part that is absent gives the constraint that asks for nothing. -/
def parts (c : NodeConstraint) : List NodeConstraint :=
  { any with kind := c.kind } :: { any with datatype := c.datatype } ::
    (c.stringFacets.map ofStringFacet ++ c.numericFacets.map ofNumericFacet ++
      [{ any with values := c.values }])

section Lists

variable {m : Type → Type} [Monad m] [LawfulMonad m] {α : Type} (p : α → m Bool)

theorem bind_ite_pure (a : m Bool) : (a >>= fun b => if b then pure true else pure false) = a := by
  have hpure : (fun b => if b then pure true else pure false : Bool → m Bool) = pure := by
    funext b
    cases b <;> rfl
  rw [hpure, bind_pure]

theorem allM_singleton (x : α) : [x].allM p = p x := by
  rw [List.allM_cons, List.allM_nil, bind_ite_pure]

/-- A conjunction of two lists goes on with the second list where all of the first one holds. -/
theorem allM_append (xs ys : List α) :
    (xs ++ ys).allM p = xs.allM p >>= fun b => if b then ys.allM p else pure false := by
  induction xs with
  | nil => simp
  | cons x xs ih =>
    simp only [List.cons_append, List.allM_cons, ih, bind_assoc]
    congr 1
    funext b
    cases b <;> simp

end Lists

section Parts

variable {m : Type → Type} [Monad m] [LawfulMonad m] [MonadExceptOf ValidationError m]
  (matches? : String → Option String → String → m Bool) (limits : Limits) (t : Term)

theorem holdsWith_kind (c : NodeConstraint) :
    holdsWith matches? limits t { any with kind := c.kind } = pure (c.kindHolds t) := by
  have hkind : { any with kind := c.kind }.kindHolds t = c.kindHolds t := rfl
  unfold holdsWith
  rw [hkind]
  cases c.kindHolds t with
  | false => rfl
  | true => simp [any, datatypeHolds, numericFacetsHold, valuesHold?, liftExcept]

theorem holdsWith_datatype (c : NodeConstraint) :
    holdsWith matches? limits t { any with datatype := c.datatype } =
      pure (c.datatypeHolds t) := by
  have hdatatype : { any with datatype := c.datatype }.datatypeHolds t = c.datatypeHolds t := rfl
  unfold holdsWith
  rw [hdatatype]
  cases c.datatypeHolds t with
  | false => rfl
  | true => simp [any, kindHolds, numericFacetsHold, valuesHold?, liftExcept]

theorem holdsWith_ofStringFacet (f : StringFacet) :
    holdsWith matches? limits t (ofStringFacet f) = stringFacetHoldsWith matches? t f := by
  have hholds : holdsWith matches? limits t (ofStringFacet f) =
      [f].allM (stringFacetHoldsWith matches? t) >>= fun b => if !b then pure false else pure true :=
    rfl
  rw [hholds, allM_singleton]
  conv_rhs => rw [← bind_ite_pure (stringFacetHoldsWith matches? t f)]
  congr 1
  funext b
  cases b <;> rfl

theorem holdsWith_ofNumericFacet (f : NumericFacet) :
    holdsWith matches? limits t (ofNumericFacet f) = pure (numericFacetsHold t [f]) := by
  unfold holdsWith
  have hnumeric : (ofNumericFacet f).numericFacets = [f] := rfl
  rw [hnumeric]
  cases numericFacetsHold t [f] <;>
    simp [ofNumericFacet, any, kindHolds, datatypeHolds, valuesHold?, liftExcept]

theorem holdsWith_values (c : NodeConstraint) :
    holdsWith matches? limits t { any with values := c.values } =
      liftExcept (valuesHold? limits t c.values) := by
  simp [holdsWith, any, kindHolds, datatypeHolds, numericFacetsHold]

theorem numericFacetsHold_cons (f : NumericFacet) (fs : List NumericFacet) :
    numericFacetsHold t (f :: fs) = (numericFacetsHold t [f] && numericFacetsHold t fs) := by
  unfold numericFacetsHold
  cases t.value?.filter (·.isNumeric) with
  | none => rfl
  | some v => cases fs <;> simp

theorem allM_ofStringFacet (fs : List StringFacet) :
    (fs.map ofStringFacet).allM (holdsWith matches? limits t) =
      fs.allM (stringFacetHoldsWith matches? t) := by
  induction fs with
  | nil => rfl
  | cons f fs ih => rw [List.map_cons, List.allM_cons, List.allM_cons, holdsWith_ofStringFacet, ih]

theorem allM_ofNumericFacet (fs : List NumericFacet) :
    (fs.map ofNumericFacet).allM (holdsWith matches? limits t) =
      pure (numericFacetsHold t fs) := by
  induction fs with
  | nil => rfl
  | cons f fs ih =>
    rw [List.map_cons, List.allM_cons, holdsWith_ofNumericFacet, ih, pure_bind,
      numericFacetsHold_cons t f fs]
    cases numericFacetsHold t [f] <;> rfl

/-- **A node constraint is the conjunction of its parts**, however patterns are matched. -/
theorem allM_parts (c : NodeConstraint) :
    c.parts.allM (holdsWith matches? limits t) = holdsWith matches? limits t c := by
  rw [parts, List.allM_cons, List.allM_cons, holdsWith_kind, holdsWith_datatype, allM_append,
    allM_append, allM_ofStringFacet, allM_ofNumericFacet, allM_singleton, holdsWith_values,
    holdsWith, pure_bind, pure_bind, bind_assoc]
  cases c.kindHolds t with
  | false => rfl
  | true =>
    cases c.datatypeHolds t with
    | false => rfl
    | true =>
      -- both sides go on after the string facets, the only part with effects before the values
      change (_ >>= _) = (_ >>= _)
      congr 1
      funext b
      cases b with
      | false => exact pure_bind _ _
      | true =>
        refine (pure_bind _ _).trans ?_
        cases numericFacetsHold t c.numericFacets <;> rfl

theorem holdsWith_of_isEmpty {c : NodeConstraint} (h : c.isEmpty = true) :
    holdsWith matches? limits t c = pure true := by
  have hany : c = { any with kind := any.kind } := by
    obtain ⟨kind, datatype, stringFacets, numericFacets, values⟩ := c
    simp only [isEmpty, Bool.and_eq_true, Option.isNone_iff_eq_none, List.isEmpty_iff] at h
    obtain ⟨⟨⟨⟨rfl, rfl⟩, rfl⟩, rfl⟩, rfl⟩ := h
    rfl
  rw [hany, holdsWith_kind]
  rfl

/-- Constraints that ask for nothing can be left out of a conjunction. -/
theorem allM_filter_isEmpty (cs : List NodeConstraint) :
    (cs.filter (!·.isEmpty)).allM (holdsWith matches? limits t) =
      cs.allM (holdsWith matches? limits t) := by
  induction cs with
  | nil => rfl
  | cons c cs ih =>
    cases hc : c.isEmpty with
    | true =>
      rw [List.filter_cons_of_neg (by simp [hc]), ih, List.allM_cons,
        holdsWith_of_isEmpty matches? limits t hc, pure_bind]
      rfl
    | false => rw [List.filter_cons_of_pos (by simp [hc]), List.allM_cons, List.allM_cons, ih]

/-- A conjunction of all parts that ask for something. -/
theorem allM_eq_holdsWith (c : NodeConstraint) {cs : List NodeConstraint}
    (h : cs.filter (!·.isEmpty) = c.parts.filter (!·.isEmpty)) :
    cs.allM (holdsWith matches? limits t) = holdsWith matches? limits t c := by
  rw [← allM_filter_isEmpty matches? limits t cs, h, allM_filter_isEmpty, allM_parts]

end Parts

end NodeConstraint

/-! ### Conjunctions of shape expressions -/

section Conjunction

variable (ctx : Context) (recur : Decider) (t : Term)

/-- A conjunction of node constraints is decided by the constraints, left to right. -/
theorem satisfiesAll_map_node (cs : List NodeConstraint) (st : State) :
    satisfiesAll ctx recur t (cs.map .node) st =
      match cs.allM (·.holds? ctx.limits t) with
      | .error e => .error e st
      | .ok true => .ok (some []) st
      | .ok false => .ok none st := by
  induction cs with
  | nil => rfl
  | cons c cs ih =>
    rw [List.map_cons, satisfiesAll_cons, satisfies_node, List.allM_cons]
    cases c.holds? ctx.limits t with
    | error e => rfl
    | ok b =>
      cases b with
      | false => rfl
      | true =>
        simp only [ih]
        generalize cs.allM (·.holds? ctx.limits t) = answer
        cases answer with
        | error e => rfl
        | ok b => cases b <;> rfl

/-- **A node constraint is the conjunction of its parts**, evaluated left to right: as a shape
expression, by itself, and with patterns that are kept, which leaves the same patterns behind. What
is kept changes neither the answer nor the error. -/
theorem satisfies_parts (c : NodeConstraint) {cs : List NodeConstraint}
    (hcs : cs.filter (!·.isEmpty) = c.parts.filter (!·.isEmpty)) :
    (∀ st, satisfies ctx recur t (.and (cs.map .node)) st =
      satisfies ctx recur t (.node c) st) ∧
    cs.allM (·.holds? ctx.limits t) = c.holds? ctx.limits t ∧
    (∀ kept : PatternCache,
      cs.allM (NodeConstraint.holdsWith (keptMatches? ctx.limits) ctx.limits t) kept =
        c.holdsWith (keptMatches? ctx.limits) ctx.limits t kept) ∧
    Recalls ctx.limits (c.holdsWith (keptMatches? ctx.limits) ctx.limits t)
      (c.holds? ctx.limits t) := by
  have hholds : cs.allM (·.holds? ctx.limits t) = c.holds? ctx.limits t := by
    have hwith := NodeConstraint.allM_eq_holdsWith (patternMatches? ctx.limits) ctx.limits t c hcs
    have hpure : NodeConstraint.holdsWith (patternMatches? ctx.limits) ctx.limits t =
        (·.holds? ctx.limits t) := funext (NodeConstraint.holdsWith_patternMatches? ctx.limits t)
    rwa [hpure] at hwith
  refine ⟨fun st => ?_, hholds, fun kept => ?_, c.recalls_holds? t⟩
  · have hall := satisfiesAll_map_node ctx recur t cs st
    rw [hholds] at hall
    rw [satisfies]
    exact hall.trans satisfies_node.symm
  · rw [NodeConstraint.allM_eq_holdsWith (keptMatches? ctx.limits) ctx.limits t c hcs]

end Conjunction

/-- Asks for a literal with a character, for a match of what is no pattern, and for one value. -/
def unreadablePattern : NodeConstraint :=
  ⟨some .literal, none, [.minLength 1, .pattern "(" none], [], [.term (.iri ⟨"urn:a"⟩)]⟩

/-- The pattern is refused before the value set, which is too long within these limits. -/
theorem satisfies_parts_unreadablePattern :
    let limits : Limits := ⟨none, none, 1, 0⟩
    let t : Term := .literal (.typed "x" Xsd.string)
    let cs : List NodeConstraint := [{ NodeConstraint.any with kind := some .literal },
      .ofStringFacet (.minLength 1), .ofStringFacet (.pattern "(" none),
      { NodeConstraint.any with values := [.term (.iri ⟨"urn:a"⟩)] }]
    cs.filter (!·.isEmpty) = unreadablePattern.parts.filter (!·.isEmpty) ∧
      cs.allM (·.holds? limits t) = .error (.invalidPattern "(") := by
  have hvalue : unreadablePattern.holds? ⟨none, none, 1, 0⟩ (.literal (.typed "x" Xsd.string)) =
      .error (.invalidPattern "(") := by
    rfl
  exact ⟨rfl, (satisfies_parts ⟨default, default, ⟨none, none, 1, 0⟩⟩ (fun _ st => (false, st)) _
    unreadablePattern rfl).2.1.trans hvalue⟩

end ShapeTyping
