import Mathlib
import ShapeTyping.Proofs.Schema.NormalForm

/-!
# Normal expressions

An expression is normal if it has no reference and the cardinality of each of its groups is one,
`?`, `*` or `+`. Normalization ends with such an expression whatever the cardinalities are, their
bounds out of order included, and it leaves such an expression as it is.

* `TripleExpr.Normal`: normal expressions.
* `TripleExpr.normal_unfoldGroup`: the copies made of a normal group are normal.
* `TripleExpr.normal_unfold_of_expandIn`: an expression whose references are replaced is normal
  once it is unfolded.
* `TripleExpr.Normal.unfold_eq`, `TripleExpr.Normal.expandWith_eq`: a normal expression stays.
* `Schema.normalize_idempotent`: normalization ends with a normal expression and keeps it.
-/

namespace ShapeTyping

/-- The cardinalities of groups that are not unfolded: one, `?`, `*` and `+`. -/
def Cardinality.kept : List Cardinality := [.one, .optional, .star, .plus]

theorem Cardinality.mem_kept {c : Cardinality} :
    c ∈ kept ↔ (c.isOne || c.isRepetition) = true := by
  simp [kept, isOne, isRepetition, or_assoc]

namespace TripleExpr

/-- Expressions without references in which no group has to be unfolded. -/
inductive Normal : TripleExpr → Prop
  | constraint (c : TripleConstraint) : Normal (.constraint c)
  | eachOf {es : List TripleExpr} {card : Cardinality} (hcard : card ∈ Cardinality.kept)
      (hes : ∀ e ∈ es, Normal e) : Normal (.eachOf es card)
  | oneOf {es : List TripleExpr} {card : Cardinality} (hcard : card ∈ Cardinality.kept)
      (hes : ∀ e ∈ es, Normal e) : Normal (.oneOf es card)
  | empty : Normal .empty

/-! ### Normalization ends with a normal expression -/

section Ends

variable {follow : Label → Except SchemaError TripleExpr}

/-- **The copies made of a normal group** are normal, with any cardinality. -/
theorem normal_unfoldGroup {group : TripleExpr} (hone : group.Normal)
    (hgroup : ∀ c ∈ Cardinality.kept, (group.withCard c).Normal) (card : Cardinality) :
    (unfoldGroup group card).Normal := by
  unfold unfoldGroup
  split
  · rename_i hkept
    exact hgroup card (Cardinality.mem_kept.2 hkept)
  split
  · exact .empty
  -- a copy is the group itself, the optional group or the repeated one
  refine .eachOf (by decide) fun e he => ?_
  split at he
  · rcases List.mem_append.1 he with he | he
    · rw [List.eq_of_mem_replicate he]
      exact hone
    · rw [List.eq_of_mem_replicate he]
      exact hgroup _ (by decide)
  · rcases List.mem_append.1 he with he | he
    · rw [List.eq_of_mem_replicate he]
      exact hone
    · rw [List.mem_singleton.1 he]
      exact hgroup _ (by decide)

mutual
/-- If what references are replaced by is normal once it is unfolded, so is the whole. -/
theorem normal_unfold_of_expandWith (hf : ∀ l x, follow l = .ok x → x.unfold.Normal) :
    (e : TripleExpr) → {x : TripleExpr} → e.expandWith follow = .ok x → x.unfold.Normal
  | .constraint c, x, hx => by
    cases hx
    exact .constraint c
  | .eachOf es card, x, hx => by
    obtain ⟨xs, hxs, rfl⟩ := Except.map_eq_ok hx
    have hmembers := normal_unfoldList_of_expandListWith hf es hxs
    rw [unfold]
    exact normal_unfoldGroup (.eachOf (by decide) hmembers) (fun c hc => .eachOf hc hmembers) card
  | .oneOf es card, x, hx => by
    obtain ⟨xs, hxs, rfl⟩ := Except.map_eq_ok hx
    have hmembers := normal_unfoldList_of_expandListWith hf es hxs
    rw [unfold]
    exact normal_unfoldGroup (.oneOf (by decide) hmembers) (fun c hc => .oneOf hc hmembers) card
  | .ref l, x, hx => hf l x hx
  | .empty, x, hx => by
    cases hx
    exact .empty

theorem normal_unfoldList_of_expandListWith (hf : ∀ l x, follow l = .ok x → x.unfold.Normal) :
    (es : List TripleExpr) → {xs : List TripleExpr} → expandListWith follow es = .ok xs →
      ∀ n ∈ unfoldList xs, n.Normal
  | [], xs, hx => by
    cases hx
    simp [unfoldList]
  | e :: es, xs, hx => by
    obtain ⟨y, hy, ys, hys, rfl⟩ := expandListWith_cons hx
    exact List.forall_mem_cons.2 ⟨normal_unfold_of_expandWith hf e hy,
      normal_unfoldList_of_expandListWith hf es hys⟩
end

/-- **Once references are replaced and groups unfolded**, an expression is normal. -/
theorem normal_unfold_of_expandIn {defs : List (Label × TripleExpr)} {e x : TripleExpr}
    (hx : e.expandIn defs = .ok x) : x.unfold.Normal := by
  have hlabel : ∀ l x, expandLabel defs defs.length l = .ok x → x.unfold.Normal := fun _ _ =>
    expandLabel_induction (P := fun _ x => x.unfold.Normal) fun _ hf _ d _ _ hd =>
      normal_unfold_of_expandWith hf d hd
  exact normal_unfold_of_expandWith hlabel e hx

end Ends

/-! ### A normal expression stays -/

namespace Normal

variable {e : TripleExpr} {es : List TripleExpr}

theorem unfoldGroup_eq {group : TripleExpr} {card : Cardinality} (hcard : card ∈ Cardinality.kept) :
    unfoldGroup group card = group.withCard card := by
  rw [unfoldGroup, if_pos (Cardinality.mem_kept.1 hcard)]

theorem unfoldList_eq (hes : ∀ e ∈ es, e.unfold = e) : unfoldList es = es := by
  induction es with
  | nil => rfl
  | cons e es ih =>
    obtain ⟨he, hes⟩ := List.forall_mem_cons.1 hes
    rw [unfoldList, he, ih hes]

/-- **No group of a normal expression is unfolded.** -/
theorem unfold_eq (h : e.Normal) : e.unfold = e := by
  induction h with
  | constraint c => rfl
  | eachOf hcard _ ih => rw [unfold, unfoldList_eq ih, unfoldGroup_eq hcard, withCard]
  | oneOf hcard _ ih => rw [unfold, unfoldList_eq ih, unfoldGroup_eq hcard, withCard]
  | empty => rfl

variable {follow : Label → Except SchemaError TripleExpr}

theorem expandListWith_eq (hes : ∀ e ∈ es, e.expandWith follow = .ok e) :
    expandListWith follow es = .ok es := by
  induction es with
  | nil => rfl
  | cons e es ih =>
    obtain ⟨he, hes⟩ := List.forall_mem_cons.1 hes
    rw [expandListWith, he, ih hes]
    rfl

/-- **A normal expression has no reference to replace.** -/
theorem expandWith_eq (h : e.Normal) : e.expandWith follow = .ok e := by
  induction h with
  | constraint c => rfl
  | eachOf _ _ ih => rw [expandWith, expandListWith_eq ih]; rfl
  | oneOf _ _ ih => rw [expandWith, expandListWith_eq ih]; rfl
  | empty => rfl

end Normal

end TripleExpr

/-! ### Normalization in a schema -/

namespace Schema

variable {s : Schema} {e n : TripleExpr}

theorem normal_of_normalize (h : s.normalize e = .ok n) : n.Normal := by
  obtain ⟨x, hx, rfl⟩ := Except.map_eq_ok h
  exact TripleExpr.normal_unfold_of_expandIn hx

theorem normalize_eq_of_normal (h : n.Normal) : s.normalize n = .ok n := by
  have hexpand : s.expand n = .ok n := h.expandWith_eq
  rw [normalize, hexpand, Except.map, h.unfold_eq]

/-- **Normalization is idempotent.** An expression that it ends with is normal, and with any other
schema it ends with the same expression again. -/
theorem normalize_idempotent (h : s.normalize e = .ok n) :
    n.Normal ∧ ∀ s' : Schema, s'.normalize n = .ok n := by
  have hnormal := normal_of_normalize h
  exact ⟨hnormal, fun _ => normalize_eq_of_normal hnormal⟩

/-- A referenced choice that is made twice or more. -/
def repeatedChoice : Definitions where
  shapes := []
  tripleExprs := [(.iri ⟨"urn:t"⟩,
    .oneOf [.constraint ⟨⟨"urn:p"⟩, none, .star, false, none⟩, .empty] ⟨2, none⟩)]
  start := none

/-- A group that refers to it at least twice and at most once is unfolded to two copies. -/
theorem normalize_idempotent_repeatedChoice :
    ∃ s n, repeatedChoice.build = .ok s ∧
      s.normalize (.eachOf [.ref (.iri ⟨"urn:t"⟩)] ⟨2, some 1⟩) = .ok n ∧
      n.Normal ∧ ∀ s' : Schema, s'.normalize n = .ok n := by
  let s : Schema := { repeatedChoice with shapeCount := 0, strata := [] }
  have hbuild : repeatedChoice.build = .ok s := by cbv
  let choice (card : Cardinality) : TripleExpr :=
    .oneOf [.constraint ⟨⟨"urn:p"⟩, none, .star, false, none⟩, .empty] card
  let copy : TripleExpr := .eachOf [.eachOf [choice .one, choice .plus] .one] .one
  have hnormalize : s.normalize (.eachOf [.ref (.iri ⟨"urn:t"⟩)] ⟨2, some 1⟩) =
      .ok (.eachOf [copy, copy] .one) := rfl
  exact ⟨s, _, hbuild, hnormalize, normalize_idempotent hnormalize⟩

end Schema

end ShapeTyping
