import Mathlib
import ShapeTyping.Proofs.Schema.Hoisting
import ShapeTyping.Proofs.Schema.Stratification

/-!
# Well-formed definitions

What definitions have to satisfy before their strata are looked at, said of the definitions as they
are written. The checks are made after hoisting, which neither loses a reference nor adds one to a
label that is not defined.

* `ShapeExpr.Mentions`, `TripleExpr.Mentions`: the references at any depth.
* `Definitions.WellFormed`: labels are distinct, references are defined and those between triple
  expressions have no cycle.
* `Definitions.FirstFault`: the errors for what is violated first.
* `Definitions.HoistsTo.undefined_iff`: hoisting keeps the references that are not defined.
* `Definitions.cycle?_eq_none_iff`: the search for a cycle finds one if there is one.
* `Definitions.build_wellFormed`: the checks accept the well-formed definitions and no others.
-/

namespace ShapeTyping

/-! ### References at any depth -/

/-- What a reference refers to. -/
inductive Mention where
  | shape (l : Label)
  | tripleExpr (l : Label)

theorem Mention.exists {P : Mention → Prop} :
    (∃ m, P m) ↔ (∃ l, P (.shape l)) ∨ ∃ l, P (.tripleExpr l) := by
  constructor
  · rintro ⟨l | l, h⟩
    · exact .inl ⟨l, h⟩
    · exact .inr ⟨l, h⟩
  · rintro (⟨l, h⟩ | ⟨l, h⟩)
    · exact ⟨.shape l, h⟩
    · exact ⟨.tripleExpr l, h⟩

/-- The error for a reference in some definition to what is not defined. -/
def Mention.undefined (referrer : Label) : Mention → SchemaError
  | .shape l => .undefinedShape referrer l
  | .tripleExpr l => .undefinedTripleExpr l

mutual
/-- `e.Mentions m` says that `m` is referred to somewhere in `e`, values included. -/
inductive ShapeExpr.Mentions : ShapeExpr → Mention → Prop
  | and {es : List ShapeExpr} {e : ShapeExpr} {m : Mention} (he : e ∈ es) (h : e.Mentions m) :
      ShapeExpr.Mentions (.and es) m
  | or {es : List ShapeExpr} {e : ShapeExpr} {m : Mention} (he : e ∈ es) (h : e.Mentions m) :
      ShapeExpr.Mentions (.or es) m
  | not {e : ShapeExpr} {m : Mention} (h : e.Mentions m) : ShapeExpr.Mentions (.not e) m
  | shape {x : Shape} {m : Mention} (h : x.expr.Mentions m) : ShapeExpr.Mentions (.shape x) m
  | ref (l : Label) : ShapeExpr.Mentions (.ref l) (.shape l)

inductive TripleExpr.Mentions : TripleExpr → Mention → Prop
  | value {c : TripleConstraint} {v : ShapeExpr} {m : Mention} (hc : c.value = some v)
      (h : v.Mentions m) : TripleExpr.Mentions (.constraint c) m
  | eachOf {es : List TripleExpr} {e : TripleExpr} {card : Cardinality} {m : Mention}
      (he : e ∈ es) (h : e.Mentions m) : TripleExpr.Mentions (.eachOf es card) m
  | oneOf {es : List TripleExpr} {e : TripleExpr} {card : Cardinality} {m : Mention}
      (he : e ∈ es) (h : e.Mentions m) : TripleExpr.Mentions (.oneOf es card) m
  | ref (l : Label) : TripleExpr.Mentions (.ref l) (.tripleExpr l)
end

section Mentions

variable {m : Mention}

@[simp]
theorem ShapeExpr.mentions_and {es : List ShapeExpr} :
    ShapeExpr.Mentions (.and es) m ↔ ∃ e ∈ es, e.Mentions m :=
  ⟨fun h => by cases h with | and he h => exact ⟨_, he, h⟩, fun ⟨_, he, h⟩ => .and he h⟩

@[simp]
theorem ShapeExpr.mentions_or {es : List ShapeExpr} :
    ShapeExpr.Mentions (.or es) m ↔ ∃ e ∈ es, e.Mentions m :=
  ⟨fun h => by cases h with | or he h => exact ⟨_, he, h⟩, fun ⟨_, he, h⟩ => .or he h⟩

@[simp]
theorem ShapeExpr.mentions_not {e : ShapeExpr} : ShapeExpr.Mentions (.not e) m ↔ e.Mentions m :=
  ⟨fun h => by cases h with | not h => exact h, .not⟩

@[simp]
theorem ShapeExpr.mentions_shape {x : Shape} :
    ShapeExpr.Mentions (.shape x) m ↔ x.expr.Mentions m :=
  ⟨fun h => by cases h with | shape h => exact h, .shape⟩

@[simp]
theorem ShapeExpr.mentions_ref {l : Label} : ShapeExpr.Mentions (.ref l) m ↔ m = .shape l :=
  ⟨fun h => by cases h; rfl, fun h => h ▸ .ref l⟩

@[simp]
theorem ShapeExpr.not_mentions_node {c : NodeConstraint} : ¬ ShapeExpr.Mentions (.node c) m :=
  nofun

@[simp]
theorem ShapeExpr.not_mentions_external : ¬ ShapeExpr.Mentions .external m := nofun

@[simp]
theorem TripleExpr.mentions_constraint {c : TripleConstraint} :
    TripleExpr.Mentions (.constraint c) m ↔ ∃ v, c.value = some v ∧ v.Mentions m :=
  ⟨fun h => by cases h with | value hc h => exact ⟨_, hc, h⟩, fun ⟨_, hc, h⟩ => .value hc h⟩

@[simp]
theorem TripleExpr.mentions_eachOf {es : List TripleExpr} {card : Cardinality} :
    TripleExpr.Mentions (.eachOf es card) m ↔ ∃ e ∈ es, e.Mentions m :=
  ⟨fun h => by cases h with | eachOf he h => exact ⟨_, he, h⟩, fun ⟨_, he, h⟩ => .eachOf he h⟩

@[simp]
theorem TripleExpr.mentions_oneOf {es : List TripleExpr} {card : Cardinality} :
    TripleExpr.Mentions (.oneOf es card) m ↔ ∃ e ∈ es, e.Mentions m :=
  ⟨fun h => by cases h with | oneOf he h => exact ⟨_, he, h⟩, fun ⟨_, he, h⟩ => .oneOf he h⟩

@[simp]
theorem TripleExpr.mentions_ref {l : Label} : TripleExpr.Mentions (.ref l) m ↔ m = .tripleExpr l :=
  ⟨fun h => by cases h; rfl, fun h => h ▸ .ref l⟩

@[simp]
theorem TripleExpr.not_mentions_empty : ¬ TripleExpr.Mentions .empty m := nofun

end Mentions

/-! ### Collected references -/

mutual
/-- The references to shapes that are collected are all that there are. -/
theorem ShapeExpr.mem_references {l : Label} : (e : ShapeExpr) →
    (l ∈ e.references ↔ e.Mentions (.shape l))
  | .and es => by
    rw [ShapeExpr.references, ShapeExpr.mem_referencesOfList es, ShapeExpr.mentions_and]
  | .or es => by
    rw [ShapeExpr.references, ShapeExpr.mem_referencesOfList es, ShapeExpr.mentions_or]
  | .not e => by rw [ShapeExpr.references, ShapeExpr.mem_references e, ShapeExpr.mentions_not]
  | .node _ => by simp [ShapeExpr.references]
  | .shape ⟨_, _, e, _⟩ => by
    rw [ShapeExpr.references, TripleExpr.mem_valueReferences_iff e, ShapeExpr.mentions_shape]
  | .external => by simp [ShapeExpr.references]
  | .ref r => by simp [ShapeExpr.references]

theorem ShapeExpr.mem_referencesOfList {l : Label} : (es : List ShapeExpr) →
    (l ∈ ShapeExpr.referencesOfList es ↔ ∃ e ∈ es, e.Mentions (.shape l))
  | [] => by simp [ShapeExpr.referencesOfList]
  | e :: es => by
    rw [ShapeExpr.referencesOfList, List.mem_append, ShapeExpr.mem_references e,
      ShapeExpr.mem_referencesOfList es, List.exists_mem_cons_iff]

theorem TripleExpr.mem_valueReferences_iff {l : Label} : (e : TripleExpr) →
    (l ∈ e.valueReferences ↔ e.Mentions (.shape l))
  | .constraint ⟨_, none, _, _, _⟩ => by
    simp [TripleExpr.valueReferences, TripleConstraint.valueReferences]
  | .constraint ⟨_, some v, _, _, _⟩ => by
    simp [TripleExpr.valueReferences, TripleConstraint.valueReferences, ShapeExpr.mem_references v]
  | .eachOf es _ => by
    rw [TripleExpr.valueReferences, TripleExpr.mem_valueReferencesOfList_iff es,
      TripleExpr.mentions_eachOf]
  | .oneOf es _ => by
    rw [TripleExpr.valueReferences, TripleExpr.mem_valueReferencesOfList_iff es,
      TripleExpr.mentions_oneOf]
  | .ref _ => by simp [TripleExpr.valueReferences]
  | .empty => by simp [TripleExpr.valueReferences]

theorem TripleExpr.mem_valueReferencesOfList_iff {l : Label} : (es : List TripleExpr) →
    (l ∈ TripleExpr.valueReferencesOfList es ↔ ∃ e ∈ es, e.Mentions (.shape l))
  | [] => by simp [TripleExpr.valueReferencesOfList]
  | e :: es => by
    rw [TripleExpr.valueReferencesOfList, List.mem_append, TripleExpr.mem_valueReferences_iff e,
      TripleExpr.mem_valueReferencesOfList_iff es, List.exists_mem_cons_iff]
end

mutual
/-- Without inline values the references between triple expressions that are collected are all that
there are. -/
theorem TripleExpr.mem_references {l : Label} : (e : TripleExpr) → e.inlineValues = 0 →
    (l ∈ e.references ↔ e.Mentions (.tripleExpr l))
  | .constraint c, he => by
    rw [TripleExpr.references, TripleExpr.mentions_constraint]
    refine ⟨nofun, ?_⟩
    rintro ⟨v, hv, hm⟩
    obtain ⟨r, rfl⟩ := TripleConstraint.eq_ref_of_inlineValues hv he
    cases hm
  | .eachOf es _, he => by
    rw [TripleExpr.references, TripleExpr.mem_referencesOfList es he, TripleExpr.mentions_eachOf]
  | .oneOf es _, he => by
    rw [TripleExpr.references, TripleExpr.mem_referencesOfList es he, TripleExpr.mentions_oneOf]
  | .ref r, _ => by simp [TripleExpr.references]
  | .empty, _ => by simp [TripleExpr.references]

theorem TripleExpr.mem_referencesOfList {l : Label} : (es : List TripleExpr) →
    TripleExpr.inlineValuesOfList es = 0 →
    (l ∈ TripleExpr.referencesOfList es ↔ ∃ e ∈ es, e.Mentions (.tripleExpr l))
  | [], _ => by simp [TripleExpr.referencesOfList]
  | e :: es, he => by
    rw [TripleExpr.inlineValuesOfList, Nat.add_eq_zero_iff] at he
    rw [TripleExpr.referencesOfList, List.mem_append, TripleExpr.mem_references e he.1,
      TripleExpr.mem_referencesOfList es he.2, List.exists_mem_cons_iff]
end

mutual
theorem ShapeExpr.mem_tripleReferences {l : Label} : (e : ShapeExpr) → e.inlineValues = 0 →
    (l ∈ e.tripleReferences ↔ e.Mentions (.tripleExpr l))
  | .and es, he => by
    rw [ShapeExpr.tripleReferences, ShapeExpr.mem_tripleReferencesOfList es he,
      ShapeExpr.mentions_and]
  | .or es, he => by
    rw [ShapeExpr.tripleReferences, ShapeExpr.mem_tripleReferencesOfList es he,
      ShapeExpr.mentions_or]
  | .not e, he => by
    rw [ShapeExpr.tripleReferences, ShapeExpr.mem_tripleReferences e he, ShapeExpr.mentions_not]
  | .node _, _ => by simp [ShapeExpr.tripleReferences]
  | .shape ⟨_, _, e, _⟩, he => by
    rw [ShapeExpr.tripleReferences, TripleExpr.mem_references e he, ShapeExpr.mentions_shape]
  | .external, _ => by simp [ShapeExpr.tripleReferences]
  | .ref _, _ => by simp [ShapeExpr.tripleReferences]

theorem ShapeExpr.mem_tripleReferencesOfList {l : Label} : (es : List ShapeExpr) →
    ShapeExpr.inlineValuesOfList es = 0 →
    (l ∈ ShapeExpr.tripleReferencesOfList es ↔ ∃ e ∈ es, e.Mentions (.tripleExpr l))
  | [], _ => by simp [ShapeExpr.tripleReferencesOfList]
  | e :: es, he => by
    rw [ShapeExpr.inlineValuesOfList, Nat.add_eq_zero_iff] at he
    rw [ShapeExpr.tripleReferencesOfList, List.mem_append, ShapeExpr.mem_tripleReferences e he.1,
      ShapeExpr.mem_tripleReferencesOfList es he.2, List.exists_mem_cons_iff]
end

/-! ### Hoisting keeps references -/

section Hoisting

variable {m : Mention}

mutual
/-- **Hoisting keeps references** and adds those to the new labels. -/
theorem ShapeExpr.HoistsTo.mentions_iff : {e e' : ShapeExpr} → {ds : List (Label × ShapeExpr)} →
    e.HoistsTo e' ds → ((e'.Mentions m ∨ ∃ p ∈ ds, p.2.Mentions m) ↔
      (e.Mentions m ∨ ∃ p ∈ ds, m = .shape p.1))
  | _, _, _, .and h => by
    rw [ShapeExpr.mentions_and, ShapeExpr.mentions_and]
    exact h.mentions_iff
  | _, _, _, .or h => by
    rw [ShapeExpr.mentions_or, ShapeExpr.mentions_or]
    exact h.mentions_iff
  | _, _, _, .not h => by
    rw [ShapeExpr.mentions_not, ShapeExpr.mentions_not]
    exact h.mentions_iff
  | _, _, _, .shape h => by
    rw [ShapeExpr.mentions_shape, ShapeExpr.mentions_shape]
    exact h.mentions_iff
  | _, _, _, .node _ => by simp
  | _, _, _, .external => by simp
  | _, _, _, .ref _ => by simp

theorem ShapeExpr.AllHoistTo.mentions_iff : {es es' : List ShapeExpr} →
    {ds : List (Label × ShapeExpr)} → ShapeExpr.AllHoistTo es es' ds →
    (((∃ e ∈ es', e.Mentions m) ∨ ∃ p ∈ ds, p.2.Mentions m) ↔
      ((∃ e ∈ es, e.Mentions m) ∨ ∃ p ∈ ds, m = .shape p.1))
  | _, _, _, .nil => by simp
  | _, _, _, .cons h hs => by
    have hfirst := h.mentions_iff
    have hrest := hs.mentions_iff
    simp only [List.exists_mem_cons_iff, List.mem_append, or_and_right, exists_or]
    rw [or_or_or_comm, hfirst, hrest, or_or_or_comm]

theorem TripleExpr.HoistsTo.mentions_iff : {e e' : TripleExpr} → {ds : List (Label × ShapeExpr)} →
    e.HoistsTo e' ds → ((e'.Mentions m ∨ ∃ p ∈ ds, p.2.Mentions m) ↔
      (e.Mentions m ∨ ∃ p ∈ ds, m = .shape p.1))
  | _, _, _, .constraint _ => by simp
  | _, _, _, .value l hc _ h => by
    have hvalue := h.mentions_iff
    simp only [TripleExpr.mentions_constraint, hc, Option.some.injEq, exists_eq_left',
      ShapeExpr.mentions_ref, List.exists_mem_cons_iff]
    rw [hvalue, or_left_comm]
  | _, _, _, .eachOf _ h => by
    rw [TripleExpr.mentions_eachOf, TripleExpr.mentions_eachOf]
    exact h.mentions_iff
  | _, _, _, .oneOf _ h => by
    rw [TripleExpr.mentions_oneOf, TripleExpr.mentions_oneOf]
    exact h.mentions_iff
  | _, _, _, .ref _ => by simp
  | _, _, _, .empty => by simp

theorem TripleExpr.AllHoistTo.mentions_iff : {es es' : List TripleExpr} →
    {ds : List (Label × ShapeExpr)} → TripleExpr.AllHoistTo es es' ds →
    (((∃ e ∈ es', e.Mentions m) ∨ ∃ p ∈ ds, p.2.Mentions m) ↔
      ((∃ e ∈ es, e.Mentions m) ∨ ∃ p ∈ ds, m = .shape p.1))
  | _, _, _, .nil => by simp
  | _, _, _, .cons h hs => by
    have hfirst := h.mentions_iff
    have hrest := hs.mentions_iff
    simp only [List.exists_mem_cons_iff, List.mem_append, or_and_right, exists_or]
    rw [or_or_or_comm, hfirst, hrest, or_or_or_comm]
end

end Hoisting

/-! ### Repeated labels -/

/-- A label that is found to be repeated is. -/
theorem firstDuplicate?_eq_some {ls : List Label} {l : Label} (h : firstDuplicate? ls = some l) :
    ls.Duplicate l := by
  -- a label that was seen is repeated if it comes again
  suffices hgo : ∀ seen ls, firstDuplicate?.go seen ls = some l → l ∈ ls ∧ l ∈ seen ∨
      ls.Duplicate l by
    exact (hgo [] ls h).resolve_left (by simp)
  intro seen ls
  induction ls generalizing seen with
  | nil => simp [firstDuplicate?.go]
  | cons r ls ih =>
    intro hgo
    rw [firstDuplicate?.go] at hgo
    split at hgo
    · rename_i hr
      cases hgo
      exact .inl ⟨List.mem_cons_self, hr⟩
    · rcases ih _ hgo with ⟨hmem, hseen⟩ | hdup
      · rcases List.mem_cons.1 hseen with rfl | hseen
        · exact .inr (.cons_mem hmem)
        · exact .inl ⟨List.mem_cons_of_mem _ hmem, hseen⟩
      · exact .inr (.cons_duplicate hdup)

/-! ### Well-formed definitions -/

namespace Definitions

variable {d h : Definitions} {ds : List (Label × ShapeExpr)} {m : Mention}

/-- Whether what is referred to is defined. -/
def Defines (d : Definitions) : Mention → Prop
  | .shape l => l ∈ d.shapes.map (·.1)
  | .tripleExpr l => l ∈ d.tripleExprs.map (·.1)

/-- What is referred to in some definition. -/
def Mentions (d : Definitions) (m : Mention) : Prop :=
  (∃ p ∈ d.shapes, p.2.Mentions m) ∨ ∃ p ∈ d.tripleExprs, p.2.Mentions m

/-- A reference from a labelled triple expression to another one. What a value refers to is referred
to by the shapes of the value. -/
def TripleEdge (d : Definitions) (a b : Label) : Prop :=
  ∃ e, (a, e) ∈ d.tripleExprs ∧ b ∈ e.references

def StartDefined (d : Definitions) : Prop := ∀ l, d.start = some l → d.Defines (.shape l)

def ReferencesDefined (d : Definitions) : Prop := ∀ m, d.Mentions m → d.Defines m

def TripleAcyclic (d : Definitions) : Prop := ∀ l, ¬ Relation.TransGen d.TripleEdge l l

/-- What definitions have to satisfy apart from being stratified. -/
structure WellFormed (d : Definitions) : Prop where
  nodup_shapes : (d.shapes.map (·.1)).Nodup
  nodup_tripleExprs : (d.tripleExprs.map (·.1)).Nodup
  startDefined : d.StartDefined
  referencesDefined : d.ReferencesDefined
  tripleAcyclic : d.TripleAcyclic

/-- An error that says what is violated first: that labels are distinct, that the start is defined,
that references are defined, that those between triple expressions have no cycle. -/
inductive FirstFault (d : Definitions) : SchemaError → Prop
  | duplicateShape {l : Label} (h : (d.shapes.map (·.1)).Duplicate l) :
      FirstFault d (.duplicateLabel l)
  | duplicateTripleExpr {l : Label} (hs : (d.shapes.map (·.1)).Nodup)
      (h : (d.tripleExprs.map (·.1)).Duplicate l) : FirstFault d (.duplicateLabel l)
  | undefinedStart {l : Label} (hs : (d.shapes.map (·.1)).Nodup)
      (ht : (d.tripleExprs.map (·.1)).Nodup) (h : d.start = some l) (hl : ¬ d.Defines (.shape l)) :
      FirstFault d (.undefinedStart l)
  | undefined {m : Mention} (referrer : Label) (hs : (d.shapes.map (·.1)).Nodup)
      (ht : (d.tripleExprs.map (·.1)).Nodup) (hstart : d.StartDefined) (h : d.Mentions m)
      (hm : ¬ d.Defines m) : FirstFault d (m.undefined referrer)
  | cyclicTripleExpr {a b : Label} (hs : (d.shapes.map (·.1)).Nodup)
      (ht : (d.tripleExprs.map (·.1)).Nodup) (hstart : d.StartDefined)
      (href : d.ReferencesDefined) (hedge : d.TripleEdge a b)
      (hcycle : Relation.ReflTransGen d.TripleEdge b a) : FirstFault d (.cyclicTripleExpr a b)

/-- The references between triple expressions do not depend on anything else. -/
theorem tripleEdge_congr (heq : h.tripleExprs.map (fun p => (p.1, p.2.references)) =
    d.tripleExprs.map fun p => (p.1, p.2.references)) : h.TripleEdge = d.TripleEdge := by
  have hedge : ∀ (d : Definitions) (a b : Label), d.TripleEdge a b ↔
      ∃ rs, (a, rs) ∈ d.tripleExprs.map (fun p => (p.1, p.2.references)) ∧ b ∈ rs := by
    intro d a b
    simp only [TripleEdge, List.mem_map, Prod.mk.injEq, Prod.exists]
    grind
  funext a b
  rw [hedge, hedge, heq]

/-- What definitions mention is among their labels. -/
theorem mem_labels_of_mentions {l : Label} (hm : d.Mentions (.shape l)) : l ∈ d.labels := by
  rw [mem_labels, ShapeExpr.mem_referencesOfList, TripleExpr.mem_valueReferencesOfList_iff]
  rcases hm with ⟨p, hp, hm⟩ | ⟨p, hp, hm⟩
  · exact .inl (.inr (.inl ⟨p.2, List.mem_map_of_mem hp, hm⟩))
  · exact .inr (.inl (.inr (.inl ⟨p.2, List.mem_map_of_mem hp, hm⟩)))

/-! ### Hoisted definitions -/

theorem exists_mem_zip {α β : Type} (as : List α) {bs : List β} (P : β → Prop)
    (h : bs.length = as.length) : (∃ p ∈ as.zip bs, P p.2) ↔ ∃ b ∈ bs, P b := by
  conv_rhs => rw [← List.map_snd_zip h.le]
  simp only [List.mem_map, exists_exists_and_eq_and]

namespace HoistsTo

theorem defines_iff (hto : d.HoistsTo h ds) :
    h.Defines m ↔ d.Defines m ∨ ∃ p ∈ ds, m = .shape p.1 := by
  cases m with
  | shape l =>
    rw [Defines, hto.labels_perm.mem_iff, List.mem_append, Defines]
    simp [eq_comm]
  | tripleExpr l =>
    obtain ⟨-, hxs, -, htriple, -⟩ := hto
    rw [Defines, htriple, List.map_fst_zip (by rw [hxs.length]; simp), Defines]
    simp

theorem mentions_iff (hto : d.HoistsTo h ds) :
    h.Mentions m ↔ d.Mentions m ∨ ∃ p ∈ ds, m = .shape p.1 := by
  obtain ⟨hes, hxs, hperm, htriple, -⟩ := hto
  have hshapes := hes.mentions_iff (m := m)
  have htriples := hxs.mentions_iff (m := m)
  simp only [List.mem_map, exists_exists_and_eq_and] at hshapes htriples
  have hzip := exists_mem_zip (d.shapes.map (·.1)) (·.Mentions m) (hes.length.trans (by simp))
  have hzip' := exists_mem_zip (d.tripleExprs.map (·.1)) (·.Mentions m)
    (hxs.length.trans (by simp))
  rw [Mentions, Mentions, htriple, hzip']
  simp only [hperm.mem_iff, List.mem_append, or_and_right, exists_or]
  -- the new definitions go with the expressions that had them as values
  have hsort : ∀ p q r t : Prop, (p ∨ q ∨ r) ∨ t ↔ (p ∨ q) ∨ t ∨ r := by
    intro p q r t
    rw [← or_assoc, or_assoc, or_comm (a := r)]
  rw [hzip, hsort, hshapes, htriples, or_or_or_comm]

/-- **Hoisting keeps the references that are not defined.** -/
theorem undefined_iff (hto : d.HoistsTo h ds) (hfresh : ∀ l ∈ ds.map (·.1), l ∉ d.labels) :
    h.Mentions m ∧ ¬ h.Defines m ↔ d.Mentions m ∧ ¬ d.Defines m := by
  rw [hto.mentions_iff, hto.defines_iff, not_or]
  refine ⟨fun ⟨hm, hd, hnew⟩ => ⟨hm.resolve_right hnew, hd⟩, fun ⟨hm, hd⟩ => ⟨.inl hm, hd, ?_⟩⟩
  rintro ⟨p, hp, rfl⟩
  exact hfresh p.1 (List.mem_map_of_mem hp) (mem_labels_of_mentions hm)

theorem startDefined_iff (hto : d.HoistsTo h ds) (hfresh : ∀ l ∈ ds.map (·.1), l ∉ d.labels) :
    h.StartDefined ↔ d.StartDefined := by
  have hstart : h.start = d.start := by
    cases hto
    assumption
  rw [StartDefined, StartDefined, hstart]
  refine forall₂_congr fun l hl => ?_
  rw [hto.defines_iff, or_iff_left]
  rintro ⟨p, hp, hlp⟩
  cases hlp
  exact hfresh p.1 (List.mem_map_of_mem hp) (mem_labels.2 (.inr (.inr hl)))

/-- Hoisting keeps the references of triple expressions. -/
theorem map_references_eq (hto : d.HoistsTo h ds) :
    h.tripleExprs.map (fun p => (p.1, p.2.references)) =
      d.tripleExprs.map fun p => (p.1, p.2.references) := by
  obtain ⟨-, hxs, -, htriple, -⟩ := hto
  rename_i es xs ds ds'
  rw [htriple]
  generalize d.tripleExprs = defs at hxs
  clear htriple
  induction defs generalizing xs ds' with
  | nil => rfl
  | cons p defs ih =>
    rw [List.map_cons] at hxs
    cases hxs with
    | cons h hs => simp [h.references_eq, ih hs]

theorem tripleEdge_eq (hto : d.HoistsTo h ds) : h.TripleEdge = d.TripleEdge :=
  tripleEdge_congr hto.map_references_eq

end HoistsTo

/-! ### Checks -/

/-- What is reported: an undefined start and references to what is not defined. -/
theorem mem_referenceErrors {err : SchemaError}
    (hshapes : ∀ p ∈ d.shapes, p.2.inlineValues = 0)
    (htriples : ∀ p ∈ d.tripleExprs, p.2.inlineValues = 0) : err ∈ d.referenceErrors ↔
    (∃ l, d.start = some l ∧ ¬ d.Defines (.shape l) ∧ err = .undefinedStart l) ∨
    (∃ p ∈ d.shapes, ∃ m, p.2.Mentions m ∧ ¬ d.Defines m ∧ err = m.undefined p.1) ∨
    ∃ p ∈ d.tripleExprs, ∃ m, p.2.Mentions m ∧ ¬ d.Defines m ∧ err = m.undefined p.1 := by
  have hshape : ∀ p ∈ d.shapes, ∀ l,
      (l ∈ p.2.tripleReferences ↔ p.2.Mentions (.tripleExpr l)) :=
    fun p hp l => ShapeExpr.mem_tripleReferences p.2 (hshapes p hp)
  have htriple : ∀ p ∈ d.tripleExprs, ∀ l, (l ∈ p.2.references ↔ p.2.Mentions (.tripleExpr l)) :=
    fun p hp l => TripleExpr.mem_references p.2 (htriples p hp)
  simp only [referenceErrors, List.mem_append, List.mem_map, List.mem_filter, List.mem_flatMap,
    Option.mem_toList, decide_eq_true_eq, or_assoc, and_assoc, ShapeExpr.mem_references,
    TripleExpr.mem_valueReferences_iff, Mention.exists, Mention.undefined, Defines,
    eq_comm (b := err)]
  refine or_congr Iff.rfl (or_congr ?_ ?_)
  · exact exists_congr fun p => and_congr_right fun hp => by simp only [hshape p hp]
  · exact exists_congr fun p => and_congr_right fun hp => by simp only [htriple p hp]

/-- **There is nothing to report** if the start and all references are defined. -/
theorem referenceErrors_eq_nil_iff (hshapes : ∀ p ∈ d.shapes, p.2.inlineValues = 0)
    (htriples : ∀ p ∈ d.tripleExprs, p.2.inlineValues = 0) :
    d.referenceErrors = [] ↔ d.StartDefined ∧ d.ReferencesDefined := by
  rw [List.eq_nil_iff_forall_not_mem]
  simp only [mem_referenceErrors hshapes htriples]
  constructor
  · intro hnone
    refine ⟨fun l hl => ?_, ?_⟩
    · by_contra hundefined
      exact hnone _ (.inl ⟨l, hl, hundefined, rfl⟩)
    · rintro m (⟨p, hp, hm⟩ | ⟨p, hp, hm⟩)
      · by_contra hundefined
        exact hnone _ (.inr (.inl ⟨p, hp, m, hm, hundefined, rfl⟩))
      · by_contra hundefined
        exact hnone _ (.inr (.inr ⟨p, hp, m, hm, hundefined, rfl⟩))
  · rintro ⟨hstart, href⟩ err (⟨l, hl, hn, -⟩ | ⟨p, hp, m, hm, hn, -⟩ | ⟨p, hp, m, hm, hn, -⟩)
    · exact hn (hstart l hl)
    · exact hn (href m (.inl ⟨p, hp, hm⟩))
    · exact hn (href m (.inr ⟨p, hp, hm⟩))

/-- An undefined start is reported first. -/
theorem head?_referenceErrors {l : Label} (hstart : d.start = some l)
    (hl : ¬ d.Defines (.shape l)) : d.referenceErrors.head? = some (.undefinedStart l) := by
  have hnot : l ∉ d.shapes.map (·.1) := hl
  simp [referenceErrors, hstart, hnot]

/-- The successors of a label in the search for a cycle. -/
theorem mem_tripleSuccessors (hn : (d.tripleExprs.map (·.1)).Nodup) {a b : Label} :
    b ∈ tripleSuccessors d.tripleExprs a ↔ d.TripleEdge a b := by
  unfold tripleSuccessors
  constructor
  · intro hb
    cases he : d.tripleExprs.lookup a with
    | none => simp [he] at hb
    | some e => exact ⟨e, mem_of_lookup_eq_some he, by simpa [he] using hb⟩
  · rintro ⟨e, he, hb⟩
    simpa [lookup_eq_some_of_mem hn he] using hb

theorem tripleSuccessors_eq_tripleEdge (hn : (d.tripleExprs.map (·.1)).Nodup) :
    (fun a b => b ∈ tripleSuccessors d.tripleExprs a) = d.TripleEdge := by
  funext a b
  exact propext (mem_tripleSuccessors hn)

/-- **A cycle that is reported** is one: the edge leads to a label that reaches where it starts. -/
theorem cycle?_eq_some {a b : Label} (hn : (d.tripleExprs.map (·.1)).Nodup)
    (h : d.cycle? = some (a, b)) : d.TripleEdge a b ∧ Relation.ReflTransGen d.TripleEdge b a := by
  rw [cycle?] at h
  split at h
  · rename_i edge hedge
    cases h
    have hcycle := backEdge_error ⟨by simp, by simp⟩ hedge
    rw [← tripleSuccessors_eq_tripleEdge hn]
    exact hcycle
  · cases h

/-- **Every cycle is found.** -/
theorem tripleAcyclic_of_cycle? (hn : (d.tripleExprs.map (·.1)).Nodup)
    (h : d.cycle? = none) : d.TripleAcyclic := by
  intro l hl
  rw [← tripleSuccessors_eq_tripleEdge hn, ← Relation.transGen_swap] at hl
  exact (wellFounded_tripleSuccessors hn h).transGen.irrefl.irrefl l hl

theorem cycle?_eq_none_iff (hn : (d.tripleExprs.map (·.1)).Nodup) :
    d.cycle? = none ↔ d.TripleAcyclic := by
  refine ⟨tripleAcyclic_of_cycle? hn, fun hacyclic => ?_⟩
  by_contra hsome
  obtain ⟨⟨a, b⟩, hedge⟩ := Option.ne_none_iff_exists'.1 hsome
  obtain ⟨hab, hba⟩ := cycle?_eq_some hn hedge
  exact hacyclic a (.head' hab hba)

/-- Why a check fails: the first of its errors, or a cycle if there are none. -/
theorem check_eq_error {err : SchemaError} (h : d.check = .error err) :
    d.referenceErrors.head? = some err ∨ d.referenceErrors = [] ∧
      ∃ a b, d.cycle? = some (a, b) ∧ err = .cyclicTripleExpr a b := by
  unfold check at h
  split at h
  · rename_i e he
    cases h
    exact .inl he
  · rename_i hnil
    split at h
    · rename_i a b hab
      cases h
      exact .inr ⟨List.head?_eq_none_iff.1 hnil, a, b, hab, rfl⟩
    · cases h

/-! ### Checks of hoisted definitions -/

theorem HoistsTo.referencesDefined_iff (hto : d.HoistsTo h ds)
    (hfresh : ∀ l ∈ ds.map (·.1), l ∉ d.labels) : h.ReferencesDefined ↔ d.ReferencesDefined := by
  have hiff := fun m => hto.undefined_iff hfresh (m := m)
  constructor
  · intro href m hm
    by_contra hundefined
    obtain ⟨hm', hundefined'⟩ := (hiff m).2 ⟨hm, hundefined⟩
    exact hundefined' (href m hm')
  · intro href m hm
    by_contra hundefined
    obtain ⟨hm', hundefined'⟩ := (hiff m).1 ⟨hm, hundefined⟩
    exact hundefined' (href m hm')

/-- **What a build checks** after hoisting is that definitions are well-formed as written. -/
theorem checked_iff_wellFormed : d.Checked ↔ d.WellFormed := by
  obtain ⟨ds, hto, -, hfresh⟩ := d.hoistsTo_hoist
  have href : d.hoist.referenceErrors = [] ↔ d.StartDefined ∧ d.ReferencesDefined := by
    rw [referenceErrors_eq_nil_iff (fun p hp => inlineValues_hoist_shapes (l := p.1) hp)
      (fun p hp => inlineValues_hoist_tripleExprs (l := p.1) hp), hto.startDefined_iff hfresh,
      hto.referencesDefined_iff hfresh]
  have hcycle : (d.tripleExprs.map (·.1)).Nodup → (d.hoist.cycle? = none ↔ d.TripleAcyclic) := by
    intro hn
    rw [cycle?_eq_none_iff (hn.sublist d.hoist_tripleExprs_labels_sublist), TripleAcyclic,
      hto.tripleEdge_eq, TripleAcyclic]
  constructor
  · intro hchecked
    obtain ⟨hstart, hrefs⟩ := href.1 hchecked.referenceErrors
    exact ⟨hchecked.nodup_shapes, hchecked.nodup_tripleExprs, hstart, hrefs,
      (hcycle hchecked.nodup_tripleExprs).1 hchecked.acyclic⟩
  · intro hwf
    exact ⟨hwf.nodup_shapes, hwf.nodup_tripleExprs,
      href.2 ⟨hwf.startDefined, hwf.referencesDefined⟩,
      (hcycle hwf.nodup_tripleExprs).2 hwf.tripleAcyclic⟩

/-! ### Building -/

/-- **What fails is what is violated first**, if labels are distinct. -/
theorem firstFault_of_check {err : SchemaError} (hs : (d.shapes.map (·.1)).Nodup)
    (ht : (d.tripleExprs.map (·.1)).Nodup) (h : d.hoist.check = .error err) : d.FirstFault err := by
  obtain ⟨ds, hto, -, hfresh⟩ := d.hoistsTo_hoist
  have hshapes : ∀ p ∈ d.hoist.shapes, p.2.inlineValues = 0 :=
    fun p hp => inlineValues_hoist_shapes (l := p.1) hp
  have htriples : ∀ p ∈ d.hoist.tripleExprs, p.2.inlineValues = 0 :=
    fun p hp => inlineValues_hoist_tripleExprs (l := p.1) hp
  rcases check_eq_error h with hhead | ⟨hnil, a, b, hcycle, rfl⟩
  · by_cases hstart : d.StartDefined
    · -- with the start defined, it is a reference that is not
      have hundefined : ∀ m, d.hoist.Mentions m → ¬ d.hoist.Defines m → ∀ r,
          err = m.undefined r → d.FirstFault err := by
        rintro m hm hn r rfl
        obtain ⟨hm', hn'⟩ := (hto.undefined_iff hfresh).1 ⟨hm, hn⟩
        exact .undefined r hs ht hstart hm' hn'
      rcases (mem_referenceErrors hshapes htriples).1 (List.mem_of_mem_head? hhead) with
        ⟨l, hl, hn, -⟩ | ⟨p, hp, m, hm, hn, herr⟩ | ⟨p, hp, m, hm, hn, herr⟩
      · exact absurd ((hto.startDefined_iff hfresh).2 hstart l hl) hn
      · exact hundefined m (.inl ⟨p, hp, hm⟩) hn p.1 herr
      · exact hundefined m (.inr ⟨p, hp, hm⟩) hn p.1 herr
    · rw [← hto.startDefined_iff hfresh, StartDefined] at hstart
      push Not at hstart
      obtain ⟨l, hl, hn⟩ := hstart
      obtain rfl : SchemaError.undefinedStart l = err :=
        Option.some.inj ((head?_referenceErrors hl hn).symm.trans hhead)
      exact .undefinedStart hs ht hl fun hd => hn (hto.defines_iff.2 (.inl hd))
  · obtain ⟨hstart, href⟩ := (referenceErrors_eq_nil_iff hshapes htriples).1 hnil
    obtain ⟨hab, hba⟩ := cycle?_eq_some (ht.sublist d.hoist_tripleExprs_labels_sublist) hcycle
    rw [hto.tripleEdge_eq] at hab hba
    exact .cyclicTripleExpr hs ht ((hto.startDefined_iff hfresh).1 hstart)
      ((hto.referencesDefined_iff hfresh).1 href) hab hba

/-- **Definitions that are not well-formed** are rejected with an error that says what is violated
first. -/
theorem build_eq_error (h : ¬ d.WellFormed) : ∃ err, d.build = .error err ∧ d.FirstFault err := by
  cases hs : firstDuplicate? (d.shapes.map (·.1)) with
  | some l =>
    refine ⟨.duplicateLabel l, ?_, .duplicateShape (firstDuplicate?_eq_some hs)⟩
    rw [build, hs]
    rfl
  | none =>
  have hnodup := firstDuplicate?_eq_none_iff.1 hs
  cases ht : firstDuplicate? (d.tripleExprs.map (·.1)) with
  | some l =>
    refine ⟨.duplicateLabel l, ?_, .duplicateTripleExpr hnodup (firstDuplicate?_eq_some ht)⟩
    rw [build, hs, ht]
    rfl
  | none =>
  cases hcheck : d.hoist.check with
  | ok u => exact absurd (checked_iff_wellFormed.1 (checked_iff.2 ⟨hs, ht, hcheck⟩)) h
  | error err =>
    refine ⟨err, ?_, firstFault_of_check hnodup (firstDuplicate?_eq_none_iff.1 ht) hcheck⟩
    rw [build, hs, ht]
    simp only [hcheck, bind, Except.bind]

/-- Definitions that are well-formed are built unless they are not stratified. -/
theorem WellFormed.build (h : d.WellFormed) : (∃ s, d.build = .ok s) ∨
    ∃ l t kind C, d.build = .error (.notStratified l t kind C) := by
  have hchecked := checked_iff_wellFormed.2 h
  by_cases hoffends : ∃ l t neg zero, d.hoist.Offends l t neg zero
  · obtain ⟨l, t, neg, zero, hoffends⟩ := hoffends
    exact .inr (hchecked.build_error hoffends)
  · push Not at hoffends
    exact .inl (hchecked.build_ok hoffends)

/-- **The checks of a build accept the well-formed definitions** and no others: a build comes to the
strata, which it finds or not, if and only if definitions are well-formed, and fails otherwise with
an error that says what is violated first. -/
theorem build_wellFormed (d : Definitions) :
    (((∃ s, d.build = .ok s) ∨ ∃ l t kind C, d.build = .error (.notStratified l t kind C)) ↔
      d.WellFormed) ∧
    (¬ d.WellFormed → ∃ err, d.build = .error err ∧ d.FirstFault err) := by
  refine ⟨⟨fun hreach => ?_, WellFormed.build⟩, build_eq_error⟩
  by_contra hwf
  obtain ⟨err, herr, hfault⟩ := build_eq_error hwf
  rcases hreach with ⟨s, hs⟩ | ⟨l, t, kind, C, hstrata⟩
  · cases hs.symm.trans herr
  · -- an error of the strata is not one of a check
    obtain rfl : SchemaError.notStratified l t kind C = err :=
      Except.error.inj (hstrata.symm.trans herr)
    generalize hnot : SchemaError.notStratified l t kind C = err at hfault
    cases hfault with
    | @undefined m => cases m <;> cases hnot
    | _ => cases hnot

end Definitions

/-- Two triple expressions that refer to each other and both to a third one. -/
def mutualReferences : Definitions where
  shapes := []
  tripleExprs := [
    (.iri ⟨"urn:E"⟩, .eachOf [.ref (.iri ⟨"urn:G"⟩), .ref (.iri ⟨"urn:F"⟩)] .one),
    (.iri ⟨"urn:F"⟩, .eachOf [.ref (.iri ⟨"urn:G"⟩), .ref (.iri ⟨"urn:E"⟩)] .one),
    (.iri ⟨"urn:G"⟩, .empty)]
  start := none

/-- The shared reference is no cycle. The edge back to the first triple expression is. -/
theorem Definitions.build_wellFormed_mutualReferences :
    mutualReferences.build = .error (.cyclicTripleExpr (.iri ⟨"urn:F"⟩) (.iri ⟨"urn:E"⟩)) ∧
      mutualReferences.FirstFault (.cyclicTripleExpr (.iri ⟨"urn:F"⟩) (.iri ⟨"urn:E"⟩)) ∧
      ¬ mutualReferences.WellFormed := by
  have hbuild : mutualReferences.build =
      .error (.cyclicTripleExpr (.iri ⟨"urn:F"⟩) (.iri ⟨"urn:E"⟩)) := by cbv
  obtain ⟨hreach, hfault⟩ := Definitions.build_wellFormed mutualReferences
  have hwf : ¬ mutualReferences.WellFormed := by
    rw [← hreach, hbuild]
    simp
  obtain ⟨err, herr, hfirst⟩ := hfault hwf
  obtain rfl := Except.error.inj (hbuild.symm.trans herr)
  exact ⟨hbuild, hfirst, hwf⟩

end ShapeTyping
