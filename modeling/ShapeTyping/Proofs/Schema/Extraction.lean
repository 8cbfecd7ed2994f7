import Mathlib
import ShapeTyping.Proofs.Schema.WellFormed

/-!
# Values as definitions of their own

An inline value can as well be written as a definition with a label that is new. What is hoisted is
the same then, up to the order of the definitions and with the new label for a generated one.

* `ShapeExpr.Extracts`, `TripleExpr.Extracts`: one inline value is replaced by a reference.
* `Definitions.Extracts`, `Definitions.insertShape`: the same in definitions, and the definition
  that is added.
* `ShapeExpr.Extracts.hoistsTo`: a hoisted form of the expression afterwards is one of the
  expression before.
* `Definitions.Extracts.hoistsTo`: the same of definitions.
* `Definitions.Extracts.wellFormed_iff`: definitions are well-formed before if they are afterwards.
-/

namespace ShapeTyping

mutual
/-- `e.Extracts p e'` says that one inline value of `e`, at any depth, is a reference in `e'`: `p`
has the label that it refers to and the value. -/
inductive ShapeExpr.Extracts (p : Label × ShapeExpr) : ShapeExpr → ShapeExpr → Prop
  | and {pre post : List ShapeExpr} {e e' : ShapeExpr} (h : ShapeExpr.Extracts p e e') :
      ShapeExpr.Extracts p (.and (pre ++ e :: post)) (.and (pre ++ e' :: post))
  | or {pre post : List ShapeExpr} {e e' : ShapeExpr} (h : ShapeExpr.Extracts p e e') :
      ShapeExpr.Extracts p (.or (pre ++ e :: post)) (.or (pre ++ e' :: post))
  | not {e e' : ShapeExpr} (h : ShapeExpr.Extracts p e e') :
      ShapeExpr.Extracts p (.not e) (.not e')
  | shape {x : Shape} {e : TripleExpr} (h : TripleExpr.Extracts p x.expr e) :
      ShapeExpr.Extracts p (.shape x) (.shape { x with expr := e })

inductive TripleExpr.Extracts (p : Label × ShapeExpr) : TripleExpr → TripleExpr → Prop
  | value {c : TripleConstraint} (hc : c.value = some p.2) (hv : p.2.isRef = false) :
      TripleExpr.Extracts p (.constraint c) (.constraint { c with value := some (.ref p.1) })
  | inside {c : TripleConstraint} {w w' : ShapeExpr} (hc : c.value = some w)
      (h : ShapeExpr.Extracts p w w') :
      TripleExpr.Extracts p (.constraint c) (.constraint { c with value := some w' })
  | eachOf {pre post : List TripleExpr} {e e' : TripleExpr} (card : Cardinality)
      (h : TripleExpr.Extracts p e e') :
      TripleExpr.Extracts p (.eachOf (pre ++ e :: post) card) (.eachOf (pre ++ e' :: post) card)
  | oneOf {pre post : List TripleExpr} {e e' : TripleExpr} (card : Cardinality)
      (h : TripleExpr.Extracts p e e') :
      TripleExpr.Extracts p (.oneOf (pre ++ e :: post) card) (.oneOf (pre ++ e' :: post) card)
end

variable {p : Label × ShapeExpr}

/-- What has an inline value is no reference, and neither is what is left of it. -/
theorem ShapeExpr.Extracts.isRef {e e' : ShapeExpr} (h : e.Extracts p e') :
    e.isRef = false ∧ e'.isRef = false := by
  cases h <;> exact ⟨rfl, rfl⟩

/-! ### What is hoisted -/

theorem TripleExpr.AllHoistTo.append {es fs es' fs' : List TripleExpr}
    {ds ds' : List (Label × ShapeExpr)} (h : TripleExpr.AllHoistTo es es' ds)
    (h' : TripleExpr.AllHoistTo fs fs' ds') :
    TripleExpr.AllHoistTo (es ++ fs) (es' ++ fs') (ds ++ ds') := by
  induction es generalizing es' ds with
  | nil => cases h; exact h'
  | cons e es ih =>
    cases h with
    | cons h hs =>
      rw [List.append_assoc]
      exact .cons h (ih hs)

theorem TripleExpr.AllHoistTo.of_append {es fs gs : List TripleExpr}
    {ds : List (Label × ShapeExpr)} (h : TripleExpr.AllHoistTo (es ++ fs) gs ds) :
    ∃ es' fs' ds₁ ds₂, gs = es' ++ fs' ∧ ds = ds₁ ++ ds₂ ∧
      TripleExpr.AllHoistTo es es' ds₁ ∧ TripleExpr.AllHoistTo fs fs' ds₂ := by
  induction es generalizing gs ds with
  | nil => exact ⟨[], gs, [], ds, rfl, rfl, .nil, h⟩
  | cons e es ih =>
    cases h with
    | @cons _ e' _ _ ds₀ _ h hs =>
      obtain ⟨es', fs', ds₁, ds₂, rfl, rfl, h₁, h₂⟩ := ih hs
      exact ⟨e' :: es', fs', ds₀ ++ ds₁, ds₂, rfl, by simp, .cons h h₁, h₂⟩

/-- Definitions that are added in the middle may as well come first. -/
theorem perm_append_middle {α : Type} {ys zs new : List α} (before after : List α)
    (h : ys.Perm (new ++ zs)) :
    (before ++ (ys ++ after)).Perm (new ++ (before ++ (zs ++ after))) := by
  refine ((h.append_right after).append_left before).trans ?_
  have hcomm : (before ++ new).Perm (new ++ before) := List.perm_append_comm
  simpa only [List.append_assoc] using hcomm.append_right (zs ++ after)

section Hoisting

variable {new : List (Label × ShapeExpr)}

/-- A hoisted form of `e'` is one of `e`, with some new definitions. -/
def ShapeExpr.HoistsLike (new : List (Label × ShapeExpr)) (e e' : ShapeExpr) : Prop :=
  ∀ h ds, e'.HoistsTo h ds → ∃ ds', e.HoistsTo h ds' ∧ ds'.Perm (new ++ ds)

def TripleExpr.HoistsLike (new : List (Label × ShapeExpr)) (e e' : TripleExpr) : Prop :=
  ∀ h ds, e'.HoistsTo h ds → ∃ ds', e.HoistsTo h ds' ∧ ds'.Perm (new ++ ds)

theorem ShapeExpr.HoistsLike.all {pre post : List ShapeExpr} {e e' : ShapeExpr}
    (hlike : ShapeExpr.HoistsLike new e e') {hs : List ShapeExpr} {ds : List (Label × ShapeExpr)}
    (h : ShapeExpr.AllHoistTo (pre ++ e' :: post) hs ds) :
    ∃ ds', ShapeExpr.AllHoistTo (pre ++ e :: post) hs ds' ∧ ds'.Perm (new ++ ds) := by
  obtain ⟨_, _, _, _, rfl, rfl, hpre, hrest⟩ := h.of_append
  cases hrest with
  | cons hmid hpost =>
    obtain ⟨ds', hto, hperm⟩ := hlike _ _ hmid
    exact ⟨_, hpre.append (.cons hto hpost), perm_append_middle _ _ hperm⟩

theorem TripleExpr.HoistsLike.all {pre post : List TripleExpr} {e e' : TripleExpr}
    (hlike : TripleExpr.HoistsLike new e e') {hs : List TripleExpr}
    {ds : List (Label × ShapeExpr)} (h : TripleExpr.AllHoistTo (pre ++ e' :: post) hs ds) :
    ∃ ds', TripleExpr.AllHoistTo (pre ++ e :: post) hs ds' ∧ ds'.Perm (new ++ ds) := by
  obtain ⟨_, _, _, _, rfl, rfl, hpre, hrest⟩ := h.of_append
  cases hrest with
  | cons hmid hpost =>
    obtain ⟨ds', hto, hperm⟩ := hlike _ _ hmid
    exact ⟨_, hpre.append (.cons hto hpost), perm_append_middle _ _ hperm⟩

variable {v' : ShapeExpr} {dv : List (Label × ShapeExpr)}

mutual
/-- **A hoisted form of what is left** is one of the expression before: the definition of the value
is among the new ones there, with the label that was given to it. -/
theorem ShapeExpr.Extracts.hoistsTo (hv : p.2.HoistsTo v' dv) : {e e' : ShapeExpr} →
    e.Extracts p e' → ShapeExpr.HoistsLike ((p.1, v') :: dv) e e'
  | _, _, .and h => by
    intro _ _ hto
    cases hto with
    | and hto =>
      obtain ⟨ds', hall, hperm⟩ := (ShapeExpr.Extracts.hoistsTo hv h).all hto
      exact ⟨ds', .and hall, hperm⟩
  | _, _, .or h => by
    intro _ _ hto
    cases hto with
    | or hto =>
      obtain ⟨ds', hall, hperm⟩ := (ShapeExpr.Extracts.hoistsTo hv h).all hto
      exact ⟨ds', .or hall, hperm⟩
  | _, _, .not h => by
    intro _ _ hto
    cases hto with
    | not hto =>
      obtain ⟨ds', hall, hperm⟩ := ShapeExpr.Extracts.hoistsTo hv h _ _ hto
      exact ⟨ds', .not hall, hperm⟩
  | _, _, .shape h => by
    intro _ _ hto
    cases hto with
    | shape hto =>
      obtain ⟨ds', hall, hperm⟩ := TripleExpr.Extracts.hoistsTo hv h _ _ hto
      exact ⟨ds', .shape hall, hperm⟩

theorem TripleExpr.Extracts.hoistsTo (hv : p.2.HoistsTo v' dv) : {e e' : TripleExpr} →
    e.Extracts p e' → TripleExpr.HoistsLike ((p.1, v') :: dv) e e'
  | _, _, .value hc hval => by
    intro _ _ hto
    cases hto with
    | constraint _ => exact ⟨_, .value p.1 hc hval hv, by simp⟩
    | value _ hc' hval' _ =>
      cases hc'
      cases hval'
  | _, _, @TripleExpr.Extracts.inside _ c w w' hc h => by
    intro _ _ hto
    cases hto with
    | constraint hzero =>
      -- what is left of the outer value is inline
      obtain ⟨r, rfl⟩ := TripleConstraint.eq_ref_of_inlineValues rfl hzero
      cases h.isRef.2
    | value r hc' _ hinner =>
      cases hc'
      obtain ⟨ds', hto, hperm⟩ := ShapeExpr.Extracts.hoistsTo hv h _ _ hinner
      exact ⟨_, .value r hc h.isRef.1 hto, (hperm.cons _).trans List.perm_middle.symm⟩
  | _, _, .eachOf card h => by
    intro _ _ hto
    cases hto with
    | eachOf _ hto =>
      obtain ⟨ds', hall, hperm⟩ := (TripleExpr.Extracts.hoistsTo hv h).all hto
      exact ⟨ds', .eachOf card hall, hperm⟩
  | _, _, .oneOf card h => by
    intro _ _ hto
    cases hto with
    | oneOf _ hto =>
      obtain ⟨ds', hall, hperm⟩ := (TripleExpr.Extracts.hoistsTo hv h).all hto
      exact ⟨ds', .oneOf card hall, hperm⟩
end

end Hoisting

/-! ### Definitions -/

namespace Definitions

/-- `d.Extracts p d'` says that one inline value in some definition of `d` is a reference in
`d'`. -/
inductive Extracts (p : Label × ShapeExpr) : Definitions → Definitions → Prop
  | shape {pre post : List (Label × ShapeExpr)} {name : Label} {e e' : ShapeExpr}
      (defs : List (Label × TripleExpr)) (start : Option Label) (h : e.Extracts p e') :
      Extracts p ⟨pre ++ (name, e) :: post, defs, start⟩ ⟨pre ++ (name, e') :: post, defs, start⟩
  | tripleExpr {pre post : List (Label × TripleExpr)} {name : Label} {e e' : TripleExpr}
      (shapes : List (Label × ShapeExpr)) (start : Option Label) (h : e.Extracts p e') :
      Extracts p ⟨shapes, pre ++ (name, e) :: post, start⟩
        ⟨shapes, pre ++ (name, e') :: post, start⟩

/-- Adds the definition of a shape after `i` others. -/
def insertShape (d : Definitions) (i : ℕ) (p : Label × ShapeExpr) : Definitions :=
  { d with shapes := d.shapes.take i ++ p :: d.shapes.drop i }

variable {d d' h : Definitions} {i : ℕ}

theorem insertShape_perm (d : Definitions) (i : ℕ) (p : Label × ShapeExpr) :
    (d.insertShape i p).shapes.Perm (p :: d.shapes) := by
  rw [insertShape]
  refine List.perm_middle.trans ?_
  rw [List.take_append_drop]

/-- A hoisted form with an added definition: one without it, and that of the definition. -/
theorem HoistsTo.of_insertShape {gs : List (Label × ShapeExpr)}
    (hto : (d.insertShape i p).HoistsTo h gs) : ∃ es xs v' dv ds ds', p.2.HoistsTo v' dv ∧
      ShapeExpr.AllHoistTo (d.shapes.map (·.2)) es ds ∧
      TripleExpr.AllHoistTo (d.tripleExprs.map (·.2)) xs ds' ∧
      h.shapes.Perm ((d.shapes.map (·.1)).zip es ++ ((p.1, v') :: dv ++ (ds ++ ds'))) ∧
      h.tripleExprs = (d.tripleExprs.map (·.1)).zip xs ∧ h.start = d.start ∧
      gs.Perm (dv ++ (ds ++ ds')) := by
  obtain ⟨hes, hxs, hperm, htriple, hstart⟩ := hto
  rename_i es xs ds ds'
  simp only [insertShape, List.map_append, List.map_cons] at hes hperm
  obtain ⟨es₁, es₂, ds₁, ds₂, rfl, rfl, hbefore, hrest⟩ := hes.of_append
  cases hrest with
  | @cons _ v' _ es₂ dv ds₂ hv hafter =>
  refine ⟨es₁ ++ es₂, xs, v', dv, ds₁ ++ ds₂, ds', hv, ?_, hxs, ?_, htriple, hstart, ?_⟩
  · rw [← List.take_append_drop i d.shapes, List.map_append]
    exact hbefore.append hafter
  · have hlen : (d.shapes.take i).length = es₁.length := by simp [hbefore.length]
    have hzip : (d.shapes.map (·.1)).zip (es₁ ++ es₂) =
        ((d.shapes.take i).map (·.1)).zip es₁ ++ ((d.shapes.drop i).map (·.1)).zip es₂ := by
      rw [← List.zip_append (by simpa using hlen), ← List.map_append, List.take_append_drop]
    rw [hzip]
    rw [List.zip_append (by simpa using hlen), List.zip_cons_cons] at hperm
    refine hperm.trans ?_
    simp only [← Multiset.coe_eq_coe, ← Multiset.coe_add, ← Multiset.cons_coe,
      ← Multiset.singleton_add]
    abel
  · simp only [← Multiset.coe_eq_coe, ← Multiset.coe_add]
    abel

/-- **A hoisted form with the value as a definition of its own** is one with the inline value. Its
new definitions have the new label for the value. -/
theorem Extracts.hoistsTo (hext : d.Extracts p d') {gs : List (Label × ShapeExpr)}
    (hto : (d'.insertShape i p).HoistsTo h gs) :
    ∃ ds, d.HoistsTo h ds ∧ (ds.map (·.1)).Perm (p.1 :: gs.map (·.1)) := by
  obtain ⟨es, xs, v', dv, ds, ds', hv, hes, hxs, hperm, htriple, hstart, hgs⟩ :=
    hto.of_insertShape
  -- the definition of the value is new, and so are those of the values inside of it
  have hlabels : ∀ new : List (Label × ShapeExpr), new.Perm ((p.1, v') :: dv ++ (ds ++ ds')) →
      (new.map (·.1)).Perm (p.1 :: gs.map (·.1)) := by
    intro new hnew
    refine (hnew.map (·.1)).trans ?_
    rw [List.cons_append, List.map_cons]
    exact (hgs.map (·.1)).symm.cons p.1
  cases hext with
  | @shape pre post name e e' defs start hext =>
    rw [List.map_append, List.map_cons] at hes hperm
    obtain ⟨ds₁, hes₁, hds₁⟩ := (hext.hoistsTo hv).all hes
    have hnew : (ds₁ ++ ds').Perm ((p.1, v') :: dv ++ (ds ++ ds')) := by
      rw [← List.append_assoc]
      exact hds₁.append_right ds'
    refine ⟨ds₁ ++ ds', .mk (by simpa using hes₁) hxs ?_ htriple hstart, hlabels _ hnew⟩
    rw [List.map_append, List.map_cons]
    exact hperm.trans (hnew.symm.append_left _)
  | @tripleExpr pre post name e e' shapes start hext =>
    rw [List.map_append, List.map_cons] at hxs
    obtain ⟨ds₁, hxs₁, hds₁⟩ := (hext.hoistsTo hv).all hxs
    have hnew : (ds ++ ds₁).Perm ((p.1, v') :: dv ++ (ds ++ ds')) := by
      simpa using perm_append_middle ds [] hds₁
    refine ⟨ds ++ ds₁, .mk hes (by simpa using hxs₁) ?_ (by simpa using htriple) hstart,
      hlabels _ hnew⟩
    exact hperm.trans (hnew.symm.append_left _)

end Definitions

/-! ### References -/

section References

variable {m : Mention}

theorem exists_mem_append_cons {α : Type} {P : α → Prop} {pre post : List α} {a : α} :
    (∃ b ∈ pre ++ a :: post, P b) ↔ P a ∨ ∃ b ∈ pre ++ post, P b := by
  simp only [List.mem_append, List.mem_cons, or_and_right, exists_or, exists_eq_left]
  rw [or_left_comm]

mutual
/-- **References** are kept, with one to the new label. Those of the value are in the value. -/
theorem ShapeExpr.Extracts.mentions_iff : {e e' : ShapeExpr} → e.Extracts p e' →
    (e'.Mentions m ∨ p.2.Mentions m ↔ e.Mentions m ∨ m = .shape p.1)
  | _, _, .and h => by
    rw [ShapeExpr.mentions_and, ShapeExpr.mentions_and, exists_mem_append_cons,
      exists_mem_append_cons, or_right_comm, ShapeExpr.Extracts.mentions_iff h, or_right_comm]
  | _, _, .or h => by
    rw [ShapeExpr.mentions_or, ShapeExpr.mentions_or, exists_mem_append_cons,
      exists_mem_append_cons, or_right_comm, ShapeExpr.Extracts.mentions_iff h, or_right_comm]
  | _, _, .not h => by
    rw [ShapeExpr.mentions_not, ShapeExpr.mentions_not]
    exact ShapeExpr.Extracts.mentions_iff h
  | _, _, .shape h => by
    rw [ShapeExpr.mentions_shape, ShapeExpr.mentions_shape]
    exact TripleExpr.Extracts.mentions_iff h

theorem TripleExpr.Extracts.mentions_iff : {e e' : TripleExpr} → e.Extracts p e' →
    (e'.Mentions m ∨ p.2.Mentions m ↔ e.Mentions m ∨ m = .shape p.1)
  | _, _, .value hc _ => by
    simp only [TripleExpr.mentions_constraint, hc, Option.some.injEq, exists_eq_left',
      ShapeExpr.mentions_ref]
    exact or_comm
  | _, _, .inside hc h => by
    simp only [TripleExpr.mentions_constraint, hc, Option.some.injEq, exists_eq_left']
    exact ShapeExpr.Extracts.mentions_iff h
  | _, _, .eachOf _ h => by
    rw [TripleExpr.mentions_eachOf, TripleExpr.mentions_eachOf, exists_mem_append_cons,
      exists_mem_append_cons, or_right_comm, TripleExpr.Extracts.mentions_iff h, or_right_comm]
  | _, _, .oneOf _ h => by
    rw [TripleExpr.mentions_oneOf, TripleExpr.mentions_oneOf, exists_mem_append_cons,
      exists_mem_append_cons, or_right_comm, TripleExpr.Extracts.mentions_iff h, or_right_comm]
end

/-- References to triple expressions outside of values are kept. -/
theorem TripleExpr.Extracts.references_eq : {e e' : TripleExpr} → e.Extracts p e' →
    e'.references = e.references
  | _, _, .value _ _ => rfl
  | _, _, .inside _ _ => rfl
  | _, _, .eachOf _ h => by
    simp only [TripleExpr.references, TripleExpr.referencesOfList_eq_flatMap, List.flatMap_append,
      List.flatMap_cons, TripleExpr.Extracts.references_eq h]
  | _, _, .oneOf _ h => by
    simp only [TripleExpr.references, TripleExpr.referencesOfList_eq_flatMap, List.flatMap_append,
      List.flatMap_cons, TripleExpr.Extracts.references_eq h]

theorem ShapeExpr.Extracts.tripleReferences_eq : {e e' : ShapeExpr} → e.Extracts p e' →
    e'.tripleReferences = e.tripleReferences
  | _, _, .and h => by
    simp only [ShapeExpr.tripleReferences, ShapeExpr.tripleReferencesOfList_eq_flatMap,
      List.flatMap_append, List.flatMap_cons, ShapeExpr.Extracts.tripleReferences_eq h]
  | _, _, .or h => by
    simp only [ShapeExpr.tripleReferences, ShapeExpr.tripleReferencesOfList_eq_flatMap,
      List.flatMap_append, List.flatMap_cons, ShapeExpr.Extracts.tripleReferences_eq h]
  | _, _, .not h => by
    rw [ShapeExpr.tripleReferences, ShapeExpr.Extracts.tripleReferences_eq h,
      ShapeExpr.tripleReferences]
  | _, _, @ShapeExpr.Extracts.shape _ ⟨_, _, _, _⟩ _ h => h.references_eq

end References

namespace Definitions

variable {d d' : Definitions} {i : ℕ} {m : Mention}

theorem mentions_insertShape :
    (d.insertShape i p).Mentions m ↔ d.Mentions m ∨ p.2.Mentions m := by
  simp only [Mentions, (insertShape_perm d i p).mem_iff, List.exists_mem_cons_iff]
  rw [or_assoc, or_comm]
  rfl

theorem defines_insertShape :
    (d.insertShape i p).Defines m ↔ d.Defines m ∨ m = .shape p.1 := by
  cases m with
  | shape l =>
    rw [Defines, ((insertShape_perm d i p).map (·.1)).mem_iff, List.map_cons, List.mem_cons,
      or_comm, Defines, Mention.shape.injEq]
  | tripleExpr l => simp [Defines, insertShape]

namespace Extracts

variable (hext : d.Extracts p d')
include hext

theorem defines_iff : d'.Defines m ↔ d.Defines m := by
  cases hext <;> cases m <;> simp [Defines]

theorem start_eq : d'.start = d.start := by
  cases hext <;> rfl

theorem mentions_iff : d'.Mentions m ∨ p.2.Mentions m ↔ d.Mentions m ∨ m = .shape p.1 := by
  have hsort : ∀ a r t v : Prop, ((a ∨ r) ∨ t) ∨ v ↔ (a ∨ v) ∨ (r ∨ t) := by
    intro a r t v
    rw [or_right_comm, or_right_comm (a := a), or_assoc]
  cases hext with
  | shape defs start h =>
    simp only [Mentions]
    rw [exists_mem_append_cons, exists_mem_append_cons, hsort, h.mentions_iff, hsort]
  | tripleExpr shapes start h =>
    simp only [Mentions]
    rw [exists_mem_append_cons, exists_mem_append_cons, or_comm (b := _ ∨ _), hsort,
      h.mentions_iff, ← hsort, or_comm (b := _ ∨ _)]

theorem tripleEdge_eq : d'.TripleEdge = d.TripleEdge := by
  refine tripleEdge_congr ?_
  cases hext with
  | shape defs start h => rfl
  | tripleExpr shapes start h => simp [h.references_eq]

/-- The labels that were mentioned still are. -/
theorem labels_subset {l : Label} (hl : l ∈ d.labels) : l ∈ (d'.insertShape i p).labels := by
  have hdefines : ∀ m, d.Defines m → (d'.insertShape i p).Defines m :=
    fun m hm => defines_insertShape.2 (.inl (hext.defines_iff.2 hm))
  have hmentions : d.Mentions (.shape l) → l ∈ (d'.insertShape i p).labels :=
    fun hm => mem_labels_of_mentions (mentions_insertShape.2 (hext.mentions_iff.2 (.inl hm)))
  have hshapes : d'.shapes.flatMap (·.2.tripleReferences) =
      d.shapes.flatMap (·.2.tripleReferences) := by
    cases hext with
    | shape defs start h => simp [h.tripleReferences_eq]
    | tripleExpr shapes start h => rfl
  have htriples : d'.tripleExprs.flatMap (·.2.references) =
      d.tripleExprs.flatMap (·.2.references) := by
    cases hext with
    | shape defs start h => rfl
    | tripleExpr shapes start h => simp [h.references_eq]
  rcases mem_labels.1 hl with (hl | hl | hl) | (hl | hl | hl) | hl
  · exact mem_labels.2 (.inl (.inl (hdefines (.shape l) hl)))
  · obtain ⟨_, he, hm⟩ := (ShapeExpr.mem_referencesOfList _).1 hl
    obtain ⟨q, hq, rfl⟩ := List.mem_map.1 he
    exact hmentions (.inl ⟨q, hq, hm⟩)
  · rw [ShapeExpr.tripleReferencesOfList_eq_flatMap, List.flatMap_map, ← hshapes] at hl
    refine mem_labels.2 (.inl (.inr (.inr ?_)))
    rw [ShapeExpr.tripleReferencesOfList_eq_flatMap, List.flatMap_map,
      ((insertShape_perm d' i p).flatMap_right _).mem_iff, List.flatMap_cons]
    exact List.mem_append_right _ hl
  · exact mem_labels.2 (.inr (.inl (.inl (hdefines (.tripleExpr l) hl))))
  · obtain ⟨_, he, hm⟩ := (TripleExpr.mem_valueReferencesOfList_iff _).1 hl
    obtain ⟨q, hq, rfl⟩ := List.mem_map.1 he
    exact hmentions (.inr ⟨q, hq, hm⟩)
  · rw [TripleExpr.referencesOfList_eq_flatMap, List.flatMap_map, ← htriples] at hl
    refine mem_labels.2 (.inr (.inl (.inr (.inr ?_))))
    rw [TripleExpr.referencesOfList_eq_flatMap, List.flatMap_map]
    exact hl
  · exact mem_labels.2 (.inr (.inr (hext.start_eq.trans hl)))

/-- **Definitions are well-formed** with the value as a definition of its own if and only if they
are with the inline value. -/
theorem wellFormed_iff (hnew : p.1 ∉ d.labels) :
    (d'.insertShape i p).WellFormed ↔ d.WellFormed := by
  have hlabels := ((insertShape_perm d' i p).map (·.1)).nodup_iff
  have hnames : d'.shapes.map (·.1) = d.shapes.map (·.1) := by cases hext <;> simp
  have hnames' : d'.tripleExprs.map (·.1) = d.tripleExprs.map (·.1) := by cases hext <;> simp
  have hfirst : p.1 ∉ d.shapes.map (·.1) := fun hp => hnew (mem_labels.2 (.inl (.inl hp)))
  rw [List.map_cons, List.nodup_cons, hnames, and_iff_right hfirst] at hlabels
  have hdefines : ∀ m, (d'.insertShape i p).Defines m ↔ d.Defines m ∨ m = .shape p.1 :=
    fun m => by rw [defines_insertShape, hext.defines_iff]
  have hmentions : ∀ m, (d'.insertShape i p).Mentions m ↔ d.Mentions m ∨ m = .shape p.1 :=
    fun m => by rw [mentions_insertShape, hext.mentions_iff]
  have hstart : (d'.insertShape i p).StartDefined ↔ d.StartDefined := by
    change (∀ l, d'.start = some l → _) ↔ _
    rw [hext.start_eq]
    refine forall₂_congr fun l hl => ?_
    rw [hdefines, or_iff_left]
    rintro ⟨⟩
    exact hnew (mem_labels.2 (.inr (.inr hl)))
  have href : (d'.insertShape i p).ReferencesDefined ↔ d.ReferencesDefined := by
    refine forall_congr' fun m => ?_
    rw [hmentions, hdefines]
    constructor
    · intro h hm
      refine (h (.inl hm)).resolve_right ?_
      rintro rfl
      exact hnew (mem_labels_of_mentions hm)
    · rintro h (hm | hm)
      · exact .inl (h hm)
      · exact .inr hm
  have hacyclic : (d'.insertShape i p).TripleAcyclic ↔ d.TripleAcyclic := by
    rw [TripleAcyclic, TripleAcyclic, ← hext.tripleEdge_eq]
    rfl
  constructor
  · intro h
    exact ⟨hlabels.1 h.nodup_shapes, hnames' ▸ h.nodup_tripleExprs, hstart.1 h.startDefined,
      href.1 h.referencesDefined, hacyclic.1 h.tripleAcyclic⟩
  · intro h
    exact ⟨hlabels.2 h.nodup_shapes, hnames' ▸ h.nodup_tripleExprs, hstart.2 h.startDefined,
      href.2 h.referencesDefined, hacyclic.2 h.tripleAcyclic⟩

end Extracts

end Definitions

end ShapeTyping
