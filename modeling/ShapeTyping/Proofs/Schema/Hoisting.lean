import Mathlib
import ShapeTyping.Proofs.Schema.Hoisted

/-!
# Hoisting as a relation

What the rounds of hoisting do to an expression does not depend on the order in which labels are
given to its values: each inline value is replaced by a reference to some label, and the value,
with its own inline values replaced likewise, is the definition of that label.

* `ShapeExpr.HoistsTo`, `TripleExpr.HoistsTo`: an expression without its inline values and the
  definitions for them, in written order.
* `hoistRounds_hoistTo`: the rounds give such definitions, in another order.
* `Definitions.HoistsTo`, `Definitions.hoistsTo_hoist`: the same of all definitions.
* `ShapeExpr.HoistsTo.length_eq`, `Definitions.HoistsTo.length_new`: each inline value has one
  definition.
* `TripleExpr.HoistsTo.references_eq`: references between triple expressions are kept.
-/

namespace ShapeTyping

mutual
/-- `e.HoistsTo e' ds` says that `e'` is `e` with references for its inline values and that `ds`
defines these references. A definition comes before those of the values inside of it. -/
inductive ShapeExpr.HoistsTo : ShapeExpr → ShapeExpr → List (Label × ShapeExpr) → Prop
  | and {es es' : List ShapeExpr} {ds : List (Label × ShapeExpr)}
      (h : ShapeExpr.AllHoistTo es es' ds) : ShapeExpr.HoistsTo (.and es) (.and es') ds
  | or {es es' : List ShapeExpr} {ds : List (Label × ShapeExpr)}
      (h : ShapeExpr.AllHoistTo es es' ds) : ShapeExpr.HoistsTo (.or es) (.or es') ds
  | not {e e' : ShapeExpr} {ds : List (Label × ShapeExpr)} (h : e.HoistsTo e' ds) :
      ShapeExpr.HoistsTo (.not e) (.not e') ds
  | shape {x : Shape} {e : TripleExpr} {ds : List (Label × ShapeExpr)}
      (h : x.expr.HoistsTo e ds) : ShapeExpr.HoistsTo (.shape x) (.shape { x with expr := e }) ds
  | node (c : NodeConstraint) : ShapeExpr.HoistsTo (.node c) (.node c) []
  | external : ShapeExpr.HoistsTo .external .external []
  | ref (l : Label) : ShapeExpr.HoistsTo (.ref l) (.ref l) []

inductive ShapeExpr.AllHoistTo :
    List ShapeExpr → List ShapeExpr → List (Label × ShapeExpr) → Prop
  | nil : ShapeExpr.AllHoistTo [] [] []
  | cons {e e' : ShapeExpr} {es es' : List ShapeExpr} {ds ds' : List (Label × ShapeExpr)}
      (h : e.HoistsTo e' ds) (hs : ShapeExpr.AllHoistTo es es' ds') :
      ShapeExpr.AllHoistTo (e :: es) (e' :: es') (ds ++ ds')

inductive TripleExpr.HoistsTo : TripleExpr → TripleExpr → List (Label × ShapeExpr) → Prop
  | constraint {c : TripleConstraint} (h : c.inlineValues = 0) :
      TripleExpr.HoistsTo (.constraint c) (.constraint c) []
  | value {c : TripleConstraint} {v v' : ShapeExpr} {ds : List (Label × ShapeExpr)} (l : Label)
      (hc : c.value = some v) (hv : v.isRef = false) (h : v.HoistsTo v' ds) :
      TripleExpr.HoistsTo (.constraint c) (.constraint { c with value := some (.ref l) })
        ((l, v') :: ds)
  | eachOf {es es' : List TripleExpr} {ds : List (Label × ShapeExpr)} (card : Cardinality)
      (h : TripleExpr.AllHoistTo es es' ds) :
      TripleExpr.HoistsTo (.eachOf es card) (.eachOf es' card) ds
  | oneOf {es es' : List TripleExpr} {ds : List (Label × ShapeExpr)} (card : Cardinality)
      (h : TripleExpr.AllHoistTo es es' ds) :
      TripleExpr.HoistsTo (.oneOf es card) (.oneOf es' card) ds
  | ref (l : Label) : TripleExpr.HoistsTo (.ref l) (.ref l) []
  | empty : TripleExpr.HoistsTo .empty .empty []

inductive TripleExpr.AllHoistTo :
    List TripleExpr → List TripleExpr → List (Label × ShapeExpr) → Prop
  | nil : TripleExpr.AllHoistTo [] [] []
  | cons {e e' : TripleExpr} {es es' : List TripleExpr} {ds ds' : List (Label × ShapeExpr)}
      (h : e.HoistsTo e' ds) (hs : TripleExpr.AllHoistTo es es' ds') :
      TripleExpr.AllHoistTo (e :: es) (e' :: es') (ds ++ ds')
end

/-! ### Lists of expressions -/

namespace ShapeExpr.AllHoistTo

variable {es fs es' fs' : List ShapeExpr} {ds ds' : List (Label × ShapeExpr)}

theorem length (h : AllHoistTo es es' ds) : es'.length = es.length := by
  induction es generalizing es' ds with
  | nil => cases h; rfl
  | cons e es ih =>
    cases h with
    | cons h hs => simp [ih hs]

theorem append (h : AllHoistTo es es' ds) (h' : AllHoistTo fs fs' ds') :
    AllHoistTo (es ++ fs) (es' ++ fs') (ds ++ ds') := by
  induction es generalizing es' ds with
  | nil => cases h; exact h'
  | cons e es ih =>
    cases h with
    | cons h hs =>
      rw [List.append_assoc]
      exact .cons h (ih hs)

/-- Expressions after others are hoisted after them. -/
theorem of_append {gs : List ShapeExpr} {ds : List (Label × ShapeExpr)}
    (h : AllHoistTo (es ++ fs) gs ds) : ∃ es' fs' ds₁ ds₂, gs = es' ++ fs' ∧ ds = ds₁ ++ ds₂ ∧
      AllHoistTo es es' ds₁ ∧ AllHoistTo fs fs' ds₂ := by
  induction es generalizing gs ds with
  | nil => exact ⟨[], gs, [], ds, rfl, rfl, .nil, h⟩
  | cons e es ih =>
    cases h with
    | @cons _ e' _ _ ds₀ _ h hs =>
      obtain ⟨es', fs', ds₁, ds₂, rfl, rfl, h₁, h₂⟩ := ih hs
      exact ⟨e' :: es', fs', ds₀ ++ ds₁, ds₂, rfl, by simp, .cons h h₁, h₂⟩

end ShapeExpr.AllHoistTo

theorem TripleExpr.AllHoistTo.length {es es' : List TripleExpr} {ds : List (Label × ShapeExpr)}
    (h : AllHoistTo es es' ds) : es'.length = es.length := by
  induction es generalizing es' ds with
  | nil => cases h; rfl
  | cons e es ih =>
    cases h with
    | cons h hs => simp [ih hs]

/-! ### Mentioned labels -/

theorem ShapeExpr.referencesOfList_eq_flatMap (es : List ShapeExpr) :
    referencesOfList es = es.flatMap (·.references) := by
  induction es with
  | nil => rfl
  | cons e es ih => rw [referencesOfList, ih, List.flatMap_cons]

theorem ShapeExpr.tripleReferencesOfList_eq_flatMap (es : List ShapeExpr) :
    tripleReferencesOfList es = es.flatMap (·.tripleReferences) := by
  induction es with
  | nil => rfl
  | cons e es ih => rw [tripleReferencesOfList, ih, List.flatMap_cons]

theorem TripleExpr.valueReferencesOfList_eq_flatMap (es : List TripleExpr) :
    valueReferencesOfList es = es.flatMap (·.valueReferences) := by
  induction es with
  | nil => rfl
  | cons e es ih => rw [valueReferencesOfList, ih, List.flatMap_cons]

theorem TripleExpr.referencesOfList_eq_flatMap (es : List TripleExpr) :
    referencesOfList es = es.flatMap (·.references) := by
  induction es with
  | nil => rfl
  | cons e es ih => rw [referencesOfList, ih, List.flatMap_cons]

/-- The labels that definitions mention, by how they do. -/
theorem Definitions.mem_labels {d : Definitions} {l : Label} : l ∈ d.labels ↔
    (l ∈ d.shapes.map (·.1) ∨ l ∈ ShapeExpr.referencesOfList (d.shapes.map (·.2)) ∨
      l ∈ ShapeExpr.tripleReferencesOfList (d.shapes.map (·.2))) ∨
    (l ∈ d.tripleExprs.map (·.1) ∨ l ∈ TripleExpr.valueReferencesOfList (d.tripleExprs.map (·.2)) ∨
      l ∈ TripleExpr.referencesOfList (d.tripleExprs.map (·.2))) ∨ d.start = some l := by
  simp only [Definitions.labels, ShapeExpr.referencesOfList_eq_flatMap,
    ShapeExpr.tripleReferencesOfList_eq_flatMap, TripleExpr.valueReferencesOfList_eq_flatMap,
    TripleExpr.referencesOfList_eq_flatMap, List.mem_append, List.mem_flatMap, List.mem_cons,
    List.mem_map, Option.mem_toList]
  grind

/-! ### Rounds -/

/-- Values with the labels numbered from `k` on. -/
def labelFrom (fresh : ℕ → Label) : ℕ → List ShapeExpr → List (Label × ShapeExpr)
  | _, [] => []
  | k, v :: vs => (fresh k, v) :: labelFrom fresh (k + 1) vs

section Rounds

variable {fresh : ℕ → Label}

theorem labelFrom_append (k : ℕ) (vs ws : List ShapeExpr) :
    labelFrom fresh k (vs ++ ws) = labelFrom fresh k vs ++ labelFrom fresh (k + vs.length) ws := by
  induction vs generalizing k with
  | nil => rfl
  | cons v vs ih =>
    rw [List.cons_append, labelFrom, ih, labelFrom, List.cons_append, List.length_cons,
      Nat.add_right_comm, Nat.add_assoc]

theorem zip_range'_eq_labelFrom (k : ℕ) (vs : List ShapeExpr) :
    ((List.range' k vs.length).map fresh).zip vs = labelFrom fresh k vs := by
  induction vs generalizing k with
  | nil => rfl
  | cons v vs ih =>
    rw [List.length_cons, List.range'_succ, List.map_cons, List.zip_cons_cons, ih, labelFrom]

/-- What is left of one round for the definitions of the values that it replaces: they are those of
the hoisted values. -/
def RoundLeaves (fresh : ℕ → Label) (k : ℕ) (values : List ShapeExpr)
    (hoistsTo : List (Label × ShapeExpr) → Prop) : Prop :=
  ∀ values' ds, ShapeExpr.AllHoistTo values values' ds →
    ∃ ds', hoistsTo ds' ∧ ds'.Perm (labelFrom fresh k values' ++ ds)

/-- A round that replaces nothing. -/
theorem RoundLeaves.nil {k : ℕ} {hoistsTo : List (Label × ShapeExpr) → Prop} (h : hoistsTo []) :
    RoundLeaves fresh k [] hoistsTo := by
  intro values' ds hds
  cases hds
  exact ⟨[], h, by simp [labelFrom]⟩

theorem RoundLeaves.mono {k : ℕ} {values : List ShapeExpr}
    {hoistsTo hoistsTo' : List (Label × ShapeExpr) → Prop} (h : RoundLeaves fresh k values hoistsTo)
    (himp : ∀ ds, hoistsTo ds → hoistsTo' ds) : RoundLeaves fresh k values hoistsTo' := by
  intro values' ds hds
  obtain ⟨ds', hto, hperm⟩ := h values' ds hds
  exact ⟨ds', himp ds' hto, hperm⟩

/-- Rounds of an expression and of those after it. -/
theorem RoundLeaves.append {k : ℕ} {values later : List ShapeExpr}
    {hoistsTo hoistsTo' both : List (Label × ShapeExpr) → Prop}
    (h : RoundLeaves fresh k values hoistsTo)
    (h' : RoundLeaves fresh (k + values.length) later hoistsTo')
    (hboth : ∀ ds ds', hoistsTo ds → hoistsTo' ds' → both (ds ++ ds')) :
    RoundLeaves fresh k (values ++ later) both := by
  intro all' ds hds
  obtain ⟨values', later', ds₁, ds₂, rfl, rfl, h₁, h₂⟩ := hds.of_append
  obtain ⟨es, hes, hperm⟩ := h values' ds₁ h₁
  obtain ⟨fs, hfs, hperm'⟩ := h' later' ds₂ h₂
  refine ⟨es ++ fs, hboth es fs hes hfs, (hperm.append hperm').trans ?_⟩
  rw [labelFrom_append, h₁.length, List.append_assoc, List.append_assoc]
  refine List.Perm.append_left _ ?_
  rw [← List.append_assoc, ← List.append_assoc]
  exact List.Perm.append_right _ List.perm_append_comm

theorem TripleConstraint.hoist_hoistsTo (k : ℕ) (c : TripleConstraint) :
    RoundLeaves fresh k (TripleExpr.hoist fresh k (.constraint c)).2
      (TripleExpr.HoistsTo (.constraint c) (TripleExpr.hoist fresh k (.constraint c)).1) := by
  rw [TripleExpr.hoist]
  cases hc : c.value with
  | none => exact .nil (.constraint (by obtain ⟨_, _, _, _, _⟩ := c; cases hc; rfl))
  | some v =>
    dsimp only
    by_cases hv : v.isRef = true
    · rw [if_pos hv]
      refine .nil (.constraint ?_)
      obtain ⟨_, _, _, _, _⟩ := c
      cases hc
      rw [TripleConstraint.inlineValues, if_pos hv]
    · rw [if_neg hv]
      intro values' ds hds
      cases hds with
      | @cons _ v' _ _ ds _ h hs =>
        cases hs
        exact ⟨_, .value (fresh k) hc (by simpa using hv) h, by simp [labelFrom]⟩

mutual
/-- **One round on a triple expression** hoists it when the values that it leaves are hoisted. -/
theorem TripleExpr.hoist_hoistsTo : (k : ℕ) → (e : TripleExpr) →
    RoundLeaves fresh k (e.hoist fresh k).2 (e.HoistsTo (e.hoist fresh k).1)
  | k, .constraint c => TripleConstraint.hoist_hoistsTo k c
  | k, .eachOf es card => (TripleExpr.hoistList_hoistTo k es).mono fun _ h => .eachOf card h
  | k, .oneOf es card => (TripleExpr.hoistList_hoistTo k es).mono fun _ h => .oneOf card h
  | _, .ref l => .nil (.ref l)
  | _, .empty => .nil .empty

theorem TripleExpr.hoistList_hoistTo : (k : ℕ) → (es : List TripleExpr) →
    RoundLeaves fresh k (TripleExpr.hoistList fresh k es).2
      (TripleExpr.AllHoistTo es (TripleExpr.hoistList fresh k es).1)
  | _, [] => .nil .nil
  | k, e :: es => (TripleExpr.hoist_hoistsTo k e).append (TripleExpr.hoistList_hoistTo _ es)
      fun _ _ h hs => .cons h hs
end

mutual
/-- **One round on a definition** hoists it when the values that it leaves are hoisted. -/
theorem ShapeExpr.hoist_hoistsTo : (k : ℕ) → (e : ShapeExpr) →
    RoundLeaves fresh k (e.hoist fresh k).2 (e.HoistsTo (e.hoist fresh k).1)
  | k, .and es => (ShapeExpr.hoistList_hoistTo k es).mono fun _ h => .and h
  | k, .or es => (ShapeExpr.hoistList_hoistTo k es).mono fun _ h => .or h
  | k, .not e => (ShapeExpr.hoist_hoistsTo k e).mono fun _ h => .not h
  | k, .shape x => (TripleExpr.hoist_hoistsTo k x.expr).mono fun _ h => .shape h
  | _, .node c => .nil (.node c)
  | _, .external => .nil .external
  | _, .ref l => .nil (.ref l)

theorem ShapeExpr.hoistList_hoistTo : (k : ℕ) → (es : List ShapeExpr) →
    RoundLeaves fresh k (ShapeExpr.hoistList fresh k es).2
      (ShapeExpr.AllHoistTo es (ShapeExpr.hoistList fresh k es).1)
  | _, [] => .nil .nil
  | k, e :: es => (ShapeExpr.hoist_hoistsTo k e).append (ShapeExpr.hoistList_hoistTo _ es)
      fun _ _ h hs => .cons h hs
end

/-- **Enough rounds hoist definitions**: the definitions of the values come after them, by the
numbers of their labels. -/
theorem hoistRounds_hoistTo (fresh : ℕ → Label) {rounds : ℕ} (k : ℕ) {es : List ShapeExpr}
    (h : ShapeExpr.inlineValuesOfList es < rounds) :
    ∃ es' rest ds, hoistRounds fresh rounds k es = es' ++ rest ∧
      ShapeExpr.AllHoistTo es es' ds ∧ ds.Perm (labelFrom fresh k rest) := by
  induction rounds generalizing k es with
  | zero => omega
  | succ rounds ih =>
    cases es with
    | nil => exact ⟨[], [], [], rfl, .nil, .rfl⟩
    | cons e es =>
      have hround : RoundLeaves fresh k _ _ := ShapeExpr.hoistList_hoistTo k (e :: es)
      obtain ⟨-, hcount⟩ := @ShapeExpr.hoistList_spec fresh k (e :: es)
      rw [hoistRounds_cons]
      generalize ShapeExpr.hoistList fresh k (e :: es) = hoisted at hround hcount
      obtain ⟨done, values⟩ := hoisted
      -- the values left by the round are hoisted by the others
      obtain ⟨values', rest, ds, hrest, hvalues, hds⟩ : ∃ values' rest ds,
          hoistRounds fresh rounds (k + values.length) values = values' ++ rest ∧
            ShapeExpr.AllHoistTo values values' ds ∧
            ds.Perm (labelFrom fresh (k + values.length) rest) := by
        cases values with
        | nil => exact ⟨[], [], [], by cases rounds <;> rfl, .nil, .rfl⟩
        | cons v vs =>
          simp only [List.length_cons] at hcount
          exact ih _ (by omega)
      obtain ⟨ds', hdone, hperm⟩ := hround values' ds hvalues
      refine ⟨done, values' ++ rest, ds', by simp only [hrest], hdone, ?_⟩
      rw [labelFrom_append, hvalues.length]
      exact hperm.trans (hds.append_left _)

end Rounds

/-! ### All definitions -/

theorem flatMap_zip {α β γ : Type} (as : List α) {bs : List β} (f : β → List γ)
    (h : bs.length = as.length) : (as.zip bs).flatMap (f ·.2) = bs.flatMap f := by
  have hmap := congrArg (·.flatMap f) (List.map_snd_zip h.le)
  rwa [List.flatMap_map] at hmap

/-- `d.HoistsTo h ds` says that the definitions of `h` are those of `d` with references for inline
values, and the definitions `ds` of these references in any place. -/
inductive Definitions.HoistsTo (d h : Definitions) : List (Label × ShapeExpr) → Prop
  | mk {es : List ShapeExpr} {xs : List TripleExpr} {ds ds' : List (Label × ShapeExpr)}
      (shapes : ShapeExpr.AllHoistTo (d.shapes.map (·.2)) es ds)
      (tripleExprs : TripleExpr.AllHoistTo (d.tripleExprs.map (·.2)) xs ds')
      (shapes_perm : h.shapes.Perm ((d.shapes.map (·.1)).zip es ++ (ds ++ ds')))
      (tripleExprs_eq : h.tripleExprs = (d.tripleExprs.map (·.1)).zip xs)
      (start_eq : h.start = d.start) : Definitions.HoistsTo d h (ds ++ ds')

theorem Definitions.HoistsTo.length_eq {d h : Definitions} {ds : List (Label × ShapeExpr)}
    (hto : d.HoistsTo h ds) : h.shapes.length = d.shapes.length + ds.length := by
  obtain ⟨hes, -, hperm, -, -⟩ := hto
  rw [hperm.length_eq, List.length_append, List.length_zip, hes.length]
  simp

/-- The labels of hoisted definitions are the written ones and the new ones. -/
theorem Definitions.HoistsTo.labels_perm {d h : Definitions} {ds : List (Label × ShapeExpr)}
    (hto : d.HoistsTo h ds) :
    (h.shapes.map (·.1)).Perm (d.shapes.map (·.1) ++ ds.map (·.1)) := by
  obtain ⟨hes, -, hperm, -, -⟩ := hto
  have hlabels := hperm.map (·.1)
  rwa [List.map_append, List.map_fst_zip (by rw [hes.length]; simp)] at hlabels

theorem map_fst_labelFrom (fresh : ℕ → Label) (k : ℕ) (vs : List ShapeExpr) :
    (labelFrom fresh k vs).map (·.1) = (List.range' k vs.length).map fresh := by
  rw [← zip_range'_eq_labelFrom, List.map_fst_zip (by simp)]

/-- The definitions of hoisted definitions, written ones first. -/
theorem Definitions.hoist_shapes_eq {d : Definitions} {fresh : ℕ → Label}
    (hfresh : generatedLabel (freshStem d.labels) = fresh) {es rest : List ShapeExpr}
    (hes : es.length = d.shapes.length)
    (hall : hoistRounds fresh (ShapeExpr.inlineValuesOfList (d.shapes.map (·.2) ++
        (TripleExpr.hoistList fresh 0 (d.tripleExprs.map (·.2))).2) + 1)
      (TripleExpr.hoistList fresh 0 (d.tripleExprs.map (·.2))).2.length (d.shapes.map (·.2) ++
        (TripleExpr.hoistList fresh 0 (d.tripleExprs.map (·.2))).2) = es ++ rest) :
    d.hoist.shapes = (d.shapes.map (·.1)).zip es ++ labelFrom fresh 0 rest := by
  simp only [Definitions.hoist, hfresh, hall]
  rw [List.length_append, hes, Nat.add_sub_cancel_left, List.zip_append (by simp [hes]),
    ← zip_range'_eq_labelFrom, List.range_eq_range']

/-- **The hoisted definitions**: each inline value has a label of its own, which was not mentioned
before. -/
theorem Definitions.hoistsTo_hoist (d : Definitions) :
    ∃ ds, d.HoistsTo d.hoist ds ∧ (ds.map (·.1)).Nodup ∧ ∀ l ∈ ds.map (·.1), l ∉ d.labels := by
  generalize hfresh : generatedLabel (freshStem d.labels) = fresh
  have htriple := @TripleExpr.hoistList_hoistTo fresh 0 (d.tripleExprs.map (·.2))
  obtain ⟨all', rest, ds, hall, hto, hds⟩ := hoistRounds_hoistTo fresh
    (TripleExpr.hoistList fresh 0 (d.tripleExprs.map (·.2))).2.length
    (Nat.lt_succ_self (ShapeExpr.inlineValuesOfList
      (d.shapes.map (·.2) ++ (TripleExpr.hoistList fresh 0 (d.tripleExprs.map (·.2))).2)))
  obtain ⟨es, values', ds₁, ds₂, rfl, rfl, hes, hvalues⟩ := hto.of_append
  obtain ⟨ds', hxs, hds'⟩ := htriple values' ds₂ hvalues
  rw [List.append_assoc] at hall
  have hshapes := Definitions.hoist_shapes_eq hfresh (by simpa using hes.length) hall
  -- the values of triple expressions were numbered first
  have hperm : (labelFrom fresh 0 (values' ++ rest)).Perm (ds₁ ++ ds') := by
    rw [labelFrom_append, hvalues.length, Nat.zero_add]
    refine (hds.symm.append_left _).trans ?_
    rw [← List.append_assoc]
    refine (List.perm_append_comm.append_right _).trans ?_
    rw [List.append_assoc]
    exact hds'.symm.append_left _
  have hlabels := hperm.map (·.1)
  rw [map_fst_labelFrom, ← hfresh] at hlabels
  refine ⟨ds₁ ++ ds', .mk hes hxs ?_ ?_ rfl, ?_, ?_⟩
  · rw [hshapes]
    exact hperm.append_left _
  · simp only [Definitions.hoist, hfresh]
  · exact hlabels.nodup_iff.1 (List.Nodup.map (generatedLabel_injective _) List.nodup_range')
  · intro l hl
    obtain ⟨n, -, rfl⟩ := List.mem_map.1 (hlabels.mem_iff.2 hl)
    exact generatedLabel_notMem d.labels n

/-! ### What is kept -/

mutual
/-- **Each inline value has one definition.** -/
theorem ShapeExpr.HoistsTo.length_eq : {e e' : ShapeExpr} → {ds : List (Label × ShapeExpr)} →
    e.HoistsTo e' ds → ds.length = e.inlineValues
  | _, _, _, .and h => by
    rw [ShapeExpr.inlineValues]
    exact h.length_eq
  | _, _, _, .or h => by
    rw [ShapeExpr.inlineValues]
    exact h.length_eq
  | _, _, _, .not h => by
    rw [ShapeExpr.inlineValues]
    exact h.length_eq
  | _, _, _, @ShapeExpr.HoistsTo.shape ⟨_, _, _, _⟩ _ _ h => by
    rw [ShapeExpr.inlineValues]
    exact h.length_eq
  | _, _, _, .node _ => rfl
  | _, _, _, .external => rfl
  | _, _, _, .ref _ => rfl

theorem ShapeExpr.AllHoistTo.length_eq : {es es' : List ShapeExpr} →
    {ds : List (Label × ShapeExpr)} → ShapeExpr.AllHoistTo es es' ds →
    ds.length = ShapeExpr.inlineValuesOfList es
  | _, _, _, .nil => rfl
  | _, _, _, .cons h hs => by
    rw [List.length_append, ShapeExpr.inlineValuesOfList, h.length_eq, hs.length_eq]

theorem TripleExpr.HoistsTo.length_eq : {e e' : TripleExpr} → {ds : List (Label × ShapeExpr)} →
    e.HoistsTo e' ds → ds.length = e.inlineValues
  | _, _, _, .constraint hc => by
    rw [TripleExpr.inlineValues, hc]
    rfl
  | _, _, _, @TripleExpr.HoistsTo.value ⟨_, _, _, _, _⟩ _ _ _ _ rfl hv h => by
    simp only [TripleExpr.inlineValues, TripleConstraint.inlineValues, hv, List.length_cons,
      h.length_eq, Nat.add_comm 1, Bool.false_eq_true, if_false]
  | _, _, _, .eachOf _ h => by
    rw [TripleExpr.inlineValues]
    exact h.length_eq
  | _, _, _, .oneOf _ h => by
    rw [TripleExpr.inlineValues]
    exact h.length_eq
  | _, _, _, .ref _ => rfl
  | _, _, _, .empty => rfl

theorem TripleExpr.AllHoistTo.length_eq : {es es' : List TripleExpr} →
    {ds : List (Label × ShapeExpr)} → TripleExpr.AllHoistTo es es' ds →
    ds.length = TripleExpr.inlineValuesOfList es
  | _, _, _, .nil => rfl
  | _, _, _, .cons h hs => by
    rw [List.length_append, TripleExpr.inlineValuesOfList, h.length_eq, hs.length_eq]
end

/-- Definitions have as many new ones as there are inline values in them. -/
theorem Definitions.HoistsTo.length_new {d h : Definitions} {ds : List (Label × ShapeExpr)}
    (hto : d.HoistsTo h ds) : ds.length = ShapeExpr.inlineValuesOfList (d.shapes.map (·.2)) +
      TripleExpr.inlineValuesOfList (d.tripleExprs.map (·.2)) := by
  obtain ⟨hes, hxs, -, -, -⟩ := hto
  rw [List.length_append, hes.length_eq, hxs.length_eq]

mutual
/-- **References between triple expressions are kept.** -/
theorem TripleExpr.HoistsTo.references_eq : {e e' : TripleExpr} → {ds : List (Label × ShapeExpr)} →
    e.HoistsTo e' ds → e'.references = e.references
  | _, _, _, .constraint _ => rfl
  | _, _, _, .value _ _ _ _ => rfl
  | _, _, _, .eachOf _ h => by
    rw [TripleExpr.references, h.references_eq, TripleExpr.references]
  | _, _, _, .oneOf _ h => by
    rw [TripleExpr.references, h.references_eq, TripleExpr.references]
  | _, _, _, .ref _ => rfl
  | _, _, _, .empty => rfl

theorem TripleExpr.AllHoistTo.references_eq : {es es' : List TripleExpr} →
    {ds : List (Label × ShapeExpr)} → TripleExpr.AllHoistTo es es' ds →
    TripleExpr.referencesOfList es' = TripleExpr.referencesOfList es
  | _, _, _, .nil => rfl
  | _, _, _, .cons h hs => by
    rw [TripleExpr.referencesOfList, h.references_eq, hs.references_eq,
      TripleExpr.referencesOfList]
end

end ShapeTyping
