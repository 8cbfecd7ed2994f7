import Mathlib
import ShapeTyping.Proofs.Schema.Hoisting
import ShapeTyping.Proofs.Validation.Cache

/-!
# The form of built schemas

Hoisting takes one definition at a time and appends the values that it replaces, until every
definition has been taken. What is built has references as values, one definition for each label and
consecutive numbers for its shapes.

* `HoistLoop.step`, `HoistLoop.iterate_step`: definitions are taken one by one, as many as there are
  in the end, and these are the hoisted definitions.
* `ShapeExpr.HoistsTo.count_valueLabels`: the label of a hoisted value occurs where the value was.
* `Schema.allConstraints`: the triple constraints of a schema.
* `Definitions.BuiltForm`: what a built schema looks like.
* `Definitions.build_form`: every schema that is built looks so.
-/

namespace ShapeTyping

/-! ### One definition at a time -/

/-- The number of the next label, the definitions that were taken and those that were not. -/
structure HoistLoop where
  next : ℕ
  done : List ShapeExpr
  todo : List ShapeExpr

namespace HoistLoop

variable {fresh : ℕ → Label}

/-- Takes the next definition and appends the values that it had. -/
def step (fresh : ℕ → Label) : HoistLoop → HoistLoop
  | ⟨k, done, []⟩ => ⟨k, done, []⟩
  | ⟨k, done, e :: es⟩ =>
    let (e', vs) := e.hoist fresh k
    ⟨k + vs.length, done ++ [e'], es ++ vs⟩

theorem step_cons (k : ℕ) (done : List ShapeExpr) (e : ShapeExpr) (es : List ShapeExpr) :
    step fresh ⟨k, done, e :: es⟩ =
      ⟨k + (e.hoist fresh k).2.length, done ++ [(e.hoist fresh k).1], es ++ (e.hoist fresh k).2⟩ :=
  rfl

/-- Before the first step: the values of triple expressions have got the first labels. -/
def start (d : Definitions) : HoistLoop :=
  let values := (TripleExpr.hoistList (generatedLabel (freshStem d.labels)) 0
    (d.tripleExprs.map (·.2))).2
  ⟨values.length, [], d.shapes.map (·.2) ++ values⟩

/-- Some definitions, taken one after the other, leave what one round leaves of them. -/
theorem iterate_step_append (k : ℕ) (done es later : List ShapeExpr) :
    (step fresh)^[es.length] ⟨k, done, es ++ later⟩ =
      ⟨k + (ShapeExpr.hoistList fresh k es).2.length, done ++ (ShapeExpr.hoistList fresh k es).1,
        later ++ (ShapeExpr.hoistList fresh k es).2⟩ := by
  induction es generalizing k done later with
  | nil => simp [ShapeExpr.hoistList]
  | cons e es ih =>
    rw [List.length_cons, Function.iterate_succ_apply, List.cons_append, step_cons,
      List.append_assoc, ih]
    simp [ShapeExpr.hoistList, Nat.add_assoc]

/-- **Definitions taken one by one** are those of the rounds, and their number is that of the
definitions and of all inline values. -/
theorem iterate_step {rounds k : ℕ} (done : List ShapeExpr) {es : List ShapeExpr}
    (h : ShapeExpr.inlineValuesOfList es < rounds) :
    ∃ k', (step fresh)^[es.length + ShapeExpr.inlineValuesOfList es] ⟨k, done, es⟩ =
      ⟨k', done ++ hoistRounds fresh rounds k es, []⟩ := by
  induction rounds generalizing k done es with
  | zero => omega
  | succ rounds ih =>
    cases es with
    | nil => exact ⟨k, by simp [ShapeExpr.inlineValuesOfList, hoistRounds]⟩
    | cons e es =>
      obtain ⟨-, hcount⟩ := @ShapeExpr.hoistList_spec fresh k (e :: es)
      have hround := @iterate_step_append fresh k done (e :: es) []
      rw [List.append_nil, List.nil_append] at hround
      rw [hcount, Nat.add_comm, Function.iterate_add_apply, hround, hoistRounds_cons,
        ← List.append_assoc]
      generalize (ShapeExpr.hoistList fresh k (e :: es)).2 = values at hcount
      cases values with
      | nil => exact ⟨k, by cases rounds <;> simp [ShapeExpr.inlineValuesOfList, hoistRounds]⟩
      | cons v vs =>
        simp only [List.length_cons] at hcount
        exact ih _ (by omega)

end HoistLoop

/-! ### Values -/

/-- The labels that the values of triple constraints refer to. -/
def TripleExpr.valueLabels (e : TripleExpr) : List Label := e.constraints.filterMap (·.valueLabel?)

theorem TripleConstraint.valueLabels_ref (c : TripleConstraint) (r : Label) :
    (TripleExpr.constraint { c with value := some (.ref r) }).valueLabels = [r] := rfl

def ShapeExpr.valueLabels (e : ShapeExpr) : List Label := e.shapes.flatMap (·.expr.valueLabels)

theorem ShapeExpr.flatMap_valueLabels (es : List ShapeExpr) :
    es.flatMap (·.valueLabels) = (shapesOfList es).flatMap (·.expr.valueLabels) := by
  rw [shapesOfList_eq_flatMap, List.flatMap_assoc]
  rfl

theorem TripleExpr.flatMap_valueLabels (es : List TripleExpr) :
    es.flatMap (·.valueLabels) = (constraintsOfList es).filterMap (·.valueLabel?) := by
  induction es with
  | nil => rfl
  | cons e es ih =>
    rw [List.flatMap_cons, ih, constraintsOfList, List.filterMap_append]
    rfl

section Count

variable {l : Label}

theorem TripleConstraint.count_valueLabel? {c : TripleConstraint} (hc : c.inlineValues = 0)
    (hl : l ∉ c.valueReferences) : (TripleExpr.constraint c).valueLabels.count l = 0 := by
  refine List.count_eq_zero.2 fun hmem => hl ?_
  obtain ⟨p, value, card, inverse, label⟩ := c
  cases value with
  | none =>
    simp [TripleExpr.valueLabels, TripleExpr.constraints, TripleConstraint.valueLabel?] at hmem
  | some v =>
    obtain ⟨r, rfl⟩ := TripleConstraint.eq_ref_of_inlineValues rfl hc
    simpa [TripleExpr.valueLabels, TripleExpr.constraints, TripleConstraint.valueLabel?,
      ShapeExpr.ref?, TripleConstraint.valueReferences, ShapeExpr.references, eq_comm] using hmem

mutual
/-- **The label of a hoisted value occurs where the value was**, and nowhere else if it is new. -/
theorem ShapeExpr.HoistsTo.count_valueLabels : {e e' : ShapeExpr} →
    {ds : List (Label × ShapeExpr)} → e.HoistsTo e' ds → l ∉ e.references →
    e'.valueLabels.count l + (ds.flatMap (·.2.valueLabels)).count l = (ds.map (·.1)).count l
  | _, _, _, .and h, hl => h.count_valueLabels hl
  | _, _, _, .or h, hl => h.count_valueLabels hl
  | _, _, _, .not h, hl => h.count_valueLabels hl
  | _, _, _, @ShapeExpr.HoistsTo.shape ⟨_, _, _, _⟩ _ _ h, hl => by
    have := h.count_valueLabels hl
    simpa [ShapeExpr.valueLabels, ShapeExpr.shapes] using this
  | _, _, _, .node _, _ => rfl
  | _, _, _, .external, _ => rfl
  | _, _, _, .ref _, _ => rfl

theorem ShapeExpr.AllHoistTo.count_valueLabels : {es es' : List ShapeExpr} →
    {ds : List (Label × ShapeExpr)} → ShapeExpr.AllHoistTo es es' ds →
    l ∉ ShapeExpr.referencesOfList es →
    ((ShapeExpr.shapesOfList es').flatMap (·.expr.valueLabels)).count l +
      (ds.flatMap (·.2.valueLabels)).count l = (ds.map (·.1)).count l
  | _, _, _, .nil, _ => rfl
  | _, _, _, .cons h hs, hl => by
    rw [ShapeExpr.referencesOfList, List.mem_append, not_or] at hl
    have hfirst := h.count_valueLabels hl.1
    have hrest := hs.count_valueLabels hl.2
    rw [ShapeExpr.valueLabels] at hfirst
    simp only [ShapeExpr.shapesOfList, List.flatMap_append, List.map_append, List.count_append]
    omega

theorem TripleExpr.HoistsTo.count_valueLabels : {e e' : TripleExpr} →
    {ds : List (Label × ShapeExpr)} → e.HoistsTo e' ds → l ∉ e.valueReferences →
    e'.valueLabels.count l + (ds.flatMap (·.2.valueLabels)).count l = (ds.map (·.1)).count l
  | _, _, _, .constraint hc, hl => TripleConstraint.count_valueLabel? hc hl
  | _, _, _, @TripleExpr.HoistsTo.value ⟨_, _, _, _, _⟩ _ _ _ _ rfl _ h, hl => by
    have hinner := h.count_valueLabels hl
    rw [TripleConstraint.valueLabels_ref, List.flatMap_cons, List.map_cons, List.count_append,
      List.count_cons, List.count_cons, List.count_nil]
    dsimp only
    omega
  | _, _, _, .eachOf _ h, hl => h.count_valueLabels hl
  | _, _, _, .oneOf _ h, hl => h.count_valueLabels hl
  | _, _, _, .ref _, _ => rfl
  | _, _, _, .empty, _ => rfl

theorem TripleExpr.AllHoistTo.count_valueLabels : {es es' : List TripleExpr} →
    {ds : List (Label × ShapeExpr)} → TripleExpr.AllHoistTo es es' ds →
    l ∉ TripleExpr.valueReferencesOfList es →
    ((TripleExpr.constraintsOfList es').filterMap (·.valueLabel?)).count l +
      (ds.flatMap (·.2.valueLabels)).count l = (ds.map (·.1)).count l
  | _, _, _, .nil, _ => rfl
  | _, _, _, .cons h hs, hl => by
    rw [TripleExpr.valueReferencesOfList, List.mem_append, not_or] at hl
    have hfirst := h.count_valueLabels hl.1
    have hrest := hs.count_valueLabels hl.2
    rw [TripleExpr.valueLabels] at hfirst
    simp only [TripleExpr.constraintsOfList, List.filterMap_append, List.flatMap_append,
      List.map_append, List.count_append]
    omega
end

end Count

/-! ### Built schemas -/

/-- The triple constraints of all shapes, and those of the labelled triple expressions. -/
def Schema.allConstraints (s : Schema) : List TripleConstraint :=
  s.allShapes.flatMap (·.expr.constraints) ++ s.tripleExprs.flatMap (·.2.constraints)

/-- What a built schema looks like: the values are references; each label has one definition, the
written labels come first and each inline value adds one, which is the value of one constraint; and
the shapes are numbered consecutively. -/
structure Definitions.BuiltForm (d : Definitions) (s : Schema) : Prop where
  values : ∀ c ∈ s.allConstraints, c.value = none ∨ ∃ l, c.value = some (.ref l)
  nodup_labels : s.labels.Nodup
  mem_labels_iff : ∀ l, l ∈ s.labels ↔ (s.shape? l).isSome = true
  labels_prefix : d.shapes.map (·.1) <+: s.labels
  length_labels : s.labels.length = d.shapes.length +
    (ShapeExpr.inlineValuesOfList (d.shapes.map (·.2)) +
      TripleExpr.inlineValuesOfList (d.tripleExprs.map (·.2)))
  generated_once : ∀ l ∈ s.labels, l ∉ d.shapes.map (·.1) →
    s.allConstraints.countP (·.valueLabel? = some l) = 1
  indices : s.allShapes.map (·.index) = List.range s.shapeCount

mutual
theorem TripleExpr.inlineValues_of_mem_constraints {c : TripleConstraint} : (e : TripleExpr) →
    e.inlineValues = 0 → c ∈ e.constraints → c.inlineValues = 0
  | .constraint _, he, hc => by
    obtain rfl := List.mem_singleton.1 hc
    exact he
  | .eachOf es _, he, hc => TripleExpr.inlineValues_of_mem_constraintsOfList es he hc
  | .oneOf es _, he, hc => TripleExpr.inlineValues_of_mem_constraintsOfList es he hc
  | .ref _, _, hc => by cases hc
  | .empty, _, hc => by cases hc

theorem TripleExpr.inlineValues_of_mem_constraintsOfList {c : TripleConstraint} :
    (es : List TripleExpr) → TripleExpr.inlineValuesOfList es = 0 →
    c ∈ TripleExpr.constraintsOfList es → c.inlineValues = 0
  | [], _, hc => by cases hc
  | e :: es, he, hc => by
    rw [TripleExpr.inlineValuesOfList, Nat.add_eq_zero_iff] at he
    rcases List.mem_append.1 hc with hc | hc
    · exact TripleExpr.inlineValues_of_mem_constraints e he.1 hc
    · exact TripleExpr.inlineValues_of_mem_constraintsOfList es he.2 hc
end

mutual
theorem ShapeExpr.inlineValues_of_mem_shapes {x : Shape} : (e : ShapeExpr) →
    e.inlineValues = 0 → x ∈ e.shapes → x.expr.inlineValues = 0
  | .and es, he, hx => ShapeExpr.inlineValues_of_mem_shapesOfList es he hx
  | .or es, he, hx => ShapeExpr.inlineValues_of_mem_shapesOfList es he hx
  | .not e, he, hx => ShapeExpr.inlineValues_of_mem_shapes e he hx
  | .shape ⟨_, _, _, _⟩, he, hx => by
    obtain rfl := List.mem_singleton.1 hx
    exact he
  | .node _, _, hx => by cases hx
  | .external, _, hx => by cases hx
  | .ref _, _, hx => by cases hx

theorem ShapeExpr.inlineValues_of_mem_shapesOfList {x : Shape} : (es : List ShapeExpr) →
    ShapeExpr.inlineValuesOfList es = 0 → x ∈ ShapeExpr.shapesOfList es →
    x.expr.inlineValues = 0
  | [], _, hx => by cases hx
  | e :: es, he, hx => by
    rw [ShapeExpr.inlineValuesOfList, Nat.add_eq_zero_iff] at he
    rcases List.mem_append.1 hx with hx | hx
    · exact ShapeExpr.inlineValues_of_mem_shapes e he.1 hx
    · exact ShapeExpr.inlineValues_of_mem_shapesOfList es he.2 hx
end

mutual
/-- Numbering keeps the expressions of shapes. -/
theorem ShapeExpr.map_expr_number : (k : ℕ) → (e : ShapeExpr) →
    (number k e).1.shapes.map (·.expr) = e.shapes.map (·.expr)
  | k, .and es => ShapeExpr.map_expr_numberList k es
  | k, .or es => ShapeExpr.map_expr_numberList k es
  | k, .not e => ShapeExpr.map_expr_number k e
  | _, .shape _ => rfl
  | _, .node _ => rfl
  | _, .external => rfl
  | _, .ref _ => rfl

theorem ShapeExpr.map_expr_numberList : (k : ℕ) → (es : List ShapeExpr) →
    (shapesOfList (numberList k es).1).map (·.expr) = (shapesOfList es).map (·.expr)
  | _, [] => rfl
  | k, e :: es => by
    rw [numberList, shapesOfList, List.map_append, ShapeExpr.map_expr_number k e,
      ShapeExpr.map_expr_numberList _ es, shapesOfList, List.map_append]
end

theorem length_hoistRounds {fresh : ℕ → Label} {rounds k : ℕ} {es : List ShapeExpr}
    (h : ShapeExpr.inlineValuesOfList es < rounds) :
    (hoistRounds fresh rounds k es).length = es.length + ShapeExpr.inlineValuesOfList es := by
  obtain ⟨es', rest, ds, hall, hto, hds⟩ := hoistRounds_hoistTo fresh k h
  have hrest : rest.length = ds.length := by
    rw [hds.length_eq, ← zip_range'_eq_labelFrom, List.length_zip, List.length_map,
      List.length_range', Nat.min_self]
  rw [hall, List.length_append, hto.length, hrest, hto.length_eq]

/-- **The loop ends** with the hoisted definitions, after one step for each of them. -/
theorem Definitions.iterate_hoistLoop (d : Definitions) :
    ∃ k, (HoistLoop.step (generatedLabel (freshStem d.labels)))^[d.hoist.shapes.length] (.start d) =
      ⟨k, d.hoist.shapes.map (·.2), []⟩ := by
  have hall : d.hoist.shapes.map (·.2) = hoistRounds (generatedLabel (freshStem d.labels))
      (ShapeExpr.inlineValuesOfList (HoistLoop.start d).todo + 1) (HoistLoop.start d).next
      (HoistLoop.start d).todo := by
    refine List.map_snd_zip ?_
    rw [List.length_append, List.length_map, List.length_map, List.length_range]
    omega
  have hlen : d.hoist.shapes.length = (HoistLoop.start d).todo.length +
      ShapeExpr.inlineValuesOfList (HoistLoop.start d).todo := by
    rw [← List.length_map (·.2), hall, length_hoistRounds (Nat.lt_succ_self _)]
  rw [hlen, hall]
  exact HoistLoop.iterate_step [] (Nat.lt_succ_self _)

namespace Definitions.Builds

variable {d : Definitions} {s : Schema} (h : d.Builds s)
include h

/-- The expressions of the shapes of a built schema are those of the hoisted definitions. -/
theorem flatMap_allShapes {α : Type} (f : TripleExpr → List α) :
    s.allShapes.flatMap (f ·.expr) =
      (d.hoist.shapes.map (·.2)).flatMap fun e => e.shapes.flatMap (f ·.expr) := by
  have hmap := ShapeExpr.map_expr_numberList 0 (d.hoist.shapes.map (·.2))
  rw [← h.allShapes_eq] at hmap
  have hflat := congrArg (·.flatMap f) hmap
  simpa only [List.flatMap_map, ShapeExpr.shapesOfList_eq_flatMap, List.flatMap_assoc] using hflat

theorem inlineValues_of_mem_allConstraints {c : TripleConstraint} (hc : c ∈ s.allConstraints) :
    c.inlineValues = 0 := by
  rw [Schema.allConstraints, h.flatMap_allShapes TripleExpr.constraints, h.tripleExprs] at hc
  simp only [List.mem_append, List.mem_flatMap, List.mem_map] at hc
  rcases hc with ⟨_, ⟨p, hp, rfl⟩, x, hx, hc⟩ | ⟨p, hp, hc⟩
  · have hzero := Definitions.inlineValues_hoist_shapes (l := p.1) hp
    exact TripleExpr.inlineValues_of_mem_constraints x.expr
      (ShapeExpr.inlineValues_of_mem_shapes p.2 hzero hx) hc
  · have hzero := Definitions.inlineValues_hoist_tripleExprs (l := p.1) hp
    exact TripleExpr.inlineValues_of_mem_constraints p.2 hzero hc

/-- The labels that the constraints of a built schema refer to. -/
theorem filterMap_allConstraints : s.allConstraints.filterMap (·.valueLabel?) =
    d.hoist.shapes.flatMap (·.2.valueLabels) ++ d.hoist.tripleExprs.flatMap (·.2.valueLabels) := by
  rw [Schema.allConstraints, List.filterMap_append, List.filterMap_flatMap, List.filterMap_flatMap,
    h.tripleExprs]
  have hshapes := h.flatMap_allShapes TripleExpr.valueLabels
  rw [List.flatMap_map] at hshapes
  exact congrArg (· ++ _) hshapes

/-- **A generated label** is the value of one constraint. -/
theorem count_generated {l : Label} (hl : l ∈ s.labels) (hnew : l ∉ d.shapes.map (·.1)) :
    s.allConstraints.countP (·.valueLabel? = some l) = 1 := by
  obtain ⟨new, hto, hnodup, hfresh⟩ := d.hoistsTo_hoist
  rw [h.labels_eq, hto.labels_perm.mem_iff, List.mem_append] at hl
  have hone := List.count_eq_one_of_mem hnodup (hl.resolve_left hnew)
  have hnot : l ∉ d.labels := hfresh l (hl.resolve_left hnew)
  rw [Definitions.mem_labels] at hnot
  obtain ⟨hes, hxs, hperm, htriple, -⟩ := hto
  rename_i es xs ds ds'
  have hshapes := hes.count_valueLabels (l := l) (by tauto)
  have htriples := hxs.count_valueLabels (l := l) (by tauto)
  have hzip := flatMap_zip (d.shapes.map (·.1)) ShapeExpr.valueLabels
    (hes.length.trans (by simp))
  have hzip' := flatMap_zip (d.tripleExprs.map (·.1)) TripleExpr.valueLabels
    (hxs.length.trans (by simp))
  have hcount : (d.hoist.shapes.flatMap (·.2.valueLabels) ++
      d.hoist.tripleExprs.flatMap (·.2.valueLabels)).count l = 1 := by
    have hall := (hperm.flatMap_right (·.2.valueLabels)).count_eq l
    rw [List.flatMap_append, List.flatMap_append, hzip, ShapeExpr.flatMap_valueLabels] at hall
    rw [List.map_append, List.count_append] at hone
    rw [List.count_append, hall, htriple, hzip', TripleExpr.flatMap_valueLabels,
      List.count_append, List.count_append]
    omega
  rw [← h.filterMap_allConstraints, List.count_filterMap] at hcount
  simpa [beq_eq_decide] using hcount

end Definitions.Builds

/-- **Building yields the built form.** The loop that hoists values ends, after one step for each
definition there is in the end, and the schema that is built has references as values, a definition
for each written label and for each inline value, and consecutive numbers for its shapes. -/
theorem Definitions.build_form {d : Definitions} {s : Schema} (h : d.build = .ok s) :
    (∃ k, (HoistLoop.step (generatedLabel (freshStem d.labels)))^[s.labels.length] (.start d) =
      ⟨k, d.hoist.shapes.map (·.2), []⟩) ∧ d.BuiltForm s := by
  have hbuilds := Definitions.builds_of_build h
  have hlabels := hbuilds.labels_eq
  refine ⟨?_, ?_, hbuilds.nodup_labels, ?_, ?_, ?_, ?_, ?_⟩
  · rw [hlabels, List.length_map]
    exact d.iterate_hoistLoop
  · intro c hc
    cases hvalue : c.value with
    | none => exact .inl rfl
    | some v =>
      obtain ⟨l, rfl⟩ := TripleConstraint.eq_ref_of_inlineValues hvalue
        (hbuilds.inlineValues_of_mem_allConstraints hc)
      exact .inr ⟨l, rfl⟩
  · exact fun l => Schema.isSome_shape?_iff.symm
  · obtain ⟨n, hn⟩ := d.hoist_labels
    rw [hlabels, hn]
    exact List.prefix_append _ _
  · obtain ⟨new, hto, -, -⟩ := d.hoistsTo_hoist
    rw [hlabels, List.length_map, hto.length_eq, hto.length_new]
  · exact fun l hl hnew => hbuilds.count_generated hl hnew
  · exact hbuilds.map_index_allShapes

/-- A value with a value inside of it, and one in a triple expression that no shape refers to. -/
def nestedValues : Definitions where
  shapes := [(.iri ⟨"urn:S"⟩, .shape ⟨false, [], .constraint ⟨⟨"urn:p"⟩,
    some (.shape ⟨false, [], .constraint ⟨⟨"urn:q"⟩, some (.or []), .star, false, none⟩, 0⟩),
    .one, false, none⟩, 0⟩)]
  tripleExprs := [(.iri ⟨"urn:E"⟩, .constraint ⟨⟨"urn:r"⟩, some (.and []), .one, false, none⟩)]
  start := none

/-- The value of the triple expression has the first generated label, and values have theirs before
the values inside of them. -/
theorem Definitions.build_form_nestedValues :
    ∃ s, nestedValues.build = .ok s ∧ nestedValues.BuiltForm s ∧
      s.labels = [.iri ⟨"urn:S"⟩, .blank "gen#0", .blank "gen#1", .blank "gen#2"] ∧
      s.shapeCount = 2 := by
  have hbuild : nestedValues.build = .ok
      { shapes := [
          (.iri ⟨"urn:S"⟩, .shape ⟨false, [], .constraint ⟨⟨"urn:p"⟩,
            some (.ref (.blank "gen#1")), .one, false, none⟩, 0⟩),
          (.blank "gen#0", .and []),
          (.blank "gen#1", .shape ⟨false, [], .constraint ⟨⟨"urn:q"⟩,
            some (.ref (.blank "gen#2")), .star, false, none⟩, 1⟩),
          (.blank "gen#2", .or [])]
        tripleExprs := [(.iri ⟨"urn:E"⟩, .constraint ⟨⟨"urn:r"⟩, some (.ref (.blank "gen#0")), .one,
          false, none⟩)]
        start := none, shapeCount := 2
        strata := [[.blank "gen#2"], [.blank "gen#1"], [.iri ⟨"urn:S"⟩], [.blank "gen#0"]] } := by
    cbv
  obtain ⟨-, hform⟩ := Definitions.build_form hbuild
  exact ⟨_, hbuild, hform, rfl, rfl⟩

end ShapeTyping
