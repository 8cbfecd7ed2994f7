import Mathlib
import ShapeTyping.Proofs.Reachability.Components
import ShapeTyping.Proofs.Schema.NormalForm

/-!
# Strata of a built schema

A definition of a built schema depends on labels of its own stratum and of lower ones, and
strictly on labels of lower ones only.

* `TripleExpr.mem_dependencies`, `TripleExpr.exists_dependency`: the dependencies of an expression
  are those of its triple constraints.
* `TripleExpr.mem_constraints_unfold`: unfolding adds no triple constraint.
* `Definitions.Checked.closed`: the labels of checked definitions depend on each other only.
* `Definitions.Builds.descends`: no dependency goes up, and a strict one goes down.
-/

namespace ShapeTyping

/-! ### Triple constraints of an expression -/

theorem TripleConstraint.mem_valueReferences_of_valueLabel?
    {c : TripleConstraint} {l : Label} (h : c.valueLabel? = some l) : l ∈ c.valueReferences := by
  obtain ⟨p, _ | v, card, i, lab⟩ := c
  · cases h
  · cases v <;> simp_all [TripleConstraint.valueLabel?, ShapeExpr.ref?,
      TripleConstraint.valueReferences, ShapeExpr.references]

namespace TripleExpr

theorem mem_constraintsOfList {c : TripleConstraint} {es : List TripleExpr} :
    c ∈ constraintsOfList es ↔ ∃ e ∈ es, c ∈ e.constraints := by
  induction es with
  | nil => simp [constraintsOfList]
  | cons e es ih => simp [constraintsOfList, ih]

/-- What holds of the constraints of an expression and of all definitions holds of those of the
expanded expression. -/
theorem constraints_expandIn {defs : List (Label × TripleExpr)} {e x : TripleExpr}
    {P : TripleConstraint → Prop} (hd : ∀ p ∈ defs, ∀ c ∈ p.2.constraints, P c)
    (he : ∀ c ∈ e.constraints, P c) (hx : e.expandIn defs = .ok x) : ∀ c ∈ x.constraints, P c := by
  have hgroup : ∀ es : List TripleExpr,
      (∀ c ∈ constraintsOfList es, P c) ↔ True ∧ ∀ e ∈ es, ∀ c ∈ e.constraints, P c := by
    intro es
    simp only [mem_constraintsOfList, true_and]
    exact ⟨fun h e he c hc => h c ⟨e, he, hc⟩, fun h c ⟨e, he, hc⟩ => h e he c hc⟩
  have hP : Hereditary (fun e => ∀ c ∈ e.constraints, P c) fun _ => True :=
    ⟨fun es _ => hgroup es, fun es _ => hgroup es⟩
  exact expandIn_hereditary hP hd he hx

theorem constraints_withCard_group {group : TripleExpr} (card : Cardinality)
    (hg : ∀ c, group ≠ constraint c) : (group.withCard card).constraints = group.constraints := by
  cases group with
  | constraint c => exact absurd rfl (hg c)
  | _ => rfl

theorem mem_constraints_unfoldGroup {group : TripleExpr} {card : Cardinality}
    {c : TripleConstraint} (hg : ∀ c, group ≠ constraint c)
    (h : c ∈ (unfoldGroup group card).constraints) : c ∈ group.constraints := by
  unfold unfoldGroup at h
  split at h
  · rwa [constraints_withCard_group card hg] at h
  split at h
  · simp [constraints] at h
  rw [constraints, mem_constraintsOfList] at h
  obtain ⟨e, he, hc⟩ := h
  -- each copy is the group itself or the group with another cardinality
  have hcopy : e = group ∨ ∃ card, e = group.withCard card := by
    split at he
    · rcases List.mem_append.1 he with he | he
      · exact .inl (List.eq_of_mem_replicate he)
      · exact .inr ⟨_, List.eq_of_mem_replicate he⟩
    · rcases List.mem_append.1 he with he | he
      · exact .inl (List.eq_of_mem_replicate he)
      · exact .inr ⟨_, List.mem_singleton.1 he⟩
  rcases hcopy with rfl | ⟨card, rfl⟩
  · exact hc
  · rwa [constraints_withCard_group card hg] at hc

mutual
/-- **Unfolding adds no triple constraint.** -/
theorem mem_constraints_unfold {c : TripleConstraint} : (e : TripleExpr) →
    c ∈ e.unfold.constraints → c ∈ e.constraints
  | constraint _, h => h
  | eachOf es card, h => by
    rw [unfold] at h
    exact mem_constraintsOfList_unfoldList es (mem_constraints_unfoldGroup (fun _ h => by cases h) h)
  | oneOf es card, h => by
    rw [unfold] at h
    exact mem_constraintsOfList_unfoldList es (mem_constraints_unfoldGroup (fun _ h => by cases h) h)
  | ref _, h => h
  | empty, h => h

theorem mem_constraintsOfList_unfoldList {c : TripleConstraint} : (es : List TripleExpr) →
    c ∈ constraintsOfList (unfoldList es) → c ∈ constraintsOfList es
  | [], h => h
  | e :: es, h => by
    rcases List.mem_append.1 h with h | h
    · exact List.mem_append_left _ (mem_constraints_unfold e h)
    · exact List.mem_append_right _ (mem_constraintsOfList_unfoldList es h)
end

mutual
theorem mem_valueReferences {r : Label} : (e : TripleExpr) →
    (r ∈ e.valueReferences ↔ ∃ c ∈ e.constraints, r ∈ c.valueReferences)
  | constraint c => by simp [valueReferences, constraints]
  | eachOf es _ => by rw [valueReferences, constraints, mem_valueReferencesOfList es]
  | oneOf es _ => by rw [valueReferences, constraints, mem_valueReferencesOfList es]
  | ref _ => by simp [valueReferences, constraints]
  | empty => by simp [valueReferences, constraints]

theorem mem_valueReferencesOfList {r : Label} : (es : List TripleExpr) →
    (r ∈ valueReferencesOfList es ↔ ∃ c ∈ constraintsOfList es, r ∈ c.valueReferences)
  | [] => by simp [valueReferencesOfList, constraintsOfList]
  | e :: es => by
    simp only [valueReferencesOfList, constraintsOfList, List.mem_append, mem_valueReferences e,
      mem_valueReferencesOfList es, or_and_right, exists_or]
end

/-! ### Dependencies of a triple expression -/

section Dependencies

variable {source : Label} {extra : List Iri}

mutual
/-- A dependency of an expression comes from the value of one of its constraints, and is negative
if the expression is below a negation. -/
theorem mem_dependencies {neg zero : Bool} {d : Dependency} : (e : TripleExpr) →
    d ∈ e.dependencies source extra neg zero →
      d.source = source ∧ (neg = true → d.negative = true) ∧
        ∃ c ∈ e.constraints, c.valueLabel? = some d.target
  | constraint c, h => by
    rw [dependencies] at h
    split at h
    · simp at h
    · rename_i l hl
      obtain rfl := List.mem_singleton.1 h
      exact ⟨rfl, fun hneg => by simp [hneg], c, by simp [constraints], hl⟩
  | eachOf es card, h => mem_dependenciesOfList es h
  | oneOf es card, h => mem_dependenciesOfList es h
  | ref _, h => by simp [dependencies] at h
  | empty, h => by simp [dependencies] at h

theorem mem_dependenciesOfList {neg zero : Bool} {d : Dependency} : (es : List TripleExpr) →
    d ∈ dependenciesOfList source extra neg zero es →
      d.source = source ∧ (neg = true → d.negative = true) ∧
        ∃ c ∈ constraintsOfList es, c.valueLabel? = some d.target
  | [], h => by simp [dependenciesOfList] at h
  | e :: es, h => by
    rcases List.mem_append.1 h with h | h
    · obtain ⟨hs, hneg, c, hc, hl⟩ := mem_dependencies e h
      exact ⟨hs, hneg, c, List.mem_append_left _ hc, hl⟩
    · obtain ⟨hs, hneg, c, hc, hl⟩ := mem_dependenciesOfList es h
      exact ⟨hs, hneg, c, List.mem_append_right _ hc, hl⟩
end

mutual
/-- The value of a constraint gives a dependency, negative through an extra predicate and
strict if the constraint allows no triple. -/
theorem exists_dependency {neg : Bool} {c : TripleConstraint} {l : Label}
    (hl : c.valueLabel? = some l) : (zero : Bool) → (e : TripleExpr) → c ∈ e.constraints →
      ∃ z, ⟨source, l, neg || c.predicate ∈ extra, z⟩ ∈ e.dependencies source extra neg zero ∧
        (c.card.isZero = true → z = true)
  | zero, constraint c', h => by
    obtain rfl := List.mem_singleton.1 h
    refine ⟨zero || c.card.isZero, ?_, fun hz => by simp [hz]⟩
    simp [dependencies, hl]
  | zero, eachOf es card, h => exists_dependencyOfList hl _ es h
  | zero, oneOf es card, h => exists_dependencyOfList hl _ es h
  | _, ref _, h => by simp [constraints] at h
  | _, empty, h => by simp [constraints] at h

theorem exists_dependencyOfList {neg : Bool} {c : TripleConstraint} {l : Label}
    (hl : c.valueLabel? = some l) : (zero : Bool) → (es : List TripleExpr) →
      c ∈ constraintsOfList es →
      ∃ z, ⟨source, l, neg || c.predicate ∈ extra, z⟩ ∈
          dependenciesOfList source extra neg zero es ∧ (c.card.isZero = true → z = true)
  | _, [], h => by simp [constraintsOfList] at h
  | zero, e :: es, h => by
    rcases List.mem_append.1 h with h | h
    · obtain ⟨z, hz, hc⟩ := exists_dependency hl zero e h
      exact ⟨z, List.mem_append_left _ hz, hc⟩
    · obtain ⟨z, hz, hc⟩ := exists_dependencyOfList hl zero es h
      exact ⟨z, List.mem_append_right _ hz, hc⟩
end

end Dependencies

end TripleExpr

/-! ### Dependencies of a definition -/

namespace ShapeExpr

mutual
/-- The numbers of shapes do not matter for dependencies. -/
theorem dependencies_number {defs : List (Label × TripleExpr)} {source : Label} {neg : Bool} :
    (k : ℕ) → (e : ShapeExpr) →
      (number k e).1.dependencies defs source neg = e.dependencies defs source neg
  | k, and es => by
    rw [number, dependencies, dependencies, dependenciesOfList_numberList k es]
  | k, or es => by
    rw [number, dependencies, dependencies, dependenciesOfList_numberList k es]
  | k, not e => by
    rw [number, dependencies, dependencies, dependencies_number k e]
  | k, node _ => rfl
  | k, shape s => by rw [number, dependencies, dependencies]
  | k, external => rfl
  | k, ref _ => rfl

theorem dependenciesOfList_numberList {defs : List (Label × TripleExpr)} {source : Label}
    {neg : Bool} : (k : ℕ) → (es : List ShapeExpr) →
      dependenciesOfList defs source neg (numberList k es).1 = dependenciesOfList defs source neg es
  | k, [] => rfl
  | k, e :: es => by
    rw [numberList, dependenciesOfList, dependenciesOfList, dependencies_number k e,
      dependenciesOfList_numberList _ es]
end

variable {defs : List (Label × TripleExpr)} {source : Label} {labels : List Label}

mutual
/-- A dependency of a part of a definition has the definition as its source, and is negative if
the part is below a negation. -/
theorem source_of_mem_dependencies {neg : Bool} {d : Dependency} :
    (e : ShapeExpr) → d ∈ e.dependencies defs source neg →
      d.source = source ∧ (neg = true → d.negative = true)
  | and es, hm => by
    rw [dependencies] at hm
    exact source_of_mem_dependenciesOfList es hm
  | or es, hm => by
    rw [dependencies] at hm
    exact source_of_mem_dependenciesOfList es hm
  | not e, hm => by
    rw [dependencies] at hm
    obtain ⟨hs, hneg⟩ := source_of_mem_dependencies e hm
    exact ⟨hs, fun _ => hneg rfl⟩
  | node _, hm => by simp [dependencies] at hm
  | shape s, hm => by
    rw [dependencies] at hm
    split at hm
    · rename_i x hx
      obtain ⟨hs, hneg, -⟩ := TripleExpr.mem_dependencies x hm
      exact ⟨hs, hneg⟩
    · simp at hm
  | external, hm => by simp [dependencies] at hm
  | ref l, hm => by
    obtain rfl := List.mem_singleton.1 hm
    exact ⟨rfl, id⟩

theorem source_of_mem_dependenciesOfList {neg : Bool} {d : Dependency} :
    (es : List ShapeExpr) → d ∈ dependenciesOfList defs source neg es →
      d.source = source ∧ (neg = true → d.negative = true)
  | [], hm => by simp [dependenciesOfList] at hm
  | e :: es, hm => by
    rcases List.mem_append.1 hm with hm | hm
    · exact source_of_mem_dependencies e hm
    · exact source_of_mem_dependenciesOfList es hm
end

mutual
/-- A dependency of a definition leads to a label that the definition or one of the triple
expressions refers to. -/
theorem mem_labels_of_mem_dependencies
    (hd : ∀ p ∈ defs, ∀ r ∈ p.2.valueReferences, r ∈ labels) {neg : Bool} {d : Dependency} :
    (e : ShapeExpr) → (∀ r ∈ e.references, r ∈ labels) → d ∈ e.dependencies defs source neg →
      d.target ∈ labels
  | and es, h, hm => by
    rw [dependencies] at hm
    exact mem_labels_of_mem_dependenciesOfList hd es h hm
  | or es, h, hm => by
    rw [dependencies] at hm
    exact mem_labels_of_mem_dependenciesOfList hd es h hm
  | not e, h, hm => by
    rw [dependencies] at hm
    exact mem_labels_of_mem_dependencies hd e h hm
  | node _, _, hm => by simp [dependencies] at hm
  | shape ⟨closed, extra, e, index⟩, h, hm => by
    rw [dependencies] at hm
    split at hm
    · rename_i x hx
      obtain ⟨-, -, c, hc, hl⟩ := TripleExpr.mem_dependencies x hm
      have hvalues : ∀ c ∈ x.constraints, ∀ r ∈ c.valueReferences, r ∈ labels := by
        refine TripleExpr.constraints_expandIn
          (P := fun c => ∀ r ∈ c.valueReferences, r ∈ labels) ?_ ?_ hx
        · intro p hp c hc r hr
          exact hd p hp r (p.2.mem_valueReferences.2 ⟨c, hc, hr⟩)
        · intro c hc r hr
          exact h r (e.mem_valueReferences.2 ⟨c, hc, hr⟩)
      exact hvalues c hc _ (TripleConstraint.mem_valueReferences_of_valueLabel? hl)
    · simp at hm
  | external, _, hm => by simp [dependencies] at hm
  | ref l, h, hm => by
    obtain rfl := List.mem_singleton.1 hm
    exact h l (by simp [references])

theorem mem_labels_of_mem_dependenciesOfList
    (hd : ∀ p ∈ defs, ∀ r ∈ p.2.valueReferences, r ∈ labels) {neg : Bool} {d : Dependency} :
    (es : List ShapeExpr) → (∀ r ∈ referencesOfList es, r ∈ labels) →
      d ∈ dependenciesOfList defs source neg es → d.target ∈ labels
  | [], _, hm => by simp [dependenciesOfList] at hm
  | e :: es, h, hm => by
    rcases List.mem_append.1 hm with hm | hm
    · exact mem_labels_of_mem_dependencies hd e (fun r hr => h r (List.mem_append_left _ hr)) hm
    · exact mem_labels_of_mem_dependenciesOfList hd es
        (fun r hr => h r (List.mem_append_right _ hr)) hm
end

end ShapeExpr

/-- **The value of a compiled constraint** gives a dependency of its shape, strict if the
predicate is extra or the constraint allows no triple. -/
theorem Schema.exists_dependency {s : Schema} {x : Shape} {c : Compiled}
    (hc : s.compile x.expr = .ok c) {t : TripleConstraint} (ht : t ∈ c.constraints) {l : Label}
    (hl : t.valueLabel? = some l) (source : Label) (neg : Bool) :
    ∃ z, ⟨source, l, neg || t.predicate ∈ x.extra, z⟩ ∈
        (ShapeExpr.shape x).dependencies s.tripleExprs source neg ∧
      (t.card.isZero = true → z = true) := by
  obtain ⟨e, he, rfl⟩ := Except.map_eq_ok hc
  have hdeps : (ShapeExpr.shape x).dependencies s.tripleExprs source neg =
      e.dependencies source x.extra neg false := by
    rw [Schema.expand] at he
    rw [ShapeExpr.dependencies, he]
  rw [hdeps]
  exact TripleExpr.exists_dependency hl false e (TripleExpr.mem_constraints_unfold e ht)

/-! ### Strata -/

theorem Dependency.strict?_ne_none {d : Dependency} :
    d.strict? ≠ none ↔ d.negative = true ∨ d.zeroCardinality = true := by
  unfold Dependency.strict?
  by_cases hn : d.negative = true
  · simp [hn]
  · by_cases hz : d.zeroCardinality = true
    · simp [hn, hz]
    · simp [hn, hz]

theorem mem_successors {deps : List Dependency} {a b : Label} :
    b ∈ successors deps a ↔ ∃ d ∈ deps, d.source = a ∧ d.target = b := by
  simp [successors, and_assoc]

/-- Whether the stratum of a label is that of another one or a lower one. -/
def Schema.NotAbove (s : Schema) (l m : Label) : Prop :=
  ∃ i j, s.stratum? l = some i ∧ s.stratum? m = some j ∧ i ≤ j

/-- Whether the stratum of a label is lower than that of another one. -/
def Schema.Below (s : Schema) (l m : Label) : Prop :=
  ∃ i j, s.stratum? l = some i ∧ s.stratum? m = some j ∧ i < j

/-- Whether a dependency leads to no higher stratum, and to a lower one if it is strict. -/
def Schema.Descends (s : Schema) (d : Dependency) : Prop :=
  s.NotAbove d.target d.source ∧ (d.strict? ≠ none → s.Below d.target d.source)

theorem Schema.NotAbove.trans {s : Schema} {k l m : Label} (h : s.NotAbove k l)
    (h' : s.NotAbove l m) : s.NotAbove k m := by
  obtain ⟨i, j, hi, hj, hij⟩ := h
  obtain ⟨j', n, hj', hn, hjn⟩ := h'
  rw [hj] at hj'
  cases hj'
  exact ⟨i, n, hi, hn, hij.trans hjn⟩

/-- A label below another one is not that one, nor one of those that it is not above. -/
theorem Schema.Below.ne {s : Schema} {k l m : Label} (h : s.Below k l) (h' : s.NotAbove l m) :
    k ≠ m := by
  rintro rfl
  obtain ⟨i, j, hi, hj, hij⟩ := h
  obtain ⟨j', i', hj', hi', hji⟩ := h'
  rw [hj] at hj'
  rw [hi] at hi'
  cases hj'
  cases hi'
  omega

theorem Schema.NotAbove.refl {s : Schema} {l : Label} {i : ℕ} (h : s.stratum? l = some i) :
    s.NotAbove l l := ⟨i, i, h, h, le_rfl⟩

theorem stratify_eq_ok {labels : List Label} {deps : List Dependency}
    {classes : List (List Label)} (h : stratify labels deps = .ok classes) :
    classes = strata labels deps ∧
      ∀ d ∈ deps, d.strict? ≠ none → ∀ C, classes.find? (d.source ∈ ·) = some C → d.target ∉ C := by
  unfold stratify at h
  simp only at h
  split at h
  · cases h
  rename_i hnone
  cases h
  refine ⟨rfl, fun d hd hs C hC hm => ?_⟩
  obtain ⟨kind, hk⟩ := Option.ne_none_iff_exists'.1 hs
  have := List.findSome?_eq_none_iff.1 hnone d hd
  simp [hk, hC, hm] at this

namespace Definitions.Checked

variable {d : Definitions} (h : d.Checked)
include h

theorem mem_dependencies {dep : Dependency} (hm : dep ∈ d.hoist.dependencies) :
    dep.source ∈ d.hoist.shapes.map (·.1) ∧ dep.target ∈ d.hoist.shapes.map (·.1) := by
  obtain ⟨⟨l, e⟩, hl, hdep⟩ := List.mem_flatMap.1 hm
  have hdefs : ∀ p ∈ d.hoist.tripleExprs, ∀ r ∈ p.2.valueReferences,
      r ∈ d.hoist.shapes.map (·.1) := by
    intro p hp r hr
    exact (h.defined_of_tripleExpr hp).1 hr
  refine ⟨?_, ShapeExpr.mem_labels_of_mem_dependencies hdefs e
    (fun r hr => (h.defined_of_shape hl).1 hr) hdep⟩
  rw [(ShapeExpr.source_of_mem_dependencies e hdep).1]
  exact List.mem_map_of_mem hl

/-- **The labels of checked definitions** depend on each other only. -/
theorem closed : Closed (successors d.hoist.dependencies) (d.hoist.shapes.map (·.1)) := by
  intro a _ b hb
  obtain ⟨dep, hdep, -, rfl⟩ := mem_successors.1 hb
  exact (h.mem_dependencies hdep).2

end Definitions.Checked

namespace Definitions.Builds

variable {d : Definitions} {s : Schema} (h : d.Builds s)
include h

theorem mem_dependencies {dep : Dependency} (hm : dep ∈ d.hoist.dependencies) :
    dep.source ∈ s.labels ∧ dep.target ∈ s.labels := by
  rw [h.labels_eq]
  exact h.checked.mem_dependencies hm

theorem closed : Closed (successors d.hoist.dependencies) s.labels := by
  rw [h.labels_eq]
  exact h.checked.closed

theorem strata_eq : s.strata = components (successors d.hoist.dependencies) s.labels := by
  rw [h.labels_eq]
  exact (stratify_eq_ok h.stratified).1

/-- A stratum is found for every label. -/
theorem stratum_lt {l : Label} (hl : l ∈ s.labels) :
    ∃ i, s.stratum? l = some i ∧ ∃ hi : i < s.strata.length, l ∈ s.strata[i] := by
  obtain ⟨C, hC, hlC⟩ := components_cover h.nodup_labels h.closed hl
  rw [← h.strata_eq] at hC
  have hsome : (s.stratum? l).isSome := by
    rw [Schema.stratum?, List.findIdx?_isSome]
    exact List.any_eq_true.2 ⟨C, hC, by simpa using hlC⟩
  obtain ⟨i, hi⟩ := Option.isSome_iff_exists.1 hsome
  obtain ⟨hlt, hmem, -⟩ := List.findIdx?_eq_some_iff_getElem.1 hi
  exact ⟨i, hi, hlt, by simpa using hmem⟩

theorem mem_labels_of_stratum? {l : Label} {i : ℕ} (hi : s.stratum? l = some i) :
    l ∈ s.labels := by
  obtain ⟨hlt, hmem, -⟩ := List.findIdx?_eq_some_iff_getElem.1 hi
  refine mem_of_mem_component h.nodup_labels h.closed (C := s.strata[i]) ?_ (by simpa using hmem)
  rw [← h.strata_eq]
  exact List.getElem_mem hlt

/-- **No dependency goes up, and a strict one goes down.** -/
theorem descends_of_hoist {dep : Dependency} (hm : dep ∈ d.hoist.dependencies) :
    s.Descends dep := by
  obtain ⟨hsource, htarget⟩ := h.mem_dependencies hm
  obtain ⟨i, hi, hilt, hsi⟩ := h.stratum_lt hsource
  obtain ⟨j, hj, hjlt, htj⟩ := h.stratum_lt htarget
  have hpair := components_pairwise h.nodup_labels h.closed
  rw [← h.strata_eq] at hpair
  -- a dependency is an edge, and no edge leads to a later class
  have hji : j ≤ i := by
    by_contra hlt
    have hij : i < j := by omega
    have hedge : dep.target ∈ successors d.hoist.dependencies dep.source :=
      mem_successors.2 ⟨dep, hm, rfl, rfl⟩
    exact List.pairwise_iff_getElem.1 hpair i j hilt hjlt hij _ hsi _ hedge htj
  refine ⟨⟨j, i, hj, hi, hji⟩, fun hstrict => ⟨j, i, hj, hi, ?_⟩⟩
  have hne : j ≠ i := by
    rintro rfl
    have hfind : s.strata.find? (dep.source ∈ ·) = some s.strata[j] := by
      obtain ⟨_, hmem, hmin⟩ := List.findIdx?_eq_some_iff_getElem.1 hi
      refine List.find?_eq_some_iff_getElem.2 ⟨hmem, j, hjlt, rfl, fun k hk => ?_⟩
      simpa using hmin k hk
    exact (stratify_eq_ok h.stratified).2 dep hm hstrict _ hfind htj
  omega

/-- **The dependencies of a definition** of the schema go up to no stratum, and strict ones go
down. -/
theorem descends {l : Label} {e : ShapeExpr} (hl : (l, e) ∈ s.shapes) {dep : Dependency}
    (hm : dep ∈ e.dependencies s.tripleExprs l false) : s.Descends dep := by
  obtain ⟨e₀, n, hl₀, rfl⟩ := h.mem_shapes hl
  rw [ShapeExpr.dependencies_number, h.tripleExprs] at hm
  exact h.descends_of_hoist (List.mem_flatMap.2 ⟨(l, e₀), hl₀, hm⟩)

end Definitions.Builds

end ShapeTyping
