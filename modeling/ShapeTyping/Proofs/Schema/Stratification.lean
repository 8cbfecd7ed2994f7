import Mathlib
import ShapeTyping.Proofs.Schema.Dependencies

/-!
# Stratification

The classes found by the depth-first search are those of mutually dependent labels, and a strict
dependency inside one of them is one that lies on a cycle. So checked definitions are rejected
exactly if a strict dependency lies on a cycle, and the strata of a built schema order its labels
by their dependencies.

* `Definitions.Offends`: a strict dependency on a cycle.
* `stratify_eq_error`: what a rejection reports of the classes.
* `Definitions.Checked.build_eq`: checked definitions are built unless they are not stratified.
* `Definitions.build_rejects_exactly`: rejection, and what it reports.
* `Definitions.build_strata`: the strata of a built schema.
-/

namespace ShapeTyping

open Relation

/-- A strict dependency on a cycle: a negative reference, or one below a cardinality of zero, to a
label that dependencies lead back from. -/
def Definitions.Offends (d : Definitions) (l t : Label) (neg zero : Bool) : Prop :=
  d.DependsOn l t neg zero ∧ (neg = true ∨ zero = true) ∧ d.Reaches t l

/-! ### Classes of checked definitions -/

/-- **A rejection** reports a strict dependency inside a class. -/
theorem stratify_eq_error {labels : List Label} {deps : List Dependency} {err : SchemaError}
    (h : stratify labels deps = .error err) :
    ∃ dep ∈ deps, ∃ kind, dep.strict? = some kind ∧ ∃ C ∈ strata labels deps,
      dep.source ∈ C ∧ dep.target ∈ C ∧ err = .notStratified dep.source dep.target kind C := by
  unfold stratify at h
  simp only at h
  split at h
  · rename_i e hfound
    cases h
    obtain ⟨dep, hdep, hoffence⟩ := List.exists_of_findSome?_eq_some hfound
    cases hkind : dep.strict? with
    | none => simp [hkind] at hoffence
    | some kind =>
      cases hfind : (strata labels deps).find? (dep.source ∈ ·) with
      | none => simp [hkind, hfind] at hoffence
      | some C =>
        have hsource : dep.source ∈ C := by simpa using List.find?_some hfind
        by_cases htarget : dep.target ∈ C
        · refine ⟨dep, hdep, kind, hkind, C, List.mem_of_find?_eq_some hfind, hsource, htarget, ?_⟩
          simpa [hkind, hfind, htarget] using hoffence.symm
        · simp [hkind, hfind, htarget] at hoffence
  · cases h

theorem Dependency.strict?_eq_some {dep : Dependency} {kind : StrictKind} :
    dep.strict? = some kind ↔ (dep.negative = true ∨ dep.zeroCardinality = true) ∧
      kind = if dep.negative then .negative else .zeroCardinality := by
  obtain ⟨l, t, neg, zero⟩ := dep
  cases neg <;> cases zero <;> simp [Dependency.strict?, eq_comm]

namespace Definitions.Checked

variable {d : Definitions} (h : d.Checked)
include h

theorem mem_successors_iff {l t : Label} :
    t ∈ successors d.hoist.dependencies l ↔ ∃ neg zero, d.hoist.DependsOn l t neg zero := by
  rw [mem_successors]
  constructor
  · rintro ⟨dep, hdep, rfl, rfl⟩
    exact ⟨_, _, h.mem_dependencies_iff.1 hdep⟩
  · rintro ⟨neg, zero, hdep⟩
    exact ⟨⟨l, t, neg, zero⟩, h.mem_dependencies_iff.2 hdep, rfl, rfl⟩

/-- Walks over the collected dependencies are walks over references. -/
theorem reaches_iff {l t : Label} :
    ShapeTyping.Reaches (successors d.hoist.dependencies) l t ↔ d.hoist.Reaches l t := by
  have hstep : (fun l t => t ∈ successors d.hoist.dependencies l) =
      fun l t => ∃ neg zero, d.hoist.DependsOn l t neg zero := by
    funext l t
    exact propext h.mem_successors_iff
  rw [ShapeTyping.Reaches, hstep]
  rfl

/-- **A class of labels** is what is mutually dependent with any of its members. -/
theorem mem_class_iff {C : List Label}
    (hC : C ∈ strata (d.hoist.shapes.map (·.1)) d.hoist.dependencies) {l m : Label} (hl : l ∈ C) :
    m ∈ C ↔ d.hoist.Reaches l m ∧ d.hoist.Reaches m l := by
  rw [mem_component h.nodup_labels h.closed hC hl, h.reaches_iff, h.reaches_iff]

/-- Checked definitions are built unless they are not stratified. -/
theorem build_eq : d.build =
    (stratify (d.hoist.shapes.map (·.1)) d.hoist.dependencies).map fun strata =>
      { shapes := (d.hoist.shapes.map (·.1)).zip
          (ShapeExpr.numberList 0 (d.hoist.shapes.map (·.2))).1
        tripleExprs := d.hoist.tripleExprs
        start := d.hoist.start
        shapeCount := (ShapeExpr.numberList 0 (d.hoist.shapes.map (·.2))).2
        strata } := by
  obtain ⟨hshapes, htriples, hcheck⟩ := Definitions.checked_iff.1 h
  unfold Definitions.build
  rw [hshapes, htriples]
  simp only [hcheck, bind, Except.bind, pure, Except.pure]
  cases stratify (d.hoist.shapes.map (·.1)) d.hoist.dependencies <;> rfl

/-- Checked definitions without a strict dependency on a cycle are built. -/
theorem build_ok (hno : ∀ l t neg zero, ¬ d.hoist.Offends l t neg zero) :
    ∃ s, d.build = .ok s := by
  rw [h.build_eq]
  cases hst : stratify (d.hoist.shapes.map (·.1)) d.hoist.dependencies with
  | ok strata => exact ⟨_, rfl⟩
  | error err =>
    obtain ⟨dep, hdep, kind, hkind, C, hC, hsource, htarget, -⟩ := stratify_eq_error hst
    have hback := ((h.mem_class_iff hC hsource).1 htarget).2
    exact absurd ⟨h.mem_dependencies_iff.1 hdep, (Dependency.strict?_eq_some.1 hkind).1, hback⟩
      (hno _ _ _ _)

/-- A strict dependency on a cycle lies inside a class, so the definitions are rejected. -/
theorem build_error {l t : Label} {neg zero : Bool} (ho : d.hoist.Offends l t neg zero) :
    ∃ l t kind C, d.build = .error (.notStratified l t kind C) := by
  obtain ⟨hdep, hstrict, hback⟩ := ho
  rw [h.build_eq]
  cases hst : stratify (d.hoist.shapes.map (·.1)) d.hoist.dependencies with
  | error err =>
    obtain ⟨dep, -, kind, -, C, -, -, -, rfl⟩ := stratify_eq_error hst
    exact ⟨_, _, _, _, rfl⟩
  | ok classes =>
    exfalso
    obtain ⟨rfl, hclean⟩ := stratify_eq_ok hst
    have hmem : ⟨l, t, neg, zero⟩ ∈ d.hoist.dependencies := h.mem_dependencies_iff.2 hdep
    have hl := (h.mem_dependencies hmem).1
    -- the class found for the source has the target, which reaches the source
    obtain ⟨C, hC, hlC⟩ := components_cover h.nodup_labels h.closed hl
    obtain ⟨D, hD⟩ : ∃ D, (strata (d.hoist.shapes.map (·.1)) d.hoist.dependencies).find?
        (l ∈ ·) = some D := by
      rw [← Option.isSome_iff_exists, List.find?_isSome]
      exact ⟨C, hC, by simpa using hlC⟩
    have hlD : l ∈ D := by simpa using List.find?_some hD
    have hforth : d.hoist.Reaches l t := ReflTransGen.single ⟨neg, zero, hdep⟩
    have htD : t ∈ D :=
      (h.mem_class_iff (List.mem_of_find?_eq_some hD) hlD).2 ⟨hforth, hback⟩
    exact hclean _ hmem (Dependency.strict?_ne_none.2 hstrict) D hD htD

end Definitions.Checked

/-! ### Rejection -/

/-- **Rejection by stratification is exact.** Checked definitions are rejected if and only if a
strict dependency lies on a cycle, and are built otherwise. What a rejection reports is such a
dependency, its kind and the labels that are mutually dependent with its source. -/
theorem Definitions.build_rejects_exactly {d : Definitions} (h : d.Checked) :
    ((∃ l t kind C, d.build = .error (.notStratified l t kind C)) ↔
        ∃ l t neg zero, d.hoist.Offends l t neg zero) ∧
      ((¬ ∃ l t neg zero, d.hoist.Offends l t neg zero) → ∃ s, d.build = .ok s) ∧
      ∀ l t kind C, d.build = .error (.notStratified l t kind C) →
        (∃ neg zero, d.hoist.Offends l t neg zero ∧
          kind = if neg then .negative else .zeroCardinality) ∧
        ∀ m, m ∈ C ↔ d.hoist.Reaches l m ∧ d.hoist.Reaches m l := by
  have hreport : ∀ l t kind C, d.build = .error (.notStratified l t kind C) →
      (∃ neg zero, d.hoist.Offends l t neg zero ∧
          kind = if neg then .negative else .zeroCardinality) ∧
        ∀ m, m ∈ C ↔ d.hoist.Reaches l m ∧ d.hoist.Reaches m l := by
    intro l t kind C hbuild
    rw [h.build_eq] at hbuild
    cases hst : stratify (d.hoist.shapes.map (·.1)) d.hoist.dependencies with
    | ok strata =>
      rw [hst] at hbuild
      cases hbuild
    | error err =>
      rw [hst] at hbuild
      obtain ⟨dep, hdep, kind', hkind, C', hC, hsource, htarget, rfl⟩ := stratify_eq_error hst
      cases hbuild
      obtain ⟨hstrict, hkind⟩ := Dependency.strict?_eq_some.1 hkind
      have hback := ((h.mem_class_iff hC hsource).1 htarget).2
      exact ⟨⟨_, _, ⟨h.mem_dependencies_iff.1 hdep, hstrict, hback⟩, hkind⟩,
        fun m => h.mem_class_iff hC hsource⟩
  refine ⟨⟨?_, ?_⟩, ?_, hreport⟩
  · rintro ⟨l, t, kind, C, hbuild⟩
    obtain ⟨⟨neg, zero, ho, -⟩, -⟩ := hreport l t kind C hbuild
    exact ⟨l, t, neg, zero, ho⟩
  · rintro ⟨l, t, neg, zero, ho⟩
    exact h.build_error ho
  · intro hno
    exact h.build_ok fun l t neg zero ho => hno ⟨l, t, neg, zero, ho⟩

/-- Two shapes that refer to each other, one of them through a triple expression in a group that
allows no triple. -/
def emptiedGroup : Definitions where
  shapes := [
    (.iri ⟨"urn:S"⟩, .shape ⟨false, [], .eachOf [.ref (.iri ⟨"urn:E"⟩)] ⟨0, some 0⟩, 0⟩),
    (.iri ⟨"urn:T"⟩, .and [.ref (.iri ⟨"urn:S"⟩)])]
  tripleExprs := [
    (.iri ⟨"urn:E"⟩, .constraint ⟨⟨"urn:p"⟩, some (.ref (.iri ⟨"urn:T"⟩)), .one, false, none⟩)]
  start := none

/-- The cardinality of the group makes the reference in the triple expression a strict one. -/
theorem Definitions.build_rejects_exactly_emptiedGroup :
    emptiedGroup.Checked ∧
      emptiedGroup.build = .error (.notStratified (.iri ⟨"urn:S"⟩) (.iri ⟨"urn:T"⟩) .zeroCardinality
        [.iri ⟨"urn:S"⟩, .iri ⟨"urn:T"⟩]) ∧
      (∃ neg zero, emptiedGroup.hoist.Offends (.iri ⟨"urn:S"⟩) (.iri ⟨"urn:T"⟩) neg zero ∧
        StrictKind.zeroCardinality = if neg then .negative else .zeroCardinality) ∧
      emptiedGroup.hoist.Reaches (.iri ⟨"urn:S"⟩) (.iri ⟨"urn:T"⟩) := by
  have hchecked : emptiedGroup.Checked := ⟨by decide, by decide, by cbv, by cbv⟩
  have hbuild : emptiedGroup.build = .error (.notStratified (.iri ⟨"urn:S"⟩) (.iri ⟨"urn:T"⟩)
      .zeroCardinality [.iri ⟨"urn:S"⟩, .iri ⟨"urn:T"⟩]) := by cbv
  obtain ⟨-, -, hreport⟩ := Definitions.build_rejects_exactly hchecked
  obtain ⟨hoffends, hclass⟩ := hreport _ _ _ _ hbuild
  exact ⟨hchecked, hbuild, hoffends, ((hclass (.iri ⟨"urn:T"⟩)).1 (by simp)).1⟩

/-! ### Strata of a built schema -/

namespace Definitions.Builds

variable {d : Definitions} {s : Schema} (h : d.Builds s)
include h

/-- Every hoisted definition is one of the schema, with numbered shapes. -/
theorem exists_mem_shapes {l : Label} {e : ShapeExpr} (hl : (l, e) ∈ d.hoist.shapes) :
    ∃ n, (l, (ShapeExpr.number n e).1) ∈ s.shapes := by
  obtain ⟨i, hi, hget⟩ := List.getElem_of_mem hl
  have hnum := ShapeExpr.numberList_forall₂ 0 (d.hoist.shapes.map (·.2))
  have hi' : i < (ShapeExpr.numberList 0 (d.hoist.shapes.map (·.2))).1.length := by
    rw [← hnum.length_eq, List.length_map]
    exact hi
  obtain ⟨n, hn⟩ := hnum.get (by simpa using hi) hi'
  simp only [List.get_eq_getElem, List.getElem_map, hget] at hn
  refine ⟨n, ?_⟩
  rw [h.shapes, ← hn]
  have hzip : i < ((d.hoist.shapes.map (·.1)).zip
      (ShapeExpr.numberList 0 (d.hoist.shapes.map (·.2))).1).length := by
    rw [List.length_zip, List.length_map]
    omega
  have hpair := List.getElem_mem hzip
  rwa [List.getElem_zip, List.getElem_map, hget] at hpair

theorem dependsOn_iff {l t : Label} {neg zero : Bool} :
    s.DependsOn l t neg zero ↔ d.hoist.DependsOn l t neg zero := by
  unfold Schema.DependsOn Definitions.DependsOn ShapeTyping.DependsOn
  rw [h.tripleExprs]
  constructor
  · rintro ⟨e, hl, hr⟩
    obtain ⟨e₀, n, hl₀, rfl⟩ := h.mem_shapes hl
    exact ⟨e₀, hl₀, (ShapeExpr.refers_number n e₀).1 hr⟩
  · rintro ⟨e, hl, hr⟩
    obtain ⟨n, hn⟩ := h.exists_mem_shapes hl
    exact ⟨_, hn, (ShapeExpr.refers_number n e).2 hr⟩

theorem reaches_iff {l t : Label} : s.Reaches l t ↔ d.hoist.Reaches l t := by
  have hstep : (fun l t => ∃ neg zero, s.DependsOn l t neg zero) =
      fun l t => ∃ neg zero, d.hoist.DependsOn l t neg zero := by
    funext l t
    simp only [h.dependsOn_iff]
  rw [Schema.Reaches, hstep]
  rfl

/-- **A label is in no other stratum** than the one that is found for it. -/
theorem stratum_unique {l : Label} {i : ℕ} (hi : s.stratum? l = some i) {j : ℕ} {D : List Label}
    (hD : s.strata[j]? = some D) (hl : l ∈ D) : j = i := by
  obtain ⟨hilt, hmem, -⟩ := List.findIdx?_eq_some_iff_getElem.1 hi
  have hli : l ∈ s.strata[i] := by simpa using hmem
  obtain ⟨hjlt, rfl⟩ := List.getElem?_eq_some_iff.1 hD
  have hdisjoint := components_disjoint h.nodup_labels h.closed
  rw [← h.strata_eq, List.pairwise_iff_getElem] at hdisjoint
  rcases Nat.lt_trichotomy j i with hlt | rfl | hlt
  · exact absurd hli (hdisjoint j i hjlt hilt hlt l hl)
  · rfl
  · exact absurd hl (hdisjoint i j hilt hjlt hlt l hli)

/-- **Labels of one stratum** are mutually dependent. -/
theorem stratum?_eq_iff {l t : Label} (hl : l ∈ s.labels) (ht : t ∈ s.labels) :
    s.stratum? l = s.stratum? t ↔ s.Reaches l t ∧ s.Reaches t l := by
  obtain ⟨i, hi, hilt, hli⟩ := h.stratum_lt hl
  obtain ⟨j, hj, hjlt, htj⟩ := h.stratum_lt ht
  have hclass : s.strata[i] ∈ strata (d.hoist.shapes.map (·.1)) d.hoist.dependencies := by
    rw [← (stratify_eq_ok h.stratified).1]
    exact List.getElem_mem hilt
  have hmutual : t ∈ s.strata[i] ↔ s.Reaches l t ∧ s.Reaches t l := by
    rw [h.reaches_iff, h.reaches_iff]
    exact h.checked.mem_class_iff hclass hli
  rw [← hmutual, hi, hj, Option.some_inj]
  constructor
  · rintro rfl
    exact htj
  · intro hti
    exact h.stratum_unique hj (List.getElem?_eq_getElem hilt) hti

end Definitions.Builds

/-- **The strata of a built schema are sound.** Its labels are the written ones and generated ones,
and each is in exactly one stratum, whose position is found. A dependency leads to the stratum of
its source or to a lower one, to a lower one if it is strict, and two labels have one stratum if
and only if dependencies lead from each to the other. -/
theorem Definitions.build_strata {d : Definitions} {s : Schema} (h : d.build = .ok s) :
    (∃ n, s.labels =
        d.shapes.map (·.1) ++ (List.range n).map (generatedLabel (freshStem d.labels))) ∧
      (∀ l ∈ s.labels, ∃ i C, s.stratum? l = some i ∧ s.strata[i]? = some C ∧
        ∀ j D, s.strata[j]? = some D → (l ∈ D ↔ j = i)) ∧
      (∀ l t neg zero, s.DependsOn l t neg zero →
        s.NotAbove t l ∧ (neg = true ∨ zero = true → s.Below t l)) ∧
      ∀ l ∈ s.labels, ∀ t ∈ s.labels,
        (s.stratum? l = s.stratum? t ↔ s.Reaches l t ∧ s.Reaches t l) := by
  have hb := Definitions.builds_of_build h
  refine ⟨?_, ?_, ?_, fun l hl t ht => hb.stratum?_eq_iff hl ht⟩
  · rw [hb.labels_eq]
    exact d.hoist_labels
  · intro l hl
    obtain ⟨i, hi, hilt, hli⟩ := hb.stratum_lt hl
    refine ⟨i, s.strata[i], hi, List.getElem?_eq_getElem hilt, fun j D hD => ⟨?_, ?_⟩⟩
    · intro hlD
      exact hb.stratum_unique hi hD hlD
    · rintro rfl
      rw [List.getElem?_eq_getElem hilt, Option.some_inj] at hD
      exact hD ▸ hli
  · intro l t neg zero hdep
    have hmem : ⟨l, t, neg, zero⟩ ∈ d.hoist.dependencies :=
      hb.checked.mem_dependencies_iff.2 (hb.dependsOn_iff.1 hdep)
    obtain ⟨hnot, hbelow⟩ := hb.descends_of_hoist hmem
    exact ⟨hnot, fun hstrict => hbelow (Dependency.strict?_ne_none.2 hstrict)⟩

/-- A shape with an inline value that negates a shape that refers to itself. -/
def negatedValue : Definitions where
  shapes := [
    (.iri ⟨"urn:S"⟩, .shape ⟨false, [],
      .constraint ⟨⟨"urn:p"⟩, some (.not (.ref (.iri ⟨"urn:T"⟩))), .star, false, none⟩, 0⟩),
    (.iri ⟨"urn:T"⟩, .shape ⟨false, [],
      .constraint ⟨⟨"urn:q"⟩, some (.ref (.iri ⟨"urn:T"⟩)), .one, false, none⟩, 0⟩)]
  tripleExprs := []
  start := none

/-- The inline value gets a generated label, whose stratum lies between the other two. -/
theorem Definitions.build_strata_negatedValue :
    ∃ s, negatedValue.build = .ok s ∧
      s.labels = [.iri ⟨"urn:S"⟩, .iri ⟨"urn:T"⟩, .blank "gen#0"] ∧
      s.Below (.iri ⟨"urn:T"⟩) (.blank "gen#0") ∧ s.NotAbove (.blank "gen#0") (.iri ⟨"urn:S"⟩) ∧
      ¬ (s.Reaches (.iri ⟨"urn:S"⟩) (.blank "gen#0") ∧
        s.Reaches (.blank "gen#0") (.iri ⟨"urn:S"⟩)) := by
  have hbuild : negatedValue.build = .ok
      { shapes := [
          (.iri ⟨"urn:S"⟩, .shape ⟨false, [],
            .constraint ⟨⟨"urn:p"⟩, some (.ref (.blank "gen#0")), .star, false, none⟩, 0⟩),
          (.iri ⟨"urn:T"⟩, .shape ⟨false, [],
            .constraint ⟨⟨"urn:q"⟩, some (.ref (.iri ⟨"urn:T"⟩)), .one, false, none⟩, 1⟩),
          (.blank "gen#0", .not (.ref (.iri ⟨"urn:T"⟩)))]
        tripleExprs := [], start := none, shapeCount := 2
        strata := [[.iri ⟨"urn:T"⟩], [.blank "gen#0"], [.iri ⟨"urn:S"⟩]] } := by cbv
  obtain ⟨-, -, hdepends, hequal⟩ := Definitions.build_strata hbuild
  refine ⟨_, hbuild, rfl, ?_, ?_, ?_⟩
  · have hnegated := hdepends (.blank "gen#0") (.iri ⟨"urn:T"⟩) true false
      ⟨_, by simp, .not (.ref _)⟩
    exact hnegated.2 (.inl rfl)
  · have hvalue := hdepends (.iri ⟨"urn:S"⟩) (.blank "gen#0") false false
      ⟨_, List.mem_cons_self, .shape (.constraint rfl (.ref _))⟩
    exact hvalue.1
  · intro hmutual
    have hsame := (hequal (.iri ⟨"urn:S"⟩) (by decide) (.blank "gen#0") (by decide)).2 hmutual
    revert hsame
    decide

end ShapeTyping
