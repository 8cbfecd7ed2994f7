import Mathlib
import ShapeTyping.Schema.Build

/-!
# Built schemas

What is known of a schema because it was built.

* `generatedLabel_notMem`: generated labels are not mentioned by the definitions.
* `Definitions.Checked`, `Definitions.checked_iff`: the checks of a build on labels, references and
  cycles of references.
* `Definitions.Checked.defined_of_shape`, `Definitions.Checked.defined_of_tripleExpr`: references
  are defined.
* `Definitions.Builds`: the checks that definitions pass and the parts of their schema.
* `Definitions.builds_of_build`: a build that succeeds gives all of it.
* `Definitions.Builds.mem_shapes`: a definition of the schema is a numbered hoisted definition.
-/

namespace ShapeTyping

/-! ### Generated labels -/

theorem generatedLabel_injective (stem : String) : Function.Injective (generatedLabel stem) := by
  intro m n h
  simp only [generatedLabel, Label.blank.injEq] at h
  exact Nat.repr_inj.1 ((String.append_right_inj stem).1 h)

theorem length_le_foldl_max {ls : List ℕ} {n a : ℕ} (h : n ∈ ls ∨ n ≤ a) : n ≤ ls.foldl max a := by
  induction ls generalizing a with
  | nil => simpa using h
  | cons m ls ih =>
    rw [List.foldl_cons]
    refine ih ?_
    rcases h with h | h
    · rcases List.mem_cons.1 h with rfl | h
      · exact .inr (le_max_right _ _)
      · exact .inl h
    · exact .inr (h.trans (le_max_left _ _))

/-- The stem of generated labels in terms of the used blank nodes. -/
theorem freshStem_eq (used : List Label) :
    ∃ ids : List String, freshStem used = (if ids.all (!·.startsWith generatedStem) then generatedStem
        else generatedStem ++
          String.ofList (List.replicate ((ids.map (·.length)).foldl max 0) '#')) ∧
      ∀ id, .blank id ∈ used → id ∈ ids :=
  ⟨_, rfl, fun _ hid => List.mem_filterMap.2 ⟨_, hid, rfl⟩⟩

/-- **Generated labels are fresh.** -/
theorem generatedLabel_notMem (used : List Label) (n : ℕ) :
    generatedLabel (freshStem used) n ∉ used := by
  intro hmem
  obtain ⟨ids, hfresh, hids⟩ := freshStem_eq used
  have hid : freshStem used ++ toString n ∈ ids := hids _ hmem
  by_cases h : (ids.all (!·.startsWith generatedStem)) = true
  · -- no used blank node begins as the generated one does
    have hstem : freshStem used = generatedStem := hfresh.trans (if_pos h)
    have := List.all_eq_true.1 h _ hid
    rw [hstem] at this
    simp at this
  · -- the generated one is longer than every used blank node
    have hstem : freshStem used = generatedStem ++
        String.ofList (List.replicate ((ids.map (·.length)).foldl max 0) '#') :=
      hfresh.trans (if_neg h)
    have hlen := length_le_foldl_max (a := 0) (.inl (List.mem_map_of_mem (f := (·.length)) hid))
    rw [hstem] at hlen
    simp only [String.length_append, String.length_ofList, List.length_replicate] at hlen
    have : generatedStem.length = 4 := by decide
    omega

theorem map_fst_zip_sublist {α β : Type} (as : List α) (bs : List β) :
    ((as.zip bs).map (·.1)).Sublist as := by
  induction as generalizing bs with
  | nil => simp
  | cons a as ih =>
    cases bs with
    | nil => simp
    | cons b bs => exact (ih bs).cons_cons a

/-- The labels of hoisted shapes are distinct. -/
theorem Definitions.nodup_hoist_labels {d : Definitions} (h : (d.shapes.map (·.1)).Nodup) :
    (d.hoist.shapes.map (·.1)).Nodup := by
  refine List.Nodup.sublist (map_fst_zip_sublist _ _) ?_
  refine List.nodup_append.2 ⟨h, List.nodup_range.map (generatedLabel_injective _), ?_⟩
  rintro l hl _ hm rfl
  obtain ⟨n, -, rfl⟩ := List.mem_map.1 hm
  obtain ⟨p, hp, hpl⟩ := List.mem_map.1 hl
  refine generatedLabel_notMem d.labels n ?_
  simp only [Definitions.labels, List.mem_append, List.mem_flatMap]
  exact .inl (.inl ⟨p, hp, by rw [hpl]; exact List.mem_cons_self⟩)

theorem Definitions.hoist_tripleExprs_labels_sublist (d : Definitions) :
    (d.hoist.tripleExprs.map (·.1)).Sublist (d.tripleExprs.map (·.1)) :=
  map_fst_zip_sublist _ _

/-! ### Numbering of shapes -/

theorem ShapeExpr.numberList_forall₂ (k : ℕ) (es : List ShapeExpr) :
    List.Forall₂ (fun e e' => ∃ n, e' = (ShapeExpr.number n e).1) es
      (ShapeExpr.numberList k es).1 := by
  induction es generalizing k with
  | nil => exact .nil
  | cons e es ih => exact .cons ⟨k, rfl⟩ (ih _)

/-! ### Checked definitions -/

/-- What a build checks of definitions before it looks at their strata: labels are distinct, and
after hoisting references are defined and those between triple expressions have no cycle. -/
structure Definitions.Checked (d : Definitions) : Prop where
  nodup_shapes : (d.shapes.map (·.1)).Nodup
  nodup_tripleExprs : (d.tripleExprs.map (·.1)).Nodup
  referenceErrors : d.hoist.referenceErrors = []
  acyclic : d.hoist.cycle? = none

theorem Definitions.check_eq_ok_iff {d : Definitions} :
    d.check = .ok () ↔ d.referenceErrors = [] ∧ d.cycle? = none := by
  unfold Definitions.check
  constructor
  · intro h
    split at h
    · cases h
    · rename_i hr
      split at h
      · cases h
      · rename_i hc
        exact ⟨List.head?_eq_none_iff.1 hr, hc⟩
  · rintro ⟨hr, hc⟩
    rw [hr, hc]
    rfl

/-- **Checked definitions** are those for which a build gets to the strata. -/
theorem Definitions.checked_iff {d : Definitions} :
    d.Checked ↔ firstDuplicate? (d.shapes.map (·.1)) = none ∧
      firstDuplicate? (d.tripleExprs.map (·.1)) = none ∧ d.hoist.check = .ok () := by
  rw [firstDuplicate?_eq_none_iff, firstDuplicate?_eq_none_iff, Definitions.check_eq_ok_iff]
  constructor
  · intro h
    exact ⟨h.nodup_shapes, h.nodup_tripleExprs, h.referenceErrors, h.acyclic⟩
  · rintro ⟨hs, ht, hr, hc⟩
    exact ⟨hs, ht, hr, hc⟩

namespace Definitions.Checked

variable {d : Definitions} (h : d.Checked)
include h

theorem nodup_labels : (d.hoist.shapes.map (·.1)).Nodup :=
  Definitions.nodup_hoist_labels h.nodup_shapes

theorem nodup_tripleLabels : (d.hoist.tripleExprs.map (·.1)).Nodup :=
  h.nodup_tripleExprs.sublist d.hoist_tripleExprs_labels_sublist

theorem defined_of_shape {l r : Label} {e : ShapeExpr} (hl : (l, e) ∈ d.hoist.shapes) :
    (r ∈ e.references → r ∈ d.hoist.shapes.map (·.1)) ∧
      (r ∈ e.tripleReferences → r ∈ d.hoist.tripleExprs.map (·.1)) := by
  have herr := h.referenceErrors
  simp only [Definitions.referenceErrors, List.append_eq_nil_iff, List.flatMap_eq_nil_iff,
    List.map_eq_nil_iff, List.filter_eq_nil_iff] at herr
  have := herr.1.2 _ hl
  exact ⟨fun hr => by simpa using this.1 r hr, fun hr => by simpa using this.2 r hr⟩

theorem defined_of_tripleExpr {l r : Label} {e : TripleExpr} (hl : (l, e) ∈ d.hoist.tripleExprs) :
    (r ∈ e.valueReferences → r ∈ d.hoist.shapes.map (·.1)) ∧
      (r ∈ e.references → r ∈ d.hoist.tripleExprs.map (·.1)) := by
  have herr := h.referenceErrors
  simp only [Definitions.referenceErrors, List.append_eq_nil_iff, List.flatMap_eq_nil_iff,
    List.map_eq_nil_iff, List.filter_eq_nil_iff] at herr
  have := herr.2 _ hl
  exact ⟨fun hr => by simpa using this.1 r hr, fun hr => by simpa using this.2 r hr⟩

end Definitions.Checked

/-! ### Built schemas -/

/-- What a build checks of definitions and makes of them. -/
structure Definitions.Builds (d : Definitions) (s : Schema) : Prop where
  nodup_shapes : (d.shapes.map (·.1)).Nodup
  nodup_tripleExprs : (d.tripleExprs.map (·.1)).Nodup
  referenceErrors : d.hoist.referenceErrors = []
  acyclic : d.hoist.cycle? = none
  stratified : stratify (d.hoist.shapes.map (·.1)) d.hoist.dependencies = .ok s.strata
  shapes : s.shapes = (d.hoist.shapes.map (·.1)).zip
    (ShapeExpr.numberList 0 (d.hoist.shapes.map (·.2))).1
  tripleExprs : s.tripleExprs = d.hoist.tripleExprs
  start : s.start = d.hoist.start
  shapeCount : s.shapeCount = (ShapeExpr.numberList 0 (d.hoist.shapes.map (·.2))).2

/-- **A build that succeeds** passes every check. -/
theorem Definitions.builds_of_build {d : Definitions} {s : Schema} (h : d.build = .ok s) :
    d.Builds s := by
  unfold Definitions.build at h
  cases hs : firstDuplicate? (d.shapes.map (·.1)) with
  | some l => rw [hs] at h; cases h
  | none =>
  cases ht : firstDuplicate? (d.tripleExprs.map (·.1)) with
  | some l => rw [hs, ht] at h; cases h
  | none =>
  rw [hs, ht] at h
  simp only [bind, Except.bind, pure, Except.pure] at h
  split at h
  · cases h
  rename_i hc
  split at h
  · cases h
  rename_i strata hst
  cases h
  obtain ⟨hr, hcyc⟩ := Definitions.check_eq_ok_iff.1 hc
  exact ⟨firstDuplicate?_eq_none_iff.1 hs, firstDuplicate?_eq_none_iff.1 ht, hr, hcyc, hst, rfl,
    rfl, rfl, rfl⟩

namespace Definitions.Builds

variable {d : Definitions} {s : Schema} (h : d.Builds s)
include h

theorem checked : d.Checked :=
  ⟨h.nodup_shapes, h.nodup_tripleExprs, h.referenceErrors, h.acyclic⟩

theorem labels_eq : s.labels = d.hoist.shapes.map (·.1) := by
  have hlen := (ShapeExpr.numberList_forall₂ 0 (d.hoist.shapes.map (·.2))).length_eq
  rw [Schema.labels, h.shapes, List.map_fst_zip (by rw [← hlen]; simp)]

theorem nodup_labels : s.labels.Nodup := by
  rw [h.labels_eq]
  exact h.checked.nodup_labels

/-- **A definition of the schema** is a hoisted definition with numbered shapes. -/
theorem mem_shapes {l : Label} {e : ShapeExpr} (hl : (l, e) ∈ s.shapes) :
    ∃ e₀ n, (l, e₀) ∈ d.hoist.shapes ∧ e = (ShapeExpr.number n e₀).1 := by
  rw [h.shapes] at hl
  obtain ⟨i, hi, hget⟩ := List.getElem_of_mem hl
  rw [List.getElem_zip] at hget
  obtain ⟨hl, he⟩ := Prod.mk.inj hget
  have hi' := List.lt_length_left_of_zip hi
  obtain ⟨n, hn⟩ := (ShapeExpr.numberList_forall₂ 0 (d.hoist.shapes.map (·.2))).get
    (by simpa using hi') (List.lt_length_right_of_zip hi)
  simp only [List.get_eq_getElem, List.getElem_map] at hn hl
  refine ⟨_, n, ?_, he ▸ hn⟩
  rw [← hl]
  exact List.getElem_mem _

theorem defined_of_shape {l r : Label} {e : ShapeExpr} (hl : (l, e) ∈ d.hoist.shapes) :
    (r ∈ e.references → r ∈ s.labels) ∧
      (r ∈ e.tripleReferences → r ∈ s.tripleExprs.map (·.1)) := by
  rw [h.labels_eq, h.tripleExprs]
  exact h.checked.defined_of_shape hl

theorem defined_of_tripleExpr {l r : Label} {e : TripleExpr} (hl : (l, e) ∈ s.tripleExprs) :
    (r ∈ e.valueReferences → r ∈ s.labels) ∧
      (r ∈ e.references → r ∈ s.tripleExprs.map (·.1)) := by
  rw [h.tripleExprs] at hl ⊢
  rw [h.labels_eq]
  exact h.checked.defined_of_tripleExpr hl

end Definitions.Builds

end ShapeTyping
