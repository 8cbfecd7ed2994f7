import Mathlib
import ShapeTyping.Proofs.Schema.Extraction
import ShapeTyping.Proofs.Schema.Renaming

/-!
# Labels of hoisted values

Hoisted definitions are determined up to the labels of the values, so definitions with an inline
value and those with the value as a definition of its own are hoisted to the same, up to a
permutation of labels that leaves the written ones as they are.

* `ShapeExpr.HoistsTo.eq_rename`, `TripleExpr.HoistsTo.eq_rename`: two hoisted forms of an
  expression differ in the labels of its values.
* `exists_perm_map`: labels for values are permuted to any others.
* `Definitions.RenamesTo`: definitions with other labels, in any order.
* `Definitions.Extracts.renamesTo`: the hoisted definitions with a value as a definition.
* `Definitions.Extracts.build_iff`: they are built, or none are.
-/

namespace ShapeTyping

/-! ### Hoisted forms of an expression -/

section Forms

variable {ρ : Label → Label}

/-- A constraint without an inline value is as it was when its reference is. -/
theorem TripleConstraint.rename_eq_self {c : TripleConstraint} (hc : c.inlineValues = 0)
    (hρ : ∀ l ∈ c.valueReferences, ρ l = l) : c.rename ρ = c := by
  obtain ⟨p, _ | v, card, inverse, label⟩ := c
  · rfl
  · obtain ⟨l, rfl⟩ := TripleConstraint.eq_ref_of_inlineValues rfl hc
    have hl : ρ l = l := hρ l List.mem_cons_self
    rw [TripleConstraint.rename, ShapeExpr.rename, hl]

/-- Labels of two lists of definitions, cut after as many definitions in both. -/
theorem map_labels_append {ds ds₂ fs fs₂ : List (Label × ShapeExpr)} (hlen : ds.length = fs.length)
    (h : (ds ++ ds₂).map (ρ ·.1) = (fs ++ fs₂).map (·.1)) :
    ds.map (ρ ·.1) = fs.map (·.1) ∧ ds₂.map (ρ ·.1) = fs₂.map (·.1) := by
  rw [List.map_append, List.map_append] at h
  exact List.append_inj h (by simpa using hlen)

mutual
/-- **Hoisted forms of an expression** differ in the labels of its values. -/
theorem ShapeExpr.HoistsTo.eq_rename : {e e₁ e₂ : ShapeExpr} → {ds fs : List (Label × ShapeExpr)} →
    e.HoistsTo e₁ ds → e.HoistsTo e₂ fs → (∀ l ∈ e.references, ρ l = l) →
    ds.map (ρ ·.1) = fs.map (·.1) → e₂ = e₁.rename ρ ∧ fs = ds.map (renameShape ρ)
  | _, _, _, _, _, .and h₁, .and h₂, hρ, hl => by
    obtain ⟨rfl, hfs⟩ := ShapeExpr.AllHoistTo.eq_rename h₁ h₂ hρ hl
    exact ⟨rfl, hfs⟩
  | _, _, _, _, _, .or h₁, .or h₂, hρ, hl => by
    obtain ⟨rfl, hfs⟩ := ShapeExpr.AllHoistTo.eq_rename h₁ h₂ hρ hl
    exact ⟨rfl, hfs⟩
  | _, _, _, _, _, .not h₁, .not h₂, hρ, hl => by
    obtain ⟨rfl, hfs⟩ := ShapeExpr.HoistsTo.eq_rename h₁ h₂ hρ hl
    exact ⟨rfl, hfs⟩
  | _, _, _, _, _, @ShapeExpr.HoistsTo.shape ⟨_, _, _, _⟩ _ _ h₁, .shape h₂, hρ, hl => by
    obtain ⟨rfl, hfs⟩ := TripleExpr.HoistsTo.eq_rename h₁ h₂ hρ hl
    exact ⟨rfl, hfs⟩
  | _, _, _, _, _, .node _, .node _, _, _ => ⟨rfl, rfl⟩
  | _, _, _, _, _, .external, .external, _, _ => ⟨rfl, rfl⟩
  | _, _, _, _, _, .ref l, .ref _, hρ, _ => by
    have hl : ρ l = l := hρ l List.mem_cons_self
    exact ⟨by rw [ShapeExpr.rename, hl], rfl⟩

theorem ShapeExpr.AllHoistTo.eq_rename : {es es₁ es₂ : List ShapeExpr} →
    {ds fs : List (Label × ShapeExpr)} → ShapeExpr.AllHoistTo es es₁ ds →
    ShapeExpr.AllHoistTo es es₂ fs → (∀ l ∈ ShapeExpr.referencesOfList es, ρ l = l) →
    ds.map (ρ ·.1) = fs.map (·.1) →
    es₂ = ShapeExpr.renameList ρ es₁ ∧ fs = ds.map (renameShape ρ)
  | _, _, _, _, _, .nil, .nil, _, _ => ⟨rfl, rfl⟩
  | _, _, _, _, _, .cons h₁ hs₁, .cons h₂ hs₂, hρ, hl => by
    rw [ShapeExpr.referencesOfList, List.forall_mem_append] at hρ
    obtain ⟨hl, hls⟩ := map_labels_append (h₁.length_eq.trans h₂.length_eq.symm) hl
    obtain ⟨rfl, rfl⟩ := ShapeExpr.HoistsTo.eq_rename h₁ h₂ hρ.1 hl
    obtain ⟨rfl, rfl⟩ := ShapeExpr.AllHoistTo.eq_rename hs₁ hs₂ hρ.2 hls
    exact ⟨rfl, List.map_append.symm⟩

theorem TripleExpr.HoistsTo.eq_rename : {e e₁ e₂ : TripleExpr} →
    {ds fs : List (Label × ShapeExpr)} → e.HoistsTo e₁ ds → e.HoistsTo e₂ fs →
    (∀ l ∈ e.valueReferences, ρ l = l) → ds.map (ρ ·.1) = fs.map (·.1) →
    e₂ = e₁.rename ρ ∧ fs = ds.map (renameShape ρ)
  | _, _, _, _, _, .constraint hc, .constraint _, hρ, _ =>
    ⟨congrArg TripleExpr.constraint (TripleConstraint.rename_eq_self hc hρ).symm, rfl⟩
  | _, _, _, _, _, .constraint hzero, .value _ hc hv _, _, _ => by
    obtain ⟨l, rfl⟩ := TripleConstraint.eq_ref_of_inlineValues hc hzero
    cases hv
  | _, _, _, _, _, .value _ hc hv _, .constraint hzero, _, _ => by
    obtain ⟨l, rfl⟩ := TripleConstraint.eq_ref_of_inlineValues hc hzero
    cases hv
  | _, _, _, _, _, @TripleExpr.HoistsTo.value ⟨_, _, _, _, _⟩ _ _ _ l₁ rfl _ h₁,
      .value l₂ rfl _ h₂, hρ, hl => by
    obtain ⟨rfl, hls⟩ := List.cons.inj hl
    obtain ⟨rfl, rfl⟩ := ShapeExpr.HoistsTo.eq_rename h₁ h₂ hρ hls
    exact ⟨rfl, rfl⟩
  | _, _, _, _, _, .eachOf card h₁, .eachOf _ h₂, hρ, hl => by
    obtain ⟨rfl, hfs⟩ := TripleExpr.AllHoistTo.eq_rename h₁ h₂ hρ hl
    exact ⟨rfl, hfs⟩
  | _, _, _, _, _, .oneOf card h₁, .oneOf _ h₂, hρ, hl => by
    obtain ⟨rfl, hfs⟩ := TripleExpr.AllHoistTo.eq_rename h₁ h₂ hρ hl
    exact ⟨rfl, hfs⟩
  | _, _, _, _, _, .ref _, .ref _, _, _ => ⟨rfl, rfl⟩
  | _, _, _, _, _, .empty, .empty, _, _ => ⟨rfl, rfl⟩

theorem TripleExpr.AllHoistTo.eq_rename : {es es₁ es₂ : List TripleExpr} →
    {ds fs : List (Label × ShapeExpr)} → TripleExpr.AllHoistTo es es₁ ds →
    TripleExpr.AllHoistTo es es₂ fs → (∀ l ∈ TripleExpr.valueReferencesOfList es, ρ l = l) →
    ds.map (ρ ·.1) = fs.map (·.1) →
    es₂ = TripleExpr.renameList ρ es₁ ∧ fs = ds.map (renameShape ρ)
  | _, _, _, _, _, .nil, .nil, _, _ => ⟨rfl, rfl⟩
  | _, _, _, _, _, .cons h₁ hs₁, .cons h₂ hs₂, hρ, hl => by
    rw [TripleExpr.valueReferencesOfList, List.forall_mem_append] at hρ
    obtain ⟨hl, hls⟩ := map_labels_append (h₁.length_eq.trans h₂.length_eq.symm) hl
    obtain ⟨rfl, rfl⟩ := TripleExpr.HoistsTo.eq_rename h₁ h₂ hρ.1 hl
    obtain ⟨rfl, rfl⟩ := TripleExpr.AllHoistTo.eq_rename hs₁ hs₂ hρ.2 hls
    exact ⟨rfl, List.map_append.symm⟩
end

end Forms

/-! ### Permutations of labels -/

/-- **Distinct elements are permuted to as many others**, and elements that are neither stay. -/
theorem exists_perm_map {α : Type} [DecidableEq α] (stays : α → Prop) {as bs : List α}
    (hlen : as.length = bs.length) (has : as.Nodup) (hbs : bs.Nodup) (hsa : ∀ a ∈ as, ¬ stays a)
    (hsb : ∀ b ∈ bs, ¬ stays b) :
    ∃ ρ : Equiv.Perm α, (∀ x, stays x → ρ x = x) ∧ as.map ρ = bs := by
  induction as generalizing bs with
  | nil =>
    obtain rfl : bs = [] := List.length_eq_zero_iff.1 hlen.symm
    exact ⟨1, fun _ _ => rfl, rfl⟩
  | cons a as ih =>
    cases bs with
    | nil => cases hlen
    | cons b bs =>
    rw [List.nodup_cons] at has hbs
    rw [List.forall_mem_cons] at hsa hsb
    obtain ⟨ρ, hstays, rfl⟩ := ih (by simpa using hlen) has.2 hbs.2 hsa.2 hsb.2
    -- what the others are permuted by, with the image of the first one exchanged
    refine ⟨ρ.trans (Equiv.swap (ρ a) b), fun x hx => ?_, ?_⟩
    · have hxa : x ≠ ρ a := by
        intro h
        rw [← hstays x hx] at h
        exact hsa.1 (ρ.injective h ▸ hx)
      have hxb : x ≠ b := fun h => hsb.1 (h ▸ hx)
      rw [Equiv.trans_apply, hstays x hx, Equiv.swap_apply_of_ne_of_ne hxa hxb]
    · rw [List.map_cons, Equiv.trans_apply, Equiv.swap_apply_left]
      refine congrArg (b :: ·) (List.map_congr_left fun x hx => ?_)
      have hxa : ρ x ≠ ρ a := fun h => has.1 (ρ.injective h ▸ hx)
      have hxb : ρ x ≠ b := fun h => hbs.1 (h ▸ List.mem_map_of_mem hx)
      rw [Equiv.trans_apply, Equiv.swap_apply_of_ne_of_ne hxa hxb]

/-! ### Definitions with other labels -/

namespace Definitions

/-- `h.RenamesTo ρ h'` says that the definitions of `h'` are those of `h` with other shape labels.
Those of shapes may be in another order. -/
structure RenamesTo (ρ : Equiv.Perm Label) (h h' : Definitions) : Prop where
  shapes : h'.shapes.Perm (h.shapes.map (renameShape ρ))
  tripleExprs : h'.tripleExprs = renameTripleExprs ρ h.tripleExprs

variable {d h h' : Definitions} {ρ : Equiv.Perm Label} {ds fs : List (Label × ShapeExpr)}

/-- **Hoisted forms of definitions** differ in the labels of the values. -/
theorem HoistsTo.renamesTo (h₁ : d.HoistsTo h ds) (h₂ : d.HoistsTo h' fs)
    (hρ : ∀ l ∈ d.labels, ρ l = l) (hlabels : ds.map (ρ ·.1) = fs.map (·.1)) :
    h.RenamesTo ρ h' := by
  obtain ⟨hes₁, hxs₁, hperm₁, htriple₁, -⟩ := h₁
  obtain ⟨hes₂, hxs₂, hperm₂, htriple₂, -⟩ := h₂
  obtain ⟨hl, hls⟩ := map_labels_append (hes₁.length_eq.trans hes₂.length_eq.symm) hlabels
  obtain ⟨rfl, rfl⟩ := hes₁.eq_rename hes₂
    (fun l hl => hρ l (mem_labels.2 (.inl (.inr (.inl hl))))) hl
  obtain ⟨rfl, rfl⟩ := hxs₁.eq_rename hxs₂
    (fun l hl => hρ l (mem_labels.2 (.inr (.inl (.inr (.inl hl)))))) hls
  have hnames : (d.shapes.map (·.1)).map ρ = d.shapes.map (·.1) :=
    (List.map_congr_left fun l hl => hρ l (mem_labels.2 (.inl (.inl hl)))).trans (List.map_id _)
  refine ⟨?_, ?_⟩
  · refine hperm₂.trans ?_
    refine List.Perm.trans (.of_eq ?_) (hperm₁.map (renameShape ρ)).symm
    rw [ShapeExpr.renameList_eq_map, List.map_append, List.map_append]
    nth_rewrite 1 [← hnames]
    rw [List.zip_map]
    rfl
  · rw [htriple₁, htriple₂, TripleExpr.renameList_eq_map, renameTripleExprs, List.zip_map_right]
    rfl

namespace RenamesTo

theorem symm (hto : h.RenamesTo ρ h') : h'.RenamesTo ρ.symm h := by
  refine ⟨?_, ?_⟩
  · have hback := (hto.shapes.map (renameShape ρ.symm)).symm
    have hid : ∀ p ∈ h.shapes, (renameShape ρ.symm ∘ renameShape ρ) p = p := by
      intro p _
      rw [Function.comp_apply, renameShape, renameShape, Equiv.symm_apply_apply,
        ShapeExpr.rename_symm]
    rwa [List.map_map, List.map_congr_left hid, List.map_id'] at hback
  · have hid : ∀ p ∈ h.tripleExprs, (p.1, (p.2.rename ρ).rename ρ.symm) = p := by
      intro p _
      rw [TripleExpr.rename_symm]
    rw [hto.tripleExprs, renameTripleExprs, renameTripleExprs, List.map_map]
    exact ((List.map_congr_left hid).trans (List.map_id' _)).symm

theorem labels_perm (hto : h.RenamesTo ρ h') :
    (h'.shapes.map (·.1)).Perm ((h.shapes.map (·.1)).map ρ) := by
  have hlabels := hto.shapes.map (·.1)
  rwa [List.map_map] at hlabels ⊢

/-- Dependencies are renamed. -/
theorem dependsOn (hto : h.RenamesTo ρ h') {l t : Label} {neg zero : Bool}
    (hdep : h.DependsOn l t neg zero) : h'.DependsOn (ρ l) (ρ t) neg zero := by
  obtain ⟨e, he, hrefers⟩ := hdep
  refine ⟨e.rename ρ, hto.shapes.mem_iff.2 (List.mem_map_of_mem (f := renameShape ρ) he), ?_⟩
  rw [hto.tripleExprs]
  exact hrefers.rename

/-- A strict dependency on a cycle is renamed to one. -/
theorem offends (hto : h.RenamesTo ρ h') {l t : Label} {neg zero : Bool}
    (ho : h.Offends l t neg zero) : h'.Offends (ρ l) (ρ t) neg zero := by
  obtain ⟨hdep, hstrict, hback⟩ := ho
  exact ⟨hto.dependsOn hdep, hstrict,
    hback.lift ρ fun _ _ ⟨neg, zero, hdep⟩ => ⟨neg, zero, hto.dependsOn hdep⟩⟩

end RenamesTo

/-- What definitions need to be built. -/
theorem exists_build_iff : (∃ s, d.build = .ok s) ↔
    d.WellFormed ∧ ∀ l t neg zero, ¬ d.hoist.Offends l t neg zero := by
  constructor
  · rintro ⟨s, hs⟩
    have hchecked := (builds_of_build hs).checked
    refine ⟨checked_iff_wellFormed.1 hchecked, fun l t neg zero ho => ?_⟩
    obtain ⟨_, _, _, _, herr⟩ := hchecked.build_error ho
    cases hs.symm.trans herr
  · rintro ⟨hwf, hno⟩
    exact (checked_iff_wellFormed.2 hwf).build_ok hno

/-- Definitions that are hoisted to the same up to labels are built, or none are. -/
theorem RenamesTo.build_iff {d' : Definitions} (hto : d.hoist.RenamesTo ρ d'.hoist)
    (hwf : d'.WellFormed ↔ d.WellFormed) : (∃ s, d'.build = .ok s) ↔ ∃ s, d.build = .ok s := by
  rw [exists_build_iff, exists_build_iff, hwf]
  refine and_congr_right fun _ => ⟨fun hno l t neg zero ho => ?_, fun hno l t neg zero ho => ?_⟩
  · exact hno _ _ _ _ (hto.offends ho)
  · exact hno _ _ _ _ (hto.symm.offends ho)

/-! ### A value as a definition -/

namespace Extracts

variable {p : Label × ShapeExpr} {d' : Definitions} {i : ℕ}

/-- **The hoisted definitions** with a value as a definition of its own are those with the inline
value, up to a permutation of labels. The new label stands for a generated one. -/
theorem renamesTo (hext : d.Extracts p d') (hnew : p.1 ∉ d.labels) :
    ∃ ρ : Equiv.Perm Label, (∀ l ∈ d.labels, ρ l = l) ∧
      (∃ g ∈ d.hoist.shapes.map (·.1), g ∉ d.labels ∧ ρ g = p.1) ∧
      d.hoist.RenamesTo ρ (d'.insertShape i p).hoist := by
  obtain ⟨ds, hto, hnodup, hfresh⟩ := d.hoistsTo_hoist
  obtain ⟨gs, hto', hnodup', hfresh'⟩ := (d'.insertShape i p).hoistsTo_hoist
  obtain ⟨fs, hfs, hlabels⟩ := hext.hoistsTo hto'
  have hp : p.1 ∈ (d'.insertShape i p).labels := by
    refine mem_labels.2 (.inl (.inl ?_))
    rw [((insertShape_perm d' i p).map (·.1)).mem_iff]
    exact List.mem_cons_self
  have hdistinct : (fs.map (·.1)).Nodup :=
    hlabels.nodup_iff.2 (List.nodup_cons.2 ⟨fun hmem => hfresh' _ hmem hp, hnodup'⟩)
  have hunused : ∀ l ∈ fs.map (·.1), l ∉ d.labels := by
    intro l hl hmem
    rcases List.mem_cons.1 (hlabels.mem_iff.1 hl) with rfl | hl
    · exact hnew hmem
    · exact hfresh' l hl (hext.labels_subset hmem)
  -- both are hoisted forms of the definitions with the inline value
  have hlen : (ds.map (·.1)).length = (fs.map (·.1)).length := by
    rw [List.length_map, List.length_map, hto.length_new, hfs.length_new]
  obtain ⟨ρ, hstays, hmap⟩ := exists_perm_map (· ∈ d.labels) hlen hnodup hdistinct hfresh
    hunused
  refine ⟨ρ, hstays, ?_, hto.renamesTo hfs hstays (by rw [← hmap, List.map_map]; rfl)⟩
  have hmem : p.1 ∈ (ds.map (·.1)).map ρ := by
    rw [hmap, hlabels.mem_iff]
    exact List.mem_cons_self
  obtain ⟨g, hg, hρ⟩ := List.mem_map.1 hmem
  exact ⟨g, hto.labels_perm.mem_iff.2 (List.mem_append_right _ hg), hfresh g hg, hρ⟩

/-- **Definitions with the value as a definition of its own are built** if and only if those with
the inline value are. -/
theorem build_iff (hext : d.Extracts p d') (hnew : p.1 ∉ d.labels) :
    (∃ s, (d'.insertShape i p).build = .ok s) ↔ ∃ s, d.build = .ok s := by
  obtain ⟨ρ, -, -, hto⟩ := hext.renamesTo (i := i) hnew
  exact hto.build_iff (hext.wellFormed_iff hnew)

end Extracts

end Definitions

end ShapeTyping
