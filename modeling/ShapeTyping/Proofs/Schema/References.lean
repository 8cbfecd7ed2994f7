import Mathlib
import ShapeTyping.Proofs.Reachability.BackEdge
import ShapeTyping.Proofs.Schema.Built

/-!
# References between triple expressions

The references of checked definitions have no cycle, so replacing them by definitions comes to an
end within the bound on chains of references.

* `TripleExpr.expandWith_ok`: an expression is expanded if each of its references is.
* `expandLabel_induction`: what is proved of labels along the references that are followed.
* `Definitions.wellFounded_tripleSuccessors`: references lead to an end where no cycle is found.
* `Definitions.Checked.expandLabel_ok`: every label of checked definitions is expanded.
* `Definitions.Builds.expand_ok`: in a built schema every expression whose references are defined
  is expanded.
-/

namespace ShapeTyping

mutual
theorem TripleExpr.expandWith_ok {follow : Label → Except SchemaError TripleExpr} :
    (e : TripleExpr) → (∀ l ∈ e.references, ∃ x, follow l = .ok x) →
      ∃ x, e.expandWith follow = .ok x
  | .constraint c, _ => ⟨_, rfl⟩
  | .eachOf es card, h => by
    obtain ⟨xs, hxs⟩ := TripleExpr.expandListWith_ok es h
    exact ⟨.eachOf xs card, by rw [TripleExpr.expandWith, hxs]; rfl⟩
  | .oneOf es card, h => by
    obtain ⟨xs, hxs⟩ := TripleExpr.expandListWith_ok es h
    exact ⟨.oneOf xs card, by rw [TripleExpr.expandWith, hxs]; rfl⟩
  | .ref l, h => h l (by simp [TripleExpr.references])
  | .empty, _ => ⟨_, rfl⟩

theorem TripleExpr.expandListWith_ok {follow : Label → Except SchemaError TripleExpr} :
    (es : List TripleExpr) → (∀ l ∈ TripleExpr.referencesOfList es, ∃ x, follow l = .ok x) →
      ∃ xs, TripleExpr.expandListWith follow es = .ok xs
  | [], _ => ⟨[], rfl⟩
  | e :: es, h => by
    obtain ⟨x, hx⟩ := TripleExpr.expandWith_ok e fun l hl => h l (List.mem_append_left _ hl)
    obtain ⟨xs, hxs⟩ := TripleExpr.expandListWith_ok es fun l hl => h l (List.mem_append_right _ hl)
    exact ⟨x :: xs, by simp [TripleExpr.expandListWith, hx, hxs, Except.map]⟩
end

/-- **Induction along the expansion of a label**: a relation holds between labels and what they are
expanded to if it holds for a label whenever it holds for those that its definition refers to. -/
theorem expandLabel_induction {defs : List (Label × TripleExpr)} {P : Label → TripleExpr → Prop}
    (h : ∀ follow : Label → Except SchemaError TripleExpr, (∀ r y, follow r = .ok y → P r y) →
      ∀ l e x, defs.lookup l = some e → e.expandWith follow = .ok x → P l x) {depth : ℕ} {l : Label}
    {x : TripleExpr} (hx : expandLabel defs depth l = .ok x) : P l x := by
  induction depth generalizing l x with
  | zero => cases hx
  | succ depth ih =>
    rw [expandLabel] at hx
    cases hl : defs.lookup l with
    | none => rw [hl] at hx; cases hx
    | some e =>
      rw [hl] at hx
      exact h _ (fun _ _ => ih) l e x hl hx

/-- The triple expression labels that the definition of a label refers to. -/
def tripleSuccessors (defs : List (Label × TripleExpr)) (l : Label) : List Label :=
  ((defs.lookup l).map (·.references)).getD []

/-- A label is expanded within as many steps as labels come before it. -/
theorem expandLabel_ok_of_successorsFirst {defs : List (Label × TripleExpr)} {xs : List Label}
    (hx : SuccessorsFirst (tripleSuccessors defs) (fun _ => False) xs)
    (hdef : ∀ l ∈ xs, ∃ e, defs.lookup l = some e) {n : ℕ} {pre post : List Label} {l : Label}
    (hl : xs = pre ++ l :: post) (hn : pre.length < n) : ∃ x, expandLabel defs n l = .ok x := by
  induction n generalizing pre post l with
  | zero => omega
  | succ n ih =>
    obtain ⟨e, he⟩ := hdef l (by simp [hl])
    rw [expandLabel, he]
    refine TripleExpr.expandWith_ok e fun r hr => ?_
    have hpre := (hx pre l post hl r (by simpa [tripleSuccessors, he] using hr)).resolve_right id
    obtain ⟨pre', mid, rfl⟩ := List.append_of_mem hpre
    have hsplit : pre' ++ r :: mid ++ l :: post = pre' ++ r :: (mid ++ l :: post) := by simp
    have hlen : pre'.length < n := by
      simp only [List.length_append, List.length_cons] at hn
      omega
    exact ih (hl.trans hsplit) hlen

theorem exists_lookup_of_mem_labels {α : Type} {defs : List (Label × α)} {l : Label}
    (h : l ∈ defs.map (·.1)) : ∃ e, defs.lookup l = some e := by
  rw [← Option.isSome_iff_exists, List.lookup_isSome_iff]
  obtain ⟨p, hp, rfl⟩ := List.mem_map.1 h
  exact ⟨p, hp, by simp⟩

theorem mem_of_lookup_eq_some {α : Type} {defs : List (Label × α)} {l : Label} {e : α}
    (h : defs.lookup l = some e) : (l, e) ∈ defs := by
  obtain ⟨pre, post, rfl, -⟩ := List.lookup_eq_some_iff.1 h
  simp

/-- With distinct labels, a label has the one definition that is looked up. -/
theorem lookup_eq_some_of_mem {α : Type} {defs : List (Label × α)} {l : Label} {e : α}
    (hn : (defs.map (·.1)).Nodup) (h : (l, e) ∈ defs) : defs.lookup l = some e := by
  obtain ⟨e', he'⟩ := exists_lookup_of_mem_labels (List.mem_map_of_mem (f := (·.1)) h)
  have hpair := List.inj_on_of_nodup_map hn (mem_of_lookup_eq_some he') h rfl
  rw [he', (Prod.mk.inj hpair).2]

/-- A label is defined if a definition is found for it. -/
theorem Schema.isSome_shape?_iff {s : Schema} {l : Label} :
    (s.shape? l).isSome = true ↔ l ∈ s.labels := by
  rw [Schema.shape?, List.lookup_isSome_iff]
  simp [Schema.labels]

/-- **References between triple expressions lead to an end** where the search for a cycle finds
none. -/
theorem Definitions.wellFounded_tripleSuccessors {d : Definitions}
    (hn : (d.tripleExprs.map (·.1)).Nodup) (h : d.cycle? = none) :
    WellFounded fun r l => r ∈ tripleSuccessors d.tripleExprs l := by
  rw [cycle?] at h
  split at h
  · cases h
  rename_i xs hxs
  obtain ⟨-, hmem, hfirst⟩ := successorsFirst_of_backEdge hn hxs
  simp only [← hmem] at hfirst
  refine hfirst.wellFounded fun a b hb => (hmem a).2 ?_
  cases he : d.tripleExprs.lookup a with
  | none => simp [he] at hb
  | some e => exact List.mem_map_of_mem (f := (·.1)) (mem_of_lookup_eq_some he)

/-- **Every label of checked definitions is expanded** within the bound on chains of
references. -/
theorem Definitions.Checked.expandLabel_ok {d : Definitions} (h : d.Checked) {l : Label}
    (hl : l ∈ d.hoist.tripleExprs.map (·.1)) :
    ∃ x, expandLabel d.hoist.tripleExprs d.hoist.tripleExprs.length l = .ok x := by
  have hcyc := h.acyclic
  rw [Definitions.cycle?] at hcyc
  split at hcyc
  · cases hcyc
  rename_i xs hxs
  obtain ⟨hn, hmem, hfirst⟩ := successorsFirst_of_backEdge h.nodup_tripleLabels hxs
  have hdefined : SuccessorsFirst (tripleSuccessors d.hoist.tripleExprs) (fun _ => False) xs := by
    intro pre a post hx b hb
    refine .inl ((hfirst pre a post hx b hb).resolve_right fun hout => hout ?_)
    simp only [tripleSuccessors] at hb
    cases ha : d.hoist.tripleExprs.lookup a with
    | none => simp [ha] at hb
    | some e =>
      simp only [ha, Option.map_some, Option.getD_some] at hb
      exact (h.defined_of_tripleExpr (mem_of_lookup_eq_some ha)).2 hb
  obtain ⟨pre, post, hsplit⟩ := List.append_of_mem ((hmem l).2 hl)
  refine expandLabel_ok_of_successorsFirst hdefined
    (fun r hr => exists_lookup_of_mem_labels ((hmem r).1 hr)) hsplit ?_
  have hlen := (List.subperm_of_subset hn fun x hx => (hmem x).1 hx).length_le
  rw [hsplit] at hlen
  simp only [List.length_append, List.length_cons, List.length_map] at hlen
  omega

namespace Definitions.Builds

variable {d : Definitions} {s : Schema} (h : d.Builds s)
include h

theorem expandLabel_ok {l : Label} (hl : l ∈ s.tripleExprs.map (·.1)) :
    ∃ x, expandLabel s.tripleExprs s.tripleExprs.length l = .ok x := by
  rw [h.tripleExprs] at hl ⊢
  exact h.checked.expandLabel_ok hl

/-- **Every expression whose references are defined** is expanded. -/
theorem expand_ok {e : TripleExpr} (he : ∀ l ∈ e.references, l ∈ s.tripleExprs.map (·.1)) :
    ∃ x, s.expand e = .ok x :=
  TripleExpr.expandWith_ok e fun l hl => h.expandLabel_ok (he l hl)

end Definitions.Builds

end ShapeTyping
