import Mathlib
import ShapeTyping.Proofs.Schema.Hoisted
import ShapeTyping.Proofs.Schema.NormalForm

/-!
# References followed without a bound

Normalization and the collection of dependencies leave the syntax of an expression where they go on
with the definition of a reference. Definitions without a cycle of references let both come to an
end, and then they are what a recursion without any bound on chains of references computes.

* `TripleExpr.calls`, `TripleExpr.normalizeStep`: that recursion for normalization, and the
  expressions it goes on to.
* `wellFounded_calls`: it comes to an end.
* `Definitions.Builds.normalize_step`, `TripleExpr.eq_of_normalizeStep`: normalization is its only
  solution.
* `Definitions.Builds.normalize_eq_error_iff`: normalization fails at the first undefined reference.
* `Visit`, `Visit.next`: the walk that collects dependencies.
* `Visit.wellFounded_next`: it comes to an end.
* `Visit.collect_definition`: the dependencies of a definition are what it records.
* `Definitions.inlining_ends`: both recursions, from the checks of a build.
-/

namespace ShapeTyping

variable {defs : List (Label × TripleExpr)}

/-! ### Normalization as a recursion -/

namespace TripleExpr

/-- The expressions that normalization goes on to: members of groups and definitions of
references. -/
def calls (defs : List (Label × TripleExpr)) : TripleExpr → List TripleExpr
  | constraint _ => []
  | eachOf es _ => es
  | oneOf es _ => es
  | ref l => (defs.lookup l).toList
  | empty => []

/-- One step of normalization, where `call` normalizes the expressions it goes on to. -/
def normalizeStep (defs : List (Label × TripleExpr))
    (call : TripleExpr → Except SchemaError TripleExpr) :
    TripleExpr → Except SchemaError TripleExpr
  | constraint c => .ok (constraint c)
  | eachOf es card => (es.mapM call).map fun ns => unfoldGroup (eachOf ns .one) card
  | oneOf es card => (es.mapM call).map fun ns => unfoldGroup (oneOf ns .one) card
  | ref l =>
    match defs.lookup l with
    | none => .error (.undefinedTripleExpr l)
    | some e => call e
  | empty => .ok empty

variable {f g : TripleExpr → Except SchemaError TripleExpr}

theorem mapM_congr {es : List TripleExpr} (h : ∀ e ∈ es, f e = g e) : es.mapM f = es.mapM g := by
  induction es with
  | nil => rfl
  | cons e es ih =>
    obtain ⟨he, hes⟩ := List.forall_mem_cons.1 h
    rw [List.mapM_cons, List.mapM_cons, he, ih hes]

/-- A step depends on the expressions that it goes on to only. -/
theorem normalizeStep_congr {e : TripleExpr} (h : ∀ e' ∈ e.calls defs, f e' = g e') :
    normalizeStep defs f e = normalizeStep defs g e := by
  cases e with
  | constraint c => rfl
  | eachOf es card =>
    have hmembers : es.mapM f = es.mapM g := mapM_congr h
    rw [normalizeStep, normalizeStep, hmembers]
  | oneOf es card =>
    have hmembers : es.mapM f = es.mapM g := mapM_congr h
    rw [normalizeStep, normalizeStep, hmembers]
  | ref l =>
    rw [normalizeStep, normalizeStep]
    cases hl : defs.lookup l with
    | none => rfl
    | some e => exact h e (by simp [calls, hl])
  | empty => rfl

/-- Where the recursion comes to an end it has one solution. -/
theorem eq_of_normalizeStep (hwf : WellFounded fun e' e => e' ∈ calls defs e)
    (hf : ∀ e, f e = normalizeStep defs f e) (hg : ∀ e, g e = normalizeStep defs g e) : f = g := by
  funext e
  induction e using hwf.induction with
  | _ e ih => rw [hf, hg, normalizeStep_congr ih]

mutual
/-- The recursion comes to an end on an expression if it does so on the definitions that the
expression refers to. -/
theorem acc_calls : (e : TripleExpr) →
    (∀ l ∈ e.references, ∀ x, defs.lookup l = some x → Acc (fun e' e => e' ∈ calls defs e) x) →
      Acc (fun e' e => e' ∈ calls defs e) e
  | constraint _, _ => ⟨_, fun _ h => absurd h List.not_mem_nil⟩
  | eachOf es _, h => ⟨_, acc_callsOfList es h⟩
  | oneOf es _, h => ⟨_, acc_callsOfList es h⟩
  | ref l, h => ⟨_, fun x hx => h l (List.mem_singleton_self l) x (Option.mem_toList.1 hx)⟩
  | empty, _ => ⟨_, fun _ h => absurd h List.not_mem_nil⟩

theorem acc_callsOfList : (es : List TripleExpr) →
    (∀ l ∈ referencesOfList es, ∀ x, defs.lookup l = some x →
      Acc (fun e' e => e' ∈ calls defs e) x) →
      ∀ e ∈ es, Acc (fun e' e => e' ∈ calls defs e) e
  | [], _ => by simp
  | e :: es, h => List.forall_mem_cons.2
    ⟨acc_calls e fun l hl => h l (List.mem_append_left _ hl),
      acc_callsOfList es fun l hl => h l (List.mem_append_right _ hl)⟩
end

end TripleExpr

/-- **The recursion of normalization comes to an end** where references do. -/
theorem wellFounded_calls (h : WellFounded fun r l => r ∈ tripleSuccessors defs l) :
    WellFounded fun e' e => e' ∈ TripleExpr.calls defs e := by
  have hdefs : ∀ l x, defs.lookup l = some x →
      Acc (fun e' e => e' ∈ TripleExpr.calls defs e) x := by
    intro l
    induction l using h.induction with
    | _ l ih =>
      intro x hx
      exact TripleExpr.acc_calls x fun r hr => ih r (by simpa [tripleSuccessors, hx] using hr)
  exact ⟨fun e => TripleExpr.acc_calls e fun l _ => hdefs l⟩

/-! ### Normalization solves the recursion -/

namespace TripleExpr

variable {follow follow' : Label → Except SchemaError TripleExpr}

mutual
theorem expandWith_mono (hf : ∀ l x, follow l = .ok x → follow' l = .ok x) :
    (e : TripleExpr) → {x : TripleExpr} → e.expandWith follow = .ok x →
      e.expandWith follow' = .ok x
  | constraint c, x, hx => hx
  | eachOf es card, x, hx => by
    obtain ⟨xs, hxs, rfl⟩ := Except.map_eq_ok hx
    rw [expandWith, expandListWith_mono hf es hxs]
    rfl
  | oneOf es card, x, hx => by
    obtain ⟨xs, hxs, rfl⟩ := Except.map_eq_ok hx
    rw [expandWith, expandListWith_mono hf es hxs]
    rfl
  | ref l, x, hx => hf l x hx
  | empty, x, hx => hx

theorem expandListWith_mono (hf : ∀ l x, follow l = .ok x → follow' l = .ok x) :
    (es : List TripleExpr) → {xs : List TripleExpr} → expandListWith follow es = .ok xs →
      expandListWith follow' es = .ok xs
  | [], xs, hxs => hxs
  | e :: es, xs, hxs => by
    obtain ⟨y, hy, ys, hys, rfl⟩ := expandListWith_cons hxs
    rw [expandListWith, expandWith_mono hf e hy, expandListWith_mono hf es hys]
    rfl
end

/-- Normalizing members one by one is expanding all of them and unfolding the result. -/
theorem mapM_expandWith (es : List TripleExpr) :
    (es.mapM fun e => (e.expandWith follow).map (·.unfold)) =
      (expandListWith follow es).map unfoldList := by
  induction es with
  | nil => rfl
  | cons e es ih =>
    rw [List.mapM_cons, ih, expandListWith]
    cases e.expandWith follow with
    | error err => rfl
    | ok x =>
      cases expandListWith follow es with
      | error err => rfl
      | ok xs => rfl

/-- A group is unfolded after its members, so they may be normalized one by one. -/
theorem map_expandListWith_unfold (group unfolded : List TripleExpr → TripleExpr)
    (h : ∀ xs, (group xs).unfold = unfolded (unfoldList xs)) (es : List TripleExpr) :
    ((expandListWith follow es).map group).map (·.unfold) =
      (es.mapM fun (e : TripleExpr) => (e.expandWith follow).map (·.unfold)).map unfolded := by
  rw [mapM_expandWith]
  cases expandListWith follow es with
  | error err => rfl
  | ok xs => exact congrArg _ (h xs)

mutual
/-- The first reference that is not defined stops an expansion. -/
theorem expandWith_eq_error {defined : Label → Bool}
    (hok : ∀ l, defined l = true → ∃ x, follow l = .ok x)
    (herr : ∀ l, defined l = false → follow l = .error (.undefinedTripleExpr l)) {l : Label} :
    (e : TripleExpr) → e.references.find? (!defined ·) = some l →
      e.expandWith follow = .error (.undefinedTripleExpr l)
  | constraint c, h => by simp [references] at h
  | eachOf es card, h => by
    rw [expandWith, expandListWith_eq_error hok herr es h]
    rfl
  | oneOf es card, h => by
    rw [expandWith, expandListWith_eq_error hok herr es h]
    rfl
  | ref r, h => by
    obtain ⟨hr, rfl⟩ : defined r = false ∧ r = l := by
      simpa [references, List.find?_singleton] using h
    exact herr r hr
  | empty, h => by simp [references] at h

theorem expandListWith_eq_error {defined : Label → Bool}
    (hok : ∀ l, defined l = true → ∃ x, follow l = .ok x)
    (herr : ∀ l, defined l = false → follow l = .error (.undefinedTripleExpr l)) {l : Label} :
    (es : List TripleExpr) → (referencesOfList es).find? (!defined ·) = some l →
      expandListWith follow es = .error (.undefinedTripleExpr l)
  | [], h => by simp [referencesOfList] at h
  | e :: es, h => by
    rw [referencesOfList, List.find?_append, Option.or_eq_some_iff] at h
    rcases h with h | ⟨hnone, h⟩
    · rw [expandListWith, expandWith_eq_error hok herr e h]
    · -- all references of the first member are defined, so it is expanded
      obtain ⟨x, hx⟩ := expandWith_ok e fun r hr =>
        hok r (by simpa using List.find?_eq_none.1 hnone r hr)
      rw [expandListWith, hx, expandListWith_eq_error hok herr es h]
      rfl
end

/-- **An expansion fails** exactly at the first reference that is not defined. -/
theorem expandWith_eq_error_iff {defined : Label → Bool}
    (hok : ∀ l, defined l = true → ∃ x, follow l = .ok x)
    (herr : ∀ l, defined l = false → follow l = .error (.undefinedTripleExpr l)) {e : TripleExpr}
    {err : SchemaError} : e.expandWith follow = .error err ↔
      ∃ l, e.references.find? (!defined ·) = some l ∧ err = .undefinedTripleExpr l := by
  constructor
  · intro h
    cases hfind : e.references.find? (!defined ·) with
    | none =>
      obtain ⟨x, hx⟩ := expandWith_ok e fun r hr =>
        hok r (by simpa using List.find?_eq_none.1 hfind r hr)
      rw [hx] at h
      cases h
    | some l =>
      rw [expandWith_eq_error hok herr e hfind] at h
      cases h
      exact ⟨l, rfl, rfl⟩
  · rintro ⟨l, hfind, rfl⟩
    exact expandWith_eq_error hok herr e hfind

end TripleExpr

theorem expandLabel_undefined {l : Label} (h : defs.lookup l = none) (depth : ℕ) :
    expandLabel defs depth l = .error (.undefinedTripleExpr l) := by
  cases depth with
  | zero => rfl
  | succ depth => rw [expandLabel, h]

theorem expandLabel_mono {m n : ℕ} (hmn : m ≤ n) {l : Label} {x : TripleExpr}
    (h : expandLabel defs m l = .ok x) : expandLabel defs n l = .ok x := by
  induction m generalizing n l x with
  | zero => cases h
  | succ m ih =>
    obtain ⟨n, rfl⟩ : ∃ n', n = n' + 1 := ⟨n - 1, by omega⟩
    rw [expandLabel] at h ⊢
    cases hl : defs.lookup l with
    | none => rw [hl] at h; cases h
    | some e =>
      rw [hl] at h
      exact TripleExpr.expandWith_mono (fun _ _ => ih (Nat.le_of_succ_le_succ hmn)) e h

section Built

variable {d : Definitions} {s : Schema} (h : d.Builds s)
include h

/-- A defined reference is expanded to what its definition is expanded to. -/
theorem Definitions.Builds.expand_ref {l : Label} {e : TripleExpr}
    (hl : s.tripleExprs.lookup l = some e) : s.expand (.ref l) = s.expand e := by
  obtain ⟨x, hx⟩ := h.expandLabel_ok (List.mem_map_of_mem (f := (·.1)) (mem_of_lookup_eq_some hl))
  -- one step less is enough for the definition
  obtain ⟨n, hn⟩ : ∃ n, s.tripleExprs.length = n + 1 :=
    Nat.exists_eq_succ_of_ne_zero fun hzero => by rw [hzero] at hx; cases hx
  have hstep : e.expandWith (expandLabel s.tripleExprs n) = .ok x := by
    rwa [hn, expandLabel, hl] at hx
  have hexpand : s.expand e = .ok x :=
    TripleExpr.expandWith_mono (fun _ _ => expandLabel_mono (by omega)) e hstep
  rw [hexpand]
  exact hx

/-- **Normalization solves the recursion without a bound.** -/
theorem Definitions.Builds.normalize_step (e : TripleExpr) :
    s.normalize e = TripleExpr.normalizeStep s.tripleExprs s.normalize e := by
  cases e with
  | constraint c => rfl
  | eachOf es card =>
    exact TripleExpr.map_expandListWith_unfold (.eachOf · card)
      (fun ns => TripleExpr.unfoldGroup (.eachOf ns .one) card) (fun _ => rfl) es
  | oneOf es card =>
    exact TripleExpr.map_expandListWith_unfold (.oneOf · card)
      (fun ns => TripleExpr.unfoldGroup (.oneOf ns .one) card) (fun _ => rfl) es
  | ref l =>
    rw [TripleExpr.normalizeStep, Schema.normalize]
    cases hl : s.tripleExprs.lookup l with
    | none =>
      have hundefined : s.expand (.ref l) = _ := expandLabel_undefined hl s.tripleExprs.length
      rw [hundefined]
      rfl
    | some e => rw [h.expand_ref hl]; rfl
  | empty => rfl

/-- **Normalization fails** exactly at the first reference that is not defined. -/
theorem Definitions.Builds.normalize_eq_error_iff {e : TripleExpr} {err : SchemaError} :
    s.normalize e = .error err ↔
      ∃ l, e.references.find? (fun l => (s.tripleExpr? l).isNone) = some l ∧
        err = .undefinedTripleExpr l := by
  have hok : ∀ l, (s.tripleExpr? l).isSome = true →
      ∃ x, expandLabel s.tripleExprs s.tripleExprs.length l = .ok x := by
    intro l hl
    obtain ⟨e, he⟩ := Option.isSome_iff_exists.1 hl
    exact h.expandLabel_ok (List.mem_map_of_mem (f := (·.1)) (mem_of_lookup_eq_some he))
  have herr : ∀ l, (s.tripleExpr? l).isSome = false →
      expandLabel s.tripleExprs s.tripleExprs.length l = .error (.undefinedTripleExpr l) := by
    intro l hl
    rw [Option.isSome_eq_false_iff, Option.isNone_iff_eq_none] at hl
    exact expandLabel_undefined hl _
  have hexpand : s.expand e = .error err ↔ _ :=
    TripleExpr.expandWith_eq_error_iff hok herr
  simp only [Option.not_isSome] at hexpand
  rw [← hexpand, Schema.normalize]
  cases s.expand e <;> simp [Except.map]

end Built

/-! ### The walk that collects dependencies -/

/-- An expression that is visited for its dependencies, with the flags of what stands above it and,
inside of a shape, the extra predicates of the shape. -/
inductive Visit where
  | shape (negative zero : Bool) (e : ShapeExpr)
  | triple (extra : List Iri) (negative zero : Bool) (e : TripleExpr)

namespace Visit

/-- The visits that a visit goes on to, in order. -/
def next (defs : List (Label × TripleExpr)) : Visit → List Visit
  | shape negative zero (.and es) => es.map (shape negative zero)
  | shape negative zero (.or es) => es.map (shape negative zero)
  | shape _ zero (.not e) => [shape true zero e]
  | shape negative zero (.shape x) => [triple x.extra negative zero x.expr]
  | shape _ _ (.node _) => []
  | shape _ _ .external => []
  | shape _ _ (.ref _) => []
  | triple extra negative zero (.constraint c) =>
    c.value.toList.map (shape (negative || c.predicate ∈ extra) (zero || c.card.isZero))
  | triple extra negative zero (.eachOf es card) =>
    es.map (triple extra negative (zero || card.isZero))
  | triple extra negative zero (.oneOf es card) =>
    es.map (triple extra negative (zero || card.isZero))
  | triple extra negative zero (.ref l) => (defs.lookup l).toList.map (triple extra negative zero)
  | triple _ _ _ .empty => []

/-- The dependency that a visit records itself. -/
def recorded (source : Label) : Visit → List Dependency
  | shape negative zero (.ref l) => [⟨source, l, negative, zero⟩]
  | _ => []

/-! ### The walk comes to an end -/

/-- A walk has an end at a visit if it has one at all visits that come next. -/
def Ends (defs : List (Label × TripleExpr)) : Visit → Prop := Acc fun w v => w ∈ v.next defs

variable {extra : List Iri} {negative zero : Bool}

theorem ends_ref (l : Label) : Ends defs (shape negative zero (.ref l)) :=
  ⟨_, fun _ hw => absurd hw List.not_mem_nil⟩

/-- The walk ends where normalization does, if values are references. -/
theorem ends_of_acc_calls (hdefs : ∀ l x, defs.lookup l = some x → x.inlineValues = 0)
    {e : TripleExpr} (h : Acc (fun e' e => e' ∈ TripleExpr.calls defs e) e)
    (he : e.inlineValues = 0) : Ends defs (triple extra negative zero e) := by
  induction h generalizing zero with
  | intro e _ ih =>
    refine ⟨_, fun w hw => ?_⟩
    cases e with
    | constraint c =>
      obtain ⟨v, hv, rfl⟩ := List.mem_map.1 hw
      obtain ⟨l, rfl⟩ := TripleConstraint.eq_ref_of_inlineValues (Option.mem_toList.1 hv) he
      exact ends_ref l
    | eachOf es card =>
      obtain ⟨e, hmem, rfl⟩ := List.mem_map.1 hw
      exact ih e hmem (TripleExpr.inlineValuesOfList_eq_zero.1 he e hmem)
    | oneOf es card =>
      obtain ⟨e, hmem, rfl⟩ := List.mem_map.1 hw
      exact ih e hmem (TripleExpr.inlineValuesOfList_eq_zero.1 he e hmem)
    | ref l =>
      obtain ⟨x, hx, rfl⟩ := List.mem_map.1 hw
      exact ih x hx (hdefs l x (Option.mem_toList.1 hx))
    | empty => cases hw

mutual
/-- The walk ends at every expression if it does at every definition of a triple expression. -/
theorem ends_shape (h : ∀ l x, defs.lookup l = some x → ∀ extra negative zero,
    Ends defs (triple extra negative zero x)) :
    (e : ShapeExpr) → ∀ negative zero, Ends defs (shape negative zero e)
  | .and es, _, _ => ⟨_, ends_shapes h es _ _⟩
  | .or es, _, _ => ⟨_, ends_shapes h es _ _⟩
  | .not e, _, _ => ⟨_, fun _ hw => List.mem_singleton.1 hw ▸ ends_shape h e _ _⟩
  | .node _, _, _ => ⟨_, fun _ hw => absurd hw List.not_mem_nil⟩
  | .shape ⟨_, _, e, _⟩, _, _ => ⟨_, fun _ hw => List.mem_singleton.1 hw ▸ ends_triple h e _ _ _⟩
  | .external, _, _ => ⟨_, fun _ hw => absurd hw List.not_mem_nil⟩
  | .ref l, _, _ => ends_ref l

theorem ends_shapes (h : ∀ l x, defs.lookup l = some x → ∀ extra negative zero,
    Ends defs (triple extra negative zero x)) :
    (es : List ShapeExpr) → ∀ negative zero, ∀ w ∈ es.map (shape negative zero), Ends defs w
  | [], _, _ => by simp
  | e :: es, _, _ => List.forall_mem_cons.2 ⟨ends_shape h e _ _, ends_shapes h es _ _⟩

theorem ends_triple (h : ∀ l x, defs.lookup l = some x → ∀ extra negative zero,
    Ends defs (triple extra negative zero x)) :
    (e : TripleExpr) → ∀ extra negative zero, Ends defs (triple extra negative zero e)
  | .constraint ⟨_, some v, _, _, _⟩, _, _, _ =>
    ⟨_, fun _ hw => List.mem_singleton.1 hw ▸ ends_shape h v _ _⟩
  | .constraint ⟨_, none, _, _, _⟩, _, _, _ => ⟨_, fun _ hw => absurd hw List.not_mem_nil⟩
  | .eachOf es _, _, _, _ => ⟨_, ends_triples h es _ _ _⟩
  | .oneOf es _, _, _, _ => ⟨_, ends_triples h es _ _ _⟩
  | .ref l, _, _, _ => ⟨_, fun _ hw => by
      obtain ⟨x, hx, rfl⟩ := List.mem_map.1 hw
      exact h l x (Option.mem_toList.1 hx) _ _ _⟩
  | .empty, _, _, _ => ⟨_, fun _ hw => absurd hw List.not_mem_nil⟩

theorem ends_triples (h : ∀ l x, defs.lookup l = some x → ∀ extra negative zero,
    Ends defs (triple extra negative zero x)) :
    (es : List TripleExpr) → ∀ extra negative zero,
      ∀ w ∈ es.map (triple extra negative zero), Ends defs w
  | [], _, _, _ => by simp
  | e :: es, _, _, _ => List.forall_mem_cons.2 ⟨ends_triple h e _ _ _, ends_triples h es _ _ _⟩
end

/-- **The walk comes to an end** from every visit, if references do and the values of the
definitions are references. -/
theorem wellFounded_next (hwf : WellFounded fun r l => r ∈ tripleSuccessors defs l)
    (hdefs : ∀ l x, defs.lookup l = some x → x.inlineValues = 0) :
    WellFounded fun w v => w ∈ next defs v := by
  have hends : ∀ l x, defs.lookup l = some x → ∀ extra negative zero,
      Ends defs (triple extra negative zero x) := fun l x hx _ _ _ =>
    ends_of_acc_calls hdefs ((wellFounded_calls hwf).apply x) (hdefs l x hx)
  refine ⟨fun v => ?_⟩
  cases v with
  | shape negative zero e => exact ends_shape hends e _ _
  | triple extra negative zero e => exact ends_triple hends e _ _ _

/-! ### What the walk records -/

section Recorded

/-- The walk as a recursion without a bound: the dependency that a visit records itself comes before
those of the visits that come next. -/
def Collects (defs : List (Label × TripleExpr)) (source : Label)
    (collect : Visit → List Dependency) : Prop :=
  ∀ v, collect v = v.recorded source ++ (v.next defs).flatMap collect

/-- Where the walk comes to an end the recursion has one solution. -/
theorem existsUnique_collects (hwf : WellFounded fun w v => w ∈ next defs v) (source : Label) :
    ∃! collect, Collects defs source collect := by
  let step (v : Visit) (call : ∀ w, w ∈ v.next defs → List Dependency) : List Dependency :=
    v.recorded source ++ (v.next defs).attach.flatMap fun w => call w.1 w.2
  have hfix : Collects defs source (hwf.fix step) := fun v => by
    rw [hwf.fix_eq]
    simp [step]
  refine ⟨hwf.fix step, hfix, fun collect hcollect => ?_⟩
  funext v
  induction v using hwf.induction with
  | _ v ih => rw [hcollect v, hfix v, List.flatMap_congr ih]

variable {source : Label} {collect : Visit → List Dependency}

theorem collect_ref (hcollect : Collects defs source collect) (l : Label) :
    collect (shape negative zero (.ref l)) = [⟨source, l, negative, zero⟩] := by
  rw [hcollect _]
  simp [recorded, next]

theorem collect_constraint (hcollect : Collects defs source collect) {c : TripleConstraint}
    (hc : c.inlineValues = 0) :
    collect (triple extra negative zero (.constraint c)) =
      (TripleExpr.constraint c).dependencies source extra negative zero := by
  rw [hcollect _, TripleExpr.dependencies]
  cases hv : c.value with
  | none => simp [recorded, next, TripleConstraint.valueLabel?, hv]
  | some v =>
    obtain ⟨l, rfl⟩ := TripleConstraint.eq_ref_of_inlineValues hv hc
    simp [recorded, next, TripleConstraint.valueLabel?, hv, ShapeExpr.ref?, collect_ref hcollect]

mutual
/-- An expression and what it is expanded to have the same dependencies recorded, if references
have. -/
theorem collect_expandWith (hcollect : Collects defs source collect)
    {follow : Label → Except SchemaError TripleExpr}
    (hfollow : ∀ l x, follow l = .ok x → ∀ zero, collect (triple extra negative zero (.ref l)) =
      x.dependencies source extra negative zero) :
    (e : TripleExpr) → {x : TripleExpr} → e.inlineValues = 0 → e.expandWith follow = .ok x →
      ∀ zero, collect (triple extra negative zero e) = x.dependencies source extra negative zero
  | .constraint c, x, he, hx, zero => by
    cases hx
    exact collect_constraint hcollect he
  | .eachOf es card, x, he, hx, zero => by
    obtain ⟨xs, hxs, rfl⟩ := Except.map_eq_ok hx
    rw [hcollect _, TripleExpr.dependencies, ← collect_expandListWith hcollect hfollow es he hxs]
    rfl
  | .oneOf es card, x, he, hx, zero => by
    obtain ⟨xs, hxs, rfl⟩ := Except.map_eq_ok hx
    rw [hcollect _, TripleExpr.dependencies, ← collect_expandListWith hcollect hfollow es he hxs]
    rfl
  | .ref l, x, _, hx, zero => hfollow l x hx zero
  | .empty, x, _, hx, zero => by
    cases hx
    rw [hcollect _]
    rfl

theorem collect_expandListWith (hcollect : Collects defs source collect)
    {follow : Label → Except SchemaError TripleExpr}
    (hfollow : ∀ l x, follow l = .ok x → ∀ zero, collect (triple extra negative zero (.ref l)) =
      x.dependencies source extra negative zero) :
    (es : List TripleExpr) → {xs : List TripleExpr} → TripleExpr.inlineValuesOfList es = 0 →
      TripleExpr.expandListWith follow es = .ok xs →
      ∀ zero, (es.map (triple extra negative zero)).flatMap collect =
        TripleExpr.dependenciesOfList source extra negative zero xs
  | [], xs, _, hxs, zero => by
    cases hxs
    rfl
  | e :: es, xs, he, hxs, zero => by
    obtain ⟨y, hy, ys, hys, rfl⟩ := TripleExpr.expandListWith_cons hxs
    rw [TripleExpr.inlineValuesOfList, Nat.add_eq_zero_iff] at he
    rw [List.map_cons, List.flatMap_cons, collect_expandWith hcollect hfollow e he.1 hy,
      collect_expandListWith hcollect hfollow es he.2 hys, TripleExpr.dependenciesOfList]
end

/-- A reference has the dependencies of its expansion recorded. -/
theorem collect_expandLabel (hcollect : Collects defs source collect)
    (hdefs : ∀ l x, defs.lookup l = some x → x.inlineValues = 0) {depth : ℕ} (l : Label)
    (x : TripleExpr) (hx : expandLabel defs depth l = .ok x) (zero : Bool) :
    collect (triple extra negative zero (.ref l)) =
      x.dependencies source extra negative zero := by
  refine expandLabel_induction (P := fun l x => ∀ zero,
    collect (triple extra negative zero (.ref l)) = x.dependencies source extra negative zero)
    ?_ hx zero
  intro follow hfollow l e x hl hx zero
  rw [hcollect _, ← collect_expandWith hcollect hfollow e (hdefs l e hl) hx zero]
  simp [recorded, next, hl]

mutual
/-- **The dependencies of a definition** are what the walk from it records, in the same order. -/
theorem collect_definition (hcollect : Collects defs source collect)
    (hdefs : ∀ l x, defs.lookup l = some x → x.inlineValues = 0)
    (hexpand : ∀ l ∈ defs.map (·.1), ∃ x, expandLabel defs defs.length l = .ok x) :
    (e : ShapeExpr) → e.inlineValues = 0 → (∀ l ∈ e.tripleReferences, l ∈ defs.map (·.1)) →
      ∀ negative, collect (shape negative false e) = e.dependencies defs source negative
  | .and es, he, hr, negative => by
    rw [hcollect _, ShapeExpr.dependencies, ← collect_definitions hcollect hdefs hexpand es he hr]
    rfl
  | .or es, he, hr, negative => by
    rw [hcollect _, ShapeExpr.dependencies, ← collect_definitions hcollect hdefs hexpand es he hr]
    rfl
  | .not e, he, hr, negative => by
    rw [hcollect _, ShapeExpr.dependencies, ← collect_definition hcollect hdefs hexpand e he hr]
    simp [recorded, next]
  | .node _, _, _, _ => by
    rw [hcollect _]
    rfl
  | .shape ⟨closed, extra, e, index⟩, he, hr, negative => by
    obtain ⟨x, hx⟩ : ∃ x, e.expandIn defs = .ok x :=
      TripleExpr.expandWith_ok e fun l hl => hexpand l (hr l hl)
    have hexpr : collect (triple extra negative false e) =
        x.dependencies source extra negative false :=
      collect_expandWith hcollect (collect_expandLabel hcollect hdefs) e he hx false
    rw [hcollect _, ShapeExpr.dependencies]
    simp [recorded, next, hx, hexpr]
  | .external, _, _, _ => by
    rw [hcollect _]
    rfl
  | .ref l, _, _, _ => collect_ref hcollect l

theorem collect_definitions (hcollect : Collects defs source collect)
    (hdefs : ∀ l x, defs.lookup l = some x → x.inlineValues = 0)
    (hexpand : ∀ l ∈ defs.map (·.1), ∃ x, expandLabel defs defs.length l = .ok x) :
    (es : List ShapeExpr) → ShapeExpr.inlineValuesOfList es = 0 →
      (∀ l ∈ ShapeExpr.tripleReferencesOfList es, l ∈ defs.map (·.1)) →
      ∀ negative, (es.map (shape negative false)).flatMap collect =
        ShapeExpr.dependenciesOfList defs source negative es
  | [], _, _, _ => rfl
  | e :: es, he, hr, negative => by
    rw [ShapeExpr.inlineValuesOfList, Nat.add_eq_zero_iff] at he
    rw [List.map_cons, List.flatMap_cons, ShapeExpr.dependenciesOfList,
      collect_definition hcollect hdefs hexpand e he.1
        (fun l hl => hr l (List.mem_append_left _ hl)),
      collect_definitions hcollect hdefs hexpand es he.2
        (fun l hl => hr l (List.mem_append_right _ hl))]
end

end Recorded

end Visit

/-! ### Both recursions -/

/-- **References are followed to an end.** If a build succeeds, the recursion of normalization ends
on every expression and normalization is its only solution. It fails exactly on an expression in
which some reference is undefined, with the first of them. If the search for a cycle finds none, the
walk that collects dependencies ends from every visit and has one result, and from a checked
definition this is the dependencies of the definition. -/
theorem Definitions.inlining_ends (d : Definitions) :
    (∀ s, d.build = .ok s →
      WellFounded (fun e' e => e' ∈ TripleExpr.calls s.tripleExprs e) ∧
      (∀ f, (∀ e, f e = TripleExpr.normalizeStep s.tripleExprs f e) ↔ f = s.normalize) ∧
      ∀ e err, s.normalize e = .error err ↔
        ∃ l, e.references.find? (fun l => (s.tripleExpr? l).isNone) = some l ∧
          err = .undefinedTripleExpr l) ∧
    ((d.tripleExprs.map (·.1)).Nodup → d.hoist.cycle? = none →
      WellFounded (fun w v => w ∈ Visit.next d.hoist.tripleExprs v) ∧
      ∀ source, ∃! collect, Visit.Collects d.hoist.tripleExprs source collect) ∧
    (d.Checked → ∀ source collect, Visit.Collects d.hoist.tripleExprs source collect →
      ∀ e, (source, e) ∈ d.hoist.shapes →
        collect (.shape false false e) = e.dependencies d.hoist.tripleExprs source false) := by
  have hdefs : ∀ l x, d.hoist.tripleExprs.lookup l = some x → x.inlineValues = 0 := fun l x hx =>
    Definitions.inlineValues_hoist_tripleExprs (mem_of_lookup_eq_some hx)
  have hacyclic : (d.tripleExprs.map (·.1)).Nodup → d.hoist.cycle? = none →
      WellFounded fun r l => r ∈ tripleSuccessors d.hoist.tripleExprs l := fun hn h =>
    Definitions.wellFounded_tripleSuccessors (hn.sublist d.hoist_tripleExprs_labels_sublist) h
  refine ⟨fun s hs => ?_, fun hn h => ?_, ?_⟩
  · have h := Definitions.builds_of_build hs
    have hwf : WellFounded fun e' e => e' ∈ TripleExpr.calls s.tripleExprs e := by
      rw [h.tripleExprs]
      exact wellFounded_calls (hacyclic h.nodup_tripleExprs h.acyclic)
    refine ⟨hwf, fun f => ⟨fun hf => ?_, ?_⟩, fun e err => h.normalize_eq_error_iff⟩
    · exact TripleExpr.eq_of_normalizeStep hwf hf h.normalize_step
    · rintro rfl
      exact h.normalize_step
  · have hwf := Visit.wellFounded_next (hacyclic hn h) hdefs
    exact ⟨hwf, Visit.existsUnique_collects hwf⟩
  · intro h source collect hcollect e he
    exact Visit.collect_definition hcollect hdefs (fun _ hl => h.expandLabel_ok hl) e
      (Definitions.inlineValues_hoist_shapes he) (fun _ hl => (h.defined_of_shape he).2 hl) false

/-- A shape that goes through three references before it refers to itself. -/
def nestedReferences : Definitions where
  shapes := [(.iri ⟨"urn:S"⟩, .shape ⟨false, [], .ref (.iri ⟨"urn:t"⟩), 0⟩)]
  tripleExprs :=
    [(.iri ⟨"urn:t"⟩, .eachOf [.ref (.iri ⟨"urn:u"⟩), .ref (.iri ⟨"urn:u"⟩)] ⟨2, some 2⟩),
      (.iri ⟨"urn:u"⟩, .constraint ⟨⟨"urn:p"⟩, some (.ref (.iri ⟨"urn:S"⟩)), .plus, false, none⟩)]
  start := none

theorem Definitions.inlining_ends_nestedReferences :
    ∃ s, nestedReferences.build = .ok s ∧
      s.normalize (.eachOf [.ref (.iri ⟨"urn:t"⟩), .oneOf [.ref (.iri ⟨"urn:v"⟩)] ⟨0, some 0⟩,
        .ref (.iri ⟨"urn:w"⟩)] .one) = .error (.undefinedTripleExpr (.iri ⟨"urn:v"⟩)) ∧
      ∃ collect,
        Visit.Collects nestedReferences.hoist.tripleExprs (.iri ⟨"urn:S"⟩) collect ∧
        collect (.shape false false (.shape ⟨false, [], .ref (.iri ⟨"urn:t"⟩), 0⟩)) =
          [⟨.iri ⟨"urn:S"⟩, .iri ⟨"urn:S"⟩, false, false⟩,
            ⟨.iri ⟨"urn:S"⟩, .iri ⟨"urn:S"⟩, false, false⟩] := by
  have hbuild : nestedReferences.build = .ok
      { shapes := nestedReferences.shapes
        tripleExprs := nestedReferences.tripleExprs
        start := none, shapeCount := 1, strata := [[.iri ⟨"urn:S"⟩]] } := by cbv
  obtain ⟨hnormalize, hwalk, hrecords⟩ := Definitions.inlining_ends nestedReferences
  have h := (Definitions.builds_of_build hbuild).checked
  obtain ⟨collect, hcollect, -⟩ := (hwalk h.nodup_tripleExprs h.acyclic).2 (.iri ⟨"urn:S"⟩)
  have hdefined : (.iri ⟨"urn:S"⟩, .shape ⟨false, [], .ref (.iri ⟨"urn:t"⟩), 0⟩) ∈
      nestedReferences.hoist.shapes := .head _
  refine ⟨_, hbuild, ((hnormalize _ hbuild).2.2 _ _).2 ⟨_, rfl, rfl⟩, collect, hcollect, ?_⟩
  rw [hrecords h _ collect hcollect _ hdefined]
  cbv

end ShapeTyping
