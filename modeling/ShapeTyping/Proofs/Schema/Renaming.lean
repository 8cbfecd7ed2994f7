import Mathlib
import ShapeTyping.Schema.Compile
import ShapeTyping.Proofs.Schema.Dependencies

/-!
# Renamed labels

Shape labels are only compared, so whatever is made of an expression with other labels is what is
made of the expression, with these labels. Names of triple expressions stay as they are.

* `ShapeExpr.rename`, `TripleExpr.rename`: an expression with other shape labels.
* `ShapeExpr.Refers.rename`: its references.
* `TripleExpr.expandIn_rename`, `TripleExpr.compile_rename`: its expansion and its compiled form.
* `Schema.compile_rename`: the compiled form in a schema with renamed triple expressions.
-/

namespace ShapeTyping

mutual
/-- An expression with other shape labels. -/
def ShapeExpr.rename (ρ : Label → Label) : ShapeExpr → ShapeExpr
  | .and es => .and (ShapeExpr.renameList ρ es)
  | .or es => .or (ShapeExpr.renameList ρ es)
  | .not e => .not (e.rename ρ)
  | .node c => .node c
  | .shape ⟨closed, extra, e, index⟩ => .shape ⟨closed, extra, e.rename ρ, index⟩
  | .external => .external
  | .ref l => .ref (ρ l)

def ShapeExpr.renameList (ρ : Label → Label) : List ShapeExpr → List ShapeExpr
  | [] => []
  | e :: es => e.rename ρ :: ShapeExpr.renameList ρ es

def TripleExpr.rename (ρ : Label → Label) : TripleExpr → TripleExpr
  | .constraint c => .constraint (c.rename ρ)
  | .eachOf es card => .eachOf (TripleExpr.renameList ρ es) card
  | .oneOf es card => .oneOf (TripleExpr.renameList ρ es) card
  | .ref l => .ref l
  | .empty => .empty

def TripleExpr.renameList (ρ : Label → Label) : List TripleExpr → List TripleExpr
  | [] => []
  | e :: es => e.rename ρ :: TripleExpr.renameList ρ es

def TripleConstraint.rename (ρ : Label → Label) : TripleConstraint → TripleConstraint
  | ⟨p, some e, card, inverse, label⟩ => ⟨p, some (e.rename ρ), card, inverse, label⟩
  | ⟨p, none, card, inverse, label⟩ => ⟨p, none, card, inverse, label⟩
end

/-- A definition of a shape with other shape labels. -/
def renameShape (ρ : Label → Label) (p : Label × ShapeExpr) : Label × ShapeExpr :=
  (ρ p.1, p.2.rename ρ)

/-- Definitions of triple expressions with other shape labels. -/
def renameTripleExprs (ρ : Label → Label) (defs : List (Label × TripleExpr)) :
    List (Label × TripleExpr) :=
  defs.map fun p => (p.1, p.2.rename ρ)

variable {ρ : Label → Label}

theorem ShapeExpr.renameList_eq_map (es : List ShapeExpr) :
    renameList ρ es = es.map (·.rename ρ) := by
  induction es with
  | nil => rfl
  | cons e es ih => rw [renameList, ih, List.map_cons]

theorem TripleExpr.renameList_eq_map (es : List TripleExpr) :
    renameList ρ es = es.map (·.rename ρ) := by
  induction es with
  | nil => rfl
  | cons e es ih => rw [renameList, ih, List.map_cons]

namespace TripleConstraint

@[simp]
theorem value_rename (c : TripleConstraint) : (c.rename ρ).value = c.value.map (·.rename ρ) := by
  obtain ⟨_, _ | _, _, _, _⟩ := c <;> rfl

@[simp]
theorem predicate_rename (c : TripleConstraint) : (c.rename ρ).predicate = c.predicate := by
  obtain ⟨_, _ | _, _, _, _⟩ := c <;> rfl

@[simp]
theorem card_rename (c : TripleConstraint) : (c.rename ρ).card = c.card := by
  obtain ⟨_, _ | _, _, _, _⟩ := c <;> rfl

@[simp]
theorem inverse_rename (c : TripleConstraint) : (c.rename ρ).inverse = c.inverse := by
  obtain ⟨_, _ | _, _, _, _⟩ := c <;> rfl

@[simp]
theorem label_rename (c : TripleConstraint) : (c.rename ρ).label = c.label := by
  obtain ⟨_, _ | _, _, _, _⟩ := c <;> rfl

@[simp]
theorem valueLabel?_rename (c : TripleConstraint) :
    (c.rename ρ).valueLabel? = c.valueLabel?.map ρ := by
  obtain ⟨_, _ | v, _, _, _⟩ := c
  · rfl
  · cases v with
    | shape x => obtain ⟨_, _, _, _⟩ := x; rfl
    | _ => rfl

theorem rename_withCard (c : TripleConstraint) (card : Cardinality) :
    TripleConstraint.rename ρ { c with card } = { c.rename ρ with card } := by
  obtain ⟨_, _ | _, _, _, _⟩ := c <;> rfl

end TripleConstraint

/-! ### Renaming back -/

section Inverse

variable (σ : Equiv.Perm Label)

mutual
theorem ShapeExpr.rename_symm : (e : ShapeExpr) → (e.rename σ).rename σ.symm = e
  | .and es => by rw [ShapeExpr.rename, ShapeExpr.rename, ShapeExpr.renameList_symm es]
  | .or es => by rw [ShapeExpr.rename, ShapeExpr.rename, ShapeExpr.renameList_symm es]
  | .not e => by rw [ShapeExpr.rename, ShapeExpr.rename, ShapeExpr.rename_symm e]
  | .node _ => rfl
  | .shape ⟨_, _, e, _⟩ => by rw [ShapeExpr.rename, ShapeExpr.rename, TripleExpr.rename_symm e]
  | .external => rfl
  | .ref l => by rw [ShapeExpr.rename, ShapeExpr.rename, Equiv.symm_apply_apply]

theorem ShapeExpr.renameList_symm : (es : List ShapeExpr) →
    ShapeExpr.renameList σ.symm (ShapeExpr.renameList σ es) = es
  | [] => rfl
  | e :: es => by
    rw [ShapeExpr.renameList, ShapeExpr.renameList, ShapeExpr.rename_symm e,
      ShapeExpr.renameList_symm es]

theorem TripleExpr.rename_symm : (e : TripleExpr) → (e.rename σ).rename σ.symm = e
  | .constraint ⟨_, some v, _, _, _⟩ => by
    rw [TripleExpr.rename, TripleConstraint.rename, TripleExpr.rename, TripleConstraint.rename,
      ShapeExpr.rename_symm v]
  | .constraint ⟨_, none, _, _, _⟩ => rfl
  | .eachOf es _ => by rw [TripleExpr.rename, TripleExpr.rename, TripleExpr.renameList_symm es]
  | .oneOf es _ => by rw [TripleExpr.rename, TripleExpr.rename, TripleExpr.renameList_symm es]
  | .ref _ => rfl
  | .empty => rfl

theorem TripleExpr.renameList_symm : (es : List TripleExpr) →
    TripleExpr.renameList σ.symm (TripleExpr.renameList σ es) = es
  | [] => rfl
  | e :: es => by
    rw [TripleExpr.renameList, TripleExpr.renameList, TripleExpr.rename_symm e,
      TripleExpr.renameList_symm es]
end

end Inverse

/-! ### References -/

theorem lookup_renameTripleExprs (defs : List (Label × TripleExpr)) (l : Label) :
    (renameTripleExprs ρ defs).lookup l = (defs.lookup l).map (·.rename ρ) := by
  induction defs with
  | nil => rfl
  | cons p defs ih =>
    rw [renameTripleExprs, List.map_cons, List.lookup_cons, List.lookup_cons]
    cases l == p.1
    · exact ih
    · rfl

section Refers

variable {defs : List (Label × TripleExpr)} {extra : List Iri} {l : Label} {neg zero : Bool}

mutual
/-- **The references of a renamed expression** are the renamed references. -/
theorem ShapeExpr.Refers.rename : {e : ShapeExpr} → {l : Label} → {neg zero : Bool} →
    e.Refers defs l neg zero → (e.rename ρ).Refers (renameTripleExprs ρ defs) (ρ l) neg zero
  | _, _, _, _, .ref l => .ref (ρ l)
  | _, _, _, _, .and he h => by
    rw [ShapeExpr.rename, ShapeExpr.renameList_eq_map]
    exact .and (List.mem_map_of_mem he) (ShapeExpr.Refers.rename h)
  | _, _, _, _, .or he h => by
    rw [ShapeExpr.rename, ShapeExpr.renameList_eq_map]
    exact .or (List.mem_map_of_mem he) (ShapeExpr.Refers.rename h)
  | _, _, _, _, .not h => .not (ShapeExpr.Refers.rename h)
  | _, _, _, _, @ShapeExpr.Refers.shape _ ⟨_, _, _, _⟩ _ _ _ h =>
    .shape (TripleExpr.Refers.rename h)

theorem TripleExpr.Refers.rename : {extra : List Iri} → {e : TripleExpr} → {l : Label} →
    {neg zero : Bool} → e.Refers defs extra l neg zero →
    (e.rename ρ).Refers (renameTripleExprs ρ defs) extra (ρ l) neg zero
  | _, _, _, _, _, @TripleExpr.Refers.constraint _ extra c v l neg zero hv h => by
    have hvalue : (c.rename ρ).value = some (v.rename ρ) := by simp [hv]
    have hrefers : TripleExpr.Refers _ extra (.constraint (c.rename ρ)) (ρ l) _ _ :=
      .constraint hvalue (ShapeExpr.Refers.rename h)
    rwa [TripleConstraint.predicate_rename, TripleConstraint.card_rename] at hrefers
  | _, _, _, _, _, .eachOf he h => by
    rw [TripleExpr.rename, TripleExpr.renameList_eq_map]
    exact .eachOf (List.mem_map_of_mem he) (TripleExpr.Refers.rename h)
  | _, _, _, _, _, .oneOf he h => by
    rw [TripleExpr.rename, TripleExpr.renameList_eq_map]
    exact .oneOf (List.mem_map_of_mem he) (TripleExpr.Refers.rename h)
  | _, _, _, _, _, .ref hd h => by
    refine .ref ?_ (TripleExpr.Refers.rename h)
    rw [lookup_renameTripleExprs, hd, Option.map_some]
end

end Refers

/-! ### Expansion -/

section Expansion

variable {follow follow' : Label → Except SchemaError TripleExpr}

mutual
theorem TripleExpr.expandWith_rename (h : ∀ l, follow' l = (follow l).map (·.rename ρ)) :
    (e : TripleExpr) → (e.rename ρ).expandWith follow' = (e.expandWith follow).map (·.rename ρ)
  | .constraint _ => rfl
  | .eachOf es card => by
    rw [TripleExpr.rename, TripleExpr.expandWith, TripleExpr.expandWith,
      TripleExpr.expandListWith_rename h es]
    cases TripleExpr.expandListWith follow es <;> rfl
  | .oneOf es card => by
    rw [TripleExpr.rename, TripleExpr.expandWith, TripleExpr.expandWith,
      TripleExpr.expandListWith_rename h es]
    cases TripleExpr.expandListWith follow es <;> rfl
  | .ref l => h l
  | .empty => rfl

theorem TripleExpr.expandListWith_rename (h : ∀ l, follow' l = (follow l).map (·.rename ρ)) :
    (es : List TripleExpr) → TripleExpr.expandListWith follow' (TripleExpr.renameList ρ es) =
      (TripleExpr.expandListWith follow es).map (TripleExpr.renameList ρ)
  | [] => rfl
  | e :: es => by
    rw [TripleExpr.renameList, TripleExpr.expandListWith, TripleExpr.expandListWith,
      TripleExpr.expandWith_rename h e, TripleExpr.expandListWith_rename h es]
    cases e.expandWith follow with
    | error err => rfl
    | ok x => cases TripleExpr.expandListWith follow es <;> rfl
end

theorem expandLabel_rename (defs : List (Label × TripleExpr)) (depth : ℕ) (l : Label) :
    expandLabel (renameTripleExprs ρ defs) depth l =
      (expandLabel defs depth l).map (·.rename ρ) := by
  induction depth generalizing l with
  | zero => rfl
  | succ depth ih =>
    rw [expandLabel, expandLabel, lookup_renameTripleExprs]
    cases defs.lookup l with
    | none => rfl
    | some e => exact TripleExpr.expandWith_rename ih e

theorem TripleExpr.expandIn_rename (defs : List (Label × TripleExpr)) (e : TripleExpr) :
    (e.rename ρ).expandIn (renameTripleExprs ρ defs) = (e.expandIn defs).map (·.rename ρ) := by
  have hlen : (renameTripleExprs ρ defs).length = defs.length := List.length_map _
  rw [TripleExpr.expandIn, hlen]
  exact TripleExpr.expandWith_rename (expandLabel_rename defs defs.length) e

end Expansion

/-! ### Compiled expressions -/

namespace TripleExpr

theorem withCard_rename (e : TripleExpr) (card : Cardinality) :
    (e.rename ρ).withCard card = (e.withCard card).rename ρ := by
  cases e with
  | constraint c => rw [rename, withCard, withCard, rename, TripleConstraint.rename_withCard]
  | _ => rfl

theorem unfoldGroup_rename (group : TripleExpr) (card : Cardinality) :
    unfoldGroup (group.rename ρ) card = (unfoldGroup group card).rename ρ := by
  unfold unfoldGroup
  split
  · exact withCard_rename group card
  split
  · rfl
  rw [rename, renameList_eq_map]
  cases card.max <;> simp [withCard_rename]

mutual
theorem unfold_rename : (e : TripleExpr) → (e.rename ρ).unfold = e.unfold.rename ρ
  | constraint _ => rfl
  | eachOf es card => by
    rw [rename, unfold, unfoldList_rename es, unfold, ← unfoldGroup_rename, rename]
  | oneOf es card => by
    rw [rename, unfold, unfoldList_rename es, unfold, ← unfoldGroup_rename, rename]
  | ref _ => rfl
  | empty => rfl

theorem unfoldList_rename : (es : List TripleExpr) →
    unfoldList (renameList ρ es) = renameList ρ (unfoldList es)
  | [] => rfl
  | e :: es => by
    rw [renameList, unfoldList, unfold_rename e, unfoldList_rename es, unfoldList, renameList]
end

mutual
theorem constraints_rename : (e : TripleExpr) →
    (e.rename ρ).constraints = e.constraints.map (·.rename ρ)
  | constraint _ => rfl
  | eachOf es _ => by rw [rename, constraints, constraintsOfList_rename es, constraints]
  | oneOf es _ => by rw [rename, constraints, constraintsOfList_rename es, constraints]
  | ref _ => rfl
  | empty => rfl

theorem constraintsOfList_rename : (es : List TripleExpr) →
    constraintsOfList (renameList ρ es) = (constraintsOfList es).map (·.rename ρ)
  | [] => rfl
  | e :: es => by
    rw [renameList, constraintsOfList, constraints_rename e, constraintsOfList_rename es,
      constraintsOfList, List.map_append]
end

end TripleExpr

mutual
/-- The tree of an expression does not depend on labels. -/
theorem BagExpr.ofTripleExpr_rename : (k : ℕ) → (e : TripleExpr) →
    BagExpr.ofTripleExpr k (e.rename ρ) = BagExpr.ofTripleExpr k e
  | k, .constraint c => by
    rw [TripleExpr.rename, BagExpr.ofTripleExpr, TripleConstraint.card_rename, BagExpr.ofTripleExpr]
  | k, .eachOf es _ => by
    rw [TripleExpr.rename, BagExpr.ofTripleExpr, BagExpr.ofTripleExprs_rename k es,
      BagExpr.ofTripleExpr]
  | k, .oneOf es _ => by
    rw [TripleExpr.rename, BagExpr.ofTripleExpr, BagExpr.ofTripleExprs_rename k es,
      BagExpr.ofTripleExpr]
  | _, .ref _ => rfl
  | _, .empty => rfl

theorem BagExpr.ofTripleExprs_rename : (k : ℕ) → (es : List TripleExpr) →
    BagExpr.ofTripleExprs k (TripleExpr.renameList ρ es) = BagExpr.ofTripleExprs k es
  | _, [] => rfl
  | k, e :: es => by
    rw [TripleExpr.renameList, BagExpr.ofTripleExprs, BagExpr.ofTripleExpr_rename k e,
      TripleExpr.constraints_rename, List.length_map, BagExpr.ofTripleExprs_rename _ es,
      BagExpr.ofTripleExprs]
end

theorem predicatesOf_rename (cs : List TripleConstraint) (inverse : Bool) :
    predicatesOf (cs.map (·.rename ρ)) inverse = predicatesOf cs inverse := by
  unfold predicatesOf
  simp only [List.filter_map, List.map_map, Function.comp_def, TripleConstraint.inverse_rename,
    TripleConstraint.predicate_rename]

/-- A compiled expression with other shape labels. -/
def Compiled.rename (ρ : Label → Label) (c : Compiled) : Compiled :=
  { c with expr := c.expr.rename ρ, constraints := c.constraints.map (·.rename ρ) }

@[simp]
theorem Compiled.constraints_rename (c : Compiled) :
    (c.rename ρ).constraints = c.constraints.map (·.rename ρ) := rfl

@[simp]
theorem Compiled.root_rename (c : Compiled) : (c.rename ρ).root = c.root := rfl

/-- **Compiling a renamed expression** renames the compiled one. -/
theorem TripleExpr.compile_rename (e : TripleExpr) : (e.rename ρ).compile = e.compile.rename ρ := by
  unfold TripleExpr.compile Compiled.rename
  simp only [TripleExpr.unfold_rename, TripleExpr.constraints_rename, BagExpr.ofTripleExpr_rename,
    predicatesOf_rename]

theorem Schema.compile_rename {s s' : Schema}
    (hs : s'.tripleExprs = renameTripleExprs ρ s.tripleExprs) (e : TripleExpr) :
    s'.compile (e.rename ρ) = (s.compile e).map (Compiled.rename ρ) := by
  rw [Schema.compile, Schema.expand, hs, TripleExpr.expandIn_rename, Schema.compile, Schema.expand]
  cases e.expandIn s.tripleExprs with
  | error err => rfl
  | ok x => exact congrArg Except.ok x.compile_rename

end ShapeTyping
