import Mathlib
import ShapeTyping.Proofs.Schema.Hoisted
import ShapeTyping.Proofs.Schema.Stratified

/-!
# References of a definition

What a definition refers to, read off its syntax: at any depth, through references to triple
expressions, and with what stands above the reference. The collected dependencies are these
references, no flag lost and none added.

* `ShapeExpr.Refers`, `TripleExpr.Refers`: the references of an expression.
* `DependsOn`: the references of labelled definitions.
* `TripleExpr.mem_dependencies_iff`, `ShapeExpr.mem_dependencies_iff`: the dependencies collected
  from an expression.
* `Definitions.Checked.mem_dependencies_iff`: those collected from checked definitions.
-/

namespace ShapeTyping

/-! ### References -/

mutual
/-- A reference to a label in a shape expression. The first flag tells whether it is below a
negation or in the value of a constraint with an extra predicate, the second one whether it is in
the value of a constraint that has, or is below a group that has, a maximum of zero. References to
triple expressions are followed. -/
inductive ShapeExpr.Refers (defs : List (Label × TripleExpr)) :
    ShapeExpr → Label → Bool → Bool → Prop
  | ref (l : Label) : ShapeExpr.Refers defs (.ref l) l false false
  | and {es : List ShapeExpr} {e : ShapeExpr} {l : Label} {neg zero : Bool} (he : e ∈ es)
      (h : ShapeExpr.Refers defs e l neg zero) : ShapeExpr.Refers defs (.and es) l neg zero
  | or {es : List ShapeExpr} {e : ShapeExpr} {l : Label} {neg zero : Bool} (he : e ∈ es)
      (h : ShapeExpr.Refers defs e l neg zero) : ShapeExpr.Refers defs (.or es) l neg zero
  | not {e : ShapeExpr} {l : Label} {neg zero : Bool}
      (h : ShapeExpr.Refers defs e l neg zero) : ShapeExpr.Refers defs (.not e) l true zero
  | shape {x : Shape} {l : Label} {neg zero : Bool}
      (h : TripleExpr.Refers defs x.extra x.expr l neg zero) :
      ShapeExpr.Refers defs (.shape x) l neg zero

/-- A reference to a label in the triple expression of a shape with extra predicates. -/
inductive TripleExpr.Refers (defs : List (Label × TripleExpr)) :
    List Iri → TripleExpr → Label → Bool → Bool → Prop
  | constraint {extra : List Iri} {c : TripleConstraint} {v : ShapeExpr} {l : Label}
      {neg zero : Bool} (hv : c.value = some v) (h : ShapeExpr.Refers defs v l neg zero) :
      TripleExpr.Refers defs extra (.constraint c) l (neg || c.predicate ∈ extra)
        (zero || c.card.isZero)
  | eachOf {extra : List Iri} {es : List TripleExpr} {card : Cardinality} {e : TripleExpr}
      {l : Label} {neg zero : Bool} (he : e ∈ es) (h : TripleExpr.Refers defs extra e l neg zero) :
      TripleExpr.Refers defs extra (.eachOf es card) l neg (zero || card.isZero)
  | oneOf {extra : List Iri} {es : List TripleExpr} {card : Cardinality} {e : TripleExpr}
      {l : Label} {neg zero : Bool} (he : e ∈ es) (h : TripleExpr.Refers defs extra e l neg zero) :
      TripleExpr.Refers defs extra (.oneOf es card) l neg (zero || card.isZero)
  | ref {extra : List Iri} {name : Label} {e : TripleExpr} {l : Label} {neg zero : Bool}
      (hd : defs.lookup name = some e) (h : TripleExpr.Refers defs extra e l neg zero) :
      TripleExpr.Refers defs extra (.ref name) l neg zero
end

/-- Whether the definition of a label refers to another label, with the flags of the reference. -/
def DependsOn (shapes : List (Label × ShapeExpr)) (defs : List (Label × TripleExpr))
    (l t : Label) (neg zero : Bool) : Prop :=
  ∃ e, (l, e) ∈ shapes ∧ e.Refers defs t neg zero

def Definitions.DependsOn (d : Definitions) : Label → Label → Bool → Bool → Prop :=
  ShapeTyping.DependsOn d.shapes d.tripleExprs

def Schema.DependsOn (s : Schema) : Label → Label → Bool → Bool → Prop :=
  ShapeTyping.DependsOn s.shapes s.tripleExprs

/-- Whether dependencies lead from a label to another one. -/
def Definitions.Reaches (d : Definitions) : Label → Label → Prop :=
  Relation.ReflTransGen fun l t => ∃ neg zero, d.DependsOn l t neg zero

def Schema.Reaches (s : Schema) : Label → Label → Prop :=
  Relation.ReflTransGen fun l t => ∃ neg zero, s.DependsOn l t neg zero

/-! ### References by the form of an expression -/

section Forms

variable {defs : List (Label × TripleExpr)}

namespace TripleExpr

variable {extra : List Iri}

theorem refers_eachOf {es : List TripleExpr} {card : Cardinality} (l : Label) (n z : Bool) :
    Refers defs extra (eachOf es card) l n z ↔
      ∃ e ∈ es, ∃ z', Refers defs extra e l n z' ∧ z = (z' || card.isZero) := by
  constructor
  · intro h
    cases h with
    | eachOf he h => exact ⟨_, he, _, h, rfl⟩
  · rintro ⟨e, he, z', h, rfl⟩
    exact .eachOf he h

theorem refers_oneOf {es : List TripleExpr} {card : Cardinality} (l : Label) (n z : Bool) :
    Refers defs extra (oneOf es card) l n z ↔
      ∃ e ∈ es, ∃ z', Refers defs extra e l n z' ∧ z = (z' || card.isZero) := by
  constructor
  · intro h
    cases h with
    | oneOf he h => exact ⟨_, he, _, h, rfl⟩
  · rintro ⟨e, he, z', h, rfl⟩
    exact .oneOf he h

theorem refers_ref {name : Label} {e : TripleExpr} (hd : defs.lookup name = some e) (l : Label)
    (n z : Bool) : Refers defs extra (ref name) l n z ↔ Refers defs extra e l n z := by
  constructor
  · intro h
    cases h with
    | ref hd' h =>
      rw [hd] at hd'
      cases hd'
      exact h
  · intro h
    exact .ref hd h

end TripleExpr

namespace ShapeExpr

theorem refers_and {es : List ShapeExpr} (l : Label) (n z : Bool) :
    Refers defs (and es) l n z ↔ ∃ e ∈ es, Refers defs e l n z := by
  constructor
  · intro h
    cases h with
    | and he h => exact ⟨_, he, h⟩
  · rintro ⟨e, he, h⟩
    exact .and he h

theorem refers_or {es : List ShapeExpr} (l : Label) (n z : Bool) :
    Refers defs (or es) l n z ↔ ∃ e ∈ es, Refers defs e l n z := by
  constructor
  · intro h
    cases h with
    | or he h => exact ⟨_, he, h⟩
  · rintro ⟨e, he, h⟩
    exact .or he h

theorem refers_not {e : ShapeExpr} (l : Label) (n z : Bool) :
    Refers defs (not e) l n z ↔ n = true ∧ ∃ n', Refers defs e l n' z := by
  constructor
  · intro h
    cases h with
    | not h => exact ⟨rfl, _, h⟩
  · rintro ⟨rfl, n', h⟩
    exact .not h

theorem refers_shape {x : Shape} (l : Label) (n z : Bool) :
    Refers defs (shape x) l n z ↔ x.expr.Refers defs x.extra l n z := by
  constructor
  · intro h
    cases h with
    | shape h => exact h
  · intro h
    exact .shape h

mutual
/-- The numbers of shapes do not matter for references. -/
theorem refers_number {l : Label} {n z : Bool} : (k : ℕ) → (e : ShapeExpr) →
    ((number k e).1.Refers defs l n z ↔ e.Refers defs l n z)
  | k, and es => by
    rw [number, refers_and, refers_and]
    exact refers_numberList k es
  | k, or es => by
    rw [number, refers_or, refers_or]
    exact refers_numberList k es
  | k, not e => by
    rw [number, refers_not, refers_not]
    exact and_congr_right fun _ => exists_congr fun _ => refers_number k e
  | _, node _ => .rfl
  | k, shape x => by rw [number, refers_shape, refers_shape]
  | _, external => .rfl
  | _, ref _ => .rfl

theorem refers_numberList {l : Label} {n z : Bool} : (k : ℕ) → (es : List ShapeExpr) →
    ((∃ e ∈ (numberList k es).1, e.Refers defs l n z) ↔ ∃ e ∈ es, e.Refers defs l n z)
  | _, [] => .rfl
  | k, e :: es => by
    rw [numberList, List.exists_mem_cons_iff, List.exists_mem_cons_iff]
    exact or_congr (refers_number k e) (refers_numberList _ es)
end

end ShapeExpr

end Forms

/-! ### Dependencies that come from references -/

/-- A dependency of `source` that comes from a reference, below a negation if `neg` and below a
cardinality of zero if `zero`. -/
def Dependency.ComesFrom (source : Label) (neg zero : Bool) (refers : Label → Bool → Bool → Prop)
    (dep : Dependency) : Prop :=
  dep.source = source ∧ ∃ n z, refers dep.target n z ∧ dep.negative = (neg || n) ∧
    dep.zeroCardinality = (zero || z)

section Collected

variable {source : Label} {dep : Dependency} {neg zero : Bool}

namespace Dependency

variable {refers : Label → Bool → Bool → Prop}

/-- A dependency of a single reference without flags of its own. -/
theorem comesFrom_single {l : Label} {n z : Bool}
    (h : ∀ l' n' z', refers l' n' z' ↔ l' = l ∧ n' = n ∧ z' = z) :
    dep.ComesFrom source neg zero refers ↔ dep = ⟨source, l, neg || n, zero || z⟩ := by
  obtain ⟨s, t, n', z'⟩ := dep
  simp only [ComesFrom, h, Dependency.mk.injEq]
  constructor
  · rintro ⟨hs, _, _, ⟨ht, rfl, rfl⟩, hn, hz⟩
    exact ⟨hs, ht, hn, hz⟩
  · rintro ⟨hs, ht, hn, hz⟩
    exact ⟨hs, n, z, ⟨ht, rfl, rfl⟩, hn, hz⟩

theorem not_comesFrom (h : ∀ l n z, ¬ refers l n z) :
    ¬ dep.ComesFrom source neg zero refers := by
  rintro ⟨-, n, z, hr, -⟩
  exact h _ n z hr

/-- The references of a group are those of its members, below its own cardinality. -/
theorem comesFrom_group {ι : Type} {es : List ι} {member : ι → Label → Bool → Bool → Prop}
    {w : Bool} (h : ∀ l n z, refers l n z ↔ ∃ e ∈ es, ∃ z', member e l n z' ∧ z = (z' || w)) :
    dep.ComesFrom source neg zero refers ↔
      ∃ e ∈ es, dep.ComesFrom source neg (zero || w) (member e) := by
  have hflag : ∀ z, (zero || (z || w)) = (zero || w || z) := fun z => by
    rw [Bool.or_comm z, Bool.or_assoc]
  constructor
  · rintro ⟨hs, n, z, hr, hn, hz⟩
    obtain ⟨e, he, z', hm, rfl⟩ := (h _ n z).1 hr
    exact ⟨e, he, hs, n, z', hm, hn, hz.trans (hflag z')⟩
  · rintro ⟨e, he, hs, n, z, hr, hn, hz⟩
    exact ⟨hs, n, _, (h _ n _).2 ⟨e, he, z, hr, rfl⟩, hn, hz.trans (hflag z).symm⟩

/-- The references of a conjunction or disjunction are those of its members. -/
theorem comesFrom_members {ι : Type} {es : List ι} {member : ι → Label → Bool → Bool → Prop}
    (h : ∀ l n z, refers l n z ↔ ∃ e ∈ es, member e l n z) :
    dep.ComesFrom source neg zero refers ↔ ∃ e ∈ es, dep.ComesFrom source neg zero (member e) := by
  have hgroup : ∀ l n z, refers l n z ↔ ∃ e ∈ es, ∃ z', member e l n z' ∧ z = (z' || false) := by
    intro l n z
    simp [h]
  rw [comesFrom_group hgroup, Bool.or_false]

/-- A negation makes all references of its operand negative. -/
theorem comesFrom_not {operand : Label → Bool → Bool → Prop}
    (h : ∀ l n z, refers l n z ↔ n = true ∧ ∃ n', operand l n' z) :
    dep.ComesFrom source neg zero refers ↔ dep.ComesFrom source true zero operand := by
  constructor
  · rintro ⟨hs, n, z, hr, hn, hz⟩
    obtain ⟨rfl, n', hr⟩ := (h _ n z).1 hr
    rw [Bool.or_true] at hn
    exact ⟨hs, n', z, hr, by rw [hn, Bool.true_or], hz⟩
  · rintro ⟨hs, n, z, hr, hn, hz⟩
    rw [Bool.true_or] at hn
    exact ⟨hs, true, z, (h _ true z).2 ⟨rfl, n, hr⟩, by rw [hn, Bool.or_true], hz⟩

theorem comesFrom_congr {refers' : Label → Bool → Bool → Prop}
    (h : ∀ l n z, refers l n z ↔ refers' l n z) :
    dep.ComesFrom source neg zero refers ↔ dep.ComesFrom source neg zero refers' := by
  simp only [ComesFrom, h]

end Dependency

variable {defs : List (Label × TripleExpr)}

/-! ### Dependencies of a triple expression -/

namespace TripleExpr

variable {extra : List Iri}

/-- A constraint whose value is not inline has the dependency of its reference. -/
theorem mem_dependencies_constraint {c : TripleConstraint} (h : c.inlineValues = 0) :
    dep ∈ (constraint c).dependencies source extra neg zero ↔
      dep.ComesFrom source neg zero (Refers defs extra (constraint c)) := by
  cases hv : c.value with
  | none =>
    have hlabel : c.valueLabel? = none := by rw [TripleConstraint.valueLabel?, hv]; rfl
    have hnone : ∀ l n z, ¬ Refers defs extra (constraint c) l n z := by
      intro l n z hr
      cases hr with
      | constraint hv' => simp [hv] at hv'
    rw [dependencies, hlabel]
    exact iff_of_false List.not_mem_nil (Dependency.not_comesFrom hnone)
  | some v =>
    obtain ⟨l, rfl⟩ := TripleConstraint.eq_ref_of_inlineValues hv h
    have hlabel : c.valueLabel? = some l := by rw [TripleConstraint.valueLabel?, hv]; rfl
    have hsingle : ∀ l' n z, Refers defs extra (constraint c) l' n z ↔
        l' = l ∧ n = decide (c.predicate ∈ extra) ∧ z = c.card.isZero := by
      intro l' n z
      constructor
      · intro hr
        cases hr with
        | constraint hv' hr =>
          rw [hv] at hv'
          cases hv'
          cases hr with
          | ref => exact ⟨rfl, Bool.false_or _, Bool.false_or _⟩
      · rintro ⟨rfl, rfl, rfl⟩
        have hr : Refers defs extra (constraint c) l' (false || decide (c.predicate ∈ extra))
            (false || c.card.isZero) := .constraint hv (.ref l')
        rwa [Bool.false_or, Bool.false_or] at hr
    rw [dependencies, hlabel, Dependency.comesFrom_single hsingle]
    exact List.mem_singleton

mutual
/-- The dependencies of an expanded expression are its references, if those of what its references
are replaced by are. -/
theorem mem_dependencies_expandWith {follow : Label → Except SchemaError TripleExpr}
    (hfollow : ∀ name x, follow name = .ok x → ∀ zero,
      dep ∈ x.dependencies source extra neg zero ↔
        dep.ComesFrom source neg zero (Refers defs extra (ref name))) {zero : Bool} :
    (e : TripleExpr) → {x : TripleExpr} → e.inlineValues = 0 → e.expandWith follow = .ok x →
      (dep ∈ x.dependencies source extra neg zero ↔
        dep.ComesFrom source neg zero (Refers defs extra e))
  | constraint c, x, h, hx => by
    cases hx
    exact mem_dependencies_constraint h
  | eachOf es card, x, h, hx => by
    obtain ⟨xs, hxs, rfl⟩ := Except.map_eq_ok hx
    exact (mem_dependenciesOfList_expandListWith hfollow es h hxs).trans
      (Dependency.comesFrom_group refers_eachOf).symm
  | oneOf es card, x, h, hx => by
    obtain ⟨xs, hxs, rfl⟩ := Except.map_eq_ok hx
    exact (mem_dependenciesOfList_expandListWith hfollow es h hxs).trans
      (Dependency.comesFrom_group refers_oneOf).symm
  | ref name, x, _, hx => hfollow name x hx zero
  | empty, x, _, hx => by
    cases hx
    exact iff_of_false List.not_mem_nil (Dependency.not_comesFrom fun _ _ _ hr => nomatch hr)

theorem mem_dependenciesOfList_expandListWith {follow : Label → Except SchemaError TripleExpr}
    (hfollow : ∀ name x, follow name = .ok x → ∀ zero,
      dep ∈ x.dependencies source extra neg zero ↔
        dep.ComesFrom source neg zero (Refers defs extra (ref name))) {zero : Bool} :
    (es : List TripleExpr) → {xs : List TripleExpr} → inlineValuesOfList es = 0 →
      expandListWith follow es = .ok xs →
      (dep ∈ dependenciesOfList source extra neg zero xs ↔
        ∃ e ∈ es, dep.ComesFrom source neg zero (Refers defs extra e))
  | [], xs, _, hx => by
    cases hx
    simp [dependenciesOfList]
  | e :: es, xs, h, hx => by
    rw [inlineValuesOfList, Nat.add_eq_zero_iff] at h
    obtain ⟨y, hy, ys, hys, rfl⟩ := expandListWith_cons hx
    rw [dependenciesOfList, List.mem_append, mem_dependencies_expandWith hfollow e h.1 hy,
      mem_dependenciesOfList_expandListWith hfollow es h.2 hys, List.exists_mem_cons_iff]
end

variable (hdefs : ∀ name e, defs.lookup name = some e → e.inlineValues = 0)
include hdefs

theorem mem_dependencies_expandLabel {depth : ℕ} (name : Label) (x : TripleExpr)
    (hx : expandLabel defs depth name = .ok x) (zero : Bool) :
    dep ∈ x.dependencies source extra neg zero ↔
      dep.ComesFrom source neg zero (Refers defs extra (ref name)) := by
  refine expandLabel_induction (P := fun name x => ∀ zero,
    dep ∈ x.dependencies source extra neg zero ↔
      dep.ComesFrom source neg zero (Refers defs extra (ref name))) ?_ hx zero
  intro follow hfollow name e x he hx zero
  rw [Dependency.comesFrom_congr (refers_ref he)]
  exact mem_dependencies_expandWith hfollow e (hdefs name e he) hx

/-- **The dependencies of an expanded expression** are its references. -/
theorem mem_dependencies_iff {e x : TripleExpr} (h : e.inlineValues = 0)
    (hx : e.expandIn defs = .ok x) :
    dep ∈ x.dependencies source extra neg zero ↔
      dep.ComesFrom source neg zero (Refers defs extra e) :=
  mem_dependencies_expandWith (mem_dependencies_expandLabel hdefs) e h hx

end TripleExpr

/-! ### Dependencies of a definition -/

namespace ShapeExpr

mutual
/-- **The dependencies of a definition** are its references. -/
theorem mem_dependencies_iff
    (hdefs : ∀ name e, defs.lookup name = some e → e.inlineValues = 0)
    (hexpand : ∀ name ∈ defs.map (·.1), ∃ x, expandLabel defs defs.length name = .ok x)
    {neg : Bool} : (e : ShapeExpr) → e.inlineValues = 0 →
      (∀ name ∈ e.tripleReferences, name ∈ defs.map (·.1)) →
      (dep ∈ e.dependencies defs source neg ↔
        dep.ComesFrom source neg false (Refers defs e))
  | and es, h, hr =>
    (mem_dependenciesOfList_iff hdefs hexpand es h hr).trans
      (Dependency.comesFrom_members refers_and).symm
  | or es, h, hr =>
    (mem_dependenciesOfList_iff hdefs hexpand es h hr).trans
      (Dependency.comesFrom_members refers_or).symm
  | not e, h, hr =>
    (mem_dependencies_iff hdefs hexpand e h hr).trans
      (Dependency.comesFrom_not refers_not).symm
  | node _, _, _ =>
    iff_of_false List.not_mem_nil (Dependency.not_comesFrom fun _ _ _ hr => nomatch hr)
  | shape ⟨closed, extra, e, index⟩, h, hr => by
    obtain ⟨x, hx⟩ : ∃ x, e.expandIn defs = .ok x :=
      TripleExpr.expandWith_ok e fun name hname => hexpand name (hr name hname)
    rw [Dependency.comesFrom_congr refers_shape, dependencies, hx]
    exact TripleExpr.mem_dependencies_iff hdefs h hx
  | external, _, _ =>
    iff_of_false List.not_mem_nil (Dependency.not_comesFrom fun _ _ _ hr => nomatch hr)
  | ref l, _, _ => by
    have hsingle : ∀ l' n z, Refers defs (ref l) l' n z ↔ l' = l ∧ n = false ∧ z = false := by
      intro l' n z
      constructor
      · intro hr
        cases hr
        exact ⟨rfl, rfl, rfl⟩
      · rintro ⟨rfl, rfl, rfl⟩
        exact .ref l'
    rw [Dependency.comesFrom_single hsingle, dependencies, Bool.or_false, Bool.or_false]
    exact List.mem_singleton

theorem mem_dependenciesOfList_iff
    (hdefs : ∀ name e, defs.lookup name = some e → e.inlineValues = 0)
    (hexpand : ∀ name ∈ defs.map (·.1), ∃ x, expandLabel defs defs.length name = .ok x)
    {neg : Bool} : (es : List ShapeExpr) → inlineValuesOfList es = 0 →
      (∀ name ∈ tripleReferencesOfList es, name ∈ defs.map (·.1)) →
      (dep ∈ dependenciesOfList defs source neg es ↔
        ∃ e ∈ es, dep.ComesFrom source neg false (Refers defs e))
  | [], _, _ => by simp [dependenciesOfList]
  | e :: es, h, hr => by
    rw [inlineValuesOfList, Nat.add_eq_zero_iff] at h
    have hhead : ∀ name ∈ e.tripleReferences, name ∈ defs.map (·.1) := fun name hn =>
      hr name (List.mem_append_left _ hn)
    have htail : ∀ name ∈ tripleReferencesOfList es, name ∈ defs.map (·.1) := fun name hn =>
      hr name (List.mem_append_right _ hn)
    rw [dependenciesOfList, List.mem_append, mem_dependencies_iff hdefs hexpand e h.1 hhead,
      mem_dependenciesOfList_iff hdefs hexpand es h.2 htail, List.exists_mem_cons_iff]
end

end ShapeExpr

end Collected

/-! ### Dependencies of checked definitions -/

/-- **The dependencies of checked definitions** are the references of their hoisted ones. -/
theorem Definitions.Checked.mem_dependencies_iff {d : Definitions} (h : d.Checked)
    {dep : Dependency} :
    dep ∈ d.hoist.dependencies ↔
      d.hoist.DependsOn dep.source dep.target dep.negative dep.zeroCardinality := by
  have hdefs : ∀ name e, d.hoist.tripleExprs.lookup name = some e → e.inlineValues = 0 :=
    fun name e he => Definitions.inlineValues_hoist_tripleExprs (mem_of_lookup_eq_some he)
  have hcollected : ∀ l e, (l, e) ∈ d.hoist.shapes →
      (dep ∈ e.dependencies d.hoist.tripleExprs l false ↔
        dep.ComesFrom l false false (e.Refers d.hoist.tripleExprs)) := fun l e hl =>
    ShapeExpr.mem_dependencies_iff hdefs (fun _ hname => h.expandLabel_ok hname) e
      (Definitions.inlineValues_hoist_shapes hl) fun _ hname => (h.defined_of_shape hl).2 hname
  rw [Definitions.dependencies, List.mem_flatMap]
  constructor
  · rintro ⟨⟨l, e⟩, hl, hm⟩
    obtain ⟨rfl, n, z, hr, hn, hz⟩ := (hcollected l e hl).1 hm
    rw [Bool.false_or] at hn hz
    exact ⟨e, hl, hn ▸ hz ▸ hr⟩
  · rintro ⟨e, hl, hr⟩
    exact ⟨(dep.source, e), hl, (hcollected dep.source e hl).2 ⟨rfl, _, _, hr, by simp, by simp⟩⟩

end ShapeTyping
