import Mathlib
import ShapeTyping.Proofs.NodeConstraint
import ShapeTyping.Proofs.Schema.Stratified
import ShapeTyping.Validation.Run

/-!
# The greatest typing of a graph

A definition holds at a node in a set of associations if it does when every reference is read
from the set. A typing is greatest, stratum by stratum, if in each stratum it is the greatest set
of associations whose definitions hold in this set and the lower strata.

* `Shape.HoldsIn`, `Shape.AcceptedIn`: two readings of a shape in a set of associations, in the
  language of its expression and as its compiled expression accepts bags.
* `ShapeExpr.HoldsIn`: definitions read in a set of associations.
* `ShapeReading.ReadsEnds`, `ShapeExpr.HoldsIn.mono`: how they depend on the set.
* `Schema.StratifiedGreatest`: what the greatest typing is.
* `Schema.StratifiedGreatest.unique`: there is one at most.
* `Definitions.Builds.stratifiedGreatest_typing`: a built schema has one on each graph.
-/

namespace ShapeTyping

/-! ### Shapes in a set of associations -/

/-- Whether an edge fits a constraint when the type of its other end is read from a set. -/
def TripleConstraint.FitsIn (T : Set Association) (c : TripleConstraint) (e : Edge) : Prop :=
  c.matchesEdge e = true ∧ ∀ l, c.valueLabel? = some l → (⟨e.other, l⟩ : Association) ∈ T

/-- What may be done with an edge: it is assigned to a constraint that it fits, or left out if its
predicate is extra and it fits none. -/
def Shape.Admits (x : Shape) (T : Set Association) (cs : List TripleConstraint) (e : Edge) :
    Option TripleConstraint → Prop
  | some c => c ∈ cs ∧ c.FitsIn T e
  | none => x.isExtra e.predicate = true ∧ ∀ c ∈ cs, ¬ c.FitsIn T e

/-- The edges that constraints look at: the incoming edges with the predicate of an inverse
constraint, and the outgoing edges with the predicate of a forward constraint, or all of them. -/
def Graph.listed (g : Graph) (cs : List TripleConstraint) (closed : Bool) (node : Term) :
    List Edge :=
  g.inEdgesVia node ((cs.filter (·.inverse)).map (·.predicate)) ++
    if closed then g.outEdges node
    else g.outEdgesVia node ((cs.filter (!·.inverse)).map (·.predicate))

/-- Whether the listed edges can be dealt with such that the constraints they are assigned to are
a bag in the language of the expression. -/
def Shape.AssignableIn (s : Schema) (g : Graph) (T : Set Association) (node : Term) (x : Shape) :
    Prop :=
  ∃ n, s.normalize x.expr = .ok n ∧
    ∃ choice,
      List.Forall₂ (x.Admits T n.constraints) (g.listed n.constraints x.closed node) choice ∧
      (choice.reduceOption : Multiset TripleConstraint) ∈ s.language x.expr

/-- Whether a shape holds at a node. Without any constraint in the normal form an open shape holds,
and a closed one holds where no edge goes out. -/
def Shape.HoldsIn (s : Schema) (g : Graph) (T : Set Association) (node : Term) (x : Shape) : Prop :=
  ∃ n, s.normalize x.expr = .ok n ∧
    (n.constraints = [] ∧ (x.closed = true → g.outEdges node = []) ∨
      n.constraints ≠ [] ∧ x.AssignableIn s g T node)

/-- Whether the compiled expression accepts the constraints that some way to deal with the listed
edges assigns them to. Unlike the language this is a reading of all expressions, also of those with
reversed cardinalities, on nodes of any degree. -/
def Shape.AcceptedIn (s : Schema) (g : Graph) (T : Set Association) (node : Term) (x : Shape) :
    Prop :=
  ∃ c, s.compile x.expr = .ok c ∧
    (c.constraints = [] ∧ (x.closed = true → g.outEdges node = []) ∨
      c.constraints ≠ [] ∧ ∃ choice is,
        List.Forall₂ (x.Admits T c.constraints) (g.listed c.constraints x.closed node) choice ∧
          is.map (c.constraints[·]?) = choice.reduceOption.map some ∧
          c.root.accepts ⟨is, c.constraints.length⟩ = true)

/-! ### Definitions in a set of associations -/

/-- A way to read a shape at a node in a set of associations. -/
abbrev ShapeReading := Set Association → Term → Shape → Prop

mutual
/-- Whether an expression holds at a node. External shapes are not supported and never do. -/
def ShapeExpr.HoldsIn (read : ShapeReading) (T : Set Association) (node : Term) : ShapeExpr → Prop
  | .and es => ShapeExpr.AllHoldIn read T node es
  | .or es => ShapeExpr.AnyHoldsIn read T node es
  | .not e => ¬ e.HoldsIn read T node
  | .node c => c.Holds node
  | .shape x => read T node x
  | .external => False
  | .ref l => ⟨node, l⟩ ∈ T

def ShapeExpr.AllHoldIn (read : ShapeReading) (T : Set Association) (node : Term) :
    List ShapeExpr → Prop
  | [] => True
  | e :: es => e.HoldsIn read T node ∧ ShapeExpr.AllHoldIn read T node es

def ShapeExpr.AnyHoldsIn (read : ShapeReading) (T : Set Association) (node : Term) :
    List ShapeExpr → Prop
  | [] => False
  | e :: es => e.HoldsIn read T node ∨ ShapeExpr.AnyHoldsIn read T node es
end

namespace Schema

variable {s : Schema} {read : ShapeReading} {T T' : Set Association} {i j : ℕ}

/-- Whether the label of an association is defined, and its definition holds at the node. -/
def HoldsIn (s : Schema) (read : ShapeReading) (T : Set Association) (a : Association) : Prop :=
  ∃ e, s.shape? a.label = some e ∧ e.HoldsIn read T a.node

/-- The associations in a stratum. -/
def inStratum (s : Schema) (i : ℕ) : Set Association := {a | s.stratum? a.label = some i}

/-- The associations in lower strata. -/
def below (s : Schema) (i : ℕ) : Set Association := {a | ∃ j < i, s.stratum? a.label = some j}

/-- Sets of associations in a stratum whose definitions hold when the stratum is read from the set
and the lower strata are read from `T`. -/
def Supported (s : Schema) (read : ShapeReading) (T : Set Association) (i : ℕ) :
    Set (Set Association) :=
  {X | X ⊆ s.inStratum i ∧ ∀ a ∈ X, s.HoldsIn read (T ∩ s.below i ∪ X) a}

/-- **A greatest typing**: in each stratum it is the greatest set of associations whose
definitions hold, with lower strata read from the typing itself. -/
structure StratifiedGreatest (s : Schema) (read : ShapeReading) (T : Set Association) : Prop where
  stratum : ∀ a ∈ T, ∃ i, s.stratum? a.label = some i
  greatest : ∀ i, IsGreatest (s.Supported read T i) (T ∩ s.inStratum i)

theorem inStratum_unique {a : Association} (hi : a ∈ s.inStratum i) (hj : a ∈ s.inStratum j) :
    i = j := by
  have hi' : s.stratum? a.label = some i := hi
  have hj' : s.stratum? a.label = some j := hj
  exact Option.some.inj (hi'.symm.trans hj')

theorem notMem_below {a : Association} (hi : a ∈ s.inStratum i) : a ∉ s.below i := by
  rintro ⟨j, hj, haj⟩
  exact absurd (inStratum_unique hi haj) (by omega)

/-- What is not above a stratum is in it or below it. -/
theorem NotAbove.mem_below_or {a : Association} {m : Label} (h : s.NotAbove a.label m)
    (hm : s.stratum? m = some i) : a ∈ s.below i ∨ a ∈ s.inStratum i := by
  obtain ⟨j, k, hj, hk, hjk⟩ := h
  obtain rfl : i = k := Option.some.inj (hm.symm.trans hk)
  by_cases hlt : j < i
  · exact .inl ⟨j, hlt, hj⟩
  · obtain rfl : j = i := by omega
    exact .inr hj

theorem Below.mem_below {a : Association} {m : Label} (h : s.Below a.label m)
    (hm : s.stratum? m = some i) : a ∈ s.below i := by
  obtain ⟨j, k, hj, hk, hjk⟩ := h
  obtain rfl : i = k := Option.some.inj (hm.symm.trans hk)
  exact ⟨j, hjk, hj⟩

theorem inter_below_eq (h : ∀ j < i, T ∩ s.inStratum j = T' ∩ s.inStratum j) :
    T ∩ s.below i = T' ∩ s.below i := by
  ext a
  constructor
  · rintro ⟨ha, j, hj, haj⟩
    have hmem : a ∈ T ∩ s.inStratum j := ⟨ha, haj⟩
    rw [h j hj] at hmem
    exact ⟨hmem.1, j, hj, haj⟩
  · rintro ⟨ha, j, hj, haj⟩
    have hmem : a ∈ T' ∩ s.inStratum j := ⟨ha, haj⟩
    rw [← h j hj] at hmem
    exact ⟨hmem.1, j, hj, haj⟩

/-- Adding associations of a stratum changes no lower one. -/
theorem union_inter_below {X : Set Association} (hX : X ⊆ s.inStratum i) :
    (T ∩ s.below i ∪ X) ∩ s.below i = T ∩ s.below i := by
  ext a
  constructor
  · rintro ⟨ha | ha, hb⟩
    · exact ha
    · exact absurd hb (notMem_below (hX ha))
  · intro ha
    exact ⟨.inl ha, ha.2⟩

/-- **There is at most one greatest typing.** -/
theorem StratifiedGreatest.unique (h : s.StratifiedGreatest read T)
    (h' : s.StratifiedGreatest read T') : T = T' := by
  have hstratum : ∀ i, T ∩ s.inStratum i = T' ∩ s.inStratum i := by
    intro i
    induction i using Nat.strong_induction_on with
    | _ i ih =>
      have hbelow := inter_below_eq ih
      have hi := h'.greatest i
      rw [Supported, ← hbelow] at hi
      exact (h.greatest i).unique hi
  ext a
  constructor
  · intro ha
    obtain ⟨i, hi⟩ := h.stratum a ha
    have hmem : a ∈ T ∩ s.inStratum i := ⟨ha, hi⟩
    rw [hstratum i] at hmem
    exact hmem.1
  · intro ha
    obtain ⟨i, hi⟩ := h'.stratum a ha
    have hmem : a ∈ T' ∩ s.inStratum i := ⟨ha, hi⟩
    rw [← hstratum i] at hmem
    exact hmem.1

end Schema

/-! ### Dependence on the set -/

theorem List.Forall₂.imp_mem {α β : Type} {R S : α → β → Prop} {as : List α} {bs : List β}
    (h : List.Forall₂ R as bs) (hRS : ∀ a ∈ as, ∀ b, R a b → S a b) : List.Forall₂ S as bs := by
  induction h with
  | nil => exact .nil
  | cons hab _ ih =>
    exact .cons (hRS _ List.mem_cons_self _ hab) (ih fun a ha => hRS a (List.mem_cons_of_mem _ ha))

/-- What a shape may notice of a change of the set at the ends of its edges: associations of its
constraints are only added, and those of constraints with extra predicates do not change. -/
def Shape.EndsCarry (s : Schema) (g : Graph) (T T' : Set Association) (node : Term) (x : Shape) :
    Prop :=
  ∀ c, s.compile x.expr = .ok c → ∀ e ∈ g.listed c.constraints x.closed node,
    ∀ tc ∈ c.constraints, tc.matchesEdge e = true → ∀ l, tc.valueLabel? = some l →
      ((⟨e.other, l⟩ : Association) ∈ T → (⟨e.other, l⟩ : Association) ∈ T') ∧
      (x.isExtra tc.predicate = true →
        (⟨e.other, l⟩ : Association) ∈ T' → (⟨e.other, l⟩ : Association) ∈ T)

/-- A reading under which shapes depend on the ends of their edges only. -/
def ShapeReading.ReadsEnds (s : Schema) (g : Graph) (read : ShapeReading) : Prop :=
  ∀ T T' node x, Shape.EndsCarry s g T T' node x → read T node x → read T' node x

/-- A way to deal with the edges stays one. -/
theorem Shape.EndsCarry.admits {s : Schema} {g : Graph} {T T' : Set Association} {node : Term}
    {x : Shape} (h : x.EndsCarry s g T T' node) {c : Compiled} (hc : s.compile x.expr = .ok c)
    {choice : List (Option TripleConstraint)}
    (hchoice : List.Forall₂ (x.Admits T c.constraints) (g.listed c.constraints x.closed node)
      choice) :
    List.Forall₂ (x.Admits T' c.constraints) (g.listed c.constraints x.closed node) choice := by
  refine List.Forall₂.imp_mem hchoice fun e he o ho => ?_
  cases o with
  | some tc =>
    obtain ⟨htc, hm, hv⟩ := ho
    exact ⟨htc, hm, fun l hl => (h c hc e he tc htc hm l hl).1 (hv l hl)⟩
  | none =>
    obtain ⟨hextra, hnone⟩ := ho
    refine ⟨hextra, fun tc htc hfit => hnone tc htc ⟨hfit.1, fun l hl => ?_⟩⟩
    have hpred : x.isExtra tc.predicate = true := by
      have hm := hfit.1
      simp only [TripleConstraint.matchesEdge, Bool.and_eq_true, decide_eq_true_eq] at hm
      rwa [← hm.1]
    exact (h c hc e he tc htc hfit.1 l hl).2 hpred (hfit.2 l hl)

theorem Schema.exists_compile_of_normalize {s : Schema} {e n : TripleExpr}
    (h : s.normalize e = .ok n) :
    ∃ c, s.compile e = .ok c ∧ c.constraints = n.constraints ∧ c.expr = n := by
  obtain ⟨x, hx, rfl⟩ := Except.map_eq_ok h
  exact ⟨x.compile, by rw [Schema.compile, hx]; rfl, rfl, rfl⟩

/-- **Read in the language** of its expression, a shape depends on the ends of its edges. -/
theorem Shape.holdsIn_readsEnds (s : Schema) (g : Graph) :
    ShapeReading.ReadsEnds s g (Shape.HoldsIn s g) := by
  rintro T T' node x h ⟨n, hn, hbare | ⟨hne, n', hn', choice, hchoice, hlang⟩⟩
  · exact ⟨n, hn, .inl hbare⟩
  obtain rfl : n = n' := Except.ok.inj (hn.symm.trans hn')
  obtain ⟨c, hc, hcs, -⟩ := Schema.exists_compile_of_normalize hn
  refine ⟨n, hn, .inr ⟨hne, n, hn, choice, ?_, hlang⟩⟩
  rw [← hcs] at hchoice ⊢
  exact h.admits hc hchoice

/-- **Read as its compiled expression accepts bags**, a shape depends on the ends of its edges. -/
theorem Shape.acceptedIn_readsEnds (s : Schema) (g : Graph) :
    ShapeReading.ReadsEnds s g (Shape.AcceptedIn s g) := by
  rintro T T' node x h ⟨c, hc, hbare | ⟨hne, choice, is, hchoice, his, hacc⟩⟩
  · exact ⟨c, hc, .inl hbare⟩
  · exact ⟨c, hc, .inr ⟨hne, choice, is, h.admits hc hchoice, his, hacc⟩⟩

/-- Whether what is read through a dependency may only grow, and does not change if it is
strict. -/
def Dependency.Carries (T T' : Set Association) (d : Dependency) : Prop :=
  ∀ node : Term, ((⟨node, d.target⟩ : Association) ∈ T → (⟨node, d.target⟩ : Association) ∈ T') ∧
    (d.strict? ≠ none →
      (⟨node, d.target⟩ : Association) ∈ T' → (⟨node, d.target⟩ : Association) ∈ T)

/-- What does not change is carried in both directions. -/
theorem Dependency.Carries.symm {T T' : Set Association} {d : Dependency} (h : d.Carries T T')
    (hd : d.strict? ≠ none) : d.Carries T' T := fun node => ⟨(h node).2 hd, fun _ => (h node).1⟩

section Mono

variable {s : Schema} {g : Graph} {read : ShapeReading} {node : Term} {source : Label}

mutual
/-- **A definition depends on its dependencies.** -/
theorem ShapeExpr.HoldsIn.mono (hread : read.ReadsEnds s g) : (neg : Bool) → (e : ShapeExpr) → {T T' : Set Association} →
    (∀ d ∈ e.dependencies s.tripleExprs source neg, d.Carries T T') →
    e.HoldsIn read T node → e.HoldsIn read T' node
  | neg, .and es, T, T', h, he => by
    rw [ShapeExpr.dependencies] at h
    rw [ShapeExpr.HoldsIn] at he ⊢
    exact ShapeExpr.AllHoldIn.mono hread neg es h he
  | neg, .or es, T, T', h, he => by
    rw [ShapeExpr.dependencies] at h
    rw [ShapeExpr.HoldsIn] at he ⊢
    exact ShapeExpr.AnyHoldsIn.mono hread neg es h he
  | neg, .not e, T, T', h, he => by
    rw [ShapeExpr.dependencies] at h
    rw [ShapeExpr.HoldsIn] at he ⊢
    -- below the negation every dependency is negative, so nothing it reads changes
    refine fun he' => he (ShapeExpr.HoldsIn.mono hread true e (fun d hd => ?_) he')
    have hneg := (ShapeExpr.source_of_mem_dependencies e hd).2 rfl
    exact (h d hd).symm (Dependency.strict?_ne_none.2 (.inl hneg))
  | neg, .node c, _, _, _, he => he
  | neg, .shape x, T, T', h, he => by
    rw [ShapeExpr.HoldsIn] at he ⊢
    refine hread T T' node x (fun c hc e _ tc htc _ l hl => ?_) he
    obtain ⟨z, hz, -⟩ := Schema.exists_dependency hc htc hl source neg
    have hcarries := h _ hz e.other
    refine ⟨hcarries.1, fun hextra => hcarries.2 (Dependency.strict?_ne_none.2 (.inl ?_))⟩
    have hextra' : tc.predicate ∈ x.extra := by simpa [Shape.isExtra] using hextra
    simp [hextra']
  | neg, .external, _, _, _, he => he
  | neg, .ref l, T, T', h, he => by
    rw [ShapeExpr.HoldsIn] at he ⊢
    exact (h ⟨source, l, neg, false⟩ (by simp [ShapeExpr.dependencies]) node).1 he

theorem ShapeExpr.AllHoldIn.mono (hread : read.ReadsEnds s g) : (neg : Bool) →
    (es : List ShapeExpr) → {T T' : Set Association} →
    (∀ d ∈ ShapeExpr.dependenciesOfList s.tripleExprs source neg es, d.Carries T T') →
    ShapeExpr.AllHoldIn read T node es →
      ShapeExpr.AllHoldIn read T' node es
  | _, [], _, _, _, _ => trivial
  | neg, e :: es, T, T', h, he => by
    rw [ShapeExpr.dependenciesOfList] at h
    rw [ShapeExpr.AllHoldIn] at he ⊢
    exact ⟨ShapeExpr.HoldsIn.mono hread neg e (fun d hd => h d (List.mem_append_left _ hd)) he.1,
      ShapeExpr.AllHoldIn.mono hread neg es (fun d hd => h d (List.mem_append_right _ hd)) he.2⟩

theorem ShapeExpr.AnyHoldsIn.mono (hread : read.ReadsEnds s g) : (neg : Bool) →
    (es : List ShapeExpr) → {T T' : Set Association} →
    (∀ d ∈ ShapeExpr.dependenciesOfList s.tripleExprs source neg es, d.Carries T T') →
    ShapeExpr.AnyHoldsIn read T node es →
      ShapeExpr.AnyHoldsIn read T' node es
  | _, [], _, _, _, he => he
  | neg, e :: es, T, T', h, he => by
    rw [ShapeExpr.dependenciesOfList] at h
    rw [ShapeExpr.AnyHoldsIn] at he ⊢
    exact he.imp
      (ShapeExpr.HoldsIn.mono hread neg e fun d hd => h d (List.mem_append_left _ hd))
      (ShapeExpr.AnyHoldsIn.mono hread neg es fun d hd => h d (List.mem_append_right _ hd))
end

end Mono

/-! ### Existence -/

namespace Schema

/-- The greatest typing in the strata below a given one: each stratum adds all supported sets. -/
def typingBelow (s : Schema) (read : ShapeReading) : ℕ → Set Association
  | 0 => ∅
  | i + 1 => s.typingBelow read i ∪
      ⋃₀ {X | X ⊆ s.inStratum i ∧ ∀ a ∈ X, s.HoldsIn read (s.typingBelow read i ∪ X) a}

/-- The greatest typing of all strata. -/
def typing (s : Schema) (read : ShapeReading) : Set Association := ⋃ i, s.typingBelow read i

variable {s : Schema} {read : ShapeReading} {i j : ℕ} {a : Association}

theorem mem_below_of_mem_typingBelow (h : a ∈ s.typingBelow read i) : a ∈ s.below i := by
  induction i with
  | zero => cases h
  | succ i ih =>
    rcases h with h | ⟨X, ⟨hX, -⟩, ha⟩
    · obtain ⟨j, hj, haj⟩ := ih h
      exact ⟨j, by omega, haj⟩
    · exact ⟨i, by omega, hX ha⟩

theorem typingBelow_mono (h : i ≤ j) : s.typingBelow read i ⊆ s.typingBelow read j := by
  induction j, h using Nat.le_induction with
  | base => exact fun _ ha => ha
  | succ j _ ih => exact fun a ha => .inl (ih ha)

/-- A stratum is complete as soon as it has been added. -/
theorem mem_typingBelow_of_inStratum (h : a ∈ s.typingBelow read j) (hi : a ∈ s.inStratum i) :
    a ∈ s.typingBelow read (i + 1) := by
  induction j with
  | zero => cases h
  | succ j ih =>
    rcases h with h | ⟨X, ⟨hX, hXs⟩, ha⟩
    · exact ih h
    · obtain rfl : i = j := inStratum_unique hi (hX ha)
      exact .inr ⟨X, ⟨hX, hXs⟩, ha⟩

theorem typing_inter_below (s : Schema) (read : ShapeReading) (i : ℕ) :
    s.typing read ∩ s.below i = s.typingBelow read i := by
  ext a
  constructor
  · rintro ⟨ha, j, hji, hj⟩
    obtain ⟨k, hk⟩ := Set.mem_iUnion.1 ha
    exact typingBelow_mono hji (mem_typingBelow_of_inStratum hk hj)
  · intro ha
    exact ⟨Set.mem_iUnion.2 ⟨i, ha⟩, mem_below_of_mem_typingBelow ha⟩

/-- A stratum is the union of its supported sets. -/
theorem mem_typing_inter_inStratum :
    a ∈ s.typing read ∩ s.inStratum i ↔ ∃ X ∈ s.Supported read (s.typing read) i, a ∈ X := by
  simp only [Supported, typing_inter_below]
  constructor
  · rintro ⟨ha, hi⟩
    obtain ⟨k, hk⟩ := Set.mem_iUnion.1 ha
    rcases mem_typingBelow_of_inStratum hk hi with hlow | ⟨X, hX, haX⟩
    · exact absurd (mem_below_of_mem_typingBelow hlow) (notMem_below hi)
    · exact ⟨X, hX, haX⟩
  · rintro ⟨X, hX, haX⟩
    exact ⟨Set.mem_iUnion.2 ⟨i + 1, .inr ⟨X, hX, haX⟩⟩, hX.1 haX⟩

end Schema

/-- A dependency that does not go up carries a set that does not change below the stratum of its
source, and grows in this stratum unless the dependency is strict. -/
theorem Schema.Descends.carries {s : Schema} {T T' : Set Association} {i : ℕ} {dep : Dependency}
    (h : s.Descends dep) (hi : s.stratum? dep.source = some i)
    (hlow : T ∩ s.below i = T' ∩ s.below i)
    (hsub : dep.strict? = none → ∀ b ∈ T, b ∈ s.inStratum i → b ∈ T') : dep.Carries T T' := by
  obtain ⟨hle, hstrict⟩ := h
  intro node
  have hiff : ∀ b ∈ s.below i, b ∈ T ↔ b ∈ T' := by
    intro b hb
    constructor
    · intro hT
      have hmem : b ∈ T ∩ s.below i := ⟨hT, hb⟩
      rw [hlow] at hmem
      exact hmem.1
    · intro hT
      have hmem : b ∈ T' ∩ s.below i := ⟨hT, hb⟩
      rw [← hlow] at hmem
      exact hmem.1
  by_cases hs : dep.strict? = none
  · refine ⟨fun hT => ?_, fun hne => absurd hs hne⟩
    rcases NotAbove.mem_below_or (a := ⟨node, dep.target⟩) hle hi with hb | hb
    · exact (hiff _ hb).1 hT
    · exact hsub hs _ hT hb
  · have hb := Below.mem_below (a := ⟨node, dep.target⟩) (hstrict hs) hi
    exact ⟨(hiff _ hb).1, fun _ => (hiff _ hb).2⟩

/-- **A definition in a stratum** keeps holding when the set grows in this stratum and does not
change in lower ones. -/
theorem ShapeExpr.HoldsIn.mono_of_descends {s : Schema} {g : Graph} {read : ShapeReading}
    (hread : read.ReadsEnds s g) {T T' : Set Association} {node : Term} {source : Label}
    {neg : Bool} {e : ShapeExpr} {i : ℕ}
    (hdeps : ∀ dep ∈ e.dependencies s.tripleExprs source neg, s.Descends dep)
    (hi : s.stratum? source = some i) (hsub : ∀ b ∈ T, b ∈ s.inStratum i → b ∈ T')
    (hlow : T ∩ s.below i = T' ∩ s.below i) (he : e.HoldsIn read T node) :
    e.HoldsIn read T' node := by
  have hcarries : ∀ dep ∈ e.dependencies s.tripleExprs source neg, dep.Carries T T' := by
    intro dep hdep
    have hsource := (ShapeExpr.source_of_mem_dependencies e hdep).1
    exact (hdeps dep hdep).carries (hsource ▸ hi) hlow fun _ => hsub
  exact ShapeExpr.HoldsIn.mono hread neg e hcarries he

namespace Definitions.Builds

variable {d : Definitions} {s : Schema} (h : d.Builds s)
include h

section Reading

variable {g : Graph} {read : ShapeReading} (hread : read.ReadsEnds s g) {T T' : Set Association}
  {i : ℕ} {a : Association}
include hread

theorem holdsIn_mono (hi : a ∈ s.inStratum i) (hsub : ∀ b ∈ T, b ∈ s.inStratum i → b ∈ T')
    (hlow : T ∩ s.below i = T' ∩ s.below i) (ha : s.HoldsIn read T a) : s.HoldsIn read T' a := by
  obtain ⟨e, he, hhold⟩ := ha
  have hmem : (a.label, e) ∈ s.shapes := mem_of_lookup_eq_some he
  exact ⟨e, he, hhold.mono_of_descends hread (fun dep hdep => h.descends hmem hdep) hi hsub hlow⟩

/-- **A built schema has a greatest typing** under each reading of shapes that looks at the ends of
their edges. -/
theorem stratifiedGreatest_typing_of_readsEnds : s.StratifiedGreatest read (s.typing read) := by
  refine ⟨fun a ha => ?_, fun i => ⟨⟨fun a ha => ha.2, fun a ha => ?_⟩, fun X hX a ha => ?_⟩⟩
  · obtain ⟨k, hk⟩ := Set.mem_iUnion.1 ha
    obtain ⟨j, -, hj⟩ := Schema.mem_below_of_mem_typingBelow hk
    exact ⟨j, hj⟩
  · -- the supported set that the association comes from is part of the stratum
    obtain ⟨X, hX, haX⟩ := Schema.mem_typing_inter_inStratum.1 ha
    refine h.holdsIn_mono hread ha.2 ?_ ?_ (hX.2 a haX)
    · rintro b (hb | hb) hbi
      · exact .inl hb
      · exact .inr (Schema.mem_typing_inter_inStratum.2 ⟨X, hX, hb⟩)
    · rw [Schema.union_inter_below hX.1, Schema.union_inter_below Set.inter_subset_right]
  · exact Schema.mem_typing_inter_inStratum.2 ⟨X, hX, ha⟩

/-- **What is in a greatest typing** holds in it. -/
theorem holdsIn_of_mem (hT : s.StratifiedGreatest read T) (ha : a ∈ T) : s.HoldsIn read T a := by
  obtain ⟨i, hi⟩ := hT.stratum a ha
  have hsupported := (hT.greatest i).1.2 a ⟨ha, hi⟩
  refine h.holdsIn_mono hread hi ?_ (Schema.union_inter_below Set.inter_subset_right) hsupported
  rintro b (hb | hb) -
  · exact hb.1
  · exact hb.1

end Reading

/-- **A built schema has a greatest typing** on each graph. -/
theorem stratifiedGreatest_typing (g : Graph) :
    s.StratifiedGreatest (Shape.HoldsIn s g) (s.typing (Shape.HoldsIn s g)) :=
  h.stratifiedGreatest_typing_of_readsEnds (Shape.holdsIn_readsEnds s g)

end Definitions.Builds

end ShapeTyping
