import Mathlib
import ShapeTyping.Proofs.Schema.Stratified
import ShapeTyping.Proofs.Validation.Frame

/-!
# Pending associations

While a definition is evaluated, the associations that wait for it are distinct, and their strata
do not increase from caller to callee.

* `Stack`: what the pending associations satisfy.
* `Stack.length_le_card`: they are not more than there are associations.
* `Stack.push`: how much depth they leave.
* `Stack.notMem_of_below`: an association in a lower stratum is not pending.
* `Callable`: what an evaluation may ask for.
* `callable_of_constraint`: the values of constraints at the ends of edges may be asked for.
-/

namespace ShapeTyping

/-- What the pending associations satisfy, the latest first: they are distinct, in strata that do
not increase from caller to callee, and made of some nodes and the labels of a schema. -/
structure Stack (s : Schema) (nodes : List Term) (stack : List Association) : Prop where
  nodup : stack.Nodup
  ordered : stack.Pairwise fun callee caller => s.NotAbove callee.label caller.label
  bounded : ∀ b ∈ stack, b.node ∈ nodes ∧ b.label ∈ s.labels

namespace Stack

variable {s : Schema} {nodes : List Term} {stack : List Association} {a b : Association}

theorem nil : Stack s nodes [] := ⟨List.nodup_nil, .nil, by simp⟩

/-- **Not more associations are pending than there are.** -/
theorem length_le_card (h : Stack s nodes stack) :
    stack.length ≤ nodes.toFinset.card * s.labels.toFinset.card := by
  let pair : Association → Term × Label := fun b => (b.node, b.label)
  have hinj : Function.Injective pair := by
    rintro ⟨n, l⟩ ⟨m, k⟩ hnm
    simpa [pair] using hnm
  have hsub : (stack.map pair).toFinset ⊆ nodes.toFinset ×ˢ s.labels.toFinset := by
    intro p hp
    obtain ⟨b, hb, rfl⟩ := List.mem_map.1 (List.mem_toFinset.1 hp)
    obtain ⟨hnode, hlabel⟩ := h.bounded b hb
    exact Finset.mem_product.2 ⟨List.mem_toFinset.2 hnode, List.mem_toFinset.2 hlabel⟩
  calc stack.length = (stack.map pair).toFinset.card := by
        rw [List.toFinset_card_of_nodup (h.nodup.map hinj), List.length_map]
    _ ≤ (nodes.toFinset ×ˢ s.labels.toFinset).card := Finset.card_le_card hsub
    _ = nodes.toFinset.card * s.labels.toFinset.card := Finset.card_product _ _

theorem length_le (h : Stack s nodes stack) : stack.length ≤ nodes.length * s.labels.length :=
  h.length_le_card.trans
    (Nat.mul_le_mul (List.toFinset_card_le nodes) (List.toFinset_card_le s.labels))

theorem cons (h : Stack s nodes stack) (ha : a ∉ stack)
    (hle : ∀ b ∈ stack, s.NotAbove a.label b.label) (hn : a.node ∈ nodes)
    (hl : a.label ∈ s.labels) : Stack s nodes (a :: stack) where
  nodup := List.nodup_cons.2 ⟨ha, h.nodup⟩
  ordered := List.pairwise_cons.2 ⟨hle, h.ordered⟩
  bounded b hb := by
    rcases List.mem_cons.1 hb with rfl | hb
    · exact ⟨hn, hl⟩
    · exact h.bounded b hb

/-- **Depth that leaves room** for all associations that are not pending still does so when one
more is pending. -/
theorem push (h : Stack s nodes stack) (ha : a ∉ stack)
    (hle : ∀ b ∈ stack, s.NotAbove a.label b.label) (hn : a.node ∈ nodes) (hl : a.label ∈ s.labels)
    {n : ℕ} (hdepth : n + 1 + stack.length = nodes.length * s.labels.length + 1) :
    Stack s nodes (a :: stack) ∧
      ∃ m, n = m + 1 ∧ m + 1 + (a :: stack).length = nodes.length * s.labels.length + 1 := by
  have hcons := h.cons ha hle hn hl
  have hlen := hcons.length_le
  rw [List.length_cons] at hlen
  refine ⟨hcons, n - 1, by omega, ?_⟩
  rw [List.length_cons]
  omega

/-- What is not above the latest association is above none. -/
theorem notAbove (h : Stack s nodes (a :: stack)) (hb : s.NotAbove b.label a.label) :
    ∀ c ∈ a :: stack, s.NotAbove b.label c.label := by
  intro c hc
  rcases List.mem_cons.1 hc with rfl | hc
  · exact hb
  · exact hb.trans ((List.pairwise_cons.1 h.ordered).1 c hc)

/-- **What is below the latest association is not pending.** -/
theorem notMem_of_below (h : Stack s nodes (a :: stack)) (hb : s.Below b.label a.label) :
    b ∉ a :: stack := by
  intro hmem
  obtain ⟨i, j, hi, hj, hij⟩ := hb
  have hle : s.NotAbove a.label b.label :=
    h.notAbove (.refl hj) b hmem
  exact Schema.Below.ne ⟨i, j, hi, hj, hij⟩ hle rfl

end Stack

/-! ### Nested decisions -/

/-- What the evaluation of a definition may ask for: associations of its nodes that are not above
its own. -/
def Callable (s : Schema) (nodes : List Term) (reader b : Association) : Prop :=
  b.node ∈ nodes ∧ b.label ∈ s.labels ∧ s.NotAbove b.label reader.label

theorem mem_nodes_of_mem {g : Graph} {t : Triple} (ht : t ∈ g.triples) :
    t.subject ∈ g.nodes ∧ t.object ∈ g.nodes := by
  simp only [Graph.nodes, List.mem_eraseDups, List.mem_flatMap]
  exact ⟨⟨t, ht, by simp⟩, ⟨t, ht, by simp⟩⟩

/-- **The other end of an edge** around a node is a node of the graph. -/
theorem other_mem_nodes {g : Graph} {c : Compiled} {closed : Bool} {node : Term} {e : Edge}
    (he : e ∈ neighbourhood g c closed node) : e.other ∈ g.nodes := by
  have hout : ∀ e ∈ g.outEdges node, e.other ∈ g.nodes := by
    intro e he
    obtain ⟨t, ht, rfl⟩ := List.mem_map.1 he
    exact (mem_nodes_of_mem (List.mem_filter.1 ht).1).2
  rcases List.mem_append.1 he with he | he
  · obtain ⟨t, ht, rfl⟩ := List.mem_map.1 he
    exact (mem_nodes_of_mem (List.mem_filter.1 ht).1).1
  · split at he
    · exact hout e he
    · exact hout e (List.mem_filter.1 he).1

section Decisions

variable {d : Definitions} {ctx : Context} {nodes : List Term} {reader : Association} {n : ℕ}

/-- The depth of a call leaves room for all associations of its node and the graph. -/
theorem maxNesting_add_nil (ctx : Context) (node : Term) :
    ctx.maxNesting + ([] : List Association).length =
      (node :: ctx.graph.nodes).length * ctx.schema.labels.length + 1 := by
  simp [Context.maxNesting]

theorem shape?_eq_some {s : Schema} {l : Label} (hl : l ∈ s.labels) : ∃ e, s.shape? l = some e :=
  exists_lookup_of_mem_labels hl

/-- A nested decision on a label of the schema ends with a verdict. -/
theorem decideWithin_verdict {a : Association} (ha : a.label ∈ ctx.schema.labels) (st : State) :
    (decideWithin ctx (n + 1) a st).2.typing.verdict? a ≠ none := by
  obtain ⟨e, he⟩ := shape?_eq_some ha
  obtain ⟨v, hv, -⟩ := @decideWith_verdict ctx (decideWithin ctx n) a e he st
  rw [decideWithin, hv]
  simp

/-- **After the edges have been gone through** with nested decisions, all values that may be needed
have a verdict. -/
theorem decided_of_callable {s : Shape} {cs : List TripleConstraint} {es : List Edge}
    (hcall : ∀ e ∈ es, ∀ tc ∈ cs, ∀ l, tc.valueLabel? = some l →
      Callable ctx.schema nodes reader ⟨e.other, l⟩) {st st' : State}
    (hst : decideEdges (decideWithin ctx (n + 1)) s cs es st = (true, st')) :
    ∀ e ∈ es, ∀ tc ∈ cs, tc.matchesEdge e = true → ∀ l, tc.valueLabel? = some l →
      st'.typing.verdict? ⟨e.other, l⟩ ≠ none := by
  intro e he tc htc hm l hl
  refine decideEdges_decided (decideWithin_extends ctx (n + 1)) ?_ hst he htc hm hl
  intro e he tc htc l hl st _
  exact decideWithin_verdict (hcall e he tc htc l hl).2.1 st

/-- What the constraints of a shape refer to may be asked for. -/
theorem callable_of_constraint (h : d.Builds ctx.schema)
    (hnodes : ∀ x ∈ ctx.graph.nodes, x ∈ nodes) {s : Shape} {c : Compiled}
    (hc : ctx.schema.compile s.expr = .ok c) {negative : Bool}
    (hdeps : ∀ dep ∈ (ShapeExpr.shape s).dependencies ctx.schema.tripleExprs reader.label negative,
      ctx.schema.Descends dep) {closed : Bool} {node : Term} {e : Edge}
    (he : e ∈ neighbourhood ctx.graph c closed node) {tc : TripleConstraint}
    (htc : tc ∈ c.constraints) {l : Label} (hl : tc.valueLabel? = some l) :
    Callable ctx.schema nodes reader ⟨e.other, l⟩ := by
  obtain ⟨z, hz, -⟩ := Schema.exists_dependency hc htc hl reader.label negative
  have hle := (hdeps _ hz).1
  obtain ⟨i, -, hi, -⟩ := id hle
  exact ⟨hnodes _ (other_mem_nodes he), h.mem_labels_of_stratum? hi, hle⟩

end Decisions

end ShapeTyping
