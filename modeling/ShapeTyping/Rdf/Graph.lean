import ShapeTyping.Rdf.Term

/-!
# Graphs and neighbourhoods

A graph is a list of distinct triples in the order they were given; every neighbourhood is
listed in that order.

* `Edge`: a triple seen from one of its ends.
* `Graph.outEdges`, `Graph.outEdgesVia`, `Graph.inEdgesVia`: the edges around a node.
* `Edge.opposite_opposite`: turning an edge round twice gives it back.
* `Graph.mem_ofList`, `Graph.nodup_ofList`: a graph has the triples given, each once.
-/

namespace ShapeTyping

structure Triple where
  subject : Term
  predicate : Iri
  object : Term
  deriving DecidableEq, Hashable, Inhabited, Repr

inductive Direction where
  | forward
  | inverse
  deriving DecidableEq, Hashable, Inhabited, Repr

namespace Direction

def flip : Direction → Direction
  | forward => inverse
  | inverse => forward

@[simp]
theorem flip_flip (d : Direction) : d.flip.flip = d := by cases d <;> rfl

end Direction

/-- A triple seen from `focus`: an outgoing edge is `forward`. -/
structure Edge where
  focus : Term
  predicate : Iri
  direction : Direction
  other : Term
  deriving DecidableEq, Hashable, Inhabited, Repr

namespace Edge

def subject (e : Edge) : Term :=
  match e.direction with
  | .forward => e.focus
  | .inverse => e.other

def object (e : Edge) : Term :=
  match e.direction with
  | .forward => e.other
  | .inverse => e.focus

/-- The same triple seen from its other end. -/
def opposite (e : Edge) : Edge := ⟨e.other, e.predicate, e.direction.flip, e.focus⟩

/-- The triple of an edge. -/
def triple (e : Edge) : Triple := ⟨e.subject, e.predicate, e.object⟩

@[simp]
theorem opposite_opposite (e : Edge) : e.opposite.opposite = e := by simp [opposite]

@[simp]
theorem triple_opposite (e : Edge) : e.opposite.triple = e.triple := by
  obtain ⟨f, p, d, o⟩ := e
  cases d <;> rfl

end Edge

structure Graph where
  triples : List Triple
  deriving Inhabited, Repr

namespace Graph

/-- Keeps the first occurrence of each triple. -/
def ofList (ts : List Triple) : Graph :=
  ⟨(ts.foldl (fun (acc : List Triple) t => acc.insert t) []).reverse⟩

theorem mem_foldl_insert {ts acc : List Triple} {t : Triple} :
    t ∈ ts.foldl (fun (acc : List Triple) t => acc.insert t) acc ↔ t ∈ acc ∨ t ∈ ts := by
  induction ts generalizing acc with
  | nil => simp
  | cons u ts ih =>
    rw [List.foldl_cons, ih, List.mem_insert_iff, List.mem_cons]
    exact ⟨fun h => by rcases h with (h | h) | h <;> simp [h],
      fun h => by rcases h with h | h | h <;> simp [h]⟩

theorem nodup_foldl_insert (ts : List Triple) {acc : List Triple} (h : acc.Nodup) :
    (ts.foldl (fun (acc : List Triple) t => acc.insert t) acc).Nodup := by
  induction ts generalizing acc with
  | nil => exact h
  | cons u ts ih =>
    rw [List.foldl_cons]
    refine ih ?_
    by_cases hu : u ∈ acc
    · rwa [List.insert_of_mem hu]
    · rw [List.insert_of_not_mem hu]
      exact List.nodup_cons.2 ⟨hu, h⟩

theorem mem_ofList {ts : List Triple} {t : Triple} : t ∈ (ofList ts).triples ↔ t ∈ ts := by
  simp [ofList, mem_foldl_insert]

theorem nodup_ofList (ts : List Triple) : (ofList ts).triples.Nodup := by
  have h := nodup_foldl_insert ts List.nodup_nil
  unfold List.Nodup at h ⊢
  rw [ofList, List.pairwise_reverse]
  exact h.imp Ne.symm

/-- The outgoing edges of a node. -/
def outEdges (g : Graph) (node : Term) : List Edge :=
  (g.triples.filter (·.subject = node)).map fun t => ⟨node, t.predicate, .forward, t.object⟩

/-- The outgoing edges of a node with one of some predicates. -/
def outEdgesVia (g : Graph) (node : Term) (ps : List Iri) : List Edge :=
  (g.outEdges node).filter (·.predicate ∈ ps)

/-- The incoming edges of a node with one of some predicates. -/
def inEdgesVia (g : Graph) (node : Term) (ps : List Iri) : List Edge :=
  (g.triples.filter fun t => t.object = node ∧ t.predicate ∈ ps).map
    fun t => ⟨node, t.predicate, .inverse, t.subject⟩

/-- Every subject and object of the graph, each once. -/
def nodes (g : Graph) : List Term :=
  (g.triples.flatMap fun t => [t.subject, t.object]).eraseDups

end Graph

end ShapeTyping
