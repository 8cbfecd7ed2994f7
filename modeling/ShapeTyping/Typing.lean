import ShapeTyping.Label
import ShapeTyping.Rdf.Graph
import ShapeTyping.Table

/-!
# Typings

A typing records a verdict on associations of a node and a shape label. While a definition is
evaluated its association is a hypothesis, and a log keeps what was assumed since then: when
a hypothesis is refuted, all that was concluded from it is forgotten.

* `Typing.verdicts`, `Typing.verdict?`: the verdicts, which are kept node by node.
* `Typing.hypothesize`, `Typing.confirm`, `Typing.refute`: the steps of a run.
* `Typing.contains`: what a run may rely on, conclusions and hypotheses alike.
* `Typing.shapeFacts`, `Typing.tripleFacts`: what has been concluded.
* `Typing.verdict?_forget`: forgetting removes what may be relied on and nothing else.
-/

namespace ShapeTyping

/-- A node together with the label of a shape. -/
structure Association where
  node : Term
  label : Label
  deriving DecidableEq, Hashable, Inhabited, Repr

inductive Verdict where
  | conforms
  | fails
  | hypothesis
  deriving DecidableEq, Inhabited, Repr

/-- A triple that was used for a labelled triple constraint. -/
structure MatchedTriple where
  triple : Triple
  label : Label
  deriving DecidableEq, Hashable, Inhabited, Repr

/-- The verdicts of each node by label, matched triples and the log, which begins with the latest
hypothesis. -/
structure Typing where
  byNode : Table Term (Table Label Verdict)
  matched : Table Association (List MatchedTriple)
  log : List Association
  deriving DecidableEq, Inhabited, Repr

namespace Typing

def empty : Typing := ⟨[], [], []⟩

/-- The verdicts of a node; there are none if the node is not listed. -/
def verdictsOf (t : Typing) (node : Term) : Table Label Verdict := (t.byNode.get? node).getD []

/-- All verdicts. -/
def verdicts (t : Typing) : Table Association Verdict :=
  t.byNode.flatMap fun p => p.2.map fun q => (⟨p.1, q.1⟩, q.2)

def verdict? (t : Typing) (a : Association) : Option Verdict :=
  (t.byNode.get? a.node).bind (·.get? a.label)

/-- Whether an association conforms or is assumed to. -/
def contains (t : Typing) (a : Association) : Bool :=
  t.verdict? a = some .conforms || t.verdict? a = some .hypothesis

def conforms (t : Typing) (a : Association) : Bool := t.verdict? a = some .conforms

def matchedTriples (t : Typing) (a : Association) : List MatchedTriple :=
  (t.matched.get? a).getD []

/-- The number of associations with a verdict. -/
def size (t : Typing) : Nat := t.byNode.foldl (fun n p => n + p.2.length) 0

/-- Whether no node is listed. -/
def isEmpty (t : Typing) : Bool := t.byNode.isEmpty

/-- The conforming associations. -/
def shapeFacts (t : Typing) : List Association :=
  (t.verdicts.filter (·.2 = .conforms)).map (·.1)

/-- The matched triples of all associations. -/
def tripleFacts (t : Typing) : List MatchedTriple := t.matched.flatMap (·.2)

/-! ### Steps of a run -/

/-- Replaces the verdict on an association. -/
def setVerdict (t : Typing) (a : Association) (v : Verdict) : Typing :=
  { t with byNode := t.byNode.insert a.node ((t.verdictsOf a.node).insert a.label v) }

/-- Replaces the matched triples of an association. -/
def setMatched (t : Typing) (a : Association) (ms : List MatchedTriple) : Typing :=
  { t with matched := t.matched.insert a ms }

/-- Removes the matched triples of an association. -/
def dropMatched (t : Typing) (a : Association) : Typing :=
  { t with matched := t.matched.erase a }

/-- Removes the verdict on an association. A node without verdicts is not listed any more. -/
def dropVerdict (t : Typing) (a : Association) : Typing :=
  let others := (t.verdictsOf a.node).erase a.label
  { t with byNode :=
      if others.isEmpty then t.byNode.erase a.node else t.byNode.insert a.node others }

/-- Removes the verdict on an association together with its matched triples. -/
def drop (t : Typing) (a : Association) : Typing := (t.dropVerdict a).dropMatched a

/-- Assumes that an association conforms. -/
def hypothesize (t : Typing) (a : Association) : Typing :=
  { t.setVerdict a .hypothesis with log := a :: t.log }

/-- Where the log ends: what is assumed later can be forgotten. -/
def checkpoint (t : Typing) : Nat := t.log.length

/-- Concludes that an association conforms. Only a list with an element is recorded. -/
def confirm (t : Typing) (a : Association) (ms : List MatchedTriple) : Typing :=
  let t := t.setVerdict a .conforms
  if ms.isEmpty then t else t.setMatched a ms

/-- Forgets a conclusion or a hypothesis. A refuted association stays refuted. -/
def forget (t : Typing) (a : Association) : Typing :=
  if t.contains a then t.drop a else t

/-- Forgets what was assumed after a checkpoint, in that order. -/
def rollback (t : Typing) (checkpoint : Nat) : Typing :=
  let later := t.log.take (t.log.length - checkpoint)
  let kept := t.log.drop (t.log.length - checkpoint)
  { later.foldr (fun a t => t.forget a) t with log := kept }

/-- Concludes that an association fails and forgets what was assumed after its checkpoint. -/
def refute (t : Typing) (a : Association) (checkpoint : Nat) : Typing :=
  ((t.rollback checkpoint).dropMatched a).setVerdict a .fails

/-- Makes all conclusions final. -/
def commit (t : Typing) : Typing := { t with log := [] }

/-! ### Verdicts after a step -/

theorem get?_verdictsOf (t : Typing) (node : Term) (l : Label) :
    (t.verdictsOf node).get? l = t.verdict? ⟨node, l⟩ := by
  unfold verdictsOf verdict?
  cases t.byNode.get? node <;> rfl

/-- The verdicts after those of a node have been replaced. -/
theorem verdict?_insert_byNode (t : Typing) (node : Term) (ls : Table Label Verdict)
    (b : Association) :
    verdict? { t with byNode := t.byNode.insert node ls } b =
      if b.node = node then ls.get? b.label else t.verdict? b := by
  unfold verdict?
  rw [Table.get?_insert]
  split <;> rfl

theorem verdict?_setVerdict (t : Typing) (a b : Association) (v : Verdict) :
    (t.setVerdict a v).verdict? b = if b = a then some v else t.verdict? b := by
  obtain ⟨n, l⟩ := a
  obtain ⟨m, k⟩ := b
  rw [setVerdict, verdict?_insert_byNode, Table.get?_insert, get?_verdictsOf]
  by_cases hm : m = n <;> by_cases hk : k = l <;> simp [hm, hk]

theorem verdict?_dropVerdict (t : Typing) (a b : Association) :
    (t.dropVerdict a).verdict? b = if b = a then none else t.verdict? b := by
  obtain ⟨n, l⟩ := a
  obtain ⟨m, k⟩ := b
  have hnode : (t.dropVerdict ⟨n, l⟩).verdict? ⟨m, k⟩ =
      if m = n then ((t.verdictsOf n).erase l).get? k else t.verdict? ⟨m, k⟩ := by
    unfold dropVerdict
    simp only
    split
    · -- a node that is not listed has no verdict, like an empty table
      rename_i hempty
      rw [List.isEmpty_iff.1 hempty]
      unfold verdict?
      rw [Table.get?_erase]
      split <;> rfl
    · exact t.verdict?_insert_byNode n _ ⟨m, k⟩
  rw [hnode, Table.get?_erase, get?_verdictsOf]
  by_cases hm : m = n <;> by_cases hk : k = l <;> simp [hm, hk]

theorem verdict?_drop (t : Typing) (a b : Association) :
    (t.drop a).verdict? b = if b = a then none else t.verdict? b :=
  t.verdict?_dropVerdict a b

theorem verdict?_hypothesize (t : Typing) (a b : Association) :
    (t.hypothesize a).verdict? b = if b = a then some .hypothesis else t.verdict? b :=
  t.verdict?_setVerdict a b .hypothesis

theorem verdict?_confirm (t : Typing) (a b : Association) (ms : List MatchedTriple) :
    (t.confirm a ms).verdict? b = if b = a then some .conforms else t.verdict? b := by
  have h := t.verdict?_setVerdict a b .conforms
  unfold confirm
  split <;> exact h

theorem verdict?_forget (t : Typing) (a b : Association) :
    (t.forget a).verdict? b = if b = a ∧ t.contains a then none else t.verdict? b := by
  unfold forget
  by_cases h : t.contains a = true <;> simp [h, verdict?_drop]

theorem verdict?_refute (t : Typing) (a : Association) (checkpoint : Nat) :
    (t.refute a checkpoint).verdict? a = some .fails := by
  simp [refute, verdict?_setVerdict]

end Typing

end ShapeTyping
