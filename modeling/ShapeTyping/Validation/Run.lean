import ShapeTyping.NodeConstraint.Holds
import ShapeTyping.Schema.Compile
import ShapeTyping.Validation.Matching

/-!
# Recursive validation

An association is decided by assuming that it conforms, evaluating the definition of its label
and confirming or refuting the assumption. An error refutes the association at hand and the
run goes on.

* `satisfies`: the evaluation of a shape expression, given how references are decided.
* `decideWith`: one association, given how others are decided.
* `decideWithin`: recursion that is deep enough for every association to be pending.
-/

namespace ShapeTyping

/-- What a run reads. -/
structure Context where
  schema : Schema
  graph : Graph
  limits : Limits
  deriving Inhabited

/-- What a run changes: the typing, the compiled expressions by shape index, the errors in the
order in which they arose, and the number of pending associations. -/
structure State where
  typing : Typing
  compiled : List (Option Compiled)
  errors : List ValidationError
  depth : Nat
  deriving Inhabited

/-- A step that may fail. The state is kept on failure. -/
abbrev Eval := EStateM ValidationError State

/-- A way to decide an association. It never fails: errors are recorded in the state. -/
abbrev Decider := Association → State → Bool × State

def State.start (s : Schema) : State := ⟨.empty, List.replicate s.shapeCount none, [], 0⟩

def State.addError (s : State) (e : ValidationError) : State :=
  { s with errors := s.errors ++ [e] }

/-! ### Neighbourhoods -/

/-- The compiled expression of a shape, remembered by the index of the shape. -/
def compiledShape (ctx : Context) (s : Shape) : Eval Compiled := fun st =>
  match st.compiled[s.index]? with
  | none => .error (.fault (.shapeIndex s.index)) st
  | some (some c) => .ok c st
  | some none =>
    match ctx.schema.compile s.expr with
    | .error e => .error (.fault (.expansion e)) st
    | .ok c => .ok c { st with compiled := st.compiled.set s.index (some c) }

/-- The edges that a shape looks at: the incoming edges of its inverse constraints, then all
outgoing edges if it is closed and those of its forward constraints if not. -/
def neighbourhood (g : Graph) (c : Compiled) (closed : Bool) (node : Term) : List Edge :=
  g.inEdgesVia node c.inverse ++ if closed then g.outEdges node else g.outEdgesVia node c.forward

/-- Decides the values of some constraints at the other end of an edge, unless there is a
verdict. -/
def decideValues (recur : Decider) (other : Term) : List TripleConstraint → State → State
  | [], st => st
  | c :: cs, st =>
    match c.valueLabel? with
    | none => decideValues recur other cs st
    | some l =>
      if (st.typing.verdict? ⟨other, l⟩).isSome then decideValues recur other cs st
      else decideValues recur other cs (recur ⟨other, l⟩ st).2

/-- Decides the values that each edge might need, edge by edge. An edge that fits no
constraint ends this with `false`, unless its predicate is extra. -/
def decideEdges (recur : Decider) (s : Shape) (cs : List TripleConstraint) :
    List Edge → State → Bool × State
  | [], st => (true, st)
  | e :: es, st =>
    let fitting := cs.filter (·.matchesEdge e)
    if fitting.isEmpty then
      if s.isExtra e.predicate then decideEdges recur s cs es st else (false, st)
    else decideEdges recur s cs es (decideValues recur e.other fitting st)

/-- The edges that have to be assigned with their candidate constraints, read from a typing.
An edge without candidates is left out if its predicate is extra, and otherwise nothing can be
assigned. -/
def assignableEdges (t : Typing) (s : Shape) (cs : List TripleConstraint) :
    List Edge → Option (List (Edge × List Nat))
  | [] => some []
  | e :: es =>
    let candidates := constraintIndices (·.accepts t e) cs
    if !candidates.isEmpty then (assignableEdges t s cs es).map ((e, candidates) :: ·)
    else if s.isExtra e.predicate then assignableEdges t s cs es
    else none

/-- What a search among bags ends with. -/
inductive SearchResult where
  | found (b : Bag)
  | notFound
  | tooMany (max : Nat)
  deriving DecidableEq, Inhabited, Repr

/-- The first bag that an expression accepts, when `seen` bags have been looked at before. At
most `fuel` bags are looked at. -/
def searchFrom (max : Option Nat) (root : BagExpr) : Nat → Nat → Bags → SearchResult
  | 0, _, _ => .notFound
  | fuel + 1, seen, bags =>
    match bags.next? with
    | none => .notFound
    | some (b, rest) =>
      match max.filter (· < seen + 1) with
      | some m => .tooMany m
      | none => if root.accepts b then .found b else searchFrom max root fuel (seen + 1) rest

/-- The first bag that an expression accepts, among at most `max` bags. -/
def searchBags (max : Option Nat) (root : BagExpr) (bags : Bags) : SearchResult :=
  searchFrom max root (bags.number + 1) 0 bags

/-- The triples of the edges that are assigned to labelled constraints. -/
def matchedBy (cs : List TripleConstraint) (es : List Edge) (b : Bag) : List MatchedTriple :=
  (es.zip b.assignment).filterMap fun (e, i) =>
    (cs[i]?.bind (·.label)).map fun l => ⟨e.triple, l⟩

/-- Whether the neighbourhood of a node satisfies a shape. -/
def satisfiesShape (ctx : Context) (recur : Decider) (node : Term) (s : Shape) :
    Eval (Option (List MatchedTriple)) := do
  let c ← compiledShape ctx s
  -- without constraints no triple can be matched, and a closed shape allows no other one
  if c.constraints.isEmpty then
    return if !s.closed || (ctx.graph.outEdges node).isEmpty then some [] else none
  let edges := neighbourhood ctx.graph c s.closed node
  -- first every value gets a verdict, so that the candidates below only read verdicts
  let fit ← fun st => let (fit, st) := decideEdges recur s c.constraints edges st; .ok fit st
  if !fit then return none
  match assignableEdges (← get).typing s c.constraints edges with
  | none => return none
  | some assignable =>
    let bags := Bags.ofCandidates (assignable.map (·.2)) c.constraints.length
    match searchBags ctx.limits.maxBags c.root bags with
    | .found b => return some (matchedBy c.constraints (assignable.map (·.1)) b)
    | .notFound => return none
    | .tooMany max => throw (.bagLimit node max)

/-! ### Shape expressions -/

mutual
/-- Evaluates a shape expression at a node, given how references are decided. The result is
absent if the expression does not hold and else the list of matched triples. -/
def satisfies (ctx : Context) (recur : Decider) (node : Term) :
    ShapeExpr → Eval (Option (List MatchedTriple))
  | .and es => satisfiesAll ctx recur node es
  | .or es => satisfiesAny ctx recur node es
  | .not e => do
    match ← satisfies ctx recur node e with
    | some _ => return none
    | none => return some []
  | .node c =>
    match c.holds? ctx.limits node with
    | .error e => throw e
    | .ok true => return some []
    | .ok false => return none
  | .shape s => satisfiesShape ctx recur node s
  | .external => throw .externalShape
  | .ref l => fun st =>
    let (conforms, st) := recur ⟨node, l⟩ st
    .ok (if conforms then some [] else none) st

/-- All conjuncts hold; their triples are joined in order. -/
def satisfiesAll (ctx : Context) (recur : Decider) (node : Term) :
    List ShapeExpr → Eval (Option (List MatchedTriple))
  | [] => return some []
  | e :: es => do
    match ← satisfies ctx recur node e with
    | none => return none
    | some ms => return (← satisfiesAll ctx recur node es).map (ms ++ ·)

/-- Some disjunct holds; the triples of the first one are taken. -/
def satisfiesAny (ctx : Context) (recur : Decider) (node : Term) :
    List ShapeExpr → Eval (Option (List MatchedTriple))
  | [] => return none
  | e :: es => do
    match ← satisfies ctx recur node e with
    | some ms => return some ms
    | none => satisfiesAny ctx recur node es
end

/-! ### Associations -/

/-- Assumes that an association conforms. -/
def State.open (s : State) (a : Association) : State :=
  { s with typing := s.typing.hypothesize a, depth := s.depth + 1 }

/-- Resolves the assumption that was made at a checkpoint. -/
def State.close (s : State) (a : Association) (checkpoint : Nat) :
    Option (List MatchedTriple) → State
  | some ms => { s with typing := s.typing.confirm a ms, depth := s.depth - 1 }
  | none => { s with typing := s.typing.refute a checkpoint, depth := s.depth - 1 }

/-- Evaluates a definition under the assumption that its association conforms, unless too many
associations are pending. -/
def evaluateDefinition (ctx : Context) (recur : Decider) (node : Term) (e : ShapeExpr) :
    Eval (Option (List MatchedTriple)) := fun st =>
  match ctx.limits.maxDepth.filter (· < st.depth) with
  | some max => .error (.recursionLimit max) st
  | none => satisfies ctx recur node e st

/-- Decides an association, given how others are decided. A verdict is reused; a hypothesis
counts as conforming. -/
def decideWith (ctx : Context) (recur : Decider) : Decider := fun a st =>
  match st.typing.verdict? a with
  | some v => (v ≠ .fails, st)
  | none =>
    match ctx.schema.shape? a.label with
    | none => (false, st.addError (.unknownShape a.label))
    | some e =>
      let st := st.open a
      -- the log up to here holds `a` itself, which is resolved by name and not forgotten
      let checkpoint := st.typing.checkpoint
      match evaluateDefinition ctx recur a.node e st with
      | .ok result st => (result.isSome, st.close a checkpoint result)
      | .error err st => (false, (st.addError err).close a checkpoint none)

/-- Decides an association with at most `depth` nested decisions. -/
def decideWithin (ctx : Context) : Nat → Decider
  | 0 => fun _ st => (false, st.addError (.fault .exhausted))
  | depth + 1 => decideWith ctx (decideWithin ctx depth)

/-- More nested decisions than there are associations that can be pending: those of the terms
of the graph or the node at hand with the labels of the schema. -/
def Context.maxNesting (ctx : Context) : Nat :=
  (ctx.graph.nodes.length + 1) * ctx.schema.labels.length + 1

end ShapeTyping
