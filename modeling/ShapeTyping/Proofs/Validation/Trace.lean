import Mathlib
import ShapeTyping.Proofs.Validation.Frame

/-!
# Traces of a run

The evaluation of definitions once more, with a list of what happens: which association is
assumed while which others are pending, where the candidates of edges are looked up, and which
verdicts are read, below which negations.

* `Lookup`: where the candidates of the edges around a node are read from the typing.
* `Event`: an assumption, a lookup or the reading of a verdict.
* `Validator.validateTraced`, `Validator.runTraced`: calls of a validator with their events.
* `traceWithin_erases`: without the events a traced decision is the decision.
* `Validator.runTraced_fst`: the same for a sequence of calls.
-/

namespace ShapeTyping

/-- A moment when the candidates of the edges around a node are read from the typing, for a shape
and its compiled expression. -/
structure Lookup where
  node : Term
  shape : Shape
  compiled : Compiled
  state : State

/-- Something that happens in a run. -/
inductive Event where
  /-- An association is assumed while others are pending, the latest first. The typing is the one
  after the assumption. -/
  | assume (pending : List Association) (a : Association) (t : Typing)
  /-- The evaluation of an association reads the verdict on another one: through a negative
  reference, through one that allows no triple, or otherwise. -/
  | read (reader target : Association) (negative zero : Bool) (verdict : Option Verdict)
  /-- Candidates are read. The verdicts that this takes are read next. -/
  | lookup (p : Lookup)

namespace Event

/-- What is read through a negative reference: which association reads it, which one it is about, and
the verdict. -/
def negativeRead? : Event → Option (Association × Association × Option Verdict)
  | .read reader target true _ verdict => some (reader, target, verdict)
  | _ => none

def lookup? : Event → Option Lookup
  | .lookup p => some p
  | _ => none

end Event

/-- A state and what happened before. -/
structure Traced where
  state : State
  events : List Event

abbrev TracedEval := EStateM ValidationError Traced

abbrev TracedDecider := Association → Traced → Bool × Traced

namespace Traced

def emit (t : Traced) (es : List Event) : Traced := { t with events := t.events ++ es }

def withState (t : Traced) (st : State) : Traced := { t with state := st }

end Traced

/-! ### Traced evaluation -/

def traceValues (recur : TracedDecider) (other : Term) : List TripleConstraint → Traced → Traced
  | [], t => t
  | c :: cs, t =>
    match c.valueLabel? with
    | none => traceValues recur other cs t
    | some l =>
      if (t.state.typing.verdict? ⟨other, l⟩).isSome then traceValues recur other cs t
      else traceValues recur other cs (recur ⟨other, l⟩ t).2

def traceEdges (recur : TracedDecider) (s : Shape) (cs : List TripleConstraint) :
    List Edge → Traced → Bool × Traced
  | [], t => (true, t)
  | e :: es, t =>
    let fitting := cs.filter (·.matchesEdge e)
    if fitting.isEmpty then
      if s.isExtra e.predicate then traceEdges recur s cs es t else (false, t)
    else traceEdges recur s cs es (traceValues recur e.other fitting t)

/-- The verdicts that are read when edges are matched with constraints. -/
def matchingReads (reader : Association) (negative : Bool) (s : Shape)
    (cs : List TripleConstraint) (t : Typing) (es : List Edge) : List Event :=
  es.flatMap fun e => (cs.filter (·.matchesEdge e)).filterMap fun c =>
    c.valueLabel?.map fun l => .read reader ⟨e.other, l⟩ (negative || c.predicate ∈ s.extra)
      c.card.isZero (t.verdict? ⟨e.other, l⟩)

def traceShape (ctx : Context) (recur : TracedDecider) (reader : Association) (negative : Bool)
    (s : Shape) : TracedEval (Option (List MatchedTriple)) := fun t =>
  match compiledShape ctx s t.state with
  | .error err st => .error err (t.withState st)
  | .ok c st =>
    if c.constraints.isEmpty then
      .ok (if !s.closed || (ctx.graph.outEdges reader.node).isEmpty then some [] else none)
        (t.withState st)
    else
      let edges := neighbourhood ctx.graph c s.closed reader.node
      match traceEdges recur s c.constraints edges (t.withState st) with
      | (false, t) => .ok none t
      | (true, t) =>
        let events := .lookup ⟨reader.node, s, c, t.state⟩ ::
          matchingReads reader negative s c.constraints t.state.typing edges
        match assignableEdges t.state.typing s c.constraints edges with
        | none => .ok none (t.emit events)
        | some assignable =>
          match searchBags ctx.limits.maxBags c.root
            (.ofCandidates (assignable.map (·.2)) c.constraints.length) with
          | .found b =>
            .ok (some (matchedBy c.constraints (assignable.map (·.1)) b)) (t.emit events)
          | .notFound => .ok none (t.emit events)
          | .tooMany max => .error (.bagLimit reader.node max) (t.emit events)

mutual
/-- Evaluates a part of the definition of `reader`, given how references are decided and whether
the part is below a negation. -/
def traceExpr (ctx : Context) (recur : TracedDecider) (reader : Association) :
    Bool → ShapeExpr → TracedEval (Option (List MatchedTriple))
  | negative, .and es => traceAll ctx recur reader negative es
  | negative, .or es => traceAny ctx recur reader negative es
  | _, .not e => fun t =>
    match traceExpr ctx recur reader true e t with
    | .error err t => .error err t
    | .ok (some _) t => .ok none t
    | .ok none t => .ok (some []) t
  | _, .node c => fun t =>
    match c.holds? ctx.limits reader.node with
    | .error err => .error err t
    | .ok true => .ok (some []) t
    | .ok false => .ok none t
  | negative, .shape s => traceShape ctx recur reader negative s
  | _, .external => fun t => .error .externalShape t
  | negative, .ref l => fun t =>
    let target : Association := ⟨reader.node, l⟩
    let (conforms, t) := recur target t
    .ok (if conforms then some [] else none)
      (t.emit [.read reader target negative false (t.state.typing.verdict? target)])

def traceAll (ctx : Context) (recur : TracedDecider) (reader : Association) :
    Bool → List ShapeExpr → TracedEval (Option (List MatchedTriple))
  | _, [] => fun t => .ok (some []) t
  | negative, e :: es => fun t =>
    match traceExpr ctx recur reader negative e t with
    | .error err t => .error err t
    | .ok none t => .ok none t
    | .ok (some ms) t =>
      match traceAll ctx recur reader negative es t with
      | .error err t => .error err t
      | .ok r t => .ok (r.map (ms ++ ·)) t

def traceAny (ctx : Context) (recur : TracedDecider) (reader : Association) :
    Bool → List ShapeExpr → TracedEval (Option (List MatchedTriple))
  | _, [] => fun t => .ok none t
  | negative, e :: es => fun t =>
    match traceExpr ctx recur reader negative e t with
    | .error err t => .error err t
    | .ok (some ms) t => .ok (some ms) t
    | .ok none t => traceAny ctx recur reader negative es t
end

def traceDefinition (ctx : Context) (recur : TracedDecider) (a : Association) (e : ShapeExpr) :
    TracedEval (Option (List MatchedTriple)) := fun t =>
  match ctx.limits.maxDepth.filter (· < t.state.depth) with
  | some max => .error (.recursionLimit max) t
  | none => traceExpr ctx recur a false e t

/-- Decides an association while others are pending. -/
def traceWith (ctx : Context) (recur : TracedDecider) (pending : List Association) :
    TracedDecider := fun a t =>
  match t.state.typing.verdict? a with
  | some v => (v ≠ .fails, t)
  | none =>
    match ctx.schema.shape? a.label with
    | none => (false, t.withState (t.state.addError (.unknownShape a.label)))
    | some e =>
      let st := t.state.open a
      let checkpoint := st.typing.checkpoint
      match traceDefinition ctx recur a e
        ((t.withState st).emit [.assume pending a st.typing]) with
      | .ok result t => (result.isSome, t.withState (t.state.close a checkpoint result))
      | .error err t => (false, t.withState ((t.state.addError err).close a checkpoint none))

def traceWithin (ctx : Context) : ℕ → List Association → TracedDecider
  | 0, _ => fun _ t => (false, t.withState (t.state.addError (.fault .exhausted)))
  | depth + 1, pending => fun a =>
    traceWith ctx (traceWithin ctx depth (a :: pending)) pending a

namespace Validator

/-- The answers of successive calls and the validator after them. -/
def run (v : Validator) : List Association → List (Except ValidationError Bool) × Validator
  | [] => ([], v)
  | a :: as =>
    let (answer, v) := v.validate a
    let (answers, v) := run v as
    (answer :: answers, v)

/-- A call with its events. -/
def validateTraced (v : Validator) (a : Association) :
    (Except ValidationError Bool × Validator) × List Event :=
  if v.context.schema.contains a.label then
    let start := { v.state with errors := [], depth := 0 }
    let (conforms, t) := traceWithin v.context v.context.maxNesting [] a ⟨start, []⟩
    let answer := match t.state.errors with
      | e :: _ => .error e
      | [] => .ok conforms
    ((answer, { v with state := { t.state with typing := t.state.typing.commit, errors := [] } }),
      t.events)
  else ((.error (.unknownShape a.label), v), [])

/-- Successive calls with their events. -/
def runTraced (v : Validator) :
    List Association → (List (Except ValidationError Bool) × Validator) × List Event
  | [] => (([], v), [])
  | a :: as =>
    let ((answer, v), events) := v.validateTraced a
    let ((answers, v), later) := runTraced v as
    ((answer :: answers, v), events ++ later)

end Validator

/-! ### Erasure of events -/

/-- The result of a traced step without the events. -/
def eraseResult {α : Type} :
    EStateM.Result ValidationError Traced α → EStateM.Result ValidationError State α
  | .ok a t => .ok a t.state
  | .error err t => .error err t.state

/-- Whether a traced decision without the events is a decision. -/
def TracedDecider.Erases (recur' : TracedDecider) (recur : Decider) : Prop :=
  ∀ a t, ((recur' a t).1, (recur' a t).2.state) = recur a t.state

section Erasure

variable {ctx : Context} {recur' : TracedDecider} {recur : Decider} {reader : Association}

theorem traceValues_erases (h : recur'.Erases recur) (other : Term)
    (cs : List TripleConstraint) (t : Traced) :
    (traceValues recur' other cs t).state = decideValues recur other cs t.state := by
  induction cs generalizing t with
  | nil => rfl
  | cons c cs ih =>
    rw [traceValues, decideValues]
    cases c.valueLabel? with
    | none => exact ih t
    | some l =>
      simp only
      split
      · exact ih t
      · rw [ih, ← h]

theorem traceEdges_erases (h : recur'.Erases recur) (s : Shape) (cs : List TripleConstraint)
    (es : List Edge) (t : Traced) :
    ((traceEdges recur' s cs es t).1, (traceEdges recur' s cs es t).2.state) =
      decideEdges recur s cs es t.state := by
  induction es generalizing t with
  | nil => rfl
  | cons e es ih =>
    rw [traceEdges, decideEdges]
    split
    · split
      · exact ih t
      · rfl
    · rw [ih, traceValues_erases h]

theorem traceShape_erases (h : recur'.Erases recur) (negative : Bool) (s : Shape) (t : Traced) :
    eraseResult (traceShape ctx recur' reader negative s t) =
      satisfiesShape ctx recur reader.node s t.state := by
  rw [satisfiesShape_eq, traceShape]
  cases compiledShape ctx s t.state with
  | error err st => rfl
  | ok c st =>
    simp only
    split
    · rfl
    have hedges := traceEdges_erases h s c.constraints
      (neighbourhood ctx.graph c s.closed reader.node) (t.withState st)
    rw [Traced.withState] at hedges ⊢
    simp only at hedges
    rw [← hedges]
    obtain ⟨fit, t'⟩ := traceEdges recur' s c.constraints
      (neighbourhood ctx.graph c s.closed reader.node) { t with state := st }
    cases fit with
    | false => rfl
    | true =>
      simp only
      cases assignableEdges t'.state.typing s c.constraints
        (neighbourhood ctx.graph c s.closed reader.node) with
      | none => rfl
      | some assignable =>
        simp only
        cases searchBags ctx.limits.maxBags c.root
          (.ofCandidates (assignable.map (·.2)) c.constraints.length) <;> rfl

mutual
/-- **A traced evaluation without the events** is the evaluation. -/
theorem traceExpr_erases (h : recur'.Erases recur) :
    (negative : Bool) → (e : ShapeExpr) → (t : Traced) →
    eraseResult (traceExpr ctx recur' reader negative e t) =
      satisfies ctx recur reader.node e t.state
  | negative, .and es, t => by
    rw [traceExpr, satisfies]
    exact traceAll_erases h negative es t
  | negative, .or es, t => by
    rw [traceExpr, satisfies]
    exact traceAny_erases h negative es t
  | negative, .not e, t => by
    rw [traceExpr, satisfies_not, ← traceExpr_erases h true e t]
    beta_reduce
    rcases traceExpr ctx recur' reader true e t with ⟨_ | ms, t'⟩ | ⟨err, t'⟩ <;> rfl
  | negative, .node c, t => by
    rw [traceExpr, satisfies_node]
    beta_reduce
    rcases c.holds? ctx.limits reader.node with err | _ | _ <;> rfl
  | negative, .shape s, t => by
    rw [traceExpr, satisfies]
    exact traceShape_erases h negative s t
  | negative, .external, t => by
    rw [traceExpr, satisfies]
    rfl
  | negative, .ref l, t => by
    rw [traceExpr, satisfies]
    simp only [← h ⟨reader.node, l⟩ t]
    rfl

theorem traceAll_erases (h : recur'.Erases recur) :
    (negative : Bool) → (es : List ShapeExpr) → (t : Traced) →
    eraseResult (traceAll ctx recur' reader negative es t) =
      satisfiesAll ctx recur reader.node es t.state
  | negative, [], t => by
    rw [traceAll, satisfiesAll]
    rfl
  | negative, e :: es, t => by
    rw [traceAll, satisfiesAll_cons, ← traceExpr_erases h negative e t]
    beta_reduce
    rcases traceExpr ctx recur' reader negative e t with ⟨_ | ms, t'⟩ | ⟨err, t'⟩
    · rfl
    · simp only [eraseResult]
      rw [← traceAll_erases h negative es t']
      rcases traceAll ctx recur' reader negative es t' with ⟨r, t''⟩ | ⟨err, t''⟩ <;> rfl
    · rfl

theorem traceAny_erases (h : recur'.Erases recur) :
    (negative : Bool) → (es : List ShapeExpr) → (t : Traced) →
    eraseResult (traceAny ctx recur' reader negative es t) =
      satisfiesAny ctx recur reader.node es t.state
  | negative, [], t => by
    rw [traceAny, satisfiesAny]
    rfl
  | negative, e :: es, t => by
    rw [traceAny, satisfiesAny_cons, ← traceExpr_erases h negative e t]
    beta_reduce
    rcases traceExpr ctx recur' reader negative e t with ⟨_ | ms, t'⟩ | ⟨err, t'⟩
    · exact traceAny_erases h negative es t'
    · rfl
    · rfl
end

theorem traceDefinition_erases (h : recur'.Erases recur) (e : ShapeExpr) (t : Traced) :
    eraseResult (traceDefinition ctx recur' reader e t) =
      evaluateDefinition ctx recur reader.node e t.state := by
  rw [traceDefinition, evaluateDefinition]
  cases ctx.limits.maxDepth.filter (· < t.state.depth) with
  | some max => rfl
  | none => exact traceExpr_erases h false e t

theorem traceWith_erases (h : recur'.Erases recur) (pending : List Association) :
    (traceWith ctx recur' pending).Erases (decideWith ctx recur) := by
  intro a t
  rw [traceWith, decideWith]
  cases t.state.typing.verdict? a with
  | some v => rfl
  | none =>
    cases ctx.schema.shape? a.label with
    | none => rfl
    | some e =>
      simp only
      have hdef : eraseResult (traceDefinition ctx recur' a e
          ((t.withState (t.state.open a)).emit [.assume pending a (t.state.open a).typing])) =
          evaluateDefinition ctx recur a.node e (t.state.open a) := traceDefinition_erases h e _
      rw [← hdef]
      rcases traceDefinition ctx recur' a e
        ((t.withState (t.state.open a)).emit [.assume pending a (t.state.open a).typing]) with
        ⟨r, t'⟩ | ⟨err, t'⟩ <;> rfl

end Erasure

/-- **A traced decision without the events** is the decision. -/
theorem traceWithin_erases (ctx : Context) (n : ℕ) (pending : List Association) :
    (traceWithin ctx n pending).Erases (decideWithin ctx n) := by
  induction n generalizing pending with
  | zero => exact fun a t => rfl
  | succ n ih => exact fun a t => traceWith_erases (ih (a :: pending)) pending a t

namespace Validator

theorem validateTraced_fst (v : Validator) (a : Association) :
    (v.validateTraced a).1 = v.validate a := by
  unfold validateTraced validate
  split
  · have h := traceWithin_erases v.context v.context.maxNesting [] a
      ⟨{ v.state with errors := [], depth := 0 }, []⟩
    simp only at h ⊢
    generalize decideWithin v.context v.context.maxNesting a
      { v.state with errors := [], depth := 0 } = decision at h ⊢
    subst h
    rcases traceWithin v.context v.context.maxNesting [] a _ with ⟨conforms, t⟩
    cases t.state.errors <;> rfl
  · rfl

/-- **Traced calls without the events** are the calls. -/
theorem runTraced_fst (v : Validator) (calls : List Association) :
    (v.runTraced calls).1 = v.run calls := by
  induction calls generalizing v with
  | nil => rfl
  | cons a as ih =>
    rw [runTraced, run]
    simp only [← validateTraced_fst, ← ih]

end Validator

end ShapeTyping
