import ShapeTyping.Schema.Basic

/-!
# Hoisting of inline values

A value expression that is no reference becomes a definition of its own under a generated
label, so that each pair of a node and a condition on it has a name.

* `Definitions.labels`: every label that definitions mention.
* `generatedLabel`: labels that definitions do not mention.
* `Definitions.hoist`: definitions in which all values are references.
-/

namespace ShapeTyping

/-! ### Generated labels -/

/-- Every label that is defined, referred to or named as the start. -/
def Definitions.labels (d : Definitions) : List Label :=
  d.shapes.flatMap (fun (l, e) => l :: (e.references ++ e.tripleReferences)) ++
    d.tripleExprs.flatMap (fun (l, e) => l :: (e.valueReferences ++ e.references)) ++
    d.start.toList

/-- How generated blank nodes begin. -/
def generatedStem : String := "gen#"

/-- A beginning that no used blank node has. -/
def freshStem (used : List Label) : String :=
  let ids := used.filterMap fun | .blank id => some id | .iri _ => none
  if ids.all (!·.startsWith generatedStem) then generatedStem
  else generatedStem ++ String.ofList (List.replicate ((ids.map (·.length)).foldl max 0) '#')

/-- The generated label with a number. -/
def generatedLabel (stem : String) (n : Nat) : Label := .blank (stem ++ toString n)

/-! ### Inline values -/

mutual
/-- The number of values that are no references, at any depth. -/
def ShapeExpr.inlineValues : ShapeExpr → Nat
  | .and es => ShapeExpr.inlineValuesOfList es
  | .or es => ShapeExpr.inlineValuesOfList es
  | .not e => e.inlineValues
  | .node _ => 0
  | .shape ⟨_, _, e, _⟩ => e.inlineValues
  | .external => 0
  | .ref _ => 0

def ShapeExpr.inlineValuesOfList : List ShapeExpr → Nat
  | [] => 0
  | e :: es => e.inlineValues + ShapeExpr.inlineValuesOfList es

def TripleExpr.inlineValues : TripleExpr → Nat
  | .constraint c => c.inlineValues
  | .eachOf es _ => TripleExpr.inlineValuesOfList es
  | .oneOf es _ => TripleExpr.inlineValuesOfList es
  | .ref _ => 0
  | .empty => 0

def TripleExpr.inlineValuesOfList : List TripleExpr → Nat
  | [] => 0
  | e :: es => e.inlineValues + TripleExpr.inlineValuesOfList es

def TripleConstraint.inlineValues : TripleConstraint → Nat
  | ⟨_, some e, _, _, _⟩ => if e.isRef then 0 else 1 + e.inlineValues
  | ⟨_, none, _, _, _⟩ => 0
end

mutual
/-- Replaces the inline values, left to right, by references to the labels numbered from `k`
on. The replaced values are returned in the order of their labels. -/
def TripleExpr.hoist (fresh : Nat → Label) (k : Nat) : TripleExpr → TripleExpr × List ShapeExpr
  | .constraint c =>
    match c.value with
    | none => (.constraint c, [])
    | some v =>
      if v.isRef then (.constraint c, [])
      else (.constraint { c with value := some (.ref (fresh k)) }, [v])
  | .eachOf es card =>
    let (es', vs) := TripleExpr.hoistList fresh k es
    (.eachOf es' card, vs)
  | .oneOf es card =>
    let (es', vs) := TripleExpr.hoistList fresh k es
    (.oneOf es' card, vs)
  | .ref l => (.ref l, [])
  | .empty => (.empty, [])

def TripleExpr.hoistList (fresh : Nat → Label) (k : Nat) :
    List TripleExpr → List TripleExpr × List ShapeExpr
  | [] => ([], [])
  | e :: es =>
    let (e', vs) := e.hoist fresh k
    let (es', ws) := TripleExpr.hoistList fresh (k + vs.length) es
    (e' :: es', vs ++ ws)
end

mutual
/-- Hoists the values of the shapes of an expression, but not those of the hoisted values. -/
def ShapeExpr.hoist (fresh : Nat → Label) (k : Nat) : ShapeExpr → ShapeExpr × List ShapeExpr
  | .and es =>
    let (es', vs) := ShapeExpr.hoistList fresh k es
    (.and es', vs)
  | .or es =>
    let (es', vs) := ShapeExpr.hoistList fresh k es
    (.or es', vs)
  | .not e =>
    let (e', vs) := e.hoist fresh k
    (.not e', vs)
  | .shape s =>
    let (x, vs) := s.expr.hoist fresh k
    (.shape { s with expr := x }, vs)
  | .node c => (.node c, [])
  | .external => (.external, [])
  | .ref l => (.ref l, [])

def ShapeExpr.hoistList (fresh : Nat → Label) (k : Nat) :
    List ShapeExpr → List ShapeExpr × List ShapeExpr
  | [] => ([], [])
  | e :: es =>
    let (e', vs) := e.hoist fresh k
    let (es', ws) := ShapeExpr.hoistList fresh (k + vs.length) es
    (e' :: es', vs ++ ws)
end

/-- Hoists the values of definitions, then those of the values hoisted, and so on for at most
`rounds` rounds. All definitions follow in the order of their labels. -/
def hoistRounds (fresh : Nat → Label) : Nat → Nat → List ShapeExpr → List ShapeExpr
  | 0, _, es => es
  | _, _, [] => []
  | rounds + 1, k, es =>
    let (done, values) := ShapeExpr.hoistList fresh k es
    done ++ hoistRounds fresh rounds (k + values.length) values

/-- Definitions in which all values are references. The values of triple expressions get the
first generated labels. Each round hoists a value or is the last one, so one round more than
there are inline values suffices. -/
def Definitions.hoist (d : Definitions) : Definitions :=
  let fresh := generatedLabel (freshStem d.labels)
  let (exprs, values) := TripleExpr.hoistList fresh 0 (d.tripleExprs.map (·.2))
  let defs := d.shapes.map (·.2) ++ values
  let all := hoistRounds fresh (ShapeExpr.inlineValuesOfList defs + 1) values.length defs
  let labels := d.shapes.map (·.1) ++ (List.range (all.length - d.shapes.length)).map fresh
  { shapes := labels.zip all
    tripleExprs := (d.tripleExprs.map (·.1)).zip exprs
    start := d.start }

/-! ### Shape indices -/

mutual
/-- Numbers the shapes of an expression from `k` on and returns the next number. -/
def ShapeExpr.number (k : Nat) : ShapeExpr → ShapeExpr × Nat
  | .and es =>
    let (es', n) := ShapeExpr.numberList k es
    (.and es', n)
  | .or es =>
    let (es', n) := ShapeExpr.numberList k es
    (.or es', n)
  | .not e =>
    let (e', n) := e.number k
    (.not e', n)
  | .shape s => (.shape { s with index := k }, k + 1)
  | .node c => (.node c, k)
  | .external => (.external, k)
  | .ref l => (.ref l, k)

def ShapeExpr.numberList (k : Nat) : List ShapeExpr → List ShapeExpr × Nat
  | [] => ([], k)
  | e :: es =>
    let (e', n) := e.number k
    let (es', m) := ShapeExpr.numberList n es
    (e' :: es', m)
end

end ShapeTyping
