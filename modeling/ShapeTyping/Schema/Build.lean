import ShapeTyping.Schema.Hoist
import ShapeTyping.Schema.Strata

/-!
# Building a schema

* `firstDuplicate?`, `Definitions.referenceErrors`, `Definitions.cycle?`: the checks, in the
  order in which their errors win.
* `Definitions.build`: the schema of checked definitions.
-/

namespace ShapeTyping

/-- The first element that occurs before. -/
def firstDuplicate? (ls : List Label) : Option Label :=
  go [] ls
where
  go (seen : List Label) : List Label → Option Label
    | [] => none
    | l :: ls => if l ∈ seen then some l else go (l :: seen) ls

theorem firstDuplicate?_eq_none_iff {ls : List Label} :
    firstDuplicate? ls = none ↔ ls.Nodup := by
  suffices h : ∀ seen, firstDuplicate?.go seen ls = none ↔ ls.Nodup ∧ ∀ l ∈ ls, l ∉ seen by
    simpa [firstDuplicate?] using h []
  induction ls with
  | nil => simp [firstDuplicate?.go]
  | cons l ls ih =>
    intro seen
    by_cases h : l ∈ seen
    · simp [firstDuplicate?.go, h]
    · simp only [firstDuplicate?.go, h, if_false, ih, List.nodup_cons, List.mem_cons]
      grind

/-- All references to labels that are not defined, in written order: the start, then each
shape, then each triple expression. In a definition shape references come first. -/
def Definitions.referenceErrors (d : Definitions) : List SchemaError :=
  let shapeLabels := d.shapes.map (·.1)
  let exprLabels := d.tripleExprs.map (·.1)
  let ofStart := d.start.toList.filter (· ∉ shapeLabels) |>.map .undefinedStart
  let ofShapes (referrer : Label) (refs : List Label) :=
    refs.filter (· ∉ shapeLabels) |>.map (.undefinedShape referrer)
  let ofTripleExprs (refs : List Label) :=
    refs.filter (· ∉ exprLabels) |>.map SchemaError.undefinedTripleExpr
  ofStart ++
    d.shapes.flatMap (fun (l, e) => ofShapes l e.references ++ ofTripleExprs e.tripleReferences) ++
    d.tripleExprs.flatMap (fun (l, e) => ofShapes l e.valueReferences ++ ofTripleExprs e.references)

/-- The first reference between triple expressions that closes a cycle. -/
def Definitions.cycle? (d : Definitions) : Option (Label × Label) :=
  let labels := d.tripleExprs.map (·.1)
  let refs (l : Label) : List Label := ((d.tripleExprs.lookup l).map (·.references)).getD []
  match backEdge refs [] labels labels with
  | .error edge => some edge
  | .ok _ => none

/-- The checks on definitions whose values are references. -/
def Definitions.check (d : Definitions) : Except SchemaError Unit :=
  match d.referenceErrors.head? with
  | some e => .error e
  | none =>
    match d.cycle? with
    | some (source, target) => .error (.cyclicTripleExpr source target)
    | none => .ok ()

/-- Checks definitions, hoists their values and computes the strata. -/
def Definitions.build (d : Definitions) : Except SchemaError Schema := do
  match firstDuplicate? (d.shapes.map (·.1)) with
  | some l => throw (.duplicateLabel l)
  | none => pure ()
  match firstDuplicate? (d.tripleExprs.map (·.1)) with
  | some l => throw (.duplicateLabel l)
  | none => pure ()
  -- the other checks and the strata see references only
  let h := d.hoist
  h.check
  let strata ← stratify (h.shapes.map (·.1)) h.dependencies
  let (exprs, shapeCount) := ShapeExpr.numberList 0 (h.shapes.map (·.2))
  return {
    shapes := (h.shapes.map (·.1)).zip exprs
    tripleExprs := h.tripleExprs
    start := h.start
    shapeCount, strata }

end ShapeTyping
