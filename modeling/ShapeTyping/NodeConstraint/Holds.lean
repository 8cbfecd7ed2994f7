import ShapeTyping.Limits
import ShapeTyping.NodeConstraint.Basic
import ShapeTyping.Regex.Match
import ShapeTyping.Regex.Read
import ShapeTyping.Validation.Error
import ShapeTyping.Value.Basic

/-!
# Evaluation of node constraints

The parts of a node constraint are evaluated in a fixed order, and the first part that does
not hold or fails decides.

* `ValueSpec.admits`: membership in a value set.
* `StringFacet.holds?`, `NumericFacet.holds`: the facets.
* `NodeConstraint.holds?`: the whole constraint.
-/

namespace ShapeTyping

/-! ### Value sets -/

/-- Whether a language tag begins with a stem: the stem is empty, or it is the whole tag or a
part of it that ends before a hyphen, case aside. -/
def languageMatches (stem tag : String) : Bool :=
  let s := stem.toList.map Char.toLower
  let t := tag.toList.map Char.toLower
  s.isEmpty || (s.isPrefixOf t && (t.drop s.length).head?.all (· = '-'))

/-- Whether a term begins with a stem. -/
def StemKind.admits (stem : String) : StemKind → Term → Bool
  | iri, .iri i => stem.toList.isPrefixOf i.text.toList
  | literal, .literal l => stem.toList.isPrefixOf l.lexical.toList
  | language, .literal l => l.language?.any (languageMatches stem)
  | _, _ => false

mutual
def ValueSpec.admits (t : Term) : ValueSpec → Bool
  | .term u => t = u
  | .stem kind s => kind.admits s t
  | .stemRange kind s exclusions => kind.admits s t && !ValueSpec.anyAdmits t exclusions

def ValueSpec.anyAdmits (t : Term) : List ValueSpec → Bool
  | [] => false
  | v :: vs => v.admits t || ValueSpec.anyAdmits t vs
end

/-! ### Facets -/

/-- The text that string facets look at. Blank nodes have none. -/
def Term.lexical? : Term → Option String
  | .iri i => some i.text
  | .blank _ => none
  | .literal l => some l.lexical

/-- The flags that a pattern begins with. Four letters count, all others are ignored. -/
def flagGroups (flags : String) : String :=
  let letters := ['i', 'm', 's', 'x'].filter (flags.toList.contains ·)
  String.join (letters.map fun c => "(?" ++ c.toString ++ ")")

/-- Whether a pattern matches somewhere in a text. -/
def patternMatches? (limits : Limits) (source : String) (flags : Option String) (text : String) :
    Except ValidationError Bool :=
  if limits.maxPatternBytes < source.utf8ByteSize then
    .error (.patternTooLong source.utf8ByteSize limits.maxPatternBytes)
  else
    match Regex.read? (flagGroups (flags.getD "") ++ source) with
    | none => .error (.invalidPattern source)
    | some r => .ok (r.matchesIn text)

def StringFacet.holds? (limits : Limits) (text : String) : StringFacet → Except ValidationError Bool
  | length n => .ok (text.length = n)
  | minLength n => .ok (n ≤ text.length)
  | maxLength n => .ok (text.length ≤ n)
  | pattern source flags => patternMatches? limits source flags text

/-- The order of a value and a bound. -/
def Value.compareBound? (v : Value) (bound : Literal) : Option Ordering :=
  bound.value.value?.bind v.compare?

def NumericFacet.holds (v : Value) : NumericFacet → Bool
  | minInclusive b => (v.compareBound? b).any fun o => o = .gt || o = .eq
  | minExclusive b => v.compareBound? b = some .gt
  | maxInclusive b => (v.compareBound? b).any fun o => o = .lt || o = .eq
  | maxExclusive b => v.compareBound? b = some .lt
  | totalDigits n => v.digits?.any (·.1 ≤ n)
  | fractionDigits n => v.digits?.any (·.2 ≤ n)

namespace NodeConstraint

def kindHolds (c : NodeConstraint) (t : Term) : Bool := c.kind.all (·.admits t)

/-- A literal has to be of the datatype, and its text must not be invalid for it. -/
def datatypeHolds (c : NodeConstraint) (t : Term) : Bool :=
  c.datatype.all fun d =>
    match t with
    | .literal l => l.datatype = d && l.value ≠ .invalid
    | _ => false

/-- All string facets, in order. -/
def stringFacetsHold? (limits : Limits) (t : Term) :
    List StringFacet → Except ValidationError Bool
  | [] => .ok true
  | f :: fs =>
    match t.lexical? with
    | none => .ok false
    | some text =>
      match f.holds? limits text with
      | .error e => .error e
      | .ok false => .ok false
      | .ok true => stringFacetsHold? limits t fs

/-- Numeric facets ask for a number. -/
def numericFacetsHold (t : Term) (fs : List NumericFacet) : Bool :=
  fs.isEmpty ||
    match t.value?.filter (·.isNumeric) with
    | none => false
    | some v => fs.all (·.holds v)

/-- An empty value set asks for nothing. -/
def valuesHold? (limits : Limits) (t : Term) (vs : List ValueSpec) : Except ValidationError Bool :=
  if vs.isEmpty then .ok true
  else if limits.maxValues < vs.length then .error (.valueSetTooLong vs.length limits.maxValues)
  else .ok (ValueSpec.anyAdmits t vs)

/-- Whether a node satisfies a node constraint. -/
def holds? (limits : Limits) (c : NodeConstraint) (t : Term) : Except ValidationError Bool :=
  if !c.kindHolds t then .ok false
  else if !c.datatypeHolds t then .ok false
  else
    match stringFacetsHold? limits t c.stringFacets with
    | .error e => .error e
    | .ok false => .ok false
    | .ok true =>
      if !numericFacetsHold t c.numericFacets then .ok false
      else valuesHold? limits t c.values

end NodeConstraint

end ShapeTyping
