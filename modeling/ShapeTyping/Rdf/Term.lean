/-!
# RDF terms

The terms of an RDF graph and their N-Triples form, which messages print and answers are
sorted by.

* `Iri`, `Literal`, `Term`: terms as they are, with no validation and no normalization.
* `Term.ntriples`: the written form of a term.
-/

namespace ShapeTyping

/-- An IRI, any text. -/
structure Iri where
  text : String
  deriving DecidableEq, Hashable, Inhabited, Repr

/-! ### Datatypes -/
namespace Xsd

/-- The datatype of XML Schema with a local name. -/
def named (name : String) : Iri := ⟨"http://www.w3.org/2001/XMLSchema#" ++ name⟩

/-- The datatype of a literal written without one. -/
def string : Iri := named "string"

end Xsd

/-- The datatype of a literal with a language tag. -/
def langString : Iri := ⟨"http://www.w3.org/1999/02/22-rdf-syntax-ns#langString"⟩

/-- A literal has a datatype or a language tag. Equality is identity of the parts. -/
inductive Literal where
  | typed (lexical : String) (datatype : Iri)
  | tagged (lexical : String) (tag : String)
  deriving DecidableEq, Hashable, Inhabited, Repr

namespace Literal

/-- The lexical form. -/
def lexical : Literal → String
  | typed s _ => s
  | tagged s _ => s

def datatype : Literal → Iri
  | typed _ d => d
  | tagged _ _ => langString

def language? : Literal → Option String
  | typed _ _ => none
  | tagged _ t => some t

end Literal

/-- A node of a graph. -/
inductive Term where
  | iri (i : Iri)
  | blank (id : String)
  | literal (l : Literal)
  deriving DecidableEq, Hashable, Inhabited, Repr

/-! ### N-Triples form -/

/-- Four upper-case hexadecimal digits. -/
def hex4 (n : Nat) : String :=
  let digit (unit : Nat) : Char := (Nat.digitChar (n / unit % 16)).toUpper
  String.ofList [digit 4096, digit 256, digit 16, digit 1]

/-- A character inside a quoted literal. -/
def escapeChar (c : Char) : String :=
  if c = '"' then "\\\""
  else if c = '\\' then "\\\\"
  else if c = '\n' then "\\n"
  else if c = '\r' then "\\r"
  else if c = '\t' then "\\t"
  else if c.toNat = 0x08 then "\\b"
  else if c.toNat = 0x0C then "\\f"
  else if c.toNat < 0x20 ∨ c.toNat = 0x7F ∨ c.toNat = 0xFFFE ∨ c.toNat = 0xFFFF then
    "\\u" ++ hex4 c.toNat
  else c.toString

/-- A text between double quotes. -/
def quoted (s : String) : String :=
  "\"" ++ s.foldl (fun out c => out ++ escapeChar c) "" ++ "\""

def Iri.ntriples (i : Iri) : String := "<" ++ i.text ++ ">"

/-- A literal of type string is written without its datatype. -/
def Literal.ntriples : Literal → String
  | .typed s d => if d = Xsd.string then quoted s else quoted s ++ "^^" ++ d.ntriples
  | .tagged s t => quoted s ++ "@" ++ t

def Term.ntriples : Term → String
  | .iri i => i.ntriples
  | .blank id => "_:" ++ id
  | .literal l => l.ntriples

end ShapeTyping
