import ShapeTyping.Regex.Basic
import ShapeTyping.Value.Digits

/-!
# Reading of patterns

Patterns are read from left to right. Open groups are kept on a stack, and flags hold from
where they are set to the end of the group.

* `Regex.readClass?`: a class in brackets.
* `Regex.readEscape?`: what follows a backslash.
* `Regex.read?`: the expression of a pattern, if the pattern is well formed and neither too
  deep nor too large, and names no class that is not known.
-/

namespace ShapeTyping.Regex

/-- The flags in force at a point of a pattern. -/
structure Flags where
  ignoreCase : Bool
  multiLine : Bool
  dotAll : Bool
  ignoreSpace : Bool
  crlf : Bool
  ascii : Bool
  deriving DecidableEq, Inhabited, Repr

def Flags.none : Flags := ⟨false, false, false, false, false, false⟩

/-- Skips blanks and comments, where the flags say so. -/
def skipBlanks (f : Flags) (cs : List Char) : List Char :=
  if f.ignoreSpace then go false cs else cs
where
  go : Bool → List Char → List Char
    | _, [] => []
    | true, c :: cs => go (c ≠ '\n') cs
    | false, c :: cs =>
      if Unicode.isSpace c then go false cs
      else if c = '#' then go true cs
      else c :: cs

/-! ### Sets -/

namespace Flags

/-- The case closure of a set, where the flags say so. -/
def close (f : Flags) (s : CharSet) : CharSet :=
  if f.ignoreCase then if f.ascii then .foldedAscii s else .folded s else s

/-- A set or its complement. With ASCII classes a complement would match parts of
characters. -/
def negate? (f : Flags) (negated : Bool) (s : CharSet) : Option CharSet :=
  if negated then if f.ascii then .none else some (.compl s) else some s

/-- A single character. -/
def char? (f : Flags) (c : Char) : Option CharSet :=
  if f.ascii ∧ 0x80 ≤ c.toNat then .none else some (f.close (.char c))

/-- Any character but the end of a line. -/
def dot? (f : Flags) : Option CharSet :=
  if f.ascii then .none
  else if f.dotAll then some (.range 0 0x10FFFF)
  else if f.crlf then some (.compl (.union (.char '\r') (.char '\n')))
  else some (.compl (.char '\n'))

end Flags

def ranges (rs : List (Nat × Nat)) : CharSet :=
  rs.foldr (fun (lo, hi) s => .union (.range lo hi) s) .none

def asciiDigit : CharSet := .range 0x30 0x39
def asciiSpace : CharSet := ranges [(0x09, 0x0D), (0x20, 0x20)]
def asciiWord : CharSet := ranges [(0x30, 0x39), (0x41, 0x5A), (0x5F, 0x5F), (0x61, 0x7A)]

/-- The class of a letter after a backslash. -/
def letterClass? (f : Flags) (c : Char) : Option CharSet :=
  let pick (ascii : CharSet) (full : Unicode.CharTable) : CharSet :=
    if f.ascii then ascii else .table full
  match c with
  | 'd' => some (pick asciiDigit Unicode.decimalNumber)
  | 's' => some (pick asciiSpace Unicode.whiteSpace)
  | 'w' => some (pick asciiWord Unicode.word)
  | _ => none

/-- The class of a name between colons. -/
def asciiClass? (name : String) : Option CharSet :=
  match name with
  | "alnum" => some (ranges [(0x30, 0x39), (0x41, 0x5A), (0x61, 0x7A)])
  | "alpha" => some (ranges [(0x41, 0x5A), (0x61, 0x7A)])
  | "ascii" => some (.range 0 0x7F)
  | "blank" => some (ranges [(0x09, 0x09), (0x20, 0x20)])
  | "cntrl" => some (ranges [(0x00, 0x1F), (0x7F, 0x7F)])
  | "digit" => some asciiDigit
  | "graph" => some (.range 0x21 0x7E)
  | "lower" => some (.range 0x61 0x7A)
  | "print" => some (.range 0x20 0x7E)
  | "punct" => some (ranges [(0x21, 0x2F), (0x3A, 0x40), (0x5B, 0x60), (0x7B, 0x7E)])
  | "space" => some asciiSpace
  | "upper" => some (.range 0x41 0x5A)
  | "word" => some asciiWord
  | "xdigit" => some (ranges [(0x30, 0x39), (0x41, 0x46), (0x61, 0x66)])
  | _ => none

/-! ### Nesting -/

/-- Something read, with the number of levels that its parts are nested. -/
structure Nested (α : Type) where
  value : α
  depth : Nat
  deriving Inhabited, Repr

namespace Nested

/-- A single element has no levels. -/
def leaf {α : Type} (a : α) : Nested α := ⟨a, 0⟩

/-- The levels of parts side by side: one more than the deepest of them has, unless there is
only one. -/
def depthOf {α : Type} (parts : List (Nested α)) : Nat :=
  match parts with
  | [] => 0
  | [p] => p.depth
  | ps => (ps.map (·.depth)).foldl max 0 + 1

end Nested

/-- The largest number of levels that is accepted. -/
def maxDepth : Nat := 250

/-! ### Escapes -/

/-- What a single element of a pattern stands for. -/
inductive Atom where
  | char (c : Char)
  | set (s : CharSet)
  | look (l : Look)
  deriving Inhabited, Repr

def isHexDigit (c : Char) : Bool :=
  c.isDigit || ('a' ≤ c && c ≤ 'f') || ('A' ≤ c && c ≤ 'F')

/-- The character of hexadecimal digits. -/
def hexChar? (ds : List Char) : Option Char :=
  let n := Unicode.readHex (String.ofList ds)
  if ds ≠ [] ∧ ds.all isHexDigit ∧ n.isValidChar then some (Char.ofNat n) else none

/-- Hexadecimal digits, `n` of them, with blanks skipped between them. -/
def hexDigits? (f : Flags) : Nat → List Char → Option (List Char × List Char)
  | 0, cs => some ([], cs)
  | n + 1, cs =>
    match skipBlanks f cs with
    | c :: r => if isHexDigit c then (hexDigits? f n r).map fun (ds, r) => (c :: ds, r) else none
    | [] => none

/-- A code point: digits in braces, or a fixed number of them. -/
def readHex? (f : Flags) (n : Nat) (cs : List Char) : Option (Char × List Char) :=
  match skipBlanks f cs with
  | '\x7b' :: r =>
    match r.span (· ≠ '\x7d') with
    | (ds, _ :: r) =>
      let ds := if f.ignoreSpace then ds.filter (!Unicode.isSpace ·) else ds
      (hexChar? ds).map (·, r)
    | (_, []) => none
  | cs => do
    let (ds, r) ← hexDigits? f n cs
    return (← hexChar? ds, r)

/-- A name and a value divided by `!=`, `=` or `:`. The flag is set for `!=`. -/
def splitProperty (cs : List Char) : Option (List Char × List Char × Bool) :=
  match cs.span fun c => c ≠ '=' && c ≠ ':' with
  | (_, []) => none
  | (name, '=' :: value) =>
    match name.getLast? with
    | some '!' => some (name.dropLast, value, true)
    | _ => some (name, value, false)
  | (name, _ :: value) => some (name, value, false)

/-- The class of a property: one letter, or a name in braces, with an optional value. Properties
that are not known are refused. -/
def readProperty? (f : Flags) (negated : Bool) (cs : List Char) : Option (CharSet × List Char) :=
  if f.ascii then none
  else
    match skipBlanks f cs with
    | [] => none
    | '\x7b' :: r =>
      match r.span (· ≠ '\x7d') with
      | (_, []) => none
      | (body, _ :: r) => do
        let (table, negated) ← match splitProperty body with
          | some (name, value, unequal) =>
            (Unicode.propertyValue? (String.ofList name) (String.ofList value)).map
              (·, negated != unequal)
          | none => (Unicode.property? (String.ofList body)).map (·, negated)
        return (← f.negate? negated (f.close (.table table)), r)
    | c :: r => do
      let table ← Unicode.generalCategory? (Unicode.looseName c.toString)
      return (← f.negate? negated (f.close (.table table)), r)

/-- A word condition by its name in braces, or `\b` alone. -/
def readBoundary (f : Flags) (cs : List Char) : Option (Atom × List Char) :=
  match cs with
  | '\x7b' :: r =>
    let (name, rest) := (skipBlanks f r).span fun c => c.isAlpha || c = '-'
    match String.ofList name, skipBlanks f rest with
    | "start", '\x7d' :: r => some (.look (.wordStart f.ascii), r)
    | "end", '\x7d' :: r => some (.look (.wordEnd f.ascii), r)
    | "start-half", '\x7d' :: r => some (.look (.wordStartHalf f.ascii), r)
    | "end-half", '\x7d' :: r => some (.look (.wordEndHalf f.ascii), r)
    | "", d :: _ => if d = '\x7d' then none else some (.look (.wordBoundary f.ascii), cs)
    | _, _ => none
  | cs => some (.look (.wordBoundary f.ascii), cs)

/-- What follows a backslash. Digits would refer back and are refused, as are letters
without a meaning. -/
def readEscape? (f : Flags) : List Char → Option (Atom × List Char)
  | [] => none
  | c :: cs =>
    match c with
    | 'x' => (readHex? f 2 cs).map fun (c, r) => (.char c, r)
    | 'u' => (readHex? f 4 cs).map fun (c, r) => (.char c, r)
    | 'U' => (readHex? f 8 cs).map fun (c, r) => (.char c, r)
    | 'p' => (readProperty? f false cs).map fun (s, r) => (.set s, r)
    | 'P' => (readProperty? f true cs).map fun (s, r) => (.set s, r)
    | 'a' => some (.char '\x07', cs)
    | 'f' => some (.char '\x0c', cs)
    | 't' => some (.char '\t', cs)
    | 'n' => some (.char '\n', cs)
    | 'r' => some (.char '\r', cs)
    | 'v' => some (.char '\x0b', cs)
    | 'A' => some (.look .textStart, cs)
    | 'z' => some (.look .textEnd, cs)
    | 'b' => readBoundary f cs
    | 'B' => some (.look (.notWordBoundary f.ascii), cs)
    | '<' => some (.look (.wordStart f.ascii), cs)
    | '>' => some (.look (.wordEnd f.ascii), cs)
    | c =>
      match letterClass? f c, letterClass? f c.toLower with
      | some s, _ => some (.set s, cs)
      | none, some s => (f.negate? true s).map fun s => (.set s, cs)
      | none, none => if c.isAlphanum ∨ 0x80 ≤ c.toNat then none else some (.char c, cs)

/-! ### Classes -/

/-- The operations between parts of a class. -/
inductive SetOp where
  | inter
  | diff
  | symmDiff
  deriving DecidableEq, Inhabited, Repr

def SetOp.apply : SetOp → CharSet → CharSet → CharSet
  | inter => .inter
  | diff => .diff
  | symmDiff => .symmDiff

/-- The union of the elements of a class. -/
def unionOf (items : List (Nested CharSet)) : Nested CharSet :=
  ⟨items.foldr (fun i s => .union s i.value) .none, Nested.depthOf items⟩

/-- Completes a pending operation with its right operand. -/
def completeOp (f : Flags) (pending : Option (SetOp × Nested CharSet)) (s : Nested CharSet) :
    Nested CharSet :=
  match pending with
  | none => s
  | some (op, left) =>
    ⟨op.apply (f.close left.value) (f.close s.value), max left.depth s.depth + 1⟩

/-- A class name between colons, after the opening bracket. -/
def readAsciiClass? (f : Flags) : List Char → Option (CharSet × List Char)
  | ':' :: cs =>
    let (negated, cs) := match cs with
      | '^' :: r => (true, r)
      | r => (false, r)
    match cs.span (· ≠ ':') with
    | (name, ':' :: ']' :: r) => do
      let s ← asciiClass? (String.ofList name)
      return (if negated then .compl (f.close s) else f.close s, r)
    | _ => none
  | _ => none

/-- An element of a class: a character or an escape. -/
def readClassAtom? (f : Flags) : List Char → Option (Atom × List Char)
  | [] => none
  | '\\' :: cs => readEscape? f cs
  | c :: cs => some (.char c, cs)

/-- An element of a class, or a range of characters. A hyphen before a bracket or before
another hyphen makes no range. -/
def readClassItem? (f : Flags) (cs : List Char) : Option (CharSet × List Char) := do
  let (first, rest) ← readClassAtom? f cs
  let rest := skipBlanks f rest
  let single : Option (CharSet × List Char) :=
    match first with
    | .char c => (f.char? c).map (·, rest)
    | .set s => some (s, rest)
    | .look _ => none
  match rest with
  | '-' :: r =>
    match skipBlanks f r with
    | [] => none
    | ']' :: _ => single
    | '-' :: _ => single
    | r =>
      let (last, r) ← readClassAtom? f r
      match first, last with
      | .char lo, .char hi =>
        if hi.toNat < lo.toNat ∨ (f.ascii ∧ 0x80 ≤ hi.toNat) then none
        else some (.range lo.toNat hi.toNat, r)
      | _, _ => none
  | _ => single

/-- Hyphens and then a bracket at the start of a class stand for themselves. -/
def readClassStart (f : Flags) (cs : List Char) : List (Nested CharSet) × List Char :=
  let skipped (c : Char) : Bool := c = '-' || (f.ignoreSpace && Unicode.isSpace c)
  let hyphens := (cs.takeWhile skipped).filter (· = '-')
  match hyphens, skipBlanks f (cs.dropWhile skipped) with
  | [], ']' :: r => ([.leaf (.char ']')], r)
  | hs, r => (hs.map fun h => .leaf (.char h), r)

/-- The rest of a class whose elements so far are given backwards, up to its closing
bracket. -/
def readClass? (f : Flags) (fuel : Nat) (negated : Bool)
    (pending : Option (SetOp × Nested CharSet)) (items : List (Nested CharSet)) (cs : List Char) :
    Option (Nested CharSet × List Char) :=
  match fuel with
  | 0 => none
  | fuel + 1 =>
    let operation (op : SetOp) (r : List Char) : Option (Nested CharSet × List Char) :=
      readClass? f fuel negated (some (op, completeOp f pending (unionOf items))) [] r
    match skipBlanks f cs with
    | [] => none
    | ']' :: r => do
      let s := completeOp f pending (unionOf items)
      return (⟨← f.negate? negated (f.close s.value), s.depth + 1⟩, r)
    | '[' :: r =>
      match readAsciiClass? f r with
      | some (s, r) => readClass? f fuel negated pending (.leaf s :: items) r
      | none => do
        let (s, r) ← openClass fuel r
        readClass? f fuel negated pending (s :: items) r
    | '&' :: '&' :: r => operation .inter r
    | '-' :: '-' :: r => operation .diff r
    | '~' :: '~' :: r => operation .symmDiff r
    | cs => do
      let (s, r) ← readClassItem? f cs
      readClass? f fuel negated pending (.leaf s :: items) r
where
  /-- A class after its opening bracket. -/
  openClass (fuel : Nat) (cs : List Char) : Option (Nested CharSet × List Char) :=
    let (negated, cs) := match skipBlanks f cs with
      | '^' :: r => (true, skipBlanks f r)
      | r => (false, r)
    let (items, cs) := readClassStart f cs
    readClass? f fuel negated none items cs

/-! ### Groups, flags and repetitions -/

/-- The part of a group that has been read: the alternatives before the present one and the
elements of the present one, each backwards, and the flags to return to at the end of the
group. Setting flags is an element, but no expression. -/
structure Frame where
  alternatives : List (Nested Regex)
  items : List (Nested (Option Regex))
  outer : Flags
  deriving Inhabited, Repr

namespace Frame

def start (outer : Flags) : Frame := ⟨[], [], outer⟩

def push (fr : Frame) (r : Nested Regex) : Frame :=
  { fr with items := ⟨some r.value, r.depth⟩ :: fr.items }

/-- Records that flags were set. -/
def pushDirective (fr : Frame) : Frame := { fr with items := .leaf none :: fr.items }

/-- The sequence of the present alternative. -/
def sequence (fr : Frame) : Nested Regex :=
  let regex := fr.items.foldl (fun r item =>
    match item.value, r with
    | none, r => r
    | some p, .empty => p
    | some p, r => .seq p r) .empty
  ⟨regex, Nested.depthOf fr.items⟩

/-- Ends an alternative. -/
def nextAlternative (fr : Frame) : Frame :=
  { fr with alternatives := fr.sequence :: fr.alternatives, items := [] }

/-- All alternatives. -/
def finish (fr : Frame) : Nested Regex :=
  let last := fr.sequence
  let regex := fr.alternatives.foldl (fun r a => .alt a.value r) last.value
  ⟨regex, Nested.depthOf (last :: fr.alternatives)⟩

/-- Repeats the last element, if there is one that can be repeated. -/
def repeatLast? (fr : Frame) (min : Nat) (max : Option Nat) : Option Frame :=
  match fr.items with
  | ⟨some r, depth⟩ :: items =>
    some { fr with items := ⟨some (.repeated r min max), depth + 1⟩ :: items }
  | _ => none

end Frame

/-- A reading position: the flags in force, the open groups from the innermost, the names of
groups, and the rest of the pattern. -/
structure Reader where
  flags : Flags
  frame : Frame
  stack : List Frame
  names : List (List Char)
  rest : List Char
  deriving Inhabited, Repr

/-- The leading digits, at most `n` of them, with blanks skipped after each, and what follows
them. -/
def spanCount (f : Flags) : Nat → List Char → List Char × List Char
  | n + 1, c :: cs =>
    if c.isDigit then
      let (ds, rest) := spanCount f n (skipBlanks f cs)
      (c :: ds, rest)
    else ([], c :: cs)
  | _, cs => ([], cs)

/-- A decimal number of 32 bits, between optional blanks. -/
def readCount? (f : Flags) (cs : List Char) : Option (Nat × List Char) :=
  let (ds, rest) := spanCount f cs.length (cs.dropWhile Unicode.isSpace)
  let n := digitsValue ds
  if ds = [] ∨ 4294967295 < n then none else some (n, rest.dropWhile Unicode.isSpace)

/-- Bounds of a repetition after the opening brace, up to the closing one. -/
def readBounds? (f : Flags) (cs : List Char) : Option ((Nat × Option Nat) × List Char) := do
  let (min, r) ← readCount? f (skipBlanks f cs)
  match r with
  | '\x7d' :: r => return ((min, some min), r)
  | ',' :: r =>
    match skipBlanks f r with
    | '\x7d' :: r => return ((min, none), r)
    | r =>
      let (max, r) ← readCount? f r
      match r with
      | '\x7d' :: r => if min ≤ max then return ((min, some max), r) else none
      | _ => none
  | _ => none

/-- Drops the mark of a lazy repetition. -/
def dropLazy : List Char → List Char
  | '?' :: cs => cs
  | cs => cs

/-- Sets or clears a flag by its letter. Greediness is no part of the flags. -/
def setFlag? (f : Flags) (on : Bool) : Char → Option Flags
  | 'i' => some { f with ignoreCase := on }
  | 'm' => some { f with multiLine := on }
  | 's' => some { f with dotAll := on }
  | 'x' => some { f with ignoreSpace := on }
  | 'R' => some { f with crlf := on }
  | 'u' => some { f with ascii := !on }
  | 'U' => some f
  | _ => none

/-- Flag letters up to a colon or a closing parenthesis, each at most once, with a hyphen
before those to clear. The last character tells which of the two it was. -/
def readFlags? (f : Flags) (seen : List Char) (on : Bool) : List Char → Option (Flags × Char × List Char)
  | [] => none
  | c :: cs =>
    if c = ':' ∨ c = ')' then
      if seen.head? = some '-' ∨ (c = ')' ∧ seen = []) then none else some (f, c, cs)
    else if c = '-' then if on then readFlags? f ('-' :: seen) false cs else none
    else if c ∈ seen then none
    else do readFlags? (← setFlag? f on c) (c :: seen) on cs

/-- The name of a group up to its closing bracket. -/
def readName? (cs : List Char) : Option (List Char × List Char) :=
  match cs.span (· ≠ '>') with
  | (c :: name, _ :: r) =>
    let letter (c : Char) := c = '_' || Unicode.alphabetic.contains c
    let other (c : Char) :=
      letter c || c = '.' || c = '[' || c = ']' || Unicode.number.contains c
    if letter c && name.all other then some (c :: name, r) else none
  | _ => none

namespace Reader

/-- Opens a group inside the present one. -/
def openGroup (rd : Reader) (inner : Flags) (rest : List Char) : Reader :=
  { rd with
    flags := inner
    frame := .start rd.flags
    stack := rd.frame :: rd.stack
    rest }

/-- What follows an opening parenthesis: a group of some kind, or flags for the rest of the
present group. Conditions on what lies ahead or behind are refused. -/
def afterParenthesis? (rd : Reader) (cs : List Char) : Option Reader :=
  let named (cs : List Char) : Option Reader := do
    let (name, r) ← readName? cs
    if name ∈ rd.names then none
    else some ({ rd with names := name :: rd.names }.openGroup rd.flags r)
  match skipBlanks rd.flags cs with
  | '?' :: '=' :: _ => none
  | '?' :: '!' :: _ => none
  | '?' :: '<' :: '=' :: _ => none
  | '?' :: '<' :: '!' :: _ => none
  | '?' :: 'P' :: '<' :: r => named r
  | '?' :: '<' :: r => named r
  | '?' :: r => do
    let (f, last, r) ← readFlags? rd.flags [] true r
    if last = ':' then some (rd.openGroup f r)
    else
      some { rd with flags := f, frame := rd.frame.pushDirective, rest := r }
  | r => some (rd.openGroup rd.flags r)

/-- Closes the present group. -/
def closeGroup? (rd : Reader) (rest : List Char) : Option Reader :=
  match rd.stack with
  | [] => none
  | fr :: stack =>
    let group := rd.frame.finish
    let frame := fr.push { group with depth := group.depth + 1 }
    some { rd with flags := rd.frame.outer, frame, stack, rest }

def pushLeaf (rd : Reader) (r : Regex) (rest : List Char) : Reader :=
  { rd with frame := rd.frame.push (.leaf r), rest }

def repeated? (rd : Reader) (min : Nat) (max : Option Nat) (rest : List Char) : Option Reader := do
  return { rd with frame := ← rd.frame.repeatLast? min max, rest := dropLazy rest }

/-- Reads one element of a pattern, whose first character is given. -/
def step? (rd : Reader) (c : Char) (cs : List Char) : Option Reader :=
  let f := rd.flags
  match c with
  | '(' => rd.afterParenthesis? cs
  | ')' => rd.closeGroup? cs
  | '|' => some { rd with frame := rd.frame.nextAlternative, rest := cs }
  | '[' => do
    let (s, r) ← readClass?.openClass f (cs.length + 1) cs
    return { rd with frame := rd.frame.push ⟨.chars s.value, s.depth⟩, rest := r }
  | '?' => rd.repeated? 0 (some 1) cs
  | '*' => rd.repeated? 0 none cs
  | '+' => rd.repeated? 1 none cs
  | '\x7b' => do
    let ((min, max), r) ← readBounds? f cs
    rd.repeated? min max r
  | '.' => f.dot?.map fun s => rd.pushLeaf (.chars s) cs
  | '^' => some (rd.pushLeaf (.look (if f.multiLine then .lineStart f.crlf else .textStart)) cs)
  | '$' => some (rd.pushLeaf (.look (if f.multiLine then .lineEnd f.crlf else .textEnd)) cs)
  | '\\' => do
    let (atom, r) ← readEscape? f cs
    match atom with
    | .char c => (f.char? c).map fun s => rd.pushLeaf (.chars s) r
    | .set s => some (rd.pushLeaf (.chars s) r)
    | .look l => some (rd.pushLeaf (.look l) r)
  | c => (f.char? c).map fun s => rd.pushLeaf (.chars s) cs

/-- Reads element by element to the end of the pattern, at most `fuel` elements. -/
def run? (fuel : Nat) (rd : Reader) : Option (Nested Regex) :=
  match fuel with
  | 0 => none
  | fuel + 1 =>
    match skipBlanks rd.flags rd.rest with
    | [] => if rd.stack.isEmpty then some rd.frame.finish else none
    | c :: cs => (rd.step? c cs).bind (run? fuel)

end Reader

/-- The expression of a pattern. Every element takes a character, so as many elements as
characters suffice.

Conditions on what lies ahead or behind and references back to groups are refused. Classes of
properties are read for general categories, scripts and the properties of `Unicode.properties`, and
refused for all other properties of characters: those with two values such as `Bidi_Control`,
`Diacritic` or `Emoji_Presentation`, and those with more such as `Age`, `Script_Extensions` or
`Word_Break`. -/
def read? (pattern : String) : Option Regex := do
  let cs := pattern.toList
  let r ← Reader.run? (cs.length + 1) ⟨.none, .start .none, [], [], cs⟩
  if r.depth ≤ maxDepth ∧ r.value.weight ≤ maxWeight then some r.value else none

end ShapeTyping.Regex
