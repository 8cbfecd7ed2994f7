import Mathlib
import ShapeTyping.NodeConstraint.Holds
import ShapeTyping.Table

/-!
# Patterns of node constraints

A validator keeps the patterns that it has compiled and matches them again where the same source and
flags come back. A node constraint has the same answer then, and the same error, as one whose
patterns are compiled each time.

* `NodeConstraint.holdsWith`: the evaluation of a node constraint, given how patterns are matched.
* `compilePattern?`, `PatternCache`, `keptMatches?`: patterns that are kept.
* `Recalls`: evaluations that what is kept does not change.
* `NodeConstraint.recalls_holds?`: the evaluation of a node constraint is one of them.
-/

namespace ShapeTyping

/-! ### Evaluation with another way to match patterns -/

section Evaluation

variable {m : Type → Type} [Monad m] [MonadExceptOf ValidationError m]
  (matches? : String → Option String → String → m Bool)

/-- Whether a text satisfies a facet, given how patterns are matched. -/
def StringFacet.holdsWith (text : String) : StringFacet → m Bool
  | length n => pure (text.length = n)
  | minLength n => pure (n ≤ text.length)
  | maxLength n => pure (text.length ≤ n)
  | pattern source flags => matches? source flags text

namespace NodeConstraint

/-- Whether a node satisfies a string facet, given how patterns are matched. -/
def stringFacetHoldsWith (t : Term) (f : StringFacet) : m Bool :=
  match t.lexical? with
  | none => pure false
  | some text => f.holdsWith matches? text

/-- Whether a node satisfies a node constraint, given how patterns are matched. -/
def holdsWith (limits : Limits) (t : Term) (c : NodeConstraint) : m Bool := do
  if !c.kindHolds t then return false
  if !c.datatypeHolds t then return false
  if !(← c.stringFacets.allM (stringFacetHoldsWith matches? t)) then return false
  if !numericFacetsHold t c.numericFacets then return false
  liftExcept (valuesHold? limits t c.values)

end NodeConstraint

end Evaluation

namespace NodeConstraint

theorem allM_stringFacets (limits : Limits) (t : Term) (fs : List StringFacet) :
    fs.allM (stringFacetHoldsWith (patternMatches? limits) t) = stringFacetsHold? limits t fs := by
  induction fs with
  | nil => rfl
  | cons f fs ih =>
    rw [List.allM_cons, ih, stringFacetsHold?, stringFacetHoldsWith]
    cases t.lexical? with
    | none => rfl
    | some text =>
      have hf : f.holdsWith (patternMatches? limits) text = f.holds? limits text := by
        cases f <;> rfl
      simp only [hf]
      cases f.holds? limits text with
      | error e => rfl
      | ok b => cases b <;> rfl

/-- A node constraint is evaluated so if each pattern is compiled where it is used. -/
theorem holdsWith_patternMatches? (limits : Limits) (t : Term) (c : NodeConstraint) :
    holdsWith (patternMatches? limits) limits t c = c.holds? limits t := by
  unfold holdsWith holds?
  rw [allM_stringFacets]
  cases c.kindHolds t with
  | false => rfl
  | true =>
    cases c.datatypeHolds t with
    | false => rfl
    | true =>
      cases stringFacetsHold? limits t c.stringFacets with
      | error e => rfl
      | ok b =>
        cases b with
        | false => rfl
        | true =>
          cases numericFacetsHold t c.numericFacets with
          | false => rfl
          | true => cases valuesHold? limits t c.values <;> rfl

end NodeConstraint

/-! ### Patterns that are kept -/

/-- The compiled form of a pattern, unless it is too long or no pattern. -/
def compilePattern? (limits : Limits) (source : String) (flags : Option String) :
    Except ValidationError Regex :=
  if limits.maxPatternBytes < source.utf8ByteSize then
    .error (.patternTooLong source.utf8ByteSize limits.maxPatternBytes)
  else
    match Regex.read? (flagGroups (flags.getD "") ++ source) with
    | none => .error (.invalidPattern source)
    | some r => .ok r

theorem patternMatches?_eq_map (limits : Limits) (source : String) (flags : Option String)
    (text : String) : patternMatches? limits source flags text =
      (compilePattern? limits source flags).map (·.matchesIn text) := by
  unfold patternMatches? compilePattern?
  split
  · rfl
  · cases Regex.read? (flagGroups (flags.getD "") ++ source) <;> rfl

/-- The patterns compiled so far, each under its source and its flags. -/
abbrev PatternCache := Table (String × Option String) Regex

/-- Matches a pattern that is kept, or compiles it and keeps it. Limits are looked at only where it
is compiled, and a pattern that fails is not kept. -/
def keptMatches? (limits : Limits) (source : String) (flags : Option String) (text : String) :
    EStateM ValidationError PatternCache Bool := fun kept =>
  match kept.get? (source, flags) with
  | some r => .ok (r.matchesIn text) kept
  | none =>
    match compilePattern? limits source flags with
    | .error e => .error e kept
    | .ok r => .ok (r.matchesIn text) (kept.insert (source, flags) r)

/-- Whether all that is kept has been compiled within limits. -/
def PatternCache.Compiled (limits : Limits) (kept : PatternCache) : Prop :=
  ∀ source flags r, kept.get? (source, flags) = some r →
    compilePattern? limits source flags = .ok r

/-- Whether an evaluation that keeps patterns comes to a given answer or error, from any patterns
that have been compiled within limits. It keeps no other ones. -/
def Recalls (limits : Limits) {α : Type} (run : EStateM ValidationError PatternCache α)
    (answer : Except ValidationError α) : Prop :=
  ∀ kept : PatternCache, kept.Compiled limits → ∃ kept' : PatternCache, kept'.Compiled limits ∧
    run kept = match answer with
      | .ok a => .ok a kept'
      | .error e => .error e kept'

section Recalls

variable {limits : Limits} {α β : Type}

theorem Recalls.bind {run : EStateM ValidationError PatternCache α}
    {answer : Except ValidationError α} (h : Recalls limits run answer)
    {next : α → EStateM ValidationError PatternCache β} {answer' : α → Except ValidationError β}
    (h' : ∀ a, Recalls limits (next a) (answer' a)) :
    Recalls limits (run >>= next) (answer >>= answer') := by
  intro kept hkept
  obtain ⟨kept', hkept', hrun⟩ := h kept hkept
  change ∃ kept'', _ ∧ EStateM.bind run next kept = _
  unfold EStateM.bind
  rw [hrun]
  cases answer with
  | error e => exact ⟨kept', hkept', rfl⟩
  | ok a => exact h' a kept' hkept'

theorem recalls_pure (a : α) : Recalls limits (pure a) (pure a) :=
  fun kept hkept => ⟨kept, hkept, rfl⟩

theorem Recalls.ite {run run' : EStateM ValidationError PatternCache α}
    {answer answer' : Except ValidationError α} (h : Recalls limits run answer)
    (h' : Recalls limits run' answer') (b : Bool) :
    Recalls limits (if b then run else run') (if b then answer else answer') := by
  cases b with
  | true => exact h
  | false => exact h'

theorem recalls_liftExcept (answer : Except ValidationError α) :
    Recalls limits (liftExcept answer) (liftExcept answer) := by
  intro kept hkept
  cases answer <;> exact ⟨kept, hkept, rfl⟩

theorem recalls_keptMatches? (source : String) (flags : Option String) (text : String) :
    Recalls limits (keptMatches? limits source flags text)
      (patternMatches? limits source flags text) := by
  intro kept hkept
  rw [patternMatches?_eq_map]
  unfold keptMatches?
  -- a pattern that is kept has been compiled within the limits, which are not looked at again
  cases hget : kept.get? (source, flags) with
  | some r => exact ⟨kept, hkept, by rw [hkept source flags r hget]; rfl⟩
  | none =>
    cases hcompile : compilePattern? limits source flags with
    | error e => exact ⟨kept, hkept, rfl⟩
    | ok r =>
      refine ⟨kept.insert (source, flags) r, ?_, rfl⟩
      intro source' flags' r' hr'
      rw [Table.get?_insert] at hr'
      split at hr'
      · rename_i hkey
        cases hkey
        cases hr'
        exact hcompile
      · exact hkept source' flags' r' hr'

theorem Recalls.allM {p : α → EStateM ValidationError PatternCache Bool}
    {q : α → Except ValidationError Bool} (h : ∀ a, Recalls limits (p a) (q a)) (as : List α) :
    Recalls limits (as.allM p) (as.allM q) := by
  induction as with
  | nil => exact recalls_pure true
  | cons a as ih =>
    rw [List.allM_cons, List.allM_cons]
    exact (h a).bind fun b => ih.ite (recalls_pure false) b

/-- **Patterns that are kept do not change an answer.** -/
theorem NodeConstraint.recalls_holds? (t : Term) (c : NodeConstraint) :
    Recalls limits (holdsWith (keptMatches? limits) limits t c) (c.holds? limits t) := by
  have hfacet : ∀ f, Recalls limits (stringFacetHoldsWith (keptMatches? limits) t f)
      (stringFacetHoldsWith (patternMatches? limits) t f) := by
    intro f
    unfold stringFacetHoldsWith
    cases t.lexical? with
    | none => exact recalls_pure false
    | some text =>
      cases f with
      | pattern source flags => exact recalls_keptMatches? source flags text
      | length n => exact recalls_pure _
      | minLength n => exact recalls_pure _
      | maxLength n => exact recalls_pure _
  have hno : Recalls limits (pure false) (pure false) := recalls_pure false
  rw [← holdsWith_patternMatches?]
  unfold holdsWith
  refine hno.ite (hno.ite ((Recalls.allM hfacet c.stringFacets).bind fun b => ?_) _) _
  exact hno.ite (hno.ite (recalls_liftExcept _) _) _

end Recalls

end ShapeTyping
