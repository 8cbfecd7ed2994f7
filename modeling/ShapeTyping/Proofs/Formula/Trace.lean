import Mathlib
import ShapeTyping.Proofs.Formula.Semantics

/-!
# Traces of a search

A search once more, with a list of what it does under which assignment. In all of these assignments
the variables of a class that are bound are bound to literals of one datatype: each binding is tested
against some other variable of the class only, but the others have the same datatype already. So it
does not matter which of them is found first.

* `SearchEvent`: an evaluation of the sentence, or a test of a candidate.
* `traceSearch`, `Formula.evaluateTraced`: searches with their events.
* `traceSearch_erases`: without the events a traced search is the search.
* `traceCandidates_follows`, `traceSearch_follows`: the rule of same types along a search.
* `Formula.evaluateTraced_sameType`: the datatype that a class has at each event.
-/

namespace ShapeTyping

/-- Something that a search does. -/
inductive SearchEvent where
  /-- The sentence is evaluated under an assignment. -/
  | evaluates (a : Assignment)
  /-- It is tested whether a variable may be bound to a term, next to an assignment. -/
  | tests (v : Variable) (t : Term) (a : Assignment)
  deriving DecidableEq, Repr

/-- The assignment at hand. -/
def SearchEvent.assignment : SearchEvent → Assignment
  | evaluates a => a
  | tests _ _ a => a

/-- A state of a search and what happened before. -/
structure SearchTrace where
  state : SearchState
  events : List SearchEvent

abbrev TracedSearch := EStateM FormulaError SearchTrace

namespace SearchTrace

def emit (s : SearchTrace) (e : SearchEvent) : SearchTrace := { s with events := s.events ++ [e] }

def withAssignment (s : SearchTrace) (a : Assignment) : SearchTrace :=
  { s with state := { s.state with assignment := a } }

/-- The sentence is evaluated, and the assignment is written down. -/
def evaluated (s : SearchTrace) : SearchTrace :=
  { s.emit (.evaluates s.state.assignment) with
    state := { s.state with last := s.state.assignment } }

end SearchTrace

/-! ### Traced searches -/

/-- Tests the candidates one by one, and binds the variable of a quantifier to those that pass. -/
def traceCandidates (f : Formula) (q : Quantifier) (next : TracedSearch Truth) :
    List Term → TracedSearch Truth
  | [] => fun s => .ok q.default (s.withAssignment (s.state.assignment.erase q.var))
  | t :: ts => fun s =>
    let s := s.emit (.tests q.var t s.state.assignment)
    if f.isAdmissible q.var t s.state.assignment then
      match next (s.withAssignment (s.state.assignment.insert q.var t)) with
      | .error e s => .error e s
      | .ok r s =>
        if q.isDecided r then .ok r (s.withAssignment (s.state.assignment.erase q.var))
        else traceCandidates f q next ts s
    else traceCandidates f q next ts s

/-- Evaluates the sentence, and continues with the candidates of the first quantifier as long as it
is undecided. -/
def traceSearch (f : Formula) (facts : Facts) (candidates : List Term) :
    List Quantifier → TracedSearch Truth
  | [] => fun s =>
    match f.sentence.evaluate facts s.state.assignment with
    | .error e => .error e s.evaluated
    | .ok t => .ok t s.evaluated
  | q :: qs => fun s =>
    match f.sentence.evaluate facts s.state.assignment with
    | .error e => .error e s.evaluated
    | .ok .undecided =>
      traceCandidates f q (traceSearch f facts candidates qs) candidates s.evaluated
    | .ok t => .ok t s.evaluated

/-- An evaluation with its events. -/
def Formula.evaluateTraced (f : Formula) (facts : Facts) (candidates : List Term) :
    Outcome × List SearchEvent :=
  match traceSearch f facts candidates f.quantifiers ⟨⟨[], []⟩, []⟩ with
  | .ok t s => (⟨.ok (t = .yes), s.state.last⟩, s.events)
  | .error e s => (⟨.error e, s.state.last⟩, s.events)

/-! ### Erasure of events -/

/-- The result of a traced search without the events. -/
def eraseEvents : EStateM.Result FormulaError SearchTrace Truth →
    EStateM.Result FormulaError SearchState Truth
  | .ok t s => .ok t s.state
  | .error e s => .error e s.state

section Erasure

variable {f : Formula} {facts : Facts} {candidates : List Term} {q : Quantifier}

theorem traceCandidates_cons {next : TracedSearch Truth} {t : Term} {ts : List Term}
    {s : SearchTrace} :
    traceCandidates f q next (t :: ts) s =
      if f.isAdmissible q.var t s.state.assignment then
        match next ((s.emit (.tests q.var t s.state.assignment)).withAssignment
            (s.state.assignment.insert q.var t)) with
        | .error e s => .error e s
        | .ok r s =>
          if q.isDecided r then .ok r (s.withAssignment (s.state.assignment.erase q.var))
          else traceCandidates f q next ts s
      else traceCandidates f q next ts (s.emit (.tests q.var t s.state.assignment)) := rfl

theorem traceCandidates_erases {next' : TracedSearch Truth} {next : Search Truth}
    (h : ∀ s, eraseEvents (next' s) = next s.state) (ts : List Term) (s : SearchTrace) :
    eraseEvents (traceCandidates f q next' ts s) = tryCandidates f q next ts s.state := by
  induction ts generalizing s with
  | nil => rfl
  | cons t ts ih =>
    rw [traceCandidates_cons, tryCandidates_cons]
    by_cases hadm : f.isAdmissible q.var t s.state.assignment = true
    · have hnext := h ((s.emit (.tests q.var t s.state.assignment)).withAssignment
        (s.state.assignment.insert q.var t))
      rw [if_pos hadm, if_pos hadm]
      simp only [SearchTrace.withAssignment, SearchTrace.emit] at hnext ⊢
      rw [← hnext]
      rcases next' _ with ⟨r, u⟩ | ⟨e, u⟩
      · simp only [eraseEvents]
        by_cases hdecided : q.isDecided r = true
        · rw [if_pos hdecided, if_pos hdecided]
        · rw [if_neg hdecided, if_neg hdecided, ← ih u]
          rfl
      · rfl
    · rw [if_neg hadm, if_neg hadm]
      exact ih _

/-- **A traced search without the events** is the search. -/
theorem traceSearch_erases (qs : List Quantifier) (s : SearchTrace) :
    eraseEvents (traceSearch f facts candidates qs s) = search f facts candidates qs s.state := by
  induction qs generalizing s with
  | nil =>
    rw [traceSearch, search_nil]
    beta_reduce
    cases f.sentence.evaluate facts s.state.assignment <;> rfl
  | cons q qs ih =>
    rw [traceSearch, search_cons]
    beta_reduce
    rcases f.sentence.evaluate facts s.state.assignment with e | t
    · rfl
    · cases t with
      | yes => rfl
      | no => rfl
      | undecided => exact traceCandidates_erases ih candidates s.evaluated

/-- **A traced evaluation without the events** is the evaluation. -/
theorem Formula.evaluateTraced_fst (f : Formula) (facts : Facts) (candidates : List Term) :
    (f.evaluateTraced facts candidates).1 = f.evaluate facts candidates := by
  have h : eraseEvents (traceSearch f facts candidates f.quantifiers ⟨⟨[], []⟩, []⟩) =
      search f facts candidates f.quantifiers ⟨[], []⟩ := traceSearch_erases _ _
  rw [evaluateTraced, evaluate, ← h]
  cases traceSearch f facts candidates f.quantifiers ⟨⟨[], []⟩, []⟩ <;> rfl

end Erasure

/-! ### The rule of same types along a search -/

section Follows

variable {f : Formula} {facts : Facts} {candidates : List Term} {q : Quantifier}
  {next : TracedSearch Truth} {a : Assignment} {s : SearchTrace}

/-- A variable that is unbound breaks no rule. -/
theorem Formula.Typed.erase (h : f.Typed candidates a) (v : Variable) :
    f.Typed candidates (a.erase v) := by
  have hkept : ∀ u t, (a.erase v).get? u = some t → a.get? u = some t := by
    intro u t hu
    rw [Table.get?_erase] at hu
    split at hu
    · cases hu
    · exact hu
  exact ⟨fun u t hu => h.mem u t (hkept u t hu),
    fun u t hlinked hu => h.literal u t hlinked (hkept u t hu),
    fun u w l l' hlinked hu hw => h.datatype u w l l' hlinked (hkept u _ hu) (hkept w _ hw)⟩

/-- Whether the rule holds now and did so at each event before. -/
structure SearchTrace.Follows (f : Formula) (candidates : List Term) (s : SearchTrace) : Prop where
  now : f.Typed candidates s.state.assignment
  before : ∀ e ∈ s.events, f.Typed candidates e.assignment

namespace SearchTrace.Follows

theorem emit (h : s.Follows f candidates) {e : SearchEvent}
    (he : e.assignment = s.state.assignment) : (s.emit e).Follows f candidates := by
  refine ⟨h.now, fun e' he' => ?_⟩
  rcases List.mem_append.1 he' with he' | he'
  · exact h.before e' he'
  · rw [List.mem_singleton.1 he', he]
    exact h.now

theorem evaluated (h : s.Follows f candidates) : s.evaluated.Follows f candidates :=
  ⟨h.now, (h.emit (e := .evaluates s.state.assignment) rfl).before⟩

theorem withAssignment (h : s.Follows f candidates) (ha : f.Typed candidates a) :
    (s.withAssignment a).Follows f candidates := ⟨ha, h.before⟩

end SearchTrace.Follows

/-- The state that a traced search ends in. -/
def finalTrace : EStateM.Result FormulaError SearchTrace Truth → SearchTrace
  | .ok _ s => s
  | .error _ s => s

/-- **The candidates of a quantifier**: the rule is kept if what comes after them keeps it, also if
the variable is bound already. -/
theorem traceCandidates_follows
    (hnext : ∀ s : SearchTrace, s.Follows f candidates → (finalTrace (next s)).Follows f candidates)
    {ts : List Term} (hts : ts ⊆ candidates) (hs : s.Follows f candidates) :
    (finalTrace (traceCandidates f q next ts s)).Follows f candidates := by
  induction ts generalizing s with
  | nil => exact hs.withAssignment (hs.now.erase q.var)
  | cons t ts ih =>
    obtain ⟨ht, hts⟩ := List.cons_subset.1 hts
    have htested := hs.emit (e := .tests q.var t s.state.assignment) rfl
    rw [traceCandidates_cons]
    split
    · rename_i hadm
      -- the test looks at the other variables, so a value from before does not matter
      have hadmits := (hs.now.isAdmissible_iff q.var t).1 hadm
      have hrest := hnext _ (htested.withAssignment (hs.now.insert ht hadmits))
      revert hrest
      rcases next _ with ⟨r, u⟩ | ⟨e, u⟩
      · intro hrest
        simp only
        split
        · exact hrest.withAssignment (hrest.now.erase q.var)
        · exact ih hts hrest
      · exact id
    · exact ih hts htested

/-- **Along a search** the rule of same types holds, whatever the quantifiers, and also if the search
ends with an error. -/
theorem traceSearch_follows (qs : List Quantifier) (hs : s.Follows f candidates) :
    (finalTrace (traceSearch f facts candidates qs s)).Follows f candidates := by
  induction qs generalizing s with
  | nil =>
    rw [traceSearch]
    beta_reduce
    cases f.sentence.evaluate facts s.state.assignment <;> exact hs.evaluated
  | cons q qs ih =>
    rw [traceSearch]
    beta_reduce
    rcases f.sentence.evaluate facts s.state.assignment with e | t
    · exact hs.evaluated
    · cases t with
      | yes => exact hs.evaluated
      | no => exact hs.evaluated
      | undecided =>
        exact traceCandidates_follows (fun _ => ih) (List.Subset.refl _) hs.evaluated

end Follows

/-! ### The datatype of a class -/

/-- What is found first in a list does not depend on its order if only one thing can be found. -/
theorem findSome?_eq_of_mem_iff {α β : Type} {g : α → Option β} {us us' : List α}
    (hmem : ∀ u, u ∈ us' ↔ u ∈ us)
    (hone : ∀ u ∈ us, ∀ w ∈ us, ∀ b c, g u = some b → g w = some c → b = c) :
    us'.findSome? g = us.findSome? g := by
  cases hfind : us.findSome? g with
  | none =>
    rw [List.findSome?_eq_none_iff] at hfind ⊢
    exact fun u hu => hfind u ((hmem u).1 hu)
  | some b =>
    obtain ⟨u, hu, hb⟩ := List.exists_of_findSome?_eq_some hfind
    cases hfind' : us'.findSome? g with
    | none =>
      rw [List.findSome?_eq_none_iff.1 hfind' u ((hmem u).2 hu)] at hb
      cases hb
    | some c =>
      obtain ⟨w, hw, hc⟩ := List.exists_of_findSome?_eq_some hfind'
      rw [hone u hu w ((hmem w).1 hw) b c hb hc]

namespace Formula

variable {f : Formula} {candidates : List Term} {a : Assignment}

/-- The variables of a class that are bound have one datatype. -/
theorem Typed.exists_datatype (h : f.Typed candidates a) {C : List Variable} (hC : C ∈ f.classes) :
    ∃ d, ∀ u ∈ C, ∀ t, a.get? u = some t → ∃ l, t = .literal l ∧ l.datatype = d := by
  have hlinked : ∀ u ∈ C, ∀ w ∈ C, f.Linked u w := fun u hu w hw =>
    (f.represents_classes.mem_iff C hC u hu w).1 hw
  by_cases hbound : ∃ u ∈ C, ∃ t, a.get? u = some t
  · obtain ⟨u, hu, t, ht⟩ := hbound
    obtain ⟨l, rfl⟩ := h.literal u t (hlinked u hu u hu) ht
    refine ⟨l.datatype, fun w hw t' ht' => ?_⟩
    obtain ⟨l', rfl⟩ := h.literal w t' (hlinked w hw w hw) ht'
    exact ⟨l', rfl, h.datatype w u l' l (hlinked w hw u hu) ht' ht⟩
  · exact ⟨default, fun u hu t ht => absurd ⟨u, hu, t, ht⟩ hbound⟩

/-- **The datatype that a candidate is tested against** is the same for each order of the class. -/
theorem Typed.findSome?_datatype? (h : f.Typed candidates a) {v : Variable}
    {others order : List Variable} (hothers : f.sameType? v = some others)
    (horder : ∀ u, u ∈ order ↔ u ∈ others) :
    order.findSome? a.datatype? = others.findSome? a.datatype? := by
  refine findSome?_eq_of_mem_iff horder fun u hu w hw d d' hd hd' => ?_
  obtain ⟨l, hl, rfl⟩ := Assignment.datatype?_eq_some.1 hd
  obtain ⟨l', hl', rfl⟩ := Assignment.datatype?_eq_some.1 hd'
  have hvu := ((mem_of_sameType? hothers).1 hu).2
  have hvw := ((mem_of_sameType? hothers).1 hw).2
  exact h.datatype u w l l' (hvu.symm.trans hvw) hl hl'

/-- **The rule of same types holds along every search.** Whenever the sentence is evaluated, and
whenever a candidate is tested, the variables of a class that are bound are bound to literals of one
datatype. So the datatype that is found for a variable does not depend on the order in which the
other variables of its class are looked at. The events are those of the evaluation, which has the
same outcome with them. -/
theorem evaluateTraced_sameType (f : Formula) (facts : Facts) (candidates : List Term) :
    (f.evaluateTraced facts candidates).1 = f.evaluate facts candidates ∧
    ∀ e ∈ (f.evaluateTraced facts candidates).2,
      (∀ C ∈ f.classes, ∃ d, ∀ u ∈ C, ∀ t, e.assignment.get? u = some t →
        ∃ l, t = .literal l ∧ l.datatype = d) ∧
      ∀ v others, f.sameType? v = some others → ∀ order : List Variable,
        (∀ u, u ∈ order ↔ u ∈ others) →
          order.findSome? e.assignment.datatype? = others.findSome? e.assignment.datatype? := by
  refine ⟨f.evaluateTraced_fst facts candidates, fun e he => ?_⟩
  have hstart : SearchTrace.Follows f candidates ⟨⟨[], []⟩, []⟩ := ⟨.nil, by simp⟩
  have hend : (finalTrace (traceSearch f facts candidates f.quantifiers _)).Follows f candidates :=
    traceSearch_follows f.quantifiers hstart
  have htyped : f.Typed candidates e.assignment := by
    refine hend.before e ?_
    rw [evaluateTraced] at he
    cases hrun : traceSearch f facts candidates f.quantifiers ⟨⟨[], []⟩, []⟩ <;>
      simpa [hrun, finalTrace] using he
  exact ⟨fun C hC => htyped.exists_datatype hC,
    fun v others hothers order horder => htyped.findSome?_datatype? hothers horder⟩

/-- A chain of comparisons, where the first variable is quantified over once more. -/
def boundOnceMore : Formula :=
  ⟨[.existential ⟨"x"⟩, .existential ⟨"y"⟩, .existential ⟨"x"⟩, .existential ⟨"z"⟩],
    .and [.compare .less (.var ⟨"x"⟩) (.var ⟨"y"⟩), .compare .less (.var ⟨"y"⟩) (.var ⟨"z"⟩)]⟩

/-- The second number is tested for the last variable, which is still bound to the first one. -/
theorem evaluateTraced_sameType_boundOnceMore :
    let candidates : List Term :=
      [.literal (.typed "s" Xsd.string), integerTerm "1", integerTerm "2"]
    let a : Assignment :=
      [(⟨"z"⟩, integerTerm "1"), (⟨"x"⟩, integerTerm "1"), (⟨"y"⟩, integerTerm "2")]
    .tests ⟨"z"⟩ (integerTerm "2") a ∈ (boundOnceMore.evaluateTraced ⟨[], []⟩ candidates).2 ∧
      boundOnceMore.sameType? ⟨"z"⟩ = some [⟨"y"⟩, ⟨"x"⟩] ∧
      [⟨"x"⟩, ⟨"y"⟩].findSome? a.datatype? = [⟨"y"⟩, ⟨"x"⟩].findSome? a.datatype? ∧
      ∃ d, ∀ u ∈ [⟨"y"⟩, ⟨"z"⟩, ⟨"x"⟩], ∀ t, a.get? u = some t →
        ∃ l, t = .literal l ∧ l.datatype = d := by
  intro candidates a
  have hmem : .tests ⟨"z"⟩ (integerTerm "2") a ∈
      (boundOnceMore.evaluateTraced ⟨[], []⟩ candidates).2 := by decide +kernel
  have hothers : boundOnceMore.sameType? ⟨"z"⟩ = some [⟨"y"⟩, ⟨"x"⟩] := by decide +kernel
  obtain ⟨-, hevents⟩ := evaluateTraced_sameType boundOnceMore ⟨[], []⟩ candidates
  obtain ⟨hclass, horder⟩ := hevents _ hmem
  refine ⟨hmem, hothers, horder _ _ hothers _ fun u => ?_, hclass _ (by decide +kernel)⟩
  simp only [List.mem_cons, List.not_mem_nil, or_false]
  exact or_comm

end Formula

end ShapeTyping
