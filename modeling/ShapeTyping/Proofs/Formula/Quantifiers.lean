import Mathlib
import ShapeTyping.Proofs.Formula.LastAssignment

/-!
# Laws of quantifiers

The two quantifiers are decided by different results, but they are dual to each other: a search for
the dual formula goes through the same assignments and has the opposite result each time. This is so
because an undecided result, which both quantifiers treat as one that is not true, never comes back
from a search that binds all variables, even if some of them are quantified over more than once.

* `search_cases`, `search_keeps`: how a search ends, and what it leaves as it is.
* `Covers`, `search_decided`: a search that binds all variables comes back decided.
* `Quantifier.dual`, `Formula.dual`: the dual of a formula.
* `tryCandidates_dual`, `search_dual`: one quantifier, and all of them.
* `Formula.evaluate_dual`: the evaluation of the dual formula.
* `Formula.evaluate_noCandidates`, `evaluate_decidedFirst`: quantifiers over nothing.
-/

namespace ShapeTyping

variable {f : Formula} {facts : Facts} {candidates : List Term} {q : Quantifier}
  {next next' : Search Truth} {r : Truth} {a last : Assignment} {s s' : SearchState}

/-! ### Searches that bind all variables -/

/-- **How a search with a result ends**: at once with the value of the sentence, or as its first
quantifier ends. -/
theorem search_cases {qs : List Quantifier} (hrun : search f facts candidates qs s = .ok r s') :
    (s' = ⟨s.assignment, s.assignment⟩ ∧ f.sentence.evaluate facts s.assignment = .ok r ∧
      (r = .undecided → qs = [])) ∨
    ∃ q qs', qs = q :: qs' ∧ tryCandidates f q (search f facts candidates qs') candidates
      ⟨s.assignment, s.assignment⟩ = .ok r s' := by
  cases hr : f.sentence.evaluate facts s.assignment with
  | error e => cases qs <;> simp [search_nil, search_cons, hr] at hrun
  | ok t =>
    by_cases ht : t = .undecided
    · subst ht
      cases qs with
      | nil =>
        simp only [search_nil, hr] at hrun
        cases hrun
        exact .inl ⟨rfl, rfl, fun _ => rfl⟩
      | cons q qs =>
        simp only [search_cons, hr] at hrun
        exact .inr ⟨q, qs, rfl, hrun⟩
    · rw [search_of_decided hr ht] at hrun
      cases hrun
      exact .inl ⟨rfl, rfl, fun h => absurd h ht⟩

/-- **A search leaves the variables that it does not bind** as they are. -/
theorem search_keeps {qs : List Quantifier} (hrun : search f facts candidates qs s = .ok r s')
    {u : Variable} (hu : u ∉ qs.map (·.var)) : s'.assignment.get? u = s.assignment.get? u := by
  induction qs generalizing s r s' with
  | nil =>
    obtain ⟨rfl, -⟩ | ⟨q, qs, hqs, -⟩ := search_cases hrun
    · rfl
    · cases hqs
  | cons q qs ih =>
    obtain ⟨rfl, -⟩ | ⟨_, _, hqs, htry⟩ := search_cases hrun
    · rfl
    cases hqs
    rw [List.map_cons, List.mem_cons, not_or] at hu
    obtain ⟨huq, hu⟩ := hu
    have hnext : ∀ t r (w w' : SearchState), w.assignment.get? u = s.assignment.get? u →
        search f facts candidates qs ⟨w.assignment.insert q.var t, w.last⟩ = .ok r w' →
          w'.assignment.get? u = s.assignment.get? u := by
      intro t r w w' hw hrest
      rw [ih hrest hu, Table.get?_insert, if_neg huq, hw]
    rcases tryCandidates_ends (I := fun w => w.assignment.get? u = s.assignment.get? u)
      (s := ⟨s.assignment, s.assignment⟩) hnext rfl htry
      with ⟨-, w, hw, rfl⟩ | ⟨-, t, w, w', hw, hrest, rfl⟩
    · rw [Table.get?_erase, if_neg huq, hw]
    · rw [Table.get?_erase, if_neg huq, hnext t r w w' hw hrest]

/-- Whether the variables of a sentence are bound, but for some that are yet to be bound. -/
def Covers (f : Formula) (vs : List Variable) (a : Assignment) : Prop :=
  ∀ v ∈ f.sentence.vars, v ∉ vs → a.get? v ≠ none

namespace Covers

variable {v : Variable} {vs : List Variable}

/-- A variable that is bound now need not be bound later. -/
theorem insert (h : Covers f (v :: vs) a) (t : Term) : Covers f vs (a.insert v t) := by
  intro u hu hvs
  rw [Table.get?_insert]
  split
  · simp
  · rename_i huv
    exact h u hu (by simp [huv, hvs])

/-- **What comes after a quantifier** leaves the variables bound that it has found bound. -/
theorem tried {qs : List Quantifier} (h : Covers f (v :: qs.map (·.var)) a) {t : Term}
    (hrun : search f facts candidates qs ⟨a.insert v t, last⟩ = .ok r s') :
    Covers f (v :: qs.map (·.var)) s'.assignment := by
  intro u hu hvs
  rw [List.mem_cons, not_or] at hvs
  rw [search_keeps hrun hvs.2, Table.get?_insert, if_neg hvs.1]
  exact h u hu (by simp [hvs])

end Covers

/-- **A search that binds all variables has a decided result.** The last quantifier of a variable
gives it a value, and no quantifier after it takes the value away. -/
theorem search_decided {qs : List Quantifier} (h : Covers f (qs.map (·.var)) s.assignment)
    (hrun : search f facts candidates qs s = .ok r s') : r ≠ .undecided := by
  induction qs generalizing s r s' with
  | nil =>
    obtain ⟨-, hr, -⟩ | ⟨q, qs, hqs, -⟩ := search_cases hrun
    · exact (Sentence.decides_of_bound f.sentence (fun v hv => h v hv (by simp)) hr).1
    · cases hqs
  | cons q qs ih =>
    obtain ⟨-, -, hdecided⟩ | ⟨_, _, hqs, htry⟩ := search_cases hrun
    · exact fun hr => by cases hdecided hr
    cases hqs
    -- between two candidates the variables that are bound before stay bound
    have h : Covers f (q.var :: qs.map (·.var)) s.assignment := h
    rcases tryCandidates_ends (I := fun w => Covers f (q.var :: qs.map (·.var)) w.assignment)
      (s := ⟨s.assignment, s.assignment⟩) (fun t r w w' hw hrest => Covers.tried hw hrest) h htry
      with ⟨rfl, -⟩ | ⟨-, t, w, w', hw, hrest, -⟩
    · exact q.default_ne_undecided
    · exact ih (Covers.insert hw t) hrest

/-! ### Duality -/

namespace Quantifier

/-- The other quantifier for the same variable. -/
def dual : Quantifier → Quantifier
  | universal v => existential v
  | existential v => universal v

@[simp]
theorem var_dual (q : Quantifier) : q.dual.var = q.var := by cases q <;> rfl

@[simp]
theorem default_dual (q : Quantifier) : q.dual.default = q.default.not := by cases q <;> rfl

/-- A decided result decides one quantifier if the opposite decides the other. -/
theorem isDecided_dual (q : Quantifier) (hr : r ≠ .undecided) :
    q.dual.isDecided r.not = q.isDecided r := by
  cases q <;> cases r <;> simp_all [dual, isDecided, Truth.not]

end Quantifier

/-- The formula with the other quantifiers and the negation of its sentence. -/
def Formula.dual (f : Formula) : Formula := ⟨f.quantifiers.map (·.dual), .not f.sentence⟩

theorem Formula.evaluate_sentence_dual (f : Formula) : f.dual.sentence.evaluate facts a =
    (f.sentence.evaluate facts a).map (·.not) := by
  rw [Formula.dual, Sentence.evaluate]

/-- A negation restricts what its sentence does. -/
@[simp]
theorem Formula.isAdmissible_dual (f : Formula) : f.dual.isAdmissible = f.isAdmissible := by
  have hclasses : f.dual.classes = f.classes := by
    rw [classes, classes, dual, Sentence.restricted]
  funext v t a
  rw [isAdmissible_eq, isAdmissible_eq, sameType?, sameType?, hclasses]

/-- The result with the opposite truth value, in the same state. -/
def oppositeResult : EStateM.Result FormulaError SearchState Truth →
    EStateM.Result FormulaError SearchState Truth
  | .ok t s => .ok t.not s
  | .error e s => .error e s

/-- **The candidates of a quantifier** are tried as those of the dual one are, if what comes after
them has opposite and decided results. -/
theorem tryCandidates_dual {I : SearchState → Prop}
    (hnext : ∀ t u, I u → next' ⟨u.assignment.insert q.var t, u.last⟩ =
      oppositeResult (next ⟨u.assignment.insert q.var t, u.last⟩))
    (hkeep : ∀ t r u u', I u → next ⟨u.assignment.insert q.var t, u.last⟩ = .ok r u' →
      r ≠ .undecided ∧ I u')
    (ts : List Term) (hs : I s) :
    tryCandidates f.dual q.dual next' ts s = oppositeResult (tryCandidates f q next ts s) := by
  induction ts generalizing s with
  | nil => simp only [tryCandidates_nil, q.var_dual, q.default_dual, oppositeResult]
  | cons t ts ih =>
    rw [tryCandidates_cons, tryCandidates_cons, f.isAdmissible_dual, q.var_dual, hnext t s hs]
    split
    · cases hrest : next ⟨s.assignment.insert q.var t, s.last⟩ with
      | error e u => rfl
      | ok r u =>
        -- an undecided result would end the universal quantifier and not the existential one
        obtain ⟨hr, hu⟩ := hkeep t r s u hs hrest
        simp only [oppositeResult, q.isDecided_dual hr]
        split
        · rfl
        · exact ih hu
    · exact ih hs

/-- **A search for the dual formula** ends in the same state with the opposite result, or with the
same error. -/
theorem search_dual {qs : List Quantifier} (h : Covers f (qs.map (·.var)) s.assignment) :
    search f.dual facts candidates (qs.map (·.dual)) s =
      oppositeResult (search f facts candidates qs s) := by
  induction qs generalizing s with
  | nil =>
    rw [List.map_nil, search_nil, search_nil, f.evaluate_sentence_dual]
    cases f.sentence.evaluate facts s.assignment <;> rfl
  | cons q qs ih =>
    rw [List.map_cons, search_cons, search_cons, f.evaluate_sentence_dual]
    cases hr : f.sentence.evaluate facts s.assignment with
    | error e => rfl
    | ok t =>
      cases t with
      | yes => rfl
      | no => rfl
      | undecided =>
        have h : Covers f (q.var :: qs.map (·.var)) s.assignment := h
        refine tryCandidates_dual (I := fun w => Covers f (q.var :: qs.map (·.var)) w.assignment)
          (fun t w hw => ih (Covers.insert hw t)) (fun t r w w' hw hrest => ?_) candidates h
        exact ⟨search_decided (Covers.insert hw t) hrest, Covers.tried hw hrest⟩

namespace Formula

/-- **Quantifier duality.** Let the sentence of a formula mention quantified variables only, and let
the quantifiers be any, also with a variable more than once. With the other quantifiers and the
negation of its sentence it evaluates to the opposite, or to the same error, and leaves the same last
assignment, whatever the candidates. -/
theorem evaluate_dual (f : Formula) (facts : Facts) (candidates : List Term)
    (hclosed : ∀ v ∈ f.sentence.vars, v ∈ f.quantifiers.map (·.var)) :
    (f.dual.evaluate facts candidates).result =
        (f.evaluate facts candidates).result.map (!·) ∧
      (f.dual.evaluate facts candidates).last = (f.evaluate facts candidates).last := by
  have hcovers : Covers f (f.quantifiers.map (·.var)) [] :=
    fun v hv hnot => absurd (hclosed v hv) hnot
  have hdual : search f.dual facts candidates f.dual.quantifiers ⟨[], []⟩ =
      oppositeResult (search f facts candidates f.quantifiers ⟨[], []⟩) := search_dual hcovers
  rw [evaluate, evaluate, hdual]
  cases hrun : search f facts candidates f.quantifiers ⟨[], []⟩ with
  | error e s => exact ⟨rfl, rfl⟩
  | ok r s =>
    refine ⟨?_, rfl⟩
    have hr : r ≠ .undecided := search_decided hcovers hrun
    cases r with
    | yes => rfl
    | no => rfl
    | undecided => exact absurd rfl hr

/-- A variable that is quantified over once more: the dual formula loses its value in the same
way. -/
theorem evaluate_dual_quantifiedOnceMore :
    (∀ v ∈ quantifiedOnceMore.sentence.vars, v ∈ quantifiedOnceMore.quantifiers.map (·.var)) ∧
    (quantifiedOnceMore.dual.evaluate ⟨[], []⟩
      [integerTerm "1", .literal (.typed "s" Xsd.string)]).result = .ok false ∧
    (quantifiedOnceMore.dual.evaluate ⟨[], []⟩
      [integerTerm "1", .literal (.typed "s" Xsd.string)]).last.get? ⟨"y"⟩ =
        some (.literal (.typed "s" Xsd.string)) := by
  have hclosed : ∀ v ∈ quantifiedOnceMore.sentence.vars,
      v ∈ quantifiedOnceMore.quantifiers.map (·.var) := by decide
  obtain ⟨hresult, hlast⟩ := evaluate_dual quantifiedOnceMore ⟨[], []⟩
    [integerTerm "1", .literal (.typed "s" Xsd.string)] hclosed
  have htrue : (quantifiedOnceMore.evaluate ⟨[], []⟩
      [integerTerm "1", .literal (.typed "s" Xsd.string)]).result = .ok true := by decide +kernel
  refine ⟨hclosed, ?_, ?_⟩
  · rw [hresult, htrue]
    rfl
  · rw [hlast]
    decide +kernel

/-! ### No candidates -/

/-- **Quantifiers over nothing.** Without candidates a formula that has a quantifier, and no variable
that stands for a sentence, has a result. If the sentence is true, or false, whatever its variables
are bound to, the result is the same. Otherwise it is true if the first quantifier is universal. -/
theorem evaluate_noCandidates (f : Formula) (facts : Facts) (hquantified : f.quantifiers ≠ [])
    (hbare : f.sentence.bare = []) :
    ∃ b, (f.evaluate facts []).result = .ok b ∧
      (b = true ↔ (∀ a, f.sentence.evaluate facts a = .ok .yes) ∨
        (∃ v, f.quantifiers.head? = some (.universal v)) ∧
          ¬∀ a, f.sentence.evaluate facts a = .ok .no) := by
  obtain ⟨t, ht⟩ : ∃ t, f.sentence.evaluate facts [] = .ok t := f.sentence.evaluate_ok hbare
  -- a value that the sentence has with no variable bound is the one it has always
  have hdecided : ∀ r ≠ .undecided, (∀ a, f.sentence.evaluate facts a = .ok r) ↔ t = r := by
    intro r hr
    constructor
    · intro h
      exact Except.ok.inj (ht.symm.trans (h []))
    · rintro rfl a
      obtain ⟨t', ht', hrefines⟩ :=
        Sentence.evaluate_mono (b := a) (fun _ _ hv => by cases hv) f.sentence ht
      rw [ht', hrefines.eq_of_ne_undecided hr]
  rw [hdecided .yes (by decide), hdecided .no (by decide)]
  by_cases hne : t = .undecided
  · subst hne
    obtain ⟨q, qs, hqs⟩ := List.exists_cons_of_ne_nil hquantified
    refine ⟨q.isUniversal, ?_, ?_⟩
    · rw [evaluate, hqs, search_cons]
      simp only [ht, tryCandidates_nil]
      cases q <;> rfl
    · rw [hqs, List.head?_cons]
      cases q <;> simp [Quantifier.isUniversal]
  · refine ⟨decide (t = .yes), ?_, ?_⟩
    · rw [evaluate, search_of_decided ht hne]
    · cases t <;> simp_all

theorem evaluate_noCandidates_greaterThanBoth :
    greaterThanBoth.quantifiers ≠ [] ∧ greaterThanBoth.sentence.bare = [] ∧
      (greaterThanBoth.evaluate ⟨[], []⟩ []).result = .ok true := by
  refine ⟨by decide, rfl, ?_⟩
  obtain ⟨b, hb, hiff⟩ := evaluate_noCandidates greaterThanBoth ⟨[], []⟩ (by decide) rfl
  have hopen : ¬∀ a, greaterThanBoth.sentence.evaluate ⟨[], []⟩ a = .ok .no := fun h =>
    absurd (h []) (by decide +kernel)
  rw [hb, hiff.2 (.inr ⟨⟨_, rfl⟩, hopen⟩)]

/-- Some value is less than one, or one is less than two. -/
def lessOrTrue : Formula :=
  ⟨[.existential ⟨"x"⟩],
    .or [.compare .less (.var ⟨"x"⟩) (.const (integerTerm "1")),
      .compare .less (.const (integerTerm "1")) (.const (integerTerm "2"))]⟩

end Formula

/-- **A sentence that is decided first**, before its quantifier is looked at, makes an existential
formula true and a universal one false without candidates. -/
theorem evaluate_decidedFirst :
    (∀ v ∈ Formula.lessOrTrue.sentence.vars, v ∈ Formula.lessOrTrue.quantifiers.map (·.var)) ∧
    Formula.lessOrTrue.sentence.bare = [] ∧
    Formula.lessOrTrue.quantifiers = [.existential ⟨"x"⟩] ∧
    (Formula.lessOrTrue.evaluate ⟨[], []⟩ []).result = .ok true ∧
    Formula.lessOrTrue.dual.quantifiers = [.universal ⟨"x"⟩] ∧
    (Formula.lessOrTrue.dual.evaluate ⟨[], []⟩ []).result = .ok false :=
  ⟨by decide, rfl, rfl, by decide +kernel, rfl, by decide +kernel⟩

end ShapeTyping
