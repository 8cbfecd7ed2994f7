import Mathlib
import ShapeTyping.Proofs.Formula.Semantics

/-!
# Last assignments

A search writes down each assignment under which it looks at the sentence. When it ends, what was
written last explains the result: the values that it has for the leading universal quantifiers make
the rest of the formula false, and those for leading existential quantifiers make it true.

* `tryCandidates_ends`: a quantifier ends with its default or with a candidate that decides it.
* `search_ends`: what a search leaves of the assignment that it starts from.
* `search_leading`: leading quantifiers that a result decides.
* `Formula.RestGives`, `Formula.evaluate_last`: the last assignment of a formula.
-/

namespace ShapeTyping

/-- The values of some variables. -/
def Assignment.only (a : Assignment) (vs : List Variable) : Assignment := a.filter (·.1 ∈ vs)

theorem Assignment.get?_only (a : Assignment) (vs : List Variable) (v : Variable) :
    (a.only vs).get? v = if v ∈ vs then a.get? v else none := by
  induction a with
  | nil => simp [only, Table.get?]
  | cons e a ih =>
    obtain ⟨u, t⟩ := e
    rw [only] at ih
    by_cases hu : u ∈ vs
    · rw [only, List.filter_cons_of_pos (by simpa using hu), Table.get?_cons, Table.get?_cons, ih]
      by_cases hvu : v = u
      · simp [hvu, hu]
      · simp [hvu]
    · rw [only, List.filter_cons_of_neg (by simpa using hu), ih, Table.get?_cons]
      by_cases hvu : v = u
      · simp [hvu, hu]
      · simp [hvu]

namespace Quantifier

def isUniversal : Quantifier → Bool
  | universal _ => true
  | existential _ => false

theorem isDecided_default (q : Quantifier) : q.isDecided q.default = false := by cases q <;> rfl

theorem default_ne_undecided (q : Quantifier) : q.default ≠ .undecided := by
  cases q <;> simp [default]

end Quantifier

variable {f : Formula} {facts : Facts} {candidates : List Term} {q : Quantifier}
  {next : Search Truth} {r : Truth} {a b last : Assignment} {s s' : SearchState}

/-! ### How a search ends -/

/-- **How a quantifier ends**: no candidate has decided it, or one has, and then what comes after
the quantifier has ended with this result. What holds before each candidate is tried may be used. -/
theorem tryCandidates_ends {I : SearchState → Prop}
    (hnext : ∀ t r u u', I u → next ⟨u.assignment.insert q.var t, u.last⟩ = .ok r u' → I u')
    {ts : List Term} (hs : I s) (hrun : tryCandidates f q next ts s = .ok r s') :
    (r = q.default ∧ ∃ u, I u ∧ s' = ⟨u.assignment.erase q.var, u.last⟩) ∨
      q.isDecided r = true ∧ ∃ t u u', I u ∧
        next ⟨u.assignment.insert q.var t, u.last⟩ = .ok r u' ∧
        s' = ⟨u'.assignment.erase q.var, u'.last⟩ := by
  induction ts generalizing s with
  | nil =>
    rw [tryCandidates_nil] at hrun
    cases hrun
    exact .inl ⟨rfl, s, hs, rfl⟩
  | cons t ts ih =>
    rw [tryCandidates_cons] at hrun
    split at hrun
    · split at hrun
      · cases hrun
      · rename_i r' u' hrest
        split at hrun
        · rename_i hdecided
          cases hrun
          exact .inr ⟨hdecided, t, s, u', hs, hrest, rfl⟩
        · exact ih (hnext t r' s u' hs hrest) hrun
    · exact ih hs hrun

theorem Formula.Pending.congr {qs : List Quantifier} (h : f.Pending qs a)
    (hab : ∀ v, a.get? v = b.get? v) : f.Pending qs b := by
  refine ⟨h.nodup, fun v hv => ?_, fun v hv hnone => ?_⟩
  · rw [← hab]
    exact h.unbound v hv
  · rw [← hab] at hnone
    exact h.covers v hv hnone

/-- A sentence that is decided ends a search. -/
theorem search_of_decided {qs : List Quantifier} (hr : f.sentence.evaluate facts a = .ok r)
    (hne : r ≠ .undecided) : search f facts candidates qs ⟨a, last⟩ = .ok r ⟨a, a⟩ := by
  cases qs with
  | nil => rw [search_nil, hr]
  | cons q qs =>
    rw [search_cons, hr]
    cases r with
    | yes => rfl
    | no => rfl
    | undecided => exact absurd rfl hne

/-- What a search that starts from an assignment leaves: the assignment, and in what was written
last all but the values of the variables that it binds. -/
structure Restores (vs : List Variable) (a : Assignment) (s : SearchState) : Prop where
  assignment : ∀ u, s.assignment.get? u = a.get? u
  last : ∀ u ∉ vs, s.last.get? u = a.get? u

/-- What is known between two candidates for a variable: the other variables have the values that
they had before, but for those that come later in what was written last. -/
structure Keeps (v : Variable) (vs : List Variable) (a : Assignment) (s : SearchState) : Prop where
  assignment : ∀ u ≠ v, s.assignment.get? u = a.get? u
  last : ∀ u ≠ v, u ∉ vs → s.last.get? u = a.get? u

namespace Keeps

variable {v : Variable} {vs : List Variable}

theorem start (v : Variable) (vs : List Variable) (a : Assignment) : Keeps v vs a ⟨a, a⟩ :=
  ⟨fun _ _ => rfl, fun _ _ _ => rfl⟩

/-- A candidate is tried under the assignment with which it would be tried first. -/
theorem insert (h : Keeps v vs a s) (t : Term) (u : Variable) :
    (a.insert v t).get? u = (s.assignment.insert v t).get? u := by
  rw [Table.get?_insert, Table.get?_insert]
  split
  · rfl
  · rename_i hu
    exact (h.assignment u hu).symm

/-- **One more candidate** that was tried. -/
theorem tried (h : Keeps v vs a s) {t : Term} (hs' : Restores vs (s.assignment.insert v t) s') :
    Keeps v vs a s' := by
  have hsame : ∀ u ≠ v, (s.assignment.insert v t).get? u = a.get? u := by
    intro u hu
    rw [← h.insert, Table.get?_insert, if_neg hu]
  exact ⟨fun u hu => (hs'.assignment u).trans (hsame u hu),
    fun u hu hvs => (hs'.last u hvs).trans (hsame u hu)⟩

/-- The variable is unbound at the end, as it was before. -/
theorem restores (h : Keeps v vs a s) (hv : a.get? v = none) :
    Restores (v :: vs) a ⟨s.assignment.erase v, s.last⟩ := by
  refine ⟨fun u => ?_, fun u hu => ?_⟩
  · rw [Table.get?_erase]
    split
    · rename_i huv
      rw [huv, hv]
    · rename_i huv
      exact h.assignment u huv
  · rw [List.mem_cons, not_or] at hu
    exact h.last u hu.1 hu.2

end Keeps

/-- **A search gives back its assignment** and has a decided result, if all variables are bound in
the end. -/
theorem search_ends {qs : List Quantifier} (h : f.Pending qs a)
    (hrun : search f facts candidates qs ⟨a, last⟩ = .ok r s) :
    r ≠ .undecided ∧ Restores (qs.map (·.var)) a s := by
  have hdone : Restores (qs.map (·.var)) a ⟨a, a⟩ := ⟨fun _ => rfl, fun _ _ => rfl⟩
  induction qs generalizing a last r s with
  | nil =>
    rw [search_nil] at hrun
    cases hr : f.sentence.evaluate facts a with
    | error e => simp [hr] at hrun
    | ok t =>
      simp only [hr] at hrun
      cases hrun
      exact ⟨(Sentence.decides_of_bound f.sentence h.bound hr).1, hdone⟩
  | cons q qs ih =>
    cases hr : f.sentence.evaluate facts a with
    | error e => simp [search_cons, hr] at hrun
    | ok t =>
      by_cases ht : t = .undecided
      · subst ht
        simp only [search_cons, hr] at hrun
        have hnext : ∀ t r u u', Keeps q.var (qs.map (·.var)) a u →
            search f facts candidates qs ⟨u.assignment.insert q.var t, u.last⟩ = .ok r u' →
              r ≠ .undecided ∧ Keeps q.var (qs.map (·.var)) a u' := by
          intro t r u u' hu hrest
          obtain ⟨hr, hu'⟩ := ih ((h.insert t).congr (hu.insert t)) hrest
            ⟨fun _ => rfl, fun _ _ => rfl⟩
          exact ⟨hr, hu.tried hu'⟩
        have hunbound := h.unbound q.var List.mem_cons_self
        rcases tryCandidates_ends (fun t r u u' hu hrest => (hnext t r u u' hu hrest).2)
          (.start q.var (qs.map (·.var)) a) hrun
          with ⟨rfl, u, hu, rfl⟩ | ⟨-, t, u, u', hu, hrest, rfl⟩
        · exact ⟨q.default_ne_undecided, hu.restores hunbound⟩
        · obtain ⟨hr, hu'⟩ := hnext t r u u' hu hrest
          exact ⟨hr, hu'.restores hunbound⟩
      · rw [search_of_decided hr ht] at hrun
        cases hrun
        exact ⟨ht, hdone⟩

/-! ### Leading quantifiers -/

/-- A search has the value of what is left of the formula. -/
theorem search_value (hbare : f.sentence.bare = []) {qs : List Quantifier} (h : f.Pending qs a)
    (last : Assignment) :
    ∃ s, search f facts candidates qs ⟨a, last⟩ =
      .ok (.ofBool (f.value facts candidates qs a)) s := by
  obtain ⟨r, a', last', hrun, hr, -⟩ := @search_run f facts candidates hbare qs
    (grouped_of_nodup h.nodup) a (fun u hu _ => h.unbound u hu) last
  have hdecided := (search_ends h hrun).1
  refine ⟨⟨a', last'⟩, ?_⟩
  rw [hrun]
  cases hvalue : f.value facts candidates qs a with
  | true => rw [hr.2 hvalue]; rfl
  | false =>
    cases r with
    | yes => simp [hr.1 rfl] at hvalue
    | no => rfl
    | undecided => exact absurd rfl hdecided

/-- **Leading quantifiers that a result decides**: with the values that were written last for their
variables, the rest of the search has the same result. -/
theorem search_leading (hbare : f.sentence.bare = []) {bs qs : List Quantifier}
    (h : f.Pending (bs ++ qs) a) (hbs : ∀ q ∈ bs, q.isDecided r = true)
    (hrun : search f facts candidates (bs ++ qs) ⟨a, last⟩ = .ok r s)
    (hb : ∀ v, b.get? v = if v ∈ qs.map (·.var) then none else s.last.get? v)
    (last' : Assignment) : ∃ s', search f facts candidates qs ⟨b, last'⟩ = .ok r s' := by
  induction bs generalizing a last s with
  | nil =>
    rw [List.nil_append] at h hrun
    have hsame : ∀ v, a.get? v = b.get? v := by
      intro v
      rw [hb]
      split
      · rename_i hv
        exact h.unbound v hv
      · rename_i hv
        exact ((search_ends h hrun).2.last v hv).symm
    obtain ⟨s₁, hvalue⟩ := @search_value f facts candidates a hbare qs h last
    obtain ⟨s₂, hvalue'⟩ := @search_value f facts candidates b hbare qs (h.congr hsame) last'
    rw [hvalue] at hrun
    cases hrun
    rw [Formula.value_congr hsame]
    exact ⟨s₂, hvalue'⟩
  | cons q bs ih =>
    obtain ⟨hq, hbs⟩ := List.forall_mem_cons.1 hbs
    obtain ⟨t, ht⟩ : ∃ t, f.sentence.evaluate facts a = .ok t := f.sentence.evaluate_ok hbare
    by_cases hne : t = .undecided
    · subst hne
      simp only [List.cons_append, search_cons, ht] at hrun
      rcases tryCandidates_ends (I := Keeps q.var ((bs ++ qs).map (·.var)) a)
        (fun t r u u' hu hrest => hu.tried (search_ends ((h.insert t).congr (hu.insert t)) hrest).2)
        (.start _ _ a) hrun with ⟨rfl, -⟩ | ⟨-, t, u, u', hu, hrest, rfl⟩
      · rw [q.isDecided_default] at hq
        cases hq
      -- the candidate that decides is the last one that is tried
      · exact ih ((h.insert t).congr (hu.insert t)) hbs hrest hb
    · -- the sentence is decided before all leading variables are bound
      rw [search_of_decided ht hne] at hrun
      cases hrun
      have hsame : ∀ v, a.get? v = b.get? v := by
        intro v
        rw [hb]
        split
        · rename_i hv
          exact h.unbound v (by simp [hv])
        · rfl
      rw [Sentence.evaluate_congr hsame] at ht
      exact ⟨_, search_of_decided ht hne⟩

/-! ### The last assignment of a formula -/

namespace Formula

/-- Whether the rest of a formula has a result when the variables of its leading quantifiers of some
kind keep the values that an assignment has for them. -/
def RestGives (f : Formula) (facts : Facts) (candidates : List Term) (kind : Quantifier → Bool)
    (a : Assignment) (r : Truth) : Prop :=
  ∀ last, ∃ s, search f facts candidates (f.quantifiers.dropWhile kind)
    ⟨a.only ((f.quantifiers.takeWhile kind).map (·.var)), last⟩ = .ok r s

/-- **The leading quantifiers of a kind that a result decides** are explained by the last
assignment. -/
theorem restGives_of_search (hbare : f.sentence.bare = []) (h : f.Pending f.quantifiers [])
    {kind : Quantifier → Bool} (hkind : ∀ q, kind q = true → q.isDecided r = true)
    (hrun : search f facts candidates f.quantifiers ⟨[], []⟩ = .ok r s) :
    f.RestGives facts candidates kind s.last r := by
  have hsplit : f.quantifiers.takeWhile kind ++ f.quantifiers.dropWhile kind = f.quantifiers :=
    List.takeWhile_append_dropWhile
  have hunbound := (search_ends h hrun).2.last
  have hnodup := h.nodup
  rw [← hsplit] at h hrun hunbound hnodup
  rw [List.map_append, List.nodup_append] at hnodup
  refine search_leading hbare h (fun q hq => hkind q (List.mem_takeWhile_imp hq)) hrun fun v => ?_
  rw [Assignment.get?_only]
  split <;> split
  · rename_i hv hv'
    exact absurd rfl (hnodup.2.2 v hv v hv')
  · rfl
  · rfl
  · rename_i hv hv'
    refine (hunbound v ?_).symm
    rw [List.map_append, List.mem_append]
    exact not_or.2 ⟨hv, hv'⟩

/-- **The last assignment explains the result.** If the quantified variables are distinct, the
sentence mentions no others and none of them stands for a sentence, then a formula has a result. If
it is false, the last values of the variables of the leading universal quantifiers make the rest of
the formula false. If it is true, those of the leading existential quantifiers make the rest
true. -/
theorem evaluate_last (f : Formula) (facts : Facts) (candidates : List Term)
    (hdistinct : (f.quantifiers.map (·.var)).Nodup)
    (hclosed : ∀ v ∈ f.sentence.vars, v ∈ f.quantifiers.map (·.var))
    (hbare : f.sentence.bare = []) :
    let outcome := f.evaluate facts candidates
    (∃ b, outcome.result = .ok b) ∧
    (outcome.result = .ok false → f.RestGives facts candidates (·.isUniversal) outcome.last .no) ∧
    (outcome.result = .ok true →
      f.RestGives facts candidates (!·.isUniversal) outcome.last .yes) := by
  have hpending : f.Pending f.quantifiers [] :=
    ⟨hdistinct, fun _ _ => rfl, fun v hv _ => hclosed v hv⟩
  obtain ⟨s, hrun⟩ := @search_value f facts candidates [] hbare f.quantifiers hpending []
  have houtcome : f.evaluate facts candidates =
      ⟨.ok (f.value facts candidates f.quantifiers []), s.last⟩ := by
    rw [evaluate, hrun]
    cases f.value facts candidates f.quantifiers [] <;> rfl
  simp only [houtcome, Except.ok.injEq, exists_eq', true_and]
  refine ⟨fun hvalue => ?_, fun hvalue => ?_⟩
  · rw [hvalue] at hrun
    refine restGives_of_search hbare hpending (fun q hq => ?_) hrun
    cases q with
    | universal v => rfl
    | existential v => cases hq
  · rw [hvalue] at hrun
    refine restGives_of_search hbare hpending (fun q hq => ?_) hrun
    cases q with
    | universal v => cases hq
    | existential v => rfl

/-- Each two values have a greater one. -/
def greaterThanBoth : Formula :=
  ⟨[.universal ⟨"x"⟩, .universal ⟨"y"⟩, .existential ⟨"z"⟩],
    .and [.compare .less (.var ⟨"x"⟩) (.var ⟨"z"⟩), .compare .less (.var ⟨"y"⟩) (.var ⟨"z"⟩)]⟩

/-- Nothing is greater than the second of two numbers: it is found with the first value of the first
variable, after another pair. -/
theorem evaluate_last_greaterThanBoth :
    let outcome := greaterThanBoth.evaluate ⟨[], []⟩ [integerTerm "1", integerTerm "2"]
    outcome.result = .ok false ∧
      [⟨"x"⟩, ⟨"y"⟩].map outcome.last.get? = [some (integerTerm "1"), some (integerTerm "2")] ∧
      greaterThanBoth.RestGives ⟨[], []⟩ [integerTerm "1", integerTerm "2"] (·.isUniversal)
        outcome.last .no := by
  intro outcome
  have hfalse : outcome.result = .ok false := by decide +kernel
  obtain ⟨-, hrest, -⟩ := evaluate_last greaterThanBoth ⟨[], []⟩
    [integerTerm "1", integerTerm "2"] (by decide) (by decide) rfl
  exact ⟨hfalse, by decide +kernel, hrest hfalse⟩

end Formula

end ShapeTyping
