import Mathlib
import ShapeTyping.Formula.Search
import ShapeTyping.Proofs.Formula.Classes
import ShapeTyping.Proofs.Formula.Evaluation

/-!
# Searches

A search keeps one assignment. It binds the variable of a quantifier to one candidate after the
other, and unbinds it when it goes back. As long as the quantifiers of each variable stand together,
nothing that a candidate leaves behind matters for the next one, and the search computes a function
of the assignment that it starts from.

* `search_cons`, `tryCandidates_cons`: the steps of a search.
* `Formula.value`: the function that a search computes.
* `Grouped`: whether the quantifiers of each variable stand together.
* `tryCandidates_run`, `search_run`: one quantifier, and all of them.
* `Formula.evaluate_eq_value`: what a formula evaluates to.
* `Formula.evaluate_sameCandidates`: only the set of candidates matters.
* `evaluate_quantifiedOnceMore`: it is not so if a variable is quantified over once more.
-/

namespace ShapeTyping

/-! ### Steps of a search -/

section Steps

variable {f : Formula} {facts : Facts} {candidates : List Term} {q : Quantifier}
  {next : Search Truth}

theorem current_eq {s : SearchState} : search.current f facts s =
    match f.sentence.evaluate facts s.assignment with
    | .error e => .error e ⟨s.assignment, s.assignment⟩
    | .ok t => .ok t ⟨s.assignment, s.assignment⟩ := by
  unfold search.current
  simp only [bind, EStateM.bind, get, getThe, MonadStateOf.get, EStateM.get, modify,
    modifyGet, MonadStateOf.modifyGet, EStateM.modifyGet]
  cases f.sentence.evaluate facts s.assignment <;> rfl

theorem search_nil {s : SearchState} :
    search f facts candidates [] s =
      match f.sentence.evaluate facts s.assignment with
      | .error e => .error e ⟨s.assignment, s.assignment⟩
      | .ok t => .ok t ⟨s.assignment, s.assignment⟩ := current_eq

theorem search_cons {qs : List Quantifier} {s : SearchState} :
    search f facts candidates (q :: qs) s =
      match f.sentence.evaluate facts s.assignment with
      | .error e => .error e ⟨s.assignment, s.assignment⟩
      | .ok .undecided => tryCandidates f q (search f facts candidates qs) candidates
            ⟨s.assignment, s.assignment⟩
      | .ok t => .ok t ⟨s.assignment, s.assignment⟩ := by
  rw [search]
  simp only [bind, EStateM.bind, current_eq]
  rcases f.sentence.evaluate facts s.assignment with e | t
  · rfl
  · cases t <;> rfl

theorem tryCandidates_nil {s : SearchState} :
    tryCandidates f q next [] s = .ok q.default ⟨s.assignment.erase q.var, s.last⟩ := rfl

theorem tryCandidates_cons {t : Term} {ts : List Term} {s : SearchState} :
    tryCandidates f q next (t :: ts) s =
      if f.isAdmissible q.var t s.assignment then
        match next ⟨s.assignment.insert q.var t, s.last⟩ with
        | .error e s => .error e s
        | .ok r s =>
          if q.isDecided r then .ok r ⟨s.assignment.erase q.var, s.last⟩
          else tryCandidates f q next ts s
      else tryCandidates f q next ts s := by
  rw [tryCandidates]
  simp only [bind, EStateM.bind, get, getThe, MonadStateOf.get, EStateM.get]
  split
  · change EStateM.bind next _ ⟨s.assignment.insert q.var t, s.last⟩ = _
    rw [EStateM.bind]
    cases next ⟨s.assignment.insert q.var t, s.last⟩ with
    | error e s => rfl
    | ok r s =>
      simp only
      split <;> rfl
  · rfl

end Steps

/-! ### The function of a search -/

/-- Whether all terms or some term of a list has a property. -/
def Quantifier.among : Quantifier → List Term → (Term → Bool) → Bool
  | universal _, ts, p => ts.all p
  | existential _, ts, p => ts.any p

/-- Whether a sentence with some quantifiers in front holds under an assignment, where a quantifier
is only looked at while the sentence is undecided. -/
def Formula.value (f : Formula) (facts : Facts) (candidates : List Term) :
    List Quantifier → Assignment → Bool
  | [], a => match f.sentence.evaluate facts a with
    | .ok .yes => true
    | _ => false
  | q :: qs, a => match f.sentence.evaluate facts a with
    | .ok .yes => true
    | .ok .undecided => q.among (candidates.filter (f.isAdmissible q.var · a))
        fun t => value f facts candidates qs (a.insert q.var t)
    | _ => false

/-- The datatype of the literal that a variable is bound to. -/
def Assignment.datatype? (a : Assignment) (v : Variable) : Option Iri :=
  match a.get? v with
  | some (.literal l) => some l.datatype
  | _ => none

section Values

variable {f : Formula} {facts : Facts} {candidates : List Term} {a b : Assignment}

theorem Formula.isAdmissible_eq (f : Formula) (v : Variable) (t : Term) (a : Assignment) :
    f.isAdmissible v t a =
      match f.sameType? v with
      | none => true
      | some others =>
        match others.findSome? a.datatype? with
        | none => t.isOrderable
        | some d =>
          match t with
          | .literal l => l.datatype = d
          | _ => false := rfl

/-- **What a variable may be bound to** depends on the other variables only. -/
theorem Formula.isAdmissible_congr {v : Variable} (h : ∀ u ≠ v, a.get? u = b.get? u) (t : Term) :
    f.isAdmissible v t a = f.isAdmissible v t b := by
  rw [isAdmissible_eq, isAdmissible_eq]
  cases hothers : f.sameType? v with
  | none => rfl
  | some others =>
    have hsame : others.findSome? a.datatype? = others.findSome? b.datatype? := by
      rw [← List.head?_filterMap, ← List.head?_filterMap]
      refine congrArg List.head? (List.filterMap_congr fun u hu => ?_)
      rw [Assignment.datatype?, h u ((mem_of_sameType? hothers).1 hu).1, Assignment.datatype?]
    simp only [hsame]

theorem Quantifier.among_congr {q : Quantifier} {ts : List Term} {p p' : Term → Bool}
    (h : ∀ t, p t = p' t) : q.among ts p = q.among ts p' := by
  rw [funext h]

namespace Quantifier

variable {q : Quantifier} {t : Term} {ts : List Term} {p : Term → Bool} {r : Truth}

/-- A result that decides the quantifier is the result for all terms. -/
theorem among_cons_of_decided (q : Quantifier) (hq : q.isDecided r = true)
    (hr : r = .yes ↔ p t = true) : q.among (t :: ts) p = true ↔ p t = true := by
  cases q <;> simp_all [isDecided, among]

/-- Otherwise the result is that for the other terms. -/
theorem among_cons_of_undecided (q : Quantifier) (hq : ¬q.isDecided r = true)
    (hr : r = .yes ↔ p t = true) : q.among (t :: ts) p = true ↔ q.among ts p = true := by
  cases q <;> simp_all [isDecided, among]

end Quantifier

/-- The value depends on the values of variables only. -/
theorem Formula.value_congr (h : ∀ v, a.get? v = b.get? v) (qs : List Quantifier) :
    f.value facts candidates qs a = f.value facts candidates qs b := by
  induction qs generalizing a b with
  | nil => rw [value, value, Sentence.evaluate_congr h]
  | cons q qs ih =>
    have hadmissible : (f.isAdmissible q.var · a) = (f.isAdmissible q.var · b) :=
      funext (isAdmissible_congr fun u _ => h u)
    have hrest : ∀ t, f.value facts candidates qs (a.insert q.var t) =
        f.value facts candidates qs (b.insert q.var t) := fun t =>
      ih fun v => by rw [Table.get?_insert, Table.get?_insert, h v]
    rw [value, value, Sentence.evaluate_congr h, hadmissible, Quantifier.among_congr hrest]

end Values

/-! ### Searches with one assignment -/

/-- Whether what stands between two occurrences of a variable is this variable. -/
def Grouped : List Variable → Prop
  | [] => True
  | v :: vs => (v ∈ vs → vs.head? = some v) ∧ Grouped vs

theorem grouped_of_nodup {vs : List Variable} (h : vs.Nodup) : Grouped vs := by
  induction vs with
  | nil => trivial
  | cons v vs ih =>
    obtain ⟨hv, hvs⟩ := List.nodup_cons.1 h
    exact ⟨fun hmem => absurd hmem hv, ih hvs⟩

section Runs

variable {f : Formula} {facts : Facts} {candidates : List Term}

/-- **The candidates of a quantifier**, where the rest of the search leaves the other variables as
they are: it does not matter what the variable itself is bound to before. -/
theorem tryCandidates_run {q : Quantifier} {next : Search Truth} {a : Assignment} {p : Term → Bool}
    (hnext : ∀ (t : Term) (b last : Assignment), f.isAdmissible q.var t a = true →
      (∀ u ≠ q.var, b.get? u = a.get? u) → ∃ r b' last',
        next ⟨b.insert q.var t, last⟩ = .ok r ⟨b', last'⟩ ∧ (r = .yes ↔ p t = true) ∧
          ∀ u ≠ q.var, b'.get? u = a.get? u)
    (ts : List Term) {b : Assignment} (hb : ∀ u ≠ q.var, b.get? u = a.get? u) (last : Assignment) :
    ∃ r b' last', tryCandidates f q next ts ⟨b, last⟩ = .ok r ⟨b', last'⟩ ∧
      (r = .yes ↔ q.among (ts.filter (f.isAdmissible q.var · a)) p = true) ∧
      ∀ u, b'.get? u = if u = q.var then none else a.get? u := by
  have herase : ∀ b : Assignment, (∀ u ≠ q.var, b.get? u = a.get? u) →
      ∀ u, (b.erase q.var).get? u = if u = q.var then none else a.get? u := by
    intro b hb u
    rw [Table.get?_erase]
    split
    · rfl
    · rename_i hu
      exact hb u hu
  induction ts generalizing b last with
  | nil =>
    refine ⟨_, _, _, tryCandidates_nil, ?_, herase b hb⟩
    cases q <;> simp [Quantifier.default, Quantifier.among]
  | cons t ts ih =>
    rw [tryCandidates_cons, Formula.isAdmissible_congr hb]
    by_cases hadm : f.isAdmissible q.var t a = true
    · obtain ⟨r, b', last', hrun, hr, hb'⟩ := hnext t b last hadm hb
      simp only [hadm, if_true, hrun, List.filter_cons]
      by_cases hdecided : q.isDecided r = true
      · rw [if_pos hdecided]
        exact ⟨_, _, _, rfl, hr.trans (q.among_cons_of_decided hdecided hr).symm, herase b' hb'⟩
      · rw [if_neg hdecided]
        obtain ⟨r', b'', last'', hrest, hr', hb''⟩ := ih hb' last'
        exact ⟨r', b'', last'', hrest, hr'.trans (q.among_cons_of_undecided hdecided hr).symm, hb''⟩
    · simp only [hadm, Bool.false_eq_true, if_false, List.filter_cons]
      exact ih hb last

/-- **A search computes the value** if the quantifiers of each variable stand together. It leaves
the assignment as it is, but for the variable of its first quantifier, which it may unbind. -/
theorem search_run (hbare : f.sentence.bare = []) {qs : List Quantifier}
    (hqs : Grouped (qs.map (·.var))) {a : Assignment}
    (ha : ∀ u ∈ qs.map (·.var), (qs.map (·.var)).head? ≠ some u → a.get? u = none)
    (last : Assignment) :
    ∃ r a' last', search f facts candidates qs ⟨a, last⟩ = .ok r ⟨a', last'⟩ ∧
      (r = .yes ↔ f.value facts candidates qs a = true) ∧
      ∀ u, a'.get? u = a.get? u ∨ (qs.map (·.var)).head? = some u ∧ a'.get? u = none := by
  induction qs generalizing a last with
  | nil =>
    obtain ⟨t, ht⟩ : ∃ t, f.sentence.evaluate facts a = .ok t := f.sentence.evaluate_ok hbare
    refine ⟨t, a, a, by rw [search_nil, ht], ?_, fun u => .inl rfl⟩
    rw [Formula.value, ht]
    cases t <;> simp
  | cons q qs ih =>
    obtain ⟨t, ht⟩ : ∃ t, f.sentence.evaluate facts a = .ok t := f.sentence.evaluate_ok hbare
    rw [search_cons]
    simp only [ht]
    rw [Formula.value, ht]
    cases t with
    | yes => exact ⟨.yes, a, a, rfl, by simp, fun u => .inl rfl⟩
    | no => exact ⟨.no, a, a, rfl, by simp, fun u => .inl rfl⟩
    | undecided =>
      simp only
      obtain ⟨hfirst, hqs⟩ := hqs
      -- the variables after the next one are unbound while a candidate is tried
      have hunbound : ∀ t (b : Assignment), (∀ u ≠ q.var, b.get? u = a.get? u) →
          ∀ u ∈ qs.map (·.var), (qs.map (·.var)).head? ≠ some u →
            (b.insert q.var t).get? u = none := by
        intro t b hb u hu hhead
        have hne : u ≠ q.var := by
          rintro rfl
          exact hhead (hfirst hu)
        rw [Table.get?_insert, if_neg hne, hb u hne]
        exact ha u (List.mem_cons_of_mem _ hu) (by simpa using hne.symm)
      have hnext : ∀ (t : Term) (b last : Assignment), f.isAdmissible q.var t a = true →
          (∀ u ≠ q.var, b.get? u = a.get? u) → ∃ r b' last',
            search f facts candidates qs ⟨b.insert q.var t, last⟩ = .ok r ⟨b', last'⟩ ∧
              (r = .yes ↔ f.value facts candidates qs (a.insert q.var t) = true) ∧
              ∀ u ≠ q.var, b'.get? u = a.get? u := by
        intro t b last _ hb
        obtain ⟨r, b', last', hrun, hr, hb'⟩ := ih hqs (hunbound t b hb) last
        have hsame : ∀ u, (b.insert q.var t).get? u = (a.insert q.var t).get? u := by
          intro u
          rw [Table.get?_insert, Table.get?_insert]
          split
          · rfl
          · rename_i hu
            exact hb u hu
        refine ⟨r, b', last', hrun, by rw [hr, Formula.value_congr hsame], fun u hu => ?_⟩
        rcases hb' u with hkept | ⟨hhead, hnone⟩
        · rw [hkept, hsame, Table.get?_insert, if_neg hu]
        · have hmem : u ∈ qs.map (·.var) := List.mem_of_head? hhead
          rw [hnone, ha u (List.mem_cons_of_mem _ hmem) (by simpa using hu.symm)]
      obtain ⟨r, a', last', hrun, hr, ha'⟩ := tryCandidates_run hnext candidates (fun _ _ => rfl) a
      refine ⟨r, a', last', hrun, hr, fun u => ?_⟩
      rw [ha' u]
      split
      · rename_i hu
        exact .inr ⟨by rw [hu]; rfl, rfl⟩
      · exact .inl rfl

/-- **A formula evaluates to its value** if no variable stands for a sentence and the quantifiers of
each variable stand together. -/
theorem Formula.evaluate_eq_value (hbare : f.sentence.bare = [])
    (hqs : Grouped (f.quantifiers.map (·.var))) :
    (f.evaluate facts candidates).result = .ok (f.value facts candidates f.quantifiers []) := by
  obtain ⟨r, a, last, hrun, hr, -⟩ :=
    @search_run f facts candidates hbare f.quantifiers hqs [] (fun _ _ _ => rfl) []
  rw [evaluate, hrun]
  refine congrArg Except.ok ?_
  by_cases hyes : r = .yes
  · simp [hyes, hr.1 hyes]
  · have hno : f.value facts candidates f.quantifiers [] = false := by
      simpa using mt hr.2 hyes
    simp [hyes, hno]

end Runs

/-! ### The order of candidates -/

section Candidates

variable {f : Formula} {facts : Facts} {candidates candidates' : List Term}

theorem Quantifier.among_congr_mem {q : Quantifier} {ts ts' : List Term} {p : Term → Bool}
    (h : ∀ t, t ∈ ts ↔ t ∈ ts') : q.among ts p = q.among ts' p := by
  rw [Bool.eq_iff_iff]
  cases q <;> simp [among, h]

/-- **The value depends on the set of candidates.** -/
theorem Formula.value_congr_candidates (h : ∀ t, t ∈ candidates ↔ t ∈ candidates')
    (qs : List Quantifier) (a : Assignment) :
    f.value facts candidates qs a = f.value facts candidates' qs a := by
  induction qs generalizing a with
  | nil => rfl
  | cons q qs ih =>
    have hadmissible : ∀ t, t ∈ candidates.filter (f.isAdmissible q.var · a) ↔
        t ∈ candidates'.filter (f.isAdmissible q.var · a) := by
      intro t
      rw [List.mem_filter, List.mem_filter, h]
    rw [value, value, Quantifier.among_congr_mem hadmissible, Quantifier.among_congr fun t => ih _]

/-- **The order and the multiplicity of candidates do not matter** if the quantifiers of each
variable stand together, as they do if the variables are distinct: a formula without a variable that
stands for a sentence has the same value for any two lists of candidates with the same members. -/
theorem Formula.evaluate_sameCandidates (f : Formula) (facts : Facts) (hbare : f.sentence.bare = [])
    (hqs : Grouped (f.quantifiers.map (·.var))) (candidates candidates' : List Term)
    (h : ∀ t, t ∈ candidates ↔ t ∈ candidates') :
    ∃ b, (f.evaluate facts candidates).result = .ok b ∧
      (f.evaluate facts candidates').result = .ok b := by
  refine ⟨_, evaluate_eq_value hbare hqs, ?_⟩
  rw [evaluate_eq_value hbare hqs, value_congr_candidates h]

end Candidates

/-- Results can be compared, so that evaluations can be computed. -/
instance Except.decEq {ε α : Type} [DecidableEq ε] [DecidableEq α] : DecidableEq (Except ε α)
  | .ok a, .ok b => decidable_of_iff (a = b) (by simp)
  | .error a, .error b => decidable_of_iff (a = b) (by simp)
  | .ok _, .error _ => isFalse (by simp)
  | .error _, .ok _ => isFalse (by simp)

/-- An integer. -/
def integerTerm (lexical : String) : Term := .literal (.typed lexical (Xsd.named "integer"))

/-- Some number is at most all others, where it does not matter what the number is at first. -/
def leastOfAll : Formula :=
  ⟨[.universal ⟨"x"⟩, .existential ⟨"x"⟩, .universal ⟨"y"⟩],
    .compare .lessOrEqual (.var ⟨"x"⟩) (.var ⟨"y"⟩)⟩

theorem Formula.evaluate_sameCandidates_leastOfAll :
    (leastOfAll.evaluate ⟨[], []⟩ [integerTerm "1", integerTerm "2"]).result = .ok true ∧
      (leastOfAll.evaluate ⟨[], []⟩
        [integerTerm "2", integerTerm "1", integerTerm "2"]).result = .ok true := by
  have hqs : Grouped (leastOfAll.quantifiers.map (·.var)) := by
    simp [leastOfAll, Quantifier.var, Grouped]
  obtain ⟨b, hb, hb'⟩ := evaluate_sameCandidates leastOfAll ⟨[], []⟩ rfl hqs
    [integerTerm "1", integerTerm "2"] [integerTerm "2", integerTerm "1", integerTerm "2"]
    (fun t => by simp only [List.mem_cons, List.not_mem_nil, or_false]; tauto)
  have hleast : (leastOfAll.evaluate ⟨[], []⟩ [integerTerm "1", integerTerm "2"]).result =
      .ok true := by decide +kernel
  obtain rfl : b = true := by simpa [hleast] using hb.symm
  exact ⟨hb, hb'⟩

/-- Each value of a variable has some value of another one, which is quantified over before the
first variable is once more. -/
def quantifiedOnceMore : Formula :=
  ⟨[.universal ⟨"x"⟩, .existential ⟨"y"⟩, .existential ⟨"x"⟩, .existential ⟨"z"⟩],
    .or [.compare .equal (.var ⟨"y"⟩) (.const (.literal (.typed "s" Xsd.string))),
      .compare .equal (.var ⟨"z"⟩) (.const (.iri ⟨"urn:none"⟩)),
      .and [.compare .less (.var ⟨"x"⟩) (.var ⟨"y"⟩),
        .not (.compare .less (.var ⟨"x"⟩) (.var ⟨"y"⟩))]]⟩

/-- **A variable that is quantified over twice**, with another one in between, makes the order
matter: when the inner quantifier is done, the value that the outer one has chosen is lost, and a
candidate of another type is admitted. -/
theorem evaluate_quantifiedOnceMore :
    quantifiedOnceMore.sentence.bare = [] ∧
    (∀ t, t ∈ [integerTerm "1", .literal (.typed "s" Xsd.string)] ↔
      t ∈ [.literal (.typed "s" Xsd.string), integerTerm "1"]) ∧
    (quantifiedOnceMore.evaluate ⟨[], []⟩
      [integerTerm "1", .literal (.typed "s" Xsd.string)]).result = .ok true ∧
    (quantifiedOnceMore.evaluate ⟨[], []⟩
      [.literal (.typed "s" Xsd.string), integerTerm "1"]).result = .ok false := by
  refine ⟨rfl, fun t => ?_, by decide +kernel, by decide +kernel⟩
  simp [or_comm]

end ShapeTyping
