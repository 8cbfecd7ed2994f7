import Mathlib
import ShapeTyping.Proofs.Formula.Search

/-!
# What formulas say

A quantifier ranges over the candidates that its variable may be bound to, given the values of the
variables before it. An evaluation looks at a quantifier only while the sentence is undecided. This
makes no difference: a decided sentence keeps its value whatever the other variables are bound to,
and each of them can be bound to something.

* `Formula.Admits`, `Formula.Holds`: the rule of same types, and what a formula says.
* `Formula.Typed`: assignments that follow the rule; `Typed.isAdmissible_iff` and
  `Typed.exists_admits`: the candidates that they leave for a variable.
* `Formula.Pending`: what is left to be bound.
* `Formula.holdsFrom_of_decided`: a decided sentence decides the formula.
* `Formula.value_iff_holdsFrom`, `Formula.evaluate_iff_holds`: the value of a formula is what it
  says.
-/

namespace ShapeTyping

theorem Term.exists_literal_of_isOrderable {t : Term} (h : t.isOrderable = true) :
    ∃ l, t = .literal l := by
  cases t with
  | literal l => exact ⟨l, rfl⟩
  | iri i => cases h
  | blank id => cases h

theorem Assignment.datatype?_eq_some {a : Assignment} {v : Variable} {d : Iri} :
    a.datatype? v = some d ↔ ∃ l, a.get? v = some (.literal l) ∧ l.datatype = d := by
  rw [datatype?]
  split
  · rename_i l hl
    simp [hl]
  · rename_i hnone
    refine iff_of_false (by simp) ?_
    rintro ⟨l, hl, -⟩
    exact hnone l hl

namespace Formula

/-! ### What a formula says -/

/-- **The rule of same types.** While no other variable that is linked to it has a value, a variable
of a restricted comparison takes orderable terms. Next to literals it takes literals of the datatype
that they have. -/
structure Admits (f : Formula) (ρ : Variable → Option Term) (v : Variable) (t : Term) : Prop where
  sameType : ∀ u ≠ v, f.Linked v u → ∀ l, ρ u = some (.literal l) →
    ∃ l', t = .literal l' ∧ l'.datatype = l.datatype
  orderable : f.Linked v v → (∀ u ≠ v, f.Linked v u → ρ u = none) → t.isOrderable = true

/-- What a formula says with some quantifiers left, where the variables before them have values. -/
def HoldsFrom (f : Formula) (facts : Facts) (candidates : List Term) :
    List Quantifier → (Variable → Option Term) → Prop
  | [], ρ => f.sentence.Holds facts ρ
  | .universal v :: qs, ρ => ∀ t ∈ candidates, f.Admits ρ v t →
      HoldsFrom f facts candidates qs (Function.update ρ v (some t))
  | .existential v :: qs, ρ => ∃ t ∈ candidates, f.Admits ρ v t ∧
      HoldsFrom f facts candidates qs (Function.update ρ v (some t))

/-- What a formula says: its quantifiers range over the candidates that are admitted. -/
def Holds (f : Formula) (facts : Facts) (candidates : List Term) : Prop :=
  f.HoldsFrom facts candidates f.quantifiers fun _ => none

variable {f : Formula} {facts : Facts} {candidates : List Term} {a : Assignment}

/-! ### Assignments that follow the rule -/

/-- Assignments of candidates that follow the rule: what linked variables are bound to are literals
of one datatype. -/
structure Typed (f : Formula) (candidates : List Term) (a : Assignment) : Prop where
  mem : ∀ u t, a.get? u = some t → t ∈ candidates
  literal : ∀ u t, f.Linked u u → a.get? u = some t → ∃ l, t = .literal l
  datatype : ∀ u w l l', f.Linked u w → a.get? u = some (.literal l) →
    a.get? w = some (.literal l') → l.datatype = l'.datatype

namespace Typed

theorem nil : f.Typed candidates [] := by
  constructor <;> intros <;> contradiction

/-- Either no other linked variable is bound, or some of them is bound to a literal. -/
theorem unbound_or_literal (h : f.Typed candidates a) (v : Variable) :
    (∀ u ≠ v, f.Linked v u → a.get? u = none) ∨
      ∃ u ≠ v, f.Linked v u ∧ ∃ l, a.get? u = some (.literal l) := by
  by_cases hunbound : ∀ u ≠ v, f.Linked v u → a.get? u = none
  · exact .inl hunbound
  · push Not at hunbound
    obtain ⟨u, hu, huv, hbound⟩ := hunbound
    obtain ⟨t, ht⟩ := Option.ne_none_iff_exists'.1 hbound
    obtain ⟨l, rfl⟩ := h.literal u t (huv.symm.trans huv) ht
    exact .inr ⟨u, hu, huv, l, ht⟩

/-- Next to one literal the rule asks for its datatype only, since all others have it too. -/
theorem admits_iff (h : f.Typed candidates a) {u v : Variable} (hu : u ≠ v) (huv : f.Linked v u)
    {l : Literal} (hl : a.get? u = some (.literal l)) (t : Term) :
    f.Admits a.get? v t ↔ ∃ l', t = .literal l' ∧ l'.datatype = l.datatype := by
  refine ⟨fun ht => ht.sameType u hu huv l hl, ?_⟩
  rintro ⟨l', rfl, hsame⟩
  refine ⟨fun w _ hvw lw hlw => ⟨l', rfl, hsame.trans ?_⟩, fun _ hnone => ?_⟩
  · exact h.datatype u w l lw (huv.symm.trans hvw) hl hlw
  · rw [hnone u hu huv] at hl
    cases hl

/-- **The admissible terms** are those that the rule admits. -/
theorem isAdmissible_iff (h : f.Typed candidates a) (v : Variable) (t : Term) :
    f.isAdmissible v t a = true ↔ f.Admits a.get? v t := by
  rw [isAdmissible_eq]
  cases hothers : f.sameType? v with
  | none =>
    have hfree : ∀ u, ¬f.Linked v u := fun u hu => sameType?_eq_none.1 hothers (hu.trans hu.symm)
    exact iff_of_true rfl ⟨fun u _ hu => absurd hu (hfree u), fun hv => absurd hv (hfree v)⟩
  | some others =>
    have hlinked : f.Linked v v := by
      by_contra hv
      rw [sameType?_eq_none.2 hv] at hothers
      cases hothers
    simp only
    cases hfind : others.findSome? a.datatype? with
    | none =>
      have hnone : ¬∃ u ≠ v, f.Linked v u ∧ ∃ l, a.get? u = some (.literal l) := by
        rintro ⟨u, hu, huv, l, hl⟩
        have hd := List.findSome?_eq_none_iff.1 hfind u ((mem_of_sameType? hothers).2 ⟨hu, huv⟩)
        rw [Assignment.datatype?_eq_some.2 ⟨l, hl, rfl⟩] at hd
        cases hd
      have hunbound := (h.unbound_or_literal v).resolve_right hnone
      exact ⟨fun ht => ⟨fun u hu huv l hl => absurd ⟨u, hu, huv, l, hl⟩ hnone, fun _ _ => ht⟩,
        fun ht => ht.orderable hlinked hunbound⟩
    | some d =>
      obtain ⟨u, hmem, hd⟩ := List.exists_of_findSome?_eq_some hfind
      obtain ⟨l, hl, rfl⟩ := Assignment.datatype?_eq_some.1 hd
      obtain ⟨hu, huv⟩ := (mem_of_sameType? hothers).1 hmem
      rw [h.admits_iff hu huv hl]
      cases t <;> simp

/-- **A variable can be bound**: to what a linked variable is bound to, or to an orderable term. -/
theorem exists_admits (h : f.Typed candidates a)
    (horderable : ∃ t ∈ candidates, t.isOrderable = true) (v : Variable) :
    ∃ t ∈ candidates, f.Admits a.get? v t := by
  rcases h.unbound_or_literal v with hunbound | ⟨u, hu, huv, l, hl⟩
  · obtain ⟨t, hmem, ht⟩ := horderable
    refine ⟨t, hmem, ⟨fun u hu huv l hl => ?_, fun _ _ => ht⟩⟩
    rw [hunbound u hu huv] at hl
    cases hl
  · exact ⟨.literal l, h.mem u _ hl, (h.admits_iff hu huv hl _).2 ⟨l, rfl, rfl⟩⟩

/-- A variable of a restricted comparison takes literals only. -/
theorem exists_literal (h : f.Typed candidates a) {v : Variable} {t : Term}
    (ht : f.Admits a.get? v t) (hv : f.Linked v v) : ∃ l, t = .literal l := by
  rcases h.unbound_or_literal v with hunbound | ⟨u, hu, huv, l, hl⟩
  · exact Term.exists_literal_of_isOrderable (ht.orderable hv hunbound)
  · obtain ⟨l', rfl, -⟩ := ht.sameType u hu huv l hl
    exact ⟨l', rfl⟩

/-- **One more variable** that is bound to what the rule admits. -/
theorem insert (h : f.Typed candidates a) {v : Variable} {t : Term} (hmem : t ∈ candidates)
    (ht : f.Admits a.get? v t) : f.Typed candidates (a.insert v t) := by
  refine ⟨fun u t' hu => ?_, fun u t' hlinked hu => ?_, fun u w l l' hlinked hu hw => ?_⟩
  · rw [Table.get?_insert] at hu
    split at hu
    · cases hu
      exact hmem
    · exact h.mem u t' hu
  · rw [Table.get?_insert] at hu
    split at hu
    · rename_i huv
      subst huv
      cases hu
      exact h.exists_literal ht hlinked
    · exact h.literal u t' hlinked hu
  · rw [Table.get?_insert] at hu hw
    split at hu <;> split at hw
    · cases hu
      cases hw
      rfl
    · rename_i huv hwv
      subst huv
      cases hu
      obtain ⟨_, heq, hsame⟩ := ht.sameType w hwv hlinked l' hw
      cases heq
      exact hsame
    · rename_i huv hwv
      subst hwv
      cases hw
      obtain ⟨_, heq, hsame⟩ := ht.sameType u huv hlinked.symm l hu
      cases heq
      exact hsame.symm
    · exact h.datatype u w l l' hlinked hu hw

end Typed

/-! ### What is left to be bound -/

/-- What is left to be bound: the variables of the remaining quantifiers are distinct and unbound,
and the sentence has no others that are unbound. -/
structure Pending (f : Formula) (qs : List Quantifier) (a : Assignment) : Prop where
  nodup : (qs.map (·.var)).Nodup
  unbound : ∀ v ∈ qs.map (·.var), a.get? v = none
  covers : ∀ v ∈ f.sentence.vars, a.get? v = none → v ∈ qs.map (·.var)

namespace Pending

variable {q : Quantifier} {qs : List Quantifier}

theorem extends_insert (h : f.Pending (q :: qs) a) (t : Term) :
    Assignment.Extends (a.insert q.var t) a :=
  Assignment.extends_insert (h.unbound q.var List.mem_cons_self) t

theorem insert (h : f.Pending (q :: qs) a) (t : Term) : f.Pending qs (a.insert q.var t) := by
  obtain ⟨hq, hqs⟩ := List.nodup_cons.1 h.nodup
  refine ⟨hqs, fun v hv => ?_, fun v hv hnone => ?_⟩
  · have hne : v ≠ q.var := by
      rintro rfl
      exact hq hv
    rw [Table.get?_insert, if_neg hne]
    exact h.unbound v (List.mem_cons_of_mem _ hv)
  · rw [Table.get?_insert] at hnone
    split at hnone
    · cases hnone
    · rename_i hne
      exact (List.mem_cons.1 (h.covers v hv hnone)).resolve_left hne

theorem bound (h : f.Pending [] a) : ∀ v ∈ f.sentence.vars, a.get? v ≠ none :=
  fun v hv hnone => List.not_mem_nil (h.covers v hv hnone)

end Pending

/-! ### Values of formulas -/

theorem update_get? (a : Assignment) (v : Variable) (t : Term) :
    Function.update a.get? v (some t) = (a.insert v t).get? := by
  funext u
  rw [Function.update_apply, Table.get?_insert]

/-- **A decided sentence decides the formula**: it stays decided in the same way, and each of the
remaining quantifiers ranges over something. -/
theorem holdsFrom_of_decided (horderable : ∃ t ∈ candidates, t.isOrderable = true)
    {qs : List Quantifier} (htyped : f.Typed candidates a) (hpending : f.Pending qs a) {r : Truth}
    (hr : f.sentence.evaluate facts a = .ok r) (hdecided : r ≠ .undecided) :
    f.HoldsFrom facts candidates qs a.get? ↔ r = .yes := by
  induction qs generalizing a with
  | nil => exact (Sentence.decides_of_bound f.sentence hpending.bound hr).2.symm
  | cons q qs ih =>
    -- whatever the variable is bound to, the rest has the same value
    have hrest : ∀ t ∈ candidates, f.Admits a.get? q.var t →
        (f.HoldsFrom facts candidates qs (Function.update a.get? q.var (some t)) ↔ r = .yes) := by
      intro t hmem ht
      have hr' := Sentence.evaluate_of_decided (hpending.extends_insert t) hdecided hr
      rw [update_get?]
      exact ih (htyped.insert hmem ht) (hpending.insert t) hr'
    obtain ⟨t, hmem, ht⟩ := htyped.exists_admits horderable q.var
    cases q with
    | universal v =>
      exact ⟨fun hall => (hrest t hmem ht).1 (hall t hmem ht),
        fun hyes u hu hadmits => (hrest u hu hadmits).2 hyes⟩
    | existential v =>
      exact ⟨fun ⟨u, hu, hadmits, hholds⟩ => (hrest u hu hadmits).1 hholds,
        fun hyes => ⟨t, hmem, ht, (hrest t hmem ht).2 hyes⟩⟩

/-- **The value of what is left** of a formula is what it says. -/
theorem value_iff_holdsFrom (hbare : f.sentence.bare = [])
    (horderable : ∃ t ∈ candidates, t.isOrderable = true) {qs : List Quantifier}
    (htyped : f.Typed candidates a) (hpending : f.Pending qs a) :
    f.value facts candidates qs a = true ↔ f.HoldsFrom facts candidates qs a.get? := by
  induction qs generalizing a with
  | nil =>
    obtain ⟨r, hr⟩ : ∃ r, f.sentence.evaluate facts a = .ok r := f.sentence.evaluate_ok hbare
    have hdecides := Sentence.decides_of_bound f.sentence hpending.bound hr
    rw [value, hr, HoldsFrom, ← hdecides.2]
    cases r <;> simp
  | cons q qs ih =>
    obtain ⟨r, hr⟩ : ∃ r, f.sentence.evaluate facts a = .ok r := f.sentence.evaluate_ok hbare
    have hearly := holdsFrom_of_decided horderable htyped hpending hr
    rw [value, hr]
    cases r with
    | yes => simpa using hearly
    | no => simpa using hearly
    | undecided =>
      have hrest : ∀ t ∈ candidates, f.Admits a.get? q.var t →
          (f.value facts candidates qs (a.insert q.var t) = true ↔
            f.HoldsFrom facts candidates qs (Function.update a.get? q.var (some t))) := by
        intro t hmem ht
        rw [update_get?]
        exact ih (htyped.insert hmem ht) (hpending.insert t)
      cases q with
      | universal v =>
        simp only [Quantifier.among, List.all_eq_true, List.mem_filter, htyped.isAdmissible_iff,
          HoldsFrom, and_imp]
        exact forall₃_congr hrest
      | existential v =>
        simp only [Quantifier.among, List.any_eq_true, List.mem_filter, htyped.isAdmissible_iff,
          HoldsFrom, and_assoc]
        exact exists_congr fun t => and_congr_right fun hmem => and_congr_right (hrest t hmem)

/-- **Evaluation is first-order.** If the quantified variables are distinct, the sentence mentions
no others and none of them stands for a sentence, and some candidate is orderable, then a formula
evaluates to whether what it says is true. -/
theorem evaluate_iff_holds (f : Formula) (facts : Facts) (candidates : List Term)
    (hdistinct : (f.quantifiers.map (·.var)).Nodup)
    (hclosed : ∀ v ∈ f.sentence.vars, v ∈ f.quantifiers.map (·.var))
    (hbare : f.sentence.bare = []) (horderable : ∃ t ∈ candidates, t.isOrderable = true) :
    ∃ b, (f.evaluate facts candidates).result = .ok b ∧ (b = true ↔ f.Holds facts candidates) := by
  refine ⟨_, evaluate_eq_value hbare (grouped_of_nodup hdistinct), ?_⟩
  have hpending : f.Pending f.quantifiers [] :=
    ⟨hdistinct, fun _ _ => rfl, fun v hv _ => hclosed v hv⟩
  exact value_iff_holdsFrom hbare horderable .nil hpending

/-- Some value is at least all others. -/
def greatestOfAll : Formula :=
  ⟨[.existential ⟨"x"⟩, .universal ⟨"y"⟩],
    .compare .lessOrEqual (.var ⟨"y"⟩) (.var ⟨"x"⟩)⟩

/-- Terms that are not numbers are not compared with the greatest one. -/
theorem evaluate_iff_holds_greatestOfAll :
    greatestOfAll.Holds ⟨[], []⟩ [.blank "b", integerTerm "1", integerTerm "2"] := by
  obtain ⟨b, hb, hiff⟩ := evaluate_iff_holds greatestOfAll ⟨[], []⟩
    [.blank "b", integerTerm "1", integerTerm "2"] (by decide) (by decide) rfl
    ⟨integerTerm "1", by simp, by decide +kernel⟩
  have heval : (greatestOfAll.evaluate ⟨[], []⟩
      [.blank "b", integerTerm "1", integerTerm "2"]).result = .ok true := by decide +kernel
  rw [heval] at hb
  cases hb
  exact hiff.1 rfl

end Formula

end ShapeTyping
