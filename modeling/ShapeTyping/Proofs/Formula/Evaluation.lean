import Mathlib
import ShapeTyping.Formula.Sentence

/-!
# Truth of sentences

A sentence may have a value before all of its variables are bound. The value stays when more
variables are bound, and it is the one that the sentence has when it is read in two values.

* `Sentence.vars`, `Sentence.bare`: the variables of a sentence, and those that stand for
  sentences.
* `Sentence.evaluate_ok`: without the latter a sentence has a value.
* `Truth.Refines`, `Sentence.evaluate_mono`: what happens when more variables are bound.
* `Sentence.Holds`, `Sentence.decides_of_bound`: what a sentence says, and that its value is the one
  of that when all variables are bound.
* `Sentence.evaluate_of_extends`: a value that is decided early is the one of all extensions.
-/

namespace ShapeTyping

/-! ### Variables of a sentence -/

namespace Sentence

mutual
/-- The variables of a sentence. -/
def vars : Sentence → List Variable
  | and ss => varsOfList ss
  | or ss => varsOfList ss
  | not s => s.vars
  | shape v _ => [v]
  | triple s o _ => [s, o]
  | compare _ x y => [x, y].filterMap (·.var?)
  | var v => [v]

def varsOfList : List Sentence → List Variable
  | [] => []
  | s :: ss => s.vars ++ varsOfList ss
end

mutual
/-- The variables that stand for sentences. -/
def bare : Sentence → List Variable
  | and ss => bareOfList ss
  | or ss => bareOfList ss
  | not s => s.bare
  | shape _ _ => []
  | triple _ _ _ => []
  | compare _ _ _ => []
  | var v => [v]

def bareOfList : List Sentence → List Variable
  | [] => []
  | s :: ss => s.bare ++ bareOfList ss
end

end Sentence

/-! ### Values -/

section Values

variable {facts : Facts} {a b : Assignment}

namespace Sentence

mutual
/-- **A sentence has a value** if no variable stands for a sentence. -/
theorem evaluate_ok : (s : Sentence) → s.bare = [] → ∃ t, s.evaluate facts a = .ok t
  | and ss, h => by
    rw [evaluate]
    exact evaluateAll_ok .yes ss h
  | or ss, h => by
    rw [evaluate]
    exact evaluateAny_ok .no ss h
  | not s, h => by
    obtain ⟨t, ht⟩ := evaluate_ok s h
    exact ⟨t.not, by rw [evaluate, ht, Except.map]⟩
  | shape v l, _ => by
    rw [evaluate]
    split <;> exact ⟨_, rfl⟩
  | triple s o l, _ => by
    rw [evaluate]
    split <;> exact ⟨_, rfl⟩
  | compare op x y, _ => by
    rw [evaluate]
    split <;> exact ⟨_, rfl⟩
  | var v, h => by cases h

theorem evaluateAll_ok : (acc : Truth) → (ss : List Sentence) → bareOfList ss = [] →
    ∃ t, evaluateAll facts a acc ss = .ok t
  | acc, [], _ => ⟨acc, by rw [evaluateAll]⟩
  | acc, s :: ss, h => by
    obtain ⟨hs, hss⟩ := List.append_eq_nil_iff.1 h
    obtain ⟨t, ht⟩ := evaluate_ok s hs
    simp only [evaluateAll, ht]
    split
    · exact ⟨_, rfl⟩
    · exact evaluateAll_ok _ ss hss

theorem evaluateAny_ok : (acc : Truth) → (ss : List Sentence) → bareOfList ss = [] →
    ∃ t, evaluateAny facts a acc ss = .ok t
  | acc, [], _ => ⟨acc, by rw [evaluateAny]⟩
  | acc, s :: ss, h => by
    obtain ⟨hs, hss⟩ := List.append_eq_nil_iff.1 h
    obtain ⟨t, ht⟩ := evaluate_ok s hs
    simp only [evaluateAny, ht]
    split
    · exact ⟨_, rfl⟩
    · exact evaluateAny_ok _ ss hss
end

mutual
/-- **The value depends on the values of variables only.** -/
theorem evaluate_congr (h : ∀ v, a.get? v = b.get? v) :
    (s : Sentence) → s.evaluate facts a = s.evaluate facts b
  | and ss => by rw [evaluate, evaluate, evaluateAll_congr h]
  | or ss => by rw [evaluate, evaluate, evaluateAny_congr h]
  | not s => by rw [evaluate, evaluate, evaluate_congr h s]
  | shape v l => by rw [evaluate, evaluate, h]
  | triple s o l => by rw [evaluate, evaluate, h, h]
  | compare op x y => by
    have hvalue : ∀ x : Operand, x.value? a = x.value? b := by
      intro x
      cases x with
      | var v => exact h v
      | const t => rfl
    rw [evaluate, evaluate, hvalue, hvalue]
  | var v => by rw [evaluate, evaluate]

theorem evaluateAll_congr (h : ∀ v, a.get? v = b.get? v) : (acc : Truth) → (ss : List Sentence) →
    evaluateAll facts a acc ss = evaluateAll facts b acc ss
  | acc, [] => by rw [evaluateAll, evaluateAll]
  | acc, s :: ss => by
    rw [evaluateAll, evaluateAll, evaluate_congr h s]
    simp only [evaluateAll_congr h _ ss]

theorem evaluateAny_congr (h : ∀ v, a.get? v = b.get? v) : (acc : Truth) → (ss : List Sentence) →
    evaluateAny facts a acc ss = evaluateAny facts b acc ss
  | acc, [] => by rw [evaluateAny, evaluateAny]
  | acc, s :: ss => by
    rw [evaluateAny, evaluateAny, evaluate_congr h s]
    simp only [evaluateAny_congr h _ ss]
end

/-! A value of a sentence comes from values of its parts. -/

variable {s : Sentence} {ss : List Sentence} {t acc : Truth}

theorem evaluate_not_eq_ok :
    (not s).evaluate facts a = .ok t ↔ ∃ u, s.evaluate facts a = .ok u ∧ u.not = t := by
  rw [evaluate]
  cases s.evaluate facts a <;> simp [Except.map]

theorem evaluateAll_cons_eq_ok : evaluateAll facts a acc (s :: ss) = .ok t ↔
    ∃ u, s.evaluate facts a = .ok u ∧
      if acc.and u = .no then t = .no else evaluateAll facts a (acc.and u) ss = .ok t := by
  rw [evaluateAll]
  cases s.evaluate facts a with
  | error e => simp
  | ok u =>
    by_cases hno : acc.and u = .no
    · simp [hno, eq_comm]
    · simp [hno]

theorem evaluateAny_cons_eq_ok : evaluateAny facts a acc (s :: ss) = .ok t ↔
    ∃ u, s.evaluate facts a = .ok u ∧
      if acc.or u = .yes then t = .yes else evaluateAny facts a (acc.or u) ss = .ok t := by
  rw [evaluateAny]
  cases s.evaluate facts a with
  | error e => simp
  | ok u =>
    by_cases hyes : acc.or u = .yes
    · simp [hyes, eq_comm]
    · simp [hyes]

end Sentence

end Values

/-! ### More bound variables -/

/-- Whether a value is decided in one way only if another one is decided in the same way. -/
def Truth.Refines (t u : Truth) : Prop := u = .undecided ∨ t = u

namespace Truth.Refines

variable {t t' u u' : Truth}

theorem not (h : t.Refines u) : t.not.Refines u.not := by
  rcases h with rfl | rfl
  · exact .inl rfl
  · exact .inr rfl

theorem and (h : t.Refines u) (h' : t'.Refines u') : (t.and t').Refines (u.and u') := by
  rcases h with rfl | rfl <;> rcases h' with rfl | rfl
  · exact .inl rfl
  · cases t' <;> cases t <;> simp [Truth.and, Refines]
  · cases t <;> cases t' <;> simp [Truth.and, Refines]
  · exact .inr rfl

theorem or (h : t.Refines u) (h' : t'.Refines u') : (t.or t').Refines (u.or u') := by
  rcases h with rfl | rfl <;> rcases h' with rfl | rfl
  · exact .inl rfl
  · cases t' <;> cases t <;> simp [Truth.or, Refines]
  · cases t <;> cases t' <;> simp [Truth.or, Refines]
  · exact .inr rfl

theorem eq_of_ne_undecided (h : t.Refines u) (hu : u ≠ .undecided) : t = u :=
  h.resolve_left hu

end Truth.Refines

/-- Whether an assignment gives all values of another one. -/
def Assignment.Extends (b a : Assignment) : Prop := ∀ v t, a.get? v = some t → b.get? v = some t

theorem Assignment.extends_insert {a : Assignment} {v : Variable} (hv : a.get? v = none)
    (t : Term) : Assignment.Extends (a.insert v t) a := by
  intro w u hw
  have hne : w ≠ v := by
    rintro rfl
    rw [hv] at hw
    cases hw
  rw [Table.get?_insert, if_neg hne, hw]

theorem Operand.value?_of_extends {a b : Assignment} (h : b.Extends a) {x : Operand} {t : Term}
    (hx : x.value? a = some t) : x.value? b = some t := by
  cases x with
  | var v => exact h v t hx
  | const u => exact hx

namespace Sentence

section Extends

variable {facts : Facts} {a b : Assignment}

/-- A false conjunction stays false. -/
theorem eq_no_of_evaluateAll {ss : List Sentence} {t : Truth}
    (h : evaluateAll facts a .no ss = .ok t) : t = .no := by
  cases ss with
  | nil =>
    rw [evaluateAll] at h
    cases h
    rfl
  | cons s ss =>
    obtain ⟨u, -, h⟩ := evaluateAll_cons_eq_ok.1 h
    rwa [Truth.and, if_pos rfl] at h

/-- A true disjunction stays true. -/
theorem eq_yes_of_evaluateAny {ss : List Sentence} {t : Truth}
    (h : evaluateAny facts a .yes ss = .ok t) : t = .yes := by
  cases ss with
  | nil =>
    rw [evaluateAny] at h
    cases h
    rfl
  | cons s ss =>
    obtain ⟨u, -, h⟩ := evaluateAny_cons_eq_ok.1 h
    rwa [Truth.or, if_pos rfl] at h

mutual
/-- **A decided value stays** when more variables are bound, and a value does not become an
error. -/
theorem evaluate_mono (h : b.Extends a) : (s : Sentence) → {t : Truth} →
    s.evaluate facts a = .ok t → ∃ t', s.evaluate facts b = .ok t' ∧ t'.Refines t
  | and ss, t, hs => by
    rw [evaluate] at hs ⊢
    exact evaluateAll_mono h (.inr rfl) ss hs
  | or ss, t, hs => by
    rw [evaluate] at hs ⊢
    exact evaluateAny_mono h (.inr rfl) ss hs
  | not s, t, hs => by
    obtain ⟨u, hu, rfl⟩ := evaluate_not_eq_ok.1 hs
    obtain ⟨u', hu', href⟩ := evaluate_mono h s hu
    exact ⟨u'.not, evaluate_not_eq_ok.2 ⟨u', hu', rfl⟩, href.not⟩
  | shape v l, t, hs => by
    rw [evaluate] at hs ⊢
    split at hs
    · rename_i u hu
      exact ⟨t, by rw [h v u hu, ← hs], .inr rfl⟩
    · cases hs
      split <;> exact ⟨_, rfl, .inl rfl⟩
  | triple s o l, t, hs => by
    rw [evaluate] at hs ⊢
    split at hs
    · rename_i u w hu hw
      exact ⟨t, by rw [h s u hu, h o w hw, ← hs], .inr rfl⟩
    · cases hs
      split <;> exact ⟨_, rfl, .inl rfl⟩
  | compare op x y, t, hs => by
    rw [evaluate] at hs ⊢
    split at hs
    · rename_i u w hu hw
      rw [Operand.value?_of_extends h hu, Operand.value?_of_extends h hw]
      exact ⟨t, hs, .inr rfl⟩
    · cases hs
      split <;> exact ⟨_, rfl, .inl rfl⟩
  | var v, t, hs => by
    rw [evaluate] at hs
    cases hs

theorem evaluateAll_mono (h : b.Extends a) {acc acc' : Truth} (hacc : acc'.Refines acc) :
    (ss : List Sentence) → {t : Truth} → evaluateAll facts a acc ss = .ok t →
      ∃ t', evaluateAll facts b acc' ss = .ok t' ∧ t'.Refines t
  | [], t, hs => by
    rw [evaluateAll] at hs ⊢
    cases hs
    exact ⟨acc', rfl, hacc⟩
  | s :: ss, t, hs => by
    obtain ⟨u, hu, hs⟩ := evaluateAll_cons_eq_ok.1 hs
    obtain ⟨u', hu', href⟩ := evaluate_mono h s hu
    have hand := hacc.and href
    by_cases hno : acc.and u = .no
    · have hno' : acc'.and u' = .no := (hno ▸ hand).eq_of_ne_undecided (by decide)
      rw [if_pos hno] at hs
      exact ⟨.no, evaluateAll_cons_eq_ok.2 ⟨u', hu', by rw [if_pos hno']⟩, .inr hs.symm⟩
    · rw [if_neg hno] at hs
      obtain ⟨t', ht', hrefines⟩ := evaluateAll_mono h hand ss hs
      refine ⟨t', evaluateAll_cons_eq_ok.2 ⟨u', hu', ?_⟩, hrefines⟩
      split
      · -- decided by what is bound now, and the rest does not change that
        rename_i hno'
        rw [hno'] at ht'
        exact eq_no_of_evaluateAll ht'
      · exact ht'

theorem evaluateAny_mono (h : b.Extends a) {acc acc' : Truth} (hacc : acc'.Refines acc) :
    (ss : List Sentence) → {t : Truth} → evaluateAny facts a acc ss = .ok t →
      ∃ t', evaluateAny facts b acc' ss = .ok t' ∧ t'.Refines t
  | [], t, hs => by
    rw [evaluateAny] at hs ⊢
    cases hs
    exact ⟨acc', rfl, hacc⟩
  | s :: ss, t, hs => by
    obtain ⟨u, hu, hs⟩ := evaluateAny_cons_eq_ok.1 hs
    obtain ⟨u', hu', href⟩ := evaluate_mono h s hu
    have hor := hacc.or href
    by_cases hyes : acc.or u = .yes
    · have hyes' : acc'.or u' = .yes := (hyes ▸ hor).eq_of_ne_undecided (by decide)
      rw [if_pos hyes] at hs
      exact ⟨.yes, evaluateAny_cons_eq_ok.2 ⟨u', hu', by rw [if_pos hyes']⟩, .inr hs.symm⟩
    · rw [if_neg hyes] at hs
      obtain ⟨t', ht', hrefines⟩ := evaluateAny_mono h hor ss hs
      refine ⟨t', evaluateAny_cons_eq_ok.2 ⟨u', hu', ?_⟩, hrefines⟩
      split
      · rename_i hyes'
        rw [hyes'] at ht'
        exact eq_yes_of_evaluateAny ht'
      · exact ht'
end

theorem evaluate_of_decided (h : b.Extends a) {s : Sentence} {t : Truth} (ht : t ≠ .undecided)
    (hs : s.evaluate facts a = .ok t) : s.evaluate facts b = .ok t := by
  obtain ⟨t', ht', hrefines⟩ := evaluate_mono h s hs
  rw [ht', hrefines.eq_of_ne_undecided ht]

end Extends

end Sentence

/-! ### Two values -/

/-- The value of an operand where variables have the given values. -/
def Operand.valueIn (ρ : Variable → Option Term) : Operand → Option Term
  | var v => ρ v
  | const t => some t

theorem Operand.value?_eq (a : Assignment) (x : Operand) : x.value? a = x.valueIn a.get? := by
  cases x <;> rfl

namespace Sentence

mutual
/-- What a sentence says of the values of its variables. A variable is not a sentence. -/
def Holds (facts : Facts) (ρ : Variable → Option Term) : Sentence → Prop
  | and ss => HoldsAll facts ρ ss
  | or ss => HoldsAny facts ρ ss
  | not s => ¬s.Holds facts ρ
  | shape v l => ∃ t, ρ v = some t ∧ (t, l) ∈ facts.shapes
  | triple s o l => ∃ t u, ρ s = some t ∧ ρ o = some u ∧ (t, u, l) ∈ facts.triples
  | compare op x y => ∃ t u, x.valueIn ρ = some t ∧ y.valueIn ρ = some u ∧ op.apply t u = true
  | var _ => False

def HoldsAll (facts : Facts) (ρ : Variable → Option Term) : List Sentence → Prop
  | [] => True
  | s :: ss => s.Holds facts ρ ∧ HoldsAll facts ρ ss

def HoldsAny (facts : Facts) (ρ : Variable → Option Term) : List Sentence → Prop
  | [] => False
  | s :: ss => s.Holds facts ρ ∨ HoldsAny facts ρ ss
end

end Sentence

/-- Whether a value is the one of a condition, and not undecided. -/
def Truth.Decides (t : Truth) (p : Prop) : Prop := t ≠ .undecided ∧ (t = .yes ↔ p)

namespace Truth.Decides

variable {t u : Truth} {p q : Prop}

theorem not (h : t.Decides p) : t.not.Decides (¬p) := by
  obtain ⟨ht, hp⟩ := h
  cases t <;> simp_all [Decides, Truth.not]

theorem and (h : t.Decides p) (h' : u.Decides q) : (t.and u).Decides (p ∧ q) := by
  obtain ⟨ht, hp⟩ := h
  obtain ⟨hu, hq⟩ := h'
  cases t <;> cases u <;> simp_all [Decides, Truth.and]

theorem or (h : t.Decides p) (h' : u.Decides q) : (t.or u).Decides (p ∨ q) := by
  obtain ⟨ht, hp⟩ := h
  obtain ⟨hu, hq⟩ := h'
  cases t <;> cases u <;> simp_all [Decides, Truth.or]

theorem ofBool (b : Bool) : (Truth.ofBool b).Decides (b = true) := by
  cases b <;> simp [Decides, Truth.ofBool]

theorem congr (h : t.Decides p) (hpq : p ↔ q) : t.Decides q := ⟨h.1, h.2.trans hpq⟩

end Truth.Decides

namespace Sentence

variable {facts : Facts} {a : Assignment}

mutual
/-- **With all variables bound** the value is that of what the sentence says. -/
theorem decides_of_bound : (s : Sentence) → (∀ v ∈ s.vars, a.get? v ≠ none) → {t : Truth} →
    s.evaluate facts a = .ok t → t.Decides (s.Holds facts a.get?)
  | and ss, hv, t, hs => by
    rw [evaluate] at hs
    rw [Holds]
    exact (decides_of_boundAll ss hv (p := True) ⟨by decide, by simp⟩ hs).congr (by rw [true_and])
  | or ss, hv, t, hs => by
    rw [evaluate] at hs
    rw [Holds]
    exact (decides_of_boundAny ss hv (p := False) ⟨by decide, by simp⟩ hs).congr (by rw [false_or])
  | not s, hv, t, hs => by
    obtain ⟨u, hu, rfl⟩ := evaluate_not_eq_ok.1 hs
    rw [Holds]
    exact (decides_of_bound s hv hu).not
  | shape v l, hv, t, hs => by
    obtain ⟨u, hu⟩ := Option.ne_none_iff_exists'.1 (hv v (List.mem_singleton_self v))
    simp only [evaluate, hu] at hs
    cases hs
    refine (Truth.Decides.ofBool _).congr ?_
    simp [Holds, hu]
  | triple s o l, hv, t, hs => by
    obtain ⟨u, hu⟩ := Option.ne_none_iff_exists'.1 (hv s (by simp [vars]))
    obtain ⟨w, hw⟩ := Option.ne_none_iff_exists'.1 (hv o (by simp [vars]))
    simp only [evaluate, hu, hw] at hs
    cases hs
    refine (Truth.Decides.ofBool _).congr ?_
    simp [Holds, hu, hw]
  | compare op x y, hv, t, hs => by
    have hbound : ∀ z ∈ [x, y], ∃ u, z.valueIn a.get? = some u := by
      intro z hz
      cases z with
      | var v => exact Option.ne_none_iff_exists'.1 (hv v (List.mem_filterMap.2 ⟨_, hz, rfl⟩))
      | const u => exact ⟨u, rfl⟩
    obtain ⟨u, hu⟩ := hbound x (by simp)
    obtain ⟨w, hw⟩ := hbound y (by simp)
    simp only [evaluate, Operand.value?_eq, hu, hw] at hs
    cases hs
    refine (Truth.Decides.ofBool _).congr ?_
    simp [Holds, hu, hw]
  | var v, _, t, hs => by
    rw [evaluate] at hs
    cases hs

theorem decides_of_boundAll : (ss : List Sentence) → (∀ v ∈ varsOfList ss, a.get? v ≠ none) →
    {acc t : Truth} → {p : Prop} → acc.Decides p → evaluateAll facts a acc ss = .ok t →
      t.Decides (p ∧ HoldsAll facts a.get? ss)
  | [], _, acc, t, p, hacc, hs => by
    rw [evaluateAll] at hs
    cases hs
    exact hacc.congr (by simp [HoldsAll])
  | s :: ss, hv, acc, t, p, hacc, hs => by
    obtain ⟨u, hu, hs⟩ := evaluateAll_cons_eq_ok.1 hs
    have hand := hacc.and (decides_of_bound s (fun v h => hv v (List.mem_append_left _ h)) hu)
    by_cases hno : acc.and u = .no
    · have hfalse : ¬(p ∧ s.Holds facts a.get?) := fun h => by
        have hyes := hand.2.2 h
        rw [hno] at hyes
        cases hyes
      rw [if_pos hno] at hs
      subst hs
      refine ⟨by decide, ?_⟩
      simp only [HoldsAll, ← and_assoc, hfalse, false_and]
      decide
    · rw [if_neg hno] at hs
      have hss := decides_of_boundAll ss (fun v h => hv v (List.mem_append_right _ h)) hand hs
      exact hss.congr (by rw [HoldsAll, and_assoc])

theorem decides_of_boundAny : (ss : List Sentence) → (∀ v ∈ varsOfList ss, a.get? v ≠ none) →
    {acc t : Truth} → {p : Prop} → acc.Decides p → evaluateAny facts a acc ss = .ok t →
      t.Decides (p ∨ HoldsAny facts a.get? ss)
  | [], _, acc, t, p, hacc, hs => by
    rw [evaluateAny] at hs
    cases hs
    exact hacc.congr (by simp [HoldsAny])
  | s :: ss, hv, acc, t, p, hacc, hs => by
    obtain ⟨u, hu, hs⟩ := evaluateAny_cons_eq_ok.1 hs
    have hor := hacc.or (decides_of_bound s (fun v h => hv v (List.mem_append_left _ h)) hu)
    by_cases hyes : acc.or u = .yes
    · have htrue : p ∨ s.Holds facts a.get? := hor.2.1 hyes
      rw [if_pos hyes] at hs
      subst hs
      refine ⟨by decide, iff_of_true rfl ?_⟩
      rw [HoldsAny, ← or_assoc]
      exact .inl htrue
    · rw [if_neg hyes] at hs
      have hss := decides_of_boundAny ss (fun v h => hv v (List.mem_append_right _ h)) hor hs
      exact hss.congr (by rw [HoldsAny, or_assoc])
end

end Sentence

/-! ### Early decisions -/

/-- **Early decisions are sound.** A sentence that is decided has the same value when more variables
are bound, and one that is undecided has a value then. So a decision is the one of what the sentence
says in each extension that binds all of its variables. -/
theorem Sentence.evaluate_of_extends {facts : Facts} {a b : Assignment} (h : b.Extends a)
    (s : Sentence) :
    (s.evaluate facts a = .ok .yes → s.evaluate facts b = .ok .yes) ∧
      (s.evaluate facts a = .ok .no → s.evaluate facts b = .ok .no) ∧
      (s.evaluate facts a = .ok .undecided → ∃ t, s.evaluate facts b = .ok t) ∧
      ((∀ v ∈ s.vars, b.get? v ≠ none) →
        (s.evaluate facts a = .ok .yes → s.Holds facts b.get?) ∧
          (s.evaluate facts a = .ok .no → ¬s.Holds facts b.get?)) := by
  have hyes : s.evaluate facts a = .ok .yes → s.evaluate facts b = .ok .yes :=
    evaluate_of_decided h (by decide)
  have hno : s.evaluate facts a = .ok .no → s.evaluate facts b = .ok .no :=
    evaluate_of_decided h (by decide)
  refine ⟨hyes, hno, fun hs => ?_, fun hbound => ⟨fun hs => ?_, fun hs hholds => ?_⟩⟩
  · obtain ⟨t, ht, -⟩ := evaluate_mono h s hs
    exact ⟨t, ht⟩
  · exact (decides_of_bound s hbound (hyes hs)).2.1 rfl
  · exact absurd ((decides_of_bound s hbound (hno hs)).2.2 hholds) (by decide)

/-- A conjunction is false because of its second sentence. The first one is decided later, and the
variable at the end, which would be an error, is reached in neither assignment. -/
theorem Sentence.evaluate_of_extends_earlyNo :
    let x : Variable := ⟨"x"⟩
    let y : Variable := ⟨"y"⟩
    let s : Sentence := .and [.compare .equal (.var x) (.var y),
      .not (.compare .equal (.var x) (.var x)), .var y]
    let a : Assignment := [(x, .iri ⟨"urn:a"⟩)]
    s.evaluate ⟨[], []⟩ a = .ok .no ∧
      s.evaluate ⟨[], []⟩ (a.insert y (.iri ⟨"urn:a"⟩)) = .ok .no ∧
      (Sentence.var y).evaluate ⟨[], []⟩ a = .error (.unboundVariable y) := by
  intro x y s a
  have hno : s.evaluate ⟨[], []⟩ a = .ok .no := by rfl
  have hextends := Assignment.extends_insert (a := a) (v := y) rfl (.iri ⟨"urn:a"⟩)
  exact ⟨hno, (evaluate_of_extends hextends s).2.1 hno, rfl⟩

end ShapeTyping
