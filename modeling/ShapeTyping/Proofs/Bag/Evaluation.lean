import Mathlib
import ShapeTyping.Bag.Expr
import ShapeTyping.Proofs.Bag.Language
import ShapeTyping.Proofs.Interval

/-!
# Evaluation of bag expressions

A bag expression stands for a language of bags of constraint indices. One pass over the tree
finds out how often each part has to be repeated to use up its share of a bag, provided no
index occurs twice and all cardinalities have their bounds in order.

* `BagExpr.nullable_iff`: the expressions that accept the empty bag.
* `BagExpr.evaluate_describes`: the reading of a part holds the numbers of rounds through its
  language that give its share of the bag, and no finite bound exceeds the size of that share.
* `BagExpr.evaluate_exact`: the same for every part of a tree and every bag of at most as many
  edges as a word can count; on the way no addition stops at the largest word.
-/

namespace ShapeTyping

namespace BagExpr

/-! ### Language, indices and cardinalities -/

mutual
/-- The bags of constraint indices that an expression stands for. -/
def language : BagExpr → BagLanguage ℕ
  | constraint i => .symbol i
  | repeated e card => e.language.rounds card
  | eachOf es => languageEach es
  | oneOf es => languageOne es
  | empty => 1

def languageEach : List BagExpr → BagLanguage ℕ
  | [] => 1
  | e :: es => e.language * languageEach es

def languageOne : List BagExpr → BagLanguage ℕ
  | [] => 0
  | e :: es => e.language + languageOne es
end

mutual
/-- The constraint indices of an expression, left to right. -/
def leaves : BagExpr → List ℕ
  | constraint i => [i]
  | repeated e _ => e.leaves
  | eachOf es => leavesOfList es
  | oneOf es => leavesOfList es
  | empty => []

def leavesOfList : List BagExpr → List ℕ
  | [] => []
  | e :: es => e.leaves ++ leavesOfList es
end

mutual
/-- The cardinalities of an expression. -/
def cards : BagExpr → List Cardinality
  | constraint _ => []
  | repeated e card => card :: e.cards
  | eachOf es => cardsOfList es
  | oneOf es => cardsOfList es
  | empty => []

def cardsOfList : List BagExpr → List Cardinality
  | [] => []
  | e :: es => e.cards ++ cardsOfList es
end

mutual
/-- The parts of an expression, itself included. -/
def parts : BagExpr → List BagExpr
  | constraint i => [constraint i]
  | repeated e card => repeated e card :: e.parts
  | eachOf es => eachOf es :: partsOfList es
  | oneOf es => oneOf es :: partsOfList es
  | empty => [empty]

def partsOfList : List BagExpr → List BagExpr
  | [] => []
  | e :: es => e.parts ++ partsOfList es
end

/-- Each index occurs once, and the bounds of all cardinalities are in order. -/
structure SingleOccurrence (e : BagExpr) : Prop where
  nodup : e.leaves.Nodup
  valid : ∀ c ∈ e.cards, c.Valid

mutual
theorem language_over : (e : BagExpr) → e.language.Over e.leaves
  | constraint i => by rintro b rfl; simp [leaves]
  | repeated e card => (language_over e).rounds card
  | eachOf es => languageEach_over es
  | oneOf es => languageOne_over es
  | empty => by rintro b rfl; simp

theorem languageEach_over : (es : List BagExpr) → (languageEach es).Over (leavesOfList es)
  | [] => by rintro b rfl; simp
  | e :: es =>
    ((language_over e).mono fun _ h => List.mem_append_left _ h).mul
      ((languageEach_over es).mono fun _ h => List.mem_append_right _ h)

theorem languageOne_over : (es : List BagExpr) → (languageOne es).Over (leavesOfList es)
  | [] => nofun
  | e :: es => by
    rintro b (hb | hb) a ha
    · exact List.mem_append_left _ (language_over e b hb a ha)
    · exact List.mem_append_right _ (languageOne_over es b hb a ha)
end

mutual
/-- **Nullable expressions** are those that accept the empty bag. -/
theorem nullable_iff : (e : BagExpr) → (∀ c ∈ e.cards, c.Valid) →
    (e.nullable = true ↔ 0 ∈ e.language)
  | constraint i, _ => by simp [nullable, language]
  | repeated e card, h => by
    rw [nullable, language, BagLanguage.zero_mem_rounds (h card (by simp [cards])),
      Bool.or_eq_true, decide_eq_true_eq,
      nullable_iff e fun c hc => h c (List.mem_cons_of_mem _ hc)]
  | eachOf es, h => allNullable_iff es h
  | oneOf es, h => anyNullable_iff es h
  | empty, _ => by simp [nullable, language]

theorem allNullable_iff : (es : List BagExpr) → (∀ c ∈ cardsOfList es, c.Valid) →
    (allNullable es = true ↔ 0 ∈ languageEach es)
  | [], _ => by simp [allNullable, languageEach]
  | e :: es, h => by
    rw [allNullable, languageEach, Bool.and_eq_true,
      nullable_iff e fun c hc => h c (List.mem_append_left _ hc),
      allNullable_iff es fun c hc => h c (List.mem_append_right _ hc)]
    constructor
    · rintro ⟨he, hes⟩; exact ⟨0, he, 0, hes, rfl⟩
    · rintro ⟨x, hx, y, hy, hxy⟩
      obtain ⟨rfl, rfl⟩ := add_eq_zero.1 hxy
      exact ⟨hx, hy⟩

theorem anyNullable_iff : (es : List BagExpr) → (∀ c ∈ cardsOfList es, c.Valid) →
    (anyNullable es = true ↔ 0 ∈ languageOne es)
  | [], _ => by simp [anyNullable, languageOne]
  | e :: es, h => by
    rw [anyNullable, languageOne, Bool.or_eq_true, BagLanguage.mem_add,
      nullable_iff e fun c hc => h c (List.mem_append_left _ hc),
      anyNullable_iff es fun c hc => h c (List.mem_append_right _ hc)]
end

/-! ### Readings -/

theorem ceil_div_le (l : ℕ) {m : ℕ} (hm : 0 < m) : (l + m - 1) / m ≤ l := by
  have := Nat.le_mul_of_pos_right l hm
  refine Nat.lt_succ_iff.1 ((Nat.div_lt_iff_lt_mul hm).2 ?_)
  rw [Nat.succ_mul]
  omega

/-- What a reading says about a language and a bag: the numbers of rounds through the language
that give the bag, whether the bag has an element, and that no finite bound exceeds its size. -/
structure Reading.Describes (r : Reading) (L : BagLanguage ℕ) (b : Multiset ℕ) : Prop where
  contains : ∀ k, r.repetitions.contains k = true ↔ b ∈ L ^ k
  occurs : r.occurs = true ↔ b ≠ 0
  min_le : r.repetitions.min ≤ b.card
  max_le : ∀ m ∈ r.repetitions.max, m ≤ b.card

namespace Reading.Describes

variable {r r' : Reading} {L M : BagLanguage ℕ} {b c : Multiset ℕ} {s t : List ℕ}

theorem contains_zero (h : r.Describes L b) : r.repetitions.contains 0 = true ↔ b = 0 := by
  simpa using h.contains 0

/-- A reading without any number of rounds is one of a bag with an element. -/
theorem ne_zero_of_isEmpty (h : r.Describes L b) (hr : r.repetitions.isEmpty = true) : b ≠ 0 := by
  intro hb
  rw [← h.contains_zero, Interval.isEmpty_iff.1 hr] at hb
  exact absurd hb (by decide)

/-- Parts that occur together are repeated equally often. -/
theorem intersection (h : r.Describes L b) (h' : r'.Describes M c) (hst : s.Disjoint t)
    (hL : L.Over s) (hM : M.Over t) (hb : ∀ a ∈ b, a ∈ s) (hc : ∀ a ∈ c, a ∈ t) :
    Describes ⟨r.repetitions.intersection r'.repetitions, r.occurs || r'.occurs⟩ (L * M) (b + c) where
  contains k := by
    rw [Interval.contains_intersection, Bool.and_eq_true, h.contains, h'.contains, mul_pow,
      BagLanguage.add_mem_mul_iff hst (hL.pow k) (hM.pow k) hb hc]
  occurs := by
    simp only [Bool.or_eq_true, h.occurs, h'.occurs, ne_eq, add_eq_zero, not_and_or]
  min_le := by
    have := h.min_le
    have := h'.min_le
    rw [Multiset.card_add]
    dsimp only [Interval.intersection]
    omega
  max_le m hm := by
    have h1 := h.max_le
    have h2 := h'.max_le
    rw [Multiset.card_add]
    simp only [Interval.intersection] at hm
    cases hr : r.repetitions.max with
    | none =>
      have := h2 m (by simpa [hr] using hm)
      omega
    | some u =>
      have := h1 u hr
      cases hr' : r'.repetitions.max with
      | none => simp only [hr, hr', Option.mem_def, Option.some.injEq] at hm; omega
      | some v => simp only [hr, hr', Option.mem_def, Option.some.injEq] at hm; omega

/-- Repetitions of alternatives add up. -/
theorem sum (h : r.Describes L b) (h' : r'.Describes M c) (hst : s.Disjoint t)
    (hL : L.Over s) (hM : M.Over t) (hb : ∀ a ∈ b, a ∈ s) (hc : ∀ a ∈ c, a ∈ t)
    (hw : (b + c).card ≤ maxWord) :
    Describes ⟨r.repetitions.sum r'.repetitions, r.occurs || r'.occurs⟩ (L + M) (b + c) := by
  rw [Multiset.card_add] at hw
  have hmin : r.repetitions.min + r'.repetitions.min ≤ maxWord :=
    (Nat.add_le_add h.min_le h'.min_le).trans hw
  have hmax : ∀ m ∈ r.repetitions.max, ∀ n ∈ r'.repetitions.max, m + n ≤ maxWord :=
    fun m hm n hn => (Nat.add_le_add (h.max_le m hm) (h'.max_le n hn)).trans hw
  refine ⟨fun k => ?_, ?_, ?_, ?_⟩
  · rw [Interval.contains_sum hmin hmax, BagLanguage.mem_add_pow]
    refine exists₂_congr fun i j => and_congr_right fun _ => ?_
    rw [h.contains, h'.contains,
      BagLanguage.add_mem_mul_iff hst (hL.pow i) (hM.pow j) hb hc]
  · simp only [Bool.or_eq_true, h.occurs, h'.occurs, ne_eq, add_eq_zero, not_and_or]
  · rw [Multiset.card_add]
    unfold Interval.sum
    split
    · -- the empty interval begins at one, and one of the bags has an element
      rename_i he
      have hpos : 0 < b.card ∨ 0 < c.card := by
        rcases Bool.or_eq_true_iff.1 he with he | he
        · exact .inl (Multiset.card_pos.2 (h.ne_zero_of_isEmpty he))
        · exact .inr (Multiset.card_pos.2 (h'.ne_zero_of_isEmpty he))
      simp only [Interval.empty]
      omega
    · rw [addSat_eq hmin]
      exact Nat.add_le_add h.min_le h'.min_le
  · intro m hm
    rw [Multiset.card_add]
    unfold Interval.sum at hm
    split at hm
    · obtain rfl : m = 0 := by simpa [Interval.empty, eq_comm] using hm
      omega
    · cases hr : r.repetitions.max with
      | none => simp [hr] at hm
      | some u =>
        cases hr' : r'.repetitions.max with
        | none => simp [hr, hr'] at hm
        | some v =>
          obtain rfl : addSat u v = m := by simpa [hr, hr'] using hm
          rw [addSat_eq (hmax u hr v hr')]
          exact Nat.add_le_add (h.max_le u hr) (h'.max_le v hr')

/-- Rounds of rounds that give a bag with an element. -/
theorem divide (h : r.Describes L b) {card : Cardinality} (hv : card.Valid) (hb : b ≠ 0) :
    Describes ⟨r.repetitions.divide card, true⟩ (L.rounds card) b := by
  have h0 : r.repetitions.contains 0 = false := by
    rw [← Bool.not_eq_true, h.contains_zero]; exact hb
  have hpos : 0 < b.card := Multiset.card_pos.2 hb
  refine ⟨fun k => ?_, by simpa using hb, ?_, ?_⟩
  · rw [Interval.contains_divide hv h0]
    rcases Nat.eq_zero_or_pos k with rfl | hk
    · simpa using hb
    · rw [BagLanguage.mem_rounds_pow hv hk]
      simp only [hk, true_and, h.contains]
      exact exists_congr fun i => by tauto
  · have := h.min_le
    unfold Interval.divide
    split
    · exact hpos
    · rename_i he
      refine Nat.max_le.2 ⟨hpos, ?_⟩
      split
      · rename_i m hm
        have hm0 : 0 < m := by
          rcases Nat.eq_zero_or_pos m with rfl | hm0
          · simp [Cardinality.isZero, hm] at he
          · exact hm0
        exact (ceil_div_le _ hm0).trans this
      · split <;> omega
  · intro m hm
    have := h.max_le
    unfold Interval.divide at hm
    split at hm
    · obtain rfl : m = 0 := by simpa [Interval.empty, eq_comm] using hm
      omega
    · simp only at hm
      split at hm
      · simp at hm
      · obtain ⟨u, hu, rfl⟩ := Option.map_eq_some_iff.1 hm
        exact (Nat.div_le_self u card.min).trans (this u hu)

end Reading.Describes

/-! ### Evaluation -/

/-- The bag with given counts of some indices. -/
def bagOf (count : ℕ → ℕ) (s : List ℕ) : Multiset ℕ :=
  ((s.flatMap fun i => List.replicate (count i) i : List ℕ) : Multiset ℕ)

variable {count : ℕ → ℕ} {s t : List ℕ}

theorem bagOf_append : bagOf count (s ++ t) = bagOf count s + bagOf count t := by
  simp [bagOf]

theorem mem_of_mem_bagOf {a : ℕ} (h : a ∈ bagOf count s) : a ∈ s := by
  simp only [bagOf, Multiset.mem_coe, List.mem_flatMap] at h
  obtain ⟨i, hi, ha⟩ := h
  exact List.eq_of_mem_replicate ha ▸ hi

theorem count_bagOf (hs : s.Nodup) (a : ℕ) :
    (bagOf count s).count a = if a ∈ s then count a else 0 := by
  induction s with
  | nil => simp [bagOf]
  | cons i s ih =>
    obtain ⟨hi, hs⟩ := List.nodup_cons.1 hs
    rw [← List.singleton_append, bagOf_append, Multiset.count_add, ih hs]
    by_cases ha : a = i
    · subst ha; simp [bagOf, hi]
    · simp [bagOf, ha]

mutual
/-- **Every reading is exact**: it describes the language of its part and the share of the bag
that belongs to the indices of the part. -/
theorem evaluate_describes : (e : BagExpr) → e.leaves.Nodup → (∀ c ∈ e.cards, c.Valid) →
    (bagOf count e.leaves).card ≤ maxWord →
    (e.evaluate count).Describes e.language (bagOf count e.leaves)
  | constraint i, _, _, _ => by
    have hb : bagOf count (constraint i).leaves = Multiset.replicate (count i) i := by
      simp [bagOf, leaves, Multiset.coe_replicate]
    rw [hb]
    refine ⟨fun k => ?_, ?_, ?_, ?_⟩
    · rw [evaluate, language, BagLanguage.mem_symbol_pow, Interval.contains_point]
      exact ⟨fun h => by rw [h], fun h => by simpa [eq_comm] using congrArg Multiset.card h⟩
    · simp [evaluate, Nat.pos_iff_ne_zero, ← Multiset.card_eq_zero]
    · simp [evaluate, Interval.point]
    · simp [evaluate, Interval.point]
  | repeated e card, hn, hv, hw => by
    have hcard : card.Valid := hv card (by simp [cards])
    have hve : ∀ c ∈ e.cards, c.Valid := fun c hc => hv c (List.mem_cons_of_mem _ hc)
    have h := evaluate_describes e hn hve hw
    rw [evaluate]
    dsimp only [language, leaves]
    -- without a share of the bag there is nothing to divide: any number of rounds gives the empty
    -- bag, or only zero rounds do
    split
    · rename_i ho
      exact h.divide hcard (h.occurs.1 ho)
    · rename_i ho
      obtain hb : bagOf count e.leaves = 0 := by simpa using mt h.occurs.2 ho
      have hzero : 0 ∈ e.language.rounds card ↔ (card.min = 0 || e.nullable) = true := by
        rw [BagLanguage.zero_mem_rounds hcard, Bool.or_eq_true, decide_eq_true_eq,
          nullable_iff e hve]
      rw [hb]
      split
      · rename_i hnull
        refine ⟨fun k => ?_, by simp, by simp [Interval.star], by simp [Interval.star]⟩
        simpa using BagLanguage.zero_mem_pow.2 (.inr (hzero.2 (by simpa using hnull)))
      · rename_i hnull
        refine ⟨fun k => ?_, by simp, by simp [Interval.zero], by simp [Interval.zero]⟩
        rw [Interval.contains_zero, BagLanguage.zero_mem_pow, hzero]
        simpa using fun h => absurd h (by simpa using hnull)
  | eachOf es, hn, hv, hw => by
    have hstar : Reading.Describes ⟨.star, false⟩ 1 0 :=
      ⟨fun k => by simp, by simp, by simp [Interval.star], by simp [Interval.star]⟩
    have h := evaluateEach_describes (s := []) es hstar
      (by rintro b rfl; simp) (by simp) hn hv (by simpa [leaves] using hw)
    simpa [evaluate, language, leaves] using h
  | oneOf es, hn, hv, hw => by
    have hzero : Reading.Describes ⟨.zero, false⟩ 0 0 :=
      ⟨fun k => by simp [BagLanguage.mem_zero_pow], by simp, by simp [Interval.zero],
        by simp [Interval.zero]⟩
    have h := evaluateOne_describes (s := []) es hzero
      (by rintro b ⟨⟩) (by simp) hn hv (by simpa [leaves] using hw)
    simpa [evaluate, language, leaves] using h
  | empty, _, _, _ => by
    refine ⟨fun k => ?_, ?_, ?_, ?_⟩
    · simp [evaluate, language, bagOf, leaves]
    all_goals simp [evaluate, bagOf, leaves, Interval.star]

theorem evaluateEach_describes {acc : Reading} {L : BagLanguage ℕ} {b : Multiset ℕ}
    {s : List ℕ} : (es : List BagExpr) → acc.Describes L b → L.Over s → (∀ a ∈ b, a ∈ s) →
    (s ++ leavesOfList es).Nodup → (∀ c ∈ cardsOfList es, c.Valid) →
    (b + bagOf count (leavesOfList es)).card ≤ maxWord →
    (evaluateEach count acc es).Describes (L * languageEach es)
      (b + bagOf count (leavesOfList es))
  | [], h, _, _, _, _, _ => by simpa [evaluateEach, languageEach, leavesOfList, bagOf] using h
  | e :: es, h, hL, hb, hn, hv, hw => by
    rw [leavesOfList, bagOf_append, ← add_assoc] at hw ⊢
    rw [leavesOfList, ← List.append_assoc] at hn
    rw [languageEach, ← mul_assoc, evaluateEach]
    -- the indices seen so far and those of the next part do not overlap
    have hse : (s ++ e.leaves).Nodup := hn.of_append_left
    have hwe : (bagOf count e.leaves).card ≤ maxWord := by
      simp only [Multiset.card_add] at hw; omega
    have he := evaluate_describes e hse.of_append_right
      (fun c hc => hv c (List.mem_append_left _ hc)) hwe
    refine evaluateEach_describes es
      (h.intersection he (List.disjoint_of_nodup_append hse) hL (language_over e) hb
        fun _ => mem_of_mem_bagOf)
      ((hL.mono fun _ h => List.mem_append_left _ h).mul
        ((language_over e).mono fun _ h => List.mem_append_right _ h))
      (fun a ha => ?_) hn (fun c hc => hv c (List.mem_append_right _ hc)) hw
    rcases Multiset.mem_add.1 ha with ha | ha
    · exact List.mem_append_left _ (hb a ha)
    · exact List.mem_append_right _ (mem_of_mem_bagOf ha)

theorem evaluateOne_describes {acc : Reading} {L : BagLanguage ℕ} {b : Multiset ℕ}
    {s : List ℕ} : (es : List BagExpr) → acc.Describes L b → L.Over s → (∀ a ∈ b, a ∈ s) →
    (s ++ leavesOfList es).Nodup → (∀ c ∈ cardsOfList es, c.Valid) →
    (b + bagOf count (leavesOfList es)).card ≤ maxWord →
    (evaluateOne count acc es).Describes (L + languageOne es)
      (b + bagOf count (leavesOfList es))
  | [], h, _, _, _, _, _ => by simpa [evaluateOne, languageOne, leavesOfList, bagOf] using h
  | e :: es, h, hL, hb, hn, hv, hw => by
    rw [leavesOfList, bagOf_append, ← add_assoc] at hw ⊢
    rw [leavesOfList, ← List.append_assoc] at hn
    rw [languageOne, ← add_assoc, evaluateOne]
    have hse : (s ++ e.leaves).Nodup := hn.of_append_left
    have hwb : (b + bagOf count e.leaves).card ≤ maxWord := by
      simp only [Multiset.card_add] at hw ⊢; omega
    have hwe : (bagOf count e.leaves).card ≤ maxWord := by
      simp only [Multiset.card_add] at hwb; omega
    have he := evaluate_describes e hse.of_append_right
      (fun c hc => hv c (List.mem_append_left _ hc)) hwe
    refine evaluateOne_describes es
      (h.sum he (List.disjoint_of_nodup_append hse) hL (language_over e) hb
        (fun _ => mem_of_mem_bagOf) hwb)
      ?_ (fun a ha => ?_) hn (fun c hc => hv c (List.mem_append_right _ hc)) hw
    · rintro x (hx | hx) a ha
      · exact List.mem_append_left _ (hL x hx a ha)
      · exact List.mem_append_right _ (language_over e x hx a ha)
    · rcases Multiset.mem_add.1 ha with ha | ha
      · exact List.mem_append_left _ (hb a ha)
      · exact List.mem_append_right _ (mem_of_mem_bagOf ha)
end

/-! ### Parts of a tree -/

mutual
theorem leaves_sublist_of_mem_parts {p : BagExpr} :
    (e : BagExpr) → p ∈ e.parts → p.leaves.Sublist e.leaves
  | constraint i, h => by obtain rfl := List.mem_singleton.1 h; exact .refl _
  | repeated e card, h => by
    rcases List.mem_cons.1 h with rfl | h
    · exact .refl _
    · exact leaves_sublist_of_mem_parts e h
  | eachOf es, h => by
    rcases List.mem_cons.1 h with rfl | h
    · exact .refl _
    · exact leaves_sublist_of_mem_partsOfList es h
  | oneOf es, h => by
    rcases List.mem_cons.1 h with rfl | h
    · exact .refl _
    · exact leaves_sublist_of_mem_partsOfList es h
  | empty, h => by obtain rfl := List.mem_singleton.1 h; exact .refl _

theorem leaves_sublist_of_mem_partsOfList {p : BagExpr} :
    (es : List BagExpr) → p ∈ partsOfList es → p.leaves.Sublist (leavesOfList es)
  | [], h => by simp [partsOfList] at h
  | e :: es, h => by
    rcases List.mem_append.1 h with h | h
    · exact (leaves_sublist_of_mem_parts e h).trans (List.sublist_append_left _ _)
    · exact (leaves_sublist_of_mem_partsOfList es h).trans (List.sublist_append_right _ _)
end

mutual
theorem cards_subset_of_mem_parts {p : BagExpr} :
    (e : BagExpr) → p ∈ e.parts → p.cards ⊆ e.cards
  | constraint i, h => by obtain rfl := List.mem_singleton.1 h; exact fun _ h => h
  | repeated e card, h => by
    rcases List.mem_cons.1 h with rfl | h
    · exact fun _ h => h
    · exact fun _ hc => List.mem_cons_of_mem _ (cards_subset_of_mem_parts e h hc)
  | eachOf es, h => by
    rcases List.mem_cons.1 h with rfl | h
    · exact fun _ h => h
    · exact cards_subset_of_mem_partsOfList es h
  | oneOf es, h => by
    rcases List.mem_cons.1 h with rfl | h
    · exact fun _ h => h
    · exact cards_subset_of_mem_partsOfList es h
  | empty, h => by obtain rfl := List.mem_singleton.1 h; exact fun _ h => h

theorem cards_subset_of_mem_partsOfList {p : BagExpr} :
    (es : List BagExpr) → p ∈ partsOfList es → p.cards ⊆ cardsOfList es
  | [], h => by simp [partsOfList] at h
  | e :: es, h => by
    rcases List.mem_append.1 h with h | h
    · exact fun _ hc => List.mem_append_left _ (cards_subset_of_mem_parts e h hc)
    · exact fun _ hc => List.mem_append_right _ (cards_subset_of_mem_partsOfList es h hc)
end

theorem SingleOccurrence.part {e p : BagExpr} (h : e.SingleOccurrence) (hp : p ∈ e.parts) :
    p.SingleOccurrence :=
  ⟨h.nodup.sublist (leaves_sublist_of_mem_parts e hp),
    fun c hc => h.valid c (cards_subset_of_mem_parts e hp hc)⟩

@[simp]
theorem leavesOfList_append (es fs : List BagExpr) :
    leavesOfList (es ++ fs) = leavesOfList es ++ leavesOfList fs := by
  induction es with
  | nil => rfl
  | cons e es ih => simp [leavesOfList, ih]

@[simp]
theorem cardsOfList_append (es fs : List BagExpr) :
    cardsOfList (es ++ fs) = cardsOfList es ++ cardsOfList fs := by
  induction es with
  | nil => rfl
  | cons e es ih => simp [cardsOfList, ih]

/-- The share of a bag that belongs to the indices of an expression. -/
def share (e : BagExpr) (b : Bag) : Multiset ℕ :=
  (b.assignment.filter fun i => i < b.size ∧ i ∈ e.leaves : List ℕ)

theorem card_share_le (e : BagExpr) (b : Bag) : (e.share b).card ≤ b.assignment.length :=
  List.length_filter_le _ _

theorem share_eq_bagOf {e : BagExpr} (h : e.leaves.Nodup) (b : Bag) :
    e.share b = bagOf b.count e.leaves := by
  ext i
  rw [count_bagOf h, share, Multiset.coe_count, Bag.count]
  by_cases hi : i < b.size ∧ i ∈ e.leaves
  · rw [List.count_filter (by simpa using hi), if_pos hi.1, if_pos hi.2]
  · rw [List.count_eq_zero_of_not_mem (by simp [List.mem_filter]; tauto)]
    split_ifs <;> tauto

/-- A share holds the whole bag if every edge is assigned to an index of the expression. -/
theorem share_eq_self {e : BagExpr} {b : Bag}
    (h : ∀ i ∈ b.assignment, i < b.size ∧ i ∈ e.leaves) : e.share b = b.assignment := by
  rw [share, List.filter_eq_self.2 fun i hi => by simpa using h i hi]

/-- The reading of an expression with single occurrences describes its share of any bag. -/
theorem SingleOccurrence.describes {e : BagExpr} (h : e.SingleOccurrence) {b : Bag}
    (hb : b.assignment.length ≤ maxWord) :
    (e.evaluate b.count).Describes e.language (e.share b) := by
  have hw := (card_share_le e b).trans hb
  rw [share_eq_bagOf h.nodup] at hw ⊢
  exact evaluate_describes e h.nodup h.valid hw

/-- The membership test for a tree with single occurrences. -/
theorem SingleOccurrence.accepts_iff {e : BagExpr} (h : e.SingleOccurrence) {b : Bag}
    (hb : b.assignment.length ≤ maxWord) : e.accepts b = true ↔ e.share b ∈ e.language := by
  rw [accepts, (h.describes hb).contains, pow_one]

/-- **No addition stops at the largest word**: the bounds of what the first alternatives read
and those of the next alternative add up to at most the size of the bag. -/
theorem SingleOccurrence.bounds_add {es rest : List BagExpr} {x : BagExpr}
    (h : (oneOf (es ++ x :: rest)).SingleOccurrence) {b : Bag}
    (hb : b.assignment.length ≤ maxWord) {i j : Interval}
    (hi : ((oneOf es).evaluate b.count).repetitions = i)
    (hj : (x.evaluate b.count).repetitions = j) :
    i.min + j.min ≤ maxWord ∧ ∀ m ∈ i.max, ∀ n ∈ j.max, m + n ≤ maxWord := by
  subst hi hj
  obtain ⟨hn, hv⟩ := h
  simp only [leaves, leavesOfList_append, leavesOfList, ← List.append_assoc] at hn
  simp only [cards, cardsOfList_append, cardsOfList, List.mem_append] at hv
  have hn := hn.of_append_left
  have hes : (oneOf es).SingleOccurrence := ⟨hn.of_append_left, fun c hc => hv c (.inl hc)⟩
  have hx : x.SingleOccurrence := ⟨hn.of_append_right, fun c hc => hv c (.inr (.inl hc))⟩
  have hes' := hes.describes hb
  have hx' := hx.describes hb
  have hw : ((oneOf es).share b).card + (x.share b).card ≤ maxWord := by
    have := (card_share_le (oneOf (es ++ [x])) b).trans hb
    rw [share_eq_bagOf (by simpa [leaves, leavesOfList] using hn)] at this
    rw [share_eq_bagOf hes.nodup, share_eq_bagOf hx.nodup, ← Multiset.card_add, ← bagOf_append]
    simpa [leaves, leavesOfList] using this
  exact ⟨(Nat.add_le_add hes'.min_le hx'.min_le).trans hw,
    fun m hm n hn => (Nat.add_le_add (hes'.max_le m hm) (hx'.max_le n hn)).trans hw⟩

/-- **The evaluation of bag expressions is exact.** Let no index occur twice in an expression
and let all cardinalities have their bounds in order. For every bag of at most as many edges as
a word can count, the reading of every part holds the numbers of rounds through the language of
the part that give its share of the bag, and additions of bounds never stop at the largest word.
So a bag is accepted if its share is in the language; the share is the bag itself if all edges
are assigned to indices of the expression. -/
theorem evaluate_exact (e : BagExpr) (he : e.SingleOccurrence) (b : Bag)
    (hb : b.assignment.length ≤ maxWord) :
    (∀ p ∈ e.parts, ∀ k,
      (p.evaluate b.count).repetitions.contains k = true ↔ p.share b ∈ p.language ^ k) ∧
    (∀ es x rest, oneOf (es ++ x :: rest) ∈ e.parts → ∀ i j : Interval,
      ((oneOf es).evaluate b.count).repetitions = i → (x.evaluate b.count).repetitions = j →
        addSat i.min j.min = i.min + j.min ∧
          ∀ m ∈ i.max, ∀ n ∈ j.max, addSat m n = m + n) ∧
    (e.accepts b = true ↔ e.share b ∈ e.language) ∧
    ((∀ i ∈ b.assignment, i < b.size ∧ i ∈ e.leaves) →
      (e.accepts b = true ↔ (b.assignment : Multiset ℕ) ∈ e.language)) := by
  refine ⟨fun p hp => ((he.part hp).describes hb).contains, ?_, he.accepts_iff hb, fun h => ?_⟩
  · intro es x rest hp i j hi hj
    obtain ⟨hmin, hmax⟩ := (he.part hp).bounds_add hb hi hj
    exact ⟨addSat_eq hmin, fun m hm n hn => addSat_eq (hmax m hm n hn)⟩
  · rw [he.accepts_iff hb, share_eq_self h]

/-- Two rounds of a group with an optional part, of which one uses the alternative. -/
theorem evaluate_exact_two_rounds :
    let e := repeated (oneOf [eachOf [constraint 0, repeated (constraint 1) .optional],
      repeated (constraint 2) ⟨2, some 3⟩]) ⟨2, none⟩
    let b : Bag := ⟨[0, 2, 1, 2], 3⟩
    e.SingleOccurrence ∧ b.assignment.length ≤ maxWord ∧
      e.accepts b = true ∧ (b.assignment : Multiset ℕ) ∈ e.language := by
  intro e b
  have he : e.SingleOccurrence := ⟨by decide, by decide⟩
  have hb : b.assignment.length ≤ maxWord := by decide
  have ha : e.accepts b = true := by decide
  exact ⟨he, hb, ha, ((evaluate_exact e he b hb).2.2.2 (by decide)).1 ha⟩

end BagExpr

end ShapeTyping
