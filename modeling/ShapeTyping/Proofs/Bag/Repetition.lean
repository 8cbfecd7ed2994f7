import Mathlib
import ShapeTyping.Bag.Expr
import ShapeTyping.Proofs.Interval

/-!
# Repetition of one constraint

A triple constraint can be repeated by its own cardinality or by that of a group around it. The
first is a leaf of the tree with a cardinality; the second is unfolded to copies of the group.
Either way the tree accepts an assignment if each copy is used as often as its cardinality allows,
and how many edges can be shared out to the copies like this is what the whole cardinality allows.

* `Cardinality.add`, `Cardinality.total`: cardinalities of several parts together.
* `Cardinality.copies`, `Cardinality.total_copies`: the copies of a group.
* `TripleExpr.Wraps`: a group of one constraint.
* `Compiled.Counts`: a tree that counts the edges of each copy.
* `Compiled.Counts.of_constraint`, `Compiled.Counts.of_wraps`: a repeated constraint and a group of
  one constraint compile to such trees.
* `Compiled.Counts.exists_accepts_iff`: how many edges are accepted.
-/

namespace ShapeTyping

/-! ### Cardinalities of several parts -/

namespace Cardinality

variable {c d : Cardinality} {cs : List Cardinality} {n : ℕ}

/-- The cardinality of two parts together. -/
def add (c d : Cardinality) : Cardinality where
  min := c.min + d.min
  max := match c.max, d.max with
    | some m, some n => some (m + n)
    | _, _ => none

/-- The cardinality of all parts together. -/
def total : List Cardinality → Cardinality
  | [] => exactly 0
  | c :: cs => c.add (total cs)

/-- The cardinalities of the copies that a group with a cardinality is unfolded to. -/
def copies (c : Cardinality) : List Cardinality :=
  match c.max with
  | some m => List.replicate c.min one ++ List.replicate (m - c.min) optional
  | none => List.replicate (c.min - 1) one ++ [plus]

/-- **Two parts together** allow the sums of what they allow. -/
theorem allows_add (hc : c.Valid) (hd : d.Valid) : (c.add d).allows n = true ↔
    ∃ a b, a + b = n ∧ c.allows a = true ∧ d.allows b = true := by
  constructor
  · intro h
    rw [allows_iff] at h
    obtain ⟨hmin, hmax⟩ := h
    -- the first part takes as much as it can of what the second part does not need
    have hsplit : ∀ a, c.min ≤ a → (∀ m ∈ c.max, a ≤ m) → a + d.min ≤ n →
        (∀ l ∈ d.max, n ≤ a + l) → ∃ a b, a + b = n ∧ c.allows a = true ∧ d.allows b = true := by
      intro a hca hca' hda hda'
      exact ⟨a, n - a, by omega, allows_iff.2 ⟨hca, hca'⟩,
        allows_iff.2 ⟨by omega, fun l hl => by have := hda' l hl; omega⟩⟩
    have hmin : c.min + d.min ≤ n := hmin
    cases hcm : c.max with
    | none =>
      refine hsplit (n - d.min) (by omega) (by simp [hcm]) (by omega) fun l hl => ?_
      have := hd l hl
      omega
    | some m =>
      have hm := hc m hcm
      refine hsplit (Min.min m (n - d.min)) (by omega) (by simp [hcm]) (by omega) fun l hl => ?_
      have hdl := hd l hl
      have hsum : n ≤ m + l := hmax (m + l) (by simp [add, hcm, Option.mem_def.1 hl])
      omega
  · rintro ⟨a, b, rfl, ha, hb⟩
    rw [allows_iff] at ha hb ⊢
    refine ⟨Nat.add_le_add ha.1 hb.1, fun k hk => ?_⟩
    simp only [add] at hk
    split at hk
    · rename_i m l hcm hdl
      cases hk
      exact Nat.add_le_add (ha.2 m hcm) (hb.2 l hdl)
    · cases hk

theorem add_valid (hc : c.Valid) (hd : d.Valid) : (c.add d).Valid := by
  obtain ⟨c₀, _ | m⟩ := c
  · exact nofun
  obtain ⟨d₀, _ | l⟩ := d
  · exact nofun
  rintro _ ⟨⟩
  exact Nat.add_le_add (hc m rfl) (hd l rfl)

theorem total_valid (h : ∀ c ∈ cs, c.Valid) : (total cs).Valid := by
  induction cs with
  | nil =>
    rintro _ ⟨⟩
    exact le_rfl
  | cons c cs ih =>
    obtain ⟨hc, hcs⟩ := List.forall_mem_cons.1 h
    exact add_valid hc (ih hcs)

theorem add_exactly_zero (c : Cardinality) : c.add (exactly 0) = c := by
  obtain ⟨c₀, _ | m⟩ := c <;> rfl

theorem add_assoc (c d e : Cardinality) : (c.add d).add e = c.add (d.add e) := by
  obtain ⟨c₀, _ | m⟩ := c <;> obtain ⟨d₀, _ | l⟩ := d <;> obtain ⟨e₀, _ | k⟩ := e <;>
    simp [add, Nat.add_assoc]

theorem exactly_zero_add (c : Cardinality) : (exactly 0).add c = c := by
  obtain ⟨c₀, _ | m⟩ := c <;> simp [add, exactly]

theorem total_append (cs ds : List Cardinality) : total (cs ++ ds) = (total cs).add (total ds) := by
  induction cs with
  | nil => exact (exactly_zero_add _).symm
  | cons c cs ih => rw [List.cons_append, total, total, ih, add_assoc]

theorem total_replicate_one (n : ℕ) : total (List.replicate n one) = exactly n := by
  induction n with
  | zero => rfl
  | succ n ih =>
    rw [List.replicate_succ, total, ih]
    simp [add, one, exactly, Nat.add_comm]

theorem total_replicate_optional (n : ℕ) : total (List.replicate n optional) = ⟨0, some n⟩ := by
  induction n with
  | zero => rfl
  | succ n ih =>
    rw [List.replicate_succ, total, ih]
    simp [add, optional, Nat.add_comm]

/-- An unbounded cardinality that is not kept asks for some occurrence. -/
theorem min_pos_of_unbounded (h : c.isRepetition = false) (hmax : c.max = none) : 0 < c.min := by
  obtain ⟨k, _ | m⟩ := c
  · refine Nat.pos_of_ne_zero ?_
    rintro rfl
    exact absurd h (by decide)
  · cases hmax

/-- **The copies of a group** together have its cardinality, unless it is unbounded and may be
absent. -/
theorem total_copies (hc : c.Valid) (hmin : c.max = none → 0 < c.min) : total c.copies = c := by
  obtain ⟨k, _ | m⟩ := c
  · have hk : 0 < k := hmin rfl
    simp only [copies]
    rw [total_append, total_replicate_one]
    simp [add, total, plus, exactly]
    omega
  · have hkm : k ≤ m := hc m rfl
    simp only [copies]
    rw [total_append, total_replicate_one, total_replicate_optional]
    simp [add, exactly]
    omega

/-- The cardinalities of groups that are not unfolded. -/
theorem eq_of_not_unfolded (h : c.isOne = true ∨ c.isRepetition = true) :
    c = one ∨ c = optional ∨ c = star ∨ c = plus := by
  simpa [isOne, isRepetition, or_assoc] using h

theorem valid_of_not_unfolded (h : c.isOne = true ∨ c.isRepetition = true) : c.Valid := by
  rcases eq_of_not_unfolded h with rfl | rfl | rfl | rfl <;> decide

/-- None of these cardinalities tells numbers from the largest word on apart. -/
theorem allows_min_maxWord (h : c.isOne = true ∨ c.isRepetition = true) (n : ℕ) :
    c.allows (Min.min n maxWord) = c.allows n := by
  have hword : 2 ≤ maxWord := by decide
  rw [Bool.eq_iff_iff, allows_iff, allows_iff]
  rcases eq_of_not_unfolded h with rfl | rfl | rfl | rfl <;>
    simp [one, exactly, optional, star, plus] <;> omega

theorem mem_copies (h : d ∈ c.copies) : d.isOne = true ∨ d.isRepetition = true := by
  obtain ⟨k, _ | m⟩ := c
  · rcases List.mem_append.1 h with h | h
    · exact .inl (by rw [List.eq_of_mem_replicate h]; decide)
    · exact .inr (by rw [List.mem_singleton.1 h]; decide)
  · rcases List.mem_append.1 h with h | h
    · exact .inl (by rw [List.eq_of_mem_replicate h]; decide)
    · exact .inr (by rw [List.eq_of_mem_replicate h]; decide)

end Cardinality

/-! ### Sharing out edges -/

/-- Whether an assignment of copies, numbered from `k` on, uses no other ones, and each of them as
often as its cardinality allows. -/
structure SharesOut (cards : List Cardinality) (k : ℕ) (is : List ℕ) : Prop where
  mem : ∀ i ∈ is, k ≤ i ∧ i < k + cards.length
  allows : ∀ (j : ℕ) (D : Cardinality), cards[j]? = some D → D.allows (is.count (k + j)) = true

namespace SharesOut

variable {cards : List Cardinality} {D : Cardinality} {k : ℕ} {is : List ℕ}

/-- The edges of the first copy, and the others. -/
theorem tail (h : SharesOut (D :: cards) k is) :
    D.allows (is.count k) = true ∧ SharesOut cards (k + 1) (is.filter (· ≠ k)) := by
  refine ⟨h.allows 0 D rfl, fun i hi => ?_, fun j E hE => ?_⟩
  · obtain ⟨hi, hik⟩ := List.mem_filter.1 hi
    have hbounds := h.mem i hi
    rw [List.length_cons] at hbounds
    have hne : i ≠ k := by simpa using hik
    omega
  · have hne : k + 1 + j ≠ k := by omega
    rw [List.count_filter (by simpa using hne), Nat.add_right_comm, Nat.add_assoc]
    exact h.allows (j + 1) E hE

/-- Edges of one more copy before those of the others. -/
theorem cons {a : ℕ} (ha : D.allows a = true) (h : SharesOut cards (k + 1) is) :
    SharesOut (D :: cards) k (List.replicate a k ++ is) := by
  have hk : k ∉ is := fun hk => by
    have := (h.mem k hk).1
    omega
  refine ⟨fun i hi => ?_, fun j E hE => ?_⟩
  · rw [List.length_cons]
    rcases List.mem_append.1 hi with hi | hi
    · have := List.eq_of_mem_replicate hi
      omega
    · have := h.mem i hi
      omega
  · rw [List.count_append]
    cases j with
    | zero =>
      obtain rfl : D = E := Option.some.inj hE
      rw [Nat.add_zero, List.count_replicate_self, List.count_eq_zero.2 hk]
      exact ha
    | succ j =>
      have hne : k + (j + 1) ∉ List.replicate a k := fun hmem => by
        have := List.eq_of_mem_replicate hmem
        omega
      rw [List.count_eq_zero.2 hne, Nat.zero_add, show k + (j + 1) = k + 1 + j by omega]
      exact h.allows j E hE

end SharesOut

/-- **How many edges can be shared out** to copies is what their cardinalities allow together, by
induction on the copies. -/
theorem exists_sharesOut_iff {cards : List Cardinality} (hv : ∀ D ∈ cards, D.Valid) (k n : ℕ) :
    (∃ is : List ℕ, is.length = n ∧ SharesOut cards k is) ↔
      (Cardinality.total cards).allows n = true := by
  induction cards generalizing k n with
  | nil =>
    have hzero : (Cardinality.total []).allows n = true ↔ n = 0 := by
      simp [Cardinality.total, Cardinality.exactly, Cardinality.allows]
    rw [hzero]
    constructor
    · rintro ⟨is, rfl, hmem, -⟩
      refine List.length_eq_zero_iff.2 (List.eq_nil_iff_forall_not_mem.2 fun i hi => ?_)
      have := hmem i hi
      simp only [List.length_nil] at this
      omega
    · rintro rfl
      exact ⟨[], rfl, by simp, by simp⟩
  | cons D cards ih =>
    obtain ⟨hD, hcards⟩ := List.forall_mem_cons.1 hv
    rw [Cardinality.total, Cardinality.allows_add hD (Cardinality.total_valid hcards)]
    constructor
    · rintro ⟨is, rfl, h⟩
      obtain ⟨hfirst, hothers⟩ := h.tail
      refine ⟨is.count k, (is.filter (· ≠ k)).length, ?_, hfirst,
        (ih hcards (k + 1) _).1 ⟨_, rfl, hothers⟩⟩
      rw [is.length_eq_length_filter_add fun i => decide (i = k), List.count_eq_length_filter]
      simp [Bool.beq_eq_decide_eq]
    · rintro ⟨a, b, rfl, ha, hb⟩
      obtain ⟨is, rfl, h⟩ := (ih hcards (k + 1) b).2 hb
      exact ⟨List.replicate a k ++ is, by simp, .cons ha h⟩

/-! ### Groups of one constraint -/

/-- The cardinality of a constraint is a field of its own. -/
theorem TripleConstraint.with_card_self {tc : TripleConstraint} {card : Cardinality}
    (h : tc.card = card) : { tc with card := card } = tc := by
  subst h
  cases tc
  rfl

/-- A group of one constraint, with a cardinality. -/
inductive TripleExpr.Wraps (tc : TripleConstraint) (card : Cardinality) : TripleExpr → Prop where
  | eachOf : Wraps tc card (.eachOf [.constraint tc] card)
  | oneOf : Wraps tc card (.oneOf [.constraint tc] card)

namespace TripleExpr.Wraps

variable {tc : TripleConstraint} {card : Cardinality} {e : TripleExpr}

theorem withCard (h : e.Wraps tc card) (D : Cardinality) : (e.withCard D).Wraps tc D := by
  cases h
  · exact .eachOf
  · exact .oneOf

theorem withCard_one (h : e.Wraps tc .one) : e.withCard .one = e := by
  cases h <;> rfl

theorem constraints (h : e.Wraps tc card) : e.constraints = [tc] := by
  cases h <;> rfl

/-- A group is unfolded to copies of the group with cardinality one. -/
theorem unfold (h : e.Wraps tc card) :
    ∃ g, g.Wraps tc .one ∧ e.unfold = unfoldGroup g card := by
  cases h
  · exact ⟨_, .eachOf, rfl⟩
  · exact ⟨_, .oneOf, rfl⟩

end TripleExpr.Wraps

namespace BagExpr

variable {e : BagExpr} {count : ℕ → ℕ} {card : Cardinality} {n : ℕ}

/-- **A part that is repeated** once for each edge is used up by one round if its number of edges is
allowed. -/
theorem contains_withCard (he : e.evaluate count = ⟨.point n, 0 < n⟩) (hnull : e.nullable = false)
    (hcard : card.Valid) :
    ((e.withCard card).evaluate count).repetitions.contains 1 = true ↔ card.allows n = true := by
  unfold withCard
  split
  · rename_i hone
    obtain rfl : card = .one := by simpa [Cardinality.isOne] using hone
    rw [he, Interval.contains_point, Cardinality.allows_iff]
    simp [Cardinality.one, Cardinality.exactly]
    omega
  · rw [evaluate, he]
    simp only [hnull]
    rcases Nat.eq_zero_or_pos n with rfl | hn
    · by_cases hmin : card.min = 0 <;> simp [hmin, Cardinality.allows_iff]
    · have hzero : (Interval.point n).contains 0 = false := by
        rw [Bool.eq_false_iff, Ne, Interval.contains_point]
        omega
      simp [hn, Interval.contains_divide hcard hzero, Cardinality.allows_iff]

/-- Parts that occur together are used up by as many rounds as each of them is. -/
theorem contains_evaluateEach (acc : Reading) (es : List BagExpr) (k : ℕ) :
    (evaluateEach count acc es).repetitions.contains k =
      (acc.repetitions.contains k &&
        es.all fun e => (e.evaluate count).repetitions.contains k) := by
  induction es generalizing acc with
  | nil => simp [evaluateEach]
  | cons e es ih =>
    rw [evaluateEach, ih, Interval.contains_intersection, List.all_cons, Bool.and_assoc]

end BagExpr

section Copies

variable {tc : TripleConstraint} {card : Cardinality} {e g : TripleExpr} {count : ℕ → ℕ}

/-- **A group of one constraint** with a cardinality that is not unfolded is used up by one round if
its number of edges is allowed. -/
theorem TripleExpr.Wraps.contains_evaluate (h : e.Wraps tc card) (htc : tc.card = .one)
    (hcard : card.isOne = true ∨ card.isRepetition = true) (k : ℕ) :
    ((BagExpr.ofTripleExpr k e).evaluate count).repetitions.contains 1 = true ↔
      card.allows (count k) = true := by
  have hvalid := Cardinality.valid_of_not_unfolded hcard
  have hleaf : BagExpr.ofTripleExprs k [.constraint tc] = [.constraint k] := by
    simp [BagExpr.ofTripleExprs, BagExpr.ofTripleExpr, BagExpr.withCard, htc, Cardinality.isOne]
  cases h with
  | eachOf =>
    rw [BagExpr.ofTripleExpr, hleaf]
    refine BagExpr.contains_withCard ?_ rfl hvalid
    simp [BagExpr.evaluate, BagExpr.evaluateEach, Interval.intersection, Interval.star,
      Interval.point]
  | oneOf =>
    rw [BagExpr.ofTripleExpr, hleaf]
    -- sums of counts stop at the largest word
    rw [← Cardinality.allows_min_maxWord hcard]
    refine BagExpr.contains_withCard ?_ rfl hvalid
    have hpos : 0 < Min.min (count k) maxWord ↔ 0 < count k := by
      have hword : 0 < maxWord := by decide
      omega
    simp [BagExpr.evaluate, BagExpr.evaluateOne, Interval.sum, Interval.zero, Interval.point,
      Interval.isEmpty, addSat, hpos]

/-- **Copies of a group** are used up by one round if each is used as often as its cardinality
allows. -/
theorem all_contains_copies (hg : g.Wraps tc .one) (htc : tc.card = .one)
    {cards : List Cardinality}
    (hcards : ∀ D ∈ cards, D.isOne = true ∨ D.isRepetition = true) (k : ℕ) :
    ((BagExpr.ofTripleExprs k (cards.map g.withCard)).all fun e =>
      (e.evaluate count).repetitions.contains 1) = true ↔
        ∀ (j : ℕ) (D : Cardinality), cards[j]? = some D → D.allows (count (k + j)) = true := by
  induction cards generalizing k with
  | nil => simp [BagExpr.ofTripleExprs]
  | cons D cards ih =>
    obtain ⟨hD, hrest⟩ := List.forall_mem_cons.1 hcards
    have hone : (g.withCard D).constraints.length = 1 := by rw [(hg.withCard D).constraints]; rfl
    rw [List.map_cons, BagExpr.ofTripleExprs, List.all_cons, Bool.and_eq_true, hone,
      (hg.withCard D).contains_evaluate htc hD, ih hrest]
    constructor
    · rintro ⟨hfirst, hothers⟩ j E hE
      cases j with
      | zero =>
        obtain rfl : D = E := Option.some.inj hE
        exact hfirst
      | succ j =>
        rw [show k + (j + 1) = k + 1 + j by omega]
        exact hothers j E hE
    · intro h
      refine ⟨h 0 D rfl, fun j E hE => ?_⟩
      rw [show k + 1 + j = k + (j + 1) by omega]
      exact h (j + 1) E hE

theorem constraints_copies (hg : g.Wraps tc .one) (cards : List Cardinality) :
    TripleExpr.constraintsOfList (cards.map g.withCard) = List.replicate cards.length tc := by
  induction cards with
  | nil => rfl
  | cons D cards ih =>
    rw [List.map_cons, TripleExpr.constraintsOfList, ih, (hg.withCard D).constraints]
    rfl

/-- **What a group is unfolded to**, if its cardinality is none of the four that are kept. -/
theorem unfoldGroup_eq (hself : g.withCard .one = g) (hone : card.isOne = false)
    (hrep : card.isRepetition = false) (hzero : card.isZero = false) :
    TripleExpr.unfoldGroup g card = .eachOf (card.copies.map g.withCard) .one := by
  obtain ⟨k, _ | m⟩ := card <;>
    simp [TripleExpr.unfoldGroup, hone, hrep, hzero, Cardinality.copies, hself]

end Copies

/-! ### Trees that count edges -/

/-- Whether the constraints of a compiled expression are one constraint with any cardinalities, and
its tree accepts an assignment if each copy, in order, is used as often as a given cardinality
allows. -/
structure Compiled.Counts (c : Compiled) (tc : TripleConstraint) (cards : List Cardinality) :
    Prop where
  length : c.constraints.length = cards.length
  alike : ∀ c' ∈ c.constraints, ∃ D, c' = { tc with card := D }
  accepts : ∀ is : List ℕ, c.root.accepts ⟨is, cards.length⟩ = true ↔
    ∀ (j : ℕ) (D : Cardinality), cards[j]? = some D → D.allows (is.count j) = true

/-- The counts of a bag below its size. -/
theorem Bag.count_of_getElem? {cards : List Cardinality} {is : List ℕ} {j : ℕ} {D : Cardinality}
    (hD : cards[j]? = some D) : Bag.count ⟨is, cards.length⟩ j = is.count j :=
  if_pos (List.getElem?_eq_some_iff.1 hD).1

/-- The counts of a bag with one copy. -/
theorem forall_getElem?_singleton {card : Cardinality} {is : List ℕ} :
    card.allows (Bag.count ⟨is, 1⟩ 0) = true ↔
      ∀ (j : ℕ) (D : Cardinality), [card][j]? = some D → D.allows (is.count j) = true := by
  constructor
  · rintro h j D hD
    obtain ⟨hj, rfl⟩ := List.getElem?_eq_some_iff.1 hD
    obtain rfl : j = 0 := by simpa using hj
    exact h
  · exact fun h => h 0 card rfl

namespace Compiled.Counts

variable {c : Compiled} {tc : TripleConstraint} {card : Cardinality} {cards : List Cardinality}
  {e g : TripleExpr}

/-- **How many edges are accepted** is what the cardinalities allow together. -/
theorem exists_accepts_iff (h : c.Counts tc cards) (hv : ∀ D ∈ cards, D.Valid) (n : ℕ) :
    (∃ is : List ℕ, is.length = n ∧ (∀ i ∈ is, i < c.constraints.length) ∧
      c.root.accepts ⟨is, c.constraints.length⟩ = true) ↔
    (Cardinality.total cards).allows n = true := by
  rw [← exists_sharesOut_iff hv 0 n]
  refine exists_congr fun is => and_congr_right fun _ => ?_
  rw [h.length, h.accepts]
  constructor
  · rintro ⟨hmem, hallows⟩
    exact ⟨fun i hi => ⟨Nat.zero_le i, by simpa using hmem i hi⟩, by simpa using hallows⟩
  · rintro ⟨hmem, hallows⟩
    exact ⟨fun i hi => by simpa using (hmem i hi).2, by simpa using hallows⟩

/-- **A constraint with a cardinality** counts its edges. -/
theorem of_constraint (tc : TripleConstraint) (hcard : card.Valid) :
    (TripleExpr.constraint { tc with card := card }).compile.Counts tc [card] where
  length := rfl
  alike c' hc' := ⟨card, List.mem_singleton.1 hc'⟩
  accepts is := by
    change (((BagExpr.constraint 0).withCard card).evaluate _).repetitions.contains 1 = true ↔ _
    rw [BagExpr.contains_withCard rfl rfl hcard]
    exact forall_getElem?_singleton

/-- A group that is not unfolded counts its edges. -/
theorem of_kept (hg : g.Wraps tc card) (hexpr : e.unfold = g) (htc : tc.card = .one)
    (hcard : card.isOne = true ∨ card.isRepetition = true) : e.compile.Counts tc [card] where
  length := by simp [TripleExpr.compile, hexpr, hg.constraints]
  alike := by
    simp only [TripleExpr.compile, hexpr, hg.constraints, List.mem_singleton]
    rintro _ rfl
    exact ⟨.one, (TripleConstraint.with_card_self htc).symm⟩
  accepts is := by
    simp only [TripleExpr.compile, hexpr, BagExpr.accepts]
    rw [hg.contains_evaluate htc hcard]
    exact forall_getElem?_singleton

/-- The copies of a group count the edges of each. -/
theorem of_copies (hg : g.Wraps tc .one) (hexpr : e.unfold = .eachOf (cards.map g.withCard) .one)
    (htc : tc.card = .one) (hcards : ∀ D ∈ cards, D.isOne = true ∨ D.isRepetition = true) :
    e.compile.Counts tc cards where
  length := by simp [TripleExpr.compile, hexpr, TripleExpr.constraints, constraints_copies hg]
  alike := by
    simp only [TripleExpr.compile, hexpr, TripleExpr.constraints, constraints_copies hg]
    intro c' hc'
    rw [List.eq_of_mem_replicate hc']
    exact ⟨.one, (TripleConstraint.with_card_self htc).symm⟩
  accepts is := by
    simp only [TripleExpr.compile, hexpr, BagExpr.accepts, BagExpr.ofTripleExpr]
    rw [BagExpr.withCard, if_pos (by decide), BagExpr.evaluate, BagExpr.contains_evaluateEach,
      Bool.and_eq_true, all_contains_copies hg htc hcards]
    simp only [Nat.zero_add]
    refine ⟨fun hcounts j D hD => ?_, fun hcounts => ⟨rfl, fun j D hD => ?_⟩⟩
    · rw [← Bag.count_of_getElem? hD]
      exact hcounts.2 j D hD
    · rw [Bag.count_of_getElem? hD]
      exact hcounts j D hD

/-- **A group of one constraint** counts its edges, unless it is not allowed at all. -/
theorem of_wraps (h : e.Wraps tc card) (htc : tc.card = .one) (hcard : card.Valid)
    (hzero : card.isZero = false) :
    ∃ cards, e.compile.Counts tc cards ∧ Cardinality.total cards = card ∧ cards ≠ [] ∧
      ∀ D ∈ cards, D.Valid := by
  obtain ⟨g, hg, hunfold⟩ := h.unfold
  by_cases hkept : card.isOne = true ∨ card.isRepetition = true
  · have hexpr : e.unfold = g.withCard card := by
      rw [hunfold, TripleExpr.unfoldGroup, if_pos (by simpa using hkept)]
    exact ⟨[card], of_kept (hg.withCard card) hexpr htc hkept, Cardinality.add_exactly_zero card,
      by simp, by simpa⟩
  · rw [not_or, Bool.not_eq_true, Bool.not_eq_true] at hkept
    have htotal := Cardinality.total_copies hcard (Cardinality.min_pos_of_unbounded hkept.2)
    have hexpr : e.unfold = .eachOf (card.copies.map g.withCard) .one := by
      rw [hunfold, unfoldGroup_eq hg.withCard_one hkept.1 hkept.2 hzero]
    refine ⟨card.copies, of_copies hg hexpr htc fun D => Cardinality.mem_copies, htotal, ?_,
      fun D hD => Cardinality.valid_of_not_unfolded (Cardinality.mem_copies hD)⟩
    intro hnil
    rw [← htotal, hnil] at hzero
    exact absurd hzero (by decide)

end Compiled.Counts

end ShapeTyping
