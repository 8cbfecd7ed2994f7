import Mathlib
import ShapeTyping.Interval

/-!
# Interval operations as set operations

An interval stands for the set of its counts, which are natural numbers: without an upper bound
there is a count beyond every word. Each operation on bounds is an operation on these sets.

* `Interval.contains_sum`: while the sums of the bounds are words, a sum holds the sums of the
  counts of both intervals.
* `Interval.contains_sum_of_lt`: below the largest word it does so whatever the bounds are.
* `Interval.contains_divide`: a division of an interval of positive counts holds the positive
  numbers of rounds whose counts meet the interval.
* `Interval.counts`, `Interval.counts_operations`: the operations on sets of counts.
-/

namespace ShapeTyping

theorem addSat_eq {a b : ℕ} (h : a + b ≤ maxWord) : addSat a b = a + b := Nat.min_eq_left h

theorem addSat_le_iff {a b k : ℕ} (hk : k < maxWord) : addSat a b ≤ k ↔ a + b ≤ k := by
  rw [addSat, min_le_iff, or_iff_left (not_le.2 hk)]

theorem le_addSat_iff {a b k : ℕ} (hk : k ≤ maxWord) : k ≤ addSat a b ↔ k ≤ a + b := by
  rw [addSat, le_min_iff, and_iff_left hk]

namespace Interval

variable {i j : Interval} {c : Cardinality} {k : ℕ}

theorem isEmpty_iff_lt : i.isEmpty = true ↔ ∃ m ∈ i.max, m < i.min := by
  obtain ⟨a, b⟩ := i
  cases b <;> simp [isEmpty]

theorem contains_min (h : i.isEmpty = false) : i.contains i.min = true := by
  rw [contains_iff]
  refine ⟨le_rfl, fun m hm => ?_⟩
  by_contra hlt
  rw [isEmpty_iff_lt.2 ⟨m, hm, not_le.1 hlt⟩] at h
  exact absurd h (by decide)

@[simp]
theorem contains_empty : empty.contains k = false := by
  cases k <;> simp [empty, contains]

@[simp]
theorem contains_point {n : ℕ} : (point n).contains k = true ↔ k = n := by
  simp only [point, contains_iff, Option.mem_def, Option.some.injEq, forall_eq']
  exact ⟨fun h => Nat.le_antisymm h.2 h.1, fun h => ⟨h.ge, h.le⟩⟩

@[simp]
theorem contains_star : star.contains k = true := by simp [star, contains]

@[simp]
theorem contains_zero : zero.contains k = true ↔ k = 0 := by simp [zero, contains]

/-! ### Sums -/

/-- The sums of the counts of two intervals are what lies between the sums of the bounds. -/
theorem exists_add_iff (hi : i.isEmpty = false) (hj : j.isEmpty = false) :
    (∃ a b, a + b = k ∧ i.contains a = true ∧ j.contains b = true) ↔
      i.min + j.min ≤ k ∧ ∀ m ∈ i.max, ∀ n ∈ j.max, k ≤ m + n := by
  have hi' := (contains_iff.1 (contains_min hi)).2
  have hj' := (contains_iff.1 (contains_min hj)).2
  simp only [contains_iff]
  obtain ⟨a, m⟩ := i
  obtain ⟨b, n⟩ := j
  simp only at hi' hj' ⊢
  constructor
  · rintro ⟨x, y, rfl, ⟨hx, hxm⟩, hy, hyn⟩
    exact ⟨Nat.add_le_add hx hy, fun m hm n hn => Nat.add_le_add (hxm m hm) (hyn n hn)⟩
  · rintro ⟨hlow, hhigh⟩
    -- the first count is as large as its bound and the second one allow
    cases m with
    | none => exact ⟨k - b, b, by omega, ⟨by omega, nofun⟩, le_rfl, hj'⟩
    | some m =>
      have hm := hi' m rfl
      cases n with
      | none => exact ⟨a, k - a, by omega, ⟨le_rfl, hi'⟩, by omega, nofun⟩
      | some n =>
        have hn := hj' n rfl
        have hk := hhigh m rfl n rfl
        refine ⟨Min.min m (k - b), k - Min.min m (k - b), by omega, ⟨by omega, ?_⟩, by omega, ?_⟩ <;>
          · rintro _ ⟨⟩
            omega

/-- A sum has the sums of the bounds as its bounds, as far as words go. -/
theorem contains_sum_iff (hi : i.isEmpty = false) (hj : j.isEmpty = false) :
    (i.sum j).contains k = true ↔
      addSat i.min j.min ≤ k ∧ ∀ m ∈ i.max, ∀ n ∈ j.max, k ≤ addSat m n := by
  rw [sum, hi, hj, contains_iff]
  obtain ⟨a, m⟩ := i
  obtain ⟨b, n⟩ := j
  cases m <;> cases n <;> simp

theorem contains_sum_of_isEmpty (h : i.isEmpty = true ∨ j.isEmpty = true) :
    (i.sum j).contains k = true ↔
      ∃ a b, a + b = k ∧ i.contains a = true ∧ j.contains b = true := by
  rw [sum, if_pos (by simpa using h)]
  rcases h with h | h <;> simp [isEmpty_iff.1 h]

/-- **A sum** holds the sums of the counts of both intervals. -/
theorem contains_sum (hmin : i.min + j.min ≤ maxWord)
    (hmax : ∀ m ∈ i.max, ∀ n ∈ j.max, m + n ≤ maxWord) :
    (i.sum j).contains k = true ↔
      ∃ a b, a + b = k ∧ i.contains a = true ∧ j.contains b = true := by
  by_cases h : i.isEmpty = true ∨ j.isEmpty = true
  · exact contains_sum_of_isEmpty h
  rw [not_or, Bool.not_eq_true, Bool.not_eq_true] at h
  rw [contains_sum_iff h.1 h.2, exists_add_iff h.1 h.2, addSat_eq hmin]
  refine and_congr_right fun _ => forall₂_congr fun m hm => forall₂_congr fun n hn => ?_
  rw [addSat_eq (hmax m hm n hn)]

/-- **Where sums stop** shows at the largest word only. -/
theorem contains_sum_of_lt (hk : k < maxWord) :
    (i.sum j).contains k = true ↔
      ∃ a b, a + b = k ∧ i.contains a = true ∧ j.contains b = true := by
  by_cases h : i.isEmpty = true ∨ j.isEmpty = true
  · exact contains_sum_of_isEmpty h
  rw [not_or, Bool.not_eq_true, Bool.not_eq_true] at h
  rw [contains_sum_iff h.1 h.2, exists_add_iff h.1 h.2, addSat_le_iff hk]
  exact and_congr_right fun _ => forall₂_congr fun _ _ => forall₂_congr fun _ _ =>
    le_addSat_iff hk.le

/-! ### Divisions -/

/-- Two intervals meet if neither ends before the other one begins. -/
theorem exists_contains_iff (hi : i.isEmpty = false) (hj : j.isEmpty = false) :
    (∃ n, i.contains n = true ∧ j.contains n = true) ↔
      (∀ u ∈ i.max, j.min ≤ u) ∧ ∀ u ∈ j.max, i.min ≤ u := by
  have hi' := (contains_iff.1 (contains_min hi)).2
  have hj' := (contains_iff.1 (contains_min hj)).2
  simp only [contains_iff]
  constructor
  · rintro ⟨n, ⟨hin, hni⟩, hjn, hnj⟩
    exact ⟨fun u hu => hjn.trans (hni u hu), fun u hu => hin.trans (hnj u hu)⟩
  · rintro ⟨hij, hji⟩
    exact ⟨Max.max i.min j.min, ⟨le_max_left _ _, fun u hu => max_le (hi' u hu) (hij u hu)⟩,
      le_max_right _ _, fun u hu => max_le (hji u hu) (hj' u hu)⟩

/-- The counts that a number of rounds can give. -/
def ofRounds (c : Cardinality) (k : ℕ) : Interval := ⟨k * c.min, c.max.map (k * ·)⟩

theorem contains_ofRounds {n : ℕ} :
    (ofRounds c k).contains n = true ↔ k * c.min ≤ n ∧ ∀ m ∈ c.max, n ≤ k * m := by
  rw [contains_iff, ofRounds]
  simp

theorem isEmpty_ofRounds (hc : c.Valid) : (ofRounds c k).isEmpty = false := by
  rw [← Bool.not_eq_true, isEmpty_iff_lt]
  rintro ⟨u, hu, hlt⟩
  obtain ⟨m, hm, rfl⟩ := Option.mem_map.1 hu
  exact absurd (Nat.mul_le_mul_left k (hc m hm)) (not_le.2 hlt)

/-- The lower bound of a division is where the largest counts of so many rounds reach the
interval. -/
theorem divide_min_le_iff (hi : i.isEmpty = false) (hc : c.isZero = false) (hpos : 0 < i.min) :
    (i.divide c).min ≤ k ↔ 0 < k ∧ ∀ m ∈ c.max, i.min ≤ k * m := by
  rw [divide, hi, hc]
  obtain ⟨n, max⟩ := c
  cases max with
  | none => simp [hpos.ne', Nat.one_le_iff_ne_zero, Nat.pos_iff_ne_zero]
  | some m =>
    have hm : 0 < m := Nat.pos_of_ne_zero fun h => by simp [h, Cardinality.isZero] at hc
    have hceil : (i.min + m - 1) / m ≤ k ↔ i.min ≤ m * k := by
      rw [← Nat.ceilDiv_eq_add_pred_div, ceilDiv_le_iff_le_mul hm]
    simp [hceil, Nat.mul_comm, Nat.one_le_iff_ne_zero, Nat.pos_iff_ne_zero]

/-- The upper bound of a division is where the least counts of so many rounds leave the
interval. -/
theorem le_divide_max_iff (hi : i.isEmpty = false) (hc : c.isZero = false) :
    (∀ u ∈ (i.divide c).max, k ≤ u) ↔ ∀ u ∈ i.max, k * c.min ≤ u := by
  rw [divide, hi, hc]
  rcases Nat.eq_zero_or_pos c.min with h | h
  · simp [h]
  · simp [h.ne', Nat.le_div_iff_mul_le h]

theorem min_pos (hi : i.isEmpty = false) (h0 : i.contains 0 = false) : 0 < i.min := by
  by_contra h
  obtain h : i.min = 0 := by omega
  rw [← h, contains_min hi] at h0
  exact absurd h0 (by decide)

/-- **A division** holds the positive numbers of rounds whose counts meet the interval. -/
theorem contains_divide {c : Cardinality} (hc : c.Valid) (h0 : i.contains 0 = false) :
    (i.divide c).contains k = true ↔
      0 < k ∧ ∃ n, i.contains n = true ∧ k * c.min ≤ n ∧ ∀ m ∈ c.max, n ≤ k * m := by
  cases hi : i.isEmpty with
  | true => simp [divide, hi, isEmpty_iff.1 hi]
  | false =>
    have hpos := min_pos hi h0
    simp only [← contains_ofRounds, exists_contains_iff hi (isEmpty_ofRounds hc)]
    cases hz : c.isZero with
    | true =>
      -- rounds of nothing give no more than zero, which is below the interval
      have hmax : (ofRounds c k).max = some 0 := by
        rw [Cardinality.isZero, decide_eq_true_eq] at hz
        rw [ofRounds, hz, Option.map_some, Nat.mul_zero]
      simp [divide, hz, hmax, hpos.ne']
    | false =>
      rw [contains_iff, divide_min_le_iff hi hz hpos, le_divide_max_iff hi hz, and_assoc,
        and_comm (a := ∀ m ∈ c.max, _)]
      simp [ofRounds]

/-! ### Sets -/

/-- The set that an interval stands for. -/
def counts (i : Interval) : Set ℕ := {n | i.contains n = true}

@[simp]
theorem mem_counts : k ∈ i.counts ↔ i.contains k = true := Iff.rfl

/-- **The operations on intervals are operations on sets of counts.** An interval is empty if its
bounds cross. An intersection holds what both intervals hold. A sum holds the sums of a count of
each interval if the sums of the bounds are words, and below the largest word in any case. A
division of positive counts holds the positive numbers of rounds that can give one of them when each
round gives as many as the cardinality allows. -/
theorem counts_operations (i j : Interval) (c : Cardinality) :
    (i.isEmpty = true ↔ i.counts = ∅) ∧
      (i.intersection j).counts = i.counts ∩ j.counts ∧
      (i.min + j.min ≤ maxWord → (∀ m ∈ i.max, ∀ n ∈ j.max, m + n ≤ maxWord) →
        (i.sum j).counts = {k | ∃ a ∈ i.counts, ∃ b ∈ j.counts, k = a + b}) ∧
      (∀ k < maxWord, k ∈ (i.sum j).counts ↔ ∃ a ∈ i.counts, ∃ b ∈ j.counts, k = a + b) ∧
      ((∀ n ∈ i.counts, 1 ≤ n) → c.Valid →
        (i.divide c).counts =
          {k | 1 ≤ k ∧ ∃ n ∈ i.counts, k * c.min ≤ n ∧ ∀ m ∈ c.max, n ≤ k * m}) := by
  have hadd : ∀ k, (∃ a b, a + b = k ∧ i.contains a = true ∧ j.contains b = true) ↔
      ∃ a ∈ i.counts, ∃ b ∈ j.counts, k = a + b := by
    intro k
    constructor
    · rintro ⟨a, b, rfl, ha, hb⟩
      exact ⟨a, ha, b, hb, rfl⟩
    · rintro ⟨a, ha, b, hb, rfl⟩
      exact ⟨a, b, rfl, ha, hb⟩
  refine ⟨?_, ?_, ?_, ?_, ?_⟩
  · rw [isEmpty_iff, Set.eq_empty_iff_forall_notMem]
    exact forall_congr' fun n => (Bool.not_eq_true _).to_iff.symm
  · ext k
    rw [mem_counts, contains_intersection, Bool.and_eq_true]
    rfl
  · intro hmin hmax
    ext k
    exact (contains_sum hmin hmax).trans (hadd k)
  · intro k hk
    exact (contains_sum_of_lt hk).trans (hadd k)
  · intro hpos hc
    have h0 : i.contains 0 = false := by
      rw [← Bool.not_eq_true]
      exact fun h => absurd (hpos 0 h) (by decide)
    ext k
    exact contains_divide hc h0

/-- Four and a positive count are five or more, and four are two rounds of two or three but no other
number of such rounds. -/
theorem counts_operations_fourEdges :
    let i := point 4
    let j : Interval := ⟨1, none⟩
    let c : Cardinality := ⟨2, some 3⟩
    i.min + j.min ≤ maxWord ∧ (∀ m ∈ i.max, ∀ n ∈ j.max, m + n ≤ maxWord) ∧
      (∀ n ∈ i.counts, 1 ≤ n) ∧ c.Valid ∧
      (i.sum j).counts = {k | 5 ≤ k} ∧ (i.divide c).counts = {2} := by
  intro i j c
  have hi : ∀ n, n ∈ i.counts ↔ n = 4 := fun n => contains_point
  have hj : ∀ n, n ∈ j.counts ↔ 1 ≤ n := fun n => by simp [j, contains]
  have hmin : i.min + j.min ≤ maxWord := by decide
  have hmax : ∀ m ∈ i.max, ∀ n ∈ j.max, m + n ≤ maxWord := by simp [j]
  have hpos : ∀ n ∈ i.counts, 1 ≤ n := fun n hn => by rw [(hi n).1 hn]; decide
  have hc : c.Valid := by decide
  obtain ⟨-, -, hsum, -, hdivide⟩ := counts_operations i j c
  refine ⟨hmin, hmax, hpos, hc, (hsum hmin hmax).trans ?_, (hdivide hpos hc).trans ?_⟩
  · ext k
    simp only [hi, hj, exists_eq_left, Set.mem_ofPred_eq]
    constructor
    · rintro ⟨b, hb, rfl⟩
      omega
    · intro hk
      exact ⟨k - 4, by omega, by omega⟩
  · ext k
    simp only [hi, exists_eq_left, Set.mem_ofPred_eq, Set.mem_singleton_iff, c, Option.mem_def,
      Option.some_inj, forall_eq']
    omega

end Interval

end ShapeTyping
