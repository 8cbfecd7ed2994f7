import Mathlib
import ShapeTyping.Cardinality

/-!
# Languages of bags

A bag language is a set of multisets. Languages form a commutative semiring: the sum of two
languages is their union, the product holds the unions of a bag of each, and `L ^ k` holds the
bags of `k` rounds through `L`.

* `BagLanguage.rounds`: as many rounds as a cardinality allows.
* `BagLanguage.mem_add_pow`: rounds through a union split into rounds through each part.
* `BagLanguage.mem_rounds_pow`: rounds of rounds are rounds between the products of the bounds.
* `BagLanguage.add_mem_mul_iff`: languages over disjoint symbols are told apart in a product.
-/

namespace ShapeTyping

/-- A set of bags. -/
def BagLanguage (α : Type) := Set (Multiset α)

namespace BagLanguage

variable {α β : Type} {L M : BagLanguage α} {b x y : Multiset α} {k : ℕ}

instance : Membership (Multiset α) (BagLanguage α) := ⟨Set.Mem⟩

@[ext]
theorem ext (h : ∀ b, b ∈ L ↔ b ∈ M) : L = M := Set.ext h

instance : HasSubset (BagLanguage α) := ⟨Set.Subset⟩

instance : Zero (BagLanguage α) := ⟨(∅ : Set (Multiset α))⟩
instance : One (BagLanguage α) := ⟨({0} : Set (Multiset α))⟩
instance : Add (BagLanguage α) := ⟨fun L M => {b : Multiset α | b ∈ L ∨ b ∈ M}⟩
instance : Mul (BagLanguage α) :=
  ⟨fun L M => {b : Multiset α | ∃ x ∈ L, ∃ y ∈ M, x + y = b}⟩

@[simp]
theorem notMem_zero : b ∉ (0 : BagLanguage α) := id

@[simp]
theorem mem_one : b ∈ (1 : BagLanguage α) ↔ b = 0 := Iff.rfl

@[simp]
theorem mem_add : b ∈ L + M ↔ b ∈ L ∨ b ∈ M := Iff.rfl

theorem mem_mul : b ∈ L * M ↔ ∃ x ∈ L, ∃ y ∈ M, x + y = b := Iff.rfl

theorem add_mem_mul (hx : x ∈ L) (hy : y ∈ M) : x + y ∈ L * M := ⟨x, hx, y, hy, rfl⟩

instance : CommSemiring (BagLanguage α) where
  add_assoc L M N := by ext b; simp [or_assoc]
  zero_add L := by ext b; simp
  add_zero L := by ext b; simp
  add_comm L M := by ext b; simp [or_comm]
  mul_assoc L M N := by
    ext b
    constructor
    · rintro ⟨_, ⟨x, hx, y, hy, rfl⟩, z, hz, rfl⟩
      exact ⟨x, hx, y + z, add_mem_mul hy hz, (add_assoc x y z).symm⟩
    · rintro ⟨x, hx, _, ⟨y, hy, z, hz, rfl⟩, rfl⟩
      exact ⟨x + y, add_mem_mul hx hy, z, hz, add_assoc x y z⟩
  mul_comm L M := by
    ext b
    constructor <;> rintro ⟨x, hx, y, hy, rfl⟩ <;> exact ⟨y, hy, x, hx, add_comm y x⟩
  one_mul L := by ext b; simp [mem_mul]
  mul_one L := by ext b; simp [mem_mul]
  zero_mul L := by ext b; simp [mem_mul]
  mul_zero L := by ext b; simp [mem_mul]
  left_distrib L M N := by ext b; simp only [mem_mul, mem_add]; grind
  right_distrib L M N := by ext b; simp only [mem_mul, mem_add]; grind
  nsmul := nsmulRec


/-! ### Rounds -/

/-- As many rounds through a language as a cardinality allows. -/
def rounds (L : BagLanguage α) (c : Cardinality) : BagLanguage α :=
  {b : Multiset α | ∃ i, c.allows i = true ∧ b ∈ L ^ i}

theorem mem_rounds {c : Cardinality} : b ∈ L.rounds c ↔ ∃ i, c.allows i = true ∧ b ∈ L ^ i :=
  Iff.rfl

/-- The language of a single symbol. -/
def symbol (a : α) : BagLanguage α := ({{a}} : Set (Multiset α))

@[simp]
theorem mem_symbol {a : α} : b ∈ symbol a ↔ b = {a} := Iff.rfl

theorem mem_pow_succ : b ∈ L ^ (k + 1) ↔ ∃ x ∈ L ^ k, ∃ y ∈ L, x + y = b := by
  rw [pow_succ, mem_mul]

theorem mem_symbol_pow {a : α} : b ∈ symbol a ^ k ↔ b = Multiset.replicate k a := by
  induction k generalizing b with
  | zero => simp
  | succ k ih =>
    rw [mem_pow_succ, Multiset.replicate_succ, ← Multiset.singleton_add, add_comm]
    constructor
    · rintro ⟨x, hx, y, rfl, rfl⟩; rw [ih.1 hx]
    · rintro rfl; exact ⟨_, ih.2 rfl, _, rfl, rfl⟩

/-- Only the empty bag comes from no symbol. -/
theorem mem_zero_pow : b ∈ (0 : BagLanguage α) ^ k ↔ k = 0 ∧ b = 0 := by
  cases k <;> simp

/-- **Rounds through a union** are rounds through one part and rounds through the other. -/
theorem mem_add_pow : b ∈ (L + M) ^ k ↔ ∃ i j, i + j = k ∧ b ∈ L ^ i * M ^ j := by
  induction k generalizing b with
  | zero =>
    constructor
    · intro h; exact ⟨0, 0, rfl, by simpa using h⟩
    · rintro ⟨i, j, hij, h⟩
      obtain ⟨rfl, rfl⟩ : i = 0 ∧ j = 0 := by omega
      simpa using h
  | succ k ih =>
    rw [pow_succ, mul_add, mem_add]
    constructor
    · rintro (⟨x, hx, y, hy, rfl⟩ | ⟨x, hx, y, hy, rfl⟩)
      · obtain ⟨i, j, rfl, hij⟩ := ih.1 hx
        refine ⟨i + 1, j, by omega, ?_⟩
        rw [pow_succ, mul_right_comm]
        exact add_mem_mul hij hy
      · obtain ⟨i, j, rfl, hij⟩ := ih.1 hx
        refine ⟨i, j + 1, by omega, ?_⟩
        rw [pow_succ, ← mul_assoc]
        exact add_mem_mul hij hy
    · rintro ⟨i, j, hij, h⟩
      -- the last round goes through whichever part has one
      cases j with
      | succ j =>
        rw [pow_succ, ← mul_assoc] at h
        obtain ⟨x, hx, y, hy, rfl⟩ := h
        exact .inr ⟨x, ih.2 ⟨i, j, by omega, hx⟩, y, hy, rfl⟩
      | zero =>
        obtain rfl : i = k + 1 := by omega
        rw [pow_succ, pow_zero, mul_one] at h
        obtain ⟨x, hx, y, hy, rfl⟩ := h
        exact .inl ⟨x, ih.2 ⟨k, 0, rfl, by simpa using hx⟩, y, hy, rfl⟩

/-- The empty bag takes no round or rounds that are empty. -/
theorem zero_mem_pow : 0 ∈ L ^ k ↔ k = 0 ∨ 0 ∈ L := by
  induction k with
  | zero => simp
  | succ k ih =>
    rw [mem_pow_succ]
    constructor
    · rintro ⟨x, -, y, hy, hxy⟩
      obtain ⟨-, rfl⟩ := add_eq_zero.1 hxy
      exact .inr hy
    · intro h
      have h := h.resolve_left (Nat.succ_ne_zero k)
      exact ⟨0, ih.2 (.inr h), 0, h, add_zero 0⟩

theorem zero_mem_rounds {c : Cardinality} (hc : c.Valid) :
    0 ∈ L.rounds c ↔ c.min = 0 ∨ 0 ∈ L := by
  rw [mem_rounds]
  constructor
  · rintro ⟨i, hi, h⟩
    rcases zero_mem_pow.1 h with rfl | h
    · exact .inl (by simpa using (Cardinality.allows_iff.1 hi).1)
    · exact .inr h
  · intro h
    exact ⟨c.min, Cardinality.allows_iff.2 ⟨le_rfl, hc⟩, zero_mem_pow.2 h⟩

/-- **Rounds of rounds.** A positive number of rounds, each of as many rounds as a cardinality
allows, is any number of rounds between the products of the bounds. -/
theorem mem_rounds_pow {c : Cardinality} (hc : c.Valid) (hk : 0 < k) :
    b ∈ L.rounds c ^ k ↔ ∃ i, k * c.min ≤ i ∧ (∀ m ∈ c.max, i ≤ k * m) ∧ b ∈ L ^ i := by
  induction k, hk using Nat.le_induction generalizing b with
  | base => simp [mem_rounds, Cardinality.allows_iff, and_assoc]
  | succ k hk ih =>
    rw [mem_pow_succ]
    constructor
    · rintro ⟨x, hx, y, hy, rfl⟩
      obtain ⟨i, hi, hm, hx⟩ := ih.1 hx
      obtain ⟨j, hj, hy⟩ := mem_rounds.1 hy
      obtain ⟨hj, hjm⟩ := Cardinality.allows_iff.1 hj
      refine ⟨i + j, by rw [Nat.succ_mul]; omega, fun m hcm => ?_, ?_⟩
      · have := hm m hcm; have := hjm m hcm; rw [Nat.succ_mul]; omega
      · rw [pow_add]; exact add_mem_mul hx hy
    · rintro ⟨i, hi, hm, hb⟩
      -- the last round takes what the others cannot, and at least the minimum
      rw [Nat.succ_mul] at hi
      obtain ⟨j, hji, hj, hjm, hr, hrm⟩ : ∃ j ≤ i, c.min ≤ j ∧ (∀ m ∈ c.max, j ≤ m) ∧
          k * c.min ≤ i - j ∧ ∀ m ∈ c.max, i - j ≤ k * m := by
        cases hmax : c.max with
        | none => exact ⟨c.min, by omega, le_rfl, by simp, by omega, by simp⟩
        | some m =>
          have h1 := hm m hmax
          have h2 := hc m hmax
          rw [Nat.succ_mul] at h1
          have h3 : k * c.min ≤ k * m := Nat.mul_le_mul_left k h2
          refine ⟨max c.min (i - k * m), by omega, by omega, ?_, by omega, ?_⟩ <;>
            · rintro _ ⟨⟩; omega
      rw [← Nat.sub_add_cancel hji, pow_add] at hb
      obtain ⟨x, hx, y, hy, rfl⟩ := hb
      exact ⟨x, ih.2 ⟨i - j, hr, hrm, hx⟩, y, ⟨j, Cardinality.allows_iff.2 ⟨hj, hjm⟩, hy⟩, rfl⟩

/-! ### Monotonicity -/

variable {L' M' : BagLanguage α}

theorem mul_mono (hL : L ⊆ L') (hM : M ⊆ M') : L * M ⊆ L' * M' := by
  rintro _ ⟨x, hx, y, hy, rfl⟩
  exact add_mem_mul (hL hx) (hM hy)

theorem add_mono (hL : L ⊆ L') (hM : M ⊆ M') : L + M ⊆ L' + M' :=
  fun _ hb => hb.imp (@hL _) (@hM _)

theorem pow_mono (h : L ⊆ M) (k : ℕ) : L ^ k ⊆ M ^ k := by
  induction k with
  | zero => exact fun _ hb => hb
  | succ k ih => rw [pow_succ, pow_succ]; exact mul_mono ih h

theorem rounds_mono (h : L ⊆ M) (c : Cardinality) : L.rounds c ⊆ M.rounds c :=
  fun _ ⟨i, hi, hb⟩ => ⟨i, hi, pow_mono h i hb⟩

/-! ### Symbols -/

/-- Whether all symbols of all bags are among some. -/
def Over (L : BagLanguage α) (s : List α) : Prop := ∀ b ∈ L, ∀ a ∈ b, a ∈ s

theorem Over.mul {s : List α} (hL : L.Over s) (hM : M.Over s) : (L * M).Over s := by
  rintro _ ⟨x, hx, y, hy, rfl⟩ a ha
  exact (Multiset.mem_add.1 ha).elim (hL x hx a) (hM y hy a)

theorem Over.pow {s : List α} (hL : L.Over s) (k : ℕ) : (L ^ k).Over s := by
  induction k with
  | zero => rintro b rfl; simp
  | succ k ih => rw [pow_succ]; exact ih.mul hL

theorem Over.rounds {s : List α} (hL : L.Over s) (c : Cardinality) : (L.rounds c).Over s :=
  fun b ⟨i, _, hb⟩ => hL.pow i b hb

theorem Over.mono {s t : List α} (hL : L.Over s) (h : ∀ a ∈ s, a ∈ t) : L.Over t :=
  fun b hb a ha => h a (hL b hb a ha)

/-- **Languages over disjoint symbols** are told apart in a product. -/
theorem add_mem_mul_iff {s t : List α} (hst : s.Disjoint t) (hL : L.Over s) (hM : M.Over t)
    (hx : ∀ a ∈ x, a ∈ s) (hy : ∀ a ∈ y, a ∈ t) : x + y ∈ L * M ↔ x ∈ L ∧ y ∈ M := by
  classical
  refine ⟨?_, fun h => add_mem_mul h.1 h.2⟩
  rintro ⟨x', hx', y', hy', h⟩
  -- both parts are found again by keeping the symbols of one side
  have part : ∀ {u v : Multiset α}, (∀ a ∈ u, a ∈ s) → (∀ a ∈ v, a ∈ t) →
      (u + v).filter (· ∈ s) = u := by
    intro u v hu hv
    rw [Multiset.filter_add, Multiset.filter_eq_self.2 hu,
      Multiset.filter_eq_nil.2 fun a ha has => hst has (hv a ha), add_zero]
  obtain rfl : x' = x := by rw [← part (hL x' hx') (hM y' hy'), h, part hx hy]
  exact ⟨hx', add_left_cancel h ▸ hy'⟩

end BagLanguage

end ShapeTyping
