import Mathlib
import ShapeTyping.Schema.Compile
import ShapeTyping.Proofs.Bag.Evaluation
import ShapeTyping.Proofs.Schema.References

/-!
# The language of triple expressions

A triple expression stands for a language of bags of triple constraints, and a reference for
the language of its definition. Normal forms and compiled trees stand for the same language.

* `Schema.language`: the language of an expression whose references are looked up in a schema.
* `TripleExpr.languageWith_unfold`: the copies made of a group stand for the group.
* `BagExpr.map_language_ofTripleExpr`: the tree of an expression, its indices read as
  constraints, stands for the expression.
* `Schema.languageWith_of_expand`: replacing references by definitions changes nothing.
* `language_normalize_compile`: the normal form and the tree of every expression exist and
  stand for its language.
-/

namespace ShapeTyping

/-! ### Language of a triple expression -/

mutual
/-- The bags of triple constraints that an expression accepts when references accept what
`follow` gives for them. A triple constraint accepts as many copies of itself as its
cardinality allows. -/
def TripleExpr.languageWith (follow : Label → BagLanguage TripleConstraint) :
    TripleExpr → BagLanguage TripleConstraint
  | .constraint c => (BagLanguage.symbol c).rounds c.card
  | .eachOf es card => (TripleExpr.languageEachWith follow es).rounds card
  | .oneOf es card => (TripleExpr.languageOneWith follow es).rounds card
  | .ref l => follow l
  | .empty => 1

def TripleExpr.languageEachWith (follow : Label → BagLanguage TripleConstraint) :
    List TripleExpr → BagLanguage TripleConstraint
  | [] => 1
  | e :: es => e.languageWith follow * TripleExpr.languageEachWith follow es

def TripleExpr.languageOneWith (follow : Label → BagLanguage TripleConstraint) :
    List TripleExpr → BagLanguage TripleConstraint
  | [] => 0
  | e :: es => e.languageWith follow + TripleExpr.languageOneWith follow es
end

/-- What a label accepts when references are followed at most `depth` deep. -/
def labelLanguage (defs : List (Label × TripleExpr)) : ℕ → Label → BagLanguage TripleConstraint
  | 0, _ => 0
  | depth + 1, l =>
    match defs.lookup l with
    | none => 0
    | some e => e.languageWith (labelLanguage defs depth)

/-- The bags that an expression accepts when its references accept what their definitions in a
schema do, at whatever depth. -/
def Schema.language (s : Schema) (e : TripleExpr) : BagLanguage TripleConstraint :=
  {b : Multiset TripleConstraint | ∃ depth, b ∈ e.languageWith (labelLanguage s.tripleExprs depth)}

theorem Schema.mem_language {s : Schema} {e : TripleExpr} {b : Multiset TripleConstraint} :
    b ∈ s.language e ↔ ∃ depth, b ∈ e.languageWith (labelLanguage s.tripleExprs depth) := Iff.rfl

mutual
/-- The cardinalities of an expression, those of triple constraints included. -/
def TripleExpr.cards : TripleExpr → List Cardinality
  | .constraint c => [c.card]
  | .eachOf es card => card :: TripleExpr.cardsOfList es
  | .oneOf es card => card :: TripleExpr.cardsOfList es
  | .ref _ => []
  | .empty => []

def TripleExpr.cardsOfList : List TripleExpr → List Cardinality
  | [] => []
  | e :: es => e.cards ++ TripleExpr.cardsOfList es
end

/-! ### Copies of a group -/

/-- What a mapped computation that succeeds is made of. -/
theorem Except.map_eq_ok {ε α β : Type} {f : α → β} {x : Except ε α} {b : β}
    (h : x.map f = .ok b) : ∃ a, x = .ok a ∧ f a = b := by
  cases x with
  | error err => cases h
  | ok a => cases h; exact ⟨a, rfl, rfl⟩

theorem TripleExpr.expandListWith_cons {follow : Label → Except SchemaError TripleExpr}
    {e : TripleExpr} {es xs : List TripleExpr}
    (h : TripleExpr.expandListWith follow (e :: es) = .ok xs) :
    ∃ x, e.expandWith follow = .ok x ∧
      ∃ ys, TripleExpr.expandListWith follow es = .ok ys ∧ x :: ys = xs := by
  rw [TripleExpr.expandListWith] at h
  split at h
  · cases h
  · rename_i x hx
    exact ⟨x, hx, Except.map_eq_ok h⟩

namespace BagLanguage

variable {α β : Type} {L : BagLanguage α} {b : Multiset α} {n m k : ℕ}

@[simp]
theorem rounds_one : L.rounds .one = L := by
  ext b
  rw [mem_rounds]
  constructor
  · rintro ⟨i, hi, h⟩
    obtain ⟨h1, h2⟩ := Cardinality.allows_iff.1 hi
    obtain rfl : i = 1 := Nat.le_antisymm (h2 1 rfl) h1
    simpa using h
  · intro h
    exact ⟨1, rfl, by simpa using h⟩

theorem rounds_zero {c : Cardinality} (hc : c.Valid) (hz : c.isZero = true) : L.rounds c = 1 := by
  have hmax : c.max = some 0 := by simpa [Cardinality.isZero] using hz
  ext b
  rw [mem_rounds]
  constructor
  · rintro ⟨i, hi, h⟩
    obtain rfl : i = 0 := Nat.le_zero.1 ((Cardinality.allows_iff.1 hi).2 0 hmax)
    simpa using h
  · rintro rfl
    exact ⟨0, Cardinality.allows_iff.2 ⟨hc 0 hmax, fun _ _ => Nat.zero_le _⟩, by simp⟩

/-- Optional copies give any smaller number of rounds. -/
theorem mem_rounds_optional_pow : b ∈ L.rounds .optional ^ k ↔ ∃ i ≤ k, b ∈ L ^ i := by
  rcases Nat.eq_zero_or_pos k with rfl | hk
  · simp
  · rw [mem_rounds_pow (by decide) hk]
    simp [Cardinality.optional]

/-- **Mandatory copies followed by optional ones** are rounds between two bounds. -/
theorem pow_mul_rounds_optional (h : n ≤ m) :
    L ^ n * L.rounds .optional ^ (m - n) = L.rounds ⟨n, some m⟩ := by
  ext b
  rw [mem_mul, mem_rounds]
  simp only [mem_rounds_optional_pow]
  constructor
  · rintro ⟨x, hx, y, ⟨i, hi, hy⟩, rfl⟩
    refine ⟨n + i, by simp [Cardinality.allows]; omega, ?_⟩
    rw [pow_add]; exact add_mem_mul hx hy
  · rintro ⟨i, hi, hb⟩
    obtain ⟨h1, h2⟩ : n ≤ i ∧ i ≤ m := by simpa [Cardinality.allows] using hi
    rw [← Nat.add_sub_cancel' h1, pow_add] at hb
    obtain ⟨x, hx, y, hy, rfl⟩ := hb
    exact ⟨x, hx, y, ⟨i - n, by omega, hy⟩, rfl⟩

/-- **Mandatory copies of which the last may be repeated** are rounds with a lower bound. -/
theorem pow_mul_rounds_plus (h : 0 < n) :
    L ^ (n - 1) * L.rounds .plus = L.rounds ⟨n, none⟩ := by
  ext b
  rw [mem_mul, mem_rounds]
  simp only [mem_rounds]
  constructor
  · rintro ⟨x, hx, y, ⟨i, hi, hy⟩, rfl⟩
    have h1 : 1 ≤ i := (Cardinality.allows_iff.1 hi).1
    refine ⟨n - 1 + i, by simp [Cardinality.allows]; omega, ?_⟩
    rw [pow_add]; exact add_mem_mul hx hy
  · rintro ⟨i, hi, hb⟩
    have h1 : n ≤ i := (Cardinality.allows_iff.1 hi).1
    rw [show i = n - 1 + (i - (n - 1)) by omega, pow_add] at hb
    obtain ⟨x, hx, y, hy, rfl⟩ := hb
    have h2 : 1 ≤ i - (n - 1) := by omega
    exact ⟨x, hx, y, ⟨i - (n - 1), Cardinality.allows_iff.2 ⟨h2, by simp [Cardinality.plus]⟩, hy⟩, rfl⟩

end BagLanguage

namespace TripleExpr

variable {follow : Label → BagLanguage TripleConstraint}

theorem languageEachWith_append (es fs : List TripleExpr) :
    languageEachWith follow (es ++ fs) = languageEachWith follow es * languageEachWith follow fs := by
  induction es with
  | nil => simp [languageEachWith]
  | cons e es ih => simp [languageEachWith, ih, mul_assoc]

theorem languageEachWith_replicate (n : ℕ) (e : TripleExpr) :
    languageEachWith follow (List.replicate n e) = e.languageWith follow ^ n := by
  induction n with
  | zero => simp [languageEachWith]
  | succ n ih => rw [List.replicate_succ, languageEachWith, ih, pow_succ']

/-- **The copies made of a group** stand for the group with its cardinality, when the group
stands for rounds through some language. -/
theorem languageWith_unfoldGroup {group : TripleExpr} {L : BagLanguage TripleConstraint}
    (hg : ∀ c, (group.withCard c).languageWith follow = L.rounds c)
    (h1 : group.languageWith follow = L) {card : Cardinality} (hc : card.Valid) :
    (unfoldGroup group card).languageWith follow = L.rounds card := by
  unfold unfoldGroup
  split
  · exact hg card
  rename_i hstd
  split
  · rename_i hz
    exact (BagLanguage.rounds_zero hc hz).symm
  -- what is left is a group of copies, optional ones or a repeated one at the end
  rw [languageWith, BagLanguage.rounds_one]
  obtain ⟨n, max⟩ := card
  cases max with
  | some m =>
    rw [languageEachWith_append, languageEachWith_replicate, languageEachWith_replicate, h1, hg]
    exact BagLanguage.pow_mul_rounds_optional (hc m rfl)
  | none =>
    have hn : 0 < n := by
      rcases Nat.eq_zero_or_pos n with rfl | hn
      · exact absurd (by decide) hstd
      · exact hn
    rw [languageEachWith_append, languageEachWith_replicate, h1]
    simp only [languageEachWith, mul_one, hg]
    exact BagLanguage.pow_mul_rounds_plus hn

mutual
/-- **Unfolding keeps the language**, if all cardinalities have their bounds in order. -/
theorem languageWith_unfold : (e : TripleExpr) → (∀ c ∈ e.cards, c.Valid) →
    e.unfold.languageWith follow = e.languageWith follow
  | constraint c, _ => rfl
  | eachOf es card, h => by
    rw [unfold, languageWith_unfoldGroup (L := languageEachWith follow (unfoldList es))
      (fun c => rfl) (by simp [languageWith]) (h card (by simp [cards])),
      languageEachWith_unfoldList es fun c hc => h c (List.mem_cons_of_mem _ hc), languageWith]
  | oneOf es card, h => by
    rw [unfold, languageWith_unfoldGroup (L := languageOneWith follow (unfoldList es))
      (fun c => rfl) (by simp [languageWith]) (h card (by simp [cards])),
      languageOneWith_unfoldList es fun c hc => h c (List.mem_cons_of_mem _ hc), languageWith]
  | ref l, _ => rfl
  | empty, _ => rfl

theorem languageEachWith_unfoldList : (es : List TripleExpr) → (∀ c ∈ cardsOfList es, c.Valid) →
    languageEachWith follow (unfoldList es) = languageEachWith follow es
  | [], _ => rfl
  | e :: es, h => by
    rw [unfoldList, languageEachWith, languageEachWith,
      languageWith_unfold e fun c hc => h c (List.mem_append_left _ hc),
      languageEachWith_unfoldList es fun c hc => h c (List.mem_append_right _ hc)]

theorem languageOneWith_unfoldList : (es : List TripleExpr) → (∀ c ∈ cardsOfList es, c.Valid) →
    languageOneWith follow (unfoldList es) = languageOneWith follow es
  | [], _ => rfl
  | e :: es, h => by
    rw [unfoldList, languageOneWith, languageOneWith,
      languageWith_unfold e fun c hc => h c (List.mem_append_left _ hc),
      languageOneWith_unfoldList es fun c hc => h c (List.mem_append_right _ hc)]
end

end TripleExpr

/-! ### Trees and their table of constraints -/

namespace BagLanguage

variable {α β : Type} {L : BagLanguage α}

/-- The bags of a language with other symbols. -/
def map (f : α → β) : BagLanguage α →+* BagLanguage β where
  toFun L := {b : Multiset β | ∃ m ∈ L, m.map f = b}
  map_one' := by ext b; exact ⟨fun ⟨m, hm, hb⟩ => by rw [← hb, mem_one.1 hm]; rfl,
    fun hb => ⟨0, rfl, by rw [mem_one.1 hb]; rfl⟩⟩
  map_zero' := by ext b; exact ⟨fun ⟨_, hm, _⟩ => hm.elim, fun hb => hb.elim⟩
  map_add' L M := by
    ext b
    constructor
    · rintro ⟨m, hm | hm, rfl⟩
      · exact .inl ⟨m, hm, rfl⟩
      · exact .inr ⟨m, hm, rfl⟩
    · rintro (⟨m, hm, rfl⟩ | ⟨m, hm, rfl⟩)
      · exact ⟨m, .inl hm, rfl⟩
      · exact ⟨m, .inr hm, rfl⟩
  map_mul' L M := by
    ext b
    constructor
    · rintro ⟨_, ⟨x, hx, y, hy, rfl⟩, rfl⟩
      exact ⟨x.map f, ⟨x, hx, rfl⟩, y.map f, ⟨y, hy, rfl⟩, (Multiset.map_add f x y).symm⟩
    · rintro ⟨_, ⟨x, hx, rfl⟩, _, ⟨y, hy, rfl⟩, rfl⟩
      exact ⟨x + y, add_mem_mul hx hy, Multiset.map_add f x y⟩

theorem mem_map {f : α → β} {b : Multiset β} : b ∈ map f L ↔ ∃ m ∈ L, m.map f = b := Iff.rfl

theorem map_symbol (f : α → β) (a : α) : map f (symbol a) = symbol (f a) := by
  ext b
  rw [mem_map, mem_symbol]
  exact ⟨fun ⟨m, hm, hb⟩ => by rw [← hb, mem_symbol.1 hm]; rfl, fun hb => ⟨{a}, rfl, hb.symm⟩⟩

theorem map_rounds (f : α → β) (c : Cardinality) : map f (L.rounds c) = (map f L).rounds c := by
  ext b
  rw [mem_rounds]
  simp only [← map_pow]
  constructor
  · rintro ⟨m, ⟨i, hi, hm⟩, rfl⟩; exact ⟨i, hi, m, hm, rfl⟩
  · rintro ⟨i, hi, m, hm, rfl⟩; exact ⟨m, ⟨i, hi, hm⟩, rfl⟩

end BagLanguage

namespace BagExpr

theorem language_withCard (e : BagExpr) (card : Cardinality) :
    (e.withCard card).language = e.language.rounds card := by
  unfold withCard
  split
  · rename_i h
    obtain rfl : card = .one := by simpa [Cardinality.isOne] using h
    exact BagLanguage.rounds_one.symm
  · rfl

variable {cs : List TripleConstraint}

theorem constraints_cons_left {e : TripleExpr} {es : List TripleExpr} {i : ℕ}
    {c : TripleConstraint} (h : e.constraints[i]? = some c) :
    (TripleExpr.constraintsOfList (e :: es))[i]? = some c := by
  rw [TripleExpr.constraintsOfList,
    List.getElem?_append_left (List.getElem?_eq_some_iff.1 h).1, h]

theorem constraints_cons_right {e : TripleExpr} {es : List TripleExpr} {i : ℕ}
    {c : TripleConstraint} (h : (TripleExpr.constraintsOfList es)[i]? = some c) :
    (TripleExpr.constraintsOfList (e :: es))[e.constraints.length + i]? = some c := by
  rw [TripleExpr.constraintsOfList, List.getElem?_append_right (Nat.le_add_right _ _),
    Nat.add_sub_cancel_left, h]

mutual
/-- **The tree of an expression** whose constraints stand in a table from some index on, with
indices read as constraints, stands for the expression; references count as empty in both. -/
theorem map_language_ofTripleExpr : (k : ℕ) → (e : TripleExpr) →
    (∀ i c, e.constraints[i]? = some c → cs[k + i]? = some c) →
    BagLanguage.map (cs[·]?) (ofTripleExpr k e).language =
      BagLanguage.map some (e.languageWith fun _ => 1)
  | k, .constraint c, h => by
    have hk : cs[k]? = some c := h 0 c rfl
    rw [ofTripleExpr, language_withCard, language, TripleExpr.languageWith,
      BagLanguage.map_rounds, BagLanguage.map_rounds, BagLanguage.map_symbol,
      BagLanguage.map_symbol, hk]
  | k, .eachOf es card, h => by
    rw [ofTripleExpr, language_withCard, language, TripleExpr.languageWith,
      BagLanguage.map_rounds, BagLanguage.map_rounds, map_languageEach_ofTripleExprs k es h]
  | k, .oneOf es card, h => by
    rw [ofTripleExpr, language_withCard, language, TripleExpr.languageWith,
      BagLanguage.map_rounds, BagLanguage.map_rounds, map_languageOne_ofTripleExprs k es h]
  | k, .ref l, _ => by
    rw [ofTripleExpr, language, TripleExpr.languageWith, map_one, map_one]
  | k, .empty, _ => by
    rw [ofTripleExpr, language, TripleExpr.languageWith, map_one, map_one]

theorem map_languageEach_ofTripleExprs : (k : ℕ) → (es : List TripleExpr) →
    (∀ i c, (TripleExpr.constraintsOfList es)[i]? = some c → cs[k + i]? = some c) →
    BagLanguage.map (cs[·]?) (languageEach (ofTripleExprs k es)) =
      BagLanguage.map some (TripleExpr.languageEachWith (fun _ => 1) es)
  | k, [], _ => by
    rw [ofTripleExprs, languageEach, TripleExpr.languageEachWith, map_one, map_one]
  | k, e :: es, h => by
    rw [ofTripleExprs, languageEach, TripleExpr.languageEachWith, map_mul, map_mul,
      map_language_ofTripleExpr k e fun i c hi => h i c (constraints_cons_left hi),
      map_languageEach_ofTripleExprs _ es fun i c hi => by
        rw [add_assoc]; exact h _ c (constraints_cons_right hi)]

theorem map_languageOne_ofTripleExprs : (k : ℕ) → (es : List TripleExpr) →
    (∀ i c, (TripleExpr.constraintsOfList es)[i]? = some c → cs[k + i]? = some c) →
    BagLanguage.map (cs[·]?) (languageOne (ofTripleExprs k es)) =
      BagLanguage.map some (TripleExpr.languageOneWith (fun _ => 1) es)
  | k, [], _ => by
    rw [ofTripleExprs, languageOne, TripleExpr.languageOneWith, map_zero, map_zero]
  | k, e :: es, h => by
    rw [ofTripleExprs, languageOne, TripleExpr.languageOneWith, map_add, map_add,
      map_language_ofTripleExpr k e fun i c hi => h i c (constraints_cons_left hi),
      map_languageOne_ofTripleExprs _ es fun i c hi => by
        rw [add_assoc]; exact h _ c (constraints_cons_right hi)]
end

end BagExpr

/-! ### References -/

namespace TripleExpr

variable {I J : Label → BagLanguage TripleConstraint}
  {follow : Label → Except SchemaError TripleExpr}

mutual
/-- Replacing references by expressions that stand for them keeps the language. -/
theorem languageWith_expandWith
    (hf : ∀ l x, follow l = .ok x → x.languageWith J = I l) : (e : TripleExpr) → {x : TripleExpr} →
    e.expandWith follow = .ok x → x.languageWith J = e.languageWith I
  | .constraint c, x, h => by cases h; rfl
  | .eachOf es card, x, h => by
    rw [expandWith] at h
    obtain ⟨xs, hxs, rfl⟩ := Except.map_eq_ok h
    rw [languageWith, languageWith, languageEachWith_expandListWith hf es hxs]
  | .oneOf es card, x, h => by
    rw [expandWith] at h
    obtain ⟨xs, hxs, rfl⟩ := Except.map_eq_ok h
    rw [languageWith, languageWith, languageOneWith_expandListWith hf es hxs]
  | .ref l, x, h => hf l x h
  | .empty, x, h => by cases h; rfl

theorem languageEachWith_expandListWith
    (hf : ∀ l x, follow l = .ok x → x.languageWith J = I l) : (es : List TripleExpr) →
    {xs : List TripleExpr} → expandListWith follow es = .ok xs →
    languageEachWith J xs = languageEachWith I es
  | [], xs, h => by cases h; rfl
  | e :: es, xs, h => by
    obtain ⟨x, hx, ys, hys, rfl⟩ := expandListWith_cons h
    rw [languageEachWith, languageEachWith, languageWith_expandWith hf e hx,
      languageEachWith_expandListWith hf es hys]

theorem languageOneWith_expandListWith
    (hf : ∀ l x, follow l = .ok x → x.languageWith J = I l) : (es : List TripleExpr) →
    {xs : List TripleExpr} → expandListWith follow es = .ok xs →
    languageOneWith J xs = languageOneWith I es
  | [], xs, h => by cases h; rfl
  | e :: es, xs, h => by
    obtain ⟨x, hx, ys, hys, rfl⟩ := expandListWith_cons h
    rw [languageOneWith, languageOneWith, languageWith_expandWith hf e hx,
      languageOneWith_expandListWith hf es hys]
end

mutual
/-- The language grows with the languages of the references. -/
theorem languageWith_mono (hIJ : ∀ l, I l ⊆ J l) : (e : TripleExpr) →
    e.languageWith I ⊆ e.languageWith J
  | .constraint _ => fun _ h => h
  | .eachOf es card => BagLanguage.rounds_mono (languageEachWith_mono hIJ es) card
  | .oneOf es card => BagLanguage.rounds_mono (languageOneWith_mono hIJ es) card
  | .ref l => hIJ l
  | .empty => fun _ h => h

theorem languageEachWith_mono (hIJ : ∀ l, I l ⊆ J l) : (es : List TripleExpr) →
    languageEachWith I es ⊆ languageEachWith J es
  | [] => fun _ h => h
  | e :: es => BagLanguage.mul_mono (languageWith_mono hIJ e) (languageEachWith_mono hIJ es)

theorem languageOneWith_mono (hIJ : ∀ l, I l ⊆ J l) : (es : List TripleExpr) →
    languageOneWith I es ⊆ languageOneWith J es
  | [] => fun _ h => h
  | e :: es => BagLanguage.add_mono (languageWith_mono hIJ e) (languageOneWith_mono hIJ es)
end

end TripleExpr

theorem labelLanguage_mono {defs : List (Label × TripleExpr)} {m n : ℕ} (h : m ≤ n) (l : Label) :
    labelLanguage defs m l ⊆ labelLanguage defs n l := by
  induction n generalizing m l with
  | zero => obtain rfl := Nat.le_zero.1 h; exact fun _ hb => hb
  | succ n ih =>
    cases m with
    | zero => exact fun b hb => hb.elim
    | succ m =>
      rw [labelLanguage, labelLanguage]
      split
      · exact fun _ hb => hb
      · exact TripleExpr.languageWith_mono (fun l => ih (Nat.le_of_succ_le_succ h) l) _

/-- An expanded label stands for what the label accepts at the depth of the expansion and
deeper. -/
theorem languageWith_of_expandLabel {defs : List (Label × TripleExpr)}
    {J : Label → BagLanguage TripleConstraint} {n m : ℕ} (hnm : n ≤ m) {l : Label} {x : TripleExpr}
    (hx : expandLabel defs n l = .ok x) : x.languageWith J = labelLanguage defs m l := by
  induction n generalizing m l x with
  | zero => cases hx
  | succ n ih =>
    obtain ⟨m, rfl⟩ : ∃ m', m = m' + 1 := ⟨m - 1, by omega⟩
    rw [expandLabel] at hx
    rw [labelLanguage]
    cases hl : defs.lookup l with
    | none => rw [hl] at hx; cases hx
    | some d =>
      rw [hl] at hx
      exact TripleExpr.languageWith_expandWith
        (fun l y hy => ih (Nat.le_of_succ_le_succ hnm) hy) _ hx

/-- **Replacing references by definitions keeps the language**, and nothing is left to follow. -/
theorem Schema.languageWith_of_expand {s : Schema} {e x : TripleExpr} (hx : s.expand e = .ok x)
    (J : Label → BagLanguage TripleConstraint) : x.languageWith J = s.language e := by
  -- references can be followed deeper than they need be, without any change
  have key : ∀ m ≥ s.tripleExprs.length,
      x.languageWith J = e.languageWith (labelLanguage s.tripleExprs m) := fun m hm =>
    TripleExpr.languageWith_expandWith (fun l y hy => languageWith_of_expandLabel hm hy) e hx
  ext b
  rw [Schema.mem_language]
  constructor
  · intro hb
    exact ⟨_, key _ le_rfl ▸ hb⟩
  · rintro ⟨m, hb⟩
    rw [key _ (le_max_right m _)]
    exact TripleExpr.languageWith_mono (labelLanguage_mono (le_max_left m _)) e hb

/-- All cardinalities of an expression have their bounds in order, those of the definitions it
refers to included. -/
def Schema.CardsValid (s : Schema) (e : TripleExpr) : Prop :=
  ∀ x, s.expand e = .ok x → ∀ c ∈ x.cards, c.Valid

/-- The tree of an expression stands for its normal form, indices read as constraints. -/
theorem Schema.mem_language_iff_root {s : Schema} {e : TripleExpr} {c : Compiled}
    (hc : s.compile e = .ok c) (hv : s.CardsValid e) (b : Multiset TripleConstraint) :
    b ∈ s.language e ↔ ∃ m ∈ c.root.language, m.map (c.constraints[·]?) = b.map some := by
  obtain ⟨x, hx, rfl⟩ := Except.map_eq_ok hc
  have hcs : ∀ i c, x.unfold.constraints[i]? = some c → x.unfold.constraints[0 + i]? = some c := by
    intro i c hi
    rwa [Nat.zero_add]
  have hroot := BagExpr.map_language_ofTripleExpr 0 x.unfold hcs
  rw [TripleExpr.languageWith_unfold x (hv x hx), s.languageWith_of_expand hx] at hroot
  have hb : b ∈ s.language e ↔ b.map some ∈ BagLanguage.map some (s.language e) :=
    ⟨fun h => ⟨b, h, rfl⟩,
      fun ⟨m, hm, h⟩ => Multiset.map_injective (Option.some_injective _) h ▸ hm⟩
  rw [hb, ← hroot]
  rfl

/-! ### Hereditary properties -/

namespace TripleExpr

/-- A property of expressions that groups have if their members do and a property of the
cardinality holds. -/
structure Hereditary (P : TripleExpr → Prop) (Q : Cardinality → Prop) : Prop where
  eachOf : ∀ es card, P (.eachOf es card) ↔ Q card ∧ ∀ e ∈ es, P e
  oneOf : ∀ es card, P (.oneOf es card) ↔ Q card ∧ ∀ e ∈ es, P e

section Hereditary

variable {P : TripleExpr → Prop} {Q : Cardinality → Prop}
  {follow : Label → Except SchemaError TripleExpr}

mutual
/-- Replacing references by expressions with a hereditary property keeps it. -/
theorem expandWith_hereditary (hP : Hereditary P Q) (hf : ∀ l x, follow l = .ok x → P x) :
    (e : TripleExpr) → {x : TripleExpr} → e.expandWith follow = .ok x → P e → P x
  | .constraint c, x, hx, h => by cases hx; exact h
  | .eachOf es card, x, hx, h => by
    rw [expandWith] at hx
    obtain ⟨xs, hxs, rfl⟩ := Except.map_eq_ok hx
    obtain ⟨hcard, hes⟩ := (hP.eachOf es card).1 h
    exact (hP.eachOf xs card).2 ⟨hcard, expandListWith_hereditary hP hf es hxs hes⟩
  | .oneOf es card, x, hx, h => by
    rw [expandWith] at hx
    obtain ⟨xs, hxs, rfl⟩ := Except.map_eq_ok hx
    obtain ⟨hcard, hes⟩ := (hP.oneOf es card).1 h
    exact (hP.oneOf xs card).2 ⟨hcard, expandListWith_hereditary hP hf es hxs hes⟩
  | .ref l, x, hx, _ => hf l x hx
  | .empty, x, hx, h => by cases hx; exact h

theorem expandListWith_hereditary (hP : Hereditary P Q) (hf : ∀ l x, follow l = .ok x → P x) :
    (es : List TripleExpr) → {xs : List TripleExpr} → expandListWith follow es = .ok xs →
      (∀ e ∈ es, P e) → ∀ x ∈ xs, P x
  | [], xs, hx, _ => by cases hx; simp
  | e :: es, xs, hx, h => by
    obtain ⟨x, hxe, ys, hys, rfl⟩ := expandListWith_cons hx
    obtain ⟨he, hes⟩ := List.forall_mem_cons.1 h
    exact List.forall_mem_cons.2
      ⟨expandWith_hereditary hP hf e hxe he, expandListWith_hereditary hP hf es hys hes⟩
end

/-- **A hereditary property** of an expression and of all definitions is one of the expanded
expression. -/
theorem expandIn_hereditary (hP : Hereditary P Q) {defs : List (Label × TripleExpr)}
    {e x : TripleExpr} (hd : ∀ p ∈ defs, P p.2) (he : P e) (hx : e.expandIn defs = .ok x) : P x := by
  have hlabel : ∀ l x, expandLabel defs defs.length l = .ok x → P x := fun _ _ =>
    expandLabel_induction (P := fun _ x => P x) fun _ hf _ e _ hl hx =>
      expandWith_hereditary hP hf e hx (hd _ (mem_of_lookup_eq_some hl))
  exact expandWith_hereditary hP hlabel e hx he

end Hereditary

theorem mem_cardsOfList {c : Cardinality} {es : List TripleExpr} :
    c ∈ cardsOfList es ↔ ∃ e ∈ es, c ∈ e.cards := by
  induction es with
  | nil => simp [cardsOfList]
  | cons e es ih => simp [cardsOfList, ih]

/-- Having cardinalities of a kind only is hereditary. -/
theorem hereditary_cards (Q : Cardinality → Prop) :
    Hereditary (fun e => ∀ c ∈ e.cards, Q c) Q := by
  have hgroup : ∀ (es : List TripleExpr) (card : Cardinality),
      (∀ c ∈ card :: cardsOfList es, Q c) ↔ Q card ∧ ∀ e ∈ es, ∀ c ∈ e.cards, Q c := by
    intro es card
    rw [List.forall_mem_cons]
    simp only [mem_cardsOfList]
    exact and_congr_right fun _ =>
      ⟨fun h e he c hc => h c ⟨e, he, hc⟩, fun h c ⟨e, he, hc⟩ => h e he c hc⟩
  exact ⟨hgroup, hgroup⟩

end TripleExpr

/-- The cardinalities of an expression are valid in a schema if its own and those of all
definitions are. -/
theorem Schema.cardsValid_of_definitions {s : Schema} {e : TripleExpr}
    (hs : ∀ p ∈ s.tripleExprs, ∀ c ∈ p.2.cards, c.Valid) (he : ∀ c ∈ e.cards, c.Valid) :
    s.CardsValid e :=
  fun _ hx => TripleExpr.expandIn_hereditary (TripleExpr.hereditary_cards _) hs he hx

/-! ### Normal forms of a built schema -/

/-- **Normalization and compilation keep the language.** In a built schema every expression
whose references are defined and whose cardinalities are valid has a normal form and a tree.
The normal form accepts the same bags of constraints as the expression, and so does the tree
once its indices are looked up in its table of constraints. -/
theorem language_normalize_compile {d : Definitions} {s : Schema} {e : TripleExpr}
    (h : d.build = .ok s) (he : ∀ l ∈ e.references, l ∈ s.tripleExprs.map (·.1))
    (hv : s.CardsValid e) :
    ∃ n c, s.normalize e = .ok n ∧ s.compile e = .ok c ∧ s.language n = s.language e ∧
      ∀ b, b ∈ s.language e ↔
        ∃ m ∈ c.root.language, m.map (c.constraints[·]?) = b.map some := by
  obtain ⟨x, hx⟩ := (Definitions.builds_of_build h).expand_ok he
  have hn : s.normalize e = .ok x.unfold := by rw [Schema.normalize, hx]; rfl
  have hc : s.compile e = .ok x.compile := by rw [Schema.compile, hx]; rfl
  refine ⟨x.unfold, x.compile, hn, hc, ?_, Schema.mem_language_iff_root hc hv⟩
  ext b
  have hunfold : ∀ follow, x.unfold.languageWith follow = s.language e := fun follow => by
    rw [TripleExpr.languageWith_unfold x (hv x hx), Schema.languageWith_of_expand hx]
  rw [Schema.mem_language]
  simp only [hunfold, exists_const]

/-- A shape that goes twice or three times through a referenced optional constraint. -/
def repeatedReference : Definitions where
  shapes := [(.iri ⟨"urn:S"⟩, .shape ⟨false, [], .eachOf [.ref (.iri ⟨"urn:t"⟩)] ⟨2, some 3⟩, 0⟩)]
  tripleExprs := [(.iri ⟨"urn:t"⟩, .constraint ⟨⟨"urn:p"⟩, none, .optional, false, none⟩)]
  start := none

theorem language_normalize_compile_repeatedReference :
    ∃ s, repeatedReference.build = .ok s ∧
      ∃ n c, s.normalize (.eachOf [.ref (.iri ⟨"urn:t"⟩)] ⟨2, some 3⟩) = .ok n ∧
        s.compile (.eachOf [.ref (.iri ⟨"urn:t"⟩)] ⟨2, some 3⟩) = .ok c ∧
        s.language n = s.language (.eachOf [.ref (.iri ⟨"urn:t"⟩)] ⟨2, some 3⟩) ∧
        ∀ b, b ∈ s.language (.eachOf [.ref (.iri ⟨"urn:t"⟩)] ⟨2, some 3⟩) ↔
          ∃ m ∈ c.root.language, m.map (c.constraints[·]?) = b.map some := by
  have hbuild : repeatedReference.build = .ok
      { shapes := repeatedReference.shapes
        tripleExprs := repeatedReference.tripleExprs
        start := none, shapeCount := 1, strata := [[.iri ⟨"urn:S"⟩]] } := by cbv
  refine ⟨_, hbuild, language_normalize_compile hbuild (by decide) ?_⟩
  refine Schema.cardsValid_of_definitions ?_ ?_
  · simp [repeatedReference, TripleExpr.cards, Cardinality.Valid, Cardinality.optional]
  · simp [TripleExpr.cards, TripleExpr.cardsOfList, Cardinality.Valid]

end ShapeTyping
