import Mathlib
import ShapeTyping.Formula.Sentence
import ShapeTyping.Proofs.NodeConstraint.Parts
import ShapeTyping.Proofs.Value.Decimal

/-!
# Comparison of integers and decimals

Literals of integer types and of decimals are compared as the numbers that their texts write, within
a type and across the two. An integer that becomes a decimal stays the same number, so the order is
total and facets with a bound admit exactly the numbers on their side of it.

* `Value.Exact`, `Value.Exact.compare?`: values that stand for a number, and their order.
* `Literal.Writes`, `Literal.IsExact`: the number that a literal writes, and the literals that have
  a value of an integer type or a decimal.
* `Literal.isExact_integerType_iff`, `Literal.isExact_decimal_iff`: the texts of such literals.
* `Literal.IsExact.exists_value`: the value of such a literal stands for the number that it writes.
* `Operator.Relates`: what an operator says of two numbers.
* `Literal.compare?_exact`: comparison, operators and facets follow the numbers.
-/

namespace ShapeTyping

/-! ### Values -/

/-- The values of integer types and the decimals with the numbers that they stand for. Integers have
64 bits and decimals 128. -/
inductive Value.Exact : Value → ℚ → Prop
  | integer {n : ℤ} (h : fitsWord n = true) : Exact (.integer n) n
  | decimal {d : Decimal} (h : d.Fits) : Exact (.decimal d) d.toRat

namespace Value.Exact

variable {v w : Value} {x y : ℚ}

theorem isNumeric (h : v.Exact x) : v.isNumeric = true := by
  cases h <;> rfl

/-- **Values are compared** as their numbers are, whichever of the two types they have. -/
theorem compare? (hv : v.Exact x) (hw : w.Exact y) : v.compare? w = some (cmp x y) := by
  cases hv with
  | integer _ =>
    cases hw with
    | integer _ => rw [Value.compare?, ← cmp_eq_compare, Int.cast_strictMono.cmp_map_eq]
    | decimal _ => rw [Value.compare?, Decimal.compare_eq_cmp, Decimal.toRat_ofInt]
  | decimal _ =>
    cases hw with
    | integer _ => rw [Value.compare?, Decimal.compare_eq_cmp, Decimal.toRat_ofInt]
    | decimal _ => rw [Value.compare?, Decimal.compare_eq_cmp]

end Value.Exact

/-! ### Literals -/

theorem IntegerType.iri_ne_decimal (t : IntegerType) : t.iri ≠ Xsd.named "decimal" := by
  cases t <;> decide

namespace Literal

/-- The numbers that literals of integer types and of decimals write. -/
inductive Writes : Literal → ℚ → Prop
  | integer (t : IntegerType) {s : String} {n : ℤ} (h : WritesInteger s.toList n) :
      Writes (.typed s t.iri) n
  | decimal {s : String} {x : ℚ} (h : WritesDecimal s.toList x) :
      Writes (.typed s (Xsd.named "decimal")) x

/-- Whether a literal is of an integer type or a decimal, and its text is valid for it. -/
def IsExact (l : Literal) : Prop :=
  (l.datatype ∈ integerTypes.map (·.1) ∨ l.datatype = Xsd.named "decimal") ∧
    ∃ v, l.value = .valid v

/-- A literal of an integer type writes the integer that its text writes. -/
theorem writes_integerType_iff {t : IntegerType} {s : String} {x : ℚ} :
    (typed s t.iri).Writes x ↔ ∃ n : ℤ, WritesInteger s.toList n ∧ x = n := by
  constructor
  · generalize hl : typed s t.iri = l
    rintro (⟨t', h⟩ | h)
    · obtain ⟨rfl, -⟩ := Literal.typed.inj hl
      exact ⟨_, h, rfl⟩
    · exact absurd (Literal.typed.inj hl).2 t.iri_ne_decimal
  · rintro ⟨n, h, rfl⟩
    exact .integer t h

/-- A literal of a decimal writes the number that its text writes. -/
theorem writes_decimal_iff {s : String} {x : ℚ} :
    (typed s (Xsd.named "decimal")).Writes x ↔ WritesDecimal s.toList x := by
  constructor
  · generalize hl : typed s (Xsd.named "decimal") = l
    rintro (⟨t, h⟩ | h)
    · exact absurd (Literal.typed.inj hl).2.symm t.iri_ne_decimal
    · obtain ⟨rfl, -⟩ := Literal.typed.inj hl
      exact h
  · exact .decimal

/-- The text of a decimal is read as one. -/
theorem value_decimal (s : String) : (typed s (Xsd.named "decimal")).value =
    match Decimal.readChars? s.toList with
    | some d => .valid (.decimal d)
    | none => .invalid := by
  have hreader : Value.reader? (Xsd.named "decimal") =
      some fun s => (Decimal.read? s).map .decimal := rfl
  simp only [value, hreader, Decimal.read?]
  cases Decimal.readChars? s.toList <;> rfl

/-- The exact literals of an integer type are those that write one of its values, within 64 bits. -/
theorem isExact_integerType_iff {t : IntegerType} {s : String} :
    (typed s t.iri).IsExact ↔ t.Admits s := by
  have htype : t.iri ∈ integerTypes.map (·.1) := IntegerType.exists_iri_iff.1 ⟨t, rfl⟩
  rcases t.value_cases s with ⟨n, hwrites, hn, hword, hvalue⟩ | ⟨hvalue, hadmits⟩
  · exact iff_of_true ⟨.inl htype, _, hvalue⟩ ⟨n, hwrites, hn, hword⟩
  · refine iff_of_false ?_ hadmits
    rintro ⟨-, v, hv⟩
    rw [hvalue] at hv
    cases hv

/-- The exact literals of decimals are those that write a multiple of `10 ^ (-18)`, within 128
bits. -/
theorem isExact_decimal_iff {s : String} : (typed s (Xsd.named "decimal")).IsExact ↔
    ∃ d : Decimal, WritesDecimal s.toList d.toRat ∧ d.Fits := by
  simp only [← Decimal.readChars?_eq_some_iff]
  constructor
  · rintro ⟨-, v, hv⟩
    rw [value_decimal] at hv
    split at hv
    · exact ⟨_, ‹_›⟩
    · cases hv
  · rintro ⟨d, hd⟩
    exact ⟨.inr rfl, .decimal d, by rw [value_decimal, hd]⟩

/-- **A valid literal** of an integer type or a decimal has a value that stands for the number that
it writes, and it writes one number only. -/
theorem IsExact.exists_value {l : Literal} (h : l.IsExact) :
    ∃ v x, l.value = .valid v ∧ v.Exact x ∧ ∀ y, l.Writes y ↔ y = x := by
  obtain ⟨htype, v, hv⟩ := h
  cases l with
  | tagged s tag => cases hv
  | typed s d =>
    rcases htype with htype | rfl
    · obtain ⟨t, rfl⟩ := IntegerType.exists_iri_iff.2 htype
      rcases t.value_cases s with ⟨n, hwrites, -, hword, hvalue⟩ | ⟨hvalue, -⟩
      · refine ⟨_, n, hvalue, .integer (fitsWord_iff.2 hword), fun y => ?_⟩
        rw [writes_integerType_iff]
        constructor
        · rintro ⟨m, hm, rfl⟩
          rw [← readInt?_eq_some_iff] at hm hwrites
          rw [Option.some.inj (hm.symm.trans hwrites)]
        · rintro rfl
          exact ⟨n, hwrites, rfl⟩
      · rw [hvalue] at hv
        cases hv
    · rw [value_decimal] at hv
      split at hv
      · rename_i d hd
        obtain ⟨hwrites, hfits⟩ := Decimal.readChars?_eq_some_iff.1 hd
        refine ⟨.decimal d, d.toRat, by rw [value_decimal, hd], .decimal hfits, fun y => ?_⟩
        rw [writes_decimal_iff]
        constructor
        · intro hy
          exact hy.unique hwrites
        · rintro rfl
          exact hwrites
      · cases hv

end Literal

/-! ### Operators and facets -/

namespace Operator

/-- What an operator says of two numbers. -/
def Relates : Operator → ℚ → ℚ → Prop
  | equal, x, y => x = y
  | notEqual, x, y => x ≠ y
  | less, x, y => x < y
  | lessOrEqual, x, y => x ≤ y
  | greater, x, y => y < x
  | greaterOrEqual, x, y => y ≤ x

theorem relates_lessOrEqual {x y : ℚ} : lessOrEqual.Relates x y ↔ x < y ∨ x = y := le_iff_lt_or_eq

theorem relates_greaterOrEqual {x y : ℚ} : greaterOrEqual.Relates x y ↔ y < x ∨ x = y :=
  le_iff_lt_or_eq.trans (or_congr_right eq_comm)

/-- An operator relates terms that are compared as numbers if it relates the numbers. -/
theorem apply_iff {a b : Term} {x y : ℚ} (h : a.compare? b = some (cmp x y))
    (hab : a = b → x = y) (op : Operator) : op.apply a b = true ↔ op.Relates x y := by
  have hor : a = b ∨ x = y ↔ x = y := or_iff_right_of_imp hab
  cases op with
  | equal => simp [apply, h, Relates, hor]
  | notEqual => simp [apply, h, Relates, ← not_or, hor]
  | less => simp [apply, h, Relates]
  | lessOrEqual => simp [apply, h, relates_lessOrEqual]
  | greater => simp [apply, h, Relates]
  | greaterOrEqual => simp [apply, h, relates_greaterOrEqual]

end Operator

namespace NumericFacet

/-- The operator and the bound of a facet that compares with a bound. -/
def comparison? : NumericFacet → Option (Operator × Literal)
  | minInclusive b => some (.greaterOrEqual, b)
  | minExclusive b => some (.greater, b)
  | maxInclusive b => some (.lessOrEqual, b)
  | maxExclusive b => some (.less, b)
  | totalDigits _ => none
  | fractionDigits _ => none

/-- A facet admits the numbers on its side of the bound. -/
theorem holds_iff {f : NumericFacet} {op : Operator} {b : Literal}
    (hf : f.comparison? = some (op, b)) {v w : Value} {x y : ℚ} (hv : v.Exact x)
    (hb : b.value = .valid w) (hw : w.Exact y) : f.holds v = true ↔ op.Relates x y := by
  have hcompare : v.compareBound? b = some (cmp x y) := by
    rw [Value.compareBound?, hb]
    exact hv.compare? hw
  cases f with
  | minInclusive =>
    cases hf
    simp [holds, hcompare, Operator.relates_greaterOrEqual]
  | minExclusive =>
    cases hf
    simp [holds, hcompare, Operator.Relates]
  | maxInclusive =>
    cases hf
    simp [holds, hcompare, Operator.relates_lessOrEqual]
  | maxExclusive =>
    cases hf
    simp [holds, hcompare, Operator.Relates]
  | totalDigits => cases hf
  | fractionDigits => cases hf

end NumericFacet

/-- A constraint that asks for one numeric facet is decided by the facet where there is a number. -/
theorem NodeConstraint.holds?_ofNumericFacet (limits : Limits) (f : NumericFacet) {t : Term}
    {v : Value} (ht : t.value? = some v) (hv : v.isNumeric = true) :
    (ofNumericFacet f).holds? limits t = .ok (f.holds v) := by
  rw [← holdsWith_patternMatches?, holdsWith_ofNumericFacet, numericFacetsHold, ht,
    Option.filter_some, if_pos hv]
  simp [pure, Except.pure]

/-- The order of two numbers with another one between them. -/
theorem cmp_eq_then {x y z : ℚ} (hxy : x ≤ y) (hyz : y ≤ z) :
    cmp x z = (cmp x y).then (cmp y z) := by
  rcases hxy.lt_or_eq with hxy | rfl
  · rw [(cmp_eq_lt_iff x y).2 hxy, (cmp_eq_lt_iff x z).2 (hxy.trans_le hyz)]
    rfl
  · rw [cmp_self_eq_eq]
    rfl

/-- **Integers and decimals are compared exactly.** Valid literals of integer types and of decimals
write one number each and are compared as these numbers are, with no difference between the types:
an integer becomes a decimal without an overflow and stays the same number. So comparison is total,
exchanging the operands reverses it, and it is transitive. The operators of formulas and the facets
with a bound follow the numbers. -/
theorem Literal.compare?_exact (limits : Limits) {a b : Literal} (ha : a.IsExact)
    (hb : b.IsExact) :
    ∃ x y : ℚ, (∀ z, a.Writes z ↔ z = x) ∧ (∀ z, b.Writes z ↔ z = y) ∧
      (Term.literal a).compare? (.literal b) = some (cmp x y) ∧
      (∀ n, a.value = .valid (.integer n) →
        Decimal.ofInt? n = some (.ofInt n) ∧ (Decimal.ofInt n).toRat = x) ∧
      (Term.literal b).compare? (.literal a) =
        ((Term.literal a).compare? (.literal b)).map Ordering.swap ∧
      (∀ c o o', c.IsExact → (Term.literal a).compare? (.literal b) = some o →
        (Term.literal b).compare? (.literal c) = some o' → o ≠ .gt → o' ≠ .gt →
          (Term.literal a).compare? (.literal c) = some (o.then o')) ∧
      (∀ op : Operator, op.apply (.literal a) (.literal b) = true ↔ op.Relates x y) ∧
      ∀ f op, NumericFacet.comparison? f = some (op, b) →
        ∃ r, (NodeConstraint.ofNumericFacet f).holds? limits (.literal a) = .ok r ∧
          (r = true ↔ op.Relates x y) := by
  obtain ⟨v, x, hav, hvx, hax⟩ := ha.exists_value
  obtain ⟨w, y, hbw, hwy, hby⟩ := hb.exists_value
  -- the same for all pairs: swapped operands and a third literal are compared below
  have hcompare : ∀ {l l' : Literal} {u u' : Value} {z z' : ℚ}, l.value = .valid u → u.Exact z →
      l'.value = .valid u' → u'.Exact z' →
        (Term.literal l).compare? (.literal l') = some (cmp z z') := by
    intro l l' u u' z z' hl hu hl' hu'
    rw [Term.compare?, Term.value?, Term.value?, hl, hl']
    exact hu.compare? hu'
  have hab := hcompare hav hvx hbw hwy
  refine ⟨x, y, hax, hby, hab, ?_, ?_, ?_, ?_, ?_⟩
  · intro n hn
    cases hav.symm.trans hn
    cases hvx with
    | integer hword => exact ⟨Decimal.ofInt?_of_fitsWord hword, Decimal.toRat_ofInt n⟩
  · rw [hab, hcompare hbw hwy hav hvx, Option.map_some, cmp_swap]
  · intro c o o' hc ho ho' hne hne'
    obtain ⟨u, z, hcu, huz, -⟩ := hc.exists_value
    rw [hcompare hav hvx hbw hwy, Option.some_inj] at ho
    rw [hcompare hbw hwy hcu huz, Option.some_inj] at ho'
    rw [hcompare hav hvx hcu huz, Option.some_inj, ← ho, ← ho']
    exact cmp_eq_then (not_lt.1 fun h => hne (ho.symm.trans ((cmp_eq_gt_iff x y).2 h)))
      (not_lt.1 fun h => hne' (ho'.symm.trans ((cmp_eq_gt_iff y z).2 h)))
  · refine Operator.apply_iff hab ?_
    intro h
    cases h
    exact (hby x).1 ((hax x).2 rfl)
  · intro f op hf
    refine ⟨f.holds v, NodeConstraint.holds?_ofNumericFacet limits f ?_ hvx.isNumeric,
      NumericFacet.holds_iff hf hvx hbw hwy⟩
    rw [Term.value?, hav]
    rfl

/-- The largest integer of 64 bits is less than a decimal that differs in the last place, and admitted
by a constraint that asks for less. -/
theorem Literal.compare?_exact_lastPlace :
    let a := Literal.typed "9223372036854775807" IntegerType.long.iri
    let b := Literal.typed "9223372036854775807.000000000000000001" (Xsd.named "decimal")
    a.IsExact ∧ b.IsExact ∧ (Term.literal a).compare? (.literal b) = some .lt ∧
      (Term.literal b).compare? (.literal a) = some .gt ∧
      ∃ x y : ℚ, a.Writes x ∧ b.Writes y ∧ x < y ∧
        (NodeConstraint.ofNumericFacet (.maxExclusive b)).holds? ⟨none, none, 0, 0⟩
          (.literal a) = .ok true := by
  intro a b
  have ha : a.IsExact := ⟨.inl (IntegerType.exists_iri_iff.1 ⟨.long, rfl⟩), _, rfl⟩
  have hb : b.IsExact := ⟨.inr rfl, _, rfl⟩
  have hlt : (Term.literal a).compare? (.literal b) = some .lt := by rfl
  obtain ⟨x, y, hx, hy, hcompare, -, hswap, -, -, hfacet⟩ :=
    Literal.compare?_exact ⟨none, none, 0, 0⟩ ha hb
  have hxy : x < y := (cmp_eq_lt_iff x y).1 (Option.some.inj (hcompare.symm.trans hlt))
  obtain ⟨r, hr, hside⟩ := hfacet (.maxExclusive b) .less rfl
  rw [hside.2 hxy] at hr
  rw [hlt] at hswap
  exact ⟨ha, hb, hlt, hswap, x, y, (hx x).2 rfl, (hy y).2 rfl, hxy, hr⟩

end ShapeTyping
