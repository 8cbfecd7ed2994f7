import Mathlib
import ShapeTyping.NodeConstraint.Holds

/-!
# Literals of integer types

XML Schema has a datatype of all integers and others between bounds. A text writes an integer if it
is an optional sign and at least one digit. A constraint that asks for one of these datatypes admits
a literal of it exactly if the text writes an integer that is a value of the datatype and fits 64
bits.

* `IntegerType`, `IntegerType.values`: the datatypes and their values.
* `IntegerType.exists_iri_iff`: they are those that bounds are known for.
* `WritesInteger`: the texts that write an integer.
* `readInt?_eq_some_iff`: what is read is what is written.
* `IntegerType.Admits`, `IntegerType.value_cases`: the texts of literals that have a value.
* `NodeConstraint.holds?_integerType`: the literals that a constraint admits.
* `NodeConstraint.holds?_beyondWord`: a value that does not fit 64 bits is refused.
-/

namespace ShapeTyping

/-! ### Datatypes -/

/-- The datatypes of integers in XML Schema. -/
inductive IntegerType where
  | integer
  | long
  | int
  | short
  | byte
  | unsignedLong
  | nonNegativeInteger
  | unsignedInt
  | unsignedShort
  | unsignedByte
  | positiveInteger
  | negativeInteger
  | nonPositiveInteger
  deriving DecidableEq

namespace IntegerType

def iri : IntegerType → Iri
  | integer => Xsd.named "integer"
  | long => Xsd.named "long"
  | int => Xsd.named "int"
  | short => Xsd.named "short"
  | byte => Xsd.named "byte"
  | unsignedLong => Xsd.named "unsignedLong"
  | nonNegativeInteger => Xsd.named "nonNegativeInteger"
  | unsignedInt => Xsd.named "unsignedInt"
  | unsignedShort => Xsd.named "unsignedShort"
  | unsignedByte => Xsd.named "unsignedByte"
  | positiveInteger => Xsd.named "positiveInteger"
  | negativeInteger => Xsd.named "negativeInteger"
  | nonPositiveInteger => Xsd.named "nonPositiveInteger"

/-- The values of a datatype in XML Schema. -/
def values : IntegerType → Set ℤ
  | integer => Set.univ
  | long => Set.Icc (-2 ^ 63) (2 ^ 63 - 1)
  | int => Set.Icc (-2 ^ 31) (2 ^ 31 - 1)
  | short => Set.Icc (-2 ^ 15) (2 ^ 15 - 1)
  | byte => Set.Icc (-2 ^ 7) (2 ^ 7 - 1)
  | unsignedLong => Set.Icc 0 (2 ^ 64 - 1)
  | nonNegativeInteger => Set.Ici 0
  | unsignedInt => Set.Icc 0 (2 ^ 32 - 1)
  | unsignedShort => Set.Icc 0 (2 ^ 16 - 1)
  | unsignedByte => Set.Icc 0 (2 ^ 8 - 1)
  | positiveInteger => Set.Ici 1
  | negativeInteger => Set.Iic (-1)
  | nonPositiveInteger => Set.Iic 0

/-- **The datatypes** are those that have bounds in the table. -/
theorem exists_iri_iff {d : Iri} : (∃ t : IntegerType, t.iri = d) ↔ d ∈ integerTypes.map (·.1) := by
  constructor
  · rintro ⟨t, rfl⟩
    cases t <;> simp [integerTypes, iri]
  · intro h
    simp only [integerTypes, List.map_cons, List.map_nil, List.mem_cons, List.not_mem_nil,
      or_false] at h
    rcases h with rfl | rfl | rfl | rfl | rfl | rfl | rfl | rfl | rfl | rfl | rfl | rfl | rfl
    exacts [⟨integer, rfl⟩, ⟨long, rfl⟩, ⟨int, rfl⟩, ⟨short, rfl⟩, ⟨byte, rfl⟩, ⟨unsignedLong, rfl⟩,
      ⟨nonNegativeInteger, rfl⟩, ⟨unsignedInt, rfl⟩, ⟨unsignedShort, rfl⟩, ⟨unsignedByte, rfl⟩,
      ⟨positiveInteger, rfl⟩, ⟨negativeInteger, rfl⟩, ⟨nonPositiveInteger, rfl⟩]

end IntegerType

theorem fitsWord_iff {n : ℤ} : fitsWord n = true ↔ n ∈ Set.Icc (-2 ^ 63) (2 ^ 63 - 1) := by
  simp [fitsWord]

/-- The texts of a datatype are read as integers, and within 64 bits its bounds are those of its
values. -/
theorem IntegerType.exists_reader (t : IntegerType) :
    ∃ r : IntegerRange, Value.reader? t.iri = some (fun s => (r.read? s).map .integer) ∧
      ∀ n, fitsWord n = true → (r.contains n = true ↔ n ∈ t.values) := by
  -- a bound that the table leaves open is one that 64 bits imply, or the values have none either
  cases t <;> refine ⟨_, rfl, fun n hn => ?_⟩ <;>
    simp only [fitsWord, decide_eq_true_eq] at hn <;>
    simp [IntegerRange.contains, values] <;> omega

/-! ### Written integers -/

/-- At least one digit, and nothing else. -/
def IsNumeral (ds : List Char) : Prop := ds ≠ [] ∧ ∀ c ∈ ds, '0' ≤ c ∧ c ≤ '9'

/-- What digits stand for, each with the weight of its place. -/
def placeValue (ds : List Char) : ℕ :=
  Nat.ofDigits 10 (ds.reverse.map fun c => c.toNat - '0'.toNat)

/-- The texts that write an integer. -/
inductive WritesInteger : List Char → ℤ → Prop
  | unsigned {ds : List Char} (h : IsNumeral ds) : WritesInteger ds (placeValue ds)
  | plus {ds : List Char} (h : IsNumeral ds) : WritesInteger ('+' :: ds) (placeValue ds)
  | minus {ds : List Char} (h : IsNumeral ds) : WritesInteger ('-' :: ds) (-placeValue ds)

theorem digitsValue_eq_placeValue (ds : List Char) : digitsValue ds = placeValue ds := by
  induction ds using List.reverseRecOn with
  | nil => rfl
  | append_singleton ds c ih =>
    rw [digitsValue_append, ih, placeValue, placeValue, List.reverse_append, List.reverse_singleton,
      List.singleton_append, List.map_cons, Nat.ofDigits_cons]
    exact Nat.add_comm _ _

theorem isNumeral_iff {ds : List Char} : IsNumeral ds ↔ ds ≠ [] ∧ ds.all Char.isDigit = true := by
  simp [IsNumeral, Char.isDigit, Char.le_def]

/-- A numeral does not begin with a sign. -/
theorem IsNumeral.splitSign_eq {ds : List Char} (h : IsNumeral ds) :
    splitSign ds = (false, ds) := by
  rw [splitSign.eq_def]
  split
  · exact absurd (h.2 '-' List.mem_cons_self) (by decide)
  · exact absurd (h.2 '+' List.mem_cons_self) (by decide)
  · rfl

/-- A text writes an integer if what follows its sign is a numeral. -/
theorem writesInteger_iff {cs : List Char} {n : ℤ} :
    WritesInteger cs n ↔
      IsNumeral (splitSign cs).2 ∧ n = signed (splitSign cs).1 (placeValue (splitSign cs).2) := by
  constructor
  · rintro (h | h | h)
    · rw [h.splitSign_eq]
      exact ⟨h, rfl⟩
    · exact ⟨h, rfl⟩
    · exact ⟨h, rfl⟩
  · rintro ⟨h, rfl⟩
    rw [splitSign.eq_def] at h ⊢
    split at h
    · exact .minus h
    · exact .plus h
    · exact .unsigned h

/-- **What is read is what is written.** -/
theorem readInt?_eq_some_iff {s : String} {n : ℤ} :
    readInt? s = some n ↔ WritesInteger s.toList n := by
  rw [writesInteger_iff, isNumeral_iff, readInt?, ← digitsValue_eq_placeValue]
  simp only [Option.ite_none_right_eq_some, Option.some.injEq]
  exact and_congr_right fun _ => eq_comm

theorem IntegerRange.read?_eq_some_iff {r : IntegerRange} {s : String} {n : ℤ} :
    r.read? s = some n ↔
      WritesInteger s.toList n ∧ fitsWord n = true ∧ r.contains n = true := by
  rw [IntegerRange.read?, Option.filter_eq_some_iff, readInt?_eq_some_iff, Bool.and_eq_true]

/-! ### Literals -/

/-- The texts that write a value of the datatype that fits 64 bits. -/
def IntegerType.Admits (t : IntegerType) (s : String) : Prop :=
  ∃ n, WritesInteger s.toList n ∧ n ∈ t.values ∧ n ∈ Set.Icc (-2 ^ 63) (2 ^ 63 - 1)

/-- **A literal of an integer type** has the value that its text writes, or an invalid text. -/
theorem IntegerType.value_cases (t : IntegerType) (s : String) :
    (∃ n, WritesInteger s.toList n ∧ n ∈ t.values ∧ n ∈ Set.Icc (-2 ^ 63) (2 ^ 63 - 1) ∧
        (Literal.typed s t.iri).value = .valid (.integer n)) ∨
      (Literal.typed s t.iri).value = .invalid ∧ ¬ t.Admits s := by
  obtain ⟨r, hreader, hrange⟩ := t.exists_reader
  have hread : ∀ n, r.read? s = some n ↔
      WritesInteger s.toList n ∧ n ∈ t.values ∧ n ∈ Set.Icc (-2 ^ 63) (2 ^ 63 - 1) := by
    intro n
    rw [IntegerRange.read?_eq_some_iff, ← fitsWord_iff, and_comm (a := n ∈ t.values)]
    exact and_congr_right fun _ => and_congr_right fun hn => hrange n hn
  cases hr : r.read? s with
  | some n =>
    have hvalue : (Literal.typed s t.iri).value = .valid (.integer n) := by
      simp only [Literal.value, hreader, hr, Option.map_some]
    obtain ⟨hwrites, hn, hword⟩ := (hread n).1 hr
    exact .inl ⟨n, hwrites, hn, hword, hvalue⟩
  | none =>
    have hvalue : (Literal.typed s t.iri).value = .invalid := by
      simp only [Literal.value, hreader, hr, Option.map_none]
    refine .inr ⟨hvalue, fun ⟨n, hn⟩ => ?_⟩
    rw [(hread n).2 hn] at hr
    cases hr

namespace NodeConstraint

/-- The constraint that asks for a datatype and nothing else. -/
def ofDatatype (d : Iri) : NodeConstraint := ⟨none, some d, [], [], []⟩

/-- A constraint that asks for a datatype refuses what is not of it, and its other parts decide
about the rest. -/
theorem holds?_datatype (limits : Limits) (c : NodeConstraint) (d : Iri) (t : Term) :
    { c with datatype := some d }.holds? limits t =
      if (ofDatatype d).datatypeHolds t then { c with datatype := none }.holds? limits t
      else .ok false := by
  have hkind : ∀ d, { c with datatype := d }.kindHolds t = c.kindHolds t := fun _ => rfl
  have hdatatype : { c with datatype := some d }.datatypeHolds t =
      (ofDatatype d).datatypeHolds t := rfl
  have hnone : { c with datatype := none }.datatypeHolds t = true := rfl
  unfold holds?
  rw [hkind (some d), hkind none, hdatatype, hnone]
  cases c.kindHolds t <;> cases (ofDatatype d).datatypeHolds t <;> rfl

theorem datatypeHolds_integerType (t : IntegerType) (s : String) :
    (ofDatatype t.iri).datatypeHolds (.literal (.typed s t.iri)) = true ↔ t.Admits s := by
  have hvalid : (ofDatatype t.iri).datatypeHolds (.literal (.typed s t.iri)) =
      decide ((Literal.typed s t.iri).value ≠ .invalid) := by
    simp [datatypeHolds, ofDatatype, Literal.datatype]
  rw [hvalid, decide_eq_true_iff]
  rcases t.value_cases s with ⟨n, hwrites, hn, hword, hvalue⟩ | ⟨hvalue, hadmits⟩
  · have hadmits : t.Admits s := ⟨n, hwrites, hn, hword⟩
    simp [hvalue, hadmits]
  · simp [hvalue, hadmits]

/-- **A constraint that asks for an integer type** has an answer for every literal of the type. It
admits the literal if and only if the text is an optional sign with at least one digit after it and
writes a value of the type that fits 64 bits. Other parts of the constraint have to admit the
literal as well. -/
theorem holds?_integerType (limits : Limits) (t : IntegerType) (s : String) :
    (∃ b, (ofDatatype t.iri).holds? limits (.literal (.typed s t.iri)) = .ok b ∧
      (b = true ↔ t.Admits s)) ∧
    ∀ c : NodeConstraint,
      { c with datatype := some t.iri }.holds? limits (.literal (.typed s t.iri)) = .ok true ↔
        t.Admits s ∧
          { c with datatype := none }.holds? limits (.literal (.typed s t.iri)) = .ok true := by
  constructor
  · refine ⟨(ofDatatype t.iri).datatypeHolds (.literal (.typed s t.iri)), ?_,
      datatypeHolds_integerType t s⟩
    have h : (ofDatatype t.iri).holds? limits (.literal (.typed s t.iri)) = _ :=
      holds?_datatype limits (ofDatatype t.iri) t.iri _
    rw [h]
    cases (ofDatatype t.iri).datatypeHolds (.literal (.typed s t.iri)) <;> rfl
  · intro c
    rw [holds?_datatype, ← datatypeHolds_integerType]
    cases (ofDatatype t.iri).datatypeHolds (.literal (.typed s t.iri)) <;> simp

/-- The first integer beyond 64 bits is a value of `xsd:integer`, and its literal is refused. -/
theorem holds?_beyondWord :
    (WritesInteger "9223372036854775808".toList (2 ^ 63) ∧ 2 ^ 63 ∈ IntegerType.integer.values) ∧
      (ofDatatype IntegerType.integer.iri).holds? .standard
        (.literal (.typed "9223372036854775808" IntegerType.integer.iri)) = .ok false := by
  refine ⟨⟨?_, ?_⟩, ?_⟩
  · rw [writesInteger_iff, isNumeral_iff]
    decide
  · rw [IntegerType.values]
    exact Set.mem_univ _
  · decide

end NodeConstraint

end ShapeTyping
