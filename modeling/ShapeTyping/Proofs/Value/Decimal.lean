import Mathlib
import ShapeTyping.Proofs.Value.Integer

/-!
# Literals of decimals

A text writes a decimal number if it is an optional sign and digits, with at most one point before,
among or after them. Such a number is read if it is a multiple of `10 ^ (-18)` that fits 128 bits,
and what is read is the number itself.

* `WritesDecimal`: the texts that write a decimal number.
* `Decimal.toRat`, `Decimal.Fits`: the number that a decimal stands for, and those of 128 bits.
* `Decimal.compare_eq_cmp`: decimals are ordered as their numbers are.
* `Decimal.ofInt?_of_fitsWord`: an integer of 64 bits is a decimal.
* `Decimal.readChars?_eq_some_iff`: what is read is what is written.
-/

namespace ShapeTyping

/-! ### Written decimals -/

/-- Nothing but digits. -/
def AreDigits (ds : List Char) : Prop := ∀ c ∈ ds, '0' ≤ c ∧ c ≤ '9'

theorem areDigits_iff {ds : List Char} : AreDigits ds ↔ ds.all Char.isDigit = true := by
  simp [AreDigits, Char.isDigit, Char.le_def]

/-- The texts without a sign that write a decimal number, with the digits before and after the
point. One side of the point may be empty. -/
inductive WritesDigits : List Char → List Char → List Char → Prop
  | whole {ws : List Char} (h : IsNumeral ws) : WritesDigits ws ws []
  | point {ws fs : List Char} (hws : AreDigits ws) (hfs : AreDigits fs) (h : ws ≠ [] ∨ fs ≠ []) :
      WritesDigits (ws ++ '.' :: fs) ws fs

/-- The number with given digits before and after the point. -/
def pointValue (ws fs : List Char) : ℚ := placeValue ws + placeValue fs / 10 ^ fs.length

/-- The texts that write a decimal number. -/
inductive WritesDecimal : List Char → ℚ → Prop
  | unsigned {cs ws fs : List Char} (h : WritesDigits cs ws fs) :
      WritesDecimal cs (pointValue ws fs)
  | plus {cs ws fs : List Char} (h : WritesDigits cs ws fs) :
      WritesDecimal ('+' :: cs) (pointValue ws fs)
  | minus {cs ws fs : List Char} (h : WritesDigits cs ws fs) :
      WritesDecimal ('-' :: cs) (-pointValue ws fs)

/-- The digits before the point are the leading ones, and those after it are all of the rest. -/
theorem writesDigits_iff {cs ws fs : List Char} :
    WritesDigits cs ws fs ↔ (spanDigits cs).1 = ws ∧ (ws ≠ [] ∨ fs ≠ []) ∧ AreDigits fs ∧
      ((spanDigits cs).2 = [] ∧ fs = [] ∨ (spanDigits cs).2 = '.' :: fs) := by
  constructor
  · rintro (⟨hne, hws⟩ | ⟨hws, hfs, h⟩)
    · have hall : ∀ c ∈ cs, c.isDigit = true := List.all_eq_true.1 (areDigits_iff.1 hws)
      refine ⟨List.takeWhile_eq_self_iff.2 hall, .inl hne, by simp [AreDigits], .inl ⟨?_, rfl⟩⟩
      exact List.dropWhile_eq_nil_iff.2 hall
    · have hall : ∀ c ∈ ws, c.isDigit = true := List.all_eq_true.1 (areDigits_iff.1 hws)
      refine ⟨?_, h, hfs, .inr ?_⟩
      · rw [spanDigits, List.takeWhile_append_of_pos hall]
        simp
      · rw [spanDigits, List.dropWhile_append_of_pos hall]
        simp
  · rintro ⟨rfl, h, hfs, hrest⟩
    have hws : AreDigits (spanDigits cs).1 :=
      areDigits_iff.2 (List.all_eq_true.2 fun _ hc => List.mem_takeWhile_imp hc)
    have happend := spanDigits_append cs
    rcases hrest with ⟨hrest, rfl⟩ | hrest
    · rw [hrest, List.append_nil] at happend
      rw [happend] at h hws ⊢
      exact .whole ⟨h.resolve_right (by simp), hws⟩
    · rw [hrest] at happend
      have hpoint := WritesDigits.point hws hfs h
      rwa [happend] at hpoint

theorem WritesDigits.areDigits {cs ws fs : List Char} (h : WritesDigits cs ws fs) :
    AreDigits ws ∧ AreDigits fs := by
  cases h with
  | whole h => exact ⟨h.2, by simp [AreDigits]⟩
  | point hws hfs h => exact ⟨hws, hfs⟩

/-- A text has one way to be divided at its point. -/
theorem WritesDigits.unique {cs ws fs ws' fs' : List Char} (h : WritesDigits cs ws fs)
    (h' : WritesDigits cs ws' fs') : ws = ws' ∧ fs = fs' := by
  obtain ⟨rfl, -, -, hrest⟩ := writesDigits_iff.1 h
  obtain ⟨rfl, -, -, hrest'⟩ := writesDigits_iff.1 h'
  refine ⟨rfl, ?_⟩
  rcases hrest with ⟨hrest, rfl⟩ | hrest <;> rcases hrest' with ⟨hrest', rfl⟩ | hrest' <;>
    simp_all

/-- Digits with a point do not begin with a sign. -/
theorem WritesDigits.splitSign_eq {cs ws fs : List Char} (h : WritesDigits cs ws fs) :
    splitSign cs = (false, cs) := by
  cases h with
  | whole h => exact h.splitSign_eq
  | point hws hfs h =>
    cases ws with
    | nil => rfl
    | cons c ws =>
      have hc := hws c List.mem_cons_self
      rw [List.cons_append, splitSign.eq_def]
      split
      · rename_i hcs
        cases hcs
        exact absurd hc (by decide)
      · rename_i hcs
        cases hcs
        exact absurd hc (by decide)
      · rfl

/-- A text writes a decimal number if what follows its sign is divided into digits. -/
theorem writesDecimal_iff {cs : List Char} {x : ℚ} :
    WritesDecimal cs x ↔ ∃ ws fs, WritesDigits (splitSign cs).2 ws fs ∧
      x = if (splitSign cs).1 then -pointValue ws fs else pointValue ws fs := by
  constructor
  · rintro (h | h | h)
    · rw [h.splitSign_eq]
      exact ⟨_, _, h, rfl⟩
    · exact ⟨_, _, h, rfl⟩
    · exact ⟨_, _, h, rfl⟩
  · rintro ⟨ws, fs, h, rfl⟩
    rw [splitSign.eq_def] at h ⊢
    split at h
    · exact .minus h
    · exact .plus h
    · exact .unsigned h

/-- A text writes one number at most. -/
theorem WritesDecimal.unique {cs : List Char} {x y : ℚ} (hx : WritesDecimal cs x)
    (hy : WritesDecimal cs y) : x = y := by
  obtain ⟨ws, fs, h, rfl⟩ := writesDecimal_iff.1 hx
  obtain ⟨ws', fs', h', rfl⟩ := writesDecimal_iff.1 hy
  obtain ⟨rfl, rfl⟩ := h.unique h'
  rfl

/-! ### Zeros at the end -/

theorem placeValue_append (ds es : List Char) :
    placeValue (ds ++ es) = placeValue ds * 10 ^ es.length + placeValue es := by
  rw [placeValue, List.reverse_append, List.map_append, Nat.ofDigits_append, List.length_map,
    List.length_reverse, Nat.add_comm, Nat.mul_comm]
  rfl

/-- The number of a whole part and a fraction is that of all digits, with the point moved. -/
theorem pointValue_eq_div (ws fs : List Char) :
    pointValue ws fs = placeValue (ws ++ fs) / 10 ^ fs.length := by
  rw [pointValue, placeValue_append]
  push_cast
  field_simp

/-- Zeros at the end of a fraction do not count. -/
theorem pointValue_trimZeros (ws fs : List Char) :
    pointValue ws (Decimal.trimZeros fs) = pointValue ws fs := by
  induction fs using List.reverseRecOn with
  | nil => rfl
  | append_singleton fs c ih =>
    by_cases hc : c = '0'
    · have htrim : Decimal.trimZeros (fs ++ [c]) = Decimal.trimZeros fs := by
        simp [Decimal.trimZeros, hc]
      have hzero : placeValue (fs ++ ['0']) = placeValue fs * 10 := placeValue_append fs ['0']
      rw [htrim, ih, hc, pointValue, pointValue, hzero, List.length_append, List.length_singleton,
        pow_succ, Nat.cast_mul, Nat.cast_ofNat, mul_div_mul_right _ _ (by norm_num)]
    · have htrim : Decimal.trimZeros (fs ++ [c]) = fs ++ [c] := by
        simp [Decimal.trimZeros, hc]
      rw [htrim]

/-- What is left of a fraction does not end with a zero. -/
theorem getLast_trimZeros (fs : List Char) (h : Decimal.trimZeros fs ≠ []) :
    (Decimal.trimZeros fs).getLast h ≠ '0' := fun hzero =>
  List.rdropWhile_last_not (fun c => decide (c = '0')) fs h (decide_eq_true hzero)

theorem areDigits_trimZeros {fs : List Char} (h : AreDigits fs) :
    AreDigits (Decimal.trimZeros fs) := fun c hc =>
  h c ((List.rdropWhile_prefix (fun c => decide (c = '0')) fs).subset hc)

/-- A number whose last digit is not zero is no multiple of ten. -/
theorem not_ten_dvd_placeValue {ds : List Char} (hds : AreDigits ds) (hne : ds ≠ [])
    (hlast : ds.getLast hne ≠ '0') : ¬ 10 ∣ placeValue ds := by
  have hsplit : placeValue ds = placeValue ds.dropLast * 10 + placeValue [ds.getLast hne] := by
    conv_lhs => rw [← List.dropLast_append_getLast hne, placeValue_append]
    rfl
  obtain ⟨hlow, hhigh⟩ := hds _ (List.getLast_mem hne)
  have hvalue : placeValue [ds.getLast hne] = (ds.getLast hne).toNat - 48 := by
    simp [placeValue]
  have hne' : (ds.getLast hne).toNat ≠ 48 := fun h => hlast (Char.toNat_inj.1 h)
  have hlow' : 48 ≤ (ds.getLast hne).toNat := hlow
  have hhigh' : (ds.getLast hne).toNat ≤ 57 := hhigh
  omega

/-! ### Decimals -/

namespace Decimal

/-- The number that a decimal stands for. -/
def toRat (d : Decimal) : ℚ := d.units / scale

/-- Whether a decimal has 128 bits. -/
def Fits (d : Decimal) : Prop := d.units ∈ Set.Icc (-2 ^ 127) (2 ^ 127 - 1)

theorem scale_pos : (0 : ℚ) < scale := by norm_num [scale, places]

theorem toRat_strictMono : StrictMono fun u : ℤ => toRat ⟨u⟩ := by
  intro a b h
  exact div_lt_div_of_pos_right (Int.cast_lt.2 h) scale_pos

/-- **Decimals are ordered** as their numbers are. -/
theorem compare_eq_cmp (a b : Decimal) : a.compare b = cmp a.toRat b.toRat := by
  rw [compare, ← cmp_eq_compare]
  exact (toRat_strictMono.cmp_map_eq a.units b.units).symm

@[simp]
theorem toRat_ofInt (n : ℤ) : (ofInt n).toRat = n := by
  rw [toRat, ofInt, Int.cast_mul, Int.cast_natCast, mul_div_cancel_right₀ _ scale_pos.ne']

theorem ofUnits?_eq_some_iff {n : ℤ} {d : Decimal} :
    ofUnits? n = some d ↔ d.units = n ∧ d.Fits := by
  obtain ⟨u⟩ := d
  rw [ofUnits?, Option.ite_none_right_eq_some, Option.some_inj, Decimal.mk.injEq, minUnits, maxUnits]
  change _ ↔ u = n ∧ -2 ^ 127 ≤ u ∧ u ≤ 2 ^ 127 - 1
  omega

/-- **An integer of 64 bits is a decimal**: it becomes one without an overflow, and is the same
number. -/
theorem ofInt?_of_fitsWord {n : ℤ} (h : fitsWord n = true) : ofInt? n = some (ofInt n) := by
  rw [fitsWord_iff, Set.mem_Icc] at h
  rw [ofInt?, ofUnits?_eq_some_iff]
  refine ⟨rfl, ?_⟩
  change -2 ^ 127 ≤ n * 10 ^ 18 ∧ n * 10 ^ 18 ≤ 2 ^ 127 - 1
  omega

theorem toRat_eq_div_iff {d : Decimal} {n : ℤ} {l : ℕ} :
    d.toRat = n / 10 ^ l ↔ d.units * 10 ^ l = n * 10 ^ places := by
  have hscale : (scale : ℚ) = 10 ^ places := by norm_num [scale]
  rw [toRat, hscale, div_eq_div_iff (by positivity) (by positivity)]
  exact_mod_cast Iff.rfl

theorem cast_signed (negative : Bool) (n : ℕ) :
    ((signed negative n : ℤ) : ℚ) = if negative then -(n : ℚ) else n := by
  cases negative <;> simp [signed]

theorem signed_mul (negative : Bool) (m n : ℕ) :
    signed negative (m * n) = signed negative m * n := by
  cases negative <;> simp [signed]

theorem natAbs_signed (negative : Bool) (n : ℕ) : (signed negative n).natAbs = n := by
  cases negative <;> simp [signed]

/-- A number that is a whole number over a power of ten has no more fraction digits than the
exponent, other than zeros at the end. -/
theorem length_le_exponent {negative : Bool} {ws gs : List Char} (hws : AreDigits ws)
    (hgs : AreDigits gs) (hlast : ∀ h : gs ≠ [], gs.getLast h ≠ '0') {u : ℤ} {l : ℕ}
    (hu : u * 10 ^ gs.length = signed negative (placeValue (ws ++ gs)) * 10 ^ l) :
    gs.length ≤ l := by
  by_contra hlen
  obtain ⟨k, hk⟩ := Nat.exists_eq_add_of_lt (not_le.1 hlen)
  have hne : gs ≠ [] := by
    rintro rfl
    simp at hk
  have hmul : u * 10 ^ (k + 1) = signed negative (placeValue (ws ++ gs)) := by
    rw [hk, Nat.add_assoc, Nat.add_comm, pow_add, ← mul_assoc, mul_left_inj' (by positivity)] at hu
    exact hu
  have habs : placeValue (ws ++ gs) = u.natAbs * 10 ^ (k + 1) := by
    rw [← natAbs_signed negative (placeValue (ws ++ gs)), ← hmul, Int.natAbs_mul, Int.natAbs_pow]
    rfl
  -- so the last digit, which is beyond the last place, is a zero
  have hdvd : 10 ∣ placeValue (ws ++ gs) := by
    rw [habs, pow_succ, ← mul_assoc]
    exact Nat.dvd_mul_left 10 _
  have hdigits : AreDigits (ws ++ gs) := fun c hc => (List.mem_append.1 hc).elim (hws c) (hgs c)
  have hlast' : (ws ++ gs).getLast (by simp [hne]) ≠ '0' := by
    rw [List.getLast_append_of_ne_nil _ hne]
    exact hlast hne
  exact not_ten_dvd_placeValue hdigits _ hlast' hdvd

/-- **Digits are read** if their number is one of the decimals, and the result is that decimal. -/
theorem ofDigits?_eq_some_iff {negative : Bool} {ws fs : List Char} (hws : AreDigits ws)
    (hfs : AreDigits fs) {d : Decimal} :
    ofDigits? negative ws fs = some d ↔
      (d.toRat = if negative then -pointValue ws fs else pointValue ws fs) ∧ d.Fits := by
  have hgs := areDigits_trimZeros hfs
  have hlast := getLast_trimZeros fs
  rw [← pointValue_trimZeros, ofDigits?]
  generalize trimZeros fs = gs at hgs hlast ⊢
  have hvalue : (if negative then -pointValue ws gs else pointValue ws gs) =
      (signed negative (placeValue (ws ++ gs)) : ℤ) / 10 ^ gs.length := by
    rw [cast_signed, pointValue_eq_div]
    split
    · rw [neg_div]
    · rfl
  rw [hvalue, toRat_eq_div_iff]
  by_cases hlen : gs.length ≤ places
  · have hpow : (10 : ℤ) ^ places = (Nat.pow 10 (places - gs.length) : ℕ) * 10 ^ gs.length := by
      rw [Nat.pow_eq, Nat.cast_pow, Nat.cast_ofNat, ← pow_add, Nat.sub_add_cancel hlen]
    rw [if_pos hlen, ofUnits?_eq_some_iff, digitsValue_eq_placeValue, signed_mul, hpow, ← mul_assoc,
      mul_left_inj' (by positivity)]
  · rw [if_neg hlen]
    refine iff_of_false (by simp) ?_
    rintro ⟨hunits, -⟩
    exact hlen (length_le_exponent hws hgs hlast hunits)

/-- The digits of a text are found, and their number is read. -/
theorem readChars?_iff_ofDigits? {cs : List Char} {d : Decimal} :
    readChars? cs = some d ↔ ∃ ws fs, WritesDigits (splitSign cs).2 ws fs ∧
      ofDigits? (splitSign cs).1 ws fs = some d := by
  simp only [writesDigits_iff, areDigits_iff]
  unfold readChars?
  generalize splitSign cs = signed
  obtain ⟨negative, cs⟩ := signed
  generalize hspan : spanDigits cs = span
  obtain ⟨ws, rest⟩ := span
  simp only [hspan]
  split
  · rename_i fs hws
    cases hws
    simp
  · rename_i hpoint hws
    cases hws
    refine iff_of_false (by simp) ?_
    rintro ⟨_, fs, ⟨rfl, hne, -, ⟨-, rfl⟩ | hrest⟩, -⟩
    · simp at hne
    · exact hpoint fs hrest
  · rename_i hne hws
    cases hws
    have hne' : ws ≠ [] := hne
    simp [hne']
  · rename_i hne hws
    cases hws
    have hne' : ws ≠ [] := hne
    simp [hne']
  · rename_i hwhole hpoint
    refine iff_of_false (by simp) ?_
    rintro ⟨_, fs, ⟨rfl, -, -, ⟨rfl, -⟩ | rfl⟩, -⟩
    · exact hwhole ws rfl
    · exact hpoint ws fs rfl

/-- **What is read is what is written**, as far as it is a decimal. -/
theorem readChars?_eq_some_iff {cs : List Char} {d : Decimal} :
    readChars? cs = some d ↔ WritesDecimal cs d.toRat ∧ d.Fits := by
  rw [readChars?_iff_ofDigits?, writesDecimal_iff]
  constructor
  · rintro ⟨ws, fs, h, hd⟩
    rw [ofDigits?_eq_some_iff h.areDigits.1 h.areDigits.2] at hd
    exact ⟨⟨ws, fs, h, hd.1⟩, hd.2⟩
  · rintro ⟨⟨ws, fs, h, hd⟩, hfits⟩
    exact ⟨ws, fs, h, (ofDigits?_eq_some_iff h.areDigits.1 h.areDigits.2).2 ⟨hd, hfits⟩⟩

end Decimal

end ShapeTyping
