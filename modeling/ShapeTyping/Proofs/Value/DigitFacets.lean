import Mathlib
import ShapeTyping.Proofs.Value.Comparison

/-!
# Digit facets

The digits of a number are counted in its written form, without a sign, a point and zeros at either
end. In whatever way the number is written, what is left of the fraction has the fewest digits that
the number can be written with, and all of what is left has the fewest digits that hold the number
with the point left out. So the digit facets are about numbers and not about their texts.

* `LeastDigits`: the least numbers of digits of a number.
* `placeValue_lt_pow_iff`: the digits that hold a number.
* `Decimal.leastDigits_countDigits`: the digits that are counted in a text that writes a number.
* `writesInteger_toString`, `Decimal.writesDecimal_text`: written forms write their numbers.
* `Decimal.read?_text`: the written form of a decimal is read as the decimal.
* `Value.Exact.exists_digits`: the digits of a value.
* `Literal.digits_least`: the digits of literals, and the constraints with a digit facet.
-/

namespace ShapeTyping

variable {x : ℚ} {t f : ℕ} {cs ws fs gs : List Char}

/-! ### Digits that a number needs -/

/-- The least numbers of digits of a number: fraction digits so that it is whole without the point,
and digits that hold this whole number, the fraction digits and at least one. -/
structure LeastDigits (x : ℚ) (t f : ℕ) : Prop where
  fraction : IsLeast {f : ℕ | ∃ n : ℤ, x * 10 ^ f = n} f
  total : IsLeast {t : ℕ | max 1 f ≤ t ∧ |x| * 10 ^ f < 10 ^ t} t

/-- A number and its negative have as many digits. -/
theorem LeastDigits.neg (h : LeastDigits x t f) : LeastDigits (-x) t f := by
  have hset : {f : ℕ | ∃ n : ℤ, -x * 10 ^ f = n} = {f : ℕ | ∃ n : ℤ, x * 10 ^ f = n} := by
    ext f
    constructor
    · rintro ⟨n, hn⟩
      exact ⟨-n, by rw [Int.cast_neg, ← hn, neg_mul, neg_neg]⟩
    · rintro ⟨n, hn⟩
      exact ⟨-n, by rw [Int.cast_neg, ← hn, neg_mul]⟩
  exact ⟨hset ▸ h.fraction, by rw [abs_neg]; exact h.total⟩

/-- Where a number is whole with a number of fraction digits, it has no more digits than this whole
number. -/
theorem LeastDigits.total_le {p m : ℕ} {u : ℤ} (h : LeastDigits x t f) (hu : x * 10 ^ p = u)
    (hp : max 1 p ≤ m) (hm : |u| < 10 ^ m) : t ≤ m := by
  have hf : f ≤ p := h.fraction.2 ⟨u, hu⟩
  refine h.total.2 ⟨(max_le_max le_rfl hf).trans hp, ?_⟩
  calc |x| * 10 ^ f ≤ |x| * 10 ^ p := by gcongr; norm_num
    _ = |(u : ℚ)| := by rw [← hu, abs_mul, abs_of_pos (by positivity : (0 : ℚ) < 10 ^ p)]
    _ < 10 ^ m := by exact_mod_cast hm

/-! ### Digits of a text -/

theorem placeValue_lt (h : AreDigits ws) : placeValue ws < 10 ^ ws.length := by
  have hdigits : ∀ d ∈ ws.reverse.map fun c => c.toNat - '0'.toNat, d < 10 := by
    simp only [List.mem_map, List.mem_reverse]
    rintro _ ⟨c, hc, rfl⟩
    have hhigh : c.toNat ≤ 57 := (h c hc).2
    have hzero : '0'.toNat = 48 := rfl
    omega
  have hlt := Nat.ofDigits_lt_base_pow_length (by decide) hdigits
  rwa [List.length_map, List.length_reverse] at hlt

/-- Digits of which the first one is not zero. -/
theorem le_placeValue {c : Char} (h : AreDigits (c :: ws)) (hc : c ≠ '0') :
    10 ^ ws.length ≤ placeValue (c :: ws) := by
  have hsplit : placeValue (c :: ws) = placeValue [c] * 10 ^ ws.length + placeValue ws :=
    placeValue_append [c] ws
  have hvalue : placeValue [c] = c.toNat - 48 := by simp [placeValue]
  have hlow : 48 ≤ c.toNat := (h c List.mem_cons_self).1
  have hne : c.toNat ≠ 48 := fun h => hc (Char.toNat_inj.1 h)
  have hone : 1 ≤ placeValue [c] := by omega
  calc 10 ^ ws.length ≤ placeValue [c] * 10 ^ ws.length := Nat.le_mul_of_pos_left _ hone
    _ ≤ placeValue (c :: ws) := by omega

/-- Zeros at the beginning do not count. -/
theorem placeValue_dropZeros (ws : List Char) :
    placeValue (ws.dropWhile (· = '0')) = placeValue ws := by
  induction ws with
  | nil => rfl
  | cons c ws ih =>
    by_cases hc : c = '0'
    · have hsplit : placeValue ('0' :: ws) = placeValue ws := by
        rw [← List.singleton_append, placeValue_append]
        simp [placeValue]
      rw [List.dropWhile_cons_of_pos (by simpa using hc), ih, hc, hsplit]
    · rw [List.dropWhile_cons_of_neg (by simpa using hc)]

/-- **The digits that hold a number**: those of the whole part without zeros at the beginning, and
all digits of the fraction. -/
theorem placeValue_lt_pow_iff (hws : AreDigits ws) (hgs : AreDigits gs) (ht : gs.length ≤ t) :
    placeValue (ws ++ gs) < 10 ^ t ↔ (ws.dropWhile (· = '0')).length + gs.length ≤ t := by
  have hvalue : placeValue (ws ++ gs) = placeValue (ws.dropWhile (· = '0') ++ gs) := by
    rw [placeValue_append, placeValue_append, placeValue_dropZeros]
  have hfirst : ∀ c vs, ws.dropWhile (· = '0') = c :: vs → c ≠ '0' := fun c vs h hc => by
    have := List.head?_dropWhile_not (fun c => decide (c = '0')) ws
    rw [h] at this
    simp [hc] at this
  have hdigits : AreDigits (ws.dropWhile (· = '0') ++ gs) := fun c hc =>
    (List.mem_append.1 hc).elim (fun h => hws c ((List.dropWhile_sublist _).subset h)) (hgs c)
  rw [hvalue]
  generalize ws.dropWhile (· = '0') = vs at hfirst hdigits ⊢
  constructor
  · intro hlt
    cases vs with
    | nil => simpa using ht
    | cons c vs =>
      have hle : 10 ^ (vs ++ gs).length ≤ placeValue (c :: vs ++ gs) :=
        le_placeValue hdigits (hfirst c vs rfl)
      have hpow := (Nat.pow_lt_pow_iff_right (by decide)).1 (hle.trans_lt hlt)
      rw [List.length_append] at hpow
      rw [List.length_cons]
      omega
  · intro hle
    rw [← List.length_append] at hle
    exact (placeValue_lt hdigits).trans_le (Nat.pow_le_pow_right (by decide) hle)

/-- **The digits that a number needs** are those of its text without zeros at either end. -/
theorem leastDigits_pointValue (hws : AreDigits ws) (hfs : AreDigits fs) :
    LeastDigits (pointValue ws fs)
      (max 1 ((ws.dropWhile (· = '0')).length + (Decimal.trimZeros fs).length))
      (Decimal.trimZeros fs).length := by
  have hgs := areDigits_trimZeros hfs
  have hlast := getLast_trimZeros fs
  rw [← pointValue_trimZeros]
  generalize Decimal.trimZeros fs = gs at hgs hlast ⊢
  have hvalue : pointValue ws gs = placeValue (ws ++ gs) / 10 ^ gs.length := pointValue_eq_div ws gs
  have hwhole : |pointValue ws gs| * 10 ^ gs.length = placeValue (ws ++ gs) := by
    rw [hvalue, abs_of_nonneg (by positivity), div_mul_cancel₀ _ (by positivity)]
  have hlt : ∀ t, |pointValue ws gs| * 10 ^ gs.length < 10 ^ t ↔ placeValue (ws ++ gs) < 10 ^ t := by
    intro t
    rw [hwhole]
    exact_mod_cast Iff.rfl
  refine ⟨⟨⟨placeValue (ws ++ gs), ?_⟩, ?_⟩, ⟨?_, ?_⟩, ?_⟩
  · rw [hvalue, div_mul_cancel₀ _ (by positivity), Int.cast_natCast]
  · rintro l ⟨n, hn⟩
    rw [hvalue, div_mul_eq_mul_div, div_eq_iff (by positivity)] at hn
    have hn' : n * 10 ^ gs.length = signed false (placeValue (ws ++ gs)) * 10 ^ l := by
      exact_mod_cast hn.symm
    exact Decimal.length_le_exponent hws hgs hlast hn'
  · exact max_le_max le_rfl (Nat.le_add_left _ _)
  · rw [hlt, placeValue_lt_pow_iff hws hgs (le_max_of_le_right (Nat.le_add_left _ _))]
    exact le_max_right _ _
  · rintro t ⟨ht, hpow⟩
    have hle := (placeValue_lt_pow_iff hws hgs ((le_max_right _ _).trans ht)).1 ((hlt t).1 hpow)
    exact max_le ((le_max_left _ _).trans ht) hle

/-! ### Counting in a text -/

/-- Digits with a point are all of the text that is counted in. -/
theorem WritesDigits.dropWhile_sign (h : WritesDigits cs ws fs) :
    cs.dropWhile (fun c => c = '-' || c = '+') = cs := by
  have hsplit := h.splitSign_eq
  cases cs with
  | nil => rfl
  | cons c cs =>
    refine List.dropWhile_cons_of_neg ?_
    simp only [Bool.or_eq_true, decide_eq_true_eq, not_or]
    refine ⟨?_, ?_⟩
    · rintro rfl
      cases hsplit
    · rintro rfl
      exact List.cons_ne_self _ _ (congrArg Prod.snd hsplit).symm

theorem AreDigits.ne_point (h : AreDigits ws) : ∀ c ∈ ws, (decide (c ≠ '.')) = true := by
  intro c hc
  rw [decide_eq_true_eq]
  rintro rfl
  exact absurd (h '.' hc) (by decide)

namespace Decimal

theorem countDigits_of_writesDigits (h : WritesDigits cs ws fs) :
    countDigits cs = (max 1 ((ws.dropWhile (· = '0')).length + (trimZeros fs).length),
      (trimZeros fs).length) := by
  rw [countDigits, h.dropWhile_sign]
  cases h with
  | whole h =>
    have hpoint := AreDigits.ne_point h.2
    simp only [List.takeWhile_eq_self_iff.2 hpoint, List.dropWhile_eq_nil_iff.2 hpoint]
    rfl
  | point hws hfs h =>
    have hpoint := hws.ne_point
    simp only [List.takeWhile_append_of_pos hpoint, List.dropWhile_append_of_pos hpoint]
    simp

/-- **What is counted in a text** is what the number needs that the text writes, whatever zeros are
written at either end. -/
theorem leastDigits_countDigits (h : WritesDecimal cs x) :
    LeastDigits x (countDigits cs).1 (countDigits cs).2 := by
  have hunsigned : ∀ {cs ws fs}, WritesDigits cs ws fs →
      LeastDigits (pointValue ws fs) (countDigits cs).1 (countDigits cs).2 := by
    intro cs ws fs h
    rw [countDigits_of_writesDigits h]
    exact leastDigits_pointValue h.areDigits.1 h.areDigits.2
  -- a sign is not counted
  have hplus : ∀ cs, countDigits ('+' :: cs) = countDigits cs := fun _ => rfl
  have hminus : ∀ cs, countDigits ('-' :: cs) = countDigits cs := fun _ => rfl
  cases h with
  | unsigned h => exact hunsigned h
  | plus h =>
    rw [hplus]
    exact hunsigned h
  | minus h =>
    rw [hminus]
    exact (hunsigned h).neg

end Decimal

/-! ### Written forms -/

theorem isNumeral_toDigits (n : ℕ) : IsNumeral (Nat.toDigits 10 n) := by
  rw [isNumeral_iff, List.all_eq_true]
  exact ⟨Nat.toDigits_ne_nil, fun c hc => Nat.isDigit_of_mem_toDigits (by decide) (by decide) hc⟩

theorem placeValue_toDigits (n : ℕ) : placeValue (Nat.toDigits 10 n) = n := by
  rw [← digitsValue_eq_placeValue]
  exact Nat.ofDigitChars_ten_toDigits

/-- **The written form of an integer** writes the integer. -/
theorem writesInteger_toString (n : ℤ) : WritesInteger (toString n).toList n := by
  cases n with
  | ofNat n =>
    have htext : (toString (Int.ofNat n)).toList = Nat.toDigits 10 n := by
      change n.repr.toList = _
      rw [Nat.repr_eq_ofList_toDigits, String.toList_ofList]
    have hwrites := WritesInteger.unsigned (isNumeral_toDigits n)
    rw [placeValue_toDigits] at hwrites
    rwa [htext]
  | negSucc n =>
    have htext : (toString (Int.negSucc n)).toList = '-' :: Nat.toDigits 10 (n + 1) := by
      change ("-" ++ (n + 1).repr).toList = _
      rw [String.toList_append, Nat.repr_eq_ofList_toDigits, String.toList_ofList,
        String.toList_ofList]
      exact List.singleton_append
    have hwrites := WritesInteger.minus (isNumeral_toDigits (n + 1))
    rw [placeValue_toDigits] at hwrites
    rwa [htext]

/-- An integer is written as a decimal without a point. -/
theorem WritesInteger.writesDecimal {n : ℤ} (h : WritesInteger cs n) : WritesDecimal cs n := by
  have hvalue : ∀ ds, pointValue ds [] = placeValue ds := fun ds => by simp [pointValue, placeValue]
  cases h with
  | unsigned h =>
    rw [Int.cast_natCast, ← hvalue]
    exact .unsigned (.whole h)
  | plus h =>
    rw [Int.cast_natCast, ← hvalue]
    exact .plus (.whole h)
  | minus h =>
    rw [Int.cast_neg, Int.cast_natCast, ← hvalue]
    exact .minus (.whole h)

namespace Decimal

theorem areDigits_leftpad (h : AreDigits ws) (n : ℕ) : AreDigits (ws.leftpad n '0') := by
  intro c hc
  rcases List.mem_append.1 hc with hc | hc
  · rw [(List.mem_replicate.1 hc).2]
    decide
  · exact h c hc

theorem placeValue_leftpad (ws : List Char) (n : ℕ) :
    placeValue (ws.leftpad n '0') = placeValue ws := by
  have hzeros : ∀ k, placeValue (List.replicate k '0') = 0 := by
    intro k
    rw [← placeValue_dropZeros, List.dropWhile_eq_nil_iff.2 (by simp)]
    rfl
  rw [List.leftpad, placeValue_append, hzeros, Nat.zero_mul, Nat.zero_add]

variable (d : Decimal)

theorem abs_toRat : |d.toRat| = d.units.natAbs / scale := by
  rw [toRat, abs_div, abs_of_pos scale_pos, Nat.cast_natAbs, Int.cast_abs]

/-- The digits of a decimal on both sides of the point give its absolute value. -/
theorem pointValue_digits : pointValue d.wholeDigits d.fractionDigits = |d.toRat| := by
  have hlt : d.units.natAbs % scale < 10 ^ places := Nat.mod_lt _ (by decide)
  have hlength := (Nat.length_toDigits_le_iff (by decide) (by decide)).2 hlt
  have hscale : (10 : ℚ) ^ places = scale := by norm_num [scale]
  rw [wholeDigits, fractionDigits, pointValue_trimZeros, pointValue, placeValue_leftpad,
    placeValue_toDigits, placeValue_toDigits, List.length_leftpad, max_eq_left hlength, hscale,
    abs_toRat, eq_div_iff scale_pos.ne', add_mul, div_mul_cancel₀ _ scale_pos.ne']
  exact_mod_cast Nat.div_add_mod' d.units.natAbs scale

theorem writesDigits_digits :
    WritesDigits (d.wholeDigits ++ (if d.fractionDigits = [] then [] else ['.']) ++
      d.fractionDigits) d.wholeDigits d.fractionDigits := by
  have hwhole : IsNumeral d.wholeDigits := isNumeral_toDigits _
  have hfraction : AreDigits d.fractionDigits :=
    areDigits_trimZeros (areDigits_leftpad (isNumeral_toDigits _).2 places)
  split
  · rename_i h
    rw [h, List.append_nil, List.append_nil]
    exact .whole hwhole
  · rw [List.append_assoc]
    exact .point hwhole.2 hfraction (.inl hwhole.1)

/-- **The written form of a decimal** writes the number that the decimal stands for. -/
theorem writesDecimal_text : WritesDecimal d.text.toList d.toRat := by
  rw [text, String.toList_ofList]
  by_cases hneg : d.units < 0
  · have hnumber : d.toRat = -pointValue d.wholeDigits d.fractionDigits := by
      rw [pointValue_digits, abs_of_neg, neg_neg]
      exact div_neg_of_neg_of_pos (Int.cast_lt_zero.2 hneg) scale_pos
    rw [if_pos hneg, hnumber]
    exact .minus d.writesDigits_digits
  · have hnumber : d.toRat = pointValue d.wholeDigits d.fractionDigits := by
      rw [pointValue_digits, abs_of_nonneg]
      exact div_nonneg (Int.cast_nonneg (not_lt.1 hneg)) scale_pos.le
    rw [if_neg hneg, hnumber]
    exact .unsigned d.writesDigits_digits

/-- **What is written is read back.** -/
theorem read?_text {d : Decimal} (h : d.Fits) : read? d.text = some d :=
  readChars?_eq_some_iff.2 ⟨d.writesDecimal_text, h⟩

end Decimal

/-! ### Values and literals -/

namespace Value.Exact

variable {v : Value}

/-- The written form of a value writes its number. -/
theorem exists_text (h : v.Exact x) : ∃ s, v.text? = some s ∧ WritesDecimal s.toList x := by
  cases h with
  | integer _ => exact ⟨_, rfl, (writesInteger_toString _).writesDecimal⟩
  | decimal _ => exact ⟨_, rfl, Decimal.writesDecimal_text _⟩

/-- **The digits of a value** are those that its number needs. -/
theorem exists_digits (h : v.Exact x) : ∃ t f, v.digits? = some (t, f) ∧ LeastDigits x t f := by
  obtain ⟨s, hs, hwrites⟩ := h.exists_text
  refine ⟨_, _, ?_, Decimal.leastDigits_countDigits hwrites⟩
  rw [Value.digits?, hs, Option.map_some]

/-- A number of 128 bits has 39 digits at most. -/
theorem total_le (h : v.Exact x) (hleast : LeastDigits x t f) : t ≤ 39 := by
  cases h with
  | @integer n hword =>
    obtain ⟨hlow, hhigh⟩ := fitsWord_iff.1 hword
    refine hleast.total_le (p := 0) (u := n) (by simp) (by decide) ?_
    rw [abs_lt]
    omega
  | @decimal d hfits =>
    obtain ⟨hlow, hhigh⟩ := hfits
    refine hleast.total_le (p := Decimal.places) (u := d.units) ?_ (by decide) ?_
    · have hscale : (10 : ℚ) ^ Decimal.places = Decimal.scale := by norm_num [Decimal.scale]
      rw [Decimal.toRat, hscale, div_mul_cancel₀ _ Decimal.scale_pos.ne']
    · rw [abs_lt]
      omega

end Value.Exact

/-- **The digit facets are about numbers.** A valid literal of an integer type or a decimal has the
digits that the number which it writes needs, no more than 39. A constraint that asks for a number
of digits at most has an answer for every such literal, and admits it if it has no more digits. -/
theorem Literal.digits_least (limits : Limits) {l : Literal} (h : l.IsExact) :
    ∃ v x t f, l.value = .valid v ∧ (∀ y, l.Writes y ↔ y = x) ∧
      v.digits? = some (t, f) ∧
      IsLeast {f : ℕ | ∃ n : ℤ, x * 10 ^ f = n} f ∧
      IsLeast {t : ℕ | max 1 f ≤ t ∧ |x| * 10 ^ f < 10 ^ t} t ∧ t ≤ 39 ∧
      ∀ n, (NodeConstraint.ofNumericFacet (.totalDigits n)).holds? limits (.literal l) =
          .ok (decide (t ≤ n)) ∧
        (NodeConstraint.ofNumericFacet (.fractionDigits n)).holds? limits (.literal l) =
          .ok (decide (f ≤ n)) := by
  obtain ⟨v, x, hvalue, hx, hwrites⟩ := h.exists_value
  obtain ⟨t, f, hdigits, hleast⟩ := hx.exists_digits
  have hterm : (Term.literal l).value? = some v := by
    rw [Term.value?, hvalue]
    rfl
  refine ⟨v, x, t, f, hvalue, hwrites, hdigits, hleast.fraction, hleast.total, hx.total_le hleast,
    fun n => ⟨?_, ?_⟩⟩
  · rw [NodeConstraint.holds?_ofNumericFacet limits _ hterm hx.isNumeric, NumericFacet.holds, hdigits]
    rfl
  · rw [NodeConstraint.holds?_ofNumericFacet limits _ hterm hx.isNumeric, NumericFacet.holds, hdigits]
    rfl

/-- A number below one, written with zeros at both ends, has two digits, and both are fraction
digits. -/
theorem Literal.digits_least_belowOne :
    let l := Literal.typed "-00.0500" (Xsd.named "decimal")
    l.IsExact ∧ l.Writes (-(5 / 100)) ∧
      IsLeast {f : ℕ | ∃ n : ℤ, (-(5 / 100) : ℚ) * 10 ^ f = n} 2 ∧
      IsLeast {t : ℕ | max 1 2 ≤ t ∧ |(-(5 / 100) : ℚ)| * 10 ^ 2 < 10 ^ t} 2 ∧
      (NodeConstraint.ofNumericFacet (.totalDigits 1)).holds? .standard (.literal l) = .ok false ∧
      (NodeConstraint.ofNumericFacet (.fractionDigits 2)).holds? .standard (.literal l) =
        .ok true := by
  intro l
  have hl : l.IsExact := ⟨.inr rfl, _, rfl⟩
  obtain ⟨v, x, t, f, hvalue, hwrites, hdigits, hfraction, htotal, -, hfacets⟩ :=
    Literal.digits_least .standard hl
  have hwhole : AreDigits ['0', '0'] := areDigits_iff.2 (by decide)
  have hrest : AreDigits ['0', '5', '0', '0'] := areDigits_iff.2 (by decide)
  have hbody : WritesDigits "00.0500".toList ['0', '0'] ['0', '5', '0', '0'] :=
    .point hwhole hrest (.inl (by decide))
  have hnumber : pointValue ['0', '0'] ['0', '5', '0', '0'] = 5 / 100 := by
    have hzero : placeValue ['0', '0'] = 0 := by decide
    have hfive : placeValue ['0', '5', '0', '0'] = 500 := by decide
    norm_num [pointValue, hzero, hfive]
  have hx : l.Writes (-(5 / 100)) := by
    rw [← hnumber]
    exact .decimal (.minus hbody)
  obtain rfl : -(5 / 100) = x := (hwrites _).1 hx
  have hv : v = .decimal ⟨-50000000000000000⟩ := by
    have hread : l.value = .valid (.decimal ⟨-50000000000000000⟩) := by decide
    rw [hread] at hvalue
    cases hvalue
    rfl
  have hcount : v.digits? = some (2, 2) := by
    rw [hv]
    decide
  obtain ⟨rfl, rfl⟩ : 2 = t ∧ 2 = f := by
    rw [hcount] at hdigits
    cases hdigits
    exact ⟨rfl, rfl⟩
  exact ⟨hl, hx, hfraction, htotal, (hfacets 1).1, (hfacets 2).2⟩

end ShapeTyping
