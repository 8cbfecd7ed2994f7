import Mathlib
import ShapeTyping.Proofs.NodeConstraint.Parts

/-!
# Language stems

A language tag is divided into subtags at its hyphens. A stem is looked for at the beginning of a
tag as a text that ends with the tag or before a hyphen, and that is a comparison of subtags: a stem
that is not empty matches the tags whose first subtags are its own, case aside. Subtags may be empty,
at either end of a tag and between two hyphens.

* `splitOn_isPrefix_iff`: lists whose pieces are the first pieces of another list.
* `subtags`: the subtags of a language tag in lower case.
* `languageMatches_iff`: the tags that a stem matches.
* `StemKind.admits_language`: the terms that a language stem admits.
-/

namespace ShapeTyping

/-! ### Pieces of a list -/

section Pieces

variable {α : Type*} [DecidableEq α] {a : α} {xs ys : List α}

theorem notMem_of_mem_splitOn {piece : List α} (h : piece ∈ xs.splitOn a) : a ∉ piece := by
  induction xs generalizing piece with
  | nil =>
    rw [List.splitOn_nil, List.mem_singleton] at h
    rw [h]
    exact List.not_mem_nil
  | cons x xs ih =>
    rw [List.splitOn_cons_eq_if_modifyHead] at h
    split at h
    · rcases List.mem_cons.1 h with rfl | h
      · exact List.not_mem_nil
      · exact ih h
    · rename_i hx
      -- the element joins the first piece of the rest
      obtain ⟨first, rest, hsplit⟩ := List.exists_cons_of_ne_nil (List.splitOn_ne_nil a xs)
      rw [hsplit, List.modifyHead_cons] at h
      rw [hsplit] at ih
      rcases List.mem_cons.1 h with rfl | h
      · rw [List.mem_cons, not_or]
        exact ⟨fun hax => hx (beq_iff_eq.2 hax.symm), ih List.mem_cons_self⟩
      · exact ih (List.mem_cons_of_mem _ h)

theorem splitOn_injective (a : α) : Function.Injective (List.splitOn a) :=
  Function.LeftInverse.injective (g := [a].intercalate) fun _ => List.intercalate_splitOn a

/-- **The pieces of a list are the first pieces of another one** if the lists are the same, or the
second one begins with the first one and goes on with a new piece. -/
theorem splitOn_isPrefix_iff :
    xs.splitOn a <+: ys.splitOn a ↔ xs = ys ∨ xs ++ [a] <+: ys := by
  constructor
  · rintro ⟨pieces, hpieces⟩
    by_cases hne : pieces = []
    · rw [hne, List.append_nil] at hpieces
      exact .inl (splitOn_injective a hpieces)
    · have hfree : ∀ piece ∈ pieces, a ∉ piece := fun piece h =>
        notMem_of_mem_splitOn (hpieces ▸ List.mem_append_right _ h)
      refine .inr ⟨[a].intercalate pieces, splitOn_injective a ?_⟩
      rw [List.append_assoc, List.singleton_append, List.splitOn_append_cons_self,
        List.splitOn_intercalate a hfree hne, hpieces]
  · rintro (rfl | ⟨rest, rfl⟩)
    · exact List.prefix_rfl
    · rw [List.append_assoc, List.singleton_append, List.splitOn_append_cons_self]
      exact List.prefix_append _ _

/-- What leaves the places to split at where they are acts on the pieces one by one. -/
theorem splitOn_map {f : α → α} (hf : ∀ x, f x = a ↔ x = a) :
    (xs.map f).splitOn a = (xs.splitOn a).map (List.map f) := by
  induction xs with
  | nil => rfl
  | cons x xs ih =>
    rw [List.map_cons, List.splitOn_cons_eq_if_modifyHead, List.splitOn_cons_eq_if_modifyHead, ih]
    simp only [beq_iff_eq, hf]
    split
    · rfl
    · obtain ⟨first, rest, hsplit⟩ := List.exists_cons_of_ne_nil (List.splitOn_ne_nil a xs)
      rw [hsplit]
      rfl

/-- A list that another one begins with, followed by nothing or by an element. -/
theorem isPrefixOf_and_head?_iff :
    (xs.isPrefixOf ys && (ys.drop xs.length).head?.all (· = a)) = true ↔
      xs = ys ∨ xs ++ [a] <+: ys := by
  rw [Bool.and_eq_true, List.isPrefixOf_iff_prefix]
  constructor
  · rintro ⟨⟨rest, rfl⟩, h⟩
    rw [List.drop_left] at h
    cases rest with
    | nil => exact .inl (List.append_nil xs).symm
    | cons b rest =>
      obtain rfl : b = a := by simpa using h
      exact .inr ⟨rest, by simp⟩
  · rintro (rfl | ⟨rest, rfl⟩) <;> simp

end Pieces

/-! ### Subtags -/

/-- The subtags of a language tag in lower case: what stands between its hyphens. -/
def subtags (tag : String) : List String :=
  (tag.toList.splitOn '-').map fun piece => String.ofList (piece.map Char.toLower)

theorem toLower_eq_hyphen_iff (c : Char) : c.toLower = '-' ↔ c = '-' := by
  rw [Char.toLower]
  split
  · rename_i h
    -- a capital letter is no hyphen, and neither is its small letter
    refine iff_of_false (fun hc => ?_) (by rintro rfl; exact absurd h (by decide))
    have hlow : 65 ≤ c.val.toNat := h.1
    have hhigh : c.val.toNat ≤ 90 := h.2
    have hval := congrArg (UInt32.toNat ∘ Char.val) hc
    simp only [Function.comp_apply, UInt32.toNat_add] at hval
    change (c.val.toNat + 32) % 2 ^ 32 = 45 at hval
    omega
  · rfl

/-- It does not matter whether a tag is divided before or after its letters become small. -/
theorem subtags_eq (tag : String) :
    subtags tag = ((tag.toList.map Char.toLower).splitOn '-').map String.ofList := by
  rw [splitOn_map toLower_eq_hyphen_iff, List.map_map]
  rfl

theorem subtags_isPrefix_iff {stem tag : String} : subtags stem <+: subtags tag ↔
    (stem.toList.map Char.toLower).splitOn '-' <+: (tag.toList.map Char.toLower).splitOn '-' := by
  rw [subtags_eq, subtags_eq]
  exact List.prefix_map_iff_of_injective fun _ _ => String.ofList_injective

/-- **A stem matches the tags whose first subtags are its own.** The empty stem matches all tags. -/
theorem languageMatches_iff {stem tag : String} :
    languageMatches stem tag = true ↔ stem = "" ∨ subtags stem <+: subtags tag := by
  have hempty : (stem.toList.map Char.toLower).isEmpty = true ↔ stem = "" := by simp
  rw [languageMatches, Bool.or_eq_true, hempty, isPrefixOf_and_head?_iff, subtags_isPrefix_iff,
    splitOn_isPrefix_iff]

/-! ### Terms -/

/-- The constraint that asks for a value and nothing else. -/
def NodeConstraint.ofValue (v : ValueSpec) : NodeConstraint := { any with values := [v] }

/-- A constraint that asks for a value is decided by the value, within limits that allow one. -/
theorem NodeConstraint.holds?_ofValue {limits : Limits} (hlimits : 1 ≤ limits.maxValues)
    (v : ValueSpec) (t : Term) : (ofValue v).holds? limits t = .ok (v.admits t) := by
  have hvalues : (ofValue v).holds? limits t = valuesHold? limits t [v] := rfl
  rw [hvalues, valuesHold?, if_neg (by simp), List.length_singleton, if_neg (not_lt.2 hlimits),
    ValueSpec.anyAdmits, ValueSpec.anyAdmits, Bool.or_false]

/-- **A language stem** that is not empty admits the literals with a language tag whose first
subtags are those of the stem, case aside. The empty stem admits every literal with a language tag,
and no stem admits another term. A constraint that asks for the stem has the same answer. -/
theorem StemKind.admits_language (stem : String) :
    (stem ≠ "" → ∀ s tag, language.admits stem (.literal (.tagged s tag)) = true ↔
      subtags stem <+: subtags tag) ∧
    (∀ s tag, language.admits "" (.literal (.tagged s tag)) = true) ∧
    (∀ t : Term, (∀ s tag, t ≠ .literal (.tagged s tag)) → language.admits stem t = false) ∧
    ∀ (limits : Limits) (t : Term), 1 ≤ limits.maxValues →
      (NodeConstraint.ofValue (.stem .language stem)).holds? limits t =
        .ok (language.admits stem t) := by
  have hmatches : ∀ stem s tag,
      language.admits stem (.literal (.tagged s tag)) = languageMatches stem tag :=
    fun _ _ _ => rfl
  refine ⟨fun hne s tag => ?_, fun s tag => ?_, fun t ht => ?_, fun limits t hlimits => ?_⟩
  · rw [hmatches, languageMatches_iff, or_iff_right hne]
  · rw [hmatches, languageMatches_iff]
    exact .inl rfl
  · cases t with
    | iri i => rfl
    | blank id => rfl
    | literal l =>
      cases l with
      | typed s d => rfl
      | tagged s tag => exact absurd rfl (ht s tag)
  · rw [NodeConstraint.holds?_ofValue hlimits, ValueSpec.admits]

/-- A stem that ends with a hyphen has an empty last subtag, which a tag with two hyphens has too
and a tag with one hyphen has not. -/
theorem StemKind.admits_language_emptySubtag :
    "x-" ≠ "" ∧ (1 ≤ Limits.standard.maxValues) ∧
      (language.admits "x-" (.literal (.tagged "a" "X--en")) = true ∧
        subtags "x-" = ["x", ""] ∧ subtags "X--en" = ["x", "", "en"]) ∧
      language.admits "x-" (.literal (.tagged "a" "X-en")) = false ∧
      (NodeConstraint.ofValue (.stem .language "x-")).holds? .standard
        (.literal (.typed "x-en" Xsd.string)) = .ok false := by
  obtain ⟨hstem, -, hother, hvalue⟩ := StemKind.admits_language "x-"
  have hne : "x-" ≠ "" := by decide
  have hlimits : 1 ≤ Limits.standard.maxValues := by decide
  refine ⟨hne, hlimits, ⟨(hstem hne _ _).2 ?_, ?_, ?_⟩, ?_, ?_⟩
  · decide
  · decide
  · decide
  · rw [← Bool.not_eq_true, hstem hne]
    decide
  · rw [hvalue _ _ hlimits, hother _ (by simp)]

end ShapeTyping
