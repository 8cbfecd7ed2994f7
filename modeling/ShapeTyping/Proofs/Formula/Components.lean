import Mathlib
import ShapeTyping.Proofs.Formula.Classes

/-!
# Components of variables

The restricted comparisons of a sentence are the edges of a graph between its variables. The
classes of a formula are the connected components of this graph. They are apart from each other, so
it does not matter in which order they are looked through, nor whether a class is compared with the
group that is added or with all that has been joined to it so far.

* `Sentence.HasPart`, `Sentence.Restricts`, `Sentence.Compared`: the restricted comparisons of a
  sentence.
* `mem_restricted`: they are what the groups of a sentence are made from.
* `pairwise_joinClasses`, `gather_eq`: classes are apart, and how they may be gathered.
* `Formula.linked_iff`: chains of comparisons.
* `Formula.sameType?_component`: the class of a variable is its component.
-/

namespace ShapeTyping

/-! ### Comparisons of a sentence -/

namespace Sentence

/-- Whether a sentence has another one as a part, at any depth. -/
inductive HasPart : Sentence → Sentence → Prop where
  | self (s : Sentence) : HasPart s s
  | and {ss : List Sentence} {s p : Sentence} : s ∈ ss → HasPart s p → HasPart (.and ss) p
  | or {ss : List Sentence} {s p : Sentence} : s ∈ ss → HasPart s p → HasPart (.or ss) p
  | not {s p : Sentence} : HasPart s p → HasPart (.not s) p

/-- Whether some restricted comparison in a sentence has these operands. -/
def Restricts (s : Sentence) (x y : Operand) : Prop :=
  ∃ op : Operator, op.isRestricted = true ∧ s.HasPart (.compare op x y)

/-- Whether two variables are compared with each other. -/
def Compared (s : Sentence) (u v : Variable) : Prop :=
  s.Restricts (.var u) (.var v) ∨ s.Restricts (.var v) (.var u)

section Parts

variable {s : Sentence} {ss : List Sentence} {x y : Operand}

theorem restricts_and : (and ss).Restricts x y ↔ ∃ s ∈ ss, s.Restricts x y := by
  constructor
  · rintro ⟨op, hop, hpart⟩
    cases hpart with
    | and hs hpart => exact ⟨_, hs, op, hop, hpart⟩
  · rintro ⟨s, hs, op, hop, hpart⟩
    exact ⟨op, hop, .and hs hpart⟩

theorem restricts_or : (or ss).Restricts x y ↔ ∃ s ∈ ss, s.Restricts x y := by
  constructor
  · rintro ⟨op, hop, hpart⟩
    cases hpart with
    | or hs hpart => exact ⟨_, hs, op, hop, hpart⟩
  · rintro ⟨s, hs, op, hop, hpart⟩
    exact ⟨op, hop, .or hs hpart⟩

theorem restricts_not : (not s).Restricts x y ↔ s.Restricts x y := by
  constructor
  · rintro ⟨op, hop, hpart⟩
    cases hpart with
    | not hpart => exact ⟨op, hop, hpart⟩
  · rintro ⟨op, hop, hpart⟩
    exact ⟨op, hop, .not hpart⟩

theorem restricts_compare {op : Operator} {l r : Operand} :
    (compare op l r).Restricts x y ↔ op.isRestricted = true ∧ x = l ∧ y = r := by
  constructor
  · rintro ⟨op', hop, hpart⟩
    cases hpart
    exact ⟨hop, rfl, rfl⟩
  · rintro ⟨hop, rfl, rfl⟩
    exact ⟨op, hop, .self _⟩

end Parts

mutual
/-- **The groups of a sentence** are the variables of its restricted comparisons. -/
theorem mem_restricted {g : List Variable} : (s : Sentence) →
    (g ∈ s.restricted ↔ ∃ x y, s.Restricts x y ∧ g = [x, y].filterMap (·.var?))
  | and ss => by
    rw [restricted, mem_restrictedOfList]
    simp only [restricts_and]
    grind
  | or ss => by
    rw [restricted, mem_restrictedOfList]
    simp only [restricts_or]
    grind
  | not s => by
    rw [restricted, mem_restricted s]
    simp only [restricts_not]
  | compare op l r => by
    simp only [restricted, restricts_compare]
    cases op.isRestricted <;> simp
  | shape _ _ | triple _ _ _ | var _ => by
    simp only [restricted, List.not_mem_nil, false_iff]
    rintro ⟨x, y, ⟨op, -, hpart⟩, -⟩
    cases hpart

theorem mem_restrictedOfList {g : List Variable} : (ss : List Sentence) →
    (g ∈ restrictedOfList ss ↔
      ∃ s ∈ ss, ∃ x y, s.Restricts x y ∧ g = [x, y].filterMap (·.var?))
  | [] => by simp [restrictedOfList]
  | s :: ss => by
    rw [restrictedOfList, List.mem_append, mem_restricted s, mem_restrictedOfList ss]
    simp only [List.mem_cons, exists_eq_or_imp]
end

end Sentence

/-! ### Classes that are apart -/

theorem nodup_eraseDups : (vs : List Variable) → vs.eraseDups.Nodup
  | [] => by simp
  | v :: vs => by
    rw [List.eraseDups_cons, List.nodup_cons]
    refine ⟨?_, nodup_eraseDups _⟩
    simp [List.mem_eraseDups]
termination_by vs => vs.length
decreasing_by exact Nat.lt_succ_of_le (List.length_filter_le _ _)

section Apart

variable {classes : List (List Variable)}

theorem joinClasses_eq {vs : List Variable} (hvs : vs ≠ []) :
    joinClasses classes vs =
      classes.filter (!·.any (· ∈ vs)) ++ [joinedClass classes vs] := by
  rw [joinClasses, if_neg (by simpa using hvs)]
  simp only [List.partition_eq_filter_filter, joinedClass]
  rfl

/-- **One more group leaves the classes apart**: those that it meets become one, and the others have
nothing in common with them. No variable is listed twice. -/
theorem nodup_joinClasses (h : classes.flatten.Nodup) (vs : List Variable) :
    (joinClasses classes vs).flatten.Nodup := by
  by_cases hvs : vs = []
  · rwa [joinClasses, if_pos (by simpa using hvs)]
  obtain ⟨hnodup, hapart⟩ := List.nodup_flatten.1 h
  rw [joinClasses_eq hvs, List.nodup_flatten]
  refine ⟨fun C hC => ?_, List.pairwise_append.2 ⟨hapart.filter _, List.pairwise_singleton _ _, ?_⟩⟩
  · rcases List.mem_append.1 hC with hC | hC
    · exact hnodup C (List.mem_of_mem_filter hC)
    · rw [List.mem_singleton.1 hC]
      exact nodup_eraseDups _
  · -- a class that stays has no variable of the group, nor of a class that is joined to it
    intro C hC D hD
    obtain rfl := List.mem_singleton.1 hD
    obtain ⟨hC, hmeet⟩ := List.mem_filter.1 hC
    have hmeet : ∀ v ∈ C, v ∉ vs := by simpa using hmeet
    rw [List.disjoint_left]
    intro v hv hjoined
    rcases mem_joinedClass.1 hjoined with hmem | ⟨E, hE, hvE, w, hw, hwvs⟩
    · exact hmeet v hv hmem
    · have hne : C ≠ E := by
        rintro rfl
        exact hmeet w hw hwvs
      have : Std.Symm (@List.Disjoint Variable) := ⟨fun _ _ => List.Disjoint.symm⟩
      exact hapart.forall hC hE hne hv hvE

/-- Goes through classes and joins to a set each one that meets it, or what has been joined to it
before. The others are left as they are. -/
def gather : List (List Variable) → List Variable → List (List Variable) × List Variable
  | [], vs => ([], vs)
  | C :: classes, vs =>
    if C.any (· ∈ vs) then gather classes (vs ++ C)
    else ((C :: (gather classes vs).1), (gather classes vs).2)

/-- **Classes that are apart** meet what has been joined to a set only if they meet the set. -/
theorem gather_eq (h : classes.flatten.Nodup) (vs : List Variable) :
    gather classes vs = (classes.filter (!·.any (· ∈ vs)),
      vs ++ (classes.filter (·.any (· ∈ vs))).flatten) := by
  induction classes generalizing vs with
  | nil => simp [gather]
  | cons C classes ih =>
    rw [List.flatten_cons, List.nodup_append'] at h
    obtain ⟨-, hclasses, hapart⟩ := h
    by_cases hmeet : C.any (· ∈ vs) = true
    · -- the classes that are left have nothing in common with the one that is joined
      have hsame : ∀ D ∈ classes, D.any (· ∈ vs ++ C) = D.any (· ∈ vs) := by
        intro D hD
        have hDC : ∀ v ∈ D, v ∉ C := fun v hv hC => hapart hC (List.mem_flatten.2 ⟨D, hD, hv⟩)
        rw [Bool.eq_iff_iff]
        simp only [List.any_eq_true, List.mem_append, decide_eq_true_eq]
        grind
      simp only [gather, hmeet, if_true, ih hclasses, List.filter_cons, Bool.not_true,
        Bool.false_eq_true, if_false, List.flatten_cons, List.append_assoc]
      rw [List.filter_congr hsame, List.filter_congr fun D hD => congrArg not (hsame D hD)]
    · simp only [gather, hmeet, if_false, ih hclasses, List.filter_cons,
        Bool.false_eq_true, Bool.not_false, if_true]

/-- A group joined to the classes that are gathered from it. -/
def joinGathered (classes : List (List Variable)) (vs : List Variable) : List (List Variable) :=
  if vs.isEmpty then classes
  else (gather classes vs).1 ++ [(gather classes vs).2.eraseDups]

theorem joinGathered_eq (h : classes.flatten.Nodup) (vs : List Variable) :
    joinGathered classes vs = joinClasses classes vs := by
  rw [joinGathered, gather_eq h]
  split
  · rename_i hvs
    rw [joinClasses, if_pos hvs]
  · rename_i hvs
    rw [joinClasses_eq (by simpa using hvs), joinedClass]

/-- **Joining all groups**, in either way. -/
theorem foldl_joinGathered (h : classes.flatten.Nodup) (gs : List (List Variable)) :
    gs.foldl joinGathered classes = gs.foldl joinClasses classes ∧
      (gs.foldl joinClasses classes).flatten.Nodup := by
  induction gs generalizing classes with
  | nil => exact ⟨rfl, h⟩
  | cons vs gs ih =>
    rw [List.foldl_cons, List.foldl_cons, joinGathered_eq h]
    exact ih (nodup_joinClasses h vs)

end Apart

/-! ### Chains of comparisons -/

theorem mem_operandVars {x y : Operand} {v : Variable} :
    v ∈ [x, y].filterMap (·.var?) ↔ x = .var v ∨ y = .var v := by
  cases x <;> cases y <;> simp [Operand.var?, eq_comm]

namespace Formula

variable {f : Formula} {u v : Variable}

/-- Variables share a group if some restricted comparison has both. -/
theorem share_iff : Share f.sentence.restricted u v ↔
    ∃ x y, f.sentence.Restricts x y ∧ (x = .var u ∨ y = .var u) ∧ (x = .var v ∨ y = .var v) := by
  constructor
  · rintro ⟨g, hg, hu, hv⟩
    obtain ⟨x, y, hxy, rfl⟩ := (Sentence.mem_restricted f.sentence).1 hg
    exact ⟨x, y, hxy, mem_operandVars.1 hu, mem_operandVars.1 hv⟩
  · rintro ⟨x, y, hxy, hu, hv⟩
    exact ⟨_, (Sentence.mem_restricted f.sentence).2 ⟨x, y, hxy, rfl⟩, mem_operandVars.2 hu,
      mem_operandVars.2 hv⟩

/-- They are then the same, on both sides of it, or compared with each other. -/
theorem eq_or_compared_of_share (h : Share f.sentence.restricted u v) :
    u = v ∨ f.sentence.Compared u v := by
  obtain ⟨x, y, hxy, rfl | rfl, hv⟩ := share_iff.1 h
  · rcases hv with hv | rfl
    · exact .inl (by simpa using hv)
    · exact .inr (.inl hxy)
  · rcases hv with rfl | hv
    · exact .inr (.inr hxy)
    · exact .inl (by simpa using hv)

theorem share_of_compared (h : f.sentence.Compared u v) : Share f.sentence.restricted u v := by
  rcases h with h | h
  · exact share_iff.2 ⟨_, _, h, .inl rfl, .inr rfl⟩
  · exact share_iff.2 ⟨_, _, h, .inr rfl, .inl rfl⟩

/-- A variable is linked to itself if some comparison has it. -/
theorem linked_self : f.Linked v v ↔
    ∃ x y, f.sentence.Restricts x y ∧ (x = .var v ∨ y = .var v) := by
  constructor
  · intro h
    obtain ⟨g, hg, hv⟩ := h.exists_mem
    obtain ⟨x, y, hxy, rfl⟩ := (Sentence.mem_restricted f.sentence).1 hg
    exact ⟨x, y, hxy, mem_operandVars.1 hv⟩
  · rintro ⟨x, y, hxy, hv⟩
    exact .single (share_iff.2 ⟨x, y, hxy, hv, hv⟩)

/-- **Different variables are linked** by a chain in which each one is compared with the next. -/
theorem linked_iff (hne : u ≠ v) :
    f.Linked v u ↔ Relation.ReflTransGen f.sentence.Compared v u := by
  constructor
  · intro h
    have hshare : Share f.sentence.restricted ≤ Relation.ReflTransGen f.sentence.Compared := by
      intro a b hab
      rcases eq_or_compared_of_share hab with rfl | hab
      · exact .refl
      · exact .single hab
    exact Relation.reflTransGen_closed hshare _ _ h.to_reflTransGen
  · intro h
    have hcompared : f.sentence.Compared ≤ Share f.sentence.restricted := fun _ _ => share_of_compared
    exact (Relation.reflTransGen_iff_eq_or_transGen.1
      (Relation.ReflTransGen.mono hcompared _ _ h)).resolve_left hne

/-- **The class of a variable is its component.** Whether a group is joined to the classes that it
meets, or to those that meet what has been joined to it so far, the classes are the same, and no
variable is listed twice. A variable has a class if some restricted comparison has it, at any depth,
and the class has the other variables to which a chain of comparisons leads. -/
theorem sameType?_component (f : Formula) :
    f.sentence.restricted.foldl joinGathered [] = f.classes ∧ f.classes.flatten.Nodup ∧
    (∀ v, (f.sameType? v).isSome = true ↔
      ∃ x y, f.sentence.Restricts x y ∧ (x = .var v ∨ y = .var v)) ∧
    ∀ v others, f.sameType? v = some others → others.Nodup ∧
      ∀ u, u ∈ others ↔ u ≠ v ∧ Relation.ReflTransGen f.sentence.Compared v u := by
  have hempty : ([] : List (List Variable)).flatten.Nodup := List.nodup_nil
  obtain ⟨hgathered, hnodup⟩ := foldl_joinGathered hempty f.sentence.restricted
  refine ⟨hgathered, hnodup, fun v => ?_, fun v others hothers => ⟨?_, fun u => ?_⟩⟩
  · rw [← linked_self, Option.isSome_iff_ne_none, Ne, sameType?_eq_none, not_not]
  · obtain ⟨C, hfind, rfl⟩ := Option.map_eq_some_iff.1 hothers
    have hC : C ∈ f.classes := List.mem_of_find?_eq_some hfind
    exact ((List.nodup_flatten.1 hnodup).1 C hC).filter _
  · rw [mem_of_sameType? hothers]
    exact and_congr_right linked_iff

/-- Two classes that a third comparison joins, deep in the sentence; one variable is compared with a
constant only, and another one is only tested for equality. -/
def joinedLater : Formula :=
  ⟨[], .and [.compare .less (.var ⟨"x"⟩) (.var ⟨"y"⟩),
    .not (.compare .greater (.var ⟨"z"⟩) (.var ⟨"w"⟩)),
    .or [.compare .less (.var ⟨"u"⟩) (.const (.blank "b")),
      .compare .equal (.var ⟨"x"⟩) (.var ⟨"v"⟩),
      .not (.compare .lessOrEqual (.var ⟨"w"⟩) (.var ⟨"y"⟩))]]⟩

theorem sameType?_component_joinedLater :
    joinedLater.sameType? ⟨"x"⟩ = some [⟨"w"⟩, ⟨"y"⟩, ⟨"z"⟩] ∧
      Relation.ReflTransGen joinedLater.sentence.Compared ⟨"x"⟩ ⟨"z"⟩ ∧
      (∃ x y, joinedLater.sentence.Restricts x y ∧ (x = .var ⟨"u"⟩ ∨ y = .var ⟨"u"⟩)) ∧
      ¬∃ x y, joinedLater.sentence.Restricts x y ∧ (x = .var ⟨"v"⟩ ∨ y = .var ⟨"v"⟩) := by
  obtain ⟨-, -, hsome, hothers⟩ := sameType?_component joinedLater
  have hx : joinedLater.sameType? ⟨"x"⟩ = some [⟨"w"⟩, ⟨"y"⟩, ⟨"z"⟩] := by decide +kernel
  refine ⟨hx, ?_, (hsome _).1 (by decide +kernel), fun hv => ?_⟩
  · exact (((hothers _ _ hx).2 ⟨"z"⟩).1 (by simp)).2
  · have hnone : (joinedLater.sameType? ⟨"v"⟩).isSome = false := by decide +kernel
    rw [(hsome _).2 hv] at hnone
    cases hnone

end Formula

end ShapeTyping
