import Mathlib
import ShapeTyping.Formula.Sentence

/-!
# Classes of variables

Two variables are linked if a chain of restricted comparisons leads from one to the other. The
classes of a formula are made by joining one comparison after the other, and they are the classes
of linked variables.

* `Linked`: the variables of groups that overlap.
* `Represents`, `Represents.join`: classes of linked variables, and one more group.
* `Formula.Linked`, `Formula.represents_classes`: the classes of a formula.
* `Formula.sameType?_eq_none`, `Formula.mem_of_sameType?`: the other variables of a class.
-/

namespace ShapeTyping

/-! ### Linked variables -/

/-- Whether some group has both variables. -/
def Share (gs : List (List Variable)) (u v : Variable) : Prop := ∃ g ∈ gs, u ∈ g ∧ v ∈ g

/-- Whether a chain of groups that overlap leads from one variable to another one. -/
def Linked (gs : List (List Variable)) : Variable → Variable → Prop := Relation.TransGen (Share gs)

namespace Linked

variable {gs gs' : List (List Variable)} {u v : Variable}

theorem symm (h : Linked gs u v) : Linked gs v u := by
  induction h with
  | single h =>
    obtain ⟨g, hg, hu, hv⟩ := h
    exact .single ⟨g, hg, hv, hu⟩
  | tail _ h ih =>
    obtain ⟨g, hg, hu, hv⟩ := h
    exact .head ⟨g, hg, hv, hu⟩ ih

theorem append_left (h : Linked gs u v) : Linked (gs ++ gs') u v := by
  have hshare : Share gs ≤ Share (gs ++ gs') :=
    fun _ _ ⟨g, hg, hmem⟩ => ⟨g, List.mem_append_left _ hg, hmem⟩
  exact Relation.TransGen.mono hshare _ _ h

/-- A list that has all variables of the groups it meets has all that are linked to its own. -/
theorem mem_of_closed {C : List Variable} (hC : ∀ u ∈ C, ∀ v, Share gs u v → v ∈ C)
    (h : Linked gs u v) (hu : u ∈ C) : v ∈ C := by
  induction h with
  | single h => exact hC _ hu _ h
  | tail _ h ih => exact hC _ ih _ h

/-- What is linked to some variable is in some group. -/
theorem exists_mem (h : Linked gs u v) : ∃ g ∈ gs, u ∈ g := by
  obtain ⟨w, ⟨g, hg, hu, -⟩, -⟩ := Relation.TransGen.head'_iff.1 h
  exact ⟨g, hg, hu⟩

end Linked

/-! ### Classes -/

/-- Whether the lists are the classes of linked variables: a list with a variable has all that are
linked to it, and each variable of a group is in a list. -/
structure Represents (classes gs : List (List Variable)) : Prop where
  mem_iff : ∀ C ∈ classes, ∀ u ∈ C, ∀ v, v ∈ C ↔ Linked gs u v
  covers : ∀ g ∈ gs, ∀ u ∈ g, ∃ C ∈ classes, u ∈ C

theorem represents_nil : Represents [] [] := ⟨by simp, by simp⟩

/-- The class of a group, with those that it meets. -/
def joinedClass (classes : List (List Variable)) (vs : List Variable) : List Variable :=
  (vs ++ (classes.filter (·.any (· ∈ vs))).flatten).eraseDups

theorem mem_joinedClass {classes : List (List Variable)} {vs : List Variable} {u : Variable} :
    u ∈ joinedClass classes vs ↔ u ∈ vs ∨ ∃ C ∈ classes, u ∈ C ∧ ∃ w ∈ C, w ∈ vs := by
  simp only [joinedClass, List.mem_eraseDups, List.mem_append, List.mem_flatten, List.mem_filter,
    List.any_eq_true, decide_eq_true_eq]
  refine or_congr_right ⟨?_, ?_⟩
  · rintro ⟨C, ⟨hC, hmeet⟩, hu⟩
    exact ⟨C, hC, hu, hmeet⟩
  · rintro ⟨C, hC, hu, hmeet⟩
    exact ⟨C, ⟨hC, hmeet⟩, hu⟩

/-- The classes that a group does not meet stay apart. -/
theorem mem_joinClasses {classes : List (List Variable)} {vs C : List Variable} (hvs : vs ≠ []) :
    C ∈ joinClasses classes vs ↔
      (C ∈ classes ∧ ∀ v ∈ C, v ∉ vs) ∨ C = joinedClass classes vs := by
  rw [joinClasses, if_neg (by simpa using hvs)]
  simp [List.partition_eq_filter_filter, joinedClass]

section Join

variable {classes gs : List (List Variable)} (h : Represents classes gs)
include h

/-- **The class of a group** has the variables that are linked to it when it is added. -/
theorem Represents.mem_joinedClass_iff (vs : List Variable) {u : Variable}
    (hu : u ∈ joinedClass classes vs) (v : Variable) :
    v ∈ joinedClass classes vs ↔ Linked (gs ++ [vs]) u v := by
  have hmem : vs ∈ gs ++ [vs] := by simp
  -- each of its variables is linked to those of the group
  have hlink : ∀ u ∈ joinedClass classes vs, ∃ w ∈ vs, Linked (gs ++ [vs]) u w := by
    intro u hu
    rcases mem_joinedClass.1 hu with hu | ⟨C, hC, hu, w, hw, hvs⟩
    · exact ⟨u, hu, .single ⟨vs, hmem, hu, hu⟩⟩
    · exact ⟨w, hvs, ((h.mem_iff C hC u hu w).1 hw).append_left⟩
  refine ⟨fun hv => ?_, fun huv => huv.mem_of_closed (fun a ha b hab => ?_) hu⟩
  · obtain ⟨w, hw, huw⟩ := hlink u hu
    obtain ⟨x, hx, hvx⟩ := hlink v hv
    exact (huw.tail ⟨vs, hmem, hw, hx⟩).trans hvx.symm
  · obtain ⟨g, hg, hag, hbg⟩ := hab
    rcases List.mem_append.1 hg with hg | hg
    · -- a group from before lies in one class
      obtain ⟨C, hC, haC⟩ := h.covers g hg a hag
      have hbC : b ∈ C := (h.mem_iff C hC a haC b).2 (.single ⟨g, hg, hag, hbg⟩)
      rcases mem_joinedClass.1 ha with ha | ⟨D, hD, haD, w, hw, hvs⟩
      · exact mem_joinedClass.2 (.inr ⟨C, hC, hbC, a, haC, ha⟩)
      · have hwC : w ∈ C := (h.mem_iff C hC a haC w).2 ((h.mem_iff D hD a haD w).1 hw)
        exact mem_joinedClass.2 (.inr ⟨C, hC, hbC, w, hwC, hvs⟩)
    · obtain rfl := List.mem_singleton.1 hg
      exact mem_joinedClass.2 (.inl hbg)

/-- **One more group** joins the classes that it meets. -/
theorem Represents.join (vs : List Variable) :
    Represents (joinClasses classes vs) (gs ++ [vs]) := by
  by_cases hvs : vs = []
  · -- a group without variables links nothing
    subst hvs
    have hshare : Share (gs ++ [[]]) = Share gs := by
      funext u v
      simp [Share, or_and_right, exists_or]
    rw [joinClasses, if_pos List.isEmpty_nil]
    refine ⟨fun C hC u hu v => ?_, fun g hg u hu => ?_⟩
    · rw [Linked, hshare]
      exact h.mem_iff C hC u hu v
    · rcases List.mem_append.1 hg with hg | hg
      · exact h.covers g hg u hu
      · obtain rfl := List.mem_singleton.1 hg
        cases hu
  refine ⟨fun C hC u hu v => ?_, fun g hg u hu => ?_⟩
  · rcases (mem_joinClasses hvs).1 hC with ⟨hC, hapart⟩ | rfl
    · refine ⟨fun hv => ((h.mem_iff C hC u hu v).1 hv).append_left,
        fun huv => huv.mem_of_closed (fun a ha b hab => ?_) hu⟩
      obtain ⟨g, hg, hag, hbg⟩ := hab
      rcases List.mem_append.1 hg with hg | hg
      · exact (h.mem_iff C hC a ha b).2 (.single ⟨g, hg, hag, hbg⟩)
      · obtain rfl := List.mem_singleton.1 hg
        exact absurd hag (hapart a ha)
    · exact h.mem_joinedClass_iff vs hu v
  · have hnew : joinedClass classes vs ∈ joinClasses classes vs :=
      (mem_joinClasses hvs).2 (.inr rfl)
    rcases List.mem_append.1 hg with hg | hg
    · obtain ⟨C, hC, huC⟩ := h.covers g hg u hu
      by_cases hmeet : ∃ w ∈ C, w ∈ vs
      · exact ⟨_, hnew, mem_joinedClass.2 (.inr ⟨C, hC, huC, hmeet⟩)⟩
      · push Not at hmeet
        exact ⟨C, (mem_joinClasses hvs).2 (.inl ⟨hC, hmeet⟩), huC⟩
    · obtain rfl := List.mem_singleton.1 hg
      exact ⟨_, hnew, mem_joinedClass.2 (.inl hu)⟩

/-- **Joining all groups**, one after the other. -/
theorem Represents.foldl (gs' : List (List Variable)) :
    Represents (gs'.foldl joinClasses classes) (gs ++ gs') := by
  induction gs' generalizing classes gs with
  | nil => rwa [List.append_nil]
  | cons vs gs' ih =>
    rw [List.foldl_cons, List.append_cons]
    exact ih (h.join vs)

end Join

/-! ### The classes of a formula -/

namespace Formula

/-- Whether a chain of restricted comparisons leads from one variable to another one. -/
def Linked (f : Formula) : Variable → Variable → Prop := ShapeTyping.Linked f.sentence.restricted

variable {f : Formula} {u v : Variable}

/-- **The classes of a formula** are those of linked variables. -/
theorem represents_classes (f : Formula) : Represents f.classes f.sentence.restricted :=
  represents_nil.foldl f.sentence.restricted

/-- **A variable has no class** if no restricted comparison has it. -/
theorem sameType?_eq_none : f.sameType? v = none ↔ ¬f.Linked v v := by
  rw [sameType?, Option.map_eq_none_iff, List.find?_eq_none]
  constructor
  · intro h hv
    obtain ⟨g, hg, hvg⟩ := hv.exists_mem
    obtain ⟨C, hC, hvC⟩ := f.represents_classes.covers g hg v hvg
    exact h C hC (by simpa using hvC)
  · intro h C hC hv
    have hvC : v ∈ C := by simpa using hv
    exact h ((f.represents_classes.mem_iff C hC v hvC v).1 hvC)

/-- **The other variables of a class** are those that are linked to it. -/
theorem mem_of_sameType? {others : List Variable} (h : f.sameType? v = some others) :
    u ∈ others ↔ u ≠ v ∧ f.Linked v u := by
  obtain ⟨C, hfind, rfl⟩ := Option.map_eq_some_iff.1 h
  have hC : C ∈ f.classes := List.mem_of_find?_eq_some hfind
  have hv : v ∈ C := by simpa using List.find?_some hfind
  simp only [List.mem_filter, decide_eq_true_eq, f.represents_classes.mem_iff C hC v hv u]
  exact and_comm

end Formula

end ShapeTyping
