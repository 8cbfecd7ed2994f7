import Mathlib
import ShapeTyping.Proofs.Bag.Enumeration

/-!
# Enumerations by position

An enumeration goes through the positions of its lists of candidates, whatever candidates stand
there and however often. The bag it yields next depends on how many bags were asked for since it
last started, and on nothing else.

* `positions`: one position in each list, in lexicographic order.
* `choices_eq_map_pick`: the choices are what is picked at the positions.
* `Bags.total_eq`: the number of bags, stopping at the largest word.
* `Bags.Call`, `Bags.after`: an enumeration after some calls.
* `Bags.stands_after`: what is left of it then.
* `Bags.enumerates_positions`: the bag that it yields next, after any calls.
-/

namespace ShapeTyping

variable {cs : List (List ℕ)}

/-! ### Positions -/

/-- The positions in lists of candidates, the one in the last list varying fastest. -/
def positions (cs : List (List ℕ)) : List (List ℕ) :=
  choices (cs.map fun c => List.range c.length)

/-- The candidates at some positions. -/
def pick (cs : List (List ℕ)) (p : List ℕ) : List ℕ :=
  List.zipWith (fun c i => c.getD i 0) cs p

theorem positions_cons (c : List ℕ) (cs : List (List ℕ)) : positions (c :: cs) =
    (List.range c.length).flatMap fun i => (positions cs).map (i :: ·) := rfl

theorem mem_positions {p : List ℕ} :
    p ∈ positions cs ↔ List.Forall₂ (fun i c => i < c.length) p cs :=
  mem_choices_map fun _ _ _ => List.mem_range

theorem positions_pairwise_lt (cs : List (List ℕ)) : (positions cs).Pairwise (· < ·) := by
  apply choices_pairwise_lt
  intro r hr
  obtain ⟨c, -, rfl⟩ := List.mem_map.1 hr
  exact List.pairwise_lt_range

theorem length_positions (cs : List (List ℕ)) :
    (positions cs).length = (cs.map List.length).prod := by
  induction cs with
  | nil => rfl
  | cons c cs ih =>
    rw [positions_cons, List.length_flatMap]
    simp [ih]

/-- There is no position if some list is empty, and otherwise there is one. -/
theorem positions_eq_nil_iff : positions cs = [] ↔ [] ∈ cs := by
  rw [← List.length_eq_zero_iff, length_positions, List.prod_eq_zero_iff, List.mem_map]
  simp [List.length_eq_zero_iff]

theorem map_getD_range (c : List ℕ) : (List.range c.length).map (fun i => c.getD i 0) = c := by
  apply List.ext_getElem
  · simp
  · intro i hi hi'
    simp [hi']

/-- **The choices are what is picked at the positions**, in the same order. -/
theorem choices_eq_map_pick (cs : List (List ℕ)) : choices cs = (positions cs).map (pick cs) := by
  induction cs with
  | nil => rfl
  | cons c cs ih =>
    have hpick : ∀ i, (positions cs).map (pick (c :: cs) ∘ (i :: ·)) =
        (choices cs).map (c.getD i 0 :: ·) := by
      intro i
      rw [ih, List.map_map]
      rfl
    calc choices (c :: cs)
        = ((List.range c.length).map fun i => c.getD i 0).flatMap
            fun x => (choices cs).map (x :: ·) := by rw [map_getD_range, choices]
      _ = (List.range c.length).flatMap fun i => (choices cs).map (c.getD i 0 :: ·) :=
          List.flatMap_map _ _ _
      _ = (positions (c :: cs)).map (pick (c :: cs)) := by
          simp only [positions_cons, List.map_flatMap, List.map_map, hpick]

/-! ### Numbers of bags -/

/-- A product that stops at the largest word in every step is the product stopped there once. -/
theorem mulSat_min (m n : ℕ) : mulSat (min m maxWord) n = min (m * n) maxWord := by
  unfold mulSat
  rcases Nat.eq_zero_or_pos n with rfl | hn
  · simp
  rcases le_total m maxWord with hm | hm
  · rw [min_eq_left hm]
  · have hword : maxWord ≤ maxWord * n := Nat.le_mul_of_pos_right _ hn
    rw [min_eq_right hm, min_eq_right hword, min_eq_right (hword.trans (Nat.mul_le_mul_right n hm))]

theorem foldl_mulSat_length (cs : List (List ℕ)) (m : ℕ) :
    cs.foldl (fun n c => mulSat n c.length) (min m maxWord) =
      min (m * (cs.map List.length).prod) maxWord := by
  induction cs generalizing m with
  | nil => simp
  | cons c cs ih =>
    rw [List.foldl_cons, mulSat_min, ih, List.map_cons, List.prod_cons, mul_assoc]

namespace Bags

variable {b : Bags} {size k : ℕ}

/-- **The total** is the product of the lengths or the largest word, whichever is less. -/
theorem total_eq (b : Bags) : b.total = min (b.candidates.map List.length).prod maxWord := by
  have hone : min 1 maxWord = 1 := by decide
  rw [total, ← one_mul (List.prod _), ← foldl_mulSat_length, hone]

/-! ### Calls -/

/-- What an enumeration is asked to do: to yield its next bag, or to start again. -/
inductive Call where
  | next
  | reset
  deriving DecidableEq

/-- The enumeration after a call; it stays as it is if there is no next bag. -/
def Call.perform (b : Bags) : Call → Bags
  | next => (b.next?.map (·.2)).getD b
  | reset => b.reset

/-- The enumeration after some calls. -/
def after (b : Bags) (rs : List Call) : Bags := rs.foldl Call.perform b

/-- How many bags were asked for since the last restart. -/
def askedFor (rs : List Call) : ℕ := (rs.rtakeWhile (· = .next)).length

/-- An enumeration that has yielded the first choices. -/
structure Stands (cs : List (List ℕ)) (size k : ℕ) (b : Bags) : Prop where
  candidates : b.candidates = cs
  size : b.size = size
  ready : b.Ready
  left : b.left = (choices cs).drop k

theorem stands_ofCandidates (cs : List (List ℕ)) (size : ℕ) :
    Stands cs size 0 (ofCandidates cs size) :=
  ⟨rfl, rfl, ready_ofCandidates cs size, left_ofCandidates cs size⟩

/-- A bag that comes next is that of the first choice left. -/
theorem Stands.next?_eq (h : Stands cs size k b) :
    b.next?.map (·.1) = (choices cs)[k]?.map fun a => ⟨a, size⟩ := by
  rw [← List.head?_drop, ← h.left]
  cases hnext : b.next? with
  | none => rw [(next?_eq_none_iff h.ready).1 hnext]; rfl
  | some next =>
    obtain ⟨⟨a, n⟩, rest⟩ := next
    obtain ⟨hleft, hn, -, -⟩ := left_of_next? h.ready hnext
    rw [hleft, List.head?_cons, Option.map_some, Option.map_some, ← h.size, ← hn]

/-- One choice less is left after the next bag; none are left after none. -/
theorem Stands.next (h : Stands cs size k b) : Stands cs size (k + 1) (Call.next.perform b) := by
  rw [Call.perform]
  cases hnext : b.next? with
  | none =>
    have hnil : (choices cs).drop k = [] := h.left ▸ (next?_eq_none_iff h.ready).1 hnext
    refine ⟨h.candidates, h.size, h.ready, h.left.trans ?_⟩
    rw [← List.drop_drop, hnil, List.drop_nil]
  | some next =>
    obtain ⟨bag, rest⟩ := next
    obtain ⟨hleft, -, hsize, hready⟩ := left_of_next? h.ready hnext
    have hcandidates : rest.candidates = b.candidates := by
      obtain ⟨rs, -, hrs⟩ := Option.map_eq_some_iff.1 hnext
      rw [← (Prod.mk.inj hrs).2]
    refine ⟨hcandidates.trans h.candidates, hsize.trans h.size, hready, ?_⟩
    rw [← List.drop_drop, ← h.left, hleft]
    rfl

theorem Stands.reset (h : Stands cs size k b) : Stands cs size 0 (Call.reset.perform b) := by
  rw [Call.perform, Bags.reset, h.candidates, h.size]
  exact stands_ofCandidates cs size

/-- **What is left after some calls**: all choices but as many as were asked for since the last
restart. -/
theorem stands_after (cs : List (List ℕ)) (size : ℕ) (rs : List Call) :
    Stands cs size (askedFor rs) ((ofCandidates cs size).after rs) := by
  induction rs using List.reverseRecOn with
  | nil => exact stands_ofCandidates cs size
  | append_singleton rs r ih =>
    rw [after, List.foldl_append, List.foldl_cons, List.foldl_nil, ← after, askedFor,
      List.rtakeWhile_concat]
    cases r with
    | next => simpa [askedFor] using ih.next
    | reset => simpa using ih.reset

/-- **An enumeration yields the choice at every position once, in lexicographic order**, and then
nothing more, and it does so again after a restart. A position has one index below the length of
each list, so their number is the product of the lengths. Each bag counts the occurrences of every
constraint. -/
theorem enumerates_positions (cs : List (List ℕ)) (size : ℕ) :
    ((∀ p, p ∈ positions cs ↔ List.Forall₂ (fun i c => i < c.length) p cs) ∧
      (positions cs).Pairwise (· < ·) ∧
      (positions cs).length = (cs.map List.length).prod ∧
      positions [] = [[]] ∧ (positions cs = [] ↔ [] ∈ cs)) ∧
    (∀ rs : List Call,
      let b := (ofCandidates cs size).after rs
      b.next?.map (fun n => (n.1.assignment, n.1.counts)) =
        (positions cs)[askedFor rs]?.map (fun p =>
          (pick cs p, (List.range size).map fun i => (pick cs p).count i)) ∧
      b.total = min (positions cs).length maxWord) ∧
    ∀ (bag : Bag) (i : ℕ), bag.count i = bag.counts[i]?.getD 0 := by
  refine ⟨⟨fun _ => mem_positions, positions_pairwise_lt cs, length_positions cs, rfl,
    positions_eq_nil_iff⟩, fun rs => ?_, Bag.count_eq⟩
  have hstands := stands_after cs size rs
  constructor
  · have hnext := congrArg (Option.map fun bag : Bag => (bag.assignment, bag.counts))
      hstands.next?_eq
    rw [Option.map_map, Option.map_map, choices_eq_map_pick, List.getElem?_map,
      Option.map_map] at hnext
    refine hnext.trans (congrArg (Option.map · _) ?_)
    funext p
    simp only [Function.comp_apply, Bag.counts_eq]
  · rw [total_eq, hstands.candidates, length_positions]

/-- A candidate that stands in a list twice is chosen twice. -/
example : (Bags.ofCandidates [[0, 0], [1]] 2).rest.1.map (·.assignment) = [[0, 1], [0, 1]] := by
  decide

end Bags

end ShapeTyping
