import Mathlib
import ShapeTyping.Proofs.Reachability.BackEdge

/-!
# Classes of mutually reachable nodes

A search leaves the nodes that its work reaches. Where an edge leads from a node to one that is
left later, the later one reaches everything left between them, so the classes of mutually
reachable nodes, collected from the end, come after the classes that they have edges to.

* `Leaves`, `postorder_spec`: what a search leaves, whatever its pool and its work.
* `mem_reachable`: a search from one node leaves the nodes it reaches.
* `components_cover`, `mem_component`: the classes of mutual reachability.
* `components_pairwise`: no edge leads from a class to one listed after it.
* `components_disjoint`: no node is in two classes.
-/

namespace ShapeTyping

open Relation

variable {α : Type} {succ : α → List α}

/-- Whether a walk leads from a node to another. -/
def Reaches (succ : α → List α) : α → α → Prop := ReflTransGen fun a b => b ∈ succ a

theorem Reaches.refl (a : α) : Reaches succ a a := ReflTransGen.refl

theorem Reaches.trans {a b c : α} (h : Reaches succ a b) (h' : Reaches succ b c) :
    Reaches succ a c := ReflTransGen.trans h h'

theorem Reaches.head {a b c : α} (h : b ∈ succ a) (h' : Reaches succ b c) : Reaches succ a c :=
  ReflTransGen.head h h'

theorem Reaches.tail {a b c : α} (h : Reaches succ a b) (h' : c ∈ succ b) : Reaches succ a c :=
  ReflTransGen.tail h h'

/-- A walk out of a set has an edge out of it. -/
theorem Reaches.exists_edge_out {a b : α} (h : Reaches succ a b) {P : α → Prop} (ha : P a)
    (hb : ¬ P b) : ∃ u v, Reaches succ a u ∧ P u ∧ v ∈ succ u ∧ ¬ P v ∧ Reaches succ v b := by
  induction h with
  | refl => exact absurd ha hb
  | @tail u v hu huv ih =>
    by_cases hPu : P u
    · exact ⟨u, v, hu, hPu, huv, hb, .refl v⟩
    · obtain ⟨x, y, hx, hPx, hxy, hPy, hy⟩ := ih hPu
      exact ⟨x, y, hx, hPx, hxy, hPy, hy.tail huv⟩

/-- Nodes that a walk does not leave. -/
def Closed (succ : α → List α) (nodes : List α) : Prop := ∀ a ∈ nodes, ∀ b ∈ succ a, b ∈ nodes

theorem Closed.mem {nodes : List α} (hc : Closed succ nodes) {a b : α} (ha : a ∈ nodes)
    (h : Reaches succ a b) : b ∈ nodes := by
  induction h with
  | refl => exact ha
  | tail _ hb ih => exact hc _ ih _ hb

/-- Where an edge leads to a later member of a list, that member reaches everything from the
beginning of the edge on. -/
def ForwardEdgesReachBack (succ : α → List α) (xs : List α) : Prop :=
  ∀ pre u mid v post, xs = (pre ++ u :: mid) ++ v :: post → v ∈ succ u →
    ∀ x ∈ u :: mid, Reaches succ v x

theorem mem_of_concat_eq {pre p q : List α} {a u : α} (h : pre ++ [a] = p ++ u :: q) :
    a ∈ u :: q := by
  have hl : (p ++ u :: q).getLast? = some a := by rw [← h, List.getLast?_concat]
  rw [List.getLast?_append_of_ne_nil _ (by simp)] at hl
  exact List.mem_of_getLast? hl

/-- Two lists and a node between them keep the property, if the node reaches the first list and
no other edge leads to a later part. -/
theorem ForwardEdgesReachBack.append_cons {xs ys : List α} {a : α}
    (hx : ForwardEdgesReachBack succ xs) (hy : ForwardEdgesReachBack succ ys)
    (ha : ∀ x ∈ xs, Reaches succ a x) (hxy : ∀ u ∈ xs, ∀ v ∈ succ u, v ∉ ys)
    (hay : ∀ v ∈ succ a, v ∉ ys) : ForwardEdgesReachBack succ (xs ++ a :: ys) := by
  intro pre u mid v post h huv x hxm
  rcases append_cons_cases h with ⟨mid', hxs⟩ | ⟨rfl, hxs⟩ | ⟨mid', hpre, hys⟩
  · -- the whole edge lies in the first list
    exact hx pre u mid v mid' hxs huv x hxm
  · -- the edge ends at the node between
    apply ha
    rw [← hxs]
    exact List.mem_append_right _ hxm
  · have hv : v ∈ ys := by simp [hys]
    rcases append_cons_cases hpre.symm with ⟨mid'', hxs⟩ | ⟨rfl, -⟩ | ⟨mid'', rfl, hmid⟩
    · exact absurd hv (hxy u (by simp [hxs]) v huv)
    · exact absurd hv (hay v huv)
    · refine hy mid'' u mid v post ?_ huv x hxm
      rw [hys, hmid]

/-- What a search leaves: nodes of its pool, each once, among them the work and the successors of
what it leaves, only nodes that the work reaches, and in an order in which forward edges reach
back. -/
structure Leaves (succ : α → List α) (pool work xs : List α) : Prop where
  reached : ∀ x ∈ xs, x ∈ pool ∧ ∃ w ∈ work, Reaches succ w x
  nodup : xs.Nodup
  finished : ∀ w ∈ work, w ∈ pool → w ∈ xs
  successors : ∀ u ∈ xs, ∀ v ∈ succ u, v ∈ pool → v ∈ xs
  forward : ForwardEdgesReachBack succ xs

namespace Leaves

variable {pool rest below later xs : List α} {a : α}

theorem nil : Leaves succ pool [] [] :=
  ⟨by simp, by simp, by simp, by simp, fun pre u mid v post h => by simp at h⟩

/-- A search does not enter what is not in its pool. -/
theorem skip (ha : a ∉ pool) (h : Leaves succ pool rest xs) : Leaves succ pool (a :: rest) xs := by
  refine ⟨?_, h.nodup, ?_, h.successors, h.forward⟩
  · intro x hx
    obtain ⟨hx, w, hw, hwx⟩ := h.reached x hx
    exact ⟨hx, w, List.mem_cons_of_mem _ hw, hwx⟩
  · intro w hw hwp
    rcases List.mem_cons.1 hw with rfl | hw
    · exact absurd hwp ha
    · exact h.finished w hw hwp

variable [DecidableEq α]

/-- A search that enters a node goes on with its successors, leaves it and does the rest. -/
theorem enter (hp : pool.Nodup) (ha : a ∈ pool)
    (hb : Leaves succ (pool.erase a) (succ a) below)
    (hl : Leaves succ ((pool.erase a).filter (· ∉ below)) rest later) :
    Leaves succ pool (a :: rest) (below ++ a :: later) := by
  have hab : a ∉ below := fun h => hp.not_mem_erase (hb.reached a h).1
  have hba : ∀ x ∈ below, Reaches succ a x := by
    intro x hx
    obtain ⟨-, w, hw, hwx⟩ := hb.reached x hx
    exact .head hw hwx
  have hlater : ∀ x ∈ later, x ∈ pool ∧ x ≠ a ∧ x ∉ below :=
    fun x hx => (mem_rest_iff hp).1 (hl.reached x hx).1
  have hseen : ∀ x ∈ pool, x ∈ below ∨ x = a ∨ x ∈ (pool.erase a).filter (· ∉ below) := by
    intro x hx
    rw [mem_rest_iff hp]
    tauto
  refine ⟨?_, nodup_append_cons hb.nodup hl.nodup hab fun x hx => (hlater x hx).2, ?_, ?_, ?_⟩
  · intro x hx
    rcases List.mem_append.1 hx with hx | hx
    · exact ⟨List.mem_of_mem_erase (hb.reached x hx).1, a, List.mem_cons_self, hba x hx⟩
    · rcases List.mem_cons.1 hx with rfl | hx
      · exact ⟨ha, x, List.mem_cons_self, .refl x⟩
      · obtain ⟨-, w, hw, hwx⟩ := hl.reached x hx
        exact ⟨(hlater x hx).1, w, List.mem_cons_of_mem _ hw, hwx⟩
  · intro w hw hwp
    rcases hseen w hwp with h | rfl | h
    · exact List.mem_append_left _ h
    · simp
    · rcases List.mem_cons.1 hw with rfl | hw
      · simp
      · simp [hl.finished w hw h]
  · intro u hu v hv hvp
    rcases hseen v hvp with h | rfl | h
    · exact List.mem_append_left _ h
    · simp
    · have hva : v ∈ pool.erase a := (List.mem_filter.1 h).1
      rcases List.mem_append.1 hu with hu | hu
      · exact List.mem_append_left _ (hb.successors u hu v hv hva)
      · rcases List.mem_cons.1 hu with rfl | hu
        · exact List.mem_append_left _ (hb.finished v hv hva)
        · simp [hl.successors u hu v hv h]
  · -- no edge leads from the node or from below it to a node that is left later
    have herase : ∀ v ∈ later, v ∈ pool.erase a := fun v hv =>
      (List.mem_erase_of_ne (hlater v hv).2.1).2 (hlater v hv).1
    apply hb.forward.append_cons hl.forward hba
    · intro u hu v hv hvl
      exact (hlater v hvl).2.2 (hb.successors u hu v hv (herase v hvl))
    · intro v hv hvl
      exact (hlater v hvl).2.2 (hb.finished v hv (herase v hvl))

end Leaves

variable [DecidableEq α]

/-- **A search** over any pool and work leaves what it should. -/
theorem postorder_spec (pool work : List α) (hp : pool.Nodup) :
    Leaves succ pool work (postorder succ pool work) := by
  induction pool, work using postorder.induct succ with
  | case1 pool =>
    rw [postorder]
    exact .nil
  | case2 pool a rest ha below ih1 ih2 =>
    rw [postorder]
    simp only [ha, dite_true]
    exact .enter hp ha (ih1 (hp.erase a)) (ih2 ((hp.erase a).filter _))
  | case3 pool a rest ha ih =>
    rw [postorder]
    simp only [ha, dite_false]
    exact .skip ha (ih hp)

variable {nodes : List α} (hn : nodes.Nodup) (hc : Closed succ nodes)
include hn hc

/-- **A search from one node** leaves the nodes it reaches. -/
theorem mem_reachable {a b : α} (ha : a ∈ nodes) :
    b ∈ reachable succ nodes a ↔ Reaches succ a b := by
  have hspec : Leaves succ nodes [a] (reachable succ nodes a) := postorder_spec nodes [a] hn
  constructor
  · intro hb
    obtain ⟨-, w, hw, hwb⟩ := hspec.reached b hb
    rwa [List.mem_singleton.1 hw] at hwb
  · intro h
    induction h with
    | refl => exact hspec.finished a List.mem_cons_self ha
    | @tail u v hu huv ih => exact hspec.successors u ih v huv (hc.mem ha (hu.tail huv))

theorem mem_componentOf {a b : α} (ha : a ∈ nodes) :
    b ∈ componentOf succ nodes a ↔ Reaches succ a b ∧ Reaches succ b a := by
  simp only [componentOf, List.mem_filter, Bool.and_eq_true, decide_eq_true_eq]
  constructor
  · rintro ⟨hb, hab, hba⟩
    exact ⟨(mem_reachable hn hc ha).1 hab, (mem_reachable hn hc hb).1 hba⟩
  · rintro ⟨hab, hba⟩
    have hb := hc.mem ha hab
    exact ⟨hb, (mem_reachable hn hc ha).2 hab, (mem_reachable hn hc hb).2 hba⟩

/-- A node of a postorder that reaches a later one is mutually reachable with a later one. -/
theorem exists_mutual_later {pre post : List α} {a r : α}
    (h : postorder succ nodes nodes = pre ++ a :: post) (ha : a ∉ post) (hr : r ∈ post)
    (har : Reaches succ a r) : ∃ v ∈ post, Reaches succ a v ∧ Reaches succ v a := by
  have hspec : Leaves succ nodes nodes (postorder succ nodes nodes) := postorder_spec nodes nodes hn
  have hnodes : ∀ x, x ∈ nodes → x ∈ pre ++ a :: post := by
    intro x hx
    rw [← h]
    exact hspec.finished x hx hx
  have han : a ∈ nodes := (hspec.reached a (by simp [h])).1
  -- the walk passes an edge over the node, and the end of that edge reaches back
  have hra : ¬ r ∉ post := fun h => h hr
  obtain ⟨u, v, hau, hu, huv, hv, -⟩ := har.exists_edge_out (P := (· ∉ post)) ha hra
  rw [not_not] at hv
  have hun : u ∈ pre ++ [a] := by
    have := hnodes u (hc.mem han hau)
    simp only [List.mem_append, List.mem_cons, List.not_mem_nil, or_false] at this ⊢
    tauto
  obtain ⟨p1, p2, hp⟩ := List.append_of_mem hun
  obtain ⟨q1, q2, hq⟩ := List.append_of_mem hv
  have hsplit : postorder succ nodes nodes = (p1 ++ u :: (p2 ++ q1)) ++ v :: q2 := by
    rw [h, ← List.singleton_append, ← List.append_assoc, hp, hq]
    simp
  have hap : a ∈ u :: (p2 ++ q1) := by
    rw [← List.cons_append]
    exact List.mem_append_left _ (mem_of_concat_eq hp)
  exact ⟨v, hv, hau.tail huv,
    hspec.forward p1 u (p2 ++ q1) v q2 hsplit huv a hap⟩

/-- What the classes collected from the end of a postorder are, when some of it is left. -/
theorem components_suffix (pre post : List α) (h : postorder succ nodes nodes = pre ++ post) :
    let classes := post.foldr
      (fun a later => if later.any (a ∈ ·) then later else componentOf succ nodes a :: later) []
    (∀ C ∈ classes, ∃ a ∈ post, C = componentOf succ nodes a) ∧
      (∀ a ∈ post, ∃ C ∈ classes, a ∈ C) ∧
      classes.Pairwise fun C D => ∀ c ∈ C, ∀ d ∈ succ c, d ∉ D := by
  have hspec : Leaves succ nodes nodes (postorder succ nodes nodes) := postorder_spec nodes nodes hn
  have hnodes : ∀ a, a ∈ pre ++ post ↔ a ∈ nodes := by
    intro a
    rw [← h]
    exact ⟨fun ha => (hspec.reached a ha).1, fun ha => hspec.finished a ha ha⟩
  induction post generalizing pre with
  | nil => simp
  | cons a post ih =>
    obtain ⟨ih1, ih2, ih3⟩ := ih (pre ++ [a]) (by simp [h]) (by simpa using hnodes)
    simp only [List.foldr_cons]
    set classes := post.foldr
      (fun a later => if later.any (a ∈ ·) then later else componentOf succ nodes a :: later) []
    have ha : a ∈ nodes := (hnodes a).1 (by simp)
    split
    · rename_i hany
      obtain ⟨C, hC, haC⟩ := List.any_eq_true.1 hany
      refine ⟨fun D hD => ?_, ?_, ih3⟩
      · obtain ⟨b, hb, hDb⟩ := ih1 D hD
        exact ⟨b, List.mem_cons_of_mem _ hb, hDb⟩
      · intro b hb
        rcases List.mem_cons.1 hb with rfl | hb
        · exact ⟨C, hC, by simpa using haC⟩
        · exact ih2 b hb
    · rename_i hany
      -- no member of the new class comes later
      have hlast : ∀ b ∈ post, ¬ (Reaches succ a b ∧ Reaches succ b a) := by
        rintro b hb ⟨hab, hba⟩
        obtain ⟨C, hC, hbC⟩ := ih2 b hb
        apply hany
        obtain ⟨r, hr, rfl⟩ := ih1 C hC
        have hrn : r ∈ nodes := (hnodes r).1 (by simp [hr])
        obtain ⟨hrb, hbr⟩ := (mem_componentOf hn hc hrn).1 hbC
        have har : a ∈ componentOf succ nodes r :=
          (mem_componentOf hn hc hrn).2 ⟨hrb.trans hba, hab.trans hbr⟩
        exact List.any_eq_true.2 ⟨_, hC, by simpa using har⟩
      refine ⟨?_, ?_, List.pairwise_cons.2 ⟨?_, ih3⟩⟩
      · intro D hD
        rcases List.mem_cons.1 hD with rfl | hD
        · exact ⟨a, List.mem_cons_self, rfl⟩
        · obtain ⟨b, hb, hDb⟩ := ih1 D hD
          exact ⟨b, List.mem_cons_of_mem _ hb, hDb⟩
      · intro b hb
        rcases List.mem_cons.1 hb with rfl | hb
        · exact ⟨_, List.mem_cons_self, (mem_componentOf hn hc ha).2 ⟨.refl b, .refl b⟩⟩
        · obtain ⟨C, hC, hbC⟩ := ih2 b hb
          exact ⟨C, List.mem_cons_of_mem _ hC, hbC⟩
      · intro D hD c hcC d hd hdD
        obtain ⟨r, hr, rfl⟩ := ih1 D hD
        have hrn : r ∈ nodes := (hnodes r).1 (by simp [hr])
        obtain ⟨hac, hca⟩ := (mem_componentOf hn hc ha).1 hcC
        obtain ⟨-, hdr⟩ := (mem_componentOf hn hc hrn).1 hdD
        have har : Reaches succ a r := (hac.tail hd).trans hdr
        have haa : a ∉ post := fun h => hlast a h ⟨.refl a, .refl a⟩
        obtain ⟨v, hv, hav, hva⟩ := exists_mutual_later hn hc h haa hr har
        exact hlast v hv ⟨hav, hva⟩

/-- **The classes cover the nodes.** -/
theorem components_cover {a : α} (ha : a ∈ nodes) : ∃ C ∈ components succ nodes, a ∈ C := by
  obtain ⟨-, h2, -⟩ := components_suffix hn hc [] _ rfl
  exact h2 a ((postorder_spec nodes nodes hn).finished a ha ha)

/-- **A class is what is mutually reachable** with any of its members. -/
theorem mem_component {C : List α} (hC : C ∈ components succ nodes) {a b : α} (ha : a ∈ C) :
    b ∈ C ↔ Reaches succ a b ∧ Reaches succ b a := by
  obtain ⟨h1, -, -⟩ := components_suffix hn hc [] _ rfl
  obtain ⟨r, hr, rfl⟩ := h1 C hC
  have hrn := ((postorder_spec nodes nodes hn).reached r hr).1
  obtain ⟨hra, har⟩ := (mem_componentOf hn hc hrn).1 ha
  rw [mem_componentOf hn hc hrn]
  constructor
  · rintro ⟨hrb, hbr⟩
    exact ⟨har.trans hrb, hbr.trans hra⟩
  · rintro ⟨hab, hba⟩
    exact ⟨hra.trans hab, hba.trans har⟩

theorem mem_of_mem_component {C : List α} (hC : C ∈ components succ nodes) {a : α} (ha : a ∈ C) :
    a ∈ nodes := by
  obtain ⟨h1, -, -⟩ := components_suffix hn hc [] _ rfl
  obtain ⟨r, hr, rfl⟩ := h1 C hC
  exact (List.mem_filter.1 ha).1

/-- **No edge leads from a class to a later one.** -/
theorem components_pairwise :
    (components succ nodes).Pairwise fun C D => ∀ c ∈ C, ∀ d ∈ succ c, d ∉ D := by
  obtain ⟨-, -, h3⟩ := components_suffix hn hc [] _ rfl
  exact h3

/-- **No node is in two classes.** -/
theorem components_disjoint :
    (components succ nodes).Pairwise fun C D => ∀ c ∈ C, c ∉ D := by
  -- by induction on what is left of the postorder, as the classes are collected
  suffices hsuffix : ∀ pre post, postorder succ nodes nodes = pre ++ post →
      (post.foldr (fun a later => if later.any (a ∈ ·) then later
        else componentOf succ nodes a :: later) []).Pairwise fun C D => ∀ c ∈ C, c ∉ D from
    hsuffix [] _ rfl
  have hpool : ∀ a ∈ postorder succ nodes nodes, a ∈ nodes := fun a ha =>
    ((postorder_spec nodes nodes hn).reached a ha).1
  intro pre post h
  induction post generalizing pre with
  | nil => exact .nil
  | cons a post ih =>
    have hrest : postorder succ nodes nodes = (pre ++ [a]) ++ post := by simp [h]
    obtain ⟨hclass, -, -⟩ := components_suffix hn hc (pre ++ [a]) post hrest
    rw [List.foldr_cons]
    split
    · exact ih _ hrest
    · rename_i hany
      refine List.pairwise_cons.2 ⟨fun D hD c hcC hcD => hany ?_, ih _ hrest⟩
      -- a class that shares a node with that of `a` has `a` itself
      obtain ⟨r, hr, rfl⟩ := hclass D hD
      have ha : a ∈ nodes := hpool a (by simp [h])
      have hrn : r ∈ nodes := hpool r (by simp [h, hr])
      obtain ⟨hac, hca⟩ := (mem_componentOf hn hc ha).1 hcC
      obtain ⟨hrc, hcr⟩ := (mem_componentOf hn hc hrn).1 hcD
      have har : a ∈ componentOf succ nodes r :=
        (mem_componentOf hn hc hrn).2 ⟨hrc.trans hca, hac.trans hcr⟩
      exact List.any_eq_true.2 ⟨_, hD, by simpa using har⟩

end ShapeTyping
