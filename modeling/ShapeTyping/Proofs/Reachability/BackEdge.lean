import Mathlib
import ShapeTyping.Reachability

/-!
# Searches for back edges

A search that finds no edge back to its path leaves every node after its successors, so there is no
cycle. One that finds such an edge has found a cycle.

* `SuccessorsFirst`: a list in which the successors of a node come before it.
* `LeavesInOrder`: what a search without a back edge leaves.
* `backEdge_spec`: it does so whatever its path and its pool.
* `successorsFirst_of_backEdge`: a search of all nodes lists each of them after its successors.
* `backEdge_error`: the edge that a search reports lies on a cycle.
* `SuccessorsFirst.wellFounded`: where successors come first every walk ends.
-/

namespace ShapeTyping

variable {α : Type} {succ : α → List α}

/-- Every successor of a member, apart from some nodes, comes before it. -/
def SuccessorsFirst (succ : α → List α) (apart : α → Prop) (xs : List α) : Prop :=
  ∀ pre a post, xs = pre ++ a :: post → ∀ b ∈ succ a, b ∈ pre ∨ apart b

/-- A node between two lists is at the seam or in one of them. -/
theorem append_cons_cases {xs ys pre post : List α} {a x : α}
    (h : xs ++ a :: ys = pre ++ x :: post) :
    (∃ mid, xs = pre ++ x :: mid) ∨ (x = a ∧ pre = xs) ∨
      ∃ mid, pre = xs ++ a :: mid ∧ ys = mid ++ x :: post := by
  rcases List.append_eq_append_iff.1 h with ⟨mid, rfl, hmid⟩ | ⟨mid, rfl, hmid⟩
  · cases mid with
    | nil =>
      obtain ⟨rfl, -⟩ := List.cons.inj hmid
      exact .inr (.inl ⟨rfl, by simp⟩)
    | cons m mid =>
      obtain ⟨rfl, rfl⟩ := List.cons.inj hmid
      exact .inr (.inr ⟨mid, rfl, rfl⟩)
  · cases mid with
    | nil =>
      obtain ⟨rfl, -⟩ := List.cons.inj hmid
      exact .inr (.inl ⟨rfl, by simp⟩)
    | cons m mid =>
      obtain ⟨rfl, rfl⟩ := List.cons.inj hmid
      exact .inl ⟨mid, rfl⟩

/-- The pool that is left for the rest of a search. -/
theorem mem_rest_iff [DecidableEq α] {pool below : List α} {a x : α} (hp : pool.Nodup) :
    x ∈ (pool.erase a).filter (· ∉ below) ↔ x ∈ pool ∧ x ≠ a ∧ x ∉ below := by
  rw [List.mem_filter, hp.mem_erase_iff]
  simp only [decide_eq_true_eq]
  tauto

/-- What is left below a node, the node and what is left later do not overlap. -/
theorem nodup_append_cons {below later : List α} {a : α} (hb : below.Nodup) (hl : later.Nodup)
    (ha : a ∉ below) (h : ∀ x ∈ later, x ≠ a ∧ x ∉ below) : (below ++ a :: later).Nodup := by
  refine List.nodup_append.2 ⟨hb, List.nodup_cons.2 ⟨fun hal => (h a hal).1 rfl, hl⟩, ?_⟩
  rintro x hx y hy rfl
  rcases List.mem_cons.1 hy with rfl | hy
  · exact ha hx
  · exact (h x hy).2 hx

/-- What a search without a back edge leaves: nodes of its pool, each once, all nodes of its work
that are in the pool, and no node before its successors. No work leads back to the path. -/
structure LeavesInOrder (succ : α → List α) (path pool work xs : List α) : Prop where
  entered : ∀ x ∈ xs, x ∈ pool
  nodup : xs.Nodup
  finished : ∀ w ∈ work, w ∈ xs ∨ w ∉ pool ∧ w ∉ path
  first : SuccessorsFirst succ (fun b => b ∉ pool ∧ b ∉ path) xs

namespace LeavesInOrder

variable {path pool rest below later xs : List α} {a : α}

theorem nil : LeavesInOrder succ path pool [] [] :=
  ⟨by simp, by simp, by simp, fun pre a post h => by simp at h⟩

/-- A search does not enter what is neither in its pool nor on its path. -/
theorem skip (ha : a ∉ pool) (hap : a ∉ path) (h : LeavesInOrder succ path pool rest xs) :
    LeavesInOrder succ path pool (a :: rest) xs := by
  refine ⟨h.entered, h.nodup, fun w hw => ?_, h.first⟩
  rcases List.mem_cons.1 hw with rfl | hw
  · exact .inr ⟨ha, hap⟩
  · exact h.finished w hw

variable [DecidableEq α]

/-- A search that enters a node goes on with its successors, leaves it and does the rest. -/
theorem enter (hp : pool.Nodup) (ha : a ∈ pool)
    (hb : LeavesInOrder succ (a :: path) (pool.erase a) (succ a) below)
    (hl : LeavesInOrder succ path ((pool.erase a).filter (· ∉ below)) rest later) :
    LeavesInOrder succ path pool (a :: rest) (below ++ a :: later) := by
  have hab : a ∉ below := fun h => hp.not_mem_erase (hb.entered a h)
  have hlater : ∀ x ∈ later, x ∈ pool ∧ x ≠ a ∧ x ∉ below :=
    fun x hx => (mem_rest_iff hp).1 (hl.entered x hx)
  -- a node that the rest of the search does not see is left before it or apart
  have hseen : ∀ w, w ∉ (pool.erase a).filter (· ∉ below) → w ∈ below ∨ w = a ∨ w ∉ pool := by
    intro w hw
    rw [mem_rest_iff hp] at hw
    tauto
  have hapart : ∀ b, b ∉ pool.erase a ∧ b ∉ a :: path → b ∉ pool ∧ b ∉ path := by
    rintro b ⟨h1, h2⟩
    obtain ⟨hba, hbp⟩ := by simpa using h2
    exact ⟨fun h => h1 ((List.mem_erase_of_ne hba).2 h), hbp⟩
  refine ⟨?_, nodup_append_cons hb.nodup hl.nodup hab fun x hx => (hlater x hx).2, ?_, ?_⟩
  · intro x hx
    rcases List.mem_append.1 hx with hx | hx
    · exact List.mem_of_mem_erase (hb.entered x hx)
    · rcases List.mem_cons.1 hx with rfl | hx
      · exact ha
      · exact (hlater x hx).1
  · intro w hw
    rcases List.mem_cons.1 hw with rfl | hw
    · simp
    · rcases hl.finished w hw with h | ⟨h1, h2⟩
      · simp [h]
      · rcases hseen w h1 with h | rfl | h <;> simp [*]
  · intro pre x post hx b hb'
    rcases append_cons_cases hx with ⟨mid, rfl⟩ | ⟨rfl, rfl⟩ | ⟨mid, rfl, rfl⟩
    · exact (hb.first pre x mid rfl b hb').imp_right (hapart b)
    · exact (hb.finished b hb').imp_right (hapart b)
    · rcases hl.first mid x post rfl b hb' with h | ⟨h1, h2⟩
      · simp [h]
      · rcases hseen b h1 with h | rfl | h <;> simp [*]

end LeavesInOrder

variable [DecidableEq α]

/-- **A search without a back edge** leaves every node after its successors. -/
theorem backEdge_spec {path pool work xs : List α} (hp : pool.Nodup)
    (h : backEdge succ path pool work = .ok xs) : LeavesInOrder succ path pool work xs := by
  induction path, pool, work using backEdge.induct succ generalizing xs with
  | case1 path pool =>
    rw [backEdge] at h
    cases h
    exact .nil
  | case2 path pool a rest ha edge he ih =>
    rw [backEdge] at h
    simp only [ha, dite_true, he, reduceCtorEq] at h
  | case3 path pool a rest ha below hb edge he ih1 ih2 =>
    rw [backEdge] at h
    simp only [ha, dite_true, hb, he, reduceCtorEq] at h
  | case4 path pool a rest ha below hb later hl ih1 ih2 =>
    rw [backEdge] at h
    simp only [ha, dite_true, hb, hl, Except.ok.injEq] at h
    subst h
    exact .enter hp ha (ih1 (hp.erase a) hb) (ih2 ((hp.erase a).filter _) hl)
  | case5 path pool a rest ha b hb =>
    rw [backEdge] at h
    simp [ha, hb] at h
  | case6 path pool a rest ha hb ih =>
    rw [backEdge] at h
    simp only [ha, dite_false, hb] at h
    have hap : a ∉ path := by
      intro hap
      cases path with
      | nil => simp at hap
      | cons c path => simp [hap] at hb
    exact .skip ha hap (ih hp h)

/-- **A search of all nodes without a back edge** lists each of them once, after its
successors. -/
theorem successorsFirst_of_backEdge {nodes xs : List α} (hn : nodes.Nodup)
    (h : backEdge succ [] nodes nodes = .ok xs) :
    xs.Nodup ∧ (∀ x, x ∈ xs ↔ x ∈ nodes) ∧ SuccessorsFirst succ (· ∉ nodes) xs := by
  have hspec := backEdge_spec hn h
  refine ⟨hspec.nodup, fun x => ⟨hspec.entered x, fun hx => ?_⟩, fun pre a post hx b hb => ?_⟩
  · exact (hspec.finished x hx).resolve_right fun h => h.1 hx
  · exact (hspec.first pre a post hx b hb).imp_right And.left

/-! ### Cycles and walks -/

/-- What a search keeps of its path: its work comes from the first node, which all others reach. -/
structure Entering (succ : α → List α) (path work : List α) : Prop where
  successor : ∀ c ∈ path.head?, ∀ w ∈ work, w ∈ succ c
  reaches : ∀ c ∈ path.head?, ∀ x ∈ path, Relation.ReflTransGen (fun x y => y ∈ succ x) x c

omit [DecidableEq α] in
theorem Entering.tail {path rest : List α} {a : α} (h : Entering succ path (a :: rest)) :
    Entering succ path rest :=
  ⟨fun c hc w hw => h.successor c hc w (List.mem_cons_of_mem a hw), h.reaches⟩

omit [DecidableEq α] in
/-- A node that is entered becomes the first one of the path. -/
theorem Entering.enter {path rest : List α} {a : α} (h : Entering succ path (a :: rest)) :
    Entering succ (a :: path) (succ a) := by
  refine ⟨?_, ?_⟩
  · rintro _ ⟨⟩ w hw
    exact hw
  · rintro _ ⟨⟩ x hx
    rcases List.mem_cons.1 hx with rfl | hx
    · exact .refl
    · cases path with
      | nil => cases hx
      | cons c path => exact (h.reaches c rfl x hx).tail (h.successor c rfl a List.mem_cons_self)

/-- **The edge that a search reports** lies on a cycle. -/
theorem backEdge_error {path pool work : List α} {a b : α} (hpath : Entering succ path work)
    (h : backEdge succ path pool work = .error (b, a)) :
    a ∈ succ b ∧ Relation.ReflTransGen (fun x y => y ∈ succ x) a b := by
  induction path, pool, work using backEdge.induct succ with
  | case1 path pool =>
    rw [backEdge] at h
    cases h
  | case2 path pool c rest hc edge he ih =>
    rw [backEdge] at h
    simp only [hc, dite_true, he, Except.error.injEq] at h
    exact ih hpath.enter (h ▸ he)
  | case3 path pool c rest hc below hb edge he ih1 ih2 =>
    rw [backEdge] at h
    simp only [hc, dite_true, hb, he, Except.error.injEq] at h
    exact ih2 hpath.tail (h ▸ he)
  | case4 path pool c rest hc below hb later hl ih1 ih2 =>
    rw [backEdge] at h
    simp only [hc, dite_true, hb, hl, reduceCtorEq] at h
  | case5 path pool c rest hc top htop =>
    rw [backEdge] at h
    simp only [hc, dite_false, htop, Except.error.injEq, Prod.mk.injEq] at h
    obtain ⟨rfl, rfl⟩ := h
    obtain ⟨hhead, hon⟩ := Option.filter_eq_some_iff.1 htop
    exact ⟨hpath.successor top hhead c List.mem_cons_self,
      hpath.reaches top hhead c (by simpa using hon)⟩
  | case6 path pool c rest hc hb ih =>
    rw [backEdge] at h
    simp only [hc, dite_false, hb] at h
    exact ih hpath.tail h

omit [DecidableEq α] in
/-- **Where all successors come first every walk ends**, if only members have successors. -/
theorem SuccessorsFirst.wellFounded {xs : List α} (hfirst : SuccessorsFirst succ (· ∉ xs) xs)
    (hsource : ∀ a b, b ∈ succ a → a ∈ xs) : WellFounded fun b a => b ∈ succ a := by
  have hout : ∀ a, a ∉ xs → Acc (fun b a => b ∈ succ a) a := fun a ha =>
    ⟨a, fun b hb => absurd (hsource a b hb) ha⟩
  -- a successor of a member is a member that comes earlier, or no member
  have hin : ∀ n pre a post, xs = pre ++ a :: post → pre.length < n →
      Acc (fun b a => b ∈ succ a) a := by
    intro n
    induction n with
    | zero =>
      intro pre a post _ hn
      omega
    | succ n ih =>
      intro pre a post hx hn
      refine ⟨a, fun b hb => ?_⟩
      rcases hfirst pre a post hx b hb with hpre | hb
      · obtain ⟨pre', mid, rfl⟩ := List.append_of_mem hpre
        rw [List.length_append, List.length_cons] at hn
        exact ih pre' b (mid ++ a :: post) (by simpa using hx) (by omega)
      · exact hout b hb
  refine ⟨fun a => ?_⟩
  by_cases ha : a ∈ xs
  · obtain ⟨pre, post, hx⟩ := List.append_of_mem ha
    exact hin _ pre a post hx (Nat.lt_succ_self _)
  · exact hout a ha

end ShapeTyping
