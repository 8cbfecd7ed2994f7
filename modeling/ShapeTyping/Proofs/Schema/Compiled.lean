import Mathlib
import ShapeTyping.Proofs.Schema.NormalForm

/-!
# Compiled expressions

The tree of a compiled expression has the index of each of its constraints once, so the exactness
of the evaluation applies to it, and its language is that of the expression.

* `BagExpr.leaves_ofTripleExpr`, `BagExpr.cards_ofTripleExpr`: the indices and cardinalities of a
  tree.
* `Schema.singleOccurrence_of_compile`: the tree of a compiled expression has each index once.
* `Schema.mem_language_of_accepts`, `Schema.exists_accepts_of_mem_language`: a compiled expression
  accepts assignments of the bags in the language of the expression, and of no others.
-/

namespace ShapeTyping

/-- The predicates of one direction are those of its constraints. -/
theorem mem_predicatesOf {cs : List TripleConstraint} {inverse : Bool} {p : Iri} :
    p ∈ predicatesOf cs inverse ↔ ∃ c ∈ cs, c.inverse = inverse ∧ c.predicate = p := by
  simp [predicatesOf, and_assoc]

/-! ### Cardinalities of an unfolded expression -/

namespace TripleExpr

theorem cardsOfList_valid {es : List TripleExpr} (h : ∀ e ∈ es, ∀ c ∈ e.cards, c.Valid) :
    ∀ c ∈ cardsOfList es, c.Valid := by
  induction es with
  | nil => simp [cardsOfList]
  | cons e es ih =>
    intro c hc
    rcases List.mem_append.1 hc with hc | hc
    · exact h e List.mem_cons_self c hc
    · exact ih (fun e he => h e (List.mem_cons_of_mem _ he)) c hc

/-- The copies made of a group have valid cardinalities if the group does under each. -/
theorem cards_unfoldGroup {group : TripleExpr} {card : Cardinality} (hcard : card.Valid)
    (h : ∀ c ∈ group.cards, c.Valid)
    (hg : ∀ card : Cardinality, card.Valid → ∀ c ∈ (group.withCard card).cards, c.Valid) :
    ∀ c ∈ (unfoldGroup group card).cards, c.Valid := by
  unfold unfoldGroup
  split
  · exact hg card hcard
  split
  · simp [cards]
  rw [cards]
  refine List.forall_mem_cons.2 ⟨by decide, cardsOfList_valid fun e he => ?_⟩
  -- each copy is the group itself, the optional group or the repeatable one
  split at he
  · rcases List.mem_append.1 he with he | he
    · rw [List.eq_of_mem_replicate he]
      exact h
    · rw [List.eq_of_mem_replicate he]
      exact hg _ (by decide)
  · rcases List.mem_append.1 he with he | he
    · rw [List.eq_of_mem_replicate he]
      exact h
    · rw [List.mem_singleton.1 he]
      exact hg _ (by decide)

mutual
/-- Unfolding keeps cardinalities valid. -/
theorem cards_unfold : (e : TripleExpr) → (∀ c ∈ e.cards, c.Valid) → ∀ c ∈ e.unfold.cards, c.Valid
  | constraint c, h => h
  | eachOf es card, h => by
    obtain ⟨hcard, hes⟩ := List.forall_mem_cons.1 h
    have hlist := cardsOfList_unfoldList es hes
    rw [unfold]
    exact cards_unfoldGroup hcard (List.forall_mem_cons.2 ⟨by decide, hlist⟩)
      fun c hc => List.forall_mem_cons.2 ⟨hc, hlist⟩
  | oneOf es card, h => by
    obtain ⟨hcard, hes⟩ := List.forall_mem_cons.1 h
    have hlist := cardsOfList_unfoldList es hes
    rw [unfold]
    exact cards_unfoldGroup hcard (List.forall_mem_cons.2 ⟨by decide, hlist⟩)
      fun c hc => List.forall_mem_cons.2 ⟨hc, hlist⟩
  | ref _, h => h
  | empty, h => h

theorem cardsOfList_unfoldList : (es : List TripleExpr) → (∀ c ∈ cardsOfList es, c.Valid) →
    ∀ c ∈ cardsOfList (unfoldList es), c.Valid
  | [], h => h
  | e :: es, h => by
    intro c hc
    rcases List.mem_append.1 hc with hc | hc
    · exact cards_unfold e (fun c hc => h c (List.mem_append_left _ hc)) c hc
    · exact cardsOfList_unfoldList es (fun c hc => h c (List.mem_append_right _ hc)) c hc
end

end TripleExpr

/-! ### The tree of an expression -/

namespace BagExpr

theorem leaves_withCard (e : BagExpr) (card : Cardinality) : (e.withCard card).leaves = e.leaves := by
  unfold withCard
  split <;> rfl

theorem cards_withCard {e : BagExpr} {card : Cardinality} (hc : card.Valid)
    (he : ∀ c ∈ e.cards, c.Valid) : ∀ c ∈ (e.withCard card).cards, c.Valid := by
  unfold withCard
  split
  · exact he
  · exact List.forall_mem_cons.2 ⟨hc, he⟩

mutual
/-- **The indices of a tree** are those of the constraints of the expression, left to right. -/
theorem leaves_ofTripleExpr : (k : ℕ) → (e : TripleExpr) →
    (ofTripleExpr k e).leaves = List.range' k e.constraints.length
  | k, .constraint c => by
    rw [ofTripleExpr, leaves_withCard]
    rfl
  | k, .eachOf es card => by
    rw [ofTripleExpr, leaves_withCard, leaves, leavesOfList_ofTripleExprs k es,
      TripleExpr.constraints]
  | k, .oneOf es card => by
    rw [ofTripleExpr, leaves_withCard, leaves, leavesOfList_ofTripleExprs k es,
      TripleExpr.constraints]
  | k, .ref _ => rfl
  | k, .empty => rfl

theorem leavesOfList_ofTripleExprs : (k : ℕ) → (es : List TripleExpr) →
    leavesOfList (ofTripleExprs k es) = List.range' k (TripleExpr.constraintsOfList es).length
  | k, [] => rfl
  | k, e :: es => by
    rw [ofTripleExprs, leavesOfList, leaves_ofTripleExpr k e, leavesOfList_ofTripleExprs _ es,
      TripleExpr.constraintsOfList, List.length_append, List.range'_append_1]
end

mutual
theorem cards_ofTripleExpr : (k : ℕ) → (e : TripleExpr) → (∀ c ∈ e.cards, c.Valid) →
    ∀ c ∈ (ofTripleExpr k e).cards, c.Valid
  | k, .constraint c, h => by
    rw [ofTripleExpr]
    exact cards_withCard (h c.card (by simp [TripleExpr.cards])) (by simp [cards])
  | k, .eachOf es card, h => by
    obtain ⟨hcard, hes⟩ := List.forall_mem_cons.1 h
    rw [ofTripleExpr]
    exact cards_withCard hcard (cardsOfList_ofTripleExprs k es hes)
  | k, .oneOf es card, h => by
    obtain ⟨hcard, hes⟩ := List.forall_mem_cons.1 h
    rw [ofTripleExpr]
    exact cards_withCard hcard (cardsOfList_ofTripleExprs k es hes)
  | k, .ref _, _ => by simp [ofTripleExpr, cards]
  | k, .empty, _ => by simp [ofTripleExpr, cards]

theorem cardsOfList_ofTripleExprs : (k : ℕ) → (es : List TripleExpr) →
    (∀ c ∈ TripleExpr.cardsOfList es, c.Valid) → ∀ c ∈ cardsOfList (ofTripleExprs k es), c.Valid
  | k, [], _ => by simp [ofTripleExprs, cardsOfList]
  | k, e :: es, h => by
    intro c hc
    rcases List.mem_append.1 hc with hc | hc
    · exact cards_ofTripleExpr k e (fun c hc => h c (List.mem_append_left _ hc)) c hc
    · exact cardsOfList_ofTripleExprs _ es (fun c hc => h c (List.mem_append_right _ hc)) c hc
end

end BagExpr

/-! ### Compiled expressions of a schema -/

/-- A bag that is mapped to a list comes from a list that is. -/
theorem exists_list_of_map_eq {α β : Type} {f : α → β} {m : Multiset α} {l : List β}
    (h : m.map f = l) : ∃ k : List α, (k : Multiset α) = m ∧ k.map f = l := by
  induction l generalizing m with
  | nil =>
    refine ⟨[], ?_, rfl⟩
    symm
    simpa using h
  | cons b l ih =>
    classical
    obtain ⟨a, ha, hab, hm⟩ := (Multiset.map_eq_cons f m l b).2 h
    obtain ⟨k, hk, hkl⟩ := ih hm
    refine ⟨a :: k, ?_, ?_⟩
    · rw [← Multiset.cons_coe, hk, Multiset.cons_erase ha]
    · rw [List.map_cons, hab, hkl]

section Compiled

variable {s : Schema} {e : TripleExpr} {c : Compiled} (hc : s.compile e = .ok c)
  (hv : s.CardsValid e)
include hc hv

/-- **The tree of a compiled expression** has the index of each of its constraints once. -/
theorem Schema.singleOccurrence_of_compile :
    c.root.SingleOccurrence ∧ c.root.leaves = List.range c.constraints.length := by
  obtain ⟨x, hx, rfl⟩ := Except.map_eq_ok hc
  have hleaves : x.compile.root.leaves = List.range x.compile.constraints.length := by
    rw [List.range_eq_range']
    exact BagExpr.leaves_ofTripleExpr 0 x.unfold
  refine ⟨⟨hleaves ▸ List.nodup_range, ?_⟩, hleaves⟩
  exact BagExpr.cards_ofTripleExpr 0 x.unfold (TripleExpr.cards_unfold x (hv x hx))

/-- **Acceptance of an assignment.** A compiled expression accepts an assignment of indices to at
most as many edges as a word can count if the bag of the constraints assigned is in the language
of the expression. -/
theorem Schema.mem_language_of_accepts {is : List ℕ} {cs : List TripleConstraint}
    (his : is.map (c.constraints[·]?) = cs.map some) (hw : is.length ≤ maxWord)
    (h : c.root.accepts ⟨is, c.constraints.length⟩ = true) :
    (cs : Multiset TripleConstraint) ∈ s.language e := by
  obtain ⟨hone, hleaves⟩ := s.singleOccurrence_of_compile hc hv
  have hlt : ∀ i ∈ is, i < c.constraints.length := by
    intro i hi
    have hmem : c.constraints[i]? ∈ cs.map some := his ▸ List.mem_map_of_mem hi
    obtain ⟨t, -, ht⟩ := List.mem_map.1 hmem
    exact (List.getElem?_eq_some_iff.1 ht.symm).1
  rw [hone.accepts_iff hw, BagExpr.share_eq_self fun i hi => ⟨hlt i hi, by
    rw [hleaves, List.mem_range]
    exact hlt i hi⟩] at h
  rw [Schema.mem_language_iff_root hc hv]
  refine ⟨_, h, ?_⟩
  rw [Multiset.map_coe, Multiset.map_coe, his]

/-- A bag of the language is that of an assignment of indices that is accepted. -/
theorem Schema.exists_accepts_of_mem_language {cs : List TripleConstraint}
    (hw : cs.length ≤ maxWord) (h : (cs : Multiset TripleConstraint) ∈ s.language e) :
    ∃ is : List ℕ, is.map (c.constraints[·]?) = cs.map some ∧
      c.root.accepts ⟨is, c.constraints.length⟩ = true := by
  obtain ⟨hone, hleaves⟩ := s.singleOccurrence_of_compile hc hv
  rw [Schema.mem_language_iff_root hc hv] at h
  obtain ⟨m, hm, hmap⟩ := h
  rw [Multiset.map_coe] at hmap
  obtain ⟨is, rfl, his⟩ := exists_list_of_map_eq hmap
  have hover := BagExpr.language_over c.root _ hm
  have hlen : is.length = cs.length := by simpa using congrArg List.length his
  refine ⟨is, his, ?_⟩
  rw [hone.accepts_iff (hlen.trans_le hw), BagExpr.share_eq_self fun i hi => ⟨by
    have := hover i hi
    rwa [hleaves, List.mem_range] at this, hover i hi⟩]
  exact hm

end Compiled

end ShapeTyping
