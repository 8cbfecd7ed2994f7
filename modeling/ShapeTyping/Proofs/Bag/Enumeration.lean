import Mathlib
import ShapeTyping.Proofs.Limits
import ShapeTyping.Validation.Run

/-!
# Enumeration of bags

An enumeration goes through all choices of one candidate from each list, in lexicographic order,
and a search among bags looks at each of them until one is accepted.

* `choices`: all choices of one candidate from each list.
* `Bags.next?_eq_none_iff`, `Bags.left_of_next?`: an enumeration as the list of what is left of it.
* `Bags.left_ofCandidates`, `Bags.number_ofCandidates`: a new one has all choices left.
* `Bags.take_eq`: the bags that come first.
* `choices_pairwise_lt`: the order of choices.
* `searchLeft`, `searchBags_eq`: what a search ends with, from the list of choices.
* `searchBags_found`, `searchBags_notFound`: what the choices are where it ends.
* `searchBags_found_least`: the bag that is found is the first one.
* `searchBags_mono`: a search that ends within its cap.
* `searchBags_capped`: how a search ends, with a cap and without.
-/

namespace ShapeTyping

/-! ### Choices -/

/-- All choices of one candidate from each list, the choice for the last list varying fastest. -/
def choices : List (List ℕ) → List (List ℕ)
  | [] => [[]]
  | c :: cs => c.flatMap fun x => (choices cs).map (x :: ·)

theorem mem_choices {cs : List (List ℕ)} {a : List ℕ} :
    a ∈ choices cs ↔ List.Forall₂ (fun x c => x ∈ c) a cs := by
  induction cs generalizing a with
  | nil => simp [choices]
  | cons c cs ih =>
    simp only [choices, List.mem_flatMap, List.mem_map]
    constructor
    · rintro ⟨x, hx, b, hb, rfl⟩
      exact .cons hx (ih.1 hb)
    · rintro (_ | ⟨hx, hb⟩)
      exact ⟨_, hx, _, ih.2 hb, rfl⟩

/-- Choices from lists of candidates for the elements of a list. -/
theorem mem_choices_map {α : Type} {candidates : α → List ℕ} {R : ℕ → α → Prop} {xs : List α}
    (h : ∀ x ∈ xs, ∀ i, i ∈ candidates x ↔ R i x) {a : List ℕ} :
    a ∈ choices (xs.map candidates) ↔ List.Forall₂ R a xs := by
  rw [mem_choices, List.forall₂_map_right_iff]
  induction xs generalizing a with
  | nil => rw [List.forall₂_nil_right_iff, List.forall₂_nil_right_iff]
  | cons x xs ih =>
    rw [List.forall₂_cons_right_iff, List.forall₂_cons_right_iff]
    simp only [h x List.mem_cons_self, ih fun x hx => h x (List.mem_cons_of_mem _ hx)]

theorem length_choices_cons (c : List ℕ) (cs : List (List ℕ)) :
    (choices (c :: cs)).length = c.length * (choices cs).length := by
  rw [choices, List.length_flatMap]
  simp

/-- There is no choice from an empty list. -/
theorem choices_of_nil_mem {cs : List (List ℕ)} (h : [] ∈ cs) : choices cs = [] := by
  induction cs with
  | nil => cases h
  | cons c cs ih =>
    rw [choices]
    rcases List.mem_cons.1 h with rfl | h
    · rfl
    · simp [ih h]

/-- **Choices in lexicographic order**: if each list of candidates is increasing, so are they. -/
theorem choices_pairwise_lt {cs : List (List ℕ)} (h : ∀ c ∈ cs, c.Pairwise (· < ·)) :
    (choices cs).Pairwise (· < ·) := by
  induction cs with
  | nil => exact List.pairwise_singleton _ _
  | cons c cs ih =>
    have hrest := ih fun c hc => h c (List.mem_cons_of_mem _ hc)
    rw [choices, List.pairwise_flatMap]
    refine ⟨fun x _ => ?_, (h c List.mem_cons_self).imp fun hxy a ha b hb => ?_⟩
    · exact List.pairwise_map.2 (hrest.imp fun hab => List.cons_lt_cons_iff.2 (.inr ⟨rfl, hab⟩))
    · obtain ⟨a, -, rfl⟩ := List.mem_map.1 ha
      obtain ⟨b, -, rfl⟩ := List.mem_map.1 hb
      exact List.cons_lt_cons_iff.2 (.inl hxy)

/-- The choices from a position on: `rs` holds what is left of each list. -/
def choicesFrom : List (List ℕ) → List (List ℕ) → List (List ℕ)
  | _ :: cs, (x :: xs) :: rs =>
    (choicesFrom cs rs).map (x :: ·) ++ xs.flatMap fun y => (choices cs).map (y :: ·)
  | _, _ => [[]]

/-- What is left of each list is as many lists, none of them empty. -/
def Position (cs rs : List (List ℕ)) : Prop :=
  List.Forall₂ (fun c r => c ≠ [] ∧ r ≠ []) cs rs

theorem position_self {cs : List (List ℕ)} (h : ∀ c ∈ cs, c ≠ []) : Position cs cs := by
  induction cs with
  | nil => exact .nil
  | cons c cs ih =>
    have hc := h c List.mem_cons_self
    exact .cons ⟨hc, hc⟩ (ih fun c hc => h c (List.mem_cons_of_mem _ hc))

theorem choicesFrom_self {cs : List (List ℕ)} (h : ∀ c ∈ cs, c ≠ []) :
    choicesFrom cs cs = choices cs := by
  induction cs with
  | nil => rfl
  | cons c cs ih =>
    cases c with
    | nil => exact absurd rfl (h [] List.mem_cons_self)
    | cons x xs =>
      rw [choicesFrom, choices, ih fun c hc => h c (List.mem_cons_of_mem _ hc), List.flatMap_cons]

theorem Position.ne_nil {cs rs : List (List ℕ)} (h : Position cs rs) : ∀ c ∈ cs, c ≠ [] := by
  induction h with
  | nil => simp
  | cons hcr _ ih => exact List.forall_mem_cons.2 ⟨hcr.1, ih⟩

/-- **The next position** is the one after the first choice of the present one. -/
theorem choicesFrom_eq {cs rs : List (List ℕ)} (h : Position cs rs) :
    (choicesFrom cs rs = rs.filterMap List.head? ::
      match Bags.advance cs rs with
      | none => []
      | some rs' => choicesFrom cs rs') ∧ ∀ rs', Bags.advance cs rs = some rs' → Position cs rs' := by
  induction h with
  | nil => exact ⟨rfl, by simp [Bags.advance]⟩
  | @cons c r cs rs hcr hrest ih =>
    obtain ⟨hc, hr⟩ := hcr
    obtain ⟨x, xs, rfl⟩ := List.exists_cons_of_ne_nil hr
    obtain ⟨ih1, ih2⟩ := ih
    rw [choicesFrom, ih1, Bags.advance]
    cases hadv : Bags.advance cs rs with
    -- the lists after this one go on, so its own choice stays
    | some rs' =>
      refine ⟨by simp [choicesFrom], ?_⟩
      rintro _ ⟨⟩
      exact .cons ⟨hc, hr⟩ (ih2 rs' hadv)
    -- they are through: this list goes on, and they start again
    | none =>
      cases xs with
      | nil => simp
      | cons y ys =>
        have hne := Position.ne_nil hrest
        refine ⟨by simp [choicesFrom, choicesFrom_self hne], ?_⟩
        rintro _ ⟨⟩
        exact .cons ⟨hc, by simp⟩ (position_self hne)

/-! ### Enumerations -/

namespace Bags

variable {b b' : Bags} {bag : Bag}

/-- Whether an enumeration stands at a position of its candidates, if it stands anywhere. -/
def Ready (b : Bags) : Prop := ∀ rs, b.current = some rs → Position b.candidates rs

/-- The assignments that are left. -/
def left (b : Bags) : List (List ℕ) :=
  match b.current with
  | none => []
  | some rs => choicesFrom b.candidates rs

theorem next?_eq_none_iff (h : b.Ready) : b.next? = none ↔ b.left = [] := by
  unfold next? left
  cases hc : b.current with
  | none => simp
  | some rs => simp [(choicesFrom_eq (h rs hc)).1]

/-- **A bag that comes next** is the first one left, and the others are left after it. -/
theorem left_of_next? (h : b.Ready) (hn : b.next? = some (bag, b')) :
    b.left = bag.assignment :: b'.left ∧ bag.size = b.size ∧ b'.size = b.size ∧ b'.Ready := by
  unfold next? at hn
  cases hc : b.current with
  | none => simp [hc] at hn
  | some rs =>
    obtain ⟨h1, h2⟩ := choicesFrom_eq (h rs hc)
    simp only [hc, Option.map_some, Option.some.injEq, Prod.mk.injEq] at hn
    obtain ⟨rfl, rfl⟩ := hn
    refine ⟨?_, rfl, rfl, h2⟩
    rw [left, hc]
    exact h1

theorem ready_ofCandidates (cs : List (List ℕ)) (size : ℕ) : (ofCandidates cs size).Ready := by
  intro rs hrs
  simp only [ofCandidates, first] at hrs ⊢
  split at hrs
  · cases hrs
  · rename_i hany
    cases hrs
    apply position_self
    intro c hc hnil
    apply hany
    exact List.any_eq_true.2 ⟨c, hc, by simp [hnil]⟩

/-- **A new enumeration** has all choices left. -/
theorem left_ofCandidates (cs : List (List ℕ)) (size : ℕ) :
    (ofCandidates cs size).left = choices cs := by
  rw [left, ofCandidates, first]
  split
  · rename_i hany
    split at hany
    · rename_i hempty
      obtain ⟨c, hc, hnil⟩ := List.any_eq_true.1 hempty
      obtain rfl := List.isEmpty_iff.1 hnil
      exact (choices_of_nil_mem hc).symm
    · cases hany
  · rename_i rs hrs
    split at hrs
    · cases hrs
    · rename_i hempty
      cases hrs
      apply choicesFrom_self
      intro c hc hnil
      apply hempty
      exact List.any_eq_true.2 ⟨c, hc, by simp [hnil]⟩

theorem foldl_mul_length (cs : List (List ℕ)) (n : ℕ) :
    cs.foldl (fun n c => n * c.length) n = n * (choices cs).length := by
  induction cs generalizing n with
  | nil => simp [choices]
  | cons c cs ih => rw [List.foldl_cons, ih, length_choices_cons, mul_assoc]

theorem number_ofCandidates (cs : List (List ℕ)) (size : ℕ) :
    (ofCandidates cs size).number = (choices cs).length := by
  rw [number, ofCandidates, foldl_mul_length, one_mul]

/-- **The next bags**, at most a given number of them, are the first assignments left. -/
theorem take_eq (h : b.Ready) (n : ℕ) : (b.take n).1 = (b.left.take n).map (⟨·, b.size⟩) := by
  induction n generalizing b with
  | zero => rfl
  | succ n ih =>
    rw [take]
    cases hnext : b.next? with
    | none => rw [(next?_eq_none_iff h).1 hnext]; rfl
    | some next =>
      obtain ⟨⟨a, size⟩, rest⟩ := next
      obtain ⟨hleft, hsize, hsize', hready⟩ := left_of_next? h hnext
      simp only at hsize
      rw [hleft, List.take_succ_cons, List.map_cons, ← hsize', ← ih hready, hsize', ← hsize]

end Bags

/-! ### Searches -/

section Search

variable {max max' : Option ℕ} {root : BagExpr} {b : Bags} {n seen : ℕ} {bag : Bag}

/-- The assignments of a list that a search looks at when it has looked at `seen` bags before. -/
def withinCap (max : Option ℕ) (seen : ℕ) (as : List (List ℕ)) : List (List ℕ) :=
  match max with
  | none => as
  | some m => as.take (m - seen)

/-- What a search ends with when some assignments are left: the first one that is accepted, if it is
within the cap. Without it the cap is reached if there are more assignments. -/
def searchLeft (max : Option ℕ) (root : BagExpr) (size seen : ℕ) (as : List (List ℕ)) :
    SearchResult :=
  match (withinCap max seen as).find? fun a => root.accepts ⟨a, size⟩ with
  | some a => .found ⟨a, size⟩
  | none =>
    match max with
    | none => .notFound
    | some m => if m - seen < as.length then .tooMany m else .notFound

/-- Beyond the cap nothing is looked at. -/
theorem searchLeft_of_cap {m size : ℕ} (hcap : m < seen + 1) (a : List ℕ) (as : List (List ℕ)) :
    searchLeft (some m) root size seen (a :: as) = .tooMany m := by
  have hzero : m - seen = 0 := by omega
  simp [searchLeft, withinCap, hzero]

/-- Within the cap the first assignment is looked at before the others. -/
theorem searchLeft_cons {size : ℕ} (hcap : ∀ m ∈ max, seen + 1 ≤ m) (a : List ℕ)
    (as : List (List ℕ)) :
    searchLeft max root size seen (a :: as) =
      if root.accepts ⟨a, size⟩ then .found ⟨a, size⟩
      else searchLeft max root size (seen + 1) as := by
  cases max with
  | none => cases hacc : root.accepts ⟨a, size⟩ <;> simp [searchLeft, withinCap, hacc]
  | some m =>
    have hm : seen + 1 ≤ m := hcap m rfl
    have hroom : m - seen = m - (seen + 1) + 1 := by omega
    simp only [searchLeft, withinCap, hroom, List.take_succ_cons, List.length_cons,
      Nat.add_lt_add_iff_right, List.find?_cons]
    cases root.accepts ⟨a, size⟩ <;> simp

/-- **A search** looks at the assignments that are left in their order. -/
theorem searchFrom_eq (h : b.Ready) (hn : b.left.length < n) :
    searchFrom max root n seen b = searchLeft max root b.size seen b.left := by
  induction n generalizing seen b with
  | zero => omega
  | succ n ih =>
    rw [searchFrom]
    cases hnext : b.next? with
    | none =>
      rw [(Bags.next?_eq_none_iff h).1 hnext]
      cases max <;> simp [searchLeft, withinCap]
    | some next =>
      obtain ⟨bag, rest⟩ := next
      obtain ⟨hleft, hsize, hsize', hready⟩ := Bags.left_of_next? h hnext
      rw [hleft, List.length_cons] at hn
      rw [hleft]
      simp only
      cases hcap : max.filter (· < seen + 1) with
      | some m =>
        obtain ⟨rfl, hm⟩ := Option.filter_eq_some_iff.1 hcap
        rw [searchLeft_of_cap (by simpa using hm)]
      | none =>
        have hroom : ∀ m ∈ max, seen + 1 ≤ m := by simpa using hcap
        rw [searchLeft_cons hroom, ih hready (by omega), hsize', ← hsize]

theorem searchFrom_mono (hle : CapLE max max')
    (hs : ∀ m, searchFrom max root n seen b ≠ .tooMany m) :
    searchFrom max' root n seen b = searchFrom max root n seen b := by
  induction n generalizing seen b with
  | zero => rfl
  | succ n ih =>
    rw [searchFrom] at hs
    rw [searchFrom, searchFrom]
    cases hnext : b.next? with
    | none => rfl
    | some next =>
      simp only [hnext] at hs ⊢
      cases hcap : max.filter (· < seen + 1) with
      | some m => exact absurd (by rw [hcap]) (hs m)
      | none =>
        simp only [hcap, hle.filter_eq_none hcap] at hs ⊢
        split
        · rfl
        · rename_i hrej
          simp only [hrej, Bool.false_eq_true, if_false] at hs
          exact ih hs

variable {cs : List (List ℕ)} {size : ℕ}

/-- **A search among all choices** looks at them in lexicographic order. -/
theorem searchBags_eq : searchBags max root (.ofCandidates cs size) =
    searchLeft max root size 0 (choices cs) := by
  have hready := Bags.ready_ofCandidates cs size
  rw [searchBags, searchFrom_eq hready, Bags.left_ofCandidates]
  · rfl
  · rw [Bags.left_ofCandidates, Bags.number_ofCandidates]
    omega

/-- What is looked at comes first. -/
theorem withinCap_initial (max : Option ℕ) (seen : ℕ) (as : List (List ℕ)) :
    withinCap max seen as <+: as := by
  cases max with
  | none => exact List.prefix_refl as
  | some m => exact List.take_prefix _ as

section Ends

variable {as : List (List ℕ)}

/-- A bag is found if some assignment within the cap is accepted; it is the first one. -/
theorem searchLeft_eq_found : searchLeft max root size seen as = .found bag ↔
    (withinCap max seen as).find? (fun a => root.accepts ⟨a, size⟩) = some bag.assignment ∧
      bag.size = size := by
  obtain ⟨assignment, size'⟩ := bag
  unfold searchLeft
  cases (withinCap max seen as).find? fun a => root.accepts ⟨a, size⟩ with
  | some a => simp [eq_comm]
  | none =>
    cases max with
    | none => simp
    | some m => by_cases hmore : m - seen < as.length <;> simp [hmore]

/-- The cap is reached if no assignment within it is accepted and there are more. -/
theorem searchLeft_eq_tooMany {m : ℕ} : searchLeft max root size seen as = .tooMany m ↔
    (∀ a ∈ withinCap max seen as, root.accepts ⟨a, size⟩ = false) ∧
      max = some m ∧ m - seen < as.length := by
  unfold searchLeft
  cases hfind : (withinCap max seen as).find? fun a => root.accepts ⟨a, size⟩ with
  | some a =>
    have hmem := List.mem_of_find?_eq_some hfind
    have hacc : root.accepts ⟨a, size⟩ = true := by simpa using List.find?_some hfind
    refine iff_of_false (by simp) fun h => ?_
    rw [h.1 a hmem] at hacc
    cases hacc
  | none =>
    have hrej : ∀ a ∈ withinCap max seen as, root.accepts ⟨a, size⟩ = false := by
      simpa using hfind
    cases max with
    | none => simp
    | some k =>
      by_cases hmore : k - seen < as.length
      · simp only [hmore, if_true, SearchResult.tooMany.injEq, Option.some.injEq]
        exact ⟨fun hk => ⟨hrej, hk, hk ▸ hmore⟩, fun h => h.2.1⟩
      · simp only [hmore, if_false, reduceCtorEq, false_iff, Option.some.injEq]
        rintro ⟨-, rfl, hlt⟩
        exact hmore hlt

/-- Nothing is found if no assignment is accepted and all of them are within the cap. -/
theorem searchLeft_eq_notFound : searchLeft max root size seen as = .notFound ↔
    (∀ a ∈ as, root.accepts ⟨a, size⟩ = false) ∧ ∀ m ∈ max, as.length ≤ m - seen := by
  unfold searchLeft
  cases hfind : (withinCap max seen as).find? fun a => root.accepts ⟨a, size⟩ with
  | some a =>
    have hmem := (withinCap_initial max seen as).subset (List.mem_of_find?_eq_some hfind)
    have hacc : root.accepts ⟨a, size⟩ = true := by simpa using List.find?_some hfind
    refine iff_of_false (by simp) fun h => ?_
    rw [h.1 a hmem] at hacc
    cases hacc
  | none =>
    have hrej : ∀ a ∈ withinCap max seen as, root.accepts ⟨a, size⟩ = false := by
      simpa using hfind
    cases max with
    | none => simpa [withinCap] using hrej
    | some k =>
      by_cases hmore : k - seen < as.length
      · simp [hmore]
      · have hall : withinCap (some k) seen as = as := List.take_of_length_le (by omega)
        rw [hall] at hrej
        simp only [hmore, if_false, true_iff]
        exact ⟨hrej, fun m hm => by cases hm; omega⟩

end Ends

/-- **A bag that is found** is a choice that is accepted. -/
theorem searchBags_found (hs : searchBags max root (.ofCandidates cs size) = .found bag) :
    bag.assignment ∈ choices cs ∧ bag.size = size ∧ root.accepts bag = true := by
  rw [searchBags_eq, searchLeft_eq_found] at hs
  obtain ⟨hfind, rfl⟩ := hs
  have hmem := (withinCap_initial max 0 _).subset (List.mem_of_find?_eq_some hfind)
  exact ⟨hmem, rfl, by simpa using List.find?_some hfind⟩

/-- **The bag that is found** is the first choice that is accepted, in lexicographic order. -/
theorem searchBags_found_least (hcs : ∀ c ∈ cs, c.Pairwise (· < ·))
    (hs : searchBags max root (.ofCandidates cs size) = .found bag) :
    IsLeast {a | a ∈ choices cs ∧ root.accepts ⟨a, size⟩ = true} bag.assignment ∧
      bag.size = size := by
  rw [searchBags_eq, searchLeft_eq_found] at hs
  obtain ⟨hfind, hsize⟩ := hs
  obtain ⟨hacc, before, after, hwithin, hbefore⟩ := List.find?_eq_some_iff_append.1 hfind
  obtain ⟨more, hmore⟩ := withinCap_initial max 0 (choices cs)
  rw [hwithin, List.append_assoc, List.cons_append] at hmore
  have hlt := choices_pairwise_lt hcs
  rw [← hmore, List.pairwise_append, List.pairwise_cons] at hlt
  refine ⟨⟨⟨by simp [← hmore], hacc⟩, ?_⟩, hsize⟩
  rintro a ⟨ha, haccepts⟩
  rw [← hmore, List.mem_append, List.mem_cons] at ha
  rcases ha with ha | rfl | ha
  · have hrej := hbefore a ha
    simp [haccepts] at hrej
  · exact le_rfl
  · exact (hlt.2.1.1 a ha).le

/-- **If no bag is found**, no choice is accepted. -/
theorem searchBags_notFound (hs : searchBags max root (.ofCandidates cs size) = .notFound)
    {a : List ℕ} (ha : a ∈ choices cs) : root.accepts ⟨a, size⟩ = false := by
  rw [searchBags_eq, searchLeft_eq_notFound] at hs
  exact hs.1 a ha

/-- **A search that ends within its cap** ends the same way with a larger one. -/
theorem searchBags_mono (hle : CapLE max max') {bags : Bags}
    (hs : ∀ m, searchBags max root bags ≠ .tooMany m) :
    searchBags max' root bags = searchBags max root bags :=
  searchFrom_mono hle hs

/-- The bags that a cap leaves are those that come first. -/
theorem Bags.mem_take_ofCandidates {L : ℕ} :
    bag ∈ ((Bags.ofCandidates cs size).take L).1 ↔
      ∃ a ∈ (choices cs).take L, bag = ⟨a, size⟩ := by
  rw [Bags.take_eq (Bags.ready_ofCandidates cs size), Bags.left_ofCandidates, List.mem_map]
  simp only [eq_comm, Bags.ofCandidates]

/-- **Whether a bag is found**: some choice within the cap is accepted. -/
theorem searchBags_found_iff : (∃ b, searchBags max root (.ofCandidates cs size) = .found b) ↔
    ∃ a ∈ withinCap max 0 (choices cs), root.accepts ⟨a, size⟩ = true := by
  simp only [searchBags_eq, searchLeft_eq_found]
  constructor
  · rintro ⟨b, hfind, -⟩
    exact ⟨b.assignment, List.mem_of_find?_eq_some hfind, by simpa using List.find?_some hfind⟩
  · rintro ⟨a, ha, hacc⟩
    have hsome : ((withinCap max 0 (choices cs)).find? fun a => root.accepts ⟨a, size⟩).isSome := by
      rw [List.find?_isSome]
      exact ⟨a, ha, hacc⟩
    obtain ⟨a', ha'⟩ := Option.isSome_iff_exists.1 hsome
    exact ⟨⟨a', size⟩, ha', rfl⟩

/-- **The cap on bags is exact.** A search among all choices with a cap finds a bag if some bag
among the first ones, as many as the cap says, is accepted. If none of these is, it ends at the cap
if there are more bags, and otherwise without a bag. A search without a cap finds a bag if any
choice of one candidate from each list is accepted. -/
theorem searchBags_capped (root : BagExpr) (cs : List (List ℕ)) (size : ℕ) :
    let bags := Bags.ofCandidates cs size
    (∀ L : ℕ,
      ((∃ b, searchBags (some L) root bags = .found b) ↔
        ∃ b ∈ (bags.take L).1, root.accepts b = true) ∧
      (searchBags (some L) root bags = .tooMany L ↔
        (∀ b ∈ (bags.take L).1, root.accepts b = false) ∧ L < bags.number) ∧
      (searchBags (some L) root bags = .notFound ↔
        bags.number ≤ L ∧
          ∀ a, List.Forall₂ (fun i c => i ∈ c) a cs → root.accepts ⟨a, size⟩ = false)) ∧
    ((∃ b, searchBags none root bags = .found b) ↔
      ∃ a, List.Forall₂ (fun i c => i ∈ c) a cs ∧ root.accepts ⟨a, size⟩ = true) ∧
    (searchBags none root bags = .notFound ↔
      ∀ a, List.Forall₂ (fun i c => i ∈ c) a cs → root.accepts ⟨a, size⟩ = false) := by
  have htake : ∀ L, withinCap (some L) 0 (choices cs) = (choices cs).take L := fun L => rfl
  simp only [searchBags_found_iff, Bags.mem_take_ofCandidates, Bags.number_ofCandidates,
    ← mem_choices]
  refine ⟨fun L => ⟨?_, ?_, ?_⟩, Iff.rfl, ?_⟩
  · rw [htake]
    constructor
    · rintro ⟨a, ha, hacc⟩
      exact ⟨_, ⟨a, ha, rfl⟩, hacc⟩
    · rintro ⟨_, ⟨a, ha, rfl⟩, hacc⟩
      exact ⟨a, ha, hacc⟩
  · rw [searchBags_eq, searchLeft_eq_tooMany, htake]
    constructor
    · rintro ⟨hrej, -, hlt⟩
      refine ⟨?_, hlt⟩
      rintro _ ⟨a, ha, rfl⟩
      exact hrej a ha
    · rintro ⟨hrej, hlt⟩
      exact ⟨fun a ha => hrej _ ⟨a, ha, rfl⟩, rfl, hlt⟩
  · rw [searchBags_eq, searchLeft_eq_notFound]
    simp [and_comm]
  · rw [searchBags_eq, searchLeft_eq_notFound]
    simp

/-- The second of four bags is accepted: it is found with a cap of two and not with a cap of one. -/
example : ([1, 2].map fun L => searchBags (some L) (.eachOf [.constraint 0, .constraint 1])
    (.ofCandidates [[0, 1], [0, 1]] 2)) = [.tooMany 1, .found ⟨[0, 1], 2⟩] := by decide

end Search

end ShapeTyping
