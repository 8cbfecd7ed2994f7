import Mathlib
import ShapeTyping.Proofs.Validation.History
import ShapeTyping.Proofs.Validation.Stability

/-!
# Refutations are final

What is refuted stays refuted, while what was concluded from a refuted assumption is forgotten and
may be assumed again. Each time this happens to an association, another one has been refuted since
it was assumed last: the refuted associations, and the one at hand if it is relied on, pay for all
assumptions of it.

* `Typing.Step.fails`: a refuted association stays so and is not assumed again.
* `Typing.charge`, `Typing.Step.charge`, `Leads.charge`: what pays for assumptions, over one change
  and over a history.
* `historyOf_refutations`: the same for the calls between two resets.
-/

namespace ShapeTyping

/-! ### One change -/

namespace Typing

variable {t t' : Typing} {ch : Change} {a b : Association}

theorem not_contains_of_fails (hb : t.verdict? b = some .fails) : t.contains b = false := by
  simp [contains, hb]

/-- **A refuted association stays refuted** and is not assumed again. -/
theorem Step.fails (hstep : Step ch t t') (hb : t.verdict? b = some .fails) :
    t'.verdict? b = some .fails ∧ ch ≠ .assumed b := by
  cases hstep with
  | @assume _ a ha =>
    have hba : b ≠ a := by rintro rfl; simp [ha] at hb
    refine ⟨?_, fun h => hba (Change.assumed.inj h).symm⟩
    rwa [verdict?_hypothesize, if_neg hba]
  | @confirm _ a ms ha =>
    have hba : b ≠ a := by rintro rfl; simp [ha] at hb
    refine ⟨?_, by simp⟩
    rwa [verdict?_confirm, if_neg hba]
  | @refute _ a checkpoint ha =>
    have hba : b ≠ a := by rintro rfl; simp [ha] at hb
    refine ⟨?_, by simp⟩
    -- a rollback forgets what may be relied on only
    rwa [verdict?_refute_eq, if_neg hba, verdict?_rollback, if_neg (by
      simp [not_contains_of_fails hb])]

/-- **What pays for the assumptions** of an association: those that are refuted, and itself if it
may be relied on. -/
def charge (t : Typing) (b : Association) : ℕ := (t.listed .fails).length + (t.contains b).toNat

theorem length_failures_le (h : t.Proper) (h' : t'.Proper)
    (hkept : ∀ b, t.verdict? b = some .fails → t'.verdict? b = some .fails) :
    (t.listed .fails).length ≤ (t'.listed .fails).length := by
  refine (List.subperm_of_subset (h.nodup_listed .fails) fun b hb => ?_).length_le
  exact h'.mem_listed.2 (hkept b (h.mem_listed.1 hb))

/-- A new refutation is one more. -/
theorem length_failures_lt (h : t.Proper) (h' : t'.Proper)
    (hkept : ∀ b, t.verdict? b = some .fails → t'.verdict? b = some .fails)
    (hbefore : t.verdict? a ≠ some .fails) (hafter : t'.verdict? a = some .fails) :
    (t.listed .fails).length < (t'.listed .fails).length := by
  have hnodup : (a :: t.listed .fails).Nodup :=
    List.nodup_cons.2 ⟨fun ha => hbefore (h.mem_listed.1 ha), h.nodup_listed .fails⟩
  have hsub : a :: t.listed .fails ⊆ t'.listed .fails := by
    refine List.cons_subset.2 ⟨h'.mem_listed.2 hafter, fun b hb => ?_⟩
    exact h'.mem_listed.2 (hkept b (h.mem_listed.1 hb))
  exact (List.subperm_of_subset hnodup hsub).length_le

/-- **A change pays for itself**: an assumption of `b` makes it relied on, and where it is relied on
no more another association has been refuted. -/
theorem Step.charge (hstep : Step ch t t') (h : t.Proper) (b : Association) :
    t.charge b + (if ch = .assumed b then 1 else 0) ≤ t'.charge b := by
  have hle := length_failures_le h (hstep.proper h) fun b hb => (hstep.fails hb).1
  have h' := hstep.proper h
  have hkept := fun b hb => (hstep.fails (b := b) hb).1
  unfold Typing.charge
  cases hstep with
  | @assume _ a ha =>
    by_cases hba : b = a
    -- what is assumed was not relied on and is relied on now
    · subst hba
      have hbefore : t.contains b = false := by simp [contains, ha]
      have hafter : (t.hypothesize b).contains b = true := by
        simp [contains, verdict?_hypothesize]
      simp only [hbefore, hafter, if_true, Bool.toNat_false, Bool.toNat_true]
      omega
    · have hsame : (t.hypothesize a).contains b = t.contains b := by
        simp [contains, verdict?_hypothesize, hba]
      have hne : ¬ Change.assumed a = .assumed b := fun h => hba (Change.assumed.inj h).symm
      simp only [hsame, hne, if_false]
      omega
  | @confirm _ a ms ha =>
    have hsame : (t.confirm a ms).contains b = t.contains b := by
      by_cases hba : b = a
      · simp [contains, verdict?_confirm, hba, ha]
      · simp [contains, verdict?_confirm, hba]
    simp only [hsame, reduceCtorEq, if_false]
    omega
  | @refute _ a checkpoint ha =>
    -- the rollback may take `b` with it, but `a` is a new refutation
    have hlt := length_failures_lt h h' hkept (by simp [ha]) (t.verdict?_refute a checkpoint)
    have hone := Bool.toNat_le (t.contains b)
    simp only [reduceCtorEq, if_false]
    omega

end Typing

/-! ### A history -/

/-- How often an association is assumed. -/
def assumptions (b : Association) (ms : List Snapshot) : ℕ := ms.countP (·.change = .assumed b)

namespace Leads

variable {t t' : Typing} {ms : List Snapshot} {b : Association}

/-- **A refuted association stays refuted** and is not assumed again, by induction over the
changes. -/
theorem fails (h : Leads t ms t') (hb : t.verdict? b = some .fails) :
    t'.verdict? b = some .fails ∧
      ∀ m ∈ ms, m.state.typing.verdict? b = some .fails ∧ m.change ≠ .assumed b := by
  induction h with
  | done => exact ⟨hb, by simp⟩
  | step hstep _ ih =>
    obtain ⟨hkept, hne⟩ := hstep.fails hb
    obtain ⟨hend, hall⟩ := ih hkept
    exact ⟨hend, List.forall_mem_cons.2 ⟨⟨hkept, hne⟩, hall⟩⟩
  | commit _ ih => exact ih hb

/-- **Changes pay for themselves.** -/
theorem charge (h : Leads t ms t') (ht : t.Proper) (b : Association) :
    t.charge b + assumptions b ms ≤ t'.charge b := by
  induction h with
  | done => simp [assumptions]
  | @step _ _ m ms hstep _ ih =>
    have hfirst := hstep.charge ht b
    have hrest := ih (hstep.proper ht)
    have hcount : assumptions b (m :: ms) =
        assumptions b ms + if m.change = .assumed b then 1 else 0 := by
      simp [assumptions, List.countP_cons]
    omega
  | commit _ ih => exact ih (ht.of_byNode_eq rfl)

/-- **How often an association is assumed**, if none has been refuted before. -/
theorem assumptions_le (h : Leads .empty ms t') (b : Association) :
    assumptions b ms ≤ 1 + (t'.listed .fails).length := by
  have hcharge := h.charge Typing.proper_empty b
  have hone := Bool.toNat_le (t'.contains b)
  unfold Typing.charge at hcharge
  omega

end Leads

/-! ### Calls between two resets -/

/-- **Refutations are final, and they bound how often an association is assumed.** Between two
resets of a validator, whatever was asked of it before and whichever calls return errors, nothing
happens to the typing but the changes of the history. An association that is refuted stays refuted
and is not assumed again; and up to each change no association has been assumed more often than once
and once more for each refuted one. -/
theorem historyOf_refutations (s : Schema) (g : Graph) (limits : Limits) (before : List Call)
    (calls : List Association) :
    let v := ((Validator.new s g limits).performAll before).2.reset
    Leads .empty (v.historyOf calls) (v.run calls).2.typing ∧
    (∀ early m late, v.historyOf calls = early ++ m :: late →
      (∀ b, m.state.typing.verdict? b = some .fails →
        (∀ m' ∈ late, m'.state.typing.verdict? b = some .fails ∧ m'.change ≠ .assumed b) ∧
          (v.run calls).2.typing.verdict? b = some .fails) ∧
      ∀ b, assumptions b (early ++ [m]) ≤ 1 + (m.state.typing.listed .fails).length) ∧
    ∀ b, assumptions b (v.historyOf calls) ≤ 1 + ((v.run calls).2.typing.listed .fails).length := by
  intro v
  have hleads : Leads .empty (v.historyOf calls) (v.run calls).2.typing := v.run_leads calls
  refine ⟨hleads, fun early m late hsplit => ?_, hleads.assumptions_le⟩
  rw [hsplit] at hleads
  obtain ⟨hearly, hlate⟩ := hleads.split
  refine ⟨fun b hb => ?_, hearly.assumptions_le⟩
  obtain ⟨hend, hall⟩ := hlate.fails hb
  exact ⟨hall, hend⟩

/-- Nodes with an edge to such a node and another edge. -/
def edgeAndPath : Definitions where
  shapes := [(.iri ⟨"urn:S"⟩, .shape ⟨false, [], .eachOf [
    .constraint ⟨⟨"urn:p"⟩, some (.ref (.iri ⟨"urn:S"⟩)), .one, false, none⟩,
    .constraint ⟨⟨"urn:q"⟩, none, .one, false, none⟩] .one, 0⟩)]
  tripleExprs := []
  start := none

/-- Two nodes with edges to each other, of which only the second has another edge. -/
def edgesToEachOther : Graph := ⟨[⟨.iri ⟨"urn:n"⟩, ⟨"urn:p"⟩, .iri ⟨"urn:m"⟩⟩,
  ⟨.iri ⟨"urn:m"⟩, ⟨"urn:p"⟩, .iri ⟨"urn:n"⟩⟩, ⟨.iri ⟨"urn:m"⟩, ⟨"urn:q"⟩, .iri ⟨"urn:k"⟩⟩]⟩

/-- The second node conforms as long as the first one is assumed to. When it has been refuted, the
second node is assumed once more, and the bound is reached. -/
theorem historyOf_refutations_edgeAndPath :
    ∃ s, edgeAndPath.build = .ok s ∧
      let v := ((Validator.new s edgesToEachOther .standard).performAll []).2.reset
      let a : Association := ⟨.iri ⟨"urn:n"⟩, .iri ⟨"urn:S"⟩⟩
      let b : Association := ⟨.iri ⟨"urn:m"⟩, .iri ⟨"urn:S"⟩⟩
      (v.historyOf [a, b]).map (·.change) =
        [.assumed a, .assumed b, .resolved b, .resolved a, .assumed b, .resolved b] ∧
      ∃ early m late, v.historyOf [a, b] = early ++ m :: late ∧ m.change = .assumed b ∧
        m.state.typing.verdict? a = some .fails ∧
        (v.run [a, b]).2.typing.verdict? a = some .fails ∧
        2 = assumptions b (early ++ [m]) ∧
        assumptions b (early ++ [m]) ≤ 1 + (m.state.typing.listed .fails).length ∧
        (m.state.typing.listed .fails).length = 1 := by
  have hbuild : edgeAndPath.build = .ok
      { shapes := [(.iri ⟨"urn:S"⟩, .shape ⟨false, [], .eachOf [
          .constraint ⟨⟨"urn:p"⟩, some (.ref (.iri ⟨"urn:S"⟩)), .one, false, none⟩,
          .constraint ⟨⟨"urn:q"⟩, none, .one, false, none⟩] .one, 0⟩)]
        tripleExprs := [], start := none, shapeCount := 1, strata := [[.iri ⟨"urn:S"⟩]] } := by cbv
  refine ⟨_, hbuild, ?_⟩
  intro v a b
  have hlength : 4 < (v.historyOf [a, b]).length := by cbv
  have hsplit : v.historyOf [a, b] = (v.historyOf [a, b]).take 4 ++
      (v.historyOf [a, b])[4] :: (v.historyOf [a, b]).drop 5 := by
    rw [← List.drop_eq_getElem_cons hlength, List.take_append_drop]
  have hfails : (v.historyOf [a, b])[4].state.typing.verdict? a = some .fails := by cbv
  obtain ⟨-, hfinal, -⟩ := historyOf_refutations _ edgesToEachOther .standard [] [a, b]
  obtain ⟨hstays, hbound⟩ := hfinal _ _ _ hsplit
  exact ⟨by cbv, _, _, _, hsplit, by cbv, hfails, (hstays a hfails).2, by cbv, hbound b, by cbv⟩

end ShapeTyping
