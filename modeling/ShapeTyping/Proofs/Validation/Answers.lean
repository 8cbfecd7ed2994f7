import Mathlib
import ShapeTyping.Proofs.Validation.Sound
import ShapeTyping.Proofs.Validation.Trace

/-!
# Answers of a validator

The verdicts of a validator whose calls end without errors are those of the greatest typing.

* `State.Sound.confirm`, `State.Sound.refute`: resolving a hypothesis keeps states sound.
* `decideWithin_sound`: so does a decision.
* `validate_sound`: the answer to one call.
* `run_greatest`: the answers to any sequence of calls.
-/

namespace ShapeTyping

/-! ### Decisions -/

section Decisions

variable {d : Definitions} {ctx : Context} {T : Set Association} {pending : List Association}
  {st st' : State} {a : Association}

theorem State.Sound.open (hset : Grounds d ctx T) (hst : st.Sound ctx T pending)
    (ha : st.typing.verdict? a = none) : (st.open a).Sound ctx T (a :: pending) := by
  refine ⟨hst.cached, hypothesis_open_iff hst.pending a, ?_, ?_⟩
  · intro b hb
    have hba : b ≠ a := by rintro rfl; simp [verdict?_open] at hb
    exact hst.failed b ((verdict?_open_of_ne hba).symm.trans hb)
  · intro b hb
    have hba : b ≠ a := by rintro rfl; simp [verdict?_open] at hb
    refine (hst.supported b ((verdict?_open_of_ne hba).symm.trans hb)).mono hset fun c hc => ?_
    have hca : c ≠ a := by rintro rfl; simp [Typing.contains, ha] at hc
    rwa [Typing.contains_eq_true, verdict?_open_of_ne hca, ← Typing.contains_eq_true]

/-- **Confirming** what is supported keeps states sound. -/
theorem State.Sound.confirm (hset : Grounds d ctx T) (hst : st.Sound ctx T (a :: pending))
    (ha : a ∉ pending) (hsupp : st.Supports ctx T a) (n : ℕ) (ms : List MatchedTriple) :
    (st.close a n (some ms)).Sound ctx T pending := by
  have hv := fun b => verdict?_close_some st a b n ms
  have hcont : ∀ b, st.typing.contains b = true →
      (st.close a n (some ms)).typing.contains b = true := by
    intro b hb
    rw [Typing.contains_eq_true] at hb ⊢
    rw [hv]
    by_cases hba : b = a
    · simp [hba]
    · rwa [if_neg hba]
  refine ⟨hst.cached, ?_, ?_, ?_⟩
  · intro b
    rw [hv]
    by_cases hba : b = a
    · simp [hba, ha]
    · rw [if_neg hba, hst.pending b, List.mem_cons, or_iff_right hba]
  · intro b hb
    rw [hv] at hb
    by_cases hba : b = a
    · simp [hba] at hb
    · rw [if_neg hba] at hb
      exact hst.failed b hb
  · intro b hb
    rw [hv] at hb
    by_cases hba : b = a
    · subst hba
      exact hsupp.mono hset hcont
    · rw [if_neg hba] at hb
      exact (hst.supported b hb).mono hset hcont

/-- **Refuting** what is not in the greatest typing keeps states sound: what has been concluded
since the hypothesis is forgotten. -/
theorem State.Sound.refute (hset : Grounds d ctx T) (hst : st.Sound ctx T pending)
    (hst' : st'.Sound ctx T (a :: pending)) (ha : st.typing.verdict? a = none)
    (hext : (st.open a).Extends st') (hno : a ∉ T) :
    (st'.close a (st.open a).typing.checkpoint none).Sound ctx T pending := by
  have hclose := extends_close_none ha hext
  have hv := verdict?_close_none hext
  refine ⟨hst'.cached, ?_, ?_, ?_⟩
  · exact fun b => (hclose.hypothesis_iff b).trans (hst.pending b)
  · intro b hb
    rw [hv] at hb
    by_cases hba : b = a
    · rwa [hba]
    · rw [if_neg hba] at hb
      split at hb
      · cases hb
      · exact hst'.failed b hb
  · intro b hb
    have hbefore := hst.supported b (conforms_of_close_none ha hext hb)
    exact hbefore.mono hset fun c => hclose.contains

theorem satisfies_of_evaluateDefinition {recur : Decider} {node : Term} {e : ShapeExpr}
    {r : Option (List MatchedTriple)}
    (h : evaluateDefinition ctx recur node e st = .ok r st') :
    satisfies ctx recur node e st = .ok r st' := by
  unfold evaluateDefinition at h
  split at h
  · cases h
  · exact h

/-- **Decisions keep states sound** if they end without errors and their depth leaves room for
all associations that are not pending. -/
theorem decideWithin_sound {nodes : List Term} (hset : Grounds d ctx T)
    (hnodes : ∀ x ∈ ctx.graph.nodes, x ∈ nodes) {n : ℕ} (hstack : Stack ctx.schema nodes pending)
    (hn : n + pending.length = nodes.length * ctx.schema.labels.length + 1)
    (ha : a.node ∈ nodes) (hl : a.label ∈ ctx.schema.labels)
    (hle : ∀ b ∈ pending, ctx.schema.NotAbove a.label b.label) (hst : st.Sound ctx T pending)
    (he : (decideWithin ctx n a st).2.errors = []) :
    (decideWithin ctx n a st).2.Sound ctx T pending := by
  induction n generalizing pending a st with
  | zero =>
    -- more associations would be pending than there are
    have := hstack.length_le
    omega
  | succ n ih =>
    rw [decideWithin, decideWith] at he ⊢
    cases hv : st.typing.verdict? a with
    | some v => exact hst
    | none =>
    obtain ⟨e, hdef⟩ := shape?_eq_some hl
    simp only [hv, hdef] at he ⊢
    have hmem : (a.label, e) ∈ ctx.schema.shapes := mem_of_lookup_eq_some hdef
    have hna : a ∉ pending := by
      intro hin
      rw [(hst.pending a).2 hin] at hv
      cases hv
    obtain ⟨hstack', m, rfl, hm⟩ := hstack.push hna hle ha hl hn
    obtain ⟨i, hi, -⟩ := hset.builds.stratum_lt hl
    have heval : SoundEvaluation d ctx T nodes a pending i m := by
      refine ⟨hset, hnodes, hstack', hi, fun b hb st hst he => ?_⟩
      exact ih hstack' hm hb.1 hb.2.1 (hstack'.notAbove hb.2.2) hst he
    have hext : (st.open a).Extends
        (finalState (evaluateDefinition ctx (decideWithin ctx (m + 1)) a.node e (st.open a))) :=
      evaluateDefinition_extends (decideWithin_extends ctx (m + 1)) a.node e (st.open a)
    cases hev : evaluateDefinition ctx (decideWithin ctx (m + 1)) a.node e (st.open a) with
    | error err st' =>
      simp [hev, State.close, State.addError] at he
    | ok r st' =>
    rw [hev] at hext
    simp only [hev] at he ⊢
    have hsound := fun hnil => satisfies_sound heval false e
      (fun x hx => Schema.mem_allShapes hmem hx) (fun dep hdep => hset.builds.descends hmem hdep)
      (hst.open hset hv) (satisfies_of_evaluateDefinition hev) hnil
    cases r with
    | some ms =>
      obtain ⟨hst', hhold⟩ := hsound he
      exact hst'.confirm hset hna (.inr ⟨i, hi, e, hdef, hhold⟩) _ ms
    | none =>
      obtain ⟨hst', hnot⟩ := hsound he
      refine hst.refute hset hst' hv hext fun hT => hnot ?_
      -- what is in the greatest typing holds in it, but the evaluation says otherwise
      obtain ⟨e', hdef', hhold⟩ := hset.builds.holdsIn_of_mem
        (Shape.acceptedIn_readsEnds ctx.schema ctx.graph) hset.greatest hT
      obtain rfl : e = e' := Option.some.inj (hdef.symm.trans hdef')
      exact hhold

end Decisions

/-! ### Calls of a validator -/

section Calls

variable {d : Definitions} {T : Set Association}

theorem sound_start (ctx : Context) (T : Set Association) :
    (State.start ctx.schema).Sound ctx T [] := by
  have hnone : ∀ b, (State.start ctx.schema).typing.verdict? b = none := fun b => rfl
  refine ⟨cached_start ctx.schema, ?_, ?_, ?_⟩
  · simp [hnone]
  · simp [hnone]
  · simp [hnone]

/-- Where nothing is pending, verdicts are those of the greatest typing. -/
theorem Grounds.mem_iff {ctx : Context} {st : State} {a : Association}
    (hset : Grounds d ctx T) (hst : st.Sound ctx T []) :
    (st.typing.verdict? a = some .conforms → a ∈ T) ∧
      (st.typing.verdict? a = some .fails → a ∉ T) := by
  refine ⟨fun ha => ?_, hst.failed a⟩
  rcases hst.supported a ha with hT | ⟨i, hi, -⟩
  · exact hT
  · exact hst.mem_of_contains hset (by simp) hi (Typing.contains_eq_true.2 (.inl ha))

theorem State.Sound.mem_iff {ctx : Context} {st : State} {a : Association}
    (hset : Setting d ctx T) (hst : st.Sound ctx T []) :
    (st.typing.verdict? a = some .conforms → a ∈ T) ∧
      (st.typing.verdict? a = some .fails → a ∉ T) :=
  hset.grounds.mem_iff hst

/-- A call that returns no error is a decision that ends without any. -/
theorem validate_eq_ok {v : Validator} {a : Association} {b : Bool}
    (hok : (v.validate a).1 = .ok b) :
    a.label ∈ v.context.schema.labels ∧
      ∃ st, decideWithin v.context v.context.maxNesting a
          { v.state with errors := [], depth := 0 } = (b, st) ∧ st.errors = [] ∧
        (v.validate a).2 =
          { v with state := { st with typing := st.typing.commit, errors := [] } } := by
  unfold Validator.validate at hok ⊢
  by_cases hcontains : v.context.schema.contains a.label = true
  · rw [if_pos hcontains] at hok ⊢
    obtain ⟨e, hdef⟩ := Option.isSome_iff_exists.1 hcontains
    refine ⟨List.mem_map_of_mem (mem_of_lookup_eq_some hdef), ?_⟩
    cases hdec : decideWithin v.context v.context.maxNesting a
        { v.state with errors := [], depth := 0 } with
    | mk conforms st =>
    simp only [hdec] at hok ⊢
    cases herr : st.errors with
    | nil =>
      simp only [herr] at hok
      cases hok
      exact ⟨st, rfl, herr, rfl⟩
    | cons err errs =>
      simp only [herr] at hok
      cases hok
  · rw [if_neg hcontains] at hok
    cases hok

/-- **A call that returns no error** answers whether the association is in the greatest typing. -/
theorem validate_sound {v : Validator} {a : Association} {b : Bool}
    (hset : Grounds d v.context T) (hv : v.state.Sound v.context T [])
    (hok : (v.validate a).1 = .ok b) :
    (v.validate a).2.context = v.context ∧ (v.validate a).2.state.Sound v.context T [] ∧
      (b = true ↔ a ∈ T) := by
  obtain ⟨hl, st, hst, hnil, hend⟩ := validate_eq_ok hok
  have hstart : State.Sound v.context T [] { v.state with errors := [], depth := 0 } :=
    hv.of_verdict?_eq hset hv.cached fun b => rfl
  have hn := maxNesting_add_nil v.context a.node
  have hsound := decideWithin_sound hset (fun x hx => List.mem_cons_of_mem a.node hx) .nil hn
    List.mem_cons_self hl (by simp) hstart
  obtain ⟨e, hdef⟩ := shape?_eq_some hl
  have hverdict := @decideWith_verdict v.context (decideWithin v.context
    ((v.context.graph.nodes.length + 1) * v.context.schema.labels.length)) a e hdef
    { v.state with errors := [], depth := 0 }
  rw [← decideWithin, ← Nat.add_one, ← Context.maxNesting, hst] at hverdict
  rw [hst] at hsound
  obtain ⟨w, hw, hanswer⟩ := hverdict
  have hquiet : st.Sound v.context T [] := hsound hnil
  rw [hend]
  refine ⟨rfl, hquiet.of_verdict?_eq hset hquiet.cached fun b => rfl, ?_⟩
  -- no hypothesis is left, so the verdict is final
  obtain ⟨hmem, hnotMem⟩ := hset.mem_iff hquiet (a := a)
  cases w with
  | conforms => exact iff_of_true (hanswer.2 (by simp)) (hmem hw)
  | fails => exact iff_of_false (fun h => hanswer.1 h rfl) (hnotMem hw)
  | hypothesis => cases (hquiet.pending a).1 hw

theorem run_sound {v : Validator} {calls : List Association} {answers : List Bool}
    (hset : Setting d v.context T) (hv : v.state.Sound v.context T [])
    (hok : (v.run calls).1 = answers.map .ok) :
    (v.run calls).2.state.Sound v.context T [] ∧
      List.Forall₂ (fun a b => b = true ↔ a ∈ T) calls answers := by
  induction calls generalizing v answers with
  | nil =>
    obtain rfl : answers = [] := List.map_eq_nil_iff.1 hok.symm
    exact ⟨hv, .nil⟩
  | cons a calls ih =>
    cases answers with
    | nil => cases hok
    | cons b answers =>
      obtain ⟨hfirst, hrest⟩ := List.cons.inj hok
      obtain ⟨hctx, hv', hb⟩ := validate_sound hset.grounds hv hfirst
      rw [← hctx] at hset hv'
      obtain ⟨hend, hlater⟩ := ih hset hv' hrest
      rw [hctx] at hend
      exact ⟨hend, .cons hb hlater⟩

end Calls

/-- **Validation computes the greatest typing.** Whatever calls are made to a new validator of a
built schema whose cardinalities are not reversed, if none returns an error each answer says whether
its association is in the greatest typing, and so do all verdicts that are recorded. -/
theorem run_greatest {d : Definitions} {s : Schema} (h : d.build = .ok s)
    (hdefs : ∀ p ∈ s.tripleExprs, ∀ c ∈ p.2.cards, c.Valid)
    (hshapes : ∀ x ∈ s.allShapes, ∀ c ∈ x.expr.cards, c.Valid) (g : Graph)
    (hdegree : ∀ node, g.degree node ≤ maxWord) :
    ∃ T, s.StratifiedGreatest (Shape.HoldsIn s g) T ∧
      (∀ T', s.StratifiedGreatest (Shape.HoldsIn s g) T' → T' = T) ∧
      ∀ (limits : Limits) (calls : List Association) (answers : List Bool),
        ((Validator.new s g limits).run calls).1 = answers.map .ok →
          List.Forall₂ (fun a b => b = true ↔ a ∈ T) calls answers ∧
          ∀ a, (((Validator.new s g limits).run calls).2.typing.verdict? a = some .conforms →
              a ∈ T) ∧
            (((Validator.new s g limits).run calls).2.typing.verdict? a = some .fails →
              a ∉ T) := by
  have hbuilds := Definitions.builds_of_build h
  have hgreatest := hbuilds.stratifiedGreatest_typing g
  refine ⟨s.typing (Shape.HoldsIn s g), hgreatest, fun T' hT' => hT'.unique hgreatest, ?_⟩
  intro limits calls answers hok
  have hset : Setting d ⟨s, g, limits⟩ (s.typing (Shape.HoldsIn s g)) :=
    ⟨hbuilds, hgreatest, fun x hx => Schema.cardsValid_of_definitions hdefs (hshapes x hx), hdegree⟩
  have hstart : (Validator.new s g limits).state.Sound ⟨s, g, limits⟩
      (s.typing (Shape.HoldsIn s g)) [] := sound_start ⟨s, g, limits⟩ _
  obtain ⟨hend, hanswers⟩ := run_sound (v := Validator.new s g limits) hset hstart hok
  exact ⟨hanswers, fun a => hend.mem_iff hset⟩

theorem Graph.degree_le (g : Graph) (node : Term) : g.degree node ≤ 2 * g.triples.length := by
  have hin := List.length_filter_le (fun t : Triple => t.object = node) g.triples
  have hout := List.length_filter_le (fun t : Triple => t.subject = node) g.triples
  rw [Graph.degree]
  omega

/-- Nodes on an endless path, and those that are not. -/
def endlessPath : Definitions where
  shapes := [
    (.iri ⟨"urn:S"⟩, .shape ⟨false, [],
      .constraint ⟨⟨"urn:p"⟩, some (.ref (.iri ⟨"urn:S"⟩)), .plus, false, none⟩, 0⟩),
    (.iri ⟨"urn:T"⟩, .not (.ref (.iri ⟨"urn:S"⟩)))]
  tripleExprs := []
  start := none

def selfLoopAndSink : Graph := ⟨[⟨.iri ⟨"urn:n"⟩, ⟨"urn:p"⟩, .iri ⟨"urn:n"⟩⟩,
  ⟨.iri ⟨"urn:m"⟩, ⟨"urn:p"⟩, .iri ⟨"urn:k"⟩⟩]⟩

/-- A node with an edge to itself is on an endless path, one with an edge to a sink is not. -/
theorem run_greatest_endlessPath :
    ∃ s, endlessPath.build = .ok s ∧
      ∃ T, s.StratifiedGreatest (Shape.HoldsIn s selfLoopAndSink) T ∧
        (⟨.iri ⟨"urn:m"⟩, .iri ⟨"urn:T"⟩⟩ : Association) ∈ T ∧
        (⟨.iri ⟨"urn:n"⟩, .iri ⟨"urn:S"⟩⟩ : Association) ∈ T ∧
        (⟨.iri ⟨"urn:n"⟩, .iri ⟨"urn:T"⟩⟩ : Association) ∉ T := by
  have hbuild : endlessPath.build = .ok
      { shapes := [
          (.iri ⟨"urn:S"⟩, .shape ⟨false, [],
            .constraint ⟨⟨"urn:p"⟩, some (.ref (.iri ⟨"urn:S"⟩)), .plus, false, none⟩, 0⟩),
          (.iri ⟨"urn:T"⟩, .not (.ref (.iri ⟨"urn:S"⟩)))]
        tripleExprs := [], start := none, shapeCount := 1
        strata := [[.iri ⟨"urn:S"⟩], [.iri ⟨"urn:T"⟩]] } := by cbv
  have hdegree : ∀ node, selfLoopAndSink.degree node ≤ maxWord :=
    fun node => (selfLoopAndSink.degree_le node).trans (by decide)
  obtain ⟨T, hT, -, hrun⟩ := run_greatest hbuild (by simp)
    (by simp [Schema.allShapes, ShapeExpr.shapes, TripleExpr.cards, Cardinality.Valid,
      Cardinality.plus]) selfLoopAndSink hdegree
  obtain ⟨hanswers, -⟩ := hrun .standard [⟨.iri ⟨"urn:m"⟩, .iri ⟨"urn:T"⟩⟩,
    ⟨.iri ⟨"urn:n"⟩, .iri ⟨"urn:S"⟩⟩, ⟨.iri ⟨"urn:n"⟩, .iri ⟨"urn:T"⟩⟩] [true, true, false] (by cbv)
  simp only [List.forall₂_cons, List.forall₂_nil_right_iff, true_iff, Bool.false_eq_true,
    false_iff] at hanswers
  obtain ⟨hsink, hloop, hneg, -⟩ := hanswers
  exact ⟨_, hbuild, T, hT, hsink, hloop, hneg⟩

/-- A closed shape with an extra predicate and no constraint. -/
def extraOnly : Definitions where
  shapes := [(.iri ⟨"urn:S"⟩, .shape ⟨true, [⟨"urn:p"⟩], .empty, 0⟩)]
  tripleExprs := []
  start := none

def extraEdge : Graph := ⟨[⟨.iri ⟨"urn:n"⟩, ⟨"urn:p"⟩, .iri ⟨"urn:m"⟩⟩]⟩

/-- Every edge can be left out. -/
theorem assignableIn_extraOnly (s : Schema) (T : Set Association) (node : Term) :
    Shape.AssignableIn s extraEdge T node ⟨true, [⟨"urn:p"⟩], .empty, 0⟩ := by
  refine ⟨.empty, rfl, (extraEdge.listed [] true node).map fun _ => none, ?_, 0, ?_⟩
  · refine List.forall₂_map_right_iff.2 (List.forall₂_same.2 fun e he => ?_)
    refine ⟨?_, by simp [TripleExpr.constraints]⟩
    rcases List.mem_append.1 he with he | he
    · simp [Graph.inEdgesVia, TripleExpr.constraints] at he
    · obtain ⟨t, ht, rfl⟩ := List.mem_map.1 he
      obtain rfl := List.mem_singleton.1 (List.mem_filter.1 ht).1
      rfl
  · simp [List.reduceOption, TripleExpr.languageWith, BagLanguage.mem_one]

/-- **Without constraints** no edge is left out, also not one with an extra predicate that could
be dealt with: read as an assignment of edges, the shape holds where the answer is that it does
not. -/
theorem run_extraOnly :
    ∃ s, extraOnly.build = .ok s ∧
      ((Validator.new s extraEdge .standard).run [⟨.iri ⟨"urn:n"⟩, .iri ⟨"urn:S"⟩⟩]).1 =
        [.ok false] ∧
      ∃ T, s.StratifiedGreatest (Shape.AssignableIn s extraEdge) T ∧
        (∀ T', s.StratifiedGreatest (Shape.AssignableIn s extraEdge) T' → T' = T) ∧
        (⟨.iri ⟨"urn:n"⟩, .iri ⟨"urn:S"⟩⟩ : Association) ∈ T := by
  have hbuild : extraOnly.build = .ok
      { shapes := [(.iri ⟨"urn:S"⟩, .shape ⟨true, [⟨"urn:p"⟩], .empty, 0⟩)]
        tripleExprs := [], start := none, shapeCount := 1, strata := [[.iri ⟨"urn:S"⟩]] } := by cbv
  refine ⟨_, hbuild, by cbv, ?_⟩
  generalize hs : Schema.mk _ _ _ _ _ = s at hbuild ⊢
  have hbuilds := Definitions.builds_of_build hbuild
  have hlabel : ∀ l, l ∈ s.labels ↔ l = .iri ⟨"urn:S"⟩ := by
    intro l
    simp [← hs, Schema.labels]
  have hdef : s.shape? (.iri ⟨"urn:S"⟩) =
      some (.shape ⟨true, [⟨"urn:p"⟩], .empty, 0⟩) := by simp [← hs, Schema.shape?]
  have hgreatest : s.StratifiedGreatest (Shape.AssignableIn s extraEdge)
      {a | a.label = .iri ⟨"urn:S"⟩} := by
    refine ⟨fun a ha => ?_, fun i =>
      ⟨⟨Set.inter_subset_right, fun a ha => ?_⟩, fun X hX a ha => ?_⟩⟩
    · obtain ⟨i, hi, -⟩ := hbuilds.stratum_lt ((hlabel a.label).2 ha)
      exact ⟨i, hi⟩
    · have hlabelled : a.label = .iri ⟨"urn:S"⟩ := ha.1
      refine ⟨_, by rw [hlabelled, hdef], ?_⟩
      rw [ShapeExpr.HoldsIn]
      exact assignableIn_extraOnly s _ a.node
    · have hi : s.stratum? a.label = some i := hX.1 ha
      exact ⟨(hlabel a.label).1 (hbuilds.mem_labels_of_stratum? hi), hi⟩
  exact ⟨_, hgreatest, fun T' hT' => hT'.unique hgreatest, rfl⟩

end ShapeTyping
