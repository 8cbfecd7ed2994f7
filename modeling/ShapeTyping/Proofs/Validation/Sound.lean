import Mathlib
import ShapeTyping.Proofs.Validation.Readings
import ShapeTyping.Proofs.Validation.Stack

/-!
# Evaluations and the greatest typing

While associations are pending, what has failed is not in the greatest typing, and what conforms
is in it or supported by what conforms or is pending. In a stratum where nothing is pending it
supports itself, so that it is in the greatest typing. An evaluation that succeeds holds in what may
be relied on, and one that fails does not hold in the greatest typing.

* `State.Sound`: the invariant.
* `State.Sound.mem_of_contains`: what conforms in a stratum where nothing is pending.
* `State.Answers`: what is claimed of the result of an evaluation.
* `satisfiesShape_sound`, `satisfies_sound`: the evaluation of a shape and of an expression.
-/

namespace ShapeTyping

/-! ### The invariant -/

/-- What may be relied on in a stratum: lower strata are read from `T`, and the stratum from the
typing. -/
def State.relied (s : Schema) (T : Set Association) (i : ℕ) (st : State) : Set Association :=
  T ∩ s.below i ∪ {b | st.typing.contains b = true ∧ b ∈ s.inStratum i}

/-- Whether an association is in `T`, or its definition holds in what may be relied on in its
stratum. -/
def State.Supports (ctx : Context) (T : Set Association) (st : State) (b : Association) : Prop :=
  b ∈ T ∨ ∃ i, b ∈ ctx.schema.inStratum i ∧
    ctx.schema.HoldsIn (Shape.AcceptedIn ctx.schema ctx.graph) (st.relied ctx.schema T i) b

/-- A state while some associations are pending. What has failed is not in `T`, and what conforms
is supported. -/
structure State.Sound (ctx : Context) (T : Set Association) (stack : List Association)
    (st : State) : Prop where
  cached : st.Cached ctx.schema
  pending : ∀ b, st.typing.verdict? b = some .hypothesis ↔ b ∈ stack
  failed : ∀ b, st.typing.verdict? b = some .fails → b ∉ T
  supported : ∀ b, st.typing.verdict? b = some .conforms → st.Supports ctx T b

namespace State

variable {s : Schema} {T : Set Association} {i : ℕ} {st st' : State} {b : Association}

theorem relied_inter_below : st.relied s T i ∩ s.below i = T ∩ s.below i :=
  Schema.union_inter_below fun _ hb => hb.2

/-- Where more associations may be relied on, more are. -/
theorem relied_subset
    (h : ∀ b, st.typing.contains b = true → st'.typing.contains b = true) :
    st.relied s T i ⊆ st'.relied s T i := by
  rintro b (hb | ⟨hb, hi⟩)
  · exact .inl hb
  · exact .inr ⟨h b hb, hi⟩

theorem mem_relied_of_inStratum (hi : b ∈ s.inStratum i) :
    b ∈ st.relied s T i ↔ st.typing.contains b = true := by
  constructor
  · rintro (⟨-, hb⟩ | ⟨hb, -⟩)
    · exact absurd hb (Schema.notMem_below hi)
    · exact hb
  · intro hb
    exact .inr ⟨hb, hi⟩

theorem mem_relied_of_below (hb : b ∈ s.below i) : b ∈ st.relied s T i ↔ b ∈ T := by
  have hiff : b ∈ st.relied s T i ∩ s.below i ↔ b ∈ T ∩ s.below i := by rw [relied_inter_below]
  exact ⟨fun h => (hiff.1 ⟨h, hb⟩).1, fun h => (hiff.2 ⟨h, hb⟩).1⟩

end State

theorem Typing.contains_of_ne_fails {t : Typing} {b : Association} (hv : t.verdict? b ≠ none)
    (hf : t.verdict? b ≠ some .fails) : t.contains b = true := by
  obtain ⟨v, hv⟩ := Option.ne_none_iff_exists'.1 hv
  rw [Typing.contains_eq_true, hv]
  rw [hv] at hf
  cases v with
  | conforms => exact .inl rfl
  | fails => exact absurd rfl hf
  | hypothesis => exact .inr rfl

/-- What is supported stays so where more may be relied on. -/
theorem State.Supports.mono {d : Definitions} {ctx : Context} {T : Set Association}
    {st st' : State} {b : Association} (hset : Grounds d ctx T)
    (hcont : ∀ b, st.typing.contains b = true → st'.typing.contains b = true)
    (h : st.Supports ctx T b) : st'.Supports ctx T b := by
  rcases h with hT | ⟨i, hi, hhold⟩
  · exact .inl hT
  refine .inr ⟨i, hi, hset.builds.holdsIn_mono (Shape.acceptedIn_readsEnds ctx.schema ctx.graph) hi
    (fun c hc _ => State.relied_subset hcont hc) ?_ hhold⟩
  rw [State.relied_inter_below, State.relied_inter_below]

namespace State.Sound

variable {d : Definitions} {ctx : Context} {T : Set Association} {stack : List Association}
  {st st' : State} {b : Association} {i : ℕ}

/-- **Where nothing is pending** what is relied on supports itself, so that it is in the greatest
typing. -/
theorem mem_of_contains (hset : Grounds d ctx T) (h : st.Sound ctx T stack)
    (hquiet : ∀ c ∈ stack, c ∉ ctx.schema.inStratum i) (hi : b ∈ ctx.schema.inStratum i)
    (hb : st.typing.contains b = true) : b ∈ T := by
  have hread := Shape.acceptedIn_readsEnds ctx.schema ctx.graph
  let X : Set Association :=
    {c | (st.typing.contains c = true ∨ c ∈ T) ∧ c ∈ ctx.schema.inStratum i}
  have hlow : T ∩ ctx.schema.below i = (T ∩ ctx.schema.below i ∪ X) ∩ ctx.schema.below i :=
    (Schema.union_inter_below fun c hc => hc.2).symm
  have hmem : ∀ c ∈ T, c ∈ ctx.schema.inStratum i → ctx.schema.HoldsIn
      (Shape.AcceptedIn ctx.schema ctx.graph) (T ∩ ctx.schema.below i ∪ X) c := by
    intro c hc hci
    have hhold := hset.builds.holdsIn_of_mem hread hset.greatest hc
    exact hset.builds.holdsIn_mono hread hci (fun a ha hai => .inr ⟨.inr ha, hai⟩) hlow hhold
  have hX : X ∈ ctx.schema.Supported (Shape.AcceptedIn ctx.schema ctx.graph) T i := by
    refine ⟨fun c hc => hc.2, ?_⟩
    rintro c ⟨hcont | hc, hci⟩
    · rcases Typing.contains_eq_true.1 hcont with hconf | hhyp
      · rcases h.supported c hconf with hc | ⟨j, hj, hhold⟩
        · exact hmem c hc hci
        · obtain rfl : i = j := Schema.inStratum_unique hci hj
          refine hset.builds.holdsIn_mono hread hci ?_ ?_ hhold
          · intro a ha hai
            exact .inr ⟨.inl ((State.mem_relied_of_inStratum hai).1 ha), hai⟩
          · rw [State.relied_inter_below]
            exact hlow
      · exact absurd hci (hquiet c ((h.pending c).1 hhyp))
    · exact hmem c hc hci
  exact ((hset.greatest.greatest i).2 hX ⟨.inl hb, hi⟩).1

/-- What is in the greatest typing has not failed. -/
theorem contains_of_mem (h : st.Sound ctx T stack) (hv : st.typing.verdict? b ≠ none)
    (hb : b ∈ T) : st.typing.contains b = true :=
  Typing.contains_of_ne_fails hv fun hf => h.failed b hf hb

/-- Nothing changes if no verdict does. -/
theorem of_verdict?_eq (hset : Grounds d ctx T) (h : st.Sound ctx T stack)
    (hc : st'.Cached ctx.schema)
    (hv : ∀ b, st'.typing.verdict? b = st.typing.verdict? b) : st'.Sound ctx T stack where
  cached := hc
  pending b := by
    rw [hv]
    exact h.pending b
  failed b hb := by
    rw [hv] at hb
    exact h.failed b hb
  supported b hb := by
    rw [hv] at hb
    refine (h.supported b hb).mono hset fun c hcont => ?_
    rwa [Typing.contains_eq_true, hv, ← Typing.contains_eq_true]

end State.Sound

/-! ### Evaluations -/

/-- What the result of an evaluation says of a condition on sets of associations: it holds in what
is relied on, or it does not hold in `T`. -/
def State.Answers (s : Schema) (T : Set Association) (i : ℕ) (st : State)
    (holds : Set Association → Prop) : Option (List MatchedTriple) → Prop
  | some _ => holds (st.relied s T i)
  | none => ¬ holds T

/-- The evaluation of the definition of `reader` in stratum `i` while others are pending, if
nested decisions that end without errors keep states sound. -/
structure SoundEvaluation (d : Definitions) (ctx : Context) (T : Set Association)
    (nodes : List Term) (reader : Association) (pending : List Association) (i n : ℕ) : Prop where
  grounds : Grounds d ctx T
  nodes_mem : ∀ x ∈ ctx.graph.nodes, x ∈ nodes
  stack : Stack ctx.schema nodes (reader :: pending)
  stratum : ctx.schema.stratum? reader.label = some i
  nested : ∀ b, Callable ctx.schema nodes reader b →
    ∀ st : State, st.Sound ctx T (reader :: pending) →
      (decideWithin ctx (n + 1) b st).2.errors = [] →
        (decideWithin ctx (n + 1) b st).2.Sound ctx T (reader :: pending)

section Evaluation

variable {d : Definitions} {ctx : Context} {T : Set Association} {nodes : List Term}
  {reader : Association} {pending : List Association} {i n : ℕ}

namespace SoundEvaluation

/-- Nothing is pending in lower strata. -/
theorem quiet (h : SoundEvaluation d ctx T nodes reader pending i n) {j : ℕ} (hj : j < i) :
    ∀ c ∈ reader :: pending, c ∉ ctx.schema.inStratum j := by
  intro c hc hcj
  have hle : ctx.schema.NotAbove reader.label c.label := h.stack.notAbove (.refl h.stratum) c hc
  rcases hle.mem_below_or hcj with ⟨k, hk, hik⟩ | hij
  · have := Schema.inStratum_unique (a := reader) h.stratum hik
    omega
  · have := Schema.inStratum_unique (a := reader) h.stratum hij
    omega

/-- What may be relied on is read from the typing once there is a verdict. -/
theorem mem_relied_iff (h : SoundEvaluation d ctx T nodes reader pending i n) {st : State}
    (hst : st.Sound ctx T (reader :: pending)) {b : Association}
    (hb : ctx.schema.NotAbove b.label reader.label) (hv : st.typing.verdict? b ≠ none) :
    b ∈ st.relied ctx.schema T i ↔ st.typing.contains b = true := by
  rcases hb.mem_below_or h.stratum with hb | hb
  · rw [State.mem_relied_of_below hb]
    obtain ⟨j, hj, hbj⟩ := hb
    constructor
    · exact hst.contains_of_mem hv
    · exact hst.mem_of_contains h.grounds (h.quiet hj) hbj
  · exact State.mem_relied_of_inStratum hb

theorem mem_relied_of_mem (h : SoundEvaluation d ctx T nodes reader pending i n) {st : State}
    (hst : st.Sound ctx T (reader :: pending)) {b : Association}
    (hb : ctx.schema.NotAbove b.label reader.label) (hv : st.typing.verdict? b ≠ none)
    (hT : b ∈ T) : b ∈ st.relied ctx.schema T i :=
  (h.mem_relied_iff hst hb hv).2 (hst.contains_of_mem hv hT)

theorem mem_of_mem_relied (h : SoundEvaluation d ctx T nodes reader pending i n) {st : State}
    {b : Association} (hb : ctx.schema.Below b.label reader.label)
    (hrel : b ∈ st.relied ctx.schema T i) : b ∈ T :=
  (State.mem_relied_of_below (hb.mem_below h.stratum)).1 hrel

/-- What holds in what is relied on keeps holding later. -/
theorem holdsIn_extends (h : SoundEvaluation d ctx T nodes reader pending i n) {negative : Bool}
    {e : ShapeExpr} (hdeps : ∀ dep ∈ e.dependencies ctx.schema.tripleExprs reader.label negative,
      ctx.schema.Descends dep) {st st' : State} (hext : st.Extends st') {node : Term}
    (he : e.HoldsIn (Shape.AcceptedIn ctx.schema ctx.graph) (st.relied ctx.schema T i) node) :
    e.HoldsIn (Shape.AcceptedIn ctx.schema ctx.graph) (st'.relied ctx.schema T i) node := by
  refine he.mono_of_descends (Shape.acceptedIn_readsEnds ctx.schema ctx.graph) hdeps h.stratum
    (fun b hb _ => ?_) ?_
  · exact State.relied_subset (fun b => hext.contains) hb
  · rw [State.relied_inter_below, State.relied_inter_below]

/-- **Below a negation** everything is read from lower strata, where what is relied on is the
greatest typing. -/
theorem holdsIn_relied_iff (h : SoundEvaluation d ctx T nodes reader pending i n) {e : ShapeExpr}
    (hdeps : ∀ dep ∈ e.dependencies ctx.schema.tripleExprs reader.label true,
      ctx.schema.Descends dep) {st : State} {node : Term} :
    e.HoldsIn (Shape.AcceptedIn ctx.schema ctx.graph) (st.relied ctx.schema T i) node ↔
      e.HoldsIn (Shape.AcceptedIn ctx.schema ctx.graph) T node := by
  have hmono : ∀ T₁ T₂ : Set Association,
      T₁ ∩ ctx.schema.below i = T₂ ∩ ctx.schema.below i →
      e.HoldsIn (Shape.AcceptedIn ctx.schema ctx.graph) T₁ node →
        e.HoldsIn (Shape.AcceptedIn ctx.schema ctx.graph) T₂ node := by
    intro T₁ T₂ hlow he
    have hcarries : ∀ dep ∈ e.dependencies ctx.schema.tripleExprs reader.label true,
        dep.Carries T₁ T₂ := by
      intro dep hdep
      obtain ⟨hsource, hneg⟩ := ShapeExpr.source_of_mem_dependencies e hdep
      have hstrict : dep.strict? ≠ none := Dependency.strict?_ne_none.2 (.inl (hneg rfl))
      exact (hdeps dep hdep).carries (hsource ▸ h.stratum) hlow fun hnone => absurd hnone hstrict
    exact ShapeExpr.HoldsIn.mono (Shape.acceptedIn_readsEnds ctx.schema ctx.graph) true e hcarries
      he
  exact ⟨hmono _ _ State.relied_inter_below, hmono _ _ State.relied_inter_below.symm⟩

/-- **The answer of a nested decision** is right, in what is relied on or in the greatest typing. -/
theorem nested_answers (h : SoundEvaluation d ctx T nodes reader pending i n) {b : Association}
    (hb : Callable ctx.schema nodes reader b) {st : State}
    (hst : st.Sound ctx T (reader :: pending))
    (he : (decideWithin ctx (n + 1) b st).2.errors = []) :
    (decideWithin ctx (n + 1) b st).2.Sound ctx T (reader :: pending) ∧
      (decideWithin ctx (n + 1) b st).2.Answers ctx.schema T i (fun T => b ∈ T)
        (if (decideWithin ctx (n + 1) b st).1 then some [] else none) := by
  have hst' := h.nested b hb st hst he
  refine ⟨hst', ?_⟩
  obtain ⟨e, hdef⟩ := shape?_eq_some hb.2.1
  obtain ⟨v, hv, hanswer⟩ := @decideWith_verdict ctx (decideWithin ctx n) b e hdef st
  rw [← decideWithin] at hv hanswer
  have hne : (decideWithin ctx (n + 1) b st).2.typing.verdict? b ≠ none := by simp [hv]
  by_cases hconf : (decideWithin ctx (n + 1) b st).1 = true
  · rw [if_pos hconf]
    refine (h.mem_relied_iff hst' hb.2.2 hne).2 (Typing.contains_of_ne_fails hne ?_)
    simpa [hv] using hanswer.1 hconf
  · rw [if_neg hconf]
    refine hst'.failed b ?_
    rw [hv]
    by_contra hnf
    exact hconf (hanswer.2 fun h => hnf (by rw [h]))

end SoundEvaluation

/-- Going through the edges keeps states sound: it asks for the values of constraints only. -/
theorem decideEdges_sound (h : SoundEvaluation d ctx T nodes reader pending i n) {x : Shape}
    {cs : List TripleConstraint} {es : List Edge}
    (hcall : ∀ e ∈ es, ∀ c ∈ cs, ∀ l, c.valueLabel? = some l →
      Callable ctx.schema nodes reader ⟨e.other, l⟩)
    {st : State} (hst : st.Sound ctx T (reader :: pending))
    (he : (decideEdges (decideWithin ctx (n + 1)) x cs es st).2.errors = []) :
    (decideEdges (decideWithin ctx (n + 1)) x cs es st).2.Sound ctx T (reader :: pending) := by
  have hthreads := @threads_decideEdges ctx (decideWithin ctx (n + 1)) [] x cs es st
  have hcarries := hthreads.rel (R := State.Carries (State.Sound ctx T (reader :: pending)))
    .refl .trans (by simp) fun r hr => by
      obtain ⟨e, he, c, hc, l, hl, htarget⟩ := target_of_mem_edgeRequests hr
      have hcallable : Callable ctx.schema nodes reader r.target := by
        rw [htarget]
        exact hcall e he c hc l hl
      exact ⟨(decideWithin_extends ctx (n + 1)).decision r.target r.state,
        fun hnil hst => h.nested r.target hcallable r.state hst hnil⟩
  exact hcarries.1.carry he hst

section Matching

variable (h : SoundEvaluation d ctx T nodes reader pending i n) {x : Shape} {c : Compiled}
  (hc : ctx.schema.compile x.expr = .ok c) {negative : Bool}
  (hdeps : ∀ dep ∈ (ShapeExpr.shape x).dependencies ctx.schema.tripleExprs reader.label negative,
    ctx.schema.Descends dep)
  {st : State} (hst : st.Sound ctx T (reader :: pending))
  (hdec : ∀ e ∈ ctx.graph.listed c.constraints x.closed reader.node, ∀ tc ∈ c.constraints,
    tc.matchesEdge e = true → ∀ l, tc.valueLabel? = some l →
      st.typing.verdict? ⟨e.other, l⟩ ≠ none)
include h hc hdeps hst hdec

/-- Once all values have been decided, a constraint accepts an edge if it fits in what is relied
on. -/
theorem accepts_iff_fitsIn {e : Edge}
    (he : e ∈ ctx.graph.listed c.constraints x.closed reader.node) {tc : TripleConstraint}
    (htc : tc ∈ c.constraints) :
    tc.accepts st.typing e = true ↔ tc.FitsIn (st.relied ctx.schema T i) e := by
  rw [TripleConstraint.accepts, TripleConstraint.FitsIn, Bool.and_eq_true]
  refine and_congr_right fun hm => ?_
  cases hl : tc.valueLabel? with
  | none => simp
  | some l =>
    obtain ⟨z, hz, -⟩ := Schema.exists_dependency hc htc hl reader.label negative
    have hiff := h.mem_relied_iff hst (b := ⟨e.other, l⟩) (hdeps _ hz).1 (hdec e he tc htc hm l hl)
    simpa using hiff.symm

/-- **A shape that holds in the greatest typing** holds in what is relied on once all values have
been decided. -/
theorem shape_acceptedIn_relied
    (hT : x.AcceptedIn ctx.schema ctx.graph T reader.node) :
    x.AcceptedIn ctx.schema ctx.graph (st.relied ctx.schema T i) reader.node := by
  refine Shape.acceptedIn_readsEnds ctx.schema ctx.graph T _ reader.node x ?_ hT
  intro c' hc' e he tc htc hmatch l hl
  obtain rfl : c = c' := Except.ok.inj (hc.symm.trans hc')
  obtain ⟨z, hz, -⟩ := Schema.exists_dependency hc htc hl reader.label negative
  obtain ⟨hle, hlt⟩ := hdeps _ hz
  refine ⟨h.mem_relied_of_mem hst hle (hdec e he tc htc hmatch l hl), fun hextra => ?_⟩
  -- the value of an extra predicate is in a lower stratum
  have hextra' : tc.predicate ∈ x.extra := by simpa [Shape.isExtra] using hextra
  exact h.mem_of_mem_relied (hlt (Dependency.strict?_ne_none.2 (.inl (by simp [hextra']))))

/-- **A shape that does not hold in what is relied on** does not hold in the greatest typing. -/
theorem answers_none_of_not_acceptedIn
    (hno : ¬ x.AcceptedIn ctx.schema ctx.graph (st.relied ctx.schema T i) reader.node) :
    st.Answers ctx.schema T i (fun T => x.AcceptedIn ctx.schema ctx.graph T reader.node) none :=
  fun hT => hno (shape_acceptedIn_relied h hc hdeps hst hdec hT)

/-- What the search among bags says about the shape. -/
theorem searchBags_answers (hne : c.constraints ≠ []) {assignable : List (Edge × List ℕ)}
    (ha : assignableEdges st.typing x c.constraints
      (ctx.graph.listed c.constraints x.closed reader.node) = some assignable) :
    (∀ b, searchBags ctx.limits.maxBags c.root
        (.ofCandidates (assignable.map (·.2)) c.constraints.length) = .found b → ∀ ms,
      st.Answers ctx.schema T i (fun T => x.AcceptedIn ctx.schema ctx.graph T reader.node)
        (some ms)) ∧
    (searchBags ctx.limits.maxBags c.root
        (.ofCandidates (assignable.map (·.2)) c.constraints.length) = .notFound →
      st.Answers ctx.schema T i (fun T => x.AcceptedIn ctx.schema ctx.graph T reader.node)
        none) := by
  have hT : ∀ e ∈ ctx.graph.listed c.constraints x.closed reader.node, ∀ tc ∈ c.constraints,
      (tc.accepts st.typing e = true ↔ tc.FitsIn (st.relied ctx.schema T i) e) :=
    fun e he tc htc => accepts_iff_fitsIn h hc hdeps hst hdec he htc
  constructor
  · intro b hb ms
    exact acceptedIn_of_found hc hne hT ha hb
  · intro hno
    apply answers_none_of_not_acceptedIn h hc hdeps hst hdec
    exact not_acceptedIn_of_notFound hc hne hT ha hno

end Matching

/-- The answer for a shape without constraints. -/
theorem answers_of_nil {x : Shape} {c : Compiled} (hc : ctx.schema.compile x.expr = .ok c)
    (hnil : c.constraints = []) (st : State) (node : Term) :
    st.Answers ctx.schema T i (fun T => x.AcceptedIn ctx.schema ctx.graph T node)
      (if !x.closed || (ctx.graph.outEdges node).isEmpty then some [] else none) := by
  by_cases hopen : (!x.closed || (ctx.graph.outEdges node).isEmpty) = true
  · rw [if_pos hopen]
    refine (acceptedIn_iff_of_nil hc hnil).2 fun hclosed => ?_
    simpa [hclosed] using hopen
  · rw [if_neg hopen]
    intro hT
    have hempty := (acceptedIn_iff_of_nil hc hnil).1 hT
    apply hopen
    cases hclosed : x.closed with
    | false => rfl
    | true => simp [hempty hclosed]

/-- **The evaluation of a shape.** -/
theorem satisfiesShape_sound (h : SoundEvaluation d ctx T nodes reader pending i n) {x : Shape}
    (hx : x ∈ ctx.schema.allShapes) {negative : Bool}
    (hdeps : ∀ dep ∈ (ShapeExpr.shape x).dependencies ctx.schema.tripleExprs reader.label negative,
      ctx.schema.Descends dep) {st st' : State} {r : Option (List MatchedTriple)}
    (hst : st.Sound ctx T (reader :: pending))
    (hr : satisfiesShape ctx (decideWithin ctx (n + 1)) reader.node x st = .ok r st')
    (he : st'.errors = []) :
    st'.Sound ctx T (reader :: pending) ∧ st'.Answers ctx.schema T i
      (fun T => x.AcceptedIn ctx.schema ctx.graph T reader.node) r := by
  rw [satisfiesShape_eq] at hr
  have hcached := compiledShape_cached h.grounds.builds hx hst.cached
  cases hcomp : compiledShape ctx x st with
  | error err st₁ =>
    rw [hcomp] at hr
    cases hr
  | ok c st₁ =>
  rw [hcomp] at hr hcached
  obtain ⟨hc, htyping⟩ := compiledShape_ok hx hst.cached hcomp
  have hst₁ : st₁.Sound ctx T (reader :: pending) :=
    hst.of_verdict?_eq h.grounds hcached fun b => by rw [htyping]
  simp only [neighbourhood_eq hc] at hr
  by_cases hnil : c.constraints = []
  · rw [if_pos (by simp [hnil])] at hr
    cases hr
    exact ⟨hst₁, answers_of_nil hc hnil st' reader.node⟩
  rw [if_neg (by simpa using hnil)] at hr
  have hcall : ∀ e ∈ ctx.graph.listed c.constraints x.closed reader.node, ∀ tc ∈ c.constraints,
      ∀ l, tc.valueLabel? = some l → Callable ctx.schema nodes reader ⟨e.other, l⟩ := by
    intro e he tc htc l hl
    rw [← neighbourhood_eq hc] at he
    exact callable_of_constraint h.grounds.builds h.nodes_mem hc hdeps he htc hl
  have hedges := decideEdges_sound h (x := x) hcall hst₁
  cases hd : decideEdges (decideWithin ctx (n + 1)) x c.constraints
      (ctx.graph.listed c.constraints x.closed reader.node) st₁ with
  | mk fit st₂ =>
  rw [hd] at hr hedges
  cases fit with
  | false =>
    cases hr
    obtain ⟨e, hmem, hextra, hunmatched⟩ := decideEdges_eq_false hd
    refine ⟨hedges he, fun hhold => ?_⟩
    exact not_acceptedIn_of_unmatched hc hnil hmem hextra hunmatched hhold
  | true =>
    have hdec := decided_of_callable hcall hd
    cases ha : assignableEdges st₂.typing x c.constraints
        (ctx.graph.listed c.constraints x.closed reader.node) with
    | none =>
      simp only [ha] at hr
      cases hr
      have hst' : st'.Sound ctx T (reader :: pending) := hedges he
      refine ⟨hst', answers_none_of_not_acceptedIn h hc hdeps hst' hdec ?_⟩
      exact not_acceptedIn_of_none hc hnil
        (fun e he tc htc => accepts_iff_fitsIn h hc hdeps hst' hdec he htc) ha
    | some assignable =>
      simp only [ha] at hr
      split at hr
      · rename_i b hb
        cases hr
        have hst' : st'.Sound ctx T (reader :: pending) := hedges he
        exact ⟨hst', (searchBags_answers h hc hdeps hst' hdec hnil ha).1 b hb _⟩
      · rename_i hno
        cases hr
        have hst' : st'.Sound ctx T (reader :: pending) := hedges he
        exact ⟨hst', (searchBags_answers h hc hdeps hst' hdec hnil ha).2 hno⟩
      · cases hr

mutual
/-- **The evaluation of an expression.** -/
theorem satisfies_sound (h : SoundEvaluation d ctx T nodes reader pending i n) :
    (negative : Bool) → (e : ShapeExpr) → (∀ x ∈ e.shapes, x ∈ ctx.schema.allShapes) →
    (∀ dep ∈ e.dependencies ctx.schema.tripleExprs reader.label negative,
      ctx.schema.Descends dep) → {st st' : State} → {r : Option (List MatchedTriple)} →
    st.Sound ctx T (reader :: pending) →
    satisfies ctx (decideWithin ctx (n + 1)) reader.node e st = .ok r st' → st'.errors = [] →
    st'.Sound ctx T (reader :: pending) ∧ st'.Answers ctx.schema T i
      (fun T => e.HoldsIn (Shape.AcceptedIn ctx.schema ctx.graph) T reader.node) r
  | negative, .and es, hs, hdeps, st, st', r, hst, hr, he => by
    rw [ShapeExpr.dependencies] at hdeps
    rw [satisfies] at hr
    simp only [ShapeExpr.HoldsIn]
    exact satisfiesAll_sound h negative es hs hdeps hst hr he
  | negative, .or es, hs, hdeps, st, st', r, hst, hr, he => by
    rw [ShapeExpr.dependencies] at hdeps
    rw [satisfies] at hr
    simp only [ShapeExpr.HoldsIn]
    exact satisfiesAny_sound h negative es hs hdeps hst hr he
  | negative, .not e, hs, hdeps, st, st', r, hst, hr, he => by
    rw [ShapeExpr.dependencies] at hdeps
    rw [satisfies_not] at hr
    simp only [ShapeExpr.HoldsIn]
    -- what is relied on and `T` change places under the negation
    cases hev : satisfies ctx (decideWithin ctx (n + 1)) reader.node e st with
    | error err st₁ =>
      rw [hev] at hr
      cases hr
    | ok r₁ st₁ =>
      rw [hev] at hr
      cases r₁ with
      | none =>
        cases hr
        obtain ⟨hst', hno⟩ := satisfies_sound h true e hs hdeps hst hev he
        exact ⟨hst', fun hhold => hno ((h.holdsIn_relied_iff hdeps).1 hhold)⟩
      | some ms =>
        cases hr
        obtain ⟨hst', hhold⟩ := satisfies_sound h true e hs hdeps hst hev he
        exact ⟨hst', fun hno => hno ((h.holdsIn_relied_iff hdeps).1 hhold)⟩
  | negative, .node c, _, _, st, st', r, hst, hr, he => by
    rw [satisfies_node] at hr
    simp only [ShapeExpr.HoldsIn]
    cases hc : c.holds? ctx.limits reader.node with
    | error err =>
      rw [hc] at hr
      cases hr
    | ok b =>
      rw [hc] at hr
      have hiff := NodeConstraint.holds_iff hc
      cases b with
      | true =>
        cases hr
        exact ⟨hst, hiff.2 rfl⟩
      | false =>
        cases hr
        refine ⟨hst, fun hhold => ?_⟩
        cases hiff.1 hhold
  | negative, .shape x, hs, hdeps, st, st', r, hst, hr, he => by
    rw [satisfies] at hr
    simp only [ShapeExpr.HoldsIn]
    exact satisfiesShape_sound h (hs x (by simp [ShapeExpr.shapes])) hdeps hst hr he
  | negative, .external, _, _, st, st', r, _, hr, _ => by
    rw [satisfies] at hr
    cases hr
  | negative, .ref l, _, hdeps, st, st', r, hst, hr, he => by
    obtain ⟨hle, -⟩ := hdeps ⟨reader.label, l, negative, false⟩ (by simp [ShapeExpr.dependencies])
    obtain ⟨j, -, hj, -⟩ := id hle
    have hl : l ∈ ctx.schema.labels := h.grounds.builds.mem_labels_of_stratum? hj
    have hnode : reader.node ∈ nodes := (h.stack.bounded reader List.mem_cons_self).1
    rw [satisfies_ref] at hr
    obtain ⟨rfl, rfl⟩ := EStateM.Result.ok.inj hr
    simp only [ShapeExpr.HoldsIn]
    exact h.nested_answers (b := ⟨reader.node, l⟩) ⟨hnode, hl, hle⟩ hst he

theorem satisfiesAll_sound (h : SoundEvaluation d ctx T nodes reader pending i n) :
    (negative : Bool) → (es : List ShapeExpr) →
    (∀ x ∈ ShapeExpr.shapesOfList es, x ∈ ctx.schema.allShapes) →
    (∀ dep ∈ ShapeExpr.dependenciesOfList ctx.schema.tripleExprs reader.label negative es,
      ctx.schema.Descends dep) → {st st' : State} → {r : Option (List MatchedTriple)} →
    st.Sound ctx T (reader :: pending) →
    satisfiesAll ctx (decideWithin ctx (n + 1)) reader.node es st = .ok r st' → st'.errors = [] →
    st'.Sound ctx T (reader :: pending) ∧ st'.Answers ctx.schema T i
      (fun T => ShapeExpr.AllHoldIn (Shape.AcceptedIn ctx.schema ctx.graph) T reader.node es) r
  | _, [], _, _, st, st', r, hst, hr, _ => by
    rw [satisfiesAll] at hr
    cases hr
    exact ⟨hst, trivial⟩
  | negative, e :: es, hs, hdeps, st, st', r, hst, hr, he => by
    rw [ShapeExpr.dependenciesOfList] at hdeps
    have hdepse := fun dep hm => hdeps dep (List.mem_append_left _ hm)
    rw [satisfiesAll_cons] at hr
    simp only [ShapeExpr.AllHoldIn]
    cases hev : satisfies ctx (decideWithin ctx (n + 1)) reader.node e st with
    | error err st₁ =>
      rw [hev] at hr
      cases hr
    | ok r₁ st₁ =>
    rw [hev] at hr
    have hfirst := fun hnil => satisfies_sound h negative e
      (fun x hm => hs x (List.mem_append_left _ hm)) hdepse hst hev hnil
    cases r₁ with
    | none =>
      cases hr
      obtain ⟨hst', hno⟩ := hfirst he
      exact ⟨hst', fun hhold => hno hhold.1⟩
    | some ms =>
    have hext : st₁.Extends
        (finalState (satisfiesAll ctx (decideWithin ctx (n + 1)) reader.node es st₁)) :=
      satisfiesAll_rel (decideWithin_extends ctx (n + 1)) es
        (fun x _ => compiledShape_extends ctx x) st₁
    cases hevs : satisfiesAll ctx (decideWithin ctx (n + 1)) reader.node es st₁ with
    | error err st₂ =>
      simp only [hevs] at hr
      cases hr
    | ok r₂ st₂ =>
    rw [hevs] at hext
    simp only [hevs] at hr
    obtain ⟨hr', rfl⟩ := EStateM.Result.ok.inj hr
    obtain ⟨hst₁, hhold⟩ := hfirst (hext.errors_eq_nil he)
    obtain ⟨hst', hrest⟩ := satisfiesAll_sound h negative es
      (fun x hm => hs x (List.mem_append_right _ hm))
      (fun dep hm => hdeps dep (List.mem_append_right _ hm)) hst₁ hevs he
    subst hr'
    refine ⟨hst', ?_⟩
    -- the first conjunct was found to hold in what was relied on earlier
    cases r₂ with
    | none => exact fun hall => hrest hall.2
    | some ms' => exact ⟨h.holdsIn_extends hdepse hext hhold, hrest⟩

theorem satisfiesAny_sound (h : SoundEvaluation d ctx T nodes reader pending i n) :
    (negative : Bool) → (es : List ShapeExpr) →
    (∀ x ∈ ShapeExpr.shapesOfList es, x ∈ ctx.schema.allShapes) →
    (∀ dep ∈ ShapeExpr.dependenciesOfList ctx.schema.tripleExprs reader.label negative es,
      ctx.schema.Descends dep) → {st st' : State} → {r : Option (List MatchedTriple)} →
    st.Sound ctx T (reader :: pending) →
    satisfiesAny ctx (decideWithin ctx (n + 1)) reader.node es st = .ok r st' → st'.errors = [] →
    st'.Sound ctx T (reader :: pending) ∧ st'.Answers ctx.schema T i
      (fun T => ShapeExpr.AnyHoldsIn (Shape.AcceptedIn ctx.schema ctx.graph) T reader.node es) r
  | _, [], _, _, st, st', r, hst, hr, _ => by
    rw [satisfiesAny] at hr
    cases hr
    exact ⟨hst, id⟩
  | negative, e :: es, hs, hdeps, st, st', r, hst, hr, he => by
    rw [ShapeExpr.dependenciesOfList] at hdeps
    rw [satisfiesAny_cons] at hr
    simp only [ShapeExpr.AnyHoldsIn]
    cases hev : satisfies ctx (decideWithin ctx (n + 1)) reader.node e st with
    | error err st₁ =>
      rw [hev] at hr
      cases hr
    | ok r₁ st₁ =>
    rw [hev] at hr
    have hfirst := fun hnil => satisfies_sound h negative e
      (fun x hm => hs x (List.mem_append_left _ hm))
      (fun dep hm => hdeps dep (List.mem_append_left _ hm)) hst hev hnil
    cases r₁ with
    | some ms =>
      cases hr
      obtain ⟨hst', hhold⟩ := hfirst he
      exact ⟨hst', .inl hhold⟩
    | none =>
    simp only at hr
    have hext : st₁.Extends
        (finalState (satisfiesAny ctx (decideWithin ctx (n + 1)) reader.node es st₁)) :=
      satisfiesAny_rel (decideWithin_extends ctx (n + 1)) es
        (fun x _ => compiledShape_extends ctx x) st₁
    rw [hr] at hext
    obtain ⟨hst₁, hno⟩ := hfirst (hext.errors_eq_nil he)
    obtain ⟨hst', hrest⟩ := satisfiesAny_sound h negative es
      (fun x hm => hs x (List.mem_append_right _ hm))
      (fun dep hm => hdeps dep (List.mem_append_right _ hm)) hst₁ hr he
    refine ⟨hst', ?_⟩
    cases r with
    | none => exact fun hany => hany.elim hno hrest
    | some ms => exact .inr hrest
end

end Evaluation

end ShapeTyping
