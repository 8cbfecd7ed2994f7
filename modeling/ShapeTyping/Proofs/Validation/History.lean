import Mathlib
import ShapeTyping.Proofs.Schema.References
import ShapeTyping.Proofs.Validation.Trace

/-!
# The history of a run

The typing of a run changes in two ways: an association is assumed, or an assumption is resolved.
The history of a decision lists these changes, each with the state after it, those of nested
decisions between the two of their own association.

* `Change`, `Snapshot`: a change of the typing, and the state after it.
* `historyWithin`, `Validator.history`, `Validator.historyOf`: the changes of a decision, of a call
  and of successive calls.
* `Typing.Step`: what a change does to the typing.
* `RegardsCache.of_mem_history`: what the history does to the cache.
* `Leads`, `decideWithin_leads`, `Validator.run_leads`: the history of a run is all that happens to
  the typing.
* `Typing.listed`: the associations with a verdict.
-/

namespace ShapeTyping

/-! ### Changes of the typing -/

inductive Change where
  | assumed (a : Association)
  | resolved (a : Association)
  deriving DecidableEq

/-- A change of the typing, the associations that are pending after it, the latest first, and the
state after it. -/
structure Snapshot where
  change : Change
  pending : List Association
  state : State

/-- The changes of a decision while some associations are pending. -/
def historyWithin (ctx : Context) : ℕ → List Association → Association → State → List Snapshot
  | 0, _, _, _ => []
  | n + 1, pending, a, st =>
    match st.typing.verdict? a with
    | some _ => []
    | none =>
      match ctx.schema.shape? a.label with
      | none => []
      | some _ =>
        ⟨.assumed a, a :: pending, st.open a⟩ ::
          ((decisionRequests ctx (decideWithin ctx n) a st).flatMap fun r =>
            historyWithin ctx n (a :: pending) r.target r.state) ++
          [⟨.resolved a, pending, (decideWithin ctx (n + 1) a st).2⟩]

/-- The state that a call starts with. -/
def Validator.start (v : Validator) : State := { v.state with errors := [], depth := 0 }

/-- The changes of a call. -/
def Validator.history (v : Validator) (a : Association) : List Snapshot :=
  historyWithin v.context v.context.maxNesting [] a v.start

/-- The changes of successive calls. -/
def Validator.historyOf (v : Validator) : List Association → List Snapshot
  | [] => []
  | a :: as => v.history a ++ historyOf (v.validate a).2 as

/-- The changes of a decision that evaluates a definition. -/
theorem historyWithin_succ {ctx : Context} {n : ℕ} {pending : List Association} {a : Association}
    {st : State} {e : ShapeExpr} (ha : st.typing.verdict? a = none)
    (he : ctx.schema.shape? a.label = some e) :
    historyWithin ctx (n + 1) pending a st =
      ⟨.assumed a, a :: pending, st.open a⟩ ::
        ((decisionRequests ctx (decideWithin ctx n) a st).flatMap fun r =>
          historyWithin ctx n (a :: pending) r.target r.state) ++
        [⟨.resolved a, pending, (decideWithin ctx (n + 1) a st).2⟩] := by
  rw [historyWithin, ha]
  simp only [he]

/-! ### Steps of a typing -/

/-- What a change does to the typing. Only an association without a verdict is assumed, and only an
assumption is resolved. -/
inductive Typing.Step : Change → Typing → Typing → Prop where
  | assume {t : Typing} {a : Association} (ha : t.verdict? a = none) :
    Step (.assumed a) t (t.hypothesize a)
  | confirm {t : Typing} {a : Association} {ms : List MatchedTriple}
    (ha : t.verdict? a = some .hypothesis) : Step (.resolved a) t (t.confirm a ms)
  | refute {t : Typing} {a : Association} {checkpoint : ℕ}
    (ha : t.verdict? a = some .hypothesis) : Step (.resolved a) t (t.refute a checkpoint)

/-- Whether the changes in a list lead from a typing to another one, where nothing else happens but
that all conclusions become final when a call returns. -/
inductive Leads : Typing → List Snapshot → Typing → Prop where
  | done (t : Typing) : Leads t [] t
  | step {t t' : Typing} {m : Snapshot} {ms : List Snapshot} (h : Typing.Step m.change t m.state.typing)
    (hrest : Leads m.state.typing ms t') : Leads t (m :: ms) t'
  | commit {t t' : Typing} {ms : List Snapshot} (hrest : Leads t.commit ms t') : Leads t ms t'

namespace Leads

variable {t t' t'' : Typing} {ms ms' : List Snapshot}

theorem append (h : Leads t ms t') (h' : Leads t' ms' t'') : Leads t (ms ++ ms') t'' := by
  induction h with
  | done => exact h'
  | step hstep _ ih => exact .step hstep (ih h')
  | commit _ ih => exact .commit (ih h')

/-- **The changes up to a moment** lead to the typing of the moment, and the others go on from
there. -/
theorem split {early late : List Snapshot} {m : Snapshot} (h : Leads t (early ++ m :: late) t') :
    Leads t (early ++ [m]) m.state.typing ∧ Leads m.state.typing late t' := by
  generalize hms : early ++ m :: late = ms at h
  induction h generalizing early with
  | done => simp at hms
  | step hstep hrest ih =>
    cases early with
    | nil =>
      cases hms
      exact ⟨.step hstep (.done _), hrest⟩
    | cons m' early =>
      obtain ⟨rfl, htail⟩ := List.cons.inj hms
      obtain ⟨hearly, hlate⟩ := ih htail
      exact ⟨.step hstep hearly, hlate⟩
  | commit _ ih =>
    obtain ⟨hearly, hlate⟩ := ih hms
    exact ⟨.commit hearly, hlate⟩

/-- **What each change keeps** holds at the end and at each moment. -/
theorem invariant {P : Typing → Prop} (hstep : ∀ {ch t t'}, Typing.Step ch t t' → P t → P t')
    (hcommit : ∀ t, P t → P t.commit) (h : Leads t ms t') (ht : P t) :
    P t' ∧ ∀ m ∈ ms, P m.state.typing := by
  induction h with
  | done => exact ⟨ht, by simp⟩
  | step hs _ ih =>
    obtain ⟨hend, hall⟩ := ih (hstep hs ht)
    exact ⟨hend, List.forall_mem_cons.2 ⟨hstep hs ht, hall⟩⟩
  | commit _ ih => exact ih (hcommit _ ht)

end Leads

/-! ### The history of a decision -/

section Decisions

variable {ctx : Context}

/-- Requests lead from the typing at their beginning to the one at their end, if each of them
does. -/
theorem Threads.leads {recur : Decider} {xs : List Shape} {st st' : State} {rs : List Request}
    {ms : Request → List Snapshot} (h : Threads ctx recur xs st rs st')
    (hask : ∀ r ∈ rs, Leads r.state.typing (ms r) (recur r.target r.state).2.typing) :
    Leads st.typing (rs.flatMap ms) st'.typing := by
  induction h with
  | done => exact .done _
  | @compile x st _ _ _ _ ih =>
    rw [← typing_compiledShape ctx x st]
    exact ih hask
  | ask _ ih =>
    rw [List.flatMap_cons]
    exact (hask _ List.mem_cons_self).append (ih fun r hr => hask r (List.mem_cons_of_mem _ hr))

/-- While the definition of an association is evaluated, it is assumed, and nested decisions account
for all changes since then. -/
theorem evaluateDefinition_leads {n : ℕ} {pending : List Association} {a : Association}
    {st : State} {e : ShapeExpr} (ha : st.typing.verdict? a = none)
    (he : ctx.schema.shape? a.label = some e)
    (hnested : ∀ r : Request, Leads r.state.typing
      (historyWithin ctx n (a :: pending) r.target r.state)
      (decideWithin ctx n r.target r.state).2.typing) {st' : State}
    (hev : finalState (evaluateDefinition ctx (decideWithin ctx n) a.node e (st.open a)) = st') :
    st'.typing.verdict? a = some .hypothesis ∧
      Leads (st.open a).typing ((decisionRequests ctx (decideWithin ctx n) a st).flatMap fun r =>
        historyWithin ctx n (a :: pending) r.target r.state) st'.typing := by
  have hext : (st.open a).Extends
      (finalState (evaluateDefinition ctx (decideWithin ctx n) a.node e (st.open a))) :=
    evaluateDefinition_extends (decideWithin_extends ctx n) a.node e (st.open a)
  have hthreads := @threads_evaluateDefinition ctx (decideWithin ctx n) a.node e (st.open a)
  rw [hev] at hext hthreads
  rw [← decisionRequests_of_defined ha he] at hthreads
  exact ⟨hext.kept a _ (by simp [verdict?_open]), hthreads.leads fun r _ => hnested r⟩

/-- **The history of a decision** leads from the typing before it to the one after it. -/
theorem decideWithin_leads (n : ℕ) (pending : List Association) (a : Association) (st : State) :
    Leads st.typing (historyWithin ctx n pending a st) (decideWithin ctx n a st).2.typing := by
  induction n generalizing pending a st with
  | zero => exact .done _
  | succ n ih =>
    have hnested := fun r : Request => ih (a :: pending) r.target r.state
    generalize hd : decideWith ctx (decideWithin ctx n) a st = d
    have hd' : decideWithin ctx (n + 1) a st = d := hd
    rw [hd']
    -- only the evaluation of a definition changes the typing
    cases decision hd with
    | known hv =>
      rw [historyWithin, hv]
      exact .done _
    | undefined ha hl =>
      rw [historyWithin, ha]
      simp only [hl]
      exact .done _
    | @evaluated e r st' ha he hev =>
      obtain ⟨hhyp, hleads⟩ := evaluateDefinition_leads ha he hnested (congrArg finalState hev)
      rw [historyWithin_succ ha he, hd']
      refine .step (.assume ha) (hleads.append (.step ?_ (.done _)))
      cases r with
      | none => exact .refute hhyp
      | some ms => exact .confirm hhyp
    | failed ha he hev =>
      obtain ⟨hhyp, hleads⟩ := evaluateDefinition_leads ha he hnested (congrArg finalState hev)
      rw [historyWithin_succ ha he, hd']
      exact .step (.assume ha) (hleads.append (.step (.refute hhyp) (.done _)))

/-- **What regards the cache only** relates the state before a decision to that at each of its
changes. -/
theorem RegardsCache.of_mem_history {R : State → State → Prop} (hR : RegardsCache ctx R) {n : ℕ}
    {pending : List Association} {a : Association} {st : State} {m : Snapshot}
    (hm : m ∈ historyWithin ctx n pending a st) : R st m.state := by
  induction n generalizing pending a st with
  | zero => cases hm
  | succ n ih =>
    cases ha : st.typing.verdict? a with
    | some v => simp [historyWithin, ha] at hm
    | none =>
    cases he : ctx.schema.shape? a.label with
    | none => simp [historyWithin, ha, he] at hm
    | some e =>
    rw [historyWithin_succ ha he, List.cons_append, List.mem_cons, List.mem_append,
      List.mem_flatMap, List.mem_singleton] at hm
    rcases hm with rfl | ⟨r, hr, hm⟩ | rfl
    · exact hR.same rfl
    · exact hR.trans (hR.of_mem_requests hr) (ih hm)
    · exact (hR.respects (n + 1)).decision a st

end Decisions

/-! ### The history of successive calls -/

namespace Validator

/-- **A call on a label of the schema** answers with the first error of its decision if there is
one, and all conclusions become final. -/
theorem validate_of_defined {v : Validator} {a : Association}
    (hl : a.label ∈ v.context.schema.labels) {conforms : Bool} {st : State}
    (hdec : decideWithin v.context v.context.maxNesting a v.start = (conforms, st)) :
    v.validate a = ((match st.errors with | e :: _ => .error e | [] => .ok conforms),
      { v with state := { st with typing := st.typing.commit, errors := [] } }) := by
  have hcontains : v.context.schema.contains a.label = true := Schema.isSome_shape?_iff.2 hl
  rw [start] at hdec
  rw [validate, if_pos hcontains]
  obtain ⟨_, _, errors, _⟩ := st
  cases errors <;> simp only [hdec]

/-- A label that is not defined is not looked at. -/
theorem validate_of_undefined {v : Validator} {a : Association}
    (hl : a.label ∉ v.context.schema.labels) :
    v.validate a = (.error (.unknownShape a.label), v) := by
  have hcontains : ¬v.context.schema.contains a.label = true := mt Schema.isSome_shape?_iff.1 hl
  rw [validate, if_neg hcontains]

theorem validate_leads (v : Validator) (a : Association) :
    Leads v.typing (v.history a) (v.validate a).2.typing := by
  have hleads := @decideWithin_leads v.context v.context.maxNesting [] a v.start
  unfold validate
  split
  · exact (List.append_nil (v.history a)) ▸ hleads.append (.commit (.done _))
  · rename_i hl
    -- the call returns before any decision, and the history has no change either
    have hundefined : v.context.schema.shape? a.label = none := by
      simpa [Schema.contains] using hl
    rw [history, Context.maxNesting, historyWithin]
    simp only [hundefined]
    split <;> exact .done _

/-- **The history of successive calls** is all that happens to the typing. -/
theorem run_leads (v : Validator) (calls : List Association) :
    Leads v.typing (v.historyOf calls) (v.run calls).2.typing := by
  induction calls generalizing v with
  | nil => exact .done _
  | cons a calls ih => exact (v.validate_leads a).append (ih (v.validate a).2)

end Validator

/-! ### Associations with a verdict -/

theorem Table.get?_eq_some_iff {κ α : Type} [DecidableEq κ] {t : Table κ α} (h : t.keys.Nodup)
    {k : κ} {x : α} : t.get? k = some x ↔ (k, x) ∈ t := by
  induction t with
  | nil => simp [Table.get?]
  | cons p t ih =>
    obtain ⟨l, y⟩ := p
    obtain ⟨hl, hnodup⟩ := List.nodup_cons.1 h
    have hkey : ∀ x, (l, x) ∉ t := fun x hx => hl (List.mem_map.2 ⟨(l, x), hx, rfl⟩)
    rw [Table.get?_cons, List.mem_cons]
    by_cases hk : k = l
    · subst hk
      simp [hkey, eq_comm]
    · simp [hk, ih hnodup]

namespace Typing

/-- The tables of a typing: each node is listed once, and each of its labels once. A node that is
listed has some verdict. -/
structure Proper (t : Typing) : Prop where
  nodes : t.byNode.keys.Nodup
  labels : ∀ p ∈ t.byNode, p.2.keys.Nodup
  occupied : ∀ p ∈ t.byNode, p.2 ≠ []

/-- The associations with a verdict. -/
def listed (t : Typing) (v : Verdict) : List Association :=
  (t.verdicts.filter (·.2 = v)).map (·.1)

variable {t t' : Typing}

theorem proper_empty : empty.Proper := ⟨List.nodup_nil, by simp [empty], by simp [empty]⟩

theorem Proper.mem_verdicts (h : t.Proper) {a : Association} {v : Verdict} :
    (a, v) ∈ t.verdicts ↔ t.verdict? a = some v := by
  simp only [verdict?, Option.bind_eq_some_iff, Table.get?_eq_some_iff h.nodes, verdicts,
    List.mem_flatMap, List.mem_map]
  constructor
  · rintro ⟨⟨n, ls⟩, hn, ⟨l, w⟩, hl, ⟨⟩⟩
    exact ⟨ls, hn, (Table.get?_eq_some_iff (h.labels _ hn)).2 hl⟩
  · rintro ⟨ls, hn, hl⟩
    exact ⟨(a.node, ls), hn, (a.label, v), (Table.get?_eq_some_iff (h.labels _ hn)).1 hl, rfl⟩

/-- **Each association has one verdict** at most. -/
theorem Proper.nodup_keys_verdicts (h : t.Proper) : t.verdicts.keys.Nodup := by
  have hnodes := List.pairwise_map.1 h.nodes
  rw [Table.keys, verdicts, List.map_flatMap, List.nodup_flatMap]
  refine ⟨fun p hp => ?_, hnodes.imp fun {p q} hpq => ?_⟩
  · have hlabels := h.labels p hp
    rw [Table.keys, List.nodup_map_iff_inj_on (List.Nodup.of_map _ hlabels)] at hlabels
    rw [List.map_map, List.nodup_map_iff_inj_on (List.Nodup.of_map _ (h.labels p hp))]
    intro x hx y hy hxy
    exact hlabels x hx y hy (congrArg Association.label hxy)
  · -- associations of different nodes are different
    rintro a hp hq
    obtain ⟨_, ha, rfl⟩ := List.mem_map.1 hp
    obtain ⟨_, -, rfl⟩ := List.mem_map.1 ha
    obtain ⟨_, hb, hba⟩ := List.mem_map.1 hq
    obtain ⟨_, -, rfl⟩ := List.mem_map.1 hb
    exact hpq (congrArg Association.node hba).symm

theorem Proper.mem_listed (h : t.Proper) {a : Association} {v : Verdict} :
    a ∈ t.listed v ↔ t.verdict? a = some v := by
  rw [listed, List.mem_map, ← h.mem_verdicts]
  constructor
  · rintro ⟨⟨b, w⟩, hb, rfl⟩
    obtain ⟨hmem, hw⟩ := List.mem_filter.1 hb
    obtain rfl : w = v := by simpa using hw
    exact hmem
  · intro ha
    exact ⟨(a, v), List.mem_filter.2 ⟨ha, by simp⟩, rfl⟩

theorem Proper.nodup_listed (h : t.Proper) (v : Verdict) : (t.listed v).Nodup :=
  List.Nodup.sublist (List.filter_sublist.map _) h.nodup_keys_verdicts

theorem Proper.nodup_keys_verdictsOf (h : t.Proper) (n : Term) : (t.verdictsOf n).keys.Nodup := by
  unfold verdictsOf
  cases hn : t.byNode.get? n with
  | none => exact List.nodup_nil
  | some ls => exact h.labels _ ((Table.get?_eq_some_iff h.nodes).1 hn)

theorem Proper.insert_byNode (h : t.Proper) (n : Term) {ls : Table Label Verdict}
    (hls : ls.keys.Nodup) (hne : ls ≠ []) :
    Proper { t with byNode := t.byNode.insert n ls } where
  nodes := Table.nodup_keys_insert h.nodes n ls
  labels := List.forall_mem_cons.2 ⟨hls, fun p hp => h.labels p (List.mem_filter.1 hp).1⟩
  occupied := List.forall_mem_cons.2 ⟨hne, fun p hp => h.occupied p (List.mem_filter.1 hp).1⟩

theorem Proper.setVerdict (h : t.Proper) (a : Association) (v : Verdict) :
    (t.setVerdict a v).Proper :=
  h.insert_byNode a.node (Table.nodup_keys_insert (h.nodup_keys_verdictsOf a.node) _ _)
    (List.cons_ne_nil _ _)

theorem Proper.dropVerdict (h : t.Proper) (a : Association) : (t.dropVerdict a).Proper := by
  unfold Typing.dropVerdict
  simp only
  split
  · exact ⟨Table.nodup_keys_erase h.nodes a.node, fun p hp => h.labels p (List.mem_filter.1 hp).1,
      fun p hp => h.occupied p (List.mem_filter.1 hp).1⟩
  · rename_i hne
    exact h.insert_byNode a.node (Table.nodup_keys_erase (h.nodup_keys_verdictsOf a.node) _)
      (by simpa using hne)

/-- The matched triples and the log do not matter. -/
theorem Proper.of_byNode_eq (h : t.Proper) (ht : t'.byNode = t.byNode) : t'.Proper :=
  ⟨ht ▸ h.nodes, ht ▸ h.labels, ht ▸ h.occupied⟩

theorem proper_forget (h : t.Proper) (a : Association) : (t.forget a).Proper := by
  unfold forget
  split
  · exact (h.dropVerdict a).of_byNode_eq rfl
  · exact h

theorem proper_rollback (h : t.Proper) (checkpoint : ℕ) : (t.rollback checkpoint).Proper := by
  have hall : ∀ l : List Association, (l.foldr (fun a t => t.forget a) t).Proper := by
    intro l
    induction l with
    | nil => exact h
    | cons a l ih => exact proper_forget ih a
  exact (hall _).of_byNode_eq rfl

/-- **A change** keeps the tables of a typing proper. -/
theorem Step.proper {ch : Change} (hstep : Step ch t t') (h : t.Proper) : t'.Proper := by
  cases hstep with
  | assume => exact (h.setVerdict _ _).of_byNode_eq rfl
  | confirm =>
    unfold Typing.confirm
    simp only
    split <;> exact (h.setVerdict _ _).of_byNode_eq rfl
  | @refute _ a checkpoint =>
    have hrest : ((t.rollback checkpoint).dropMatched a).Proper :=
      (proper_rollback h checkpoint).of_byNode_eq rfl
    exact hrest.setVerdict a .fails

end Typing

end ShapeTyping
