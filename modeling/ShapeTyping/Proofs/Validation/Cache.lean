import Mathlib
import ShapeTyping.Proofs.Schema.References
import ShapeTyping.Proofs.Validation.Frame

/-!
# The cache of compiled shapes

The shapes of a built schema are numbered apart, so what is remembered under the number of a
shape was compiled from its own expression.

* `Definitions.Builds.map_index_allShapes`, `Definitions.Builds.shape_eq_of_index_eq`: shapes are
  numbered consecutively, and a number determines its shape.
* `State.Cached`: each slot of the cache holds the compiled expression of the shape it belongs to.
* `State.Ready`, `State.Tabulated`: each shape has a slot as well.
* `compiledShape_ok`, `compiledShape_ready`: a compiled shape comes from the expression of the
  shape.
* `regardsCache_cached`, `regardsCache_tabulated`: what stays of the cache.
* `decideWithin_cached`: decisions keep the cache so.
-/

namespace ShapeTyping

/-! ### Numbers of shapes -/

namespace ShapeExpr

mutual
/-- The shapes of a numbered expression have the numbers from the given one on. -/
theorem map_index_number : (k : ℕ) → (e : ShapeExpr) →
    ∃ n, (number k e).2 = k + n ∧ (number k e).1.shapes.map (·.index) = List.range' k n
  | k, and es => by
    rw [number]
    exact map_index_numberList k es
  | k, or es => by
    rw [number]
    exact map_index_numberList k es
  | k, not e => by
    rw [number]
    exact map_index_number k e
  | k, shape s => ⟨1, rfl, rfl⟩
  | k, node _ => ⟨0, rfl, rfl⟩
  | k, external => ⟨0, rfl, rfl⟩
  | k, ref _ => ⟨0, rfl, rfl⟩

theorem map_index_numberList : (k : ℕ) → (es : List ShapeExpr) →
    ∃ n, (numberList k es).2 = k + n ∧
      (shapesOfList (numberList k es).1).map (·.index) = List.range' k n
  | k, [] => ⟨0, rfl, rfl⟩
  | k, e :: es => by
    obtain ⟨m, hm, hms⟩ := map_index_number k e
    obtain ⟨n, hn, hns⟩ := map_index_numberList (number k e).2 es
    refine ⟨m + n, ?_, ?_⟩
    · rw [numberList, hn, hm, Nat.add_assoc]
    · rw [numberList, shapesOfList, List.map_append, hms, hns, hm, List.range'_append_1]
end

theorem shapesOfList_eq_flatMap (es : List ShapeExpr) :
    shapesOfList es = es.flatMap (·.shapes) := by
  induction es with
  | nil => rfl
  | cons e es ih => rw [shapesOfList, ih, List.flatMap_cons]

end ShapeExpr

/-- The shapes of all definitions. -/
def Schema.allShapes (s : Schema) : List Shape := s.shapes.flatMap (·.2.shapes)

theorem Schema.mem_allShapes {s : Schema} {l : Label} {e : ShapeExpr} {x : Shape}
    (hl : (l, e) ∈ s.shapes) (hx : x ∈ e.shapes) : x ∈ s.allShapes :=
  List.mem_flatMap.2 ⟨(l, e), hl, hx⟩

/-- The shapes of a built schema are those of its numbered definitions. -/
theorem Definitions.Builds.allShapes_eq {d : Definitions} {s : Schema} (h : d.Builds s) :
    s.allShapes =
      ShapeExpr.shapesOfList (ShapeExpr.numberList 0 (d.hoist.shapes.map (·.2))).1 := by
  have hlen := (ShapeExpr.numberList_forall₂ 0 (d.hoist.shapes.map (·.2))).length_eq
  have hsnd : s.shapes.map (·.2) = (ShapeExpr.numberList 0 (d.hoist.shapes.map (·.2))).1 := by
    rw [h.shapes, List.map_snd_zip (by rw [← hlen]; simp)]
  rw [ShapeExpr.shapesOfList_eq_flatMap, ← hsnd, List.flatMap_map]
  rfl

/-- The shapes of a built schema are numbered consecutively. -/
theorem Definitions.Builds.map_index_allShapes {d : Definitions} {s : Schema} (h : d.Builds s) :
    s.allShapes.map (·.index) = List.range s.shapeCount := by
  obtain ⟨n, hn, hindex⟩ := ShapeExpr.map_index_numberList 0 (d.hoist.shapes.map (·.2))
  rw [h.allShapes_eq, h.shapeCount, hindex, hn, Nat.zero_add, List.range_eq_range']

/-- **A number determines its shape** in a built schema. -/
theorem Definitions.Builds.shape_eq_of_index_eq {d : Definitions} {s : Schema} (h : d.Builds s)
    {x y : Shape} (hx : x ∈ s.allShapes) (hy : y ∈ s.allShapes) (hxy : x.index = y.index) :
    x = y := by
  have hnodup : (s.allShapes.map (·.index)).Nodup := h.map_index_allShapes ▸ List.nodup_range
  exact List.inj_on_of_nodup_map hnodup hx hy hxy

/-! ### The cache -/

/-- Whether each slot of the cache holds the compiled expression of the shape it belongs to. -/
def State.Cached (s : Schema) (st : State) : Prop :=
  ∀ x ∈ s.allShapes, ∀ c, st.compiled[x.index]? = some (some c) → s.compile x.expr = .ok c

theorem cached_start (s : Schema) : (State.start s).Cached s := by
  intro x _ c hc
  simp [State.start, List.getElem?_replicate] at hc

/-- Whether each shape has a slot in the cache, with nothing but its compiled expression in it. -/
structure State.Ready (s : Schema) (st : State) : Prop where
  cached : st.Cached s
  slots : ∀ x ∈ s.allShapes, x.index < st.compiled.length

/-- What else there is in a state does not matter for its cache. -/
theorem State.Ready.of_compiled_eq {s : Schema} {st st' : State} (h : st.Ready s)
    (hc : st'.compiled = st.compiled) : st'.Ready s := by
  refine ⟨fun x hx c => ?_, fun x hx => ?_⟩
  · rw [hc]
    exact h.cached x hx c
  · rw [hc]
    exact h.slots x hx

/-- What stays of the state that a run of a built schema starts with: there is one slot for each
shape, with nothing but its compiled expression in it. -/
structure State.Tabulated (s : Schema) (st : State) : Prop where
  cached : st.Cached s
  length : st.compiled.length = s.shapeCount

theorem tabulated_start (s : Schema) : (State.start s).Tabulated s :=
  ⟨cached_start s, List.length_replicate⟩

theorem State.Tabulated.ready {d : Definitions} {s : Schema} (h : d.Builds s) {st : State}
    (hst : st.Tabulated s) : st.Ready s := by
  refine ⟨hst.cached, fun x hx => ?_⟩
  have hindex : x.index ∈ s.allShapes.map (·.index) := List.mem_map_of_mem hx
  rw [h.map_index_allShapes, List.mem_range] at hindex
  rwa [hst.length]

theorem ready_start {d : Definitions} {s : Schema} (h : d.Builds s) : (State.start s).Ready s :=
  (tabulated_start s).ready h

section Cache

variable {d : Definitions} {ctx : Context}

/-- **A compiled shape** comes from the expression of the shape, and the typing stays. -/
theorem compiledShape_ok {x : Shape} (hx : x ∈ ctx.schema.allShapes) {st st' : State}
    (hst : st.Cached ctx.schema) {c : Compiled} (hc : compiledShape ctx x st = .ok c st') :
    ctx.schema.compile x.expr = .ok c ∧ st'.typing = st.typing := by
  unfold compiledShape at hc
  split at hc
  · cases hc
  · rename_i c' hc'
    cases hc
    exact ⟨hst x hx c hc', rfl⟩
  · split at hc
    · cases hc
    · rename_i hcomp
      cases hc
      exact ⟨hcomp, rfl⟩

theorem compiledShape_cached (h : d.Builds ctx.schema) {x : Shape}
    (hx : x ∈ ctx.schema.allShapes) {st : State} (hst : st.Cached ctx.schema) :
    (finalState (compiledShape ctx x st)).Cached ctx.schema := by
  unfold compiledShape
  split
  · exact hst
  · exact hst
  split
  · exact hst
  rename_i c hc
  intro y hy c' hc'
  simp only [finalState] at hc'
  by_cases hxy : x.index = y.index
  · obtain rfl := h.shape_eq_of_index_eq hx hy hxy
    rw [List.getElem?_set] at hc'
    simp only [if_true] at hc'
    split at hc'
    · cases hc'
      exact hc
    · cases hc'
  · rw [List.getElem?_set_ne hxy] at hc'
    exact hst y hy c' hc'

/-- **The compiled expression of a shape** is that of its expression, remembered or not. Nothing but
the cache changes. -/
theorem compiledShape_ready (h : d.Builds ctx.schema) {x : Shape}
    (hx : x ∈ ctx.schema.allShapes) {st : State} (hst : st.Ready ctx.schema) :
    ∃ cache, { st with compiled := cache }.Ready ctx.schema ∧
      compiledShape ctx x st = match ctx.schema.compile x.expr with
        | .error e => .error (.fault (.expansion e)) { st with compiled := cache }
        | .ok c => .ok c { st with compiled := cache } := by
  obtain ⟨slot, hslot⟩ : ∃ slot, st.compiled[x.index]? = some slot :=
    ⟨_, List.getElem?_eq_getElem (hst.slots x hx)⟩
  have hcached := compiledShape_cached h hx hst.cached
  unfold compiledShape at hcached ⊢
  cases slot with
  | some c =>
    refine ⟨st.compiled, hst, ?_⟩
    simp only [hslot, hst.cached x hx c hslot]
  | none =>
    simp only [hslot] at hcached ⊢
    cases hc : ctx.schema.compile x.expr with
    | error e => exact ⟨st.compiled, hst, rfl⟩
    | ok c =>
      rw [hc] at hcached
      refine ⟨_, ⟨hcached, fun y hy => ?_⟩, rfl⟩
      rw [List.length_set]
      exact hst.slots y hy

/-- Whether each slot holds the expression of its shape depends on the cache only, and stays so. -/
theorem regardsCache_cached (h : d.Builds ctx.schema) :
    RegardsCache ctx fun st st' => st.Cached ctx.schema → st'.Cached ctx.schema where
  trans h₁ h₂ hst := h₂ (h₁ hst)
  same hc hst x hx c := by
    rw [hc]
    exact hst x hx c
  compile he x hx _ := compiledShape_cached h (Schema.mem_allShapes (mem_of_lookup_eq_some he) hx)

/-- The number of slots stays. -/
theorem regardsCache_length (ctx : Context) :
    RegardsCache ctx fun st st' => st'.compiled.length = st.compiled.length where
  trans h₁ h₂ := h₂.trans h₁
  same hc := by rw [hc]
  compile _ x _ st := by
    unfold compiledShape
    split
    · rfl
    · rfl
    split
    · rfl
    · exact List.length_set

theorem regardsCache_tabulated (h : d.Builds ctx.schema) :
    RegardsCache ctx fun st st' => st.Tabulated ctx.schema → st'.Tabulated ctx.schema where
  trans h₁ h₂ hst := h₂ (h₁ hst)
  same hc hst := ⟨(regardsCache_cached h).same hc hst.cached,
    ((regardsCache_length ctx).same hc).trans hst.length⟩
  compile he x hx st hst := ⟨(regardsCache_cached h).compile he x hx st hst.cached,
    ((regardsCache_length ctx).compile he x hx st).trans hst.length⟩

/-- **Decisions keep the cache.** -/
theorem decideWithin_cached (h : d.Builds ctx.schema) (n : ℕ) :
    (decideWithin ctx n).Respects fun st st' => st.Cached ctx.schema → st'.Cached ctx.schema :=
  (regardsCache_cached h).respects n

end Cache

end ShapeTyping
