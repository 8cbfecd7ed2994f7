import Mathlib
import ShapeTyping.Typing

/-!
# Typings with other labels

A typing looks its associations up, so with labels that are renamed apart each step of a run does to
it what it does to the typing before.

* `Table.mapKeys`, `Table.mapValues`: a table with other keys or with other values.
* `Association.rename`, `Typing.rename`: an association and a typing with other shape labels.
* `Typing.verdict?_rename`, `Typing.matchedTriples_rename`: what a renamed typing says.
* `Typing.hypothesize_rename`, `Typing.confirm_rename`, `Typing.refute_rename`: the steps of a run.
-/

namespace ShapeTyping

/-! ### Tables with other keys or values -/

namespace Table

variable {κ α : Type}

/-- A table with other keys. -/
def mapKeys (f : κ → κ) (t : Table κ α) : Table κ α := t.map fun p => (f p.1, p.2)

/-- A table with other values. -/
def mapValues (f : α → α) (t : Table κ α) : Table κ α := t.map fun p => (p.1, f p.2)

section Values

variable [DecidableEq κ] (f : α → α) (t : Table κ α) (k : κ)

theorem get?_mapValues : (t.mapValues f).get? k = (t.get? k).map f := by
  induction t with
  | nil => rfl
  | cons p t ih =>
    rw [mapValues, List.map_cons, get?_cons, get?_cons, apply_ite (Option.map f)]
    exact congrArg (if k = p.1 then some (f p.2) else ·) ih

theorem erase_mapValues : (t.mapValues f).erase k = (t.erase k).mapValues f :=
  List.filter_map

theorem insert_mapValues (a : α) :
    (t.mapValues f).insert k (f a) = (t.insert k a).mapValues f := by
  rw [insert, insert, erase_mapValues]
  rfl

end Values

variable [DecidableEq κ] {f : κ → κ}

theorem get?_mapKeys (hf : f.Injective) (t : Table κ α) (k : κ) :
    (t.mapKeys f).get? (f k) = t.get? k := by
  induction t with
  | nil => rfl
  | cons p t ih =>
    rw [mapKeys, List.map_cons, get?_cons, get?_cons]
    simp only [hf.eq_iff]
    exact congrArg (if k = p.1 then some p.2 else ·) ih

theorem erase_mapKeys (hf : f.Injective) (t : Table κ α) (k : κ) :
    (t.mapKeys f).erase (f k) = (t.erase k).mapKeys f := by
  rw [erase, erase, mapKeys, mapKeys, List.filter_map]
  refine congrArg _ (List.filter_congr fun p _ => ?_)
  simp [hf.eq_iff]

theorem insert_mapKeys (hf : f.Injective) (t : Table κ α) (k : κ) (a : α) :
    (t.mapKeys f).insert (f k) a = (t.insert k a).mapKeys f := by
  rw [insert, insert, erase_mapKeys hf]
  rfl

end Table

/-! ### Associations and typings -/

/-- An association with another label. -/
def Association.rename (ρ : Label → Label) (a : Association) : Association := ⟨a.node, ρ a.label⟩

theorem Association.rename_injective {ρ : Label → Label} (hρ : ρ.Injective) :
    (Association.rename ρ).Injective := by
  rintro ⟨node, l⟩ ⟨node', l'⟩ h
  obtain ⟨hnode, hl⟩ := Association.mk.inj h
  obtain rfl : node = node' := hnode
  obtain rfl : l = l' := hρ hl
  rfl

/-- A typing with other labels. -/
def Typing.rename (ρ : Label → Label) (t : Typing) : Typing :=
  ⟨t.byNode.mapValues (·.mapKeys ρ), t.matched.mapKeys (·.rename ρ), t.log.map (·.rename ρ)⟩

namespace Typing

variable {ρ : Label → Label} (hρ : ρ.Injective) (t : Typing) (a : Association)
include hρ

theorem verdict?_rename : (t.rename ρ).verdict? (a.rename ρ) = t.verdict? a := by
  have hnode : (t.rename ρ).byNode.get? a.node = (t.byNode.get? a.node).map (·.mapKeys ρ) :=
    Table.get?_mapValues _ _ _
  unfold verdict?
  rw [Association.rename, hnode]
  cases t.byNode.get? a.node with
  | none => rfl
  | some ls => exact Table.get?_mapKeys hρ ls a.label

theorem contains_rename : (t.rename ρ).contains (a.rename ρ) = t.contains a := by
  rw [contains, verdict?_rename hρ, contains]

theorem matchedTriples_rename : (t.rename ρ).matchedTriples (a.rename ρ) = t.matchedTriples a :=
  congrArg (·.getD []) (Table.get?_mapKeys (Association.rename_injective hρ) t.matched a)

/-! ### Steps of a run -/

omit hρ in
theorem verdictsOf_rename (n : Term) : (t.rename ρ).verdictsOf n = (t.verdictsOf n).mapKeys ρ := by
  have hnode : (t.rename ρ).byNode.get? n = (t.byNode.get? n).map (·.mapKeys ρ) :=
    Table.get?_mapValues _ _ _
  rw [verdictsOf, hnode, verdictsOf]
  cases t.byNode.get? n <;> rfl

theorem setVerdict_rename (v : Verdict) :
    (t.rename ρ).setVerdict (a.rename ρ) v = (t.setVerdict a v).rename ρ := by
  rw [setVerdict, setVerdict, verdictsOf_rename, Association.rename, Table.insert_mapKeys hρ]
  simp only [rename, Table.insert_mapValues]

theorem setMatched_rename (ms : List MatchedTriple) :
    (t.rename ρ).setMatched (a.rename ρ) ms = (t.setMatched a ms).rename ρ := by
  rw [setMatched, setMatched]
  simp only [rename, Table.insert_mapKeys (Association.rename_injective hρ)]

theorem dropMatched_rename :
    (t.rename ρ).dropMatched (a.rename ρ) = (t.dropMatched a).rename ρ := by
  rw [dropMatched, dropMatched]
  simp only [rename, Table.erase_mapKeys (Association.rename_injective hρ)]

theorem dropVerdict_rename :
    (t.rename ρ).dropVerdict (a.rename ρ) = (t.dropVerdict a).rename ρ := by
  rw [dropVerdict, dropVerdict, verdictsOf_rename, Association.rename, Table.erase_mapKeys hρ]
  simp only [Table.mapKeys, List.isEmpty_map]
  split
  · simp only [rename, Table.erase_mapValues]
  · simp only [rename]
    rw [← Table.insert_mapValues]
    rfl

theorem drop_rename : (t.rename ρ).drop (a.rename ρ) = (t.drop a).rename ρ := by
  rw [drop, dropVerdict_rename hρ, dropMatched_rename hρ, drop]

/-- **An assumption.** -/
theorem hypothesize_rename :
    (t.rename ρ).hypothesize (a.rename ρ) = (t.hypothesize a).rename ρ := by
  rw [hypothesize, setVerdict_rename hρ]
  rfl

/-- **A confirmation.** -/
theorem confirm_rename (ms : List MatchedTriple) :
    (t.rename ρ).confirm (a.rename ρ) ms = (t.confirm a ms).rename ρ := by
  rw [confirm, confirm, setVerdict_rename hρ]
  cases ms with
  | nil => rfl
  | cons m ms => exact setMatched_rename hρ _ a (m :: ms)

theorem forget_rename : (t.rename ρ).forget (a.rename ρ) = (t.forget a).rename ρ := by
  rw [forget, contains_rename hρ, drop_rename hρ, forget]
  split <;> rfl

theorem foldr_forget_rename (as : List Association) :
    (as.map (·.rename ρ)).foldr (fun a t => t.forget a) (t.rename ρ) =
      (as.foldr (fun a t => t.forget a) t).rename ρ := by
  induction as with
  | nil => rfl
  | cons a as ih => rw [List.map_cons, List.foldr_cons, ih, forget_rename hρ, List.foldr_cons]

theorem rollback_rename (checkpoint : ℕ) :
    (t.rename ρ).rollback checkpoint = (t.rollback checkpoint).rename ρ := by
  have hlog : (t.rename ρ).log = t.log.map (·.rename ρ) := rfl
  rw [rollback, hlog, List.length_map, ← List.map_take, ← List.map_drop, foldr_forget_rename hρ]
  rfl

/-- **A refutation.** -/
theorem refute_rename (checkpoint : ℕ) :
    (t.rename ρ).refute (a.rename ρ) checkpoint = (t.refute a checkpoint).rename ρ := by
  rw [refute, rollback_rename hρ, dropMatched_rename hρ, setVerdict_rename hρ, refute]

omit hρ

theorem checkpoint_rename : (t.rename ρ).checkpoint = t.checkpoint := List.length_map _

theorem commit_rename : (t.rename ρ).commit = t.commit.rename ρ := rfl

end Typing

end ShapeTyping
