/-!
# Tables

A table lists keys with their values. An insertion replaces the value of a key, so the keys
stay distinct, and the latest entry comes first.

* `Table.get?_insert`, `Table.get?_erase`: what the operations do to the value of a key.
* `Table.nodup_keys_insert`, `Table.nodup_keys_erase`: they keep the keys distinct.
-/

namespace ShapeTyping

abbrev Table (κ α : Type) := List (κ × α)

namespace Table

variable {κ α : Type} [DecidableEq κ]

def get? (t : Table κ α) (k : κ) : Option α := t.lookup k

def keys (t : Table κ α) : List κ := t.map (·.1)

def erase (t : Table κ α) (k : κ) : Table κ α := t.filter (·.1 ≠ k)

def insert (t : Table κ α) (k : κ) (a : α) : Table κ α := (k, a) :: t.erase k

theorem get?_cons (t : Table κ α) (k l : κ) (a : α) :
    get? ((k, a) :: t) l = if l = k then some a else t.get? l := by
  unfold get?
  rw [List.lookup_cons]
  by_cases h : l = k
  · simp [h]
  · rw [beq_false_of_ne h, if_neg h]

theorem get?_erase (t : Table κ α) (k l : κ) :
    (t.erase k).get? l = if l = k then none else t.get? l := by
  induction t with
  | nil => simp [erase, get?]
  | cons e t ih =>
    obtain ⟨m, a⟩ := e
    by_cases h : m = k
    · have : erase ((m, a) :: t) k = erase t k := by simp [erase, h]
      rw [this, ih, get?_cons]
      by_cases hl : l = k <;> simp [h, hl]
    · have : erase ((m, a) :: t) k = (m, a) :: erase t k := by simp [erase, h]
      rw [this, get?_cons, get?_cons, ih]
      by_cases hl : l = m <;> simp [h, hl]

theorem get?_insert (t : Table κ α) (k l : κ) (a : α) :
    (t.insert k a).get? l = if l = k then some a else t.get? l := by
  rw [insert, get?_cons, get?_erase]
  by_cases h : l = k <;> simp [h]

theorem mem_keys_erase {t : Table κ α} {k l : κ} :
    l ∈ (t.erase k).keys ↔ l ∈ t.keys ∧ l ≠ k := by
  simp only [keys, erase, List.mem_map, List.mem_filter, decide_eq_true_eq]
  grind

theorem nodup_keys_erase {t : Table κ α} (h : t.keys.Nodup) (k : κ) : (t.erase k).keys.Nodup :=
  h.sublist (List.filter_sublist.map _)

theorem nodup_keys_insert {t : Table κ α} (h : t.keys.Nodup) (k : κ) (a : α) :
    (t.insert k a).keys.Nodup :=
  List.nodup_cons.2 ⟨fun hk => (mem_keys_erase.1 hk).2 rfl, nodup_keys_erase h k⟩

end Table

end ShapeTyping
