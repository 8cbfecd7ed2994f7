/-!
# Depth-first search

Search on a finite list of nodes with a list of successors for each.

* `postorder`: the nodes in the order in which a search leaves them.
* `reachable`: the nodes that a walk reaches.
* `components`: the classes of mutually reachable nodes, in the order in which a search
  completes them.
* `backEdge`: the first edge found that leads back to a node of the path to it.
-/

namespace ShapeTyping

variable {α : Type} [DecidableEq α]

/-- The nodes that a search over a worklist leaves, in that order. Only nodes of `pool` are
entered, each at most once. -/
def postorder (succ : α → List α) (pool work : List α) : List α :=
  match work with
  | [] => []
  | a :: rest =>
    if _ : a ∈ pool then
      let below := postorder succ (pool.erase a) (succ a)
      below ++ a :: postorder succ ((pool.erase a).filter (· ∉ below)) rest
    else postorder succ pool rest
termination_by (pool.length, work.length)
decreasing_by
  · have := List.length_erase_of_mem ‹a ∈ pool›
    have := List.length_pos_of_mem ‹a ∈ pool›
    exact Prod.Lex.left _ _ (by omega)
  · have := List.length_erase_of_mem ‹a ∈ pool›
    have := List.length_pos_of_mem ‹a ∈ pool›
    exact Prod.Lex.left _ _ (Nat.lt_of_le_of_lt (List.length_filter_le _ _) (by omega))
  · exact Prod.Lex.right _ (by simp)

/-- The nodes reached from a node by a walk of any length, none included. -/
def reachable (succ : α → List α) (nodes : List α) (a : α) : List α :=
  postorder succ nodes [a]

/-- The nodes that a node reaches and that reach it, in the order of `nodes`. -/
def componentOf (succ : α → List α) (nodes : List α) (a : α) : List α :=
  let below := reachable succ nodes a
  nodes.filter fun b => b ∈ below && a ∈ reachable succ nodes b

/-- The classes of mutually reachable nodes. A class is complete when the search leaves the
last of its nodes, so the classes are collected from the end of the postorder. -/
def components (succ : α → List α) (nodes : List α) : List (List α) :=
  (postorder succ nodes nodes).foldr
    (fun a later => if later.any (a ∈ ·) then later else componentOf succ nodes a :: later) []

/-- A search that stops at the first edge back to a node of the path to it, and returns that
edge. `path` begins with the node whose successors are in `work`. Without such an edge the
result is the postorder. -/
def backEdge (succ : α → List α) (path pool work : List α) : Except (α × α) (List α) :=
  match work with
  | [] => .ok []
  | a :: rest =>
    if _ : a ∈ pool then
      match backEdge succ (a :: path) (pool.erase a) (succ a) with
      | .error edge => .error edge
      | .ok below =>
        match backEdge succ path ((pool.erase a).filter (· ∉ below)) rest with
        | .error edge => .error edge
        | .ok later => .ok (below ++ a :: later)
    else
      match path.head?.filter fun _ => a ∈ path with
      | some b => .error (b, a)
      | none => backEdge succ path pool rest
termination_by (pool.length, work.length)
decreasing_by
  · have := List.length_erase_of_mem ‹a ∈ pool›
    have := List.length_pos_of_mem ‹a ∈ pool›
    exact Prod.Lex.left _ _ (by omega)
  · have := List.length_erase_of_mem ‹a ∈ pool›
    have := List.length_pos_of_mem ‹a ∈ pool›
    exact Prod.Lex.left _ _ (Nat.lt_of_le_of_lt (List.length_filter_le _ _) (by omega))
  · exact Prod.Lex.right _ (by simp)

end ShapeTyping
