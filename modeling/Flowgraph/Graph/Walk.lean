import Flowgraph.Graph.Basic

/-!
**Walks over a graph.**

Two walks from a start block, each over a worklist of block indices:

* `Graph.reachableFrom` collects every block reachable by successor edges (the closure of the
  start block), popping the worklist and pushing all successors of each newly visited block;
* `Graph.preorder` lists the blocks reachable from the entry block in depth-first pre-order:
  a block, then the blocks reached through its successors in order, each block once.

Both end because each step either visits a new block below the block count or shortens the
worklist: the pair (number of unvisited blocks, worklist length) decreases in lexicographic
order.

Numbering a graph records its pre-order; a block's id is its place in that order.
-/

namespace Flowgraph

namespace Graph

/-- The indices below `bound` that are not in `visited`. -/
def pending (bound : Nat) (visited : List Nat) : List Nat :=
  (List.range bound).filter fun x => !visited.contains x

theorem pending_cons (bound n : Nat) (visited : List Nat) :
    pending bound (n :: visited) = (pending bound visited).filter fun x => x != n := by
  simp only [pending, List.filter_filter]
  congr 1
  funext x
  by_cases hx : x = n <;> simp [hx]

theorem length_pending_cons_lt {bound n : Nat} {visited : List Nat} (below : n < bound)
    (fresh : visited.contains n = false) :
    (pending bound (n :: visited)).length < (pending bound visited).length := by
  rw [pending_cons, List.length_filter_lt_length_iff_exists]
  refine ⟨n, ?_, by simp⟩
  simp only [pending, List.mem_filter, List.mem_range]
  exact ⟨below, by rw [fresh]; rfl⟩

/-- The worklist closure: pops a block from `work`; a new block below `bound` is visited and
its successors are pushed. Returns the visited blocks. -/
def closure (next : Nat → List Nat) (bound : Nat) (visited : List Nat) (work : List Nat) :
    List Nat :=
  match work with
  | [] => visited
  | n :: rest =>
    if _fresh : n < bound ∧ visited.contains n = false then
      closure next bound (n :: visited) ((next n).reverse ++ rest)
    else closure next bound visited rest
termination_by ((pending bound visited).length, work.length)
decreasing_by
  · exact Prod.Lex.left _ _ (length_pending_cons_lt _fresh.1 _fresh.2)
  · exact Prod.Lex.right _ (by simp)

/-- The depth-first walk: pops a block from `stack`; a new block below `bound` is recorded and
its unvisited successors are pushed so that they pop in order. Returns the recorded blocks,
most recent first. -/
def depthFirst (next : Nat → List Nat) (bound : Nat) (visited : List Nat) (stack : List Nat) :
    List Nat :=
  match stack with
  | [] => visited
  | n :: rest =>
    if _fresh : n < bound ∧ visited.contains n = false then
      depthFirst next bound (n :: visited)
        ((next n).filter (fun s => !(n :: visited).contains s) ++ rest)
    else depthFirst next bound visited rest
termination_by ((pending bound visited).length, stack.length)
decreasing_by
  · exact Prod.Lex.left _ _ (length_pending_cons_lt _fresh.1 _fresh.2)
  · exact Prod.Lex.right _ (by simp)

/-- The indices of the blocks reachable from block `start`, in increasing order. -/
def reachableFrom (g : Graph) (start : Nat) : List Nat :=
  let reached := closure g.successors g.size [] [start]
  (List.range g.size).filter reached.contains

/-- The blocks reachable from the entry block, in depth-first pre-order. -/
def preorder (g : Graph) : List Nat :=
  (depthFirst g.successors g.size [] [g.entry]).reverse

/-- The graph with its numbering recorded; a numbered graph keeps its numbering. -/
def number (g : Graph) : Graph :=
  match g.numbering with
  | some _ => g
  | none => { g with numbering := some g.preorder }

/-- The pairs of block index and id of the reachable blocks, by id. -/
def ids (g : Graph) : List (Nat × Nat) :=
  g.preorder.zipIdx

/-- Numbers the graph and gives the pairs of block index and id that its numbering records, by
id: a graph numbered before keeps the ids it has. -/
def assignIds (g : Graph) : Graph × List (Nat × Nat) :=
  let g := g.number
  (g, (g.numbering.getD []).zipIdx)

end Graph

end Flowgraph
