import Flowgraph.Graph.Walk
import Flowgraph.Fault

/-!
**Dominator sets.**

Block `d` dominates block `b` when every path of edges from the entry block to `b` passes
through `d`. The sets are computed as the greatest solution of

  `Dom(entry) = {entry}`,  `Dom(b) = {b} ∪ ⋂ { Dom(p) | p a predecessor of b }`

by passes over the blocks in index order, each block's set being replaced in place as soon as
its new value is known. The entry block starts from itself and every other block from the whole
scope: all blocks, or in restricted mode the blocks reachable from the entry. Predecessors
outside the scope are ignored, a block without predecessors gets `{b}`, and a block outside
the scope keeps `{b}`.

Passes go on until one changes nothing; that last pass counts. Before each pass the pass count
is checked against the cap (by default `n * n + 2` for `n` blocks): a run that reaches the cap
while sets still change is a fault. The size of every set is recorded before the first pass and
after each pass.
-/

namespace Flowgraph

/-- The result of the dominator computation. -/
structure DominatorRun where
  /-- The dominator set of each block, by index, in increasing order. -/
  sets : Array (List Nat)
  /-- The number of passes, the last quiet one included. -/
  passes : Nat
  /-- The size of each block's set before the first pass and after each pass. -/
  history : List (List Nat)
  deriving Inhabited

namespace Dominance

/-- Inserts an element into an increasing list, once. -/
def insertSorted (x : Nat) : List Nat → List Nat
  | [] => [x]
  | y :: rest =>
    if x < y then x :: y :: rest
    else if x = y then y :: rest
    else y :: insertSorted x rest

/-- The elements of `a` that are also in `b`, in the order of `a`. -/
def intersect (a b : List Nat) : List Nat := a.filter b.contains

/-- The sets before the first pass. -/
def initial (count entry : Nat) (scope : List Nat) : Array (List Nat) :=
  (Array.range count).map fun i =>
    if i = entry then [entry] else if scope.contains i then scope else [i]

/-- The new set of block `b` from the current sets, given its predecessors in the scope. -/
def update (sets : Array (List Nat)) (b : Nat) : List Nat → List Nat
  | [] => [b]
  | p :: rest =>
    insertSorted b (rest.foldl (fun acc q => intersect acc (sets.getD q [])) (sets.getD p []))

/-- The visit of block `b` in a pass: its set is replaced in place by its new value, and the flag
records a change. The entry block keeps its set. -/
def visit (preds : Array (List Nat)) (entry : Nat) :
    Array (List Nat) × Bool → Nat → Array (List Nat) × Bool
  | (sets, changed), b =>
    if b = entry then (sets, changed)
    else
      let next := update sets b (preds.getD b [])
      if next = sets.getD b [] then (sets, changed) else (sets.setIfInBounds b next, true)

/-- One pass over the active blocks in order, updating the sets in place; the flag tells
whether some set changed. -/
def sweep (preds : Array (List Nat)) (entry : Nat) (active : List Nat)
    (sets : Array (List Nat)) : Array (List Nat) × Bool :=
  active.foldl (visit preds entry) (sets, false)

/-- The size of every set. -/
def sizes (sets : Array (List Nat)) : List Nat := sets.toList.map List.length

/-- Runs passes until one changes nothing; `fuel` passes may still start, `passes` have run. -/
def iterate (step : Array (List Nat) → Array (List Nat) × Bool) (blocks : Nat) :
    Nat → Nat → Array (List Nat) → List (List Nat) → Except Fault DominatorRun
  | 0, passes, _, _ => .error (.noConvergence passes blocks)
  | fuel + 1, passes, sets, history =>
    let (next, changed) := step sets
    let history := history ++ [sizes next]
    if changed then iterate step blocks fuel (passes + 1) next history
    else .ok ⟨next, passes + 1, history⟩

end Dominance

/-- The blocks the dominator passes work on: all blocks, or (`restrict`) the blocks reachable
from the entry block, in increasing order. -/
def Graph.dominatorScope (g : Graph) (restrict : Bool) : List Nat :=
  if restrict then g.reachableFrom g.entry else List.range g.size

/-- The predecessors of every block that lie in the scope. -/
def Graph.scopedPredecessors (g : Graph) (scope : List Nat) : Array (List Nat) :=
  (Array.range g.size).map fun b => (g.predecessors b).filter scope.contains

/-- The dominator sets of a graph, over all blocks or (`restrict`) over the reachable ones,
with at most `cap` passes (by default `n * n + 2`). -/
def Graph.dominators (g : Graph) (restrict : Bool) (cap : Option Int) :
    Except Fault DominatorRun :=
  let count := g.size
  let scope := g.dominatorScope restrict
  let preds := g.scopedPredecessors scope
  let sets := Dominance.initial count g.entry scope
  let limit := cap.getD (Int.ofNat (count * count + 2))
  Dominance.iterate (Dominance.sweep preds g.entry scope) count limit.toNat 0 sets
    [Dominance.sizes sets]

/-- The dominator set of the block with key `index`, from the mapping of every block index to
its set; a key that is no block's index is missing from the mapping, and is the fault. -/
def DominatorRun.dominatorsOf (run : DominatorRun) (index : Int) : Except Int (List Nat) :=
  if 0 ≤ index ∧ index.toNat < run.sets.size then .ok (run.sets.getD index.toNat [])
  else .error index

/-- Whether block `a` dominates block `b`: `a` is in the set of `b`, whose key must be in the
mapping. -/
def DominatorRun.dominates (run : DominatorRun) (a b : Int) : Except Int Bool := do
  let set ← run.dominatorsOf b
  return decide (0 ≤ a) && set.contains a.toNat

end Flowgraph
