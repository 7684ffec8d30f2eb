import Flowgraph.Graph.Walk
import Flowgraph.Dominance
import Flowgraph.Document

/-!
**Reports.**

Reports name a block by its id (its place in the pre-order from the entry block) when it is
reachable, and `u<index>` otherwise; they list reachable blocks first, by id, then the others
by index.

* The edge list has one line `k => s1 s2 …` per reachable block, by id, with the distinct ids
  of its successors in order of first appearance.
* The dominator report has one line `Block NAME: D1, D2, …` per block, in report order, with
  the block's dominators in report order.
* The JSON report holds the block count, the reachable count, the edge list as an object from
  id to successor ids, and the dominator report as an object from name to names.

A reporter numbers the graph before it reports (`reporting`), and the graph keeps that
numbering. The reports read each block's id from the pre-order rather than from the numbering
the graph records; the two agree on every graph that only `number` numbers, as every graph the
program makes is (`getD_idTable_eq_blockId_number`).
-/

namespace Flowgraph

/-- The dominator set of every block, as pairs of index and set, by index. -/
def DominatorRun.entries (run : DominatorRun) : List (Nat × List Nat) :=
  run.sets.toList.zipIdx.map fun (set, index) => (index, set)

namespace Graph

/-- The id of every block by index, from the pre-order: `none` for an unreachable block. -/
def idTable (g : Graph) : Array (Option Nat) :=
  g.preorder.zipIdx.foldl (fun table (index, id) => table.setIfInBounds index (some id))
    (Array.replicate g.size none)

/-- The name of block `i` in reports, given the id table. -/
def reportName (ids : Array (Option Nat)) (i : Nat) : String :=
  match ids.getD i none with
  | some k => toString k
  | none => "u" ++ toString i

/-- The name of block `i` in reports: its id, or `u<index>` when it is unreachable. -/
def displayName (g : Graph) (i : Nat) : String := reportName g.idTable i

/-- The report order of block `i`: reachable blocks by id, then the others by index. -/
def reportKey (ids : Array (Option Nat)) (i : Nat) : Nat × Nat :=
  match ids.getD i none with
  | some k => (0, k)
  | none => (1, i)

/-- Sorts block indices into report order. -/
def reportSort (ids : Array (Option Nat)) (blocks : List Nat) : List Nat :=
  blocks.mergeSort fun a b =>
    let ka := reportKey ids a
    let kb := reportKey ids b
    ka.1 < kb.1 || (ka.1 = kb.1 && ka.2 ≤ kb.2)

/-- The distinct ids of the successors of block `i`, in order of first appearance, given the
id table. -/
def successorIdsIn (g : Graph) (ids : Array (Option Nat)) (i : Nat) : List Nat :=
  dedup ((g.successors i).filterMap fun s => ids.getD s none)

/-- The distinct ids of the successors of block `i`, in order of first appearance. -/
def successorIds (g : Graph) (i : Nat) : List Nat := g.successorIdsIn g.idTable i

/-- The lines of the edge list. -/
def edgeList (g : Graph) : List String :=
  let ids := g.idTable
  g.preorder.zipIdx.map fun (index, id) =>
    toString id ++ " =>" ++ String.join ((g.successorIdsIn ids index).map fun s => " " ++ toString s)

/-- The lines of the dominator report for the given sets. -/
def dominatorReport (g : Graph) (sets : List (Nat × List Nat)) : List String :=
  let ids := g.idTable
  (reportSort ids (sets.map Prod.fst)).map fun index =>
    let doms := reportSort ids ((sets.lookup index).getD [])
    "Block " ++ reportName ids index ++ ": " ++ ", ".intercalate (doms.map (reportName ids))

/-- The JSON report for the given sets. -/
def reportDocument (g : Graph) (sets : List (Nat × List Nat)) : Document :=
  let ids := g.idTable
  let order := g.preorder
  let edges := order.zipIdx.map fun (index, id) =>
    (toString id, Document.arr ((g.successorIdsIn ids index).map fun s => .int (Int.ofNat s)))
  let doms := (reportSort ids (sets.map Prod.fst)).map fun index =>
    let members := reportSort ids ((sets.lookup index).getD [])
    (reportName ids index, Document.arr (members.map fun d => .str (reportName ids d)))
  .obj [("blocks", .int (Int.ofNat g.size)), ("reachable", .int (Int.ofNat order.length)),
    ("edges", .obj edges),
    ("dominators", .obj doms)]

/-- The text of the JSON report, indented by `indent` spaces per level or on one line. -/
def reportJson (g : Graph) (sets : List (Nat × List Nat)) (indent : Option Nat) : String :=
  (g.reportDocument sets).write indent

/-- The name in reports of the block with key `index`, for any integer key: a key that is no
reachable block's index names an unreachable block, `u<index>`. -/
def displayNameOf (g : Graph) (index : Int) : String :=
  if 0 ≤ index then g.displayName index.toNat else "u" ++ toString index

/-- The successor ids of the block at `index` in the list of blocks, a negative index counting
from the end; none when the index is out of range. -/
def successorIdsAt (g : Graph) (index : Int) : Option (List Nat) :=
  (listIndex? g.size index).map g.successorIds

/-- Runs a reporter, which numbers the graph before it reports: the graph as numbered, which
keeps its numbering from then on, with the report. -/
def reporting (g : Graph) (report : Graph → α) : Graph × α :=
  (g.number, report g.number)

end Graph

end Flowgraph
