import Flowgraph.Instruction

/-!
**Control-flow graphs.**

A graph cuts an instruction stream into basic blocks, numbered by their place in the stream
(their index), and joins them by edges of three kinds: a jump, the taken branch of a
conditional jump, and the fall-through to the next block. Edges are kept in the order they were
made; the successors of a block are the targets of its edges in that order, duplicates kept,
and its predecessors are the distinct sources of edges into it, in order of first appearance.

A graph may carry its numbering: the indices of the blocks reachable from the entry block in
depth-first pre-order, the position of a block in that list being its id.
-/

namespace Flowgraph

/-- The kind of a control-flow edge. -/
inductive EdgeKind where
  | jump
  | branchTaken
  | fallThrough
  deriving Repr, DecidableEq, Inhabited

/-- The name of an edge kind, as reports give it. -/
def EdgeKind.name : EdgeKind → String
  | .jump => "jump"
  | .branchTaken => "branch-taken"
  | .fallThrough => "fall-through"

/-- An edge from block `source` to block `target`, given by their indices. -/
structure Edge where
  source : Nat
  target : Nat
  kind : EdgeKind
  deriving Repr, DecidableEq, Inhabited

/-- The written form of an edge: `CFGEdge(B1 -> B2, kind='jump')`. -/
def Edge.repr (e : Edge) : String :=
  "CFGEdge(B" ++ toString e.source ++ " -> B" ++ toString e.target ++ ", kind='" ++
    e.kind.name ++ "')"

/-- A basic block: a run of consecutive instructions of the stream. -/
structure Block where
  index : Nat
  /-- The position in the stream of the block's first instruction. -/
  start : Nat
  instructions : List Instruction
  deriving Inhabited

namespace Block

/-- The last executed instruction of a block, skipping filler and label markers. -/
def terminal (b : Block) : Option Instruction :=
  b.instructions.reverse.find? fun insn => insn.role.isExecutable

/-- The labels defined by the markers of a block, in order. -/
def labels (b : Block) : List Label := b.instructions.filterMap Instruction.label

/-- A short text for a block: the texts of its first four instructions other than filler,
separated by ` ; `, and ` …` when more follow. -/
def display (b : Block) : String :=
  let shown := (b.instructions.filter fun insn => !insn.isFiller).map Instruction.text
  let text := " ; ".intercalate (shown.take 4)
  if shown.length > 4 then text ++ " …" else text

/-- Whether the stream position `pos` lies in the block. -/
def holds (b : Block) (pos : Nat) : Bool :=
  b.start ≤ pos && pos < b.start + b.instructions.length

end Block

/-- A control-flow graph of one instruction stream. -/
structure Graph where
  stream : List Instruction
  blocks : List Block
  edges : List Edge
  /-- Each label with a marker, and the block of its first marker, in stream order. -/
  labels : List (Label × Nat)
  /-- The index of the entry block. -/
  entry : Nat
  /-- The reachable blocks in pre-order, once the graph has been numbered. -/
  numbering : Option (List Nat) := none
  deriving Inhabited

/-- The position that an index into a list of `length` elements names: a negative index counts
back from the end, and an index out of range names none. -/
def listIndex? (length : Nat) (index : Int) : Option Nat :=
  if index < 0 then (if index.natAbs ≤ length then some (length - index.natAbs) else none)
  else if index.toNat < length then some index.toNat else none

namespace Graph

/-- The number of blocks. -/
def size (g : Graph) : Nat := g.blocks.length

/-- The indices of the blocks that edges from block `i` go to, in order, duplicates kept. -/
def successors (g : Graph) (i : Nat) : List Nat :=
  (g.edges.filter fun e => e.source = i).map Edge.target

/-- Removes repeated elements, keeping the first occurrence of each. -/
def dedup (l : List Nat) : List Nat :=
  l.foldl (fun seen x => if seen.contains x then seen else seen ++ [x]) []

/-- The indices of the blocks with an edge into block `i`, each once, in order of their first
edge. -/
def predecessors (g : Graph) (i : Nat) : List Nat :=
  dedup ((g.edges.filter fun e => e.target = i).map Edge.source)

/-- The block of the first marker of a label. -/
def blockForLabel (g : Graph) (label : Label) : Option Nat := g.labels.lookup label

/-- The label of the label map that has the given name, if any. -/
def labelNamed (g : Graph) (name : String) : Option Label :=
  (g.labels.find? fun (label, _) => label.name = name).map Prod.fst

/-- The block that holds the instruction at stream position `pos`. -/
def blockOf (g : Graph) (pos : Nat) : Option Nat :=
  (g.blocks.find? fun b => b.holds pos).map Block.index

/-- The id of block `i`: its place in the numbering, once the graph is numbered and if the
block is reachable. -/
def blockId (g : Graph) (i : Nat) : Option Nat :=
  g.numbering.bind fun order => order.idxOf? i

/-- The number of distinct edges, two edges being the same when source, target and kind
agree. -/
def distinctEdges (g : Graph) : Nat :=
  (g.edges.foldl (fun seen e => if seen.contains e then seen else seen ++ [e]) []).length

/-- The written form of a graph: `CFG(instructions=N, blocks=B, edges=E)`. -/
def repr (g : Graph) : String :=
  "CFG(instructions=" ++ toString g.stream.length ++ ", blocks=" ++ toString g.size ++
    ", edges=" ++ toString g.edges.length ++ ")"

/-- The written form of block `b`: `BasicBlock(index=I, id=ID, ninsns=K)`, with `None` for a
block without id. -/
def blockRepr (g : Graph) (b : Block) : String :=
  let ident := match g.blockId b.index with
    | some k => toString k
    | none => "None"
  "BasicBlock(index=" ++ toString b.index ++ ", id=" ++ ident ++ ", ninsns=" ++
    toString b.instructions.length ++ ")"

end Graph

end Flowgraph
