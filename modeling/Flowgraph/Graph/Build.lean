import Flowgraph.Graph.Basic
import Flowgraph.Fault

/-!
**Building a control-flow graph.**

The leaders of a stream are the positions where blocks begin:

* the first instruction that is not filler;
* the entry instruction, when one is chosen;
* the first marker of every label that a jump goes to;
* the first instruction after a conditional jump that is not filler.

Each block runs from its leader up to the next leader; filler before the first leader joins
the first block. A block ends in its terminal, the last instruction that is neither filler nor a
marker: a jump gives an edge to the block of its label's first marker (when the label has one),
a conditional jump then also falls through to the next block, a return ends the method, and any
other instruction falls through to the next block.

A stream with no instruction other than filler, and an entry that is filler or not in the
stream, are faults.
-/

namespace Flowgraph

/-- Where the analysis of a stream of `size` instructions starts. -/
inductive EntryPoint (size : Nat) where
  /-- The first instruction that is not filler. -/
  | first
  /-- The instruction at a position of the stream. -/
  | at (pos : Fin size)
  /-- An instruction that is not part of the stream. -/
  | outside (insn : Instruction)

namespace Graph

/-- The position of the first instruction at or after `pos` that is not filler. -/
def nextExecutable (stream : List Instruction) (pos : Nat) : Option Nat :=
  ((stream.zipIdx.drop pos).find? fun (insn, _) => !insn.isFiller).map Prod.snd

/-- Each label that has a marker, with the position of its first marker, in stream order. -/
def firstMarkers (stream : List Instruction) : List (Label × Nat) :=
  stream.zipIdx.foldl (fun acc (insn, pos) =>
    match insn.label with
    | some label =>
      if insn.role = .label && (acc.lookup label).isNone then acc ++ [(label, pos)] else acc
    | none => acc) []

/-- The position of the entry instruction, `none` for the default entry. -/
def entryPosition (stream : List Instruction) :
    EntryPoint stream.length → Except Fault (Option Nat)
  | .first => .ok none
  | .at pos =>
    let insn := stream.get pos
    if insn.isFiller then .error (.entryIsFiller insn.repr) else .ok (some pos.val)
  | .outside insn => .error (.entryNotInStream insn.repr)

/-- The leaders that jumps give: the first marker of each jump's label, and for a conditional
jump the next instruction that is not filler. -/
def jumpLeaders (stream : List Instruction) (markers : List (Label × Nat)) : List Nat :=
  stream.zipIdx.flatMap fun (insn, pos) =>
    if insn.role.isJump then
      (insn.jumpTarget.bind (List.lookup · markers)).toList ++
        (if insn.role = .condJump then (nextExecutable stream (pos + 1)).toList else [])
    else []

/-- The leaders of a stream in increasing order, given its first executable position and the
entry position. -/
def leaders (stream : List Instruction) (first : Nat) (entry : Option Nat) : List Nat :=
  let candidates := first :: entry.toList ++ jumpLeaders stream (firstMarkers stream)
  (List.range stream.length).filter fun pos => candidates.contains pos

/-- Cuts the stream into blocks that start at the given positions, the first at 0. -/
def cutBlocks (stream : List Instruction) (starts : List Nat) : List Block :=
  let ends := starts.tail ++ [stream.length]
  (starts.zip ends).zipIdx.map fun ((first, stop), index) =>
    ⟨index, first, (stream.drop first).take (stop - first)⟩

/-- The index of the block that starts at a leader. -/
def blockAt (starts : List Nat) (pos : Nat) : Nat :=
  (starts.filter (· ≤ pos)).length - 1

/-- The edges out of one block, given the label map and the number of blocks. -/
def blockEdges (labels : List (Label × Nat)) (count : Nat) (b : Block) : List Edge :=
  let next := if b.index + 1 < count then [⟨b.index, b.index + 1, .fallThrough⟩] else []
  match b.terminal with
  | none => []
  | some t =>
    match t.role with
    | .jump | .condJump =>
      let kind := if t.role = .condJump then EdgeKind.branchTaken else EdgeKind.jump
      let taken := match t.jumpTarget.bind (List.lookup · labels) with
        | some target => [⟨b.index, target, kind⟩]
        | none => []
      taken ++ (if t.role = .condJump then next else [])
    | .ret => []
    | _ => next

/-- The positions where the blocks of a stream start: its leaders, except that the first block
starts at 0 so that it takes the filler before the first leader. -/
def cutPoints (stream : List Instruction) (first : Nat) (entry : Option Nat) : List Nat :=
  match leaders stream first entry with
  | _ :: rest => 0 :: rest
  | [] => []

/-- The graph of a stream, given its first executable position and its entry position. -/
def assemble (stream : List Instruction) (first : Nat) (entry : Option Nat) : Graph :=
  let cuts := cutPoints stream first entry
  let blocks := cutBlocks stream cuts
  let labels := (firstMarkers stream).map fun (label, pos) => (label, blockAt cuts pos)
  let entryIndex := match entry with
    | some pos => blockAt cuts pos
    | none => 0
  let edges := blocks.flatMap (blockEdges labels blocks.length)
  { stream, blocks, edges, labels, entry := entryIndex }

/-- The control-flow graph of a stream, entered at `entry`. -/
def build (stream : List Instruction) (entry : EntryPoint stream.length) : Except Fault Graph := do
  let some first := nextExecutable stream 0 | .error .emptyMethod
  let entryPos ← entryPosition stream entry
  return assemble stream first entryPos

/-- The blocks whose terminal is a jump to a label without marker, with that label. -/
def unresolvedJumps (g : Graph) : List (Nat × Option Label) :=
  g.blocks.filterMap fun b =>
    match b.terminal with
    | some t =>
      if t.role.isJump && (t.jumpTarget.bind (List.lookup · g.labels)).isNone then
        some (b.index, t.jumpTarget)
      else none
    | none => none

end Graph

end Flowgraph
