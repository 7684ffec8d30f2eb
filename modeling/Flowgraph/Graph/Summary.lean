import Flowgraph.Graph.Basic

/-!
**Graph summaries.**

A summary lists a graph's written form, then for every block a line with its index, id
(`-` without one), instruction count, outgoing edges with their kinds and predecessors,
followed by its instructions, one per line.
-/

namespace Flowgraph

namespace Graph

/-- The summary line of a block. -/
def summaryLine (g : Graph) (b : Block) : String :=
  let outgoing := (g.edges.filter fun e => e.source = b.index).map fun e =>
    "B" ++ toString e.target ++ "(" ++ e.kind.name ++ ")"
  let incoming := (g.predecessors b.index).map fun p => "B" ++ toString p
  let ident := match g.blockId b.index with
    | some k => toString k
    | none => "-"
  "  B" ++ toString b.index ++ " id=" ++ ident ++ " insns=" ++ toString b.instructions.length ++
    "  succ=[" ++ ", ".intercalate outgoing ++ "]  pred=[" ++ ", ".intercalate incoming ++ "]"

/-- The multi-line summary of a graph. -/
def summary (g : Graph) : String :=
  "\n".intercalate (g.repr :: g.blocks.flatMap fun b =>
    g.summaryLine b :: b.instructions.map fun insn => "      " ++ insn.text)

end Graph

end Flowgraph
