import Flowgraph.Graph.Basic

/-!
**Graphs as DOT documents.**

A graph is drawn as a directed DOT graph: one boxed node per block, labelled with the block's
id (`#3`, or `u<index>` for a block without id) and the block's short text, and one edge per
control-flow edge, labelled with its kind. The entry block is filled green; once the graph is
numbered, unreachable blocks are dashed. Taken branches are green and jumps blue. Inside a
label, a double quote is written `\"` and a newline `\n`.
-/

namespace Flowgraph

namespace Graph

/-- The text of a node label with double quotes and newlines escaped. -/
def escapeLabel (text : String) : String :=
  String.ofList (text.toList.flatMap fun c =>
    if c = '"' then ['\\', '"'] else if c = '\n' then ['\\', 'n'] else [c])

/-- The name of a block in drawings and reports: `#id`, or `u<index>` without id. -/
def nodeName (g : Graph) (b : Block) : String :=
  match g.blockId b.index with
  | some k => "#" ++ toString k
  | none => "u" ++ toString b.index

/-- The DOT line of a block. -/
def nodeLine (g : Graph) (b : Block) : String :=
  let style :=
    if b.index = g.entry then ", style=filled, fillcolor=\"#ccffcc\""
    else if (g.blockId b.index).isNone && g.numbering.isSome then ", style=dashed"
    else ""
  "  B" ++ toString b.index ++ " [label=\"" ++ g.nodeName b ++ "\\n" ++ escapeLabel b.display ++
    "\"" ++ style ++ "];"

/-- The DOT line of an edge. -/
def edgeLine (e : Edge) : String :=
  let style := match e.kind with
    | .branchTaken => ", color=green, fontcolor=green"
    | .jump => ", color=blue, fontcolor=blue"
    | .fallThrough => ""
  "  B" ++ toString e.source ++ " -> B" ++ toString e.target ++ " [label=\"" ++ e.kind.name ++
    "\"" ++ style ++ "];"

/-- The DOT document of a graph, with the title as graph label when it is not empty. -/
def toDot (g : Graph) (title : Option String) : String :=
  let titleLines := match title with
    | some t => if t.isEmpty then [] else ["  label=\"" ++ t ++ "\";"]
    | none => []
  "\n".intercalate (["digraph CFG \x7b"] ++ titleLines ++
    ["  node [shape=box, fontname=monospace, fontsize=10];"] ++ g.blocks.map g.nodeLine ++
    g.edges.map edgeLine ++ ["\x7d"])

end Graph

end Flowgraph
