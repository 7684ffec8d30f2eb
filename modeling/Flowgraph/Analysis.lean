import Flowgraph.Listing
import Flowgraph.Graph.Build
import Flowgraph.Report
import Flowgraph.Options

/-!
**Analyses.**

An analysis of one instruction stream builds its graph, numbers the reachable blocks and
computes the dominator sets under the given options. An analysis of a listing first finds the
entry method named by the options.
-/

namespace Flowgraph

/-- Everything an analysis produces. -/
structure Analysis where
  /-- The numbered graph. -/
  graph : Graph
  dominators : DominatorRun
  /-- The analysed method, when the input was a listing. -/
  method : Option Method := none
  deriving Inhabited

namespace Analysis

/-- Analyses a stream entered at `entry`. -/
def ofStream (stream : List Instruction) (entry : EntryPoint stream.length) (options : Options) :
    Except Fault Analysis := do
  let graph := (← Graph.build stream entry).number
  let dominators ← graph.dominators options.restrictToReachable options.maxPasses
  return { graph, dominators }

/-- Analyses the entry method of a listing. -/
def ofListing (listing : Listing) (options : Options) : Except Fault Analysis := do
  let (_, method) ← listing.find options.entryMethod options.entryDescriptor
  let result ← ofStream method.instructions .first options
  return { result with method := some method }

/-- The lines of the edge list. -/
def edgeList (a : Analysis) : List String := a.graph.edgeList

/-- The lines of the dominator report. -/
def dominatorReport (a : Analysis) : List String :=
  a.graph.dominatorReport a.dominators.entries

/-- The JSON report, indented by two spaces. -/
def json (a : Analysis) : String := a.graph.reportJson a.dominators.entries (some 2)

end Analysis

end Flowgraph
