import Flowgraph.Text.RangeTable
import Flowgraph.Text.Blank
import Flowgraph.Text.Digit
import Flowgraph.Text.Printable
import Flowgraph.Text.Cased
import Flowgraph.Text.Lower
import Flowgraph.Text.Quoted
import Flowgraph.Number.Integer
import Flowgraph.Number.Decimal
import Flowgraph.Number.Shortest
import Flowgraph.Number.FloatText
import Flowgraph.Sexp.Datum
import Flowgraph.Sexp.Reader
import Flowgraph.Instruction
import Flowgraph.Fault
import Flowgraph.Listing
import Flowgraph.Graph.Basic
import Flowgraph.Graph.Build
import Flowgraph.Graph.Walk
import Flowgraph.Graph.Dot
import Flowgraph.Graph.Summary
import Flowgraph.Dominance
import Flowgraph.Document
import Flowgraph.Report
import Flowgraph.Options
import Flowgraph.Analysis
import Flowgraph.Text.Utf8
import Flowgraph.Cli.Args
import Flowgraph.Cli.Files
import Flowgraph.Cli.Command
import Flowgraph.Cli.Log
import Flowgraph.Cli.Run
import Flowgraph.Main
import Flowgraph.Proofs.Paths
import Flowgraph.Proofs.Reachability
import Flowgraph.Proofs.Dominance.Fixpoint
import Flowgraph.Proofs.Build
import Flowgraph.Proofs.Dominance.Paths
import Flowgraph.Proofs.Dominance.Order
import Flowgraph.Proofs.Blocks
import Flowgraph.Proofs.Simulation
import Flowgraph.Proofs.Edges
import Flowgraph.Proofs.Dominance.Passes
import Flowgraph.Proofs.Partition
import Flowgraph.Proofs.Isomorphism
import Flowgraph.Proofs.EdgeList
import Flowgraph.Proofs.RecursivePreorder
import Flowgraph.Proofs.Numbering
import Flowgraph.Proofs.Dominance.Shrinking
import Flowgraph.Proofs.Dominance.Cap
import Flowgraph.Proofs.EdgeLines
import Flowgraph.Proofs.BuildFaults
import Flowgraph.Proofs.ListingGrammar
import Flowgraph.Proofs.LabelScope
import Flowgraph.Proofs.WorklistRounds
import Flowgraph.Proofs.DotSyntax
import Flowgraph.Proofs.DotLabels
import Flowgraph.Proofs.Reporters
