import Flowgraph.Cli.Command
import Flowgraph.Cli.Files
import Flowgraph.Cli.Log
import Flowgraph.Analysis
import Flowgraph.Graph.Dot
import Flowgraph.Graph.Summary
import Flowgraph.Text.Utf8

/-!
**Running the command line.**

`analyze` reads the listing, finds the entry method, analyses it and writes the edge list (or
the JSON report with `--format json`) to the output file or standard output, then prints the
dominator report; with `--dot` it also writes the DOT drawing, titled with the method's
qualified name. `blocks` prints the summary of the entry method's graph.

Exit status 0 is success, 1 a fault of the analysis (logged as an error), and 2 a problem
around it: a bad command line, bad environment variables, a listing that is missing or
unreadable, an output that cannot be written.

Each step logs what it did: the methods decoded, jumps to labels without marker, the
partition, the unreachable blocks, the convergence of the dominator sets and a summary line.
-/

namespace Flowgraph.Cli

/-- Where a run takes place: its environment variables and its working and home directories. -/
structure Context where
  env : String → Option String
  cwd : List String
  /-- The home directory of a user, `""` standing for the user who runs the program. -/
  homeOf : String → Option (List String)

/-- What a run gives back: its exit status, what it printed, and its log records at or above
the chosen level. -/
structure Outcome where
  exit : Nat
  stdout : String
  log : List Record

/-- What a run has printed and logged so far. -/
structure Trace where
  stdout : String := ""
  log : List Record := []

/-- A run that may stop early with an exit status. -/
abbrev Run (m : Type → Type) := ExceptT Nat (StateT Trace m)

variable {m : Type → Type} [Monad m] [FileSystem m]

/-- Logs a record. -/
def emit (level : Level) (source message : String) : Run m Unit :=
  modify fun t => { t with log := t.log ++ [⟨level, source, message⟩] }

/-- Prints a text on standard output. -/
def print (text : String) : Run m Unit :=
  modify fun t => { t with stdout := t.stdout ++ text }

/-- Logs an error of the command line and stops with an exit status. -/
def fail (status : Nat) (message : String) : Run m α := do
  emit .error "bytecode_cfg" message
  throw status

/-- Stops on a fault of the analysis. -/
def stopOn (r : Except Fault α) : Run m α :=
  match r with
  | .ok a => pure a
  | .error f => fail 1 f.render

/-- Resolves a path given on the command line; a path that cannot be resolved ends the run. -/
def resolveArg (ctx : Context) (raw : String) : Run m (List String) :=
  match resolvePath ctx.cwd ctx.homeOf raw with
  | .error p => fail 2 ("unhandled exception: " ++ p.message)
  | .ok path => pure path

/-- The options of a run: the environment's, overridden by the command line. -/
def runOptions (ctx : Context) (inv : Invocation) : Run m Options :=
  match Options.fromEnv ctx.env with
  | .error e => fail 2 ("invalid environment configuration: " ++ e.message)
  | .ok base =>
    pure (base.override (inv.values.text? "method") (inv.values.text? "descriptor")
      (inv.values.flag? "reachable_only")
      ((inv.values.text? "max_passes").bind Number.readInteger?))

/-- Reads and decodes the listing file, then finds the entry method. -/
def loadMethod (ctx : Context) (inv : Invocation) (options : Options) : Run m Method := do
  let path ← resolveArg ctx inv.listing
  let shown := pathText path
  if (← liftM (FileSystem.kindAt path : m NodeKind)) = .missing then
    fail 2 ("listing not found: " ++ shown)
  let bytes ← match ← liftM (FileSystem.readBytes path : m _) with
    | .ok bytes => pure bytes
    | .error e => fail 2 ("cannot read listing " ++ shown ++ ": " ++ e.message)
  let text ← match Text.decodeUtf8 bytes with
    | .ok text => pure (String.ofList (Text.normalizeNewlines text.toList))
    | .error e => fail 2 ("cannot read listing " ++ shown ++ ": " ++ e.message)
  let forms ← stopOn ((Datum.readAll text).mapError Fault.malformed)
  let (methods, fault) := Listing.decodeForms 0 forms
  for method in methods do
    emit .debug "bytecode_cfg.listing"
      ("decoded " ++ method.qualifiedName ++ ": " ++ toString method.instructions.length ++
        " instructions")
  if let some f := fault then fail 1 f.render
  let (_, method) ← stopOn ((⟨methods⟩ : Listing).find options.entryMethod options.entryDescriptor)
  return method

/-- The written form of a label reference in log messages. -/
def labelRepr : Option Label → String
  | some label => "Label(" ++ Text.quoted label.name ++ ")"
  | none => "None"

/-- Builds and numbers the graph of a method, logging the steps. -/
def buildGraph (method : Method) : Run m Graph := do
  let g ← stopOn (Graph.build method.instructions .first)
  for (index, label) in g.unresolvedJumps do
    emit .debug "bytecode_cfg.ctrlflow_graph"
      ("block " ++ toString index ++ ": dropping jump to unresolved label " ++ labelRepr label)
  emit .debug "bytecode_cfg.ctrlflow_graph"
    ("partitioned " ++ toString g.stream.length ++ " instructions into " ++ toString g.size ++
      " blocks with " ++ toString g.edges.length ++ " edges")
  let g := g.number
  let unreachable := g.size - g.preorder.length
  if unreachable > 0 then
    emit .debug "bytecode_cfg.numbering"
      (toString unreachable ++ " of " ++ toString g.size ++ " blocks unreachable from entry")
  return g

/-- Writes an output: to standard output for none or `-`, else to the file, making its missing
parent directories. -/
def writeArtifact (ctx : Context) (dest : Option String) (text : String) : Run m Unit := do
  match dest with
  | none => print text
  | some "-" => print text
  | some raw =>
    let path ← resolveArg ctx raw
    match ← liftM (makeDirs path.dropLast : m _) with
    | .error e => fail 2 ("cannot write " ++ raw ++ ": " ++ e.message)
    | .ok () =>
      match ← liftM (FileSystem.writeText path text : m _) with
      | .error e => fail 2 ("cannot write " ++ raw ++ ": " ++ e.message)
      | .ok () => pure ()

/-- The `analyze` command. -/
def analyze (ctx : Context) (inv : Invocation) : Run m Unit := do
  let options ← runOptions ctx inv
  let method ← loadMethod ctx inv options
  let g ← buildGraph method
  let run ← stopOn (g.dominators options.restrictToReachable options.maxPasses)
  emit .debug "bytecode_cfg.dominators"
    ("dominators converged after " ++ toString run.passes ++ " passes over " ++ toString g.size ++
      " blocks")
  emit .info "bytecode_cfg.analysis"
    ("analysed " ++ toString g.stream.length ++ " instructions: " ++ toString g.size ++
      " blocks (" ++ toString g.preorder.length ++ " reachable), " ++ toString run.passes ++
      " solver passes")
  let output := inv.values.text? "output"
  if inv.values.text? "format" = some "json" then
    writeArtifact ctx output (g.reportJson run.entries (some 2) ++ "\n")
  else
    writeArtifact ctx output (String.join (g.edgeList.map (· ++ "\n")))
    print (String.join (("Dominators:" :: g.dominatorReport run.entries).map (· ++ "\n")))
  match inv.values.text? "dot" with
  | some dot =>
    if !dot.isEmpty then
      writeArtifact ctx (some dot) (g.toDot (some method.qualifiedName) ++ "\n")
  | none => pure ()
  match output with
  | some out =>
    if out != "-" then print ("CFG has been successfully written to " ++ out ++ "\n")
  | none => pure ()

/-- The `blocks` command. -/
def blocks (ctx : Context) (inv : Invocation) : Run m Unit := do
  let options ← runOptions ctx inv
  let method ← loadMethod ctx inv options
  let g ← buildGraph method
  print (g.summary ++ "\n")

/-- Runs a command line. -/
def run (ctx : Context) (argv : List String) : m Outcome := do
  match Invocation.parse argv with
  | .error .usage => return ⟨2, "", []⟩
  | .error (.done text) => return ⟨0, text, []⟩
  | .ok inv =>
    let body : Run m Unit := match inv.command with
      | .analyze => analyze ctx inv
      | .blocks => blocks ctx inv
    let (result, trace) ← (body.run).run {}
    let least := Level.ofVerbosity inv.verbosity
    let status := match result with
      | .ok () => 0
      | .error status => status
    return ⟨status, trace.stdout, trace.log.filter (·.shownAt least)⟩

end Flowgraph.Cli
