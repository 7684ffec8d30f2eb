import Flowgraph.Cli.Args

/-!
**Commands.**

The two commands of the command line, `analyze` and `blocks`, their options, and the reading of
a whole command line into an invocation: how verbose to be, which command, which listing, and
the values of the command's options.
-/

namespace Flowgraph.Cli

/-- A command of the command line. -/
inductive Command where
  | analyze
  | blocks
  deriving Repr, DecidableEq

/-- A command line that reads well. -/
structure Invocation where
  /-- How often `-v` was given. -/
  verbosity : Nat
  command : Command
  /-- The listing file, as given. -/
  listing : String
  values : ArgValues

/-- Whether a text is an integer numeral with a positive value. -/
def isPositiveNumeral (raw : String) : Bool :=
  match Number.readInteger? raw with
  | some v => v > 0
  | none => false

/-- The options before the command. -/
def leadingOptions : List OptionSpec :=
  [⟨["-h", "--help"], .help⟩, ⟨["-v", "--verbose"], .count "verbose"⟩,
   ⟨["--version"], .version⟩]

/-- The options that choose the entry method, common to both commands. -/
def entryOptions : List OptionSpec :=
  [⟨["-h", "--help"], .help⟩, ⟨["-m", "--method"], .store "method" fun _ => true⟩,
   ⟨["-d", "--descriptor"], .store "descriptor" fun _ => true⟩]

/-- The options of a command. -/
def Command.options : Command → List OptionSpec
  | .analyze => entryOptions ++
    [⟨["-o", "--output"], .store "output" fun _ => true⟩,
     ⟨["--reachable-only"], .setFlag "reachable_only" true⟩,
     ⟨["--no-reachable-only"], .setFlag "reachable_only" false⟩,
     ⟨["--max-passes"], .store "max_passes" isPositiveNumeral⟩,
     ⟨["-f", "--format"], .store "format" fun v => v = "text" || v = "json"⟩,
     ⟨["--dot"], .store "dot" fun _ => true⟩]
  | .blocks => entryOptions

/-- The command of a name. -/
def Command.ofName? : String → Option Command
  | "analyze" => some .analyze
  | "blocks" => some .blocks
  | _ => none

/-- Reads a command line. A line without command, with arguments left over or with a bad
argument is a usage error. -/
def Invocation.parse (argv : List String) : Except Stop Invocation := do
  let table := spellings leadingOptions
  let (values, command?, extras) ← readLeading table [] [] (← tokenize table argv)
  match command? with
  | none => .error .usage
  | some (name, rest) =>
    let some command := Command.ofName? name | .error .usage
    let reading ← readCommand command.options 1 rest
    if !(extras ++ reading.extras).isEmpty then .error .usage
    else
      let verbosity := match values.get? "verbose" with
        | some (.count n) => n
        | _ => 0
      match reading.positionals with
      | [listing] => return ⟨verbosity, command, listing, reading.values⟩
      | _ => .error .usage

end Flowgraph.Cli
