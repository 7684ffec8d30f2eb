import Flowgraph.Number.Integer
import Flowgraph.Number.Decimal

/-!
**Command-line arguments.**

The command line is `bytecode-cfg [-v…] [--version] COMMAND ARGS…` with the commands

* `analyze LISTING [-m NAME] [-d DESC] [-o FILE] [--reachable-only | --no-reachable-only]
  [--max-passes N] [-f text|json] [--dot FILE]`
* `blocks LISTING [-m NAME] [-d DESC]`

Arguments are read the usual way of option grammars:

* an argument that starts with `-` is an option, unless it is `-` alone, looks like a negative
  number or holds a space; after `--` every argument is positional;
* a long option may be abbreviated to any prefix that fits only one option, and may carry its
  value after `=`; a short option may carry its value glued to it, and short flags may be
  grouped (`-vv`);
* an option that takes a value takes the next argument, which must not be an option;
* options act in the order they are given: `--version` prints the version and `-h` ends the
  run at once;
* a missing `LISTING`, an unknown option, a surplus argument, an ambiguous abbreviation or a bad
  value is a usage error (exit status 2).
-/

namespace Flowgraph.Cli

/-- What an option does when given. -/
inductive OptionAction where
  /-- Stores its value under `key`, if `accepts` takes it. -/
  | store (key : String) (accepts : String → Bool)
  /-- Stores a fixed truth value under `key`. -/
  | setFlag (key : String) (value : Bool)
  /-- Counts how often it is given. -/
  | count (key : String)
  | version
  | help

/-- Whether an option action takes a value. -/
def OptionAction.takesValue : OptionAction → Bool
  | .store _ _ => true
  | _ => false

/-- An option: its spellings and its action. -/
structure OptionSpec where
  names : List String
  action : OptionAction

/-- A value read from the command line. -/
inductive ArgValue where
  | text (value : String)
  | flag (value : Bool)
  | count (value : Nat)
  deriving Repr, DecidableEq

/-- The values read so far, last given last. -/
abbrev ArgValues := List (String × ArgValue)

/-- The value stored under a key, the last one given winning. -/
def ArgValues.get? (values : ArgValues) (key : String) : Option ArgValue :=
  (values.reverse.find? (·.1 = key)).map Prod.snd

/-- A stored text value. -/
def ArgValues.text? (values : ArgValues) (key : String) : Option String :=
  match values.get? key with
  | some (.text s) => some s
  | _ => none

/-- A stored truth value. -/
def ArgValues.flag? (values : ArgValues) (key : String) : Option Bool :=
  match values.get? key with
  | some (.flag b) => some b
  | _ => none

/-- How an argument reads under a grammar. -/
inductive Token where
  | positional
  /-- The separator `--`, after which every argument is positional. -/
  | separator
  /-- A known option, as spelled, with a value glued to it. -/
  | known (spec : OptionSpec) (name : String) (attached : Option String)
  /-- Something that looks like an option of another grammar. -/
  | unknown

/-- How reading arguments stops early. -/
inductive Stop where
  /-- A usage error. -/
  | usage
  /-- The run ends with status 0 after printing a text. -/
  | done (stdout : String)

/-- The spellings of a grammar's options, each with its option. -/
def spellings (options : List OptionSpec) : List (String × OptionSpec) :=
  options.flatMap fun spec => spec.names.map fun name => (name, spec)

/-- Whether a text looks like a negative number: a minus and digits, or a minus, digits, a
point and digits, where the digits may be of any script and one newline may end the text. -/
def looksNegative (arg : String) : Bool :=
  let chars := arg.toList
  let body := if chars.getLast? = some '\n' then chars.dropLast else chars
  match body with
  | '-' :: rest =>
    let isDigit := Number.isDigitChar
    (!rest.isEmpty && rest.all isDigit) ||
      (match rest.dropWhile isDigit with
       | '.' :: tail => !tail.isEmpty && tail.all isDigit
       | _ => false)
  | _ => false

/-- Splits a text at its first `=`. -/
def splitEquals (arg : String) : Option (String × String) :=
  match arg.toList.span (· ≠ '=') with
  | (before, _ :: after) => some (String.ofList before, String.ofList after)
  | _ => none

/-- The options an argument may abbreviate, with the value it carries. -/
def candidates (table : List (String × OptionSpec)) (arg : String) :
    List (OptionSpec × String × Option String) :=
  match arg.toList with
  | '-' :: '-' :: _ =>
    let (stem, attached) := match splitEquals arg with
      | some (before, after) => (before, some after)
      | none => (arg, none)
    (table.filter fun (name, _) => name.startsWith stem).map fun (name, spec) =>
      (spec, name, attached)
  | _ =>
    let short := String.ofList (arg.toList.take 2)
    let glued := String.ofList (arg.toList.drop 2)
    table.filterMap fun (name, spec) =>
      if name = short then some (spec, name, some glued)
      else if name.startsWith arg then some (spec, name, none)
      else none

/-- How an argument reads under a grammar; an ambiguous abbreviation is a usage error. -/
def classify (table : List (String × OptionSpec)) (arg : String) : Except Stop Token :=
  if arg.isEmpty || !arg.startsWith "-" then .ok .positional
  else
    match table.lookup arg with
    | some spec => .ok (.known spec arg none)
    | none =>
      if arg.length = 1 then .ok .positional
      else
        let exact := (splitEquals arg).bind fun (before, after) =>
          (table.lookup before).map fun spec => Token.known spec before (some after)
        match exact with
        | some token => .ok token
        | none =>
          match candidates table arg with
          | [(spec, name, attached)] => .ok (.known spec name attached)
          | _ :: _ :: _ => .error .usage
          | [] =>
            if looksNegative arg || arg.contains ' ' then .ok .positional else .ok .unknown

/-- Reads every argument under a grammar; after `--` all are positional. -/
def tokenize (table : List (String × OptionSpec)) : List String → Except Stop (List (String × Token))
  | [] => .ok []
  | arg :: rest =>
    if arg = "--" then .ok ((arg, .separator) :: rest.map fun a => (a, .positional))
    else do
      let token ← classify table arg
      let more ← tokenize table rest
      return (arg, token) :: more

/-- The text printed by `--version`. -/
def versionText : String := "bytecode-cfg 0.1.0\n"

/-- Carries out one option action with its value, if it takes one. -/
def act (values : ArgValues) (action : OptionAction) (value : Option String) :
    Except Stop ArgValues :=
  match action, value with
  | .store key accepts, some v => if accepts v then .ok (values ++ [(key, .text v)]) else .error .usage
  | .store _ _, none => .error .usage
  | .setFlag key b, _ => .ok (values ++ [(key, .flag b)])
  | .count key, _ =>
    let n := match values.get? key with
      | some (.count k) => k
      | _ => 0
    .ok (values ++ [(key, .count (n + 1))])
  | .version, _ => .error (.done versionText)
  | .help, _ => .error (.done "")

/-- The actions an option with glued characters stands for, each with its value. A short flag
followed by more characters is a group of short options (`-vv`); the flag tells whether the
last of them still takes the next argument as its value. -/
def expandGlued (table : List (String × OptionSpec)) (spec : OptionSpec) (name : String) :
    List Char → Except Stop (List (OptionAction × Option String) × Bool)
  | [] =>
    if spec.action.takesValue then .ok ([(spec.action, some "")], false) else .error .usage
  | c :: more =>
    if spec.action.takesValue then .ok ([(spec.action, some (String.ofList (c :: more)))], false)
    else if name.length = 2 && !name.startsWith "--" then
      let next := String.ofList ['-', c]
      match table.lookup next, more with
      | some spec', [] =>
        .ok ([(spec.action, none), (spec'.action, none)], spec'.action.takesValue)
      | some spec', _ :: _ => do
        let (actions, needsValue) ← expandGlued table spec' next more
        return ((spec.action, none) :: actions, needsValue)
      | none, _ => .error .usage
    else .error .usage

/-- Carries out actions in order. -/
def actAll (values : ArgValues) : List (OptionAction × Option String) → Except Stop ArgValues
  | [] => .ok values
  | (action, value) :: rest => do actAll (← act values action value) rest

/-- The next argument, if it is positional: the value an option may take. -/
def nextValue : List (String × Token) → Option String
  | (v, .positional) :: _ => some v
  | _ => none

/-- Carries out a known option: its glued value or group, or the next argument `next` as its
value when it takes one. The flag tells whether the next argument was used. -/
def actOption (table : List (String × OptionSpec)) (values : ArgValues) (spec : OptionSpec)
    (name : String) (attached : Option String) (next : Option String) :
    Except Stop (ArgValues × Bool) := do
  let (actions, needsValue) ← match attached with
    | some glued => expandGlued table spec name glued.toList
    | none => pure ([(spec.action, none)], spec.action.takesValue)
  if needsValue then
    match next, actions.getLast? with
    | some v, some (action, _) =>
      let values ← actAll values actions.dropLast
      return (← act values action (some v), true)
    | _, _ => .error .usage
  else
    return (← actAll values actions, false)

/-- What reading a command's arguments gives: the values, the filled positionals and the
arguments left over. -/
structure Reading where
  values : ArgValues
  positionals : List String
  extras : List String

/-- Where the reader stands with respect to positionals. -/
structure Place where
  /-- How many positionals are still to fill. -/
  slots : Nat
  /-- Separators met while a positional is awaited; they go with it. -/
  pending : List String := []
  /-- Whether a positional was just filled, so that separators after it go with it. -/
  afterPositional : Bool := false

/-- Reads the tokens of a command. -/
def readTokens (table : List (String × OptionSpec)) :
    Place → Reading → List (String × Token) → Except Stop Reading
  | place, r, [] =>
    if place.slots = 0 then .ok r else .error .usage
  | place, r, (arg, .separator) :: rest =>
    if place.afterPositional then readTokens table place r rest
    else if place.slots > 0 then
      readTokens table { place with pending := place.pending ++ [arg] } r rest
    else readTokens table place { r with extras := r.extras ++ [arg] } rest
  | place, r, (arg, .positional) :: rest =>
    if place.slots > 0 then
      readTokens table ⟨place.slots - 1, [], true⟩ { r with positionals := r.positionals ++ [arg] }
        rest
    else
      readTokens table { place with afterPositional := false }
        { r with extras := r.extras ++ [arg] } rest
  | place, r, (arg, .unknown) :: rest =>
    readTokens table ⟨place.slots, [], false⟩
      { r with extras := r.extras ++ place.pending ++ [arg] } rest
  | place, r, (_, .known spec name attached) :: rest =>
    let r := { r with extras := r.extras ++ place.pending }
    let place : Place := ⟨place.slots, [], false⟩
    match actOption table r.values spec name attached (nextValue rest), rest with
    | .error e, _ => .error e
    | .ok (values, true), _ :: rest' => readTokens table place { r with values } rest'
    | .ok (values, _), rest => readTokens table place { r with values } rest

/-- Reads a command's arguments under its options, with `slots` positionals to fill. -/
def readCommand (options : List OptionSpec) (slots : Nat) (args : List String) :
    Except Stop Reading := do
  let table := spellings options
  readTokens table ⟨slots, [], false⟩ ⟨[], [], []⟩ (← tokenize table args)

/-- Reads the leading options up to the command name: the values, the command name with the
arguments after it, and the arguments left over. -/
def readLeading (table : List (String × OptionSpec)) :
    ArgValues → List String → List (String × Token) →
      Except Stop (ArgValues × Option (String × List String) × List String)
  | values, extras, [] => .ok (values, none, extras)
  | _, _, (_, .separator) :: _ => .error .usage
  | values, extras, (arg, .positional) :: rest => .ok (values, some (arg, rest.map Prod.fst), extras)
  | values, extras, (arg, .unknown) :: rest => readLeading table values (extras ++ [arg]) rest
  | values, extras, (_, .known spec name attached) :: rest =>
    match actOption table values spec name attached (nextValue rest), rest with
    | .error e, _ => .error e
    | .ok (values, true), _ :: rest' => readLeading table values extras rest'
    | .ok (values, _), rest => readLeading table values extras rest

end Flowgraph.Cli
