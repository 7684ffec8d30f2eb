import Flowgraph.Text.Blank
import Flowgraph.Text.Lower
import Flowgraph.Text.Quoted
import Flowgraph.Number.Integer

/-!
**Analysis options.**

An analysis is configured by the entry method's name (default `main`) and descriptor (default:
any), whether dominators are computed over the reachable blocks only (default: no), and a cap
on dominator passes (default: automatic). Each can come from an environment variable, and each
can then be overridden.

* `BYTECODE_CFG_ENTRY_METHOD` and `BYTECODE_CFG_ENTRY_DESCRIPTOR`: an empty value means the
  default.
* `BYTECODE_CFG_REACHABLE_ONLY`: after trimming blanks and lowering case, `1`, `true`, `yes`,
  `on` mean yes and `0`, `false`, `no`, `off` and the empty text mean no.
* `BYTECODE_CFG_MAX_PASSES`: a blank value means automatic; otherwise an integer numeral with a
  positive value.

The variables are read in this order, and the first bad value is the error.
-/

namespace Flowgraph

/-- The options of one analysis. -/
structure Options where
  entryMethod : String := "main"
  entryDescriptor : Option String := none
  restrictToReachable : Bool := false
  maxPasses : Option Int := none
  deriving Repr, DecidableEq, Inhabited

/-- A bad value of an environment variable. -/
inductive OptionError where
  | notABoolean (name raw : String)
  | notAnInteger (name raw : String)
  | notPositive (name : String) (value : Int)
  deriving Repr, DecidableEq

/-- The text of an option error. -/
def OptionError.message : OptionError → String
  | .notABoolean name raw => name ++ ": expected a boolean, got " ++ Text.quoted raw
  | .notAnInteger name raw => name ++ ": expected an integer, got " ++ Text.quoted raw
  | .notPositive name value =>
    name ++ ": must be positive, got " ++
      (if value < 0 then "-" ++ toString value.natAbs else toString value.natAbs)

namespace Options

/-- The prefix of the environment variables. -/
def envPrefix : String := "BYTECODE_CFG_"

/-- Reads a yes-or-no variable. -/
def readFlag (name : String) (raw : Option String) (default : Bool) : Except OptionError Bool :=
  match raw with
  | none => .ok default
  | some text =>
    let value := Text.lower (Text.trimBlank text)
    if value ∈ ["1", "true", "yes", "on"] then .ok true
    else if value ∈ ["0", "false", "no", "off", ""] then .ok false
    else .error (.notABoolean name text)

/-- Reads a positive integer variable; a missing or blank value is `none`. -/
def readPositive (name : String) (raw : Option String) : Except OptionError (Option Int) :=
  match raw with
  | none => .ok none
  | some text =>
    if (Text.trimBlank text).isEmpty then .ok none
    else
      match Number.readInteger? text with
      | none => .error (.notAnInteger name text)
      | some value => if value ≤ 0 then .error (.notPositive name value) else .ok (some value)

/-- The options given by environment variables, read from `env`. -/
def fromEnv (env : String → Option String) : Except OptionError Options := do
  let nonEmpty (value : Option String) : Option String :=
    value.bind fun v => if v.isEmpty then none else some v
  let entryMethod := (nonEmpty (env (envPrefix ++ "ENTRY_METHOD"))).getD "main"
  let entryDescriptor := nonEmpty (env (envPrefix ++ "ENTRY_DESCRIPTOR"))
  let name := envPrefix ++ "REACHABLE_ONLY"
  let restrictToReachable ← readFlag name (env name) false
  let name := envPrefix ++ "MAX_PASSES"
  let maxPasses ← readPositive name (env name)
  return { entryMethod, entryDescriptor, restrictToReachable, maxPasses }

/-- The options with every given override applied. -/
def override (o : Options) (entryMethod entryDescriptor : Option String)
    (restrictToReachable : Option Bool) (maxPasses : Option Int) : Options :=
  { entryMethod := entryMethod.getD o.entryMethod
    entryDescriptor := entryDescriptor.orElse fun _ => o.entryDescriptor
    restrictToReachable := restrictToReachable.getD o.restrictToReachable
    maxPasses := maxPasses.orElse fun _ => o.maxPasses }

end Options

end Flowgraph
