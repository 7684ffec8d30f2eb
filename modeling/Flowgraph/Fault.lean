import Flowgraph.Sexp.Reader

/-!
**Faults.**

The structural problems that stop an analysis, each with a stable code:

* `CFG-1001`: the method body has no executable instruction;
* `CFG-1002`: the entry instruction is not an executable member of the stream;
* `CFG-1003`: no method of the listing has the wanted name and descriptor;
* `CFG-2001`: the listing is no sequence of S-expressions;
* `CFG-2002`: a form has the wrong shape;
* `CFG-2003`: an instruction has a wrong operand;
* `CFG-9001`: the dominator sets still change when the pass cap is reached.

A fault is shown as `[CODE] message`, followed by ` (hint: …)` when it has a hint.
-/

namespace Flowgraph

/-- The kinds of form a listing is made of, as messages name them. -/
inductive FormKind where
  | instruction
  | method
  | classForm
  | topLevel
  deriving Repr, DecidableEq

/-- The name of a kind of form in messages. -/
def FormKind.name : FormKind → String
  | .instruction => "instruction"
  | .method => "method"
  | .classForm => "class"
  | .topLevel => "class|method"

/-- A form of a listing that has the wrong shape. -/
inductive ShapeError where
  /-- A form of this kind was expected and a value that is no list was found. -/
  | notAList (kind : FormKind) (found : Datum)
  /-- A form of this kind has fewer elements than it needs. -/
  | tooShort (kind : FormKind) (least : Nat) (found : Nat)
  /-- The head of a form is no symbol. -/
  | notASymbol (found : Datum)
  /-- A top-level form is neither a class nor a method. -/
  | unknownForm (tag : String)
  /-- A member of a class is no method. -/
  | notAMethod (owner : String) (tag : String)

/-- An instruction with a wrong operand. -/
inductive OperandError where
  /-- A marker has a number of operands other than one. -/
  | markerArity (found : Nat)
  /-- A jump has no target. -/
  | missingTarget (opcode : String)
  /-- An operand is a list. -/
  | nestedList (found : Datum)
  /-- A label or method name is no symbol, string or integer. -/
  | notAName (found : Datum)

/-- Why an analysis cannot be carried out. -/
inductive Fault where
  | emptyMethod
  /-- The entry instruction, shown by its written form, is not in the stream. -/
  | entryNotInStream (shown : String)
  /-- The entry instruction, shown by its written form, is filler. -/
  | entryIsFiller (shown : String)
  /-- No method has the wanted name and descriptor; `available` lists the qualified names. -/
  | missingMethod (wanted : String) (available : List String)
  | malformed (cause : ReadError)
  | shape (cause : ShapeError)
  | operand (cause : OperandError)
  /-- The sets still changed after `passes` passes over `blocks` blocks. -/
  | noConvergence (passes : Nat) (blocks : Nat)

namespace Fault

/-- The stable code of a fault. -/
def code : Fault → String
  | .emptyMethod => "CFG-1001"
  | .entryNotInStream _ | .entryIsFiller _ => "CFG-1002"
  | .missingMethod _ _ => "CFG-1003"
  | .malformed _ => "CFG-2001"
  | .shape _ => "CFG-2002"
  | .operand _ => "CFG-2003"
  | .noConvergence _ _ => "CFG-9001"

/-- A value in a message: its type name and written form. -/
def described (d : Datum) : String := d.typeName ++ ": " ++ d.repr

/-- The message of a fault, without code and hint. -/
def message : Fault → String
  | .emptyMethod => "method body has no executable instructions"
  | .entryNotInStream shown => "entry instruction " ++ shown ++ " is not part of the stream"
  | .entryIsFiller shown => "entry instruction " ++ shown ++ " is a filler instruction"
  | .missingMethod wanted _ => "no method " ++ wanted ++ " in listing"
  | .malformed cause => "Malformed S-expression: " ++ cause.message
  | .shape (.notAList kind found) => "Expected (" ++ kind.name ++ " ...), got " ++ described found
  | .shape (.tooShort kind least found) =>
    "(" ++ kind.name ++ " ...) too short: expected at least " ++ toString least ++
      " elements, got " ++ toString found
  | .shape (.notASymbol found) => "Expected symbol, got " ++ described found
  | .shape (.unknownForm tag) =>
    "Unknown top-level form (" ++ tag ++ " ...); expected class or method"
  | .shape (.notAMethod owner tag) =>
    "Only (method ...) forms may appear inside (class " ++ owner ++ " ...), got (" ++ tag ++
      " ...)"
  | .operand (.markerArity found) =>
    "(label NAME) takes exactly one operand, got " ++ toString found
  | .operand (.missingTarget opcode) => "(" ++ opcode ++ " TARGET) is missing its target label"
  | .operand (.nestedList found) => "Nested list is not a valid operand: " ++ found.repr
  | .operand (.notAName found) => "Expected a name, got " ++ described found
  | .noConvergence passes blocks =>
    "dominator sets still changing after " ++ toString passes ++ " passes over " ++
      toString blocks ++ " blocks"

/-- The hint of a fault; empty when it has none. -/
def hint : Fault → String
  | .emptyMethod => "the instruction stream is empty or holds only filler"
  | .missingMethod _ available =>
    let listed := ", ".intercalate available
    "available methods: " ++ (if listed.isEmpty then "none" else listed)
  | _ => ""

/-- The full text of a fault: code, message and hint. -/
def render (fault : Fault) : String :=
  let head := "[" ++ fault.code ++ "] " ++ fault.message
  if fault.hint.isEmpty then head else head ++ " (hint: " ++ fault.hint ++ ")"

end Fault

end Flowgraph
