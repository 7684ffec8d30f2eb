import Flowgraph.Text.Lower
import Flowgraph.Sexp.Datum

/-!
**Instructions and their control-flow roles.**

An instruction is an opcode mnemonic, kept in lower case, with its operands. A label marker
also holds the label it defines, and a jump the label it goes to. Labels are objects: the
markers and jumps of one method that name one label share it, and a label's name is for display
only. The role of an instruction follows from its opcode alone:

* `label` marks a jump target and transfers nothing;
* `line` and `frame` are filler: metadata that is not executed;
* the sixteen `if…` mnemonics are conditional jumps, and `goto`, `goto_w`, `jsr`, `jsr_w`
  unconditional ones;
* the six `…return` mnemonics leave the method;
* every other mnemonic is plain and falls through to the next instruction.
-/

namespace Flowgraph

/-- The control-flow role of an instruction. -/
inductive Role where
  | label
  | jump
  | condJump
  | ret
  | plain
  | filler
  deriving Repr, DecidableEq, Inhabited

namespace Role

/-- The name of a role, as reports give it. -/
def name : Role → String
  | .label => "label"
  | .jump => "jump"
  | .condJump => "cond-jump"
  | .ret => "return"
  | .plain => "plain"
  | .filler => "filler"

/-- Whether an instruction of this role transfers control to a label. -/
def isJump : Role → Bool
  | .jump | .condJump => true
  | _ => false

/-- Whether an instruction of this role is executed: all but markers and filler. -/
def isExecutable : Role → Bool
  | .label | .filler => false
  | _ => true

end Role

/-- The opcodes of conditional jumps. -/
def conditionalJumps : List String :=
  ["ifeq", "ifne", "iflt", "ifge", "ifgt", "ifle", "if_icmpeq", "if_icmpne", "if_icmplt",
   "if_icmpge", "if_icmpgt", "if_icmple", "if_acmpeq", "if_acmpne", "ifnull", "ifnonnull"]

/-- The opcodes of unconditional jumps. -/
def unconditionalJumps : List String := ["goto", "goto_w", "jsr", "jsr_w"]

/-- The opcodes that leave the method. -/
def returnOpcodes : List String :=
  ["ireturn", "lreturn", "freturn", "dreturn", "areturn", "return"]

/-- The opcodes of filler instructions. -/
def fillerOpcodes : List String := ["line", "frame"]

/-- The role of a lower-case opcode. -/
def Role.ofOpcode (opcode : String) : Role :=
  if opcode = "label" then .label
  else if opcode ∈ fillerOpcodes then .filler
  else if opcode ∈ conditionalJumps then .condJump
  else if opcode ∈ unconditionalJumps then .jump
  else if opcode ∈ returnOpcodes then .ret
  else .plain

/-- An operand of an instruction. Symbols and string literals are both names. -/
inductive Operand where
  | name (text : String)
  | integer (value : Int)
  | real (value : Float)
  /-- A quoted or bracketed value, kept whole. -/
  | other (value : Datum)
  deriving Inhabited

/-- The text of an operand inside an instruction's text. -/
def Operand.text : Operand → String
  | .name text => text
  | .integer value => Datum.intText value
  | .real value => Number.floatText value
  | .other value => value.repr

/-- A jump target, shared by the marker that defines it and the jumps that go to it. A label is
an object: `id` is its identity, so two labels are one object exactly when their ids agree, and
the decoder gives its labels ids in the order it makes them. `name` is for display only. -/
structure Label where
  id : Nat
  name : String
  deriving DecidableEq, Repr, Inhabited

/-- One instruction of a method body. -/
structure Instruction where
  /-- The mnemonic, in lower case. -/
  opcode : String
  operands : List Operand
  /-- For a label marker, the label it defines. -/
  label : Option Label := none
  /-- For a jump, the label it goes to. -/
  target : Option Label := none
  deriving Inhabited

namespace Instruction

/-- An instruction with the given mnemonic, lowered, and no operands. -/
def ofOpcode (opcode : String) : Instruction := ⟨Text.lower opcode, [], none, none⟩

/-- The marker that defines a label; its one operand is the label's name. -/
def marker (label : Label) : Instruction := ⟨"label", [.name label.name], some label, none⟩

/-- The role of an instruction. -/
def role (insn : Instruction) : Role := Role.ofOpcode insn.opcode

/-- The label a jump goes to; `none` for an instruction that is no jump. -/
def jumpTarget (insn : Instruction) : Option Label :=
  if insn.role.isJump then insn.target else none

/-- Whether an instruction is filler. -/
def isFiller (insn : Instruction) : Bool := insn.role = .filler

/-- The text of an instruction: `NAME:` for a marker, `op TARGET` for a jump, else the opcode
followed by its operands, separated by single spaces. -/
def text (insn : Instruction) : String :=
  match insn.label, insn.target with
  | some label, _ => label.name ++ ":"
  | none, some target => insn.opcode ++ " " ++ target.name
  | none, none =>
    match insn.operands with
    | [] => insn.opcode
    | operands => insn.opcode ++ " " ++ " ".intercalate (operands.map Operand.text)

/-- The written form of an instruction: `Instruction('text')`. -/
def repr (insn : Instruction) : String := "Instruction(" ++ Text.quoted insn.text ++ ")"

end Instruction

end Flowgraph
