import Flowgraph.Instruction
import Flowgraph.Fault

/-!
**Method listings.**

A listing is a sequence of `(method NAME ["DESCRIPTOR"] INSTRUCTION…)` forms and of
`(class NAME METHOD…)` forms grouping methods. An instruction is `(OPCODE OPERAND…)`; its
opcode is a symbol in any case, and its operands are symbols, strings, numbers, quoted or
bracketed values, never lists. `(label NAME)` defines a label, and a jump's first operand names
its target. A name is a symbol, a string or an integer (named by its decimal text).

Each method decodes its body in a scope of labels of its own, and so does a bare sequence of
instructions. The first mention of a name in a scope, by a marker or a jump, makes a new label
object; later mentions of that name in the scope get that same object. The labels of a method
map the names mentioned, in order of first mention, to their objects. Label identities are never
reused: each new label takes the next identity, counted over the whole listing.

The heads `class` and `method` are case-sensitive, opcodes are not. The first form that breaks
these rules stops the decoding, with a fault that says why.
-/

namespace Flowgraph

/-- One method of a listing. -/
structure Method where
  name : String
  descriptor : Option String := none
  /-- The class the method was declared in. -/
  owner : Option String := none
  instructions : List Instruction
  /-- The labels of the body by name, in order of first mention. -/
  labels : List (String × Label)
  deriving Inhabited

/-- The name of a method with its class and descriptor: `Owner.name(I)V`. -/
def Method.qualifiedName (m : Method) : String :=
  let ownerPart := match m.owner with
    | some owner => if owner.isEmpty then "" else owner ++ "."
    | none => ""
  ownerPart ++ m.name ++ m.descriptor.getD ""

/-- The methods of a listing, in the order they are written. -/
structure Listing where
  methods : List Method
  deriving Inhabited

namespace Listing

/-- The name of a symbol; any other value is a shape fault. -/
def symbolName : Datum → Except Fault String
  | .symbol name => .ok name
  | d => .error (.shape (.notASymbol d))

/-- A name given by a symbol, a string or an integer. -/
def nameOf : Datum → Except Fault String
  | .symbol name => .ok name
  | .text value => .ok value
  | .integer value => .ok (Datum.intText value)
  | d => .error (.operand (.notAName d))

/-- The elements of a form of the given kind with at least `least` elements. -/
def expectList (kind : FormKind) (least : Nat) : Datum → Except Fault (List Datum)
  | .list items =>
    if items.length < least then .error (.shape (.tooShort kind least items.length))
    else .ok items
  | d => .error (.shape (.notAList kind d))

/-- The operand that a value stands for; a list is no operand. -/
def operandOf : Datum → Except Fault Operand
  | .symbol name => .ok (.name name)
  | .text value => .ok (.name value)
  | .integer value => .ok (.integer value)
  | .real value => .ok (.real value)
  | d@(.list _) => .error (.operand (.nestedList d))
  | d => .ok (.other d)

/-- The labels of one method while its body is decoded: the labels made so far, by name, in the
order they were made, and the identity the next new label gets. -/
structure LabelScope where
  labels : List (String × Label)
  next : Nat

/-- An empty scope, whose first new label gets identity `next`. -/
def LabelScope.fresh (next : Nat) : LabelScope := ⟨[], next⟩

/-- The label of a name: the one made for it before in this scope, or a new one. -/
def LabelScope.get (scope : LabelScope) (name : String) : Label × LabelScope :=
  match scope.labels.lookup name with
  | some label => (label, scope)
  | none =>
    let label : Label := ⟨scope.next, name⟩
    (label, ⟨scope.labels ++ [(name, label)], scope.next + 1⟩)

/-- Decodes one instruction form in a scope of labels. -/
def decodeInstruction (scope : LabelScope) (d : Datum) :
    Except Fault (Instruction × LabelScope) := do
  let form ← expectList .instruction 1 d
  match form with
  | [] => .error (.shape (.tooShort .instruction 1 0))
  | head :: args =>
    let opcode := Text.lower (← symbolName head)
    let operands ← args.mapM operandOf
    if opcode = "label" then
      match args with
      | [only] =>
        let (label, scope) := scope.get (← nameOf only)
        return (Instruction.marker label, scope)
      | _ => .error (.operand (.markerArity operands.length))
    else if opcode ∈ conditionalJumps ∨ opcode ∈ unconditionalJumps then
      match args with
      | first :: _ =>
        let (label, scope) := scope.get (← nameOf first)
        return ({ opcode, operands, target := some label }, scope)
      | [] => .error (.operand (.missingTarget opcode))
    else
      return ({ opcode, operands }, scope)

/-- Decodes a sequence of instruction forms in a scope of labels. -/
def decodeBody (scope : LabelScope) : List Datum → Except Fault (List Instruction × LabelScope)
  | [] => .ok ([], scope)
  | d :: rest => do
    let (insn, scope) ← decodeInstruction scope d
    let (more, scope) ← decodeBody scope rest
    return (insn :: more, scope)

/-- The instruction stream of a bare sequence of instruction forms, decoded in one scope. -/
def decodeInstructions (forms : List Datum) : Except Fault (List Instruction) :=
  (decodeBody (.fresh 0) forms).map Prod.fst

/-- Decodes a method form, whose head has been checked, declared in class `owner` if any, in a
scope of its own whose first new label gets identity `next`. -/
def decodeMethod (owner : Option String) (next : Nat) (d : Datum) : Except Fault Method := do
  let form ← expectList .method 2 d
  match form with
  | _ :: nameDatum :: rest =>
    let name ← nameOf nameDatum
    let (descriptor, body) := match rest with
      | .text value :: body => (some value, body)
      | body => (none, body)
    let (instructions, scope) ← decodeBody (.fresh next) body
    return { name, descriptor, owner, instructions, labels := scope.labels }
  | _ => .error (.shape (.tooShort .method 2 form.length))

/-- Decodes one member of class `owner`, which must be a method form, the first new label getting
identity `next`. -/
def decodeMember (owner : String) (next : Nat) (member : Datum) : Except Fault Method := do
  let form ← expectList .method 1 member
  match form with
  | head :: _ =>
    let tag ← symbolName head
    if tag = "method" then decodeMethod (some owner) next member
    else .error (.shape (.notAMethod owner tag))
  | [] => .error (.shape (.tooShort .method 1 0))

/-- Decodes the members of a class in order, the first new label getting identity `next`: the
methods decoded before the first fault, and that fault. -/
def decodeMembers (owner : String) (next : Nat) : List Datum → List Method × Option Fault
  | [] => ([], none)
  | member :: rest =>
    match decodeMember owner next member with
    | .ok m =>
      let (more, fault) := decodeMembers owner (next + m.labels.length) rest
      (m :: more, fault)
    | .error f => ([], some f)

/-- Decodes one top-level form, the first new label getting identity `next`: the methods decoded
before the first fault, and that fault. -/
def decodeForm (next : Nat) (d : Datum) : List Method × Option Fault :=
  let head : Except Fault (String × List Datum) := do
    let form ← expectList .topLevel 1 d
    match form with
    | h :: _ => return (← symbolName h, form)
    | [] => .error (.shape (.tooShort .topLevel 1 0))
  match head with
  | .error f => ([], some f)
  | .ok ("method", _) =>
    match decodeMethod none next d with
    | .ok m => ([m], none)
    | .error f => ([], some f)
  | .ok ("class", _) =>
    let classHead : Except Fault (String × List Datum) := do
      let form ← expectList .classForm 2 d
      match form with
      | _ :: nameDatum :: members => return (← nameOf nameDatum, members)
      | _ => .error (.shape (.tooShort .classForm 2 form.length))
    match classHead with
    | .ok (owner, members) => decodeMembers owner next members
    | .error f => ([], some f)
  | .ok (tag, _) => ([], some (.shape (.unknownForm tag)))

/-- The number of labels that methods have made. -/
def labelCount : List Method → Nat
  | [] => 0
  | m :: rest => m.labels.length + labelCount rest

/-- Decodes top-level forms in order, the first new label getting identity `next`: the methods
decoded before the first fault, and that fault. -/
def decodeForms (next : Nat) : List Datum → List Method × Option Fault
  | [] => ([], none)
  | d :: rest =>
    match decodeForm next d with
    | (methods, some f) => (methods, some f)
    | (methods, none) =>
      let (more, fault) := decodeForms (next + labelCount methods) rest
      (methods ++ more, fault)

/-- The listing that a sequence of top-level forms describes. -/
def ofData (forms : List Datum) : Except Fault Listing :=
  match decodeForms 0 forms with
  | (methods, none) => .ok ⟨methods⟩
  | (_, some f) => .error f

/-- Reads a listing text. -/
def parse (text : String) : Except Fault Listing :=
  match Datum.readAll text with
  | .ok forms => ofData forms
  | .error e => .error (.malformed e)

/-- Reads a bare sequence of instruction forms as one instruction stream. -/
def parseInstructions (text : String) : Except Fault (List Instruction) :=
  match Datum.readAll text with
  | .ok forms => decodeInstructions forms
  | .error e => .error (.malformed e)

/-- The first method with the given name and, when one is given, the given descriptor, with
its position in the listing. -/
def find (listing : Listing) (name : String) (descriptor : Option String) :
    Except Fault (Nat × Method) :=
  let wanted (m : Method) : Bool :=
    m.name == name && (match descriptor with
      | some d => m.descriptor == some d
      | none => true)
  match listing.methods.zipIdx.find? (fun (m, _) => wanted m) with
  | some (m, position) => .ok (position, m)
  | none =>
    .error (.missingMethod (name ++ descriptor.getD "") (listing.methods.map Method.qualifiedName))

end Listing

end Flowgraph
