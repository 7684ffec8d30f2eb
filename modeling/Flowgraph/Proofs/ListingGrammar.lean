import Mathlib.Data.List.Forall2
import Flowgraph.Listing

/-!
**The grammar of method listings.**

A listing text is first read into a sequence of values; decoding then accepts the sequence
exactly when it follows this grammar, and otherwise stops at the first form that breaks it.

* an instruction form is `(OPCODE OPERAND…)`, the opcode a symbol in any case and no operand a
  list; a marker `(label NAME)` has exactly one operand, a name, and a jump has a name as its
  first operand (`InstructionForm`);
* a method form is `(method NAME ["DESCRIPTOR"] INSTRUCTION…)`, with a string as the optional
  descriptor (`MethodForm`);
* a class form is `(class NAME METHOD…)` (`ClassForm`);
* a name is a symbol, a string or an integer, and the heads `method` and `class` are
  case-sensitive.

What a form stands for is stated beside it: `InstructionOf` for an instruction, `MethodOf` for a
method, and `declaredMethods` lists the methods a top-level form declares with their class.

* `LabelScope.get_ofNames`: every scope the decoder reaches is the scope of the names it has
  made labels for, in order; a name gets the label made for it before, or a new one with the next
  identity;
* `instructionOf_of_decodeInstruction`, `instructionOf_of_decodeBody`: decoding an instruction
  gives what its form stands for, and a body gives one instruction per form, in order, each label
  the one its scope gives the name;
* `methodForm_iff`, `forall₂_decodeMembers`, `forall₂_decodeForm` and the lemmas after each: each
  level of the decoder accepts exactly its grammar;
* `parse_accepts_iff`: a sequence of values is a listing exactly when every value is a method or
  a class form; the listing then has the declared methods in the order they are written, each
  with its class, name, descriptor and instructions.
-/

namespace Flowgraph

namespace Datum

/-- The name a value gives when it names a method, a class or a label: the name of a symbol, the
contents of a string, the decimal text of an integer. No other value is a name. -/
def name? : Datum → Option String
  | .symbol name => some name
  | .text value => some value
  | .integer value => some (intText value)
  | _ => none

/-- The value is a parenthesised list. -/
def IsList : Datum → Prop
  | .list _ => True
  | _ => False

theorem not_isList_of_name? {d : Datum} {name : String} (named : d.name? = some name) :
    ¬ d.IsList := by
  cases d <;> simp_all [name?, IsList]

end Datum

/-- The label an instruction names: the label a marker defines, or the label a jump goes to. -/
def Instruction.heldLabel (insn : Instruction) : Option Label := insn.label.or insn.target

namespace Listing

/-! ### The grammar -/

/-- The instruction forms `(OPCODE OPERAND…)`: the opcode is a symbol, in any case, and no
operand is a list. A marker `(label NAME)` has exactly one operand, a name; a jump has a name as
its first operand. -/
inductive InstructionForm : Datum → Prop
  | marker {op : String} {name : Datum} (isMarker : Text.lower op = "label")
      (named : name.name?.isSome) : InstructionForm (.list [.symbol op, name])
  | jump {op : String} {first : Datum} {rest : List Datum}
      (isJump : Text.lower op ∈ conditionalJumps ∨ Text.lower op ∈ unconditionalJumps)
      (named : first.name?.isSome) (flat : ∀ a ∈ rest, ¬ a.IsList) :
      InstructionForm (.list (.symbol op :: first :: rest))
  | plain {op : String} {args : List Datum} (notMarker : Text.lower op ≠ "label")
      (notJump : ¬ (Text.lower op ∈ conditionalJumps ∨ Text.lower op ∈ unconditionalJumps))
      (flat : ∀ a ∈ args, ¬ a.IsList) : InstructionForm (.list (.symbol op :: args))

/-- The method forms `(method NAME ["DESCRIPTOR"] INSTRUCTION…)`: a name, a string as the
optional descriptor, then instruction forms. -/
inductive MethodForm : Datum → Prop
  | mk {name : Datum} {descriptor : Option String} {body : List Datum} (named : name.name?.isSome)
      (instructions : ∀ d ∈ body, InstructionForm d) :
      MethodForm (.list (.symbol "method" :: name :: (descriptor.toList.map Datum.text ++ body)))

/-- The class forms `(class NAME METHOD…)`. -/
inductive ClassForm : Datum → Prop
  | mk {name : Datum} {members : List Datum} (named : name.name?.isSome)
      (methods : ∀ d ∈ members, MethodForm d) :
      ClassForm (.list (.symbol "class" :: name :: members))

/-- The forms a listing is made of: methods and classes. -/
def TopForm (d : Datum) : Prop := MethodForm d ∨ ClassForm d

/-! ### What a form stands for -/

/-- `InstructionOf d insn`: the instruction form `d` stands for `insn`. The opcode is lowered. A
marker defines a label named by its operand and has that name as its one operand; a jump goes to
a label named by its first operand; every instruction but a marker keeps its operands. Which label
object a name stands for is the scope's to say. -/
inductive InstructionOf : Datum → Instruction → Prop
  | marker {op : String} {name : Datum} {label : Label} (isMarker : Text.lower op = "label")
      (named : name.name? = some label.name) :
      InstructionOf (.list [.symbol op, name]) (Instruction.marker label)
  | jump {op : String} {first : Datum} {rest : List Datum} {label : Label}
      {operands : List Operand}
      (isJump : Text.lower op ∈ conditionalJumps ∨ Text.lower op ∈ unconditionalJumps)
      (named : first.name? = some label.name)
      (converted : (first :: rest).mapM operandOf = .ok operands) :
      InstructionOf (.list (.symbol op :: first :: rest))
        { opcode := Text.lower op, operands, target := some label }
  | plain {op : String} {args : List Datum} {operands : List Operand}
      (notMarker : Text.lower op ≠ "label")
      (notJump : ¬ (Text.lower op ∈ conditionalJumps ∨ Text.lower op ∈ unconditionalJumps))
      (converted : args.mapM operandOf = .ok operands) :
      InstructionOf (.list (.symbol op :: args)) { opcode := Text.lower op, operands }

/-- `MethodOf owner d m`: the method form `d`, declared in class `owner` if any, stands for the
method `m`: its name, its descriptor, and an instruction for each instruction form, in order. -/
def MethodOf (owner : Option String) (d : Datum) (m : Method) : Prop :=
  m.owner = owner ∧ ∃ nameDatum body,
    d = .list (.symbol "method" :: nameDatum :: (m.descriptor.toList.map Datum.text ++ body)) ∧
    nameDatum.name? = some m.name ∧ List.Forall₂ InstructionOf body m.instructions

/-- The method forms a top-level form declares, each with the class it is declared in: the
members of a class form, or the form itself. -/
def declaredMethods : Datum → List (Option String × Datum)
  | .list (.symbol "class" :: name :: members) => members.map fun d => (name.name?, d)
  | d => [(none, d)]

/-! ### Scopes of labels

A scope that the decoder reaches is told by the names it has made labels for, in the order it
made them, and the identity its first label got: the label of a name has that identity plus the
name's place in the list. -/

/-- Adds a name to the names mentioned so far, unless it is there already. -/
def mention (names : List String) (name : String) : List String :=
  if names.contains name then names else names ++ [name]

/-- The label of `name` in the scope that made labels for `names` from identity `start` on. -/
def labelOf (start : Nat) (names : List String) (name : String) : Label :=
  ⟨start + names.idxOf name, name⟩

/-- The scope that has made labels for `names`, in this order, from identity `start` on. -/
def LabelScope.ofNames (start : Nat) (names : List String) : LabelScope :=
  ⟨names.map fun name => (name, labelOf start names name), start + names.length⟩

theorem LabelScope.fresh_eq_ofNames (next : Nat) : LabelScope.fresh next = .ofNames next [] := rfl

theorem lookup_map_pair {names : List String} {f : String → Label} {name : String} :
    (names.map fun n => (n, f n)).lookup name = if name ∈ names then some (f name) else none := by
  induction names with
  | nil => simp
  | cons n rest ih =>
    by_cases same : name = n
    · subst same
      simp
    · simp [List.lookup_cons, beq_eq_false_iff_ne.mpr same, ih, same]

theorem mention_of_mem {names : List String} {name : String} (member : name ∈ names) :
    mention names name = names := by
  simp [mention, member]

theorem mention_of_not_mem {names : List String} {name : String} (absent : name ∉ names) :
    mention names name = names ++ [name] := by
  simp [mention, absent]

theorem mem_mention_self (names : List String) (name : String) : name ∈ mention names name := by
  by_cases member : name ∈ names
  · rwa [mention_of_mem member]
  · simp [mention_of_not_mem member]

theorem mem_mention_of_mem {names : List String} {name : String} (other : String)
    (member : name ∈ names) : name ∈ mention names other := by
  by_cases known : other ∈ names
  · rwa [mention_of_mem known]
  · simp [mention_of_not_mem known, member]

/-- A name mentioned before keeps its label when more names are mentioned. -/
theorem labelOf_foldl_mention {start : Nat} {names : List String} {name : String}
    (member : name ∈ names) (more : List String) :
    labelOf start (more.foldl mention names) name = labelOf start names name := by
  induction more generalizing names with
  | nil => rfl
  | cons other rest ih =>
    rw [List.foldl_cons, ih (mem_mention_of_mem other member)]
    by_cases known : other ∈ names
    · rw [mention_of_mem known]
    · simp [labelOf, mention_of_not_mem known, List.idxOf_append_of_mem member]

/-- **A scope gives each name one label:** the label it made for the name before, or else a new
label with the next identity; the scope is then the one of the names mentioned so far. -/
theorem LabelScope.get_ofNames (start : Nat) (names : List String) (name : String) :
    (LabelScope.ofNames start names).get name =
      (labelOf start (mention names name) name, .ofNames start (mention names name)) := by
  by_cases member : name ∈ names
  · simp [LabelScope.get, LabelScope.ofNames, lookup_map_pair, member, mention_of_mem member]
  · have made : labelOf start (names ++ [name]) name = ⟨start + names.length, name⟩ := by
      simp [labelOf, List.idxOf_append_of_notMem member]
    -- the names made before keep their labels
    have kept : (names.map fun n => (n, labelOf start (names ++ [name]) n)) =
        names.map fun n => (n, labelOf start names n) :=
      List.map_congr_left fun n known => by simp [labelOf, List.idxOf_append_of_mem known]
    simp only [LabelScope.get, LabelScope.ofNames, lookup_map_pair, if_neg member,
      mention_of_not_mem member, List.map_append, List.map_singleton, kept, made,
      List.length_append, List.length_singleton, Prod.mk.injEq, LabelScope.mk.injEq, true_and]
    omega

/-! ### The decoder's small steps -/

theorem bind_eq_ok_iff {ε α β : Type} {x : Except ε α} {f : α → Except ε β} {b : β} :
    x >>= f = .ok b ↔ ∃ a, x = .ok a ∧ f a = .ok b := by
  cases x <;> simp [bind, Except.bind]

theorem expectList_eq_ok_iff {kind : FormKind} {least : Nat} {d : Datum} {items : List Datum} :
    expectList kind least d = .ok items ↔ d = .list items ∧ least ≤ items.length := by
  cases d with
  | list found =>
    by_cases short : found.length < least
    · simp only [expectList, if_pos short, reduceCtorEq, false_iff, not_and, Datum.list.injEq]
      rintro rfl
      omega
    · simp only [expectList, if_neg short, Except.ok.injEq, Datum.list.injEq]
      constructor
      · rintro rfl
        exact ⟨rfl, by omega⟩
      · rintro ⟨rfl, _⟩
        rfl
  | _ => simp [expectList]

theorem symbolName_eq_ok_iff {d : Datum} {name : String} :
    symbolName d = .ok name ↔ d = .symbol name := by
  cases d <;> simp [symbolName]

theorem expectList_list {kind : FormKind} {least : Nat} {items : List Datum}
    (long : least ≤ items.length) : expectList kind least (.list items) = .ok items :=
  expectList_eq_ok_iff.mpr ⟨rfl, long⟩

theorem nameOf_eq_ok_iff {d : Datum} {name : String} : nameOf d = .ok name ↔ d.name? = some name := by
  cases d <;> simp [nameOf, Datum.name?]

/-- Operands convert exactly when none of them is a list. -/
theorem mapM_operandOf_ok_iff {args : List Datum} :
    (∃ operands, args.mapM operandOf = .ok operands) ↔ ∀ a ∈ args, ¬ a.IsList := by
  induction args with
  | nil => simp [pure, Except.pure]
  | cons a rest ih =>
    rw [List.mapM_cons, List.forall_mem_cons, ← ih]
    cases a <;> cases converted : rest.mapM operandOf <;>
      simp [operandOf, Datum.IsList, bind, Except.bind, pure, Except.pure]

/-! ### Instructions -/

/-- A form that stands for an instruction is an instruction form. -/
theorem InstructionOf.instructionForm {d : Datum} {insn : Instruction}
    (described : InstructionOf d insn) : InstructionForm d := by
  cases described with
  | marker isMarker named => exact .marker isMarker (by simp [named])
  | jump isJump named converted =>
    exact .jump isJump (by simp [named])
      (List.forall_mem_cons.mp (mapM_operandOf_ok_iff.mp ⟨_, converted⟩)).2
  | plain notMarker notJump converted =>
    exact .plain notMarker notJump (mapM_operandOf_ok_iff.mp ⟨_, converted⟩)

/-- **Decoding one instruction** gives what its form stands for; a label it names is the one the
scope gives its name, and the scope then holds that name too. -/
theorem instructionOf_of_decodeInstruction {start : Nat} {names : List String}
    {scope : LabelScope} {d : Datum} {insn : Instruction}
    (decoded : decodeInstruction (.ofNames start names) d = .ok (insn, scope)) :
    InstructionOf d insn ∧
      scope = .ofNames start ((insn.heldLabel.map Label.name).toList.foldl mention names) ∧
      ∀ label, insn.heldLabel = some label →
        label = labelOf start (mention names label.name) label.name := by
  unfold decodeInstruction at decoded
  obtain ⟨items, listed, afterList⟩ := bind_eq_ok_iff.mp decoded
  obtain ⟨rfl, -⟩ := expectList_eq_ok_iff.mp listed
  clear decoded
  cases items with
  | nil => cases afterList
  | cons head args =>
    obtain ⟨op, named, afterHead⟩ := bind_eq_ok_iff.mp afterList
    obtain rfl := symbolName_eq_ok_iff.mp named
    obtain ⟨operands, converted, rest⟩ := bind_eq_ok_iff.mp afterHead
    by_cases isMarker : Text.lower op = "label"
    · -- a marker has exactly one operand, which names its label
      rw [if_pos isMarker] at rest
      split at rest
      · obtain ⟨name, named, built⟩ := bind_eq_ok_iff.mp rest
        simp only [LabelScope.get_ofNames, pure, Except.pure, Except.ok.injEq,
          Prod.mk.injEq] at built
        obtain ⟨rfl, rfl⟩ := built
        refine ⟨.marker isMarker (nameOf_eq_ok_iff.mp named), rfl, fun label held => ?_⟩
        obtain rfl := Option.some.inj held
        rfl
      · cases rest
    · rw [if_neg isMarker] at rest
      by_cases isJump : Text.lower op ∈ conditionalJumps ∨ Text.lower op ∈ unconditionalJumps
      · -- a jump has a first operand, which names its target
        rw [if_pos isJump] at rest
        split at rest
        · obtain ⟨name, named, built⟩ := bind_eq_ok_iff.mp rest
          simp only [LabelScope.get_ofNames, pure, Except.pure, Except.ok.injEq,
            Prod.mk.injEq] at built
          obtain ⟨rfl, rfl⟩ := built
          refine ⟨.jump isJump (nameOf_eq_ok_iff.mp named) converted, rfl, fun label held => ?_⟩
          obtain rfl := Option.some.inj held
          rfl
        · cases rest
      · rw [if_neg isJump] at rest
        cases rest
        exact ⟨.plain isMarker isJump converted, rfl, fun _ held => by
          simp [Instruction.heldLabel] at held⟩

/-- An instruction form decodes in every scope the decoder reaches. -/
theorem decodeInstruction_of_instructionForm {d : Datum} (form : InstructionForm d)
    (start : Nat) (names : List String) :
    ∃ result, decodeInstruction (.ofNames start names) d = .ok result := by
  cases form with
  | @marker op name isMarker named =>
    obtain ⟨label, named⟩ := Option.isSome_iff_exists.mp named
    obtain ⟨operand, converted⟩ : ∃ operand, operandOf name = .ok operand := by
      cases name <;> simp_all [Datum.name?, operandOf]
    exact ⟨_, by simp [decodeInstruction, expectList, symbolName, isMarker, converted, bind,
      Except.bind, pure, Except.pure, nameOf_eq_ok_iff.mpr named, LabelScope.get_ofNames]; rfl⟩
  | @jump op first rest isJump named flat =>
    obtain ⟨label, named⟩ := Option.isSome_iff_exists.mp named
    obtain ⟨operands, converted⟩ := mapM_operandOf_ok_iff.mpr
      (List.forall_mem_cons.mpr ⟨Datum.not_isList_of_name? named, flat⟩)
    have notMarker : Text.lower op ≠ "label" := by
      intro isMarker
      rw [isMarker] at isJump
      simp [conditionalJumps, unconditionalJumps] at isJump
    exact ⟨_, by simp [decodeInstruction, expectList, symbolName, notMarker, isJump, converted,
      bind, Except.bind, pure, Except.pure, nameOf_eq_ok_iff.mpr named, LabelScope.get_ofNames]; rfl⟩
  | @plain op args notMarker notJump flat =>
    obtain ⟨operands, converted⟩ := mapM_operandOf_ok_iff.mpr flat
    exact ⟨_, by simp [decodeInstruction, expectList, symbolName, notMarker, notJump, converted,
      bind, Except.bind, pure, Except.pure]; rfl⟩

/-- A form of the grammar is one that stands for an instruction. -/
theorem instructionForm_iff {d : Datum} : InstructionForm d ↔ ∃ insn, InstructionOf d insn := by
  constructor
  · intro form
    obtain ⟨⟨insn, scope⟩, decoded⟩ := decodeInstruction_of_instructionForm form 0 []
    exact ⟨insn, (instructionOf_of_decodeInstruction decoded).1⟩
  · rintro ⟨insn, described⟩
    exact described.instructionForm

/-- No string is an instruction form, so a string after a method's name is its descriptor. -/
theorem not_instructionForm_text (value : String) : ¬ InstructionForm (.text value) := nofun

/-! ### Bodies -/

/-- The names of the labels that instructions name, in order, repeats kept. -/
def heldNames (insns : List Instruction) : List String :=
  (insns.filterMap Instruction.heldLabel).map Label.name

theorem heldNames_cons (insn : Instruction) (more : List Instruction) :
    heldNames (insn :: more) = (insn.heldLabel.map Label.name).toList ++ heldNames more := by
  cases held : insn.heldLabel <;> simp [heldNames, held]

/-- **Decoding a body** gives one instruction per form, in order, each what its form stands for.
The scope then holds the names mentioned, and every label named is the one the final scope
gives its name. -/
theorem instructionOf_of_decodeBody {start : Nat} {names : List String} {scope : LabelScope}
    {forms : List Datum} {insns : List Instruction}
    (decoded : decodeBody (.ofNames start names) forms = .ok (insns, scope)) :
    List.Forall₂ InstructionOf forms insns ∧
      scope = .ofNames start ((heldNames insns).foldl mention names) ∧
      ∀ label ∈ insns.filterMap Instruction.heldLabel,
        label = labelOf start ((heldNames insns).foldl mention names) label.name := by
  induction forms generalizing names insns with
  | nil =>
    cases decoded
    exact ⟨.nil, rfl, fun _ absent => absurd absent List.not_mem_nil⟩
  | cons d rest ih =>
    unfold decodeBody at decoded
    obtain ⟨⟨insn, mid⟩, first, afterFirst⟩ := bind_eq_ok_iff.mp decoded
    obtain ⟨⟨more, last⟩, second, built⟩ := bind_eq_ok_iff.mp afterFirst
    cases built
    obtain ⟨described, rfl, held⟩ := instructionOf_of_decodeInstruction first
    obtain ⟨forall₂, rfl, heldMore⟩ := ih second
    have split : (insn :: more).filterMap Instruction.heldLabel =
        insn.heldLabel.toList ++ more.filterMap Instruction.heldLabel := by
      cases labelled : insn.heldLabel <;> simp [labelled]
    rw [heldNames_cons, List.foldl_append, split]
    refine ⟨.cons described forall₂, rfl, fun label member => ?_⟩
    rcases List.mem_append.mp member with here | later
    · -- the instruction's own label keeps the place its name got
      have named : insn.heldLabel = some label := by simpa using here
      have known : label.name ∈ (insn.heldLabel.map Label.name).toList.foldl mention names := by
        simp [named, mem_mention_self]
      rw [labelOf_foldl_mention known]
      simp only [named, Option.map_some, Option.toList_some, List.foldl_cons, List.foldl_nil]
      exact held label named
    · exact heldMore label later

/-- A body decodes exactly when each of its forms is an instruction form. -/
theorem decodeBody_ok_iff {start : Nat} {names : List String} {forms : List Datum} :
    (∃ result, decodeBody (.ofNames start names) forms = .ok result) ↔
      ∀ d ∈ forms, InstructionForm d := by
  constructor
  · rintro ⟨⟨insns, scope⟩, decoded⟩
    have described := (instructionOf_of_decodeBody decoded).1
    exact ((List.forall₂_and_left _ _).mp (described.imp fun d insn stands =>
      ⟨stands.instructionForm, stands⟩)).1
  · intro forms_ok
    induction forms generalizing names with
    | nil => exact ⟨_, rfl⟩
    | cons d rest ih =>
      obtain ⟨⟨insn, mid⟩, first⟩ :=
        decodeInstruction_of_instructionForm (forms_ok d List.mem_cons_self) start names
      obtain ⟨-, rfl, -⟩ := instructionOf_of_decodeInstruction first
      obtain ⟨⟨more, last⟩, second⟩ := @ih ((insn.heldLabel.map Label.name).toList.foldl mention names)
        fun e member => forms_ok e (List.mem_cons_of_mem d member)
      exact ⟨(insn :: more, last), by
        simp only [decodeBody, first, second, bind, Except.bind, pure, Except.pure]⟩

/-! ### Methods -/

/-- What decoding a method gives: the form is a list of a head, the name, the descriptor if any
and a body, which decodes in a fresh scope to the method's instructions and labels. -/
theorem decodeMethod_eq_ok {owner : Option String} {next : Nat} {d : Datum} {m : Method}
    (decoded : decodeMethod owner next d = .ok m) :
    m.owner = owner ∧ ∃ head nameDatum body,
      d = .list (head :: nameDatum :: (m.descriptor.toList.map Datum.text ++ body)) ∧
      nameDatum.name? = some m.name ∧ ∃ scope,
        decodeBody (.fresh next) body = .ok (m.instructions, scope) ∧ m.labels = scope.labels := by
  unfold decodeMethod at decoded
  obtain ⟨items, listed, afterList⟩ := bind_eq_ok_iff.mp decoded
  obtain ⟨rfl, -⟩ := expectList_eq_ok_iff.mp listed
  clear decoded
  match items, afterList with
  | head :: nameDatum :: rest, afterList =>
    obtain ⟨name, named, afterName⟩ := bind_eq_ok_iff.mp afterList
    split at afterName
    rename_i descriptor body splitting
    -- the string right after the name, if there is one, is the descriptor
    have shape : rest = descriptor.toList.map Datum.text ++ body := by
      split at splitting <;> cases splitting <;> rfl
    obtain ⟨⟨instructions, scope⟩, bodyDecoded, built⟩ := bind_eq_ok_iff.mp afterName
    cases built
    exact ⟨rfl, head, nameDatum, body, by rw [shape], nameOf_eq_ok_iff.mp named, scope,
      bodyDecoded, rfl⟩
  | [], afterList => cases afterList
  | [_], afterList => cases afterList

theorem decodeMethod_of_methodForm {d : Datum} (form : MethodForm d) (owner : Option String)
    (next : Nat) : ∃ m, decodeMethod owner next d = .ok m := by
  obtain @⟨name, descriptor, body, named, instructions⟩ := form
  obtain ⟨nameText, named⟩ := Option.isSome_iff_exists.mp named
  obtain ⟨⟨insns, scope⟩, bodyDecoded⟩ :=
    (@decodeBody_ok_iff next [] _).mpr instructions
  rw [← LabelScope.fresh_eq_ofNames] at bodyDecoded
  refine ⟨{ name := nameText, descriptor, owner, instructions := insns, labels := scope.labels },
    ?_⟩
  unfold decodeMethod
  rw [expectList_list (by simp)]
  cases descriptor with
  | some value =>
    simp [bind, Except.bind, nameOf_eq_ok_iff.mpr named, bodyDecoded, pure, Except.pure]
  | none =>
    -- no string follows the name: the body starts with an instruction form, or is empty
    cases body with
    | nil => simp [bind, Except.bind, nameOf_eq_ok_iff.mpr named, bodyDecoded, pure, Except.pure]
    | cons first more =>
      have notText : ∀ value, first ≠ .text value := fun value same =>
        not_instructionForm_text value (same ▸ instructions first List.mem_cons_self)
      cases first <;> simp_all [bind, Except.bind, nameOf_eq_ok_iff.mpr named, pure, Except.pure]

/-- **A method form** is a list headed by the symbol `method` that decodes, in any class and from
any identity on. -/
theorem methodForm_iff {d : Datum} (owner : Option String) (next : Nat) :
    MethodForm d ↔ (∃ items, d = .list (.symbol "method" :: items)) ∧
      ∃ m, decodeMethod owner next d = .ok m := by
  constructor
  · intro form
    refine ⟨?_, decodeMethod_of_methodForm form owner next⟩
    obtain @⟨name, descriptor, body, _, _⟩ := form
    exact ⟨_, rfl⟩
  · rintro ⟨⟨items, rfl⟩, m, decoded⟩
    obtain ⟨-, head, nameDatum, body, shape, named, scope, bodyDecoded, -⟩ :=
      decodeMethod_eq_ok decoded
    simp only [Datum.list.injEq, List.cons.injEq] at shape
    obtain ⟨rfl, rfl⟩ := shape
    rw [LabelScope.fresh_eq_ofNames] at bodyDecoded
    exact .mk (by simp [named]) (decodeBody_ok_iff.mp ⟨_, bodyDecoded⟩)

/-- A method form headed by `method` that decodes stands for the method it decodes to. -/
theorem methodOf_of_decodeMethod {owner : Option String} {next : Nat} {items : List Datum}
    {m : Method} (decoded : decodeMethod owner next (.list (.symbol "method" :: items)) = .ok m) :
    MethodOf owner (.list (.symbol "method" :: items)) m := by
  obtain ⟨owned, head, nameDatum, body, shape, named, scope, bodyDecoded, -⟩ :=
    decodeMethod_eq_ok decoded
  simp only [Datum.list.injEq, List.cons.injEq] at shape
  obtain ⟨rfl, rfl⟩ := shape
  rw [LabelScope.fresh_eq_ofNames] at bodyDecoded
  exact ⟨owned, nameDatum, body, rfl, named, (instructionOf_of_decodeBody bodyDecoded).1⟩

/-! ### Classes and top-level forms -/

/-- A method form decoded at the top level or in a class: a list headed by `method`, and the
method it decodes to in that class, from some identity on. -/
def DecodedMethod (declared : Option String × Datum) (m : Method) : Prop :=
  (∃ items, declared.2 = .list (.symbol "method" :: items)) ∧
    ∃ next, decodeMethod declared.1 next declared.2 = .ok m

/-- A class member decodes exactly when it is a list headed by the symbol `method` that decodes
as a method of the class. -/
theorem decodeMember_eq_ok_iff {owner : String} {next : Nat} {member : Datum} {m : Method} :
    decodeMember owner next member = .ok m ↔
      (∃ items, member = .list (.symbol "method" :: items)) ∧
        decodeMethod (some owner) next member = .ok m := by
  constructor
  · intro stepped
    obtain ⟨items, shaped, afterList⟩ := bind_eq_ok_iff.mp stepped
    obtain ⟨rfl, -⟩ := expectList_eq_ok_iff.mp shaped
    match items, afterList with
    | head :: tail, afterList =>
      obtain ⟨tag, tagged, methodDecoded⟩ := bind_eq_ok_iff.mp afterList
      obtain rfl := symbolName_eq_ok_iff.mp tagged
      split at methodDecoded
      · rename_i isMethod
        subst isMethod
        exact ⟨⟨tail, rfl⟩, methodDecoded⟩
      · cases methodDecoded
    | [], afterList => cases afterList
  · rintro ⟨⟨items, rfl⟩, decoded⟩
    simp only [decodeMember, expectList_list (by simp : 1 ≤ (Datum.symbol "method" :: items).length),
      bind, Except.bind, symbolName, if_pos, decoded]

/-- The methods of a class that decodes are its members, each decoded as a method of the
class. -/
theorem forall₂_decodeMembers {owner : String} {next : Nat} {members : List Datum}
    (decoded : (decodeMembers owner next members).2 = none) :
    List.Forall₂ (fun d m => DecodedMethod (some owner, d) m) members
      (decodeMembers owner next members).1 := by
  induction members generalizing next with
  | nil => exact .nil
  | cons member rest ih =>
    rw [decodeMembers] at decoded ⊢
    split at decoded
    · rename_i m stepped
      cases listed : decodeMembers owner (next + m.labels.length) rest with
      | mk more fault =>
        have restRelated := @ih (next + m.labels.length)
        rw [listed] at restRelated decoded
        obtain ⟨shaped, methodDecoded⟩ := decodeMember_eq_ok_iff.mp stepped
        exact .cons ⟨shaped, next, methodDecoded⟩ (restRelated decoded)
    · cases decoded

/-- Members that are all method forms decode without fault. -/
theorem decodeMembers_snd_of_methodForm {owner : String} {members : List Datum}
    (forms : ∀ d ∈ members, MethodForm d) (next : Nat) :
    (decodeMembers owner next members).2 = none := by
  induction members generalizing next with
  | nil => rfl
  | cons member rest ih =>
    obtain ⟨shaped, m, decoded⟩ :=
      (methodForm_iff (some owner) next).mp (forms member List.mem_cons_self)
    rw [decodeMembers, decodeMember_eq_ok_iff.mpr ⟨shaped, decoded⟩]
    exact ih (fun d member => forms d (List.mem_cons_of_mem _ member)) _

/-- Decoded methods are method forms. -/
theorem forall_methodForm_of_forall₂ {declared : List (Option String × Datum)}
    {methods : List Method} (decoded : List.Forall₂ DecodedMethod declared methods) :
    ∀ d ∈ declared, MethodForm d.2 :=
  ((List.forall₂_and_left _ _).mp (decoded.imp fun d m decodedMethod =>
    ⟨(methodForm_iff d.1 decodedMethod.2.choose).mpr
      ⟨decodedMethod.1, m, decodedMethod.2.choose_spec⟩, decodedMethod⟩)).1

theorem decodeForm_method {next : Nat} {items : List Datum} {m : Method}
    (decoded : decodeMethod none next (.list (.symbol "method" :: items)) = .ok m) :
    decodeForm next (.list (.symbol "method" :: items)) = ([m], none) := by
  simp [decodeForm, expectList_list, symbolName, bind, Except.bind, pure, Except.pure, decoded]

theorem decodeForm_class {next : Nat} {nameDatum : Datum} {members : List Datum} {owner : String}
    (named : nameOf nameDatum = .ok owner) :
    decodeForm next (.list (.symbol "class" :: nameDatum :: members)) =
      decodeMembers owner next members := by
  simp [decodeForm, expectList_list, symbolName, bind, Except.bind, pure, Except.pure, named]

/-- A class form whose members decode is a class form of the grammar, and gives its members as
methods of the class. -/
theorem forall₂_decodeForm_class {next : Nat} {nameDatum : Datum} {members : List Datum}
    {owner : String} (named : nameOf nameDatum = .ok owner)
    (decoded : (decodeMembers owner next members).2 = none) :
    ClassForm (.list (.symbol "class" :: nameDatum :: members)) ∧
      List.Forall₂ DecodedMethod (declaredMethods (.list (.symbol "class" :: nameDatum :: members)))
        (decodeMembers owner next members).1 := by
  have related : List.Forall₂ DecodedMethod (members.map fun d => (some owner, d))
      (decodeMembers owner next members).1 :=
    List.forall₂_map_left_iff.mpr (forall₂_decodeMembers decoded)
  have forms : ∀ d ∈ members, MethodForm d := fun d member =>
    forall_methodForm_of_forall₂ related (some owner, d) (List.mem_map_of_mem member)
  rw [declaredMethods, nameOf_eq_ok_iff.mp named]
  exact ⟨.mk (by simp [nameOf_eq_ok_iff.mp named]) forms, related⟩

/-- A top-level form that decodes is a method or a class form, and gives the methods it
declares. -/
theorem forall₂_decodeForm {next : Nat} {d : Datum} (decoded : (decodeForm next d).2 = none) :
    TopForm d ∧ List.Forall₂ DecodedMethod (declaredMethods d) (decodeForm next d).1 := by
  cases d with
  | list items =>
    cases items with
    | nil => simp [decodeForm, expectList, bind, Except.bind] at decoded
    | cons head rest =>
      cases head with
      | symbol tag =>
        by_cases isMethod : tag = "method"
        · subst isMethod
          cases methodDecoded : decodeMethod none next (.list (.symbol "method" :: rest)) with
          | ok m =>
            rw [decodeForm_method methodDecoded]
            exact ⟨.inl ((methodForm_iff none next).mpr ⟨⟨rest, rfl⟩, m, methodDecoded⟩),
              .cons ⟨⟨rest, rfl⟩, next, methodDecoded⟩ .nil⟩
          | error f =>
            simp [decodeForm, expectList_list, symbolName, bind, Except.bind, pure, Except.pure,
              methodDecoded] at decoded
        · by_cases isClass : tag = "class"
          · subst isClass
            match rest, decoded with
            | nameDatum :: members, decoded =>
              cases named : nameOf nameDatum with
              | ok owner =>
                rw [decodeForm_class named] at decoded ⊢
                obtain ⟨form, related⟩ := forall₂_decodeForm_class named decoded
                exact ⟨.inr form, related⟩
              | error f =>
                simp [decodeForm, expectList_list, symbolName, bind, Except.bind, pure,
                  Except.pure, named] at decoded
            | [], decoded =>
              simp [decodeForm, expectList, symbolName, bind, Except.bind, pure,
                Except.pure] at decoded
          · -- any other head names no form of a listing
            simp [decodeForm, expectList_list, symbolName, bind, Except.bind, pure,
              Except.pure] at decoded
      | _ => simp [decodeForm, expectList_list, symbolName, bind, Except.bind] at decoded
  | _ => simp [decodeForm, expectList, bind, Except.bind] at decoded

/-- A method or class form decodes without fault. -/
theorem decodeForm_snd_of_topForm {d : Datum} (form : TopForm d) (next : Nat) :
    (decodeForm next d).2 = none := by
  rcases form with form | @⟨nameDatum, members, named, methods⟩
  · obtain ⟨⟨items, rfl⟩, m, decoded⟩ := (methodForm_iff none next).mp form
    rw [decodeForm_method decoded]
  · obtain ⟨owner, named⟩ := Option.isSome_iff_exists.mp named
    rw [decodeForm_class (nameOf_eq_ok_iff.mpr named)]
    exact decodeMembers_snd_of_methodForm methods next

/-- **Decoding top-level forms** succeeds exactly when each is a method or a class form, and then
gives the methods they declare, in order. -/
theorem forall₂_decodeForms {next : Nat} {forms : List Datum}
    (decoded : (decodeForms next forms).2 = none) :
    (∀ d ∈ forms, TopForm d) ∧
      List.Forall₂ DecodedMethod (forms.flatMap declaredMethods) (decodeForms next forms).1 := by
  induction forms generalizing next with
  | nil => exact ⟨fun _ absent => absurd absent List.not_mem_nil, .nil⟩
  | cons d rest ih =>
    rw [decodeForms] at decoded ⊢
    cases formDecoded : decodeForm next d with
    | mk methods fault =>
      cases fault with
      | some f => simp [formDecoded] at decoded
      | none =>
        cases restDecoded : decodeForms (next + labelCount methods) rest with
        | mk more fault =>
          simp only [formDecoded, restDecoded] at decoded ⊢
          obtain ⟨top, first⟩ := @forall₂_decodeForm next d (by rw [formDecoded])
          rw [formDecoded] at first
          obtain ⟨tops, others⟩ := @ih (next + labelCount methods)
            (by rw [restDecoded]; exact decoded)
          rw [restDecoded] at others
          exact ⟨List.forall_mem_cons.mpr ⟨top, tops⟩, List.rel_append first others⟩

theorem decodeForms_snd_of_topForm {forms : List Datum} (tops : ∀ d ∈ forms, TopForm d)
    (next : Nat) : (decodeForms next forms).2 = none := by
  induction forms generalizing next with
  | nil => rfl
  | cons d rest ih =>
    obtain ⟨top, restTops⟩ := List.forall_mem_cons.mp tops
    rw [decodeForms]
    cases formDecoded : decodeForm next d with
    | mk methods fault =>
      have quiet := decodeForm_snd_of_topForm top next
      rw [formDecoded] at quiet
      subst quiet
      simpa using ih restTops _

theorem ofData_eq_ok_iff {forms : List Datum} {listing : Listing} :
    ofData forms = .ok listing ↔
      (decodeForms 0 forms).2 = none ∧ listing.methods = (decodeForms 0 forms).1 := by
  unfold ofData
  cases decoded : decodeForms 0 forms with
  | mk methods fault =>
    cases fault with
    | none =>
      simp only [Except.ok.injEq, true_and]
      exact ⟨fun same => by rw [← same], fun same => by rw [← same]⟩
    | some f => simp

/-! ### Listings -/

/-- **A sequence of values is a listing exactly when it is a sequence of method and class
forms.** For every sequence of values, decoding succeeds exactly when every value is a method
form or a class form. The listing then holds the methods these forms declare, in the order they
are written, each with its class if any, its name, its descriptor, and one instruction for each
instruction form, in order. -/
theorem parse_accepts_iff (forms : List Datum) :
    ((∃ listing, ofData forms = .ok listing) ↔ ∀ d ∈ forms, TopForm d) ∧
    ∀ listing, ofData forms = .ok listing →
      List.Forall₂ (fun (declared : Option String × Datum) m => MethodOf declared.1 declared.2 m)
        (forms.flatMap declaredMethods) listing.methods := by
  refine ⟨⟨?_, fun tops => ⟨⟨(decodeForms 0 forms).1⟩, ?_⟩⟩, fun listing decoded => ?_⟩
  · rintro ⟨listing, decoded⟩
    exact (forall₂_decodeForms (ofData_eq_ok_iff.mp decoded).1).1
  · exact ofData_eq_ok_iff.mpr ⟨decodeForms_snd_of_topForm tops 0, rfl⟩
  · obtain ⟨quiet, methods⟩ := ofData_eq_ok_iff.mp decoded
    rw [methods]
    exact (forall₂_decodeForms quiet).2.imp fun declared m decodedMethod => by
      obtain ⟨⟨items, shaped⟩, next, methodDecoded⟩ := decodedMethod
      rw [shaped] at methodDecoded ⊢
      exact methodOf_of_decodeMethod methodDecoded

end Listing

end Flowgraph
