import Flowgraph.Proofs.ListingGrammar

/-!
**Labels are objects, one to a name in each method.**

Markers and jumps name labels by their first operand: a symbol, a string or an integer, which
gives its name, its contents or its decimal text. Each method decodes its body in a scope of its
own that starts empty; the scope makes a new label the first time a name is mentioned and gives
the same label for the name after that, whether a marker or a jump mentions it and whichever
comes first. A bare sequence of instructions is one such scope. A label's identity is the number
the decoder gave it when it made it, counting on across the methods of a listing, so that labels
of two methods are different objects even when their names agree.

* `heldLabel_of_instructionOf`: an instruction that names a label names it by its form's first
  operand;
* `labels_of_decodeBody`: in a body decoded from a fresh scope, every label named is the one the
  scope made for its name, its identity counting the names mentioned before it;
* `labels_of_decodeMethod`: a decoded method names its labels by name, records them, and takes
  their identities from one range, as many as it has labels from the identity it started at;
* `MethodsFrom`: the labels of consecutive methods take consecutive ranges of identities.
  Decoding keeps to it whether or not it stops at a fault (`methodsFrom_decodeForms`), and
  methods that keep to it share no label (`MethodsFrom.labelsApart`);
* `labels_scoped_by_method`: for every sequence of values, when it decodes as a bare sequence of
  instructions, two labels that its instructions name are one object exactly when the first
  operands of their forms give the same name; when it decodes as a listing, the same holds within
  each method, each method records the names it mentions with their labels in order of first
  mention, and no two methods share a label.
-/

namespace Flowgraph

/-- The name that the first operand of an instruction form gives, if it gives one. -/
def Datum.firstName : Datum → Option String
  | .list (_ :: first :: _) => first.name?
  | _ => none

namespace Listing

/-- The instructions of one scope name labels by name: two labels that two of them name are one
object exactly when the first operands of their forms give the same name, and a label's identity
tells which object it is. -/
def LabelsByName (forms : List Datum) (insns : List Instruction) : Prop :=
  forms.length = insns.length ∧
    ∀ p ∈ forms.zip insns, ∀ q ∈ forms.zip insns, ∀ label label' : Label,
      p.2.heldLabel = some label → q.2.heldLabel = some label' →
        (label.id = label'.id ↔ p.1.firstName = q.1.firstName) ∧
          (label = label' ↔ label.id = label'.id)

/-- A method records its labels: the names its instructions mention, each once, in order of
first mention, each with the label its instructions name by it. -/
def LabelsRecorded (m : Method) : Prop :=
  m.labels.map Prod.fst = (heldNames m.instructions).eraseDups ∧
    ∀ label ∈ m.instructions.filterMap Instruction.heldLabel,
      m.labels.lookup label.name = some label

/-- No label that a method names is one that a later method names. -/
def LabelsApart (methods : List Method) : Prop :=
  methods.Pairwise fun m m' =>
    ∀ label ∈ m.instructions.filterMap Instruction.heldLabel,
      ∀ label' ∈ m'.instructions.filterMap Instruction.heldLabel, label.id ≠ label'.id

/-! ### One scope -/

/-- **An instruction that names a label names it by its form's first operand.** -/
theorem heldLabel_of_instructionOf {d : Datum} {insn : Instruction} {label : Label}
    (described : InstructionOf d insn) (held : insn.heldLabel = some label) :
    d.firstName = some label.name := by
  cases described with
  | marker _ named =>
    obtain rfl := Option.some.inj held
    simp [Datum.firstName, named]
  | jump _ named _ =>
    obtain rfl := Option.some.inj held
    simp [Datum.firstName, named]
  | plain => simp [Instruction.heldLabel] at held

/-- **Recording names one by one** keeps the names not recorded yet, each once, in order of first
mention. -/
theorem foldl_mention (names acc : List String) :
    names.foldl mention acc = acc ++ (names.filter fun n => !acc.contains n).eraseDups := by
  induction names generalizing acc with
  | nil => simp
  | cons n rest ih =>
    rw [List.foldl_cons, ih]
    by_cases recorded : acc.contains n = true
    · have same : mention acc n = acc := by simp only [mention, recorded, if_true]
      rw [same, List.filter_cons_of_neg (by simpa using recorded)]
    · -- a new name is recorded and struck from the names after it
      have grown : mention acc n = acc ++ [n] := by
        simp only [mention, Bool.not_eq_true] at recorded ⊢
        rw [recorded, if_neg Bool.false_ne_true]
      have later : (rest.filter fun x => !(acc ++ [n]).contains x) =
          (rest.filter fun x => !acc.contains x).filter fun x => !x == n := by
        rw [List.filter_filter]
        congr 1
        funext x
        by_cases same : x = n <;> simp [same]
      rw [grown, List.filter_cons_of_pos (by simpa using recorded), List.eraseDups_cons, later,
        List.append_assoc]
      rfl

/-- A scope that starts empty holds the names mentioned, each once, in order of first mention. -/
theorem foldl_mention_nil (names : List String) : names.foldl mention [] = names.eraseDups := by
  simp [foldl_mention]

/-- Labels that one scope made have one identity exactly when they have one name. -/
theorem labelOf_id_eq_iff (start : Nat) {names : List String} {name : String} (name' : String)
    (member : name ∈ names) :
    (labelOf start names name).id = (labelOf start names name').id ↔ name = name' := by
  simp only [labelOf, Nat.add_left_cancel_iff]
  exact List.idxOf_inj member

theorem name_mem_heldNames {insns : List Instruction} {label : Label}
    (held : label ∈ insns.filterMap Instruction.heldLabel) :
    label.name ∈ (heldNames insns).eraseDups :=
  List.mem_eraseDups.mpr (List.mem_map_of_mem held)

/-- **The labels of a body decoded from a fresh scope.** Every label named is the one the scope
made for its name, with identity `start` plus the place of the name among the names mentioned,
each once, in order of first mention; the scope then records these names with these labels. -/
theorem labels_of_decodeBody {start : Nat} {forms : List Datum} {insns : List Instruction}
    {scope : LabelScope} (decoded : decodeBody (.fresh start) forms = .ok (insns, scope)) :
    List.Forall₂ InstructionOf forms insns ∧
      scope = .ofNames start (heldNames insns).eraseDups ∧
      ∀ label ∈ insns.filterMap Instruction.heldLabel,
        label = labelOf start (heldNames insns).eraseDups label.name := by
  rw [LabelScope.fresh_eq_ofNames] at decoded
  have described := instructionOf_of_decodeBody decoded
  rwa [foldl_mention_nil] at described

/-- A body decoded from a fresh scope names its labels by name. -/
theorem labelsByName_of_decodeBody {start : Nat} {forms : List Datum} {insns : List Instruction}
    {scope : LabelScope} (decoded : decodeBody (.fresh start) forms = .ok (insns, scope)) :
    LabelsByName forms insns := by
  obtain ⟨described, -, made⟩ := labels_of_decodeBody decoded
  refine ⟨described.length_eq, fun p first q second label label' held held' => ?_⟩
  have member : label ∈ insns.filterMap Instruction.heldLabel :=
    List.mem_filterMap.mpr ⟨p.2, (List.of_mem_zip first).2, held⟩
  have member' : label' ∈ insns.filterMap Instruction.heldLabel :=
    List.mem_filterMap.mpr ⟨q.2, (List.of_mem_zip second).2, held'⟩
  -- both labels are ones the scope made, so their identities compare as their names do
  have sameId : label.id = label'.id ↔ label.name = label'.name := by
    have ids := labelOf_id_eq_iff start label'.name (name_mem_heldNames member)
    rwa [← made label member, ← made label' member'] at ids
  rw [heldLabel_of_instructionOf (List.forall₂_zip described first) held,
    heldLabel_of_instructionOf (List.forall₂_zip described second) held', Option.some.injEq]
  refine ⟨sameId, congrArg Label.id, fun ids => ?_⟩
  rw [made label member, made label' member', sameId.mp ids]

/-! ### Methods -/

/-- **The labels of a decoded method.** Its instructions name labels by name, it records them,
and their identities lie in one range: as many as it has labels, from the `next` it was decoded
with. -/
theorem labels_of_decodeMethod {owner : Option String} {next : Nat} {d : Datum} {m : Method}
    (decoded : decodeMethod owner next d = .ok m) :
    (∃ head nameDatum body,
      d = .list (head :: nameDatum :: (m.descriptor.toList.map Datum.text ++ body)) ∧
      LabelsByName body m.instructions) ∧ LabelsRecorded m ∧
    ∀ label ∈ m.instructions.filterMap Instruction.heldLabel,
      next ≤ label.id ∧ label.id < next + m.labels.length := by
  obtain ⟨-, head, nameDatum, body, shape, -, scope, bodyDecoded, recorded⟩ :=
    decodeMethod_eq_ok decoded
  obtain ⟨-, rfl, made⟩ := labels_of_decodeBody bodyDecoded
  refine ⟨⟨head, nameDatum, body, shape, labelsByName_of_decodeBody bodyDecoded⟩,
    ⟨?_, fun label member => ?_⟩, fun label member => ?_⟩
  · simp [recorded, LabelScope.ofNames, Function.comp_def]
  · rw [recorded, LabelScope.ofNames, lookup_map_pair, if_pos (name_mem_heldNames member),
      ← made label member]
  · -- the identity is `next` plus the place of the label's name among the method's names
    have placed := List.idxOf_lt_length_iff.mpr (name_mem_heldNames member)
    rw [made label member]
    simp only [labelOf, recorded, LabelScope.ofNames, List.length_map]
    omega

/-- `MethodsFrom start methods`: the labels of the methods take consecutive ranges of identities
from `start` on, each method as many as it records, and the method after it the range after. -/
inductive MethodsFrom : Nat → List Method → Prop
  | nil {start : Nat} : MethodsFrom start []
  | cons {start : Nat} {m : Method} {rest : List Method}
      (within : ∀ label ∈ m.instructions.filterMap Instruction.heldLabel,
        start ≤ label.id ∧ label.id < start + m.labels.length)
      (after : MethodsFrom (start + m.labels.length) rest) : MethodsFrom start (m :: rest)

theorem MethodsFrom.append {start : Nat} {methods more : List Method}
    (first : MethodsFrom start methods) (second : MethodsFrom (start + labelCount methods) more) :
    MethodsFrom start (methods ++ more) := by
  induction first with
  | nil => simpa [labelCount] using second
  | cons within _ ih =>
    refine .cons within (ih ?_)
    simpa [labelCount, Nat.add_assoc] using second

theorem MethodsFrom.le_id {start : Nat} {methods : List Method}
    (spread : MethodsFrom start methods) :
    ∀ m ∈ methods, ∀ label ∈ m.instructions.filterMap Instruction.heldLabel, start ≤ label.id := by
  induction spread with
  | nil => simp
  | cons within _ ih =>
    intro m' member label held
    rcases List.mem_cons.mp member with rfl | later
    · exact (within label held).1
    · have := ih m' later label held
      omega

/-- **Methods with consecutive ranges of identities share no label:** each method's identities
end below the range where the methods after it begin. -/
theorem MethodsFrom.labelsApart {start : Nat} {methods : List Method}
    (spread : MethodsFrom start methods) : LabelsApart methods := by
  induction spread with
  | nil => exact List.Pairwise.nil
  | cons within after ih =>
    refine List.pairwise_cons.mpr ⟨fun m' later label held label' held' => ?_, ih⟩
    have below := (within label held).2
    have above := after.le_id m' later label' held'
    omega

/-! ### Decoding a listing

Each method takes the identities after those of the method before it, also when a later one
stops at a fault. -/

theorem methodsFrom_decodeMembers (owner : String) (next : Nat) (members : List Datum) :
    MethodsFrom next (decodeMembers owner next members).1 := by
  induction members generalizing next with
  | nil => exact .nil
  | cons member rest ih =>
    rw [decodeMembers]
    cases stepped : decodeMember owner next member with
    | ok m => exact .cons (labels_of_decodeMethod (decodeMember_eq_ok_iff.mp stepped).2).2.2 (ih _)
    | error f => exact .nil

theorem methodsFrom_decodeForm (next : Nat) (d : Datum) : MethodsFrom next (decodeForm next d).1 := by
  unfold decodeForm
  dsimp only
  split
  · exact .nil
  · -- a method form gives the one method it is
    split
    · rename_i m decoded
      exact .cons (labels_of_decodeMethod decoded).2.2 .nil
    · exact .nil
  · -- a class form gives its members
    split
    · exact methodsFrom_decodeMembers _ _ _
    · exact .nil
  · exact .nil

theorem methodsFrom_decodeForms (next : Nat) (forms : List Datum) :
    MethodsFrom next (decodeForms next forms).1 := by
  induction forms generalizing next with
  | nil => exact .nil
  | cons d rest ih =>
    rw [decodeForms]
    have first := methodsFrom_decodeForm next d
    cases formDecoded : decodeForm next d with
    | mk methods fault =>
      rw [formDecoded] at first
      cases fault with
      | some f => exact first
      | none => exact first.append (ih _)

/-- **Labels are objects, one to a name in each method.** For every sequence of values: when it
decodes as a bare sequence of instructions, two labels that its instructions name are one object
exactly when the first operands of their forms give the same name. When it decodes as a listing,
the same holds within each method, over the instruction forms of its method form; each method
records the names its instructions mention, each once, in order of first mention, with the label
each names; and no label of one method is a label of another. -/
theorem labels_scoped_by_method (forms : List Datum) :
    (∀ insns, decodeInstructions forms = .ok insns → LabelsByName forms insns) ∧
    ∀ listing, ofData forms = .ok listing →
      List.Forall₂ (fun (declared : Option String × Datum) m =>
          (∃ head nameDatum body,
            declared.2 = .list (head :: nameDatum :: (m.descriptor.toList.map Datum.text ++ body)) ∧
            LabelsByName body m.instructions) ∧ LabelsRecorded m)
        (forms.flatMap declaredMethods) listing.methods ∧
      LabelsApart listing.methods := by
  refine ⟨fun insns decoded => ?_, fun listing decoded => ?_⟩
  · -- a bare sequence is one body, decoded in one scope
    cases bodyDecoded : decodeBody (.fresh 0) forms with
    | ok result =>
      obtain ⟨body, scope⟩ := result
      rw [decodeInstructions, bodyDecoded] at decoded
      cases decoded
      exact labelsByName_of_decodeBody bodyDecoded
    | error fault =>
      rw [decodeInstructions, bodyDecoded] at decoded
      cases decoded
  · obtain ⟨quiet, methods⟩ := ofData_eq_ok_iff.mp decoded
    rw [methods]
    refine ⟨(forall₂_decodeForms quiet).2.imp fun declared m decodedMethod => ?_,
      (methodsFrom_decodeForms 0 forms).labelsApart⟩
    obtain ⟨next, methodDecoded⟩ := decodedMethod.2
    obtain ⟨shaped, recorded, -⟩ := labels_of_decodeMethod methodDecoded
    exact ⟨shaped, recorded⟩

/-- Two methods, each with a marker of a label named `L` and a jump to it. -/
def twoLoops : List Datum :=
  [.list [.symbol "method", .symbol "first", .list [.symbol "label", .symbol "L"],
      .list [.symbol "goto", .symbol "L"]],
    .list [.symbol "method", .symbol "second", .list [.symbol "label", .symbol "L"],
      .list [.symbol "goto", .symbol "L"]]]

/-- The two methods of `twoLoops` each have one label named `L`, and the two are different
objects. -/
theorem labels_scoped_by_method_of_twoLoops :
    ∃ listing, ofData twoLoops = .ok listing ∧
      listing.methods.map Method.labels = [[("L", ⟨0, "L"⟩)], [("L", ⟨1, "L"⟩)]] ∧
      LabelsApart listing.methods := by
  have computed : (ofData twoLoops).toOption.map (fun listing => listing.methods.map Method.labels) =
      some [[("L", ⟨0, "L"⟩)], [("L", ⟨1, "L"⟩)]] := by
    decide +kernel
  cases decoded : ofData twoLoops with
  | ok listing =>
    rw [decoded] at computed
    exact ⟨listing, rfl, by simpa [Except.toOption] using computed,
      ((labels_scoped_by_method twoLoops).2 listing decoded).2⟩
  | error fault =>
    rw [decoded] at computed
    cases computed

end Listing

end Flowgraph
