import Flowgraph.Proofs.DotSyntax
import Flowgraph.Proofs.Build

/-!
**Reading a drawing back.**

`Graph.toDot` writes each block as a node labelled with the block's name, a line break and the
block's text, in which it escapes double quotes and line breaks, and it writes a title as the
graph's label as it is. Read back by the rules of `Flowgraph.Proofs.DotSyntax`:

* `advance_nodeLine`, `advance_titleLine`, `wellFormed_toDot`: when no block's text holds a
  backslash and the title neither a double quote nor a backslash, every line of the drawing reads
  as one statement and the whole text as a directed graph; the string of each node's label closes
  at the quote written after the block text and reads back as name, line break and text, and the
  graph's label reads back as the title;
* `not_mem_display_of_readsBack`, `titlePlain_of_readsBack`: a backslash in a block's text, or a
  double quote or a backslash in the title, never reads back. A quoted string gives back no more
  backslashes, line breaks and double quotes than the backslashes and line breaks it was read
  from, and reading a backslash back takes two of them (`Dot.weight_quoted_le`,
  `Dot.weight_readLabel_le`), while the escaping adds one backslash for each double quote and
  line break only;
* `toDot_reads_back_iff`: so a drawing reads back exactly when no block's text holds a backslash
  and the title neither a double quote nor a backslash. A block whose text ends in a backslash
  escapes the quote that should close its label (`toDot_trailingBackslash`).
-/

namespace Flowgraph

namespace Graph

open Dot

/-! ### What the drawing writes, and what reading it back means -/

/-- The style a node line writes after its label: filled for the entry block, dashed for a
block without id once the graph is numbered. -/
def nodeStyle (g : Graph) (b : Block) : String :=
  if b.index = g.entry then ", style=filled, fillcolor=\"#ccffcc\""
  else if (g.blockId b.index).isNone && g.numbering.isSome then ", style=dashed"
  else ""

theorem nodeLine_eq (g : Graph) (b : Block) :
    g.nodeLine b = "  B" ++ toString b.index ++ " [label=\"" ++ g.nodeName b ++ "\\n" ++
      escapeLabel b.display ++ "\"" ++ g.nodeStyle b ++ "];" := rfl

/-- The line that gives a drawing its title. -/
def titleLine (title : String) : String := "  label=\"" ++ title ++ "\";"

/-- The attributes after a node's label, as tokens. -/
def styleTokens (g : Graph) (b : Block) : List Token :=
  if b.index = g.entry then
    [.comma, .word "style".toList, .equals, .word "filled".toList, .comma,
      .word "fillcolor".toList, .equals, .quoted "#ccffcc".toList]
  else if (g.blockId b.index).isNone && g.numbering.isSome then
    [.comma, .word "style".toList, .equals, .word "dashed".toList]
  else []

/-- The node statement of block `b` with label string `text`: `B<index> [label = "text", …];`. -/
def nodeTokens (g : Graph) (b : Block) (text : List Char) : List Token :=
  [.word ('B' :: (toString b.index).toList), .lbracket, .word "label".toList, .equals,
    .quoted text] ++ g.styleTokens b ++ [.rbracket, .semicolon]

/-- The label of block `b` reads back: the block's line reads as its node statement, so that the
label's string closes at the quote written after the block text, and the string reads back as
the node's name, a line break and the block's text. -/
def NodeLabelReadsBack (g : Graph) (b : Block) : Prop :=
  ∃ text, lex (g.nodeLine b) = some (g.nodeTokens b text) ∧
    readLabel text = some (g.nodeName b ++ "\n" ++ b.display).toList

/-- A title reads back: its line reads as the statement `label = "…";`, and the string reads
back as the title. -/
def TitleReadsBack (title : String) : Prop :=
  ∃ text, lex (titleLine title) = some [.word "label".toList, .equals, .quoted text, .semicolon] ∧
    readLabel text = some title.toList

/-- A drawing reads back: it is a well-formed DOT document of a directed graph, the label of every
node reads back, and so does a title that is not empty. -/
def ReadsBack (g : Graph) (title : Option String) : Prop :=
  Dot.WellFormed (g.toDot title) ∧ (∀ b ∈ g.blocks, g.NodeLabelReadsBack b) ∧
    ∀ t, title = some t → t ≠ "" → TitleReadsBack t

/-! ### The characters written -/

/-- How a label escapes one character of the block text. -/
def escapeChar (c : Char) : List Char :=
  if c = '"' then ['\\', '"'] else if c = '\n' then ['\\', 'n'] else [c]

/-- What DOT reads from one escaped character: the double quote itself, and a line break still
escaped for the label reader. -/
def breakChar (c : Char) : List Char :=
  if c = '\n' then ['\\', 'n'] else [c]

theorem toList_escapeLabel (text : String) :
    (escapeLabel text).toList = text.toList.flatMap escapeChar := by
  simp only [escapeLabel, String.toList_ofList]
  rfl

theorem isDigit_of_mem_toString {n : Nat} {c : Char} (member : c ∈ (toString n).toList) :
    c.isDigit := by
  simp only [Nat.toString_eq_repr, Nat.toList_repr] at member
  exact Nat.isDigit_of_mem_toDigits (by decide) (by decide) member

/-- A character that no escape consists of or stands for. -/
def Plain (c : Char) : Prop := c ≠ '"' ∧ c ≠ '\\' ∧ c ≠ '\n'

instance : DecidablePred Plain := fun c =>
  inferInstanceAs (Decidable (c ≠ '"' ∧ c ≠ '\\' ∧ c ≠ '\n'))

theorem plain_of_isDigit {c : Char} (digit : c.isDigit) : Plain c := by
  refine ⟨?_, ?_, ?_⟩ <;> rintro rfl <;> simp at digit

theorem plain_of_mem_nodeName (g : Graph) (b : Block) {c : Char}
    (member : c ∈ (g.nodeName b).toList) : Plain c := by
  have tagged : ∀ (tag : String) (n : Nat), (∀ x ∈ tag.toList, Plain x) →
      c ∈ (tag ++ toString n).toList → Plain c := by
    intro tag n tagPlain member
    rcases List.mem_append.mp (String.toList_append ▸ member) with inTag | digit
    · exact tagPlain c inTag
    · exact plain_of_isDigit (isDigit_of_mem_toString digit)
  have single : ∀ t : Char, Plain t → ∀ x ∈ [t], Plain x := fun t plain x member =>
    List.mem_singleton.mp member ▸ plain
  unfold nodeName at member
  split at member
  · exact tagged "#" _ (single '#' (by decide)) member
  · exact tagged "u" _ (single 'u' (by decide)) member

theorem count_eq_zero_of_plain {text : List Char} {c : Char} (plain : ∀ x ∈ text, Plain x)
    (special : c = '"' ∨ c = '\\' ∨ c = '\n') : text.count c = 0 := by
  rw [List.count_eq_zero]
  intro member
  obtain ⟨notQuote, notBackslash, notBreak⟩ := plain c member
  rcases special with rfl | rfl | rfl <;> contradiction

/-- Escaping adds one backslash for each double quote and each line break, and leaves no line
break. -/
theorem count_flatMap_escapeChar (text : List Char) :
    (text.flatMap escapeChar).count '\\' = text.count '\\' + text.count '"' + text.count '\n' ∧
      (text.flatMap escapeChar).count '\n' = 0 := by
  induction text with
  | nil => simp
  | cons c rest ih =>
    rw [List.flatMap_cons, List.count_append, List.count_append]
    by_cases quote : c = '"'
    · subst quote
      simp [escapeChar, ih.1, ih.2]
      omega
    by_cases lineBreak : c = '\n'
    · subst lineBreak
      simp [escapeChar, ih.1, ih.2]
      omega
    · have plain : escapeChar c = [c] := by simp [escapeChar, quote, lineBreak]
      simp only [plain, beq_iff_eq, List.count_cons, List.count_nil, ih.1, ih.2, if_neg lineBreak,
        if_neg quote]
      exact ⟨by omega, trivial⟩

/-! ### Reading the lines back -/

/-- Reading two pieces in a row. -/
theorem advance_trans {first mid last : LexState} {xs ys : List Char} {made later : List Token}
    (before : advance first xs = some (mid, made)) (after : advance mid ys = some (last, later)) :
    advance first (xs ++ ys) = some (last, made ++ later) := by
  rw [advance_append_of_advance before, after, Option.map_some]

/-- A text read to its end between tokens lexes as the tokens read. -/
theorem lex_of_advance_between {text : String} {made : List Token}
    (reads : advance .between text.toList = some (.between, made)) : lex text = some made := by
  rw [lex_of_advance reads rfl, List.append_nil]

/-- DOT reads an escaped text without backslashes as the text, with its double quotes and its
line breaks still escaped for the label reader. -/
theorem advance_escaped_text (text : List Char) {chars : List Char}
    (noBackslash : '\\' ∉ chars) :
    advance (.quoted text) (chars.flatMap escapeChar) =
      some (.quoted (text ++ chars.flatMap breakChar), []) := by
  induction chars generalizing text with
  | nil => simp [advance]
  | cons c rest ih =>
    have restPlain : '\\' ∉ rest := fun member => noBackslash (List.mem_cons_of_mem c member)
    have notBackslash : c ≠ '\\' := fun same => noBackslash (same ▸ List.mem_cons_self)
    rw [List.flatMap_cons]
    by_cases quote : c = '"'
    · subst quote
      have reads : advance (.quoted text) (escapeChar '"') = some (.quoted (text ++ ['"']), []) :=
        rfl
      rw [advance_trans reads (ih (text ++ ['"']) restPlain)]
      simp [breakChar]
    by_cases lineBreak : c = '\n'
    · subst lineBreak
      have reads : advance (.quoted text) (escapeChar '\n') =
          some (.quoted (text ++ ['\\', 'n']), []) := rfl
      rw [advance_trans reads (ih (text ++ ['\\', 'n']) restPlain)]
      simp [breakChar]
    · have reads : advance (.quoted text) (escapeChar c) = some (.quoted (text ++ [c]), []) := by
        simp only [escapeChar, if_neg quote, if_neg lineBreak]
        exact advance_quoted_plain text (by simpa using Ne.symm quote)
          (by simpa using Ne.symm notBackslash)
      rw [advance_trans reads (ih (text ++ [c]) restPlain)]
      simp [breakChar, lineBreak]

theorem readLabel_plain_append {before : List Char} (plain : ∀ c ∈ before, c ≠ '\\')
    (after : List Char) : readLabel (before ++ after) = (readLabel after).map (before ++ ·) := by
  induction before with
  | nil => simp
  | cons c rest ih =>
    have notBackslash : c ≠ '\\' := plain c List.mem_cons_self
    rw [List.cons_append, readLabel.eq_5 c (rest ++ after) (fun _ same => absurd same notBackslash)
      (fun _ same => absurd same notBackslash) notBackslash,
      ih fun x member => plain x (List.mem_cons_of_mem c member)]
    simp [Option.map_map, Function.comp_def]

theorem readLabel_flatMap_breakChar {chars : List Char} (noBackslash : '\\' ∉ chars) :
    readLabel (chars.flatMap breakChar) = some chars := by
  induction chars with
  | nil => rfl
  | cons c rest ih =>
    have restRead := ih fun member => noBackslash (List.mem_cons_of_mem c member)
    have notBackslash : c ≠ '\\' := fun same => noBackslash (same ▸ List.mem_cons_self)
    rw [List.flatMap_cons]
    by_cases lineBreak : c = '\n'
    · subst lineBreak
      simp [breakChar, readLabel, restRead]
    · simp only [breakChar, if_neg lineBreak, List.singleton_append]
      rw [readLabel.eq_5 c _ (fun _ same => absurd same notBackslash)
        (fun _ same => absurd same notBackslash) notBackslash, restRead, Option.map_some]

/-- The string DOT reads from the label of block `b` when its text has no backslash. -/
def labelText (g : Graph) (b : Block) : List Char :=
  (g.nodeName b).toList ++ ['\\', 'n'] ++ b.display.toList.flatMap breakChar

theorem readLabel_labelText {g : Graph} {b : Block} (noBackslash : '\\' ∉ b.display.toList) :
    readLabel (g.labelText b) = some (g.nodeName b ++ "\n" ++ b.display).toList := by
  rw [labelText, List.append_assoc,
    readLabel_plain_append (fun c member => (plain_of_mem_nodeName g b member).2.1)]
  have breaks : readLabel (['\\', 'n'] ++ b.display.toList.flatMap breakChar) =
      some ('\n' :: b.display.toList) := by
    rw [List.cons_append, List.cons_append, List.nil_append, readLabel.eq_2,
      readLabel_flatMap_breakChar noBackslash, Option.map_some]
  rw [breaks, Option.map_some]
  simp

/-- The start of a node line, up to the quote that opens its label. -/
theorem advance_nodeOpening (index : Nat) (rest : List Char) :
    advance .between ("  B".toList ++ ((toString index).toList ++ (" [label=\"".toList ++ rest))) =
      (advance (.quoted []) rest).map fun (last, later) =>
        (last, [.word ('B' :: (toString index).toList), .lbracket, .word "label".toList, .equals] ++
          later) := by
  have opens : advance .between "  B".toList = some (.word ['B'], []) := rfl
  have digits := advance_word_digits ['B'] fun _ => isDigit_of_mem_toString (n := index)
  have label : ∀ text : List Char, advance (.word text) " [label=\"".toList =
      some (.quoted [], [.word text, .lbracket, .word "label".toList, .equals]) := fun _ => rfl
  rw [← List.append_assoc, ← List.append_assoc,
    advance_append_of_advance (advance_trans (advance_trans opens digits) (label _))]
  rfl

theorem advance_nodeStyle (g : Graph) (b : Block) :
    advance .between ((g.nodeStyle b).toList ++ "];".toList) =
      some (.between, g.styleTokens b ++ [.rbracket, .semicolon]) := by
  unfold nodeStyle styleTokens
  split_ifs <;> rfl

/-- **A node line reads back** when the block's text holds no backslash: it reads as the node
statement whose label string is the node's name, an escaped line break and the block's text. -/
theorem advance_nodeLine (g : Graph) (b : Block) (noBackslash : '\\' ∉ b.display.toList) :
    advance .between (g.nodeLine b).toList = some (.between, g.nodeTokens b (g.labelText b)) := by
  have name : advance (.quoted []) (g.nodeName b).toList =
      some (.quoted ([] ++ (g.nodeName b).toList), []) :=
    advance_quoted_plain [] (fun member => (plain_of_mem_nodeName g b member).1 rfl)
      (fun member => (plain_of_mem_nodeName g b member).2.1 rfl)
  have separator : ∀ text : List Char, advance (.quoted text) "\\n".toList =
      some (.quoted (text ++ ['\\', 'n']), []) := fun _ => rfl
  have closes : ∀ text : List Char, advance (.quoted text) "\"".toList =
      some (.between, [.quoted text]) := fun _ => rfl
  have body := advance_escaped_text ([] ++ (g.nodeName b).toList ++ ['\\', 'n']) noBackslash
  rw [nodeLine_eq]
  simp only [String.toList_append, toList_escapeLabel, List.append_assoc]
  rw [advance_nodeOpening, advance_trans name (advance_trans (separator _) (advance_trans body
    (advance_trans (closes _) (advance_nodeStyle g b))))]
  simp [nodeTokens, labelText]

/-- **A title line reads back** when the title holds neither a double quote nor a backslash. -/
theorem advance_titleLine {title : String} (noQuote : '"' ∉ title.toList)
    (noBackslash : '\\' ∉ title.toList) :
    advance .between (titleLine title).toList =
      some (.between, [.word "label".toList, .equals, .quoted title.toList, .semicolon]) := by
  have opens : advance .between "  label=\"".toList =
      some (.quoted [], [.word "label".toList, .equals]) := rfl
  have closes : ∀ text : List Char, advance (.quoted text) "\";".toList =
      some (.between, [.quoted text, .semicolon]) := fun _ => rfl
  rw [titleLine]
  simp only [String.toList_append, List.append_assoc]
  rw [advance_trans opens (advance_trans (advance_quoted_plain [] noQuote noBackslash) (closes _))]
  simp

/-- The style an edge line writes after its label: green for a taken branch, blue for a jump. -/
def edgeStyle : EdgeKind → String
  | .branchTaken => ", color=green, fontcolor=green"
  | .jump => ", color=blue, fontcolor=blue"
  | .fallThrough => ""

theorem edgeLine_eq (e : Edge) :
    edgeLine e = "  B" ++ toString e.source ++ " -> B" ++ toString e.target ++ " [label=\"" ++
      e.kind.name ++ "\"" ++ edgeStyle e.kind ++ "];" := by
  obtain ⟨source, target, kind⟩ := e
  cases kind <;> rfl

/-- The attributes after an edge's label, as tokens. -/
def edgeStyleTokens : EdgeKind → List Token
  | .branchTaken => [.comma, .word "color".toList, .equals, .word "green".toList, .comma,
      .word "fontcolor".toList, .equals, .word "green".toList]
  | .jump => [.comma, .word "color".toList, .equals, .word "blue".toList, .comma,
      .word "fontcolor".toList, .equals, .word "blue".toList]
  | .fallThrough => []

/-- The edge statement of an edge line: `B<source> -> B<target> [label = "kind", …];`. -/
def edgeTokens (e : Edge) : List Token :=
  [.word ('B' :: (toString e.source).toList), .arrow, .word ('B' :: (toString e.target).toList),
    .lbracket, .word "label".toList, .equals, .quoted e.kind.name.toList] ++
    edgeStyleTokens e.kind ++ [.rbracket, .semicolon]

/-- The start of an edge line, up to the quote that opens its label. -/
theorem advance_edgeOpening (source target : Nat) (rest : List Char) :
    advance .between ("  B".toList ++ ((toString source).toList ++ (" -> B".toList ++
      ((toString target).toList ++ (" [label=\"".toList ++ rest))))) =
      (advance (.quoted []) rest).map fun (last, later) =>
        (last, [.word ('B' :: (toString source).toList), .arrow,
          .word ('B' :: (toString target).toList), .lbracket, .word "label".toList, .equals] ++
          later) := by
  have opens : advance .between "  B".toList = some (.word ['B'], []) := rfl
  have sourceDigits := advance_word_digits ['B'] fun _ => isDigit_of_mem_toString (n := source)
  have arrow : ∀ text : List Char, advance (.word text) " -> B".toList =
      some (.word ['B'], [.word text, .arrow]) := fun _ => rfl
  have targetDigits := advance_word_digits ['B'] fun _ => isDigit_of_mem_toString (n := target)
  have label : ∀ text : List Char, advance (.word text) " [label=\"".toList =
      some (.quoted [], [.word text, .lbracket, .word "label".toList, .equals]) := fun _ => rfl
  simp only [← List.append_assoc]
  rw [advance_append_of_advance (advance_trans (advance_trans (advance_trans
    (advance_trans opens sourceDigits) (arrow _)) targetDigits) (label _))]
  rfl

theorem advance_edgeStyle (kind : EdgeKind) :
    advance .between ((edgeStyle kind).toList ++ "];".toList) =
      some (.between, edgeStyleTokens kind ++ [.rbracket, .semicolon]) := by
  cases kind <;> decide

/-- **An edge line reads back** as its edge statement. -/
theorem advance_edgeLine (e : Edge) :
    advance .between (edgeLine e).toList = some (.between, edgeTokens e) := by
  have name : advance (.quoted []) e.kind.name.toList =
      some (.quoted ([] ++ e.kind.name.toList), []) :=
    advance_quoted_plain [] (by cases e.kind <;> decide) (by cases e.kind <;> decide)
  have closes : ∀ text : List Char, advance (.quoted text) "\"".toList =
      some (.between, [.quoted text]) := fun _ => rfl
  rw [edgeLine_eq]
  simp only [String.toList_append, List.append_assoc]
  rw [advance_edgeOpening,
    advance_trans name (advance_trans (closes _) (advance_edgeStyle e.kind))]
  simp [edgeTokens]

/-! ### Reading the whole drawing -/

/-- The titles a drawing writes: the title given, unless it is empty. -/
def titles (title : Option String) : List String := (title.filter fun t => !t.isEmpty).toList

theorem mem_titles {title : Option String} {t : String} (member : t ∈ titles title) :
    title = some t := by
  rcases title with _ | given
  · simp [titles] at member
  · by_cases empty : given.isEmpty <;> simp_all [titles, Option.filter]

theorem toDot_eq (g : Graph) (title : Option String) :
    g.toDot title = "\n".intercalate (["digraph CFG \x7b"] ++ (titles title).map titleLine ++
      ["  node [shape=box, fontname=monospace, fontsize=10];"] ++ g.blocks.map g.nodeLine ++
      g.edges.map edgeLine ++ ["\x7d"]) := by
  rcases title with _ | t
  · rfl
  · by_cases empty : t.isEmpty <;> simp [toDot, titles, Option.filter, empty, titleLine]

/-- The statement that sets the defaults of every node. -/
def nodeDefaultsTokens : List Token :=
  [.word "node".toList, .lbracket, .word "shape".toList, .equals, .word "box".toList, .comma,
    .word "fontname".toList, .equals, .word "monospace".toList, .comma, .word "fontsize".toList,
    .equals, .numeral "10".toList, .rbracket, .semicolon]

/-- The title statement `label = "title";`. -/
def titleTokens (title : String) : List Token :=
  [.word "label".toList, .equals, .quoted title.toList, .semicolon]

/-- The tokens of the drawing of `g`, when no block's text holds a backslash. -/
def dotTokens (g : Graph) (title : Option String) : List Token :=
  [.word "digraph".toList, .word "CFG".toList, .lbrace] ++ (titles title).flatMap titleTokens ++
    nodeDefaultsTokens ++ g.blocks.flatMap (fun b => g.nodeTokens b (g.labelText b)) ++
    g.edges.flatMap edgeTokens ++ [.rbrace]

/-- Lines that each read from between tokens to between tokens read, joined by line breaks, as
their tokens one after another. -/
theorem advance_intercalate (lines : List (List Char × List Token))
    (each : ∀ line ∈ lines, advance .between line.1 = some (.between, line.2)) :
    advance .between (['\n'].intercalate (lines.map Prod.fst)) =
      some (.between, lines.flatMap Prod.snd) := by
  induction lines with
  | nil => rfl
  | cons line rest ih =>
    have first := each line List.mem_cons_self
    have later := ih fun l member => each l (List.mem_cons_of_mem line member)
    cases rest with
    | nil => simpa using first
    | cons next more =>
      have newline : advance .between ['\n'] = some (.between, []) := rfl
      rw [List.map_cons, List.map_cons, List.intercalate_cons_cons, ← List.map_cons,
        advance_trans (advance_trans first newline) later]
      simp

/-- The lines of the drawing of `g`, each with the tokens it reads as when no block's text holds
a backslash. -/
def dotLines (g : Graph) (title : Option String) : List (List Char × List Token) :=
  [("digraph CFG \x7b".toList, [.word "digraph".toList, .word "CFG".toList, .lbrace])] ++
    (titles title).map (fun t => ((titleLine t).toList, titleTokens t)) ++
    [("  node [shape=box, fontname=monospace, fontsize=10];".toList, nodeDefaultsTokens)] ++
    g.blocks.map (fun b => ((g.nodeLine b).toList, g.nodeTokens b (g.labelText b))) ++
    g.edges.map (fun e => ((edgeLine e).toList, edgeTokens e)) ++ [("\x7d".toList, [.rbrace])]

theorem toList_toDot (g : Graph) (title : Option String) :
    (g.toDot title).toList = ['\n'].intercalate ((g.dotLines title).map Prod.fst) := by
  rw [toDot_eq, String.toList_intercalate, show "\n".toList = ['\n'] by decide]
  simp only [dotLines, List.map_append, List.map_map, List.map_cons, List.map_nil,
    Function.comp_def]

theorem flatMap_dotLines (g : Graph) (title : Option String) :
    (g.dotLines title).flatMap Prod.snd = g.dotTokens title := by
  simp [dotLines, dotTokens, List.flatMap_append, List.flatMap_map]

/-- Every line of the drawing reads as its tokens when no block's text holds a backslash and the
title neither a double quote nor a backslash. -/
theorem advance_dotLines {g : Graph} {title : Option String}
    (blocksPlain : ∀ b ∈ g.blocks, '\\' ∉ b.display.toList)
    (titlePlain : ∀ t, title = some t → '"' ∉ t.toList ∧ '\\' ∉ t.toList) :
    ∀ line ∈ g.dotLines title, advance .between line.1 = some (.between, line.2) := by
  simp only [dotLines, List.mem_append, List.mem_map, List.mem_singleton, or_assoc]
  rintro line (header | ⟨t, titled, rfl⟩ | defaults | ⟨b, member, rfl⟩ | ⟨e, -, rfl⟩ | close)
  · subst header
    rfl
  · obtain ⟨noQuote, noBackslash⟩ := titlePlain t (mem_titles titled)
    dsimp only
    exact advance_titleLine noQuote noBackslash
  · subst defaults
    rfl
  · dsimp only
    exact advance_nodeLine g b (blocksPlain b member)
  · dsimp only
    exact advance_edgeLine e
  · subst close
    rfl

/-- **The drawing reads as its tokens** when no block's text holds a backslash and the title
neither a double quote nor a backslash: line by line, each line one statement. -/
theorem lex_toDot {g : Graph} {title : Option String}
    (blocksPlain : ∀ b ∈ g.blocks, '\\' ∉ b.display.toList)
    (titlePlain : ∀ t, title = some t → '"' ∉ t.toList ∧ '\\' ∉ t.toList) :
    lex (g.toDot title) = some (g.dotTokens title) := by
  have reads := advance_intercalate _ (advance_dotLines blocksPlain titlePlain)
  rw [← toList_toDot, flatMap_dotLines] at reads
  exact lex_of_advance_between reads

theorem isId_blockWord (digits : List Char) : (Token.word ('B' :: digits)).isId = true := by
  simp [Token.isId, keywords]

theorem nodeTokens_eq (g : Graph) (b : Block) (text : List Char) :
    g.nodeTokens b text = (.word ('B' :: (toString b.index).toList) :: .lbracket ::
      ([.word "label".toList, .equals, .quoted text] ++ g.styleTokens b) ++ [.rbracket]) ++
      [.semicolon] := by
  simp [nodeTokens]

theorem edgeTokens_eq (e : Edge) :
    edgeTokens e = (.word ('B' :: (toString e.source).toList) :: .arrow ::
      .word ('B' :: (toString e.target).toList) :: .lbracket ::
      ([.word "label".toList, .equals, .quoted e.kind.name.toList] ++ edgeStyleTokens e.kind) ++
      [.rbracket]) ++ [.semicolon] := by
  simp [edgeTokens]

theorem statement_node (g : Graph) (b : Block) (text : List Char) :
    Statement (.word ('B' :: (toString b.index).toList) :: .lbracket ::
      ([.word "label".toList, .equals, .quoted text] ++ g.styleTokens b) ++ [.rbracket]) := by
  refine .node (isId_blockWord _) (.some ?_)
  unfold styleTokens
  split_ifs
  · exact .comma (by decide) rfl (.comma (by decide) (by decide) (.last (by decide) rfl))
  · exact .comma (by decide) rfl (.last (by decide) (by decide))
  · exact .last (by decide) rfl

theorem statement_edge (e : Edge) :
    Statement (.word ('B' :: (toString e.source).toList) :: .arrow ::
      .word ('B' :: (toString e.target).toList) :: .lbracket ::
      ([.word "label".toList, .equals, .quoted e.kind.name.toList] ++ edgeStyleTokens e.kind) ++
      [.rbracket]) := by
  refine .edge (isId_blockWord _) (isId_blockWord _) (.some ?_)
  cases e.kind
  · exact .comma (by decide) rfl (.comma (by decide) (by decide) (.last (by decide) (by decide)))
  · exact .comma (by decide) rfl (.comma (by decide) (by decide) (.last (by decide) (by decide)))
  · exact .last (by decide) rfl

/-- **The drawing is a well-formed DOT document** of a directed graph when no block's text holds
a backslash and the title neither a double quote nor a backslash. -/
theorem wellFormed_toDot {g : Graph} {title : Option String}
    (blocksPlain : ∀ b ∈ g.blocks, '\\' ∉ b.display.toList)
    (titlePlain : ∀ t, title = some t → '"' ∉ t.toList ∧ '\\' ∉ t.toList) :
    Dot.WellFormed (g.toDot title) := by
  have titled : Statements ((titles title).flatMap titleTokens) :=
    statements_flatMap _ (fun (t : String) => [.word "label".toList, .equals, .quoted t.toList])
      fun _ _ => .assign (by decide) rfl
  have defaults : Statements nodeDefaultsTokens :=
    .cons (.defaults (.inr (.inl (by decide)))
      (.comma (by decide) (by decide) (.comma (by decide) (by decide)
        (.last (by decide) (by decide))))) (.inr rfl) .nil
  have nodes : Statements (g.blocks.flatMap fun b => g.nodeTokens b (g.labelText b)) := by
    simp only [nodeTokens_eq]
    exact statements_flatMap _ _ fun b _ => statement_node g b _
  have edges : Statements (g.edges.flatMap edgeTokens) := by
    rw [show edgeTokens = _ from funext edgeTokens_eq]
    exact statements_flatMap _ _ fun e _ => statement_edge e
  refine ⟨_, lex_toDot blocksPlain titlePlain, .word "digraph".toList, [.word "CFG".toList],
    _, ?_, by decide, .inr ⟨_, rfl, by decide⟩,
    titled.append (defaults.append (nodes.append edges))⟩
  simp [dotTokens]

/-! ### What never reads back -/

/-- When a line reads with a string right after the tokens of its opening, the string is read
from the rest of the line. -/
theorem advance_quoted_of_lex {line : String} {opening rest text : List Char}
    {made after : List Token} (split : line.toList = opening ++ rest)
    (opens : advance .between opening = some (.quoted [], made))
    (lexes : lex line = some (made ++ .quoted text :: after)) :
    ∃ last more, advance (.quoted []) rest = some (last, .quoted text :: more) := by
  rw [lex, split, advance_append_of_advance opens] at lexes
  cases reads : advance (.quoted []) rest with
  | none => simp [reads] at lexes
  | some reached =>
    obtain ⟨last, later⟩ := reached
    simp only [reads, Option.map_some, Option.bind_some, Option.map_eq_some_iff,
      List.append_assoc, List.append_cancel_left_eq] at lexes
    obtain ⟨finished, ends, joined⟩ := lexes
    cases later with
    | nil =>
      subst joined
      cases last <;> simp [finish] at ends
    | cons first more =>
      obtain ⟨same, -⟩ := List.cons.inj joined
      exact ⟨last, more, by rw [same]⟩

/-- What reading back such a string gives is bounded by the rest of the line: it holds no more
line breaks, twice the backslashes and double quotes than the rest holds backslashes and line
breaks. -/
theorem count_readLabel_le_of_lex {line : String} {opening rest text read : List Char}
    {made after : List Token} (split : line.toList = opening ++ rest)
    (opens : advance .between opening = some (.quoted [], made))
    (lexes : lex line = some (made ++ .quoted text :: after)) (back : readLabel text = some read) :
    read.count '\n' + 2 * read.count '\\' + read.count '"' ≤
      rest.count '\\' + rest.count '\n' := by
  obtain ⟨last, more, quoted⟩ := advance_quoted_of_lex split opens lexes
  have written := (weight_quoted_le rest [] text last more).1 quoted
  have readBack := weight_readLabel_le back
  rw [weight_nil, Nat.zero_add] at written
  omega

/-- **A backslash in a block's text never reads back.** The string of the label is read from the
node's name, an escaped line break and the escaped text, which together hold one backslash more
than the text has backslashes, double quotes and line breaks; reading back the name, a line break
and the text takes that many and two for each backslash of the text. -/
theorem not_mem_display_of_readsBack {g : Graph} {b : Block} (reads : g.NodeLabelReadsBack b) :
    '\\' ∉ b.display.toList := by
  obtain ⟨text, lexes, back⟩ := reads
  let opening := "  B".toList ++ ((toString b.index).toList ++ (" [label=\"".toList ++ []))
  let rest := (g.nodeName b).toList ++ ("\\n".toList ++ ((escapeLabel b.display).toList ++
    ("\"".toList ++ ((g.nodeStyle b).toList ++ "];".toList))))
  have opens : advance .between opening = some (.quoted [],
      [.word ('B' :: (toString b.index).toList), .lbracket, .word "label".toList, .equals]) := by
    simp only [opening, advance_nodeOpening]
    rfl
  have split : (g.nodeLine b).toList = opening ++ rest := by
    simp [opening, rest, nodeLine_eq]
  have bound := count_readLabel_le_of_lex split opens (lexes.trans rfl) back
  have name (c : Char) (special : c = '"' ∨ c = '\\' ∨ c = '\n') :
      (g.nodeName b).toList.count c = 0 :=
    count_eq_zero_of_plain (fun _ member => plain_of_mem_nodeName g b member) special
  have style : (g.nodeStyle b).toList.count '\\' = 0 ∧ (g.nodeStyle b).toList.count '\n' = 0 := by
    unfold nodeStyle
    split_ifs <;> decide
  have escaped := count_flatMap_escapeChar b.display.toList
  simp only [rest, toList_escapeLabel, String.toList_append, List.count_append, escaped.1,
    escaped.2, style.1, style.2, name '\\' (by simp), name '\n' (by simp), name '"' (by simp)]
    at bound
  simp at bound
  rw [← List.count_eq_zero]
  omega

/-- **A double quote or a backslash in a title never reads back.** The string of the graph's
label is read from the title as it is, which holds as many backslashes and line breaks as the
title, while reading back a double quote takes one and a backslash two. -/
theorem titlePlain_of_readsBack {title : String} (reads : TitleReadsBack title) :
    '"' ∉ title.toList ∧ '\\' ∉ title.toList := by
  obtain ⟨text, lexes, back⟩ := reads
  have opens : advance .between "  label=\"".toList =
      some (.quoted [], [.word "label".toList, .equals]) := rfl
  have split : (titleLine title).toList =
      "  label=\"".toList ++ (title.toList ++ "\";".toList) := by
    simp [titleLine]
  have bound := count_readLabel_le_of_lex split opens (lexes.trans rfl) back
  simp [List.count_append] at bound
  simp only [← List.count_eq_zero]
  omega

/-- **A drawing reads back exactly when no block's text holds a backslash and the title neither a
double quote nor a backslash.** Then the drawing is a well-formed DOT document of a directed
graph, the label of every node closes after the block's text and reads back as the node's name,
a line break and the text, and a title that is not empty reads back as the title. A backslash in
a block's text, or a double quote or a backslash in the title, breaks this: `toDot` escapes only
double quotes and line breaks of the block text and nothing of the title. -/
theorem toDot_reads_back_iff (g : Graph) (title : Option String) :
    g.ReadsBack title ↔ (∀ b ∈ g.blocks, '\\' ∉ b.display.toList) ∧
      ∀ t, title = some t → '"' ∉ t.toList ∧ '\\' ∉ t.toList := by
  constructor
  · rintro ⟨-, nodes, titled⟩
    refine ⟨fun b member => not_mem_display_of_readsBack (nodes b member), fun t given => ?_⟩
    by_cases empty : t = ""
    · subst empty
      simp
    · exact titlePlain_of_readsBack (titled t given empty)
  · rintro ⟨blocksPlain, titlePlain⟩
    refine ⟨wellFormed_toDot blocksPlain titlePlain, fun b member => ?_, fun t given _ => ?_⟩
    · have noBackslash := blocksPlain b member
      exact ⟨g.labelText b, lex_of_advance_between (advance_nodeLine g b noBackslash),
        readLabel_labelText noBackslash⟩
    · obtain ⟨noQuote, noBackslash⟩ := titlePlain t given
      refine ⟨t.toList, lex_of_advance_between (advance_titleLine noQuote noBackslash), ?_⟩
      have plain : ∀ c ∈ t.toList, c ≠ '\\' := fun c member same => noBackslash (same ▸ member)
      simpa [readLabel] using readLabel_plain_append plain []

/-- A method that pushes the string `a\`: its only block's text ends in a backslash. -/
def trailingBackslash : List Instruction := [⟨"ldc", [.name "a\\"], none, none⟩]

set_option maxRecDepth 4000 in
/-- The drawing of `trailingBackslash` does not lex: the backslash that ends the block's text
escapes the quote that should close the node's label, and the string runs on to the end of the
text. -/
theorem toDot_trailingBackslash :
    ∃ g, build trailingBackslash .first = .ok g ∧ lex (g.toDot none) = none ∧
      ¬ g.ReadsBack none := by
  obtain ⟨g, built⟩ : ∃ g, build trailingBackslash .first = .ok g := ⟨_, rfl⟩
  have lexed : (build trailingBackslash .first).map (fun g => lex (g.toDot none)) = .ok none :=
    rfl
  rw [built] at lexed
  have broken : lex (g.toDot none) = none := Except.ok.inj lexed
  refine ⟨g, built, broken, fun ⟨⟨tokens, lexes, _⟩, _⟩ => ?_⟩
  rw [broken] at lexes
  cases lexes

end Graph

end Flowgraph
