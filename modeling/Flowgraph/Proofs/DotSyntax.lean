import Mathlib.Data.List.Count
import Flowgraph.Graph.Dot

/-!
**Reading DOT text back.**

The rules by which Graphviz reads a DOT document, as far as drawings of directed graphs use them:

* `Dot.lex`, the lexical level, as a machine that reads one character at a time (`Dot.step`).
  Blanks separate tokens. A word is a run of letters, digits, underscores and characters beyond
  ASCII that does not start with a digit; a numeral is a run of digits; `{ } [ ] = ; ,` are tokens
  of their own and `->` is the edge operator. A double-quoted string runs to the next double
  quote that no backslash escapes: inside it `\"` stands for a double quote, a backslash before a
  line break joins the two lines, and any other backslash is kept together with the character
  after it, so that `\\` stays two characters. Comments, HTML strings and the concatenation of
  strings with `+` are not read.
* `Dot.Digraph`, the grammar of a directed graph over tokens: `digraph`, an optional name, and
  statements in braces, each an assignment `ID = ID`, default attributes for the graph, nodes or
  edges, a node with an optional attribute list, or an edge with one. Subgraphs, ports and chains
  of edges are not read.
* `Dot.readLabel`, the escapes Graphviz reads in a label once DOT has read the string: `\n` is a
  line break and `\\` a backslash. The other escapes of a label (`\l` and `\r`, line breaks
  aligned left or right, and `\N`, `\G` and the like, which stand for names of the drawing) are
  not read.

The lemmas below let the lexer run over a text piece by piece (`advance_append`), and bound what a
quoted string can hold by the escapes of the text it was read from (`weight_quoted_le`,
`weight_readLabel_le`): a reading that gives back every backslash, line break and double quote of
a text needs a backslash in the input for each of them, and two for each backslash.
-/

namespace Flowgraph

namespace Dot

/-- A token of DOT. -/
inductive Token where
  | word (text : List Char)
  | numeral (text : List Char)
  | quoted (text : List Char)
  | lbrace
  | rbrace
  | lbracket
  | rbracket
  | equals
  | semicolon
  | comma
  | arrow
  deriving DecidableEq, Repr

/-- Where the lexer stands: between tokens, inside a word, a numeral or a quoted string (just
after a backslash, for `escaped`), or after a `-`. -/
inductive LexState where
  | between
  | word (text : List Char)
  | numeral (text : List Char)
  | quoted (text : List Char)
  | escaped (text : List Char)
  | dash
  deriving DecidableEq, Repr

/-- The blanks that separate tokens. -/
def isBlank (c : Char) : Bool := c = ' ' || c = '\t' || c = '\n' || c = '\r'

/-- The characters that start a word. -/
def isWordStart (c : Char) : Bool := c.isAlpha || c = '_' || 128 ≤ c.toNat

/-- The tokens of one character. -/
def punctuation : Char → Option Token
  | '{' => some .lbrace
  | '}' => some .rbrace
  | '[' => some .lbracket
  | ']' => some .rbracket
  | '=' => some .equals
  | ';' => some .semicolon
  | ',' => some .comma
  | _ => none

/-- What the lexer does with a character between tokens. -/
def start (c : Char) : Option (LexState × List Token) :=
  if isBlank c then some (.between, [])
  else if c = '"' then some (.quoted [], [])
  else if c = '-' then some (.dash, [])
  else if isWordStart c then some (.word [c], [])
  else if c.isDigit then some (.numeral [c], [])
  else (punctuation c).map fun t => (.between, [t])

/-- One character read: the next state and the tokens it completes, or `none` for a character
that cannot stand there. -/
def step : LexState → Char → Option (LexState × List Token)
  | .between, c => start c
  | .word text, c =>
    if isWordStart c || c.isDigit then some (.word (text ++ [c]), [])
    else (start c).map fun (next, made) => (next, .word text :: made)
  | .numeral text, c =>
    if c.isDigit then some (.numeral (text ++ [c]), [])
    else (start c).map fun (next, made) => (next, .numeral text :: made)
  | .quoted text, c =>
    if c = '"' then some (.between, [.quoted text])
    else if c = '\\' then some (.escaped text, [])
    else some (.quoted (text ++ [c]), [])
  | .escaped text, c =>
    if c = '"' then some (.quoted (text ++ ['"']), [])
    else if c = '\n' then some (.quoted text, [])
    else some (.quoted (text ++ ['\\', c]), [])
  | .dash, c => if c = '>' then some (.between, [.arrow]) else none

/-- Reads characters from a state: the state reached and the tokens completed on the way. -/
def advance : LexState → List Char → Option (LexState × List Token)
  | state, [] => some (state, [])
  | state, c :: rest =>
    match step state c with
    | none => none
    | some (next, made) => (advance next rest).map fun (last, later) => (last, made ++ later)

/-- The end of the text: a word or numeral ends there, a string or an edge operator may not. -/
def finish : LexState → Option (List Token)
  | .between => some []
  | .word text => some [.word text]
  | .numeral text => some [.numeral text]
  | _ => none

/-- The tokens of a DOT text, or `none` when it holds a character that no token can take or
ends inside a string. -/
def lex (text : String) : Option (List Token) :=
  (advance .between text.toList).bind fun (last, made) => (finish last).map (made ++ ·)

/-- Reads a label as Graphviz does once DOT has read its string: `\n` is a line break and `\\` a
backslash. Any other escape is not read here. -/
def readLabel : List Char → Option (List Char)
  | [] => some []
  | '\\' :: 'n' :: rest => (readLabel rest).map ('\n' :: ·)
  | '\\' :: '\\' :: rest => (readLabel rest).map ('\\' :: ·)
  | '\\' :: _ => none
  | c :: rest => (readLabel rest).map (c :: ·)

/-! ### The grammar -/

/-- The keywords of DOT, in lower case; a bare word that is one of them in any case is no
identifier. -/
def keywords : List (List Char) :=
  ["node", "edge", "graph", "digraph", "subgraph", "strict"].map String.toList

/-- Whether a token can stand as an identifier: a word other than a keyword, a numeral, or a
quoted string. -/
def Token.isId : Token → Bool
  | .word text => !keywords.contains (text.map Char.toLower)
  | .numeral _ => true
  | .quoted _ => true
  | _ => false

/-- Whether a token is the keyword `keyword`, given in lower case. -/
def Token.isKeyword (keyword : String) : Token → Bool
  | .word text => text.map Char.toLower == keyword.toList
  | _ => false

/-- The attributes inside an attribute list: `ID = ID`, each followed by an optional `,` or
`;`. -/
inductive Attributes : List Token → Prop
  | nil : Attributes []
  | cons {key value : Token} {separator rest : List Token} : key.isId → value.isId →
      separator = [] ∨ separator = [.comma] ∨ separator = [.semicolon] → Attributes rest →
      Attributes (key :: .equals :: value :: separator ++ rest)

/-- An optional attribute list in brackets. -/
inductive AttributeList : List Token → Prop
  | none : AttributeList []
  | some {attributes : List Token} : Attributes attributes →
      AttributeList (.lbracket :: attributes ++ [.rbracket])

/-- A statement of a graph. -/
inductive Statement : List Token → Prop
  /-- `ID = ID`, an attribute of the graph. -/
  | assign {key value : Token} : key.isId → value.isId → Statement [key, .equals, value]
  /-- `graph [...]`, `node [...]` or `edge [...]`: attributes for what follows. -/
  | defaults {kind : Token} {attributes : List Token} :
      kind.isKeyword "graph" ∨ kind.isKeyword "node" ∨ kind.isKeyword "edge" →
      Attributes attributes → Statement (kind :: .lbracket :: attributes ++ [.rbracket])
  /-- A node with an optional attribute list. -/
  | node {name : Token} {attributes : List Token} : name.isId → AttributeList attributes →
      Statement (name :: attributes)
  /-- An edge with an optional attribute list. -/
  | edge {source target : Token} {attributes : List Token} : source.isId → target.isId →
      AttributeList attributes → Statement (source :: .arrow :: target :: attributes)

/-- Statements, each followed by an optional `;`. -/
inductive Statements : List Token → Prop
  | nil : Statements []
  | cons {statement separator rest : List Token} : Statement statement →
      separator = [] ∨ separator = [.semicolon] → Statements rest →
      Statements (statement ++ separator ++ rest)

/-- A directed graph: `digraph`, an optional name, and statements in braces. -/
def Digraph (tokens : List Token) : Prop :=
  ∃ kind name body, tokens = kind :: name ++ .lbrace :: body ++ [.rbrace] ∧
    kind.isKeyword "digraph" ∧ (name = [] ∨ ∃ id, name = [id] ∧ id.isId) ∧ Statements body

/-- A text is a well-formed DOT document of a directed graph. -/
def WellFormed (text : String) : Prop :=
  ∃ tokens, lex text = some tokens ∧ Digraph tokens

theorem statements_flatMap {α : Type} (items : List α) (tokens : α → List Token)
    (each : ∀ x ∈ items, Statement (tokens x)) :
    Statements (items.flatMap fun x => tokens x ++ [.semicolon]) := by
  induction items with
  | nil => exact .nil
  | cons x rest ih =>
    rw [List.flatMap_cons]
    exact .cons (each x List.mem_cons_self) (.inr rfl)
      (ih fun y member => each y (List.mem_cons_of_mem x member))

theorem Statements.append {first second : List Token} (before : Statements first)
    (after : Statements second) : Statements (first ++ second) := by
  induction before with
  | nil => exact after
  | cons statement separator _ ih =>
    rw [List.append_assoc]
    exact .cons statement separator ih

/-- An attribute followed by a comma and more attributes. -/
theorem Attributes.comma {key value : Token} {rest : List Token} (isKey : key.isId)
    (isValue : value.isId) (tail : Attributes rest) :
    Attributes (key :: .equals :: value :: .comma :: rest) :=
  @Attributes.cons key value [.comma] rest isKey isValue (.inr (.inl rfl)) tail

/-- The last attribute of a list. -/
theorem Attributes.last {key value : Token} (isKey : key.isId) (isValue : value.isId) :
    Attributes [key, .equals, value] :=
  @Attributes.cons key value [] [] isKey isValue (.inl rfl) .nil

/-! ### Running the lexer piece by piece -/

theorem advance_cons_of_step {state next : LexState} {c : Char} {rest : List Char}
    {made : List Token} (stepped : step state c = some (next, made)) :
    advance state (c :: rest) =
      (advance next rest).map fun (last, later) => (last, made ++ later) := by
  rw [advance, stepped]

/-- Reading two pieces of text is reading the first, then the second from where it stopped. -/
theorem advance_append (state : LexState) (first second : List Char) :
    advance state (first ++ second) =
      (advance state first).bind fun (mid, made) =>
        (advance mid second).map fun (last, later) => (last, made ++ later) := by
  induction first generalizing state with
  | nil => simp [advance]
  | cons c rest ih =>
    rw [List.cons_append, advance, advance]
    cases step state c with
    | none => rfl
    | some stepped =>
      obtain ⟨next, made⟩ := stepped
      simp only [ih]
      cases advance next rest with
      | none => rfl
      | some reached => simp [Option.map_map, Function.comp_def, List.append_assoc]

/-- A step of the lexer that ends a piece of text, chained with the reading of the piece. -/
theorem advance_append_of_advance {state mid : LexState} {first second : List Char}
    {made : List Token} (reads : advance state first = some (mid, made)) :
    advance state (first ++ second) =
      (advance mid second).map fun (last, later) => (last, made ++ later) := by
  rw [advance_append, reads, Option.bind_some]

theorem lex_of_advance {text : String} {last : LexState} {made finished : List Token}
    (reads : advance .between text.toList = some (last, made))
    (ends : finish last = some finished) : lex text = some (made ++ finished) := by
  simp only [lex, reads, Option.bind_some, ends, Option.map_some]

/-- Inside a quoted string, characters other than a double quote or a backslash are kept. -/
theorem advance_quoted_plain (text : List Char) {chars : List Char} (noQuote : '"' ∉ chars)
    (noBackslash : '\\' ∉ chars) :
    advance (.quoted text) chars = some (.quoted (text ++ chars), []) := by
  induction chars generalizing text with
  | nil => simp [advance]
  | cons c rest ih =>
    have plain : c ≠ '"' ∧ c ≠ '\\' :=
      ⟨fun same => noQuote (same ▸ List.mem_cons_self),
        fun same => noBackslash (same ▸ List.mem_cons_self)⟩
    have stepped : step (.quoted text) c = some (.quoted (text ++ [c]), []) := by
      simp [step, plain.1, plain.2]
    rw [advance_cons_of_step stepped,
      ih (text ++ [c]) (fun member => noQuote (List.mem_cons_of_mem c member))
        (fun member => noBackslash (List.mem_cons_of_mem c member))]
    simp

/-- A word goes on over letters and digits. -/
theorem advance_word_digits (text : List Char) {digits : List Char}
    (allDigits : ∀ c ∈ digits, c.isDigit) :
    advance (.word text) digits = some (.word (text ++ digits), []) := by
  induction digits generalizing text with
  | nil => simp [advance]
  | cons c rest ih =>
    have stepped : step (.word text) c = some (.word (text ++ [c]), []) := by
      simp [step, allDigits c List.mem_cons_self]
    rw [advance_cons_of_step stepped,
      ih (text ++ [c]) (fun d member => allDigits d (List.mem_cons_of_mem c member))]
    simp

/-! ### What a quoted string can hold -/

/-- The characters that escapes consist of or stand for: backslashes, line breaks and double
quotes. -/
def weight (text : List Char) : Nat := text.count '\\' + text.count '\n' + text.count '"'

@[simp] theorem weight_nil : weight [] = 0 := rfl

@[simp] theorem weight_append (first second : List Char) :
    weight (first ++ second) = weight first + weight second := by
  simp only [weight, List.count_append]
  omega

@[simp] theorem weight_singleton (c : Char) :
    weight [c] = (if c = '\\' then 1 else 0) + (if c = '\n' then 1 else 0) +
      (if c = '"' then 1 else 0) := by
  simp only [weight, List.count_singleton, beq_iff_eq]

/-- **A quoted string weighs no more than its input's backslashes and line breaks.** Reading
from inside a string (and from just after a backslash, with that backslash counted), the string
that the lexer completes weighs at most the text read so far plus the backslashes and line breaks
of the input: a double quote in the string costs the backslash before it, a backslash kept costs
itself. -/
theorem weight_quoted_le (chars : List Char) (text done : List Char) (last : LexState)
    (made : List Token) :
    (advance (.quoted text) chars = some (last, .quoted done :: made) →
      weight done ≤ weight text + chars.count '\\' + chars.count '\n') ∧
    (advance (.escaped text) chars = some (last, .quoted done :: made) →
      weight done ≤ weight text + 1 + chars.count '\\' + chars.count '\n') := by
  induction chars generalizing text made with
  | nil => exact ⟨fun reads => by simp [advance] at reads, fun reads => by simp [advance] at reads⟩
  | cons c rest ih =>
    constructor
    · intro reads
      by_cases quote : c = '"'
      · -- the string closes here: it is the text read so far
        subst quote
        have stepped : step (.quoted text) '"' = some (.between, [.quoted text]) := by simp [step]
        rw [advance_cons_of_step stepped] at reads
        obtain ⟨_, _, same⟩ := Option.map_eq_some_iff.mp reads
        have closed : text = done := by
          simp only [Prod.mk.injEq, List.singleton_append, List.cons.injEq, Token.quoted.injEq]
            at same
          exact same.2.1
        subst closed
        omega
      by_cases backslash : c = '\\'
      · subst backslash
        have stepped : step (.quoted text) '\\' = some (.escaped text, []) := by simp [step]
        rw [advance_cons_of_step stepped] at reads
        simp only [List.nil_append, Option.map_id'] at reads
        have bound := (ih text made).2 reads
        simp only [List.count_cons_self, List.count_cons_of_ne (by decide : '\\' ≠ '\n')]
        omega
      · have stepped : step (.quoted text) c = some (.quoted (text ++ [c]), []) := by
          simp [step, quote, backslash]
        rw [advance_cons_of_step stepped] at reads
        simp only [List.nil_append, Option.map_id'] at reads
        have bound := (ih (text ++ [c]) made).1 reads
        simp only [weight_append, weight_singleton, if_neg backslash, if_neg quote] at bound
        simp only [List.count_cons, beq_iff_eq, if_neg backslash]
        omega
    · intro reads
      by_cases quote : c = '"'
      · subst quote
        have stepped : step (.escaped text) '"' = some (.quoted (text ++ ['"']), []) := by
          simp [step]
        rw [advance_cons_of_step stepped] at reads
        simp only [List.nil_append, Option.map_id'] at reads
        have bound := (ih (text ++ ['"']) made).1 reads
        simp only [weight_append, weight_singleton] at bound
        simp only [List.count_cons_of_ne (by decide : '"' ≠ '\\'),
          List.count_cons_of_ne (by decide : '"' ≠ '\n')]
        simp at bound
        omega
      by_cases lineBreak : c = '\n'
      · subst lineBreak
        have stepped : step (.escaped text) '\n' = some (.quoted text, []) := by simp [step]
        rw [advance_cons_of_step stepped] at reads
        simp only [List.nil_append, Option.map_id'] at reads
        have bound := (ih text made).1 reads
        simp only [List.count_cons_self, List.count_cons_of_ne (by decide : '\n' ≠ '\\')]
        omega
      · have stepped : step (.escaped text) c = some (.quoted (text ++ ['\\', c]), []) := by
          simp [step, quote, lineBreak]
        rw [advance_cons_of_step stepped] at reads
        simp only [List.nil_append, Option.map_id'] at reads
        have bound := (ih (text ++ ['\\', c]) made).1 reads
        have pair : weight ['\\', c] = 1 + (if c = '\\' then 1 else 0) := by
          simp only [weight, List.count_cons, List.count_nil, beq_iff_eq, if_neg quote,
            if_neg lineBreak]
          split_ifs <;> simp_all
        simp only [weight_append, pair] at bound
        simp only [List.count_cons, beq_iff_eq, if_neg lineBreak]
        omega

/-- **A label reading needs its backslashes.** What `readLabel` gives back weighs, with each
backslash counted twice, no more than what it reads: a line break costs a backslash, and a
backslash two. -/
theorem weight_readLabel_le {text read : List Char} (reads : readLabel text = some read) :
    read.count '\n' + 2 * read.count '\\' + read.count '"' ≤ weight text := by
  induction text using readLabel.induct generalizing read with
  | case1 =>
    simp only [readLabel, Option.some.injEq] at reads
    subst reads
    simp
  | case2 rest ih =>
    simp only [readLabel] at reads
    obtain ⟨tail, readsRest, rfl⟩ := Option.map_eq_some_iff.mp reads
    have bound := ih readsRest
    simp only [weight, List.count_cons, beq_iff_eq] at bound ⊢
    simp
    omega
  | case3 rest ih =>
    simp only [readLabel] at reads
    obtain ⟨tail, readsRest, rfl⟩ := Option.map_eq_some_iff.mp reads
    have bound := ih readsRest
    simp only [weight, List.count_cons, beq_iff_eq] at bound ⊢
    simp
    omega
  | case4 tail notN notBackslash =>
    rw [readLabel.eq_4 tail notN notBackslash] at reads
    exact absurd reads (by simp)
  | case5 c rest notN notBackslashes notBackslash ih =>
    rw [readLabel.eq_5 c rest notN notBackslashes notBackslash] at reads
    obtain ⟨tail, readsRest, rfl⟩ := Option.map_eq_some_iff.mp reads
    have bound := ih readsRest
    simp only [weight, List.count_cons, beq_iff_eq] at bound ⊢
    split_ifs <;> omega

end Dot

end Flowgraph
