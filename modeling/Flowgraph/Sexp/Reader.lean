import Flowgraph.Sexp.Datum
import Flowgraph.Number.Decimal

/-!
**Reading S-expressions.**

A text is read into a sequence of values. Blanks are the ASCII space, tab, newline, carriage
return, vertical tab and form feed, and `;` starts a comment that runs to the end of the line.

* `(` … `)` is a list and `[` … `]` a bracketed list; the closer must match the opener.
* `"` … `"` is a string literal, in which `\n`, `\t`, `\r`, `\b`, `\f`, `\"` and `\\` stand for
  one character and any other backslash pair stands for itself.
* `'` before a value quotes the first value after it; the values after that one stay in the
  enclosing sequence.
* Any other run of characters up to a blank, bracket, double quote or `;` is an atom; an
  apostrophe inside an atom is an ordinary character. In an atom a backslash makes the next
  character part of the atom; the backslash itself is dropped before a character that a symbol
  has to escape (a blank, bracket, quote, backslash, `` ` ``, `,`, `?`, `;` or `#`) and kept
  before any other. An atom is an integer if it reads as an integer numeral, else a binary64
  number if it reads as a decimal numeral, else a symbol.
* Values nest at most `maxNesting` deep, lists and quotes counted alike.
-/

namespace Flowgraph

open Flowgraph.Number

/-- Why a text is not a sequence of values. -/
inductive ReadError where
  /-- A list was not closed by its own closer: another closer or the end came first. -/
  | unclosed (expected : Char) (found : Option Char)
  /-- A closer stands outside every list; `rest` is the text from it on. -/
  | unopened (rest : String)
  /-- A quote at this position has no value after it in its sequence. -/
  | emptyQuote (position : Nat)
  /-- A string literal runs to the end of the text. -/
  | unterminatedString
  /-- A backslash is the last character of the text. -/
  | danglingEscape
  /-- Values nest deeper than `Reader.maxNesting`. -/
  | tooDeep
  deriving Repr, DecidableEq

/-- The text of a reading error. -/
def ReadError.message : ReadError → String
  | .unclosed expected found =>
    "Not enough closing brackets. Expected " ++ Text.quoted (String.singleton expected) ++
      " to be the last letter in the sexp. Got: " ++
      (match found with
       | some c => Text.quoted (String.singleton c)
       | none => "None")
  | .unopened rest =>
    "Too many closing brackets. Expected no character left in the sexp. Got: " ++ Text.quoted rest
  | .emptyQuote position =>
    "No s-exp is found after an apostrophe at position " ++ toString position
  | .unterminatedString => "'NoneType' object has no attribute 'start'"
  | .danglingEscape => "string index out of range"
  | .tooDeep => "maximum recursion depth exceeded in comparison"

namespace Reader

/-- The blanks that separate values. -/
def isSeparator (c : Char) : Bool :=
  c = ' ' || c = '\t' || c = '\n' || c = '\r' || c = '\x0b' || c = '\x0c'

/-- The characters that end an atom. -/
def endsAtom (c : Char) : Bool :=
  isSeparator c || c = '(' || c = ')' || c = '[' || c = ']' || c = '"' || c = ';'

/-- The characters that a symbol writes after a backslash; reading drops that backslash. -/
def escapedInSymbol (c : Char) : Bool :=
  c = '\\' || c = '\'' || c = '`' || c = '"' || c = '(' || c = ')' || c = '[' || c = ']' ||
    c = ' ' || c = ',' || c = '?' || c = ';' || c = '#'

/-- How deep values may nest. -/
def maxNesting : Nat := 990

/-- The character that an escape pair in a string literal stands for, if it stands for one. -/
def unescape (c : Char) : Option Char :=
  if c = 'n' then some '\n'
  else if c = 't' then some '\t'
  else if c = 'r' then some '\r'
  else if c = 'b' then some '\x08'
  else if c = 'f' then some '\x0c'
  else if c = '"' then some '"'
  else if c = '\\' then some '\\'
  else none

/-- Reads the rest of a string literal after its opening quote; `acc` holds the characters read
so far, last first. Returns the literal and the text after its closing quote. -/
def stringBody (acc : List Char) : List Char → Except ReadError (String × List Char)
  | [] => .error .unterminatedString
  | '"' :: rest => .ok (String.ofList acc.reverse, rest)
  | ['\\'] => .error .danglingEscape
  | '\\' :: c :: rest =>
    match unescape c with
    | some u => stringBody (u :: acc) rest
    | none => stringBody (c :: '\\' :: acc) rest
  | c :: rest => stringBody (c :: acc) rest

/-- Reads the characters of an atom; `acc` holds those read so far, last first. Returns the
atom's characters and the text after it. -/
def atomBody (acc : List Char) : List Char → Except ReadError (String × List Char)
  | [] => .ok (String.ofList acc.reverse, [])
  | ['\\'] => .error .danglingEscape
  | '\\' :: c :: rest =>
    atomBody (if escapedInSymbol c then c :: acc else c :: '\\' :: acc) rest
  | c :: rest =>
    if endsAtom c then .ok (String.ofList acc.reverse, c :: rest)
    else atomBody (c :: acc) rest

/-- The value of an atom: an integer, else a binary64 number, else a symbol. -/
def atomValue (token : String) : Datum :=
  match readInteger? token with
  | some n => .integer n
  | none =>
    match readDecimal? token with
    | some d => .real d.toFloat
    | none => .symbol token

/-- Drops a comment: the text up to and including the next newline. -/
def skipComment (chars : List Char) : List Char :=
  (chars.dropWhile (· ≠ '\n')).drop 1

/-- The closer that matches an opener. -/
def closerOf (opener : Char) : Char := if opener = '[' then ']' else ')'

/-- Reads values until a closer or the end of the text; `total` is the length of the whole
text, so that `total - chars.length` is the position of `chars`, and `depth` is how deep the
values read are nested. Returns the values and the text from the closer on. Every call starts
further into the text than its caller, so a `fuel` of one more than the length of the text is
never exhausted. -/
def items (total : Nat) : Nat → Nat → List Char → Except ReadError (List Datum × List Char)
  | _, 0, chars => .ok ([], chars)
  | _, _ + 1, [] => .ok ([], [])
  | depth, fuel + 1, c :: rest =>
    if c = '"' then do
      let (value, after) ← stringBody [] rest
      let (more, tail) ← items total depth fuel after
      return (.text value :: more, tail)
    else if isSeparator c then items total depth fuel rest
    else if c = '(' || c = '[' then
      if depth + 1 > maxNesting then .error .tooDeep
      else do
        let (inner, after) ← items total (depth + 1) fuel rest
        match after with
        | closer :: after' =>
          if closer = closerOf c then do
            let value := if c = '(' then Datum.list inner else Datum.brackets inner
            let (more, tail) ← items total depth fuel after'
            return (value :: more, tail)
          else .error (.unclosed (closerOf c) (some closer))
        | [] => .error (.unclosed (closerOf c) none)
    else if c = ')' || c = ']' then .ok ([], c :: rest)
    else if c = '\'' then
      if depth + 1 > maxNesting then .error .tooDeep
      else do
        let (inner, after) ← items total (depth + 1) fuel rest
        match inner with
        | first :: others =>
          let (more, tail) ← items total depth fuel after
          return (.quoted first :: others ++ more, tail)
        | [] => .error (.emptyQuote (total - (c :: rest).length))
    else if c = ';' then items total depth fuel (skipComment rest)
    else do
      let (token, after) ← atomBody [] (c :: rest)
      let (more, tail) ← items total depth fuel after
      return (atomValue token :: more, tail)

end Reader

/-- Reads a whole text as a sequence of values. -/
def Datum.readAll (text : String) : Except ReadError (List Datum) := do
  let chars := text.toList
  let (values, rest) ← Reader.items chars.length 0 (chars.length + 1) chars
  match rest with
  | [] => return values
  | _ => .error (.unopened (String.ofList rest))

end Flowgraph
