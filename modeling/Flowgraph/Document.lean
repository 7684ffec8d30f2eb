/-!
**JSON documents.**

A JSON value made of integers, strings, arrays and objects (whose fields keep their order), and
its text. Strings are written with only printable ASCII characters: a quote, a backslash and the
controls backspace, form feed, newline, carriage return and tab have short escapes, and every
other character outside the printable ASCII range is written `\uXXXX`, as a pair of surrogates
above U+FFFF.

Without indentation, items are separated by `, ` and keys by `: `. With an indentation of `k`,
every item stands on its own line, indented by `k` spaces per level of nesting; an empty array
or object stays `[]` or `{}`.
-/

namespace Flowgraph

/-- A JSON value. -/
inductive Document where
  | int (value : Int)
  | str (value : String)
  | arr (items : List Document)
  | obj (fields : List (String × Document))
  deriving Inhabited

namespace Document

/-- Four lowercase hexadecimal digits of a number below 65536. -/
def hex4 (value : Nat) : List Char :=
  let digits := Nat.toDigits 16 value
  List.replicate (4 - digits.length) '0' ++ digits

/-- The escaped form of one character inside a JSON string. -/
def escapeChar (c : Char) : List Char :=
  if c = '"' then ['\\', '"']
  else if c = '\\' then ['\\', '\\']
  else if c = '\n' then ['\\', 'n']
  else if c = '\r' then ['\\', 'r']
  else if c = '\t' then ['\\', 't']
  else if c = '\x08' then ['\\', 'b']
  else if c = '\x0c' then ['\\', 'f']
  else if 0x20 ≤ c.toNat && c.toNat < 0x7F then [c]
  else if c.toNat < 0x10000 then ['\\', 'u'] ++ hex4 c.toNat
  else
    let v := c.toNat - 0x10000
    ['\\', 'u'] ++ hex4 (0xD800 + v / 0x400) ++ ['\\', 'u'] ++ hex4 (0xDC00 + v % 0x400)

/-- A JSON string literal. -/
def quote (s : String) : String :=
  String.ofList ('"' :: s.toList.flatMap escapeChar ++ ['"'])

/-- The decimal text of an integer. -/
def intText (value : Int) : String :=
  if value < 0 then "-" ++ toString value.natAbs else toString value.natAbs

/-- What precedes an item at nesting `level`: a newline and indentation, or nothing on one
line. -/
def opening (indent : Option Nat) (level : Nat) : String :=
  match indent with
  | some k => "\n" ++ String.ofList (List.replicate (k * level) ' ')
  | none => ""

/-- What separates two items. -/
def separator (indent : Option Nat) : String :=
  match indent with
  | some _ => ","
  | none => ", "

mutual
/-- The text of a value at nesting `level`, indented by `indent` spaces per level if given. -/
def render (indent : Option Nat) (level : Nat) : Document → String
  | .int value => intText value
  | .str value => quote value
  | .arr [] => "[]"
  | .arr items => "[" ++ renderItems indent (level + 1) items ++ opening indent level ++ "]"
  | .obj [] => "\x7b\x7d"
  | .obj fields =>
    "\x7b" ++ renderFields indent (level + 1) fields ++ opening indent level ++ "\x7d"

/-- The items of an array at nesting `level`. -/
def renderItems (indent : Option Nat) (level : Nat) : List Document → String
  | [] => ""
  | [d] => opening indent level ++ render indent level d
  | d :: rest =>
    opening indent level ++ render indent level d ++ separator indent ++
      renderItems indent level rest

/-- The fields of an object at nesting `level`. -/
def renderFields (indent : Option Nat) (level : Nat) : List (String × Document) → String
  | [] => ""
  | [(k, d)] => opening indent level ++ quote k ++ ": " ++ render indent level d
  | (k, d) :: rest =>
    opening indent level ++ quote k ++ ": " ++ render indent level d ++ separator indent ++
      renderFields indent level rest
end

/-- The text of a JSON value, with `indent` spaces per level or on one line. -/
def write (indent : Option Nat) (d : Document) : String := render indent 0 d

end Document

end Flowgraph
