import Flowgraph.Text.Quoted
import Flowgraph.Number.FloatText

/-!
**S-expression values.**

The values a listing is written in: symbols, string literals, integers, binary64 numbers,
parenthesised lists, bracketed lists and quoted values. Every value has a type name and a
written form (`Datum.repr`), used by error messages: `Symbol('x')`, `'text'`, `5`, `1.5`,
`[a, b]`, `Brackets(I=[a, b])`, `Quoted(a)`.
-/

namespace Flowgraph

/-- A value read from an S-expression text. -/
inductive Datum where
  | symbol (name : String)
  | text (value : String)
  | integer (value : Int)
  | real (value : Float)
  | list (items : List Datum)
  | brackets (items : List Datum)
  | quoted (inner : Datum)
  deriving Inhabited

namespace Datum

/-- The name of a value's type, as error messages give it. -/
def typeName : Datum → String
  | .symbol _ => "Symbol"
  | .text _ => "str"
  | .integer _ => "int"
  | .real _ => "float"
  | .list _ => "list"
  | .brackets _ => "Brackets"
  | .quoted _ => "Quoted"

/-- The decimal text of an integer, with a minus sign when it is negative. -/
def intText (value : Int) : String :=
  if value < 0 then "-" ++ toString value.natAbs else toString value.natAbs

mutual
/-- The written form of a value. -/
def repr : Datum → String
  | .symbol name => "Symbol(" ++ Text.quoted name ++ ")"
  | .text value => Text.quoted value
  | .integer value => intText value
  | .real value => Number.floatText value
  | .list items => "[" ++ reprItems items ++ "]"
  | .brackets items => "Brackets(I=[" ++ reprItems items ++ "])"
  | .quoted inner => "Quoted(" ++ repr inner ++ ")"

/-- The written forms of values, separated by a comma and a space. -/
def reprItems : List Datum → String
  | [] => ""
  | [d] => repr d
  | d :: rest => repr d ++ ", " ++ reprItems rest
end

end Datum

end Flowgraph
