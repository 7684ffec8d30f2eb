import Flowgraph.Text.Printable

/-!
**Quoted literals.**

The text of a string value as a literal: enclosed in single quotes, or in double quotes when the
text holds a single quote and no double quote. Inside, a backslash and the enclosing quote are
escaped by a backslash, tab, newline and carriage return are written `\t`, `\n` and `\r`, and
every other unprintable character is written by its code in hexadecimal: `\xNN` up to U+00FF,
`\uNNNN` up to U+FFFF, `\UNNNNNNNN` above.
-/

namespace Flowgraph.Text

/-- The lowercase hexadecimal digits of `value`, padded with zeros to `width` digits. -/
def hexDigits (width value : Nat) : List Char :=
  let digits := Nat.toDigits 16 value
  List.replicate (width - digits.length) '0' ++ digits

/-- The quote that encloses a literal of the given characters. -/
def enclosingQuote (chars : List Char) : Char :=
  if chars.contains '\'' && !chars.contains '"' then '"' else '\''

/-- How one character is written inside a literal enclosed by `quote`. -/
def escapeChar (quote c : Char) : List Char :=
  if c = quote || c = '\\' then ['\\', c]
  else if c = '\t' then ['\\', 't']
  else if c = '\n' then ['\\', 'n']
  else if c = '\r' then ['\\', 'r']
  else if isPrintable c then [c]
  else if c.toNat ≤ 0xFF then ['\\', 'x'] ++ hexDigits 2 c.toNat
  else if c.toNat ≤ 0xFFFF then ['\\', 'u'] ++ hexDigits 4 c.toNat
  else ['\\', 'U'] ++ hexDigits 8 c.toNat

/-- The literal that denotes a text. -/
def quoted (text : String) : String :=
  let chars := text.toList
  let quote := enclosingQuote chars
  String.ofList (quote :: chars.flatMap (escapeChar quote) ++ [quote])

end Flowgraph.Text
