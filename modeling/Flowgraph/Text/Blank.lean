/-!
**Blank characters.**

The characters that count as white space when text is trimmed and when a number is read:
the ASCII controls tab through carriage return, the four information separators U+001C to
U+001F, the space, and the Unicode space separators, line and paragraph separators and the next
line control.
-/

namespace Flowgraph.Text

/-- The closed ranges of blank code points, in increasing order. -/
def blankRanges : List (Nat × Nat) :=
  [(0x0009, 0x000D), (0x001C, 0x0020), (0x0085, 0x0085), (0x00A0, 0x00A0), (0x1680, 0x1680),
   (0x2000, 0x200A), (0x2028, 0x2029), (0x202F, 0x202F), (0x205F, 0x205F), (0x3000, 0x3000)]

/-- Whether a character is blank. -/
def isBlank (c : Char) : Bool :=
  blankRanges.any fun (first, last) => first ≤ c.toNat && c.toNat ≤ last

/-- Removes blank characters from both ends of a text. -/
def trimBlank (text : String) : String :=
  String.ofList ((text.toList.dropWhile isBlank).reverse.dropWhile isBlank).reverse

end Flowgraph.Text
