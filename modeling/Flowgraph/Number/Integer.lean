import Flowgraph.Text.Blank
import Flowgraph.Text.Digit

/-!
**Integer numerals.**

An integer numeral is an optional sign followed by decimal digits of any one or several
scripts, with single underscores allowed between two digits, and surrounded by any number of
blanks. The four information separators U+001C to U+001F do not count as blanks here. A numeral
of more than 4300 digits is refused, so that no conversion takes quadratic time on a huge text.
-/

namespace Flowgraph.Number

open Flowgraph.Text

/-- Whether a character may surround a numeral. -/
def isNumeralBlank (c : Char) : Bool :=
  isBlank c && !(0x1C ≤ c.toNat && c.toNat ≤ 0x1F)

/-- Removes the blanks that may surround a numeral. -/
def trimNumeral (chars : List Char) : List Char :=
  ((chars.dropWhile isNumeralBlank).reverse.dropWhile isNumeralBlank).reverse

/-- Continues reading digits after at least one digit, with `acc` the value read so far. -/
def moreDigits (acc : Nat) : List Char → Option Nat
  | [] => some acc
  | '_' :: c :: rest => (digitValue? c).bind fun v => moreDigits (acc * 10 + v) rest
  | c :: rest => (digitValue? c).bind fun v => moreDigits (acc * 10 + v) rest

/-- The value of a nonempty run of digits with single underscores between digits. -/
def readDigits? : List Char → Option Nat
  | [] => none
  | c :: rest => (digitValue? c).bind fun v => moreDigits v rest

/-- The value of a signed run of digits, with no blanks around it. -/
def readSigned? : List Char → Option Int
  | '+' :: rest => (readDigits? rest).map Int.ofNat
  | '-' :: rest => (readDigits? rest).map fun n => -Int.ofNat n
  | chars => (readDigits? chars).map Int.ofNat

/-- The most digits an integer numeral may have, leading zeros included. -/
def maxIntegerDigits : Nat := 4300

/-- The number of digits in a text. -/
def digitCount (chars : List Char) : Nat :=
  (chars.filter fun c => (digitValue? c).isSome).length

/-- The integer that a numeral denotes, or `none` when the text is no integer numeral or has
more than `maxIntegerDigits` digits. -/
def readInteger? (text : String) : Option Int :=
  let body := trimNumeral text.toList
  if digitCount body > maxIntegerDigits then none else readSigned? body

end Flowgraph.Number
