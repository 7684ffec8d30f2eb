import Flowgraph.Number.Integer

/-!
**Decimal numerals.**

A decimal numeral is an optional sign followed either by one of the words `inf`, `infinity` and
`nan` in any case, or by digits with an optional point and an optional exponent (`e` or `E`, an
optional sign, digits); at least one digit stands before or after the point. Digits may come from
any script, single underscores may stand between two digits, and blanks may surround the
numeral. The value is the nearest binary64 number, ties to even; a value too large for the
format is an infinity.
-/

namespace Flowgraph.Number

open Flowgraph.Text

/-- The value that a decimal numeral denotes. -/
inductive DecimalNumeral where
  /-- The number `± mantissa × 10 ^ exponent`. -/
  | finite (negative : Bool) (mantissa : Nat) (exponent : Int)
  | infinity (negative : Bool)
  | nan
  deriving Repr, DecidableEq

/-- Whether a character is a decimal digit of some script. -/
def isDigitChar (c : Char) : Bool := (digitValue? c).isSome

/-- The number written by a list of digit values, most significant first. -/
def digitsValue (digits : List Nat) : Nat :=
  digits.foldl (fun acc d => acc * 10 + d) 0

/-- Splits off the longest prefix of digits, as digit values. -/
def spanDigits (chars : List Char) : List Nat × List Char :=
  ((chars.takeWhile isDigitChar).filterMap digitValue?, chars.dropWhile isDigitChar)

/-- Whether every underscore stands between two digits. -/
def underscoresBetweenDigits : List Char → Bool
  | a :: '_' :: b :: rest => isDigitChar a && isDigitChar b && underscoresBetweenDigits (b :: rest)
  | '_' :: _ => false
  | [_, '_'] => false
  | _ :: rest => underscoresBetweenDigits rest
  | [] => true

/-- Splits off an optional sign; the flag tells whether it was a minus. -/
def splitSign : List Char → Bool × List Char
  | '+' :: rest => (false, rest)
  | '-' :: rest => (true, rest)
  | chars => (false, chars)

/-- The exponent part after the mark: an optional sign and at least one digit, nothing after. -/
def readExponent? (chars : List Char) : Option Int :=
  let (negative, rest) := splitSign chars
  let (digits, tail) := spanDigits rest
  if digits.isEmpty || !tail.isEmpty then none
  else
    let value := Int.ofNat (digitsValue digits)
    some (if negative then -value else value)

/-- An unsigned finite numeral as its mantissa and exponent of ten. -/
def readUnsigned? (chars : List Char) : Option (Nat × Int) :=
  let (whole, rest) := spanDigits chars
  let (fraction, rest) := match rest with
    | '.' :: tail => spanDigits tail
    | _ => ([], rest)
  if whole.isEmpty && fraction.isEmpty then none
  else
    let mantissa := digitsValue (whole ++ fraction)
    let shift := Int.ofNat fraction.length
    match rest with
    | [] => some (mantissa, -shift)
    | mark :: tail =>
      if mark = 'e' || mark = 'E' then
        (readExponent? tail).map fun exponent => (mantissa, exponent - shift)
      else none

/-- A numeral without blanks and underscores. -/
def readPlain? (chars : List Char) : Option DecimalNumeral :=
  let (negative, rest) := splitSign chars
  let word := String.ofList (rest.map Char.toLower)
  if word = "inf" || word = "infinity" then some (.infinity negative)
  else if word = "nan" then some .nan
  else (readUnsigned? rest).map fun (mantissa, exponent) => .finite negative mantissa exponent

/-- The value of a decimal numeral, or `none` when the text is no decimal numeral. -/
def readDecimal? (text : String) : Option DecimalNumeral :=
  let chars := trimNumeral text.toList
  if underscoresBetweenDigits chars then readPlain? (chars.filter (· ≠ '_')) else none

/-- The binary64 number nearest to a finite decimal value, ties to even. -/
def nearestFloat (mantissa : Nat) (exponent : Int) : Float :=
  if exponent < 0 then Float.ofScientific mantissa true exponent.natAbs
  else Float.ofScientific mantissa false exponent.natAbs

/-- The binary64 number that a decimal numeral denotes. -/
def DecimalNumeral.toFloat : DecimalNumeral → Float
  | .finite negative mantissa exponent =>
    let magnitude := nearestFloat mantissa exponent
    if negative then -magnitude else magnitude
  | .infinity negative => if negative then -(1.0 / 0.0) else 1.0 / 0.0
  | .nan => 0.0 / 0.0

end Flowgraph.Number
