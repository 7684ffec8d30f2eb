import Flowgraph.Number.Shortest

/-!
**The text of a binary64 number.**

A number is written with its shortest digits. Its decimal exponent (the exponent of ten of its
first digit) decides the layout: from -4 to 15 the number is written positionally, with `.0`
after an integral value; otherwise as a mantissa with a point after the first digit (left out
when there is one digit), `e`, the exponent's sign and at least two exponent digits. Zero keeps
its sign; the infinities are `inf` and `-inf` and every NaN is `nan`.
-/

namespace Flowgraph.Number

/-- The choices of a number layout. -/
structure FloatLayout where
  /-- The least decimal exponent written positionally. -/
  positionalFrom : Int
  /-- The least decimal exponent written with an exponent, above the positional ones. -/
  positionalUpTo : Int
  /-- The least number of exponent digits. -/
  exponentWidth : Nat
  infinity : String
  notANumber : String

/-- The layout of numbers in reports and messages. -/
def FloatLayout.standard : FloatLayout := ⟨-4, 16, 2, "inf", "nan"⟩

/-- The digits of `digits × 10 ^ power` written positionally. -/
def positional (digits : List Char) (point : Int) : String :=
  if point ≤ 0 then
    "0." ++ String.ofList (List.replicate point.natAbs '0' ++ digits)
  else if point.toNat < digits.length then
    String.ofList (digits.take point.toNat) ++ "." ++ String.ofList (digits.drop point.toNat)
  else
    String.ofList (digits ++ List.replicate (point.toNat - digits.length) '0') ++ ".0"

/-- The digits written as a mantissa and an exponent of ten. -/
def scientific (layout : FloatLayout) (digits : List Char) (exponent : Int) : String :=
  let mantissa := match digits with
    | first :: rest@(_ :: _) => String.ofList (first :: '.' :: rest)
    | _ => String.ofList digits
  let expDigits := Nat.toDigits 10 exponent.natAbs
  let padded := List.replicate (layout.exponentWidth - expDigits.length) '0' ++ expDigits
  mantissa ++ "e" ++ (if exponent < 0 then "-" else "+") ++ String.ofList padded

/-- The text of a finite positive number given by its shortest digits. -/
def FloatLayout.writeDigits (layout : FloatLayout) (value : Nat) (power : Int) : String :=
  let digits := Nat.toDigits 10 value
  -- the point stands after `point` digits; the first digit has exponent `point - 1`
  let point := Int.ofNat digits.length + power
  if layout.positionalFrom ≤ point - 1 && point - 1 < layout.positionalUpTo then
    positional digits point
  else scientific layout digits (point - 1)

/-- The text of a binary64 number. -/
def FloatLayout.write (layout : FloatLayout) (x : Float) : String :=
  let bits := x.toBits
  let sign := if bits >>> 63 = 1 then "-" else ""
  let magnitude := bits &&& 0x7FFFFFFFFFFFFFFF
  if magnitude = 0 then sign ++ "0.0"
  else if magnitude = 0x7FF0000000000000 then sign ++ layout.infinity
  else if magnitude > 0x7FF0000000000000 then layout.notANumber
  else
    let (value, power) := (Binary.ofBits magnitude).shortest
    sign ++ layout.writeDigits value power

/-- The text of a binary64 number in the standard layout. -/
def floatText (x : Float) : String := FloatLayout.standard.write x

end Flowgraph.Number
