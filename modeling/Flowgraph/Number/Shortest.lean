/-!
**Shortest decimal digits of a binary64 number.**

A finite positive binary64 number `m × 2 ^ q` stands for every real that rounds to it: the
reals strictly between the midpoints to its two neighbours, the midpoints included when `m` is
even. The shortest digits of the number are the decimal `d × 10 ^ p` in that interval with the
fewest digits in `d`; of two such decimals the nearer to the number is taken, and of two equally
near the one with an even last digit.

For each count of digits the search tests only the two neighbours of the number on the decimal
grid of that count: if any point of the grid lies in the interval, one of these two does.
-/

namespace Flowgraph.Number

/-- A finite positive binary64 number `mantissa × 2 ^ exponent`, with the spacing of its lower
neighbour: `lowerIsCloser` holds when the lower neighbour is half as far as the upper one. -/
structure Binary where
  mantissa : Nat
  exponent : Int
  lowerIsCloser : Bool

/-- Splits the bits of a finite nonzero binary64 number into its mantissa and exponent. -/
def Binary.ofBits (bits : UInt64) : Binary :=
  let fraction := (bits &&& 0xFFFFFFFFFFFFF).toNat
  let biased := ((bits >>> 52) &&& 0x7FF).toNat
  if biased = 0 then ⟨fraction, -1074, false⟩
  else ⟨fraction + Nat.pow 2 52, Int.ofNat biased - 1075, fraction = 0 && biased > 1⟩

/-- An exact positive rational `num / den`. -/
structure Ratio where
  num : Nat
  den : Nat

/-- The rational `4 × 2 ^ -exponent × value` of the scaled decimal `value × 10 ^ power`,
measured in quarters of the unit `2 ^ exponent`. -/
def scaled (exponent : Int) (value : Nat) (power : Int) : Ratio :=
  let twos := 2 - exponent
  ⟨value * Nat.pow 10 power.toNat * Nat.pow 2 twos.toNat,
    Nat.pow 10 (-power).toNat * Nat.pow 2 (-twos).toNat⟩

/-- The decimal exponent `k` of a positive rational: `10 ^ k ≤ num / den < 10 ^ (k + 1)`. -/
def decimalExponent (r : Ratio) : Int :=
  let guess : Int := Int.ofNat (toString r.num).length - Int.ofNat (toString r.den).length
  -- the guess is the exponent or one more than it
  let below (k : Int) : Bool :=
    Nat.pow 10 k.toNat * r.den ≤ r.num * Nat.pow 10 (-k).toNat
  if below guess then guess else guess - 1

/-- Whether the decimal `value × 10 ^ power` rounds to the number `b`. -/
def Binary.holds (b : Binary) (value : Nat) (power : Int) : Bool :=
  let c := scaled b.exponent value power
  let low := 4 * b.mantissa - (if b.lowerIsCloser then 1 else 2)
  let high := 4 * b.mantissa + 2
  if b.mantissa % 2 = 0 then low * c.den ≤ c.num && c.num ≤ high * c.den
  else low * c.den < c.num && c.num < high * c.den

/-- The distance from the decimal `value × 10 ^ power` to the number, in a unit that depends on
`power` only. -/
def Binary.distance (b : Binary) (value : Nat) (power : Int) : Nat :=
  let c := scaled b.exponent value power
  let v := 4 * b.mantissa * c.den
  if c.num ≤ v then v - c.num else c.num - v

/-- Chooses between the two neighbours `lo` and `lo + 1` on the grid `10 ^ power`. -/
def Binary.pick (b : Binary) (lo : Nat) (power : Int) : Option Nat :=
  let hi := lo + 1
  match b.holds lo power, b.holds hi power with
  | true, true =>
    let dlo := b.distance lo power
    let dhi := b.distance hi power
    if dlo < dhi then some lo
    else if dhi < dlo then some hi
    else if lo % 2 = 0 then some lo else some hi
  | true, false => some lo
  | false, true => some hi
  | false, false => none

/-- Removes trailing zeros of `value`, raising `power` by one for each. -/
def dropTrailingZeros (value : Nat) (power : Int) (fuel : Nat) : Nat × Int :=
  match fuel with
  | 0 => (value, power)
  | fuel + 1 =>
    if value ≠ 0 && value % 10 = 0 then dropTrailingZeros (value / 10) (power + 1) fuel
    else (value, power)

/-- The shortest decimal `value × 10 ^ power` that rounds to `b`, trying `count` digits and then
more, up to `count + fuel`. -/
def Binary.searchFrom (b : Binary) (k : Int) (count : Nat) : Nat → Nat × Int
  | 0 => (b.mantissa, 0)
  | fuel + 1 =>
    let power := k + 1 - Int.ofNat count
    let v := scaled b.exponent 1 power
    -- the neighbour below on the grid: the largest `d` with `d × 10 ^ power ≤ value`
    let lo := 4 * b.mantissa * v.den / v.num
    match b.pick lo power with
    | some value => dropTrailingZeros value power (count + 1)
    | none => b.searchFrom k (count + 1) fuel

/-- The shortest digits of a finite positive binary64 number, as `(digits, power)` with
`digits × 10 ^ power` the chosen decimal and no trailing zero in `digits`. Seventeen digits
always suffice. -/
def Binary.shortest (b : Binary) : Nat × Int :=
  let value := scaled b.exponent 1 0
  -- `value` is the unit `10 ^ 0` in quarters of `2 ^ exponent`; the number is `4 × mantissa` of them
  let k := decimalExponent ⟨4 * b.mantissa * value.den, value.num⟩
  b.searchFrom k 1 17

end Flowgraph.Number
