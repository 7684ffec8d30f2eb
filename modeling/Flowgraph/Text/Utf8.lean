/-!
**Decoding UTF-8.**

Bytes are decoded as UTF-8 sequences. The first byte that cannot begin a sequence (a
continuation byte, `0xC0`, `0xC1` or a byte above `0xF4`) is an invalid start byte. A sequence
whose `k`-th continuation byte is missing or out of range is an invalid continuation byte
covering the first `k` bytes of the sequence; the second byte after `0xE0` must be at least
`0xA0`, after `0xED` below `0xA0`, after `0xF0` at least `0x90`, and after `0xF4` below `0x90`,
so that overlong forms, surrogates and code points above U+10FFFF are refused. A sequence cut
short by the end of the bytes, whose present bytes are fine, is unexpected end of data, covering
the bytes up to the end.
-/

namespace Flowgraph.Text

/-- Why bytes are not UTF-8: the reason and the byte positions `[start, stop)` it covers. -/
structure Utf8Error where
  reason : String
  start : Nat
  stop : Nat
  /-- The first byte of the offending sequence. -/
  firstByte : UInt8
  deriving Repr, DecidableEq

/-- The two lowercase hexadecimal digits of a byte. -/
def byteHex (b : UInt8) : String :=
  let digits := Nat.toDigits 16 b.toNat
  String.ofList (List.replicate (2 - digits.length) '0' ++ digits)

/-- The text of a decoding error, naming the codec `utf-8`. -/
def Utf8Error.message (e : Utf8Error) : String :=
  if e.stop = e.start + 1 then
    "'utf-8' codec can't decode byte 0x" ++ byteHex e.firstByte ++ " in position " ++
      toString e.start ++ ": " ++ e.reason
  else
    "'utf-8' codec can't decode bytes in position " ++ toString e.start ++ "-" ++
      toString (e.stop - 1) ++ ": " ++ e.reason

namespace Utf8

/-- Whether a byte continues a sequence. -/
def isContinuation (b : UInt8) : Bool := 0x80 ≤ b && b ≤ 0xBF

/-- The length of the sequence that a byte begins, or `none` for an invalid start byte. -/
def sequenceLength (b : UInt8) : Option Nat :=
  if b < 0x80 then some 1
  else if 0xC2 ≤ b && b ≤ 0xDF then some 2
  else if 0xE0 ≤ b && b ≤ 0xEF then some 3
  else if 0xF0 ≤ b && b ≤ 0xF4 then some 4
  else none

/-- Whether `second` may follow the lead byte `lead`. -/
def secondFits (lead second : UInt8) : Bool :=
  isContinuation second &&
    (if lead = 0xE0 then 0xA0 ≤ second
     else if lead = 0xED then second < 0xA0
     else if lead = 0xF0 then 0x90 ≤ second
     else if lead = 0xF4 then second < 0x90
     else true)

/-- The code point of a complete, checked sequence. -/
def codePoint : List UInt8 → Nat
  | [a] => a.toNat
  | [a, b] => (a.toNat % 0x20) * 0x40 + b.toNat % 0x40
  | [a, b, c] => ((a.toNat % 0x10) * 0x40 + b.toNat % 0x40) * 0x40 + c.toNat % 0x40
  | [a, b, c, d] =>
    (((a.toNat % 0x08) * 0x40 + b.toNat % 0x40) * 0x40 + c.toNat % 0x40) * 0x40 + d.toNat % 0x40
  | _ => 0

/-- How many bytes after the lead byte are good continuation bytes, looking at most at
`wanted` of them. -/
def goodContinuations (lead : UInt8) (rest : List UInt8) (wanted : Nat) : Nat :=
  match rest.take wanted with
  | [] => 0
  | second :: more =>
    if secondFits lead second then 1 + (more.takeWhile isContinuation).length else 0

/-- Decodes bytes starting at position `pos`, with the characters decoded so far, last first. -/
def decodeFrom (pos : Nat) (acc : List Char) : List UInt8 → Except Utf8Error (List Char)
  | [] => .ok acc.reverse
  | lead :: rest =>
    match sequenceLength lead with
    | none => .error ⟨"invalid start byte", pos, pos + 1, lead⟩
    | some 1 => decodeFrom (pos + 1) (Char.ofNat lead.toNat :: acc) rest
    | some n =>
      let good := goodContinuations lead rest (n - 1)
      if good = n - 1 then
        decodeFrom (pos + n) (Char.ofNat (codePoint (lead :: rest.take (n - 1))) :: acc)
          (rest.drop (n - 1))
      else if good = rest.length then
        .error ⟨"unexpected end of data", pos, pos + 1 + rest.length, lead⟩
      else .error ⟨"invalid continuation byte", pos, pos + 1 + good, lead⟩
termination_by bytes => bytes.length
decreasing_by all_goals (simp only [List.length_drop, List.length_cons]; omega)

end Utf8

/-- The text that bytes encode in UTF-8. -/
def decodeUtf8 (bytes : List UInt8) : Except Utf8Error String :=
  (Utf8.decodeFrom 0 [] bytes).map String.ofList

/-- Replaces every carriage return and every carriage return followed by a newline by one
newline. -/
def normalizeNewlines : List Char → List Char
  | '\r' :: '\n' :: rest => '\n' :: normalizeNewlines rest
  | '\r' :: rest => '\n' :: normalizeNewlines rest
  | c :: rest => c :: normalizeNewlines rest
  | [] => []

end Flowgraph.Text
