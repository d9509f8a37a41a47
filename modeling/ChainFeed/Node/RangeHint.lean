import ChainFeed.Bytes.Hex
import ChainFeed.Text.Search

/-!
# Range hints

A node that refuses a range of blocks as too large may suggest a smaller one, in
the words "try with this block range" and two bracketed numerals.  The hint is
read in any case, at its first occurrence.
-/

namespace ChainFeed

/-- A range of heights with both ends in it. -/
structure HeightRange where
  first : UInt64
  last : UInt64
  deriving DecidableEq, Inhabited, Repr

namespace RangeHint

/-- Splits off the hexadecimal digits at the start of a text; there has to be one. -/
def digits? (text : List Char) : Option (List Char × List Char) :=
  let isDigit := fun char => (Hex.digit? char).isSome
  let digits := text.takeWhile isDigit
  if digits.isEmpty then none else some (digits, text.dropWhile isDigit)

/-- Reads the digits of both ends of a hint that starts a text in lower case. -/
def atStart? (text : List Char) : Option (List Char × List Char) := do
  let text ← Text.after? "try with this block range [0x".toList text
  let (first, text) ← digits? text
  let text ← Text.after? ", 0x".toList text
  let (last, text) ← digits? text
  let _ ← Text.after? "]".toList text
  pure (first, last)

/-- The digits of both ends of the first hint in a text in lower case. -/
def find? : List Char → Option (List Char × List Char)
  | [] => none
  | char :: rest =>
      match atStart? (char :: rest) with
      | some hint => some hint
      | none => find? rest

/-- The value of hexadecimal digits, if it fits in 64 bits. -/
def height? (digits : List Char) : Option UInt64 :=
  let value := digits.foldl (fun value digit => 16 * value + (Hex.digit? digit).getD 0) 0
  if value < UInt64.size then some (UInt64.ofNat value) else none

end RangeHint

/-- The range that a message suggests, unless its ends are in the wrong order. -/
def HeightRange.suggested? (message : String) : Option HeightRange := do
  let (firstDigits, lastDigits) ← RangeHint.find? (message.toList.map Text.foldCase)
  let first ← RangeHint.height? firstDigits
  let last ← RangeHint.height? lastDigits
  if first ≤ last then some { first, last } else none

end ChainFeed
