import ChainFeed.Quantity

/-!
# Numerals of quantities

A numeral may name its radix by a mark: `0x` for sixteen, `0o` for eight, `0b`
for two, in either case; without a mark it is decimal.  Underscores between
digits are skipped, leading zeros are free, and no digits at all mean zero.
-/

namespace ChainFeed.Numeral

/-- The radix that a numeral's mark names, and the digits after the mark. -/
def splitMark : List Char → Nat × List Char
  | '0' :: 'x' :: digits => (16, digits)
  | '0' :: 'X' :: digits => (16, digits)
  | '0' :: 'o' :: digits => (8, digits)
  | '0' :: 'O' :: digits => (8, digits)
  | '0' :: 'b' :: digits => (2, digits)
  | '0' :: 'B' :: digits => (2, digits)
  | digits => (10, digits)

/-- The value of the digits read so far, continued by more digits of a radix. -/
def continue? (radix : Nat) (soFar : Nat) : List Char → Option Nat
  | [] => some soFar
  | '_' :: rest => continue? radix soFar rest
  | char :: rest =>
      match Hex.digit? char with
      | some value =>
          if value < radix then continue? radix (radix * soFar + value) rest else none
      | none => none

/-- The number that a numeral denotes. -/
def value? (text : String) : Option Nat :=
  let (radix, digits) := splitMark text.toList
  continue? radix 0 digits

end ChainFeed.Numeral
