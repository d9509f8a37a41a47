import ChainFeed.Bytes.Hex

/-!
# Quantities

Amounts, gas and prices are unsigned 256-bit numbers.  Their text is the
shortest hexadecimal numeral, and as data they are the shortest big-endian byte
string; both keep one digit for zero.
-/

namespace ChainFeed

/-- An unsigned number of 256 bits. -/
abbrev Quantity := BitVec 256

/-- Digits of a number in a base of at least two, most significant first and
without leading zeros; zero has the single digit zero. -/
def digitsOf (base number : Nat) : List Nat :=
  if number < base ∨ base < 2 then
    [number]
  else
    digitsOf base (number / base) ++ [number % base]
termination_by number
decreasing_by exact Nat.div_lt_self (by omega) (by omega)

/-- The shortest hexadecimal numeral of a number, marked with `0x`. -/
def hexNumeral (number : Nat) : String :=
  String.ofList ('0' :: 'x' :: (digitsOf 16 number).map Hex.digit)

namespace Quantity

/-- The shortest hexadecimal numeral of a quantity. -/
def text (quantity : Quantity) : String :=
  hexNumeral quantity.toNat

/-- The shortest big-endian byte string of a quantity. It has no leading zero
byte, but the one byte of zero. -/
def toBytes (quantity : Quantity) : Bytes :=
  ⟨(digitsOf 256 quantity.toNat).map UInt8.ofNat⟩

end Quantity

end ChainFeed
