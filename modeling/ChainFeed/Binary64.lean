/-!
# Floating-point numbers from decimal text

A fee scalar is written by nodes as decimal text and kept as a 64-bit
floating-point number.  The number is represented by its bits; reading rounds
the exact decimal value to the nearest representable one, a tie to the one with
an even last bit.
-/

namespace ChainFeed

/-- A floating-point number of 64 bits, by its bits. -/
structure Binary64 where
  bits : UInt64
  deriving DecidableEq, Inhabited, Repr

namespace Binary64

/-- A quotient of naturals rounded to the nearest natural, a tie to the even one. -/
def roundedQuotient (numerator denominator : Nat) : Nat :=
  let quotient := numerator / denominator
  let twice := 2 * (numerator % denominator)
  if twice < denominator then quotient
  else if denominator < twice then quotient + 1
  else quotient + quotient % 2

/-- The fraction `numerator / denominator / 2 ^ exponent`. -/
def scaled (numerator denominator : Nat) (exponent : Int) : Nat × Nat :=
  if 0 ≤ exponent then
    (numerator, denominator * Nat.pow 2 exponent.toNat)
  else
    (numerator * Nat.pow 2 (-exponent).toNat, denominator)

/-- Exponent of the last bit of the significand of a positive fraction: the
significand takes 53 bits, unless that would go below the smallest exponent. -/
def unitExponent (numerator denominator : Nat) : Int :=
  let estimate : Int := Nat.log2 numerator - Nat.log2 denominator - 52
  let (scaledNumerator, scaledDenominator) := scaled numerator denominator estimate
  let exact := if scaledNumerator / scaledDenominator < Nat.pow 2 52 then estimate - 1 else estimate
  max (-1074) exact

/-- Bits of infinity, above those of every finite magnitude. -/
def infinityBits : Nat := 0x7ff0000000000000

/-- Bits of the magnitude nearest to a positive fraction. A significand that is
rounded up to 2 ^ 53 carries into the exponent by itself. -/
def fractionBits (numerator denominator : Nat) : Nat :=
  let exponent := unitExponent numerator denominator
  let (scaledNumerator, scaledDenominator) := scaled numerator denominator exponent
  let significand := roundedQuotient scaledNumerator scaledDenominator
  min infinityBits ((exponent + 1074).toNat * Nat.pow 2 52 + significand)

/-- Bits of the magnitude nearest to `mantissa * 10 ^ exponent`. Beyond 310
digits before the point all magnitudes are infinite, and below 330 zeros after
it all are zero, so no larger power is computed. -/
def decimalBits (mantissa : Nat) (exponent : Int) : Nat :=
  let size : Int := (Nat.toDigits 10 mantissa).length + exponent
  if mantissa = 0 ∨ size < -330 then 0
  else if 310 < size then infinityBits
  else if 0 ≤ exponent then fractionBits (mantissa * Nat.pow 10 exponent.toNat) 1
  else fractionBits mantissa (Nat.pow 10 (-exponent).toNat)

/-- The bits of a magnitude with a sign. -/
def signed (negative : Bool) (magnitude : Nat) : Binary64 :=
  ⟨UInt64.ofNat (if negative then Nat.pow 2 63 + magnitude else magnitude)⟩

/-- Whether the bits stand for no number. -/
def isNaN (value : Binary64) : Bool :=
  decide (infinityBits < value.bits.toNat % Nat.pow 2 63)

/-- The value of a string of decimal digits. -/
def digitsValue (digits : List Char) : Nat :=
  digits.foldl (fun value digit => 10 * value + (digit.toNat - 48)) 0

/-- Splits off a sign; the flag says whether it is a minus. -/
def splitSign : List Char → Bool × List Char
  | '-' :: rest => (true, rest)
  | '+' :: rest => (false, rest)
  | rest => (false, rest)

/-- Reads what follows the digits of a number: nothing, or an exponent. -/
def exponent? : List Char → Option Int
  | [] => some 0
  | mark :: rest =>
      if mark = 'e' ∨ mark = 'E' then
        let (negative, digits) := splitSign rest
        if digits ≠ [] ∧ digits.all Char.isDigit then
          some (if negative then -(digitsValue digits : Int) else digitsValue digits)
        else
          none
      else
        none

/-- Reads the digits of a number, with an optional point among them. -/
def magnitude? (text : List Char) : Option Nat :=
  let whole := text.takeWhile Char.isDigit
  let (fraction, rest) :=
    match text.dropWhile Char.isDigit with
    | '.' :: rest => (rest.takeWhile Char.isDigit, rest.dropWhile Char.isDigit)
    | rest => ([], rest)
  if whole.isEmpty ∧ fraction.isEmpty then
    none
  else
    (exponent? rest).map fun exponent =>
      decimalBits (digitsValue (whole ++ fraction)) (exponent - fraction.length)

/-- Reads a number from text: an optional sign, then a word for infinity or for
no number in any case, or decimal digits with an optional point and exponent. -/
def ofText? (text : String) : Option Binary64 :=
  let (negative, body) := splitSign text.toList
  let word := String.ofList (body.map Char.toLower)
  if word = "inf" ∨ word = "infinity" then
    some (signed negative infinityBits)
  else if word = "nan" then
    some (signed negative (infinityBits + Nat.pow 2 51))
  else
    (magnitude? body).map (signed negative)

end Binary64

end ChainFeed
