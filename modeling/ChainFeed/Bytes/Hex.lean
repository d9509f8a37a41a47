import ChainFeed.Bytes

/-!
# Hexadecimal text of byte strings

A byte is written as two lower-case digits, the high half first, and a byte
string as `0x` followed by its bytes.  Reading accepts both cases, and the mark
`0x` or `0X` may be missing.
-/

namespace ChainFeed

namespace Hex

/-- The lower-case digit of a value below sixteen. -/
def digit (value : Nat) : Char :=
  if value < 10 then Char.ofNat (48 + value) else Char.ofNat (87 + value)

/-- The value of a digit in either case. -/
def digit? (char : Char) : Option Nat :=
  if 48 ≤ char.toNat ∧ char.toNat ≤ 57 then some (char.toNat - 48)
  else if 97 ≤ char.toNat ∧ char.toNat ≤ 102 then some (char.toNat - 87)
  else if 65 ≤ char.toNat ∧ char.toNat ≤ 70 then some (char.toNat - 55)
  else none

/-- Two digits per byte. -/
def encode : List UInt8 → List Char
  | [] => []
  | byte :: rest => digit (byte.toNat / 16) :: digit (byte.toNat % 16) :: encode rest

/-- Reads two digits per byte; a digit left over is refused. -/
def decode? : List Char → Option (List UInt8)
  | [] => some []
  | [_] => none
  | high :: low :: rest => do
      let highValue ← digit? high
      let lowValue ← digit? low
      let bytes ← decode? rest
      pure (UInt8.ofNat (16 * highValue + lowValue) :: bytes)

/-- Drops the mark of hexadecimal text, if there is one. -/
def dropMark : List Char → List Char
  | '0' :: 'x' :: digits => digits
  | '0' :: 'X' :: digits => digits
  | digits => digits

/-- Reads digits with or without the mark. -/
def decodeMarked? (text : List Char) : Option (List UInt8) :=
  decode? (dropMark text)

end Hex

namespace Bytes

/-- The marked hexadecimal text of a byte string; `0x` alone for the empty one. -/
def text (bytes : Bytes) : String :=
  String.ofList ('0' :: 'x' :: Hex.encode bytes.toList)

/-- Reads a byte string from hexadecimal text, marked or not. -/
def ofText? (text : String) : Option Bytes :=
  (Hex.decodeMarked? text.toList).map Bytes.mk

/-- Reads marked hexadecimal text whose first byte may have lost its leading
zero, as some nodes write it. The mark has to be `0x`; what follows it is read
like any hexadecimal text. -/
def ofUnpadded? (text : String) : Option Bytes :=
  match text.toList with
  | '0' :: 'x' :: digits =>
      let padded := if digits.length % 2 = 1 then '0' :: digits else digits
      (Hex.decodeMarked? padded).map Bytes.mk
  | _ => none

end Bytes

namespace FixedBytes

variable {width : Nat}

/-- The marked hexadecimal text, two digits for every byte. -/
def text (word : FixedBytes width) : String :=
  word.toBytes.text

/-- Reads a word from hexadecimal text with exactly two digits per byte. -/
def ofText? (text : String) : Option (FixedBytes width) :=
  Hex.decodeMarked? text.toList >>= ofList?

end FixedBytes

end ChainFeed
