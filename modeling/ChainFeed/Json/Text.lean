import ChainFeed.Json
import ChainFeed.Bytes.Hex

/-!
# JSON text

Reading and writing documents.  Reading follows the grammar strictly: one value,
nothing but blanks around it, no trailing commas, no leading zeros.  The reader
takes a bound on the number of its steps; a text never needs more than two steps
for each of its characters, so the bound set by `parse?` is never reached.
-/

namespace ChainFeed.Json

/-! ## Reading -/

/-- Drops blanks. -/
def skipBlanks : List Char → List Char
  | ' ' :: rest => skipBlanks rest
  | '\t' :: rest => skipBlanks rest
  | '\n' :: rest => skipBlanks rest
  | '\r' :: rest => skipBlanks rest
  | rest => rest

/-- Reads the four digits of a numeric escape. -/
def escapeUnit? : List Char → Option (Nat × List Char)
  | a :: b :: c :: d :: rest => do
      let first ← Hex.digit? a
      let second ← Hex.digit? b
      let third ← Hex.digit? c
      let fourth ← Hex.digit? d
      pure (((first * 16 + second) * 16 + third) * 16 + fourth, rest)
  | _ => none

/-- The character that a one-letter escape stands for. -/
def escapedChar? : Char → Option Char
  | '"' => some '"'
  | '\\' => some '\\'
  | '/' => some '/'
  | 'b' => some '\x08'
  | 'f' => some '\x0c'
  | 'n' => some '\n'
  | 'r' => some '\r'
  | 't' => some '\t'
  | _ => none

/-- A piece of a string literal: a 16-bit unit of an escape, or a character. -/
inductive Piece where
  | unit (value : Nat)
  | char (value : Char)

/-- Joins the pieces of a literal. A high surrogate must be followed at once by
a low one, and the two stand for one character. -/
def joinPieces : List Piece → Option (List Char)
  | [] => some []
  | .char value :: rest => (joinPieces rest).map (value :: ·)
  | .unit high :: .unit low :: rest =>
      if 0xd800 ≤ high ∧ high < 0xdc00 then
        if 0xdc00 ≤ low ∧ low < 0xe000 then
          (joinPieces rest).map
            (Char.ofNat (0x10000 + (high - 0xd800) * 0x400 + (low - 0xdc00)) :: ·)
        else
          none
      else if 0xdc00 ≤ high ∧ high < 0xe000 then
        none
      else
        (joinPieces (.unit low :: rest)).map (Char.ofNat high :: ·)
  | .unit value :: rest =>
      if 0xd800 ≤ value ∧ value < 0xe000 then none
      else (joinPieces rest).map (Char.ofNat value :: ·)

/-- An object from its members; a member name that is no text spoils it. -/
def objectOf (members : List (Option String × Json)) : Json :=
  match members.mapM fun (name, value) => name.map (·, value) with
  | some named => .obj named
  | none => .unpaired

/-- Reads a string literal after its opening quote, up to the closing one. -/
def pieces? : List Char → Option (List Piece × List Char)
  | [] => none
  | '"' :: rest => some ([], rest)
  | '\\' :: 'u' :: a :: b :: c :: d :: rest => do
      let (value, _) ← escapeUnit? [a, b, c, d]
      let (later, remaining) ← pieces? rest
      pure (.unit value :: later, remaining)
  | '\\' :: letter :: rest => do
      let char ← escapedChar? letter
      let (later, remaining) ← pieces? rest
      pure (.char char :: later, remaining)
  | char :: rest =>
      if char.toNat < 32 ∨ char = '\\' then
        none
      else do
        let (later, remaining) ← pieces? rest
        pure (.char char :: later, remaining)

/-- The value of a string of decimal digits. -/
def naturalOf (digits : List Char) : Nat :=
  digits.foldl (fun value digit => 10 * value + (digit.toNat - 48)) 0

/-- Whether digits can be the whole part of a number: at least one, and no zero
before others. -/
def wholePart : List Char → Bool
  | [] => false
  | ['0'] => true
  | '0' :: _ => false
  | _ => true

/-- Splits off the digits of a fraction, if a point follows. -/
def fraction? : List Char → Option (Option (List Char) × List Char)
  | '.' :: rest =>
      let digits := rest.takeWhile Char.isDigit
      if digits.isEmpty then none else some (some digits, rest.dropWhile Char.isDigit)
  | rest => some (none, rest)

/-- Splits off an exponent, if its mark follows. -/
def exponent? : List Char → Option (Option Int × List Char)
  | [] => some (none, [])
  | mark :: rest =>
      if mark = 'e' ∨ mark = 'E' then
        let (negative, unsigned) :=
          match rest with
          | '-' :: unsigned => (true, unsigned)
          | '+' :: unsigned => (false, unsigned)
          | unsigned => (false, unsigned)
        let digits := unsigned.takeWhile Char.isDigit
        if digits.isEmpty then
          none
        else
          let size : Int := naturalOf digits
          some (some (if negative then -size else size), unsigned.dropWhile Char.isDigit)
      else
        some (none, mark :: rest)

/-- A number from its parts. It is an integer only if it is written without
fraction and exponent, fits in 64 bits, signed or not, and is not minus zero. -/
def numberOf (negative : Bool) (whole : List Char) (fraction : Option (List Char))
    (exponent : Option Int) : Json :=
  let size := naturalOf whole
  match fraction, exponent with
  | none, none =>
      let integer : Int := if negative then -(size : Int) else size
      if (negative ∧ size = 0) ∨ integer < Int64.minValue.toInt ∨ UInt64.size ≤ integer then
        .decimal ⟨negative, size, 0⟩
      else
        .int integer
  | _, _ =>
      let places := fraction.getD []
      .decimal ⟨negative, naturalOf (whole ++ places), exponent.getD 0 - places.length⟩

/-- Reads a number. -/
def number? (text : List Char) : Option (Json × List Char) := do
  let (negative, unsigned) :=
    match text with
    | '-' :: unsigned => (true, unsigned)
    | unsigned => (false, unsigned)
  let whole := unsigned.takeWhile Char.isDigit
  if wholePart whole then
    let (fraction, afterFraction) ← fraction? (unsigned.dropWhile Char.isDigit)
    let (exponent, rest) ← exponent? afterFraction
    pure (numberOf negative whole fraction exponent, rest)
  else
    none

mutual

/-- Reads one value from the start of a text without leading blanks. -/
def value? : (steps : Nat) → List Char → Option (Json × List Char)
  | 0, _ => none
  | steps + 1, text =>
      match text with
      | 'n' :: 'u' :: 'l' :: 'l' :: rest => some (.null, rest)
      | 't' :: 'r' :: 'u' :: 'e' :: rest => some (.bool true, rest)
      | 'f' :: 'a' :: 'l' :: 's' :: 'e' :: rest => some (.bool false, rest)
      | '"' :: literal => do
          let (pieces, rest) ← pieces? literal
          match joinPieces pieces with
          | some chars => pure (.str (String.ofList chars), rest)
          | none => pure (.unpaired, rest)
      | '[' :: inner =>
          match skipBlanks inner with
          | ']' :: rest => some (.arr [], rest)
          | first => do
              let (items, rest) ← items? steps first
              pure (.arr items, rest)
      | '\x7b' :: inner =>
          match skipBlanks inner with
          | '\x7d' :: rest => some (.obj [], rest)
          | first => do
              let (members, rest) ← members? steps first
              pure (objectOf members, rest)
      | other => number? other

/-- Reads the items of an array up to its closing bracket. -/
def items? : (steps : Nat) → List Char → Option (List Json × List Char)
  | 0, _ => none
  | steps + 1, text => do
      let (item, rest) ← value? steps text
      match skipBlanks rest with
      | ']' :: remaining => pure ([item], remaining)
      | ',' :: following =>
          let (items, remaining) ← items? steps (skipBlanks following)
          pure (item :: items, remaining)
      | _ => none

/-- Reads the members of an object up to its closing brace. -/
def members? : (steps : Nat) → List Char → Option (List (Option String × Json) × List Char)
  | 0, _ => none
  | steps + 1, text =>
      match text with
      | '"' :: literal => do
          let (pieces, afterName) ← pieces? literal
          let name := (joinPieces pieces).map String.ofList
          match skipBlanks afterName with
          | ':' :: afterColon =>
              let (value, rest) ← value? steps (skipBlanks afterColon)
              match skipBlanks rest with
              | '\x7d' :: remaining => pure ([(name, value)], remaining)
              | ',' :: following =>
                  let (members, remaining) ← members? steps (skipBlanks following)
                  pure ((name, value) :: members, remaining)
              | _ => none
          | _ => none
      | _ => none

end

/-- Reads a text that is one document. -/
def parse? (text : String) : Option Json := do
  let chars := text.toList
  let (value, rest) ← value? (2 * chars.length + 2) (skipBlanks chars)
  if (skipBlanks rest).isEmpty then some value else none

/-! ## Writing -/

/-- One character inside a string literal. -/
def literalChar (char : Char) : List Char :=
  if char = '"' ∨ char = '\\' then
    ['\\', char]
  else if char.toNat < 32 then
    ['\\', 'u', '0', '0', Hex.digit (char.toNat / 16), Hex.digit (char.toNat % 16)]
  else
    [char]

/-- A string literal. -/
def literal (text : String) : List Char :=
  '"' :: text.toList.flatMap literalChar ++ ['"']

mutual

/-- The characters of a document, without blanks. -/
def chars : Json → List Char
  | null => "null".toList
  | bool true => "true".toList
  | bool false => "false".toList
  | int value => (toString value).toList
  | decimal value =>
      (if value.negative then ['-'] else []) ++
        (toString value.digits).toList ++ 'e' :: (toString value.exponent).toList
  | str text => literal text
  | unpaired => "null".toList
  | arr items => '[' :: charsItems true items ++ [']']
  | obj members => '\x7b' :: charsMembers true members ++ ['\x7d']

/-- The characters of array items, each but the first after a comma. -/
def charsItems (first : Bool) : List Json → List Char
  | [] => []
  | item :: rest => (if first then [] else [',']) ++ item.chars ++ charsItems false rest

/-- The characters of members, each but the first after a comma. -/
def charsMembers (first : Bool) : List (String × Json) → List Char
  | [] => []
  | (name, value) :: rest =>
      (if first then [] else [',']) ++ literal name ++ ':' :: value.chars ++
        charsMembers false rest

end

/-- The text of a document, without blanks. -/
def render (document : Json) : String :=
  String.ofList document.chars

end ChainFeed.Json
