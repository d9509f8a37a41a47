import ChainFeed.Binary64
import ChainFeed.Json
import ChainFeed.Quantity
import ChainFeed.Table

/-!
# Writing values as documents

Byte strings and quantities are written as hexadecimal text.  A 64-bit number is
written as decimal text, because many readers of documents keep no more than 53
bits of a number.  A value that is not there is left out of its object.
-/

namespace ChainFeed

namespace Json

/-- Members with a value; the others are left out. -/
def presentMembers (members : List (String × Option Json)) : List (String × Json) :=
  members.filterMap fun (name, value) => value.map (name, ·)

/-- An object of the members with a value. -/
def ofPresent (members : List (String × Option Json)) : Json :=
  obj (presentMembers members)

/-- A truth value per name. -/
def flags (members : List (String × Bool)) : List (String × Json) :=
  members.map fun (name, value) => (name, bool value)

/-- A natural number. -/
def ofNat (number : Nat) : Json := int number

/-- A 32-bit number. -/
def ofWord32 (number : UInt32) : Json := int number.toNat

/-- A 64-bit number. -/
def ofWord64 (number : UInt64) : Json := str (toString number)

/-- An array. -/
def ofList {α : Type} (write : α → Json) (values : List α) : Json := arr (values.map write)

/-- A value, or null. -/
def orNull {α : Type} (write : α → Json) (value : Option α) : Json :=
  (value.map write).getD null

/-- An array, unless there is nothing in it. -/
def unlessEmpty {α : Type} (write : α → Json) : List α → Option Json
  | [] => none
  | values => some (ofList write values)

end Json

/-- A byte string as a document. -/
def Bytes.toJson (bytes : Bytes) : Json := .str bytes.text

/-- A word as a document. -/
def FixedBytes.toJson {width : Nat} (word : FixedBytes width) : Json := .str word.text

/-- A quantity as a document. -/
def Quantity.toJson (quantity : Quantity) : Json := .str quantity.text

/-- A floating-point number as a document: its bits, but one text for all that is
no number. -/
def Binary64.toJson (value : Binary64) : Json :=
  if value.isNaN then
    .str "nan"
  else
    Bytes.toJson
      ⟨(List.range 8).map fun index =>
        UInt8.ofNat (value.bits.toNat / Nat.pow 256 (7 - index) % 256)⟩

/-- A table as an object, with the text of the keys for names. -/
def Table.toJson {width : Nat} {α : Type} (write : α → Json) (table : Table width α) : Json :=
  .obj (table.entries.map fun (key, value) => (key.text, write value))

end ChainFeed
