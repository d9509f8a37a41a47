import ChainFeed.Json
import ChainFeed.Table
import ChainFeed.Quantity.Numeral

/-!
# Reading documents into values

Every type that can be read has a function from documents to an optional value.
Here are the readers of the basic types and the combinators for records.

A record may be given by an object, whose last member of a name counts and
whose unknown members are ignored, or by an array of its fields in the order of
their declaration.  An absent optional field is none; an array, though, has to
reach every field that has no default.
-/

namespace ChainFeed

namespace Json

/-! ## Basic types -/

/-- A truth value. -/
def bool? : Json → Option Bool
  | bool value => some value
  | _ => none

/-- A text. -/
def text? : Json → Option String
  | str text => some text
  | _ => none

/-- A natural number below a bound, written as an integer. -/
def natBelow? (bound : Nat) : Json → Option Nat
  | int value => if 0 ≤ value ∧ value < bound then some value.toNat else none
  | _ => none

/-- An unsigned 64-bit integer. -/
def word64? (document : Json) : Option UInt64 :=
  (natBelow? UInt64.size document).map UInt64.ofNat

/-- An unsigned 32-bit integer. -/
def word32? (document : Json) : Option UInt32 :=
  (natBelow? UInt32.size document).map UInt32.ofNat

/-- A number below a bound, written as an integer or as a numeral. -/
def numeralBelow? (bound : Nat) : Json → Option Nat
  | str text => (Numeral.value? text).filter (· < bound)
  | document => natBelow? bound document

/-- A quantity. -/
def quantity? (document : Json) : Option Quantity :=
  (numeralBelow? (Nat.pow 2 256) document).map (BitVec.ofNat 256)

/-- A quantity that fits in 64 bits. -/
def quantity64? (document : Json) : Option UInt64 :=
  (numeralBelow? UInt64.size document).map UInt64.ofNat

/-- A value or null. -/
def nullable {α : Type} (read : Json → Option α) : Json → Option (Option α)
  | null => some none
  | document => (read document).map some

/-- All items of an array. -/
def list? {α : Type} (read : Json → Option α) : Json → Option (List α)
  | arr items => items.mapM read
  | _ => none

/-- A byte, written as an integer. -/
def byte? (document : Json) : Option UInt8 :=
  (natBelow? 256 document).map UInt8.ofNat

/-- A byte string: hexadecimal text, or a list of bytes. -/
def bytes? : Json → Option Bytes
  | str text => Bytes.ofText? text
  | document => (list? byte? document).map Bytes.mk

/-- Whether a list of bytes may go on like this where the width is reached: it ends,
or it has one last item that is no byte. -/
def mayFollowWord : List Json → Bool
  | [] => true
  | [item] => (byte? item).isNone
  | _ => false

/-- A byte string of fixed width: hexadecimal text, or a list of that many bytes.
A single item after them is passed over, unless it is one byte too many. -/
def word? {width : Nat} : Json → Option (FixedBytes width)
  | str text => FixedBytes.ofText? text
  | arr items =>
      if mayFollowWord (items.drop width) then
        (items.take width).mapM byte? >>= FixedBytes.ofList?
      else
        none
  | _ => none

/-- A byte string in text that may have lost a leading zero. -/
def unpaddedBytes? : Json → Option Bytes
  | str text => Bytes.ofUnpadded? text
  | _ => none

/-- A table from an object. Its members are taken in ascending order of their
names as written, so of two names for one key the larger one counts. -/
def table? {width : Nat} {α : Type} (read : Json → Option α) :
    Json → Option (Table width α)
  | obj members => do
      let bindings ← (distinctMembers members).mapM fun (name, document) => do
        let key ← FixedBytes.ofText? name
        let value ← read document
        pure (key, value)
      pure (Table.ofList bindings)
  | _ => none

/-- One of several names. A name may also stand as the only member of an object,
with null as its value. -/
def choice? {α : Type} (choices : List (String × α)) : Json → Option α
  | str name => choices.lookup name
  | obj members =>
      match distinctMembers members with
      | [(name, null)] => choices.lookup name
      | _ => none
  | _ => none

/-! ## Records -/

/-- What is left to read of a record. -/
inductive Record where
  | named (members : List (String × Json))
  | positional (values : List Json)

/-- What a record says about one field. -/
inductive Slot where
  | given (document : Json)
  /-- The object has no member of that name. -/
  | unnamed
  /-- The array has ended. -/
  | exhausted

/-- Reads some fields of a record and leaves the rest. -/
abbrev FieldReader (α : Type) := StateT Record Option α

/-- Looks up the next field. -/
def slot (name : String) : FieldReader Slot := fun
  | .named members =>
      match lastMember? name members with
      | some document => some (.given document, .named members)
      | none => some (.unnamed, .named members)
  | .positional [] => some (.exhausted, .positional [])
  | .positional (value :: rest) => some (.given value, .positional rest)

/-- A field that has to be there. -/
def required {α : Type} (name : String) (read : Json → Option α) : FieldReader α := do
  match ← slot name with
  | .given document => read document
  | .unnamed | .exhausted => failure

/-- A field that may be missing from an object, or null. -/
def optional {α : Type} (name : String) (read : Json → Option α) :
    FieldReader (Option α) := do
  match ← slot name with
  | .given document => nullable read document
  | .unnamed => pure none
  | .exhausted => failure

/-- A field that stands for its default when it is missing. -/
def defaulted {α : Type} (name : String) (read : Json → Option α) (default : α) :
    FieldReader α := do
  match ← slot name with
  | .given document => read document
  | .unnamed | .exhausted => pure default

/-- A field that may be null, or missing from an object or an array. -/
def omittable {α : Type} (name : String) (read : Json → Option α) :
    FieldReader (Option α) :=
  defaulted name (nullable read) none

/-- A switch, off unless it is given. -/
def flag (name : String) : FieldReader Bool :=
  defaulted name bool? false

/-- A record, from an object or from an array that is used up. -/
def record {α : Type} (fields : FieldReader α) : Json → Option α
  | obj members => (fields.run (.named members)).map Prod.fst
  | arr values =>
      match fields.run (.positional values) with
      | some (value, .positional []) => some value
      | _ => none
  | _ => none

/-- A record that has to be an object. -/
def objectRecord {α : Type} (fields : FieldReader α) : Json → Option α
  | obj members => (fields.run (.named members)).map Prod.fst
  | _ => none

/-- Whether an object has two members of one of the given names. -/
def repeatsAny (names : List String) : Json → Bool
  | obj members => names.any fun name => 1 < members.countP fun member => member.1 == name
  | _ => false

end Json

end ChainFeed
