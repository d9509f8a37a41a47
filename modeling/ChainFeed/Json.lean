/-!
# JSON documents

What a node answers and what a caller asks for are JSON documents.  The tree
keeps the members of an object as they were written, repeated names included;
how a repeated name counts is decided where the object is read.  Integers of
64 bits, signed or not, are told apart from all other numbers, which are kept as
exact decimals.
-/

namespace ChainFeed

/-- A number that is no 64-bit integer: `digits * 10 ^ exponent` with a sign. -/
structure Decimal where
  negative : Bool
  digits : Nat
  exponent : Int
  deriving DecidableEq, Inhabited, Repr

/-- A JSON document. -/
inductive Json where
  | null
  | bool (value : Bool)
  | int (value : Int)
  | decimal (value : Decimal)
  | str (text : String)
  /-- A string literal, or an object with a member name, that is well formed but
  no text, because it holds an unpaired surrogate. -/
  | unpaired
  | arr (items : List Json)
  | obj (members : List (String × Json))
  deriving Inhabited

namespace Json

/-- The value of the last member with a name. -/
def lastMember? (name : String) : List (String × Json) → Option Json
  | [] => none
  | (other, value) :: rest =>
      match lastMember? name rest with
      | some later => some later
      | none => if other = name then some value else none

/-- Place a member before the first larger name; an equal name is replaced. -/
def insertMember (name : String) (value : Json) :
    List (String × Json) → List (String × Json)
  | [] => [(name, value)]
  | (other, old) :: rest =>
      if name < other then
        (name, value) :: (other, old) :: rest
      else if name = other then
        (name, value) :: rest
      else
        (other, old) :: insertMember name value rest

/-- One member per name, the last one given, in ascending order of the names. -/
def distinctMembers (members : List (String × Json)) : List (String × Json) :=
  members.foldl (fun sorted member => insertMember member.1 member.2 sorted) []

/-- The member with a name, if the document is an object that has one. -/
def member? (name : String) : Json → Option Json
  | obj members => lastMember? name members
  | _ => none

mutual

/-- How many arrays and objects are nested in a document. -/
def depth : Json → Nat
  | arr items => depthItems items + 1
  | obj members => depthMembers members + 1
  | _ => 0

/-- The greatest depth among array items. -/
def depthItems : List Json → Nat
  | [] => 0
  | item :: rest => max item.depth (depthItems rest)

/-- The greatest depth among member values. -/
def depthMembers : List (String × Json) → Nat
  | [] => 0
  | (_, value) :: rest => max value.depth (depthMembers rest)

end

end Json

end ChainFeed
