/-!
# Searching a message

Nodes report conditions in prose, so a condition is recognised by a phrase.
Some phrases are compared as they stand, others without regard to case.
-/

namespace ChainFeed.Text

/-- Whether a phrase occurs somewhere in a text. -/
def occursIn (phrase : List Char) : List Char → Bool
  | [] => phrase.isEmpty
  | char :: rest => phrase.isPrefixOf (char :: rest) || occursIn phrase rest

/-- What remains of a text after a phrase that it starts with. -/
def after? : (phrase text : List Char) → Option (List Char)
  | [], text => some text
  | _ :: _, [] => none
  | expected :: phrase, char :: text =>
      if expected = char then after? phrase text else none

/-- The representative of a character among those that differ from it by case
only. Beside the letters of ASCII two more characters have a representative in
ASCII: the long s and the Kelvin sign. -/
def foldCase (char : Char) : Char :=
  if char = 'ſ' then 's' else if char = '\u212a' then 'k' else char.toLower

/-- Whether a phrase, given in lower case, occurs in a text in any case. -/
def occursInAnyCase (phrase : String) (text : String) : Bool :=
  occursIn phrase.toList (text.toList.map foldCase)

/-- Whether a phrase occurs in a text as it stands. -/
def occurs (phrase : String) (text : String) : Bool :=
  occursIn phrase.toList text.toList

end ChainFeed.Text
