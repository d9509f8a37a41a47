import ChainFeed.Quantity
import ChainFeed.Text.Unprintable

/-!
# Quoted text in messages

Text that came from outside is quoted when a message repeats it: quotes and
backslashes are escaped, the common controls have a letter, and every other
character without a glyph is named by its number.
-/

namespace ChainFeed.Text

/-- One character as it stands between quotes. -/
def quotedChar (char : Char) : List Char :=
  match char with
  | '"' => ['\\', '"']
  | '\\' => ['\\', '\\']
  | '\n' => ['\\', 'n']
  | '\r' => ['\\', 'r']
  | '\t' => ['\\', 't']
  | '\x00' => ['\\', '0']
  | other =>
      if isUnprintable other then
        ['\\', 'u', '\x7b'] ++ (digitsOf 16 other.toNat).map Hex.digit ++ ['\x7d']
      else
        [other]

/-- The text between quotes, escaped. -/
def quoted (text : String) : String :=
  String.ofList ('"' :: text.toList.flatMap quotedChar ++ ['"'])

end ChainFeed.Text
