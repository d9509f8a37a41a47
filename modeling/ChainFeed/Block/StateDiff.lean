import ChainFeed.Bytes.Hex

/-!
# State diffs of a block

A state diff says how a transaction changed one field of an account or one slot
of its storage.
-/

namespace ChainFeed

/-- What a state diff is about. -/
inductive DiffKey where
  | balance
  | code
  | nonce
  | storage (slot : Hash)
  deriving DecidableEq, Inhabited, Repr

namespace DiffKey

/-- The text of a key: the name of the field, or the slot. -/
def text : DiffKey → String
  | balance => "balance"
  | code => "code"
  | nonce => "nonce"
  | storage slot => slot.text

/-- Reads a key from its text; a slot need not be marked. -/
def ofText? (text : String) : Option DiffKey :=
  if text = "balance" then some balance
  else if text = "code" then some code
  else if text = "nonce" then some nonce
  else (FixedBytes.ofText? text).map storage

/-- Whether the key is a slot. -/
def isStorage : DiffKey → Bool
  | storage _ => true
  | _ => false

/-- Whether a key comes no later than another: first the fields of an account,
by name, then the slots in ascending order. -/
def isAtMost : DiffKey → DiffKey → Bool
  | balance, _ => true
  | code, balance => false
  | code, _ => true
  | nonce, balance => false
  | nonce, code => false
  | nonce, _ => true
  | storage left, storage right => !decide (right < left)
  | storage _, _ => false

end DiffKey

/-- The kinds of changes. -/
inductive DiffKind where
  | noChange
  | add
  | change
  | delete
  deriving DecidableEq, Inhabited, Repr

namespace DiffKind

/-- The sign of a kind. -/
def sign : DiffKind → String
  | noChange => "="
  | add => "+"
  | change => "*"
  | delete => "-"

/-- The kinds by their signs. -/
def bySign : List (String × DiffKind) :=
  [noChange, add, change, delete].map fun kind => (kind.sign, kind)

end DiffKind

/-- A change of one value of an account. -/
structure StateDiff where
  transactionIndex : UInt32
  address : Address
  key : DiffKey
  kind : DiffKind
  prev : Option Bytes
  next : Option Bytes
  /-- Position of its transaction among those of the block. -/
  transaction : Option Nat
  deriving DecidableEq, Inhabited, Repr

namespace StateDiff

/-- The change without the position of its transaction. -/
def unlinked (diff : StateDiff) : StateDiff :=
  { diff with transaction := none }

end StateDiff

end ChainFeed
