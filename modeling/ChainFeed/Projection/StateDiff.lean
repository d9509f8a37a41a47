import ChainFeed.Block.StateDiff
import ChainFeed.Quantity
import ChainFeed.Raw.Prestate
import ChainFeed.Raw.Replay

/-!
# State diffs from replays and snapshots

A replay says outright what changed.  Snapshots have to be compared: the second
one lists only what changed, so a field of an account counts only if it is listed
there, while a storage slot that is missing there was cleared.
-/

namespace ChainFeed

namespace StateDiff

/-- A change that a replay names, if it is one. -/
def ofChange? (transactionIndex : UInt32) (address : Address) (key : DiffKey) :
    Raw.Change → Option StateDiff
  | .same => none
  | .added value =>
      some
        { transactionIndex, address, key, kind := .add, prev := none, next := some value,
          transaction := none }
  | .changed old new =>
      some
        { transactionIndex, address, key, kind := .change, prev := some old, next := some new,
          transaction := none }
  | .removed value =>
      some
        { transactionIndex, address, key, kind := .delete, prev := some value, next := none,
          transaction := none }

/-- The changes of one account in a replay, with what they are about. -/
def changesOf (changes : Raw.AccountChanges) : List (DiffKey × Raw.Change) :=
  [(.code, changes.code), (.balance, changes.balance), (.nonce, changes.nonce)] ++
    changes.storage.entries.map fun (slot, change) => (.storage slot, change)

/-- The state diffs of a replay. -/
def ofReplay (transactionIndex : UInt32) (accounts : Table 20 Raw.AccountChanges) :
    List StateDiff :=
  accounts.entries.flatMap fun (address, changes) =>
    (changesOf changes).filterMap fun (key, change) =>
      ofChange? transactionIndex address key change

/-- The change between two values, if they differ. -/
def between? (transactionIndex : UInt32) (address : Address) (key : DiffKey)
    (prev next : Option Bytes) : Option StateDiff :=
  let kind? :=
    match prev, next with
    | none, none => none
    | none, some _ => some DiffKind.add
    | some _, none => some DiffKind.delete
    | some old, some new => if old = new then none else some DiffKind.change
  kind?.map fun kind => { transactionIndex, address, key, kind, prev, next, transaction := none }

/-- A 64-bit number as data. -/
def nonceBytes (nonce : UInt64) : Bytes :=
  Quantity.toBytes (BitVec.ofNat 256 nonce.toNat)

/-- Values of one account before and after, with what they are about. -/
def valuesOf (before after : Raw.Account) : List (DiffKey × Option Bytes × Option Bytes) :=
  let storageBefore := before.storage.getD .empty
  let storageAfter := after.storage.getD .empty
  (after.code.map fun code => (DiffKey.code, before.code, some code)).toList ++
    (after.balance.map fun balance =>
      (DiffKey.balance, before.balance.map Quantity.toBytes, some balance.toBytes)).toList ++
    (after.nonce.map fun nonce =>
      (DiffKey.nonce, before.nonce.map nonceBytes, some (nonceBytes nonce))).toList ++
    (storageBefore.entries.map fun (slot, value) =>
      (DiffKey.storage slot, some value.toBytes,
        (storageAfter.get? slot).map FixedBytes.toBytes)) ++
    (storageAfter.entries.filter fun entry => !storageBefore.contains entry.1).map
      fun (slot, value) => (DiffKey.storage slot, none, some value.toBytes)

/-- The state diffs of one account. -/
def ofAccounts (transactionIndex : UInt32) (address : Address) (before after : Raw.Account) :
    List StateDiff :=
  (valuesOf before after).filterMap fun (key, prev, next) =>
    between? transactionIndex address key prev next

/-- The state diffs of two snapshots: of the accounts listed before, and then of
those that are listed only after. -/
def ofSnapshots (transactionIndex : UInt32) (snapshots : Raw.Snapshots) : List StateDiff :=
  (snapshots.pre.entries.flatMap fun (address, before) =>
      ofAccounts transactionIndex address before ((snapshots.post.get? address).getD .empty)) ++
    (snapshots.post.entries.filter fun entry => !snapshots.pre.contains entry.1).flatMap
      fun (address, after) => ofAccounts transactionIndex address .empty after

end StateDiff

end ChainFeed
