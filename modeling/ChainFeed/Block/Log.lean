import ChainFeed.Bytes

/-!
# Logs of a block
-/

namespace ChainFeed

/-- A log record. -/
structure Log where
  logIndex : UInt32
  transactionIndex : UInt32
  transactionHash : Option Hash
  address : Option Address
  data : Option Bytes
  topics : Option (List Hash)
  /-- Position of its transaction among those of the block. -/
  transaction : Option Nat
  deriving DecidableEq, Inhabited, Repr

namespace Log

/-- A log with nothing but its indexes. -/
def bare (logIndex transactionIndex : UInt32) : Log :=
  { logIndex, transactionIndex, transactionHash := none, address := none, data := none,
    topics := none, transaction := none }

/-- The topic at a position. -/
def topic? (log : Log) (position : Nat) : Option Hash :=
  log.topics.bind (·[position]?)

/-- The log without the position of its transaction. -/
def unlinked (log : Log) : Log :=
  { log with transaction := none }

end Log

end ChainFeed
