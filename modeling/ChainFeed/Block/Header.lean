import ChainFeed.Quantity

/-!
# Block headers
-/

namespace ChainFeed

/-- The header of a block. What identifies the block and its place in the chain
is always there; the rest only if it was selected and the node had it. -/
structure Header where
  height : UInt64
  hash : Hash
  parentHash : Hash
  /-- Milliseconds since the epoch. -/
  timestamp : Option UInt64
  nonce : Option Bytes
  sha3Uncles : Option Hash
  logsBloom : Option Bloom
  transactionsRoot : Option Hash
  stateRoot : Option Hash
  receiptsRoot : Option Hash
  mixHash : Option Hash
  miner : Option Address
  difficulty : Option Quantity
  totalDifficulty : Option Quantity
  extraData : Option Bytes
  size : Option UInt64
  gasLimit : Option Quantity
  gasUsed : Option Quantity
  baseFeePerGas : Option Quantity
  l1BlockNumber : Option UInt64
  deriving DecidableEq, Inhabited, Repr

/-- A header with nothing but the block's identity. -/
def Header.bare (height : UInt64) (hash parentHash : Hash) : Header :=
  { height, hash, parentHash, timestamp := none, nonce := none, sha3Uncles := none,
    logsBloom := none, transactionsRoot := none, stateRoot := none, receiptsRoot := none,
    mixHash := none, miner := none, difficulty := none, totalDifficulty := none,
    extraData := none, size := none, gasLimit := none, gasUsed := none, baseFeePerGas := none,
    l1BlockNumber := none }

end ChainFeed
