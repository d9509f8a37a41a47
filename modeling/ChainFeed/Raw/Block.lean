import ChainFeed.Json.Record

/-!
# Blocks as a node answers them

A block comes with its transactions in full or with their hashes only.  What
chains and node versions add or leave out is optional; the rest has to be there
and well formed.
-/

namespace ChainFeed.Raw

open Json

/-- A signed permission to run code in an account's name. -/
structure Authorization where
  chainId : UInt64
  nonce : UInt64
  address : Address
  yParity : UInt64
  r : Quantity
  s : Quantity
  deriving DecidableEq, Repr

/-- Reads an authorization. -/
def Authorization.ofJson? : Json → Option Authorization :=
  record do
    let chainId ← required "chainId" quantity64?
    let nonce ← required "nonce" quantity64?
    let address ← required "address" word?
    let yParity ← required "yParity" quantity64?
    let r ← required "r" quantity?
    let s ← required "s" quantity?
    pure { chainId, nonce, address, yParity, r, s }

/-- A transaction in full. -/
structure Transaction where
  blockNumber : UInt64
  blockHash : Hash
  transactionIndex : UInt64
  hash : Hash
  input : Bytes
  sender : Option Address
  recipient : Option Address
  gas : Option Quantity
  gasPrice : Option Quantity
  maxFeePerGas : Option Quantity
  maxPriorityFeePerGas : Option Quantity
  nonce : Option UInt64
  value : Option Quantity
  v : Option Quantity
  r : Option Quantity
  s : Option Quantity
  yParity : Option UInt64
  chainId : Option UInt64
  type : Option UInt64
  authorizationList : Option (List Authorization)
  deriving DecidableEq, Repr

/-- Reads a transaction. -/
def Transaction.ofJson? : Json → Option Transaction :=
  record do
    let blockNumber ← required "blockNumber" quantity64?
    let blockHash ← required "blockHash" word?
    let transactionIndex ← required "transactionIndex" quantity64?
    let hash ← required "hash" word?
    let input ← defaulted "input" bytes? .empty
    let sender ← optional "from" word?
    let recipient ← optional "to" word?
    let gas ← optional "gas" quantity?
    let gasPrice ← optional "gasPrice" quantity?
    let maxFeePerGas ← optional "maxFeePerGas" quantity?
    let maxPriorityFeePerGas ← optional "maxPriorityFeePerGas" quantity?
    let nonce ← omittable "nonce" quantity64?
    let value ← optional "value" quantity?
    let v ← optional "v" quantity?
    let r ← optional "r" quantity?
    let s ← optional "s" quantity?
    let yParity ← omittable "yParity" quantity64?
    let chainId ← omittable "chainId" quantity64?
    let type ← omittable "type" quantity64?
    let authorizationList ← optional "authorizationList" (list? Authorization.ofJson?)
    pure
      { blockNumber, blockHash, transactionIndex, hash, input, sender, recipient, gas, gasPrice,
        maxFeePerGas, maxPriorityFeePerGas, nonce, value, v, r, s, yParity, chainId, type,
        authorizationList }

/-- The transactions of a block. -/
inductive Body where
  | hashes (words : List Hash)
  | full (transactions : List Transaction)
  deriving DecidableEq, Repr

namespace Body

/-- The hashes of all transactions, in order. -/
def toHashes : Body → List Hash
  | hashes words => words
  | full transactions => transactions.map Transaction.hash

/-- The number of transactions. -/
def length (body : Body) : Nat :=
  body.toHashes.length

/-- Whether the block has no transactions. -/
def isEmpty (body : Body) : Bool :=
  body.length == 0

/-- The hash of the transaction at a position. -/
def hash? (body : Body) (position : Nat) : Option Hash :=
  body.toHashes[position]?

/-- Reads a body: a list of hashes, or else a list of transactions. The empty
list has no transactions to be in full. -/
def ofJson? (document : Json) : Option Body :=
  match list? word? document with
  | some words => some (hashes words)
  | none => (list? Transaction.ofJson? document).map full

end Body

/-- A block. -/
structure Block where
  number : UInt64
  hash : Hash
  parentHash : Hash
  logsBloom : Bloom
  transactions : Body
  timestamp : Option UInt64
  nonce : Option Bytes
  sha3Uncles : Option Hash
  transactionsRoot : Option Hash
  stateRoot : Option Hash
  receiptsRoot : Option Hash
  mixHash : Option Hash
  miner : Option Address
  difficulty : Option Quantity
  totalDifficulty : Option Quantity
  extraData : Option Bytes
  size : Option UInt64
  gasLimit : Option Quantity
  gasUsed : Option Quantity
  baseFeePerGas : Option Quantity
  l1BlockNumber : Option UInt64
  deriving DecidableEq, Repr

/-- Reads a block. -/
def Block.ofJson? : Json → Option Block :=
  record do
    let number ← required "number" quantity64?
    let hash ← required "hash" word?
    let parentHash ← required "parentHash" word?
    let logsBloom ← required "logsBloom" word?
    let transactions ← required "transactions" Body.ofJson?
    let timestamp ← omittable "timestamp" quantity64?
    let nonce ← optional "nonce" bytes?
    let sha3Uncles ← optional "sha3Uncles" word?
    let transactionsRoot ← optional "transactionsRoot" word?
    let stateRoot ← optional "stateRoot" word?
    let receiptsRoot ← optional "receiptsRoot" word?
    let mixHash ← optional "mixHash" word?
    let miner ← optional "miner" word?
    let difficulty ← optional "difficulty" quantity?
    let totalDifficulty ← optional "totalDifficulty" quantity?
    let extraData ← optional "extraData" bytes?
    let size ← omittable "size" quantity64?
    let gasLimit ← optional "gasLimit" quantity?
    let gasUsed ← optional "gasUsed" quantity?
    let baseFeePerGas ← optional "baseFeePerGas" quantity?
    let l1BlockNumber ← omittable "l1BlockNumber" quantity64?
    pure
      { number, hash, parentHash, logsBloom, transactions, timestamp, nonce, sha3Uncles,
        transactionsRoot, stateRoot, receiptsRoot, mixHash, miner, difficulty, totalDifficulty,
        extraData, size, gasLimit, gasUsed, baseFeePerGas, l1BlockNumber }

end ChainFeed.Raw
