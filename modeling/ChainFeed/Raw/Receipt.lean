import ChainFeed.Binary64
import ChainFeed.Json.Record

/-!
# Logs and receipts as a node answers them
-/

namespace ChainFeed.Raw

open Json

/-- A log record. -/
structure Log where
  blockNumber : UInt64
  blockHash : Hash
  logIndex : UInt64
  transactionIndex : UInt64
  transactionHash : Option Hash
  address : Option Address
  data : Option Bytes
  topics : Option (List Hash)
  deriving DecidableEq, Repr

/-- Reads a log record. -/
def Log.ofJson? : Json → Option Log :=
  record do
    let blockNumber ← required "blockNumber" quantity64?
    let blockHash ← required "blockHash" word?
    let logIndex ← required "logIndex" quantity64?
    let transactionIndex ← required "transactionIndex" quantity64?
    let transactionHash ← optional "transactionHash" word?
    let address ← optional "address" word?
    let data ← optional "data" bytes?
    let topics ← optional "topics" (list? word?)
    pure
      { blockNumber, blockHash, logIndex, transactionIndex, transactionHash, address, data,
        topics }

/-- Reads a scalar that is written as decimal text. -/
def scalar? : Json → Option Binary64
  | str text => Binary64.ofText? text
  | _ => none

/-- A transaction receipt, with the fees of layer-two chains. -/
structure Receipt where
  blockNumber : UInt64
  blockHash : Hash
  transactionIndex : UInt64
  transactionHash : Hash
  logs : Option (List Log)
  gasUsed : Option Quantity
  cumulativeGasUsed : Option Quantity
  effectiveGasPrice : Option Quantity
  contractAddress : Option Address
  type : Option UInt64
  status : Option UInt64
  l1Fee : Option Quantity
  l1FeeScalar : Option Binary64
  l1GasPrice : Option Quantity
  l1GasUsed : Option Quantity
  l1BaseFeeScalar : Option UInt64
  l1BlobBaseFee : Option Quantity
  l1BlobBaseFeeScalar : Option UInt64
  deriving DecidableEq, Repr

/-- Reads a receipt. -/
def Receipt.ofJson? : Json → Option Receipt :=
  record do
    let blockNumber ← required "blockNumber" quantity64?
    let blockHash ← required "blockHash" word?
    let transactionIndex ← required "transactionIndex" quantity64?
    let transactionHash ← required "transactionHash" word?
    let logs ← optional "logs" (list? Log.ofJson?)
    let gasUsed ← optional "gasUsed" quantity?
    let cumulativeGasUsed ← optional "cumulativeGasUsed" quantity?
    let effectiveGasPrice ← optional "effectiveGasPrice" quantity?
    let contractAddress ← optional "contractAddress" word?
    let type ← omittable "type" quantity64?
    let status ← omittable "status" quantity64?
    let l1Fee ← optional "l1Fee" quantity?
    let l1FeeScalar ← omittable "l1FeeScalar" scalar?
    let l1GasPrice ← optional "l1GasPrice" quantity?
    let l1GasUsed ← optional "l1GasUsed" quantity?
    let l1BaseFeeScalar ← omittable "l1BaseFeeScalar" quantity64?
    let l1BlobBaseFee ← optional "l1BlobBaseFee" quantity?
    let l1BlobBaseFeeScalar ← omittable "l1BlobBaseFeeScalar" quantity64?
    pure
      { blockNumber, blockHash, transactionIndex, transactionHash, logs, gasUsed,
        cumulativeGasUsed, effectiveGasPrice, contractAddress, type, status, l1Fee, l1FeeScalar,
        l1GasPrice, l1GasUsed, l1BaseFeeScalar, l1BlobBaseFee, l1BlobBaseFeeScalar }

end ChainFeed.Raw
