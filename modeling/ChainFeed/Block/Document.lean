import ChainFeed.Block
import ChainFeed.Json.Writing

/-!
# Documents of blocks

A block is written with everything that is known of its items.  Positions are
written as they stand, and an item without positions of a kind does not mention
them.
-/

namespace ChainFeed

open Json

/-- An authorization as a document. -/
def Authorization.toJson (value : Authorization) : Json :=
  .obj
    [ ("chainId", ofWord64 value.chainId), ("nonce", ofWord64 value.nonce),
      ("address", value.address.toJson), ("yParity", ofWord64 value.yParity),
      ("r", Quantity.toJson value.r), ("s", Quantity.toJson value.s) ]

/-- A header as a document. -/
def Header.toJson (value : Header) : Json :=
  ofPresent
    [ ("height", some (ofWord64 value.height)),
      ("hash", some value.hash.toJson),
      ("parentHash", some value.parentHash.toJson),
      ("timestamp", value.timestamp.map ofWord64),
      ("nonce", value.nonce.map Bytes.toJson),
      ("sha3Uncles", value.sha3Uncles.map FixedBytes.toJson),
      ("logsBloom", value.logsBloom.map FixedBytes.toJson),
      ("transactionsRoot", value.transactionsRoot.map FixedBytes.toJson),
      ("stateRoot", value.stateRoot.map FixedBytes.toJson),
      ("receiptsRoot", value.receiptsRoot.map FixedBytes.toJson),
      ("mixHash", value.mixHash.map FixedBytes.toJson),
      ("miner", value.miner.map FixedBytes.toJson),
      ("difficulty", value.difficulty.map Quantity.toJson),
      ("totalDifficulty", value.totalDifficulty.map Quantity.toJson),
      ("extraData", value.extraData.map Bytes.toJson),
      ("size", value.size.map ofWord64),
      ("gasLimit", value.gasLimit.map Quantity.toJson),
      ("gasUsed", value.gasUsed.map Quantity.toJson),
      ("baseFeePerGas", value.baseFeePerGas.map Quantity.toJson),
      ("l1BlockNumber", value.l1BlockNumber.map ofWord64) ]

/-- A transaction as a document. -/
def Transaction.toJson (value : Transaction) : Json :=
  ofPresent
    [ ("transactionIndex", some (ofWord32 value.transactionIndex)),
      ("hash", value.hash.map FixedBytes.toJson),
      ("from", value.sender.map FixedBytes.toJson),
      ("to", value.recipient.map FixedBytes.toJson),
      ("gas", value.gas.map Quantity.toJson),
      ("gasPrice", value.gasPrice.map Quantity.toJson),
      ("maxFeePerGas", value.maxFeePerGas.map Quantity.toJson),
      ("maxPriorityFeePerGas", value.maxPriorityFeePerGas.map Quantity.toJson),
      ("input", value.input.map Bytes.toJson),
      ("sighash", value.sighash.map Bytes.toJson),
      ("nonce", value.nonce.map ofWord64),
      ("value", value.value.map Quantity.toJson),
      ("v", value.v.map Quantity.toJson),
      ("r", value.r.map Quantity.toJson),
      ("s", value.s.map Quantity.toJson),
      ("yParity", value.yParity.map ofWord64),
      ("chainId", value.chainId.map ofWord64),
      ("authorizationList", value.authorizationList.map (ofList Authorization.toJson)),
      ("gasUsed", value.gasUsed.map Quantity.toJson),
      ("cumulativeGasUsed", value.cumulativeGasUsed.map Quantity.toJson),
      ("effectiveGasPrice", value.effectiveGasPrice.map Quantity.toJson),
      ("contractAddress", value.contractAddress.map FixedBytes.toJson),
      ("type", value.type.map ofWord64),
      ("status", value.status.map ofWord64),
      ("l1Fee", value.l1Fee.map Quantity.toJson),
      ("l1FeeScalar", value.l1FeeScalar.map Binary64.toJson),
      ("l1GasPrice", value.l1GasPrice.map Quantity.toJson),
      ("l1GasUsed", value.l1GasUsed.map Quantity.toJson),
      ("l1BaseFeeScalar", value.l1BaseFeeScalar.map ofWord64),
      ("l1BlobBaseFee", value.l1BlobBaseFee.map Quantity.toJson),
      ("l1BlobBaseFeeScalar", value.l1BlobBaseFeeScalar.map ofWord64),
      ("logs", unlessEmpty ofNat value.logs),
      ("traces", unlessEmpty ofNat value.traces),
      ("stateDiffs", unlessEmpty ofNat value.stateDiffs) ]

/-- A log as a document. -/
def Log.toJson (value : Log) : Json :=
  ofPresent
    [ ("logIndex", some (ofWord32 value.logIndex)),
      ("transactionIndex", some (ofWord32 value.transactionIndex)),
      ("transactionHash", value.transactionHash.map FixedBytes.toJson),
      ("address", value.address.map FixedBytes.toJson),
      ("data", value.data.map Bytes.toJson),
      ("topics", value.topics.map (ofList FixedBytes.toJson)),
      ("transaction", value.transaction.map ofNat) ]

/-- The action of a trace as a document. -/
def TraceData.actionJson : TraceData → Json
  | .create action _ =>
      ofPresent
        [ ("from", action.sender.map FixedBytes.toJson),
          ("value", action.value.map Quantity.toJson),
          ("gas", action.gas.map Quantity.toJson),
          ("init", action.init.map Bytes.toJson) ]
  | .call action _ =>
      ofPresent
        [ ("callType", action.callType.map .str),
          ("from", action.sender.map FixedBytes.toJson),
          ("to", action.recipient.map FixedBytes.toJson),
          ("value", action.value.map Quantity.toJson),
          ("gas", action.gas.map Quantity.toJson),
          ("input", action.input.map Bytes.toJson),
          ("sighash", action.sighash.map Bytes.toJson) ]
  | .suicide action =>
      ofPresent
        [ ("address", action.address.map FixedBytes.toJson),
          ("refundAddress", action.refundAddress.map FixedBytes.toJson),
          ("balance", action.balance.map Quantity.toJson) ]
  | .reward action =>
      ofPresent
        [ ("author", action.author.map FixedBytes.toJson),
          ("value", action.value.map Quantity.toJson),
          ("rewardType", action.rewardType.map .str) ]

/-- The result of a trace as a document, if it has one. -/
def TraceData.resultJson? : TraceData → Option Json
  | .create _ result =>
      result.map fun result =>
        ofPresent
          [ ("gasUsed", result.gasUsed.map Quantity.toJson),
            ("code", result.code.map Bytes.toJson),
            ("address", result.address.map FixedBytes.toJson) ]
  | .call _ result =>
      result.map fun result =>
        ofPresent
          [ ("gasUsed", result.gasUsed.map Quantity.toJson),
            ("output", result.output.map Bytes.toJson) ]
  | .suicide _ | .reward _ => none

/-- A trace as a document. -/
def Trace.toJson (value : Trace) : Json :=
  ofPresent
    [ ("transactionIndex", some (ofWord32 value.transactionIndex)),
      ("traceAddress", some (ofList ofWord32 value.traceAddress)),
      ("type", some (.str value.kind.name)),
      ("action", some (TraceData.actionJson value.data)),
      ("result", TraceData.resultJson? value.data),
      ("subtraces", value.subtraces.map ofWord32),
      ("error", value.error.map .str),
      ("revertReason", value.revertReason.map .str),
      ("transaction", value.transaction.map ofNat),
      ("parent", value.parent.map ofNat),
      ("children", unlessEmpty ofNat value.children) ]

/-- A state diff as a document. -/
def StateDiff.toJson (value : StateDiff) : Json :=
  ofPresent
    [ ("transactionIndex", some (ofWord32 value.transactionIndex)),
      ("address", some value.address.toJson),
      ("key", some (.str value.key.text)),
      ("kind", some (.str value.kind.sign)),
      ("prev", value.prev.map Bytes.toJson),
      ("next", value.next.map Bytes.toJson),
      ("transaction", value.transaction.map ofNat) ]

/-- A block as a document. -/
def Block.toJson (value : Block) : Json :=
  .obj
    [ ("header", Header.toJson value.header),
      ("transactions", ofList Transaction.toJson value.transactions),
      ("logs", ofList Log.toJson value.logs),
      ("traces", ofList Trace.toJson value.traces),
      ("stateDiffs", ofList StateDiff.toJson value.stateDiffs) ]

end ChainFeed
