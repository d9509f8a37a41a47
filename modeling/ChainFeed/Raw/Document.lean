import ChainFeed.Json.Writing
import ChainFeed.Raw.Block
import ChainFeed.Raw.CallTree
import ChainFeed.Raw.Prestate
import ChainFeed.Raw.Receipt
import ChainFeed.Raw.Replay

/-!
# Documents of raw data

What a node answered, written back as documents of one form: names as the node
uses them, quantities without leading zeros, and a body marked as hashes or full.
-/

namespace ChainFeed.Raw

open Json

/-- An authorization as a document. -/
def Authorization.toJson (value : Authorization) : Json :=
  .obj
    [ ("chainId", ofWord64 value.chainId), ("nonce", ofWord64 value.nonce),
      ("address", value.address.toJson), ("yParity", ofWord64 value.yParity),
      ("r", Quantity.toJson value.r), ("s", Quantity.toJson value.s) ]

/-- A transaction as a document. -/
def Transaction.toJson (value : Transaction) : Json :=
  ofPresent
    [ ("blockNumber", some (ofWord64 value.blockNumber)),
      ("blockHash", some value.blockHash.toJson),
      ("transactionIndex", some (ofWord64 value.transactionIndex)),
      ("hash", some value.hash.toJson),
      ("input", some value.input.toJson),
      ("from", value.sender.map FixedBytes.toJson),
      ("to", value.recipient.map FixedBytes.toJson),
      ("gas", value.gas.map Quantity.toJson),
      ("gasPrice", value.gasPrice.map Quantity.toJson),
      ("maxFeePerGas", value.maxFeePerGas.map Quantity.toJson),
      ("maxPriorityFeePerGas", value.maxPriorityFeePerGas.map Quantity.toJson),
      ("nonce", value.nonce.map ofWord64),
      ("value", value.value.map Quantity.toJson),
      ("v", value.v.map Quantity.toJson),
      ("r", value.r.map Quantity.toJson),
      ("s", value.s.map Quantity.toJson),
      ("yParity", value.yParity.map ofWord64),
      ("chainId", value.chainId.map ofWord64),
      ("type", value.type.map ofWord64),
      ("authorizationList", value.authorizationList.map (ofList Authorization.toJson)) ]

/-- A body as a document. -/
def Body.toJson : Body → Json
  | .hashes words => .obj [("hashes", ofList FixedBytes.toJson words)]
  | .full transactions => .obj [("full", ofList Transaction.toJson transactions)]

/-- A block as a document. -/
def Block.toJson (value : Block) : Json :=
  ofPresent
    [ ("number", some (ofWord64 value.number)),
      ("hash", some value.hash.toJson),
      ("parentHash", some value.parentHash.toJson),
      ("logsBloom", some value.logsBloom.toJson),
      ("transactions", some (Body.toJson value.transactions)),
      ("timestamp", value.timestamp.map ofWord64),
      ("nonce", value.nonce.map Bytes.toJson),
      ("sha3Uncles", value.sha3Uncles.map FixedBytes.toJson),
      ("transactionsRoot", value.transactionsRoot.map FixedBytes.toJson),
      ("stateRoot", value.stateRoot.map FixedBytes.toJson),
      ("receiptsRoot", value.receiptsRoot.map FixedBytes.toJson),
      ("mixHash", value.mixHash.map FixedBytes.toJson),
      ("miner", value.miner.map FixedBytes.toJson),
      ("difficulty", value.difficulty.map Quantity.toJson),
      ("totalDifficulty", value.totalDifficulty.map Quantity.toJson),
      ("extraData", value.extraData.map Bytes.toJson),
      ("size", value.size.map ofWord64),
      ("gasLimit", value.gasLimit.map Quantity.toJson),
      ("gasUsed", value.gasUsed.map Quantity.toJson),
      ("baseFeePerGas", value.baseFeePerGas.map Quantity.toJson),
      ("l1BlockNumber", value.l1BlockNumber.map ofWord64) ]

/-- A log as a document. -/
def Log.toJson (value : Log) : Json :=
  ofPresent
    [ ("blockNumber", some (ofWord64 value.blockNumber)),
      ("blockHash", some value.blockHash.toJson),
      ("logIndex", some (ofWord64 value.logIndex)),
      ("transactionIndex", some (ofWord64 value.transactionIndex)),
      ("transactionHash", value.transactionHash.map FixedBytes.toJson),
      ("address", value.address.map FixedBytes.toJson),
      ("data", value.data.map Bytes.toJson),
      ("topics", value.topics.map (ofList FixedBytes.toJson)) ]

/-- A receipt as a document. -/
def Receipt.toJson (value : Receipt) : Json :=
  ofPresent
    [ ("blockNumber", some (ofWord64 value.blockNumber)),
      ("blockHash", some value.blockHash.toJson),
      ("transactionIndex", some (ofWord64 value.transactionIndex)),
      ("transactionHash", some value.transactionHash.toJson),
      ("logs", value.logs.map (ofList Log.toJson)),
      ("gasUsed", value.gasUsed.map Quantity.toJson),
      ("cumulativeGasUsed", value.cumulativeGasUsed.map Quantity.toJson),
      ("effectiveGasPrice", value.effectiveGasPrice.map Quantity.toJson),
      ("contractAddress", value.contractAddress.map FixedBytes.toJson),
      ("type", value.type.map ofWord64),
      ("status", value.status.map ofWord64),
      ("l1Fee", value.l1Fee.map Quantity.toJson),
      ("l1FeeScalar", value.l1FeeScalar.map Binary64.toJson),
      ("l1GasPrice", value.l1GasPrice.map Quantity.toJson),
      ("l1GasUsed", value.l1GasUsed.map Quantity.toJson),
      ("l1BaseFeeScalar", value.l1BaseFeeScalar.map ofWord64),
      ("l1BlobBaseFee", value.l1BlobBaseFee.map Quantity.toJson),
      ("l1BlobBaseFeeScalar", value.l1BlobBaseFeeScalar.map ofWord64) ]

/-- A call as a document, with the documents of the calls that it made. -/
def Call.toJson (call : Call) (calls : List Json) : Json :=
  ofPresent
    [ ("type", some (.str call.type)),
      ("from", call.sender.map FixedBytes.toJson),
      ("to", call.recipient.map FixedBytes.toJson),
      ("value", call.value.map Quantity.toJson),
      ("gas", call.gas.map Quantity.toJson),
      ("gasUsed", call.gasUsed.map Quantity.toJson),
      ("input", some call.input.toJson),
      ("output", call.output.map Bytes.toJson),
      ("error", call.error.map .str),
      ("revertReason", call.revertReason.map .str),
      ("calls", unlessEmpty id calls) ]

mutual

/-- A call tree as a document. -/
def CallTree.toJson : CallTree → Json
  | .node call calls => call.toJson (CallTree.toJsons calls)

/-- The documents of several call trees. -/
def CallTree.toJsons : List CallTree → List Json
  | [] => []
  | tree :: rest => tree.toJson :: CallTree.toJsons rest

end

/-- The call tree of a transaction as a document. -/
def CallTreeResult.toJson (value : CallTreeResult) : Json :=
  ofPresent
    [ ("result", some (CallTree.toJson value.result)),
      ("txHash", value.transactionHash.map FixedBytes.toJson) ]

/-- An account of a snapshot as a document. -/
def Account.toJson (value : Account) : Json :=
  ofPresent
    [ ("balance", value.balance.map Quantity.toJson),
      ("code", value.code.map Bytes.toJson),
      ("nonce", value.nonce.map ofWord64),
      ("storage", value.storage.map (Table.toJson FixedBytes.toJson)) ]

/-- The snapshots of a transaction as a document. -/
def PrestateResult.toJson (value : PrestateResult) : Json :=
  ofPresent
    [ ( "result",
        some
          (.obj
            [ ("pre", Table.toJson Account.toJson value.result.pre),
              ("post", Table.toJson Account.toJson value.result.post) ]) ),
      ("txHash", value.transactionHash.map FixedBytes.toJson) ]

/-- The action of a frame as a document. -/
def TraceAction.toJson (value : TraceAction) : Json :=
  ofPresent
    [ ("from", value.sender.map FixedBytes.toJson),
      ("to", value.recipient.map FixedBytes.toJson),
      ("value", value.value.map Quantity.toJson),
      ("gas", value.gas.map Quantity.toJson),
      ("input", value.input.map Bytes.toJson),
      ("init", value.init.map Bytes.toJson),
      ("callType", value.callType.map .str),
      ("address", value.address.map FixedBytes.toJson),
      ("refundAddress", value.refundAddress.map FixedBytes.toJson),
      ("balance", value.balance.map Quantity.toJson),
      ("author", value.author.map FixedBytes.toJson),
      ("rewardType", value.rewardType.map .str) ]

/-- The result of a frame as a document. -/
def TraceResult.toJson (value : TraceResult) : Json :=
  ofPresent
    [ ("gasUsed", value.gasUsed.map Quantity.toJson),
      ("output", value.output.map Bytes.toJson),
      ("code", value.code.map Bytes.toJson),
      ("address", value.address.map FixedBytes.toJson) ]

/-- A frame as a document. -/
def TraceFrame.toJson (value : TraceFrame) : Json :=
  ofPresent
    [ ("blockHash", value.blockHash.map FixedBytes.toJson),
      ("transactionHash", value.transactionHash.map FixedBytes.toJson),
      ("traceAddress", some (ofList ofWord32 value.traceAddress)),
      ("subtraces", value.subtraces.map ofWord32),
      ("type", some (.str value.type)),
      ("action", some (TraceAction.toJson value.action)),
      ("result", value.result.map TraceResult.toJson),
      ("error", value.error.map .str),
      ("revertReason", value.revertReason.map .str) ]

/-- A change as a document, under the sign of its kind. -/
def Change.toJson : Change → Json
  | .same => .str "="
  | .added value => .obj [("+", value.toJson)]
  | .changed old new => .obj [("*", .obj [("from", old.toJson), ("to", new.toJson)])]
  | .removed value => .obj [("-", value.toJson)]

/-- The changes of an account as a document. -/
def AccountChanges.toJson (value : AccountChanges) : Json :=
  .obj
    [ ("balance", Change.toJson value.balance), ("code", Change.toJson value.code),
      ("nonce", Change.toJson value.nonce), ("storage", Table.toJson Change.toJson value.storage) ]

/-- A replay as a document. -/
def Replay.toJson (value : Replay) : Json :=
  ofPresent
    [ ("transactionHash", value.transactionHash.map FixedBytes.toJson),
      ("trace", value.trace.map (ofList TraceFrame.toJson)),
      ("stateDiff", value.stateDiff.map (Table.toJson AccountChanges.toJson)) ]

end ChainFeed.Raw
