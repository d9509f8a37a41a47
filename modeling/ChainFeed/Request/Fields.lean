import ChainFeed.Json.Record
import ChainFeed.Json.Writing

/-!
# Selected properties

Beside the properties that identify an item, a caller chooses which ones are
shown.  The choice is a switch per property; a switch that is not given is off.
A caller usually gives a patch instead, which is laid over the defaults: a
switch that is null stays as it is, and so does every switch that is missing.
-/

namespace ChainFeed

open Json

/-- Lays a patch over switches: the later of two members counts. -/
def patched? {α : Type} (read : Json → Option α) (defaults : List (String × Bool))
    (patch : List (String × Json)) : Option α :=
  let given := (distinctMembers patch).filter fun member =>
    match member.2 with
    | null => false
    | _ => true
  read (obj (flags defaults ++ given))

/-- Switches for the properties of block headers. -/
structure BlockFields where
  nonce : Bool
  sha3Uncles : Bool
  logsBloom : Bool
  transactionsRoot : Bool
  stateRoot : Bool
  receiptsRoot : Bool
  mixHash : Bool
  miner : Bool
  difficulty : Bool
  totalDifficulty : Bool
  extraData : Bool
  size : Bool
  gasLimit : Bool
  gasUsed : Bool
  baseFeePerGas : Bool
  timestamp : Bool
  l1BlockNumber : Bool
  deriving DecidableEq, Inhabited, Repr

namespace BlockFields

/-- All switches off. -/
def off : BlockFields :=
  { nonce := false, sha3Uncles := false, logsBloom := false, transactionsRoot := false,
    stateRoot := false, receiptsRoot := false, mixHash := false, miner := false,
    difficulty := false, totalDifficulty := false, extraData := false, size := false,
    gasLimit := false, gasUsed := false, baseFeePerGas := false, timestamp := false,
    l1BlockNumber := false }

/-- The switches with their names. -/
def switches (fields : BlockFields) : List (String × Bool) :=
  [ ("nonce", fields.nonce), ("sha3Uncles", fields.sha3Uncles), ("logsBloom", fields.logsBloom),
    ("transactionsRoot", fields.transactionsRoot), ("stateRoot", fields.stateRoot),
    ("receiptsRoot", fields.receiptsRoot), ("mixHash", fields.mixHash), ("miner", fields.miner),
    ("difficulty", fields.difficulty), ("totalDifficulty", fields.totalDifficulty),
    ("extraData", fields.extraData), ("size", fields.size), ("gasLimit", fields.gasLimit),
    ("gasUsed", fields.gasUsed), ("baseFeePerGas", fields.baseFeePerGas),
    ("timestamp", fields.timestamp), ("l1BlockNumber", fields.l1BlockNumber) ]

/-- Reads switches. -/
def ofJson? : Json → Option BlockFields :=
  record do
    let nonce ← flag "nonce"
    let sha3Uncles ← flag "sha3Uncles"
    let logsBloom ← flag "logsBloom"
    let transactionsRoot ← flag "transactionsRoot"
    let stateRoot ← flag "stateRoot"
    let receiptsRoot ← flag "receiptsRoot"
    let mixHash ← flag "mixHash"
    let miner ← flag "miner"
    let difficulty ← flag "difficulty"
    let totalDifficulty ← flag "totalDifficulty"
    let extraData ← flag "extraData"
    let size ← flag "size"
    let gasLimit ← flag "gasLimit"
    let gasUsed ← flag "gasUsed"
    let baseFeePerGas ← flag "baseFeePerGas"
    let timestamp ← flag "timestamp"
    let l1BlockNumber ← flag "l1BlockNumber"
    pure
      { nonce, sha3Uncles, logsBloom, transactionsRoot, stateRoot, receiptsRoot, mixHash, miner,
        difficulty, totalDifficulty, extraData, size, gasLimit, gasUsed, baseFeePerGas,
        timestamp, l1BlockNumber }

/-- What is shown of block headers unless the caller says otherwise. -/
def standard : BlockFields :=
  { off with timestamp := true }

end BlockFields

/-- Switches for the properties of transactions. -/
structure TransactionFields where
  hash : Bool
  sender : Bool
  recipient : Bool
  gas : Bool
  gasPrice : Bool
  maxFeePerGas : Bool
  maxPriorityFeePerGas : Bool
  sighash : Bool
  input : Bool
  nonce : Bool
  value : Bool
  v : Bool
  r : Bool
  s : Bool
  yParity : Bool
  chainId : Bool
  authorizationList : Bool
  gasUsed : Bool
  cumulativeGasUsed : Bool
  effectiveGasPrice : Bool
  contractAddress : Bool
  type : Bool
  status : Bool
  l1Fee : Bool
  l1FeeScalar : Bool
  l1GasPrice : Bool
  l1GasUsed : Bool
  l1BaseFeeScalar : Bool
  l1BlobBaseFee : Bool
  l1BlobBaseFeeScalar : Bool
  deriving DecidableEq, Inhabited, Repr

namespace TransactionFields

/-- All switches off. -/
def off : TransactionFields :=
  { hash := false, sender := false, recipient := false, gas := false, gasPrice := false,
    maxFeePerGas := false, maxPriorityFeePerGas := false, sighash := false, input := false,
    nonce := false, value := false, v := false, r := false, s := false, yParity := false,
    chainId := false, authorizationList := false, gasUsed := false, cumulativeGasUsed := false,
    effectiveGasPrice := false, contractAddress := false, type := false, status := false,
    l1Fee := false, l1FeeScalar := false, l1GasPrice := false, l1GasUsed := false,
    l1BaseFeeScalar := false, l1BlobBaseFee := false, l1BlobBaseFeeScalar := false }

/-- The switches with their names. -/
def switches (fields : TransactionFields) : List (String × Bool) :=
  [ ("hash", fields.hash), ("from", fields.sender), ("to", fields.recipient),
    ("gas", fields.gas), ("gasPrice", fields.gasPrice), ("maxFeePerGas", fields.maxFeePerGas),
    ("maxPriorityFeePerGas", fields.maxPriorityFeePerGas), ("sighash", fields.sighash),
    ("input", fields.input), ("nonce", fields.nonce), ("value", fields.value), ("v", fields.v),
    ("r", fields.r), ("s", fields.s), ("yParity", fields.yParity), ("chainId", fields.chainId),
    ("authorizationList", fields.authorizationList), ("gasUsed", fields.gasUsed),
    ("cumulativeGasUsed", fields.cumulativeGasUsed),
    ("effectiveGasPrice", fields.effectiveGasPrice),
    ("contractAddress", fields.contractAddress), ("type", fields.type),
    ("status", fields.status), ("l1Fee", fields.l1Fee), ("l1FeeScalar", fields.l1FeeScalar),
    ("l1GasPrice", fields.l1GasPrice), ("l1GasUsed", fields.l1GasUsed),
    ("l1BaseFeeScalar", fields.l1BaseFeeScalar), ("l1BlobBaseFee", fields.l1BlobBaseFee),
    ("l1BlobBaseFeeScalar", fields.l1BlobBaseFeeScalar) ]

/-- Reads switches. -/
def ofJson? : Json → Option TransactionFields :=
  record do
    let hash ← flag "hash"
    let sender ← flag "from"
    let recipient ← flag "to"
    let gas ← flag "gas"
    let gasPrice ← flag "gasPrice"
    let maxFeePerGas ← flag "maxFeePerGas"
    let maxPriorityFeePerGas ← flag "maxPriorityFeePerGas"
    let sighash ← flag "sighash"
    let input ← flag "input"
    let nonce ← flag "nonce"
    let value ← flag "value"
    let v ← flag "v"
    let r ← flag "r"
    let s ← flag "s"
    let yParity ← flag "yParity"
    let chainId ← flag "chainId"
    let authorizationList ← flag "authorizationList"
    let gasUsed ← flag "gasUsed"
    let cumulativeGasUsed ← flag "cumulativeGasUsed"
    let effectiveGasPrice ← flag "effectiveGasPrice"
    let contractAddress ← flag "contractAddress"
    let type ← flag "type"
    let status ← flag "status"
    let l1Fee ← flag "l1Fee"
    let l1FeeScalar ← flag "l1FeeScalar"
    let l1GasPrice ← flag "l1GasPrice"
    let l1GasUsed ← flag "l1GasUsed"
    let l1BaseFeeScalar ← flag "l1BaseFeeScalar"
    let l1BlobBaseFee ← flag "l1BlobBaseFee"
    let l1BlobBaseFeeScalar ← flag "l1BlobBaseFeeScalar"
    pure
      { hash, sender, recipient, gas, gasPrice, maxFeePerGas, maxPriorityFeePerGas, sighash,
        input, nonce, value, v, r, s, yParity, chainId, authorizationList, gasUsed,
        cumulativeGasUsed, effectiveGasPrice, contractAddress, type, status, l1Fee, l1FeeScalar,
        l1GasPrice, l1GasUsed, l1BaseFeeScalar, l1BlobBaseFee, l1BlobBaseFeeScalar }

/-- Whether a property is selected that only the transaction itself has. -/
def anyOfBody (fields : TransactionFields) : Bool :=
  fields.sender || fields.recipient || fields.gas || fields.gasPrice || fields.maxFeePerGas ||
  fields.maxPriorityFeePerGas || fields.input || fields.nonce || fields.value || fields.v || fields.r ||
  fields.s || fields.yParity || fields.chainId || fields.authorizationList

/-- Whether a property is selected that only the receipt has. -/
def anyOfReceipt (fields : TransactionFields) : Bool :=
  fields.gasUsed || fields.cumulativeGasUsed || fields.effectiveGasPrice || fields.contractAddress ||
  fields.type || fields.status || fields.l1Fee || fields.l1FeeScalar || fields.l1GasPrice ||
  fields.l1GasUsed || fields.l1BaseFeeScalar || fields.l1BlobBaseFee || fields.l1BlobBaseFeeScalar

/-- What is shown of transactions unless the caller says otherwise. -/
def standard : TransactionFields :=
  { off with hash := true, sender := true, recipient := true }

end TransactionFields

/-- Switches for the properties of logs. -/
structure LogFields where
  transactionHash : Bool
  address : Bool
  data : Bool
  topics : Bool
  deriving DecidableEq, Inhabited, Repr

namespace LogFields

/-- All switches off. -/
def off : LogFields :=
  { transactionHash := false, address := false, data := false, topics := false }

/-- The switches with their names. -/
def switches (fields : LogFields) : List (String × Bool) :=
  [ ("transactionHash", fields.transactionHash), ("address", fields.address),
    ("data", fields.data), ("topics", fields.topics) ]

/-- Reads switches. -/
def ofJson? : Json → Option LogFields :=
  record do
    let transactionHash ← flag "transactionHash"
    let address ← flag "address"
    let data ← flag "data"
    let topics ← flag "topics"
    pure { transactionHash, address, data, topics }

/-- What is shown of logs unless the caller says otherwise. -/
def standard : LogFields :=
  { off with transactionHash := true, address := true, data := true, topics := true }

end LogFields

/-- Switches for the properties of traces. -/
structure TraceFields where
  callCallType : Bool
  callFrom : Bool
  callGas : Bool
  callInput : Bool
  callResultGasUsed : Bool
  callResultOutput : Bool
  callSighash : Bool
  callTo : Bool
  callValue : Bool
  createFrom : Bool
  createGas : Bool
  createInit : Bool
  createResultAddress : Bool
  createResultCode : Bool
  createResultGasUsed : Bool
  createValue : Bool
  error : Bool
  revertReason : Bool
  rewardAuthor : Bool
  rewardType : Bool
  rewardValue : Bool
  subtraces : Bool
  suicideAddress : Bool
  suicideBalance : Bool
  suicideRefundAddress : Bool
  deriving DecidableEq, Inhabited, Repr

namespace TraceFields

/-- All switches off. -/
def off : TraceFields :=
  { callCallType := false, callFrom := false, callGas := false, callInput := false,
    callResultGasUsed := false, callResultOutput := false, callSighash := false,
    callTo := false, callValue := false, createFrom := false, createGas := false,
    createInit := false, createResultAddress := false, createResultCode := false,
    createResultGasUsed := false, createValue := false, error := false, revertReason := false,
    rewardAuthor := false, rewardType := false, rewardValue := false, subtraces := false,
    suicideAddress := false, suicideBalance := false, suicideRefundAddress := false }

/-- The switches with their names. -/
def switches (fields : TraceFields) : List (String × Bool) :=
  [ ("callCallType", fields.callCallType), ("callFrom", fields.callFrom),
    ("callGas", fields.callGas), ("callInput", fields.callInput),
    ("callResultGasUsed", fields.callResultGasUsed),
    ("callResultOutput", fields.callResultOutput), ("callSighash", fields.callSighash),
    ("callTo", fields.callTo), ("callValue", fields.callValue),
    ("createFrom", fields.createFrom), ("createGas", fields.createGas),
    ("createInit", fields.createInit), ("createResultAddress", fields.createResultAddress),
    ("createResultCode", fields.createResultCode),
    ("createResultGasUsed", fields.createResultGasUsed), ("createValue", fields.createValue),
    ("error", fields.error), ("revertReason", fields.revertReason),
    ("rewardAuthor", fields.rewardAuthor), ("rewardType", fields.rewardType),
    ("rewardValue", fields.rewardValue), ("subtraces", fields.subtraces),
    ("suicideAddress", fields.suicideAddress), ("suicideBalance", fields.suicideBalance),
    ("suicideRefundAddress", fields.suicideRefundAddress) ]

/-- Reads switches. -/
def ofJson? : Json → Option TraceFields :=
  record do
    let callCallType ← flag "callCallType"
    let callFrom ← flag "callFrom"
    let callGas ← flag "callGas"
    let callInput ← flag "callInput"
    let callResultGasUsed ← flag "callResultGasUsed"
    let callResultOutput ← flag "callResultOutput"
    let callSighash ← flag "callSighash"
    let callTo ← flag "callTo"
    let callValue ← flag "callValue"
    let createFrom ← flag "createFrom"
    let createGas ← flag "createGas"
    let createInit ← flag "createInit"
    let createResultAddress ← flag "createResultAddress"
    let createResultCode ← flag "createResultCode"
    let createResultGasUsed ← flag "createResultGasUsed"
    let createValue ← flag "createValue"
    let error ← flag "error"
    let revertReason ← flag "revertReason"
    let rewardAuthor ← flag "rewardAuthor"
    let rewardType ← flag "rewardType"
    let rewardValue ← flag "rewardValue"
    let subtraces ← flag "subtraces"
    let suicideAddress ← flag "suicideAddress"
    let suicideBalance ← flag "suicideBalance"
    let suicideRefundAddress ← flag "suicideRefundAddress"
    pure
      { callCallType, callFrom, callGas, callInput, callResultGasUsed, callResultOutput,
        callSighash, callTo, callValue, createFrom, createGas, createInit, createResultAddress,
        createResultCode, createResultGasUsed, createValue, error, revertReason, rewardAuthor,
        rewardType, rewardValue, subtraces, suicideAddress, suicideBalance, suicideRefundAddress }

/-- What is shown of traces unless the caller says otherwise. -/
def standard : TraceFields :=
  { off with error := true }

end TraceFields

/-- Switches for the properties of state diffs. -/
structure StateDiffFields where
  kind : Bool
  next : Bool
  prev : Bool
  deriving DecidableEq, Inhabited, Repr

namespace StateDiffFields

/-- All switches off. -/
def off : StateDiffFields :=
  { kind := false, next := false, prev := false }

/-- The switches with their names. -/
def switches (fields : StateDiffFields) : List (String × Bool) :=
  [ ("kind", fields.kind), ("next", fields.next), ("prev", fields.prev) ]

/-- Reads switches. -/
def ofJson? : Json → Option StateDiffFields :=
  record do
    let kind ← flag "kind"
    let next ← flag "next"
    let prev ← flag "prev"
    pure { kind, next, prev }

/-- What is shown of state diffs unless the caller says otherwise. -/
def standard : StateDiffFields :=
  { off with kind := true, next := true, prev := true }

end StateDiffFields

/-- Switches for the properties of all items. -/
structure FieldSelection where
  block : BlockFields
  transaction : TransactionFields
  log : LogFields
  trace : TraceFields
  stateDiff : StateDiffFields
  deriving DecidableEq, Inhabited, Repr

/-- Changes to the switches of all items, as a caller gives them. -/
structure FieldPatch where
  block : List (String × Json)
  transaction : List (String × Json)
  log : List (String × Json)
  trace : List (String × Json)
  stateDiff : List (String × Json)

namespace FieldPatch

/-- The patch that changes nothing. -/
def empty : FieldPatch := ⟨[], [], [], [], []⟩

/-- Reads the changes to the switches of one kind of item. -/
def group? : Json → Option (List (String × Json))
  | obj members => some members
  | _ => none

/-- Reads a patch. -/
def ofJson? : Json → Option FieldPatch :=
  record do
    let block ← defaulted "block" group? []
    let transaction ← defaulted "transaction" group? []
    let log ← defaulted "log" group? []
    let trace ← defaulted "trace" group? []
    let stateDiff ← defaulted "stateDiff" group? []
    pure { block, transaction, log, trace, stateDiff }

end FieldPatch

namespace FieldSelection

/-- All switches off. -/
def off : FieldSelection := ⟨.off, .off, .off, .off, .off⟩

/-- What is shown unless the caller says otherwise. -/
def standard : FieldSelection := ⟨.standard, .standard, .standard, .standard, .standard⟩

/-- The standard selection with a patch laid over it. The kind of a state diff
cannot be switched off. -/
def ofPatch? (patch : FieldPatch) : Option FieldSelection := do
  let block ← patched? BlockFields.ofJson? standard.block.switches patch.block
  let transaction ←
    patched? TransactionFields.ofJson? standard.transaction.switches patch.transaction
  let log ← patched? LogFields.ofJson? standard.log.switches patch.log
  let trace ← patched? TraceFields.ofJson? standard.trace.switches patch.trace
  let stateDiff ← patched? StateDiffFields.ofJson? standard.stateDiff.switches patch.stateDiff
  pure { block, transaction, log, trace, stateDiff := { stateDiff with kind := true } }

/-- Reads a selection. -/
def ofJson? : Json → Option FieldSelection :=
  record do
    let block ← defaulted "block" BlockFields.ofJson? .off
    let transaction ← defaulted "transaction" TransactionFields.ofJson? .off
    let log ← defaulted "log" LogFields.ofJson? .off
    let trace ← defaulted "trace" TraceFields.ofJson? .off
    let stateDiff ← defaulted "stateDiff" StateDiffFields.ofJson? .off
    pure { block, transaction, log, trace, stateDiff }

/-- Writes a selection, every switch of it. -/
def toJson (fields : FieldSelection) : Json :=
  obj
    [ ("block", obj (flags fields.block.switches)),
      ("transaction", obj (flags fields.transaction.switches)),
      ("log", obj (flags fields.log.switches)),
      ("trace", obj (flags fields.trace.switches)),
      ("stateDiff", obj (flags fields.stateDiff.switches)) ]

end FieldSelection

end ChainFeed
