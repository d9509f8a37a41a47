import ChainFeed.Json.Record

/-!
# Replays of transactions

A replay re-executes a transaction and lists its trace frames, the changes that
it made to accounts, or both.  A trace frame names its place in the call tree by
a path.
-/

namespace ChainFeed.Raw

open Json

/-- What a trace frame did; which fields are there depends on its type. -/
structure TraceAction where
  sender : Option Address
  recipient : Option Address
  value : Option Quantity
  gas : Option Quantity
  input : Option Bytes
  init : Option Bytes
  callType : Option String
  address : Option Address
  refundAddress : Option Address
  balance : Option Quantity
  author : Option Address
  rewardType : Option String
  deriving DecidableEq, Repr

/-- An action about which nothing is said. -/
def TraceAction.empty : TraceAction :=
  ⟨none, none, none, none, none, none, none, none, none, none, none, none⟩

/-- Reads an action. -/
def TraceAction.ofJson? : Json → Option TraceAction :=
  record do
    let sender ← optional "from" word?
    let recipient ← optional "to" word?
    let value ← optional "value" quantity?
    let gas ← optional "gas" quantity?
    let input ← optional "input" bytes?
    let init ← optional "init" bytes?
    let callType ← optional "callType" text?
    let address ← optional "address" word?
    let refundAddress ← optional "refundAddress" word?
    let balance ← optional "balance" quantity?
    let author ← optional "author" word?
    let rewardType ← optional "rewardType" text?
    pure
      { sender, recipient, value, gas, input, init, callType, address, refundAddress, balance,
        author, rewardType }

/-- What came of a trace frame that did not fail. -/
structure TraceResult where
  gasUsed : Option Quantity
  output : Option Bytes
  code : Option Bytes
  address : Option Address
  deriving DecidableEq, Repr

/-- Reads a result. -/
def TraceResult.ofJson? : Json → Option TraceResult :=
  record do
    let gasUsed ← optional "gasUsed" quantity?
    let output ← optional "output" bytes?
    let code ← optional "code" bytes?
    let address ← optional "address" word?
    pure { gasUsed, output, code, address }

/-- One frame of a trace. -/
structure TraceFrame where
  blockHash : Option Hash
  transactionHash : Option Hash
  traceAddress : List UInt32
  subtraces : Option UInt32
  type : String
  action : TraceAction
  result : Option TraceResult
  error : Option String
  revertReason : Option String
  deriving DecidableEq, Repr

/-- Reads a trace frame. -/
def TraceFrame.ofJson? : Json → Option TraceFrame :=
  record do
    let blockHash ← optional "blockHash" word?
    let transactionHash ← optional "transactionHash" word?
    let traceAddress ← required "traceAddress" (list? word32?)
    let subtraces ← optional "subtraces" word32?
    let type ← required "type" text?
    let action ← defaulted "action" TraceAction.ofJson? .empty
    let result ← optional "result" TraceResult.ofJson?
    let error ← optional "error" text?
    let revertReason ← optional "revertReason" text?
    pure
      { blockHash, transactionHash, traceAddress, subtraces, type, action, result, error,
        revertReason }

/-- How a replay changed one value. -/
inductive Change where
  | same
  | added (value : Bytes)
  | changed (old new : Bytes)
  | removed (value : Bytes)
  deriving DecidableEq, Repr

namespace Change

/-- Reads the old and the new value. -/
def pair? : Json → Option Change :=
  record do
    let old ← required "from" unpaddedBytes?
    let new ← required "to" unpaddedBytes?
    pure (changed old new)

/-- Reads a change: the sign of equality, or an object whose only member is named
by the kind of the change. -/
def ofJson? : Json → Option Change
  | str text => if text = "=" then some same else none
  | obj members =>
      match distinctMembers members with
      | [("=", null)] => some same
      | [("+", value)] => (unpaddedBytes? value).map added
      | [("*", values)] => pair? values
      | [("-", value)] => (unpaddedBytes? value).map removed
      | _ => none
  | _ => none

end Change

/-- The changes of one account. -/
structure AccountChanges where
  balance : Change
  code : Change
  nonce : Change
  storage : Table 32 Change
  deriving DecidableEq

/-- Reads the changes of one account. -/
def AccountChanges.ofJson? : Json → Option AccountChanges :=
  record do
    let balance ← required "balance" Change.ofJson?
    let code ← required "code" Change.ofJson?
    let nonce ← required "nonce" Change.ofJson?
    let storage ← required "storage" (table? Change.ofJson?)
    pure { balance, code, nonce, storage }

/-- The replay of one transaction. -/
structure Replay where
  transactionHash : Option Hash
  trace : Option (List TraceFrame)
  stateDiff : Option (Table 20 AccountChanges)
  deriving DecidableEq

/-- Reads a replay. -/
def Replay.ofJson? : Json → Option Replay :=
  record do
    let transactionHash ← optional "transactionHash" word?
    let trace ← optional "trace" (list? TraceFrame.ofJson?)
    let stateDiff ← optional "stateDiff" (table? AccountChanges.ofJson?)
    pure { transactionHash, trace, stateDiff }

end ChainFeed.Raw
