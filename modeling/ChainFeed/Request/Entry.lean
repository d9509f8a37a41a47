import ChainFeed.Block
import ChainFeed.Json.Record
import ChainFeed.Json.Writing

/-!
# Entries of a request

An entry describes items of one kind by lists of accepted values; an absent or
empty list accepts everything.  Beside the items themselves an entry can pull in
related items, as its switches say.
-/

namespace ChainFeed

open Json

/-- A list of accepted values, written only if there is one. -/
def valuesMember {α : Type} (name : String) (write : α → Json) (values : Option (List α)) :
    String × Option Json :=
  (name, values.map fun values => arr (values.map write))

/-- What a log pulls in. -/
structure LogPulls where
  transaction : Bool
  transactionLogs : Bool
  transactionTraces : Bool
  transactionStateDiffs : Bool
  deriving DecidableEq, Inhabited, Repr

/-- Description of logs. -/
structure LogEntry where
  address : Option (List Address)
  topic0 : Option (List Hash)
  topic1 : Option (List Hash)
  topic2 : Option (List Hash)
  topic3 : Option (List Hash)
  pulls : LogPulls
  deriving DecidableEq, Inhabited, Repr

namespace LogEntry

/-- Reads an entry. -/
def ofJson? : Json → Option LogEntry :=
  objectRecord do
    let address ← optional "address" (list? word?)
    let topic0 ← optional "topic0" (list? word?)
    let topic1 ← optional "topic1" (list? word?)
    let topic2 ← optional "topic2" (list? word?)
    let topic3 ← optional "topic3" (list? word?)
    let transaction ← flag "transaction"
    let transactionLogs ← flag "transactionLogs"
    let transactionTraces ← flag "transactionTraces"
    let transactionStateDiffs ← flag "transactionStateDiffs"
    pure
      { address, topic0, topic1, topic2, topic3,
        pulls := { transaction, transactionLogs, transactionTraces, transactionStateDiffs } }

/-- Writes an entry. -/
def toJson (entry : LogEntry) : Json :=
  obj
    (presentMembers
        [ valuesMember "address" FixedBytes.toJson entry.address,
          valuesMember "topic0" FixedBytes.toJson entry.topic0,
          valuesMember "topic1" FixedBytes.toJson entry.topic1,
          valuesMember "topic2" FixedBytes.toJson entry.topic2,
          valuesMember "topic3" FixedBytes.toJson entry.topic3 ] ++
      flags
        [ ("transaction", entry.pulls.transaction),
          ("transactionLogs", entry.pulls.transactionLogs),
          ("transactionTraces", entry.pulls.transactionTraces),
          ("transactionStateDiffs", entry.pulls.transactionStateDiffs) ])

end LogEntry

/-- What a transaction pulls in. -/
structure TransactionPulls where
  logs : Bool
  traces : Bool
  stateDiffs : Bool
  deriving DecidableEq, Inhabited, Repr

/-- Description of transactions. -/
structure TransactionEntry where
  recipient : Option (List Address)
  sender : Option (List Address)
  sighash : Option (List Bytes)
  type : Option (List UInt64)
  pulls : TransactionPulls
  deriving DecidableEq, Inhabited, Repr

namespace TransactionEntry

/-- Reads an entry. -/
def ofJson? : Json → Option TransactionEntry :=
  objectRecord do
    let recipient ← optional "to" (list? word?)
    let sender ← optional "from" (list? word?)
    let sighash ← optional "sighash" (list? bytes?)
    let type ← optional "type" (list? word64?)
    let logs ← flag "logs"
    let traces ← flag "traces"
    let stateDiffs ← flag "stateDiffs"
    pure { recipient, sender, sighash, type, pulls := { logs, traces, stateDiffs } }

/-- Writes an entry. -/
def toJson (entry : TransactionEntry) : Json :=
  obj
    (presentMembers
        [ valuesMember "to" FixedBytes.toJson entry.recipient,
          valuesMember "from" FixedBytes.toJson entry.sender,
          valuesMember "sighash" Bytes.toJson entry.sighash,
          valuesMember "type" (fun type => int type.toNat) entry.type ] ++
      flags
        [ ("logs", entry.pulls.logs),
          ("traces", entry.pulls.traces),
          ("stateDiffs", entry.pulls.stateDiffs) ])

end TransactionEntry

/-- What a trace pulls in. -/
structure TracePulls where
  transaction : Bool
  transactionLogs : Bool
  /-- All frames below the trace. -/
  subtraces : Bool
  /-- All frames above the trace, up to the root. -/
  parents : Bool
  deriving DecidableEq, Inhabited, Repr

/-- Description of traces. -/
structure TraceEntry where
  kind : Option (List TraceKind)
  createFrom : Option (List Address)
  callTo : Option (List Address)
  callFrom : Option (List Address)
  callSighash : Option (List Bytes)
  suicideRefundAddress : Option (List Address)
  rewardAuthor : Option (List Address)
  pulls : TracePulls
  deriving DecidableEq, Inhabited, Repr

namespace TraceEntry

/-- Reads an entry. -/
def ofJson? : Json → Option TraceEntry :=
  objectRecord do
    let kind ← optional "type" (list? (choice? TraceKind.byName))
    let createFrom ← optional "createFrom" (list? word?)
    let callTo ← optional "callTo" (list? word?)
    let callFrom ← optional "callFrom" (list? word?)
    let callSighash ← optional "callSighash" (list? bytes?)
    let suicideRefundAddress ← optional "suicideRefundAddress" (list? word?)
    let rewardAuthor ← optional "rewardAuthor" (list? word?)
    let transaction ← flag "transaction"
    let transactionLogs ← flag "transactionLogs"
    let subtraces ← flag "subtraces"
    let parents ← flag "parents"
    pure
      { kind, createFrom, callTo, callFrom, callSighash, suicideRefundAddress, rewardAuthor,
        pulls := { transaction, transactionLogs, subtraces, parents } }

/-- Writes an entry. -/
def toJson (entry : TraceEntry) : Json :=
  obj
    (presentMembers
        [ valuesMember "type" (fun kind => str kind.name) entry.kind,
          valuesMember "createFrom" FixedBytes.toJson entry.createFrom,
          valuesMember "callTo" FixedBytes.toJson entry.callTo,
          valuesMember "callFrom" FixedBytes.toJson entry.callFrom,
          valuesMember "callSighash" Bytes.toJson entry.callSighash,
          valuesMember "suicideRefundAddress" FixedBytes.toJson entry.suicideRefundAddress,
          valuesMember "rewardAuthor" FixedBytes.toJson entry.rewardAuthor ] ++
      flags
        [ ("transaction", entry.pulls.transaction),
          ("transactionLogs", entry.pulls.transactionLogs),
          ("subtraces", entry.pulls.subtraces),
          ("parents", entry.pulls.parents) ])

end TraceEntry

/-- What a state diff pulls in. -/
structure StateDiffPulls where
  transaction : Bool
  deriving DecidableEq, Inhabited, Repr

/-- Description of state diffs. -/
structure StateDiffEntry where
  address : Option (List Address)
  key : Option (List DiffKey)
  kind : Option (List DiffKind)
  pulls : StateDiffPulls
  deriving DecidableEq, Inhabited, Repr

namespace StateDiffEntry

/-- Reads the key of a state diff. -/
def key? : Json → Option DiffKey
  | str text => DiffKey.ofText? text
  | _ => none

/-- Reads an entry. -/
def ofJson? : Json → Option StateDiffEntry :=
  objectRecord do
    let address ← optional "address" (list? word?)
    let key ← optional "key" (list? key?)
    let kind ← optional "kind" (list? (choice? DiffKind.bySign))
    let transaction ← flag "transaction"
    pure { address, key, kind, pulls := { transaction } }

/-- Writes an entry. -/
def toJson (entry : StateDiffEntry) : Json :=
  obj
    (presentMembers
        [ valuesMember "address" FixedBytes.toJson entry.address,
          valuesMember "key" (fun key => str key.text) entry.key,
          valuesMember "kind" (fun kind => str kind.sign) entry.kind ] ++
      flags [("transaction", entry.pulls.transaction)])

end StateDiffEntry

end ChainFeed
