import ChainFeed.Request.Entry

/-!
# Requests

A request lists entries for each kind of item.  The entries of one kind are
alternatives.  From the entries and their switches follows which kinds have to be
at hand before items can be selected.
-/

namespace ChainFeed

open Json

/-- What items a caller asks for. -/
structure Request where
  logs : List LogEntry
  transactions : List TransactionEntry
  traces : List TraceEntry
  stateDiffs : List StateDiffEntry
  deriving DecidableEq, Inhabited, Repr

namespace Request

/-- The request that asks for nothing. -/
def empty : Request := ⟨[], [], [], []⟩

/-- Whether the request has no entries. -/
def isEmpty (request : Request) : Bool :=
  request.logs.isEmpty && request.transactions.isEmpty && request.traces.isEmpty &&
    request.stateDiffs.isEmpty

/-- Whether the transactions of a block are needed. -/
def needsTransactions (request : Request) : Bool :=
  !request.transactions.isEmpty ||
    request.logs.any (·.pulls.transaction) ||
    request.traces.any (·.pulls.transaction) ||
    request.stateDiffs.any (·.pulls.transaction)

/-- Whether the logs of a block are needed. -/
def needsLogs (request : Request) : Bool :=
  !request.logs.isEmpty ||
    request.transactions.any (·.pulls.logs) ||
    request.traces.any (·.pulls.transactionLogs)

/-- Whether the traces of a block are needed. -/
def needsTraces (request : Request) : Bool :=
  !request.traces.isEmpty ||
    request.transactions.any (·.pulls.traces) ||
    request.logs.any (·.pulls.transactionTraces)

/-- Whether the state diffs of a block are needed. -/
def needsStateDiffs (request : Request) : Bool :=
  !request.stateDiffs.isEmpty ||
    request.transactions.any (·.pulls.stateDiffs) ||
    request.logs.any (·.pulls.transactionStateDiffs)

/-- Reads a request. -/
def ofJson? : Json → Option Request :=
  record do
    let logs ← defaulted "logs" (list? LogEntry.ofJson?) []
    let transactions ← defaulted "transactions" (list? TransactionEntry.ofJson?) []
    let traces ← defaulted "traces" (list? TraceEntry.ofJson?) []
    let stateDiffs ← defaulted "stateDiffs" (list? StateDiffEntry.ofJson?) []
    pure { logs, transactions, traces, stateDiffs }

/-- The members of a written request. -/
def members (request : Request) : List (String × Json) :=
  [ ("logs", arr (request.logs.map LogEntry.toJson)),
    ("transactions", arr (request.transactions.map TransactionEntry.toJson)),
    ("traces", arr (request.traces.map TraceEntry.toJson)),
    ("stateDiffs", arr (request.stateDiffs.map StateDiffEntry.toJson)) ]

/-- Writes a request. -/
def toJson (request : Request) : Json :=
  obj request.members

end Request

end ChainFeed
