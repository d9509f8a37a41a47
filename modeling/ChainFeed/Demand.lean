import ChainFeed.Request
import ChainFeed.Request.Fields

/-!
# Demands

A request and a selection of properties together determine what has to be fetched
from a node and which items have to be built from it.  Nothing is fetched that
neither of them needs.
-/

namespace ChainFeed

/-- What has to be fetched and built. -/
structure Demand where
  request : Request
  fields : FieldSelection
  /-- Build one transaction for every entry of the body. -/
  transactionList : Bool
  /-- Build logs, from receipts or from a list of logs. -/
  logList : Bool
  /-- Fetch transactions in full rather than their hashes. -/
  transactions : Bool
  /-- Fetch a list of logs. -/
  logs : Bool
  receipts : Bool
  traces : Bool
  stateDiffs : Bool
  deriving DecidableEq, Inhabited, Repr

/-- The demand of a request and a selection. Receipts carry the logs as well, so
the logs are listed separately only if no receipts are fetched. -/
def Demand.of (request : Request) (fields : FieldSelection) : Demand :=
  let transactionList := request.needsTransactions
  let logList := request.needsLogs
  let receipts := transactionList && fields.transaction.anyOfReceipt
  { request
    fields
    transactionList
    logList
    transactions :=
      !request.transactions.isEmpty || (transactionList && fields.transaction.anyOfBody)
    logs := logList && !receipts
    receipts
    traces := request.needsTraces
    stateDiffs := request.needsStateDiffs }

end ChainFeed
