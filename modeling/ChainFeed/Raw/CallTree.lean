import ChainFeed.Json.Record

/-!
# Call trees of the debug tracer

A transaction's calls nest: every call lists the calls that it made, in order.
-/

namespace ChainFeed.Raw

open Json

/-- One call, apart from the calls that it made. -/
structure Call where
  type : String
  sender : Option Address
  recipient : Option Address
  value : Option Quantity
  gas : Option Quantity
  gasUsed : Option Quantity
  input : Bytes
  output : Option Bytes
  error : Option String
  revertReason : Option String
  deriving DecidableEq, Repr

/-- A call with the trees of the calls that it made. -/
inductive CallTree where
  | node (call : Call) (calls : List CallTree)

namespace CallTree

/-- The call at the root. -/
def call : CallTree → Call
  | node call _ => call

/-- The trees below the root. -/
def calls : CallTree → List CallTree
  | node _ calls => calls

/-- Reads a call tree that nests no deeper than a bound. -/
def ofJsonWithin? : (depth : Nat) → Json → Option CallTree
  | 0, _ => none
  | depth + 1, document =>
      record
        (do
          let type ← required "type" text?
          let sender ← optional "from" word?
          let recipient ← optional "to" word?
          let value ← optional "value" quantity?
          let gas ← optional "gas" quantity?
          let gasUsed ← optional "gasUsed" quantity?
          let input ← defaulted "input" bytes? .empty
          let output ← optional "output" bytes?
          let error ← optional "error" text?
          let revertReason ← optional "revertReason" text?
          let calls ← defaulted "calls" (list? (ofJsonWithin? depth)) []
          pure
            (node
              { type, sender, recipient, value, gas, gasUsed, input, output, error,
                revertReason }
              calls))
        document

/-- Reads a call tree. A tree is never deeper than the document that holds it. -/
def ofJson? (document : Json) : Option CallTree :=
  ofJsonWithin? (document.depth + 1) document

end CallTree

/-- The call tree of one transaction. -/
structure CallTreeResult where
  result : CallTree
  transactionHash : Option Hash

/-- Reads the call tree of one transaction. -/
def CallTreeResult.ofJson? : Json → Option CallTreeResult :=
  record do
    let result ← required "result" CallTree.ofJson?
    let transactionHash ← optional "txHash" word?
    pure { result, transactionHash }

end ChainFeed.Raw
