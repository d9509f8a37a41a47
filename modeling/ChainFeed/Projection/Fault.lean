import ChainFeed.Bytes.Hex
import ChainFeed.Text.Quoted

/-!
# Faults of fetched data

What a node answered can be well formed and still contradict itself.  Such a
contradiction shows when canonical items are built.
-/

namespace ChainFeed

/-- The indexes that an item carries. -/
inductive IndexName where
  | transactionIndex
  | logIndex
  deriving DecidableEq, Repr

/-- The name of an index. -/
def IndexName.name : IndexName → String
  | transactionIndex => "transactionIndex"
  | logIndex => "logIndex"

/-- Why canonical items cannot be built from fetched data. -/
inductive ProjectionFault where
  | transactionIndexMismatch (position : Nat) (index : UInt64)
  | missingReceipts
  | receiptWithoutTransaction (position : Nat)
  | receiptTransactionMismatch (position : Nat) (receiptTransaction bodyTransaction : Hash)
  | missingReceiptLogs (position : Nat)
  | duplicateLogSource
  | duplicateTraceSource
  | duplicateStateDiffSource
  | unknownReplayTransaction (hash : Hash)
  | unexpectedTraceType (type : String)
  | stopFrameWithCalls
  | indexOverflow (index : IndexName) (value : UInt64)
  deriving DecidableEq, Repr

namespace ProjectionFault

/-- The wording of a fault. -/
def message : ProjectionFault → String
  | transactionIndexMismatch position index =>
      "transaction at position " ++ toString position ++ " has transactionIndex " ++
        toString index
  | missingReceipts => "receipts were requested but not fetched"
  | receiptWithoutTransaction position =>
      "receipt " ++ toString position ++ " has no matching transaction"
  | receiptTransactionMismatch position receiptTransaction bodyTransaction =>
      "receipt " ++ toString position ++ " belongs to transaction " ++ receiptTransaction.text ++
        ", expected " ++ bodyTransaction.text
  | missingReceiptLogs position => "receipt " ++ toString position ++ " carries no logs"
  | duplicateLogSource => "logs were supplied by both receipts and eth_getLogs"
  | duplicateTraceSource => "traces were supplied by both replay and debug tracers"
  | duplicateStateDiffSource => "state diffs were supplied by both replay and debug tracers"
  | unknownReplayTransaction hash => "trace replay refers to unknown transaction " ++ hash.text
  | unexpectedTraceType type => "unexpected trace type " ++ Text.quoted type
  | stopFrameWithCalls => "top level STOP frame has sub-calls"
  | indexOverflow index value =>
      index.name ++ " " ++ toString value ++ " does not fit in 32 bits"

end ProjectionFault

end ChainFeed
