import ChainFeed.Block.Positions
import ChainFeed.Block
import ChainFeed.Demand
import ChainFeed.Enrichment
import ChainFeed.Projection.Header
import ChainFeed.Projection.Log
import ChainFeed.Projection.StateDiff
import ChainFeed.Projection.Trace
import ChainFeed.Projection.Transaction

/-!
# Blocks from fetched blocks

The items that a demand asks for are built from what a node answered, without
order and links.  Two sources for the same kind of item are a fault, and so is an
item that refers to no transaction of the body.
-/

namespace ChainFeed

namespace Projection

/-- Adds receipts to the transactions of a body from a position on, and collects
their logs. The receipts have to name the transactions in the order of the body. -/
def withReceiptsFrom (demand : Demand) (body : Raw.Body) (position : Nat)
    (transactions : List Transaction) :
    List Raw.Receipt → Except ProjectionFault (List Transaction × List Log)
  | [] => .ok (transactions, [])
  | receipt :: rest => do
      let some bodyTransaction := body.hash? position
        | throw (.receiptWithoutTransaction position)
      if receipt.transactionHash ≠ bodyTransaction then
        throw (.receiptTransactionMismatch position receipt.transactionHash bodyTransaction)
      match transactions with
      | [] => throw (.receiptWithoutTransaction position)
      | transaction :: later => do
          let logs ←
            if demand.logList then
              match receipt.logs with
              | none => throw (.missingReceiptLogs position)
              | some logs => logs.mapM (Log.project demand.fields.log)
            else
              pure []
          let (laterTransactions, laterLogs) ←
            withReceiptsFrom demand body (position + 1) later rest
          pure
            (transaction.withReceipt receipt demand.fields.transaction :: laterTransactions,
              logs ++ laterLogs)

/-- The transactions and logs that a demand asks for. -/
def transactionsAndLogs (demand : Demand) (fetched : FetchedBlock) :
    Except ProjectionFault (List Transaction × List Log) := do
  let body := fetched.block.transactions
  let bodyTransactions ←
    if demand.transactionList then
      Transaction.ofBody demand.fields.transaction body
    else
      pure []
  let receipts ←
    if demand.receipts then
      match fetched.data.receipts with
      | none => throw .missingReceipts
      | some receipts => pure receipts
    else
      pure []
  let (transactions, receiptLogs) ← withReceiptsFrom demand body 0 bodyTransactions receipts
  match fetched.data.logs with
  | none => pure (transactions, receiptLogs)
  | some logs => do
      if demand.logList && !receipts.isEmpty then
        throw .duplicateLogSource
      let listed ← logs.mapM (Log.project demand.fields.log)
      pure (transactions, listed)

/-- The traces and state diffs of one replay. A replay without a hash is taken to
name the zero hash. -/
def ofReplay (fields : TraceFields) (body : Raw.Body) (replay : Raw.Replay) :
    Except ProjectionFault (List Trace × List StateDiff) := do
  let hash := replay.transactionHash.getD (.zero 32)
  let some position := lastPositionWhere? (· == hash) body.toHashes
    | throw (.unknownReplayTransaction hash)
  let index := UInt32.ofNat position
  let traces ← (replay.trace.getD []).mapM (Trace.ofFrame fields index)
  let stateDiffs := (replay.stateDiff.map (StateDiff.ofReplay index)).getD []
  pure (traces, stateDiffs)

/-- The traces of call trees, given by position of their transaction. -/
def ofCallTrees (fields : TraceFields) (results : List (Option Raw.CallTreeResult)) :
    Except ProjectionFault (List Trace) := do
  let traces ← results.zipIdx.mapM fun
    | (none, _) => pure []
    | (some tree, position) => Trace.ofCallTree fields (UInt32.ofNat position) tree.result
  pure traces.flatten

/-- The state diffs of snapshots, given by position of their transaction. -/
def ofPrestates (results : List (Option Raw.PrestateResult)) : List StateDiff :=
  results.zipIdx.flatMap fun
    | (none, _) => []
    | (some prestate, position) =>
        StateDiff.ofSnapshots (UInt32.ofNat position) prestate.result

/-- The traces and state diffs of a fetched block. -/
def tracesAndStateDiffs (fields : TraceFields) (fetched : FetchedBlock) :
    Except ProjectionFault (List Trace × List StateDiff) := do
  let replayed ←
    (fetched.data.replays.getD []).mapM (ofReplay fields fetched.block.transactions)
  let replayTraces := replayed.flatMap Prod.fst
  let replayDiffs := replayed.flatMap Prod.snd
  let traces ←
    match fetched.data.callTrees with
    | none => pure replayTraces
    | some trees => do
        if !replayTraces.isEmpty then
          throw .duplicateTraceSource
        ofCallTrees fields trees
  let stateDiffs ←
    match fetched.data.prestates with
    | none => pure replayDiffs
    | some prestates => do
        if !replayDiffs.isEmpty then
          throw .duplicateStateDiffSource
        pure (ofPrestates prestates)
  pure (traces, stateDiffs)

end Projection

/-- The block that a demand asks for, from a fetched block. -/
def FetchedBlock.project (fetched : FetchedBlock) (demand : Demand) :
    Except ProjectionFault Block := do
  let header := Header.project fetched.block demand.fields.block
  let (transactions, logs) ← Projection.transactionsAndLogs demand fetched
  let (traces, stateDiffs) ← Projection.tracesAndStateDiffs demand.fields.trace fetched
  pure { header, transactions, logs, traces, stateDiffs }

end ChainFeed
