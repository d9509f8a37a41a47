import ChainFeed.Projection

/-!
# Projection step by step

The items that a demand asks for are built in a few steps, each from one source of a
fetched block.
-/

namespace ChainFeed.Projection

/-- The transactions of the body that a demand asks for. -/
def bodyTransactions (demand : Demand) (fetched : FetchedBlock) :
    Except ProjectionFault (List Transaction) :=
  if demand.transactionList then
    Transaction.ofBody demand.fields.transaction fetched.block.transactions
  else
    pure []

/-- The receipts that a demand asks for. -/
def demandedReceipts (demand : Demand) (fetched : FetchedBlock) :
    Except ProjectionFault (List Raw.Receipt) :=
  if demand.receipts then
    match fetched.data.receipts with
    | none => throw .missingReceipts
    | some receipts => pure receipts
  else
    pure []

/-- Transactions with the logs of receipts, or with listed logs if there are any. -/
def withListedLogs (demand : Demand) (fetched : FetchedBlock) (receipts : List Raw.Receipt)
    (items : List Transaction × List Log) :
    Except ProjectionFault (List Transaction × List Log) :=
  match fetched.data.logs with
  | none => pure items
  | some logs =>
      if demand.logList && !receipts.isEmpty then
        throw .duplicateLogSource
      else do
        let listed ← logs.mapM (Log.project demand.fields.log)
        pure (items.1, listed)

theorem transactionsAndLogs_eq (demand : Demand) (fetched : FetchedBlock) :
    transactionsAndLogs demand fetched =
      (do
        let transactions ← bodyTransactions demand fetched
        let receipts ← demandedReceipts demand fetched
        let items ← withReceiptsFrom demand fetched.block.transactions 0 transactions receipts
        withListedLogs demand fetched receipts items) := by
  unfold transactionsAndLogs bodyTransactions demandedReceipts withListedLogs
  cases demand.transactionList <;> cases demand.receipts <;> cases fetched.data.receipts <;> rfl

/-- The traces of call trees if there are any, or else of replays. -/
def withCallTrees (fields : TraceFields) (fetched : FetchedBlock) (replayTraces : List Trace) :
    Except ProjectionFault (List Trace) :=
  match fetched.data.callTrees with
  | none => pure replayTraces
  | some trees =>
      if !replayTraces.isEmpty then throw .duplicateTraceSource else ofCallTrees fields trees

/-- The state diffs of snapshots if there are any, or else of replays. -/
def withPrestates (fetched : FetchedBlock) (replayDiffs : List StateDiff) :
    Except ProjectionFault (List StateDiff) :=
  match fetched.data.prestates with
  | none => pure replayDiffs
  | some prestates =>
      if !replayDiffs.isEmpty then throw .duplicateStateDiffSource else pure (ofPrestates prestates)

theorem tracesAndStateDiffs_eq (fields : TraceFields) (fetched : FetchedBlock) :
    tracesAndStateDiffs fields fetched =
      (do
        let replayed ←
          (fetched.data.replays.getD []).mapM (ofReplay fields fetched.block.transactions)
        let traces ← withCallTrees fields fetched (replayed.flatMap Prod.fst)
        let stateDiffs ← withPrestates fetched (replayed.flatMap Prod.snd)
        pure (traces, stateDiffs)) := by
  unfold tracesAndStateDiffs withCallTrees withPrestates
  apply bind_congr
  intro replayed
  dsimp only
  cases (replayed.flatMap Prod.fst).isEmpty <;> cases (replayed.flatMap Prod.snd).isEmpty <;>
    cases fetched.data.callTrees <;> cases fetched.data.prestates <;> rfl

end ChainFeed.Projection
