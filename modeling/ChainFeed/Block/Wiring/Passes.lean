import ChainFeed.Block.Wiring

/-!
# Wiring in passes

Once the items of a block are in canonical order, its links can be set in passes that write
every link where it is found.  A table tells the position of the transaction with an index.
One pass over the items of each kind links them and their transactions to one another, and
the pass over the traces looks ahead for the frames below each of them.

Every step names positions, and it fails at one that does not exist.  So a block that is wired
in this way is wired without going out of range.
-/

namespace ChainFeed

/-- Changes the item at a position, which has to be there. -/
def changeAt? {α : Type} (change : α → α) (position : Nat) (items : List α) :
    Option (List α) :=
  if position < items.length then some (items.modify position change) else none

/-- Positions of transactions by their indexes. -/
structure PositionTable where
  positions : List (Option Nat)

namespace PositionTable

/-- One more than the index of the last transaction. -/
def size (transactions : List Transaction) : Nat :=
  transactions.getLast?.elim 0 fun last => last.transactionIndex.toNat + 1

/-- Notes the position of a transaction at its index. -/
def note? (positions : List (Option Nat)) (entry : Transaction × Nat) :
    Option (List (Option Nat)) :=
  changeAt? (fun _ => some entry.2) entry.1.transactionIndex.toNat positions

/-- A table for transactions in canonical order. It ends at the index of the last one, and of
transactions with the same index it has the last one. -/
def ofTransactions? (transactions : List Transaction) : Option PositionTable :=
  (transactions.zipIdx.foldlM note? (List.replicate (size transactions) none)).map mk

/-- The position of the transaction with an index. An index beyond the table has none. -/
def position? (table : PositionTable) (index : UInt32) : Option Nat :=
  table.positions[index.toNat]?.join

end PositionTable

/-- How items of one kind and their transactions are linked to one another. -/
structure Linking (α : Type) where
  index : α → UInt32
  /-- The item with a link to the transaction at a position. -/
  link : Nat → α → α
  /-- The transaction with a further link, to the item at a place. -/
  record : Nat → Transaction → Transaction

namespace Linking

/-- How logs are linked. -/
def logs : Linking Log where
  index := Log.transactionIndex
  link position log := { log with transaction := some position }
  record place transaction := { transaction with logs := transaction.logs ++ [place] }

/-- How traces are linked to transactions. -/
def traces : Linking Trace where
  index := Trace.transactionIndex
  link position trace := { trace with transaction := some position }
  record place transaction := { transaction with traces := transaction.traces ++ [place] }

/-- How state diffs are linked. -/
def stateDiffs : Linking StateDiff where
  index := StateDiff.transactionIndex
  link position diff := { diff with transaction := some position }
  record place transaction :=
    { transaction with stateDiffs := transaction.stateDiffs ++ [place] }

variable {α : Type} (linking : Linking α) (table : PositionTable)

/-- Links the item at a place and its transaction, if there is one, to one another. -/
def linkAt? (place : Nat) (items : List α) (transactions : List Transaction) :
    Option (List α × List Transaction) := do
  let item ← items[place]?
  match table.position? (linking.index item) with
  | none => pure (items, transactions)
  | some position => do
      let items ← changeAt? (linking.link position) place items
      let transactions ← changeAt? (linking.record place) position transactions
      pure (items, transactions)

/-- Links all items, one after another. -/
def linkAll? (items : List α) (transactions : List Transaction) :
    Option (List α × List Transaction) :=
  (List.range items.length).foldlM
    (fun (items, transactions) place => linking.linkAt? table place items transactions)
    (items, transactions)

end Linking

namespace Trace

/-- Links the trace at a place to the frames below it among those that follow, from `next` on,
and stops at the first one that is not below it. -/
def scanBelow? (start depth : Nat) : (count next : Nat) → List Trace → Option (List Trace)
  | 0, _, traces => pure traces
  | count + 1, next, traces => do
      let upper ← traces[start]?
      let lower ← traces[next]?
      if upper.isAncestorOf lower then
        let traces ←
          changeAt? (fun upper => { upper with children := upper.children ++ [next] }) start
            traces
        let traces ←
          if lower.traceAddress.length = depth + 1 then
            changeAt? (fun lower => { lower with parent := some start }) next traces
          else
            pure traces
        scanBelow? start depth count (next + 1) traces
      else
        pure traces

/-- Links the trace at a place to its transaction and to the frames below it. -/
def linkAt? (table : PositionTable) (start : Nat) (traces : List Trace)
    (transactions : List Transaction) : Option (List Trace × List Transaction) := do
  let (traces, transactions) ← Linking.traces.linkAt? table start traces transactions
  let upper ← traces[start]?
  let traces ←
    scanBelow? start upper.traceAddress.length (traces.length - (start + 1)) (start + 1) traces
  pure (traces, transactions)

/-- Links all traces, one after another. -/
def linkAll? (table : PositionTable) (traces : List Trace) (transactions : List Transaction) :
    Option (List Trace × List Transaction) :=
  (List.range traces.length).foldlM
    (fun (traces, transactions) start => linkAt? table start traces transactions)
    (traces, transactions)

end Trace

namespace Block

/-- The block with its items in canonical order and linked, in passes over them. -/
def wireInPasses? (block : Block) : Option Block := do
  let arranged := block.arrange
  let table ← PositionTable.ofTransactions? arranged.transactions
  let (logs, transactions) ← Linking.logs.linkAll? table arranged.logs arranged.transactions
  let (traces, transactions) ← Trace.linkAll? table arranged.traces transactions
  let (stateDiffs, transactions) ←
    Linking.stateDiffs.linkAll? table arranged.stateDiffs transactions
  pure { header := arranged.header, transactions, logs, traces, stateDiffs }

end Block

end ChainFeed
