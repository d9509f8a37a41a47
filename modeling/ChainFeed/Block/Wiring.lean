import ChainFeed.Block
import ChainFeed.Block.Positions

/-!
# Wiring of blocks

Wiring puts the items of a block into canonical order and links them: every item
to its transaction, every transaction to its items, every trace to its parent
and to the frames below it.  Whatever positions the items held before is
forgotten first, so only their content counts.
-/

namespace ChainFeed

namespace Trace

/-- For every trace the number of frames below it. In canonical order the frames
below a trace follow it without a gap. -/
def descendantCounts : List Trace → List Nat
  | [] => []
  | trace :: rest =>
      (rest.takeWhile trace.isAncestorOf).length :: descendantCounts rest

/-- The last trace that has the frame at a position among the frames below it,
one level up. -/
def parentPosition? (traces : List Trace) (counts : List Nat) (position : Nat)
    (trace : Trace) : Option Nat :=
  lastPositionWhere?
    (fun ((candidate, count), start) =>
      start < position && position ≤ start + count &&
        candidate.traceAddress.length + 1 == trace.traceAddress.length)
    (traces.zip counts).zipIdx

/-- Links traces in canonical order to one another. -/
def linkTree (traces : List Trace) : List Trace :=
  let counts := descendantCounts traces
  traces.mapIdx fun position trace =>
    { trace with
      parent := parentPosition? traces counts position trace
      children := List.range' (position + 1) (counts[position]?.getD 0) }

end Trace

namespace Transaction

/-- The position of the last transaction with an index. -/
def position? (transactions : List Transaction) (index : UInt32) : Option Nat :=
  lastPositionWhere? (fun transaction => transaction.transactionIndex == index) transactions

end Transaction

namespace Block

/-- Items in canonical order, without positions: transactions by index, logs by
index, traces by place in the call tree, state diffs as they are. -/
def arrange (block : Block) : Block where
  header := block.header
  transactions := (block.transactions.map Transaction.unlinked).mergeSort fun left right =>
    left.transactionIndex ≤ right.transactionIndex
  logs := (block.logs.map Log.unlinked).mergeSort fun left right =>
    left.logIndex ≤ right.logIndex
  traces := (block.traces.map Trace.unlinked).mergeSort fun left right =>
    (left.order right).isLE
  stateDiffs := block.stateDiffs.map StateDiff.unlinked

/-- Links every item to its transaction and every trace to its call tree. -/
def linkItems (block : Block) : Block :=
  let position := Transaction.position? block.transactions
  { block with
    logs := block.logs.map fun log =>
      { log with transaction := position log.transactionIndex }
    traces := (Trace.linkTree block.traces).map fun trace =>
      { trace with transaction := position trace.transactionIndex }
    stateDiffs := block.stateDiffs.map fun diff =>
      { diff with transaction := position diff.transactionIndex } }

/-- Links every transaction to the items that are linked to it. -/
def linkTransactions (block : Block) : Block :=
  { block with
    transactions := block.transactions.mapIdx fun position transaction =>
      { transaction with
        logs := positionsWhere (fun log => log.transaction == some position) block.logs
        traces := positionsWhere (fun trace => trace.transaction == some position) block.traces
        stateDiffs :=
          positionsWhere (fun diff => diff.transaction == some position) block.stateDiffs } }

/-- The block with its items in canonical order and linked. -/
def wire (block : Block) : Block :=
  block.arrange.linkItems.linkTransactions

end Block

end ChainFeed
