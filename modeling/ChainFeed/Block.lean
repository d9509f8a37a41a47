import ChainFeed.Block.Header
import ChainFeed.Block.Transaction
import ChainFeed.Block.Log
import ChainFeed.Block.Trace
import ChainFeed.Block.StateDiff

/-!
# Blocks

A block owns its items in four flat lists.  Items refer to one another by
position; a position that is out of range refers to nothing.
-/

namespace ChainFeed

/-- A block with its items. -/
structure Block where
  header : Header
  transactions : List Transaction
  logs : List Log
  traces : List Trace
  stateDiffs : List StateDiff
  deriving DecidableEq, Inhabited, Repr

namespace Block

theorem eq_of_parts {left right : Block} (header : left.header = right.header)
    (transactions : left.transactions = right.transactions) (logs : left.logs = right.logs)
    (traces : left.traces = right.traces) (stateDiffs : left.stateDiffs = right.stateDiffs) :
    left = right := by
  cases left
  cases right
  simp_all

/-- A block without items. -/
def bare (header : Header) : Block := ⟨header, [], [], [], []⟩

/-- The transaction at a position that an item refers to. -/
def transactionAt? (block : Block) (link : Option Nat) : Option Transaction :=
  link.bind (block.transactions[·]?)

/-- The transaction of a log. -/
def logTransaction? (block : Block) (log : Log) : Option Transaction :=
  block.transactionAt? log.transaction

/-- The transaction of a trace. -/
def traceTransaction? (block : Block) (trace : Trace) : Option Transaction :=
  block.transactionAt? trace.transaction

/-- The transaction of a state diff. -/
def stateDiffTransaction? (block : Block) (diff : StateDiff) : Option Transaction :=
  block.transactionAt? diff.transaction

/-- The frame that a trace is a direct sub-call of. -/
def traceParent? (block : Block) (trace : Trace) : Option Trace :=
  trace.parent.bind (block.traces[·]?)

/-- The frames below a trace. -/
def traceChildren (block : Block) (trace : Trace) : List Trace :=
  trace.children.filterMap (block.traces[·]?)

/-- The logs of a transaction. -/
def transactionLogs (block : Block) (transaction : Transaction) : List Log :=
  transaction.logs.filterMap (block.logs[·]?)

/-- The traces of a transaction. -/
def transactionTraces (block : Block) (transaction : Transaction) : List Trace :=
  transaction.traces.filterMap (block.traces[·]?)

/-- The state diffs of a transaction. -/
def transactionStateDiffs (block : Block) (transaction : Transaction) : List StateDiff :=
  transaction.stateDiffs.filterMap (block.stateDiffs[·]?)

/-- The block with no positions in its items. -/
def unlinked (block : Block) : Block where
  header := block.header
  transactions := block.transactions.map Transaction.unlinked
  logs := block.logs.map Log.unlinked
  traces := block.traces.map Trace.unlinked
  stateDiffs := block.stateDiffs.map StateDiff.unlinked

end Block

end ChainFeed
