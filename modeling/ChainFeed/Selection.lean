import ChainFeed.Selection.Inclusion

/-!
# Selecting items of a block

A request keeps the items that it includes and drops the others, but only of
kinds that it has entries for: of any other kind it keeps everything.  The
positions in the kept items are renumbered, so that they refer to the same items
as before; a position of a dropped item is forgotten.
-/

namespace ChainFeed

/-- Which items of a block to keep, by position. -/
structure Keep where
  transactions : List Bool
  logs : List Bool
  traces : List Bool
  stateDiffs : List Bool

namespace Keep

/-- The items marked as kept, in order. -/
def retain {α : Type} : List Bool → List α → List α
  | true :: marks, item :: items => item :: retain marks items
  | false :: marks, _ :: items => retain marks items
  | _, _ => []

/-- The position of an item among the kept ones, if it is one of them. -/
def newPosition? (marks : List Bool) (position : Nat) : Option Nat :=
  if marks[position]? = some true then some ((marks.take position).count true) else none

/-- The new positions of the kept ones of some items. -/
def newPositions (marks : List Bool) (positions : List Nat) : List Nat :=
  positions.filterMap (newPosition? marks)

/-- Marks for a number of items: all are kept unless there are entries for the
kind, and then the included ones are. -/
def marks (hasEntries : Bool) (included : List Nat) (count : Nat) : List Bool :=
  (List.range count).map fun position => !hasEntries || included.contains position

end Keep

namespace Request

/-- Which items of a block a request keeps. -/
def keep (request : Request) (block : Block) : Keep :=
  let inclusion := request.inclusion block
  { transactions :=
      Keep.marks (!request.transactions.isEmpty) inclusion.transactions
        block.transactions.length
    logs := Keep.marks (!request.logs.isEmpty) inclusion.logs block.logs.length
    traces := Keep.marks (!request.traces.isEmpty) inclusion.traces block.traces.length
    stateDiffs :=
      Keep.marks (!request.stateDiffs.isEmpty) inclusion.stateDiffs block.stateDiffs.length }

end Request

namespace Block

/-- Drops the items that are not to be kept, and renumbers the positions in those
that are. -/
def prune (block : Block) (keep : Keep) : Block where
  header := block.header
  transactions := (Keep.retain keep.transactions block.transactions).map fun transaction =>
    { transaction with
      logs := Keep.newPositions keep.logs transaction.logs
      traces := Keep.newPositions keep.traces transaction.traces
      stateDiffs := Keep.newPositions keep.stateDiffs transaction.stateDiffs }
  logs := (Keep.retain keep.logs block.logs).map fun log =>
    { log with
      transaction := log.transaction.bind (Keep.newPosition? keep.transactions) }
  traces := (Keep.retain keep.traces block.traces).map fun trace =>
    { trace with
      transaction := trace.transaction.bind (Keep.newPosition? keep.transactions)
      parent := trace.parent.bind (Keep.newPosition? keep.traces)
      children := Keep.newPositions keep.traces trace.children }
  stateDiffs := (Keep.retain keep.stateDiffs block.stateDiffs).map fun diff =>
    { diff with
      transaction := diff.transaction.bind (Keep.newPosition? keep.transactions) }

/-- Keeps the items of a block that a request includes. -/
def select (block : Block) (request : Request) : Block :=
  block.prune (request.keep block)

end Block

end ChainFeed
