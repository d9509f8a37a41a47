import ChainFeed.Block.Positions
import ChainFeed.Selection.Match

/-!
# Included items

For a request and a block, the items that the request asks for together with the
items that those pull in.  Items are included by position.  Links of the block
are taken as they stand: a position that is out of range is included like any
other, and stands for nothing.
-/

namespace ChainFeed

/-- Positions of included items, each list ascending and without repetitions. -/
structure Inclusion where
  logs : List Nat
  transactions : List Nat
  traces : List Nat
  stateDiffs : List Nat
  deriving DecidableEq, Inhabited, Repr

namespace Inclusion

/-- Place a position before the first larger one, unless it is there already. -/
def place (position : Nat) : List Nat → List Nat
  | [] => [position]
  | other :: rest =>
      if position < other then position :: other :: rest
      else if position = other then other :: rest
      else other :: place position rest

/-- Positions in ascending order, without repetitions. -/
def ascending (positions : List Nat) : List Nat :=
  positions.foldr place []

theorem mem_place {position other : Nat} {positions : List Nat} :
    other ∈ place position positions ↔ other = position ∨ other ∈ positions := by
  induction positions with
  | nil => simp [place]
  | cons head rest ih =>
      simp only [place]
      split
      · simp
      · split
        · rename_i equal
          subst equal
          simp
        · simp only [List.mem_cons, ih]
          constructor <;> (rintro (same | same | same) <;> simp [same])

@[simp] theorem mem_ascending {position : Nat} {positions : List Nat} :
    position ∈ ascending positions ↔ position ∈ positions := by
  induction positions with
  | nil => simp [ascending]
  | cons head rest ih =>
      simp only [ascending, List.foldr_cons] at ih ⊢
      rw [mem_place, ih, List.mem_cons]

/-- Positions that one item includes. -/
structure Reach where
  logs : List Nat
  transactions : List Nat
  traces : List Nat
  stateDiffs : List Nat

/-- Everything that some items reach. -/
def ofReaches (reaches : List Reach) : Inclusion where
  logs := ascending (reaches.flatMap Reach.logs)
  transactions := ascending (reaches.flatMap Reach.transactions)
  traces := ascending (reaches.flatMap Reach.traces)
  stateDiffs := ascending (reaches.flatMap Reach.stateDiffs)

end Inclusion

namespace Block

/-- Positions of the logs with a transaction index. -/
def logsOf (block : Block) (index : UInt32) : List Nat :=
  positionsWhere (·.transactionIndex == index) block.logs

/-- Positions of the traces with a transaction index. -/
def tracesOf (block : Block) (index : UInt32) : List Nat :=
  positionsWhere (·.transactionIndex == index) block.traces

/-- Positions of the state diffs with a transaction index. -/
def stateDiffsOf (block : Block) (index : UInt32) : List Nat :=
  positionsWhere (·.transactionIndex == index) block.stateDiffs

/-- The position of a trace, the one it names as its parent, and so on up to a
trace without a parent, in at most the given number of steps. -/
def ancestorsWithin (traces : List Trace) : (steps : Nat) → Option Nat → List Nat
  | _, none => []
  | 0, some _ => []
  | steps + 1, some position =>
      position :: ancestorsWithin traces steps (traces[position]?.bind Trace.parent)

/-- All positions on the way up from a link. The way visits no trace twice unless
it never ends, so it has one more step than there are traces at most: the last
one may lead out of range. -/
def ancestors (block : Block) (link : Option Nat) : List Nat :=
  ancestorsWithin block.traces (block.traces.length + 1) link

end Block

namespace Request

open Inclusion

/-- A list if a switch is on. -/
def onlyIf (switch : Bool) (positions : List Nat) : List Nat :=
  if switch then positions else []

/-- What a log at a position includes. -/
def logReach? (request : Request) (block : Block) (position : Nat) (log : Log) :
    Option Reach :=
  (request.logPulls? log).map fun pulls =>
    { logs := position :: onlyIf pulls.transactionLogs (block.logsOf log.transactionIndex)
      transactions := onlyIf pulls.transaction log.transaction.toList
      traces := onlyIf pulls.transactionTraces (block.tracesOf log.transactionIndex)
      stateDiffs :=
        onlyIf pulls.transactionStateDiffs (block.stateDiffsOf log.transactionIndex) }

/-- What a transaction at a position includes. -/
def transactionReach? (request : Request) (position : Nat) (transaction : Transaction) :
    Option Reach :=
  (request.transactionPulls? transaction).map fun pulls =>
    { logs := onlyIf pulls.logs transaction.logs
      transactions := [position]
      traces := onlyIf pulls.traces transaction.traces
      stateDiffs := onlyIf pulls.stateDiffs transaction.stateDiffs }

/-- What a trace at a position includes. -/
def traceReach? (request : Request) (block : Block) (position : Nat) (trace : Trace) :
    Option Reach :=
  (request.tracePulls? trace).map fun pulls =>
    { logs := onlyIf pulls.transactionLogs (block.logsOf trace.transactionIndex)
      transactions := onlyIf pulls.transaction trace.transaction.toList
      traces :=
        position ::
          (onlyIf pulls.parents (block.ancestors trace.parent) ++
            onlyIf pulls.subtraces trace.children)
      stateDiffs := [] }

/-- What a state diff at a position includes. -/
def stateDiffReach? (request : Request) (position : Nat) (diff : StateDiff) : Option Reach :=
  (request.stateDiffPulls? diff).map fun pulls =>
    { logs := []
      transactions := onlyIf pulls.transaction diff.transaction.toList
      traces := []
      stateDiffs := [position] }

/-- What the items with a reach include, for each of some items. -/
def reaches {α : Type} (reach? : Nat → α → Option Reach) (items : List α) : List Reach :=
  items.zipIdx.filterMap fun (item, position) => reach? position item

/-- The items that a request includes. -/
def inclusion (request : Request) (block : Block) : Inclusion :=
  .ofReaches
    (reaches (request.logReach? block) block.logs ++
      reaches request.transactionReach? block.transactions ++
      reaches (request.traceReach? block) block.traces ++
      reaches request.stateDiffReach? block.stateDiffs)

end Request

end ChainFeed
