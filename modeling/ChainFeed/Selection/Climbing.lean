import ChainFeed.Selection

/-!
# Climbing without a limit

The way up from a trace follows stored links and takes no note of where it has been, so it
need not end: where links lead round in a circle it goes on for ever.  Here a way that never
ends has no outcome, and neither has anything that waits for it.
-/

namespace ChainFeed

namespace Block

/-- All positions on the way up from a link, if the way ends. -/
def climb? (block : Block) (link : Option Nat) : Option (List Nat) :=
  match link with
  | none => some []
  | some position => do
      let above ← block |>.climb? (block.traces[position]?.bind Trace.parent)
      pure (position :: above)
partial_fixpoint

end Block

namespace Request

open Inclusion

/-- What a trace at a position includes, once the way up from it has been climbed, if that is
asked for. -/
def traceReachByClimbing? (request : Request) (block : Block) (position : Nat)
    (trace : Trace) : Option (Option Reach) :=
  match request.tracePulls? trace with
  | none => some none
  | some pulls => do
      let parents ← if pulls.parents then block.climb? trace.parent else pure []
      pure (some
        { logs := onlyIf pulls.transactionLogs (block.logsOf trace.transactionIndex)
          transactions := onlyIf pulls.transaction trace.transaction.toList
          traces := position :: (parents ++ onlyIf pulls.subtraces trace.children)
          stateDiffs := [] })

/-- The items that a request includes, if all climbs on the way there end. -/
def inclusionByClimbing? (request : Request) (block : Block) : Option Inclusion := do
  let traceReaches ← block.traces.zipIdx.mapM fun entry =>
    request.traceReachByClimbing? block entry.2 entry.1
  pure (.ofReaches
    (reaches (request.logReach? block) block.logs ++
      reaches request.transactionReach? block.transactions ++
      traceReaches.filterMap id ++
      reaches request.stateDiffReach? block.stateDiffs))

/-- Which items of a block a request keeps if it includes some. -/
def keepIncluded (request : Request) (block : Block) (inclusion : Inclusion) : Keep where
  transactions :=
    Keep.marks (!request.transactions.isEmpty) inclusion.transactions block.transactions.length
  logs := Keep.marks (!request.logs.isEmpty) inclusion.logs block.logs.length
  traces := Keep.marks (!request.traces.isEmpty) inclusion.traces block.traces.length
  stateDiffs :=
    Keep.marks (!request.stateDiffs.isEmpty) inclusion.stateDiffs block.stateDiffs.length

theorem keep_eq_keepIncluded (request : Request) (block : Block) :
    request.keep block = request.keepIncluded block (request.inclusion block) := rfl

end Request

namespace Block

/-- Keeps the items of a block that a request includes, if all climbs end. -/
def selectByClimbing? (block : Block) (request : Request) : Option Block :=
  (request.inclusionByClimbing? block).map fun inclusion =>
    block.prune (request.keepIncluded block inclusion)

end Block

end ChainFeed
