import ChainFeed.Demand

/-!
# Choice of trace methods

Traces and state diffs can come from replays, from trace blocks or from debug
tracers.  A plan names the methods for one round of enrichment.  Replays serve
finalized blocks only.
-/

namespace ChainFeed

/-- What replays should report. -/
structure ReplayOutputs where
  trace : Bool
  stateDiff : Bool
  deriving DecidableEq, Inhabited, Repr

namespace ReplayOutputs

/-- Nothing. -/
def nothing : ReplayOutputs := ⟨false, false⟩

/-- Whether replays have nothing to report. -/
def isEmpty (outputs : ReplayOutputs) : Bool :=
  !outputs.trace && !outputs.stateDiff

/-- The names of the outputs. -/
def names (outputs : ReplayOutputs) : List String :=
  (if outputs.trace then ["trace"] else []) ++
    if outputs.stateDiff then ["stateDiff"] else []

end ReplayOutputs

/-- The methods to use. -/
structure TracePlan where
  replay : ReplayOutputs
  traceBlock : Bool
  callTrees : Bool
  prestates : Bool
  deriving DecidableEq, Inhabited, Repr

/-- The plan for a demand. State diffs come from replays unless a block is not
finalized or the operator prefers the debug tracer. Traces come from the debug
tracer unless the operator prefers the trace methods; then they come along with
the replays if there are any. -/
def TracePlan.of (demand : Demand) (preferTraceApi debugStateDiffs unfinalized : Bool) :
    TracePlan :=
  let prestates := demand.stateDiffs && (unfinalized || debugStateDiffs)
  let replayStateDiff := demand.stateDiffs && !prestates
  let callTrees := demand.traces && !preferTraceApi
  let traceBlock := demand.traces && preferTraceApi && (unfinalized || !replayStateDiff)
  { replay :=
      { trace := demand.traces && !callTrees && !traceBlock
        stateDiff := replayStateDiff }
    traceBlock
    callTrees
    prestates }

end ChainFeed
