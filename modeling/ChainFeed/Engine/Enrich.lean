import ChainFeed.Engine.Logs
import ChainFeed.Engine.Traces

/-!
# Enriching blocks

One round of enrichment fetches all that a demand asks for, for a batch of blocks
at once: first logs, then receipts, then traces and state diffs.  The blocks are
changed only after all of it was fetched.
-/

namespace ChainFeed.Endpoint

variable {σ : Type}

/-- The blocks with what a demand asks for added. -/
def enrich (endpoint : Endpoint σ) (demand : Demand) (finalized : Option UInt64)
    (blocks : List FetchedBlock) : Dialogue σ (List FetchedBlock) := do
  if blocks.isEmpty then
    pure []
  else
    let logs ← fetchIf demand.logs (endpoint.fetchLogs blocks)
    let receipts ← fetchIf demand.receipts (endpoint.fetchReceipts blocks)
    let traces ←
      fetchIf (demand.traces || demand.stateDiffs)
        (endpoint.fetchTraces demand finalized blocks)
    pure
      (FetchedBlock.enrichEach blocks
        (Enrichment.mergeAll blocks.length [logs, receipts, traces]))

end ChainFeed.Endpoint
