import ChainFeed.Block.Wiring
import ChainFeed.Engine.Finalized
import ChainFeed.Engine.Head
import ChainFeed.Projection
import ChainFeed.Selection

/-!
# The feed of blocks

Fetched blocks become canonical ones, are wired, and keep the items that were
asked for.  Finalized blocks are served at given heights; near the head, a range
is served as far as it is consistent.
-/

namespace ChainFeed

/-- Blocks that are served together. -/
structure BlockBatch where
  blocks : List Block
  /-- Whether the last block is at the head of the chain, as the node sees it. -/
  isHead : Bool

/-- The block that is served for a fetched one. -/
def FetchedBlock.serve (demand : Demand) (fetched : FetchedBlock) : Except Fault Block :=
  match fetched.project demand with
  | .ok block => .ok (block.wire.select demand.request)
  | .error fault => .error (.projection fetched.height fetched.hash fault)

namespace Endpoint

variable {σ : Type}

/-- The height up to which blocks are served as finalized. A node that is used for
finalized blocks is taken to report no height beyond them. -/
def finalizedHeight (endpoint : Endpoint σ) : Dialogue σ UInt64 :=
  endpoint.chainHeight

/-- Finalized blocks at several heights, in the order of the heights. -/
def finalizedBatch (endpoint : Endpoint σ) (heights : List UInt64) (demand : Demand) :
    Dialogue σ BlockBatch := do
  let fetched ← endpoint.finalizedSplit heights demand
  let blocks ← liftExcept (fetched.mapM (FetchedBlock.serve demand))
  pure { blocks, isHead := false }
where
  /-- A dialogue in which nothing is said. -/
  liftExcept {α : Type} (result : Except Fault α) : Dialogue σ α :=
    match result with
    | .ok value => pure value
    | .error fault => throw fault

/-- The consistent blocks at the start of a range of heights. -/
def hotBatch (endpoint : Endpoint σ) (first last finalized : UInt64) (demand : Demand) :
    Dialogue σ BlockBatch := do
  let fetched ← endpoint.headSplit first last demand finalized
  let blocks ← finalizedBatch.liftExcept (fetched.mapM (FetchedBlock.serve demand))
  match blocks.getLast? with
  | none => pure { blocks, isHead := false }
  | some block => do
      let height ← endpoint.chainHeight
      pure { blocks, isHead := decide (height ≤ block.header.height) }

end Endpoint

end ChainFeed
