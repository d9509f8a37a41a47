import ChainFeed.Engine.Dialogue

/-!
# Fetching blocks

Single blocks by height or hash, and batches of blocks by height.  A node that
does not have a block yet answers null, or with an error that counts as null.
-/

namespace ChainFeed.Endpoint

variable {σ : Type}

/-- The call for the block at a height. -/
def blockCall (height : UInt64) (full : Bool) : Call :=
  ⟨"eth_getBlockByNumber", [heightParam height, .bool full]⟩

/-- The height of the chain as the node sees it. -/
def chainHeight (endpoint : Endpoint σ) : Dialogue σ UInt64 :=
  endpoint.call ⟨"eth_blockNumber", []⟩ endpoint.options Json.quantity64?

/-- The block at a height. -/
def blockByHeight (endpoint : Endpoint σ) (height : UInt64) (full : Bool) :
    Dialogue σ (Option Raw.Block) :=
  endpoint.call (blockCall height full) endpoint.options (Json.nullable Raw.Block.ofJson?)

/-- The block with a hash. -/
def blockByHash (endpoint : Endpoint σ) (hash : Hash) (full : Bool) :
    Dialogue σ (Option Raw.Block) :=
  endpoint.call ⟨"eth_getBlockByHash", [hashParam hash, .bool full]⟩ endpoint.options
    (Json.nullable Raw.Block.ofJson?)

/-- The hash of the block at a height. -/
def blockHash (endpoint : Endpoint σ) (height : UInt64) : Dialogue σ (Option Hash) := do
  let block ← endpoint.blockByHeight height false
  pure (block.map Raw.Block.hash)

/-- The blocks at several heights, one slot for each. -/
def blockBatch (endpoint : Endpoint σ) (heights : List UInt64) (full : Bool) :
    Dialogue σ (List (Option FetchedBlock)) := do
  let blocks ←
    endpoint.batch (heights.map (blockCall · full)) (endpoint.tolerating .unfinalized)
      (Json.nullable Raw.Block.ofJson?)
  pure (blocks.map (·.map FetchedBlock.ofBlock))

end ChainFeed.Endpoint
