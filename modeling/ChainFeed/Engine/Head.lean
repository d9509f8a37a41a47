import ChainFeed.Engine.Enrich

/-!
# Blocks near the head

Near the head of the chain blocks may be missing, replaced or not fully indexed.
A range of heights is answered by its longest part from the start on in which
every block is there, follows the one before, and is not defective.
-/

namespace ChainFeed

/-- The longest part from the start on that has no gap and in which every block
names the one before as its parent. -/
def linkedPart (parent : Option Hash) : List (Option FetchedBlock) → List FetchedBlock
  | some block :: rest =>
      if parent.all (· == block.block.parentHash) then
        block :: linkedPart (some block.hash) rest
      else
        []
  | _ => []

namespace Endpoint

variable {σ : Type}

/-- The consistent blocks at the start of a range of heights, with what a demand
asks for. -/
def headSplit (endpoint : Endpoint σ) (first last : UInt64) (demand : Demand)
    (finalized : UInt64) : Dialogue σ (List FetchedBlock) := do
  let slots ← endpoint.blockBatch (heightsBetween first last) demand.transactions
  let enriched ← endpoint.enrich demand (some finalized) (linkedPart none slots)
  pure (enriched.takeWhile FetchedBlock.isValid)

end Endpoint

end ChainFeed
