import ChainFeed.Block.Log
import ChainFeed.Projection.Property
import ChainFeed.Raw.Receipt
import ChainFeed.Request.Fields

/-!
# Logs from fetched logs
-/

namespace ChainFeed

/-- The log as it is shown. -/
def Log.project (fields : LogFields) (source : Raw.Log) : Except ProjectionFault Log := do
  let logIndex ← narrow .logIndex source.logIndex
  let transactionIndex ← narrow .transactionIndex source.transactionIndex
  pure
    { logIndex
      transactionIndex
      transactionHash := shown fields.transactionHash source.transactionHash
      address := shown fields.address source.address
      data := shown fields.data source.data
      topics := shown fields.topics source.topics
      transaction := none }

end ChainFeed
