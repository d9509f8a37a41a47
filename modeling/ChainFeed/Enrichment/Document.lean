import ChainFeed.Enrichment
import ChainFeed.Raw.Document

/-!
# Documents of fetched blocks
-/

namespace ChainFeed

open Json

/-- A fetched block as a document. -/
def FetchedBlock.toJson (fetched : FetchedBlock) : Json :=
  ofPresent
    [ ("height", some (ofWord64 fetched.height)),
      ("hash", some fetched.hash.toJson),
      ("block", some (Raw.Block.toJson fetched.block)),
      ("logs", fetched.data.logs.map (ofList Raw.Log.toJson)),
      ("receipts", fetched.data.receipts.map (ofList Raw.Receipt.toJson)),
      ("traceReplays", fetched.data.replays.map (ofList Raw.Replay.toJson)),
      ("debugFrames", fetched.data.callTrees.map (ofList (orNull Raw.CallTreeResult.toJson))),
      ("debugStateDiffs", fetched.data.prestates.map (ofList (orNull Raw.PrestateResult.toJson))),
      ("invalid", fetched.data.defect.map fun defect => .str defect.message) ]

end ChainFeed
