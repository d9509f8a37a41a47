import ChainFeed.Block.Wiring
import ChainFeed.Fault
import ChainFeed.Request
import ChainFeed.Request.Fields

/-!
# Archives

An archive has indexed blocks already.  It answers the same requests and
selections, so its blocks come selected and only have to be wired.
-/

namespace ChainFeed

open Json

/-- What an archive is asked for: a range of blocks, which may be open, and what is
to be shown of them. -/
structure ArchiveQuery where
  fromBlock : UInt64
  toBlock : Option UInt64
  fields : FieldSelection
  request : Request
  deriving DecidableEq, Repr

/-- Writes a query, with the members of the request among its own. -/
def ArchiveQuery.toJson (query : ArchiveQuery) : Json :=
  obj
    (presentMembers
        [ ("fromBlock", some (int query.fromBlock.toNat)),
          ("toBlock", query.toBlock.map fun height => int height.toNat),
          ("fields", some query.fields.toJson) ] ++
      query.request.members)

/-- A service that answers queries, each independently of the others. -/
structure Archive where
  answer : ArchiveQuery → Except Fault (List Block)

/-- The blocks that an archive answers, wired. -/
def Archive.fetch (archive : Archive) (query : ArchiveQuery) : Except Fault (List Block) :=
  (archive.answer query).map (·.map Block.wire)

end ChainFeed
