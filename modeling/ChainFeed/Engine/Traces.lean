import ChainFeed.Engine.Capability
import ChainFeed.Engine.ChainProfile
import ChainFeed.Engine.TracePlan

/-!
# Fetching traces and state diffs

Replays, trace blocks and debug tracers each answer for a batch of blocks.
Answers that name no transaction, or another block's, make a block defective or
the whole answer unusable.
-/

namespace ChainFeed

/-- Wraps the results of transactions that a node answered bare. -/
def wrapResults : Json → Json
  | .arr items =>
      .arr
        (items.map fun
          | .obj members =>
              if members.any fun member => member.1 == "result" then .obj members
              else .obj [("result", .obj members)]
          | other => other)
  | other => other

/-- Results of transactions by position. If there is one for each transaction they
are taken in order; otherwise a transaction gets the last result that names it. -/
def alignResults {α : Type} (hashOf : α → Option Hash) (transactions : List Hash)
    (results : List α) : List (Option α) :=
  if results.length = transactions.length then
    results.map some
  else
    byHash transactions results
where
  /-- The last result that names each transaction; none is given twice. -/
  byHash : List Hash → List α → List (Option α)
    | [], _ => []
    | hash :: rest, left =>
        (left.filter fun result => hashOf result == some hash).getLast? ::
          byHash rest (left.filter fun result => !(hashOf result == some hash))

namespace Raw

/-- Adds a frame to the replay of its transaction, which is begun if need be. -/
def addFrame (hash : Hash) (frame : TraceFrame) : List Replay → List Replay
  | [] => [{ transactionHash := some hash, trace := some [frame], stateDiff := none }]
  | replay :: rest =>
      if replay.transactionHash = some hash then
        { replay with trace := replay.trace.map (· ++ [frame]) } :: rest
      else
        replay :: addFrame hash frame rest

/-- Groups frames into replays, one per transaction, in the order in which the
transactions appear. Frames without a transaction are left out. -/
def groupFrames (frames : List TraceFrame) : List Replay :=
  frames.foldl
    (fun replays frame =>
      match frame.transactionHash with
      | some hash => addFrame hash frame replays
      | none => replays)
    []

/-- The transaction that the frames of a replay name, which has to be the same for
all that name one. -/
def Replay.hashFromFrames (replay : Replay) : Except Malformation Hash :=
  match (replay.trace.getD []).filterMap TraceFrame.transactionHash with
  | [] => .error .anonymousReplay
  | hash :: rest => if rest.all (· == hash) then .ok hash else .error .mixedReplay

/-- The replay with the hash of its transaction. -/
def Replay.named (replay : Replay) : Except Malformation Replay :=
  match replay.transactionHash with
  | some _ => .ok replay
  | none => do
      let hash ← replay.hashFromFrames
      pure { replay with transactionHash := some hash }

end Raw

/-- What replays that name their transactions add to a block. -/
def replaysOfBlock (method : String) (block : FetchedBlock) (replays : List Raw.Replay) :
    Enrichment :=
  let hashes := block.block.transactions.toHashes
  let foreign := replays.any fun replay => !replay.transactionHash.any hashes.contains
  { Enrichment.empty with
    replays := some replays
    defect := if foreign then some (.foreignTraces method) else none }

/-- What the frames of a trace block add to a block. -/
def framesOfBlock (skipped : SkippedChecks) (block : FetchedBlock)
    (frames : List Raw.TraceFrame) : Enrichment :=
  if frames.isEmpty then
    if !skipped.missingTraces && !block.block.transactions.isEmpty then
      .defective .missingTraces
    else
      .empty
  else if !skipped.traceBlockHash && frames.any fun frame => frame.blockHash != some block.hash then
    .defective (.foreignTraces "trace_block")
  else
    { Enrichment.empty with replays := some (Raw.groupFrames frames) }

namespace Endpoint

variable {σ : Type}

/-- The method of debug tracers. -/
def debugMethod : String := "debug_traceBlockByHash"

/-- The method of replays on most chains. -/
def replayMethod : String := "trace_replayBlockTransactions"

/-- Replays of blocks. -/
def fetchReplays (endpoint : Endpoint σ) (method : String) (outputs : ReplayOutputs)
    (blocks : List FetchedBlock) : Dialogue σ (List Enrichment) := do
  if blocks.isEmpty || outputs.isEmpty then
    pure (blocks.map fun _ => .empty)
  else
    let names := Json.arr (outputs.names.map .str)
    let answers ←
      endpoint.batch (blocks.map fun block => ⟨method, [heightParam block.height, names]⟩)
        endpoint.options (Json.list? Raw.Replay.ofJson?)
    (blocks.zip answers).mapM fun (block, replays) =>
      match replays.mapM Raw.Replay.named with
      | .ok named => pure (replaysOfBlock method block named)
      | .error reason => throw (.malformed method reason)

/-- Trace blocks. -/
def fetchTraceBlocks (endpoint : Endpoint σ) (blocks : List FetchedBlock) :
    Dialogue σ (List Enrichment) := do
  let answers ←
    endpoint.batch (blocks.map fun block => ⟨"trace_block", [heightParam block.height]⟩)
      endpoint.options (Json.list? Raw.TraceFrame.ofJson?)
  pure
    ((blocks.zip answers).map fun (block, frames) =>
      framesOfBlock endpoint.config.skippedChecks block frames)

/-- The parameters of a debug tracer, with the time limit of the operator. -/
def tracerParam (endpoint : Endpoint σ) (tracer : String) (switch : String) (on : Bool) : Json :=
  let timeout := endpoint.config.debugTraceTimeout.map fun limit => ("timeout", Json.str limit)
  .obj
    ([ ("tracer", .str tracer),
        ("tracerConfig", .obj [("onlyTopCall", .bool false), (switch, .bool on)]) ] ++
      timeout.toList)

/-- The answers of a debug tracer, one per block. A block that the node does not
have is answered by null. -/
def traceByDebug (endpoint : Endpoint σ) (param : Json) (blocks : List FetchedBlock) :
    Dialogue σ (List Json) :=
  endpoint.batchRaw (blocks.map fun block => ⟨debugMethod, [hashParam block.hash, param]⟩)
    (endpoint.tolerating .notFound)

/-- Call trees of blocks. Nodes may answer them bare. -/
def fetchCallTrees (endpoint : Endpoint σ) (blocks : List FetchedBlock) :
    Dialogue σ (List Enrichment) := do
  let answers ←
    endpoint.traceByDebug (endpoint.tracerParam "callTracer" "withLog" false) blocks
  (blocks.zip answers).mapM fun (block, answer) => do
    let results ←
      decoded debugMethod (Json.nullable (Json.list? Raw.CallTreeResult.ofJson?))
        (wrapResults answer)
    match results with
    | none => pure (.defective (.unknownBlock debugMethod))
    | some trees =>
        let aligned :=
          alignResults Raw.CallTreeResult.transactionHash block.block.transactions.toHashes trees
        pure { Enrichment.empty with callTrees := some aligned }

/-- Snapshots of blocks. -/
def fetchPrestates (endpoint : Endpoint σ) (blocks : List FetchedBlock) :
    Dialogue σ (List Enrichment) := do
  let answers ←
    endpoint.traceByDebug (endpoint.tracerParam "prestateTracer" "diffMode" true) blocks
  (blocks.zip answers).mapM fun (block, answer) => do
    let results ←
      decoded debugMethod (Json.nullable (Json.list? Raw.PrestateResult.ofJson?)) answer
    match results with
    | none => pure (.defective (.unknownBlock debugMethod))
    | some prestates =>
        let aligned :=
          alignResults Raw.PrestateResult.transactionHash block.block.transactions.toHashes
            prestates
        pure { Enrichment.empty with prestates := some aligned }

/-- What a method adds, if it is to be used. -/
def fetchIf (wanted : Bool) (fetch : Dialogue σ (List Enrichment)) :
    Dialogue σ (Option (List Enrichment)) :=
  if wanted then some <$> fetch else pure none

/-- The largest height of some blocks. -/
def highest (blocks : List FetchedBlock) : UInt64 :=
  blocks.foldl (fun height block => max height block.height) 0

/-- Traces and state diffs on a chain without a profile. Without a finalized height
all blocks count as finalized. -/
def fetchByPlan (endpoint : Endpoint σ) (demand : Demand) (finalized : Option UInt64)
    (blocks : List FetchedBlock) : Dialogue σ (List Enrichment) := do
  let unfinalized := finalized.any fun height => decide (height < highest blocks)
  let plan :=
    TracePlan.of demand endpoint.config.preferTraceApi endpoint.config.debugStateDiffs unfinalized
  let prestates ← fetchIf plan.prestates (endpoint.fetchPrestates blocks)
  let traceBlocks ← fetchIf plan.traceBlock (endpoint.fetchTraceBlocks blocks)
  let callTrees ← fetchIf plan.callTrees (endpoint.fetchCallTrees blocks)
  let replays ←
    fetchIf (!plan.replay.isEmpty) (endpoint.fetchReplays replayMethod plan.replay blocks)
  pure (Enrichment.mergeAll blocks.length [prestates, traceBlocks, callTrees, replays])

/-- Hands additions out to the blocks that are marked, in order; the others get
nothing. -/
def spread (marks : List Bool) (additions : List Enrichment) : List Enrichment :=
  match marks, additions with
  | true :: marks, addition :: additions => addition :: spread marks additions
  | _ :: marks, additions => .empty :: spread marks additions
  | [], _ => []

/-- Traces on a chain with a profile, each block by the method for its height. -/
def fetchByProfile (endpoint : Endpoint σ) (profile : ChainProfile) (demand : Demand)
    (blocks : List FetchedBlock) : Dialogue σ (List Enrichment) := do
  if demand.stateDiffs && !profile.stateDiffsSupported then
    throw (.noStateDiffs profile.name)
  if !demand.traces then
    pure (blocks.map fun _ => .empty)
  else
    let methods := blocks.map fun block => profile.traceMethod block.height
    let byReplay := methods.map fun method => method matches .replay _
    let byDebug := methods.map fun method => method matches .debugTracer
    let select := fun (marks : List Bool) => ((blocks.zip marks).filter Prod.snd).map Prod.fst
    let replays ←
      endpoint.fetchReplays profile.replayMethod ⟨true, false⟩ (select byReplay)
    let callTrees ← endpoint.fetchCallTrees (select byDebug)
    pure
      (Enrichment.mergeAll blocks.length
        [some (spread byReplay replays), some (spread byDebug callTrees)])

/-- Traces and state diffs of blocks, in the way of the chain. -/
def fetchTraces (endpoint : Endpoint σ) (demand : Demand) (finalized : Option UInt64)
    (blocks : List FetchedBlock) : Dialogue σ (List Enrichment) := do
  let genesis ← endpoint.genesisHash
  match ChainProfile.ofGenesis? genesis with
  | none => endpoint.fetchByPlan demand finalized blocks
  | some profile => endpoint.fetchByProfile profile demand blocks

end Endpoint

end ChainFeed
