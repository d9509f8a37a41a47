import ChainFeed.Bytes

/-!
# Tracing profiles of particular chains

Most chains are traced the way the configuration says.  A few need a way of their
own, which may change with the height; they are told by their genesis hash.  The
numbers are facts about the networks.
-/

namespace ChainFeed

/-- How the traces of a block are to be had. -/
inductive TraceMethod where
  /-- By a replay method of the chain. -/
  | replay (method : String)
  /-- By the debug tracer. -/
  | debugTracer
  /-- Not at all. -/
  | unavailable
  deriving DecidableEq, Repr

/-- A chain that is traced in its own way. -/
structure ChainProfile where
  name : String
  genesisHash : Hash
  /-- The last height that the replay method serves. -/
  replayMaxHeight : UInt64
  replayMethod : String
  /-- The first height that the debug tracer serves. -/
  debugMinHeight : UInt64
  stateDiffsSupported : Bool
  deriving DecidableEq, Repr

namespace ChainProfile

/-- How the traces of the block at a height are to be had. -/
def traceMethod (profile : ChainProfile) (height : UInt64) : TraceMethod :=
  if height ≤ profile.replayMaxHeight then .replay profile.replayMethod
  else if profile.debugMinHeight ≤ height then .debugTracer
  else .unavailable

/-- The genesis hash of Arbitrum One. -/
def arbitrumGenesis : Hash where
  toList :=
    [0x7e, 0xe5, 0x76, 0xb3, 0x54, 0x82, 0x19, 0x5f, 0xc4, 0x92, 0x05, 0xce,
      0xc9, 0xaf, 0x72, 0xce, 0x14, 0xf0, 0x03, 0xb9, 0xae, 0x69, 0xf6, 0xba,
      0x0f, 0xae, 0xf4, 0x51, 0x4b, 0xe8, 0xb4, 0x42]
  length_eq := rfl

/-- Arbitrum One before and after its upgrade; two heights between are served by no
method. -/
def arbitrum : ChainProfile where
  name := "Arbitrum One"
  genesisHash := arbitrumGenesis
  replayMaxHeight := 22207815
  replayMethod := "arbtrace_replayBlockTransactions"
  debugMinHeight := 22207818
  stateDiffsSupported := false

/-- The chains that are traced in their own way. -/
def all : List ChainProfile := [arbitrum]

/-- The profile of the chain with a genesis hash, if it needs one. -/
def ofGenesis? (hash : Hash) : Option ChainProfile :=
  all.find? fun profile => profile.genesisHash == hash

end ChainProfile

end ChainFeed
