import ChainFeed.Raw.Block
import ChainFeed.Raw.Receipt
import ChainFeed.Raw.CallTree
import ChainFeed.Raw.Prestate
import ChainFeed.Raw.Replay

/-!
# Enrichment of fetched blocks

A block is fetched first and enriched afterwards: with logs, receipts, replays,
call trees and prestates, each from a call of its own.  What one call adds to a
block is an enrichment, and so is what several calls add together.  Merging
keeps the order of the calls, and the first reason to distrust the block.
-/

namespace ChainFeed

/-- A reason to distrust what a node said about a block. -/
inductive Defect where
  /-- No logs, although the bloom filter of the block is not empty. -/
  | missingLogs
  /-- A receipts method knows nothing about the block. -/
  | noReceipts (method : String)
  /-- A receipts method answered for a different block. -/
  | foreignReceipts (method : String)
  /-- A receipts method answered for more or fewer transactions. -/
  | receiptCount (method : String) (expected found : Nat)
  /-- Receipts fetched one by one do not cover the transactions. -/
  | missingReceipts
  /-- No trace frames, although the block has transactions. -/
  | missingTraces
  /-- A trace method answered for a different block. -/
  | foreignTraces (method : String)
  /-- A debug tracer does not know the block. -/
  | unknownBlock (method : String)
  deriving DecidableEq, Repr

namespace Defect

/-- The wording of a reason. -/
def message : Defect → String
  | missingLogs => "got 0 log records from eth_getLogs, but logs bloom is not empty"
  | noReceipts method => method ++ " returned null"
  | foreignReceipts method => method ++ " returned receipts for a different block"
  | receiptCount method expected found =>
      "got invalid number of receipts from " ++ method ++ ": expected " ++ toString expected ++
        ", got " ++ toString found
  | missingReceipts => "failed to get receipts for all transactions"
  | missingTraces => "missing traces for some transactions"
  | foreignTraces method => method ++ " returned a trace of a different block"
  | unknownBlock method => "got \"block not found\" from " ++ method

end Defect

/-- What calls to a node added to a block. -/
structure Enrichment where
  logs : Option (List Raw.Log)
  receipts : Option (List Raw.Receipt)
  replays : Option (List Raw.Replay)
  /-- Call trees by position of the transaction; a hole is a transaction for
  which the node had none. -/
  callTrees : Option (List (Option Raw.CallTreeResult))
  /-- Snapshots by position of the transaction. -/
  prestates : Option (List (Option Raw.PrestateResult))
  /-- Why the block cannot be trusted. -/
  defect : Option Defect

namespace Enrichment

/-- Nothing added. -/
def empty : Enrichment := ⟨none, none, none, none, none, none⟩

instance : Inhabited Enrichment := ⟨empty⟩

/-- Nothing but a reason to distrust the block. -/
def defective (defect : Defect) : Enrichment := { empty with defect := some defect }

/-- What two calls add, one after the other. -/
def merge (first second : Enrichment) : Enrichment where
  logs := first.logs.merge (· ++ ·) second.logs
  receipts := first.receipts.merge (· ++ ·) second.receipts
  replays := first.replays.merge (· ++ ·) second.replays
  callTrees := first.callTrees.merge (· ++ ·) second.callTrees
  prestates := first.prestates.merge (· ++ ·) second.prestates
  defect := first.defect <|> second.defect

/-- Adds to every block what one call has for it. -/
def mergeEach (blocks additions : List Enrichment) : List Enrichment :=
  match blocks, additions with
  | block :: blocks, addition :: additions => block.merge addition :: mergeEach blocks additions
  | blocks, _ => blocks

/-- What several calls add to each of a number of blocks. A call that was not
made adds nothing. -/
def mergeAll (count : Nat) (calls : List (Option (List Enrichment))) : List Enrichment :=
  (calls.filterMap id).foldl mergeEach (List.replicate count empty)

end Enrichment

/-- A block as a node answered it, with what later calls added to it. -/
structure FetchedBlock where
  block : Raw.Block
  data : Enrichment

namespace FetchedBlock

/-- A block to which nothing is added yet. -/
def ofBlock (block : Raw.Block) : FetchedBlock := ⟨block, .empty⟩

/-- The height of the block. -/
def height (fetched : FetchedBlock) : UInt64 := fetched.block.number

/-- The hash of the block. -/
def hash (fetched : FetchedBlock) : Hash := fetched.block.hash

/-- Whether there is no reason to distrust the block. -/
def isValid (fetched : FetchedBlock) : Bool := fetched.data.defect.isNone

/-- Adds data to the block. -/
def enrich (fetched : FetchedBlock) (addition : Enrichment) : FetchedBlock :=
  { fetched with data := fetched.data.merge addition }

/-- Adds data to each of several blocks. -/
def enrichEach (blocks : List FetchedBlock) (additions : List Enrichment) : List FetchedBlock :=
  match blocks, additions with
  | block :: blocks, addition :: additions => block.enrich addition :: enrichEach blocks additions
  | blocks, _ => blocks

end FetchedBlock

end ChainFeed
