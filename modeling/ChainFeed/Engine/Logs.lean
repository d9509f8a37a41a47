import ChainFeed.Engine.Receipts
import ChainFeed.Node.RangeHint

/-!
# Fetching logs

Logs are listed for a range of heights.  A node may refuse a range as too large;
then the range is split, where the node suggests or else in the middle.  When it
cannot be split, the logs are collected from receipts, block by block.
-/

namespace ChainFeed

/-- The heights from one to another, both included. -/
def heightsBetween (first last : UInt64) : List UInt64 :=
  (List.range (last.toNat + 1 - first.toNat)).map fun offset => first + UInt64.ofNat offset

/-- The smallest and the largest height of some blocks. -/
def heightBounds (first : FetchedBlock) (rest : List FetchedBlock) : UInt64 × UInt64 :=
  (rest.foldl (fun lowest block => min lowest block.height) first.height,
    rest.foldl (fun highest block => max highest block.height) first.height)

/-- What listed logs add to a block. A non-empty bloom filter promises logs. -/
def logsOfBlock (skipped : SkippedChecks) (block : FetchedBlock) (logs : List Raw.Log) :
    Enrichment :=
  let missing := !skipped.logsBloom && logs.isEmpty && block.block.logsBloom != .zero 256
  { Enrichment.empty with
    logs := some logs
    defect := if missing then some .missingLogs else none }

namespace Endpoint

variable {σ : Type}

/-- The call for the logs of a range. -/
def logsCall (first last : UInt64) : Call :=
  ⟨"eth_getLogs", [.obj [("fromBlock", heightParam first), ("toBlock", heightParam last)]]⟩

/-- Logs of one block from the receipts of its transactions. There are none if the
block is gone, or if a receipt is missing or belongs to another block. -/
def logsByReceipts (endpoint : Endpoint σ) (height : UInt64) : Dialogue σ (List Raw.Log) := do
  match ← endpoint.blockByHeight height false with
  | none => pure []
  | some block => do
      let receipts ← block.transactions.toHashes.mapM fun hash =>
        endpoint.call (receiptCall hash) endpoint.options
          (Json.nullable Raw.Receipt.ofJson?)
      if receipts.all fun receipt => receipt.any (·.blockHash == block.hash) then
        pure ((receipts.filterMap id).flatMap fun receipt => receipt.logs.getD [])
      else
        pure []

/-- The range to fetch first when a range is refused as too large. -/
def firstPart (failure : NodeFailure) (first last : UInt64) : HeightRange :=
  (HeightRange.suggested? failure.text).getD ⟨first, first + (last - first) / 2⟩

/-- All logs of a range of heights, in the order of the node. -/
def logsBetween (endpoint : Endpoint σ) (first last : UInt64) : Dialogue σ (List Raw.Log) := do
  match ← endpoint.ask (logsCall first last) (endpoint.tolerating .logsOutOfRange) with
  | .ok answer => decoded "eth_getLogs" (Json.list? Raw.Log.ofJson?) answer
  | .error failure =>
      if failure.isTooBig then
        let part := firstPart failure first last
        if _proper : part.first = first ∧ first ≤ part.last ∧ part.last < last then do
          let left ← endpoint.logsBetween first part.last
          let right ← endpoint.logsBetween (part.last + 1) last
          pure (left ++ right)
        else do
          let perBlock ← (heightsBetween first last).mapM endpoint.logsByReceipts
          pure perBlock.flatten
      else
        throw (.node failure)
termination_by last.toNat - first.toNat
decreasing_by
  · obtain ⟨_, atLeast, below⟩ := _proper
    have := UInt64.le_iff_toNat_le.mp atLeast
    have := UInt64.lt_iff_toNat_lt.mp below
    change part.last.toNat - first.toNat < last.toNat - first.toNat
    omega
  · obtain ⟨_, atLeast, below⟩ := _proper
    have := UInt64.le_iff_toNat_le.mp atLeast
    have := UInt64.lt_iff_toNat_lt.mp below
    have := last.toNat_lt
    have next : (part.last + 1).toNat = part.last.toNat + 1 := by
      rw [UInt64.toNat_add]
      exact Nat.mod_eq_of_lt (by simp; omega)
    change last.toNat - (part.last + 1).toNat < last.toNat - first.toNat
    omega

/-- Logs of blocks. -/
def fetchLogs (endpoint : Endpoint σ) (blocks : List FetchedBlock) :
    Dialogue σ (List Enrichment) := do
  match blocks with
  | [] => pure []
  | first :: rest => do
      let (lowest, highest) := heightBounds first rest
      let logs ← endpoint.logsBetween lowest highest
      let shares := shareByHash Raw.Log.blockHash (first :: rest) logs
      pure
        (((first :: rest).zip shares).map fun (block, logs) =>
          logsOfBlock endpoint.config.skippedChecks block logs)

end Endpoint

end ChainFeed
