import ChainFeed.Json.Record
import ChainFeed.Json.Text

/-!
# Configuration

An operator tunes how often a node is asked again, which tracing methods it
serves, and which consistency checks to skip for an endpoint known to fail them.
-/

namespace ChainFeed

open Json

/-- Consistency checks to skip; each switch disables exactly one. -/
structure SkippedChecks where
  /-- Empty logs although the bloom filter is not empty. -/
  logsBloom : Bool
  /-- As many receipts as transactions. -/
  receiptsNumber : Bool
  /-- Receipts of the requested block. -/
  receiptBlockHash : Bool
  /-- Some trace frame for a block with transactions. -/
  missingTraces : Bool
  /-- Trace frames of the requested block. -/
  traceBlockHash : Bool
  deriving DecidableEq, Inhabited, Repr

namespace SkippedChecks

/-- All checks made. -/
def nothing : SkippedChecks := ⟨false, false, false, false, false⟩

/-- Reads switches from a record without repeated members. -/
def ofJson? (document : Json) : Option SkippedChecks :=
  if document.repeatsAny
      ["disableLogsBloomCheck", "disableTxReceiptsNumberCheck", "disableTxReceiptBlockHashCheck",
        "disableMissingTracesCheck", "disableTraceBlockHashCheck"] then
    none
  else
    record
      (do
        let logsBloom ← flag "disableLogsBloomCheck"
        let receiptsNumber ← flag "disableTxReceiptsNumberCheck"
        let receiptBlockHash ← flag "disableTxReceiptBlockHashCheck"
        let missingTraces ← flag "disableMissingTracesCheck"
        let traceBlockHash ← flag "disableTraceBlockHashCheck"
        pure { logsBloom, receiptsNumber, receiptBlockHash, missingTraces, traceBlockHash })
      document

end SkippedChecks

/-- How an endpoint is used. -/
structure Config where
  skippedChecks : SkippedChecks
  /-- Take traces from replays and trace blocks rather than from the debug tracer. -/
  preferTraceApi : Bool
  /-- Always take state diffs from the prestate tracer. -/
  debugStateDiffs : Bool
  /-- Time limit that debug tracers are told, in their own notation. -/
  debugTraceTimeout : Option String
  /-- How often incomplete blocks are asked for again. -/
  maxRetryDepth : UInt32
  /-- Height of the block whose hash identifies the chain. -/
  genesisHeight : UInt64
  priority : UInt32
  deriving DecidableEq, Inhabited, Repr

namespace Config

/-- The configuration unless the operator says otherwise. -/
def standard : Config where
  skippedChecks := .nothing
  preferTraceApi := false
  debugStateDiffs := false
  debugTraceTimeout := none
  maxRetryDepth := 9
  genesisHeight := 0
  priority := 0

/-- Reads a configuration from a record without repeated members. -/
def ofJson? (document : Json) : Option Config :=
  if document.repeatsAny
      ["validation", "preferTraceApi", "useDebugApiForStateDiffs", "debugTraceTimeout",
        "maxRetryDepth", "genesisHeight", "priority"] then
    none
  else
    record
      (do
        let skippedChecks ← defaulted "validation" SkippedChecks.ofJson? .nothing
        let preferTraceApi ← flag "preferTraceApi"
        let debugStateDiffs ← flag "useDebugApiForStateDiffs"
        let debugTraceTimeout ← omittable "debugTraceTimeout" text?
        let maxRetryDepth ← defaulted "maxRetryDepth" word32? standard.maxRetryDepth
        let genesisHeight ← defaulted "genesisHeight" word64? standard.genesisHeight
        let priority ← defaulted "priority" word32? standard.priority
        pure
          { skippedChecks, preferTraceApi, debugStateDiffs, debugTraceTimeout, maxRetryDepth,
            genesisHeight, priority })
      document

/-- Reads the text of a configuration. -/
def ofText? (text : String) : Option Config :=
  Json.parse? text >>= ofJson?

end Config

end ChainFeed
