import ChainFeed.Block.Trace
import ChainFeed.Projection.Property
import ChainFeed.Raw.CallTree
import ChainFeed.Raw.Replay
import ChainFeed.Request.Fields

/-!
# Traces from replays and call trees

A replay lists frames with their paths; a call tree is flattened in depth-first
order, which gives each call its path.  The properties that entries of a request
may ask for are shown whether selected or not.  A result with nothing to show is
left out.
-/

namespace ChainFeed

/-- A value unless it says nothing. -/
def unlessEmpty {α : Type} [DecidableEq α] (empty value : α) : Option α :=
  if value = empty then none else some value

/-- A creation's outcome about which nothing is said. -/
def CreateResult.empty : CreateResult := ⟨none, none, none⟩

/-- A call's outcome about which nothing is said. -/
def CallResult.empty : CallResult := ⟨none, none⟩

namespace TraceData

/-- What a frame of a replay did. -/
def ofFrame (fields : TraceFields) (frame : Raw.TraceFrame) :
    Except ProjectionFault TraceData :=
  let action := frame.action
  match frame.type with
  | "create" =>
      .ok
        (.create
          { sender := action.sender
            value := shown fields.createValue action.value
            gas := shown fields.createGas action.gas
            init := shownAlways fields.createInit (action.init.getD .empty) }
          (frame.result.bind fun result =>
            unlessEmpty .empty
              { gasUsed := shown fields.createResultGasUsed result.gasUsed
                code := shownAlways fields.createResultCode (result.code.getD .empty)
                address := shown fields.createResultAddress result.address }))
  | "call" =>
      .ok
        (.call
          { callType := shown fields.callCallType action.callType
            sender := action.sender
            recipient := action.recipient
            value := shown fields.callValue action.value
            gas := shown fields.callGas action.gas
            input := shown fields.callInput action.input
            sighash := action.input.map Bytes.selector }
          (frame.result.bind fun result =>
            unlessEmpty .empty
              { gasUsed := shown fields.callResultGasUsed result.gasUsed
                output := shownAlways fields.callResultOutput (result.output.getD .empty) }))
  | "suicide" =>
      .ok
        (.suicide
          { address := shown fields.suicideAddress action.address
            refundAddress := action.refundAddress
            balance := shown fields.suicideBalance action.balance })
  | "reward" =>
      .ok
        (.reward
          { author := action.author
            value := shown fields.rewardValue action.value
            rewardType := shown fields.rewardType action.rewardType })
  | other => .error (.unexpectedTraceType other)

/-- What a call of a call tree did. -/
def ofCall (fields : TraceFields) (call : Raw.Call) : Except ProjectionFault TraceData :=
  match call.type with
  | "CREATE" | "CREATE2" =>
      .ok
        (.create
          { sender := call.sender
            value := shown fields.createValue call.value
            gas := shown fields.createGas call.gas
            init := shownAlways fields.createInit call.input }
          (unlessEmpty .empty
            { gasUsed := shown fields.createResultGasUsed call.gasUsed
              code := shown fields.createResultCode call.output
              address := shown fields.createResultAddress call.recipient }))
  | "CALL" | "CALLCODE" | "DELEGATECALL" | "STATICCALL" | "INVALID" =>
      .ok
        (.call
          { callType := shownAlways fields.callCallType call.type.toLower
            sender := shown fields.callFrom call.sender
            recipient := call.recipient
            value := shown fields.callValue call.value
            gas := shown fields.callGas call.gas
            input := shownAlways fields.callInput call.input
            sighash := some call.input.selector }
          (unlessEmpty .empty
            { gasUsed := shown fields.callResultGasUsed call.gasUsed
              output := shown fields.callResultOutput call.output }))
  | "SELFDESTRUCT" =>
      .ok
        (.suicide
          { address := shown fields.suicideAddress call.sender
            refundAddress := call.recipient
            balance := shown fields.suicideBalance call.value })
  | other => .error (.unexpectedTraceType other)

end TraceData

namespace Raw.CallTree

/-- A call of a tree with its place in it. -/
structure Visit where
  path : List UInt32
  call : Call
  /-- The number of calls that it made itself. -/
  subCalls : Nat
  deriving DecidableEq

mutual

/-- The calls of a tree in depth-first order, with the tree's own path before
each call's. -/
def visits (path : List UInt32) : CallTree → List Visit
  | node call calls => ⟨path, call, calls.length⟩ :: visitsFrom path 0 calls

/-- The calls of several trees below one path, numbered from a start. -/
def visitsFrom (path : List UInt32) (start : Nat) : List CallTree → List Visit
  | [] => []
  | tree :: rest =>
      visits (path ++ [UInt32.ofNat start]) tree ++ visitsFrom path (start + 1) rest

end

end Raw.CallTree

namespace Trace

/-- The trace of a frame of a replay. -/
def ofFrame (fields : TraceFields) (transactionIndex : UInt32) (frame : Raw.TraceFrame) :
    Except ProjectionFault Trace := do
  let data ← TraceData.ofFrame fields frame
  pure
    { bare transactionIndex frame.traceAddress data with
      subtraces := shown fields.subtraces frame.subtraces
      error := shown fields.error frame.error
      revertReason := shown fields.revertReason frame.revertReason }

/-- The trace of a call in a call tree. -/
def ofVisit (fields : TraceFields) (transactionIndex : UInt32) (visit : Raw.CallTree.Visit) :
    Except ProjectionFault Trace := do
  let data ← TraceData.ofCall fields visit.call
  pure
    { bare transactionIndex visit.path data with
      subtraces := shownAlways fields.subtraces (UInt32.ofNat visit.subCalls)
      error := visit.call.error
      revertReason := visit.call.revertReason }

/-- The traces of a call tree. A transaction that runs no code has a root that
stops at once; it has no traces. -/
def ofCallTree (fields : TraceFields) (transactionIndex : UInt32) (tree : Raw.CallTree) :
    Except ProjectionFault (List Trace) :=
  if tree.call.type = "STOP" then
    if tree.calls.isEmpty then .ok [] else .error .stopFrameWithCalls
  else
    (tree.visits []).mapM (ofVisit fields transactionIndex)

end Trace

end ChainFeed
