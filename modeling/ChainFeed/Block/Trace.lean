import ChainFeed.Quantity

/-!
# Traces of a block

A trace is one frame of a transaction's call tree.  Its address is the path that
leads to it: the root has the empty path, and a frame's sub-calls extend its path
by their numbers.  Traces are ordered by transaction, and within one transaction
every frame comes before the frames below it.
-/

namespace ChainFeed

/-- The kinds of frames. -/
inductive TraceKind where
  | create
  | call
  | suicide
  | reward
  deriving DecidableEq, Inhabited, Repr

/-- The name of a kind. -/
def TraceKind.name : TraceKind → String
  | create => "create"
  | call => "call"
  | suicide => "suicide"
  | reward => "reward"

/-- The kinds by their names. -/
def TraceKind.byName : List (String × TraceKind) :=
  [create, call, suicide, reward].map fun kind => (kind.name, kind)

/-- Creation of a contract. -/
structure CreateAction where
  sender : Option Address
  value : Option Quantity
  gas : Option Quantity
  init : Option Bytes
  deriving DecidableEq, Inhabited, Repr

/-- Outcome of a creation. -/
structure CreateResult where
  gasUsed : Option Quantity
  code : Option Bytes
  address : Option Address
  deriving DecidableEq, Inhabited, Repr

/-- Call of a contract. -/
structure CallAction where
  callType : Option String
  sender : Option Address
  recipient : Option Address
  value : Option Quantity
  gas : Option Quantity
  input : Option Bytes
  sighash : Option Bytes
  deriving DecidableEq, Inhabited, Repr

/-- Outcome of a call. -/
structure CallResult where
  gasUsed : Option Quantity
  output : Option Bytes
  deriving DecidableEq, Inhabited, Repr

/-- Destruction of a contract. -/
structure SuicideAction where
  address : Option Address
  refundAddress : Option Address
  balance : Option Quantity
  deriving DecidableEq, Inhabited, Repr

/-- Reward of a block's author. -/
structure RewardAction where
  author : Option Address
  value : Option Quantity
  rewardType : Option String
  deriving DecidableEq, Inhabited, Repr

/-- What a frame did, and what came of it. -/
inductive TraceData where
  | create (action : CreateAction) (result : Option CreateResult)
  | call (action : CallAction) (result : Option CallResult)
  | suicide (action : SuicideAction)
  | reward (action : RewardAction)
  deriving DecidableEq, Inhabited, Repr

/-- The kind of a frame. -/
def TraceData.kind : TraceData → TraceKind
  | create .. => .create
  | call .. => .call
  | suicide .. => .suicide
  | reward .. => .reward

/-- A frame of a transaction's call tree. -/
structure Trace where
  transactionIndex : UInt32
  traceAddress : List UInt32
  subtraces : Option UInt32
  error : Option String
  revertReason : Option String
  data : TraceData
  /-- Position of its transaction among those of the block. -/
  transaction : Option Nat
  /-- Position of the frame that it is a direct sub-call of. -/
  parent : Option Nat
  /-- Positions of all frames below it. -/
  children : List Nat
  deriving DecidableEq, Inhabited, Repr

namespace Trace

/-- A frame with nothing but its place and its data. -/
def bare (transactionIndex : UInt32) (traceAddress : List UInt32) (data : TraceData) : Trace :=
  { transactionIndex, traceAddress, subtraces := none, error := none, revertReason := none, data,
    transaction := none, parent := none, children := [] }

/-- The kind of the frame. -/
def kind (trace : Trace) : TraceKind := trace.data.kind

/-- Whether another frame sits strictly below this one in the same call tree. -/
def isAncestorOf (trace other : Trace) : Bool :=
  trace.transactionIndex == other.transactionIndex &&
    trace.traceAddress.length < other.traceAddress.length &&
    trace.traceAddress.isPrefixOf other.traceAddress

/-- Order by transaction, then by address. Addresses are compared number by
number, and a path comes before its extensions. -/
def order (left right : Trace) : Ordering :=
  (compare left.transactionIndex right.transactionIndex).then
    (compare left.traceAddress right.traceAddress)

/-- The frame without positions. -/
def unlinked (trace : Trace) : Trace :=
  { trace with transaction := none, parent := none, children := [] }

end Trace

end ChainFeed
