import ChainFeed.Enrichment
import ChainFeed.Node
import ChainFeed.Projection.Fault

/-!
# Faults of a dialogue with a node
-/

namespace ChainFeed

/-- The block that a fault is about. -/
inductive BlockRef where
  | height (number : UInt64)
  | hash (word : Hash)
  | both (number : UInt64) (word : Hash)
  deriving DecidableEq, Repr

/-- The wording of a reference to a block. -/
def BlockRef.message : BlockRef → String
  | height number => "block " ++ toString number
  | hash word => "block " ++ word.text
  | both number word => "block " ++ toString number ++ "#" ++ word.text

/-- Why a block could not be had. -/
inductive Inconsistency where
  | notFound
  | unavailable (attempts : Nat)
  | defective (defect : Defect)
  deriving DecidableEq, Repr

/-- The wording of the reason. -/
def Inconsistency.message : Inconsistency → String
  | notFound => "block not found"
  | unavailable attempts =>
      "failed to get finalized block after " ++ toString attempts ++ " attempts"
  | defective defect => defect.message

/-- Why an answer cannot be used. -/
inductive Malformation where
  /-- The answer is not of the expected form. -/
  | undecodable
  /-- A batch has more or fewer answers than calls. -/
  | batchSize (expected found : Nat)
  /-- The frames of one replay name different transactions. -/
  | mixedReplay
  /-- Neither a replay nor any of its frames names a transaction. -/
  | anonymousReplay
  deriving DecidableEq, Repr

/-- The wording of the reason. -/
def Malformation.message : Malformation → String
  | undecodable => "value is not of the expected form"
  | batchSize expected found =>
      "expected " ++ toString expected ++ " batch results, got " ++ toString found
  | mixedReplay => "frames of one transaction replay name different transactions"
  | anonymousReplay => "can't match transaction replay with its transaction"

/-- Why blocks could not be had from a node. -/
inductive Fault where
  | node (failure : NodeFailure)
  | inconsistent (block : BlockRef) (reason : Inconsistency)
  | projection (height : UInt64) (hash : Hash) (fault : ProjectionFault)
  | malformed (method : String) (reason : Malformation)
  | noStateDiffs (chain : String)
  | unknownGenesis (height : UInt64) (url : String)
  /-- A count passed the largest word, where the program stops without an answer. -/
  | overflow
  deriving DecidableEq, Repr

/-- The wording of a fault. -/
def Fault.message : Fault → String
  | node failure => "RPC error: " ++ failure.message
  | inconsistent block reason => block.message ++ ": " ++ reason.message
  | projection height hash fault =>
      "failed to map block " ++ toString height ++ "#" ++ hash.text ++ ": " ++ fault.message
  | malformed method reason =>
      method ++ ": server returned unexpected result: " ++ reason.message
  | noStateDiffs chain => "state diffs are not supported on " ++ chain
  | unknownGenesis height url => "block " ++ toString height ++ " is not known to " ++ url
  | overflow => "attempt to add with overflow"

end ChainFeed
