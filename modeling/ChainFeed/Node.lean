import ChainFeed.Json
import ChainFeed.Text.Search

/-!
# Nodes

A node answers calls, one at a time or several as a batch.  How it does so is left
open: a node is any function from calls to answers that may keep a state of its
own.  Some errors of a node only say that it does not have the data yet; the
caller names those that count as an answer.
-/

namespace ChainFeed

/-- Why a call was not answered. -/
inductive NodeFailure where
  /-- The node answered with an error. -/
  | server (code : Int) (text : String)
  /-- The node could not be reached. -/
  | transport (text : String)
  deriving DecidableEq, Repr

namespace NodeFailure

/-- The text that came with a failure. -/
def text : NodeFailure → String
  | server _ text => text
  | transport text => text

/-- The wording of a failure. -/
def message : NodeFailure → String
  | server code text => "server error " ++ toString code ++ ": " ++ text
  | transport text => "transport error: " ++ text

/-- Whether a node says that something was not found. -/
def isNotFound : NodeFailure → Bool
  | server _ text => Text.occurs "not found" text
  | transport _ => false

/-- Whether a node refuses to answer because the answer is too large. -/
def isTooBig : NodeFailure → Bool
  | server _ text =>
      Text.occursInAnyCase "query returned more than" text ||
        Text.occursInAnyCase "response is too big" text
  | transport _ => false

end NodeFailure

/-- Errors that count as an answer. -/
inductive Tolerance where
  /-- A block that the node does not have has no value. -/
  | notFound
  /-- A block beyond the accepted head has no value. -/
  | unfinalized
  /-- There are no logs beyond the accepted head. -/
  | logsOutOfRange
  deriving DecidableEq, Repr

/-- The answer that the text of an error counts as. -/
def Tolerance.answer? (tolerance : Tolerance) (text : String) : Option Json :=
  match tolerance with
  | notFound => if Text.occurs "not found" text then some .null else none
  | unfinalized =>
      if Text.occursInAnyCase "cannot query unfinalized data" text then some .null else none
  | logsOutOfRange =>
      if Text.occurs "after last accepted block" text then some (.arr []) else none

/-- How a call is made. -/
structure CallOptions where
  priority : UInt32
  tolerance : Option Tolerance
  deriving DecidableEq, Repr

namespace CallOptions

/-- No hint of priority, and no error tolerated. -/
def plain : CallOptions := ⟨0, none⟩

/-- What a call comes to that a node answered with an error. -/
def resolve (options : CallOptions) (code : Int) (text : String) : Except NodeFailure Json :=
  match options.tolerance.bind (·.answer? text) with
  | some answer => .ok answer
  | none => .error (.server code text)

end CallOptions

/-- A call: a method and its parameters. -/
structure Call where
  method : String
  params : List Json
  deriving Inhabited

/-- A node whose state is of a given type. A batch is answered in the order of its
calls, or fails as a whole. -/
structure Node (σ : Type) where
  url : String
  answer : Call → CallOptions → σ → Except NodeFailure Json × σ
  answerBatch : List Call → CallOptions → σ → Except NodeFailure (List Json) × σ

end ChainFeed
