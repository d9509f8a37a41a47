import ChainFeed.Config
import ChainFeed.Fault

/-!
# Dialogues with a node

A dialogue asks a node, one call after another, until it has a result or meets a
fault.  What was said stays on record either way, and so does what was learned
about the node's capabilities.
-/

namespace ChainFeed

/-- The ways to get the receipts of blocks. -/
inductive ReceiptsMethod where
  /-- One call per block, by hash. -/
  | alchemy
  /-- One call per block, by height. -/
  | blockReceipts
  /-- One call per transaction. -/
  | transactionReceipt
  deriving DecidableEq, Inhabited, Repr

/-- The method that is called. -/
def ReceiptsMethod.name : ReceiptsMethod → String
  | alchemy => "alchemy_getTransactionReceipts"
  | blockReceipts => "eth_getBlockReceipts"
  | transactionReceipt => "eth_getTransactionReceipt"

/-- What is known about an endpoint, once it was found out. -/
structure Memo where
  genesisHash : Option Hash
  receiptsMethod : Option ReceiptsMethod
  deriving DecidableEq, Inhabited, Repr

/-- Nothing found out yet. -/
def Memo.empty : Memo := ⟨none, none⟩

/-- One exchange with a node. -/
inductive Exchange where
  | single (call : Call) (options : CallOptions) (reply : Except NodeFailure Json)
  | batch (calls : List Call) (options : CallOptions) (reply : Except NodeFailure (List Json))

/-- The state of a dialogue. -/
structure Session (σ : Type) where
  node : σ
  memo : Memo
  /-- All exchanges so far, the first one first. -/
  transcript : List Exchange

/-- A session in which nothing has been said. -/
def Session.start {σ : Type} (node : σ) : Session σ := ⟨node, .empty, []⟩

/-- A dialogue that ends with a value or a fault. -/
abbrev Dialogue (σ α : Type) := ExceptT Fault (StateM (Session σ)) α

/-- A node together with the way it is used. -/
structure Endpoint (σ : Type) where
  node : Node σ
  config : Config
  priority : UInt32

namespace Endpoint

variable {σ : Type}

/-- The endpoint of a node under a configuration. -/
def of (node : Node σ) (config : Config) : Endpoint σ := ⟨node, config, config.priority⟩

/-- The same endpoint with another hint of priority. -/
def withPriority (endpoint : Endpoint σ) (priority : UInt32) : Endpoint σ :=
  { endpoint with priority }

/-- Options with the endpoint's priority. -/
def options (endpoint : Endpoint σ) : CallOptions := ⟨endpoint.priority, none⟩

/-- Options under which some errors count as an answer. -/
def tolerating (endpoint : Endpoint σ) (tolerance : Tolerance) : CallOptions :=
  ⟨endpoint.priority, some tolerance⟩

/-- Makes a call and takes the reply, whatever it is. -/
def ask (endpoint : Endpoint σ) (call : Call) (options : CallOptions) :
    Dialogue σ (Except NodeFailure Json) :=
  fun session =>
    let (reply, node) := endpoint.node.answer call options session.node
    (.ok reply,
      { session with node, transcript := session.transcript ++ [.single call options reply] })

/-- Makes a batch of calls and takes the reply, whatever it is. -/
def askBatch (endpoint : Endpoint σ) (calls : List Call) (options : CallOptions) :
    Dialogue σ (Except NodeFailure (List Json)) :=
  fun session =>
    let (reply, node) := endpoint.node.answerBatch calls options session.node
    (.ok reply,
      { session with node, transcript := session.transcript ++ [.batch calls options reply] })

/-- A reply, unless the call failed. -/
def answered {α : Type} : Except NodeFailure α → Dialogue σ α
  | .ok value => pure value
  | .error failure => throw (.node failure)

/-- The value of an answer to a method. -/
def decoded {α : Type} (method : String) (read : Json → Option α) (answer : Json) :
    Dialogue σ α :=
  match read answer with
  | some value => pure value
  | none => throw (.malformed method .undecodable)

/-- Makes a call and reads the answer. -/
def call {α : Type} (endpoint : Endpoint σ) (call : Call) (options : CallOptions)
    (read : Json → Option α) : Dialogue σ α := do
  let answer ← answered (← endpoint.ask call options)
  decoded call.method read answer

/-- Makes a batch of calls; there has to be one answer for each. An empty batch
is not sent. -/
def batchRaw (endpoint : Endpoint σ) (calls : List Call) (options : CallOptions) :
    Dialogue σ (List Json) :=
  match calls with
  | [] => pure []
  | first :: rest => do
      let answers ← answered (← endpoint.askBatch (first :: rest) options)
      if answers.length = (first :: rest).length then
        pure answers
      else
        throw (.malformed first.method (.batchSize (first :: rest).length answers.length))

/-- Makes a batch of calls and reads the answers. -/
def batch {α : Type} (endpoint : Endpoint σ) (calls : List Call) (options : CallOptions)
    (read : Json → Option α) : Dialogue σ (List α) := do
  let answers ← endpoint.batchRaw calls options
  (calls.zip answers).mapM fun (call, answer) => decoded call.method read answer

end Endpoint

/-- A height as a parameter. -/
def heightParam (height : UInt64) : Json := .str (hexNumeral height.toNat)

/-- A hash as a parameter. -/
def hashParam (hash : Hash) : Json := .str hash.text

end ChainFeed
