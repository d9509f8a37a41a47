import ChainFeed.Engine.Blocks

/-!
# Capabilities of an endpoint

The chain is told by its genesis hash, and the best method for receipts by trying
the better ones first.  Both are found out when they are first needed and kept
from then on; a genesis hash that could not be found out is asked for again the
next time.
-/

namespace ChainFeed.Endpoint

variable {σ : Type}

/-- What is known about the endpoint. -/
def memo : Dialogue σ Memo := do
  pure (← get).memo

/-- Changes what is known about the endpoint. -/
def remember (update : Memo → Memo) : Dialogue σ Unit :=
  modify fun session => { session with memo := update session.memo }

/-- The hash that identifies the chain. -/
def genesisHash (endpoint : Endpoint σ) : Dialogue σ Hash := do
  match (← memo).genesisHash with
  | some hash => pure hash
  | none => do
      let height := endpoint.config.genesisHeight
      let block ←
        endpoint.call (blockCall height false) .plain (Json.nullable Raw.Block.ofJson?)
      match block with
      | none => throw (.unknownGenesis height endpoint.node.url)
      | some block => do
          remember fun memo => { memo with genesisHash := some block.hash }
          pure block.hash

/-- Whether a call is answered with a list. -/
def answersList (endpoint : Endpoint σ) (call : Call) : Dialogue σ Bool := do
  match ← endpoint.ask call .plain with
  | .ok (.arr _) => pure true
  | _ => pure false

/-- The best receipts method that the node serves. The last one is not tried: any
node serves it. -/
def probeReceiptsMethod (endpoint : Endpoint σ) : Dialogue σ ReceiptsMethod := do
  let byHash := ⟨ReceiptsMethod.alchemy.name, [.obj [("blockNumber", .str "0x1")]]⟩
  if ← endpoint.answersList byHash then
    pure .alchemy
  else if ← endpoint.answersList ⟨ReceiptsMethod.blockReceipts.name, [.str "latest"]⟩ then
    pure .blockReceipts
  else
    pure .transactionReceipt

/-- The receipts method of the endpoint. -/
def receiptsMethod (endpoint : Endpoint σ) : Dialogue σ ReceiptsMethod := do
  match (← memo).receiptsMethod with
  | some method => pure method
  | none => do
      let method ← endpoint.probeReceiptsMethod
      remember fun memo => { memo with receiptsMethod := some method }
      pure method

end ChainFeed.Endpoint
