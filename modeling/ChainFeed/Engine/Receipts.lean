import ChainFeed.Engine.Capability

/-!
# Fetching receipts

Receipts of a batch of blocks, by block or by transaction.  Receipts of another
block and receipts that do not cover the transactions make a block defective,
unless the check is skipped.
-/

namespace ChainFeed

/-- Shares items out among blocks by the block that they name. A block gets all
items with its hash, and a later block with the same hash none. -/
def shareByHash {α : Type} (hashOf : α → Hash) : List FetchedBlock → List α → List (List α)
  | [], _ => []
  | block :: blocks, items =>
      (items.filter fun item => hashOf item == block.hash) ::
        shareByHash hashOf blocks (items.filter fun item => !(hashOf item == block.hash))

/-- What receipts by block add to a block. -/
def receiptsOfBlock (skipped : SkippedChecks) (method : ReceiptsMethod) (block : FetchedBlock)
    (receipts : List Raw.Receipt) : Enrichment :=
  let count := block.block.transactions.length
  if !skipped.receiptBlockHash && receipts.any fun receipt => receipt.blockHash != block.hash then
    .defective (.foreignReceipts method.name)
  else if !skipped.receiptsNumber && receipts.length != count then
    .defective (.receiptCount method.name count receipts.length)
  else
    { Enrichment.empty with receipts := some receipts }

/-- What receipts by transaction add to a block. -/
def receiptsOfTransactions (skipped : SkippedChecks) (block : FetchedBlock)
    (receipts : List Raw.Receipt) : Enrichment :=
  if !skipped.receiptsNumber && receipts.length != block.block.transactions.length then
    .defective .missingReceipts
  else
    { Enrichment.empty with receipts := some receipts }

namespace Endpoint

variable {σ : Type}

/-- The call for the receipts of a block. -/
def blockReceiptsCall (method : ReceiptsMethod) (block : FetchedBlock) : Call :=
  match method with
  | .alchemy => ⟨method.name, [.obj [("blockHash", hashParam block.hash)]]⟩
  | _ => ⟨method.name, [heightParam block.height]⟩

/-- The call for the receipt of a transaction. -/
def receiptCall (hash : Hash) : Call :=
  ⟨ReceiptsMethod.transactionReceipt.name, [hashParam hash]⟩

/-- Receipts of blocks, one call per block. -/
def receiptsByBlock (endpoint : Endpoint σ) (method : ReceiptsMethod)
    (blocks : List FetchedBlock) : Dialogue σ (List Enrichment) := do
  let answers ←
    endpoint.batch (blocks.map (blockReceiptsCall method)) endpoint.options
      (Json.nullable (Json.list? Raw.Receipt.ofJson?))
  pure
    ((blocks.zip answers).map fun
      | (_, none) => .defective (.noReceipts method.name)
      | (block, some receipts) =>
          receiptsOfBlock endpoint.config.skippedChecks method block receipts)

/-- Receipts of blocks, one call per transaction. -/
def receiptsByTransaction (endpoint : Endpoint σ) (blocks : List FetchedBlock) :
    Dialogue σ (List Enrichment) := do
  let hashes := blocks.flatMap (·.block.transactions.toHashes)
  let answers ←
    endpoint.batch (hashes.map receiptCall) endpoint.options
      (Json.nullable Raw.Receipt.ofJson?)
  let shares := shareByHash Raw.Receipt.blockHash blocks (answers.filterMap id)
  pure
    ((blocks.zip shares).map fun (block, receipts) =>
      receiptsOfTransactions endpoint.config.skippedChecks block receipts)

/-- Receipts of blocks by the method of the endpoint. -/
def fetchReceipts (endpoint : Endpoint σ) (blocks : List FetchedBlock) :
    Dialogue σ (List Enrichment) := do
  match ← endpoint.receiptsMethod with
  | .transactionReceipt => endpoint.receiptsByTransaction blocks
  | method => endpoint.receiptsByBlock method blocks

end Endpoint

end ChainFeed
