import ChainFeed.Block.Transaction
import ChainFeed.Projection.Property
import ChainFeed.Raw.Block
import ChainFeed.Raw.Receipt
import ChainFeed.Request.Fields

/-!
# Transactions from bodies and receipts

A body of hashes gives transactions with a hash at most.  A body in full gives
all that the transactions say, and always the selector of the called function,
because entries of a request may ask for it.  A receipt adds to the transaction at
its own position.
-/

namespace ChainFeed

/-- The permission as it is shown. -/
def Authorization.project (authorization : Raw.Authorization) : Authorization where
  chainId := authorization.chainId
  nonce := authorization.nonce
  address := authorization.address
  yParity := authorization.yParity
  r := authorization.r
  s := authorization.s

namespace Transaction

/-- The transaction at an index of which only the hash is known. -/
def ofHash (index : UInt32) (hash : Hash) (fields : TransactionFields) : Transaction :=
  { bare index with hash := shownAlways fields.hash hash }

/-- The transaction at an index from a body in full. -/
def ofFull (index : UInt32) (source : Raw.Transaction) (fields : TransactionFields) :
    Transaction :=
  { bare index with
    hash := shownAlways fields.hash source.hash
    sender := shown fields.sender source.sender
    recipient := shown fields.recipient source.recipient
    gas := shown fields.gas source.gas
    gasPrice := shown fields.gasPrice source.gasPrice
    maxFeePerGas := shown fields.maxFeePerGas source.maxFeePerGas
    maxPriorityFeePerGas := shown fields.maxPriorityFeePerGas source.maxPriorityFeePerGas
    input := shownAlways fields.input source.input
    sighash := some source.input.selector
    nonce := shown fields.nonce source.nonce
    value := shown fields.value source.value
    v := shown fields.v source.v
    r := shown fields.r source.r
    s := shown fields.s source.s
    yParity := shown fields.yParity source.yParity
    chainId := shown fields.chainId source.chainId
    type := shown fields.type source.type
    authorizationList :=
      (shown fields.authorizationList source.authorizationList).map
        (·.map Authorization.project) }

/-- The transactions of a body in full, which have to carry their positions as
indexes, from a position on. -/
def ofFullFrom (position : Nat) (fields : TransactionFields) :
    List Raw.Transaction → Except ProjectionFault (List Transaction)
  | [] => .ok []
  | source :: rest => do
      if source.transactionIndex.toNat ≠ position then
        throw (.transactionIndexMismatch position source.transactionIndex)
      let index ← narrow .transactionIndex source.transactionIndex
      let transactions ← ofFullFrom (position + 1) fields rest
      pure (ofFull index source fields :: transactions)

/-- The transactions of a body. -/
def ofBody (fields : TransactionFields) : Raw.Body → Except ProjectionFault (List Transaction)
  | .hashes words =>
      .ok (words.mapIdx fun position hash => ofHash (UInt32.ofNat position) hash fields)
  | .full transactions => ofFullFrom 0 fields transactions

/-- The transaction with what its receipt adds. The type is taken from the
receipt only if the receipt has one. -/
def withReceipt (transaction : Transaction) (receipt : Raw.Receipt)
    (fields : TransactionFields) : Transaction :=
  { transaction with
    gasUsed := shown fields.gasUsed receipt.gasUsed
    cumulativeGasUsed := shown fields.cumulativeGasUsed receipt.cumulativeGasUsed
    effectiveGasPrice := shown fields.effectiveGasPrice receipt.effectiveGasPrice
    contractAddress := shown fields.contractAddress receipt.contractAddress
    type := if receipt.type.isSome then shown fields.type receipt.type else transaction.type
    status := shown fields.status receipt.status
    l1Fee := shown fields.l1Fee receipt.l1Fee
    l1FeeScalar := shown fields.l1FeeScalar receipt.l1FeeScalar
    l1GasPrice := shown fields.l1GasPrice receipt.l1GasPrice
    l1GasUsed := shown fields.l1GasUsed receipt.l1GasUsed
    l1BaseFeeScalar := shown fields.l1BaseFeeScalar receipt.l1BaseFeeScalar
    l1BlobBaseFee := shown fields.l1BlobBaseFee receipt.l1BlobBaseFee
    l1BlobBaseFeeScalar := shown fields.l1BlobBaseFeeScalar receipt.l1BlobBaseFeeScalar }

end Transaction

end ChainFeed
