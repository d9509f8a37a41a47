import ChainFeed.Binary64
import ChainFeed.Quantity

/-!
# Transactions of a block
-/

namespace ChainFeed

/-- A signed permission to run code in an account's name. -/
structure Authorization where
  chainId : UInt64
  nonce : UInt64
  address : Address
  yParity : UInt64
  r : Quantity
  s : Quantity
  deriving DecidableEq, Inhabited, Repr

/-- A transaction with what its receipt adds, and with the positions of its items
in the block. -/
structure Transaction where
  transactionIndex : UInt32
  hash : Option Hash
  sender : Option Address
  recipient : Option Address
  gas : Option Quantity
  gasPrice : Option Quantity
  maxFeePerGas : Option Quantity
  maxPriorityFeePerGas : Option Quantity
  input : Option Bytes
  /-- The selector of the called function. -/
  sighash : Option Bytes
  nonce : Option UInt64
  value : Option Quantity
  v : Option Quantity
  r : Option Quantity
  s : Option Quantity
  yParity : Option UInt64
  chainId : Option UInt64
  authorizationList : Option (List Authorization)
  gasUsed : Option Quantity
  cumulativeGasUsed : Option Quantity
  effectiveGasPrice : Option Quantity
  contractAddress : Option Address
  type : Option UInt64
  status : Option UInt64
  l1Fee : Option Quantity
  l1FeeScalar : Option Binary64
  l1GasPrice : Option Quantity
  l1GasUsed : Option Quantity
  l1BaseFeeScalar : Option UInt64
  l1BlobBaseFee : Option Quantity
  l1BlobBaseFeeScalar : Option UInt64
  /-- Positions of its logs among those of the block. -/
  logs : List Nat
  /-- Positions of its traces among those of the block. -/
  traces : List Nat
  /-- Positions of its state diffs among those of the block. -/
  stateDiffs : List Nat
  deriving DecidableEq, Inhabited, Repr

namespace Transaction

/-- A transaction with nothing but its index. -/
def bare (transactionIndex : UInt32) : Transaction :=
  { transactionIndex, hash := none, sender := none, recipient := none, gas := none,
    gasPrice := none, maxFeePerGas := none, maxPriorityFeePerGas := none, input := none,
    sighash := none, nonce := none, value := none, v := none, r := none, s := none,
    yParity := none, chainId := none, authorizationList := none, gasUsed := none,
    cumulativeGasUsed := none, effectiveGasPrice := none, contractAddress := none, type := none,
    status := none, l1Fee := none, l1FeeScalar := none, l1GasPrice := none, l1GasUsed := none,
    l1BaseFeeScalar := none, l1BlobBaseFee := none, l1BlobBaseFeeScalar := none, logs := [],
    traces := [], stateDiffs := [] }

/-- The transaction without positions. -/
def unlinked (transaction : Transaction) : Transaction :=
  { transaction with logs := [], traces := [], stateDiffs := [] }

end Transaction

end ChainFeed
