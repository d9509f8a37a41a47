import ChainFeed.Block.Header
import ChainFeed.Projection.Property
import ChainFeed.Raw.Block
import ChainFeed.Request.Fields

/-!
# Headers from fetched blocks
-/

namespace ChainFeed

/-- The header of a fetched block. The node gives the timestamp in seconds. -/
def Header.project (block : Raw.Block) (fields : BlockFields) : Header where
  height := block.number
  hash := block.hash
  parentHash := block.parentHash
  timestamp := (shown fields.timestamp block.timestamp).map (· * 1000)
  nonce := shown fields.nonce block.nonce
  sha3Uncles := shown fields.sha3Uncles block.sha3Uncles
  logsBloom := shownAlways fields.logsBloom block.logsBloom
  transactionsRoot := shown fields.transactionsRoot block.transactionsRoot
  stateRoot := shown fields.stateRoot block.stateRoot
  receiptsRoot := shown fields.receiptsRoot block.receiptsRoot
  mixHash := shown fields.mixHash block.mixHash
  miner := shown fields.miner block.miner
  difficulty := shown fields.difficulty block.difficulty
  totalDifficulty := shown fields.totalDifficulty block.totalDifficulty
  extraData := shown fields.extraData block.extraData
  size := shown fields.size block.size
  gasLimit := shown fields.gasLimit block.gasLimit
  gasUsed := shown fields.gasUsed block.gasUsed
  baseFeePerGas := shown fields.baseFeePerGas block.baseFeePerGas
  l1BlockNumber := shown fields.l1BlockNumber block.l1BlockNumber

end ChainFeed
